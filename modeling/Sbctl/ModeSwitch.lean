import Mathlib.Data.List.Dedup
import Mathlib.Data.List.Sort
import Sbctl.Deployment

/-!
# Switching the delivery mode

A switch captures the files it may replace, publishes certificates,
configuration and artifacts, and restarts the services. Where a step fails it
writes the captured files back. Everything is relative to a root that is not
the live host's: unit files, owners and the metadata of files are left out.
-/

namespace Sbctl

open Text Assoc Snapshot

structure ModeOptions where
  mode : SubscriptionMode
  listenPort : Option UInt16
  subscriptionHost : Option String
  httpPort : Option UInt16
  certificateMode : Option CertificateMode
  protocolSni : Option String
  certbotEmail : Option String

inductive CertificateError where
  | notDirect
  | certbot (message : String)
  | certbotFailed (message : String)
  | unreadable (host detail : String)
  | malformedCertificate (host : String)
  | notYetValid (host notBefore : String)
  | expired (host notAfter : String)
  | sanMismatch (host : String)
  | keyMismatch (host : String)
  | keyInvalid (host : String)
  | storage (message : String)
  deriving DecidableEq, Repr

inductive SwitchError where
  | message (text : String)
  | config (error : ConfigError)
  | subscription (error : SubscriptionError)
  | certificate (error : CertificateError)
  deriving DecidableEq, Repr

/-- How a switch fails: before the capture, or after it with the old deployment
restored or not. -/
inductive SwitchFailure where
  | refused (error : SwitchError)
  | restored (error : SwitchError)
  | recoveryFailed (error : SwitchError) (recovery : String)
  deriving DecidableEq, Repr

/-! ## The desired configuration -/

def desiredListener (prior : DeploymentConfig) (options : ModeOptions) (new : DeploymentConfig) :
    Except SwitchError DeploymentConfig :=
  match options.mode with
  | .direct =>
    if options.httpPort.isSome || options.listenPort.isSome then
      .error (.message "Direct 不接受 --http-port 或 --listen-port")
    else .ok { new with httpPort := none, subscriptionListenPort := none }
  | .externalProxy =>
    if options.httpPort.isSome then .error (.message "External proxy 不接受 --http-port")
    else
      let kept := if prior.subscriptionMode = .externalProxy then prior.subscriptionListenPort
        else none
      .ok { new with httpPort := none, subscriptionListenPort := options.listenPort <|> kept }
  | .ipFallback =>
    if options.listenPort.isSome then .error (.message "IP fallback 不接受 --listen-port")
    else if prior.certificateMode = .domain ∧ options.certificateMode ≠ some .selfSigned then
      .error (.message "进入 IP fallback 需要显式指定 --certificate-mode self-signed")
    else
      let kept := if prior.subscriptionMode = .ipFallback then prior.httpPort else none
      .ok { new with
        certificateMode := .selfSigned
        subscriptionListenPort := none
        httpPort := options.httpPort <|> kept }

def desired (lib : Libraries) (prior : DeploymentConfig) (options : ModeOptions) :
    Except SwitchError DeploymentConfig := do
  let new ← desiredListener prior options { prior with
    subscriptionMode := options.mode
    subscriptionHost := (options.subscriptionHost.map toAsciiLowercase).getD prior.subscriptionHost
    certificateMode := options.certificateMode.getD prior.certificateMode
    protocolSni := options.protocolSni <|> prior.protocolSni
    certbotEmail := options.certbotEmail <|> prior.certbotEmail }
  (validate lib new).mapError SwitchError.config
  return new

/-- The port the subscription listener of a mode is bound to, if any. -/
def DeploymentConfig.listenerPort (config : DeploymentConfig) : Option UInt16 :=
  match config.subscriptionMode with
  | .externalProxy => config.subscriptionListenPort
  | .ipFallback => config.httpPort
  | .direct => none

/-- Probes the new port, unless the old listener frees it by stopping. -/
def prepareListener (bindable : String → UInt16 → Bool) (prior new : DeploymentConfig)
    (explicitPort : Bool) : Except SwitchError Unit :=
  match new.listenerPort with
  | none => .ok ()
  | some port =>
    let switched := new.subscriptionMode ≠ prior.subscriptionMode
    let samePort := prior.listenerPort = some port
    if ¬ (switched ∧ samePort) ∧ (explicitPort ∨ switched ∨ ¬ samePort) then
      let address := if new.subscriptionMode = .ipFallback then "0.0.0.0" else "127.0.0.1"
      if bindable address port then .ok ()
      else .error (.message s!"subscription listener port {port.toNat} already in use")
    else .ok ()

def acmeEmailIsValid (lib : Libraries) (email : String) : Bool :=
  let cs := email.toList
  match cs.dropWhile (· ≠ '@') with
  | [] => false
  | _ :: domain =>
    !(cs.takeWhile (· ≠ '@')).isEmpty && !domain.isEmpty && cs.count '@' == 1 &&
      !cs.any isWhitespace && (validateHost lib "host" (String.ofList domain)).toBool

/-! ## The snapshot -/

/-- A file a snapshot lists, by its path. -/
inductive SnapshotPath where
  | config
  | activeConfig
  | artifact (name : String)
  | certificate (directory name : String)
  deriving DecidableEq, Repr

def SnapshotPath.relative : SnapshotPath → String
  | .config => "etc/sbctl/config.toml"
  | .activeConfig => "etc/sing-box/config.json"
  | .artifact name => "var/lib/sbctl/artifacts/" ++ name
  | .certificate directory name => "var/lib/sbctl/certificates/" ++ directory ++ "/" ++ name

def SnapshotPath.file : SnapshotPath → DeploymentFile
  | .config => .managed .config
  | .activeConfig => .managed .activeConfig
  | .artifact name => .managed (.artifact (bytes name))
  | .certificate directory name => .certificate (bytes directory) (bytes name)

/-- Whether every name on the path is one component. -/
def SnapshotPath.valid : SnapshotPath → Bool
  | .config | .activeConfig => true
  | .artifact name => validateFileName name
  | .certificate directory name => validateFileName directory && validateFileName name

structure ModeSnapshot where
  files : List (SnapshotPath × Option Bytes)
  directories : List (String × Option Metadata)

def ownedArtifact (name : String) : Bool :=
  name == "sing-box-server.json" || startsWith name.toList "subscription-".toList

def certificateFileNames : List String := ["cert.pem", "key.pem", "fullchain.pem", "privkey.pem"]

/-- The certificate directories there are, and those of both configurations. -/
def snapshotDirectories (lib : Libraries) (prior new : DeploymentConfig) (d : Deployment) :
    List String :=
  let hosts := [prior, new].flatMap fun config =>
    [config.subscriptionHost, config.protocolServerName lib]
  let directories := d.certificates.map (fun entry => toStringLossy entry.1) ++ hosts
  (directories.insertionSort (· ≤ ·)).dedup

def snapshotPaths (directories : List String) (d : Deployment) : List SnapshotPath :=
  let artifacts := (d.store.artifacts.map fun entry => toStringLossy entry.1).filter ownedArtifact
  let certificates := directories.flatMap fun directory =>
    certificateFileNames.map (SnapshotPath.certificate directory)
  let paths := [.config, .activeConfig] ++ artifacts.map SnapshotPath.artifact ++ certificates
  (paths.insertionSort fun a b => a.relative ≤ b.relative).dedup

/-- Reads the files, up to the first that cannot be read. -/
def captureFiles (readFault : SnapshotPath → Option String) (d : Deployment) :
    List SnapshotPath → Except String (List (SnapshotPath × Option Bytes))
  | [] => .ok []
  | path :: rest =>
    match readFault path with
    | some message => .error message
    | none => (captureFiles readFault d rest).map ((path, d.read path.file) :: ·)

/-- `listFault` keeps a directory from being listed or looked at. -/
def ModeSnapshot.capture (lib : Libraries) (listFault : Option String)
    (readFault : SnapshotPath → Option String) (prior new : DeploymentConfig) (d : Deployment) :
    Except String ModeSnapshot :=
  match listFault with
  | some message => .error message
  | none =>
    let directories := snapshotDirectories lib prior new d
    (captureFiles readFault d (snapshotPaths directories d)).map fun files =>
      ⟨files, directories.map fun directory =>
        (directory, (d.directory (bytes directory)).map (·.metadata))⟩

/-! ## Restoring -/

/-- What goes wrong while a snapshot is restored. -/
structure RestoreFaults where
  list : Option String
  removeUncaptured : Bytes → Option String
  write : SnapshotPath → Option String
  metadata : SnapshotPath → Option String
  remove : SnapshotPath → Option String
  directory : String → Option String
  /-- The errors with what the model leaves out. -/
  others : List String
  restart : Option String

/-- Runs a step for each item and collects the errors. -/
def forEach {α : Type} (step : α → Deployment → Deployment × List String) :
    List α → Deployment → Deployment × List String
  | [], d => (d, [])
  | item :: rest, d =>
    let (d, errors) := step item d
    let (d, others) := forEach step rest d
    (d, errors ++ others)

def Deployment.removeDirectory (host : Bytes) (d : Deployment) : Deployment :=
  { d with certificates := remove host d.certificates }

namespace ModeSnapshot

variable (snapshot : ModeSnapshot) (faults : RestoreFaults)

def removeUncaptured (entry : Bytes) (d : Deployment) : Deployment × List String :=
  let name := toStringLossy entry
  if ownedArtifact name && !snapshot.files.any fun file => file.1 = .artifact name then
    match faults.removeUncaptured entry with
    | some message => (d, [message])
    | none => (d.set (.managed (.artifact entry)) none, [])
  else (d, [])

def writeRelativeLocked (path : SnapshotPath) (contents : Bytes) (d : Deployment) :
    Except String Deployment :=
  if path.valid then
    match faults.write path with
    | some message => .error ("configuration storage failed: " ++ message)
    | none => .ok (d.set path.file (some contents))
  else .error "configuration storage failed: managed name must be a single file name"

/-- A file that is already gone need not be removed. -/
def restoreFile (file : SnapshotPath × Option Bytes) (d : Deployment) : Deployment × List String :=
  match file.2 with
  | some contents =>
    match writeRelativeLocked faults file.1 contents d with
    | .error message => (d, [message])
    | .ok d => (d, (faults.metadata file.1).toList)
  | none =>
    match faults.remove file.1 with
    | some message => (d, [message])
    | none => (d.set file.1.file none, [])

/-- A directory that was not there is removed, where it is empty. -/
def restoreDirectory (entry : String × Option Metadata) (d : Deployment) :
    Deployment × List String :=
  match entry.2, d.directory (bytes entry.1) with
  | some _, none => (d, ["No such file or directory (os error 2)"])
  | some metadata, some directory =>
    match faults.directory entry.1 with
    | some message => (d, [message])
    | none => (d.setDirectory (bytes entry.1) { directory with metadata }, [])
  | none, none => (d, [])
  | none, some directory =>
    if directory.entries.isEmpty then
      match faults.directory entry.1 with
      | some message => (d, [message])
      | none => (d.removeDirectory (bytes entry.1), [])
    else (d, [])

def restore (touchedServices : Bool) (d : Deployment) : Deployment × Except String Unit :=
  match faults.list with
  | some message => (d, .error message)
  | none =>
    let (d, removals) := forEach (snapshot.removeUncaptured faults)
      (d.store.artifacts.map Prod.fst) d
    let (d, files) := forEach (restoreFile faults) snapshot.files d
    let (d, directories) := forEach (restoreDirectory faults) snapshot.directories.reverse d
    let restart := if touchedServices then faults.restart.toList else []
    let errors := removals ++ files ++ directories ++ faults.others ++ restart
    (d, if errors.isEmpty then .ok () else .error ("；".intercalate errors))

end ModeSnapshot

/-! ## The switch -/

/-- A certificate that passed every check, as far as it is published. -/
structure ValidatedCertificate where
  fingerprint : String
  fullchainPem : Bytes
  privkeyPem : Bytes

/-- What a switch meets outside the deployment. A fault is the message of an
operation that fails. -/
structure SwitchSurroundings where
  lib : Libraries
  account : Account
  requirePrivileges : Option String
  lockFault : Option String
  configFault : Option String
  tomlFromStr : String → Option DeploymentConfig
  bindable : String → UInt16 → Bool
  binaryIsFile : Bool
  /-- Checks certificate and key at an instant and takes the fingerprint. -/
  validateMaterial : Int → DeploymentConfig → Bytes → Bytes → Except CertificateError String
  now : Int
  pinnedFault : Option String
  /-- The pair in Certbot's live directory. -/
  live : Except String (Bytes × Bytes)
  certbotFound : Bool
  listFault : Option String
  readFault : SnapshotPath → Option String
  pin : PairFaults
  bootstrap : Attempt
  transaction : Attempt
  services : Option String
  certbot : Option CertificateError
  issuedAt : Int
  issued : Except String (Bytes × Bytes)
  issuedPin : PairFaults
  secondTransaction : Attempt
  secondServices : Option String
  recovery : RestoreFaults

/-- The directory of the pinned copy. -/
def pinnedDirectory (config : DeploymentConfig) : Bytes :=
  bytes (toAsciiLowercase config.subscriptionHost)

def refreshPendingFile : String := ".sbctl-refresh-pending"

def Directory.readPair (directory : Option Directory) (first second : String) :
    Except String (Bytes × Bytes) :=
  match directory with
  | none => .error "No such file or directory (os error 2)"
  | some directory => do
    let first ← directory.regularFile (bytes first)
    let second ← directory.regularFile (bytes second)
    return (← readMaterial first, ← readMaterial second)

/-- Goes on with the result of a step that did not fail. -/
def andThen {α β : Type} (step : Deployment × Except SwitchError α)
    (next : α → Deployment → Deployment × Except SwitchError β) :
    Deployment × Except SwitchError β :=
  match step with
  | (d, .error error) => (d, .error error)
  | (d, .ok a) => next a d

namespace SwitchSurroundings

variable (s : SwitchSurroundings)

def load (d : Deployment) : Except ConfigError DeploymentConfig :=
  match s.configFault with
  | some message => .error (.storage message)
  | none =>
    match d.store.config with
    | none => .error .missing
    | some contents =>
      match fromUtf8 contents with
      | none => .error (.storage "stream did not contain valid UTF-8")
      | some text =>
        match s.tomlFromStr text with
        | none => .error .parse
        | some config => (validate s.lib config.lowered).map fun () => config.lowered

def loadDirectoryAt (instant : Int) (config : DeploymentConfig)
    (pair : Except String (Bytes × Bytes)) : Except CertificateError ValidatedCertificate :=
  if config.subscriptionMode ≠ .direct then .error .notDirect
  else
    match pair with
    | .error detail => .error (.unreadable config.subscriptionHost detail)
    | .ok (fullchain, privkey) =>
      (s.validateMaterial instant config fullchain privkey).map fun fingerprint =>
        ⟨fingerprint, fullchain, privkey⟩

def loadPinned (config : DeploymentConfig) (d : Deployment) :
    Except CertificateError ValidatedCertificate :=
  s.loadDirectoryAt s.now config
    (match s.pinnedFault with
      | some message => .error message
      | none => Directory.readPair (d.directory (pinnedDirectory config)) "fullchain.pem"
          "privkey.pem")

def pinFiles (certificate : ValidatedCertificate) : List (String × Bytes) :=
  [("fullchain.pem", certificate.fullchainPem), ("privkey.pem", certificate.privkeyPem)]

def pinCertificate (faults : PairFaults) (config : DeploymentConfig)
    (certificate : ValidatedCertificate) (d : Deployment) : Deployment × Except SwitchError Unit :=
  let (d, result) := writePrivatePair s.account faults (pinnedDirectory config)
    (pinFiles certificate) (some refreshPendingFile) d
  (d, result.mapError fun message => .certificate (.storage message))

/-- What a switch has found out before it captures. -/
structure SwitchPlan where
  new : DeploymentConfig
  /-- The live certificate, where it is to be pinned. -/
  toPin : Option ValidatedCertificate
  obtain : Bool

def selectPinned (new : DeploymentConfig) (pinned live : Option ValidatedCertificate) :
    Option ValidatedCertificate :=
  let liveIsNewer := live.any fun live => pinned.map (·.fingerprint) ≠ some live.fingerprint
  if new.subscriptionMode = .direct ∧ liveIsNewer ∨
      new.subscriptionMode = .externalProxy ∧ new.certificateMode = .domain then live
  else none

def checkObtain (new : DeploymentConfig) (obtain : Bool) : Except SwitchError Unit :=
  if obtain then
    if s.certbotFound then
      if new.certbotEmail.any (acmeEmailIsValid s.lib) then .ok ()
      else .error (.message "签发 Direct 证书需要有效的 --certbot-email（或已保存的邮箱）")
    else .error (.certificate (.certbot ("certbot is not installed. On Debian/Ubuntu, install " ++
      "it with `sudo apt-get update && sudo apt-get install certbot`, then retry.")))
  else .ok ()

/-- The certificate files are looked at as if in direct mode. -/
def planSwitch (new : DeploymentConfig) (d : Deployment) : Except SwitchError SwitchPlan :=
  let certConfig := { new with
    subscriptionMode := .direct, httpPort := none, subscriptionListenPort := none }
  let pinned := (s.loadPinned certConfig d).toOption
  let live := (s.loadDirectoryAt s.now certConfig s.live).toOption
  let obtain := new.subscriptionMode = .direct ∧ pinned.isNone ∧ live.isNone
  if new.subscriptionMode = .externalProxy ∧ new.certificateMode = .domain ∧ live.isNone then
    .error (.message "External proxy 的域名协议证书缺失或无效；请先提供覆盖目标域名的证书")
  else (s.checkObtain new obtain).map fun () => ⟨new, selectPinned new pinned live, obtain⟩

def pinLive (plan : SwitchPlan) (d : Deployment) : Deployment × Except SwitchError Unit :=
  match plan.toPin with
  | some live => s.pinCertificate s.pin plan.new live d
  | none => (d, .ok ())

/-- The server configuration with a temporary certificate, while the domain's
is still to be obtained. -/
def stagedServer (plan : SwitchPlan) (d : Deployment) :
    Deployment × Except SwitchError (Option String) :=
  if plan.obtain ∧ plan.new.certificateMode = .domain then
    match generatedArtifacts s.lib s.account s.bootstrap
        { plan.new with certificateMode := .selfSigned } d with
    | (d, .error error) => (d, .error (.subscription error))
    | (d, .ok staged) =>
      match staged.artifacts.lookup singBoxServerArtifact with
      | none => (d, .error (.message "缺少临时服务端配置"))
      | some server => (d, .ok (some server))
  else (d, .ok none)

def applyTransaction (attempt : Attempt) (new : DeploymentConfig) (server : Option String)
    (d : Deployment) : Deployment × Except SwitchError Unit :=
  let (d, result) := applyConfigTransaction s.lib s.account attempt new server d
  (d, (result.mapError SwitchError.subscription).map fun _ => ())

/-- The commit up to its first transaction. -/
def publishConfiguration (plan : SwitchPlan) (d : Deployment) :
    Deployment × Except SwitchError Unit :=
  andThen (s.pinLive plan d) fun () d =>
    andThen (s.stagedServer plan d) fun server d =>
      s.applyTransaction s.transaction plan.new server d

/-- Reconciling the units and restarting the services. -/
def restartServices (fault : Option String) (d : Deployment) : Deployment × Except SwitchError Unit :=
  match fault with
  | some message => (d, .error (.message message))
  | none => (d, .ok ())

/-- The certificate a Certbot run leaves, validated. -/
def issuedCertificate (new : DeploymentConfig) : Except CertificateError ValidatedCertificate :=
  if new.subscriptionMode ≠ .direct then .error .notDirect
  else
    match s.certbot with
    | some error => .error error
    | none => s.loadDirectoryAt s.issuedAt new s.issued

def obtainCertificate (new : DeploymentConfig) (d : Deployment) :
    Deployment × Except SwitchError Unit :=
  match s.issuedCertificate new with
  | .error error => (d, .error (.certificate error))
  | .ok certificate => s.pinCertificate s.issuedPin new certificate d

/-- The commit after its first transaction. -/
def startServices (plan : SwitchPlan) (d : Deployment) : Deployment × Except SwitchError Unit :=
  andThen (restartServices s.services d) fun () d =>
    if plan.obtain then
      andThen (s.obtainCertificate plan.new d) fun () d =>
        andThen (s.applyTransaction s.secondTransaction plan.new none d) fun () d =>
          restartServices s.secondServices d
    else (d, .ok ())

/-- Writes the snapshot back after an error. -/
def recover (snapshot : ModeSnapshot) (touchedServices : Bool) (error : SwitchError)
    (d : Deployment) : Deployment × Except SwitchFailure Unit :=
  match snapshot.restore s.recovery touchedServices d with
  | (d, .ok ()) => (d, .error (.restored error))
  | (d, .error recovery) => (d, .error (.recoveryFailed error recovery))

def commit (snapshot : ModeSnapshot) (plan : SwitchPlan) (d : Deployment) :
    Deployment × Except SwitchFailure Unit :=
  match s.publishConfiguration plan d with
  | (d, .error error) => s.recover snapshot false error d
  | (d, .ok ()) =>
    match s.startServices plan d with
    | (d, .error error) => s.recover snapshot true error d
    | (d, .ok ()) => (d, .ok ())

def failIf (fault : Option String) (wrap : String → SwitchError) : Except SwitchError Unit :=
  match fault with
  | some message => .error (wrap message)
  | none => .ok ()

/-- The checks before the capture, with the configurations they read. -/
def prepareSwitch (options : ModeOptions) (d : Deployment) :
    Except SwitchError (ModeSnapshot × SwitchPlan) := do
  failIf s.requirePrivileges .message
  failIf s.lockFault fun message => .config (.storage message)
  let prior ← (s.load d).mapError SwitchError.config
  let new ← desired s.lib prior options
  prepareListener s.bindable prior new (options.listenPort.isSome || options.httpPort.isSome)
  failIf (if s.binaryIsFile then none
    else some "模式切换需要 sing-box 内核；用 --sing-box-bin 指定") .message
  let plan ← s.planSwitch new d
  let snapshot ← (ModeSnapshot.capture s.lib s.listFault s.readFault prior new d).mapError
    SwitchError.message
  return (snapshot, plan)

def switchMode (options : ModeOptions) (d : Deployment) : Deployment × Except SwitchFailure Unit :=
  match s.prepareSwitch options d with
  | .error error => (d, .error (.refused error))
  | .ok (snapshot, plan) => s.commit snapshot plan d

end SwitchSurroundings

end Sbctl
