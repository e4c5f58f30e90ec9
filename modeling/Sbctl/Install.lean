import Sbctl.Lib.Spelling
import Sbctl.Lib.Stepwise
import Sbctl.Update

/-!
# A fresh installation and its rollback

Preflight refuses a host that shows a deployment. The transaction then writes
its files one after the other; where one of its steps fails, what it has written
is removed by a list of names, and the data directory is emptied but for the
operation lock.

* `failed_install_leaves_iff`: a failed installation leaves the files of the
  host as they were, unless the data directory held a file of someone else, the
  name of a temporary file was taken, or the step that failed leaves its own.
-/

namespace Sbctl

open Text Assoc Stepwise

abbrev FileTree := List (String × Bytes)

/-! ## Paths -/

def dataDirectory : String := "var/lib/sbctl"
def artifactsDirectory : String := "var/lib/sbctl/artifacts"
def certificatesDirectory : String := "var/lib/sbctl/certificates"
def operationLock : String := "var/lib/sbctl/.operation.lock"
def ownershipMarker : String := "var/lib/sbctl/ownership"
def stateFile : String := "var/lib/sbctl/state.json"
def configFile : String := "etc/sbctl/config.toml"
def activeConfigFile : String := "etc/sing-box/config.json"

def singBoxUnit : String := "etc/systemd/system/sing-box.service"
def sbctlUnit : String := "etc/systemd/system/sbctl.service"
def sbctlHttpSocket : String := "etc/systemd/system/sbctl-http.socket"
def accountingResetUnit : String := "etc/systemd/system/sbctl-accounting-reset.service"
def accountingResetTimer : String := "etc/systemd/system/sbctl-accounting-reset.timer"
def credentialRotateUnit : String := "etc/systemd/system/sbctl-credential-rotate.service"
def credentialRotateTimer : String := "etc/systemd/system/sbctl-credential-rotate.timer"

def below (directory path : String) : Bool := startsWith path.toList (directory.toList ++ ['/'])

/-- Whether there is a file, or a directory with a file in it. -/
def occupied {α : Type} (tree : List (String × α)) (path : String) : Bool :=
  tree.any fun file => file.1 = path || below path file.1

def join (directory name : String) : String := directory ++ "/" ++ name

/-- The entry of the data directory a file is, or is in. -/
def dataEntry (path : String) : Option (List Char) :=
  (stripPrefix (dataDirectory.toList ++ ['/']) path.toList).map (·.takeWhile (· ≠ '/'))

/-- The name under which a binary or a unit is first written. -/
def newName (path : String) : String :=
  let segments := (splitChar '/' path.toList).map String.ofList
  "/".intercalate (segments.dropLast ++ ["." ++ segments.getLastD "" ++ ".new"])

/-! ## Preflight -/

def deploymentPaths : List String :=
  ["usr/bin/sing-box", singBoxBinary, "opt/sing-box/sing-box", "etc/sing-box",
    "usr/local/etc/sing-box", "opt/sing-box", singBoxUnit, "lib/systemd/system/sing-box.service",
    sbctlUnit, sbctlHttpSocket, accountingResetUnit, accountingResetTimer,
    "etc/systemd/system/sbctl-email.service", "etc/systemd/system/sbctl-email.timer",
    credentialRotateUnit, credentialRotateTimer,
    "etc/systemd/system/timers.target.wants/sbctl-email.timer",
    "etc/systemd/system/timers.target.wants/sbctl-credential-rotate.timer",
    "etc/systemd/system/multi-user.target.wants/sing-box.service",
    "etc/systemd/system/multi-user.target.wants/sbctl.service",
    "etc/systemd/system/sockets.target.wants/sbctl-http.socket",
    "etc/systemd/system/timers.target.wants/sbctl-accounting-reset.timer", certbotDeployHook,
    configFile, "etc/sbctl/email.toml", "var/lib/sbctl/email-state.json", stateFile,
    ownershipMarker, artifactsDirectory, certificatesDirectory, "var/lib/sbctl/acme-webroot"]

def systemdUnitMatches (tree : FileTree) : List String :=
  ["etc/systemd/system", "lib/systemd/system", "usr/lib/systemd/system",
    "run/systemd/system"].flatMap fun directory =>
      (tree.filter fun file => below directory file.1 &&
        (fromUtf8 file.2).any fun text => contains "sing-box".toList text.toList).map Prod.fst

/-- An absolute directory, as it is found below the root. -/
def rootedPath (path : List Char) : Option (List String) :=
  match path with
  | '/' :: rest => some (((splitChar '/' rest).map String.ofList).filter
      fun segment => segment ≠ "" ∧ segment ≠ "." ∧ segment ≠ "..")
  | _ => none

def pathBinaryMatches (searchPath : Option String) (tree : FileTree) : List String :=
  ((searchPath.map fun path => splitChar ':' path.toList).getD []).filterMap fun directory =>
    (rootedPath directory).bind fun segments =>
      let binary := "/".intercalate (segments ++ ["sing-box"])
      if occupied tree binary then some binary else none

/-- What shows that there is a deployment. Preflight refuses a host with any. -/
def existingDeploymentPaths (searchPath : Option String) (tree : FileTree) : List String :=
  ((deploymentPaths.filter (occupied tree) ++ systemdUnitMatches tree ++
    pathBinaryMatches searchPath tree).mergeSort (· ≤ ·)).dedup

/-- What an installation found when it began. -/
structure PreexistingState where
  config : Bool
  dataDirectory : Bool
  managementBinary : Bool
  deriving DecidableEq

def preexistingState {α : Type} (tree : List (String × α)) : PreexistingState where
  config := occupied tree configFile
  dataDirectory := occupied tree stateFile || occupied tree ownershipMarker ||
    tree.any (fun file => below artifactsDirectory file.1) ||
    tree.any fun file => below certificatesDirectory file.1
  managementBinary := (tree.lookup sbctlBinary).isSome

namespace FreshInstall

/-! ## The transaction -/

/-- What the transaction writes: the kernel, what is rendered, measured and
issued on the way, and the texts of the units. -/
structure InstallMaterials where
  singBox : Bytes
  selfSigned : Bytes × Bytes
  server : Bytes
  clients : List (String × Bytes)
  /-- The server configuration before there is a certificate for the domain. -/
  bootstrapServer : Bytes
  config : Bytes
  state : Bytes
  unit : String → Bytes
  /-- The certificate that was issued before. -/
  live : Option (Bytes × Bytes)
  /-- The certificate the installation obtains. -/
  obtained : Option (Bytes × Bytes)
  renewedServer : Bytes
  renewedClients : List (String × Bytes)

abbrev InstallStep := Step String Bytes

def writePair (host : String) (files : List (String × Bytes)) : List InstallStep :=
  [.ensure (join certificatesDirectory ".operation.lock") [],
    .store (files.map fun file => (join (join certificatesDirectory host) file.1, file.2))]

def writeArtifacts (server : Bytes) (clients : List (String × Bytes)) : List InstallStep :=
  (("sing-box-server.json", server) :: clients).map fun artifact =>
    .store [(join artifactsDirectory artifact.1, artifact.2)]

def pin (config : DeploymentConfig) : Option (Bytes × Bytes) → List InstallStep
  | some (fullchain, privkey) =>
    .act :: writePair config.subscriptionHost [("fullchain.pem", fullchain),
      ("privkey.pem", privkey), (".sbctl-refresh-pending", [])]
  | none => [.act]

def writeUnit (m : InstallMaterials) (path : String) : InstallStep :=
  .beside path (newName path) (m.unit path)

section
variable (lib : Libraries) (noStart : Bool) (config : DeploymentConfig) (m : InstallMaterials)

/-- Rendering for a self-signed certificate issues it first. -/
def generateArtifacts (mode : CertificateMode) : List InstallStep :=
  (match mode with
    | .selfSigned => writePair (config.protocolServerName lib)
        [("cert.pem", m.selfSigned.1), ("key.pem", m.selfSigned.2)]
    | .domain => []) ++ [.act]

def bootstrapDomain (tree : FileTree) : Bool :=
  !noStart && config.subscriptionMode == .direct && config.certificateMode == .domain &&
    (tree.lookup (join (join certificatesDirectory config.subscriptionHost)
      "fullchain.pem")).isNone

def server (bootstrap : Bool) : Bytes := if bootstrap then m.bootstrapServer else m.server

def initializeWithArtifacts (bootstrap : Bool) : List InstallStep :=
  .act :: writeArtifacts (server m bootstrap) m.clients ++
    (if config.subscriptionMode = .direct then [.act] else []) ++
    [.store [(configFile, m.config)]]

def installCheckedSingBox : InstallStep := .beside singBoxBinary (newName singBoxBinary) m.singBox

/-- What the daemons find before they are started. -/
def prepareDaemons : List InstallStep :=
  if noStart then []
  else .act :: (if config.subscriptionMode = .direct then pin config m.live else []) ++
    [.act, .store [(stateFile, m.state)]]

def installUnits (bootstrap : Bool) : List InstallStep :=
  [.act, .store [(activeConfigFile, server m bootstrap)], .act, writeUnit m singBoxUnit,
    writeUnit m sbctlUnit, writeUnit m accountingResetUnit, writeUnit m accountingResetTimer] ++
    if config.subscriptionMode = .direct then
      [writeUnit m sbctlHttpSocket, writeUnit m certbotDeployHook, .act]
    else []

/-- Starts the services. A domain gets its certificate by then, and what was
rendered without it is rendered again. -/
def startServices (bootstrap : Bool) : List InstallStep :=
  if noStart then []
  else [.act, .act] ++
    (if config.subscriptionMode = .direct then
      pin config m.obtained ++
        if bootstrap then
          .act :: writeArtifacts m.renewedServer m.renewedClients ++
            [.store [(activeConfigFile, m.renewedServer)], .act, .act]
        else []
    else []) ++
    [.store [(ownershipMarker, bytes "sbctl-managed-v1\n")]]

/-- The steps of the transaction, from where it owns the host to its commit. -/
def transaction (tree : FileTree) : List InstallStep :=
  let bootstrap := bootstrapDomain noStart config tree
  [.act, .ensure operationLock [], .act] ++ generateArtifacts lib config m config.certificateMode ++
    (if bootstrap then generateArtifacts lib config m .selfSigned else []) ++ [.act] ++
    initializeWithArtifacts config m bootstrap ++ [installCheckedSingBox m] ++
    prepareDaemons noStart config m ++ installUnits config m bootstrap ++
    startServices noStart config m bootstrap

end

/-! ## Rollback -/

/-- Whether emptying the data directory removes a file. -/
def removable (path : String) : Bool :=
  (dataEntry path).any (· ≠ ".operation.lock".toList)

def removeDataDirectoryKeepingLock (tree : FileTree) : FileTree :=
  tree.filter fun file => !removable file.1

def rollbackNames : List String :=
  [sbctlHttpSocket, sbctlUnit, singBoxUnit, accountingResetUnit, accountingResetTimer,
    credentialRotateUnit, credentialRotateTimer, activeConfigFile, singBoxBinary, sbctlBinary,
    configFile, certbotDeployHook, ownershipMarker, join artifactsDirectory "sing-box-server.json",
    join artifactsDirectory "subscription-sing-box.json",
    join artifactsDirectory "subscription-clash.yaml",
    join artifactsDirectory "subscription-uri.txt",
    join artifactsDirectory "subscription-base64-uri.txt",
    join artifactsDirectory "subscription-shadowrocket.txt", stateFile]

/-- Whether a path is owned by a deployment that was there before. -/
def predatesTransaction (relative : String) (preexisting : PreexistingState) : Bool :=
  preexisting.config && relative == configFile ||
    preexisting.dataDirectory && startsWith relative.toList dataDirectory.toList ||
    preexisting.managementBinary && relative == sbctlBinary

def rollbackFreshInstallation (preexisting : PreexistingState) (tree : FileTree) : FileTree :=
  let tree := (rollbackNames.filter (!predatesTransaction · preexisting)).foldl
    (fun tree relative => remove relative tree) tree
  if preexisting.dataDirectory then tree else removeDataDirectoryKeepingLock tree

/-- What a step that fails has done by then. -/
structure StepFailure where
  /-- What the file holds that was to be renamed, if it was begun. -/
  begun : Option Bytes
  /-- Files left or lost in the data directory. -/
  scattered : List (String × Option Bytes)

def scatter (entries : List (String × Option Bytes)) (tree : FileTree) : FileTree :=
  entries.foldl (fun tree entry =>
    if removable entry.1 then
      match entry.2 with
      | some contents => put entry.1 contents tree
      | none => remove entry.1 tree
    else tree) tree

/-- A file put in place as a whole leaves nothing where that fails; a pair of
certificate files is staged in the data directory. -/
def interrupt (failure : StepFailure) (step : InstallStep) (tree : FileTree) : FileTree :=
  match step with
  | .act => tree
  | .ensure path contents =>
    if failure.begun.isSome then (Step.ensure path contents).perform tree else tree
  | .store files =>
    if files.any fun file => removable file.1 then scatter failure.scattered tree else tree
  | .beside _ temporary _ =>
    match failure.begun with
    | some contents => put temporary contents tree
    | none => tree

def configCommitted (done : List InstallStep) : Bool :=
  done.any fun step => decide (configFile ∈ step.targets)

/-- Where the installation fails after the steps that are done. -/
def failedInstall (preexisting : PreexistingState) (done : List InstallStep) (tree : FileTree) :
    FileTree :=
  if !configCommitted done && !preexisting.config && occupied tree configFile then tree
  else
    let tree := (Step.ensure operationLock []).perform tree
    if !configCommitted done && occupied tree configFile then tree
    else rollbackFreshInstallation preexisting tree

/-! ## What the transaction writes -/

theorem dataEntry_join {directory : String} {e : List Char}
    (h : directory.toList = dataDirectory.toList ++ '/' :: e) (hentry : '/' ∉ e)
    (name : String) : dataEntry (join directory name) = some e := by
  have hpath : (join directory name).toList =
      (dataDirectory.toList ++ ['/']) ++ (e ++ '/' :: name.toList) := by
    simp [join, h]
  have hsegment : ∀ c ∈ e, decide (c ≠ '/') = true := by
    intro c hc
    rw [decide_eq_true_eq]
    rintro rfl
    exact hentry hc
  rw [dataEntry, hpath, stripPrefix_append, Option.map_some, List.takeWhile_append_of_pos hsegment]
  simp

theorem removable_artifact (name : String) : removable (join artifactsDirectory name) := by
  rw [removable, dataEntry_join (e := "artifacts".toList)
    (by simp [artifactsDirectory, dataDirectory]) (by simp)]
  decide

theorem removable_certificate (name : String) :
    removable (join certificatesDirectory name) := by
  rw [removable, dataEntry_join (e := "certificates".toList)
    (by simp [certificatesDirectory, dataDirectory]) (by simp)]
  decide

theorem join_join (directory host name : String) :
    join (join directory host) name = join directory (join host name) := by
  simp [join, String.append_assoc]

/-- What the transaction installs outside the data directory. -/
def installedPaths : List String :=
  [configFile, singBoxBinary, activeConfigFile, singBoxUnit, sbctlUnit, accountingResetUnit,
    accountingResetTimer, sbctlHttpSocket, certbotDeployHook]

/-- What a step of the transaction may write to. -/
def Confined : InstallStep → Prop
  | .act => True
  | .ensure path _ => path = operationLock ∨ removable path
  | .store files => ∀ file ∈ files, removable file.1 ∨ file.1 ∈ installedPaths
  | .beside path _ _ => path ∈ installedPaths

theorem Confined.target {step : InstallStep} (h : Confined step) {x : String}
    (hx : x ∈ step.targets) : x = operationLock ∨ removable x ∨ x ∈ installedPaths := by
  cases step with
  | act => cases hx
  | ensure path contents =>
    cases List.mem_singleton.mp hx
    exact h.imp_right Or.inl
  | store files =>
    obtain ⟨file, hfile, rfl⟩ := List.mem_map.mp hx
    exact Or.inr (h file hfile)
  | beside path temporary contents =>
    cases List.mem_singleton.mp hx
    exact Or.inr (Or.inr h)

section
variable (lib : Libraries) (noStart bootstrap : Bool) (config : DeploymentConfig)
  (m : InstallMaterials)

theorem confined_act : Confined .act := trivial

theorem confined_single {path : String} (h : removable path ∨ path ∈ installedPaths)
    (contents : Bytes) : Confined (.store [(path, contents)]) := by
  intro file hfile
  cases List.mem_singleton.mp hfile
  exact h

theorem confined_writePair (host : String) (files : List (String × Bytes)) :
    ∀ step ∈ writePair host files, Confined step := by
  intro step hstep
  simp only [writePair, List.mem_cons, List.not_mem_nil, or_false] at hstep
  obtain rfl | rfl := hstep
  · exact Or.inr (removable_certificate _)
  · intro file hfile
    obtain ⟨file, -, rfl⟩ := List.mem_map.mp hfile
    rw [join_join]
    exact Or.inl (removable_certificate _)

theorem confined_writeArtifacts (rendered : Bytes) (clients : List (String × Bytes)) :
    ∀ step ∈ writeArtifacts rendered clients, Confined step := by
  intro step hstep
  obtain ⟨artifact, -, rfl⟩ := List.mem_map.mp hstep
  exact confined_single (Or.inl (removable_artifact _)) _

theorem confined_pin (pair : Option (Bytes × Bytes)) :
    ∀ step ∈ pin config pair, Confined step := by
  cases pair with
  | none => simpa [pin] using confined_act
  | some pair => exact List.forall_mem_cons.mpr ⟨confined_act, confined_writePair _ _⟩

theorem confined_generateArtifacts (mode : CertificateMode) :
    ∀ step ∈ generateArtifacts lib config m mode, Confined step := by
  unfold generateArtifacts
  rw [List.forall_mem_append]
  refine ⟨?_, by simpa using confined_act⟩
  cases mode with
  | domain => simp
  | selfSigned => exact confined_writePair _ _

theorem confined_initialize :
    ∀ step ∈ initializeWithArtifacts config m bootstrap, Confined step := by
  simp only [initializeWithArtifacts, List.cons_append, List.forall_mem_cons,
    List.forall_mem_append]
  refine ⟨confined_act, ⟨confined_writeArtifacts _ _, ?_⟩, ?_, by simp⟩
  · split <;> simp [confined_act]
  · exact confined_single (Or.inr (by simp [installedPaths])) _

theorem confined_prepareDaemons : ∀ step ∈ prepareDaemons noStart config m, Confined step := by
  unfold prepareDaemons
  cases noStart with
  | true => simp
  | false =>
    simp only [Bool.false_eq_true, if_false, List.cons_append, List.forall_mem_cons,
      List.forall_mem_append]
    refine ⟨confined_act, ?_, confined_act, confined_single (Or.inl (by decide)) _,
      by simp⟩
    split
    · exact confined_pin _ _
    · simp

theorem confined_installUnits : ∀ step ∈ installUnits config m bootstrap, Confined step := by
  have hunit : ∀ path ∈ installedPaths, Confined (writeUnit m path) := fun path h => h
  rw [installUnits, List.forall_mem_append]
  constructor
  · simp only [List.forall_mem_cons]
    refine ⟨confined_act, confined_single (Or.inr (by simp [installedPaths])) _, confined_act,
      hunit _ ?_, hunit _ ?_, hunit _ ?_, hunit _ ?_, by simp⟩ <;> simp [installedPaths]
  · split
    · simp only [List.forall_mem_cons]
      refine ⟨hunit _ ?_, hunit _ ?_, confined_act, by simp⟩ <;> simp [installedPaths]
    · simp

theorem confined_startServices :
    ∀ step ∈ startServices noStart config m bootstrap, Confined step := by
  unfold startServices
  cases noStart with
  | true => simp
  | false =>
    simp only [Bool.false_eq_true, if_false, List.forall_mem_append]
    refine ⟨⟨by simp [confined_act], ?_⟩,
      by simpa using confined_single (Or.inl (by decide)) _⟩
    split
    · rw [List.forall_mem_append]
      refine ⟨confined_pin _ _, ?_⟩
      split
      · simp only [List.cons_append, List.forall_mem_cons, List.forall_mem_append]
        exact ⟨confined_act, confined_writeArtifacts _ _,
          confined_single (Or.inr (by simp [installedPaths])) _, confined_act, confined_act,
          by simp⟩
      · simp
    · simp

/-- The transaction writes to the data directory and the installed paths only. -/
theorem confined_transaction (tree : FileTree) :
    ∀ step ∈ transaction lib noStart config m tree, Confined step := by
  have hlock : Confined (.ensure operationLock []) := Or.inl rfl
  simp only [transaction, List.forall_mem_append]
  refine ⟨⟨⟨⟨⟨⟨⟨⟨?_, ?_⟩, ?_⟩, ?_⟩, ?_⟩, ?_⟩, ?_⟩, ?_⟩, ?_⟩
  · simp [confined_act, hlock]
  · exact confined_generateArtifacts lib config m _
  · split
    · exact confined_generateArtifacts lib config m _
    · simp
  · simp [confined_act]
  · exact confined_initialize _ config m
  · rw [List.forall_mem_singleton]
    change singBoxBinary ∈ installedPaths
    simp [installedPaths]
  · exact confined_prepareDaemons noStart config m
  · exact confined_installUnits _ config m
  · exact confined_startServices noStart _ config m

/-! ## Temporary files -/

theorem temporary_writeArtifacts (rendered : Bytes) (clients : List (String × Bytes)) :
    (writeArtifacts rendered clients).filterMap Step.temporary? = [] := by
  rw [List.filterMap_eq_nil_iff]
  intro step hstep
  obtain ⟨artifact, -, rfl⟩ := List.mem_map.mp hstep
  rfl

theorem temporary_pin (pair : Option (Bytes × Bytes)) :
    (pin config pair).filterMap Step.temporary? = [] := by
  cases pair <;> rfl

theorem temporary_generateArtifacts (mode : CertificateMode) :
    (generateArtifacts lib config m mode).filterMap Step.temporary? = [] := by
  cases mode <;> rfl

theorem temporary_initialize :
    (initializeWithArtifacts config m bootstrap).filterMap Step.temporary? = [] := by
  cases hmode : config.subscriptionMode <;>
    simp [-List.filterMap_eq_nil_iff, List.filterMap_cons, initializeWithArtifacts, hmode,
      temporary_writeArtifacts, Step.temporary?]

theorem temporary_prepareDaemons :
    (prepareDaemons noStart config m).filterMap Step.temporary? = [] := by
  cases noStart <;> cases hmode : config.subscriptionMode <;>
    simp [-List.filterMap_eq_nil_iff, List.filterMap_cons, prepareDaemons, hmode, temporary_pin,
      Step.temporary?]

theorem temporary_startServices :
    (startServices noStart config m bootstrap).filterMap Step.temporary? = [] := by
  cases noStart <;> cases hmode : config.subscriptionMode <;> cases bootstrap <;>
    simp [-List.filterMap_eq_nil_iff, List.filterMap_cons, startServices, hmode, temporary_pin,
      temporary_writeArtifacts, Step.temporary?]

/-- The names under which the binary and the units are first written. -/
def newNames : List String :=
  [singBoxBinary, singBoxUnit, sbctlUnit, accountingResetUnit, accountingResetTimer,
    sbctlHttpSocket, certbotDeployHook].map newName

theorem temporary_installUnits :
    newName singBoxBinary :: (installUnits config m bootstrap).filterMap Step.temporary? =
      if config.subscriptionMode = .direct then newNames else newNames.take 5 := by
  cases hmode : config.subscriptionMode <;>
    simp [List.filterMap_cons, installUnits, hmode, newNames, writeUnit, Step.temporary?]

/-- Each temporary name is used once. -/
theorem temporaries_transaction (tree : FileTree) :
    (transaction lib noStart config m tree).filterMap Step.temporary? =
      if config.subscriptionMode = .direct then newNames else newNames.take 5 := by
  rw [← temporary_installUnits (bootstrapDomain noStart config tree) config m]
  have hbootstrap : (if bootstrapDomain noStart config tree then
      generateArtifacts lib config m .selfSigned else []).filterMap Step.temporary? = [] := by
    split
    · exact temporary_generateArtifacts lib config m _
    · rfl
  simp only [transaction, List.filterMap_append, temporary_generateArtifacts, hbootstrap,
    temporary_initialize, temporary_prepareDaemons, temporary_startServices]
  simp [List.filterMap_cons, installCheckedSingBox, Step.temporary?]

end

theorem newNames_eq : newNames =
    ["usr/local/bin/.sing-box.new", "etc/systemd/system/.sing-box.service.new",
      "etc/systemd/system/.sbctl.service.new",
      "etc/systemd/system/.sbctl-accounting-reset.service.new",
      "etc/systemd/system/.sbctl-accounting-reset.timer.new",
      "etc/systemd/system/.sbctl-http.socket.new",
      "etc/letsencrypt/renewal-hooks/deploy/.sbctl-certificate-deploy-hook.new"] := by
  decide

theorem newNames_nodup : newNames.Nodup := by
  rw [newNames_eq]
  decide

theorem temporaries_sublist (lib : Libraries) (noStart : Bool) (config : DeploymentConfig)
    (m : InstallMaterials) (tree : FileTree) :
    ((transaction lib noStart config m tree).filterMap Step.temporary?).Sublist newNames := by
  rw [temporaries_transaction]
  split
  · exact List.Sublist.refl _
  · exact List.take_sublist _ _

/-- Nothing else has one of the temporary names. -/
theorem newNames_outside : ∀ y ∈ newNames, y ≠ operationLock ∧ ¬ removable y ∧
    y ∉ rollbackNames ∧ y ≠ configFile ∧ ¬ below configFile y := by
  rw [newNames_eq]
  decide

theorem installedPaths_outside : ∀ y ∈ installedPaths, y ≠ operationLock ∧ y ∈ rollbackNames ∧
    y ≠ sbctlBinary ∧ (below configFile y → y = configFile) := by decide

theorem operationLock_outside : ¬ removable operationLock ∧ operationLock ∉ rollbackNames ∧
    operationLock ≠ configFile ∧ ¬ below configFile operationLock := by decide

/-! ## What preflight rules out -/

theorem unoccupied_iff {tree : FileTree} {path : String} :
    occupied tree path = false ↔ ∀ x, x = path ∨ below path x → tree.lookup x = none := by
  rw [occupied, List.any_eq_false]
  constructor
  · intro h x hx
    apply lookup_eq_none
    intro hmem
    obtain ⟨file, hfile, rfl⟩ := List.mem_map.mp hmem
    exact h file hfile (by simpa using hx)
  · intro h file hfile hx
    have hnone := h file.1 (by simpa using hx)
    rw [← Option.not_isSome_iff_eq_none, lookup_isSome] at hnone
    exact hnone (List.mem_map_of_mem hfile)

section
variable {searchPath : Option String} {tree : FileTree}
  (hfresh : existingDeploymentPaths searchPath tree = [])
include hfresh

theorem fresh_unoccupied {path : String} (hpath : path ∈ deploymentPaths) :
    occupied tree path = false := by
  rw [Bool.eq_false_iff]
  intro hoccupied
  have hmem : path ∈ existingDeploymentPaths searchPath tree := by
    rw [existingDeploymentPaths, List.mem_dedup, List.mem_mergeSort, List.append_assoc,
      List.mem_append, List.mem_filter]
    exact Or.inl ⟨hpath, hoccupied⟩
  rw [hfresh] at hmem
  cases hmem

theorem fresh_preexistingState :
    preexistingState tree = ⟨false, false, (tree.lookup sbctlBinary).isSome⟩ := by
  have hbelow : ∀ directory ∈ deploymentPaths,
      (tree.any fun file => below directory file.1) = false := by
    intro directory hdirectory
    rw [List.any_eq_false]
    intro file hfile hin
    have hnone := unoccupied_iff.mp (fresh_unoccupied hfresh hdirectory) file.1 (Or.inr hin)
    rw [← Option.not_isSome_iff_eq_none, lookup_isSome] at hnone
    exact hnone (List.mem_map_of_mem hfile)
  have hlisted := fun path => @fresh_unoccupied _ _ hfresh path
  have hconfig := hlisted configFile (by simp [deploymentPaths])
  have hstate := hlisted stateFile (by simp [deploymentPaths])
  have hmarker := hlisted ownershipMarker (by simp [deploymentPaths])
  simp [preexistingState, hconfig, hstate, hmarker,
    hbelow artifactsDirectory (by simp [deploymentPaths]),
    hbelow certificatesDirectory (by simp [deploymentPaths])]

end

/-! ## What the rollback removes -/

theorem lookup_removeNames (names : List String) (tree : FileTree) (path : String) :
    (names.foldl (fun tree relative => remove relative tree) tree).lookup path =
      if path ∈ names then none else tree.lookup path := by
  induction names generalizing tree with
  | nil => simp
  | cons name rest ih =>
    rw [List.foldl_cons, ih, lookup_remove]
    by_cases hname : path = name
    · simp [hname]
    · simp [hname]

theorem lookup_scatter {path : String} (h : ¬ removable path)
    (entries : List (String × Option Bytes)) (tree : FileTree) :
    (scatter entries tree).lookup path = tree.lookup path := by
  induction entries generalizing tree with
  | nil => rfl
  | cons entry rest ih =>
    obtain ⟨name, contents⟩ := entry
    rw [scatter, List.foldl_cons]
    refine (ih _).trans ?_
    split
    · rename_i hname
      have hne : path ≠ name := fun heq => h (heq ▸ hname)
      cases contents with
      | some contents => exact (lookup_put _ _ _ _).trans (if_neg hne)
      | none => exact (lookup_remove _ _ _).trans (if_neg hne)
    · rfl

/-- A file the rollback removes where nothing but the binary was there before. -/
def RolledBack (managementBinary : Bool) (path : String) : Prop :=
  removable path ∨ path ∈ rollbackNames ∧ (managementBinary → path ≠ sbctlBinary)

instance (managementBinary : Bool) (path : String) :
    Decidable (RolledBack managementBinary path) :=
  inferInstanceAs (Decidable (_ ∨ _ ∧ _))

theorem lookup_rollbackFreshInstallation (managementBinary : Bool) (tree : FileTree)
    (path : String) :
    (rollbackFreshInstallation ⟨false, false, managementBinary⟩ tree).lookup path =
      if RolledBack managementBinary path then none else tree.lookup path := by
  have hpredates : ∀ relative, predatesTransaction relative ⟨false, false, managementBinary⟩ =
      (managementBinary && relative == sbctlBinary) := by
    intro relative
    simp [predatesTransaction]
  simp only [rollbackFreshInstallation, removeDataDirectoryKeepingLock, hpredates]
  rw [if_neg Bool.false_ne_true, @lookup_filter _ _ _ _ _ _ _ fun name => !removable name,
    lookup_removeNames]
  by_cases hremovable : removable path = true
  · simp [RolledBack, hremovable]
  · by_cases hlisted : path ∈ rollbackNames <;> cases managementBinary <;>
      simp [RolledBack, hremovable, hlisted]

/-! ## Failed installations -/

section
variable {lib : Libraries} {noStart : Bool} {config : DeploymentConfig} {m : InstallMaterials}
  {searchPath : Option String} {tree : FileTree} {done rest : List InstallStep}
  {step : InstallStep}

/-- What the host holds when the step fails. -/
def leftBy (failure : StepFailure) (done : List InstallStep) (step : InstallStep)
    (tree : FileTree) : FileTree :=
  interrupt failure step (performAll done tree)

theorem lookup_interrupt (failure : StepFailure) {path : String} (hlock : path ≠ operationLock)
    (hremovable : ¬ removable path) (hstep : Confined step) (t : FileTree) :
    (interrupt failure step t).lookup path =
      if step.temporary? = some path then failure.begun.or (t.lookup path) else t.lookup path := by
  cases step with
  | act => simp [interrupt, Step.temporary?]
  | ensure target contents =>
    have hne : path ≠ target := by
      rintro rfl
      exact hstep.elim hlock hremovable
    simp only [interrupt, Step.temporary?, reduceCtorEq, if_false]
    split
    · rw [lookup_perform (List.mem_singleton.not.mpr hne)]
      simp [Step.temporary?]
    · rfl
  | store files =>
    simp only [interrupt, Step.temporary?, reduceCtorEq, if_false]
    split
    · exact lookup_scatter hremovable _ _
    · rfl
  | beside target temporary contents =>
    simp only [interrupt, Step.temporary?, Option.some.injEq]
    cases failure.begun with
    | none => simp
    | some contents =>
      rw [lookup_put]
      by_cases heq : path = temporary
      · simp [heq]
      · simp [heq, Ne.symm heq]

section
variable {lib : Libraries} {noStart : Bool} {config : DeploymentConfig} {m : InstallMaterials}
  {searchPath : Option String} {tree : FileTree} {done rest : List InstallStep}
  {step : InstallStep} (hsteps : transaction lib noStart config m tree = done ++ step :: rest)
include hsteps

theorem confined_done : ∀ s ∈ done, Confined s := by
  intro s hs
  apply confined_transaction lib noStart config m tree
  rw [hsteps]
  exact List.mem_append_left _ hs

theorem confined_step : Confined step := by
  apply confined_transaction lib noStart config m tree
  rw [hsteps]
  exact List.mem_append_right _ List.mem_cons_self

theorem temporaries_newNames :
    ∀ t, t ∈ done.filterMap Step.temporary? ∨ step.temporary? = some t → t ∈ newNames := by
  intro t ht
  apply (temporaries_sublist lib noStart config m tree).subset
  rw [hsteps, List.filterMap_append, List.mem_append, List.filterMap_cons]
  refine ht.imp id fun hstep => ?_
  rw [hstep]
  exact List.mem_cons_self

/-- The step that fails has a temporary name of its own. -/
theorem temporary_fresh {t : String} (ht : step.temporary? = some t) :
    t ∉ done.filterMap Step.temporary? := by
  have hnodup := newNames_nodup.sublist (temporaries_sublist lib noStart config m tree)
  rw [hsteps, List.filterMap_append, List.filterMap_cons, ht] at hnodup
  intro hdone
  exact (List.nodup_append.mp hnodup).2.2 t hdone t List.mem_cons_self rfl

theorem lookup_leftBy (failure : StepFailure) {path : String} (hlock : path ≠ operationLock)
    (hremovable : ¬ removable path) (htargets : ∀ s ∈ done, path ∉ s.targets) :
    (leftBy failure done step tree).lookup path =
      if step.temporary? = some path then failure.begun.or (tree.lookup path)
      else if path ∈ done.filterMap Step.temporary? then none else tree.lookup path := by
  rw [leftBy, lookup_interrupt failure hlock hremovable (confined_step hsteps),
    lookup_performAll htargets]
  split
  · rename_i ht
    rw [if_neg (temporary_fresh hsteps ht)]
  · rfl

omit hsteps in
theorem head_of_stripPrefix {c : Char} {pre cs : List Char}
    (h : (stripPrefix (c :: pre) cs).isSome) : cs.head? = some c := by
  cases cs with
  | nil => simp [stripPrefix] at h
  | cons d rest =>
    by_cases hc : c = d
    · rw [List.head?_cons, hc]
    · simp [stripPrefix, hc] at h

omit hsteps in
theorem head_of_removable {path : String} (h : removable path) : path.toList.head? = some 'v' := by
  apply head_of_stripPrefix (c := 'v')
  obtain ⟨entry, hentry, -⟩ := (Option.any_eq_true _ _).mp h
  obtain ⟨after, hafter, -⟩ := Option.map_eq_some_iff.mp hentry
  rw [Option.isSome_iff_exists]
  exact ⟨after, hafter⟩

/-- No configuration is found that the installation did not commit itself. -/
theorem leftBy_unoccupied (hfresh : existingDeploymentPaths searchPath tree = [])
    (failure : StepFailure) (h : configCommitted done = false) :
    occupied (leftBy failure done step tree) configFile = false := by
  have hbefore := unoccupied_iff.mp (fresh_unoccupied hfresh (show configFile ∈ deploymentPaths by
    simp [deploymentPaths]))
  have hhead : configFile.toList.head? = some 'e' := by decide
  rw [unoccupied_iff]
  intro x hx
  have hremovable : ¬ removable x := by
    intro hrem
    have hv := head_of_removable hrem
    obtain rfl | hbelow := hx
    · exact absurd (hhead.symm.trans hv) (by decide)
    · have he : x.toList.head? = some 'e' := head_of_stripPrefix hbelow
      exact absurd (he.symm.trans hv) (by decide)
  have hlock : x ≠ operationLock := by
    rintro rfl
    exact hx.elim operationLock_outside.2.2.1 operationLock_outside.2.2.2
  have hunnamed : x ∉ newNames := by
    intro hmem
    obtain ⟨-, -, -, hne, hbelow⟩ := newNames_outside x hmem
    exact hx.elim hne hbelow
  have htargets : ∀ s ∈ done, x ∉ s.targets := by
    intro s hs hmem
    obtain heq | hrem | hinstalled := (confined_done hsteps s hs).target hmem
    · exact hlock heq
    · exact hremovable hrem
    · cases hx.elim id (installedPaths_outside x hinstalled).2.2.2
      have hcommitted : configCommitted done = true :=
        List.any_eq_true.mpr ⟨s, hs, decide_eq_true hmem⟩
      rw [h] at hcommitted
      cases hcommitted
  rw [lookup_leftBy hsteps failure hlock hremovable htargets, hbefore x hx]
  have hnames := temporaries_newNames hsteps x
  split
  · rename_i ht
    exact absurd (hnames (Or.inr ht)) hunnamed
  · split <;> rfl

theorem failedInstall_eq (hfresh : existingDeploymentPaths searchPath tree = [])
    (failure : StepFailure) :
    failedInstall (preexistingState tree) done (leftBy failure done step tree) =
      rollbackFreshInstallation ⟨false, false, (tree.lookup sbctlBinary).isSome⟩
        ((Step.ensure operationLock []).perform (leftBy failure done step tree)) := by
  rw [failedInstall, fresh_preexistingState hfresh]
  cases hcommitted : configCommitted done with
  | true => simp
  | false =>
    have hleft := leftBy_unoccupied hsteps hfresh failure hcommitted
    have hlocked : occupied ((Step.ensure operationLock []).perform
        (leftBy failure done step tree)) configFile = false := by
      rw [unoccupied_iff] at hleft ⊢
      intro x hx
      have hlock : x ≠ operationLock := by
        rintro rfl
        exact hx.elim operationLock_outside.2.2.1 operationLock_outside.2.2.2
      rw [lookup_perform (List.mem_singleton.not.mpr hlock)]
      simpa [Step.temporary?] using hleft x hx
    simp [hleft, hlocked]

theorem lookup_failedInstall (hfresh : existingDeploymentPaths searchPath tree = [])
    (failure : StepFailure) {path : String} (hlock : path ≠ operationLock) :
    (failedInstall (preexistingState tree) done (leftBy failure done step tree)).lookup path =
      if RolledBack (tree.lookup sbctlBinary).isSome path then none
      else (leftBy failure done step tree).lookup path := by
  rw [failedInstall_eq hsteps hfresh, lookup_rollbackFreshInstallation,
    lookup_perform (List.mem_singleton.not.mpr hlock)]
  simp [Step.temporary?]

/-- A file that neither the rollback removes nor the transaction has a name for
is left as it was. -/
theorem lookup_failedInstall_other (hfresh : existingDeploymentPaths searchPath tree = [])
    (failure : StepFailure) {path : String} (hlock : path ≠ operationLock)
    (hrolled : ¬ RolledBack (tree.lookup sbctlBinary).isSome path) :
    (failedInstall (preexistingState tree) done (leftBy failure done step tree)).lookup path =
      if step.temporary? = some path then failure.begun.or (tree.lookup path)
      else if path ∈ done.filterMap Step.temporary? then none else tree.lookup path := by
  have hremovable : ¬ removable path := fun h => hrolled (Or.inl h)
  have htargets : ∀ s ∈ done, path ∉ s.targets := by
    intro s hs hmem
    obtain heq | hrem | hinstalled := (confined_done hsteps s hs).target hmem
    · exact hlock heq
    · exact hremovable hrem
    · obtain ⟨-, hlisted, hne, -⟩ := installedPaths_outside path hinstalled
      exact hrolled (Or.inr ⟨hlisted, fun _ => hne⟩)
  rw [lookup_failedInstall hsteps hfresh failure hlock, if_neg hrolled,
    lookup_leftBy hsteps failure hlock hremovable htargets]

theorem ensured_lock {contents : Bytes} (h : tree.lookup operationLock = some contents)
    (failure : StepFailure) :
    (leftBy failure done step tree).lookup operationLock = some contents := by
  have hremovable : ¬ removable operationLock := operationLock_outside.1
  have hinstalled : operationLock ∉ installedPaths := fun h => (installedPaths_outside _ h).1 rfl
  have hunnamed : operationLock ∉ newNames := fun h => (newNames_outside _ h).1 rfl
  have hdone : (performAll done tree).lookup operationLock = some contents := by
    refine lookup_performAll_ensured (fun s hs => ?_) h
    have hconfined := confined_done hsteps s hs
    by_cases htarget : operationLock ∈ s.targets
    · cases s with
      | act => cases htarget
      | ensure path c =>
        cases List.mem_singleton.mp htarget
        exact Or.inl ⟨c, rfl⟩
      | store files =>
        obtain ⟨file, hfile, heq⟩ := List.mem_map.mp htarget
        exact ((heq ▸ hconfined file hfile).elim hremovable hinstalled).elim
      | beside path t c =>
        cases List.mem_singleton.mp htarget
        exact absurd hconfined hinstalled
    · refine Or.inr ⟨htarget, fun ht => hunnamed ?_⟩
      exact temporaries_newNames hsteps _ (Or.inl (List.mem_filterMap.mpr ⟨s, hs, ht⟩))
  have hstep := confined_step hsteps
  rw [leftBy]
  cases step with
  | act => exact hdone
  | ensure path c =>
    simp only [interrupt]
    split
    · by_cases heq : operationLock = path
      · subst heq
        rw [Step.perform, hdone, Option.isSome_some, if_pos rfl, hdone]
      · rw [lookup_perform (List.mem_singleton.not.mpr heq)]
        simpa [Step.temporary?] using hdone
    · exact hdone
  | store files =>
    simp only [interrupt]
    split
    · rw [lookup_scatter hremovable, hdone]
    · exact hdone
  | beside path t c =>
    have hne : operationLock ≠ t := by
      rintro rfl
      exact hunnamed (temporaries_newNames hsteps _ (Or.inr rfl))
    simp only [interrupt]
    split
    · rw [lookup_put, if_neg hne, hdone]
    · exact hdone

end

end

/-- A listed file was not there before, but for the binary that is left alone. -/
theorem fresh_rolledBack {searchPath : Option String} {tree : FileTree}
    (hfresh : existingDeploymentPaths searchPath tree = []) {path : String}
    (h : RolledBack (tree.lookup sbctlBinary).isSome path) :
    removable path ∨ tree.lookup path = none := by
  obtain hremovable | ⟨hlisted, hbinary⟩ := h
  · exact Or.inl hremovable
  · have hcases : ∀ y ∈ rollbackNames, y = sbctlBinary ∨ y ∈ deploymentPaths ∨
        below "etc/sing-box" y ∨ below artifactsDirectory y := by decide
    have hknown := fun p hp => unoccupied_iff.mp (@fresh_unoccupied _ _ hfresh p hp) path
    refine Or.inr ?_
    obtain rfl | hmem | hactive | hartifact := hcases path hlisted
    · rw [← Option.not_isSome_iff_eq_none]
      exact fun hsome => hbinary hsome rfl
    · exact hknown path hmem (Or.inl rfl)
    · exact hknown "etc/sing-box" (by simp [deploymentPaths]) (Or.inr hactive)
    · exact hknown artifactsDirectory (by simp [deploymentPaths]) (Or.inr hartifact)

/-- Every file is as it was, and none is new but for the operation lock. -/
def LeavesFiles (before after : FileTree) : Prop :=
  (∀ path contents, before.lookup path = some contents → after.lookup path = some contents) ∧
    ∀ path, path ≠ operationLock → before.lookup path = none → after.lookup path = none

theorem LeavesFiles.missing {before after : FileTree} (h : LeavesFiles before after)
    {path : String} (hgone : after.lookup path = none) : before.lookup path = none := by
  cases hbefore : before.lookup path with
  | none => rfl
  | some contents =>
    have hheld := h.1 path contents hbefore
    rw [hgone] at hheld
    cases hheld

theorem LeavesFiles.begun {before after : FileTree} (h : LeavesFiles before after)
    {path : String} (hlock : path ≠ operationLock) {begun : Option Bytes}
    (hleft : after.lookup path = begun.or (before.lookup path)) :
    begun = none ∨ begun = before.lookup path := by
  cases begun with
  | none => exact Or.inl rfl
  | some contents =>
    rw [Option.some_or] at hleft
    refine Or.inr ?_
    cases hbefore : before.lookup path with
    | none =>
      have hnone := h.2 path hlock hbefore
      rw [hleft] at hnone
      cases hnone
    | some prior => exact hleft.symm.trans (h.1 path prior hbefore)

section
variable {lib : Libraries} {noStart : Bool} {config : DeploymentConfig} {m : InstallMaterials}
  {searchPath : Option String} {tree : FileTree} {done rest : List InstallStep}
  {step : InstallStep} (hsteps : transaction lib noStart config m tree = done ++ step :: rest)
include hsteps

theorem temporary_kept {path : String}
    (hpath : path ∈ done.filterMap Step.temporary? ∨ step.temporary? = some path) :
    path ≠ operationLock ∧ ¬ RolledBack (tree.lookup sbctlBinary).isSome path := by
  obtain ⟨hlock, hremovable, hlisted, -⟩ :=
    newNames_outside path (temporaries_newNames hsteps path hpath)
  exact ⟨hlock, fun h => h.elim hremovable fun h => hlisted h.1⟩

/-- Where nothing was in the way of the rollback or of a temporary name, every other file is
as it was. -/
theorem lookup_failedInstall_same (hfresh : existingDeploymentPaths searchPath tree = [])
    (failure : StepFailure) (hdata : ∀ path, removable path → tree.lookup path = none)
    (hused : ∀ path ∈ done.filterMap Step.temporary?, tree.lookup path = none)
    (hbegun : ∀ path, step.temporary? = some path →
      failure.begun = none ∨ failure.begun = tree.lookup path)
    {path : String} (hlock : path ≠ operationLock) :
    (failedInstall (preexistingState tree) done (leftBy failure done step tree)).lookup path =
      tree.lookup path := by
  by_cases hrolled : RolledBack (tree.lookup sbctlBinary).isSome path
  · rw [lookup_failedInstall hsteps hfresh failure hlock, if_pos hrolled,
      (fresh_rolledBack hfresh hrolled).elim (hdata path) id]
  · rw [lookup_failedInstall_other hsteps hfresh failure hlock hrolled]
    split
    · rename_i hstep
      obtain hnone | hheld := hbegun path hstep
      · rw [hnone, Option.none_or]
      · rw [hheld, Option.or_self]
    · split
      · rename_i hdone
        rw [hused path hdone]
      · rfl

theorem lookup_failedInstall_lock (hfresh : existingDeploymentPaths searchPath tree = [])
    (failure : StepFailure) {contents : Bytes}
    (h : tree.lookup operationLock = some contents) :
    (failedInstall (preexistingState tree) done (leftBy failure done step tree)).lookup
      operationLock = some contents := by
  have hleft := ensured_lock hsteps h failure
  have hrolled : ¬ RolledBack (tree.lookup sbctlBinary).isSome operationLock :=
    fun h => h.elim operationLock_outside.1 fun h => operationLock_outside.2.1 h.1
  rw [failedInstall_eq hsteps hfresh, lookup_rollbackFreshInstallation, if_neg hrolled,
    Step.perform, hleft, Option.isSome_some, if_pos rfl, hleft]

end

/-- A failed installation leaves the files as they were exactly where the data
directory held no file, the temporary names it has used were free, and the step
that failed has not begun a temporary file of its own. -/
theorem failed_install_leaves_iff (lib : Libraries) (noStart : Bool) (config : DeploymentConfig)
    (m : InstallMaterials) (searchPath : Option String) (tree : FileTree)
    (hfresh : existingDeploymentPaths searchPath tree = []) (done rest : List InstallStep)
    (step : InstallStep) (hsteps : transaction lib noStart config m tree = done ++ step :: rest)
    (failure : StepFailure) :
    LeavesFiles tree (failedInstall (preexistingState tree) done (leftBy failure done step tree)) ↔
      (∀ path, removable path → tree.lookup path = none) ∧
      (∀ path ∈ done.filterMap Step.temporary?, tree.lookup path = none) ∧
      ∀ path, step.temporary? = some path →
        failure.begun = none ∨ failure.begun = tree.lookup path := by
  constructor
  · intro hleaves
    refine ⟨fun path hremovable => ?_, fun path hdone => ?_, fun path hstep => ?_⟩
    · have hlock : path ≠ operationLock := by
        rintro rfl
        exact operationLock_outside.1 hremovable
      have hgone := lookup_failedInstall hsteps hfresh failure hlock
      rw [if_pos (show RolledBack _ path from Or.inl hremovable)] at hgone
      exact hleaves.missing hgone
    · obtain ⟨hlock, hrolled⟩ := temporary_kept hsteps (Or.inl hdone)
      have hne : step.temporary? ≠ some path := fun h => temporary_fresh hsteps h hdone
      have hgone := lookup_failedInstall_other hsteps hfresh failure hlock hrolled
      rw [if_neg hne, if_pos hdone] at hgone
      exact hleaves.missing hgone
    · obtain ⟨hlock, hrolled⟩ := temporary_kept hsteps (Or.inr hstep)
      have hleft := lookup_failedInstall_other hsteps hfresh failure hlock hrolled
      rw [if_pos hstep] at hleft
      exact hleaves.begun hlock hleft
  · rintro ⟨hdata, hused, hbegun⟩
    refine ⟨fun path contents hbefore => ?_, fun path hlock hbefore => ?_⟩
    · by_cases hlock : path = operationLock
      · subst hlock
        exact lookup_failedInstall_lock hsteps hfresh failure hbefore
      · rw [lookup_failedInstall_same hsteps hfresh failure hdata hused hbegun hlock, hbefore]
    · rw [lookup_failedInstall_same hsteps hfresh failure hdata hused hbegun hlock, hbefore]

/-! ## A binary that is not renamed -/

def sampleMaterials : InstallMaterials where
  singBox := [1]
  selfSigned := ([], [])
  server := []
  clients := []
  bootstrapServer := []
  config := []
  state := []
  unit _ := []
  live := none
  obtained := none
  renewedServer := []
  renewedClients := []

def sampleSteps : List InstallStep :=
  transaction sampleLibraries true sampleConfig sampleMaterials []

theorem empty_fresh : existingDeploymentPaths none [] = [] := by
  have hnone : deploymentPaths.filter (occupied ([] : FileTree)) = [] := List.filter_eq_nil_iff.mpr (by
    simp [occupied])
  simp [existingDeploymentPaths, hnone, systemdUnitMatches, pathBinaryMatches]

/-- The copy of the kernel cannot be renamed, and stays. -/
theorem failed_install_litters : ¬ ∀ (lib : Libraries) (noStart : Bool) (config : DeploymentConfig)
    (m : InstallMaterials) (searchPath : Option String) (tree : FileTree)
    (done rest : List InstallStep) (step : InstallStep) (failure : StepFailure),
    Accepted lib config → existingDeploymentPaths searchPath tree = [] →
    transaction lib noStart config m tree = done ++ step :: rest →
      LeavesFiles tree
        (failedInstall (preexistingState tree) done (leftBy failure done step tree)) := by
  intro hclaim
  have hleaves := hclaim sampleLibraries true sampleConfig sampleMaterials none []
    (sampleSteps.take 9) (sampleSteps.drop 10) (installCheckedSingBox sampleMaterials)
    ⟨some [1], []⟩ sampleConfig_accepted empty_fresh rfl
  have hnew := hleaves.2 "usr/local/bin/.sing-box.new" (by decide +kernel) (by decide +kernel)
  revert hnew
  decide +kernel

/-- A host on which the management binary is in place, beside a unit of another's. -/
def preparedTree : FileTree :=
  [(sbctlBinary, [7]), ("etc/systemd/system/nginx.service", [8])]

theorem preparedTree_fresh : existingDeploymentPaths none preparedTree = [] := by
  have hnone : deploymentPaths.filter (occupied preparedTree) = [] := by decide +kernel
  have hunits : systemdUnitMatches preparedTree = [] := by decide +kernel
  simp [existingDeploymentPaths, hnone, hunits, pathBinaryMatches]

def preparedSteps : List InstallStep :=
  transaction sampleLibraries true sampleConfig sampleMaterials preparedTree

/-- A unit that cannot be begun leaves the files as they were. -/
theorem failed_install_leaves_unbegun : LeavesFiles preparedTree
    (failedInstall (preexistingState preparedTree) (preparedSteps.take 14)
      (leftBy ⟨none, []⟩ (preparedSteps.take 14) (writeUnit sampleMaterials sbctlUnit)
        preparedTree)) := by
  apply (failed_install_leaves_iff sampleLibraries true sampleConfig sampleMaterials none
    preparedTree preparedTree_fresh (preparedSteps.take 14) (preparedSteps.drop 15)
    (writeUnit sampleMaterials sbctlUnit) rfl ⟨none, []⟩).mpr
  have hdata : ∀ file ∈ preparedTree, ¬ removable file.1 := by decide +kernel
  refine ⟨fun path hremovable => ?_, ?_, fun _ _ => Or.inl rfl⟩
  · by_contra hsome
    obtain ⟨contents, hcontents⟩ := Option.ne_none_iff_exists'.mp hsome
    exact hdata _ (mem_of_lookup hcontents) hremovable
  · decide +kernel

end FreshInstall

end Sbctl
