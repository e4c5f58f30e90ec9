import Sbctl.ModeSwitch

/-!
# Updating the binaries

An update backs up every managed path, replaces binaries and restarts the
services. What fails after the first binary is in place is answered by writing
the backup back; what fails while the first binary is put in place is not.

* `restore_kept`: after a rollback that wrote everything back, the deployment is
  the one that was backed up;
* `failed_update_keeps_iff`: a failed update leaves the previous deployment
  unless the first binary was written and could not be made executable.
-/

namespace Sbctl

open Text Assoc Snapshot

/-! ## Managed paths -/

/-- A file of the installation besides those of the deployment, with whether it
can be executed. -/
structure InstalledFile where
  bytes : Bytes
  executable : Bool
  deriving DecidableEq

inductive RollbackPath where
  | file (file : DeploymentFile)
  | other (relative : String)
  deriving DecidableEq

structure Installation where
  deployment : Deployment
  others : String → Option InstalledFile

def sbctlBinary : String := "usr/local/bin/sbctl"
def singBoxBinary : String := "usr/local/bin/sing-box"

def certbotDeployHook : String :=
  "etc/letsencrypt/renewal-hooks/deploy/sbctl-certificate-deploy-hook"

/-- What a restart may bring up to date: the units, and the hook. -/
def reconciledPaths : List String :=
  ["etc/systemd/system/sing-box.service", "etc/systemd/system/sbctl.service",
    "etc/systemd/system/sbctl-http.socket", "etc/systemd/system/sbctl-accounting-reset.service",
    "etc/systemd/system/sbctl-accounting-reset.timer",
    "etc/systemd/system/sbctl-credential-rotate.service",
    "etc/systemd/system/sbctl-credential-rotate.timer", certbotDeployHook]

def managedPaths : List RollbackPath :=
  [.other sbctlBinary, .other singBoxBinary, .file (.managed .config),
    .other "var/lib/sbctl/state.json", .file (.managed .activeConfig),
    .file (.managed (.artifact (bytes "sing-box-server.json"))),
    .file (.managed (.artifact (bytes "subscription-sing-box.json"))),
    .file (.managed (.artifact (bytes "subscription-clash.yaml"))),
    .file (.managed (.artifact (bytes "subscription-uri.txt")))] ++
  reconciledPaths.map .other

def fullchainName : Bytes := bytes "fullchain.pem"
def privkeyName : Bytes := bytes "privkey.pem"

/-- The directory of the pinned pair, where there is to be one. -/
def pinnedCertificatePaths (config : DeploymentConfig) : Option Bytes :=
  if config.subscriptionMode = .direct then some (bytes config.subscriptionHost) else none

def isPinnedCertificatePath : RollbackPath → Bool
  | .file (.certificate _ name) => name = fullchainName || name = privkeyName
  | _ => false

def rollbackPaths (config : DeploymentConfig) : List RollbackPath :=
  match pinnedCertificatePaths config with
  | some host => managedPaths ++
      [.file (.certificate host fullchainName), .file (.certificate host privkeyName)]
  | none => managedPaths

namespace Installation

def read (i : Installation) : RollbackPath → Option Bytes
  | .file file => i.deployment.read file
  | .other relative => (i.others relative).map (·.bytes)

def isExecutable (i : Installation) (relative : String) : Bool :=
  (i.others relative).any (·.executable)

def setOther (relative : String) (file : Option InstalledFile) (i : Installation) : Installation :=
  { i with others := Function.update i.others relative file }

/-- A path as a write leaves it. On the live host the binaries and the hook get
their mode with it. -/
def write (live : Bool) (path : RollbackPath) (contents : Bytes) (i : Installation) :
    Installation :=
  match path with
  | .file file => { i with deployment := Deployment.set file (some contents) i.deployment }
  | .other relative =>
    let runs := relative = sbctlBinary || relative = singBoxBinary ||
      startsWith relative.toList "etc/letsencrypt/renewal-hooks/".toList
    i.setOther relative (some ⟨contents, live && runs⟩)

def remove (path : RollbackPath) (i : Installation) : Installation :=
  match path with
  | .file file => { i with deployment := Deployment.set file none i.deployment }
  | .other relative => i.setOther relative none

def setExecutable (path : RollbackPath) (i : Installation) : Installation :=
  match path with
  | .file _ => i
  | .other relative =>
    i.setOther relative ((i.others relative).map fun file => { file with executable := true })

end Installation

/-! ## The surroundings -/

inductive UpdateError where
  | operation (message : String)
  | singBoxCheck (message : String)
  | serviceHealth (message : String)
  | rollback (error : ConfigError)
  | io (message : String)
  | storage (error : ConfigError)
  deriving DecidableEq

inductive UpdateWarning where
  | rollbackFailed (error : ConfigError)
  | restartFailed (message : String)
  deriving DecidableEq

/-- What a restart makes of the units and the hook, and whether it fails. -/
structure Restart where
  reconciled : List (String × Option InstalledFile)
  fault : Option String

structure RollbackFaults where
  write : RollbackPath → Option String
  executable : RollbackPath → Option String
  remove : RollbackPath → Option String
  pair : PairFaults
  grant : Option String

structure UpdateSurroundings where
  lib : Libraries
  account : Account
  /-- Whether the root is the live host's. -/
  live : Bool
  /-- The full path of a certificate directory. -/
  certificateDirectory : Bytes → String
  tomlFromStr : String → Option DeploymentConfig
  /-- `sing-box check` of the candidate. -/
  check : String → Except String Unit
  rollbackDirectory : Except UpdateError String
  readFault : RollbackPath → Option String
  pairFault : Option String
  copyFault : RollbackPath → Option String
  writeFault : String → Option String
  executableFault : String → Option String
  storageFault : Option String
  restart : Restart
  restore : RollbackFaults
  restartAgain : Restart

/-- What an update leaves and reports, and the warnings it prints. -/
structure UpdateOutcome where
  installation : Installation
  result : Except UpdateError String
  warnings : List UpdateWarning

def storageFailure (fault : Option String) : Except ConfigError Unit :=
  match fault with
  | some message => .error (.storage message)
  | none => .ok ()

/-! ## Restoring -/

/-- Rewrites or removes units and the hook. -/
def Restart.reconcile : List (String × Option InstalledFile) → Installation → Installation
  | [], i => i
  | (relative, file) :: rest, i =>
    Restart.reconcile rest (if relative ∈ reconciledPaths then i.setOther relative file else i)

def Restart.run (r : Restart) (i : Installation) : Installation × Except String Unit :=
  (Restart.reconcile r.reconciled i,
    match r.fault with
    | some message => .error message
    | none => .ok ())

/-- What was in the managed paths. -/
abbrev Backup := Saved RollbackPath Bytes

/-- How far a restoration is, and whether it has restored certificate material. -/
structure Restoring where
  installation : Installation
  restoredCertificate : Bool

def needsExecutable : RollbackPath → Bool
  | .file _ => false
  | .other relative =>
    startsWith relative.toList "usr/local/bin/".toList || relative = certbotDeployHook

section
variable (live : Bool) (account : Account) (faults : RollbackFaults)

def restoreEntry (path : RollbackPath) (contents : Option Bytes) (r : Restoring) :
    Restoring × Except ConfigError Unit :=
  match contents with
  | some contents =>
    match faults.write path with
    | some message => (r, .error (.storage message))
    | none =>
      let r := { r with installation := r.installation.write live path contents }
      if needsExecutable path then
        match faults.executable path with
        | some message => (r, .error (.storage message))
        | none => ({ r with installation := r.installation.setExecutable path }, .ok ())
      else ({ r with restoredCertificate := r.restoredCertificate || isPinnedCertificatePath path },
        .ok ())
  | none =>
    if (r.installation.read path).isSome then
      match faults.remove path with
      | some message => (r, .error (.storage message))
      | none => ({ r with installation := r.installation.remove path }, .ok ())
    else (r, .ok ())

def restoreEntries : Backup → Restoring → Restoring × Except ConfigError Unit
  | [], r => (r, .ok ())
  | (path, contents) :: rest, r =>
    match restoreEntry live faults path contents r with
    | (r, .error error) => (r, .error error)
    | (r, .ok ()) => restoreEntries rest r

/-- Writes a complete pair back as one generation, or else file by file. -/
def restorePinned : Backup → Restoring → Restoring × Except ConfigError Unit
  | [(.file (.certificate host _), some chain), (.file (.certificate _ _), some key)], r =>
    let (deployment, result) := writePrivatePair account faults.pair host
      [("fullchain.pem", chain), ("privkey.pem", key)] none r.installation.deployment
    let r := { r with installation := { r.installation with deployment } }
    match result with
    | .error message => (r, .error (.storage message))
    | .ok () => ({ r with restoredCertificate := true }, .ok ())
  | pinned, r => restoreEntries live faults pinned r

def restore (backup : Backup) (i : Installation) : Installation × Except ConfigError Unit :=
  match restoreEntries live faults
      (backup.filter fun entry => !isPinnedCertificatePath entry.1) ⟨i, false⟩ with
  | (r, .error error) => (r.installation, .error error)
  | (r, .ok ()) =>
    match restorePinned live account faults
        (backup.filter fun entry => isPinnedCertificatePath entry.1) r with
    | (r, .error error) => (r.installation, .error error)
    | (r, .ok ()) =>
      (r.installation, if r.restoredCertificate then storageFailure faults.grant else .ok ())

end

/-! ## Updating -/

namespace UpdateSurroundings

variable (s : UpdateSurroundings)

/-- The stored configuration, if it can be read and is accepted. -/
def load (i : Installation) : Except ConfigError DeploymentConfig :=
  match s.readFault (.file (.managed .config)) with
  | some message => .error (.storage message)
  | none =>
    match i.read (.file (.managed .config)) with
    | none => .error .missing
    | some contents =>
      match fromUtf8 contents with
      | none => .error (.storage "stream did not contain valid UTF-8")
      | some text =>
        match s.tomlFromStr text with
        | none => .error .parse
        | some config => (validate s.lib config.lowered).map fun () => config.lowered

def readBackupContents (path : RollbackPath) (i : Installation) :
    Except UpdateError (Option Bytes) :=
  match s.readFault path with
  | some message => .error (.io message)
  | none => .ok (i.read path)

/-- The pinned pair of one generation. Neither file may be missing alone. -/
def pinnedPair (host : Bytes) (i : Installation) : Except UpdateError (Option (Bytes × Bytes)) :=
  match i.deployment.directory host with
  | none => .ok none
  | some directory =>
    match (directory.read fullchainName).isSome, (directory.read privkeyName).isSome with
    | false, false => .ok none
    | true, true =>
      match s.pairFault with
      | some message => .error (.io message)
      | none =>
        match Directory.readPair (some directory) "fullchain.pem" "privkey.pem" with
        | .ok pair => .ok (some pair)
        | .error message => .error (.io message)
    | _, _ => .error (.operation ("pinned certificate pair under " ++ s.certificateDirectory host ++
        " is incomplete; run `sbctl certificate verify` before retrying the update"))

def backupContents (pair : Option (Bytes × Bytes)) (path : RollbackPath) (i : Installation) :
    Except UpdateError (Option Bytes) :=
  match pair, path with
  | some (fullchain, privkey), .file (.certificate _ name) =>
    if name = fullchainName then .ok (some fullchain)
    else if name = privkeyName then .ok (some privkey)
    else s.readBackupContents path i
  | _, _ => s.readBackupContents path i

def storeCopy (path : RollbackPath) : Option Bytes → Except UpdateError Unit
  | none => .ok ()
  | some _ => (storageFailure (s.copyFault path)).mapError UpdateError.storage

/-- Reads one path after the other and stores a copy of what is there. -/
def backupEntries (pair : Option (Bytes × Bytes)) (i : Installation) :
    List RollbackPath → Except UpdateError Backup
  | [] => .ok []
  | path :: rest => do
    let contents ← s.backupContents pair path i
    s.storeCopy path contents
    let entries ← backupEntries pair i rest
    return (path, contents) :: entries

def backup (config : DeploymentConfig) (i : Installation) : Except UpdateError Backup :=
  match pinnedCertificatePaths config with
  | none => s.backupEntries none i (rollbackPaths config)
  | some host => do
    let pair ← s.pinnedPair host i
    s.backupEntries pair i (rollbackPaths config)

def serverConfig (i : Installation) : Except UpdateError String :=
  let server : RollbackPath := .file (.managed (.artifact (bytes "sing-box-server.json")))
  match s.readFault server with
  | some message => .error (.storage (.storage message))
  | none =>
    match i.read server with
    | none => .error (.storage (.storage "No such file or directory (os error 2)"))
    | some contents =>
      match fromUtf8 contents with
      | none => .error (.storage (.storage "stream did not contain valid UTF-8"))
      | some text => .ok text

/-- What precedes the first write: the checks, and the rollback point. -/
def prepare (i : Installation) : Except UpdateError (DeploymentConfig × String × Backup) := do
  let config ← (s.load i).mapError UpdateError.storage
  let server ← s.serverConfig i
  (s.check server).mapError UpdateError.singBoxCheck
  let rollback ← s.rollbackDirectory
  let backup ← s.backup config i
  return (config, rollback, backup)

/-- Replaces a binary, and only then makes sure it can be executed. -/
def writeManagedBinary (relative : String) (contents : Bytes) (i : Installation) :
    Installation × Except UpdateError Unit :=
  match s.writeFault relative with
  | some message => (i, .error (.storage (.storage message)))
  | none =>
    let i := i.write s.live (.other relative) contents
    match s.executableFault relative with
    | some message => (i, .error (.io message))
    | none => (i.setExecutable (.other relative), .ok ())

def restoreBackup (backup : Backup) (i : Installation) : Installation × Except ConfigError Unit :=
  Sbctl.restore s.live s.account s.restore backup i

/-- Answers services that did not come up. -/
def rollBack (backup : Backup) (message : String) (i : Installation) : UpdateOutcome :=
  match s.restoreBackup backup i with
  | (i, .error error) => ⟨i, .error (.rollback error), []⟩
  | (i, .ok ()) =>
    match s.restartAgain.run i with
    | (i, .error again) => ⟨i, .error (.serviceHealth message), [.restartFailed again]⟩
    | (i, .ok ()) => ⟨i, .error (.serviceHealth message), []⟩

/-- Replaces sing-box alone. -/
def installCandidateSingBox (verified : Bytes) (i : Installation) : UpdateOutcome :=
  match s.prepare i with
  | .error error => ⟨i, .error error, []⟩
  | .ok (_, rollback, backup) =>
    match s.writeManagedBinary singBoxBinary verified i with
    | (i, .error error) => ⟨i, .error error, []⟩
    | (i, .ok ()) =>
      match s.restart.run i with
      | (i, .error message) => s.rollBack backup message i
      | (i, .ok ()) => ⟨i, .ok rollback, []⟩

/-- Prepares the storage, which changes owners and modes, and restarts. -/
def prepareAndRestart (i : Installation) : Installation × Except String Unit :=
  match s.storageFault with
  | some message => (i, .error message)
  | none => s.restart.run i

/-- Replaces both binaries. -/
def apply (sbctlContents singBoxContents : Bytes) (i : Installation) : UpdateOutcome :=
  match s.prepare i with
  | .error error => ⟨i, .error error, []⟩
  | .ok (config, rollback, backup) =>
    match s.writeManagedBinary sbctlBinary sbctlContents i with
    | (i, .error error) => ⟨i, .error error, []⟩
    | (i, .ok ()) =>
      match s.writeManagedBinary singBoxBinary singBoxContents i with
      | (i, .error error) =>
        match s.restoreBackup backup i with
        | (i, .error failed) => ⟨i, .error error, [.rollbackFailed failed]⟩
        | (i, .ok ()) => ⟨i, .error error, []⟩
      | (i, .ok ()) =>
        match s.prepareAndRestart i with
        | (i, .error message) => s.rollBack backup message i
        | (i, .ok ()) =>
          match validate s.lib config with
          | .error error => ⟨i, .error (.storage error), []⟩
          | .ok () => ⟨i, .ok rollback, []⟩

end UpdateSurroundings

namespace UpdateOutcome

/-- The update failed, and no write of a rollback did. -/
def FailedAlone (o : UpdateOutcome) : Prop :=
  (∃ error, o.result = .error error ∧ ∀ failed, error ≠ .rollback failed) ∧
    ∀ failed, .rollbackFailed failed ∉ o.warnings

theorem FailedAlone.of_result {o : UpdateOutcome} {error : UpdateError}
    (hresult : o.result = .error error) (hwarnings : o.warnings = [])
    (hrefused : ∀ failed, error ≠ .rollback failed) : o.FailedAlone := by
  refine ⟨⟨error, hresult, hrefused⟩, fun failed hmem => ?_⟩
  rw [hwarnings] at hmem
  cases hmem

end UpdateOutcome

/-! ## What each operation changes -/

namespace Installation

variable {i : Installation} {path k : RollbackPath} {live : Bool} {contents : Bytes}

theorem read_setOther (i : Installation) (relative : String) (file : Option InstalledFile)
    (k : RollbackPath) : (i.setOther relative file).read k =
      if k = .other relative then file.map (·.bytes) else i.read k := by
  cases k with
  | file f => simp [read, setOther]
  | other r => by_cases hr : r = relative <;> simp [read, setOther, hr]

theorem isExecutable_setOther (i : Installation) (relative r : String)
    (file : Option InstalledFile) : (i.setOther relative file).isExecutable r =
      if r = relative then file.any (·.executable) else i.isExecutable r := by
  by_cases hr : r = relative <;> simp [isExecutable, setOther, hr]

theorem read_write : (i.write live path contents).read k =
    if k = path then some contents else i.read k := by
  cases path with
  | file f =>
    cases k with
    | file k =>
      have hread := Deployment.read_set i.deployment f k (some contents)
      simpa [read, write] using hread
    | other r => simp [read, write]
  | other relative =>
    rw [write, read_setOther]
    rfl

theorem read_remove : (i.remove path).read k = if k = path then none else i.read k := by
  cases path with
  | file f =>
    cases k with
    | file k =>
      have hread := Deployment.read_set i.deployment f k none
      simpa [read, remove] using hread
    | other r => simp [read, remove]
  | other relative =>
    rw [remove, read_setOther]
    rfl

theorem read_setExecutable : (i.setExecutable path).read k = i.read k := by
  cases path with
  | file f => rfl
  | other relative =>
    rw [setExecutable, read_setOther]
    split
    · rename_i heq
      rw [heq, read, Option.map_map]
      rfl
    · rfl

theorem isExecutable_write_ne {r : String} (h : path ≠ .other r) :
    (i.write live path contents).isExecutable r = i.isExecutable r := by
  cases path with
  | file f => rfl
  | other relative =>
    have hne : r ≠ relative := by
      intro heq
      exact h (heq ▸ rfl)
    rw [write, isExecutable_setOther, if_neg hne]

theorem isExecutable_remove_ne {r : String} (h : path ≠ .other r) :
    (i.remove path).isExecutable r = i.isExecutable r := by
  cases path with
  | file f => rfl
  | other relative =>
    have hne : r ≠ relative := by
      intro heq
      exact h (heq ▸ rfl)
    rw [remove, isExecutable_setOther, if_neg hne]

theorem isExecutable_setExecutable (r : String) : (i.setExecutable path).isExecutable r =
    if path = .other r then (i.others r).isSome else i.isExecutable r := by
  cases path with
  | file f => rfl
  | other relative =>
    rw [setExecutable, isExecutable_setOther]
    by_cases hr : r = relative
    · subst hr
      cases hfile : i.others r <;> simp
    · simp [hr, Ne.symm hr]

/-- The certificate directories are those of before. -/
theorem directory_write (h : ∀ host name, path ≠ .file (.certificate host name)) (host : Bytes) :
    (i.write live path contents).deployment.directory host = i.deployment.directory host := by
  cases path with
  | file f =>
    cases f with
    | managed file => rfl
    | certificate host name => exact absurd rfl (h host name)
  | other relative => rfl

theorem directory_remove (h : ∀ host name, path ≠ .file (.certificate host name)) (host : Bytes) :
    (i.remove path).deployment.directory host = i.deployment.directory host := by
  cases path with
  | file f =>
    cases f with
    | managed file => rfl
    | certificate host name => exact absurd rfl (h host name)
  | other relative => rfl

theorem directory_setExecutable (host : Bytes) :
    (i.setExecutable path).deployment.directory host = i.deployment.directory host := by
  cases path <;> rfl

end Installation

/-! ## What a pair written back leaves -/

/-- The visible directory is the earlier one, or the generation that publishing
this pair over it makes. -/
def OneGeneration (fullchain privkey : Bytes) (before visible : Directory) : Prop :=
  visible.entries = before.entries ∨
    ∃ account, (pairRequest account [("fullchain.pem", fullchain), ("privkey.pem", privkey)]
        none).replaceFilesWithMarker (preparePrivateDirectory account (some before)) =
      .ok (some visible)

section
variable {account : Account} {faults : PairFaults} {host : Bytes} {files : List (String × Bytes)}
  {marker : Option String} {d d' : Deployment}

theorem fileIn_holds {request : Request} {directory : Directory} (h : request.Holds directory)
    {file : String × Bytes} (hfile : file ∈ request.files) :
    Deployment.fileIn (some directory) (bytes file.1) = some file.2 := by
  rw [Deployment.fileIn, Option.bind_some, h.2 file hfile]
  rfl

theorem writePrivatePair_ok (h : writePrivatePair account faults host files marker d = (d', .ok ())) :
    (∀ file ∈ files, d'.read (.certificate host (bytes file.1)) = some file.2) ∧
      ∃ visible, d'.directory host = some visible ∧
        ((∃ before, d.directory host = some before ∧ visible.entries = before.entries) ∨
          d.directory host = none ∨
          (pairRequest account files marker).replaceFilesWithMarker
            (preparePrivateDirectory account (d.directory host)) = .ok (some visible)) := by
  unfold writePrivatePair at h
  split at h
  · cases h
  dsimp only at h
  split at h
  · cases h
  split at h
  · cases h
  · rename_i hnone
    cases h
    have hholds := Request.replaceFilesWithMarker_none hnone
    constructor
    · intro file hfile
      rw [Deployment.read, Deployment.directory_setDirectory, if_pos rfl]
      exact fileIn_holds hholds hfile
    · refine ⟨_, (Deployment.directory_setDirectory _ _ _ _).trans (if_pos rfl), ?_⟩
      cases hbefore : d.directory host with
      | none => exact .inr (.inl rfl)
      | some before => exact .inl ⟨before, rfl, rfl⟩
  · rename_i published hpublished
    cases h
    obtain ⟨hfiles, -, -⟩ := Request.replaceFilesWithMarker_some hpublished
    constructor
    · intro file hfile
      rw [Deployment.read, Deployment.directory_setDirectory, if_pos rfl, Deployment.fileIn,
        Option.bind_some, hfiles file hfile]
      rfl
    · exact ⟨published, (Deployment.directory_setDirectory _ _ _ _).trans (if_pos rfl),
        .inr (.inr hpublished)⟩

end

/-! ## What a restoration leaves -/

section
variable {live : Bool} {account : Account} {faults : RollbackFaults} {path : RollbackPath}
  {contents : Option Bytes} {r r' : Restoring} {backup : Backup}

/-- What restoring one entry does, where it succeeds. -/
theorem restoreEntry_cases (h : restoreEntry live faults path contents r = (r', .ok ())) :
    (∃ c, contents = some c ∧ needsExecutable path = true ∧
      r'.installation = (r.installation.write live path c).setExecutable path) ∨
    (∃ c, contents = some c ∧ needsExecutable path = false ∧
      r'.installation = r.installation.write live path c) ∨
    (contents = none ∧ r'.installation = r.installation.remove path) ∨
    (contents = none ∧ r.installation.read path = none ∧ r' = r) := by
  unfold restoreEntry at h
  split at h
  · rename_i c
    split at h
    · cases h
    · dsimp only at h
      split at h
      · rename_i hneeds
        split at h
        · cases h
        · cases h
          exact .inl ⟨c, rfl, hneeds, rfl⟩
      · rename_i hneeds
        cases h
        exact .inr (.inl ⟨c, rfl, Bool.eq_false_iff.mpr hneeds, rfl⟩)
  · split at h
    · split at h
      · cases h
      · cases h
        exact .inr (.inr (.inl ⟨rfl, rfl⟩))
    · rename_i hread
      cases h
      exact .inr (.inr (.inr ⟨rfl, Option.not_isSome_iff_eq_none.mp hread, rfl⟩))

theorem restoreEntry_read (h : restoreEntry live faults path contents r = (r', .ok ()))
    (k : RollbackPath) :
    r'.installation.read k = if k = path then contents else r.installation.read k := by
  rcases restoreEntry_cases h with ⟨c, rfl, -, hr⟩ | ⟨c, rfl, -, hr⟩ | ⟨rfl, hr⟩ | ⟨rfl, hread, rfl⟩
  · rw [hr, Installation.read_setExecutable, Installation.read_write]
  · rw [hr, Installation.read_write]
  · rw [hr, Installation.read_remove]
  · split
    · rename_i hk
      rw [hk, hread]
    · rfl

theorem restoreEntry_isExecutable_ne (h : restoreEntry live faults path contents r = (r', .ok ()))
    {relative : String} (hpath : path ≠ .other relative) :
    r'.installation.isExecutable relative = r.installation.isExecutable relative := by
  rcases restoreEntry_cases h with ⟨c, -, -, hr⟩ | ⟨c, -, -, hr⟩ | ⟨-, hr⟩ | ⟨-, -, rfl⟩
  · rw [hr, Installation.isExecutable_setExecutable, if_neg hpath,
      Installation.isExecutable_write_ne hpath]
  · rw [hr, Installation.isExecutable_write_ne hpath]
  · rw [hr, Installation.isExecutable_remove_ne hpath]
  · rfl

theorem restoreEntry_isExecutable {relative : String} {c : Bytes}
    (h : restoreEntry live faults (.other relative) (some c) r = (r', .ok ()))
    (hneeds : needsExecutable (.other relative) = true) :
    r'.installation.isExecutable relative = true := by
  rcases restoreEntry_cases h with ⟨c, -, -, hr⟩ | ⟨c, -, hneeds', -⟩ | ⟨hnone, -⟩ | ⟨hnone, -, -⟩
  · rw [hr, Installation.isExecutable_setExecutable, if_pos rfl]
    simp [Installation.write, Installation.setOther]
  · rw [hneeds] at hneeds'
    cases hneeds'
  · cases hnone
  · cases hnone

theorem restoreEntry_directory (h : restoreEntry live faults path contents r = (r', .ok ()))
    (hpath : ∀ host name, path ≠ .file (.certificate host name)) (host : Bytes) :
    r'.installation.deployment.directory host = r.installation.deployment.directory host := by
  rcases restoreEntry_cases h with ⟨c, -, -, hr⟩ | ⟨c, -, -, hr⟩ | ⟨-, hr⟩ | ⟨-, -, rfl⟩
  · rw [hr, Installation.directory_setExecutable, Installation.directory_write hpath]
  · rw [hr, Installation.directory_write hpath]
  · rw [hr, Installation.directory_remove hpath]
  · rfl

theorem restoreEntries_cons {rest : Backup}
    (h : restoreEntries live faults ((path, contents) :: rest) r = (r', .ok ())) :
    ∃ next, restoreEntry live faults path contents r = (next, .ok ()) ∧
      restoreEntries live faults rest next = (r', .ok ()) := by
  rw [restoreEntries] at h
  split at h
  · cases h
  · exact ⟨_, ‹_›, h⟩

/-- Where every entry holds what was there before, that is there afterwards. -/
theorem restoreEntries_read {before : Installation}
    (hbackup : ∀ entry ∈ backup, before.read entry.1 = entry.2)
    (h : restoreEntries live faults backup r = (r', .ok ())) (k : RollbackPath) :
    r'.installation.read k =
      if k ∈ backup.map Prod.fst then before.read k else r.installation.read k := by
  induction backup generalizing r with
  | nil =>
    cases h
    simp
  | cons entry rest ih =>
    obtain ⟨path, contents⟩ := entry
    obtain ⟨next, hnext, h⟩ := restoreEntries_cons h
    have hentry : before.read path = contents := hbackup _ List.mem_cons_self
    rw [ih (fun e he => hbackup e (List.mem_cons_of_mem _ he)) h, restoreEntry_read hnext]
    by_cases hk : k = path
    · subst hk
      simp [hentry]
    · simp only [List.map_cons, List.mem_cons, hk, false_or, if_false]

/-- A binary that is written back can be executed, and others are left as they are. -/
theorem restoreEntries_isExecutable {relative : String}
    (hneeds : needsExecutable (.other relative) = true)
    (hsome : ∀ contents, (RollbackPath.other relative, contents) ∈ backup → contents.isSome)
    (h : restoreEntries live faults backup r = (r', .ok ()))
    (hruns : .other relative ∈ backup.map Prod.fst ∨
      r.installation.isExecutable relative = true) :
    r'.installation.isExecutable relative = true := by
  induction backup generalizing r with
  | nil =>
    cases h
    simpa using hruns
  | cons entry rest ih =>
    obtain ⟨path, contents⟩ := entry
    obtain ⟨next, hnext, h⟩ := restoreEntries_cons h
    apply ih (fun c hc => hsome c (List.mem_cons_of_mem _ hc)) h
    by_cases hpath : path = .other relative
    · subst hpath
      right
      obtain ⟨c, rfl⟩ := Option.isSome_iff_exists.mp (hsome contents List.mem_cons_self)
      exact restoreEntry_isExecutable hnext hneeds
    · rw [restoreEntry_isExecutable_ne hnext hpath]
      simpa [Ne.symm hpath] using hruns

theorem restoreEntries_directory
    (hbackup : ∀ entry ∈ backup, ∀ host name, entry.1 ≠ .file (.certificate host name))
    (h : restoreEntries live faults backup r = (r', .ok ())) (host : Bytes) :
    r'.installation.deployment.directory host = r.installation.deployment.directory host := by
  induction backup generalizing r with
  | nil =>
    cases h
    rfl
  | cons entry rest ih =>
    obtain ⟨path, contents⟩ := entry
    obtain ⟨next, hnext, h⟩ := restoreEntries_cons h
    rw [ih (fun e he => hbackup e (List.mem_cons_of_mem _ he)) h]
    exact restoreEntry_directory hnext (hbackup _ List.mem_cons_self) host

/-- The entries of the pinned pair of a host. -/
def pinnedEntries (host : Bytes) (fullchain privkey : Option Bytes) : Backup :=
  [(.file (.certificate host fullchainName), fullchain),
    (.file (.certificate host privkeyName), privkey)]

/-- What restoring the pinned pair leaves, whichever way it goes. -/
structure PinnedRestored (host : Bytes) (fullchain privkey : Option Bytes) (r r' : Restoring) :
    Prop where
  read : ∀ k, r'.installation.read k =
    if k = .file (.certificate host fullchainName) then fullchain
    else if k = .file (.certificate host privkeyName) then privkey
    else r.installation.read k
  executable : ∀ relative,
    r'.installation.isExecutable relative = r.installation.isExecutable relative
  generation : ∀ chain ∈ fullchain, ∀ key ∈ privkey, ∀ before,
    r.installation.deployment.directory host = some before →
    ∃ visible, r'.installation.deployment.directory host = some visible ∧
      OneGeneration chain key before visible

theorem privkeyName_ne : privkeyName ≠ fullchainName := by decide

theorem restoreEntries_pinned {host : Bytes} {fullchain privkey : Option Bytes}
    (hincomplete : ¬ (fullchain.isSome ∧ privkey.isSome))
    (h : restoreEntries live faults (pinnedEntries host fullchain privkey) r = (r', .ok ())) :
    PinnedRestored host fullchain privkey r r' where
  read := by
    intro k
    obtain ⟨first, hfirst, h⟩ := restoreEntries_cons h
    obtain ⟨second, hsecond, h⟩ := restoreEntries_cons h
    cases h
    rw [restoreEntry_read hsecond, restoreEntry_read hfirst]
    by_cases hk : k = .file (.certificate host privkeyName)
    · subst hk
      simp [privkeyName_ne]
    · simp [hk]
  executable := by
    intro relative
    obtain ⟨first, hfirst, h⟩ := restoreEntries_cons h
    obtain ⟨second, hsecond, h⟩ := restoreEntries_cons h
    cases h
    rw [restoreEntry_isExecutable_ne hsecond (by simp),
      restoreEntry_isExecutable_ne hfirst (by simp)]
  generation _ hchain _ hkey :=
    absurd ⟨Option.isSome_of_mem hchain, Option.isSome_of_mem hkey⟩ hincomplete

theorem restorePinned_ok {host : Bytes} {fullchain privkey : Option Bytes}
    (h : restorePinned live account faults (pinnedEntries host fullchain privkey) r =
      (r', .ok ())) : PinnedRestored host fullchain privkey r r' := by
  cases hfullchain : fullchain with
  | none =>
    subst hfullchain
    exact restoreEntries_pinned (by simp) h
  | some chain =>
    subst hfullchain
    cases hprivkey : privkey with
    | none =>
      subst hprivkey
      exact restoreEntries_pinned (by simp) h
    | some key =>
      subst hprivkey
      simp only [pinnedEntries, restorePinned] at h
      split at h
      · cases h
      rename_i hresult
      cases h
      have hwritten : writePrivatePair account faults.pair host
          [("fullchain.pem", chain), ("privkey.pem", key)] none r.installation.deployment =
          (_, .ok ()) := Prod.ext rfl hresult
      obtain ⟨hread, visible, hvisible, hgeneration⟩ := writePrivatePair_ok hwritten
      refine ⟨?_, fun _ => rfl, ?_⟩
      · intro k
        split
        · rename_i hk
          rw [hk]
          exact hread ("fullchain.pem", chain) List.mem_cons_self
        · rename_i hchain
          split
          · rename_i hk
            rw [hk]
            exact hread ("privkey.pem", key) (List.mem_cons_of_mem _ List.mem_cons_self)
          · rename_i hkey
            cases k with
            | other relative => rfl
            | file file =>
              apply writePrivatePair_read
              · intro f hf
                simp only [List.mem_cons, List.not_mem_nil, or_false] at hf
                rcases hf with rfl | rfl
                · intro hfile
                  exact hchain (congrArg RollbackPath.file hfile)
                · intro hfile
                  exact hkey (congrArg RollbackPath.file hfile)
              · intro m hm
                cases hm
      · intro c hc k hk before hbefore
        cases hc
        cases hk
        refine ⟨visible, hvisible, ?_⟩
        rw [hbefore] at hgeneration
        rcases hgeneration with ⟨b, hb, hentries⟩ | hnone | hpublished
        · cases hb
          exact .inl hentries
        · cases hnone
        · exact .inr ⟨account, hpublished⟩

end

/-! ## The backup -/

namespace UpdateSurroundings

variable {s : UpdateSurroundings} {config : DeploymentConfig} {before i i' : Installation}
  {backup : Backup}

theorem readBackupContents_ok {path : RollbackPath} {contents : Option Bytes}
    (h : s.readBackupContents path before = .ok contents) : contents = before.read path := by
  unfold readBackupContents at h
  split at h <;> cases h
  rfl

theorem read_of_regularFile {directory : Directory} {name contents : Bytes} {material : Material}
    (hfile : directory.regularFile name = .ok material) (h : readMaterial material = .ok contents) :
    Deployment.fileIn (some directory) name = some contents := by
  rw [Deployment.fileIn, Option.bind_some, (Directory.regularFile_ok hfile).1, Option.map_some,
    readMaterial_ok h]

theorem pinnedPair_ok {host fullchain privkey : Bytes}
    (h : s.pinnedPair host before = .ok (some (fullchain, privkey))) :
    before.read (.file (.certificate host fullchainName)) = some fullchain ∧
      before.read (.file (.certificate host privkeyName)) = some privkey := by
  unfold pinnedPair at h
  split at h
  · cases h
  rename_i directory hdirectory
  split at h
  · cases h
  · split at h
    · cases h
    split at h <;> cases h
    rename_i hpair
    obtain ⟨first, hfirst, hpair⟩ := bind_ok.mp hpair
    obtain ⟨second, hsecond, hpair⟩ := bind_ok.mp hpair
    obtain ⟨chain, hchain, hpair⟩ := bind_ok.mp hpair
    obtain ⟨key, hkey, hpair⟩ := bind_ok.mp hpair
    cases hpair
    rw [Installation.read, Installation.read, Deployment.read, Deployment.read, hdirectory]
    exact ⟨read_of_regularFile hfirst hchain, read_of_regularFile hsecond hkey⟩
  · cases h

theorem backupEntries_ok {pair : Option (Bytes × Bytes)} {paths : List RollbackPath}
    (hcontents : ∀ path ∈ paths, ∀ contents, s.backupContents pair path before = .ok contents →
      contents = before.read path)
    (h : s.backupEntries pair before paths = .ok backup) :
    backup = paths.map fun path => (path, before.read path) := by
  induction paths generalizing backup with
  | nil =>
    cases h
    rfl
  | cons path rest ih =>
    obtain ⟨contents, hpath, h⟩ := bind_ok.mp h
    obtain ⟨_, -, h⟩ := bind_ok.mp h
    obtain ⟨entries, hentries, h⟩ := bind_ok.mp h
    cases h
    rw [ih (fun p hp => hcontents p (List.mem_cons_of_mem _ hp)) hentries,
      hcontents path List.mem_cons_self contents hpath]
    rfl

theorem certificate_of_mem {host h name : Bytes} (hhost : pinnedCertificatePaths config = some host)
    (hmem : .file (.certificate h name) ∈ rollbackPaths config) : h = host := by
  have hmanaged : ∀ h name, .file (.certificate h name) ∉ managedPaths := by
    intro h name
    simp [managedPaths, reconciledPaths]
  simp only [rollbackPaths, hhost, List.mem_append, List.mem_cons, RollbackPath.file.injEq,
    DeploymentFile.certificate.injEq, List.not_mem_nil, or_false] at hmem
  rcases hmem with hmem | ⟨rfl, -⟩ | ⟨rfl, -⟩
  · exact absurd hmem (hmanaged h name)
  · rfl
  · rfl

theorem load_of_text {text : String} {stored : DeploymentConfig}
    (hfault : s.readFault (.file (.managed .config)) = none)
    (hread : before.read (.file (.managed .config)) = some (bytes text))
    (hparse : s.tomlFromStr text = some stored) (hvalid : validate s.lib stored.lowered = .ok ()) :
    s.load before = .ok stored.lowered := by
  simp only [load, hfault, hread, fromUtf8_bytes, hparse, hvalid]
  rfl

/-- A rollback point holds what was in every managed path. -/
theorem backup_ok (h : s.backup config before = .ok backup) :
    backup = (rollbackPaths config).map fun path => (path, before.read path) := by
  unfold UpdateSurroundings.backup at h
  split at h
  · apply backupEntries_ok _ h
    intro path _ contents hpath
    exact readBackupContents_ok hpath
  · rename_i host hhost
    obtain ⟨pair, hpair, h⟩ := bind_ok.mp h
    apply backupEntries_ok _ h
    intro path hmem contents hpath
    unfold backupContents at hpath
    split at hpath
    · obtain ⟨hchain, hkey⟩ := pinnedPair_ok hpair
      obtain rfl := certificate_of_mem hhost hmem
      split at hpath
      · rename_i hname
        cases hpath
        rw [hname, hchain]
      · split at hpath
        · rename_i hname
          cases hpath
          rw [hname, hkey]
        · exact readBackupContents_ok hpath
    · exact readBackupContents_ok hpath

end UpdateSurroundings

/-! ## The previous deployment -/

/-- The previous deployment is in place: every managed path but the units and
the hook, binaries that can be executed, and a pinned pair of one generation. -/
structure InPlace (config : DeploymentConfig) (before after : Installation) : Prop where
  read : ∀ path ∈ rollbackPaths config, (∀ relative ∈ reconciledPaths, path ≠ .other relative) →
    after.read path = before.read path
  executable : ∀ relative ∈ [sbctlBinary, singBoxBinary],
    before.isExecutable relative = true → after.isExecutable relative = true
  generation : ∀ host, pinnedCertificatePaths config = some host →
    ∀ chain ∈ before.read (.file (.certificate host fullchainName)),
      ∀ key ∈ before.read (.file (.certificate host privkeyName)),
        ∀ directory, before.deployment.directory host = some directory →
          ∃ visible, after.deployment.directory host = some visible ∧
            OneGeneration chain key directory visible

theorem InPlace.refl (config : DeploymentConfig) (before : Installation) : InPlace config before before where
  read _ _ _ := rfl
  executable _ _ h := h
  generation _ _ _ _ _ _ directory hdirectory := ⟨directory, hdirectory, .inl rfl⟩

theorem binaries_not_reconciled {relative : String} (h : relative ∈ [sbctlBinary, singBoxBinary]) :
    relative ∉ reconciledPaths := by
  have hall : ∀ relative ∈ [sbctlBinary, singBoxBinary], relative ∉ reconciledPaths := by
    decide
  exact hall relative h

/-- A restart changes units and the hook only. -/
theorem InPlace.reconcile {config : DeploymentConfig} {before i : Installation}
    (h : InPlace config before i) (files : List (String × Option InstalledFile)) :
    InPlace config before (Restart.reconcile files i) := by
  induction files generalizing i with
  | nil => exact h
  | cons entry rest ih =>
    obtain ⟨relative, file⟩ := entry
    apply ih
    split
    · rename_i hrelative
      refine ⟨?_, ?_, h.generation⟩
      · intro path hpath hreconciled
        rw [Installation.read_setOther, if_neg (hreconciled relative hrelative)]
        exact h.read path hpath hreconciled
      · intro r hr hruns
        have hne : r ≠ relative := by
          intro heq
          exact binaries_not_reconciled hr (heq ▸ hrelative)
        rw [Installation.isExecutable_setOther, if_neg hne]
        exact h.executable r hr hruns
    · exact h

namespace UpdateSurroundings

variable {s : UpdateSurroundings} {config : DeploymentConfig} {before i i' : Installation}
  {backup : Backup}

theorem managedPaths_not_pinned : managedPaths.filter isPinnedCertificatePath = [] := by
  decide

theorem rollbackPaths_pinned : (rollbackPaths config).filter isPinnedCertificatePath =
    match pinnedCertificatePaths config with
    | some host => [.file (.certificate host fullchainName), .file (.certificate host privkeyName)]
    | none => [] := by
  unfold rollbackPaths
  split
  · rw [List.filter_append, managedPaths_not_pinned]
    simp [isPinnedCertificatePath]
  · exact managedPaths_not_pinned

theorem mem_rollbackPaths {path : RollbackPath} (h : path ∈ rollbackPaths config) :
    path ∈ managedPaths ∨ ∃ host, pinnedCertificatePaths config = some host ∧
      (path = .file (.certificate host fullchainName) ∨
        path = .file (.certificate host privkeyName)) := by
  unfold rollbackPaths at h
  split at h
  · rename_i host hhost
    rcases List.mem_append.mp h with h | h
    · exact .inl h
    · right
      refine ⟨host, hhost, ?_⟩
      simpa using h
  · exact .inl h

theorem plain_backup (before : Installation) :
    ((rollbackPaths config).map fun path => (path, before.read path)).filter
        (fun entry => !isPinnedCertificatePath entry.1) =
      (managedPaths.map fun path => (path, before.read path)) := by
  rw [List.filter_map]
  congr 1
  have hmanaged : managedPaths.filter (fun path => !isPinnedCertificatePath path) = managedPaths := by
    decide
  unfold rollbackPaths
  split
  · rw [List.filter_append]
    change managedPaths.filter (fun path => !isPinnedCertificatePath path) ++ _ = _
    rw [hmanaged]
    simp [isPinnedCertificatePath]
  · exact hmanaged

theorem pinned_backup (before : Installation) :
    ((rollbackPaths config).map fun path => (path, before.read path)).filter
        (fun entry => isPinnedCertificatePath entry.1) =
      match pinnedCertificatePaths config with
      | some host => pinnedEntries host (before.read (.file (.certificate host fullchainName)))
          (before.read (.file (.certificate host privkeyName)))
      | none => [] := by
  rw [List.filter_map]
  change ((rollbackPaths config).filter isPinnedCertificatePath).map _ = _
  rw [rollbackPaths_pinned]
  cases pinnedCertificatePaths config <;> rfl

theorem restore_ok (h : s.restoreBackup backup i = (i', .ok ())) :
    ∃ plain restored,
      restoreEntries s.live s.restore (backup.filter fun entry => !isPinnedCertificatePath entry.1)
        ⟨i, false⟩ = (plain, .ok ()) ∧
      restorePinned s.live s.account s.restore
        (backup.filter fun entry => isPinnedCertificatePath entry.1) plain = (restored, .ok ()) ∧
      restored.installation = i' := by
  unfold restoreBackup Sbctl.restore at h
  split at h
  · cases h
  rename_i plain hplain
  split at h
  · cases h
  rename_i restored hrestored
  exact ⟨plain, restored, hplain, hrestored, congrArg Prod.fst h⟩

theorem managed_not_pinned {path : RollbackPath} (h : path ∈ managedPaths) (host : Bytes) :
    path ≠ .file (.certificate host fullchainName) ∧
      path ≠ .file (.certificate host privkeyName) := by
  constructor
  · rintro rfl
    simp [managedPaths, reconciledPaths] at h
  · rintro rfl
    simp [managedPaths, reconciledPaths] at h

/-- Whatever an update has done to the managed paths, writing the whole backup
back undoes it. -/
theorem restore_kept (hbackup : s.backup config before = .ok backup)
    (hdirectory : ∀ host, i.deployment.directory host = before.deployment.directory host)
    (h : s.restoreBackup backup i = (i', .ok ())) : InPlace config before i' := by
  obtain ⟨plain, restored, hplain, hpinned, rfl⟩ := restore_ok h
  rw [backup_ok hbackup, plain_backup] at hplain
  rw [backup_ok hbackup, pinned_backup] at hpinned
  have hread : ∀ path ∈ managedPaths, plain.installation.read path = before.read path := by
    intro path hpath
    have hsaved : ∀ entry ∈ managedPaths.map fun path => (path, before.read path),
        before.read entry.1 = entry.2 := by simp
    rw [restoreEntries_read hsaved hplain, if_pos]
    simpa using hpath
  have hruns : ∀ relative ∈ [sbctlBinary, singBoxBinary], before.isExecutable relative = true →
      plain.installation.isExecutable relative = true := by
    intro relative hrelative hbefore
    have hneeds : ∀ relative ∈ [sbctlBinary, singBoxBinary],
        needsExecutable (.other relative) = true ∧ .other relative ∈ managedPaths := by
      decide
    obtain ⟨hneeds, hmem⟩ := hneeds relative hrelative
    apply restoreEntries_isExecutable hneeds _ hplain
    · left
      simpa using hmem
    · intro contents hcontents
      obtain ⟨path, -, hpath⟩ := List.mem_map.mp hcontents
      cases hpath
      cases hfile : before.others relative with
      | none => simp [Installation.isExecutable, hfile] at hbefore
      | some file => simp [Installation.read, hfile]
  have hplainDirectory : ∀ host,
      plain.installation.deployment.directory host = before.deployment.directory host := by
    intro host
    rw [restoreEntries_directory _ hplain, hdirectory]
    intro entry hentry host name heq
    obtain ⟨path, hpath, rfl⟩ := List.mem_map.mp hentry
    change path = _ at heq
    subst heq
    simp [managedPaths, reconciledPaths] at hpath
  cases hhost : pinnedCertificatePaths config with
  | none =>
    rw [hhost] at hpinned
    cases hpinned
    refine ⟨?_, hruns, ?_⟩
    · intro path hpath _
      rcases mem_rollbackPaths hpath with hpath | ⟨host, hsome, -⟩
      · exact hread path hpath
      · rw [hhost] at hsome
        cases hsome
    · intro host hsome
      rw [hhost] at hsome
      cases hsome
  | some host =>
    rw [hhost] at hpinned
    have hrestored := restorePinned_ok hpinned
    refine ⟨?_, ?_, ?_⟩
    · intro path hpath _
      rw [hrestored.read]
      rcases mem_rollbackPaths hpath with hpath | ⟨h', hsome, hpath⟩
      · obtain ⟨hchain, hkey⟩ := managed_not_pinned hpath host
        rw [if_neg hchain, if_neg hkey, hread path hpath]
      · rw [hhost] at hsome
        cases hsome
        rcases hpath with rfl | rfl
        · rw [if_pos rfl]
        · simp [privkeyName_ne]
    · intro relative hrelative hbefore
      rw [hrestored.executable]
      exact hruns relative hrelative hbefore
    · intro h' hsome chain hchain key hkey directory hdir
      rw [hhost] at hsome
      cases hsome
      exact hrestored.generation chain hchain key hkey directory ((hplainDirectory host).trans hdir)

/-! ## Failed updates -/

/-- The previous deployment is in place, as far as there was one. -/
def KeepsPrevious (s : UpdateSurroundings) (before after : Installation) : Prop :=
  match s.load before with
  | .ok config => InPlace config before after
  | .error _ => after = before

/-- A binary gets written over another one, or over one that could be executed,
and cannot be made executable. -/
def Stranded (s : UpdateSurroundings) (relative : String) (contents : Bytes)
    (before : Installation) : Prop :=
  (∃ prepared, s.prepare before = .ok prepared) ∧ s.writeFault relative = none ∧
    (∃ message, s.executableFault relative = some message) ∧
    (before.read (.other relative) ≠ some contents ∨
      before.isExecutable relative = true ∧ s.live = false)

theorem KeepsPrevious.refl (s : UpdateSurroundings) (before : Installation) :
    s.KeepsPrevious before before := by
  unfold KeepsPrevious
  split
  · exact InPlace.refl _ _
  · rfl

theorem prepare_ok {rollback : String} (h : s.prepare before = .ok (config, rollback, backup)) :
    s.load before = .ok config ∧ s.backup config before = .ok backup := by
  obtain ⟨loaded, hload, h⟩ := bind_ok.mp h
  obtain ⟨server, -, h⟩ := bind_ok.mp h
  obtain ⟨_, -, h⟩ := bind_ok.mp h
  obtain ⟨directory, -, h⟩ := bind_ok.mp h
  obtain ⟨entries, hbackup, h⟩ := bind_ok.mp h
  cases h
  refine ⟨?_, hbackup⟩
  cases hloaded : s.load before with
  | error error =>
    rw [hloaded] at hload
    cases hload
  | ok c =>
    rw [hloaded] at hload
    cases hload
    rfl

theorem load_accepted (h : s.load before = .ok config) : validate s.lib config = .ok () := by
  unfold load at h
  split at h
  · cases h
  split at h
  · cases h
  split at h
  · cases h
  split at h
  · cases h
  obtain ⟨_, hvalid, h⟩ := map_ok.mp h
  cases h
  exact hvalid

theorem keepsPrevious_of_kept (hload : s.load before = .ok config) (h : InPlace config before i) :
    s.KeepsPrevious before i := by
  unfold KeepsPrevious
  rw [hload]
  exact h

theorem writeManagedBinary_deployment {relative : String} {contents : Bytes}
    {result : Except UpdateError Unit}
    (h : s.writeManagedBinary relative contents i = (i', result)) :
    i'.deployment = i.deployment := by
  unfold writeManagedBinary at h
  split at h
  · cases h
    rfl
  · dsimp only at h
    split at h <;> cases h <;> rfl

theorem not_stranded_of_written {relative : String} {contents : Bytes}
    (h : s.writeManagedBinary relative contents before = (i, .ok ())) :
    ¬ s.Stranded relative contents before := by
  rintro ⟨-, hwrite, ⟨message, hexecutable⟩, -⟩
  simp only [writeManagedBinary, hwrite, hexecutable] at h
  cases h

theorem reconcile_deployment (files : List (String × Option InstalledFile)) (i : Installation) :
    (Restart.reconcile files i).deployment = i.deployment := by
  induction files generalizing i with
  | nil => rfl
  | cons entry rest ih =>
    rw [Restart.reconcile, ih]
    split <;> rfl

theorem run_deployment {r : Restart} {result : Except String Unit} (h : r.run i = (i', result)) :
    i'.deployment = i.deployment := by
  have hi : i' = Restart.reconcile r.reconciled i := (congrArg Prod.fst h).symm
  rw [hi, reconcile_deployment]

theorem prepareAndRestart_deployment {result : Except String Unit}
    (h : s.prepareAndRestart i = (i', result)) : i'.deployment = i.deployment := by
  unfold prepareAndRestart at h
  split at h
  · cases h
    rfl
  · exact run_deployment h

/-- A write over a binary that then cannot be made executable keeps the
deployment where it changes neither the bytes nor who can run them. -/
theorem kept_write_iff {relative : String} {contents : Bytes}
    (hrelative : relative ∈ [sbctlBinary, singBoxBinary]) :
    InPlace config before (before.write s.live (.other relative) contents) ↔
      before.read (.other relative) = some contents ∧
        (before.isExecutable relative = true → s.live = true) := by
  have hmem : ∀ relative ∈ [sbctlBinary, singBoxBinary], RollbackPath.other relative ∈ managedPaths := by
    decide
  have hruns : (before.write s.live (.other relative) contents).isExecutable relative = s.live := by
    simp only [List.mem_cons, List.not_mem_nil, or_false] at hrelative
    rw [Installation.write, Installation.isExecutable_setOther, if_pos rfl]
    rcases hrelative with rfl | rfl <;> simp
  constructor
  · intro h
    have hpath : .other relative ∈ rollbackPaths config := by
      unfold rollbackPaths
      split
      · exact List.mem_append_left _ (hmem relative hrelative)
      · exact hmem relative hrelative
    have hread := h.read (.other relative) hpath (by
      intro r hr heq
      cases heq
      exact binaries_not_reconciled hrelative hr)
    rw [Installation.read_write, if_pos rfl] at hread
    refine ⟨hread.symm, fun hbefore => ?_⟩
    rw [← hruns]
    exact h.executable relative hrelative hbefore
  · rintro ⟨hbytes, hlive⟩
    refine ⟨?_, ?_, fun _ _ _ _ _ _ directory hdirectory => ⟨directory, hdirectory, .inl rfl⟩⟩
    · intro path _ _
      rw [Installation.read_write]
      split
      · rename_i heq
        rw [heq, hbytes]
      · rfl
    · intro r hr hbefore
      by_cases heq : r = relative
      · subst heq
        rw [hruns]
        exact hlive hbefore
      · rw [Installation.isExecutable_write_ne (by simpa using Ne.symm heq)]
        exact hbefore

/-- What a failure at the first binary leaves is not rolled back. -/
theorem first_binary_keeps_iff {relative : String} {contents : Bytes} {rollback : String}
    {error : UpdateError} (hrelative : relative ∈ [sbctlBinary, singBoxBinary])
    (hprepare : s.prepare before = .ok (config, rollback, backup))
    (h : s.writeManagedBinary relative contents before = (i, .error error)) :
    s.KeepsPrevious before i ↔ ¬ s.Stranded relative contents before := by
  unfold writeManagedBinary at h
  split at h
  · rename_i message hwrite
    cases h
    apply iff_of_true (KeepsPrevious.refl s _)
    rintro ⟨-, hnone, -⟩
    rw [hwrite] at hnone
    cases hnone
  · rename_i hwrite
    dsimp only at h
    split at h <;> cases h
    rename_i message hexecutable
    have hload := (prepare_ok hprepare).1
    have hkept : s.KeepsPrevious before (before.write s.live (.other relative) contents) ↔
        InPlace config before (before.write s.live (.other relative) contents) := by
      unfold KeepsPrevious
      rw [hload]
    rw [hkept, kept_write_iff hrelative]
    constructor
    · rintro ⟨hbytes, hlive⟩ ⟨-, -, -, hne | ⟨hruns, hnot⟩⟩
      · exact hne hbytes
      · rw [hlive hruns] at hnot
        cases hnot
    · intro hstranded
      by_contra hnot
      apply hstranded
      refine ⟨⟨_, hprepare⟩, hwrite, ⟨message, hexecutable⟩, ?_⟩
      by_cases hbytes : before.read (.other relative) = some contents
      · right
        simp_all
      · exact .inl hbytes

theorem rollBack_kept {message : String} (hbackup : s.backup config before = .ok backup)
    (hdeployment : i.deployment = before.deployment)
    (h : (s.rollBack backup message i).FailedAlone) :
    InPlace config before (s.rollBack backup message i).installation := by
  unfold rollBack at h ⊢
  split at h
  · rename_i failed _
    obtain ⟨⟨error, herror, hnot⟩, -⟩ := h
    cases herror
    exact absurd rfl (hnot failed)
  · rename_i restored hrestore
    have hkept := restore_kept hbackup (fun host => by rw [hdeployment]) hrestore
    have hagain : InPlace config before (s.restartAgain.run restored).1 :=
      hkept.reconcile s.restartAgain.reconciled
    split
    · rename_i heq
      rwa [heq] at hagain
    · rename_i heq
      rwa [heq] at hagain

theorem keeps_of_prepare_error {relative : String} {contents : Bytes} {error : UpdateError}
    (hprepare : s.prepare before = .error error) :
    s.KeepsPrevious before before ↔ ¬ s.Stranded relative contents before := by
  apply iff_of_true (KeepsPrevious.refl s _)
  rintro ⟨⟨prepared, hprepared⟩, -⟩
  rw [hprepare] at hprepared
  cases hprepared

theorem installCandidateSingBox_keeps_iff (verified : Bytes)
    (h : (s.installCandidateSingBox verified before).FailedAlone) :
    s.KeepsPrevious before (s.installCandidateSingBox verified before).installation ↔
      ¬ s.Stranded singBoxBinary verified before := by
  have hsingBox : singBoxBinary ∈ [sbctlBinary, singBoxBinary] := by simp
  unfold installCandidateSingBox at h ⊢
  cases hprepare : s.prepare before with
  | error error => exact keeps_of_prepare_error hprepare
  | ok prepared =>
    obtain ⟨config, rollback, backup⟩ := prepared
    obtain ⟨hload, hbackup⟩ := prepare_ok hprepare
    simp only [hprepare] at h ⊢
    cases hwrite : s.writeManagedBinary singBoxBinary verified before with
    | mk written result =>
      cases result with
      | error error => exact first_binary_keeps_iff hsingBox hprepare hwrite
      | ok _ =>
        simp only [hwrite] at h ⊢
        apply iff_of_true _ (not_stranded_of_written hwrite)
        cases hrestart : s.restart.run written with
        | mk restarted result =>
          simp only [hrestart] at h ⊢
          cases result with
          | ok _ =>
            obtain ⟨⟨error, herror, -⟩, -⟩ := h
            cases herror
          | error message =>
            have hdeployment : restarted.deployment = before.deployment :=
              (run_deployment hrestart).trans (writeManagedBinary_deployment hwrite)
            exact keepsPrevious_of_kept hload (rollBack_kept hbackup hdeployment h)

theorem apply_keeps_iff (sbctlContents singBoxContents : Bytes)
    (h : (s.apply sbctlContents singBoxContents before).FailedAlone) :
    s.KeepsPrevious before (s.apply sbctlContents singBoxContents before).installation ↔
      ¬ s.Stranded sbctlBinary sbctlContents before := by
  have hsbctl : sbctlBinary ∈ [sbctlBinary, singBoxBinary] := by simp
  unfold apply at h ⊢
  cases hprepare : s.prepare before with
  | error error => exact keeps_of_prepare_error hprepare
  | ok prepared =>
    obtain ⟨config, rollback, backup⟩ := prepared
    obtain ⟨hload, hbackup⟩ := prepare_ok hprepare
    simp only [hprepare] at h ⊢
    cases hfirst : s.writeManagedBinary sbctlBinary sbctlContents before with
    | mk first result =>
      cases result with
      | error error => exact first_binary_keeps_iff hsbctl hprepare hfirst
      | ok _ =>
        simp only [hfirst] at h ⊢
        apply iff_of_true _ (not_stranded_of_written hfirst)
        apply keepsPrevious_of_kept hload
        have hfirstDeployment := writeManagedBinary_deployment hfirst
        cases hsecond : s.writeManagedBinary singBoxBinary singBoxContents first with
        | mk second result =>
          have hsecondDeployment := writeManagedBinary_deployment hsecond
          simp only [hsecond] at h ⊢
          cases result with
          | error error =>
            cases hrestore : s.restoreBackup backup second with
            | mk restored result =>
              simp only [hrestore] at h ⊢
              cases result with
              | error failed => exact absurd List.mem_cons_self (h.2 failed)
              | ok _ =>
                exact restore_kept hbackup
                  (fun host => by rw [hsecondDeployment, hfirstDeployment]) hrestore
          | ok _ =>
            cases hrestart : s.prepareAndRestart second with
            | mk restarted result =>
              simp only [hrestart] at h ⊢
              cases result with
              | error message =>
                apply rollBack_kept hbackup _ h
                rw [prepareAndRestart_deployment hrestart, hsecondDeployment, hfirstDeployment]
              | ok _ =>
                simp only [load_accepted hload] at h
                obtain ⟨⟨error, herror, -⟩, -⟩ := h
                cases herror

end UpdateSurroundings

/-- A failed update, none of whose rollback writes failed, leaves the previous
deployment in place, unless the first binary is written and then cannot be made
executable. -/
theorem failed_update_keeps_iff (s : UpdateSurroundings) (before : Installation) :
    (∀ sbctlContents singBoxContents, (s.apply sbctlContents singBoxContents before).FailedAlone →
      (s.KeepsPrevious before (s.apply sbctlContents singBoxContents before).installation ↔
        ¬ s.Stranded sbctlBinary sbctlContents before)) ∧
    ∀ verified, (s.installCandidateSingBox verified before).FailedAlone →
      (s.KeepsPrevious before (s.installCandidateSingBox verified before).installation ↔
        ¬ s.Stranded singBoxBinary verified before) := by
  constructor
  · intro sbctlContents singBoxContents h
    exact UpdateSurroundings.apply_keeps_iff sbctlContents singBoxContents h
  · intro verified h
    exact UpdateSurroundings.installCandidateSingBox_keeps_iff verified h

/-! ## A binary that cannot be made executable -/

/-- A host below a root of its own, where `relative` cannot be made executable. -/
def sampleUpdate (relative : String) : UpdateSurroundings where
  lib := sampleLibraries
  account := ⟨0, 0⟩
  live := false
  certificateDirectory _ := "/var/lib/sbctl/certificates/sub.example.com"
  tomlFromStr := sampleFromStr
  check _ := .ok ()
  rollbackDirectory := .ok "1"
  readFault _ := none
  pairFault := none
  copyFault _ := none
  writeFault _ := none
  executableFault path := if path = relative then some "Operation not permitted" else none
  storageFault := none
  restart := ⟨[], none⟩
  restore := ⟨fun _ => none, fun _ => none, fun _ => none, ⟨none, none⟩, none⟩
  restartAgain := ⟨[], none⟩

/-- A deployment with its two binaries and a server configuration. -/
def sampleInstallation : Installation where
  deployment := ⟨⟨[(bytes "sing-box-server.json", [])], some [], some (bytes sampleConfigText)⟩, []⟩
  others path := if path ∈ [sbctlBinary, singBoxBinary] then some ⟨[1], true⟩ else none

theorem sampleUpdate_load (relative : String) :
    (sampleUpdate relative).load sampleInstallation = .ok sampleConfig.lowered := by
  have hread : sampleInstallation.read (.file (.managed .config)) = some (bytes sampleConfigText) :=
    rfl
  have hfault : (sampleUpdate relative).readFault (.file (.managed .config)) = none := rfl
  have htoml : (sampleUpdate relative).tomlFromStr = sampleFromStr := rfl
  have hparse : (sampleUpdate relative).tomlFromStr sampleConfigText = some sampleConfig := by
    rw [htoml, sampleFromStr_text]
  have hvalid : validate sampleLibraries sampleConfig.lowered = .ok () := by decide
  exact UpdateSurroundings.load_of_text hfault hread hparse hvalid

theorem sampleUpdate_apply : ∃ outcome,
    (sampleUpdate sbctlBinary).apply [2] [2] sampleInstallation = outcome ∧
      outcome.installation.others sbctlBinary = some ⟨[2], false⟩ ∧
      outcome.result = .error (.io "Operation not permitted") ∧ outcome.warnings = [] := by
  generalize houtcome : (sampleUpdate sbctlBinary).apply [2] [2] sampleInstallation = outcome
  refine ⟨outcome, rfl, ?_⟩
  rw [UpdateSurroundings.apply, UpdateSurroundings.prepare, sampleUpdate_load] at houtcome
  rw [← houtcome]
  decide +kernel

/-- The first binary is left behind, new and not executable. -/
theorem first_binary_stranded : ¬ ∀ (s : UpdateSurroundings) (before : Installation)
    (sbctlContents singBoxContents : Bytes),
    (s.apply sbctlContents singBoxContents before).FailedAlone →
      s.KeepsPrevious before (s.apply sbctlContents singBoxContents before).installation := by
  intro hclaim
  obtain ⟨outcome, houtcome, hother, hresult, hwarnings⟩ := sampleUpdate_apply
  have hload := sampleUpdate_load sbctlBinary
  generalize sampleUpdate sbctlBinary = s at houtcome hload
  have hkept := hclaim s sampleInstallation [2] [2]
  rw [houtcome] at hkept
  have hkept := hkept (.of_result hresult hwarnings (by simp))
  rw [UpdateSurroundings.KeepsPrevious, hload] at hkept
  have hruns := hkept.executable sbctlBinary (by simp) (by decide +kernel)
  rw [Installation.isExecutable, hother] at hruns
  cases hruns

/-- The second binary cannot be made executable, and both are put back. -/
theorem failed_update_keeps_second :
    (sampleUpdate singBoxBinary).KeepsPrevious sampleInstallation
      ((sampleUpdate singBoxBinary).apply [2] [2] sampleInstallation).installation := by
  generalize houtcome : (sampleUpdate singBoxBinary).apply [2] [2] sampleInstallation = outcome
  have hiff := (failed_update_keeps_iff (sampleUpdate singBoxBinary) sampleInstallation).1 [2] [2]
  have hresult : outcome.result = .error (.io "Operation not permitted") ∧
      outcome.warnings = [] := by
    rw [UpdateSurroundings.apply, UpdateSurroundings.prepare, sampleUpdate_load] at houtcome
    rw [← houtcome]
    decide +kernel
  rw [houtcome] at hiff
  rw [hiff (.of_result hresult.1 hresult.2 (by simp))]
  rintro ⟨-, -, ⟨message, hfault⟩, -⟩
  have hnone : (sampleUpdate singBoxBinary).executableFault sbctlBinary = none := by
    decide +kernel
  rw [hnone] at hfault
  cases hfault

end Sbctl
