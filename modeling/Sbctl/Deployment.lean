import Sbctl.ManagedDirectory
import Sbctl.Transaction

/-!
# The files of a deployment

The managed files together with the certificate directories, one for each
host, below a root that is not the live host's. A pair of certificate files is
written to such a directory as one generation; generating artifacts may write
a self-signed pair.

* `writePrivatePair_read`, `writePrivatePair_marker`: writing a pair changes
  the pair, and the refresh marker where a generation is published;
* `applyConfigTransaction_agree`: whatever fails, a transaction writes its own
  files and the self-signed pair.
-/

namespace Sbctl

open Text Assoc Snapshot

inductive DeploymentFile where
  | managed (file : ManagedFile)
  | certificate (directory name : Bytes)
  deriving DecidableEq, Repr

structure Deployment where
  store : Store
  certificates : List (Bytes × Directory)

namespace Directory

/-- Writes a file in place of what has the name. Its mode and owner, which are
put right afterwards, are not modelled. -/
def write (name contents : Bytes) (d : Directory) : Directory :=
  ⟨d.metadata, (name, ⟨true, ⟨0, 0, 0o600⟩, contents⟩) :: (d.unlink name).entries,
    List.nodup_cons.mpr ⟨by simp [unlink, remove], (d.unlink name).nodup⟩⟩

theorem read_write (d : Directory) (name contents k : Bytes) :
    (d.write name contents).read k =
      if k = name then some ⟨true, ⟨0, 0, 0o600⟩, contents⟩ else d.read k := by
  rw [read, write, lookup_cons_ite]
  split
  · rfl
  · rename_i hk
    exact (read_unlink d name k).trans (if_neg hk)

end Directory

namespace Deployment

def directory (d : Deployment) (host : Bytes) : Option Directory := d.certificates.lookup host

def setDirectory (host : Bytes) (directory : Directory) (d : Deployment) : Deployment :=
  { d with certificates := put host directory d.certificates }

theorem directory_setDirectory (d : Deployment) (host k : Bytes) (directory : Directory) :
    (d.setDirectory host directory).directory k =
      if k = host then some directory else d.directory k :=
  lookup_put _ _ _ _

/-- The bytes a directory holds under a name. -/
def fileIn (directory : Option Directory) (name : Bytes) : Option Bytes :=
  (directory.bind (·.read name)).map (·.bytes)

def read (d : Deployment) : DeploymentFile → Option Bytes
  | .managed file => d.store.read file
  | .certificate host name => fileIn (d.directory host) name

/-- A file is written into its directory, which is created if it has to be. -/
def set : DeploymentFile → Option Bytes → Deployment → Deployment
  | .managed file, contents, d => { d with store := d.store.set file contents }
  | .certificate host name, some contents, d =>
    d.setDirectory host (((d.directory host).getD (.empty ⟨0, 0, 0o700⟩)).write name contents)
  | .certificate host name, none, d =>
    match d.directory host with
    | none => d
    | some directory => d.setDirectory host (directory.unlink name)

theorem fileIn_getD (directory : Option Directory) (metadata : Metadata) (name : Bytes) :
    fileIn (some (directory.getD (.empty metadata))) name = fileIn directory name := by
  cases directory <;> rfl

theorem read_set (d : Deployment) (file f : DeploymentFile) (contents : Option Bytes) :
    (set file contents d).read f = if f = file then contents else d.read f := by
  cases file with
  | managed file =>
    cases f with
    | managed f =>
      simp only [set, read, DeploymentFile.managed.injEq]
      exact Store.read_set _ _ _ _
    | certificate host name => rfl
  | certificate host name =>
    cases f with
    | managed f =>
      cases contents with
      | some contents => rfl
      | none =>
        simp only [set]
        split <;> rfl
    | certificate h n =>
      have hsame {directory : Directory} {content : Option Bytes}
          (hfile : fileIn (some directory) n = if n = name then content else
            fileIn (d.directory host) n) :
          fileIn ((d.setDirectory host directory).directory h) n =
            if h = host ∧ n = name then content else fileIn (d.directory h) n := by
        rw [directory_setDirectory]
        by_cases hh : h = host
        · subst hh
          simpa using hfile
        · simp [hh]
      simp only [read, DeploymentFile.certificate.injEq]
      cases contents with
      | some contents =>
        apply hsame
        rw [fileIn, Option.bind_some, Directory.read_write]
        split
        · rfl
        · exact fileIn_getD _ _ _
      | none =>
        simp only [set]
        split
        · rename_i hnone
          split
          · rename_i heq
            rw [heq.1, hnone]
            rfl
          · rfl
        · rename_i directory hsome
          apply hsame
          rw [fileIn, Option.bind_some, Directory.read_unlink, hsome]
          split <;> rfl

instance : Cells Deployment DeploymentFile Bytes where
  read := read
  set := set
  read_set := read_set

end Deployment

/-! ## Writing a pair -/

/-- The account the program runs as. -/
structure Account where
  uid : Nat
  gid : Nat

/-- What keeps a pair from being written: before the directory is prepared, or
before its generation is exchanged in. -/
structure PairFaults where
  prepare : Option String
  publish : Option String

def pairRequest (account : Account) (files : List (String × Bytes)) (marker : Option String) :
    Request where
  files := files
  marker := marker
  newFile := ⟨account.uid, account.gid, 0o600⟩
  newDirectory := ⟨account.uid, account.gid, 0o700⟩
  filePolicy := fun metadata => { metadata with mode := 0o640 }
  directoryPolicy := fun metadata => { metadata with mode := 0o750 }

def preparePrivateDirectory (account : Account) (directory : Option Directory) : Directory :=
  let directory := directory.getD (.empty ⟨account.uid, account.gid, 0o700⟩)
  { directory with metadata := { directory.metadata with mode := 0o750 } }

def writePrivatePair (account : Account) (faults : PairFaults) (host : Bytes)
    (files : List (String × Bytes)) (marker : Option String) (d : Deployment) :
    Deployment × Except String Unit :=
  match faults.prepare with
  | some message => (d, .error message)
  | none =>
    let directory := preparePrivateDirectory account (d.directory host)
    let prepared := d.setDirectory host directory
    match faults.publish with
    | some message => (prepared, .error message)
    | none =>
      match (pairRequest account files marker).replaceFilesWithMarker directory with
      | .error message => (prepared, .error message)
      | .ok none => (prepared, .ok ())
      | .ok (some published) => (d.setDirectory host published, .ok ())

/-- Whether writing a pair exchanges in a new generation. -/
def publishesPair (account : Account) (faults : PairFaults) (host : Bytes)
    (files : List (String × Bytes)) (marker : Option String) (d : Deployment) : Bool :=
  faults.prepare.isNone && faults.publish.isNone &&
    match (pairRequest account files marker).replaceFilesWithMarker
        (preparePrivateDirectory account (d.directory host)) with
    | .ok (some _) => true
    | _ => false

section
variable {account : Account} {faults : PairFaults} {host : Bytes}
  {files : List (String × Bytes)} {marker : Option String} {d : Deployment}

theorem fileIn_prepared (account : Account) (host : Bytes) (d : Deployment) (name : Bytes) :
    Deployment.fileIn (some (preparePrivateDirectory account (d.directory host))) name =
      Deployment.fileIn (d.directory host) name := by
  cases d.directory host <;> rfl

theorem read_setDirectory {directory : Directory} {name : Bytes}
    (h : Deployment.fileIn (some directory) name = Deployment.fileIn (d.directory host) name)
    (k : Bytes) : (d.setDirectory host directory).read (.certificate k name) =
      d.read (.certificate k name) := by
  simp only [Deployment.read, Deployment.directory_setDirectory]
  by_cases hk : k = host
  · subst hk
    simpa using h
  · simp [hk]

/-- Writing a pair leaves every other file, but for the marker. -/
theorem writePrivatePair_read {file : DeploymentFile}
    (hfiles : ∀ f ∈ files, file ≠ .certificate host (bytes f.1))
    (hmarker : ∀ m, marker = some m → file ≠ .certificate host (bytes m)) :
    (writePrivatePair account faults host files marker d).1.read file = d.read file := by
  have hprepared : (d.setDirectory host (preparePrivateDirectory account (d.directory host))).read
      file = d.read file := by
    cases file with
    | managed file => rfl
    | certificate k name => exact read_setDirectory (fileIn_prepared account host d name) k
  unfold writePrivatePair
  split
  · rfl
  dsimp only
  split
  · exact hprepared
  split
  · exact hprepared
  · exact hprepared
  · rename_i published hpublished
    cases file with
    | managed file => rfl
    | certificate k name =>
      by_cases hk : k = host
      · subst hk
        refine read_setDirectory ?_ k
        obtain ⟨-, hrest, -⟩ := Request.replaceFilesWithMarker_some hpublished
        have hkept := hrest name
          (fun hreplaces => by
            obtain ⟨f, hf, rfl⟩ := Request.replaces_iff.mp hreplaces
            exact hfiles f hf rfl)
          (fun m hm heq => hmarker m hm (heq ▸ rfl))
        rw [← fileIn_prepared account _ d name, Deployment.fileIn, Option.bind_some, hkept]
        rfl
      · simp only [Deployment.read, Deployment.directory_setDirectory, if_neg hk]

/-- The marker is there, and empty, where a generation was published. -/
theorem writePrivatePair_marker {m : String} :
    (writePrivatePair account faults host files (some m) d).1.read (.certificate host (bytes m)) =
      if publishesPair account faults host files (some m) d then some []
      else d.read (.certificate host (bytes m)) := by
  have hprepared := read_setDirectory (fileIn_prepared account host d (bytes m)) host
  unfold writePrivatePair publishesPair
  cases hprepare : faults.prepare with
  | some message => simp
  | none =>
    cases hpublish : faults.publish with
    | some message => simpa using hprepared
    | none =>
      dsimp only
      cases hresult : (pairRequest account files (some m)).replaceFilesWithMarker
          (preparePrivateDirectory account (d.directory host)) with
      | error message => simpa using hprepared
      | ok published =>
        cases published with
        | none => simpa using hprepared
        | some published =>
          obtain ⟨-, -, hmark⟩ := Request.replaceFilesWithMarker_some hresult
          simp [Deployment.read, Deployment.directory_setDirectory, Deployment.fileIn,
            hmark m rfl, Request.markerMaterial]

end

/-! ## Transactions -/

/-- What a generation and its transaction meet outside the deployment. -/
structure Attempt where
  surroundings : Surroundings
  /-- What is checked before the certificate is needed. -/
  ensureSubscriptionNodes : DeploymentConfig → Except SubscriptionError Unit
  openFault : Option String
  /-- A new certificate and key for a server name. -/
  selfSigned : String → Except SubscriptionError (Bytes × Bytes)
  pair : PairFaults

section
variable (lib : Libraries) (account : Account) (attempt : Attempt) (config : DeploymentConfig)

def regularFile (directory : Option Directory) (name : String) : Except SubscriptionError Bool :=
  match directory.bind (·.read (bytes name)) with
  | none => .ok false
  | some material =>
    if material.regular then .ok true
    else .error (.artifact "certificate material must be a regular file")

/-- Whether a pinned pair can be used again. -/
def selfSignedExists (d : Deployment) : Except SubscriptionError Bool :=
  match attempt.openFault with
  | some message => .error (.artifact message)
  | none => do
    let directory := d.directory (bytes (config.protocolServerName lib))
    let certificateExists ← regularFile directory "cert.pem"
    let keyExists ← regularFile directory "key.pem"
    return certificateExists && keyExists

def ensureSelfSignedCertificate (d : Deployment) : Deployment × Except SubscriptionError Unit :=
  let serverName := config.protocolServerName lib
  match selfSignedExists lib attempt config d with
  | .error error => (d, .error error)
  | .ok true => (d, .ok ())
  | .ok false =>
    match attempt.selfSigned serverName with
    | .error error => (d, .error error)
    | .ok (certificate, key) =>
      let (d, result) := writePrivatePair account attempt.pair (bytes serverName)
        [("cert.pem", certificate), ("key.pem", key)] none d
      (d, result.mapError .artifact)

def generatedArtifacts (d : Deployment) : Deployment × Except SubscriptionError Generated :=
  match attempt.ensureSubscriptionNodes config with
  | .error error => (d, .error error)
  | .ok () =>
    match config.certificateMode with
    | .domain => (d, attempt.surroundings.generatedArtifactsForKernel config)
    | .selfSigned =>
      match ensureSelfSignedCertificate lib account attempt config d with
      | (d, .error error) => (d, .error error)
      | (d, .ok ()) => (d, attempt.surroundings.generatedArtifactsForKernel config)

def applyConfigTransaction (stagedServer : Option String) (d : Deployment) :
    Deployment × Except SubscriptionError DeploymentSnapshot :=
  match validate lib config with
  | .error error => (d, .error (.storage error))
  | .ok () =>
    let (d, generated) := generatedArtifacts lib account attempt config d
    let surroundings :=
      { attempt.surroundings with lib, generatedArtifactsForKernel := fun _ => generated }
    let (store, result) := surroundings.applyTransactionLocked config stagedServer false d.store
    ({ d with store }, result)

/-- The files a transaction to the configuration is about. -/
def TransactionFile : DeploymentFile → Prop
  | .managed file => file.IsOwned
  | .certificate host name => host = bytes (config.protocolServerName lib) ∧
    name ∈ [bytes "cert.pem", bytes "key.pem"]

variable {lib account attempt config} {d : Deployment}

theorem agree_managed {store : Store} (h : Agree ManagedFile.IsOwned d.store store) :
    Agree (TransactionFile lib config) d { d with store } := by
  intro file hfile
  cases file with
  | managed file => exact h file hfile
  | certificate host name => rfl

theorem ensureSelfSignedCertificate_agree :
    Agree (TransactionFile lib config) d
      (ensureSelfSignedCertificate lib account attempt config d).1 := by
  unfold ensureSelfSignedCertificate
  split
  · exact Agree.refl _ _
  · exact Agree.refl _ _
  dsimp only
  split
  · exact Agree.refl _ _
  intro file hfile
  apply writePrivatePair_read
  · intro f hf
    rintro rfl
    apply hfile
    refine ⟨rfl, ?_⟩
    simp only [List.mem_cons, List.not_mem_nil, or_false] at hf
    cases hf <;> simp [*]
  · intro m hm
    cases hm

theorem generatedArtifacts_agree :
    Agree (TransactionFile lib config) d (generatedArtifacts lib account attempt config d).1 := by
  unfold generatedArtifacts
  split
  · exact Agree.refl _ _
  split
  · exact Agree.refl _ _
  · have hensured : Agree (TransactionFile lib config) d
        (ensureSelfSignedCertificate lib account attempt config d).1 :=
      ensureSelfSignedCertificate_agree
    split
    · rename_i heq
      rwa [heq] at hensured
    · rename_i heq
      rwa [heq] at hensured

theorem applyConfigTransaction_agree {stagedServer : Option String} :
    Agree (TransactionFile lib config) d
      (applyConfigTransaction lib account attempt config stagedServer d).1 := by
  unfold applyConfigTransaction
  split
  · exact Agree.refl _ _
  · exact generatedArtifacts_agree.trans
      (agree_managed (Surroundings.applyTransactionLocked_agree _ _ _ _ _))

end

end Sbctl
