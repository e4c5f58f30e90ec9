import Sbctl.ModeSwitch

/-!
# Recovering from a failed switch

A commit changes the files its snapshot lists and, where it pins a certificate
as a new generation, creates the refresh marker, which the snapshot does not
list.

* `commit_effect`: what the commit may have changed when it fails;
* `ModeSnapshot.restore_read`: what restoring leaves in every file;
* `switchMode_restored`: the deployment is as before, but for the marker of a
  generation that was published.
-/

namespace Sbctl

open Text Assoc Snapshot

/-! ## The effect of a commit -/

def refreshMarker (new : DeploymentConfig) : DeploymentFile :=
  .certificate (pinnedDirectory new) (bytes refreshPendingFile)

/-- The listed files that a switch to a configuration may write. -/
def SwitchFile (lib : Libraries) (new : DeploymentConfig) : DeploymentFile → Prop
  | .managed file => file.IsOwned
  | .certificate host name =>
    (host = bytes new.subscriptionHost ∨ host = bytes (new.protocolServerName lib)) ∧
      name ∈ certificateFileNames.map bytes

/-- Only listed files and the marker change, and the marker is created if and
only if a generation is published. -/
structure Effect (lib : Libraries) (new : DeploymentConfig) (published : Bool) (d d' : Deployment) :
    Prop where
  agree : Agree (fun file => SwitchFile lib new file ∨ file = refreshMarker new) d d'
  marker : d'.read (refreshMarker new) =
    if published then some [] else d.read (refreshMarker new)

theorem refreshPending_not_listed : bytes refreshPendingFile ∉ certificateFileNames.map bytes := by
  decide

namespace Effect

variable {lib : Libraries} {new : DeploymentConfig} {published : Bool} {d d' : Deployment}

theorem refl (lib : Libraries) (new : DeploymentConfig) (d : Deployment) :
    Effect lib new false d d :=
  ⟨Agree.refl _ _, rfl⟩

theorem trans {later : Bool} {d'' : Deployment} (first : Effect lib new published d d')
    (second : Effect lib new later d' d'') : Effect lib new (published || later) d d'' := by
  refine ⟨first.agree.trans second.agree, ?_⟩
  rw [second.marker, first.marker]
  cases published <;> cases later <;> rfl

/-- A transaction publishes nothing. -/
theorem of_transaction {config : DeploymentConfig}
    (hname : config.protocolServerName lib = new.protocolServerName lib)
    (h : Agree (TransactionFile lib config) d d') : Effect lib new false d d' := by
  have hscope : ∀ file, TransactionFile lib config file → SwitchFile lib new file := by
    intro file hfile
    cases file with
    | managed file => exact hfile
    | certificate host name =>
      obtain ⟨rfl, hname'⟩ := hfile
      refine ⟨.inr (by rw [hname]), ?_⟩
      simp only [List.mem_cons, List.not_mem_nil, or_false] at hname'
      cases hname' <;> simp [certificateFileNames, *]
  refine ⟨h.mono fun file hfile => .inl (hscope file hfile), h _ ?_⟩
  intro hfile
  exact refreshPending_not_listed (hscope _ hfile).2

end Effect

namespace SwitchSurroundings

variable {s : SwitchSurroundings}

/-- Whether pinning a certificate exchanges in a new generation. -/
def pinPublishes (s : SwitchSurroundings) (faults : PairFaults) (config : DeploymentConfig)
    (certificate : ValidatedCertificate) (d : Deployment) : Bool :=
  publishesPair s.account faults (pinnedDirectory config) (pinFiles certificate)
    (some refreshPendingFile) d

def livePublishes (s : SwitchSurroundings) (plan : SwitchPlan) (d : Deployment) : Bool :=
  plan.toPin.any fun live => s.pinPublishes s.pin plan.new live d

/-- Whether the services come up, Certbot issues a certificate and pinning that
exchanges in a new generation. -/
def issuedPublishes (s : SwitchSurroundings) (plan : SwitchPlan) (d : Deployment) : Bool :=
  s.services.isNone && plan.obtain &&
    (s.issuedCertificate plan.new).toOption.any fun certificate =>
      s.pinPublishes s.issuedPin plan.new certificate d

/-- Whether a commit reaches a pin that exchanges in a new generation. -/
def publishesGeneration (s : SwitchSurroundings) (plan : SwitchPlan) (d : Deployment) : Bool :=
  s.livePublishes plan d ||
    match s.publishConfiguration plan d with
    | (published, .ok ()) => s.issuedPublishes plan published
    | (_, .error _) => false

section
variable {plan : SwitchPlan} {new : DeploymentConfig} {d : Deployment}

theorem pinCertificate_effect (hlower : pinnedDirectory new = bytes new.subscriptionHost)
    (faults : PairFaults) (certificate : ValidatedCertificate) :
    Effect s.lib new (s.pinPublishes faults new certificate d) d
      (s.pinCertificate faults new certificate d).1 := by
  refine ⟨fun file hfile => ?_, writePrivatePair_marker⟩
  apply writePrivatePair_read
  · intro f hf
    rintro rfl
    apply hfile
    refine .inl ⟨.inl hlower, ?_⟩
    simp only [pinFiles, List.mem_cons, List.not_mem_nil, or_false] at hf
    cases hf <;> simp [certificateFileNames, *]
  · rintro m hm rfl
    cases hm
    exact hfile (.inr rfl)

theorem pinLive_effect (hlower : pinnedDirectory plan.new = bytes plan.new.subscriptionHost) :
    Effect s.lib plan.new (s.livePublishes plan d) d (s.pinLive plan d).1 := by
  unfold pinLive livePublishes
  cases plan.toPin with
  | none => exact Effect.refl _ _ _
  | some live => exact pinCertificate_effect hlower s.pin live

theorem stagedServer_effect :
    Effect s.lib plan.new false d (s.stagedServer plan d).1 := by
  unfold stagedServer
  split
  · have hgenerated : Effect s.lib plan.new false d (generatedArtifacts s.lib s.account s.bootstrap
        { plan.new with certificateMode := .selfSigned } d).1 :=
      Effect.of_transaction (show DeploymentConfig.protocolServerName s.lib
        { plan.new with certificateMode := .selfSigned } = _ from rfl) generatedArtifacts_agree
    split
    · rename_i heq
      rwa [heq] at hgenerated
    · rename_i heq
      rw [heq] at hgenerated
      split <;> exact hgenerated
  · exact Effect.refl _ _ _

theorem applyTransaction_effect (attempt : Attempt) (server : Option String) :
    Effect s.lib new false d (s.applyTransaction attempt new server d).1 :=
  Effect.of_transaction rfl applyConfigTransaction_agree

/-- A step whose continuation publishes nothing has its own effect. -/
theorem andThen_effect {α β : Type} {published : Bool} {step : Deployment × Except SwitchError α}
    {next : α → Deployment → Deployment × Except SwitchError β}
    (hstep : Effect s.lib new published d step.1)
    (hnext : ∀ a d', Effect s.lib new false d' (next a d').1) :
    Effect s.lib new published d (andThen step next).1 := by
  obtain ⟨d', result⟩ := step
  cases result with
  | error error => exact hstep
  | ok a =>
    have hboth := hstep.trans (hnext a d')
    rwa [Bool.or_false] at hboth

theorem restartServices_effect (fault : Option String) :
    Effect s.lib new false d (restartServices fault d).1 := by
  cases fault <;> exact Effect.refl _ _ _

theorem publishConfiguration_effect
    (hlower : pinnedDirectory plan.new = bytes plan.new.subscriptionHost) :
    Effect s.lib plan.new (s.livePublishes plan d) d (s.publishConfiguration plan d).1 :=
  andThen_effect (pinLive_effect hlower) fun _ _ =>
    andThen_effect stagedServer_effect fun server _ => applyTransaction_effect s.transaction server

theorem obtainCertificate_effect
    (hlower : pinnedDirectory plan.new = bytes plan.new.subscriptionHost) :
    Effect s.lib plan.new ((s.issuedCertificate plan.new).toOption.any fun certificate =>
      s.pinPublishes s.issuedPin plan.new certificate d) d (s.obtainCertificate plan.new d).1 := by
  unfold obtainCertificate
  cases s.issuedCertificate plan.new with
  | error error => exact Effect.refl _ _ _
  | ok certificate => exact pinCertificate_effect hlower s.issuedPin certificate

theorem startServices_effect
    (hlower : pinnedDirectory plan.new = bytes plan.new.subscriptionHost) :
    Effect s.lib plan.new (s.issuedPublishes plan d) d (s.startServices plan d).1 := by
  unfold startServices issuedPublishes
  cases s.services with
  | some message => exact Effect.refl _ _ _
  | none =>
    cases plan.obtain with
    | false => exact Effect.refl _ _ _
    | true =>
      change Effect s.lib plan.new ((s.issuedCertificate plan.new).toOption.any fun certificate =>
        s.pinPublishes s.issuedPin plan.new certificate d) d
          (andThen (s.obtainCertificate plan.new d) _).1
      refine andThen_effect (obtainCertificate_effect hlower) fun _ _ => ?_
      refine andThen_effect (applyTransaction_effect s.secondTransaction none) fun _ _ => ?_
      exact restartServices_effect s.secondServices

/-- A commit that fails has had its effect when the snapshot is restored. -/
theorem commit_effect (hlower : pinnedDirectory plan.new = bytes plan.new.subscriptionHost)
    {snapshot : ModeSnapshot} {after : Deployment} {error : SwitchError}
    (h : s.commit snapshot plan d = (after, .error (.restored error))) :
    ∃ failed touched, Effect s.lib plan.new (s.publishesGeneration plan d) d failed ∧
      snapshot.restore s.recovery touched failed = (after, .ok ()) := by
  have hrecover {touched : Bool} {error' : SwitchError} {failed : Deployment}
      (h : s.recover snapshot touched error' failed = (after, .error (.restored error))) :
      snapshot.restore s.recovery touched failed = (after, .ok ()) := by
    unfold recover at h
    split at h <;> cases h
    assumption
  have hpublished := publishConfiguration_effect (s := s) (d := d) hlower
  unfold commit at h
  unfold publishesGeneration
  split at h
  · rename_i failed _ heq
    rw [heq] at hpublished
    exact ⟨failed, false, by simpa [heq] using hpublished, hrecover h⟩
  · rename_i published heq
    rw [heq] at hpublished
    have hstarted := startServices_effect (s := s) (d := published) hlower
    split at h
    · rename_i failed _ hstart
      rw [hstart] at hstarted
      exact ⟨failed, true, by simpa [heq] using hpublished.trans hstarted, hrecover h⟩
    · cases h

end

end SwitchSurroundings

/-! ## What is captured -/

theorem ownedArtifact_eq (name : String) : ownedArtifact name = isOwnedArtifact name :=
  Bool.or_comm _ _

theorem captureFiles_ok {readFault : SnapshotPath → Option String} {d : Deployment}
    {paths : List SnapshotPath} {files : List (SnapshotPath × Option Bytes)}
    (h : captureFiles readFault d paths = .ok files) :
    files.map Prod.fst = paths ∧ ∀ file ∈ files, d.read file.1.file = file.2 := by
  induction paths generalizing files with
  | nil =>
    cases h
    exact ⟨rfl, fun file hfile => absurd hfile List.not_mem_nil⟩
  | cons path rest ih =>
    rw [captureFiles] at h
    split at h
    · cases h
    · obtain ⟨others, hothers, rfl⟩ := map_ok.mp h
      obtain ⟨hpaths, hread⟩ := ih hothers
      refine ⟨by simp [hpaths], fun file hfile => ?_⟩
      cases hfile with
      | head => rfl
      | tail _ hfile => exact hread file hfile

/-- A snapshot that was captured from a deployment before a switch. -/
structure ModeSnapshot.CapturedFrom (lib : Libraries) (new : DeploymentConfig) (d : Deployment)
    (snapshot : ModeSnapshot) : Prop where
  files_of : ∀ file ∈ snapshot.files, d.read file.1.file = file.2
  config : SnapshotPath.config ∈ snapshot.files.map Prod.fst
  activeConfig : SnapshotPath.activeConfig ∈ snapshot.files.map Prod.fst
  artifact : ∀ entry contents, (entry, contents) ∈ d.store.artifacts →
    isOwnedArtifact (toStringLossy entry) →
      SnapshotPath.artifact (toStringLossy entry) ∈ snapshot.files.map Prod.fst
  certificate : ∀ host name, host = new.subscriptionHost ∨ host = new.protocolServerName lib →
    name ∈ certificateFileNames → SnapshotPath.certificate host name ∈ snapshot.files.map Prod.fst
  not_marker : ∀ host, DeploymentFile.certificate host (bytes refreshPendingFile) ∉
    snapshot.files.map fun file => file.1.file

theorem ModeSnapshot.capture_ok {lib : Libraries} {listFault : Option String}
    {readFault : SnapshotPath → Option String} {prior new : DeploymentConfig} {d : Deployment}
    {snapshot : ModeSnapshot}
    (h : ModeSnapshot.capture lib listFault readFault prior new d = .ok snapshot) :
    snapshot.CapturedFrom lib new d := by
  unfold ModeSnapshot.capture at h
  split at h
  · cases h
  obtain ⟨files, hfiles, rfl⟩ := map_ok.mp h
  obtain ⟨hpaths, hread⟩ := captureFiles_ok hfiles
  have hmem (path : SnapshotPath) : path ∈ files.map Prod.fst ↔
      path ∈ [SnapshotPath.config, .activeConfig] ∨
      (∃ entry ∈ d.store.artifacts, ownedArtifact (toStringLossy entry.1) ∧
        path = .artifact (toStringLossy entry.1)) ∨
      ∃ directory ∈ snapshotDirectories lib prior new d, ∃ name ∈ certificateFileNames,
        path = .certificate directory name := by
    rw [hpaths, snapshotPaths]
    simp only [List.mem_dedup, List.mem_insertionSort, List.mem_append, List.mem_map,
      List.mem_filter, List.mem_flatMap]
    constructor
    · rintro ((hfixed | ⟨name, ⟨⟨entry, hentry, rfl⟩, howned⟩, rfl⟩) | ⟨directory, hdir, name, hname, rfl⟩)
      · exact .inl hfixed
      · exact .inr (.inl ⟨entry, hentry, howned, rfl⟩)
      · exact .inr (.inr ⟨directory, hdir, name, hname, rfl⟩)
    · rintro (hfixed | ⟨entry, hentry, howned, rfl⟩ | ⟨directory, hdir, name, hname, rfl⟩)
      · exact .inl (.inl hfixed)
      · exact .inl (.inr ⟨_, ⟨⟨entry, hentry, rfl⟩, howned⟩, rfl⟩)
      · exact .inr ⟨directory, hdir, name, hname, rfl⟩
  refine ⟨hread, (hmem _).mpr (.inl (by simp)), (hmem _).mpr (.inl (by simp)), ?_, ?_, ?_⟩
  · intro entry contents hentry howned
    exact (hmem _).mpr (.inr (.inl ⟨_, hentry, by rwa [ownedArtifact_eq], rfl⟩))
  · intro host name hhost hname
    refine (hmem _).mpr (.inr (.inr ⟨host, ?_, name, hname, rfl⟩))
    simp only [snapshotDirectories, List.mem_dedup, List.mem_insertionSort, List.mem_append,
      List.mem_flatMap]
    refine .inr ⟨new, by simp, ?_⟩
    cases hhost <;> simp [*]
  · intro host hmarker
    obtain ⟨file, hfile, heq⟩ := List.mem_map.mp hmarker
    rcases (hmem file.1).mp (List.mem_map_of_mem hfile) with hfixed | ⟨_, -, -, hpath⟩ |
      ⟨_, -, name, hname, hpath⟩
    · simp only [List.mem_cons, List.not_mem_nil, or_false] at hfixed
      cases hfixed <;> rename_i hpath <;> rw [hpath] at heq <;> cases heq
    · rw [hpath] at heq
      cases heq
    · rw [hpath] at heq
      have hsame : bytes name = bytes refreshPendingFile := (DeploymentFile.certificate.inj heq).2
      exact refreshPending_not_listed (hsame ▸ List.mem_map_of_mem hname)

/-! ## What restoring leaves -/

section
variable {α : Type} {step : α → Deployment → Deployment × List String}

/-- A loop without an error has written back what its steps write back. -/
theorem forEach_rewind {saved : α → Saved DeploymentFile Bytes}
    (hstep : ∀ item d d', step item d = (d', []) → d' = (saved item).rewind d) {items : List α}
    {d d' : Deployment} (h : forEach step items d = (d', [])) :
    d' = Saved.rewind (items.flatMap saved) d := by
  induction items generalizing d with
  | nil =>
    cases h
    rfl
  | cons item rest ih =>
    obtain ⟨hd, herrors⟩ := Prod.mk.inj h
    obtain ⟨hfirst, hrest⟩ := List.append_eq_nil_iff.mp herrors
    rw [List.flatMap_cons, Saved.rewind_append, ← hstep item d _ (Prod.ext rfl hfirst)]
    exact ih (Prod.ext hd hrest)

theorem forEach_read (hstep : ∀ item d file, (step item d).1.read file = d.read file)
    (items : List α) (d : Deployment) (file : DeploymentFile) :
    (forEach step items d).1.read file = d.read file := by
  induction items generalizing d with
  | nil => rfl
  | cons item rest ih => exact (ih _).trans (hstep item d file)

end

namespace ModeSnapshot

variable {snapshot : ModeSnapshot} {faults : RestoreFaults}

theorem restoreDirectory_read (entry : String × Option Metadata) (d : Deployment)
    (file : DeploymentFile) : (restoreDirectory faults entry d).1.read file = d.read file := by
  unfold restoreDirectory
  split
  · rfl
  · rename_i metadata directory _ hdirectory
    split
    · rfl
    · cases file with
      | managed file => rfl
      | certificate host name =>
        refine read_setDirectory ?_ host
        rw [hdirectory]
        rfl
  · rfl
  · rename_i directory _ hdirectory
    split
    · rename_i hempty
      split
      · rfl
      · cases file with
        | managed file => rfl
        | certificate host name =>
          change Deployment.fileIn ((remove (bytes entry.1) d.certificates).lookup host) name =
            Deployment.fileIn (d.directory host) name
          rw [lookup_remove]
          split
          · rename_i hhost
            have hnone : directory.read name = none := by
              rw [Directory.read, List.isEmpty_iff.mp hempty]
              rfl
            rw [hhost, hdirectory, Deployment.fileIn, Deployment.fileIn, Option.bind_some, hnone]
            rfl
          · rfl
    · rfl

/-- The files there are that belong to the generator but were not captured. -/
def uncaptured (snapshot : ModeSnapshot) (entry : Bytes) : Saved DeploymentFile Bytes :=
  if ownedArtifact (toStringLossy entry) &&
      !snapshot.files.any fun file => file.1 = .artifact (toStringLossy entry) then
    [(.managed (.artifact entry), none)]
  else []

theorem removeUncaptured_ok (entry : Bytes) (d d' : Deployment)
    (h : snapshot.removeUncaptured faults entry d = (d', [])) :
    d' = (snapshot.uncaptured entry).rewind d := by
  unfold removeUncaptured at h
  unfold uncaptured
  dsimp only at h
  split at h
  · rename_i howned
    rw [if_pos howned]
    split at h <;> cases h
    rfl
  · rename_i howned
    rw [if_neg howned]
    cases h
    rfl

theorem restoreFile_ok (file : SnapshotPath × Option Bytes) (d d' : Deployment)
    (h : restoreFile faults file d = (d', [])) :
    d' = Saved.rewind [(file.1.file, file.2)] d := by
  obtain ⟨path, prior⟩ := file
  unfold restoreFile at h
  split at h
  · rename_i contents hprior
    split at h
    · cases h
    · rename_i written hwrite
      cases (Prod.mk.inj h).1
      unfold writeRelativeLocked at hwrite
      split at hwrite
      · split at hwrite <;> cases hwrite
        cases hprior
        rfl
      · cases hwrite
  · rename_i hprior
    split at h <;> cases h
    cases hprior
    rfl

variable {lib : Libraries} {new : DeploymentConfig} {d failed after : Deployment}

/-- An artifact that is not captured was not there. -/
theorem CapturedFrom.read_uncaptured (h : snapshot.CapturedFrom lib new d) {entry : Bytes}
    (hentry : snapshot.uncaptured entry ≠ []) : d.read (.managed (.artifact entry)) = none := by
  unfold uncaptured at hentry
  split at hentry
  · rename_i howned
    obtain ⟨howned, hfresh⟩ := Bool.and_eq_true_iff.mp howned
    rw [ownedArtifact_eq] at howned
    apply lookup_eq_none
    intro hmem
    obtain ⟨⟨_, contents⟩, hlisted, rfl⟩ := List.mem_map.mp hmem
    obtain ⟨file, hfile, hpath⟩ := List.mem_map.mp (h.artifact _ _ hlisted howned)
    simp only [Bool.not_eq_true', List.any_eq_false, decide_eq_true_eq] at hfresh
    exact hfresh file hfile hpath
  · exact absurd rfl hentry

/-- What restoring writes back, in a deployment it finds. -/
def rewound (snapshot : ModeSnapshot) (failed : Deployment) : Saved DeploymentFile Bytes :=
  (failed.store.artifacts.map Prod.fst).flatMap snapshot.uncaptured ++
    snapshot.files.flatMap fun file => [(file.1.file, file.2)]

theorem errors_eq_nil {errors : List String} {message : String}
    (h : (if errors.isEmpty then Except.ok () else .error message) = .ok ()) : errors = [] := by
  split at h
  · exact List.isEmpty_iff.mp ‹_›
  · cases h

theorem restore_rewinds {touched : Bool} (h : snapshot.restore faults touched failed = (after, .ok ()))
    (file : DeploymentFile) :
    after.read file = ((snapshot.rewound failed).rewind failed).read file := by
  unfold restore at h
  split at h
  · cases h
  obtain ⟨rfl, herrors⟩ := Prod.mk.inj h
  have hempty := errors_eq_nil herrors
  simp only [List.append_eq_nil_iff] at hempty
  obtain ⟨⟨⟨⟨hremovals, hfiles⟩, -⟩, -⟩, -⟩ := hempty
  rw [forEach_read (fun item d file => restoreDirectory_read item d file), rewound,
    Saved.rewind_append, ← forEach_rewind removeUncaptured_ok (Prod.ext rfl hremovals),
    ← forEach_rewind restoreFile_ok (Prod.ext rfl hfiles)]

theorem rewound_covers {file : DeploymentFile} : (snapshot.rewound failed).Covers file ↔
    (∃ entry ∈ failed.store.artifacts.map Prod.fst, snapshot.uncaptured entry ≠ [] ∧
      file = .managed (.artifact entry)) ∨ ∃ saved ∈ snapshot.files, saved.1.file = file := by
  rw [rewound, Saved.covers_append]
  simp only [Saved.Covers, List.mem_map, List.mem_flatMap]
  refine or_congr ⟨?_, ?_⟩ ⟨?_, ?_⟩
  · rintro ⟨saved, ⟨entry, hentry, hsaved⟩, rfl⟩
    unfold uncaptured at hsaved ⊢
    split at hsaved
    · cases List.mem_singleton.mp hsaved
      exact ⟨entry, hentry, by simp [*], rfl⟩
    · cases hsaved
  · rintro ⟨entry, hentry, huncaptured, rfl⟩
    refine ⟨(.managed (.artifact entry), none), ⟨entry, hentry, ?_⟩, rfl⟩
    unfold uncaptured at huncaptured ⊢
    split
    · exact List.mem_singleton_self _
    · rename_i hnot
      exact absurd (if_neg hnot) huncaptured
  · rintro ⟨_, ⟨saved, hsaved, hentry⟩, rfl⟩
    cases List.mem_singleton.mp hentry
    exact ⟨saved, hsaved, rfl⟩
  · rintro ⟨saved, hsaved, rfl⟩
    exact ⟨_, ⟨saved, hsaved, List.mem_singleton_self _⟩, rfl⟩

/-- Restoring brings every file back but the marker, which it leaves as it is. -/
theorem restore_read {published touched : Bool} (hcaptured : snapshot.CapturedFrom lib new d)
    (heffect : Effect lib new published d failed)
    (h : snapshot.restore faults touched failed = (after, .ok ())) (file : DeploymentFile) :
    after.read file = if file = refreshMarker new then failed.read file else d.read file := by
  have hof : (snapshot.rewound failed).Of d := by
    intro entry hentry
    cases List.mem_append.mp hentry with
    | inl hremoval =>
      obtain ⟨name, -, hname⟩ := List.mem_flatMap.mp hremoval
      have hread := hcaptured.read_uncaptured (List.ne_nil_of_mem hname)
      unfold uncaptured at hname
      split at hname
      · cases List.mem_singleton.mp hname
        exact hread
      · cases hname
    | inr hfile =>
      obtain ⟨saved, hsaved, hentry⟩ := List.mem_flatMap.mp hfile
      cases List.mem_singleton.mp hentry
      exact hcaptured.files_of saved hsaved
  have hread := restore_rewinds h file
  rw [show ((snapshot.rewound failed).rewind failed).read file = _ from
    Saved.read_rewind hof failed file] at hread
  rw [hread]
  by_cases hmarker : file = refreshMarker new
  · subst hmarker
    rw [if_pos rfl, if_neg]
    · rfl
    intro hcovered
    rcases rewound_covers.mp hcovered with ⟨_, -, -, heq⟩ | ⟨saved, hsaved, heq⟩
    · cases heq
    · exact hcaptured.not_marker _ (List.mem_map.mpr ⟨saved, hsaved, heq⟩)
  rw [if_neg hmarker]
  split
  · rfl
  rename_i huncovered
  -- What is not written back is not among the files of the switch, or absent before and after.
  have huncovered := fun h => huncovered (rewound_covers.mpr h)
  by_cases hswitch : SwitchFile lib new file
  · have hlisted (path : SnapshotPath) (hpath : path ∈ snapshot.files.map Prod.fst)
        (heq : path.file = file) : False := by
      obtain ⟨saved, hsaved, rfl⟩ := List.mem_map.mp hpath
      exact huncovered (.inr ⟨saved, hsaved, heq⟩)
    cases file with
    | managed file =>
      cases file with
      | config => exact (hlisted _ hcaptured.config rfl).elim
      | activeConfig => exact (hlisted _ hcaptured.activeConfig rfl).elim
      | artifact entry =>
        obtain ⟨name, howned, rfl⟩ := hswitch
        by_cases hpath : SnapshotPath.artifact name ∈ snapshot.files.map Prod.fst
        · exact (hlisted _ hpath rfl).elim
        have hnew : snapshot.uncaptured (bytes name) ≠ [] := by
          rw [uncaptured, toStringLossy_bytes, if_pos]
          · simp
          · rw [ownedArtifact_eq, howned, Bool.true_and, Bool.not_eq_true', List.any_eq_false]
            intro saved hsaved heq
            exact hpath (List.mem_map.mpr ⟨saved, hsaved, by simpa using heq⟩)
        have hprior : d.read (.managed (.artifact (bytes name))) = none :=
          hcaptured.read_uncaptured hnew
        have hgone : failed.read (.managed (.artifact (bytes name))) = none := by
          apply lookup_eq_none
          intro hmem
          exact huncovered (.inl ⟨_, hmem, hnew, rfl⟩)
        exact hgone.trans hprior.symm
    | certificate host name =>
      obtain ⟨hhost, hname⟩ := hswitch
      obtain ⟨fileName, hfileName, rfl⟩ := List.mem_map.mp hname
      cases hhost with
      | inl hhost =>
        subst hhost
        exact (hlisted _ (hcaptured.certificate _ _ (.inl rfl) hfileName) rfl).elim
      | inr hhost =>
        subst hhost
        exact (hlisted _ (hcaptured.certificate _ _ (.inr rfl) hfileName) rfl).elim
  · exact heffect.agree file (not_or.mpr ⟨hswitch, hmarker⟩)

end ModeSnapshot

/-! ## The result -/

theorem desired_host {lib : Libraries} {prior new : DeploymentConfig} {options : ModeOptions}
    (h : desired lib prior options = .ok new)
    (hprior : toAsciiLowercase prior.subscriptionHost = prior.subscriptionHost) :
    toAsciiLowercase new.subscriptionHost = new.subscriptionHost := by
  obtain ⟨_, hlistener, h⟩ := bind_ok.mp h
  obtain ⟨-, -, h⟩ := bind_ok.mp h
  cases h
  have hhost : new.subscriptionHost =
      (options.subscriptionHost.map toAsciiLowercase).getD prior.subscriptionHost := by
    unfold desiredListener at hlistener
    split at hlistener
    · split at hlistener <;> cases hlistener
      rfl
    · split at hlistener <;> cases hlistener
      rfl
    · split at hlistener
      · cases hlistener
      · split at hlistener <;> cases hlistener
        rfl
  rw [hhost]
  cases options.subscriptionHost with
  | none => exact hprior
  | some host => exact toAsciiLowercase_idem host

namespace SwitchSurroundings

variable {s : SwitchSurroundings}

theorem load_host {d : Deployment} {prior : DeploymentConfig} (h : s.load d = .ok prior) :
    toAsciiLowercase prior.subscriptionHost = prior.subscriptionHost := by
  unfold load at h
  split at h
  · cases h
  split at h
  · cases h
  split at h
  · cases h
  split at h
  · cases h
  · obtain ⟨-, -, rfl⟩ := map_ok.mp h
    exact toAsciiLowercase_idem _

theorem mapError_ok {ε ε' α : Type} {x : Except ε α} {f : ε → ε'} {a : α}
    (h : x.mapError f = .ok a) : x = .ok a := by
  cases x with
  | error error => cases h
  | ok a =>
    cases h
    rfl

theorem prepareSwitch_ok {options : ModeOptions} {d : Deployment} {snapshot : ModeSnapshot}
    {plan : SwitchPlan} (h : s.prepareSwitch options d = .ok (snapshot, plan)) :
    pinnedDirectory plan.new = bytes plan.new.subscriptionHost ∧
      snapshot.CapturedFrom s.lib plan.new d := by
  obtain ⟨-, -, h⟩ := bind_ok.mp h
  obtain ⟨-, -, h⟩ := bind_ok.mp h
  obtain ⟨prior, hprior, h⟩ := bind_ok.mp h
  obtain ⟨new, hnew, h⟩ := bind_ok.mp h
  obtain ⟨-, -, h⟩ := bind_ok.mp h
  obtain ⟨-, -, h⟩ := bind_ok.mp h
  obtain ⟨plan', hplan, h⟩ := bind_ok.mp h
  obtain ⟨captured, hcaptured, h⟩ := bind_ok.mp h
  cases h
  have hplanned : plan.new = new := by
    unfold planSwitch at hplan
    dsimp only at hplan
    split at hplan
    · cases hplan
    · obtain ⟨-, -, rfl⟩ := map_ok.mp hplan
      rfl
  rw [hplanned]
  refine ⟨?_, ModeSnapshot.capture_ok (mapError_ok hcaptured)⟩
  rw [pinnedDirectory, desired_host hnew (load_host (mapError_ok hprior))]

/-- A switch that fails and reports the old deployment restored has restored
every file but the refresh marker. The marker is as before unless the commit
published a generation where there was no empty marker yet. -/
theorem switchMode_restored (s : SwitchSurroundings) (options : ModeOptions) (d after : Deployment)
    (error : SwitchError) (h : s.switchMode options d = (after, .error (.restored error))) :
    ∃ snapshot plan, s.prepareSwitch options d = .ok (snapshot, plan) ∧
      (∀ file, file ≠ refreshMarker plan.new → after.read file = d.read file) ∧
      ((∀ file, after.read file = d.read file) ↔
        (s.publishesGeneration plan d = true → d.read (refreshMarker plan.new) = some [])) := by
  unfold switchMode at h
  split at h
  · cases h
  rename_i snapshot plan hprepare
  obtain ⟨hlower, hcaptured⟩ := prepareSwitch_ok hprepare
  obtain ⟨failed, touched, heffect, hrestore⟩ := commit_effect hlower h
  have hread := ModeSnapshot.restore_read hcaptured heffect hrestore
  have hmarker : after.read (refreshMarker plan.new) =
      if s.publishesGeneration plan d then some [] else d.read (refreshMarker plan.new) := by
    rw [hread, if_pos rfl, heffect.marker]
  have hrest (file : DeploymentFile) (hfile : file ≠ refreshMarker plan.new) :
      after.read file = d.read file := by
    rw [hread, if_neg hfile]
  refine ⟨snapshot, plan, hprepare, hrest, ?_, ?_⟩
  · intro hall hpublished
    rw [← hall, hmarker, if_pos hpublished]
  · intro hkept file
    by_cases hfile : file = refreshMarker plan.new
    · subst hfile
      rw [hmarker]
      split
      · exact (hkept ‹_›).symm
      · rfl
    · exact hrest file hfile

end SwitchSurroundings

/-- An attempt in which nothing fails. -/
def sampleAttempt : Attempt where
  surroundings := { sampleSurroundings none with
    generatedArtifactsForKernel := fun _ =>
      .ok ⟨[(singBoxServerArtifact, "new")], ⟨"new", by decide⟩, by decide⟩
    tomlFromStr := sampleFromStr }
  ensureSubscriptionNodes _ := .ok ()
  openFault := none
  selfSigned _ := .ok ([1], [2])
  pair := ⟨none, none⟩

/-- A host with a valid certificate whose services, perhaps, do not come up. -/
def sampleSwitch (services : Option String) : SwitchSurroundings where
  lib := sampleLibraries
  account := ⟨0, 0⟩
  requirePrivileges := none
  lockFault := none
  configFault := none
  tomlFromStr := sampleFromStr
  bindable _ _ := true
  binaryIsFile := true
  validateMaterial _ _ _ _ := .ok "fingerprint"
  now := 0
  pinnedFault := none
  live := .ok (bytes "chain", bytes "key")
  certbotFound := false
  listFault := none
  readFault _ := none
  pin := ⟨none, none⟩
  bootstrap := sampleAttempt
  transaction := sampleAttempt
  services := services
  certbot := none
  issuedAt := 0
  issued := .error "missing"
  issuedPin := ⟨none, none⟩
  secondTransaction := sampleAttempt
  secondServices := none
  recovery := ⟨none, fun _ => none, fun _ => none, fun _ => none, fun _ => none, fun _ => none, [], none⟩

def sampleOptions : ModeOptions := ⟨.direct, none, none, none, none, none, none⟩

/-- A deployment that has only its configuration yet. -/
def sampleDeployment : Deployment := ⟨⟨[], none, some (bytes sampleConfigText)⟩, []⟩

def sampleMarker : DeploymentFile :=
  .certificate (bytes "sub.example.com") (bytes refreshPendingFile)

namespace SwitchSurroundings

theorem sampleSwitch_run : ∃ after,
    (sampleSwitch (some "restart failed")).switchMode sampleOptions sampleDeployment =
        (after, .error (.restored (.message "restart failed"))) ∧
      after.read sampleMarker = some [] := by
  have hrun : Prod.map (·.read sampleMarker) id
      ((sampleSwitch (some "restart failed")).switchMode sampleOptions sampleDeployment) =
        (some [], .error (.restored (.message "restart failed"))) := by
    decide +kernel
  generalize (sampleSwitch (some "restart failed")).switchMode sampleOptions sampleDeployment =
    outcome at hrun ⊢
  obtain ⟨after, result⟩ := outcome
  obtain ⟨hmarker, hresult⟩ := Prod.mk.inj hrun
  exact ⟨after, congrArg (after, ·) hresult, hmarker⟩

theorem switchMode_restored_sample : ∃ after error snapshot plan,
    (sampleSwitch (some "restart failed")).switchMode sampleOptions sampleDeployment =
      (after, .error (.restored error)) ∧
    (sampleSwitch (some "restart failed")).prepareSwitch sampleOptions sampleDeployment =
      .ok (snapshot, plan) ∧
    ∀ file, file ≠ refreshMarker plan.new → after.read file = sampleDeployment.read file := by
  obtain ⟨after, hrun, -⟩ := sampleSwitch_run
  obtain ⟨snapshot, plan, hprepare, hrest, -⟩ := switchMode_restored
    (sampleSwitch (some "restart failed")) sampleOptions sampleDeployment _ _ hrun
  exact ⟨_, _, snapshot, plan, hrun, hprepare, hrest⟩

/-- The services do not come up, the old deployment is reported restored, and
the directory of the host, which was not there, keeps the refresh marker. -/
theorem marker_survives_recovery : ∃ after error,
    (sampleSwitch (some "restart failed")).switchMode sampleOptions sampleDeployment =
      (after, .error (.restored error)) ∧
    sampleDeployment.read sampleMarker = none ∧ after.read sampleMarker = some [] := by
  obtain ⟨after, hrun, hmarker⟩ := sampleSwitch_run
  exact ⟨after, _, hrun, rfl, hmarker⟩

end SwitchSurroundings

end Sbctl
