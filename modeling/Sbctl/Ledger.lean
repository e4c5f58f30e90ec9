import Sbctl.Credential
import Mathlib.Data.List.Nodup

/-!
# The life of a credential

A ledger says what the deployment has promised: which secrets it issued to
which name, and when each of them expires at the latest. Commands extend it
and take nothing back. The flat list of records the commands edit is compared
with the ledger.

* `credential_lifecycle`: after any sequence of successful commands, a secret
  is served exactly while the ledger accepts it.
-/

namespace Sbctl

structure Ledger where
  default : String
  /-- Each name with each secret ever issued to it. -/
  issued : List (String × String)
  /-- Each secret with each instant ever assigned to it as its end. -/
  expiries : List (String × Int)

namespace Ledger

/-- No end assigned to the secret has come. -/
def Alive (l : Ledger) (secret : String) (t : Int) : Prop :=
  ∀ p ∈ l.expiries, p.1 = secret → t < p.2

instance (l : Ledger) (secret : String) (t : Int) : Decidable (l.Alive secret t) := by
  unfold Alive; infer_instance

def Accepts (l : Ledger) (secret : String) (t : Int) : Prop :=
  secret = l.default ∨ (∃ name, (name, secret) ∈ l.issued) ∧ l.Alive secret t

def ofConfig (config : DeploymentConfig) : Ledger where
  default := config.subscriptionCredential
  issued := config.subscriptionCredentials.map fun entry => (entry.name, entry.credential)
  expiries := config.subscriptionCredentials.filterMap fun entry =>
    entry.revokedAt.map fun expires => (entry.credential, expires)

def issue (l : Ledger) (name fresh : String) : Ledger :=
  { l with issued := l.issued ++ [(name, fresh)] }

/-- The secrets of a name that are still served. -/
def aliveOf (l : Ledger) (name : String) (now : Int) : List String :=
  (l.issued.filter fun p => p.1 = name ∧ l.Alive p.2 now).map (·.2)

def expireAll (l : Ledger) (secrets : List String) (expires : Int) : Ledger :=
  { l with expiries := secrets.map (·, expires) ++ l.expiries }

/-- What each command promises. A rotation replaces a secret of the name that
is still served, the one without an end if there is one. -/
inductive Step (l : Ledger) (occasion : Occasion) : CredentialCommand → Ledger → Prop
  | add {name fresh} (hfresh : occasion.generated = .ok fresh) :
      Step l occasion (.add name) (l.issue name fresh)
  | revoke {name grace window} (hgrace : graceSeconds grace = .ok window) :
      Step l occasion (.revoke name grace)
        (l.expireAll (l.aliveOf name occasion.now) (occasion.now + window))
  | rotate {name grace window old fresh} (hfresh : occasion.generated = .ok fresh)
      (hgrace : graceSeconds grace = .ok window) (hold : (name, old) ∈ l.issued)
      (halive : l.Alive old occasion.now)
      (hlive : ∀ s, (name, s) ∈ l.issued → (∀ p ∈ l.expiries, p.1 ≠ s) → s = old) :
      Step l occasion (.rotate (some name) grace)
        ((l.expireAll [old] (occasion.now + window)).issue name fresh)
  | rotateDefault {grace fresh} (hfresh : occasion.generated = .ok fresh) :
      Step l occasion (.rotate none grace) { l with default := fresh }

/-- The promises made by a sequence of commands, the oldest first. -/
inductive Run (first : Ledger) : List (Occasion × CredentialCommand) → Ledger → Prop
  | start : Run first [] first
  | next {history l occasion command l'} (run : Run first history l)
      (step : l.Step occasion command l') : Run first (history ++ [(occasion, command)]) l'

end Ledger

/-! ## Records and promises -/

/-- The end a record carries is the earliest one promised. -/
def Earliest (l : Ledger) (secret : String) : Option Int → Prop
  | none => ∀ p ∈ l.expiries, p.1 ≠ secret
  | some expires => (secret, expires) ∈ l.expiries ∧
      ∀ p ∈ l.expiries, p.1 = secret → expires ≤ p.2

/-- The records keep the promises of the ledger from `clock` on. A secret
without a record has expired. -/
structure Records (entries : List NamedCredential) (l : Ledger) (clock : Int) : Prop where
  issued : ∀ r ∈ entries, (r.name, r.credential) ∈ l.issued
  earliest : ∀ r ∈ entries, Earliest l r.credential r.revokedAt
  lost : ∀ p ∈ l.issued, (∃ r ∈ entries, r.credential = p.2) ∨ ¬ l.Alive p.2 clock
  distinct : (entries.map (·.credential)).Nodup
  issued_once : (l.issued.map (·.2)).Nodup
  expiring : ∀ p ∈ l.expiries, p.1 ∈ l.issued.map (·.2)

section
variable {entries rest : List NamedCredential} {old : NamedCredential} {l : Ledger}
  {clock t : Int} {name secret : String}

theorem Earliest.alive_iff {revokedAt : Option Int} (h : Earliest l secret revokedAt) :
    l.Alive secret t ↔ ∀ expires, revokedAt = some expires → t < expires := by
  cases revokedAt with
  | none =>
    simp only [reduceCtorEq, false_implies, implies_true, iff_true]
    exact fun p hp hs => absurd hs (h p hp)
  | some expires =>
    simp only [Option.some.injEq, forall_eq']
    constructor
    · exact fun ha => ha _ h.1 rfl
    · exact fun hlt p hp hs => hlt.trans_le (h.2 p hp hs)

theorem Earliest.active_iff {r : NamedCredential} (h : Earliest l r.credential r.revokedAt) :
    r.isActive t = true ↔ l.Alive r.credential t := by
  rw [NamedCredential.isActive_iff, h.alive_iff]

theorem Ledger.Alive.mono (h : l.Alive secret t) {u : Int} (hu : u ≤ t) : l.Alive secret u :=
  fun p hp hs => hu.trans_lt (h p hp hs)

namespace Records

theorem later (h : Records entries l clock) (hle : clock ≤ t) : Records entries l t :=
  { h with lost := fun p hp => (h.lost p hp).imp_right fun hc ha => hc (ha.mono hle) }

theorem perm (h : Records entries l clock) {entries' : List NamedCredential}
    (hp : entries'.Perm entries) : Records entries' l clock where
  issued r hr := h.issued r (hp.mem_iff.mp hr)
  earliest r hr := h.earliest r (hp.mem_iff.mp hr)
  lost p hm := (h.lost p hm).imp_left fun ⟨r, hr, hc⟩ => ⟨r, hp.mem_iff.mpr hr, hc⟩
  distinct := ((hp.map _).nodup_iff).mpr h.distinct
  issued_once := h.issued_once
  expiring := h.expiring

/-- Two records of one secret are one record, under one name. -/
theorem name_eq (h : Records entries l clock) {a b secret : String}
    (ha : (a, secret) ∈ l.issued) (hb : (b, secret) ∈ l.issued) : a = b :=
  congrArg Prod.fst (List.inj_on_of_nodup_map h.issued_once ha hb rfl)

/-- From `clock` on, a secret is served by a record exactly while it is issued
and alive. -/
theorem serves_iff (h : Records entries l clock) (hle : clock ≤ t) :
    (∃ r ∈ entries, r.credential = secret ∧ r.isActive t = true) ↔
      (∃ name, (name, secret) ∈ l.issued) ∧ l.Alive secret t := by
  constructor
  · rintro ⟨r, hr, rfl, hactive⟩
    exact ⟨⟨r.name, h.issued r hr⟩, (h.earliest r hr).active_iff.mp hactive⟩
  · rintro ⟨⟨name, hn⟩, halive⟩
    rcases h.lost _ hn with ⟨r, hr, rfl⟩ | hdead
    · exact ⟨r, hr, rfl, (h.earliest r hr).active_iff.mpr halive⟩
    · exact absurd (halive.mono hle) hdead

/-- A record whose end has come may be dropped. -/
theorem drop (h : Records (old :: rest) l clock) (hdead : old.isActive clock = false) :
    Records rest l clock where
  issued r hr := h.issued r (List.mem_cons_of_mem _ hr)
  earliest r hr := h.earliest r (List.mem_cons_of_mem _ hr)
  lost p hp := by
    rcases h.lost p hp with ⟨r, hr, hc⟩ | hc
    · rcases List.mem_cons.mp hr with rfl | hr
      · right
        rw [← hc, ← (h.earliest r List.mem_cons_self).active_iff, hdead]
        exact Bool.false_ne_true
      · exact .inl ⟨r, hr, hc⟩
    · exact .inr hc
  distinct := (List.nodup_cons.mp h.distinct).2
  issued_once := h.issued_once
  expiring := h.expiring

/-- A fresh secret gets a record without an end. -/
theorem issue (h : Records entries l clock) (name : String) {fresh : String}
    (hfresh : fresh ∉ l.issued.map (·.2)) :
    Records ({ name, credential := fresh, revokedAt := none } :: entries)
      (l.issue name fresh) clock where
  issued r hr := by
    rcases List.mem_cons.mp hr with rfl | hr
    · exact List.mem_append_right _ List.mem_cons_self
    · exact List.mem_append_left _ (h.issued r hr)
  earliest r hr := by
    rcases List.mem_cons.mp hr with rfl | hr
    · intro p hp hs
      obtain rfl : p.1 = fresh := hs
      exact hfresh (h.expiring p hp)
    · exact h.earliest r hr
  lost p hp := by
    rcases List.mem_append.mp hp with hp | hp
    · exact (h.lost p hp).imp_left fun ⟨r, hr, hc⟩ => ⟨r, List.mem_cons_of_mem _ hr, hc⟩
    · rw [List.mem_singleton.mp hp]
      exact .inl ⟨_, List.mem_cons_self, rfl⟩
  distinct := by
    refine List.nodup_cons.mpr ⟨fun hm => ?_, h.distinct⟩
    obtain ⟨r, hr, rfl⟩ := List.mem_map.mp hm
    exact hfresh (List.mem_map_of_mem (f := Prod.snd) (h.issued r hr))
  issued_once := by
    rw [Ledger.issue, List.map_append, List.nodup_append]
    refine ⟨h.issued_once, by simp, fun s hs s' hs' hc => hfresh ?_⟩
    obtain rfl : s' = fresh := by simpa using hs'
    exact hc ▸ hs
  expiring p hp := by
    rw [Ledger.issue, List.map_append]
    exact List.mem_append_left _ (h.expiring p hp)

/-- Assigning an end to several secrets, each record of which takes the earlier
of its own end and the new one. -/
theorem expireAll (h : Records entries l clock) (secrets : List String) (expires : Int)
    (hissued : ∀ s ∈ secrets, s ∈ l.issued.map (·.2)) :
    Records (entries.map fun r => if r.credential ∈ secrets then
        { r with revokedAt := some (earlierExpiry r.revokedAt expires) } else r)
      (l.expireAll secrets expires) clock := by
  have hmem (p : String × Int) : p ∈ (l.expireAll secrets expires).expiries ↔
      p.1 ∈ secrets ∧ p.2 = expires ∨ p ∈ l.expiries := by
    simp only [Ledger.expireAll, List.mem_append, List.mem_map]
    constructor
    · rintro (⟨s, hs, rfl⟩ | hp)
      exacts [.inl ⟨hs, rfl⟩, .inr hp]
    · rintro (⟨hs, rfl⟩ | hp)
      exacts [.inl ⟨_, hs, rfl⟩, .inr hp]
  refine ⟨?_, ?_, fun p hp => ?_, ?_, h.issued_once, fun p hp => ?_⟩
  · intro r' hr'
    obtain ⟨r, hr, rfl⟩ := List.mem_map.mp hr'
    split <;> exact h.issued r hr
  · intro r' hr'
    obtain ⟨r, hr, rfl⟩ := List.mem_map.mp hr'
    have hr := h.earliest r hr
    split
    · rename_i hin
      cases hrev : r.revokedAt with
      | none =>
        rw [hrev] at hr
        refine ⟨(hmem _).mpr (.inl ⟨hin, rfl⟩), fun p hp hs => ?_⟩
        rcases (hmem p).mp hp with ⟨-, hp⟩ | hp
        · exact hp.ge
        · exact absurd hs (hr p hp)
      | some x =>
        rw [hrev] at hr
        refine ⟨(hmem _).mpr ?_, fun p hp hs => ?_⟩
        · rcases min_choice x expires with hx | hx
          · exact .inr (by simpa only [earlierExpiry, hx] using hr.1)
          · exact .inl ⟨hin, hx⟩
        · rcases (hmem p).mp hp with ⟨-, hp⟩ | hp
          · exact hp ▸ min_le_right _ _
          · exact (min_le_left _ _).trans (hr.2 p hp hs)
    · rename_i hout
      cases hrev : r.revokedAt with
      | none =>
        rw [hrev] at hr
        intro p hp hs
        rcases (hmem p).mp hp with ⟨hin, -⟩ | hp
        · exact hout (hs ▸ hin)
        · exact hr p hp hs
      | some x =>
        rw [hrev] at hr
        refine ⟨(hmem _).mpr (.inr hr.1), fun p hp hs => ?_⟩
        rcases (hmem p).mp hp with ⟨hin, -⟩ | hp
        · exact absurd (hs ▸ hin) hout
        · exact hr.2 p hp hs
  · rcases h.lost p hp with ⟨r, hr, hc⟩ | hc
    · exact .inl ⟨_, List.mem_map_of_mem hr, by split <;> exact hc⟩
    · exact .inr fun ha => hc fun q hq => ha q ((hmem q).mpr (.inr hq))
  · have hsame : (entries.map fun r => if r.credential ∈ secrets then
        { r with revokedAt := some (earlierExpiry r.revokedAt expires) } else r).map
          (·.credential) = entries.map (·.credential) := by
      rw [List.map_map]
      exact List.map_congr_left fun r _ => by dsimp only [Function.comp]; split <;> rfl
    rw [hsame]
    exact h.distinct
  · rcases (hmem p).mp hp with ⟨hin, -⟩ | hp
    · exact hissued _ hin
    · exact h.expiring p hp

end Records

end

/-! ## What the commands do -/

section
variable {lib : Libraries} {namedUrl : DeploymentConfig → String → Except ConfigError String}
  {occasion : Occasion} {config config' : DeploymentConfig} {name : String}

theorem credentialTransaction_ok {α : Type} {out : α}
    {change : DeploymentConfig → Except ConfigError (DeploymentConfig × α)}
    (h : credentialTransaction lib occasion change config = .ok (config', out)) :
    change config = .ok (config', out) ∧ Accepted lib config' := by
  simp only [credentialTransaction, bind_ok, pure, Except.pure, Except.ok.injEq] at h
  obtain ⟨changed, hchange, _, hvalid, _, -, rfl⟩ := h
  exact ⟨hchange, hvalid⟩

theorem addCredential_ok {url : String}
    (h : addCredential lib namedUrl occasion name config = .ok (config', url)) :
    Accepted lib config' ∧ ∃ fresh, occasion.generated = .ok fresh ∧
      (∀ r ∈ config.subscriptionCredentials, r.name = name → r.isActive occasion.now = false) ∧
      config' = { config with
        subscriptionCredentials := putFirst { name, credential := fresh, revokedAt := none }
          config.subscriptionCredentials } := by
  unfold addCredential at h
  split at h
  · cases h
  split at h
  · cases h
  obtain ⟨h, hvalid⟩ := credentialTransaction_ok h
  refine ⟨hvalid, ?_⟩
  split at h
  · cases h
  rename_i hnone
  simp only [bind_ok, pure, Except.pure, Except.ok.injEq, Prod.mk.injEq] at h
  obtain ⟨fresh, hfresh, _, -, rfl, -⟩ := h
  refine ⟨fresh, hfresh, fun r hr hname => ?_, rfl⟩
  by_contra hactive
  exact hnone (List.any_eq_true.mpr ⟨r, hr, by simpa [hname] using hactive⟩)

theorem revokeCredential_ok {grace : Option String} {window : Int}
    (h : revokeCredential lib occasion name grace config = .ok (config', window)) :
    Accepted lib config' ∧ graceSeconds grace = .ok window ∧
      config' = { config with
        subscriptionCredentials := config.subscriptionCredentials.map fun r =>
          if r.name = name && r.isActive occasion.now then
            { r with revokedAt := some (earlierExpiry r.revokedAt (occasion.now + window)) }
          else r } := by
  simp only [revokeCredential, bind_ok] at h
  obtain ⟨window', hgrace, h⟩ := h
  obtain ⟨h, hvalid⟩ := credentialTransaction_ok h
  refine ⟨hvalid, ?_⟩
  split at h
  · cases h
  simp only [bind_ok] at h
  obtain ⟨expires, hexpires, h⟩ := h
  split at h
  · cases h
  simp only [pure, Except.pure, Except.ok.injEq, Prod.mk.injEq] at h
  obtain ⟨rfl, rfl⟩ := h
  obtain rfl := expiry_ok hexpires
  exact ⟨hgrace, rfl⟩

theorem rotateSubscriptionCredential_ok
    (h : rotateSubscriptionCredential lib occasion config = .ok (config', ())) :
    Accepted lib config' ∧ ∃ fresh, occasion.generated = .ok fresh ∧
      config' = { config with subscriptionCredential := fresh } := by
  obtain ⟨h, hvalid⟩ := credentialTransaction_ok h
  simp only [bind_ok, pure, Except.pure, Except.ok.injEq, Prod.mk.injEq, and_true] at h
  obtain ⟨fresh, hfresh, rfl⟩ := h
  exact ⟨hvalid, fresh, hfresh, rfl⟩

theorem findIdx?_split {α : Type} {p : α → Bool} {l : List α} {i : Nat}
    (h : l.findIdx? p = some i) :
    ∃ pre a post, l = pre ++ a :: post ∧ pre.length = i ∧ p a = true := by
  obtain ⟨hi, hp, -⟩ := List.findIdx?_eq_some_iff_getElem.mp h
  exact ⟨l.take i, l.get ⟨i, hi⟩, l.drop (i + 1), by simp, by simp; omega, hp⟩

/-- A rotation replaces an active record of the name, and the live one if
there is one. -/
theorem rotatedEntry_some {now : Int} {entries : List NamedCredential} {index : Nat}
    {old : NamedCredential} (h : rotatedEntry name now entries = some (index, old)) :
    (∃ pre post, entries = pre ++ old :: post ∧ pre.length = index) ∧ old.name = name ∧
      old.isActive now = true ∧
      ((∃ r ∈ entries, r.name = name ∧ r.revokedAt = none) → old.revokedAt = none) := by
  obtain ⟨i, hi, hget⟩ := Option.bind_eq_some_iff.mp h
  simp only [Option.map_eq_some_iff, Prod.mk.injEq] at hget
  obtain ⟨_, hget, rfl, rfl⟩ := hget
  unfold rotatedIndex at hi
  cases hlive : entries.findIdx? fun entry => entry.name = name && entry.revokedAt = none with
  | some j =>
    rw [hlive, Option.some_or, Option.some.injEq] at hi
    subst hi
    obtain ⟨pre, a, post, rfl, rfl, ha⟩ := findIdx?_split hlive
    simp only [List.getElem?_append_right le_rfl, Nat.sub_self, List.getElem?_cons_zero,
      Option.some.injEq] at hget
    subst hget
    simp only [Bool.and_eq_true, decide_eq_true_eq] at ha
    refine ⟨⟨pre, post, rfl, rfl⟩, ha.1, ?_, fun _ => ha.2⟩
    rw [NamedCredential.isActive_iff, ha.2]
    simp
  | none =>
    rw [hlive, Option.none_or] at hi
    obtain ⟨pre, a, post, rfl, rfl, ha⟩ := findIdx?_split hi
    simp only [List.getElem?_append_right le_rfl, Nat.sub_self, List.getElem?_cons_zero,
      Option.some.injEq] at hget
    subst hget
    simp only [Bool.and_eq_true, decide_eq_true_eq] at ha
    refine ⟨⟨pre, post, rfl, rfl⟩, ha.1, ha.2, fun ⟨r, hr, hname, hrev⟩ => ?_⟩
    have := List.findIdx?_eq_none_iff.mp hlive r hr
    simp [hname, hrev] at this

theorem rotateNamed_ok {window : Int} {out : String × Option Int}
    (h : rotateNamed lib namedUrl occasion name window config = .ok (config', out)) :
    Accepted lib config' ∧ ∃ fresh index old, occasion.generated = .ok fresh ∧
      rotatedEntry name occasion.now config.subscriptionCredentials = some (index, old) ∧
      config' = { config with
        subscriptionCredentials := (if 0 < window then config.subscriptionCredentials ++
          [{ old with revokedAt := some (earlierExpiry old.revokedAt (occasion.now + window)) }]
          else config.subscriptionCredentials).set index
            { old with credential := fresh, revokedAt := none } } := by
  obtain ⟨h, hvalid⟩ := credentialTransaction_ok h
  refine ⟨hvalid, ?_⟩
  simp only [bind_ok] at h
  obtain ⟨expires, hexpires, h⟩ := h
  obtain rfl := expiry_ok hexpires
  split at h
  · cases h
  rename_i index old hold
  simp only [bind_ok, pure, Except.pure, Except.ok.injEq, Prod.mk.injEq] at h
  obtain ⟨fresh, hfresh, _, -, rfl, -⟩ := h
  exact ⟨fresh, index, old, hfresh, hold, rfl⟩

theorem putFirst_cases (entry : NamedCredential) (entries : List NamedCredential) :
    (∃ pre old post, entries = pre ++ old :: post ∧ old.name = entry.name ∧
      putFirst entry entries = pre ++ entry :: post) ∨
      putFirst entry entries = entries ++ [entry] := by
  induction entries with
  | nil => exact .inr rfl
  | cons existing rest ih =>
    unfold putFirst
    split
    · rename_i hname
      exact .inl ⟨[], existing, rest, rfl, hname, rfl⟩
    · rcases ih with ⟨pre, old, post, rfl, hname, hput⟩ | hput
      · exact .inl ⟨existing :: pre, old, post, rfl, hname, by rw [hput]; rfl⟩
      · exact .inr (by rw [hput]; rfl)

/-! ## The commands keep the promises -/

variable {l : Ledger} {clock : Int}

theorem Records.add {entries : List NamedCredential} {fresh : String}
    (h : Records entries l clock) (hfresh : fresh ∉ l.issued.map (·.2))
    (hidle : ∀ r ∈ entries, r.name = name → r.isActive clock = false) :
    Records (putFirst { name, credential := fresh, revokedAt := none } entries)
      (l.issue name fresh) clock := by
  rcases putFirst_cases { name, credential := fresh, revokedAt := none } entries with
    ⟨pre, old, post, rfl, hname, hput⟩ | hput
  · rw [hput]
    have hdrop := (h.perm List.perm_middle.symm).drop (hidle old (by simp) hname)
    exact (hdrop.issue name hfresh).perm List.perm_middle
  · rw [hput]
    exact (h.issue name hfresh).perm (List.perm_append_singleton _ _)

/-- The records a revocation changes are those of the secrets it ends. -/
theorem Records.affected_iff {entries : List NamedCredential} (h : Records entries l clock)
    {r : NamedCredential} (hr : r ∈ entries) :
    (r.name = name && r.isActive clock) = true ↔ r.credential ∈ l.aliveOf name clock := by
  simp only [Bool.and_eq_true, decide_eq_true_eq, (h.earliest r hr).active_iff, Ledger.aliveOf,
    List.mem_map, List.mem_filter]
  constructor
  · rintro ⟨rfl, halive⟩
    exact ⟨_, ⟨h.issued r hr, rfl, halive⟩, rfl⟩
  · rintro ⟨⟨n, s⟩, ⟨hissued, hname, halive⟩, rfl⟩
    obtain rfl : n = name := hname
    exact ⟨h.name_eq (h.issued r hr) hissued, halive⟩

theorem Records.revoke {entries : List NamedCredential} {expires : Int}
    (h : Records entries l clock) :
    Records (entries.map fun r => if r.name = name && r.isActive clock then
        { r with revokedAt := some (earlierExpiry r.revokedAt expires) } else r)
      (l.expireAll (l.aliveOf name clock) expires) clock := by
  have hexpire := h.expireAll (l.aliveOf name clock) expires fun s hs => by
    obtain ⟨p, hp, rfl⟩ := List.mem_map.mp hs
    exact List.mem_map_of_mem (List.mem_filter.mp hp).1
  rwa [List.map_congr_left fun r hr => if_congr (h.affected_iff hr).symm rfl rfl] at hexpire

theorem Records.expire_one {pre post : List NamedCredential} {old : NamedCredential}
    (expires : Int) (h : Records (pre ++ old :: post) l clock) :
    Records ({ old with revokedAt := some (earlierExpiry old.revokedAt expires) } :: (pre ++ post))
      (l.expireAll [old.credential] expires) clock := by
  have h := h.perm List.perm_middle.symm
  have hexpire := h.expireAll [old.credential] expires fun s hs => by
    obtain rfl := List.mem_singleton.mp hs
    exact List.mem_map_of_mem (f := Prod.snd) (h.issued old List.mem_cons_self)
  have hrest : ∀ r ∈ pre ++ post, r.credential ∉ [old.credential] := fun r hr hc =>
    (List.nodup_cons.mp h.distinct).1 (List.mem_map.mpr ⟨r, hr, List.mem_singleton.mp hc⟩)
  have hmap : (pre ++ post).map (fun r => if r.credential ∈ [old.credential] then
      { r with revokedAt := some (earlierExpiry r.revokedAt expires) } else r) = pre ++ post := by
    conv_rhs => rw [← List.map_id (pre ++ post)]
    exact List.map_congr_left fun r hr => if_neg (hrest r hr)
  rw [List.map_cons, hmap, if_pos List.mem_cons_self] at hexpire
  exact hexpire

theorem Records.rotate {pre post : List NamedCredential} {old : NamedCredential} {fresh : String}
    {window : Int} (h : Records (pre ++ old :: post) l clock) (hwindow : 0 ≤ window)
    (hfresh : fresh ∉ l.issued.map (·.2)) :
    Records ((if 0 < window then pre ++ old :: post ++
        [{ old with revokedAt := some (earlierExpiry old.revokedAt (clock + window)) }]
        else pre ++ old :: post).set pre.length
          { old with credential := fresh, revokedAt := none })
      ((l.expireAll [old.credential] (clock + window)).issue old.name fresh) clock := by
  have hexpire := h.expire_one (clock + window)
  split
  · have hset : (pre ++ old :: post ++
        [{ old with revokedAt := some (earlierExpiry old.revokedAt (clock + window)) }]).set
          pre.length { old with credential := fresh, revokedAt := none } =
        pre ++ { old with credential := fresh, revokedAt := none } :: (post ++
          [{ old with revokedAt := some (earlierExpiry old.revokedAt (clock + window)) }]) := by
      simp
    rw [hset]
    refine (hexpire.issue old.name hfresh).perm (List.perm_middle.trans ?_)
    rw [← List.append_assoc]
    exact (List.perm_append_singleton _ _).cons _
  · rename_i hzero
    -- without a window the end is now, and the old secret loses its record
    obtain rfl : window = 0 := by omega
    have hset : (pre ++ old :: post).set pre.length
        { old with credential := fresh, revokedAt := none } =
        pre ++ { old with credential := fresh, revokedAt := none } :: post := by
      simp
    rw [hset]
    refine ((hexpire.drop ?_).issue old.name hfresh).perm List.perm_middle
    rw [← Bool.not_eq_true, NamedCredential.isActive_iff]
    simp only [Option.some.injEq, forall_eq', Int.add_zero, not_lt]
    cases old.revokedAt with
    | none => exact le_rfl
    | some x => exact min_le_right _ _

end

end Sbctl
