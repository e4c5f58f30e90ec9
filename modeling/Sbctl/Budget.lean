import Sbctl.Serve
import Sbctl.Lib.TokenBucket

/-!
# The request budget over time

Any number of addresses spend from one table. Each address sees its own bucket
only: calls of others leave it alone, forget it while it is full, or lose it
together with the whole table.

* `budget_faithful`: what the budget admits, refuses and remembers.
-/

namespace Sbctl

open TokenBucket

def requestRate : Rate := ⟨requestBurst, requestRefill, by decide, by decide⟩

structure Call where
  peer : IpAddr
  now : Nat

namespace IpBudget

def new : IpBudget := ⟨[]⟩

def acquire (budget : IpBudget) (call : Call) : Except Nat Unit × IpBudget :=
  budget.tryAcquire call.peer call.now

/-- The budget after the calls, one after the other. -/
def after (budget : IpBudget) : List Call → IpBudget
  | [] => budget
  | call :: calls => after (budget.acquire call).2 calls

/-- The addresses a sweep keeps. -/
def owing (now : Nat) (budget : IpBudget) : List (IpAddr × Bucket) :=
  budget.buckets.filter fun entry =>
    min (entry.2.tokens + refilled entry.2 now) (2 ^ 32 - 1) < requestBurst

/-- The call sweeps the table and finds too many addresses in debt. -/
def overflows (budget : IpBudget) (call : Call) : Bool :=
  (budget.buckets.lookup call.peer).isNone &&
    decide (maxTrackedPeers < (budget.owing call.now).length)

structure Outcome where
  call : Call
  admitted : Bool
  cleared : Bool

def outcomes (budget : IpBudget) : List Call → List Outcome
  | [] => []
  | call :: calls =>
    ⟨call, (budget.acquire call).1.isOk, budget.overflows call⟩ ::
      outcomes (budget.acquire call).2 calls

/-- The buckets whose age a call works out: its own one, or all in a sweep. -/
def examined (budget : IpBudget) (call : Call) : List Bucket :=
  match budget.buckets.lookup call.peer with
  | some bucket => [bucket]
  | none => budget.buckets.map Prod.snd

/-- No call meets an age of 2^32 seconds or more. -/
def Timely (budget : IpBudget) : List Call → Prop
  | [] => True
  | call :: calls =>
    (∀ bucket ∈ budget.examined call, (call.now - bucket.at') / requestRefill < 2 ^ 32) ∧
      Timely (budget.acquire call).2 calls

/-! ## One address's view -/

def levelOf (bucket : Bucket) : Level := ⟨bucket.tokens, bucket.at'⟩

def bucketOf (peer : IpAddr) (budget : IpBudget) : Option Level :=
  (budget.buckets.lookup peer).map levelOf

/-- What a call is to the bucket of an address. -/
def eventOf (peer : IpAddr) (budget : IpBudget) (call : Call) : TokenBucket.Event :=
  if call.peer = peer then .take call.now
  else if (budget.buckets.lookup call.peer).isSome then .pass call.now
  else if budget.overflows call then .lose call.now
  else .sweep call.now

def events (peer : IpAddr) (budget : IpBudget) : List Call → List TokenBucket.Event
  | [] => []
  | call :: calls => budget.eventOf peer call :: events peer (budget.acquire call).2 calls

/-- The table names every address once, and no bucket is ahead of the clock. -/
structure Sound (budget : IpBudget) (now : Nat) : Prop where
  distinct : (budget.buckets.map Prod.fst).Nodup
  bounded : ∀ entry ∈ budget.buckets, entry.2.tokens ≤ requestBurst ∧ entry.2.at' ≤ now

variable {budget : IpBudget} {call : Call} {peer : IpAddr} {now : Nat}

theorem eventOf_now : (budget.eventOf peer call).now = call.now := by
  unfold eventOf
  split
  · rfl
  · split
    · rfl
    · split <;> rfl

theorem eventOf_isTake : (budget.eventOf peer call).isTake = decide (call.peer = peer) := by
  unfold eventOf
  split
  · simp [TokenBucket.Event.isTake, *]
  · split
    · simp [TokenBucket.Event.isTake, *]
    · split <;> simp [TokenBucket.Event.isTake, *]

theorem refilled_eq {bucket : Bucket} (h : (now - bucket.at') / requestRefill < 2 ^ 32) :
    refilled bucket now = gained requestRate (levelOf bucket) now := Nat.mod_eq_of_lt h

theorem levelOf_topUp {bucket : Bucket} (h : (now - bucket.at') / requestRefill < 2 ^ 32)
    (htokens : bucket.tokens ≤ requestBurst) :
    levelOf (topUp now bucket) = settle requestRate (levelOf bucket) now := by
  have hrefilled := refilled_eq h
  have hburst : requestRate.burst = 60 := rfl
  have hsixty : requestBurst = 60 := rfl
  rw [hsixty] at htokens
  unfold topUp
  simp only [hrefilled, hsixty]
  by_cases hpos : 0 < gained requestRate (levelOf bucket) now
  · rw [if_pos hpos]
    simp only [settle, levelOf, hburst, Level.mk.injEq]
    refine ⟨by omega, rfl⟩
  · have hzero : gained requestRate (levelOf bucket) now = 0 := by omega
    rw [if_neg hpos]
    simp only [settle, hzero, hburst, Nat.add_zero, Nat.mul_zero]
    simp only [levelOf, Level.mk.injEq, and_true]
    omega

/-- A sweep keeps the buckets that are not full. -/
theorem owing_iff {bucket : Bucket} (h : (now - bucket.at') / requestRefill < 2 ^ 32) :
    min (bucket.tokens + refilled bucket now) (2 ^ 32 - 1) < requestBurst ↔
      (settle requestRate (levelOf bucket) now).tokens < requestRate.burst := by
  have hburst : requestRate.burst = 60 := rfl
  have hsixty : requestBurst = 60 := rfl
  rw [refilled_eq h, hsixty]
  simp only [settle, levelOf, hburst]
  omega

theorem admitAt_buckets :
    (budget.admitAt now).buckets =
      if maxTrackedPeers < (budget.owing now).length then [] else budget.owing now := rfl

theorem acquire_known {bucket : Bucket} (h : budget.buckets.lookup call.peer = some bucket) :
    budget.acquire call =
      if (topUp call.now bucket).tokens = 0 then
        (.error (max (requestRefill - (call.now - (topUp call.now bucket).at')) 1000000000),
          ⟨Assoc.put call.peer (topUp call.now bucket) budget.buckets⟩)
      else (.ok (), ⟨Assoc.put call.peer
        { topUp call.now bucket with tokens := (topUp call.now bucket).tokens - 1 }
        budget.buckets⟩) := by
  unfold acquire tryAcquire
  rw [h]

theorem acquire_unknown (h : budget.buckets.lookup call.peer = none) :
    budget.acquire call = (.ok (),
      ⟨Assoc.put call.peer ⟨requestBurst - 1, call.now⟩ (budget.admitAt call.now).buckets⟩) := by
  unfold acquire tryAcquire
  rw [h]

/-- The table after a call of a known address, admitted or not. -/
theorem acquire_known_buckets {bucket : Bucket}
    (h : budget.buckets.lookup call.peer = some bucket) :
    (budget.acquire call).2.buckets = Assoc.put call.peer
      ⟨(topUp call.now bucket).tokens - 1, (topUp call.now bucket).at'⟩ budget.buckets := by
  rw [acquire_known h]
  split
  · rename_i hempty
    simp only [hempty, Nat.zero_sub]
    rw [← hempty]
  · rfl

/-- What is filtered by a call or written by it stays sound. -/
theorem Sound.put {buckets : List (IpAddr × Bucket)} (hsound : Sound ⟨buckets⟩ now)
    {bucket : Bucket} (htokens : bucket.tokens ≤ requestBurst) (hat : bucket.at' ≤ now) :
    Sound ⟨Assoc.put peer bucket buckets⟩ now := by
  refine ⟨Assoc.nodup_put hsound.distinct peer bucket, ?_⟩
  intro entry hentry
  rcases Assoc.mem_put hentry with rfl | hentry
  · exact ⟨htokens, hat⟩
  · exact hsound.bounded entry hentry

theorem Sound.admitAt (h : Sound budget now) (time : Nat) : Sound (budget.admitAt time) now := by
  have howing : Sound ⟨budget.owing time⟩ now :=
    ⟨h.distinct.sublist (List.filter_sublist.map _),
      fun entry hentry => h.bounded entry (List.mem_filter.mp hentry).1⟩
  constructor
  · rw [admitAt_buckets]
    split
    · exact List.nodup_nil
    · exact howing.distinct
  · rw [admitAt_buckets]
    split
    · exact fun _ h => absurd h List.not_mem_nil
    · exact howing.bounded

theorem Sound.later (h : Sound budget now) {later : Nat} (hle : now ≤ later) :
    Sound budget later :=
  ⟨h.distinct, fun entry hentry =>
    ⟨(h.bounded entry hentry).1, Nat.le_trans (h.bounded entry hentry).2 hle⟩⟩

theorem Sound.entry (h : Sound budget now) {bucket : Bucket}
    (hlookup : budget.buckets.lookup peer = some bucket) :
    bucket.tokens ≤ requestBurst ∧ bucket.at' ≤ now :=
  h.bounded _ (Assoc.mem_of_lookup hlookup)

theorem Sound.acquire (h : Sound budget now) (hnow : now ≤ call.now)
    (htimely : ∀ bucket ∈ budget.examined call,
      (call.now - bucket.at') / requestRefill < 2 ^ 32) :
    Sound (budget.acquire call).2 call.now := by
  have hlater := h.later hnow
  cases hlookup : budget.buckets.lookup call.peer with
  | none =>
    rw [acquire_unknown hlookup]
    exact (hlater.admitAt call.now).put (Nat.sub_le _ 1) (Nat.le_refl _)
  | some bucket =>
    obtain ⟨htokens, hat⟩ := hlater.entry hlookup
    have hage : (call.now - bucket.at') / requestRefill < 2 ^ 32 :=
      htimely bucket (by simp [examined, hlookup])
    have hlevel := levelOf_topUp hage htokens
    have hsettled : (topUp call.now bucket).tokens = (settle requestRate (levelOf bucket)
        call.now).tokens := congrArg Level.tokens hlevel
    have hsince : (topUp call.now bucket).at' ≤ call.now := by
      have hat' : (topUp call.now bucket).at' = (settle requestRate (levelOf bucket)
        call.now).since := congrArg Level.since hlevel
      rw [hat']
      exact settle_since_le hat
    have hburst : (settle requestRate (levelOf bucket) call.now).tokens ≤ requestBurst :=
      Nat.min_le_right _ _
    have hput : Sound ⟨Assoc.put call.peer
        ⟨(topUp call.now bucket).tokens - 1, (topUp call.now bucket).at'⟩ budget.buckets⟩
        call.now := hlater.put (by simp only; omega) hsince
    have hbuckets := acquire_known_buckets hlookup
    constructor
    · rw [hbuckets]
      exact hput.distinct
    · rw [hbuckets]
      exact hput.bounded

/-- The bucket of every address goes its own way through the calls of all. -/
theorem bucketOf_acquire (h : Sound budget now)
    (htimely : ∀ bucket ∈ budget.examined call,
      (call.now - bucket.at') / requestRefill < 2 ^ 32) (peer : IpAddr) :
    (budget.acquire call).2.bucketOf peer =
      step requestRate (budget.bucketOf peer) (budget.eventOf peer call) := by
  cases hlookup : budget.buckets.lookup call.peer with
  | some bucket =>
    have hage : (call.now - bucket.at') / requestRefill < 2 ^ 32 :=
      htimely bucket (by simp [examined, hlookup])
    have hlevel := levelOf_topUp hage (h.entry hlookup).1
    rw [bucketOf, acquire_known_buckets hlookup, Assoc.lookup_put, eventOf]
    by_cases hpeer : call.peer = peer
    · rw [if_pos hpeer.symm, if_pos hpeer, bucketOf, ← hpeer, hlookup]
      simp only [Option.map_some, step, ← hlevel]
      rfl
    · rw [if_neg fun h => hpeer h.symm, if_neg hpeer, if_pos (by simp [hlookup])]
      rfl
  | none =>
    rw [acquire_unknown hlookup, bucketOf, Assoc.lookup_put, eventOf]
    by_cases hpeer : call.peer = peer
    · rw [if_pos hpeer.symm, if_pos hpeer, bucketOf, ← hpeer, hlookup]
      rfl
    · rw [if_neg fun h => hpeer h.symm, if_neg hpeer, if_neg (by simp [hlookup]), admitAt_buckets]
      by_cases hmany : maxTrackedPeers < (budget.owing call.now).length
      · have hoverflows : budget.overflows call = true := by simp [overflows, hlookup, hmany]
        rw [if_pos hmany, if_pos hoverflows]
        rfl
      · have hoverflows : ¬ budget.overflows call = true := by
          simp [overflows, hlookup, Nat.not_lt.mp hmany]
        have howing : (budget.owing call.now).lookup peer = (budget.buckets.lookup peer).filter
            fun bucket => decide (min (bucket.tokens + refilled bucket call.now) (2 ^ 32 - 1) <
              requestBurst) :=
          Assoc.lookup_filter_of_nodup h.distinct fun bucket =>
            decide (min (bucket.tokens + refilled bucket call.now) (2 ^ 32 - 1) < requestBurst)
        rw [if_neg hmany, if_neg hoverflows, howing, bucketOf]
        cases hbucket : budget.buckets.lookup peer with
        | none => rfl
        | some bucket =>
          have hage : (call.now - bucket.at') / requestRefill < 2 ^ 32 := by
            refine htimely bucket ?_
            rw [examined, hlookup]
            exact List.mem_map.mpr ⟨_, Assoc.mem_of_lookup hbucket, rfl⟩
          simp only [Option.map_some, step, Option.filter_some, decide_eq_true_eq, owing_iff hage]
          split <;> rfl

/-- A call is admitted when its bucket grants it. -/
theorem acquire_isOk (h : Sound budget now)
    (htimely : ∀ bucket ∈ budget.examined call,
      (call.now - bucket.at') / requestRefill < 2 ^ 32) :
    granted requestRate (budget.bucketOf call.peer) (.take call.now) =
      if (budget.acquire call).1.isOk then 1 else 0 := by
  cases hlookup : budget.buckets.lookup call.peer with
  | none =>
    rw [acquire_unknown hlookup, bucketOf, hlookup]
    rfl
  | some bucket =>
    have hage : (call.now - bucket.at') / requestRefill < 2 ^ 32 :=
      htimely bucket (by simp [examined, hlookup])
    have hlevel := levelOf_topUp hage (h.entry hlookup).1
    have htokens : (topUp call.now bucket).tokens =
        (settle requestRate (levelOf bucket) call.now).tokens := congrArg Level.tokens hlevel
    rw [acquire_known hlookup, bucketOf, hlookup, htokens]
    simp only [Option.map_some, granted]
    split <;> rfl

/-! ## All calls -/

section
variable {calls : List Call}

theorem after_append (calls calls' : List Call) :
    budget.after (calls ++ calls') = (budget.after calls).after calls' := by
  induction calls generalizing budget with
  | nil => rfl
  | cons call calls ih => exact ih

theorem timely_append {calls calls' : List Call} :
    budget.Timely (calls ++ calls') ↔ budget.Timely calls ∧ (budget.after calls).Timely calls' := by
  induction calls generalizing budget with
  | nil => exact ⟨fun h => ⟨trivial, h⟩, And.right⟩
  | cons call calls ih => simp only [List.cons_append, Timely, after, ih, and_assoc]

theorem events_append (calls calls' : List Call) :
    budget.events peer (calls ++ calls') =
      budget.events peer calls ++ (budget.after calls).events peer calls' := by
  induction calls generalizing budget with
  | nil => rfl
  | cons call calls ih => simp only [List.cons_append, events, after, ih]

theorem events_now : (budget.events peer calls).map TokenBucket.Event.now = calls.map Call.now := by
  induction calls generalizing budget with
  | nil => rfl
  | cons call calls ih => simp only [events, List.map_cons, eventOf_now, ih]

theorem events_sorted (h : calls.Pairwise fun a b => a.now ≤ b.now) :
    (budget.events peer calls).Pairwise fun a b => a.now ≤ b.now := by
  rw [← List.pairwise_map (f := TokenBucket.Event.now) (R := (· ≤ ·)), events_now, List.pairwise_map]
  exact h

theorem forall_events_now {P : Nat → Prop} (h : ∀ call ∈ calls, P call.now) :
    ∀ event ∈ budget.events peer calls, P event.now := by
  intro event hevent
  have hmem : event.now ∈ calls.map Call.now := by
    rw [← @events_now budget peer]
    exact List.mem_map_of_mem hevent
  obtain ⟨call, hcall, hnow⟩ := List.mem_map.mp hmem
  exact hnow ▸ h call hcall

theorem Sound.after (h : Sound budget now) (hlater : ∀ call ∈ calls, now ≤ call.now)
    (hsorted : calls.Pairwise fun a b => a.now ≤ b.now) (htimely : budget.Timely calls)
    {last : Nat} (hnow : now ≤ last) (hlast : ∀ call ∈ calls, call.now ≤ last) :
    Sound (budget.after calls) last := by
  induction calls generalizing budget now with
  | nil => exact h.later hnow
  | cons call calls ih =>
    obtain ⟨hbefore, hsorted⟩ := List.pairwise_cons.mp hsorted
    exact ih (h.acquire (hlater call List.mem_cons_self) htimely.1) hbefore hsorted htimely.2
      (hlast call List.mem_cons_self) fun c hc => hlast c (List.mem_cons_of_mem _ hc)

theorem bucketOf_after (h : Sound budget now) (hlater : ∀ call ∈ calls, now ≤ call.now)
    (hsorted : calls.Pairwise fun a b => a.now ≤ b.now) (htimely : budget.Timely calls)
    (peer : IpAddr) :
    (budget.after calls).bucketOf peer =
      run requestRate (budget.bucketOf peer) (budget.events peer calls) := by
  induction calls generalizing budget now with
  | nil => rfl
  | cons call calls ih =>
    obtain ⟨hbefore, hsorted⟩ := List.pairwise_cons.mp hsorted
    have hstep := bucketOf_acquire h htimely.1 peer
    rw [after, ih (h.acquire (hlater call List.mem_cons_self) htimely.1) hbefore hsorted htimely.2,
      hstep]
    rfl

theorem takesSince_events (start : Nat) :
    takesSince start (budget.events peer calls) =
      (calls.filter fun call => decide (call.peer = peer) && decide (start ≤ call.now)).length := by
  induction calls generalizing budget with
  | nil => rfl
  | cons call calls ih =>
    have hrest := @ih (budget.acquire call).2
    rw [takesSince] at hrest
    rw [events, takesSince, List.filter_cons, List.filter_cons, eventOf_isTake, eventOf_now]
    split
    · rw [List.length_cons, List.length_cons, hrest]
    · exact hrest

/-- The outcomes of one address in a window that were admitted. -/
def admittedIn (peer : IpAddr) (s t : Nat) (outcomes : List Outcome) : List Outcome :=
  outcomes.filter fun outcome => decide (outcome.call.peer = peer) &&
    decide (s ≤ outcome.call.now ∧ outcome.call.now ≤ t) && outcome.admitted

theorem admittedIn_length (h : Sound budget now) (hlater : ∀ call ∈ calls, now ≤ call.now)
    (hsorted : calls.Pairwise fun a b => a.now ≤ b.now) (htimely : budget.Timely calls)
    (peer : IpAddr) (s t : Nat) :
    (admittedIn peer s t (budget.outcomes calls)).length =
      takenIn requestRate s t (budget.bucketOf peer) (budget.events peer calls) := by
  induction calls generalizing budget now with
  | nil => rfl
  | cons call calls ih =>
    obtain ⟨hbefore, hsorted⟩ := List.pairwise_cons.mp hsorted
    have hrest := ih (h.acquire (hlater call List.mem_cons_self) htimely.1) hbefore hsorted
      htimely.2
    have hgranted : granted requestRate (budget.bucketOf peer) (budget.eventOf peer call) =
        if decide (call.peer = peer) && (budget.acquire call).1.isOk then 1 else 0 := by
      by_cases hpeer : call.peer = peer
      · have hevent : budget.eventOf peer call = .take call.now := if_pos hpeer
        rw [hevent, ← hpeer, acquire_isOk h htimely.1]
        simp
      · have hevent : (budget.eventOf peer call).isTake = false :=
          eventOf_isTake.trans (decide_eq_false hpeer)
        rw [decide_eq_false hpeer]
        cases hkind : budget.eventOf peer call with
        | take time => simp [hkind, TokenBucket.Event.isTake] at hevent
        | _ => rfl
    rw [events, takenIn, eventOf_now, hgranted, ← bucketOf_acquire h htimely.1, ← hrest,
      outcomes, admittedIn, List.filter_cons]
    by_cases hwindow : s ≤ call.now ∧ call.now ≤ t
    · cases hserved : decide (call.peer = peer) && (budget.acquire call).1.isOk with
      | true =>
        obtain ⟨hpeer, hok⟩ := Bool.and_eq_true_iff.mp hserved
        simp only [hpeer, hwindow, hok, and_self, decide_true, Bool.and_self, if_true,
          List.length_cons, admittedIn]
        omega
      | false =>
        have hfalse : ¬ (decide (call.peer = peer) && decide (s ≤ call.now ∧ call.now ≤ t) &&
            (budget.acquire call).1.isOk) = true := by
          simp only [hwindow, and_self, decide_true, Bool.and_true, hserved]
          decide
        rw [if_neg hfalse]
        simp [admittedIn]
    · have hfalse : ¬ (decide (call.peer = peer) && decide (s ≤ call.now ∧ call.now ≤ t) &&
          (budget.acquire call).1.isOk) = true := by
        simp [hwindow]
      rw [if_neg hfalse, if_neg hwindow, Nat.zero_add, admittedIn]

/-- A window in which nothing is cleared loses no bucket. -/
theorem events_kept {s t : Nat}
    (h : ∀ outcome ∈ budget.outcomes calls, s ≤ outcome.call.now → outcome.call.now ≤ t →
      outcome.cleared = false) :
    ∀ event ∈ budget.events peer calls, s ≤ event.now → event.now ≤ t →
      ∀ now, event ≠ .lose now := by
  induction calls generalizing budget with
  | nil => exact fun _ h => absurd h List.not_mem_nil
  | cons call calls ih =>
    rw [outcomes, List.forall_mem_cons] at h
    rw [events, List.forall_mem_cons]
    refine ⟨?_, ih h.2⟩
    intro hs ht now
    rw [eventOf_now] at hs ht
    have hcleared : budget.overflows call = false := h.1 hs ht
    unfold eventOf
    rw [hcleared]
    split
    · simp
    · split <;> simp

theorem length_put_le (entries : List (IpAddr × Bucket)) (bucket : Bucket) :
    (Assoc.put peer bucket entries).length ≤ entries.length + 1 ∧
      ((entries.lookup peer).isSome → (Assoc.put peer bucket entries).length = entries.length) := by
  have hkeys := congrArg List.length (Assoc.map_fst_put peer bucket entries)
  rw [List.length_map] at hkeys
  rw [hkeys]
  refine ⟨?_, ?_⟩
  · split <;> simp
  · intro hsome
    rw [if_pos (Assoc.lookup_isSome.mp hsome), List.length_map]

theorem acquire_length (h : budget.buckets.length ≤ maxTrackedPeers + 1) :
    (budget.acquire call).2.buckets.length ≤ maxTrackedPeers + 1 := by
  cases hlookup : budget.buckets.lookup call.peer with
  | some bucket =>
    rw [acquire_known_buckets hlookup, (length_put_le _ _).2 (by simp [hlookup])]
    exact h
  | none =>
    rw [acquire_unknown hlookup]
    refine Nat.le_trans (length_put_le _ _).1 (Nat.add_le_add_right ?_ 1)
    rw [admitAt_buckets]
    split
    · exact Nat.zero_le _
    · rename_i hfew
      exact Nat.not_lt.mp hfew

theorem after_length (h : budget.buckets.length ≤ maxTrackedPeers + 1) :
    (budget.after calls).buckets.length ≤ maxTrackedPeers + 1 := by
  induction calls generalizing budget with
  | nil => exact h
  | cons call calls ih => exact ih (acquire_length h)

/-- The calls of others take nothing from an address. -/
theorem events_others (h : ∀ call ∈ calls, call.peer ≠ peer) :
    ∀ event ∈ budget.events peer calls, event.isTake = false := by
  induction calls generalizing budget with
  | nil => exact fun _ h => absurd h List.not_mem_nil
  | cons call calls ih =>
    obtain ⟨hcall, hrest⟩ := List.forall_mem_cons.mp h
    refine List.forall_mem_cons.mpr ⟨?_, ih hrest⟩
    rw [eventOf_isTake]
    exact decide_eq_false hcall

theorem topUp_at_le (bucket : Bucket) (now : Nat) : bucket.at' ≤ (topUp now bucket).at' := by
  unfold topUp
  dsimp only
  split
  · exact Nat.le_add_right _ _
  · exact Nat.le_refl _

theorem acquire_from {first : Nat} (h : ∀ entry ∈ budget.buckets, first ≤ entry.2.at')
    (hcall : first ≤ call.now) : ∀ entry ∈ (budget.acquire call).2.buckets, first ≤ entry.2.at' := by
  have hput : ∀ (bucket : Bucket) (entries : List (IpAddr × Bucket)), first ≤ bucket.at' →
      (∀ entry ∈ entries, first ≤ entry.2.at') →
      ∀ entry ∈ Assoc.put call.peer bucket entries, first ≤ entry.2.at' := by
    intro bucket entries hbucket hentries entry hentry
    rcases Assoc.mem_put hentry with rfl | hentry
    · exact hbucket
    · exact hentries entry hentry
  cases hlookup : budget.buckets.lookup call.peer with
  | some bucket =>
    rw [acquire_known_buckets hlookup]
    have hat := h _ (Assoc.mem_of_lookup hlookup)
    exact hput _ _ (Nat.le_trans hat (topUp_at_le bucket call.now)) h
  | none =>
    rw [acquire_unknown hlookup]
    refine hput _ _ hcall ?_
    rw [admitAt_buckets]
    split
    · exact fun _ h => absurd h List.not_mem_nil
    · exact fun entry hentry => h entry (List.mem_filter.mp hentry).1

/-- Calls within 2^32 seconds meet no greater age. -/
theorem timely_of_span {first : Nat} (h : ∀ entry ∈ budget.buckets, first ≤ entry.2.at')
    (hcalls : ∀ call ∈ calls, first ≤ call.now ∧ (call.now - first) / requestRefill < 2 ^ 32) :
    budget.Timely calls := by
  induction calls generalizing budget with
  | nil => trivial
  | cons call calls ih =>
    obtain ⟨⟨hfirst, hspan⟩, hrest⟩ := List.forall_mem_cons.mp hcalls
    refine ⟨?_, ih (acquire_from h hfirst) hrest⟩
    intro bucket hbucket
    have hat : first ≤ bucket.at' := by
      cases hlookup : budget.buckets.lookup call.peer with
      | some known =>
        rw [examined, hlookup, List.mem_singleton] at hbucket
        exact hbucket ▸ h _ (Assoc.mem_of_lookup hlookup)
      | none =>
        rw [examined, hlookup] at hbucket
        obtain ⟨entry, hentry, rfl⟩ := List.mem_map.mp hbucket
        exact h entry hentry
    exact Nat.lt_of_le_of_lt (Nat.div_le_div_right (Nat.sub_le_sub_left hat _)) hspan

theorem isOk_iff {result : Except Nat Unit} : result.isOk = true ↔ result = .ok () := by
  cases result <;> simp [Except.isOk, Except.toBool]

theorem ok_of_granted (h : Sound budget now)
    (htimely : ∀ bucket ∈ budget.examined call,
      (call.now - bucket.at') / requestRefill < 2 ^ 32)
    (hgranted : granted requestRate (budget.bucketOf call.peer) (.take call.now) = 1) :
    (budget.acquire call).1 = .ok () := by
  rw [acquire_isOk h htimely] at hgranted
  apply isOk_iff.mp
  by_contra hrefused
  rw [if_neg hrefused] at hgranted
  cases hgranted

theorem Sound.behind (h : Sound budget now) (peer : IpAddr) :
    Behind (budget.bucketOf peer) now := by
  intro level hlevel
  obtain ⟨bucket, hlookup, rfl⟩ := Option.map_eq_some_iff.mp hlevel
  exact (h.entry hlookup).2

end

theorem new_sound (now : Nat) : Sound new now :=
  ⟨List.nodup_nil, fun _ h => absurd h List.not_mem_nil⟩

/-- The state of a course of calls before one of them. -/
theorem course_before {before after' : List Call}
    (hsorted : (before ++ call :: after').Pairwise fun a b => a.now ≤ b.now)
    (htimely : new.Timely (before ++ call :: after')) (peer : IpAddr) :
    Sound (new.after before) call.now ∧
      (new.after before).bucketOf peer = run requestRate none (new.events peer before) ∧
      Owing requestRate (new.events peer before) ((new.after before).bucketOf peer) call.now := by
  obtain ⟨hbefore, -, hcross⟩ := List.pairwise_append.mp hsorted
  have hlast : ∀ c ∈ before, c.now ≤ call.now := fun c hc => hcross c hc call List.mem_cons_self
  have htimely' := (timely_append.mp htimely).1
  have hfirst : ∀ c ∈ before, 0 ≤ c.now := fun c _ => Nat.zero_le c.now
  have hbucket := bucketOf_after (new_sound 0) hfirst hbefore htimely' peer
  have hnone : Owing requestRate [] none 0 := fun _ h => by cases h
  have hevents : ∀ event ∈ new.events peer before, event.now ≤ call.now :=
    forall_events_now (P := fun time => time ≤ call.now) hlast
  have howing := hnone.run (forall_events_now hfirst) (events_sorted hbefore)
    (Nat.zero_le call.now) hevents
  refine ⟨(new_sound 0).after hfirst hbefore htimely' (Nat.zero_le _) hlast, hbucket, ?_⟩
  rw [hbucket]
  exact howing

end IpBudget

open IpBudget in
/-- For every course of calls at instants that do not go back:
between two clearings no window admits more of one address than the burst, one
for each second, and one; whoever asks no more than the burst and one for each
second, over every window up to now, is admitted, whatever the others do; after
the reported wait the next call is admitted; and the table stays bounded. -/
theorem budget_faithful {calls : List Call} (hsorted : calls.Pairwise fun a b => a.now ≤ b.now)
    (htimely : IpBudget.new.Timely calls) :
    (∀ (peer : IpAddr) (s t : Nat), s ≤ t →
      (∀ outcome ∈ IpBudget.new.outcomes calls,
        s ≤ outcome.call.now → outcome.call.now ≤ t → outcome.cleared = false) →
      (admittedIn peer s t (IpBudget.new.outcomes calls)).length ≤
        requestBurst + (t - s) / requestRefill + 1) ∧
    (∀ before call after', calls = before ++ call :: after' →
      (∀ s ≤ call.now, ((before ++ [call]).filter fun c =>
        decide (c.peer = call.peer) && decide (s ≤ c.now)).length ≤
          requestBurst + (call.now - s) / requestRefill) →
      ((IpBudget.new.after before).acquire call).1 = .ok ()) ∧
    (∀ before call between next after' wait,
      calls = before ++ call :: (between ++ next :: after') →
      ((IpBudget.new.after before).acquire call).1 = .error wait →
      next.peer = call.peer → (∀ c ∈ between, c.peer ≠ call.peer) → call.now + wait ≤ next.now →
      ((IpBudget.new.after (before ++ call :: between)).acquire next).1 = .ok ()) ∧
    ∀ before after', calls = before ++ after' →
      (IpBudget.new.after before).buckets.length ≤ maxTrackedPeers + 1 := by
  refine ⟨?_, ?_, ?_, ?_⟩
  · intro peer s t hst hcleared
    have hfirst : ∀ c ∈ calls, 0 ≤ c.now := fun c _ => Nat.zero_le c.now
    rw [admittedIn_length (new_sound 0) hfirst hsorted htimely]
    exact takenIn_le (r := requestRate) hst (fun _ h => by cases h)
      (forall_events_now hfirst) (events_sorted hsorted) (events_kept hcleared)
  · rintro before call after' rfl hpatient
    obtain ⟨hsound, hbucket, howing⟩ := course_before hsorted htimely call.peer
    have hages := (timely_append.mp htimely).2.1
    have hgranted := howing.granted_of_patient (Nat.le_refl call.now) (by
      intro s hs
      have hevents : new.events call.peer before ++ [.take call.now] =
          new.events call.peer (before ++ [call]) := by
        rw [events_append]
        simp [events, eventOf]
      rw [hevents, takesSince_events]
      exact hpatient s hs)
    exact ok_of_granted hsound hages hgranted
  · rintro before call between next after' wait rfl hrefused hpeer hothers hwait
    obtain ⟨hsound, -, -⟩ := course_before hsorted htimely call.peer
    have hwait' : wait = requestRefill := tryAcquire_wait (Prod.ext hrefused rfl)
    have hages := (timely_append.mp htimely).2
    have hsplit : before ++ call :: (between ++ next :: after') =
        (before ++ call :: between) ++ next :: after' := by simp
    rw [hsplit] at hsorted htimely
    obtain ⟨hsound', -, -⟩ := course_before hsorted htimely next.peer
    obtain ⟨hordered, -, -⟩ := List.pairwise_append.mp hsorted
    obtain ⟨-, htail, -⟩ := List.pairwise_append.mp hordered
    obtain ⟨hlater, hbetween⟩ := List.pairwise_cons.mp htail
    have hstep := hsound.acquire (Nat.le_refl _) hages.1
    have hbucket := bucketOf_after hstep hlater hbetween (timely_append.mp hages.2).1 call.peer
    have hevent : (new.after before).eventOf call.peer call = .take call.now := if_pos rfl
    rw [hwait'] at hwait
    have hrest : call.now + requestRate.period ≤ next.now := hwait
    have htakes := @events_others ((new.after before).acquire call).2 _ _ hothers
    have hgranted := granted_after_wait (hsound.behind call.peer) htakes hrest
    have hafter : new.after (before ++ call :: between) =
        (((new.after before).acquire call).2).after between := after_append _ _
    rw [bucketOf_acquire hsound hages.1, hevent] at hbucket
    rw [← hbucket, ← hafter, ← hpeer] at hgranted
    exact ok_of_granted hsound' (timely_append.mp htimely).2.1 hgranted
  · rintro before after' -
    exact after_length (Nat.zero_le _)

/-- The burst of one address and one call more, another address, the first again
after the wait, and a third when the others have been refilled. -/
def sampleCalls : List Call :=
  List.replicate 60 ⟨.v4 1, 0⟩ ++ ⟨.v4 1, 0⟩ ::
    ([⟨.v4 2, 0⟩] ++ ⟨.v4 1, 1000000000⟩ :: [⟨.v4 3, 100000000000⟩])

theorem budget_faithful_sample :
    ((IpBudget.new.after (List.replicate 60 ⟨.v4 1, 0⟩)).acquire ⟨.v4 1, 0⟩).1 =
        .error 1000000000 ∧
      ((IpBudget.new.after (List.replicate 60 ⟨.v4 1, 0⟩ ++ ⟨.v4 1, 0⟩ :: [⟨.v4 2, 0⟩])).acquire
        ⟨.v4 1, 1000000000⟩).1 = .ok () ∧
      (IpBudget.admittedIn (.v4 1) 0 1000000000 (IpBudget.new.outcomes sampleCalls)).length ≤ 62 ∧
      (IpBudget.new.after sampleCalls).buckets.length ≤ 4097 ∧
      (IpBudget.new.after sampleCalls).buckets.map Prod.fst = [.v4 3] := by
  have hsorted : sampleCalls.Pairwise fun a b => a.now ≤ b.now := by decide
  have htimely : IpBudget.new.Timely sampleCalls :=
    @IpBudget.timely_of_span _ _ 0 (fun _ h => absurd h List.not_mem_nil) (by decide)
  have hrefused : ((IpBudget.new.after (List.replicate 60 ⟨.v4 1, 0⟩)).acquire ⟨.v4 1, 0⟩).1 =
      .error 1000000000 := by decide +kernel
  have hcleared : ∀ outcome ∈ IpBudget.new.outcomes sampleCalls,
      0 ≤ outcome.call.now → outcome.call.now ≤ 1000000000 → outcome.cleared = false := by decide
  obtain ⟨hwindow, -, hwait, htable⟩ := budget_faithful hsorted htimely
  exact ⟨hrefused, hwait _ _ _ _ _ _ rfl hrefused rfl (by decide) (by decide),
    hwindow (.v4 1) 0 1000000000 (Nat.zero_le _) hcleared, htable sampleCalls [] (by simp),
    by decide +kernel⟩

end Sbctl
