import Mathlib.Data.List.Basic

/-!
# A token bucket that may be forgotten

A bucket holds up to a burst of tokens and gains one with each full period.
Where there is no bucket, the next one begins full, so a full bucket may be
forgotten. A bucket that is lost before it is full gives its owner more.

* `takenIn_le`: between two losses no window serves more than the burst, one
  token for each period in it, and one more.
* `Owing.granted_of_patient`: whoever asks no more than the burst and one
  token for each period, over every window up to now, is served.
* `granted_after_wait`: a period after a refusal there is a token.
-/

namespace TokenBucket

structure Rate where
  burst : Nat
  period : Nat
  burst_pos : 0 < burst
  period_pos : 0 < period

/-- The tokens of a bucket at an instant from which full periods are counted. -/
structure Level where
  tokens : Nat
  since : Nat

/-- What happens to one bucket. A sweep forgets it if it is full. -/
inductive Event where
  | take (now : Nat)
  | pass (now : Nat)
  | sweep (now : Nat)
  | lose (now : Nat)

def Event.now : Event → Nat
  | .take now | .pass now | .sweep now | .lose now => now

variable (r : Rate)

def gained (level : Level) (now : Nat) : Nat := (now - level.since) / r.period

/-- The same bucket, with its full periods turned into tokens. -/
def settle (level : Level) (now : Nat) : Level :=
  ⟨min (level.tokens + gained r level now) r.burst,
    level.since + r.period * gained r level now⟩

def step (bucket : Option Level) : Event → Option Level
  | .take now =>
    match bucket with
    | none => some ⟨r.burst - 1, now⟩
    | some level => some ⟨(settle r level now).tokens - 1, (settle r level now).since⟩
  | .pass _ => bucket
  | .sweep now => bucket.filter fun level => (settle r level now).tokens < r.burst
  | .lose _ => none

/-- The tokens an event takes. -/
def granted (bucket : Option Level) : Event → Nat
  | .take now =>
    match bucket with
    | none => 1
    | some level => if (settle r level now).tokens = 0 then 0 else 1
  | _ => 0

def run (bucket : Option Level) (events : List Event) : Option Level :=
  events.foldl (step r) bucket

/-- The tokens taken in a window. -/
def takenIn (s t : Nat) (bucket : Option Level) : List Event → Nat
  | [] => 0
  | event :: events =>
    (if s ≤ event.now ∧ event.now ≤ t then granted r bucket event else 0) +
      takenIn s t (step r bucket event) events

/-- A bucket that is not ahead of the clock. -/
def Behind (bucket : Option Level) (now : Nat) : Prop :=
  ∀ level, bucket = some level → level.since ≤ now

variable {r}

theorem settle_since_le {level : Level} {now : Nat} (h : level.since ≤ now) :
    (settle r level now).since ≤ now := by
  have hdiv := Nat.mul_div_le (now - level.since) r.period
  simp only [settle, gained]
  omega

theorem lt_settle_since (level : Level) (now : Nat) :
    now < (settle r level now).since + r.period := by
  have hmod := Nat.div_add_mod (now - level.since) r.period
  have hlt := Nat.mod_lt (now - level.since) r.period_pos
  simp only [settle, gained]
  omega

/-- There is nothing more to settle at the same instant. -/
theorem settle_again {level : Level} {now tokens : Nat} (h : level.since ≤ now)
    (htokens : tokens ≤ r.burst) :
    settle r ⟨tokens, (settle r level now).since⟩ now =
      ⟨tokens, (settle r level now).since⟩ := by
  have hlt := lt_settle_since (r := r) level now
  have hle := settle_since_le (r := r) h
  have hzero : gained r ⟨tokens, (settle r level now).since⟩ now = 0 :=
    Nat.div_eq_of_lt (by simp only; omega)
  rw [settle, hzero, Nat.add_zero, Nat.mul_zero, Nat.add_zero, Nat.min_eq_left htokens]

theorem Behind.step {bucket : Option Level} {now : Nat} {event : Event} (h : Behind bucket now)
    (hnow : now ≤ event.now) : Behind (step r bucket event) event.now := by
  intro level hlevel
  cases event with
  | take time =>
    cases bucket with
    | none =>
      cases hlevel
      exact Nat.le_refl _
    | some before =>
      cases hlevel
      exact settle_since_le (Nat.le_trans (h before rfl) hnow)
  | pass time => exact Nat.le_trans (h level hlevel) hnow
  | sweep time =>
    obtain ⟨hbefore, -⟩ := Option.filter_eq_some_iff.mp hlevel
    exact Nat.le_trans (h level hbefore) hnow
  | lose time => cases hlevel

/-! ## What a bucket can still serve -/

/-- The time a bucket stands for: a period for each token and the part of a
period that has passed. -/
def credit (r : Rate) (bucket : Option Level) (now : Nat) : Nat :=
  match bucket with
  | none => r.period * r.burst
  | some level => r.period * (settle r level now).tokens + (now - level.since) % r.period

theorem credit_lt (bucket : Option Level) (now : Nat) :
    credit r bucket now < r.period * (r.burst + 1) := by
  have hpos := r.period_pos
  rw [Nat.mul_add, Nat.mul_one]
  cases bucket with
  | none =>
    simp only [credit]
    omega
  | some level =>
    have hmod := Nat.mod_lt (now - level.since) hpos
    have hle : r.period * (settle r level now).tokens ≤ r.period * r.burst :=
      Nat.mul_le_mul_left _ (Nat.min_le_right _ _)
    simp only [credit]
    omega

/-- Credit grows no faster than time. -/
theorem credit_later {bucket : Option Level} {now later : Nat} (h : Behind bucket now)
    (hle : now ≤ later) :
    credit r bucket later ≤ credit r bucket now + (later - now) := by
  cases bucket with
  | none => exact Nat.le_add_right _ _
  | some level =>
    have hsince := h level rfl
    have hquot : (now - level.since) / r.period ≤ (later - level.since) / r.period :=
      Nat.div_le_div_right (by omega)
    have hnow := Nat.div_add_mod (now - level.since) r.period
    have hlater := Nat.div_add_mod (later - level.since) r.period
    obtain ⟨more, hmore⟩ := Nat.exists_eq_add_of_le hquot
    have htokens : r.period * (settle r level later).tokens ≤
        r.period * (settle r level now).tokens + r.period * more := by
      rw [← Nat.mul_add]
      apply Nat.mul_le_mul_left
      simp only [settle, gained, hmore]
      omega
    rw [hmore, Nat.mul_add] at hlater
    simp only [credit]
    omega

/-- Whatever happens to a bucket but a loss is paid from its credit. -/
theorem credit_step {bucket : Option Level} {event : Event} (h : Behind bucket event.now)
    (hkept : ∀ now, event ≠ .lose now) :
    credit r (step r bucket event) event.now + r.period * granted r bucket event ≤
      credit r bucket event.now := by
  cases event with
  | take now =>
    cases bucket with
    | none =>
      have hsplit : r.period * r.burst = r.period * (r.burst - 1) + r.period := by
        rw [← Nat.mul_succ, Nat.succ_eq_add_one, Nat.sub_add_cancel r.burst_pos]
      simp [step, granted, credit, settle, gained, Event.now, hsplit]
    | some level =>
      have hsince : level.since ≤ now := h level rfl
      have hbound : (settle r level now).tokens ≤ r.burst := Nat.min_le_right _ _
      have hrest : (now - (settle r level now).since) % r.period =
          (now - level.since) % r.period := by
        have hmod := Nat.div_add_mod (now - level.since) r.period
        rw [← Nat.mod_mod (now - level.since)]
        congr 1
        simp only [settle, gained]
        omega
      simp only [step, granted, credit, Event.now]
      rw [settle_again hsince (Nat.le_trans (Nat.sub_le _ 1) hbound), hrest]
      by_cases hempty : (settle r level now).tokens = 0
      · simp [hempty]
      · obtain ⟨tokens, htokens⟩ := Nat.exists_eq_succ_of_ne_zero hempty
        simp only [htokens, Nat.succ_eq_add_one, Nat.add_sub_cancel, if_neg (Nat.succ_ne_zero _),
          Nat.mul_add, Nat.mul_one]
        omega
  | pass now => exact Nat.le_refl _
  | sweep now =>
    cases bucket with
    | none => exact Nat.le_refl _
    | some level =>
      simp only [step, granted, Event.now, Nat.mul_zero, Nat.add_zero]
      by_cases hfull : (settle r level now).tokens < r.burst
      · apply Nat.le_of_eq
        rw [Option.filter_some_pos (by simpa using hfull)]
      · have htokens : (settle r level now).tokens = r.burst := by
          have hle : (settle r level now).tokens ≤ r.burst := Nat.min_le_right _ _
          omega
        rw [Option.filter_some_neg (by simpa using hfull)]
        simp only [credit, htokens]
        omega
  | lose now => exact absurd rfl (hkept now)

theorem takenIn_eq_zero {s t : Nat} {bucket : Option Level} {events : List Event}
    (h : ∀ event ∈ events, t < event.now) : takenIn r s t bucket events = 0 := by
  induction events generalizing bucket with
  | nil => rfl
  | cons event events ih =>
    have hnow := h event List.mem_cons_self
    rw [takenIn, if_neg (by omega), ih fun e he => h e (List.mem_cons_of_mem _ he)]

/-- From an instant on, what is taken is paid from the credit and from time. -/
theorem takenIn_credit {s t : Nat} (hst : s ≤ t) {bucket : Option Level} {events : List Event}
    (hbehind : Behind bucket s) (hlater : ∀ event ∈ events, s ≤ event.now)
    (hsorted : events.Pairwise fun a b => a.now ≤ b.now)
    (hkept : ∀ event ∈ events, event.now ≤ t → ∀ now, event ≠ .lose now) (first : Nat)
    (hfirst : first ≤ s) :
    r.period * takenIn r first t bucket events ≤ credit r bucket s + (t - s) := by
  induction events generalizing bucket s with
  | nil => exact Nat.zero_le _
  | cons event events ih =>
    obtain ⟨hbefore, hsorted⟩ := List.pairwise_cons.mp hsorted
    have hs := hlater event List.mem_cons_self
    by_cases ht : event.now ≤ t
    · have hcredit := credit_later (r := r) hbehind hs
      have hbehind' : Behind bucket event.now := fun level hl => Nat.le_trans (hbehind level hl) hs
      have hstep := credit_step (r := r) hbehind' (hkept event List.mem_cons_self ht)
      have hrest := ih ht (hbehind.step (r := r) hs) hbefore hsorted
        (fun e he => hkept e (List.mem_cons_of_mem _ he)) (Nat.le_trans hfirst hs)
      rw [takenIn, if_pos ⟨Nat.le_trans hfirst hs, ht⟩, Nat.mul_add]
      omega
    · rw [takenIn_eq_zero, Nat.mul_zero]
      · exact Nat.zero_le _
      · intro e he
        rcases List.mem_cons.mp he with rfl | he
        · omega
        · have := hbefore e he
          omega

/-- A window without a loss serves the burst, one for each period, and one. -/
theorem takenIn_le {s t now : Nat} (hst : s ≤ t) {bucket : Option Level} {events : List Event}
    (hbehind : Behind bucket now) (hlater : ∀ event ∈ events, now ≤ event.now)
    (hsorted : events.Pairwise fun a b => a.now ≤ b.now)
    (hkept : ∀ event ∈ events, s ≤ event.now → event.now ≤ t → ∀ now, event ≠ .lose now) :
    takenIn r s t bucket events ≤ r.burst + (t - s) / r.period + 1 := by
  induction events generalizing bucket now with
  | nil => exact Nat.zero_le _
  | cons event events ih =>
    have hsorted' := hsorted
    obtain ⟨hbefore, hsorted⟩ := List.pairwise_cons.mp hsorted
    have hnow := hlater event List.mem_cons_self
    by_cases hs : event.now < s
    · rw [takenIn, if_neg (by omega), Nat.zero_add]
      exact ih (hbehind.step hnow) hbefore hsorted
        fun e he => hkept e (List.mem_cons_of_mem _ he)
    · have hall : ∀ e ∈ event :: events, max s now ≤ e.now := by
        intro e he
        rcases List.mem_cons.mp he with rfl | hmem
        · omega
        · have := hbefore e hmem
          omega
      by_cases ht : max s now ≤ t
      · have hbehind' : Behind bucket (max s now) := fun level hl =>
          Nat.le_trans (hbehind level hl) (Nat.le_max_right _ _)
        have hpaid := takenIn_credit (r := r) ht hbehind' hall hsorted'
          (fun e he => hkept e he (Nat.le_trans (Nat.le_max_left _ _) (hall e he))) s
          (Nat.le_max_left _ _)
        have hcredit := credit_lt (r := r) bucket (max s now)
        have hdiv := Nat.div_add_mod (t - s) r.period
        have hmod := Nat.mod_lt (t - s) r.period_pos
        have hlt : r.period * takenIn r s t bucket (event :: events) <
            r.period * (r.burst + (t - s) / r.period + 1 + 1) := by
          simp only [Nat.mul_add, Nat.mul_one] at hcredit ⊢
          omega
        exact Nat.lt_succ_iff.mp (Nat.lt_of_mul_lt_mul_left hlt)
      · rw [takenIn_eq_zero]
        · exact Nat.zero_le _
        · intro e he
          have := hall e he
          omega

/-! ## What a bucket owes -/

def Event.isTake : Event → Bool
  | .take _ => true
  | _ => false

/-- The takes from an instant on, served or not. -/
def takesSince (start : Nat) (events : List Event) : Nat :=
  (events.filter fun event => event.isTake && decide (start ≤ event.now)).length

/-- What a bucket lacks was asked for since some instant, from which it has
gained every full period. -/
def Owing (r : Rate) (events : List Event) (bucket : Option Level) (now : Nat) : Prop :=
  ∀ level, bucket = some level → level.since ≤ now ∧
    ∃ start periods, start ≤ now ∧ level.since ≤ start + r.period * periods ∧
      r.burst + periods ≤ level.tokens + takesSince start events

theorem takesSince_append (start : Nat) (events : List Event) (event : Event) :
    takesSince start (events ++ [event]) =
      takesSince start events + if event.isTake ∧ start ≤ event.now then 1 else 0 := by
  rw [takesSince, List.filter_append, List.length_append, ← takesSince]
  by_cases h : event.isTake ∧ start ≤ event.now
  · simp [h]
  · rw [if_neg h, List.filter_cons_of_neg (by simpa using h)]
    rfl

theorem takesSince_take {start now : Nat} (h : start ≤ now) (events : List Event) :
    takesSince start (events ++ [.take now]) = takesSince start events + 1 := by
  rw [takesSince_append, if_pos ⟨rfl, h⟩]

section
variable {events : List Event} {bucket : Option Level} {now : Nat}

/-- Without a take the debt is the same, and time does not make it worse. -/
theorem Owing.later (h : Owing r events bucket now) {event : Event} (hnow : now ≤ event.now) :
    Owing r (events ++ [event]) bucket event.now := by
  intro level hlevel
  obtain ⟨hsince, start, periods, hstart, hgrid, hdebt⟩ := h level hlevel
  refine ⟨Nat.le_trans hsince hnow, start, periods, Nat.le_trans hstart hnow, hgrid, ?_⟩
  rw [takesSince_append]
  omega

/-- A take is added to the debt. A bucket that was full begins a new one. -/
theorem Owing.take (h : Owing r events bucket now) {later : Nat} (hnow : now ≤ later) :
    Owing r (events ++ [.take later]) (step r bucket (.take later)) later := by
  have hburst := r.burst_pos
  intro level hlevel
  cases bucket with
  | none =>
    cases hlevel
    refine ⟨Nat.le_refl _, later, 0, Nat.le_refl _, Nat.le_add_right _ _, ?_⟩
    rw [takesSince_take (Nat.le_refl _)]
    simp only
    omega
  | some before =>
    cases hlevel
    obtain ⟨hsince, start, periods, hstart, hgrid, hdebt⟩ := h before rfl
    have hsettled : (settle r before later).since ≤ later :=
      settle_since_le (Nat.le_trans hsince hnow)
    refine ⟨hsettled, ?_⟩
    by_cases hclamped : r.burst < before.tokens + gained r before later
    · have htokens : (settle r before later).tokens = r.burst := by
        simp only [settle]
        omega
      refine ⟨later, 0, Nat.le_refl _, Nat.le_trans hsettled (Nat.le_add_right _ _), ?_⟩
      rw [takesSince_take (Nat.le_refl _)]
      simp only [htokens]
      omega
    · have htokens : (settle r before later).tokens =
          before.tokens + gained r before later := by
        simp only [settle]
        omega
      refine ⟨start, periods + gained r before later, Nat.le_trans hstart hnow, ?_, ?_⟩
      · rw [Nat.mul_add]
        simp only [settle]
        omega
      · rw [takesSince_take (Nat.le_trans hstart hnow)]
        simp only [htokens]
        omega

theorem Owing.step (h : Owing r events bucket now) {event : Event} (hnow : now ≤ event.now) :
    Owing r (events ++ [event]) (step r bucket event) event.now := by
  cases event with
  | take later => exact h.take hnow
  | pass later => exact h.later hnow
  | sweep later =>
    intro level hlevel
    exact h.later hnow level (Option.filter_eq_some_iff.mp hlevel).1
  | lose later =>
    intro level hlevel
    cases hlevel

theorem Owing.run {later : List Event} (h : Owing r events bucket now)
    (hlater : ∀ event ∈ later, now ≤ event.now)
    (hsorted : later.Pairwise fun a b => a.now ≤ b.now) {last : Nat} (hnow : now ≤ last)
    (hlast : ∀ event ∈ later, event.now ≤ last) :
    Owing r (events ++ later) (run r bucket later) last := by
  induction later generalizing events bucket now with
  | nil =>
    intro level hlevel
    obtain ⟨hsince, start, periods, hstart, hdebt⟩ := h level hlevel
    rw [List.append_nil]
    exact ⟨Nat.le_trans hsince hnow, start, periods, Nat.le_trans hstart hnow, hdebt⟩
  | cons event later ih =>
    obtain ⟨hbefore, hsorted⟩ := List.pairwise_cons.mp hsorted
    have hrest := ih (h.step (hlater event List.mem_cons_self)) hbefore hsorted
      (hlast event List.mem_cons_self) fun e he => hlast e (List.mem_cons_of_mem _ he)
    rwa [List.append_assoc] at hrest

/-- Whoever never asked more than the burst and one for each period is served. -/
theorem Owing.granted_of_patient (h : Owing r events bucket now) {later : Nat}
    (hnow : now ≤ later)
    (hpatient : ∀ s ≤ later,
      takesSince s (events ++ [.take later]) ≤ r.burst + (later - s) / r.period) :
    granted r bucket (.take later) = 1 := by
  cases bucket with
  | none => rfl
  | some level =>
    refine if_neg fun hempty => ?_
    have hburst := r.burst_pos
    obtain ⟨hsince, start, periods, hstart, hgrid, hdebt⟩ := h level rfl
    have htokens : level.tokens + gained r level later = 0 := by
      simp only [settle] at hempty
      omega
    have hlt := lt_settle_since (r := r) level later
    have hperiods : (later - start) / r.period < periods + 1 := by
      apply Nat.div_lt_of_lt_mul
      simp only [settle, (Nat.add_eq_zero_iff.mp htokens).2] at hlt
      rw [Nat.mul_add]
      omega
    have hasked := hpatient start (Nat.le_trans hstart hnow)
    rw [takesSince_take (Nat.le_trans hstart hnow)] at hasked
    omega

end

/-! ## Waiting -/

/-- Other events leave a bucket as it is, or leave none. -/
theorem run_others {bucket : Option Level} {events : List Event}
    (h : ∀ event ∈ events, event.isTake = false) :
    run r bucket events = bucket ∨ run r bucket events = none := by
  induction events generalizing bucket with
  | nil => exact .inl rfl
  | cons event events ih =>
    have hrest : ∀ b, run r b events = b ∨ run r b events = none := fun _ =>
      ih fun e he => h e (List.mem_cons_of_mem _ he)
    have hnone : run r none events = none := by
      rcases hrest none with h | h <;> exact h
    have hevent := h event List.mem_cons_self
    rw [run, List.foldl_cons, ← run]
    cases event with
    | take now => cases hevent
    | pass now => exact hrest bucket
    | sweep now =>
      cases bucket with
      | none => exact .inr hnone
      | some level =>
        by_cases hfull : (settle r level now).tokens < r.burst
        · rw [step, Option.filter_some_pos (by simpa using hfull)]
          exact hrest (some level)
        · rw [step, Option.filter_some_neg (by simpa using hfull)]
          exact .inr hnone
    | lose now => exact .inr hnone

/-- A full period after any take there is a token again. -/
theorem granted_after_wait {bucket : Option Level} {now later : Nat} {events : List Event}
    (hbehind : Behind bucket now) (hothers : ∀ event ∈ events, event.isTake = false)
    (hwait : now + r.period ≤ later) :
    granted r (run r (step r bucket (.take now)) events) (.take later) = 1 := by
  have hburst := r.burst_pos
  have hrun : run r (step r bucket (.take now)) events = step r bucket (.take now) ∨
      run r (step r bucket (.take now)) events = none := run_others hothers
  rcases hrun with h | h
  · rw [h]
    have hafter : Behind (step r bucket (.take now)) now := hbehind.step (Nat.le_refl now)
    cases hlevel : step r bucket (.take now) with
    | none => rfl
    | some level =>
      have hsince := hafter level hlevel
      have hgained : 1 ≤ gained r level later :=
        (Nat.le_div_iff_mul_le r.period_pos).mpr (by omega)
      refine if_neg ?_
      simp only [settle]
      omega
  · rw [h]
    rfl

end TokenBucket
