import Mathlib.Order.Interval.Set.Basic
import Mathlib.Order.ConditionallyCompleteLattice.Basic

/-!
# Periods cut out by marks

A line of instants is cut into numbered cells, and a cell may hold a mark. The
period of an instant runs from the last mark at or before it to the next one.
`period` finds it by looking at the instant's own cell and at its neighbours.

* `period_iff`: what it finds are two consecutive marks around the instant, so
  periods tile the line;
* `same_start_iff`: two instants are in one period exactly when no mark lies
  between them.
-/

namespace Tiling

structure Schedule (T : Type) [LinearOrder T] where
  cell : T → Int
  cell_mono : ∀ {a b}, a ≤ b → cell a ≤ cell b
  mark : Int → Option T
  cell_mark : ∀ {i t}, mark i = some t → cell t = i

variable {T : Type} [LinearOrder T]

/-- The last mark at or before `t`. The mark of the cell of `t` may still be
ahead of `t`; then the cell before it holds the last one. -/
def Schedule.start (S : Schedule T) (t : T) : Option T :=
  (S.mark (S.cell t)).bind fun c => if t < c then S.mark (S.cell t - 1) else some c

/-- The marks around `t`. -/
def Schedule.period (S : Schedule T) (t : T) : Option (T × T) :=
  (S.start t).bind fun start => (S.mark (S.cell start + 1)).map fun next => (start, next)

namespace Schedule
variable {S : Schedule T}

theorem mark_lt {i j : Int} {a b : T} (ha : S.mark i = some a) (hb : S.mark j = some b)
    (h : i < j) : a < b := by
  by_contra hba
  have := S.cell_mono (not_lt.mp hba)
  rw [S.cell_mark ha, S.cell_mark hb] at this
  omega

theorem mark_le_iff {i j : Int} {a b : T} (ha : S.mark i = some a) (hb : S.mark j = some b) :
    a ≤ b ↔ i ≤ j := by
  constructor
  · intro h
    have := S.cell_mono h
    rwa [S.cell_mark ha, S.cell_mark hb] at this
  · intro h
    rcases Int.lt_or_eq_of_le h with h | rfl
    · exact (mark_lt ha hb h).le
    · exact (Option.some.inj (ha.symm.trans hb)).le

theorem period_iff {t s n : T} :
    S.period t = some (s, n) ↔
      ∃ i, S.mark i = some s ∧ S.mark (i + 1) = some n ∧ s ≤ t ∧ t < n := by
  constructor
  · intro h
    simp only [period, start, Option.bind_eq_some_iff, Option.map_eq_some_iff,
      Prod.mk.injEq] at h
    obtain ⟨_, ⟨c, hc, hs'⟩, _, hn', rfl, rfl⟩ := h
    split at hs'
    · rename_i hlt
      have hcell := S.cell_mark hs'
      rw [hcell, Int.sub_add_cancel, hc] at hn'
      obtain rfl := Option.some.inj hn'
      refine ⟨S.cell t - 1, hs', by rwa [Int.sub_add_cancel], ?_, hlt⟩
      by_contra hts
      have := S.cell_mono (not_le.mp hts).le
      omega
    · rename_i hle
      obtain rfl := Option.some.inj hs'
      have hcell := S.cell_mark hc
      rw [hcell] at hn'
      refine ⟨S.cell t, hc, hn', not_lt.mp hle, ?_⟩
      by_contra hnt
      have := S.cell_mono (not_lt.mp hnt)
      rw [S.cell_mark hn'] at this
      omega
  · rintro ⟨i, hs, hn, hst, htn⟩
    have lo := S.cell_mono hst
    have hi := S.cell_mono htn.le
    rw [S.cell_mark hs] at lo
    rw [S.cell_mark hn] at hi
    have hcell : S.cell t = i ∨ S.cell t = i + 1 := by omega
    rcases hcell with hcell | hcell
    · simp [period, start, hcell, hs, hst.not_gt, S.cell_mark hs, hn]
    · simp [period, start, hcell, hn, htn, hs, S.cell_mark hs]

theorem period_bounds {t s n : T} (h : S.period t = some (s, n)) : s ≤ t ∧ t < n := by
  obtain ⟨_, _, _, hst, htn⟩ := period_iff.mp h
  exact ⟨hst, htn⟩

/-- A period is the same from anywhere inside it. -/
theorem period_const {t u s n : T} (h : S.period t = some (s, n)) (lo : s ≤ u) (hi : u < n) :
    S.period u = some (s, n) := by
  obtain ⟨i, hs, hn, _, _⟩ := period_iff.mp h
  exact period_iff.mpr ⟨i, hs, hn, lo, hi⟩

/-- The period at the end of a period starts there. -/
theorem period_next {t s n s' n' : T} (h : S.period t = some (s, n))
    (h' : S.period n = some (s', n')) : s' = n := by
  obtain ⟨i, hs, hn, _, _⟩ := period_iff.mp h
  obtain ⟨j, hs', hn', lo, hi⟩ := period_iff.mp h'
  have := (mark_le_iff hs' hn).mp lo
  have : ¬ j + 1 ≤ i + 1 := fun hle => hi.not_ge ((mark_le_iff hn' hn).mpr hle)
  obtain rfl : j = i + 1 := by omega
  exact Option.some.inj (hs'.symm.trans hn)

/-- The marks strictly inside a period are none. -/
theorem no_mark_inside {t s n b : T} {j : Int} (h : S.period t = some (s, n))
    (hb : S.mark j = some b) : ¬ (s < b ∧ b < n) := by
  rintro ⟨hsb, hbn⟩
  obtain ⟨i, hs, hn, _, _⟩ := period_iff.mp h
  have := mt (mark_le_iff hb hs).mpr hsb.not_ge
  have := mt (mark_le_iff hn hb).mpr hbn.not_ge
  omega

section
variable {B : T → Prop} (hmark : ∀ b, B b → ∃ i, S.mark i = some b)
  (hstart : ∀ t s n, S.period t = some (s, n) → B s)
include hmark hstart

theorem same_start_of_le {t u s n s' n' : T} (htu : t ≤ u) (h : S.period t = some (s, n))
    (h' : S.period u = some (s', n')) : s = s' ↔ ∀ b, B b → ¬ (t < b ∧ b ≤ u) := by
  have ht := period_bounds h
  have hu := period_bounds h'
  constructor
  · rintro rfl b hb ⟨htb, hbu⟩
    obtain ⟨j, hj⟩ := hmark b hb
    exact no_mark_inside h' hj ⟨ht.1.trans_lt htb, hbu.trans_lt hu.2⟩
  · intro hno
    have hs' : s' ≤ t := not_lt.mp fun hlt => hno s' (hstart _ _ _ h') ⟨hlt, hu.1⟩
    have := period_const h' hs' (htu.trans_lt hu.2)
    exact (Prod.mk.inj (Option.some.inj (h.symm.trans this))).1

/-- Two instants lie in one period exactly when no boundary separates them.
The boundaries are marks, and the start of each period is one of them. -/
theorem same_start_iff {t u s n s' n' : T} (h : S.period t = some (s, n))
    (h' : S.period u = some (s', n')) :
    s = s' ↔ ∀ b, B b → ¬ (min t u < b ∧ b ≤ max t u) := by
  rcases le_total t u with htu | hut
  · rw [min_eq_left htu, max_eq_right htu]
    exact same_start_of_le hmark hstart htu h h'
  · rw [min_eq_right hut, max_eq_left hut, eq_comm]
    exact same_start_of_le hmark hstart hut h' h

end

end Schedule

end Tiling
