import Mathlib.Algebra.Group.Int.Defs
import Mathlib.Algebra.Group.Nat.Defs
import Mathlib.Data.Int.Basic
import Mathlib.Order.Lattice

/-!
# Fixed-width arithmetic that does not wrap

Saturating and checked operations, each defined through the number it denotes
and each with one lemma that says which number that is. Callers use the lemma
and never unfold the operation.
-/

namespace Machine

/-- The largest 64-bit value, as a number. -/
def maxU64 : Nat := 2 ^ 64 - 1

theorem toNat_le_max (a : UInt64) : a.toNat ≤ maxU64 := by
  have := a.toNat_lt
  unfold maxU64
  omega

/-- The 64-bit value nearest to `n`. -/
def clampU64 (n : Nat) : UInt64 := UInt64.ofNat (min n maxU64)

@[simp] theorem toNat_clampU64 (n : Nat) : (clampU64 n).toNat = min n maxU64 := by
  have : min n maxU64 < UInt64.size := by
    have := Nat.min_le_right n maxU64
    simp only [maxU64, UInt64.size] at *
    omega
  exact UInt64.toNat_ofNat_of_lt this

def saturatingAdd (a b : UInt64) : UInt64 := clampU64 (a.toNat + b.toNat)

@[simp] theorem toNat_saturatingAdd (a b : UInt64) :
    (saturatingAdd a b).toNat = min (a.toNat + b.toNat) maxU64 :=
  toNat_clampU64 _

def minI64 : Int := -2 ^ 63
def maxI64 : Int := 2 ^ 63 - 1

/-- The sum of two signed 64-bit values, if it is one. -/
def checkedAddI64 (a b : Int) : Option Int :=
  if minI64 ≤ a + b ∧ a + b ≤ maxI64 then some (a + b) else none

theorem checkedAddI64_eq_some {a b c : Int} (h : checkedAddI64 a b = some c) : c = a + b := by
  unfold checkedAddI64 at h
  split at h
  · exact (Option.some.inj h).symm
  · cases h

/-- The product of two signed 64-bit values, if it is one. -/
def checkedMulI64 (a b : Int) : Option Int :=
  if minI64 ≤ a * b ∧ a * b ≤ maxI64 then some (a * b) else none

def minI128 : Int := -2 ^ 127
def maxI128 : Int := 2 ^ 127 - 1

/-- A signed 128-bit value. -/
structure I128 where
  val : Int
  lower : minI128 ≤ val
  upper : val ≤ maxI128
  deriving DecidableEq

namespace I128

@[ext] theorem ext {a b : I128} (h : a.val = b.val) : a = b := by
  cases a; cases b; simpa using h

/-- The value nearest to `i`. -/
def clamp (i : Int) : I128 where
  val := max minI128 (min i maxI128)
  lower := le_max_left _ _
  upper := max_le (by decide) (min_le_right _ _)

@[simp] theorem val_clamp (i : Int) : (clamp i).val = max minI128 (min i maxI128) := rfl

theorem clamp_val (a : I128) : clamp a.val = a := by
  have := a.lower
  have := a.upper
  apply I128.ext
  simp only [val_clamp]
  omega

instance : Zero I128 := ⟨⟨0, by decide, by decide⟩⟩

@[simp] theorem val_zero : (0 : I128).val = 0 := rfl

def saturatingAdd (a b : I128) : I128 := clamp (a.val + b.val)

/-- `none` when the difference does not fit. -/
def checkedSub (a b : I128) : Option I128 :=
  if h : minI128 ≤ a.val - b.val ∧ a.val - b.val ≤ maxI128 then some ⟨_, h.1, h.2⟩ else none

theorem checkedSub_val {a b c : I128} (h : checkedSub a b = some c) : c.val = a.val - b.val := by
  unfold checkedSub at h
  split at h
  · cases h; rfl
  · cases h

/-- Adding back a difference that fits undoes the subtraction. -/
theorem saturatingAdd_checkedSub {a b c : I128} (h : checkedSub a b = some c) :
    saturatingAdd b c = a := by
  have hv := checkedSub_val h
  rw [saturatingAdd, show b.val + c.val = a.val by omega, clamp_val]

/-- A signed difference of two pairs of 64-bit values always fits. -/
def ofInt (i : Int) (h : minI128 ≤ i ∧ i ≤ maxI128) : I128 := ⟨i, h.1, h.2⟩

end I128

end Machine
