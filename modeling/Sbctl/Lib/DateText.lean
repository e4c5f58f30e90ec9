import Sbctl.Lib.Calendar
import Sbctl.Lib.Spelling

/-!
# The text of a date

A day as `YYYY-MM-DD`. Years outside of four digits carry a sign.

* `dateText_injective`: days are told apart by their texts.
-/

namespace Calendar

open Text

/-- A number with zeros in front, up to `width` digits. -/
def padded (width n : Nat) : List Char :=
  List.replicate (width - (Nat.toDigits 10 n).length) '0' ++ Nat.toDigits 10 n

theorem isDigit_of_mem_padded {width n : Nat} {c : Char} (h : c ∈ padded width n) : c.isDigit := by
  rcases List.mem_append.mp h with h | h
  · rw [List.eq_of_mem_replicate h]
    decide
  · exact isDigit_of_mem h

theorem digitsFrom_zeros (zeros : Nat) (cs : List Char) :
    digitsFrom 0 (List.replicate zeros '0' ++ cs) = digitsFrom 0 cs := by
  induction zeros with
  | zero => rfl
  | succ zeros ih => exact ih

theorem padded_injective {width n n' : Nat} (h : padded width n = padded width n') : n = n' := by
  have hread := congrArg (digitsFrom 0) h
  rw [padded, padded, digitsFrom_zeros, digitsFrom_zeros, digitsFrom_toDigits,
    digitsFrom_toDigits] at hread
  exact Option.some.inj hread

theorem notMem_padded {width n : Nat} {c : Char} (hc : c.isDigit = false) : c ∉ padded width n := by
  intro h
  rw [isDigit_of_mem_padded h] at hc
  cases hc

def yearSign (year : Int) : Char := if year < 0 then '-' else '+'

def yearText (year : Int) : List Char :=
  if 0 ≤ year ∧ year ≤ 9999 then padded 4 year.toNat else yearSign year :: padded 4 year.natAbs

theorem isDigit_yearSign (year : Int) : (yearSign year).isDigit = false := by
  unfold yearSign
  split <;> decide

theorem yearText_injective {year year' : Int} (h : yearText year = yearText year') :
    year = year' := by
  unfold yearText at h
  split at h
  · split at h
    · have heq := padded_injective h
      omega
    · have hmem : yearSign year' ∈ padded 4 year.toNat := h ▸ List.mem_cons_self
      exact absurd hmem (notMem_padded (isDigit_yearSign year'))
  · split at h
    · have hmem : yearSign year ∈ padded 4 year'.toNat := h ▸ List.mem_cons_self
      exact absurd hmem (notMem_padded (isDigit_yearSign year))
    · obtain ⟨hsign, hnumber⟩ := List.cons.inj h
      have hnat := padded_injective hnumber
      unfold yearSign at hsign
      split at hsign
      · split at hsign
        · omega
        · exact absurd hsign (by decide)
      · split at hsign
        · exact absurd hsign (by decide)
        · omega

def dateText (d : Int) : List Char :=
  yearText (monthOf d).year ++ '-' :: padded 2 (monthOf d).month ++
    '-' :: padded 2 (d - (monthOf d).firstDay + 1).toNat

theorem dateText_injective {d d' : Int} (h : dateText d = dateText d') : d = d' := by
  have hsep {n : Nat} : '-' ∉ padded 2 n := notMem_padded (by decide)
  have hday := congrArg (rsplitOnce '-') h
  rw [dateText, dateText, rsplitOnce_append hsep, rsplitOnce_append hsep, Option.some.injEq,
    Prod.mk.injEq] at hday
  obtain ⟨hmonth, hnumber⟩ := hday
  have hyear := congrArg (rsplitOnce '-') hmonth
  rw [rsplitOnce_append hsep, rsplitOnce_append hsep, Option.some.injEq, Prod.mk.injEq] at hyear
  have hsame : monthOf d = monthOf d' := by
    apply YearMonth.index_injective
    rw [YearMonth.index, YearMonth.index, yearText_injective hyear.1, padded_injective hyear.2]
  have hd := monthOf_spec d
  have hd' := monthOf_spec d'
  have hoffset := padded_injective hnumber
  rw [hsame] at hd hoffset
  omega

example : dateText 20000 = "2024-10-04".toList := by decide

end Calendar
