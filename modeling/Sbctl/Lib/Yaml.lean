import Mathlib.Data.List.Forall2
import Mathlib.Data.Option.Basic
import Sbctl.Lib.Json

/-!
# YAML values

A mapping may have keys that are not texts. `Image` relates a JSON value to
the YAML values that hold the same, whatever the order of their mappings.

* `image_toYaml`: the conversion of a JSON value is an image of it.
-/

/-- A key of a mapping: a text, or another value by its serialization. -/
inductive YamlKey where
  | string (s : String)
  | other (serialized : String)
  deriving DecidableEq, Repr

def YamlKey.asStr : YamlKey → Option String
  | .string s => some s
  | .other _ => none

inductive Yaml where
  | null
  | bool (b : Bool)
  | number (literal : String)
  | string (s : String)
  | sequence (items : List Yaml)
  | mapping (entries : List (YamlKey × Yaml))
  deriving Repr

namespace Yaml

def isSequence : Yaml → Bool
  | .sequence _ => true
  | _ => false

/-- The value of a text key; values that are not mappings have none. -/
def get? (v : Yaml) (key : String) : Option Yaml :=
  match v with
  | .mapping entries => entries.lookup (.string key)
  | _ => none

def asStr? : Yaml → Option String
  | .string s => some s
  | _ => none

end Yaml

namespace Json

open Assoc

mutual

def toYaml : Json → Yaml
  | .null => .null
  | .bool b => .bool b
  | .num literal => .number literal
  | .str s => .string s
  | .arr items => .sequence (toYamlItems items)
  | .obj entries => .mapping (toYamlEntries entries)

def toYamlItems : List Json → List Yaml
  | [] => []
  | item :: rest => toYaml item :: toYamlItems rest

def toYamlEntries : List (String × Json) → List (YamlKey × Yaml)
  | [] => []
  | (key, value) :: rest => (.string key, toYaml value) :: toYamlEntries rest

end

section
variable {α β : Type} {R : α → β → Prop} {b : Option β}

theorem rel_none (h : Option.Rel R none b) : b = none := by
  cases h
  rfl

theorem rel_some {a : α} (h : Option.Rel R (some a) b) : ∃ b', b = some b' ∧ R a b' := by
  cases h with
  | some h => exact ⟨_, rfl, h⟩

end

/-- The YAML values that hold what a JSON value holds. -/
inductive Image : Json → Yaml → Prop where
  | null : Image .null .null
  | bool (b : Bool) : Image (.bool b) (.bool b)
  | number (literal : String) : Image (.num literal) (.number literal)
  | string (s : String) : Image (.str s) (.string s)
  | sequence {items : List Json} {images : List Yaml} (inside : List.Forall₂ Image items images) :
      Image (.arr items) (.sequence images)
  | mapping {entries : List (String × Json)} {images : List (YamlKey × Yaml)}
      (distinct : (entries.map Prod.fst).Nodup) (distinctKeys : (images.map Prod.fst).Nodup)
      (texts : ∀ key, key.asStr = none → images.lookup key = none)
      (inside : ∀ key, Option.Rel Image (entries.lookup key) (images.lookup (.string key))) :
      Image (.obj entries) (.mapping images)

theorem Image.get? {v : Json} {y : Yaml} (h : Image v y) (key : String) :
    Option.Rel Image (v.get? key) (y.get? key) := by
  cases h with
  | mapping _ _ _ inside => exact inside key
  | _ => exact .none

theorem Image.asStr? {v : Json} {y : Yaml} (h : Image v y) : y.asStr? = v.asStr? := by
  cases h <;> rfl

/-! ## The conversion -/

theorem toYamlItems_eq_map (items : List Json) : toYamlItems items = items.map toYaml := by
  induction items with
  | nil => rfl
  | cons item rest ih => rw [toYamlItems, ih, List.map_cons]

theorem toYamlEntries_eq_map (entries : List (String × Json)) :
    toYamlEntries entries = entries.map fun entry => (.string entry.1, toYaml entry.2) := by
  induction entries with
  | nil => rfl
  | cons entry rest ih => rw [toYamlEntries, ih, List.map_cons]

theorem lookup_toYamlEntries (entries : List (String × Json)) (key : String) :
    (toYamlEntries entries).lookup (.string key) = (entries.lookup key).map toYaml := by
  induction entries with
  | nil => rfl
  | cons entry rest ih =>
    rw [toYamlEntries, lookup_cons_ite, lookup_cons_ite, ih]
    by_cases h : key = entry.1 <;> simp [h]

theorem lookup_toYamlEntries_other (entries : List (String × Json)) {key : YamlKey}
    (h : key.asStr = none) : (toYamlEntries entries).lookup key = none := by
  induction entries with
  | nil => rfl
  | cons entry rest ih =>
    rw [toYamlEntries, lookup_cons_ite, if_neg, ih]
    rintro rfl
    cases h

theorem image_toYaml {v : Json} (h : v.WellFormed) : Image v v.toYaml := by
  induction v using Json.induct with
  | null => exact .null
  | bool b => exact .bool b
  | num n => exact .number n
  | str s => exact .string s
  | arr items ih =>
    rw [toYaml, toYamlItems_eq_map]
    refine .sequence (List.forall₂_map_right_iff.mpr (List.forall₂_same.mpr ?_))
    intro item hitem
    exact ih item hitem (h.item hitem)
  | obj entries ih =>
    rw [toYaml]
    refine .mapping h.nodup ?_ (fun _ => lookup_toYamlEntries_other entries) fun key => ?_
    · have hkeys : (toYamlEntries entries).map Prod.fst =
          (entries.map Prod.fst).map YamlKey.string := by
        simp [toYamlEntries_eq_map]
      rw [hkeys]
      exact h.nodup.map fun _ _ => YamlKey.string.inj
    · rw [lookup_toYamlEntries]
      cases hvalue : entries.lookup key with
      | none => exact .none
      | some value =>
        have hmem := mem_of_lookup hvalue
        exact .some (ih _ hmem (h.value hmem))

end Json
