import Sbctl.Lib.Assoc

/-!
# JSON values

Objects are lists of entries, read by key. A path leads from a value to one of
the values inside it.

* `at?_append`: following two paths one after the other;
* `Avoids.at?_eq_none`: where a value names none of the given fields, no path
  over such a field leads anywhere in it.
-/

inductive Json where
  | null
  | bool (b : Bool)
  | num (literal : String)
  | str (s : String)
  | arr (items : List Json)
  | obj (entries : List (String × Json))
  deriving Repr

namespace Json

open Assoc

/-- Induction over the items of arrays and the values of objects. -/
theorem induct {P : Json → Prop} (null : P .null) (bool : ∀ b, P (.bool b))
    (num : ∀ n, P (.num n)) (str : ∀ s, P (.str s))
    (arr : ∀ items, (∀ item ∈ items, P item) → P (.arr items))
    (obj : ∀ entries, (∀ entry ∈ entries, P entry.2) → P (.obj entries)) (v : Json) : P v := by
  refine Json.rec (motive_1 := P) (motive_2 := fun items => ∀ item ∈ items, P item)
    (motive_3 := fun entries => ∀ entry ∈ entries, P entry.2) (motive_4 := fun entry => P entry.2)
    null bool num str arr obj ?_ ?_ ?_ ?_ ?_ v
  · exact fun _ h => absurd h List.not_mem_nil
  · exact fun _ _ hv hvs => List.forall_mem_cons.mpr ⟨hv, hvs⟩
  · exact fun _ h => absurd h List.not_mem_nil
  · exact fun _ _ hv hvs => List.forall_mem_cons.mpr ⟨hv, hvs⟩
  · exact fun _ _ hv => hv

/-! ## Objects -/

/-- The value of a key; values that are not objects have none. -/
def get? (v : Json) (key : String) : Option Json :=
  match v with
  | .obj entries => entries.lookup key
  | _ => none

def asStr? : Json → Option String
  | .str s => some s
  | _ => none

/-- No object inside the value has a key twice. -/
inductive WellFormed : Json → Prop where
  | null : WellFormed .null
  | bool (b : Bool) : WellFormed (.bool b)
  | num (n : String) : WellFormed (.num n)
  | str (s : String) : WellFormed (.str s)
  | arr {items : List Json} (inside : ∀ item ∈ items, WellFormed item) : WellFormed (.arr items)
  | obj {entries : List (String × Json)} (distinct : (entries.map Prod.fst).Nodup)
      (inside : ∀ entry ∈ entries, WellFormed entry.2) : WellFormed (.obj entries)

theorem WellFormed.item {items : List Json} (h : WellFormed (.arr items)) {item : Json}
    (hm : item ∈ items) : item.WellFormed := by
  cases h with
  | arr inside => exact inside item hm

theorem WellFormed.nodup {entries : List (String × Json)} (h : WellFormed (.obj entries)) :
    (entries.map Prod.fst).Nodup := by
  cases h with
  | obj distinct _ => exact distinct

theorem WellFormed.value {entries : List (String × Json)} (h : WellFormed (.obj entries))
    {key : String} {v : Json} (hm : (key, v) ∈ entries) : v.WellFormed := by
  cases h with
  | obj _ inside => exact inside _ hm

theorem WellFormed.filter {entries : List (String × Json)} (h : WellFormed (.obj entries))
    (keep : String × Json → Bool) : WellFormed (.obj (entries.filter keep)) :=
  .obj (h.nodup.sublist (List.filter_sublist.map _)) fun _ hm => h.value (List.mem_filter.mp hm).1

/-! ## Paths -/

inductive Step where
  | key (k : String)
  | index (i : Nat)
  deriving DecidableEq, Repr

abbrev Path := List Step

/-- The value a path leads to. -/
def at? : Path → Json → Option Json
  | [], v => some v
  | .key k :: path, .obj entries => (entries.lookup k).bind (at? path)
  | .index i :: path, .arr items => items[i]?.bind (at? path)
  | _ :: _, _ => none

@[simp] theorem at?_nil (v : Json) : at? [] v = some v := by simp [at?]

@[simp] theorem at?_key (k : String) (path : Path) (entries : List (String × Json)) :
    at? (.key k :: path) (.obj entries) = (entries.lookup k).bind (at? path) := by simp [at?]

@[simp] theorem at?_index (i : Nat) (path : Path) (items : List Json) :
    at? (.index i :: path) (.arr items) = items[i]?.bind (at? path) := by simp [at?]

theorem at?_key_eq_some {k : String} {path : Path} {v u : Json} :
    at? (.key k :: path) v = some u ↔
      ∃ entries w, v = .obj entries ∧ entries.lookup k = some w ∧ at? path w = some u := by
  cases v <;> simp [at?, Option.bind_eq_some_iff]

theorem at?_index_eq_some {i : Nat} {path : Path} {v u : Json} :
    at? (.index i :: path) v = some u ↔
      ∃ items w, v = .arr items ∧ items[i]? = some w ∧ at? path w = some u := by
  cases v <;> simp [at?, Option.bind_eq_some_iff]

theorem at?_append (p q : Path) (v : Json) : at? (p ++ q) v = (at? p v).bind (at? q) := by
  induction p generalizing v with
  | nil => simp
  | cons step p ih =>
    cases step with
    | key k =>
      cases v <;> simp [at?]
      rename_i entries
      cases entries.lookup k <;> simp [ih]
    | index i =>
      cases v <;> simp [at?]
      rename_i items
      cases items[i]? <;> simp [ih]

/-! ## Values that name none of some fields -/

section Avoids
variable {fields : List String}

inductive Avoids (fields : List String) : Json → Prop where
  | null : Avoids fields .null
  | bool (b : Bool) : Avoids fields (.bool b)
  | num (n : String) : Avoids fields (.num n)
  | str (s : String) : Avoids fields (.str s)
  | arr {items : List Json} (inside : ∀ item ∈ items, Avoids fields item) :
      Avoids fields (.arr items)
  | obj {entries : List (String × Json)} (keys : ∀ entry ∈ entries, entry.1 ∉ fields)
      (inside : ∀ entry ∈ entries, Avoids fields entry.2) : Avoids fields (.obj entries)

theorem avoids_arr {items : List Json} :
    Avoids fields (.arr items) ↔ ∀ item ∈ items, Avoids fields item :=
  ⟨fun h => by cases h; assumption, .arr⟩

theorem avoids_obj {entries : List (String × Json)} :
    Avoids fields (.obj entries) ↔
      ∀ entry ∈ entries, entry.1 ∉ fields ∧ Avoids fields entry.2 := by
  constructor
  · rintro (_ | _ | _ | _ | _ | ⟨keys, inside⟩)
    exact fun entry hm => ⟨keys entry hm, inside entry hm⟩
  · exact fun h => .obj (fun entry hm => (h entry hm).1) (fun entry hm => (h entry hm).2)

theorem Avoids.getElem? {items : List Json} (h : Avoids fields (.arr items)) {i : Nat} {v : Json}
    (hi : items[i]? = some v) : Avoids fields v :=
  avoids_arr.mp h v (List.mem_of_getElem? hi)

theorem Avoids.lookup {entries : List (String × Json)} (h : Avoids fields (.obj entries))
    {key : String} {v : Json} (hl : entries.lookup key = some v) :
    key ∉ fields ∧ Avoids fields v :=
  avoids_obj.mp h _ (mem_of_lookup hl)

theorem Avoids.put {entries : List (String × Json)} (h : Avoids fields (.obj entries))
    {key : String} {v : Json} (hk : key ∉ fields) (hv : Avoids fields v) :
    Avoids fields (.obj (Assoc.put key v entries)) := by
  rw [avoids_obj] at h ⊢
  induction entries with
  | nil => simpa [Assoc.put] using ⟨hk, hv⟩
  | cons entry rest ih =>
    obtain ⟨⟨hk', hv'⟩, hrest⟩ := List.forall_mem_cons.mp h
    unfold Assoc.put
    split
    · exact List.forall_mem_cons.mpr ⟨⟨hk', hv⟩, hrest⟩
    · exact List.forall_mem_cons.mpr ⟨⟨hk', hv'⟩, ih hrest⟩

/-- A path over one of the fields, which ends at the first one it meets. -/
def Outermost (fields : List String) : Path → Prop
  | [] => False
  | .key k :: path => if k ∈ fields then path = [] else Outermost fields path
  | .index _ :: path => Outermost fields path

/-- A path whose last step is one of the fields. -/
def EndsIn (fields : List String) (path : Path) : Prop :=
  ∃ k ∈ fields, path.getLast? = some (.key k)

theorem Outermost.endsIn {path : Path} (h : Outermost fields path) : EndsIn fields path := by
  induction path with
  | nil => exact absurd h id
  | cons step path ih =>
    have rest : Outermost fields path → EndsIn fields (step :: path) := by
      intro hpath
      obtain ⟨k, hk, hlast⟩ := ih hpath
      exact ⟨k, hk, by rw [List.getLast?_cons, hlast]; rfl⟩
    cases step with
    | index i => exact rest h
    | key k =>
      by_cases hk : k ∈ fields
      · rw [Outermost, if_pos hk] at h
        exact ⟨k, hk, by simp [h]⟩
      · rw [Outermost, if_neg hk] at h
        exact rest h

/-- Every path to one of the fields goes through an outermost one. -/
theorem EndsIn.outermost {path : Path} (h : EndsIn fields path) :
    ∃ p q, path = p ++ q ∧ Outermost fields p := by
  induction path with
  | nil =>
    obtain ⟨k, _, hlast⟩ := h
    simp at hlast
  | cons step path ih =>
    have rest : path ≠ [] → EndsIn fields path := by
      intro hne
      obtain ⟨k, hk, hlast⟩ := h
      rw [List.getLast?_cons_of_ne_nil hne] at hlast
      exact ⟨k, hk, hlast⟩
    by_cases hfirst : ∃ k ∈ fields, step = .key k
    · obtain ⟨k, hk, rfl⟩ := hfirst
      exact ⟨[.key k], path, rfl, by simp [Outermost, hk]⟩
    · have hne : path ≠ [] := by
        rintro rfl
        obtain ⟨k, hk, hlast⟩ := h
        exact hfirst ⟨k, hk, by simpa using hlast⟩
      obtain ⟨p, q, rfl, hp⟩ := ih (rest hne)
      refine ⟨step :: p, q, rfl, ?_⟩
      cases step with
      | index i => exact hp
      | key k =>
        have hk : k ∉ fields := fun hk => hfirst ⟨k, hk, rfl⟩
        rwa [Outermost, if_neg hk]

theorem Avoids.at?_eq_none {v : Json} (h : Avoids fields v) {path : Path}
    (hpath : Outermost fields path) : at? path v = none := by
  cases hu : at? path v with
  | none => rfl
  | some u =>
    exfalso
    induction path generalizing v with
    | nil => exact hpath
    | cons step path ih =>
      cases step with
      | key k =>
        obtain ⟨entries, w, rfl, hl, hw⟩ := at?_key_eq_some.mp hu
        obtain ⟨hk, hav⟩ := h.lookup hl
        rw [Outermost, if_neg hk] at hpath
        exact ih hav hpath hw
      | index i =>
        obtain ⟨items, w, rfl, hi, hw⟩ := at?_index_eq_some.mp hu
        exact ih (h.getElem? hi) hpath hw

end Avoids

end Json
