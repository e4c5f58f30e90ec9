import Mathlib.Data.List.Basic
import Mathlib.Data.List.Nodup

/-!
# Entries read by key

A list of entries stands for a finite map: the first entry of a key counts.

* `lookup_put`, `lookup_remove`: writing or removing one key leaves the others
  alone;
* `lookup_isSome`: the keys a list has a value for are the keys of its entries.
-/

namespace Assoc

variable {α β : Type} [BEq α] [LawfulBEq α] [DecidableEq α]

/-- Writes one key: over its value where it has one, after the others where not. -/
def put (key : α) (value : β) : List (α × β) → List (α × β)
  | [] => [(key, value)]
  | (k, v) :: rest => if key = k then (k, value) :: rest else (k, v) :: put key value rest

def remove (key : α) (entries : List (α × β)) : List (α × β) :=
  entries.filter fun entry => entry.1 ≠ key

theorem lookup_cons_ite (k key : α) (v : β) (rest : List (α × β)) :
    List.lookup k ((key, v) :: rest) = if k = key then some v else rest.lookup k := by
  by_cases h : k = key
  · simp [h]
  · simp [List.lookup_cons, h, beq_eq_false_iff_ne.mpr h]

theorem lookup_put (key k : α) (value : β) (entries : List (α × β)) :
    (put key value entries).lookup k = if k = key then some value else entries.lookup k := by
  induction entries with
  | nil => simp [put, lookup_cons_ite]
  | cons entry rest ih =>
    obtain ⟨k', v⟩ := entry
    by_cases hk' : key = k'
    · subst hk'
      simp only [put, if_pos, lookup_cons_ite]
      split <;> rfl
    · simp only [put, if_neg hk', lookup_cons_ite, ih]
      by_cases h : k = k'
      · simp [h, Ne.symm hk']
      · simp [h]

omit [BEq α] [LawfulBEq α] in
theorem put_put (key : α) (first second : β) (entries : List (α × β)) :
    put key second (put key first entries) = put key second entries := by
  induction entries with
  | nil => simp [put]
  | cons entry rest ih =>
    obtain ⟨k, v⟩ := entry
    by_cases hk : key = k
    · simp [put, hk]
    · simp [put, hk, ih]

theorem map_fst_put (key : α) (value : β) (entries : List (α × β)) :
    (put key value entries).map Prod.fst =
      if key ∈ entries.map Prod.fst then entries.map Prod.fst
      else entries.map Prod.fst ++ [key] := by
  induction entries with
  | nil => rfl
  | cons entry rest ih =>
    obtain ⟨k, v⟩ := entry
    by_cases hk : key = k
    · simp [put, hk]
    · rw [put, if_neg hk, List.map_cons, ih, List.map_cons]
      simp only [List.mem_cons, hk, false_or]
      split <;> rfl

theorem nodup_put {entries : List (α × β)} (h : (entries.map Prod.fst).Nodup) (key : α)
    (value : β) : ((put key value entries).map Prod.fst).Nodup := by
  rw [map_fst_put]
  split
  · exact h
  · rename_i hfresh
    refine List.nodup_append.mpr ⟨h, List.nodup_singleton key, ?_⟩
    rintro a ha b hb rfl
    exact hfresh (List.mem_singleton.mp hb ▸ ha)

omit [BEq α] [LawfulBEq α] in
theorem put_of_fresh {entries : List (α × β)} {key : α} (h : key ∉ entries.map Prod.fst)
    (value : β) : put key value entries = entries ++ [(key, value)] := by
  induction entries with
  | nil => rfl
  | cons entry rest ih =>
    rw [List.map_cons, List.mem_cons, not_or] at h
    rw [put, if_neg h.1, ih h.2]
    rfl

omit [BEq α] [LawfulBEq α] in
theorem put_eq_map {entries : List (α × β)} (hnodup : (entries.map Prod.fst).Nodup) {key : α}
    (h : key ∈ entries.map Prod.fst) (value : β) :
    put key value entries =
      entries.map fun entry => if entry.1 = key then (entry.1, value) else entry := by
  induction entries with
  | nil => cases h
  | cons entry rest ih =>
    obtain ⟨hfresh, hrest⟩ := List.nodup_cons.mp hnodup
    rw [put, List.map_cons]
    by_cases hk : key = entry.1
    · subst hk
      have hkept : rest.map (fun e => if e.1 = entry.1 then (e.1, value) else e) = rest.map id := by
        apply List.map_congr_left
        intro e he
        have hne : e.1 ≠ entry.1 := fun heq => hfresh (heq ▸ List.mem_map_of_mem he)
        rw [if_neg hne, id]
      rw [if_pos rfl, if_pos rfl, hkept, List.map_id]
    · have hmem : key ∈ rest.map Prod.fst := (List.mem_cons.mp h).resolve_left hk
      rw [if_neg hk, if_neg (Ne.symm hk), ih hrest hmem]

omit [BEq α] [LawfulBEq α] in
theorem mem_put {key : α} {value : β} {entries : List (α × β)} {entry : α × β}
    (h : entry ∈ put key value entries) : entry.2 = value ∨ entry ∈ entries := by
  induction entries with
  | nil => exact .inl (congrArg Prod.snd (List.mem_singleton.mp h))
  | cons first rest ih =>
    unfold put at h
    split at h
    · rcases List.mem_cons.mp h with rfl | h
      · exact .inl rfl
      · exact .inr (List.mem_cons_of_mem _ h)
    · rcases List.mem_cons.mp h with rfl | h
      · exact .inr List.mem_cons_self
      · exact (ih h).imp id (List.mem_cons_of_mem _)

omit [DecidableEq α] in
theorem mem_of_lookup {entries : List (α × β)} {key : α} {v : β}
    (h : entries.lookup key = some v) : (key, v) ∈ entries := by
  classical
  induction entries with
  | nil => simp at h
  | cons entry rest ih =>
    obtain ⟨k, w⟩ := entry
    rw [lookup_cons_ite] at h
    split at h
    · subst key
      simp_all
    · exact List.mem_cons_of_mem _ (ih h)

omit [DecidableEq α] in
theorem lookup_of_mem {entries : List (α × β)} (hnodup : (entries.map Prod.fst).Nodup)
    {key : α} {v : β} (h : (key, v) ∈ entries) : entries.lookup key = some v := by
  classical
  induction entries with
  | nil => exact absurd h List.not_mem_nil
  | cons entry rest ih =>
    obtain ⟨k, w⟩ := entry
    obtain ⟨hfresh, hrest⟩ := List.nodup_cons.mp hnodup
    rw [lookup_cons_ite]
    rcases List.mem_cons.mp h with heq | hm
    · cases heq
      rw [if_pos rfl]
    · have hne : key ≠ k := by
        rintro rfl
        exact hfresh (List.mem_map.mpr ⟨_, hm, rfl⟩)
      rw [if_neg hne, ih hrest hm]

omit [DecidableEq α] in
theorem lookup_isSome {entries : List (α × β)} {key : α} :
    (entries.lookup key).isSome ↔ key ∈ entries.map Prod.fst := by
  classical
  induction entries with
  | nil => simp
  | cons entry rest ih =>
    obtain ⟨k, w⟩ := entry
    rw [lookup_cons_ite]
    by_cases h : key = k
    · simp [h]
    · simp [h, ih]

omit [DecidableEq α] in
theorem lookup_eq_none {entries : List (α × β)} {key : α} (h : key ∉ entries.map Prod.fst) :
    entries.lookup key = none := by
  rwa [← lookup_isSome, Option.not_isSome_iff_eq_none] at h

/-- Writing what is already there changes nothing. -/
theorem put_of_lookup {entries : List (α × β)} {key : α} {value : β}
    (h : entries.lookup key = some value) : put key value entries = entries := by
  induction entries with
  | nil => cases h
  | cons entry rest ih =>
    obtain ⟨k, v⟩ := entry
    rw [lookup_cons_ite] at h
    unfold put
    split at h
    · rename_i hk
      rw [if_pos hk, Option.some.inj h]
    · rename_i hk
      rw [if_neg hk, ih h]

theorem lookup_filter {entries : List (α × β)} {k : α} {keep : α → Bool} :
    (entries.filter fun entry => keep entry.1).lookup k =
      if keep k then entries.lookup k else none := by
  induction entries with
  | nil => simp
  | cons entry rest ih =>
    obtain ⟨k', v⟩ := entry
    by_cases h : k = k'
    · subst h
      by_cases hk : keep k <;> simp [hk, ih]
    · by_cases hk' : keep k' <;> simp [hk', lookup_cons_ite, h, ih]

/-- Where keys are distinct, entries may be filtered by their values too. -/
theorem lookup_filter_of_nodup {entries : List (α × β)} (hnodup : (entries.map Prod.fst).Nodup)
    {k : α} (keep : β → Bool) :
    (entries.filter fun entry => keep entry.2).lookup k = (entries.lookup k).filter keep := by
  induction entries with
  | nil => simp
  | cons entry rest ih =>
    obtain ⟨k', v⟩ := entry
    obtain ⟨hfresh, hrest⟩ := List.nodup_cons.mp hnodup
    by_cases hv : keep v
    · by_cases h : k = k'
      · simp [hv, h, Option.filter]
      · simp [hv, lookup_cons_ite, h, ih hrest]
    · by_cases h : k = k'
      · subst h
        have hnone : rest.lookup k = none := lookup_eq_none hfresh
        simp [hv, ih hrest, hnone, Option.filter]
      · simp [hv, lookup_cons_ite, h, ih hrest]

theorem lookup_remove (key k : α) (entries : List (α × β)) :
    (remove key entries).lookup k = if k = key then none else entries.lookup k := by
  have h := @lookup_filter α β _ _ _ entries k fun k => decide (k ≠ key)
  rw [remove, h]
  by_cases hk : k = key <;> simp [hk]

omit [LawfulBEq α] [DecidableEq α] in
theorem lookup_map_value {γ : Type} (f : β → γ) (k : α) (entries : List (α × β)) :
    (entries.map fun e => (e.1, f e.2)).lookup k = (entries.lookup k).map f := by
  induction entries with
  | nil => rfl
  | cons e es ih =>
    obtain ⟨key, v⟩ := e
    simp only [List.map_cons, List.lookup_cons]
    split
    · rfl
    · exact ih

omit [DecidableEq α] in
/-- With distinct keys the order of the entries does not matter. -/
theorem lookup_perm {entries others : List (α × β)} (hnodup : (entries.map Prod.fst).Nodup)
    (hperm : entries.Perm others) (k : α) : others.lookup k = entries.lookup k := by
  have hothers : (others.map Prod.fst).Nodup := (hperm.map Prod.fst).nodup_iff.mp hnodup
  cases hlookup : entries.lookup k with
  | some v => exact lookup_of_mem hothers (hperm.mem_iff.mp (mem_of_lookup hlookup))
  | none =>
    cases hother : others.lookup k with
    | none => rfl
    | some v =>
      have hmem := lookup_of_mem hnodup (hperm.mem_iff.mpr (mem_of_lookup hother))
      rw [hlookup] at hmem
      cases hmem

end Assoc
