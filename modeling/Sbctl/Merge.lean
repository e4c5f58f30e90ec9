import Sbctl.Lib.Json

/-!
# Merging an override into a generated configuration

Objects merge key by key, every other value replaces what it meets. Two kinds
of arrays do not replace: an array under `rules` is joined to the generated
one, and the arrays a policy names merge item by item, paired by an
identifier.

* `lookup_mergeEntries`: what a merged object holds under a key;
* `mergeItems_cons`: what one incoming item does to an array;
* `avoids_mergeAt`: merging brings in no field that neither side names.
-/

namespace Sbctl

open Json Assoc

inductive RulesMode where
  | prepend
  | append
  | replace
  deriving DecidableEq, Repr

structure MergePolicy where
  rules : RulesMode := .prepend
  /-- The arrays that merge item by item, each with its identifier field. -/
  keyedArrays : List (String × String) := []
  deriving Repr

def MergePolicy.identifierField (policy : MergePolicy) (key : String) : Option String :=
  policy.keyedArrays.lookup key

/-- The identifier of an item, if it is an object that has one. -/
def identifier (field : String) (item : Json) : Option String := (item.get? field).bind asStr?

def hasIdentifier (field : String) (item : Json) : Bool := (identifier field item).isSome

/-- Both arrays can take part in a merge by identifier. -/
def shaped (field : String) (base overlay : List Json) : Bool :=
  (base ++ overlay).all (hasIdentifier field)

def mergeRules (mode : RulesMode) (base overlay : List Json) : List Json :=
  match mode with
  | .prepend => overlay ++ base
  | .append => base ++ overlay
  | .replace => overlay

/-- What becomes of the value under a key, given the merge by an identifier
and the plain merge of the two values. -/
def chooseMerge (policy : MergePolicy) (key : String) (existing value : Json)
    (keyed : String → Option (List Json)) (deep : Json) : Json :=
  match existing, value with
  | .arr base, .arr overlay =>
    if key = "rules" then .arr (mergeRules policy.rules base overlay)
    else
      match (policy.identifierField key).bind keyed with
      | some items => .arr items
      | none => deep
  | _, _ => deep

/-- The place of the first item with the identifier of `incoming`. -/
def findItem (field : String) (incoming : Json) (base : List Json) : Option Nat :=
  base.findIdx? fun existing => identifier field existing == identifier field incoming

mutual

def deepMergeWith (policy : MergePolicy) (base : Json) : (overlay : Json) → Json
  | .obj overlay =>
    match base with
    | .obj entries => .obj (mergeEntries policy entries overlay)
    | _ => .obj overlay
  | overlay => overlay
termination_by structural overlay => overlay

/-- The entries of the overlay, one after the other. -/
def mergeEntries (policy : MergePolicy) (base : List (String × Json)) :
    (overlay : List (String × Json)) → List (String × Json)
  | [] => base
  | (key, value) :: rest =>
    let merged :=
      match base.lookup key with
      | none => value
      | some existing =>
        chooseMerge policy key existing value (fun field => mergeKeyed policy field existing value)
          (deepMergeWith policy existing value)
    mergeEntries policy (put key merged base) rest
termination_by structural overlay => overlay

/-- Merging two arrays by identifier, where they have the shape for it. -/
def mergeKeyed (policy : MergePolicy) (field : String) (base : Json) :
    (overlay : Json) → Option (List Json)
  | .arr overlay =>
    match base with
    | .arr items =>
      if shaped field items overlay then some (mergeItems policy field items overlay) else none
    | _ => none
  | _ => none
termination_by structural overlay => overlay

/-- The items of the overlay, one after the other: each into the item with its
identifier, or after the last one. -/
def mergeItems (policy : MergePolicy) (field : String) (base : List Json) :
    (overlay : List Json) → List Json
  | [] => base
  | incoming :: rest =>
    match findItem field incoming base with
    | some j =>
      mergeItems policy field
        (base.modify j fun existing => deepMergeWith policy existing incoming) rest
    | none => mergeItems policy field (base ++ [incoming]) rest
termination_by structural overlay => overlay

end

/-- What one key of the overlay makes of the value it finds there. -/
def mergeField (policy : MergePolicy) (key : String) (existing value : Json) : Json :=
  chooseMerge policy key existing value (fun field => mergeKeyed policy field existing value)
    (deepMergeWith policy existing value)

/-- The identifier by which the arrays under a key merge. -/
def keyedBy (policy : MergePolicy) : Option String → Option String
  | none => none
  | some key => if key = "rules" then none else policy.identifierField key

/-- A merge of two values that sit under a key, or in an array. -/
def mergeAt (policy : MergePolicy) (place : Option String) (base overlay : Json) : Json :=
  match place with
  | none => deepMergeWith policy base overlay
  | some key => mergeField policy key base overlay

variable {policy : MergePolicy}

@[simp] theorem deepMergeWith_obj (entries overlay : List (String × Json)) :
    deepMergeWith policy (.obj entries) (.obj overlay) =
      .obj (mergeEntries policy entries overlay) := by
  rw [deepMergeWith]

/-- Whatever is not an object takes the place of what it meets. -/
theorem deepMergeWith_replaces {base overlay : Json}
    (h : (∀ entries, base ≠ .obj entries) ∨ ∀ entries, overlay ≠ .obj entries) :
    deepMergeWith policy base overlay = overlay := by
  cases overlay with
  | obj overlay =>
    rcases h with h | h
    · cases base with
      | obj entries => exact absurd rfl (h entries)
      | _ => simp [deepMergeWith]
    · exact absurd rfl (h overlay)
  | _ => simp [deepMergeWith]

@[simp] theorem mergeEntries_nil (base : List (String × Json)) :
    mergeEntries policy base [] = base := by
  rw [mergeEntries]

theorem mergeEntries_cons (base : List (String × Json)) (key : String) (value : Json)
    (rest : List (String × Json)) :
    mergeEntries policy base ((key, value) :: rest) =
      mergeEntries policy
        (put key ((base.lookup key).elim value (mergeField policy key · value)) base) rest := by
  rw [mergeEntries]
  cases base.lookup key <;> rfl

@[simp] theorem mergeItems_nil (field : String) (base : List Json) :
    mergeItems policy field base [] = base := by
  rw [mergeItems]

/-- What one incoming item makes of an array. -/
def mergeItem (policy : MergePolicy) (field : String) (base : List Json) (incoming : Json) :
    List Json :=
  match findItem field incoming base with
  | some j => base.modify j fun existing => deepMergeWith policy existing incoming
  | none => base ++ [incoming]

theorem mergeItems_cons (field : String) (base : List Json) (incoming : Json)
    (rest : List Json) :
    mergeItems policy field base (incoming :: rest) =
      mergeItems policy field (mergeItem policy field base incoming) rest := by
  rw [mergeItems, mergeItem]
  cases findItem field incoming base <;> rfl

theorem mergeItems_eq_foldl (field : String) (base overlay : List Json) :
    mergeItems policy field base overlay = overlay.foldl (mergeItem policy field) base := by
  induction overlay generalizing base with
  | nil => simp
  | cons incoming rest ih => rw [mergeItems_cons, ih, List.foldl_cons]

/-- A merged object holds under each key the merge of what both sides have
there, or what the one side has. -/
theorem lookup_mergeEntries {base overlay : List (String × Json)}
    (hnodup : (overlay.map Prod.fst).Nodup) (k : String) :
    (mergeEntries policy base overlay).lookup k =
      match overlay.lookup k with
      | none => base.lookup k
      | some value => some ((base.lookup k).elim value (mergeField policy k · value)) := by
  induction overlay generalizing base with
  | nil => simp
  | cons entry rest ih =>
    obtain ⟨key, value⟩ := entry
    obtain ⟨hfresh, hrest⟩ := List.nodup_cons.mp hnodup
    rw [mergeEntries_cons, ih hrest, lookup_put, lookup_cons_ite]
    by_cases hk : k = key
    · subst hk
      rw [lookup_eq_none hfresh]
      simp
    · simp [hk]

theorem lookup_mergeEntries_none {base overlay : List (String × Json)}
    (hnodup : (overlay.map Prod.fst).Nodup) {k : String} (h : overlay.lookup k = none) :
    (mergeEntries policy base overlay).lookup k = base.lookup k := by
  rw [lookup_mergeEntries hnodup, h]

theorem lookup_mergeEntries_some {base overlay : List (String × Json)}
    (hnodup : (overlay.map Prod.fst).Nodup) {k : String} {w o : Json}
    (hbase : base.lookup k = some w) (h : overlay.lookup k = some o) :
    (mergeEntries policy base overlay).lookup k = some (mergeAt policy (some k) w o) := by
  rw [lookup_mergeEntries hnodup, h, hbase]
  rfl

@[simp] theorem mergeAt_obj (place : Option String) (entries overlay : List (String × Json)) :
    mergeAt policy place (.obj entries) (.obj overlay) =
      .obj (mergeEntries policy entries overlay) := by
  cases place <;> simp [mergeAt, mergeField, chooseMerge]

theorem mergeAt_replaces {place : Option String} {base overlay : Json}
    (hobj : (∀ entries, base ≠ .obj entries) ∨ ∀ entries, overlay ≠ .obj entries)
    (harr : (∀ items, base ≠ .arr items) ∨ ∀ items, overlay ≠ .arr items) :
    mergeAt policy place base overlay = overlay := by
  cases place with
  | none => exact deepMergeWith_replaces hobj
  | some key =>
    simp only [mergeAt, mergeField, chooseMerge]
    split
    · rcases harr with h | h <;> exact absurd rfl (h _)
    · exact deepMergeWith_replaces hobj

/-- The three ways two arrays merge. -/
theorem mergeAt_arr (place : Option String) (base overlay : List Json) :
    mergeAt policy place (.arr base) (.arr overlay) =
      if place = some "rules" then .arr (mergeRules policy.rules base overlay)
      else
        match keyedBy policy place with
        | none => .arr overlay
        | some field =>
          if shaped field base overlay then .arr (mergeItems policy field base overlay)
          else .arr overlay := by
  have hdeep : deepMergeWith policy (.arr base) (.arr overlay) = .arr overlay :=
    deepMergeWith_replaces (.inl (by simp))
  cases place with
  | none => simp [mergeAt, keyedBy, hdeep]
  | some key =>
    by_cases hrules : key = "rules"
    · simp [mergeAt, mergeField, chooseMerge, hrules]
    · simp only [mergeAt, mergeField, chooseMerge, keyedBy, if_neg hrules, mergeKeyed, hdeep,
        Option.some.injEq]
      cases policy.identifierField key with
      | none => rfl
      | some field => cases hshaped : shaped field base overlay <;> simp [hshaped]

/-! ## Merging by identifier -/

theorem hasIdentifier_iff {field : String} {item : Json} :
    hasIdentifier field item = true ↔
      ∃ entries id, item = .obj entries ∧ entries.lookup field = some (.str id) ∧
        identifier field item = some id := by
  unfold hasIdentifier identifier
  cases item with
  | obj entries =>
    cases hl : entries.lookup field with
    | none => simp [get?, hl]
    | some v => cases v <;> simp [get?, hl, asStr?]
  | _ => simp [get?]

theorem shaped_iff {field : String} {base overlay : List Json} :
    shaped field base overlay = true ↔
      (∀ item ∈ base, hasIdentifier field item = true) ∧
        ∀ item ∈ overlay, hasIdentifier field item = true := by
  simp [shaped]

/-- Merging two items with one identifier keeps it. -/
theorem identifier_deepMergeWith {field : String} {existing incoming : Json}
    (hwf : incoming.WellFormed) (hid : hasIdentifier field incoming = true)
    (heq : identifier field existing = identifier field incoming) :
    identifier field (deepMergeWith policy existing incoming) = identifier field existing := by
  have hexisting : hasIdentifier field existing = true := by
    rw [hasIdentifier, heq]
    exact hid
  obtain ⟨overlay, id, rfl, hover, hid⟩ := hasIdentifier_iff.mp hid
  obtain ⟨entries, id', rfl, hbase, hid'⟩ := hasIdentifier_iff.mp hexisting
  have hmerged : (mergeEntries policy entries overlay).lookup field = some (.str id) := by
    rw [lookup_mergeEntries hwf.nodup, hover, hbase]
    simp [mergeField, chooseMerge, deepMergeWith_replaces]
  rw [heq, hid, deepMergeWith_obj]
  simp [identifier, get?, hmerged, asStr?]

/-- An array of identified items that starts with the identifiers of `items`. -/
structure Keyed (field : String) (items grown : List Json) : Prop where
  shaped : ∀ item ∈ grown, hasIdentifier field item = true
  starts : items.map (identifier field) <+: grown.map (identifier field)

theorem Keyed.refl {field : String} {items : List Json}
    (h : ∀ item ∈ items, hasIdentifier field item = true) : Keyed field items items :=
  ⟨h, List.prefix_refl _⟩

theorem findItem_eq_map (field : String) (incoming : Json) (items : List Json) :
    findItem field incoming items =
      (items.map (identifier field)).findIdx? (· == identifier field incoming) := by
  rw [findItem, List.findIdx?_map]
  rfl

theorem findItem_spec {field : String} {incoming : Json} {items : List Json} {i : Nat}
    (h : findItem field incoming items = some i) :
    ∃ item, items[i]? = some item ∧ identifier field item = identifier field incoming := by
  obtain ⟨hi, heq, _⟩ := List.findIdx?_eq_some_iff_getElem.mp h
  exact ⟨items[i], List.getElem?_eq_getElem hi, by simpa using heq⟩

/-- Items that came later are not found first. -/
theorem Keyed.findItem_iff {field : String} {items grown : List Json} (h : Keyed field items grown)
    (incoming : Json) {i : Nat} (hi : i < items.length) :
    findItem field incoming grown = some i ↔ findItem field incoming items = some i := by
  obtain ⟨later, hlater⟩ := h.starts
  rw [findItem_eq_map, findItem_eq_map, ← hlater, List.findIdx?_append]
  cases hfound : (items.map (identifier field)).findIdx? (· == identifier field incoming) with
  | some j => simp
  | none =>
    simp only [Option.none_or, Option.map_eq_some_iff, reduceCtorEq, iff_false, not_exists,
      not_and, List.length_map]
    intro j _
    omega

/-- An incoming item changes no identifier. It comes with its own where no item
has that. -/
theorem map_identifier_mergeItem {field : String} {base : List Json} {incoming : Json}
    (hwf : incoming.WellFormed) (hid : hasIdentifier field incoming = true) :
    (mergeItem policy field base incoming).map (identifier field) =
      if identifier field incoming ∈ base.map (identifier field) then base.map (identifier field)
      else base.map (identifier field) ++ [identifier field incoming] := by
  unfold Sbctl.mergeItem
  cases hfound : findItem field incoming base with
  | none =>
    rw [findItem_eq_map, List.findIdx?_eq_none_iff] at hfound
    rw [if_neg fun hm => by simpa using hfound _ hm]
    simp
  | some j =>
    obtain ⟨item, hitem, heq⟩ := findItem_spec hfound
    rw [if_pos (List.mem_map.mpr ⟨item, List.mem_of_getElem? hitem, heq⟩)]
    apply List.ext_getElem?
    intro i
    rw [List.getElem?_map, List.getElem?_modify, List.getElem?_map]
    by_cases hj : j = i
    · subst hj
      simp [hitem, identifier_deepMergeWith hwf hid heq]
    · cases base[i]? <;> simp [hj]

theorem forall_hasIdentifier {field : String} {items : List Json} :
    (∀ item ∈ items, hasIdentifier field item = true) ↔
      ∀ id ∈ items.map (identifier field), id.isSome = true := by
  simp [hasIdentifier]

theorem Keyed.mergeItem {field : String} {items grown : List Json} (h : Keyed field items grown)
    {incoming : Json} (hwf : incoming.WellFormed) (hid : hasIdentifier field incoming = true) :
    Keyed field items (mergeItem policy field grown incoming) := by
  have hids := forall_hasIdentifier.mp h.shaped
  have hmap := @map_identifier_mergeItem policy field grown incoming hwf hid
  constructor
  · rw [forall_hasIdentifier, hmap]
    split
    · exact hids
    · intro id hm
      rcases List.mem_append.mp hm with hm | hm
      · exact hids id hm
      · rw [List.mem_singleton.mp hm]
        exact hid
  · rw [hmap]
    split
    · exact h.starts
    · exact h.starts.trans (List.prefix_append _ _)

theorem Keyed.mergeItems {field : String} {items grown overlay : List Json}
    (h : Keyed field items grown) (hwf : ∀ o ∈ overlay, o.WellFormed)
    (hid : ∀ o ∈ overlay, hasIdentifier field o = true) :
    Keyed field items (mergeItems policy field grown overlay) := by
  induction overlay generalizing grown with
  | nil => simpa using h
  | cons incoming rest ih =>
    rw [mergeItems_cons]
    exact ih (h.mergeItem (hwf _ List.mem_cons_self) (hid _ List.mem_cons_self))
      (fun o ho => hwf o (List.mem_cons_of_mem _ ho)) fun o ho => hid o (List.mem_cons_of_mem _ ho)

/-- Merging by identifier keeps the identifiers apart. -/
theorem nodup_mergeItems {field : String} {base overlay : List Json}
    (hnodup : (base.map (identifier field)).Nodup) (hwf : ∀ o ∈ overlay, o.WellFormed)
    (hid : ∀ o ∈ overlay, hasIdentifier field o = true) :
    ((mergeItems policy field base overlay).map (identifier field)).Nodup := by
  induction overlay generalizing base with
  | nil => simpa using hnodup
  | cons incoming rest ih =>
    rw [mergeItems_cons]
    refine ih ?_ (fun o ho => hwf o (List.mem_cons_of_mem _ ho))
      fun o ho => hid o (List.mem_cons_of_mem _ ho)
    rw [map_identifier_mergeItem (hwf _ List.mem_cons_self) (hid _ List.mem_cons_self)]
    split
    · exact hnodup
    · rename_i hfresh
      refine List.nodup_append.mpr ⟨hnodup, by simp, ?_⟩
      rintro id hm _ hlast rfl
      exact hfresh (List.mem_singleton.mp hlast ▸ hm)

/-- An incoming item merges into the one with its identifier. -/
theorem Keyed.mergeItem_at {field : String} {items grown : List Json} {incoming w : Json} {i : Nat}
    (h : Keyed field items grown) (hi : i < items.length) (hw : grown[i]? = some w) :
    (Sbctl.mergeItem policy field grown incoming)[i]? =
      some (if findItem field incoming items = some i then deepMergeWith policy w incoming else w) := by
  simp only [← h.findItem_iff incoming hi]
  unfold Sbctl.mergeItem
  cases hfound : findItem field incoming grown with
  | none => rw [List.getElem?_append_left (List.getElem?_eq_some_iff.mp hw).1, hw]; simp
  | some j =>
    rw [List.getElem?_modify, hw]
    by_cases hj : j = i <;> simp [hj]

/-- Only the items found by the identifier of an incoming one are merged, so a
property of an item holds to the end if those merges keep it. -/
theorem Keyed.mergeItems_at {field : String} {items grown overlay : List Json} {i : Nat}
    {P : Json → Prop} (h : Keyed field items grown) (hwf : ∀ o ∈ overlay, o.WellFormed)
    (hid : ∀ o ∈ overlay, hasIdentifier field o = true) (hi : i < items.length)
    (hat : ∃ w, grown[i]? = some w ∧ P w)
    (keep : ∀ o ∈ overlay, findItem field o items = some i → ∀ w, P w →
      P (deepMergeWith policy w o)) :
    ∃ w, (Sbctl.mergeItems policy field grown overlay)[i]? = some w ∧ P w := by
  induction overlay generalizing grown with
  | nil => simpa using hat
  | cons incoming rest ih =>
    obtain ⟨w, hw, hP⟩ := hat
    rw [mergeItems_cons]
    refine ih (h.mergeItem (hwf _ List.mem_cons_self) (hid _ List.mem_cons_self))
      (fun o ho => hwf o (List.mem_cons_of_mem _ ho))
      (fun o ho => hid o (List.mem_cons_of_mem _ ho)) ⟨_, h.mergeItem_at hi hw, ?_⟩
      fun o ho => keep o (List.mem_cons_of_mem _ ho)
    split
    · exact keep incoming List.mem_cons_self ‹_› w hP
    · exact hP

section Avoids
variable {fields : List String}

theorem mem_mergeRules {mode : RulesMode} {base overlay : List Json} {item : Json}
    (h : item ∈ mergeRules mode base overlay) : item ∈ base ∨ item ∈ overlay := by
  cases mode <;> simp only [mergeRules, List.mem_append] at h
  · exact h.symm
  · exact h
  · exact .inr h

/-- One incoming item merges into at most one of the items, or follows them. -/
theorem mem_mergeItem {field : String} {base : List Json} {incoming item : Json}
    (h : item ∈ mergeItem policy field base incoming) :
    item ∈ base ∨ item = incoming ∨
      ∃ existing ∈ base, item = deepMergeWith policy existing incoming := by
  unfold mergeItem at h
  split at h
  · rename_i j _
    obtain ⟨i, hi⟩ := List.mem_iff_getElem?.mp h
    rw [List.getElem?_modify] at hi
    cases hb : base[i]? with
    | none => simp [hb] at hi
    | some existing =>
      have hmem : existing ∈ base := List.mem_of_getElem? hb
      simp only [hb, Option.map_eq_map, Option.map_some, Option.some.injEq] at hi
      split at hi
      · exact .inr (.inr ⟨existing, hmem, hi.symm⟩)
      · exact .inl (hi ▸ hmem)
  · rcases List.mem_append.mp h with h | h
    · exact .inl h
    · exact .inr (.inl (List.mem_singleton.mp h))

/-- A property the merge of two items keeps holds of every item of the merged
array. -/
theorem mergeItems_forall {P : Json → Prop} {field : String} {base overlay : List Json}
    (merge : ∀ incoming ∈ overlay, ∀ existing, P existing → P (deepMergeWith policy existing incoming))
    (hbase : ∀ item ∈ base, P item) (hoverlay : ∀ item ∈ overlay, P item) :
    ∀ item ∈ mergeItems policy field base overlay, P item := by
  induction overlay generalizing base with
  | nil => simpa using hbase
  | cons incoming rest ih =>
    rw [mergeItems_cons]
    refine ih (fun x hx => merge x (List.mem_cons_of_mem _ hx)) ?_
      fun x hx => hoverlay x (List.mem_cons_of_mem _ hx)
    intro item hm
    rcases mem_mergeItem hm with hm | rfl | ⟨existing, hexisting, rfl⟩
    · exact hbase item hm
    · exact hoverlay item List.mem_cons_self
    · exact merge incoming List.mem_cons_self existing (hbase existing hexisting)

/-- Merging brings in no field that neither side names. -/
theorem avoids_mergeAt {place : Option String} {base overlay : Json}
    (hbase : Avoids fields base) (hoverlay : Avoids fields overlay) :
    Avoids fields (mergeAt policy place base overlay) := by
  induction overlay using Json.induct generalizing base place with
  | null | bool | num | str =>
    rw [mergeAt_replaces (.inr (by simp)) (.inr (by simp))]
    exact hoverlay
  | arr overlay ih =>
    cases base with
    | arr base =>
      rw [mergeAt_arr]
      split
      · rw [avoids_arr]
        intro item hm
        rcases mem_mergeRules hm with hm | hm
        · exact avoids_arr.mp hbase item hm
        · exact avoids_arr.mp hoverlay item hm
      split
      · exact hoverlay
      split
      · rw [avoids_arr]
        refine mergeItems_forall ?_ (avoids_arr.mp hbase) (avoids_arr.mp hoverlay)
        intro incoming hm existing hexisting
        exact @ih incoming hm none existing hexisting (avoids_arr.mp hoverlay incoming hm)
      · exact hoverlay
    | _ =>
      rw [mergeAt_replaces (.inr (by simp)) (.inl (by simp))]
      exact hoverlay
  | obj overlay ih =>
    cases base with
    | obj base =>
      rw [mergeAt_obj]
      induction overlay generalizing base with
      | nil => simpa using hbase
      | cons entry rest ihrest =>
        obtain ⟨key, value⟩ := entry
        obtain ⟨⟨hkey, hvalue⟩, hrest⟩ := List.forall_mem_cons.mp (avoids_obj.mp hoverlay)
        rw [mergeEntries_cons]
        refine ihrest (fun e hm => ih e (List.mem_cons_of_mem _ hm)) (avoids_obj.mpr hrest) _
          (hbase.put hkey ?_)
        cases hl : base.lookup key with
        | none => exact hvalue
        | some existing =>
          exact @ih (key, value) List.mem_cons_self (some key) existing (hbase.lookup hl).2 hvalue
    | _ =>
      rw [mergeAt_replaces (.inl (by simp)) (.inr (by simp))]
      exact hoverlay

end Avoids

end Sbctl
