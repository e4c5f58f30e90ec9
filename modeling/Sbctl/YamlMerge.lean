import Sbctl.Lib.Yaml
import Sbctl.Merge

/-!
# The YAML merge and the frozen semantics

YAML overrides are merged by a twin of the JSON merge, written a second time.
Under the default policy both implement one frozen rule: objects merge
recursively, arrays under `rules` are joined, everything else is replaced.

* `image_mergeAt`: on images of JSON values the twin does what the JSON merge
  does;
* `deepMergeWith_frozen`: the default policy is the frozen rule.
-/

namespace Sbctl

open Json Assoc

def Yaml.identifier (field : String) (item : Yaml) : Option String :=
  (item.get? field).bind Yaml.asStr?

/-- Both sequences can take part in a merge by identifier. -/
def shapedYaml (field : String) (base overlay : List Yaml) : Bool :=
  (base ++ overlay).all fun item => (Yaml.identifier field item).isSome

/-- Joins two sequences under `rules`. Other values stay as they are. -/
def mergeYamlRules (mode : RulesMode) (base overlay : Yaml) : Yaml :=
  match base, overlay with
  | .sequence base, .sequence overlay =>
    match mode with
    | .prepend => .sequence (overlay ++ base)
    | .append => .sequence (base ++ overlay)
    | .replace => .sequence overlay
  | base, _ => base

/-- What becomes of the value under a key, given the merge by an identifier
and the plain merge of the two values. -/
def chooseYamlMerge (policy : MergePolicy) (key : YamlKey) (existing value : Yaml)
    (keyed : String → Option (List Yaml)) (deep : Yaml) : Yaml :=
  if key.asStr = some "rules" ∧ existing.isSequence ∧ value.isSequence then
    mergeYamlRules policy.rules existing value
  else
    match (policy.identifierField (key.asStr.getD "")).bind keyed with
    | some items => .sequence items
    | none => deep

/-- The place of the first item with the identifier of `incoming`. -/
def findYamlItem (field : String) (incoming : Yaml) (base : List Yaml) : Option Nat :=
  base.findIdx? fun existing => Yaml.identifier field existing == Yaml.identifier field incoming

mutual

def deepMergeYamlWith (policy : MergePolicy) (base : Yaml) : (overlay : Yaml) → Yaml
  | .mapping overlay =>
    match base with
    | .mapping entries => .mapping (mergeYamlEntries policy entries overlay)
    | _ => .mapping overlay
  | overlay => overlay
termination_by structural overlay => overlay

def mergeYamlEntries (policy : MergePolicy) (base : List (YamlKey × Yaml)) :
    (overlay : List (YamlKey × Yaml)) → List (YamlKey × Yaml)
  | [] => base
  | (key, value) :: rest =>
    let merged :=
      match base.lookup key with
      | none => value
      | some existing =>
        chooseYamlMerge policy key existing value
          (fun field => mergeYamlKeyed policy field existing value)
          (deepMergeYamlWith policy existing value)
    mergeYamlEntries policy (put key merged base) rest
termination_by structural overlay => overlay

def mergeYamlKeyed (policy : MergePolicy) (field : String) (base : Yaml) :
    (overlay : Yaml) → Option (List Yaml)
  | .sequence overlay =>
    match base with
    | .sequence items =>
      if shapedYaml field items overlay then some (mergeYamlItems policy field items overlay)
      else none
    | _ => none
  | _ => none
termination_by structural overlay => overlay

def mergeYamlItems (policy : MergePolicy) (field : String) (base : List Yaml) :
    (overlay : List Yaml) → List Yaml
  | [] => base
  | incoming :: rest =>
    match findYamlItem field incoming base with
    | some j =>
      mergeYamlItems policy field
        (base.modify j fun existing => deepMergeYamlWith policy existing incoming) rest
    | none => mergeYamlItems policy field (base ++ [incoming]) rest
termination_by structural overlay => overlay

end

/-- What one key of the overlay makes of the value it finds there. -/
def mergeYamlField (policy : MergePolicy) (key : YamlKey) (existing value : Yaml) : Yaml :=
  chooseYamlMerge policy key existing value (fun field => mergeYamlKeyed policy field existing value)
    (deepMergeYamlWith policy existing value)

/-- What one incoming item makes of a sequence. -/
def mergeYamlItem (policy : MergePolicy) (field : String) (base : List Yaml) (incoming : Yaml) :
    List Yaml :=
  match findYamlItem field incoming base with
  | some j => base.modify j fun existing => deepMergeYamlWith policy existing incoming
  | none => base ++ [incoming]

/-- A merge of two values that sit under a text key, or in a sequence. -/
def mergeYamlAt (policy : MergePolicy) (place : Option String) (base overlay : Yaml) : Yaml :=
  match place with
  | none => deepMergeYamlWith policy base overlay
  | some key => mergeYamlField policy (.string key) base overlay

variable {policy : MergePolicy}

@[simp] theorem deepMergeYamlWith_mapping (entries overlay : List (YamlKey × Yaml)) :
    deepMergeYamlWith policy (.mapping entries) (.mapping overlay) =
      .mapping (mergeYamlEntries policy entries overlay) := by
  rw [deepMergeYamlWith]

theorem deepMergeYamlWith_replaces {base overlay : Yaml}
    (h : (∀ entries, base ≠ .mapping entries) ∨ ∀ entries, overlay ≠ .mapping entries) :
    deepMergeYamlWith policy base overlay = overlay := by
  cases overlay with
  | mapping overlay =>
    cases h with
    | inl h =>
      cases base with
      | mapping entries => exact absurd rfl (h entries)
      | _ => simp [deepMergeYamlWith]
    | inr h => exact absurd rfl (h overlay)
  | _ => simp [deepMergeYamlWith]

@[simp] theorem mergeYamlEntries_nil (base : List (YamlKey × Yaml)) :
    mergeYamlEntries policy base [] = base := by
  rw [mergeYamlEntries]

theorem mergeYamlEntries_cons (base : List (YamlKey × Yaml)) (key : YamlKey) (value : Yaml)
    (rest : List (YamlKey × Yaml)) :
    mergeYamlEntries policy base ((key, value) :: rest) =
      mergeYamlEntries policy
        (put key ((base.lookup key).elim value (mergeYamlField policy key · value)) base) rest := by
  rw [mergeYamlEntries]
  cases base.lookup key <;> rfl

@[simp] theorem mergeYamlItems_nil (field : String) (base : List Yaml) :
    mergeYamlItems policy field base [] = base := by
  rw [mergeYamlItems]

theorem mergeYamlItems_cons (field : String) (base : List Yaml) (incoming : Yaml)
    (rest : List Yaml) :
    mergeYamlItems policy field base (incoming :: rest) =
      mergeYamlItems policy field (mergeYamlItem policy field base incoming) rest := by
  rw [mergeYamlItems, mergeYamlItem]
  cases findYamlItem field incoming base <;> rfl

theorem lookup_mergeYamlEntries {base overlay : List (YamlKey × Yaml)}
    (hnodup : (overlay.map Prod.fst).Nodup) (k : YamlKey) :
    (mergeYamlEntries policy base overlay).lookup k =
      match overlay.lookup k with
      | none => base.lookup k
      | some value => some ((base.lookup k).elim value (mergeYamlField policy k · value)) := by
  induction overlay generalizing base with
  | nil => simp
  | cons entry rest ih =>
    obtain ⟨key, value⟩ := entry
    obtain ⟨hfresh, hrest⟩ := List.nodup_cons.mp hnodup
    rw [mergeYamlEntries_cons, ih hrest, lookup_put, lookup_cons_ite]
    by_cases hk : k = key
    · subst hk
      rw [lookup_eq_none hfresh]
      simp
    · simp [hk]

theorem nodup_mergeYamlEntries {base : List (YamlKey × Yaml)}
    (hbase : (base.map Prod.fst).Nodup) (overlay : List (YamlKey × Yaml)) :
    ((mergeYamlEntries policy base overlay).map Prod.fst).Nodup := by
  induction overlay generalizing base with
  | nil => simpa using hbase
  | cons entry rest ih =>
    rw [mergeYamlEntries_cons]
    exact ih (nodup_put hbase _ _)

theorem nodup_mergeEntries {base : List (String × Json)} (hbase : (base.map Prod.fst).Nodup)
    (overlay : List (String × Json)) :
    ((mergeEntries policy base overlay).map Prod.fst).Nodup := by
  induction overlay generalizing base with
  | nil => simpa using hbase
  | cons entry rest ih =>
    rw [mergeEntries_cons]
    exact ih (nodup_put hbase _ _)

/-! ## Items of two arrays -/

theorem image_identifier {field : String} {item : Json} {y : Yaml} (h : Image item y) :
    Yaml.identifier field y = identifier field item := by
  have hvalue := h.get? field
  unfold Yaml.identifier Sbctl.identifier
  cases hv : item.get? field with
  | none =>
    rw [hv] at hvalue
    rw [rel_none hvalue]
    rfl
  | some value =>
    rw [hv] at hvalue
    obtain ⟨image, hy, himage⟩ := rel_some hvalue
    rw [hy]
    exact himage.asStr?

theorem image_identifiers {field : String} {items : List Json} {images : List Yaml}
    (h : List.Forall₂ Image items images) :
    images.map (Yaml.identifier field) = items.map (identifier field) := by
  induction h with
  | nil => rfl
  | cons hitem _ ih => rw [List.map_cons, List.map_cons, image_identifier hitem, ih]

theorem image_shaped {field : String} {base overlay : List Json} {images overlays : List Yaml}
    (hbase : List.Forall₂ Image base images) (hoverlay : List.Forall₂ Image overlay overlays) :
    shapedYaml field images overlays = shaped field base overlay := by
  have hids : (images ++ overlays).map (Yaml.identifier field) =
      (base ++ overlay).map (identifier field) :=
    image_identifiers (List.rel_append hbase hoverlay)
  have hyaml : shapedYaml field images overlays =
      ((images ++ overlays).map (Yaml.identifier field)).all Option.isSome := by
    rw [List.all_map]
    rfl
  have hjson : shaped field base overlay =
      ((base ++ overlay).map (identifier field)).all Option.isSome := by
    rw [List.all_map]
    rfl
  rw [hyaml, hjson, hids]

theorem image_findItem {field : String} {base : List Json} {images : List Yaml} {incoming : Json}
    {y : Yaml} (hbase : List.Forall₂ Image base images) (hincoming : Image incoming y) :
    findYamlItem field y images = findItem field incoming base := by
  have hyaml : findYamlItem field y images =
      (images.map (Yaml.identifier field)).findIdx? (· == Yaml.identifier field y) := by
    rw [findYamlItem, List.findIdx?_map]
    rfl
  rw [hyaml, findItem_eq_map, image_identifiers hbase, image_identifier hincoming]

theorem forall₂_modify {α β : Type} {R : α → β → Prop} {f : α → α} {g : β → β}
    (hfg : ∀ a b, R a b → R (f a) (g b)) (j : Nat) {as : List α} {bs : List β}
    (h : List.Forall₂ R as bs) : List.Forall₂ R (as.modify j f) (bs.modify j g) := by
  induction h generalizing j with
  | nil => simp
  | cons hab hrest ih =>
    cases j with
    | zero => exact .cons (hfg _ _ hab) hrest
    | succ j => exact .cons hab (ih j)

/-- Merging items one by one keeps two arrays images of each other, if merging
two items does. -/
theorem image_mergeItems {field : String} {overlay base : List Json} {overlays images : List Yaml}
    (merge : ∀ incoming ∈ overlay, ∀ y, Image incoming y → ∀ existing image, Image existing image →
      Image (deepMergeWith policy existing incoming) (deepMergeYamlWith policy image y))
    (hbase : List.Forall₂ Image base images) (hoverlay : List.Forall₂ Image overlay overlays) :
    List.Forall₂ Image (mergeItems policy field base overlay)
      (mergeYamlItems policy field images overlays) := by
  induction hoverlay generalizing base images with
  | nil => simpa using hbase
  | @cons incoming y rest ys hincoming _ ih =>
    rw [mergeItems_cons, mergeYamlItems_cons]
    refine ih (fun o ho => merge o (List.mem_cons_of_mem _ ho)) ?_
    unfold mergeItem mergeYamlItem
    rw [image_findItem hbase hincoming]
    cases findItem field incoming base with
    | none => exact List.rel_append hbase (.cons hincoming .nil)
    | some j => exact forall₂_modify (merge incoming List.mem_cons_self y hincoming) j hbase

/-! ## The two merges -/

theorem mergeYamlAt_mapping (place : Option String) (entries overlay : List (YamlKey × Yaml)) :
    mergeYamlAt policy place (.mapping entries) (.mapping overlay) =
      .mapping (mergeYamlEntries policy entries overlay) := by
  cases place with
  | none => exact deepMergeYamlWith_mapping entries overlay
  | some key =>
    have hkeyed : (policy.identifierField key).bind
        (fun field => mergeYamlKeyed policy field (.mapping entries) (.mapping overlay)) = none := by
      cases policy.identifierField key <;> simp [mergeYamlKeyed]
    simp [mergeYamlAt, mergeYamlField, chooseYamlMerge, Yaml.isSequence, YamlKey.asStr, hkeyed]

theorem mergeYamlAt_replaces {place : Option String} {base overlay : Yaml}
    (hmapping : (∀ entries, base ≠ .mapping entries) ∨ ∀ entries, overlay ≠ .mapping entries)
    (hsequence : (∀ items, base ≠ .sequence items) ∨ ∀ items, overlay ≠ .sequence items) :
    mergeYamlAt policy place base overlay = overlay := by
  have hdeep : deepMergeYamlWith policy base overlay = overlay :=
    deepMergeYamlWith_replaces hmapping
  have hkeyed (field : String) : mergeYamlKeyed policy field base overlay = none := by
    cases overlay with
    | sequence overlay =>
      cases base with
      | sequence items => cases hsequence <;> rename_i h <;> exact absurd rfl (h _)
      | _ => simp [mergeYamlKeyed]
    | _ => simp [mergeYamlKeyed]
  cases place with
  | none => exact hdeep
  | some key =>
    have hneither : ¬ (base.isSequence = true ∧ overlay.isSequence = true) := by
      rintro ⟨hb, ho⟩
      cases base <;> cases hb
      cases overlay <;> cases ho
      cases hsequence <;> rename_i h <;> exact absurd rfl (h _)
    rw [mergeYamlAt, mergeYamlField, chooseYamlMerge, if_neg fun h => hneither h.2]
    cases policy.identifierField ((YamlKey.string key).asStr.getD "") <;> simp [hkeyed, hdeep]

theorem mergeYamlAt_sequence (place : Option String) (base overlay : List Yaml) :
    mergeYamlAt policy place (.sequence base) (.sequence overlay) =
      if place = some "rules" then
        mergeYamlRules policy.rules (.sequence base) (.sequence overlay)
      else
        match keyedBy policy place with
        | none => .sequence overlay
        | some field =>
          if shapedYaml field base overlay then
            .sequence (mergeYamlItems policy field base overlay)
          else .sequence overlay := by
  have hdeep : deepMergeYamlWith policy (.sequence base) (.sequence overlay) = .sequence overlay :=
    deepMergeYamlWith_replaces (.inl (by simp))
  cases place with
  | none => simp [mergeYamlAt, keyedBy, hdeep]
  | some key =>
    by_cases hrules : key = "rules"
    · simp [mergeYamlAt, mergeYamlField, chooseYamlMerge, Yaml.isSequence, YamlKey.asStr, hrules]
    · simp only [mergeYamlAt, mergeYamlField, chooseYamlMerge, YamlKey.asStr, keyedBy,
        mergeYamlKeyed, hdeep, Option.some.injEq, hrules, false_and, if_false,
        Option.getD_some]
      cases policy.identifierField key with
      | none => rfl
      | some field => cases hshaped : shapedYaml field base overlay <;> simp [hshaped]

theorem image_mergeRules (mode : RulesMode) {base overlay : List Json} {images overlays : List Yaml}
    (hbase : List.Forall₂ Image base images) (hoverlay : List.Forall₂ Image overlay overlays) :
    Image (.arr (mergeRules mode base overlay))
      (mergeYamlRules mode (.sequence images) (.sequence overlays)) := by
  cases mode with
  | prepend => exact .sequence (List.rel_append hoverlay hbase)
  | append => exact .sequence (List.rel_append hbase hoverlay)
  | replace => exact .sequence hoverlay

theorem image_mergeEntries {entries overlay : List (String × Json)}
    {images overlays : List (YamlKey × Yaml)}
    (merge : ∀ key value y, overlay.lookup key = some value → Image value y →
      ∀ existing image, Image existing image →
        Image (mergeField policy key existing value)
          (mergeYamlField policy (.string key) image y))
    (hbase : Image (.obj entries) (.mapping images))
    (hoverlay : Image (.obj overlay) (.mapping overlays)) :
    Image (.obj (mergeEntries policy entries overlay))
      (.mapping (mergeYamlEntries policy images overlays)) := by
  obtain _ | _ | _ | _ | _ | ⟨hnodup, hkeys, htexts, hinside⟩ := hbase
  obtain _ | _ | _ | _ | _ | ⟨honodup, hokeys, hotexts, hoinside⟩ := hoverlay
  refine .mapping (nodup_mergeEntries hnodup overlay) (nodup_mergeYamlEntries hkeys overlays) ?_ ?_
  · intro key hkey
    rw [lookup_mergeYamlEntries hokeys, hotexts key hkey]
    exact htexts key hkey
  · intro key
    have hvalue := hoinside key
    have hexisting := hinside key
    rw [lookup_mergeEntries honodup, lookup_mergeYamlEntries hokeys]
    cases hv : overlay.lookup key with
    | none =>
      rw [hv] at hvalue
      rw [rel_none hvalue]
      exact hexisting
    | some value =>
      rw [hv] at hvalue
      obtain ⟨y, hy, himage⟩ := rel_some hvalue
      rw [hy]
      refine .some ?_
      cases hb : entries.lookup key with
      | none =>
        rw [hb] at hexisting
        rw [rel_none hexisting]
        exact himage
      | some existing =>
        rw [hb] at hexisting
        obtain ⟨image, hi, hexisting⟩ := rel_some hexisting
        rw [hi]
        exact merge key value y hv himage existing image hexisting

/-- The induction is on the overlay, as both merges recurse on it. -/
theorem image_mergeAt {place : Option String} {base overlay : Json} {image y : Yaml}
    (hbase : Image base image) (hoverlay : Image overlay y) :
    Image (mergeAt policy place base overlay) (mergeYamlAt policy place image y) := by
  induction overlay using Json.induct generalizing base image y place with
  | null | bool | num | str =>
    rw [mergeAt_replaces (.inr (by simp)) (.inr (by simp))]
    cases hoverlay
    rw [mergeYamlAt_replaces (.inr (by simp)) (.inr (by simp))]
    constructor
  | arr overlay ih =>
    obtain _ | _ | _ | _ | hitems := hoverlay
    rename_i overlays
    cases hbase with
    | @sequence items images hinside =>
      rw [mergeAt_arr, mergeYamlAt_sequence]
      split
      · exact image_mergeRules policy.rules hinside hitems
      cases keyedBy policy place with
      | none => exact .sequence hitems
      | some field =>
        simp only [image_shaped hinside hitems]
        split
        · refine .sequence (image_mergeItems ?_ hinside hitems)
          intro incoming hincoming y hy existing image hexisting
          exact @ih incoming hincoming none existing image y hexisting hy
        · exact .sequence hitems
    | _ =>
      rw [mergeAt_replaces (.inr (by simp)) (.inl (by simp)),
        mergeYamlAt_replaces (.inr (by simp)) (.inl (by simp))]
      exact .sequence hitems
  | obj overlay ih =>
    cases hbase with
    | mapping distinct distinctKeys texts inside =>
      have hbase : Image (.obj _) (.mapping _) := .mapping distinct distinctKeys texts inside
      cases hoverlay with
      | mapping odistinct odistinctKeys otexts oinside =>
        rw [mergeAt_obj, mergeYamlAt_mapping]
        refine image_mergeEntries ?_ hbase (.mapping odistinct odistinctKeys otexts oinside)
        intro key value y hvalue hy existing image hexisting
        exact @ih (key, value) (mem_of_lookup hvalue) (some key) existing image y hexisting hy
    | _ =>
      rw [mergeAt_replaces (.inl (by simp)) (.inr (by simp))]
      cases hoverlay with
      | mapping odistinct odistinctKeys otexts oinside =>
        rw [mergeYamlAt_replaces (.inl (by simp)) (.inr (by simp))]
        exact .mapping odistinct odistinctKeys otexts oinside

/-! ## The frozen semantics -/

mutual

/-- What an overlay means under the frozen rule; `rules` says that the values
sit under that key. -/
def frozenMerge (rules : Bool) : (base : Json) → (overlay : Json) → Json
  | .obj base, .obj overlay =>
    .obj (frozenEntries overlay base ++
      overlay.filter fun entry => (base.lookup entry.1).isNone)
  | .arr base, .arr overlay => if rules then .arr (overlay ++ base) else .arr overlay
  | _, overlay => overlay
termination_by structural base => base

/-- The entries of the base, merged with what the overlay has under their
keys. -/
def frozenEntries (overlay : List (String × Json)) :
    (base : List (String × Json)) → List (String × Json)
  | [] => []
  | (key, value) :: rest =>
    (key, (overlay.lookup key).elim value (frozenMerge (key == "rules") value)) ::
      frozenEntries overlay rest
termination_by structural base => base

end

theorem frozenEntries_eq_map (overlay base : List (String × Json)) :
    frozenEntries overlay base = base.map fun entry => (entry.1,
      (overlay.lookup entry.1).elim entry.2 (frozenMerge (entry.1 == "rules") entry.2)) := by
  induction base with
  | nil => rw [frozenEntries, List.map_nil]
  | cons entry rest ih => rw [frozenEntries, ih, List.map_cons]

/-- The entries of a merged object, in their order: those of the base, then the
new ones. -/
theorem mergeEntries_eq {base overlay : List (String × Json)}
    (hbase : (base.map Prod.fst).Nodup) (hoverlay : (overlay.map Prod.fst).Nodup) :
    mergeEntries policy base overlay =
      (base.map fun entry => (entry.1,
        (overlay.lookup entry.1).elim entry.2 (mergeField policy entry.1 entry.2))) ++
      overlay.filter fun entry => (base.lookup entry.1).isNone := by
  induction overlay generalizing base with
  | nil => simp
  | cons entry rest ih =>
    obtain ⟨key, value⟩ := entry
    obtain ⟨hfresh, hrest⟩ := List.nodup_cons.mp hoverlay
    have hgone : rest.lookup key = none := lookup_eq_none hfresh
    rw [mergeEntries_cons, ih (nodup_put hbase _ _) hrest]
    have hfilter (merged : Json) :
        (rest.filter fun e => ((put key merged base).lookup e.1).isNone) =
          rest.filter fun e => (base.lookup e.1).isNone := by
      apply List.filter_congr
      intro e he
      have hmem : e.1 ∈ rest.map Prod.fst := List.mem_map_of_mem he
      have hne : e.1 ≠ key := fun heq => hfresh (heq ▸ hmem)
      rw [lookup_put, if_neg hne]
    rw [hfilter]
    have hother {k : String} (hk : k ≠ key) :
        List.lookup k ((key, value) :: rest) = rest.lookup k := by
      rw [lookup_cons_ite, if_neg hk]
    by_cases hkey : key ∈ base.map Prod.fst
    · obtain ⟨existing, hexisting⟩ := Option.isSome_iff_exists.mp (lookup_isSome.mpr hkey)
      rw [hexisting, List.filter_cons_of_neg (by simp [hexisting]), put_eq_map hbase hkey,
        List.map_map]
      congr 1
      apply List.map_congr_left
      rintro ⟨k, v⟩ hentry
      by_cases hk : k = key
      · subst hk
        have hv : v = existing := by
          rw [lookup_of_mem hbase hentry] at hexisting
          exact Option.some.inj hexisting
        simp [hgone, hv]
      · simp [hk, hother hk]
    · rw [lookup_eq_none hkey, List.filter_cons_of_pos (by simp [lookup_eq_none hkey]),
        put_of_fresh hkey, List.map_append, List.append_assoc]
      congr 1
      · apply List.map_congr_left
        rintro ⟨k, v⟩ hentry
        have hk : k ≠ key := fun heq => hkey (heq ▸ List.mem_map_of_mem hentry)
        rw [hother hk]
      · simp [hgone]

/-- Under the default policy a merge is the frozen rule. -/
theorem mergeAt_frozen {place : Option String} {base overlay : Json} (hbase : base.WellFormed)
    (hoverlay : overlay.WellFormed) :
    mergeAt {} place base overlay = frozenMerge (place == some "rules") base overlay := by
  induction overlay using Json.induct generalizing base place with
  | null | bool | num | str =>
    rw [mergeAt_replaces (.inr (by simp)) (.inr (by simp))]
    cases base <;> simp [frozenMerge]
  | arr overlay =>
    cases base with
    | arr items =>
      have hkeyed : keyedBy {} place = none := by
        cases place <;> simp [keyedBy, MergePolicy.identifierField]
      rw [mergeAt_arr, hkeyed]
      simp only [frozenMerge, beq_iff_eq, mergeRules]
    | _ =>
      rw [mergeAt_replaces (.inr (by simp)) (.inl (by simp))]
      simp [frozenMerge]
  | obj overlay ih =>
    cases base with
    | obj entries =>
      rw [mergeAt_obj, mergeEntries_eq hbase.nodup hoverlay.nodup, frozenMerge,
        frozenEntries_eq_map]
      congr 2
      apply List.map_congr_left
      rintro ⟨k, v⟩ hentry
      cases hvalue : overlay.lookup k with
      | none => rfl
      | some value =>
        have hmem := mem_of_lookup hvalue
        have hmerged := @ih (k, value) hmem (some k) v (hbase.value hentry) (hoverlay.value hmem)
        simpa [mergeAt] using hmerged
    | _ =>
      rw [mergeAt_replaces (.inl (by simp)) (.inr (by simp))]
      simp [frozenMerge]

/-! ## The result -/

/-- A JSON document names no key of an object twice. -/
structure JsonDocument where
  value : Json
  wellFormed : value.WellFormed

/-- Under every policy the merge of two documents and the merge of their YAML
conversions hold the same; under the default one both are the frozen rule. -/
theorem merges_agree (policy : MergePolicy) (base overlay : JsonDocument) :
    Image (deepMergeWith policy base.value overlay.value)
      (deepMergeYamlWith policy base.value.toYaml overlay.value.toYaml) ∧
    deepMergeWith {} base.value overlay.value = frozenMerge false base.value overlay.value ∧
    Image (frozenMerge false base.value overlay.value)
      (deepMergeYamlWith {} base.value.toYaml overlay.value.toYaml) := by
  have himages (policy : MergePolicy) : Image (deepMergeWith policy base.value overlay.value)
      (deepMergeYamlWith policy base.value.toYaml overlay.value.toYaml) :=
    @image_mergeAt policy none base.value overlay.value _ _ (image_toYaml base.wellFormed)
      (image_toYaml overlay.wellFormed)
  have hfrozen : deepMergeWith {} base.value overlay.value =
      frozenMerge false base.value overlay.value :=
    @mergeAt_frozen none base.value overlay.value base.wellFormed overlay.wellFormed
  exact ⟨himages policy, hfrozen, hfrozen ▸ himages {}⟩

/-- A document with an array of named items, the rules and a mode. -/
def sampleDocument (items : List Json) (rule mode : String) (hitems : ∀ item ∈ items,
    item.WellFormed) : JsonDocument where
  value := .obj [("outbounds", .arr items), ("rules", .arr [.str rule]), ("mode", .str mode)]
  wellFormed := by
    refine .obj (by simp) fun entry hentry => ?_
    simp only [List.mem_cons, List.not_mem_nil, or_false] at hentry
    obtain rfl | rfl | rfl := hentry
    · exact .arr hitems
    · exact .arr (List.forall_mem_singleton.mpr (.str rule))
    · exact .str mode

theorem wellFormed_named (tag port : String) :
    (Json.obj [("tag", .str tag), ("port", .num port)]).WellFormed := by
  refine .obj (by simp) fun entry hentry => ?_
  simp only [List.mem_cons, List.not_mem_nil, or_false] at hentry
  obtain rfl | rfl := hentry
  · exact .str tag
  · exact .num port

def sampleBase : JsonDocument :=
  sampleDocument [.obj [("tag", .str "a"), ("port", .num "1")]] "x" "old"
    (List.forall_mem_singleton.mpr (wellFormed_named "a" "1"))

def sampleOverlay : JsonDocument :=
  sampleDocument [.obj [("tag", .str "b"), ("port", .num "3")],
      .obj [("tag", .str "a"), ("port", .num "2")]] "y" "new"
    (List.forall_mem_cons.mpr ⟨wellFormed_named "b" "3",
      List.forall_mem_singleton.mpr (wellFormed_named "a" "2")⟩)

/-- By identifier the items are merged, and by default the arrays are replaced. -/
theorem merges_agree_sample :
    Image (.obj [("outbounds", .arr [.obj [("tag", .str "a"), ("port", .num "2")],
        .obj [("tag", .str "b"), ("port", .num "3")]]),
          ("rules", .arr [.str "y", .str "x"]), ("mode", .str "new")])
        (deepMergeYamlWith { keyedArrays := [("outbounds", "tag")] } sampleBase.value.toYaml
          sampleOverlay.value.toYaml) ∧
      Image (.obj [("outbounds", .arr [.obj [("tag", .str "b"), ("port", .num "3")],
        .obj [("tag", .str "a"), ("port", .num "2")]]),
          ("rules", .arr [.str "y", .str "x"]), ("mode", .str "new")])
        (deepMergeYamlWith {} sampleBase.value.toYaml sampleOverlay.value.toYaml) :=
  ⟨(merges_agree { keyedArrays := [("outbounds", "tag")] } sampleBase sampleOverlay).1,
    (merges_agree {} sampleBase sampleOverlay).1⟩

end Sbctl
