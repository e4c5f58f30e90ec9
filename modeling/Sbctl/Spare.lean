import Sbctl.Merge
import Mathlib.Data.Nat.Find

/-!
# What a merge leaves alone

Some fields of a generated value are protected. An override that names none of
them can still remove one, by replacing a value around it. `Spares` says, along
a path of the generated value, that an override does not.

* `mergeAt_agrees`: what was left alone so far stays so under an override that
  spares it;
* `mergeAt_lost`: what was lost stays lost;
* `someLost_of_not_sparesAll`: an override that does not spare everything loses
  something.
-/

namespace Sbctl

open Json Assoc

/-- Along the path, merging `overlay` over `base` touches nothing. -/
def Spares (policy : MergePolicy) : Option String → Path → Json → Json → Prop
  | _, .key k :: path, .obj entries, .obj overlay =>
    ∀ v o, entries.lookup k = some v → overlay.lookup k = some o → Spares policy (some k) path v o
  | place, .index i :: path, .arr items, .arr overlay =>
    if place = some "rules" then
      match policy.rules with
      | .prepend => overlay = []
      | .append => True
      | .replace => False
    else
      match keyedBy policy place with
      | none => False
      | some field =>
        shaped field items overlay = true ∧
          ∀ item o, items[i]? = some item → findItem field o items = some i → o ∈ overlay →
            Spares policy none path item o
  | _, _, _, _ => False

/-- An array that grew out of another by merges that spared a path into it. -/
def Grown (policy : MergePolicy) (place : Option String) (items grown : List Json) : Prop :=
  if place = some "rules" then items <+: grown
  else
    ∀ field, keyedBy policy place = some field →
      if shaped field items [] then Keyed field items grown else grown = items

/-- Along the path, the merged value still is what the generated one was. -/
def Agrees (policy : MergePolicy) : Option String → Path → Json → Json → Prop
  | _, [], v, w => v = w
  | _, .key k :: path, v, w =>
    ∃ entries merged v' w', v = .obj entries ∧ w = .obj merged ∧ entries.lookup k = some v' ∧
      merged.lookup k = some w' ∧ Agrees policy (some k) path v' w'
  | place, .index i :: path, v, w =>
    ∃ items grown v' w', v = .arr items ∧ w = .arr grown ∧ items[i]? = some v' ∧
      grown[i]? = some w' ∧ Grown policy place items grown ∧ Agrees policy none path v' w'

/-- Along the path, nothing protected can come back. -/
def Lost (fields : List String) : Option String → Path → Json → Prop
  | _, [], v => Avoids fields v
  | _, .key k :: path, v =>
    Avoids fields v ∨ k ∉ fields ∧
      ∃ entries w, v = .obj entries ∧ entries.lookup k = some w ∧ Lost fields (some k) path w
  | place, .index i :: path, v =>
    Avoids fields v ∨
      ∃ items, v = .arr items ∧
        if place = some "rules" then ∀ j ≤ i, ∀ item, items[j]? = some item → Avoids fields item
        else ∃ item, items[i]? = some item ∧ Lost fields none path item

variable {policy : MergePolicy} {fields : List String}

theorem Lost.of_avoids {place : Option String} {path : Path} {v : Json} (h : Avoids fields v) :
    Lost fields place path v := by
  match path with
  | [] => exact h
  | .key _ :: _ => exact .inl h
  | .index _ :: _ => exact .inl h

theorem Lost.at?_eq_none {place : Option String} {path : Path} {v : Json}
    (h : Lost fields place path v) (hpath : Outermost fields path) : at? path v = none := by
  induction path generalizing place v with
  | nil => exact absurd hpath id
  | cons step path ih =>
    cases step with
    | key k =>
      rcases h with h | ⟨hk, entries, w, rfl, hl, hw⟩
      · exact h.at?_eq_none hpath
      · rw [Outermost, if_neg hk] at hpath
        simp [hl, ih hw hpath]
    | index i =>
      rcases h with h | ⟨items, rfl, h⟩
      · exact h.at?_eq_none hpath
      have hrest : Outermost fields path := hpath
      split at h
      · rw [at?_index]
        cases hi : items[i]? with
        | none => rfl
        | some item => exact (h i (Nat.le_refl i) item hi).at?_eq_none hrest
      · obtain ⟨item, hi, hitem⟩ := h
        simp [hi, ih hitem hrest]

theorem Grown.refl (place : Option String) (items : List Json) :
    Grown policy place items items := by
  unfold Grown
  split
  · exact List.prefix_refl _
  · intro field _
    split
    · rename_i h
      exact .refl (shaped_iff.mp h).1
    · rfl

theorem Agrees.refl {place : Option String} {path : Path} {v u : Json}
    (h : at? path v = some u) : Agrees policy place path v v := by
  induction path generalizing place v with
  | nil => exact rfl
  | cons step path ih =>
    cases step with
    | key k =>
      obtain ⟨entries, w, rfl, hl, hw⟩ := at?_key_eq_some.mp h
      exact ⟨entries, entries, w, w, rfl, rfl, hl, hl, ih hw⟩
    | index i =>
      obtain ⟨items, w, rfl, hi, hw⟩ := at?_index_eq_some.mp h
      exact ⟨items, items, w, w, rfl, rfl, hi, hi, .refl place items, ih hw⟩

theorem Agrees.at?_eq {place : Option String} {path : Path} {v w : Json}
    (h : Agrees policy place path v w) : at? path w = at? path v := by
  induction path generalizing place v w with
  | nil => exact congrArg some (Eq.symm h)
  | cons step path ih =>
    cases step with
    | key k =>
      obtain ⟨entries, merged, v', w', rfl, rfl, hv, hw, h⟩ := h
      simp [hv, hw, ih h]
    | index i =>
      obtain ⟨items, grown, v', w', rfl, rfl, hv, hw, _, h⟩ := h
      simp [hv, hw, ih h]

/-- **What was left alone stays so** under an override that spares it. -/
theorem mergeAt_agrees {place : Option String} {path : Path} {v w o : Json}
    (hwf : o.WellFormed) (havoids : Avoids fields o) (hpath : Outermost fields path)
    (agrees : Agrees policy place path v w) (spares : Spares policy place path v o) :
    Agrees policy place path v (mergeAt policy place w o) := by
  induction path generalizing place v w o with
  | nil => exact absurd hpath id
  | cons step path ih =>
    cases step with
    | key k =>
      obtain ⟨entries, merged, v', w', rfl, rfl, hv, hw, hagree⟩ := agrees
      cases o with
      | obj overlay =>
        rw [mergeAt_obj]
        cases ho : overlay.lookup k with
        | none =>
          refine ⟨entries, _, v', w', rfl, rfl, hv, ?_, hagree⟩
          rw [lookup_mergeEntries_none hwf.nodup ho, hw]
        | some o' =>
          obtain ⟨hk, havoids'⟩ := havoids.lookup ho
          rw [Outermost, if_neg hk] at hpath
          refine ⟨entries, _, v', _, rfl, rfl, hv, lookup_mergeEntries_some hwf.nodup hw ho, ?_⟩
          exact ih (hwf.value (mem_of_lookup ho)) havoids' hpath hagree (spares v' o' hv ho)
      | _ => exact absurd spares id
    | index i =>
      obtain ⟨items, grown, v', w', rfl, rfl, hv, hw, hgrown, hagree⟩ := agrees
      cases o with
      | arr overlay =>
        rw [mergeAt_arr]
        unfold Grown at hgrown
        unfold Spares at spares
        by_cases hrules : place = some "rules"
        · rw [if_pos hrules] at spares hgrown ⊢
          cases hmode : policy.rules with
          | prepend =>
            rw [hmode] at spares
            subst spares
            refine ⟨items, _, v', w', rfl, rfl, hv, hw, ?_, hagree⟩
            rw [Grown, if_pos hrules]
            exact hgrown
          | append =>
            refine ⟨items, _, v', w', rfl, rfl, hv, ?_, ?_, hagree⟩
            · rw [mergeRules, List.getElem?_append_left (List.getElem?_eq_some_iff.mp hw).1, hw]
            · rw [Grown, if_pos hrules]
              exact hgrown.trans (List.prefix_append _ _)
          | replace => simp [hmode] at spares
        · rw [if_neg hrules] at spares hgrown ⊢
          cases hfield : keyedBy policy place with
          | none => simp [hfield] at spares
          | some field =>
            rw [hfield] at spares
            obtain ⟨hshaped, hinto⟩ := spares
            obtain ⟨hitems, hoverlay⟩ := shaped_iff.mp hshaped
            have hkeyed : Keyed field items grown := by
              have h := hgrown field hfield
              rwa [if_pos (shaped_iff.mpr ⟨hitems, by simp⟩)] at h
            have hwfs : ∀ o ∈ overlay, o.WellFormed := fun o ho => hwf.item ho
            obtain ⟨w'', hw'', hagree'⟩ := @Keyed.mergeItems_at policy field items grown overlay i
              (Agrees policy none path v') hkeyed hwfs hoverlay (List.getElem?_eq_some_iff.mp hv).1
              ⟨w', hw, hagree⟩ fun o ho hfound w hw =>
                ih (hwf.item ho) (avoids_arr.mp havoids o ho) hpath hw (hinto v' o hv hfound ho)
            simp only [if_pos (shaped_iff.mpr ⟨hkeyed.shaped, hoverlay⟩)]
            refine ⟨items, _, v', w'', rfl, rfl, hv, hw'', ?_, hagree'⟩
            rw [Grown, if_neg hrules]
            intro field' hfield'
            rw [hfield, Option.some.injEq] at hfield'
            subst hfield'
            rw [if_pos (shaped_iff.mpr ⟨hitems, by simp⟩)]
            exact hkeyed.mergeItems hwfs hoverlay
      | _ => exact absurd spares id

theorem mem_or_of_append {α : Type} {overlay base : List α} {j : Nat} {item : α}
    (h : (overlay ++ base)[j]? = some item) :
    item ∈ overlay ∨ overlay.length ≤ j ∧ base[j - overlay.length]? = some item := by
  rw [List.getElem?_append] at h
  split at h
  · exact .inl (List.mem_of_getElem? h)
  · exact .inr ⟨Nat.le_of_not_lt ‹_›, h⟩

theorem mergeRules_avoids {mode : RulesMode} {base overlay : List Json} {i : Nat}
    (hoverlay : ∀ o ∈ overlay, Avoids fields o)
    (hbase : ∀ j ≤ i, ∀ item, base[j]? = some item → Avoids fields item) :
    ∀ j ≤ i, ∀ item, (mergeRules mode base overlay)[j]? = some item → Avoids fields item := by
  intro j hj item h
  cases mode with
  | prepend =>
    rcases mem_or_of_append h with h | ⟨_, h⟩
    · exact hoverlay item h
    · exact hbase _ (Nat.le_trans (Nat.sub_le _ _) hj) item h
  | append =>
    rw [mergeRules, List.getElem?_append] at h
    split at h
    · exact hbase j hj item h
    · exact hoverlay item (List.mem_of_getElem? h)
  | replace => exact hoverlay item (List.mem_of_getElem? h)

/-- **What was lost stays lost.** -/
theorem mergeAt_lost {place : Option String} {path : Path} {w o : Json} (hwf : o.WellFormed)
    (havoids : Avoids fields o) (lost : Lost fields place path w) :
    Lost fields place path (mergeAt policy place w o) := by
  induction path generalizing place w o with
  | nil => exact avoids_mergeAt lost havoids
  | cons step path ih =>
    cases step with
    | key k =>
      rcases lost with lost | ⟨hk, entries, w', rfl, hw, lost⟩
      · exact .of_avoids (avoids_mergeAt lost havoids)
      cases o with
      | obj overlay =>
        rw [mergeAt_obj]
        cases ho : overlay.lookup k with
        | none =>
          exact .inr ⟨hk, _, w', rfl, by rw [lookup_mergeEntries_none hwf.nodup ho, hw], lost⟩
        | some o' =>
          refine .inr ⟨hk, _, _, rfl, lookup_mergeEntries_some hwf.nodup hw ho, ?_⟩
          exact ih (hwf.value (mem_of_lookup ho)) (havoids.lookup ho).2 lost
      | _ =>
        rw [mergeAt_replaces (.inr (by simp)) (.inl (by simp))]
        exact .of_avoids havoids
    | index i =>
      rcases lost with lost | ⟨items, rfl, lost⟩
      · exact .of_avoids (avoids_mergeAt lost havoids)
      cases o with
      | arr overlay =>
        rw [mergeAt_arr]
        split at lost
        · rename_i hrules
          rw [if_pos hrules]
          refine .inr ⟨_, rfl, ?_⟩
          rw [if_pos hrules]
          exact mergeRules_avoids (avoids_arr.mp havoids) lost
        · rename_i hrules
          rw [if_neg hrules]
          obtain ⟨w', hw, lost⟩ := lost
          split
          · exact .of_avoids havoids
          split
          · rename_i field hfield hshaped
            obtain ⟨hitems, hoverlay⟩ := shaped_iff.mp hshaped
            refine .inr ⟨_, rfl, ?_⟩
            rw [if_neg hrules]
            exact (Keyed.refl hitems).mergeItems_at (P := Lost fields none path)
              (fun o ho => hwf.item ho) hoverlay (List.getElem?_eq_some_iff.mp hw).1 ⟨w', hw, lost⟩
              fun o ho _ w hw => ih (hwf.item ho) (avoids_arr.mp havoids o ho) hw
          · exact .of_avoids havoids
      | _ =>
        rw [mergeAt_replaces (.inl (by simp)) (.inr (by simp))]
        exact .of_avoids havoids

/-- A protected field of the value. -/
def Protects (fields : List String) (path : Path) (v : Json) : Prop :=
  Outermost fields path ∧ ∃ u, at? path v = some u

theorem Protects.key {k : String} {path : Path} {entries : List (String × Json)} {v : Json}
    (hk : k ∉ fields) (hl : entries.lookup k = some v) (h : Protects fields path v) :
    Protects fields (.key k :: path) (.obj entries) := by
  refine ⟨?_, ?_⟩
  · rw [Outermost, if_neg hk]
    exact h.1
  · simpa [hl] using h.2

theorem Protects.index {i : Nat} {path : Path} {items : List Json} {v : Json}
    (hi : items[i]? = some v) (h : Protects fields path v) :
    Protects fields (.index i :: path) (.arr items) :=
  ⟨h.1, by simpa [hi] using h.2⟩

theorem protects_of_not_avoids {v : Json} (hwf : v.WellFormed) (h : ¬ Avoids fields v) :
    ∃ path, Protects fields path v := by
  induction v using Json.induct with
  | null => exact absurd .null h
  | bool b => exact absurd (.bool b) h
  | num n => exact absurd (.num n) h
  | str s => exact absurd (.str s) h
  | arr items ih =>
    rw [avoids_arr] at h
    push Not at h
    obtain ⟨item, hm, hitem⟩ := h
    obtain ⟨path, hpath⟩ := ih item hm (hwf.item hm) hitem
    obtain ⟨i, hi⟩ := List.mem_iff_getElem?.mp hm
    exact ⟨_, hpath.index hi⟩
  | obj entries ih =>
    rw [avoids_obj] at h
    push Not at h
    obtain ⟨⟨k, v⟩, hm, hentry⟩ := h
    have hl : entries.lookup k = some v := lookup_of_mem hwf.nodup hm
    by_cases hk : k ∈ fields
    · exact ⟨[.key k], by simp [Outermost, hk], by simp [hl]⟩
    · obtain ⟨path, hpath⟩ := ih _ hm (hwf.value hm) (hentry hk)
      exact ⟨_, hpath.key hk hl⟩

/-- Every protected field of `v` is still there in `w`. -/
def AgreesAll (policy : MergePolicy) (fields : List String) (place : Option String) (v w : Json) :
    Prop :=
  ∀ path, Protects fields path v → Agrees policy place path v w

/-- `o` spares every protected field of `v`. -/
def SparesAll (policy : MergePolicy) (fields : List String) (place : Option String) (v o : Json) :
    Prop :=
  ∀ path, Protects fields path v → Spares policy place path v o

/-- Some protected field of `v` is lost for good in `w`. -/
def SomeLost (fields : List String) (place : Option String) (v w : Json) : Prop :=
  ∃ path, Protects fields path v ∧ Lost fields place path w

theorem SomeLost.of_avoids {place : Option String} {path : Path} {v w : Json}
    (hpath : Protects fields path v) (h : Avoids fields w) : SomeLost fields place v w :=
  ⟨path, hpath, .of_avoids h⟩

theorem AgreesAll.mergeAt {place : Option String} {v w o : Json} (hwf : o.WellFormed)
    (havoids : Avoids fields o) (agrees : AgreesAll policy fields place v w)
    (spares : SparesAll policy fields place v o) :
    AgreesAll policy fields place v (mergeAt policy place w o) :=
  fun path hpath => mergeAt_agrees hwf havoids hpath.1 (agrees path hpath) (spares path hpath)

theorem SomeLost.mergeAt {place : Option String} {v w o : Json} (hwf : o.WellFormed)
    (havoids : Avoids fields o) (lost : SomeLost fields place v w) :
    SomeLost fields place v (mergeAt policy place w o) := by
  obtain ⟨path, hpath, lost⟩ := lost
  exact ⟨path, hpath, mergeAt_lost hwf havoids lost⟩

theorem SomeLost.deepMergeWith {v w o : Json} (hwf : o.WellFormed) (havoids : Avoids fields o)
    (lost : SomeLost fields none v w) : SomeLost fields none v (deepMergeWith policy w o) :=
  lost.mergeAt hwf havoids

/-- Prepending to an array takes the first item that names a protected field
away from its place. -/
theorem someLost_prepend {items grown overlay : List Json} (hwf : (Json.arr items).WellFormed)
    (hoverlay : ∀ o ∈ overlay, Avoids fields o) (hne : overlay ≠ []) (hgrown : items <+: grown)
    (hnames : ¬ Avoids fields (.arr items)) :
    SomeLost fields (some "rules") (.arr items) (.arr (overlay ++ grown)) := by
  classical
  have hex : ∃ i : Nat, ∃ item, items[i]? = some item ∧ ¬ Avoids fields item := by
    rw [avoids_arr] at hnames
    push Not at hnames
    obtain ⟨item, hm, hitem⟩ := hnames
    obtain ⟨i, hi⟩ := List.mem_iff_getElem?.mp hm
    exact ⟨i, item, hi, hitem⟩
  obtain ⟨item, hi, hitem⟩ := Nat.find_spec hex
  have hbefore : ∀ j < Nat.find hex, ∀ item, items[j]? = some item → Avoids fields item := by
    intro j hj item hitem
    by_contra hnot
    exact Nat.find_min hex hj ⟨item, hitem, hnot⟩
  obtain ⟨path, hpath⟩ := protects_of_not_avoids (hwf.item (List.mem_of_getElem? hi)) hitem
  refine ⟨_, hpath.index hi, .inr ⟨_, rfl, ?_⟩⟩
  rw [if_pos rfl]
  intro j hj item' hitem'
  rcases mem_or_of_append hitem' with h | ⟨hle, h⟩
  · exact hoverlay item' h
  · have hlength : 0 < overlay.length := List.length_pos_iff.mpr hne
    have hlt : j - overlay.length < Nat.find hex := by omega
    have hrange : j - overlay.length < items.length :=
      Nat.lt_trans hlt (List.getElem?_eq_some_iff.mp hi).1
    obtain ⟨later, rfl⟩ := hgrown
    rw [List.getElem?_append_left hrange] at h
    exact hbefore _ hlt item' h

theorem Protects.cons {path : Path} {v : Json} (h : Protects fields path v) :
    (∃ k rest entries, path = .key k :: rest ∧ v = .obj entries) ∨
      ∃ i rest items, path = .index i :: rest ∧ v = .arr items := by
  obtain ⟨hout, u, hu⟩ := h
  match path with
  | [] => exact absurd hout id
  | .key k :: rest =>
    obtain ⟨entries, _, rfl, _⟩ := at?_key_eq_some.mp hu
    exact .inl ⟨k, rest, entries, rfl, rfl⟩
  | .index i :: rest =>
    obtain ⟨items, _, rfl, _⟩ := at?_index_eq_some.mp hu
    exact .inr ⟨i, rest, items, rfl, rfl⟩

theorem not_sparesAll {place : Option String} {v o : Json}
    (h : ¬ SparesAll policy fields place v o) :
    ∃ path, Protects fields path v ∧ ¬ Spares policy place path v o := by
  unfold SparesAll at h
  push Not at h
  exact h

/-- Item by item: if the merges into one item that do not spare it lose something of
it, one such merge among others loses something of the array. -/
theorem someLost_mergeItems {field : String} {items grown overlay : List Json} {i : Nat}
    {item o : Json} (hkeyed : Keyed field items grown) (hi : items[i]? = some item)
    (hwf : ∀ o ∈ overlay, o.WellFormed) (hid : ∀ o ∈ overlay, hasIdentifier field o = true)
    (havoids : ∀ o ∈ overlay, findItem field o items = some i → Avoids fields o)
    (agrees : ∃ w, grown[i]? = some w ∧ AgreesAll policy fields none item w)
    (hloses : ∀ {w o}, o.WellFormed → Avoids fields o → AgreesAll policy fields none item w →
      ¬ SparesAll policy fields none item o → SomeLost fields none item (deepMergeWith policy w o))
    (hmem : o ∈ overlay) (hfound : findItem field o items = some i)
    (hnot : ¬ SparesAll policy fields none item o) :
    ∃ w, (mergeItems policy field grown overlay)[i]? = some w ∧ SomeLost fields none item w := by
  have hlength : i < items.length := (List.getElem?_eq_some_iff.mp hi).1
  obtain ⟨before, later, rfl⟩ := List.append_of_mem hmem
  simp only [List.mem_append, List.mem_cons] at hwf hid havoids
  have havoidso : Avoids fields o := havoids o (.inr (.inl rfl)) hfound
  have hbefore : Keyed field items (mergeItems policy field grown before) :=
    hkeyed.mergeItems (fun o ho => hwf o (.inl ho)) fun o ho => hid o (.inl ho)
  -- before `o`, everything agrees or something is lost already
  obtain ⟨w, hw, hstate⟩ := @Keyed.mergeItems_at policy field items grown before i
    (fun w => AgreesAll policy fields none item w ∨ SomeLost fields none item w) hkeyed
    (fun o ho => hwf o (.inl ho)) (fun o ho => hid o (.inl ho)) hlength
    (agrees.imp fun w h => ⟨h.1, .inl h.2⟩) (by
      rintro o' ho' hfound' w (hagree | hlost)
      · by_cases hspares : SparesAll policy fields none item o'
        · exact .inl (hagree.mergeAt (hwf o' (.inl ho')) (havoids o' (.inl ho') hfound') hspares)
        · exact .inr (hloses (hwf o' (.inl ho')) (havoids o' (.inl ho') hfound') hagree hspares)
      · exact .inr (hlost.deepMergeWith (hwf o' (.inl ho')) (havoids o' (.inl ho') hfound')))
  have hat := @Keyed.mergeItem_at policy field items _ o w i hbefore hlength hw
  rw [if_pos hfound] at hat
  have hlost : SomeLost fields none item (deepMergeWith policy w o) := by
    rcases hstate with hagree | hlost
    · exact hloses (hwf o (.inr (.inl rfl))) havoidso hagree hnot
    · exact hlost.deepMergeWith (hwf o (.inr (.inl rfl))) havoidso
  rw [mergeItems_eq_foldl, List.foldl_append, List.foldl_cons, ← mergeItems_eq_foldl,
    ← mergeItems_eq_foldl]
  exact (hbefore.mergeItem (hwf o (.inr (.inl rfl))) (hid o (.inr (.inl rfl)))).mergeItems_at
    (fun o ho => hwf o (.inr (.inr ho))) (fun o ho => hid o (.inr (.inr ho))) hlength
    ⟨_, hat, hlost⟩ fun o' ho' hfound' w hw => hw.deepMergeWith
      (hwf o' (.inr (.inr ho'))) (havoids o' (.inr (.inr ho')) hfound')

theorem Protects.of_key {k : String} {path : Path} {entries : List (String × Json)} {v : Json}
    (hk : k ∉ fields) (hl : entries.lookup k = some v)
    (h : Protects fields (.key k :: path) (.obj entries)) : Protects fields path v := by
  obtain ⟨hout, u, hu⟩ := h
  rw [Outermost, if_neg hk] at hout
  exact ⟨hout, u, by simpa [hl] using hu⟩

theorem Protects.of_index {i : Nat} {path : Path} {items : List Json} {v : Json}
    (hi : items[i]? = some v) (h : Protects fields (.index i :: path) (.arr items)) :
    Protects fields path v :=
  ⟨h.1, by simpa [hi] using h.2⟩

theorem AgreesAll.value {place : Option String} {k : String} {v w : Json}
    {entries merged : List (String × Json)}
    (agrees : AgreesAll policy fields place (.obj entries) (.obj merged)) (hk : k ∉ fields)
    (hl : entries.lookup k = some v) (hw : merged.lookup k = some w) :
    AgreesAll policy fields (some k) v w := by
  intro path hpath
  obtain ⟨_, _, v', w', hentries, hmerged, hv', hw', hagree⟩ := agrees _ (hpath.key hk hl)
  cases hentries
  cases hmerged
  cases hl.symm.trans hv'
  cases hw.symm.trans hw'
  exact hagree

theorem AgreesAll.item {place : Option String} {i : Nat} {v w : Json} {items grown : List Json}
    (agrees : AgreesAll policy fields place (.arr items) (.arr grown)) (hi : items[i]? = some v)
    (hw : grown[i]? = some w) : AgreesAll policy fields none v w := by
  intro path hpath
  obtain ⟨_, _, v', w', hitems, hgrown, hv', hw', _, hagree⟩ := agrees _ (hpath.index hi)
  cases hitems
  cases hgrown
  cases hi.symm.trans hv'
  cases hw.symm.trans hw'
  exact hagree

theorem SomeLost.value {place : Option String} {k : String} {v w o : Json}
    {entries merged overlay : List (String × Json)} (hk : k ∉ fields)
    (hl : entries.lookup k = some v) (hwf : (Json.obj overlay).WellFormed)
    (hw : merged.lookup k = some w) (ho : overlay.lookup k = some o)
    (lost : SomeLost fields (some k) v (Sbctl.mergeAt policy (some k) w o)) :
    SomeLost fields place (.obj entries)
      (Sbctl.mergeAt policy place (.obj merged) (.obj overlay)) := by
  obtain ⟨path, hpath, lost⟩ := lost
  rw [mergeAt_obj]
  exact ⟨_, hpath.key hk hl,
    .inr ⟨hk, _, _, rfl, lookup_mergeEntries_some hwf.nodup hw ho, lost⟩⟩

theorem SomeLost.item {place : Option String} (hrules : place ≠ some "rules") {i : Nat}
    {v w : Json} {items merged : List Json} (hi : items[i]? = some v) (hw : merged[i]? = some w)
    (lost : SomeLost fields none v w) : SomeLost fields place (.arr items) (.arr merged) := by
  obtain ⟨path, hpath, lost⟩ := lost
  refine ⟨_, hpath.index hi, .inr ⟨_, rfl, ?_⟩⟩
  rw [if_neg hrules]
  exact ⟨w, hw, lost⟩

/-- An array of rules loses something when the policy puts other rules before it or in its
place. -/
theorem someLost_rules {items grown overlay : List Json} {i : Nat} {path : Path}
    (hwf : (Json.arr items).WellFormed) (hoverlay : ∀ o ∈ overlay, Avoids fields o)
    (hgrown : Grown policy (some "rules") items grown)
    (hpath : Protects fields (.index i :: path) (.arr items))
    (hnot : ¬ Spares policy (some "rules") (.index i :: path) (.arr items) (.arr overlay)) :
    SomeLost fields (some "rules") (.arr items)
      (mergeAt policy (some "rules") (.arr grown) (.arr overlay)) := by
  rw [mergeAt_arr, if_pos rfl]
  rw [Spares, if_pos rfl] at hnot
  rw [Grown, if_pos rfl] at hgrown
  cases hmode : policy.rules with
  | prepend =>
    rw [hmode] at hnot
    refine someLost_prepend hwf hoverlay hnot hgrown fun havoids => ?_
    obtain ⟨hout, u, hu⟩ := hpath
    rw [havoids.at?_eq_none hout] at hu
    cases hu
  | append => simp [hmode] at hnot
  | replace => exact .of_avoids hpath (avoids_arr.mpr hoverlay)

section
variable {place : Option String} {field : String} {items grown overlay : List Json}
  (hrules : place ≠ some "rules") (hfield : keyedBy policy place = some field)

include hrules hfield

/-- What is not merged item by item at first is not later on. -/
theorem not_shaped_grown (hgrown : Grown policy place items grown)
    (hshaped : ¬ shaped field items overlay = true) : ¬ shaped field grown overlay = true := by
  intro hs
  obtain ⟨-, hoverlay⟩ := shaped_iff.mp hs
  rw [Grown, if_neg hrules] at hgrown
  have hgrown := hgrown field hfield
  apply hshaped
  split at hgrown
  · exact shaped_iff.mpr ⟨(shaped_iff.mp ‹_›).1, hoverlay⟩
  · rwa [hgrown] at hs

/-- An array that is merged item by item loses what one of its items loses. -/
theorem someLost_keyed {i : Nat} {path : Path} {v w : Json}
    (hwf : (Json.arr overlay).WellFormed) (hoverlay : ∀ o ∈ overlay, Avoids fields o)
    (hi : items[i]? = some v) (hw : grown[i]? = some w)
    (agrees : AgreesAll policy fields none v w) (hgrown : Grown policy place items grown)
    (hpath : Protects fields path v) (hshaped : shaped field items overlay = true)
    (hnot : ¬ Spares policy place (.index i :: path) (.arr items) (.arr overlay))
    (hloses : ∀ {w o}, o.WellFormed → Avoids fields o → AgreesAll policy fields none v w →
      ¬ SparesAll policy fields none v o → SomeLost fields none v (deepMergeWith policy w o)) :
    SomeLost fields place (.arr items) (mergeAt policy place (.arr grown) (.arr overlay)) := by
  obtain ⟨hitems, hids⟩ := shaped_iff.mp hshaped
  rw [Grown, if_neg hrules] at hgrown
  have hkeyed := hgrown field hfield
  rw [if_pos (shaped_iff.mpr ⟨hitems, by simp⟩)] at hkeyed
  rw [Spares, if_neg hrules, hfield] at hnot
  push Not at hnot
  obtain ⟨item, o, hitem, hfound, ho, hnot⟩ := hnot hshaped
  cases hi.symm.trans hitem
  obtain ⟨merged, hmerged, lost⟩ := someLost_mergeItems hkeyed hi (fun o ho => hwf.item ho) hids
    (fun o ho _ => hoverlay o ho) ⟨w, hw, agrees⟩ hloses ho hfound
    fun hspares => hnot (hspares path hpath)
  rw [mergeAt_arr, if_neg hrules, hfield]
  simp only [if_pos (shaped_iff.mpr ⟨hkeyed.shaped, hids⟩)]
  exact lost.item hrules hi hmerged

end

/-- **An override that does not spare everything loses something.** -/
theorem someLost_of_not_sparesAll {place : Option String} {v w o : Json} (hv : v.WellFormed)
    (hwf : o.WellFormed) (havoids : Avoids fields o) (agrees : AgreesAll policy fields place v w)
    (h : ¬ SparesAll policy fields place v o) :
    SomeLost fields place v (mergeAt policy place w o) := by
  induction v using Json.induct generalizing place w o with
  | null | bool | num | str =>
    obtain ⟨path, hpath, _⟩ := not_sparesAll h
    rcases hpath.cons with ⟨_, _, _, _, hv⟩ | ⟨_, _, _, _, hv⟩ <;> cases hv
  | obj entries ih =>
    obtain ⟨path, hpath, hnot⟩ := not_sparesAll h
    rcases hpath.cons with ⟨k, path, _, rfl, _⟩ | ⟨_, _, _, _, hv⟩
    on_goal 2 => cases hv
    obtain ⟨_, merged, v', w', hv', rfl, hl, hw, _⟩ := agrees _ hpath
    cases hv'
    cases o with
    | obj overlay =>
      unfold Spares at hnot
      push Not at hnot
      obtain ⟨v, o, hlv, ho, hnot⟩ := hnot
      cases hl.symm.trans hlv
      obtain ⟨hk, havoids'⟩ := havoids.lookup ho
      have lost := ih (k, v') (mem_of_lookup hl) (hv.value (mem_of_lookup hl))
        (hwf.value (mem_of_lookup ho)) havoids' (agrees.value hk hl hw)
        fun hspares => hnot (hspares path (hpath.of_key hk hl))
      exact lost.value hk hl hwf hw ho
    | _ =>
      rw [mergeAt_replaces (.inr (by simp)) (.inl (by simp))]
      exact .of_avoids hpath havoids
  | arr items ih =>
    obtain ⟨path, hpath, hnot⟩ := not_sparesAll h
    rcases hpath.cons with ⟨_, _, _, _, hv⟩ | ⟨i, path, _, rfl, _⟩
    · cases hv
    obtain ⟨_, grown, v', w', hv', rfl, hi, hw, hgrown, _⟩ := agrees _ hpath
    cases hv'
    cases o with
    | arr overlay =>
      have hoverlay := avoids_arr.mp havoids
      by_cases hrules : place = some "rules"
      · subst hrules
        exact someLost_rules hv hoverlay hgrown hpath hnot
      cases hfield : keyedBy policy place with
      | none =>
        rw [mergeAt_arr, if_neg hrules, hfield]
        exact .of_avoids hpath havoids
      | some field =>
        by_cases hshaped : shaped field items overlay = true
        · have hm : v' ∈ items := List.mem_of_getElem? hi
          exact someLost_keyed hrules hfield hwf hoverlay hi hw (agrees.item hi hw) hgrown
            (hpath.of_index hi) hshaped hnot fun hwfo havoidso hagree hnot =>
              @ih v' hm none _ _ (hv.item hm) hwfo havoidso hagree hnot
        · rw [mergeAt_arr, if_neg hrules, hfield]
          simp only [if_neg (not_shaped_grown hrules hfield hgrown hshaped)]
          exact .of_avoids hpath havoids
    | _ =>
      rw [mergeAt_replaces (.inl (by simp)) (.inr (by simp))]
      exact .of_avoids hpath havoids

/-! ## Values that agree whatever the merge of `rules` was -/

theorem keyedBy_rules (mode : RulesMode) (place : Option String) :
    keyedBy { policy with rules := mode } place = keyedBy policy place := by
  cases place <;> rfl

theorem agrees_rules (mode : RulesMode) {place : Option String} {path : Path} {v w : Json} :
    Agrees { policy with rules := mode } place path v w ↔ Agrees policy place path v w := by
  induction path generalizing place v w with
  | nil => exact Iff.rfl
  | cons step path ih =>
    cases step with
    | key k => simp only [Agrees, ih]
    | index i => simp only [Agrees, Grown, keyedBy_rules, ih]

theorem agreesAll_rules (mode : RulesMode) {place : Option String} {v w : Json} :
    AgreesAll { policy with rules := mode } fields place v w ↔
      AgreesAll policy fields place v w := by
  simp only [AgreesAll, agrees_rules]

end Sbctl
