import Sbctl.Override
import Sbctl.Spare

/-!
# Server overrides and node credentials

The override documents merge into the generated server configuration one after
the other. The guard lets no entry for a generated inbound name a protected
field, but an entry may still replace a value around one.

* `credentials_kept_iff`: the protected fields of the generated inbounds stay as
  they were exactly when every layer spares them.
-/

namespace Sbctl

open Json Assoc

def inboundsOf (v : Json) : List Json :=
  match v.get? "inbounds" with
  | some (.arr items) => items
  | _ => []

def isGeneratedTag (tag : String) : Bool := "sbctl-".toList.isPrefixOf tag.toList

/-- A generated server configuration: its inbounds have distinct `sbctl-` tags. -/
structure GeneratedServer (generated : Json) : Prop where
  object : ∃ entries, generated = .obj entries
  inbounds : generated.get? "inbounds" = some (.arr (inboundsOf generated))
  tagged : ∀ inbound ∈ inboundsOf generated, ∃ tag, identifier "tag" inbound = some tag ∧
    isGeneratedTag tag
  distinct : ((inboundsOf generated).map (identifier "tag")).Nodup

/-- The inbounds under one tag. -/
def inboundsTagged (v : Json) (tag : String) : List Json :=
  (inboundsOf v).filter fun item => identifier "tag" item == some tag

/-- Every generated inbound is there once under its tag, and whatever it had
under a protected field it still has there. -/
def KeepsCredentials (generated merged : Json) : Prop :=
  ∀ inbound ∈ inboundsOf generated, ∀ tag, identifier "tag" inbound = some tag →
    ∃ kept, inboundsTagged merged tag = [kept] ∧
      ∀ path, EndsIn protectedServerFields path → ∀ value, at? path inbound = some value →
        at? path kept = some value

def layerPolicy (mode : RulesMode) : MergePolicy := { serverMergePolicy with rules := mode }

/-- No layer replaces a value around a protected field of a generated inbound. -/
def LeavesCredentials (layers : JsonLayers) (generated : Json) : Prop :=
  ∀ layer ∈ layers, ∀ inbound ∈ inboundsOf generated, ∀ entry ∈ inboundsOf layer.2,
    identifier "tag" entry = identifier "tag" inbound →
      SparesAll (layerPolicy layer.1) protectedServerFields none inbound entry

/-- The state after some layers, seen from the generated inbound at `i`. -/
structure Reached (items : List Json) (i : Nat) (P : Json → Prop) (v : Json) : Prop where
  object : ∃ entries, v = .obj entries
  inbounds : v.get? "inbounds" = some (.arr (inboundsOf v))
  keyed : Keyed "tag" items (inboundsOf v)
  distinct : ((inboundsOf v).map (identifier "tag")).Nodup
  kept : ∃ w, (inboundsOf v)[i]? = some w ∧ P w

theorem isGeneratedTag_not_custom {tag : String} (h : isGeneratedTag tag) : ¬ isCustomTag tag := by
  intro hcustom
  unfold isCustomTag at hcustom
  rw [Bool.and_eq_true] at hcustom
  obtain ⟨s, hs⟩ := List.isPrefixOf_iff_prefix.mp h
  obtain ⟨t, ht⟩ := List.isPrefixOf_iff_prefix.mp hcustom.1
  have hheads : some 's' = some 'c' := congrArg List.head? (hs.trans ht.symm)
  exact absurd hheads (by decide)

/-- What one layer does to the inbounds. -/
theorem inboundsOf_layer {mode : RulesMode} {v document : Json} {items : List Json}
    (hguarded : Guarded document) (hobj : ∃ entries, v = .obj entries)
    (hinbounds : v.get? "inbounds" = some (.arr (inboundsOf v)))
    (hkeyed : Keyed "tag" items (inboundsOf v)) :
    (∃ entries, deepMergeWith (layerPolicy mode) v document = .obj entries) ∧
      (deepMergeWith (layerPolicy mode) v document).get? "inbounds" =
        some (.arr (mergeItems (layerPolicy mode) "tag" (inboundsOf v) (inboundsOf document))) := by
  obtain ⟨entries, rfl⟩ := hobj
  obtain ⟨hwf, ⟨overlay, rfl⟩, hover⟩ := hguarded
  rw [deepMergeWith_obj]
  refine ⟨⟨_, rfl⟩, ?_⟩
  rw [get?] at hinbounds
  rw [get?]
  rcases hover with hnone | ⟨entries', hsome, htagged⟩
  · have hempty : inboundsOf (.obj overlay) = [] := by simp [inboundsOf, hnone]
    rw [hempty, mergeItems_nil]
    rw [get?] at hnone
    rw [lookup_mergeEntries_none hwf.nodup hnone, hinbounds]
  · have hover : inboundsOf (.obj overlay) = entries' := by simp [inboundsOf, hsome]
    have hshaped : shaped "tag" (inboundsOf (.obj entries)) entries' = true := by
      refine shaped_iff.mpr ⟨hkeyed.shaped, fun entry hm => ?_⟩
      obtain ⟨tag, htag, _⟩ := htagged entry hm
      simp [hasIdentifier, htag]
    have hfield : keyedBy (layerPolicy mode) (some "inbounds") = some "tag" := by
      simp [keyedBy, layerPolicy, serverMergePolicy, MergePolicy.identifierField]
    rw [get?] at hsome
    rw [lookup_mergeEntries_some hwf.nodup hinbounds hsome, mergeAt_arr, if_neg (by simp),
      hfield, hover]
    simp [hshaped]

/-- The entries of a guarded document. -/
theorem Guarded.entry {document entry : Json} (h : Guarded document)
    (hm : entry ∈ inboundsOf document) :
    entry.WellFormed ∧ ∃ tag, identifier "tag" entry = some tag ∧
      (isCustomTag tag ∨ Avoids protectedServerFields entry) := by
  obtain ⟨hwf, ⟨overlay, rfl⟩, hinbounds⟩ := h
  rcases hinbounds with hnone | ⟨entries, hsome, htagged⟩
  · simp [inboundsOf, hnone] at hm
  · simp only [inboundsOf, hsome] at hm
    exact ⟨(hwf.value (mem_of_lookup hsome)).item hm, htagged entry hm⟩

section
variable {generated : Json} {i : Nat} {inbound : Json}

/-- An entry that merges into a generated inbound names no protected field. -/
theorem GeneratedServer.entry_avoids {document entry : Json} (h : GeneratedServer generated)
    (hguarded : Guarded document) (hm : entry ∈ inboundsOf document)
    (hfound : findItem "tag" entry (inboundsOf generated) = some i) :
    Avoids protectedServerFields entry := by
  obtain ⟨_, tag, htag, hcustom | havoids⟩ := hguarded.entry hm
  · obtain ⟨item, hitem, hid⟩ := findItem_spec hfound
    obtain ⟨tag', htag', hgenerated⟩ := h.tagged item (List.mem_of_getElem? hitem)
    rw [hid, htag, Option.some.injEq] at htag'
    subst htag'
    exact absurd hcustom (isGeneratedTag_not_custom hgenerated)
  · exact havoids

theorem Reached.step {items : List Json} {P Q : Json → Prop} {v document : Json} {mode : RulesMode}
    (h : Reached items i P v) (hguarded : Guarded document)
    (kept : ∃ w, (mergeItems (layerPolicy mode) "tag" (inboundsOf v) (inboundsOf document))[i]? =
      some w ∧ Q w) :
    Reached items i Q (deepMergeWith (layerPolicy mode) v document) := by
  obtain ⟨hobj, hget⟩ := @inboundsOf_layer mode v document items hguarded h.object
    h.inbounds h.keyed
  have hwf : ∀ entry ∈ inboundsOf document, entry.WellFormed := fun _ hm => (hguarded.entry hm).1
  have hid : ∀ entry ∈ inboundsOf document, hasIdentifier "tag" entry = true := by
    intro entry hm
    obtain ⟨_, tag, htag, _⟩ := hguarded.entry hm
    simp [hasIdentifier, htag]
  have hinbounds : inboundsOf (deepMergeWith (layerPolicy mode) v document) =
      mergeItems (layerPolicy mode) "tag" (inboundsOf v) (inboundsOf document) := by
    rw [inboundsOf, hget]
  constructor
  · exact hobj
  · rw [hget, hinbounds]
  · rw [hinbounds]
    exact h.keyed.mergeItems hwf hid
  · rw [hinbounds]
    exact nodup_mergeItems h.distinct hwf hid
  · rw [hinbounds]
    exact kept

/-- The merges into the inbound at `i` decide what happens to it. -/
theorem Reached.mergeItems_at {items : List Json} {P : Json → Prop} {v document : Json}
    {mode : RulesMode} (h : Reached items i P v) (hi : i < items.length)
    (hguarded : Guarded document)
    (keep : ∀ entry ∈ inboundsOf document, findItem "tag" entry items = some i → ∀ w, P w →
      P (deepMergeWith (layerPolicy mode) w entry)) :
    Reached items i P (deepMergeWith (layerPolicy mode) v document) := by
  refine h.step hguarded (h.keyed.mergeItems_at (fun _ hm => (hguarded.entry hm).1) ?_ hi h.kept keep)
  intro entry hm
  obtain ⟨_, tag, htag, _⟩ := hguarded.entry hm
  simp [hasIdentifier, htag]

theorem Reached.applyTo {items : List Json} {P : Json → Prop} {v : Json} {layers : JsonLayers}
    (h : Reached items i P v) (hi : i < items.length)
    (hguarded : ∀ layer ∈ layers, Guarded layer.2)
    (keep : ∀ layer ∈ layers, ∀ entry ∈ inboundsOf layer.2, findItem "tag" entry items = some i →
      ∀ w, P w → P (deepMergeWith (layerPolicy layer.1) w entry)) :
    Reached items i P (layers.applyTo v serverMergePolicy) := by
  induction layers generalizing v with
  | nil => exact h
  | cons layer rest ih =>
    exact ih (h.mergeItems_at hi (hguarded layer List.mem_cons_self) (keep layer List.mem_cons_self))
      (fun l hl => hguarded l (List.mem_cons_of_mem _ hl))
      fun l hl => keep l (List.mem_cons_of_mem _ hl)

theorem GeneratedServer.reached {P : Json → Prop} (h : GeneratedServer generated)
    (hi : (inboundsOf generated)[i]? = some inbound) (hP : P inbound) :
    Reached (inboundsOf generated) i P generated := by
  refine ⟨h.object, h.inbounds, .refl fun item hm => ?_, h.distinct, inbound, hi, hP⟩
  obtain ⟨tag, htag, _⟩ := h.tagged item hm
  simp [hasIdentifier, htag]

theorem filter_eq_singleton {α β : Type} [BEq β] [LawfulBEq β] {f : α → β} {l : List α} {i : Nat} {x : α}
    (hnodup : (l.map f).Nodup) (hi : l[i]? = some x) : (l.filter fun y => f y == f x) = [x] := by
  induction l generalizing i with
  | nil => simp at hi
  | cons y rest ih =>
    obtain ⟨hfresh, hrest⟩ := List.nodup_cons.mp hnodup
    cases i with
    | zero =>
      simp only [List.getElem?_cons_zero, Option.some.injEq] at hi
      subst hi
      rw [List.filter_cons_of_pos (by simp), List.filter_eq_nil_iff.mpr]
      intro z hz heq
      exact hfresh (List.mem_map.mpr ⟨z, hz, by simpa using heq⟩)
    | succ i =>
      rw [List.getElem?_cons_succ] at hi
      rw [List.filter_cons_of_neg, ih hrest hi]
      intro heq
      exact hfresh (List.mem_map.mpr ⟨x, List.mem_of_getElem? hi, (eq_of_beq heq).symm⟩)

/-- There is one inbound under the tag, and it is the one at `i`. -/
theorem Reached.tagged {items : List Json} {P : Json → Prop} {v : Json} {tag : String}
    (h : Reached items i P v) (hi : items[i]? = some inbound)
    (htag : identifier "tag" inbound = some tag) :
    ∃ kept, inboundsTagged v tag = [kept] ∧ P kept := by
  obtain ⟨w, hw, hP⟩ := h.kept
  obtain ⟨later, hlater⟩ := h.keyed.starts
  have hid : identifier "tag" w = some tag := by
    have hleft : ((inboundsOf v).map (identifier "tag"))[i]? = some (identifier "tag" w) := by
      rw [List.getElem?_map, hw]
      rfl
    have hlength : i < (items.map (identifier "tag")).length := by
      rw [List.length_map]
      exact (List.getElem?_eq_some_iff.mp hi).1
    rw [← hlater, List.getElem?_append_left hlength, List.getElem?_map, hi] at hleft
    simpa [htag] using hleft.symm
  refine ⟨w, ?_, hP⟩
  rw [inboundsTagged, ← hid]
  exact filter_eq_singleton h.distinct hw

theorem GeneratedServer.findItem_eq {entry : Json} (h : GeneratedServer generated)
    (hi : (inboundsOf generated)[i]? = some inbound)
    (hid : identifier "tag" entry = identifier "tag" inbound) :
    findItem "tag" entry (inboundsOf generated) = some i := by
  obtain ⟨hlength, heq⟩ := List.getElem?_eq_some_iff.mp hi
  refine List.findIdx?_eq_some_iff_getElem.mpr ⟨hlength, by simp [heq, hid], fun j hj => ?_⟩
  have hne := List.pairwise_iff_getElem.mp h.distinct j i (by simp; omega) (by simpa) hj
  simpa [heq, hid] using hne

/-- A run of sparing layers leaves everything protected in the inbound alone. -/
theorem GeneratedServer.agreesAll {layers : JsonLayers} (h : GeneratedServer generated)
    (hguarded : ∀ layer ∈ layers, Guarded layer.2) (hleaves : LeavesCredentials layers generated)
    (hi : (inboundsOf generated)[i]? = some inbound) :
    Reached (inboundsOf generated) i
      (AgreesAll serverMergePolicy protectedServerFields none inbound)
      (layers.applyTo generated serverMergePolicy) := by
  refine (h.reached hi fun path hpath => .refl hpath.2.choose_spec).applyTo
    (List.getElem?_eq_some_iff.mp hi).1 hguarded ?_
  intro layer hlayer entry hentry hfound w hagree
  obtain ⟨item, hitem, hid⟩ := findItem_spec hfound
  cases hi.symm.trans hitem
  have hspares := hleaves layer hlayer inbound (List.mem_of_getElem? hi) entry hentry hid.symm
  have hguard := hguarded layer hlayer
  rw [← agreesAll_rules layer.1] at hagree ⊢
  exact hagree.mergeAt (hguard.entry hentry).1 (h.entry_avoids hguard hentry hfound) hspares

/-- A run with a layer that does not spare the inbound loses something of it. -/
theorem GeneratedServer.someLost {before later : JsonLayers} {layer : RulesMode × Json} {entry : Json}
    (h : GeneratedServer generated) (hwf : generated.WellFormed)
    (hguarded : ∀ l ∈ before ++ layer :: later, Guarded l.2)
    (hi : (inboundsOf generated)[i]? = some inbound) (hentry : entry ∈ inboundsOf layer.2)
    (hid : identifier "tag" entry = identifier "tag" inbound)
    (hnot : ¬ SparesAll (layerPolicy layer.1) protectedServerFields none inbound entry) :
    Reached (inboundsOf generated) i (SomeLost protectedServerFields none inbound)
      (JsonLayers.applyTo (before ++ layer :: later) generated serverMergePolicy) := by
  have hlength : i < (inboundsOf generated).length := (List.getElem?_eq_some_iff.mp hi).1
  have hinbound : inbound.WellFormed := by
    obtain ⟨entries, hobj⟩ := h.object
    have hin := h.inbounds
    rw [hobj] at hwf hin
    exact (hwf.value (mem_of_lookup hin)).item (by
      rw [← hobj]
      exact List.mem_of_getElem? hi)
  have hloses : ∀ {mode : RulesMode} {w o : Json}, o.WellFormed → Avoids protectedServerFields o →
      AgreesAll serverMergePolicy protectedServerFields none inbound w →
      ¬ SparesAll (layerPolicy mode) protectedServerFields none inbound o →
      SomeLost protectedServerFields none inbound (deepMergeWith (layerPolicy mode) w o) := by
    intro mode w o howf havoids hagree hnot
    rw [← agreesAll_rules mode] at hagree
    exact @someLost_of_not_sparesAll _ _ none inbound w o hinbound howf havoids hagree hnot
  have hstays : ∀ {mode : RulesMode} {w o : Json}, o.WellFormed → Avoids protectedServerFields o →
      SomeLost protectedServerFields none inbound w →
      SomeLost protectedServerFields none inbound (deepMergeWith (layerPolicy mode) w o) :=
    fun howf havoids hlost => hlost.deepMergeWith howf havoids
  have hbefore := (h.reached hi (P := fun w =>
      AgreesAll serverMergePolicy protectedServerFields none inbound w ∨
        SomeLost protectedServerFields none inbound w)
    (.inl fun path hpath => .refl hpath.2.choose_spec)).applyTo hlength
    (fun l (hl : l ∈ before) => hguarded l (List.mem_append_left _ hl)) (by
      rintro l hl entry hentry hfound w (hagree | hlost)
      · have hguard := hguarded l (List.mem_append_left _ hl)
        have havoids := h.entry_avoids hguard hentry hfound
        by_cases hspares : SparesAll (layerPolicy l.1) protectedServerFields none inbound entry
        · left
          rw [← agreesAll_rules l.1] at hagree ⊢
          exact hagree.mergeAt (hguard.entry hentry).1 havoids hspares
        · exact .inr (hloses (hguard.entry hentry).1 havoids hagree hspares)
      · have hguard := hguarded l (List.mem_append_left _ hl)
        exact .inr (hstays (hguard.entry hentry).1 (h.entry_avoids hguard hentry hfound) hlost))
  have hguard := hguarded layer (List.mem_append_right _ List.mem_cons_self)
  have hfound := h.findItem_eq hi hid
  have hat : Reached (inboundsOf generated) i (SomeLost protectedServerFields none inbound)
      (deepMergeWith (layerPolicy layer.1) (JsonLayers.applyTo before generated serverMergePolicy)
        layer.2) := by
    have hids : ∀ entry ∈ inboundsOf layer.2, hasIdentifier "tag" entry = true := by
      intro entry hm
      obtain ⟨_, tag, htag, _⟩ := hguard.entry hm
      simp [hasIdentifier, htag]
    refine hbefore.step hguard ?_
    obtain ⟨w, hw, hagree | hlost⟩ := hbefore.kept
    · refine @someLost_mergeItems (layerPolicy layer.1) _ _ _ _ _ _ _ _ hbefore.keyed hi
        (fun _ hm => (hguard.entry hm).1) hids
        (fun _ hm hfound => h.entry_avoids hguard hm hfound) ⟨w, hw, ?_⟩ ?_ hentry hfound hnot
      · exact (agreesAll_rules layer.1).mpr hagree
      · intro w o howf havoids hagree hnot
        exact hloses howf havoids ((agreesAll_rules layer.1).mp hagree) hnot
    · exact hbefore.keyed.mergeItems_at (fun _ hm => (hguard.entry hm).1) hids hlength ⟨w, hw, hlost⟩
        fun o ho hfound w hw => hstays (hguard.entry ho).1 (h.entry_avoids hguard ho hfound) hw
  rw [JsonLayers.applyTo, List.foldl_append, List.foldl_cons]
  refine hat.applyTo hlength (fun l hl => hguarded l (by simp [hl])) ?_
  intro l hl entry hentry hfound w hlost
  have hguard := hguarded l (by simp [hl])
  exact hstays (hguard.entry hentry).1 (h.entry_avoids hguard hentry hfound) hlost

end

/-- Guarded layers keep the credentials exactly when each of them spares them. -/
theorem keepsCredentials_iff {generated : Json} {layers : JsonLayers}
    (h : GeneratedServer generated) (hwf : generated.WellFormed)
    (hguarded : ∀ layer ∈ layers, Guarded layer.2) :
    KeepsCredentials generated (layers.applyTo generated serverMergePolicy) ↔
      LeavesCredentials layers generated := by
  constructor
  · intro hkeeps layer hlayer inbound hm entry hentry hid
    by_contra hnot
    obtain ⟨i, hi⟩ := List.mem_iff_getElem?.mp hm
    obtain ⟨tag, htag, _⟩ := h.tagged inbound hm
    obtain ⟨before, later, rfl⟩ := List.append_of_mem hlayer
    obtain ⟨kept, hkept, path, hpath, hlost⟩ :=
      (h.someLost hwf hguarded hi hentry hid hnot).tagged hi htag
    obtain ⟨kept', hkept', hsame⟩ := hkeeps inbound hm tag htag
    rw [hkept, List.cons.injEq] at hkept'
    obtain ⟨u, hu⟩ := hpath.2
    have := hsame path hpath.1.endsIn u hu
    rw [← hkept'.1, hlost.at?_eq_none hpath.1] at this
    cases this
  · intro hleaves inbound hm tag htag
    obtain ⟨i, hi⟩ := List.mem_iff_getElem?.mp hm
    obtain ⟨kept, hkept, hagree⟩ := (h.agreesAll hguarded hleaves hi).tagged hi htag
    refine ⟨kept, hkept, fun path hpath value hvalue => ?_⟩
    obtain ⟨p, q, rfl, hp⟩ := hpath.outermost
    rw [at?_append] at hvalue ⊢
    obtain ⟨u, hu, _⟩ := Option.bind_eq_some_iff.mp hvalue
    rw [(hagree p ⟨hp, u, hu⟩).at?_eq]
    exact hvalue

def sampleGenerated : Json :=
  .obj [("inbounds", .arr [
    .obj [("tag", .str "sbctl-vless-reality"), ("tls", .obj [("private_key", .str "k")])]])]

def sampleGeneratedText : String :=
  "\x7b\"inbounds\":[\x7b\"tag\":\"sbctl-vless-reality\"," ++
    "\"tls\":\x7b\"private_key\":\"k\"\x7d\x7d]\x7d"

/-- An override of the TLS settings of the generated inbound. -/
def tlsOverride (tls : Json) : Json :=
  .obj [("inbounds", .arr [.obj [("tag", .str "sbctl-vless-reality"), ("tls", tls)]])]

def offText : String :=
  "\x7b\"inbounds\":[\x7b\"tag\":\"sbctl-vless-reality\",\"tls\":\"off\"\x7d]\x7d"

def enabledText : String :=
  "\x7b\"inbounds\":[\x7b\"tag\":\"sbctl-vless-reality\"," ++
    "\"tls\":\x7b\"enabled\":true\x7d\x7d]\x7d"

def offPretty : String :=
  "\x7b\n  \"inbounds\": [\n    \x7b\n      \"tag\": \"sbctl-vless-reality\",\n" ++
    "      \"tls\": \"off\"\n    \x7d\n  ]\n\x7d"

def enabledPretty : String :=
  "\x7b\n  \"inbounds\": [\n    \x7b\n      \"tag\": \"sbctl-vless-reality\",\n" ++
    "      \"tls\": \x7b\n        \"enabled\": true,\n        \"private_key\": \"k\"\n" ++
    "      \x7d\n    \x7d\n  ]\n\x7d"

/-- A library that reads these three documents and prints their merges. -/
def sampleSerde : Serde where
  fromStr text :=
    if text = sampleGeneratedText then .ok sampleGenerated
    else if text = offText then .ok (tlsOverride (.str "off"))
    else if text = enabledText then .ok (tlsOverride (.obj [("enabled", .bool true)]))
    else .error "expected value"
  toString _ := ""
  toStringPretty value :=
    match at? [.key "inbounds", .index 0, .key "tls"] value with
    | some (.str _) => .ok offPretty
    | _ => .ok enabledPretty
  debugString text := "\"" ++ text ++ "\""
  wellFormed := by
    have distinct : ∀ tls : Json, tls.WellFormed → (tlsOverride tls).WellFormed := by
      intro tls htls
      refine .obj (by simp) fun entry hm => ?_
      cases List.mem_singleton.mp hm
      refine .arr fun item hm => ?_
      cases List.mem_singleton.mp hm
      refine .obj (by simp) fun entry hm => ?_
      rcases List.mem_pair.mp hm with rfl | rfl
      · exact .str _
      · exact htls
    intro text value h
    split at h
    · cases h
      refine distinct _ (.obj (by decide) fun entry hm => ?_)
      cases List.mem_singleton.mp hm
      exact .str _
    split at h
    · cases h
      exact distinct _ (.str _)
    split at h
    · cases h
      refine distinct _ (.obj (by decide) fun entry hm => ?_)
      cases List.mem_singleton.mp hm
      exact .bool _
    · cases h

/-- One server override file and nothing else. -/
def sampleFiles (text : String) : OverrideFiles where
  singBox := ⟨.missing, .ok []⟩
  singBoxServer := ⟨.text text, .ok []⟩
  clash := .ok ()

theorem sampleGenerated_generated : GeneratedServer sampleGenerated where
  object := ⟨_, rfl⟩
  inbounds := rfl
  tagged := by
    intro inbound hm
    cases List.mem_singleton.mp hm
    exact ⟨_, rfl, by decide⟩
  distinct := by decide

/-- **Server overrides reach node credentials only by replacing a value around
them.** -/
theorem credentials_kept_iff {serde : Serde} {root : String} {files : OverrideFiles}
    {generated text : String} {value : Json} (hparsed : serde.fromStr generated = .ok value)
    (hgenerated : GeneratedServer value)
    (run : applyServerOverride serde root files generated = .ok text) :
    ∃ overrides, Overrides.load serde root files = .ok overrides ∧
      (overrides.singBoxServer = none ∧ text = generated ∨
        serde.toStringPretty (overrides.serverLayers.applyTo value serverMergePolicy) = .ok text) ∧
      (KeepsCredentials value (overrides.serverLayers.applyTo value serverMergePolicy) ↔
        LeavesCredentials overrides.serverLayers value) := by
  obtain ⟨overrides, hload, hprinted⟩ := applyServerOverride_ok hparsed run
  exact ⟨overrides, hload, hprinted,
    keepsCredentials_iff hgenerated (serde.wellFormed hparsed) (Overrides.load_guarded hload)⟩

/-- The settings that go over those of the generated inbound name another field. -/
theorem enabled_leaves_credentials :
    LeavesCredentials [(.prepend, tlsOverride (.obj [("enabled", .bool true)]))] sampleGenerated := by
  intro layer hlayer inbound hinbound entry hentry _ path hpath
  cases List.mem_singleton.mp hlayer
  cases List.mem_singleton.mp hinbound
  cases List.mem_singleton.mp hentry
  obtain ⟨houtermost, value, hvalue⟩ := hpath
  match path with
  | [] => exact absurd houtermost id
  | .index i :: path => cases hvalue
  | .key key :: path =>
    intro v o hv ho
    rcases List.mem_pair.mp (mem_of_lookup hv) with htag | htls
    · cases htag
      cases ho
      match path with
      | [] => exact absurd houtermost id
      | step :: path => cases step <;> cases hvalue
    · cases htls
      cases ho
      match path with
      | [] => exact absurd houtermost id
      | .index i :: path => cases hvalue
      | .key inner :: path =>
        intro v o hv ho
        cases List.mem_singleton.mp (mem_of_lookup hv)
        cases ho

theorem credentials_kept_iff_sample :
    applyServerOverride sampleSerde "" (sampleFiles enabledText) sampleGeneratedText =
        .ok enabledPretty ∧
      KeepsCredentials sampleGenerated
        (JsonLayers.applyTo [(.prepend, tlsOverride (.obj [("enabled", .bool true)]))]
          sampleGenerated serverMergePolicy) := by
  have hrun : applyServerOverride sampleSerde "" (sampleFiles enabledText) sampleGeneratedText =
      .ok enabledPretty := by decide +kernel
  obtain ⟨overrides, hload, -, hkept⟩ :=
    credentials_kept_iff (by rfl) sampleGenerated_generated hrun
  have hloaded : Overrides.load sampleSerde "" (sampleFiles enabledText) = .ok
      { singBox := none
        singBoxServer := some [(.prepend, tlsOverride (.obj [("enabled", .bool true)]))] } := by
    rfl
  cases hload.symm.trans hloaded
  exact ⟨hrun, hkept.mpr enabled_leaves_credentials⟩

/-- The guard accepts an override that puts a text over the TLS settings of a
generated inbound, and the Reality key in them is gone. -/
theorem private_key_overridden :
    rejectProtectedServerInbounds (tlsOverride (.str "off")) "sing-box-server.json" = .ok () ∧
      GeneratedServer sampleGenerated ∧
      applyServerOverride sampleSerde "" (sampleFiles offText) sampleGeneratedText =
        .ok offPretty ∧
      ¬ KeepsCredentials sampleGenerated
        (JsonLayers.applyTo [(.prepend, tlsOverride (.str "off"))] sampleGenerated
          serverMergePolicy) := by
  refine ⟨by decide +kernel, sampleGenerated_generated, by decide +kernel, fun hkeeps => ?_⟩
  obtain ⟨kept, hkept, hsame⟩ := hkeeps _ List.mem_cons_self "sbctl-vless-reality" rfl
  have hmerged : inboundsTagged (JsonLayers.applyTo [(.prepend, tlsOverride (.str "off"))]
      sampleGenerated serverMergePolicy) "sbctl-vless-reality" =
      [.obj [("tag", .str "sbctl-vless-reality"), ("tls", .str "off")]] := by rfl
  rw [hmerged] at hkept
  cases hkept
  have := hsame [.key "tls", .key "private_key"] ⟨"private_key", by decide, rfl⟩ (.str "k") rfl
  cases this

end Sbctl
