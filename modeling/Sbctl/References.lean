import Sbctl.Outbounds
import Sbctl.Routing
import Sbctl.Lib.Checker

/-!
# References inside client profiles

A generated profile names outbounds, DNS servers and rule sets that it declares
itself. With overrides and rule lists merged in, each of these names is looked up
before the profile is published.

* `references_checked`: a sing-box profile passes exactly if every name at a place
  that refers to something is declared, rules nested in rules included, and an
  error is about a name that is not;
* `lists_keep_references`: the operator's lists bring in no name of their own that
  is missing.
-/

namespace Json

open Assoc

/-- The items of the array a path leads to. -/
def itemsAt (v : Json) (path : Path) : List Json :=
  match v.at? path with
  | some (.arr items) => items
  | _ => []

def texts (items : List Json) : List String := items.filterMap asStr?

mutual

/-- A value and those nested in it under the keys, outermost first. -/
def within (keys : List String) : Json → List Json
  | .obj entries =>
    .obj entries :: keys.flatMap fun key => ((withinEntries keys entries).lookup key).getD []
  | v => [v]

def withinEntries (keys : List String) : List (String × Json) → List (String × List Json)
  | [] => []
  | (key, value) :: rest => (key, withinArray keys value) :: withinEntries keys rest

def withinArray (keys : List String) : Json → List Json
  | .arr items => withinItems keys items
  | _ => []

def withinItems (keys : List String) : List Json → List Json
  | [] => []
  | item :: rest => within keys item ++ withinItems keys rest

end

/-- The way to a value nested under the keys. -/
inductive Inside (keys : List String) : Path → Prop where
  | here : Inside keys []
  | under {key : String} {path : Path} (hkey : key ∈ keys) (i : Nat) (h : Inside keys path) :
      Inside keys (.key key :: .index i :: path)

section
variable {v item : Json} {path : Path} {text : String}

theorem text?_eq_some : v.text? path = some text ↔ v.at? path = some (.str text) := by
  unfold text?
  cases h : v.at? path with
  | none => simp
  | some found => cases found <;> simp [asStr?]

theorem mem_itemsAt : item ∈ v.itemsAt path ↔ ∃ i, v.at? (path ++ [.index i]) = some item := by
  unfold itemsAt
  simp only [at?_append]
  cases v.at? path with
  | none => simp
  | some found =>
    cases found with
    | arr items => simp [List.mem_iff_getElem?]
    | _ => simp [at?]

theorem mem_texts :
    text ∈ texts (v.itemsAt path) ↔ ∃ i, v.at? (path ++ [.index i]) = some (.str text) := by
  rw [texts, List.mem_filterMap]
  constructor
  · rintro ⟨item, hitem, htext⟩
    obtain ⟨i, hi⟩ := mem_itemsAt.mp hitem
    have heq : item = .str text := by
      cases item <;> simp_all [asStr?]
    exact ⟨i, heq ▸ hi⟩
  · rintro ⟨i, hi⟩
    exact ⟨_, mem_itemsAt.mpr ⟨i, hi⟩, rfl⟩

theorem withinItems_eq (keys : List String) (items : List Json) :
    withinItems keys items = items.flatMap (within keys) := by
  induction items with
  | nil => rfl
  | cons item rest ih => rw [withinItems, ih, List.flatMap_cons]

theorem within_obj (keys : List String) (entries : List (String × Json)) :
    within keys (.obj entries) = .obj entries :: keys.flatMap fun key =>
      withinItems keys ((Json.obj entries).itemsAt [.key key]) := by
  have hentries : withinEntries keys entries =
      entries.map fun entry => (entry.1, withinArray keys entry.2) := by
    induction entries with
    | nil => rfl
    | cons entry rest ih => rw [withinEntries, ih, List.map_cons]
  have hkey (key : String) : ((withinEntries keys entries).lookup key).getD [] =
      withinItems keys ((Json.obj entries).itemsAt [.key key]) := by
    rw [hentries, lookup_map_value, itemsAt, at?_key]
    cases entries.lookup key with
    | none => rfl
    | some value => cases value <;> rfl
  rw [within]
  simp only [hkey]

/-- What `within` finds is at the end of a way. -/
def WithinInside (keys : List String) (v : Json) : Prop :=
  ∀ w, w ∈ within keys v ↔ ∃ path, Inside keys path ∧ v.at? path = some w

theorem withinInside_leaf {keys : List String} (hleaf : within keys v = [v])
    (hnone : ∀ key path, v.at? (.key key :: path) = none) : WithinInside keys v := by
  intro w
  rw [hleaf, List.mem_singleton]
  constructor
  · rintro rfl
    exact ⟨[], .here, at?_nil _⟩
  · rintro ⟨path, hinside, hat⟩
    cases hinside with
    | here => exact (Option.some.inj ((at?_nil v).symm.trans hat)).symm
    | under =>
      rw [hnone] at hat
      cases hat

theorem withinInside_obj {keys : List String} {entries : List (String × Json)}
    (h : ∀ key, ∀ inner ∈ (Json.obj entries).itemsAt [.key key], WithinInside keys inner) :
    WithinInside keys (.obj entries) := by
  intro w
  rw [within_obj, List.mem_cons, List.mem_flatMap]
  simp only [withinItems_eq, List.mem_flatMap]
  constructor
  · rintro (rfl | ⟨key, hkey, inner, hinner, hw⟩)
    · exact ⟨[], .here, at?_nil _⟩
    · obtain ⟨path, hinside, hat⟩ := (h key inner hinner w).mp hw
      obtain ⟨i, hi⟩ := mem_itemsAt.mp hinner
      refine ⟨.key key :: .index i :: path, .under hkey i hinside, ?_⟩
      have happend := at?_append [.key key, .index i] path (Json.obj entries)
      rw [show [Step.key key, .index i] = [.key key] ++ [.index i] from rfl, hi] at happend
      exact happend.trans hat
  · rintro ⟨path, hinside, hat⟩
    cases hinside with
    | here => exact .inl (Option.some.inj ((at?_nil _).symm.trans hat)).symm
    | @under key path hkey i hrest =>
      have happend := at?_append [.key key, .index i] path (Json.obj entries)
      rw [show [Step.key key, .index i] ++ path = .key key :: .index i :: path from rfl, hat,
        eq_comm, Option.bind_eq_some_iff] at happend
      obtain ⟨inner, hinner, hw⟩ := happend
      have hmem : inner ∈ (Json.obj entries).itemsAt [.key key] := mem_itemsAt.mpr ⟨i, hinner⟩
      exact .inr ⟨key, hkey, inner, hmem, (h key inner hmem w).mpr ⟨path, hrest, hw⟩⟩

theorem mem_within {keys : List String} {w : Json} :
    w ∈ within keys v ↔ ∃ path, Inside keys path ∧ v.at? path = some w := by
  -- the items of an array are reached from the object around it
  have hall : WithinInside keys v ∧ ∀ inner ∈ v.itemsAt [], WithinInside keys inner := by
    induction v using Json.induct with
    | null =>
      exact ⟨withinInside_leaf (by simp [within]) fun _ _ => by simp [at?], by simp [itemsAt]⟩
    | bool b =>
      exact ⟨withinInside_leaf (by simp [within]) fun _ _ => by simp [at?], by simp [itemsAt]⟩
    | num n =>
      exact ⟨withinInside_leaf (by simp [within]) fun _ _ => by simp [at?], by simp [itemsAt]⟩
    | str s =>
      exact ⟨withinInside_leaf (by simp [within]) fun _ _ => by simp [at?], by simp [itemsAt]⟩
    | arr items ih =>
      refine ⟨withinInside_leaf (by simp [within]) fun _ _ => by simp [at?], ?_⟩
      intro inner hinner
      exact (ih inner (by simpa [itemsAt] using hinner)).1
    | obj entries ih =>
      refine ⟨withinInside_obj ?_, by simp [itemsAt]⟩
      intro key inner hinner
      unfold itemsAt at hinner
      rw [at?_key] at hinner
      cases hlookup : entries.lookup key with
      | none => simp [hlookup] at hinner
      | some value =>
        refine (ih (key, value) (mem_of_lookup hlookup)).2 inner ?_
        simpa [itemsAt, hlookup] using hinner
  exact hall.1 w

end

end Json

namespace Sbctl

open Json Assoc Checker

/-- What a name in a profile stands for. -/
inductive Space where
  | outbound
  | server
  | ruleSet
  deriving DecidableEq

def referenceError (name kind target : String) : SubscriptionError :=
  .override (name ++ " 引用了不存在的 " ++ kind ++ ": " ++ target)

def checkReference (name kind : String) (known : List String) (target : String) :
    Except SubscriptionError Unit :=
  if target ∉ known then .error (referenceError name kind target) else .ok ()

/-- A resolver is a server's name or an object with one. -/
def resolver? (v : Json) (path : Path) : Option String :=
  v.text? path <|> v.text? (path ++ [.key "server"])

def tagReferences (v : Json) (path : Path) : List String :=
  (v.text? path).toList ++ texts (v.itemsAt path)

def tags (items : List Json) : List String := items.filterMap (·.text? [.key "tag"])

section
variable (name : String) (known : Space → List String)

def checkOut (target : String) : Except SubscriptionError Unit :=
  checkReference name "outbound" (known .outbound) target

def checkResolver (target : String) : Except SubscriptionError Unit :=
  checkReference name "DNS resolver" (known .server) target

def validateRouteTargets (value : Json) : Except SubscriptionError Unit := do
  (value.text? [.key "route", .key "default", .key "outbound"]).toList.forM (checkOut name known)
  (texts (value.itemsAt [.key "route", .key "default", .key "outbound"])).forM
    (checkOut name known)
  (value.text? [.key "route", .key "final"]).toList.forM (checkOut name known)
  (resolver? value [.key "route", .key "default_domain_resolver"]).toList.forM
    (checkResolver name known)
  (value.itemsAt [.key "route", .key "rule_set"]).forM fun set =>
    (set.text? [.key "download_detour"]).toList.forM (checkOut name known)

def validateOutbound (outbound : Json) : Except SubscriptionError Unit := do
  (outbound.text? [.key "detour"]).toList.forM (checkOut name known)
  (outbound.text? [.key "default"]).toList.forM (checkOut name known)
  (texts (outbound.itemsAt [.key "outbounds"])).forM (checkOut name known)
  (outbound.text? [.key "download_detour"]).toList.forM (checkOut name known)
  (outbound.text? [.key "address_resolver"]).toList.forM (checkResolver name known)
  (resolver? outbound [.key "domain_resolver"]).toList.forM (checkResolver name known)

def walkRule (rule : Json) : Except SubscriptionError Unit := do
  (rule.text? [.key "outbound"]).toList.forM (checkOut name known)
  (tagReferences rule [.key "rule_set"]).forM (checkReference name "rule-set" (known .ruleSet))

/-- Each rule, then the rules nested in it. -/
def walkRules (rules : List Json) : Except SubscriptionError Unit :=
  (withinItems ["rules", "rule"] rules).forM (walkRule name known)

def validateDnsTargets (value : Json) : Except SubscriptionError Unit := do
  (value.text? [.key "dns", .key "final"]).toList.forM
    (checkReference name "DNS server" (known .server))
  (value.text? [.key "dns", .key "default_domain_resolver", .key "server"]).toList.forM
    (checkResolver name known)

def validateServer (server : Json) : Except SubscriptionError Unit := do
  (server.text? [.key "detour"]).toList.forM (checkOut name known)
  (resolver? server [.key "domain_resolver"]).toList.forM (checkResolver name known)
  (resolver? server [.key "address_resolver"]).toList.forM (checkResolver name known)

def walkDnsRule (rule : Json) : Except SubscriptionError Unit := do
  (rule.text? [.key "server"]).toList.forM (checkReference name "DNS server" (known .server))
  (tagReferences rule [.key "rule_set"]).forM
    (checkReference name "DNS rule-set" (known .ruleSet))

def walkDnsRules (rules : List Json) : Except SubscriptionError Unit :=
  (withinItems ["rules"] rules).forM (walkDnsRule name known)

end

/-- Where a profile declares the names of a space. -/
def Space.path : Space → Path
  | .outbound => [.key "outbounds"]
  | .server => [.key "dns", .key "servers"]
  | .ruleSet => [.key "route", .key "rule_set"]

def validateSingBoxReferences (name : String) (value : Json) : Except SubscriptionError Unit := do
  let known := fun space : Space => tags (value.itemsAt space.path)
  validateRouteTargets name known value
  (value.itemsAt [.key "outbounds"]).forM (validateOutbound name known)
  walkRules name known (value.itemsAt [.key "route", .key "rules"])
  validateDnsTargets name known value
  (value.itemsAt [.key "dns", .key "servers"]).forM (validateServer name known)
  walkDnsRules name known (value.itemsAt [.key "dns", .key "rules"])

/-! ## Where a profile refers to something -/

/-- A name, or an object that holds it. -/
inductive ResolverSite (key : String) : Path → Prop where
  | name : ResolverSite key [.key key]
  | server : ResolverSite key [.key key, .key "server"]

/-- A name, or a list of them. -/
inductive TagSite (key : String) : Path → Prop where
  | one : TagSite key [.key key]
  | listed (i : Nat) : TagSite key [.key key, .index i]

inductive RouteSite : Path → Space → Prop where
  | defaultOutbound {path : Path} (h : TagSite "outbound" path) :
      RouteSite (.key "default" :: path) .outbound
  | final : RouteSite [.key "final"] .outbound
  | resolver {path : Path} (h : ResolverSite "default_domain_resolver" path) :
      RouteSite path .server
  | detour (i : Nat) : RouteSite [.key "rule_set", .index i, .key "download_detour"] .outbound

inductive OutboundSite : Path → Space → Prop where
  | target {key : String} (h : key ∈ ["detour", "default", "download_detour"]) :
      OutboundSite [.key key] .outbound
  | member (i : Nat) : OutboundSite [.key "outbounds", .index i] .outbound
  | address : OutboundSite [.key "address_resolver"] .server
  | resolver {path : Path} (h : ResolverSite "domain_resolver" path) : OutboundSite path .server

inductive RuleSite : Path → Space → Prop where
  | outbound : RuleSite [.key "outbound"] .outbound
  | ruleSet {path : Path} (h : TagSite "rule_set" path) : RuleSite path .ruleSet

inductive DnsSite : Path → Space → Prop where
  | final : DnsSite [.key "final"] .server
  | resolver : DnsSite [.key "default_domain_resolver", .key "server"] .server

inductive ServerSite : Path → Space → Prop where
  | detour : ServerSite [.key "detour"] .outbound
  | resolver {key : String} {path : Path} (hkey : key ∈ ["domain_resolver", "address_resolver"])
      (h : ResolverSite key path) : ServerSite path .server

inductive DnsRuleSite : Path → Space → Prop where
  | server : DnsRuleSite [.key "server"] .server
  | ruleSet {path : Path} (h : TagSite "rule_set" path) : DnsRuleSite path .ruleSet

/-- The places of a profile that refer to something. -/
inductive Site : Path → Space → Prop where
  | route {path : Path} {space : Space} (h : RouteSite path space) :
      Site (.key "route" :: path) space
  | outbound (i : Nat) {path : Path} {space : Space} (h : OutboundSite path space) :
      Site (.key "outbounds" :: .index i :: path) space
  | rule (i : Nat) {inner path : Path} {space : Space} (hinner : Inside ["rules", "rule"] inner)
      (h : RuleSite path space) :
      Site (.key "route" :: .key "rules" :: .index i :: (inner ++ path)) space
  | dns {path : Path} {space : Space} (h : DnsSite path space) : Site (.key "dns" :: path) space
  | server (i : Nat) {path : Path} {space : Space} (h : ServerSite path space) :
      Site (.key "dns" :: .key "servers" :: .index i :: path) space
  | dnsRule (i : Nat) {inner path : Path} {space : Space} (hinner : Inside ["rules"] inner)
      (h : DnsRuleSite path space) :
      Site (.key "dns" :: .key "rules" :: .index i :: (inner ++ path)) space

def Declares (v : Json) (space : Space) (target : String) : Prop :=
  ∃ i, v.at? (space.path ++ [.index i, .key "tag"]) = some (.str target)

/-- The words of errors about names of a space. -/
def Space.kinds : Space → List String
  | .outbound => ["outbound"]
  | .server => ["DNS resolver", "DNS server"]
  | .ruleSet => ["rule-set", "DNS rule-set"]

/-! ## What is checked -/

section
variable {name : String} {known : Space → List String} {v : Json} {path : Path} {space : Space}

abbrev Missing (known : Space → List String) (item : Space × String) : Prop :=
  item.2 ∉ known item.1

abbrev Blames (name : String) (e : SubscriptionError) (item : Space × String) : Prop :=
  ∃ kind ∈ item.1.kinds, e = referenceError name kind item.2

/-- A check looks at the texts that some paths of a value lead to. -/
abbrev ChecksAt (name : String) (known : Space → List String) (v : Json)
    (sites : Path → Space → Prop) (check : Except SubscriptionError Unit) : Prop :=
  Checks (Missing known) (Blames name)
    (fun item => ∃ path, sites path item.1 ∧ v.at? path = some (.str item.2)) check

namespace ChecksAt

variable {sites others : Path → Space → Prop} {check next : Except SubscriptionError Unit}

theorem congr (h : ChecksAt name known v sites check)
    (heq : ∀ path space, sites path space ↔ others path space) :
    ChecksAt name known v others check := by
  refine Checks.congr h fun item => ?_
  simp only [heq]

theorem bind (h : ChecksAt name known v sites check) (hnext : ChecksAt name known v others next) :
    ChecksAt name known v (fun path space => sites path space ∨ others path space)
      (check >>= fun _ => next) := by
  refine (Checks.bind h hnext).congr fun item => ?_
  constructor
  · rintro (⟨path, hsite, hat⟩ | ⟨path, hsite, hat⟩)
    · exact ⟨path, .inl hsite, hat⟩
    · exact ⟨path, .inr hsite, hat⟩
  · rintro ⟨path, hsite | hsite, hat⟩
    · exact .inl ⟨path, hsite, hat⟩
    · exact .inr ⟨path, hsite, hat⟩

/-- A check of each value that a path of another way leads to. -/
theorem forM {inner : Path → Prop} {items : List Json}
    {check : Json → Except SubscriptionError Unit}
    (hitems : ∀ item, item ∈ items ↔ ∃ path, inner path ∧ v.at? path = some item)
    (h : ∀ item ∈ items, ChecksAt name known item sites (check item)) :
    ChecksAt name known v
      (fun path space => ∃ front rest, path = front ++ rest ∧ inner front ∧ sites rest space)
      (items.forM check) := by
  refine (Checks.forM h).congr fun target => ?_
  constructor
  · rintro ⟨item, hitem, rest, hsite, hat⟩
    obtain ⟨front, hinner, hfront⟩ := (hitems item).mp hitem
    refine ⟨front ++ rest, ⟨front, rest, rfl, hinner, hsite⟩, ?_⟩
    rw [at?_append, hfront]
    exact hat
  · rintro ⟨_, ⟨front, rest, rfl, hinner, hsite⟩, hat⟩
    rw [at?_append, Option.bind_eq_some_iff] at hat
    obtain ⟨item, hfront, hrest⟩ := hat
    exact ⟨item, (hitems item).mpr ⟨front, hinner, hfront⟩, rest, hsite, hrest⟩

end ChecksAt

theorem forM_checks {kind : String} (hkind : kind ∈ space.kinds) (targets : List String) :
    Checks (Missing known) (Blames name) (fun item => item.1 = space ∧ item.2 ∈ targets)
      (targets.forM (checkReference name kind (known space))) := by
  have hsingle (target : String) : Checks (Missing known) (Blames name) (· = (space, target))
      (checkReference name kind (known space) target) := by
    unfold checkReference
    exact Checks.single ⟨kind, hkind, rfl⟩
  refine (Checks.forM fun target _ => hsingle target).congr fun item => ?_
  obtain ⟨other, target⟩ := item
  simp only [Prod.mk.injEq]
  constructor
  · rintro ⟨target', hmem, rfl, rfl⟩
    exact ⟨rfl, hmem⟩
  · rintro ⟨rfl, hmem⟩
    exact ⟨target, hmem, rfl, rfl⟩

theorem text_checks {kind : String} (hkind : kind ∈ space.kinds) (v : Json) (path : Path) :
    ChecksAt name known v (fun p s => p = path ∧ s = space)
      ((v.text? path).toList.forM (checkReference name kind (known space))) := by
  refine (forM_checks hkind _).congr fun item => ?_
  rw [Option.mem_toList, text?_eq_some]
  constructor
  · rintro ⟨hspace, hat⟩
    exact ⟨path, ⟨rfl, hspace⟩, hat⟩
  · rintro ⟨_, ⟨rfl, hspace⟩, hat⟩
    exact ⟨hspace, hat⟩

theorem texts_checks {kind : String} (hkind : kind ∈ space.kinds) (v : Json) (path : Path) :
    ChecksAt name known v (fun p s => (∃ i, p = path ++ [.index i]) ∧ s = space)
      ((texts (v.itemsAt path)).forM (checkReference name kind (known space))) := by
  refine (forM_checks hkind _).congr fun item => ?_
  rw [mem_texts]
  constructor
  · rintro ⟨hspace, i, hat⟩
    exact ⟨_, ⟨⟨i, rfl⟩, hspace⟩, hat⟩
  · rintro ⟨_, ⟨⟨i, rfl⟩, hspace⟩, hat⟩
    exact ⟨hspace, i, hat⟩

theorem tagReferences_checks {kind : String} (hkind : kind ∈ space.kinds) (v : Json)
    (key : String) :
    ChecksAt name known v (fun p s => TagSite key p ∧ s = space)
      ((tagReferences v [.key key]).forM (checkReference name kind (known space))) := by
  refine (forM_checks hkind _).congr fun item => ?_
  rw [tagReferences, List.mem_append, Option.mem_toList, text?_eq_some, mem_texts]
  constructor
  · rintro ⟨hspace, hat | ⟨i, hat⟩⟩
    · exact ⟨_, ⟨.one, hspace⟩, hat⟩
    · exact ⟨_, ⟨.listed i, hspace⟩, hat⟩
  · rintro ⟨_, ⟨_ | i, hspace⟩, hat⟩
    · exact ⟨hspace, .inl hat⟩
    · exact ⟨hspace, .inr ⟨i, hat⟩⟩

/-- A value with a text is no object that holds one. -/
theorem resolver?_eq_some {key target : String} :
    resolver? v (path ++ [.key key]) = some target ↔
      v.at? (path ++ [.key key]) = some (.str target) ∨
        v.at? (path ++ [.key key, .key "server"]) = some (.str target) := by
  have happend : path ++ [.key key, .key "server"] =
      (path ++ [.key key]) ++ [Step.key "server"] := by
    simp
  rw [resolver?, happend]
  cases hfirst : v.text? (path ++ [.key key]) with
  | some text =>
    have hat := text?_eq_some.mp hfirst
    have hserver : v.at? ((path ++ [.key key]) ++ [Step.key "server"]) = none := by
      rw [at?_append, hat]
      simp [at?]
    rw [hat, hserver]
    simp
  | none =>
    have hnone : ¬ v.at? (path ++ [.key key]) = some (.str target) := by
      rw [← text?_eq_some, hfirst]
      nofun
    simp [hnone, text?_eq_some]

theorem resolver_checks (v : Json) (front : Path) (key : String) :
    ChecksAt name known v (fun p s => (∃ rest, p = front ++ rest ∧ ResolverSite key rest) ∧
        s = .server)
      ((resolver? v (front ++ [.key key])).toList.forM (checkResolver name known)) := by
  refine (forM_checks (by decide) _).congr fun item => ?_
  rw [Option.mem_toList, resolver?_eq_some]
  constructor
  · rintro ⟨hspace, hat | hat⟩
    · exact ⟨_, ⟨⟨_, rfl, .name⟩, hspace⟩, hat⟩
    · exact ⟨_, ⟨⟨_, rfl, .server⟩, hspace⟩, hat⟩
  · rintro ⟨_, ⟨⟨rest, rfl, _ | _⟩, hspace⟩, hat⟩
    · exact ⟨hspace, .inl hat⟩
    · exact ⟨hspace, .inr hat⟩

theorem out_checks (v : Json) (path : Path) :
    ChecksAt name known v (fun p s => p = path ∧ s = .outbound)
      ((v.text? path).toList.forM (checkOut name known)) := text_checks (by decide) v path

theorem outs_checks (v : Json) (path : Path) :
    ChecksAt name known v (fun p s => (∃ i, p = path ++ [.index i]) ∧ s = .outbound)
      ((texts (v.itemsAt path)).forM (checkOut name known)) := texts_checks (by decide) v path

/-- A check of each item of an array. -/
theorem items_checks {sites : Path → Space → Prop} {check : Json → Except SubscriptionError Unit}
    (h : ∀ item, ChecksAt name known item sites (check item)) (v : Json) (path : Path) :
    ChecksAt name known v
      (fun p s => ∃ front rest, p = front ++ rest ∧ (∃ i, front = path ++ [.index i]) ∧
        sites rest s)
      ((v.itemsAt path).forM check) := by
  refine ChecksAt.forM (fun item => ?_) fun item _ => h item
  rw [mem_itemsAt]
  constructor
  · rintro ⟨i, hi⟩
    exact ⟨_, ⟨i, rfl⟩, hi⟩
  · rintro ⟨_, ⟨i, rfl⟩, hi⟩
    exact ⟨i, hi⟩

/-- A check of each rule of an array and those nested in it. -/
theorem within_checks {sites : Path → Space → Prop} {check : Json → Except SubscriptionError Unit}
    (h : ∀ rule, ChecksAt name known rule sites (check rule)) (keys : List String) (v : Json)
    (path : Path) :
    ChecksAt name known v
      (fun p s => ∃ front rest, p = front ++ rest ∧
        (∃ i inner, front = path ++ .index i :: inner ∧ Inside keys inner) ∧ sites rest s)
      ((withinItems keys (v.itemsAt path)).forM check) := by
  refine ChecksAt.forM (fun rule => ?_) fun rule _ => h rule
  rw [withinItems_eq, List.mem_flatMap]
  constructor
  · rintro ⟨item, hitem, hrule⟩
    obtain ⟨i, hi⟩ := mem_itemsAt.mp hitem
    obtain ⟨inner, hinside, hat⟩ := mem_within.mp hrule
    refine ⟨_, ⟨i, inner, rfl, hinside⟩, ?_⟩
    rw [← List.singleton_append, ← List.append_assoc, at?_append, hi]
    exact hat
  · rintro ⟨_, ⟨i, inner, rfl, hinside⟩, hat⟩
    rw [← List.singleton_append, ← List.append_assoc, at?_append, Option.bind_eq_some_iff] at hat
    obtain ⟨item, hi, hrule⟩ := hat
    exact ⟨item, mem_itemsAt.mpr ⟨i, hi⟩, mem_within.mpr ⟨inner, hinside, hrule⟩⟩

theorem validateRouteTargets_checks (v : Json) :
    ChecksAt name known v (fun p s => ∃ rest, p = .key "route" :: rest ∧ RouteSite rest s)
      (validateRouteTargets name known v) := by
  unfold validateRouteTargets
  refine ((out_checks v [.key "route", .key "default", .key "outbound"]).bind <|
    (outs_checks v [.key "route", .key "default", .key "outbound"]).bind <|
    (out_checks v [.key "route", .key "final"]).bind <|
    (resolver_checks v [.key "route"] "default_domain_resolver").bind <|
    items_checks (fun set => out_checks set [.key "download_detour"]) v
      [.key "route", .key "rule_set"]).congr fun path space => ?_
  constructor
  · rintro (⟨rfl, rfl⟩ | ⟨⟨i, rfl⟩, rfl⟩ | ⟨rfl, rfl⟩ | ⟨⟨rest, rfl, h⟩, rfl⟩ |
      ⟨_, _, rfl, ⟨i, rfl⟩, rfl, rfl⟩)
    · exact ⟨_, rfl, .defaultOutbound .one⟩
    · exact ⟨_, rfl, .defaultOutbound (.listed i)⟩
    · exact ⟨_, rfl, .final⟩
    · exact ⟨_, rfl, .resolver h⟩
    · exact ⟨_, rfl, .detour i⟩
  · rintro ⟨rest, rfl, h⟩
    cases h with
    | defaultOutbound h =>
      cases h with
      | one => exact .inl ⟨rfl, rfl⟩
      | listed i => exact .inr (.inl ⟨⟨i, rfl⟩, rfl⟩)
    | final => exact .inr (.inr (.inl ⟨rfl, rfl⟩))
    | resolver h => exact .inr (.inr (.inr (.inl ⟨⟨_, rfl, h⟩, rfl⟩)))
    | detour i => exact .inr (.inr (.inr (.inr ⟨_, _, rfl, ⟨i, rfl⟩, rfl, rfl⟩)))

theorem validateOutbound_checks (outbound : Json) :
    ChecksAt name known outbound OutboundSite (validateOutbound name known outbound) := by
  unfold validateOutbound
  refine ((out_checks outbound [.key "detour"]).bind <|
    (out_checks outbound [.key "default"]).bind <|
    (outs_checks outbound [.key "outbounds"]).bind <|
    (out_checks outbound [.key "download_detour"]).bind <|
    (text_checks (by decide) outbound [.key "address_resolver"]).bind <|
    resolver_checks outbound [] "domain_resolver").congr fun path space => ?_
  constructor
  · rintro (⟨rfl, rfl⟩ | ⟨rfl, rfl⟩ | ⟨⟨i, rfl⟩, rfl⟩ | ⟨rfl, rfl⟩ | ⟨rfl, rfl⟩ |
      ⟨⟨rest, rfl, h⟩, rfl⟩)
    · exact .target (by simp)
    · exact .target (by simp)
    · exact .member i
    · exact .target (by simp)
    · exact .address
    · exact .resolver h
  · intro h
    cases h with
    | target hkey =>
      simp only [List.mem_cons, List.not_mem_nil, or_false] at hkey
      obtain rfl | rfl | rfl := hkey
      · exact .inl ⟨rfl, rfl⟩
      · exact .inr (.inl ⟨rfl, rfl⟩)
      · exact .inr (.inr (.inr (.inl ⟨rfl, rfl⟩)))
    | member i => exact .inr (.inr (.inl ⟨⟨i, rfl⟩, rfl⟩))
    | address => exact .inr (.inr (.inr (.inr (.inl ⟨rfl, rfl⟩))))
    | resolver h => exact .inr (.inr (.inr (.inr (.inr ⟨⟨_, rfl, h⟩, rfl⟩))))

theorem walkRule_checks (rule : Json) :
    ChecksAt name known rule RuleSite (walkRule name known rule) := by
  unfold walkRule
  refine ((out_checks rule [.key "outbound"]).bind <|
    tagReferences_checks (by decide) rule "rule_set").congr fun path space => ?_
  constructor
  · rintro (⟨rfl, rfl⟩ | ⟨h, rfl⟩)
    · exact .outbound
    · exact .ruleSet h
  · intro h
    cases h with
    | outbound => exact .inl ⟨rfl, rfl⟩
    | ruleSet h => exact .inr ⟨h, rfl⟩

theorem validateDnsTargets_checks (v : Json) :
    ChecksAt name known v (fun p s => ∃ rest, p = .key "dns" :: rest ∧ DnsSite rest s)
      (validateDnsTargets name known v) := by
  unfold validateDnsTargets
  refine ((text_checks (by decide) v [.key "dns", .key "final"]).bind <|
    text_checks (by decide) v
      [.key "dns", .key "default_domain_resolver", .key "server"]).congr fun path space => ?_
  constructor
  · rintro (⟨rfl, rfl⟩ | ⟨rfl, rfl⟩)
    · exact ⟨_, rfl, .final⟩
    · exact ⟨_, rfl, .resolver⟩
  · rintro ⟨rest, rfl, h⟩
    cases h with
    | final => exact .inl ⟨rfl, rfl⟩
    | resolver => exact .inr ⟨rfl, rfl⟩

theorem validateServer_checks (server : Json) :
    ChecksAt name known server ServerSite (validateServer name known server) := by
  unfold validateServer
  refine ((out_checks server [.key "detour"]).bind <|
    (resolver_checks server [] "domain_resolver").bind <|
    resolver_checks server [] "address_resolver").congr fun path space => ?_
  constructor
  · rintro (⟨rfl, rfl⟩ | ⟨⟨rest, rfl, h⟩, rfl⟩ | ⟨⟨rest, rfl, h⟩, rfl⟩)
    · exact .detour
    · exact .resolver (by simp) h
    · exact .resolver (by simp) h
  · intro h
    cases h with
    | detour => exact .inl ⟨rfl, rfl⟩
    | resolver hkey h =>
      simp only [List.mem_cons, List.not_mem_nil, or_false] at hkey
      obtain rfl | rfl := hkey
      · exact .inr (.inl ⟨⟨_, rfl, h⟩, rfl⟩)
      · exact .inr (.inr ⟨⟨_, rfl, h⟩, rfl⟩)

theorem walkDnsRule_checks (rule : Json) :
    ChecksAt name known rule DnsRuleSite (walkDnsRule name known rule) := by
  unfold walkDnsRule
  refine ((text_checks (by decide) rule [.key "server"]).bind <|
    tagReferences_checks (by decide) rule "rule_set").congr fun path space => ?_
  constructor
  · rintro (⟨rfl, rfl⟩ | ⟨h, rfl⟩)
    · exact .server
    · exact .ruleSet h
  · intro h
    cases h with
    | server => exact .inl ⟨rfl, rfl⟩
    | ruleSet h => exact .inr ⟨h, rfl⟩

theorem validateSingBoxReferences_checks (v : Json) :
    ChecksAt name (fun space => tags (v.itemsAt space.path)) v Site
      (validateSingBoxReferences name v) := by
  unfold validateSingBoxReferences
  refine ((validateRouteTargets_checks v).bind <|
    (items_checks validateOutbound_checks v [.key "outbounds"]).bind <|
    (within_checks walkRule_checks ["rules", "rule"] v [.key "route", .key "rules"]).bind <|
    (validateDnsTargets_checks v).bind <|
    (items_checks validateServer_checks v [.key "dns", .key "servers"]).bind <|
    within_checks walkDnsRule_checks ["rules"] v [.key "dns", .key "rules"]).congr
      fun path space => ?_
  constructor
  · rintro (⟨_, rfl, h⟩ | ⟨_, _, rfl, ⟨i, rfl⟩, h⟩ | ⟨_, _, rfl, ⟨i, inner, rfl, hinner⟩, h⟩ |
      ⟨_, rfl, h⟩ | ⟨_, _, rfl, ⟨i, rfl⟩, h⟩ | ⟨_, _, rfl, ⟨i, inner, rfl, hinner⟩, h⟩)
    · exact .route h
    · exact .outbound i h
    · exact .rule i hinner h
    · exact .dns h
    · exact .server i h
    · exact .dnsRule i hinner h
  · intro h
    cases h with
    | route h => exact .inl ⟨_, rfl, h⟩
    | outbound i h => exact .inr (.inl ⟨_, _, rfl, ⟨i, rfl⟩, h⟩)
    | rule i hinner h => exact .inr (.inr (.inl ⟨_, _, rfl, ⟨i, _, rfl, hinner⟩, h⟩))
    | dns h => exact .inr (.inr (.inr (.inl ⟨_, rfl, h⟩)))
    | server i h => exact .inr (.inr (.inr (.inr (.inl ⟨_, _, rfl, ⟨i, rfl⟩, h⟩))))
    | dnsRule i hinner h =>
      exact .inr (.inr (.inr (.inr (.inr ⟨_, _, rfl, ⟨i, _, rfl, hinner⟩, h⟩))))

theorem mem_tags {target : String} :
    target ∈ tags (v.itemsAt space.path) ↔ Declares v space target := by
  rw [tags, List.mem_filterMap, Declares]
  constructor
  · rintro ⟨item, hitem, htag⟩
    obtain ⟨i, hi⟩ := mem_itemsAt.mp hitem
    refine ⟨i, ?_⟩
    rw [show space.path ++ [.index i, .key "tag"] =
      (space.path ++ [Step.index i]) ++ [.key "tag"] by simp, at?_append, hi]
    exact text?_eq_some.mp htag
  · rintro ⟨i, hat⟩
    rw [show space.path ++ [.index i, .key "tag"] =
      (space.path ++ [Step.index i]) ++ [.key "tag"] by simp, at?_append,
      Option.bind_eq_some_iff] at hat
    obtain ⟨item, hi, htag⟩ := hat
    exact ⟨item, mem_itemsAt.mpr ⟨i, hi⟩, text?_eq_some.mpr htag⟩

end

section
variable {v w : Json} {lists : RuleLists} {legacyBlock : Bool}

theorem at?_keys (outer inner : String) (path : Path) (v : Json) :
    v.at? (.key outer :: .key inner :: path) =
      ((v.get? outer).bind (·.get? inner)).bind (at? path) := by
  cases v with
  | obj entries =>
    rw [at?_key, get?]
    cases entries.lookup outer with
    | none => rfl
    | some found => cases found <;> simp [at?, get?]
  | _ => simp [at?, get?]

theorem itemsAt_keys (outer inner : String) (v : Json) :
    v.itemsAt [.key outer, .key inner] = (v.arrayAt outer inner).getD [] := by
  rw [itemsAt, at?_keys, arrayAt]
  cases (v.get? outer).bind (·.get? inner) with
  | none => rfl
  | some found => cases found <;> simp

/-- An item of an array, wherever it stands. -/
theorem exists_at?_item (front rest : Path) (u : Json) :
    (∃ i, v.at? (front ++ .index i :: rest) = some u) ↔
      ∃ item ∈ v.itemsAt front, item.at? rest = some u := by
  constructor
  · rintro ⟨i, hat⟩
    rw [← List.singleton_append, ← List.append_assoc, at?_append, Option.bind_eq_some_iff] at hat
    obtain ⟨item, hi, hrest⟩ := hat
    exact ⟨item, mem_itemsAt.mpr ⟨i, hi⟩, hrest⟩
  · rintro ⟨item, hitem, hrest⟩
    obtain ⟨i, hi⟩ := mem_itemsAt.mp hitem
    refine ⟨i, ?_⟩
    rw [← List.singleton_append, ← List.append_assoc, at?_append, hi]
    exact hrest

theorem inner_modifyArray {inner other : String} (h : other ≠ inner) (outer : String)
    (change : List Json → List Json) (v : Json) :
    ((v.modifyArray outer inner change).get? outer).bind (·.get? other) =
      (v.get? outer).bind (·.get? other) := by
  unfold modifyArray
  split
  · rename_i entries
    split
    · rename_i inside hinside
      split
      · simp [get?, hinside, lookup_put, h]
      · rfl
    · rfl
  · rfl

/-- Beside the rules and the outbounds, what a profile refers to and what it declares
are where they were. -/
theorem at?_applySingBox {outer inner : String}
    (h : outer = "route" ∧ inner ≠ "rules" ∨ outer = "dns" ∧ inner ≠ "rules") (path : Path) :
    (lists.applySingBox legacyBlock v).at? (.key outer :: .key inner :: path) =
      v.at? (.key outer :: .key inner :: path) := by
  have hexceptions (w : Json) :
      ((lists.extendFakeIpDnsRule w).get? outer).bind (·.get? inner) =
        (w.get? outer).bind (·.get? inner) := by
    unfold RuleLists.extendFakeIpDnsRule
    split
    · rfl
    · obtain ⟨rfl, -⟩ | ⟨rfl, hinner⟩ := h
      · rw [get?_modifyArray_of_ne (by decide)]
      · exact inner_modifyArray hinner _ _ w
  have hroute (rules : List Json) :
      ((v.modifyArray "route" "rules" (rules ++ ·)).get? outer).bind (·.get? inner) =
        (v.get? outer).bind (·.get? inner) := by
    obtain ⟨rfl, hinner⟩ | ⟨rfl, -⟩ := h
    · exact inner_modifyArray hinner _ _ v
    · rw [get?_modifyArray_of_ne (by decide)]
  have houter : outer ≠ "outbounds" := by
    obtain ⟨rfl, -⟩ | ⟨rfl, -⟩ := h <;> decide
  rw [at?_keys, at?_keys]
  congr 1
  unfold RuleLists.applySingBox
  rw [hexceptions]
  split
  · rfl
  · dsimp only
    split
    · rw [get?_addBlockOut_of_ne houter, hroute]
    · exact hroute _

theorem itemsAt_congr {key : String} (h : v.get? key = w.get? key) :
    v.itemsAt [.key key] = w.itemsAt [.key key] := by
  have hget (u : Json) : u.at? [.key key] = u.get? key := by
    cases u with
    | obj entries =>
      rw [at?_key, get?]
      cases entries.lookup key <;> simp
    | _ => simp [at?, get?]
  rw [itemsAt, itemsAt, hget, hget, h]

def blockOutbound : Json := .obj [("type", .str "block"), ("tag", .str legacyBlockOutbound)]

theorem itemsAt_addBlockOut (v : Json) :
    (addBlockOut v).itemsAt [.key "outbounds"] = v.itemsAt [.key "outbounds"] ∨
      (addBlockOut v).itemsAt [.key "outbounds"] =
        v.itemsAt [.key "outbounds"] ++ [blockOutbound] := by
  unfold addBlockOut
  split
  · split
    · rename_i outbounds houtbounds
      split
      · exact .inl rfl
      · right
        simp [itemsAt, houtbounds, lookup_put, blockOutbound]
    · exact .inl rfl
  · exact .inl rfl

theorem itemsAt_outbounds :
    (lists.applySingBox legacyBlock v).itemsAt [.key "outbounds"] =
        v.itemsAt [.key "outbounds"] ∨
      (lists.applySingBox legacyBlock v).itemsAt [.key "outbounds"] =
        v.itemsAt [.key "outbounds"] ++ [blockOutbound] := by
  have hexceptions (w : Json) : (lists.extendFakeIpDnsRule w).itemsAt [.key "outbounds"] =
      w.itemsAt [.key "outbounds"] := by
    apply itemsAt_congr
    unfold RuleLists.extendFakeIpDnsRule
    split
    · rfl
    · exact get?_modifyArray_of_ne (by decide) _ _ w
  have hroute (rules : List Json) :
      (v.modifyArray "route" "rules" (rules ++ ·)).itemsAt [.key "outbounds"] =
        v.itemsAt [.key "outbounds"] :=
    itemsAt_congr (get?_modifyArray_of_ne (by decide) _ _ v)
  unfold RuleLists.applySingBox
  rw [hexceptions]
  split
  · exact .inl rfl
  · dsimp only
    split
    · rw [← hroute (lists.singBoxRules legacyBlock)]
      exact itemsAt_addBlockOut _
    · exact .inl (hroute _)

theorem declares_iff {space : Space} {target : String} :
    Declares v space target ↔
      ∃ item ∈ v.itemsAt space.path, item.at? [.key "tag"] = some (.str target) :=
  exists_at?_item space.path [.key "tag"] (.str target)

theorem declares_applySingBox {space : Space} {target : String} (h : Declares v space target) :
    Declares (lists.applySingBox legacyBlock v) space target := by
  cases space with
  | outbound =>
    obtain ⟨item, hitem, htag⟩ := declares_iff.mp h
    refine declares_iff.mpr ⟨item, ?_, htag⟩
    obtain hsame | hblock := @itemsAt_outbounds v lists legacyBlock
    · exact hsame.symm ▸ hitem
    · rw [Space.path, hblock]
      exact List.mem_append_left _ hitem
  | server =>
    obtain ⟨i, hat⟩ := h
    exact ⟨i, (at?_applySingBox (.inr ⟨rfl, by decide⟩) _).trans hat⟩
  | ruleSet =>
    obtain ⟨i, hat⟩ := h
    exact ⟨i, (at?_applySingBox (.inl ⟨rfl, by decide⟩) _).trans hat⟩

/-- Where a block needs an outbound, the profile has it. -/
theorem declares_block (hreject : lists.reject ≠ []) {target : String}
    (h : Declares v .outbound target) :
    Declares (lists.applySingBox true v) .outbound legacyBlockOutbound := by
  have hfound (w : Json) (hw : ∃ item, item ∈ w.itemsAt [.key "outbounds"]) :
      ∃ item ∈ (addBlockOut w).itemsAt [.key "outbounds"],
        item.at? [.key "tag"] = some (.str legacyBlockOutbound) := by
    obtain ⟨item, hitem⟩ := hw
    unfold itemsAt at hitem
    cases w with
    | obj entries =>
      rw [at?_key] at hitem
      cases hlookup : entries.lookup "outbounds" with
      | none => simp [hlookup] at hitem
      | some found =>
        cases found with
        | arr outbounds =>
          unfold addBlockOut
          simp only [hlookup]
          split
          · rename_i hany
            obtain ⟨o, ho, htag⟩ := List.any_eq_true.mp hany
            refine ⟨o, by simpa [itemsAt, hlookup] using ho, ?_⟩
            have hget : (o.get? "tag").bind asStr? = some legacyBlockOutbound := eq_of_beq htag
            obtain ⟨found, hfound, hstr⟩ := Option.bind_eq_some_iff.mp hget
            cases o with
            | obj fields =>
              rw [get?] at hfound
              rw [at?_key, hfound]
              cases found <;> simp_all [asStr?]
            | _ => cases hfound
          · refine ⟨blockOutbound, ?_, by simp [blockOutbound, lookup_cons_ite]⟩
            simp [itemsAt, lookup_put, blockOutbound]
        | _ => simp [hlookup] at hitem
    | _ => simp [at?] at hitem
  obtain ⟨item, hitem, -⟩ := declares_iff.mp h
  have hrules : (lists.singBoxRules true).isEmpty = false := by
    cases hlist : lists.reject with
    | nil => exact absurd hlist hreject
    | cons entry rest => simp [RuleLists.singBoxRules, RuleLists.entriesOf, hlist]
  have hlegacy : (true && !lists.reject.isEmpty) = true := by
    simp [hreject]
  rw [declares_iff]
  have hexceptions : (lists.applySingBox true v).itemsAt [.key "outbounds"] =
      (addBlockOut (v.modifyArray "route" "rules" (lists.singBoxRules true ++ ·))).itemsAt
        [.key "outbounds"] := by
    apply itemsAt_congr
    unfold RuleLists.applySingBox RuleLists.extendFakeIpDnsRule
    simp only [hrules, hlegacy, if_true, Bool.false_eq_true, if_false]
    split
    · rfl
    · exact get?_modifyArray_of_ne (by decide) _ _ _
  rw [Space.path, hexceptions]
  apply hfound
  refine ⟨item, ?_⟩
  rw [itemsAt_congr (get?_modifyArray_of_ne (by decide) _ _ v)]
  exact hitem

/-- A rule of the DNS is one that was there, or a copy that names other destinations. -/
theorem mem_extendDnsRules {rules : List Json} {item : Json}
    (h : item ∈ lists.extendDnsRules rules) :
    item ∈ rules ∨ ∃ target rule, .obj target ∈ rules ∧ item = .obj rule ∧
      ∀ key ∉ nameFields, rule.lookup key = target.lookup key := by
  obtain ⟨-, hsame⟩ | ⟨before, target, existing, after, rfl, -, -, -, hextended⟩ :=
    @extendDnsRules_cases lists rules
  · exact .inl (hsame ▸ h)
  · rw [hextended, List.mem_append, List.mem_append, List.map_cons, List.mem_cons] at h
    have htarget : Json.obj target ∈ before ++ .obj target :: after := by simp
    have hsuffix : "domain_suffix" ∈ nameFields := by decide
    obtain (hbefore | rfl | hadded) | hafter := h
    · exact .inl (List.mem_append_left _ hbefore)
    · refine .inr ⟨target, _, htarget, rfl, fun key hkey => ?_⟩
      have hne : key ≠ "domain_suffix" := fun heq => hkey (heq ▸ hsuffix)
      rw [lookup_put, if_neg hne]
    · obtain ⟨rule, hrule, rfl⟩ := List.mem_map.mp hadded
      obtain ⟨⟨matcher, field⟩, hpair, hsome⟩ := List.mem_filterMap.mp hrule
      refine .inr ⟨target, rule, htarget, rfl, fun key hkey => ?_⟩
      have hfield : field ∈ nameFields := by
        simp only [List.mem_cons, List.not_mem_nil, or_false, Prod.mk.injEq] at hpair
        obtain ⟨-, rfl⟩ | ⟨-, rfl⟩ := hpair <;> decide
      dsimp only at hsome
      split at hsome
      · cases hsome
      · cases hsome
        have hne : key ≠ "domain_suffix" := fun heq => hkey (heq ▸ hsuffix)
        have hnew : key ≠ field := fun heq => hkey (heq ▸ hfield)
        rw [lookup_put, if_neg hnew, lookup_remove, if_neg hne]
    · exact .inl (List.mem_append_right _ (List.mem_cons_of_mem _ hafter))

/-- The way of a DNS rule to what it refers to starts with no field that names
destinations. -/
theorem dnsRule_path {inner path : Path} {space : Space} (hinner : Inside ["rules"] inner)
    (hsite : DnsRuleSite path space) :
    ∃ key rest, inner ++ path = .key key :: rest ∧ key ∉ nameFields := by
  cases hinner with
  | here =>
    cases hsite with
    | server => exact ⟨_, _, rfl, by decide⟩
    | ruleSet h => cases h <;> exact ⟨_, _, rfl, by decide⟩
  | under hkey i h =>
    rw [List.mem_singleton.mp hkey]
    exact ⟨_, _, rfl, by decide⟩

/-- A rule of a list refers to an outbound of its verdict and to nothing else. -/
theorem singBoxRule_site {verdict : Verdict} {entry : RuleEntry} {inner path : Path}
    {space : Space} {target : String} (hinner : Inside ["rules", "rule"] inner)
    (hsite : RuleSite path space)
    (hat : (entry.singBoxRule (verdict.singBoxEntry legacyBlock)).at? (inner ++ path) =
      some (.str target)) :
    space = .outbound ∧ verdict.singBoxEntry legacyBlock = ("outbound", .str target) := by
  have hnone (key : String) (rest : Path)
      (hkey : key ∈ ["rules", "rule", "rule_set"]) :
      (entry.singBoxRule (verdict.singBoxEntry legacyBlock)).at? (.key key :: rest) = none := by
    have hfields : key ≠ (verdict.singBoxEntry legacyBlock).1 ∧
        key ≠ singBoxField entry.matcher := by
      have hfield := singBoxField_mem entry.matcher
      have hkeys : ∀ k ∈ ["rules", "rule", "rule_set"], k ∉ nameFields ∧
          k ≠ "outbound" ∧ k ≠ "action" := by
        simp only [List.forall_mem_cons]
        exact ⟨by decide, by decide, by decide, nofun⟩
      obtain ⟨hnames, hout, haction⟩ := hkeys key hkey
      refine ⟨?_, fun heq => hnames (heq ▸ hfield)⟩
      cases verdict with
      | reject => cases legacyBlock with
        | true => exact hout
        | false => exact haction
      | proxy => exact hout
      | direct => exact hout
    rw [RuleEntry.singBoxRule, at?_key, lookup_cons_ite, if_neg hfields.1, lookup_cons_ite,
      if_neg hfields.2]
    rfl
  cases hinner with
  | here =>
    cases hsite with
    | outbound =>
      refine ⟨rfl, ?_⟩
      rw [List.nil_append, RuleEntry.singBoxRule, at?_key, lookup_cons_ite] at hat
      have hfield : "outbound" ≠ singBoxField entry.matcher := by
        intro heq
        exact absurd (heq ▸ singBoxField_mem entry.matcher) (by decide)
      split at hat
      · rename_i hkey
        rw [Option.bind_some, at?_nil] at hat
        exact Prod.ext hkey.symm (Option.some.inj hat)
      · rw [lookup_cons_ite, if_neg hfield] at hat
        cases hat
    | ruleSet h =>
      cases h with
      | one =>
        rw [List.nil_append, hnone _ _ (by simp)] at hat
        cases hat
      | listed i =>
        rw [List.nil_append, hnone _ _ (by simp)] at hat
        cases hat
  | under hkey i h =>
    rw [List.cons_append, hnone _ _ (List.mem_append_left ["rule_set"] hkey)] at hat
    cases hat

/-- The outbound of a block refers to nothing. -/
theorem blockOutbound_site {rest : Path} {space : Space} {target : String}
    (hout : OutboundSite rest space) : blockOutbound.at? rest ≠ some (.str target) := by
  intro hat
  cases hout with
  | target hkey =>
    simp only [List.mem_cons, List.not_mem_nil, or_false] at hkey
    obtain rfl | rfl | rfl := hkey <;> simp [blockOutbound, lookup_cons_ite] at hat
  | member j => simp [blockOutbound, lookup_cons_ite] at hat
  | address => simp [blockOutbound, lookup_cons_ite] at hat
  | resolver h => cases h <;> simp [blockOutbound, lookup_cons_ite] at hat

/-- An outbound of the extended profile is an old one or the outbound of a block. -/
theorem outbound_origin {item : Json}
    (hitem : item ∈ (lists.applySingBox legacyBlock v).itemsAt [.key "outbounds"]) :
    item ∈ v.itemsAt [.key "outbounds"] ∨ item = blockOutbound := by
  obtain hsame | hblock := @itemsAt_outbounds v lists legacyBlock
  · exact .inl (hsame ▸ hitem)
  · rw [hblock, List.mem_append, List.mem_singleton] at hitem
    exact hitem

/-- A routing rule of the extended profile is an old one or an entry of a list. -/
theorem routeRule_origin {item : Json}
    (hitem : item ∈
      (lists.applySingBox legacyBlock v).itemsAt [.key "route", .key "rules"]) :
    item ∈ v.itemsAt [.key "route", .key "rules"] ∨ item ∈ lists.singBoxRules legacyBlock := by
  rw [itemsAt_keys, arrayAt_route] at hitem
  rw [itemsAt_keys]
  cases harray : v.arrayAt "route" "rules" with
  | none => simp [harray] at hitem
  | some rules =>
    rw [harray] at hitem
    exact (List.mem_append.mp hitem).symm

/-- What a DNS rule of the extended profile refers to, a rule it had before refers to. -/
theorem dnsRule_origin {item : Json} {inner rest : Path} {space : Space} {target : String}
    (hinner : Inside ["rules"] inner) (hrule : DnsRuleSite rest space)
    (hitem : item ∈
      (lists.applySingBox legacyBlock v).itemsAt [.key "dns", .key "rules"])
    (hat : item.at? (inner ++ rest) = some (.str target)) :
    ∃ old ∈ v.itemsAt [.key "dns", .key "rules"],
      old.at? (inner ++ rest) = some (.str target) := by
  rw [itemsAt_keys, arrayAt_dns] at hitem
  rw [itemsAt_keys]
  cases harray : v.arrayAt "dns" "rules" with
  | none => simp [harray] at hitem
  | some rules =>
    rw [harray, Option.map_some, Option.getD_some] at hitem
    rw [Option.getD_some]
    split at hitem
    · exact ⟨item, hitem, hat⟩
    · obtain hold | ⟨copied, fields, hcopied, rfl, hlookup⟩ := mem_extendDnsRules hitem
      · exact ⟨item, hold, hat⟩
      · obtain ⟨key, tail, hpath, hkey⟩ := dnsRule_path hinner hrule
        refine ⟨_, hcopied, ?_⟩
        rw [hpath, at?_key] at hat ⊢
        rw [← hlookup key hkey]
        exact hat

/-- The outbound of a verdict is there once a list has an entry of it. -/
theorem declares_verdict {verdict : Verdict} {entry : RuleEntry} {target : String}
    (hselector : Declares v .outbound selectorTag) (hdirect : Declares v .outbound directTag)
    (hlisted : entry ∈ lists.entriesOf verdict)
    (hverdict : verdict.singBoxEntry legacyBlock = ("outbound", .str target)) :
    Declares (lists.applySingBox legacyBlock v) .outbound target := by
  cases verdict with
  | reject =>
    cases legacyBlock with
    | true =>
      cases hverdict
      exact declares_block (List.ne_nil_of_mem hlisted) hselector
    | false => exact absurd (congrArg Prod.fst hverdict) (show "action" ≠ "outbound" by decide)
  | proxy =>
    cases hverdict
    exact declares_applySingBox hselector
  | direct =>
    cases hverdict
    exact declares_applySingBox hdirect

/-- The lists leave the places of the route and of the DNS section outside the rules as
they are. -/
theorem at?_applySingBox_section {outer : String} {rest : Path} {space : Space}
    (h : outer = "route" ∧ RouteSite rest space ∨ outer = "dns" ∧ DnsSite rest space) :
    (lists.applySingBox legacyBlock v).at? (.key outer :: rest) =
      v.at? (.key outer :: rest) := by
  obtain ⟨rfl, hroute⟩ | ⟨rfl, hdns⟩ := h
  · cases hroute with
    | defaultOutbound h => exact at?_applySingBox (.inl ⟨rfl, by decide⟩) _
    | final => exact at?_applySingBox (.inl ⟨rfl, by decide⟩) _
    | resolver h => cases h <;> exact at?_applySingBox (.inl ⟨rfl, by decide⟩) _
    | detour i => exact at?_applySingBox (.inl ⟨rfl, by decide⟩) _
  · cases hdns with
    | final => exact at?_applySingBox (.inr ⟨rfl, by decide⟩) _
    | resolver => exact at?_applySingBox (.inr ⟨rfl, by decide⟩) _

section
variable {name : String} {space : Space} {target : String}

/-- What a profile that passes refers to is there after the lists too. -/
theorem declares_of_checked (h : validateSingBoxReferences name v = .ok ())
    (hsite : Site path space) (hat : v.at? path = some (.str target)) :
    Declares (lists.applySingBox legacyBlock v) space target := by
  have hchecks := (@validateSingBoxReferences_checks name v).ok_iff.mp h
  exact declares_applySingBox
    (mem_tags.mp (not_not.mp (hchecks (space, target) ⟨path, hsite, hat⟩)))

theorem declares_of_item {front rest : Path} (h : validateSingBoxReferences name v = .ok ())
    (hsite : ∀ i, Site (front ++ .index i :: rest) space)
    (hold : ∃ item ∈ v.itemsAt front, item.at? rest = some (.str target)) :
    Declares (lists.applySingBox legacyBlock v) space target := by
  obtain ⟨i, hat⟩ := (exists_at?_item front rest (.str target)).mpr hold
  exact declares_of_checked h (hsite i) hat

end

/-- The operator's lists bring in no name that is missing: a profile that passes and
has the outbounds of the verdicts still passes with them. -/
theorem lists_keep_references {name : String} (h : validateSingBoxReferences name v = .ok ())
    (hselector : Declares v .outbound selectorTag) (hdirect : Declares v .outbound directTag)
    (lists : RuleLists) (legacyBlock : Bool) :
    validateSingBoxReferences name (lists.applySingBox legacyBlock v) = .ok () := by
  rw [(@validateSingBoxReferences_checks name _).ok_iff]
  rintro ⟨space, target⟩ ⟨path, hsite, hat⟩
  refine not_not.mpr (mem_tags.mpr ?_)
  dsimp only at hsite hat
  cases hsite with
  | route hroute =>
    rw [at?_applySingBox_section (.inl ⟨rfl, hroute⟩)] at hat
    exact declares_of_checked h (.route hroute) hat
  | dns hdns =>
    rw [at?_applySingBox_section (.inr ⟨rfl, hdns⟩)] at hat
    exact declares_of_checked h (.dns hdns) hat
  | server i hserver =>
    rw [at?_applySingBox (.inr ⟨rfl, by decide⟩)] at hat
    exact declares_of_checked h (.server i hserver) hat
  | @outbound i rest space hout =>
    obtain ⟨item, hitem, hrest⟩ := (exists_at?_item [.key "outbounds"] rest _).mp ⟨i, hat⟩
    obtain hold | rfl := outbound_origin hitem
    · exact declares_of_item h (fun j => .outbound j hout) ⟨item, hold, hrest⟩
    · exact absurd hrest (blockOutbound_site hout)
  | @rule i inner rest space hinner hrule =>
    obtain ⟨item, hitem, hrest⟩ :=
      (exists_at?_item [.key "route", .key "rules"] (inner ++ rest) _).mp ⟨i, hat⟩
    obtain hold | hlist := routeRule_origin hitem
    · exact declares_of_item h (fun j => .rule j hinner hrule) ⟨item, hold, hrest⟩
    · obtain ⟨verdict, -, hentry⟩ := List.mem_flatMap.mp hlist
      obtain ⟨entry, hlisted, rfl⟩ := List.mem_map.mp hentry
      obtain ⟨rfl, hverdict⟩ := singBoxRule_site hinner hrule hrest
      exact declares_verdict hselector hdirect hlisted hverdict
  | @dnsRule i inner rest space hinner hrule =>
    obtain ⟨item, hitem, hrest⟩ :=
      (exists_at?_item [.key "dns", .key "rules"] (inner ++ rest) _).mp ⟨i, hat⟩
    exact declares_of_item h (fun j => .dnsRule j hinner hrule)
      (dnsRule_origin hinner hrule hitem hrest)

end

def sampleProfile : Json :=
  .obj [("outbounds", .arr [.obj [("tag", .str selectorTag)], .obj [("tag", .str directTag)]]),
    ("route", .obj [("rules", .arr [.obj [("outbound", .str directTag)]])])]

theorem lists_keep_references_sample :
    validateSingBoxReferences "sample" (sampleLists.applySingBox true sampleProfile) = .ok () :=
  lists_keep_references rfl ⟨0, rfl⟩ ⟨1, rfl⟩ sampleLists true

end Sbctl
