import Sbctl.References

/-!
# References inside mihomo profiles

A mihomo profile names its proxies and groups, its rule providers and its proxy
providers, some of them inside the lines of its rules and of its DNS.

* `clash_references_checked`: a profile passes exactly if each of these names is
  declared, and an error is about one that is not;
* `lists_keep_clash_references`: the operator's lists bring in no name of their own
  that is missing.
-/

namespace Yaml

def itemsOf (v : Yaml) (key : String) : List Yaml :=
  match v.get? key with
  | some (.sequence items) => items
  | _ => []

def textsOf (v : Yaml) (key : String) : List String := (v.itemsOf key).filterMap asStr?

def textOf (v : Yaml) (key : String) : Option String := (v.get? key).bind asStr?

def entriesOf (v : Yaml) (key : String) : List (YamlKey × Yaml) :=
  match v.get? key with
  | some (.mapping entries) => entries
  | _ => []

def keysOf (v : Yaml) (key : String) : List String := (v.entriesOf key).filterMap (·.1.asStr)

mutual

/-- The texts anywhere in a value, but for those of its keys. -/
def leaves : Yaml → List String
  | .string s => [s]
  | .sequence items => leavesItems items
  | .mapping entries => leavesEntries entries
  | _ => []

def leavesItems : List Yaml → List String
  | [] => []
  | item :: rest => leaves item ++ leavesItems rest

def leavesEntries : List (YamlKey × Yaml) → List String
  | [] => []
  | (_, value) :: rest => leaves value ++ leavesEntries rest

end

end Yaml

namespace Sbctl

open Text Assoc Checker

def autoTag : String := "自动选择"

inductive ClashSpace where
  | policy
  | ruleProvider
  | proxyProvider
  deriving DecidableEq

def builtinPolicies : List String :=
  ["DIRECT", "REJECT", "REJECT-DROP", "COMPATIBLE", "PASS", "GLOBAL"]

/-- What a profile declares in each space. -/
def clashKnown (value : Yaml) : ClashSpace → List String
  | .policy => (value.itemsOf "proxies").filterMap (·.textOf "name") ++
      (value.itemsOf "proxy-groups").filterMap (·.textOf "name") ++ builtinPolicies
  | .ruleProvider => value.keysOf "rule-providers"
  | .proxyProvider => value.keysOf "proxy-providers"

/-- The last field of a rule that is no modifier. Rules of rules are left alone. -/
def ruleTarget (line : String) : Option String :=
  let parts := (splitChar ',' line.toList).map String.ofList
  if parts.head?.any (· ∈ ["AND", "OR", "NOT"]) then none
  else parts.reverse.find? fun field => field ∉ ["no-resolve", "src"]

/-- The set of a `RULE-SET` line. -/
def ruleSetOf (line : String) : Option String :=
  if startsWith line.toList "RULE-SET,".toList then
    some (String.ofList ((splitChar ',' line.toList)[1]?.getD []))
  else none

/-- The sets of a policy of the DNS. -/
def policySets (policy : String) : List String :=
  match stripPrefix "rule-set:".toList policy.toList with
  | some tags => (splitChar ',' tags).map fun tag => String.ofList (trim tag)
  | none => []

/-- What follows a `#` in the address of a DNS server. -/
def fragments (text : String) : List String :=
  ((splitChar '#' text.toList).drop 1).flatMap fun part =>
    (splitChar '&' part).map String.ofList

def dnsFlags : List String :=
  ["h3", "h2", "http3", "ecs", "ecs-override", "disable-ipv4", "disable-ipv6", "disable-aaaa",
    "prefer-h3", "no-resolve", "skip-cert-verify", "name-cert-verify", "RULES"]

section
variable (name : String) (known : ClashSpace → List String)

def checkPolicy (target : String) : Except SubscriptionError Unit :=
  if target ∉ known .policy ∧ target ∉ ["DIRECT", "REJECT", "PASS", "GLOBAL"] then
    .error (referenceError name "proxy/group" target)
  else .ok ()

/-- Any other unknown name may be an interface of the client. -/
def checkFragment (fragment : String) : Except SubscriptionError Unit :=
  let key := String.ofList ((splitChar '=' fragment.toList).headD [])
  if fragment ≠ "" ∧ key ∉ dnsFlags ∧ fragment = autoTag ∧ fragment ∉ known .policy then
    .error (referenceError name "DNS proxy/group" fragment)
  else .ok ()

/-- A filter names a set of rules after its prefix. -/
def filterSet (filter : String) : Option String :=
  (stripPrefix "rule-set:".toList filter.toList).map String.ofList

end

def policyKeys : List String := ["nameserver-policy", "proxy-server-nameserver-policy"]

def dnsServerKeys : List String :=
  ["nameserver-policy", "nameserver", "fallback", "default-nameserver", "direct-nameserver",
    "proxy-server-nameserver"]

def providerKeys : List String := ["rule-providers", "proxy-providers"]

def validateMihomoReferences (name : String) (value : Yaml) : Except SubscriptionError Unit := do
  let known := clashKnown value
  let dns := (value.get? "dns").getD .null
  let groups := value.itemsOf "proxy-groups"
  let rules := value.textsOf "rules"
  groups.forM fun group => (group.textsOf "proxies").forM (checkPolicy name known)
  rules.forM fun rule => (ruleTarget rule).toList.forM (checkPolicy name known)
  rules.forM fun rule =>
    (ruleSetOf rule).toList.forM (checkReference name "rule-set" (known .ruleProvider))
  policyKeys.forM fun key => (dns.keysOf key).forM fun policy =>
    (policySets policy).forM (checkReference name "DNS rule-set" (known .ruleProvider))
  dnsServerKeys.forM fun key => ((dns.get? key).getD .null).leaves.forM fun text =>
    (fragments text).forM (checkFragment name known)
  groups.forM fun group =>
    (group.textsOf "use").forM (checkReference name "proxy-provider" (known .proxyProvider))
  providerKeys.forM fun key => (value.entriesOf key).forM fun provider =>
    (provider.2.textOf "proxy").toList.forM
      (checkReference name "provider proxy/group" (known .policy))
  (dns.textsOf "fake-ip-filter").forM fun filter =>
    (filterSet filter).toList.forM
      (checkReference name "fake-ip-filter rule-set" (known .ruleProvider))

/-! ## Where a profile refers to something -/

/-- The names a profile uses, with the words of an error about them. -/
inductive ClashRefers (value : Yaml) : ClashSpace → String → String → Prop where
  | member {group : Yaml} {target : String} (hgroup : group ∈ value.itemsOf "proxy-groups")
      (h : target ∈ group.textsOf "proxies") : ClashRefers value .policy "proxy/group" target
  | rule {line target : String} (hline : line ∈ value.textsOf "rules")
      (h : ruleTarget line = some target) : ClashRefers value .policy "proxy/group" target
  | ruleSet {line target : String} (hline : line ∈ value.textsOf "rules")
      (h : ruleSetOf line = some target) : ClashRefers value .ruleProvider "rule-set" target
  | policy {dns : Yaml} {key policy target : String} (hdns : value.get? "dns" = some dns)
      (hkey : key ∈ policyKeys) (hpolicy : policy ∈ dns.keysOf key)
      (h : target ∈ policySets policy) : ClashRefers value .ruleProvider "DNS rule-set" target
  | server {dns found : Yaml} {key text : String} (hdns : value.get? "dns" = some dns)
      (hkey : key ∈ dnsServerKeys) (hfound : dns.get? key = some found)
      (htext : text ∈ found.leaves) (h : autoTag ∈ fragments text) :
      ClashRefers value .policy "DNS proxy/group" autoTag
  | use {group : Yaml} {target : String} (hgroup : group ∈ value.itemsOf "proxy-groups")
      (h : target ∈ group.textsOf "use") : ClashRefers value .proxyProvider "proxy-provider" target
  | provider {key target : String} {entry : YamlKey × Yaml} (hkey : key ∈ providerKeys)
      (hentry : entry ∈ value.entriesOf key) (h : entry.2.textOf "proxy" = some target) :
      ClashRefers value .policy "provider proxy/group" target
  | filter {dns : Yaml} {filter target : String} (hdns : value.get? "dns" = some dns)
      (hfilter : filter ∈ dns.textsOf "fake-ip-filter") (h : filterSet filter = some target) :
      ClashRefers value .ruleProvider "fake-ip-filter rule-set" target

/-- A name with its space and the words of an error about it. -/
abbrev ClashItem := ClashSpace × String × String

section
variable {name : String} {known : ClashSpace → List String} {value : Yaml}

abbrev ClashChecks (name : String) (known : ClashSpace → List String) (items : ClashItem → Prop)
    (check : Except SubscriptionError Unit) : Prop :=
  Checks (fun item : ClashItem => item.2.2 ∉ known item.1)
    (fun e item => e = referenceError name item.2.1 item.2.2) items check

theorem reference_checks (space : ClashSpace) (kind target : String) :
    ClashChecks name known (· = (space, kind, target))
      (checkReference name kind (known space) target) := by
  unfold checkReference
  exact Checks.single rfl

theorem checkPolicy_checks (hbuiltin : ∀ target ∈ builtinPolicies, target ∈ known .policy)
    (target : String) :
    ClashChecks name known (· = (.policy, "proxy/group", target))
      (checkPolicy name known target) := by
  have hcheck : checkPolicy name known target =
      checkReference name "proxy/group" (known .policy) target := by
    unfold checkPolicy checkReference
    by_cases hknown : target ∈ known .policy
    · rw [if_neg fun h => h.1 hknown, if_neg (not_not.mpr hknown)]
    · have hother : target ∉ ["DIRECT", "REJECT", "PASS", "GLOBAL"] := by
        intro hmem
        apply hknown
        apply hbuiltin
        simp only [List.mem_cons, List.not_mem_nil, or_false] at hmem
        obtain rfl | rfl | rfl | rfl := hmem <;> decide
      rw [if_pos ⟨hknown, hother⟩, if_pos hknown]
  rw [hcheck]
  exact reference_checks .policy _ target

theorem checkFragment_checks (fragment : String) :
    ClashChecks name known
      (fun item => fragment = autoTag ∧ item = (.policy, "DNS proxy/group", autoTag))
      (checkFragment name known fragment) := by
  by_cases hauto : fragment = autoTag
  · subst hauto
    have hcheck : checkFragment name known autoTag =
        checkReference name "DNS proxy/group" (known .policy) autoTag := by
      have hflag : String.ofList ((splitChar '=' autoTag.toList).headD []) ∉ dnsFlags := by decide
      have hne : autoTag ≠ "" := by decide
      simp only [checkFragment, checkReference, hflag, hne, ne_eq, not_false_eq_true, true_and]
    rw [hcheck]
    exact (reference_checks .policy _ autoTag).congr fun item => by simp
  · have hcheck : checkFragment name known fragment = .ok () :=
      if_neg fun h => hauto h.2.2.1
    rw [hcheck]
    exact Checks.pass.congr fun item => by simp [hauto]

theorem option_checks {space : ClashSpace} {kind : String} (target : Option String) :
    ClashChecks name known (fun item => ∃ t ∈ target, item = (space, kind, t))
      (target.toList.forM (checkReference name kind (known space))) := by
  refine (Checks.forM fun t _ => reference_checks space kind t).congr fun item => ?_
  simp only [Option.mem_toList, Option.mem_def]

theorem builtinPolicies_known (value : Yaml) :
    ∀ target ∈ builtinPolicies, target ∈ clashKnown value .policy :=
  fun _ h => List.mem_append_right _ h

/-- A value that is missing has nothing in it. -/
theorem getD_null {P : Yaml → Prop} (hnull : ¬ P .null) {found : Option Yaml} :
    P (found.getD .null) ↔ ∃ y, found = some y ∧ P y := by
  cases found with
  | none =>
    constructor
    · exact fun h => absurd h hnull
    · rintro ⟨y, hy, -⟩
      cases hy
  | some y => simp

theorem validateMihomoReferences_checks (name : String) (value : Yaml) :
    ClashChecks name (clashKnown value) (fun item => ClashRefers value item.1 item.2.1 item.2.2)
      (validateMihomoReferences name value) := by
  have hbuiltin := builtinPolicies_known value
  unfold validateMihomoReferences
  refine ((Checks.forM fun group _ => Checks.forM fun t _ => checkPolicy_checks hbuiltin t).bind <|
    (Checks.forM fun rule _ => Checks.forM fun t _ => checkPolicy_checks hbuiltin t).bind <|
    (Checks.forM fun rule _ => option_checks (ruleSetOf rule)).bind <|
    (Checks.forM fun key _ => Checks.forM fun policy _ =>
      Checks.forM fun t _ => reference_checks .ruleProvider "DNS rule-set" t).bind <|
    (Checks.forM fun key _ => Checks.forM fun text _ =>
      Checks.forM fun t _ => checkFragment_checks t).bind <|
    (Checks.forM fun group _ =>
      Checks.forM fun t _ => reference_checks .proxyProvider "proxy-provider" t).bind <|
    (Checks.forM fun key _ => Checks.forM fun provider _ =>
      option_checks (provider.2.textOf "proxy")).bind <|
    Checks.forM fun filter _ => option_checks (filterSet filter)).congr fun item => ?_
  constructor
  · rintro (⟨group, hgroup, t, ht, rfl⟩ | ⟨rule, hrule, t, ht, rfl⟩ | ⟨rule, hrule, t, ht, rfl⟩ |
      ⟨key, hkey, policy, hpolicy, t, ht, rfl⟩ | ⟨key, hkey, text, htext, t, ht, rfl, rfl⟩ |
      ⟨group, hgroup, t, ht, rfl⟩ | ⟨key, hkey, provider, hprovider, t, ht, rfl⟩ |
      ⟨filter, hfilter, t, ht, rfl⟩)
    · exact .member hgroup ht
    · exact .rule hrule (Option.mem_toList.mp ht)
    · exact .ruleSet hrule ht
    · obtain ⟨dns, hdns, hmem⟩ := (getD_null (P := (policy ∈ Yaml.keysOf · key)) nofun).mp hpolicy
      exact .policy hdns hkey hmem ht
    · obtain ⟨dns, hdns, hmem⟩ := (getD_null
        (P := fun dns => text ∈ ((dns.get? key).getD .null).leaves) nofun).mp htext
      obtain ⟨found, hfound, hleaf⟩ := (getD_null (P := (text ∈ Yaml.leaves ·)) nofun).mp hmem
      exact .server hdns hkey hfound hleaf ht
    · exact .use hgroup ht
    · exact .provider hkey hprovider ht
    · obtain ⟨dns, hdns, hmem⟩ :=
        (getD_null (P := (filter ∈ Yaml.textsOf · "fake-ip-filter")) nofun).mp hfilter
      exact .filter hdns hmem ht
  · obtain ⟨space, kind, target⟩ := item
    intro h
    dsimp only at h
    cases h with
    | member hgroup h => exact .inl ⟨_, hgroup, _, h, rfl⟩
    | rule hline h => exact .inr (.inl ⟨_, hline, _, Option.mem_toList.mpr h, rfl⟩)
    | ruleSet hline h => exact .inr (.inr (.inl ⟨_, hline, _, h, rfl⟩))
    | @policy dns key policy target hdns hkey hpolicy h =>
      have hmem : policy ∈ ((value.get? "dns").getD .null).keysOf key := by
        rw [hdns]
        exact hpolicy
      exact .inr (.inr (.inr (.inl ⟨_, hkey, _, hmem, _, h, rfl⟩)))
    | @server dns found key text hdns hkey hfound htext h =>
      have hmem : text ∈ ((((value.get? "dns").getD .null).get? key).getD .null).leaves := by
        rw [hdns, Option.getD_some, hfound]
        exact htext
      exact .inr (.inr (.inr (.inr (.inl ⟨_, hkey, _, hmem, _, h, rfl, rfl⟩))))
    | use hgroup h => exact .inr (.inr (.inr (.inr (.inr (.inl ⟨_, hgroup, _, h, rfl⟩)))))
    | provider hkey hentry h =>
      exact .inr (.inr (.inr (.inr (.inr (.inr (.inl ⟨_, hkey, _, hentry, _, h, rfl⟩))))))
    | @filter dns filter target hdns hfilter h =>
      have hmem : filter ∈ ((value.get? "dns").getD .null).textsOf "fake-ip-filter" := by
        rw [hdns]
        exact hfilter
      exact .inr (.inr (.inr (.inr (.inr (.inr (.inr ⟨_, hmem, _, h, rfl⟩))))))

end

section
variable {lib : RuleSyntax} {lists : RuleLists} {v : Yaml}

theorem get?_prependClashRules_of_ne {key : String} (h : key ≠ "rules") (rules : List String)
    (v : Yaml) : (prependClashRules rules v).get? key = v.get? key := by
  have hkey : YamlKey.string key ≠ .string "rules" := fun heq => h (YamlKey.string.inj heq)
  unfold prependClashRules
  split
  · split
    · split
      · rfl
      · rw [Yaml.get?, lookup_put, if_neg hkey]
        rfl
    · rfl
  · rfl

theorem get?_extendClashFilter_of_ne {key : String} (h : key ≠ "dns") (filter : List String)
    (v : Yaml) : (extendClashFilter filter v).get? key = v.get? key := by
  have hkey : YamlKey.string key ≠ .string "dns" := fun heq => h (YamlKey.string.inj heq)
  unfold extendClashFilter
  split
  · split
    · split
      · split
        · rfl
        · rw [Yaml.get?, lookup_put, if_neg hkey]
          rfl
      · rfl
    · rfl
  · rfl

theorem get?_applyClash {key : String} (hrules : key ≠ "rules") (hdns : key ≠ "dns") :
    (lists.applyClash v).get? key = v.get? key := by
  rw [RuleLists.applyClash, get?_extendClashFilter_of_ne hdns, get?_prependClashRules_of_ne hrules]

/-- A line of the profile is an old one or one of the lists. -/
theorem textsOf_rules {line : String} (h : line ∈ (lists.applyClash v).textsOf "rules") :
    line ∈ v.textsOf "rules" ∨ line ∈ lists.clashRules := by
  have hsame : (lists.applyClash v).textsOf "rules" =
      (prependClashRules lists.clashRules v).textsOf "rules" := by
    rw [Yaml.textsOf, Yaml.itemsOf, RuleLists.applyClash,
      get?_extendClashFilter_of_ne (by decide)]
    rfl
  rw [hsame] at h
  unfold prependClashRules at h
  split at h
  · rename_i entries
    split at h
    · rename_i existing hexisting
      split at h
      · exact .inl h
      · have htexts : (Yaml.mapping (put (YamlKey.string "rules")
            (Yaml.sequence (lists.clashRules.map Yaml.string ++ existing)) entries)).textsOf
              "rules" = lists.clashRules ++ existing.filterMap Yaml.asStr? := by
          have hmap : (lists.clashRules.map Yaml.string).filterMap Yaml.asStr? =
              lists.clashRules := by
            rw [List.filterMap_map]
            exact List.filterMap_some
          simp only [Yaml.textsOf, Yaml.itemsOf, Yaml.get?, lookup_put, if_true,
            List.filterMap_append, hmap]
        rw [htexts, List.mem_append] at h
        obtain hlist | hold := h
        · exact .inr hlist
        · left
          simp only [Yaml.textsOf, Yaml.itemsOf, Yaml.get?, hexisting]
          exact hold
    · exact .inl h
  · exact .inl h

theorem mem_extended {filter : List String} {existing : List Yaml} {item : Yaml}
    (h : item ∈ filter.foldl (fun extended entry =>
      if extended.any fun v => v.asStr? == some entry then extended
      else extended ++ [Yaml.string entry]) existing) :
    item ∈ existing ∨ ∃ entry ∈ filter, item = .string entry := by
  induction filter generalizing existing with
  | nil => exact .inl h
  | cons entry rest ih =>
    rw [List.foldl_cons] at h
    obtain hmem | ⟨other, hother, rfl⟩ := ih h
    · split at hmem
      · exact .inl hmem
      · obtain hold | hnew := List.mem_append.mp hmem
        · exact .inl hold
        · exact .inr ⟨entry, List.mem_cons_self, List.mem_singleton.mp hnew⟩
    · exact .inr ⟨other, List.mem_cons_of_mem _ hother, rfl⟩

/-- Of the DNS only the filter grows, by the exceptions. -/
theorem dns_applyClash {dns : Yaml} (h : (lists.applyClash v).get? "dns" = some dns) :
    ∃ old, v.get? "dns" = some old ∧ (∀ key ≠ "fake-ip-filter", dns.get? key = old.get? key) ∧
      ∀ text ∈ dns.textsOf "fake-ip-filter",
        text ∈ old.textsOf "fake-ip-filter" ∨ text ∈ lists.clashFakeIpFilter := by
  have hold (u : Yaml) (hu : v.get? "dns" = some u) :
      ∃ old, v.get? "dns" = some old ∧ (∀ key ≠ "fake-ip-filter", u.get? key = old.get? key) ∧
        ∀ text ∈ u.textsOf "fake-ip-filter",
          text ∈ old.textsOf "fake-ip-filter" ∨ text ∈ lists.clashFakeIpFilter :=
    ⟨u, hu, fun _ _ => rfl, fun _ ht => .inl ht⟩
  have hbefore := @get?_prependClashRules_of_ne "dns" (by decide) lists.clashRules v
  rw [RuleLists.applyClash] at h
  unfold extendClashFilter at h
  split at h
  · rename_i entries hentries
    split at h
    · rename_i fields hfields
      have hvalue : v.get? "dns" = some (.mapping fields) := by
        rw [← hbefore, hentries]
        exact hfields
      split at h
      · rename_i existing hexisting
        split at h
        · exact hold dns (hbefore.symm.trans h)
        · rw [Yaml.get?, lookup_put, if_pos rfl] at h
          cases h
          refine ⟨.mapping fields, hvalue, ?_, ?_⟩
          · intro key hkey
            have hne : YamlKey.string key ≠ .string "fake-ip-filter" := fun heq =>
              hkey (YamlKey.string.inj heq)
            rw [Yaml.get?, lookup_put, if_neg hne]
            rfl
          · intro text htext
            simp only [Yaml.textsOf, Yaml.itemsOf, Yaml.get?, lookup_put, if_true,
              List.mem_filterMap] at htext
            obtain ⟨item, hitem, hstr⟩ := htext
            obtain hmem | ⟨entry, hentry, rfl⟩ := mem_extended hitem
            · left
              simp only [Yaml.textsOf, Yaml.itemsOf, Yaml.get?, hexisting, List.mem_filterMap]
              exact ⟨item, hmem, hstr⟩
            · cases hstr
              exact .inr hentry
      · exact hold dns (hbefore.symm.trans h)
    · exact hold dns (hbefore.symm.trans h)
  · exact hold dns (hbefore.symm.trans h)

/-- The target of a list's line is that of its verdict, and the line names no set. -/
theorem ruleTarget_clashRule {verdict : Verdict} {entry : RuleEntry}
    (hmatcher : entry.matcher ∈ supportedMatchers) (hvalue : ',' ∉ entry.value.toList) :
    ruleTarget (entry.clashRule verdict.clashTarget) = some verdict.clashTarget ∧
      ruleSetOf (entry.clashRule verdict.clashTarget) = none := by
  have hmatchers := hmatcher
  simp only [supportedMatchers, List.mem_cons, List.not_mem_nil, or_false] at hmatchers
  constructor
  · have hlogical : entry.matcher ∉ ["AND", "OR", "NOT"] := by
      obtain h | h | h | h := hmatchers <;> rw [h] <;> decide
    have hmodifier : "no-resolve" ∈ ["no-resolve", "src"] := List.mem_cons_self
    have htarget : verdict.clashTarget ∉ ["no-resolve", "src"] := by cases verdict <;> decide
    have hparts (rest : List String) :
        ((entry.matcher :: entry.value :: verdict.clashTarget :: rest).head?.any
          (· ∈ ["AND", "OR", "NOT"])) = false := by
      rw [List.head?_cons, Option.any_some, decide_eq_false hlogical]
    rw [ruleTarget, splitChar_clashRule verdict hmatcher hvalue]
    by_cases hspares : entry.matcher = "IP-CIDR" ∧ entry.noResolve = true
    · rw [if_pos hspares]
      simp only [List.cons_append, List.nil_append, List.map_cons, List.map_nil,
        String.ofList_toList, hparts, List.reverse_cons, List.reverse_nil, List.find?_cons,
        decide_not, decide_eq_true hmodifier, decide_eq_false htarget, Bool.not_true,
        Bool.not_false, Bool.false_eq_true, if_false]
    · rw [if_neg hspares]
      simp only [List.append_nil, List.map_cons, List.map_nil, String.ofList_toList, hparts,
        List.reverse_cons, List.reverse_nil, List.nil_append, List.cons_append, List.find?_cons,
        decide_not, decide_eq_false htarget, Bool.not_false, Bool.false_eq_true, if_false]
  · have hstart : startsWith (entry.clashRule verdict.clashTarget).toList "RULE-SET,".toList =
        false := by
      obtain h | h | h | h := hmatchers <;> simp [RuleEntry.clashRule, h, startsWith, stripPrefix]
    rw [ruleSetOf, hstart]
    rfl

/-- The target of a line of the lists is built in or the group of the proxies. -/
theorem clashTarget_known (hselector : selectorTag ∈ clashKnown v .policy) (verdict : Verdict) :
    verdict.clashTarget ∈ clashKnown v .policy := by
  cases verdict with
  | reject => exact builtinPolicies_known v _ (by decide)
  | proxy => exact hselector
  | direct => exact builtinPolicies_known v _ (by decide)

/-- A line of the lists is one of an entry. -/
theorem mem_clashRules (hlists : lists.WellFormed lib) {line : String}
    (h : line ∈ lists.clashRules) :
    ∃ verdict : Verdict, ruleTarget line = some verdict.clashTarget ∧ ruleSetOf line = none := by
  obtain ⟨verdict, -, hline⟩ := List.mem_flatMap.mp h
  obtain ⟨entry, hentry, rfl⟩ := List.mem_map.mp hline
  obtain ⟨hmatcher, hvalue⟩ := hlists.matcher hentry
  exact ⟨verdict, ruleTarget_clashRule hmatcher hvalue⟩

/-- A profile with the operator's lists uses the names it used before, and policies that
every such profile has. -/
theorem refers_applyClash (hlists : lists.WellFormed lib)
    (hselector : selectorTag ∈ clashKnown v .policy)
    (hspelled : ∀ filter ∈ lists.clashFakeIpFilter, filterSet filter = none)
    {space : ClashSpace} {kind target : String}
    (h : ClashRefers (lists.applyClash v) space kind target) :
    ClashRefers v space kind target ∨ target ∈ clashKnown v space := by
  have hitems : (lists.applyClash v).itemsOf "proxy-groups" = v.itemsOf "proxy-groups" := by
    unfold Yaml.itemsOf
    rw [get?_applyClash (by decide) (by decide)]
  cases h with
  | member hgroup h => exact .inl (.member (hitems ▸ hgroup) h)
  | rule hline h =>
    obtain hold | hnew := textsOf_rules hline
    · exact .inl (.rule hold h)
    · obtain ⟨verdict, htarget, -⟩ := mem_clashRules hlists hnew
      obtain rfl := Option.some.inj (htarget.symm.trans h)
      exact .inr (clashTarget_known hselector verdict)
  | ruleSet hline h =>
    obtain hold | hnew := textsOf_rules hline
    · exact .inl (.ruleSet hold h)
    · obtain ⟨-, -, hset⟩ := mem_clashRules hlists hnew
      rw [hset] at h
      cases h
  | @policy dns key policy target hdns hkey hpolicy h =>
    obtain ⟨old, hold, hfields, -⟩ := dns_applyClash hdns
    have hne : key ≠ "fake-ip-filter" := by
      rintro rfl
      revert hkey
      decide
    have hkeys : dns.keysOf key = old.keysOf key := by
      unfold Yaml.keysOf Yaml.entriesOf
      rw [hfields key hne]
    exact .inl (.policy hold hkey (hkeys ▸ hpolicy) h)
  | @server dns found key text hdns hkey hfound htext h =>
    obtain ⟨old, hold, hfields, -⟩ := dns_applyClash hdns
    have hne : key ≠ "fake-ip-filter" := by
      rintro rfl
      revert hkey
      decide
    exact .inl (.server hold hkey (hfields key hne ▸ hfound) htext h)
  | use hgroup h => exact .inl (.use (hitems ▸ hgroup) h)
  | @provider key target entry hkey hentry h =>
    have hrules : key ≠ "rules" := by
      rintro rfl
      revert hkey
      decide
    have hdns : key ≠ "dns" := by
      rintro rfl
      revert hkey
      decide
    have hentries : (lists.applyClash v).entriesOf key = v.entriesOf key := by
      unfold Yaml.entriesOf
      rw [get?_applyClash hrules hdns]
    exact .inl (.provider hkey (hentries ▸ hentry) h)
  | filter hdns hfilter h =>
    obtain ⟨old, hold, -, htexts⟩ := dns_applyClash hdns
    obtain hbefore | hnew := htexts _ hfilter
    · exact .inl (.filter hold hbefore h)
    · rw [hspelled _ hnew] at h
      cases h

/-- The operator's lists bring in no name that is missing: a profile that passes and
has the group of the proxies still passes with them, if no exception is spelled as a
set of rules. -/
theorem lists_keep_clash_references (hlists : lists.WellFormed lib) {name : String}
    (h : validateMihomoReferences name v = .ok ())
    (hselector : selectorTag ∈ clashKnown v .policy)
    (hspelled : ∀ filter ∈ lists.clashFakeIpFilter, filterSet filter = none) :
    validateMihomoReferences name (lists.applyClash v) = .ok () := by
  have hknown : clashKnown (lists.applyClash v) = clashKnown v := by
    funext space
    cases space <;>
      simp only [clashKnown, Yaml.itemsOf, Yaml.keysOf, Yaml.entriesOf,
        get?_applyClash (show "proxies" ≠ "rules" by decide) (by decide),
        get?_applyClash (show "proxy-groups" ≠ "rules" by decide) (by decide),
        get?_applyClash (show "rule-providers" ≠ "rules" by decide) (by decide),
        get?_applyClash (show "proxy-providers" ≠ "rules" by decide) (by decide)]
  have hclosed := (validateMihomoReferences_checks name v).ok_iff.mp h
  rw [(validateMihomoReferences_checks name _).ok_iff]
  rintro ⟨space, kind, target⟩ hrefers
  rw [hknown]
  apply not_not.mpr
  obtain hold | hin := refers_applyClash hlists hselector hspelled hrefers
  · exact not_not.mp (hclosed (space, kind, target) hold)
  · exact hin

end

def sampleClashProfile : Yaml :=
  .mapping [(.string "proxy-groups", .sequence [.mapping [(.string "name", .string selectorTag)]]),
    (.string "dns", .mapping [(.string "fake-ip-filter", .sequence [])]),
    (.string "rules", .sequence [.string ("MATCH," ++ selectorTag)])]

theorem lists_keep_clash_references_sample :
    validateMihomoReferences "sample" (sampleLists.applyClash sampleClashProfile) = .ok () :=
  lists_keep_clash_references sampleLists_wellFormed (by decide) (by decide) (by decide)

end Sbctl
