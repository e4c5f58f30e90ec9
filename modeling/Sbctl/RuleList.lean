import Sbctl.Serve
import Sbctl.Lib.Lines

/-!
# Operator rule lists

One `TYPE,value` line for each rule, with comments and blank lines between.
The same lines are read by the loader, by the command line and by the import
of a downloaded list, and written by one printer.

* `loadText_listText`: a loaded list that is written loads again;
* `parseEntry_wellFormed`, `importLine_wellFormed`: what the other two readers
  accept is an entry the loader reads from its printed line.
-/

namespace Sbctl

open Text

inductive RuleKind where
  | direct
  | proxy
  | reject
  | fakeIpFilter
  deriving DecidableEq

def RuleKind.fileName : RuleKind → String
  | .direct => "direct.list"
  | .proxy => "proxy.list"
  | .reject => "reject.list"
  | .fakeIpFilter => "fakeip-filter.list"

inductive RuleListError where
  | invalid (file : String) (line : Nat) (message : String)
  | io
  deriving DecidableEq

structure RuleEntry where
  matcher : String
  value : String
  noResolve : Bool
  deriving DecidableEq

def supportedMatchers : List String := ["DOMAIN-SUFFIX", "DOMAIN", "DOMAIN-KEYWORD", "IP-CIDR"]

/-- Addresses and quoted texts as the standard library reads and prints them. -/
structure RuleSyntax where
  parseIpAddr : String → Option IpAddr
  debug : String → String

/-- The line of an entry. -/
def RuleEntry.display (entry : RuleEntry) : String :=
  if entry.noResolve then entry.matcher ++ "," ++ entry.value ++ ",no-resolve"
  else entry.matcher ++ "," ++ entry.value

/-- Adds what is not there yet. -/
def pushNew (entries : List RuleEntry) (entry : RuleEntry) : List RuleEntry :=
  if entry ∈ entries then entries else entries ++ [entry]

namespace RuleSyntax

variable (lib : RuleSyntax)

/-- An address and a prefix length of its family. -/
def isCidr (value : List Char) : Bool :=
  match rsplitOnce '/' value with
  | none => false
  | some (address, bits) =>
    match parseUnsigned 255 bits with
    | none => false
    | some bits =>
      match lib.parseIpAddr (String.ofList address) with
      | some (.v4 _) => bits ≤ 32
      | some (.v6 _) => bits ≤ 128
      | none => false

def unsupportedMatcher (matcher : String) : String :=
  "unsupported match type " ++ lib.debug matcher ++ "; expected one of " ++
    "/".intercalate supportedMatchers

/-- One line of a list: nothing, an entry, or what is wrong with it. -/
def parseLine (kind : RuleKind) (raw : List Char) : Except String (Option RuleEntry) :=
  let line := trim raw
  if line = [] ∨ startsWith line ['#'] ∨ startsWith line ['/', '/'] then .ok none
  else match splitOnce ',' line with
    | none => .error "expected TYPE,value, for example DOMAIN-SUFFIX,example.com"
    | some (matcher, value) =>
      let matcher := toAsciiUppercase (trim matcher)
      let value := trim value
      -- a policy word after the value is read and ignored
      let value := trim ((splitChar ',' value).headD [])
      let noResolve := ((splitChar ',' line).drop 2).any (trim · = "no-resolve".toList)
      if matcher ∉ supportedMatchers then .error (lib.unsupportedMatcher matcher)
      else if value = [] then .error "the value after the comma is empty"
      else if matcher = "IP-CIDR" ∧ ¬ lib.isCidr value then
        .error (lib.debug (String.ofList value) ++ " is not an IPv4 or IPv6 CIDR prefix")
      else if kind = .fakeIpFilter ∧ matcher = "IP-CIDR" then
        .error "fake-ip exceptions must use DOMAIN, DOMAIN-SUFFIX or DOMAIN-KEYWORD"
      else .ok (some ⟨matcher, String.ofList value, noResolve⟩)

def loadLines (kind : RuleKind) (index : Nat) :
    List (List Char) → List RuleEntry → Except RuleListError (List RuleEntry)
  | [], entries => .ok entries
  | raw :: raws, entries =>
    match lib.parseLine kind raw with
    | .error message => .error (.invalid kind.fileName (index + 1) message)
    | .ok none => loadLines kind (index + 1) raws entries
    | .ok (some entry) => loadLines kind (index + 1) raws (pushNew entries entry)

def loadText (kind : RuleKind) (text : String) : Except RuleListError (List RuleEntry) :=
  lib.loadLines kind 0 (lines text.toList) []

/-- Before a value is written to a list. -/
def validateEntry (matcher : String) (value : List Char) : Except String Unit :=
  let matcher := toAsciiUppercase matcher.toList
  if matcher ∉ supportedMatchers then .error (lib.unsupportedMatcher matcher)
  else if trim value = [] then .error "the value is empty"
  else if matcher = "IP-CIDR" ∧ ¬ lib.isCidr (trim value) then
    .error (lib.debug (String.ofList value) ++ " is not an IPv4 or IPv6 CIDR prefix")
  else if ',' ∈ value ∨ value.any isWhitespace then
    .error "the value may not contain commas or whitespace"
  else .ok ()

/-- An argument of `rule add` and `rule remove`. -/
@[irreducible]
def parseEntry (text : String) : Except String (String × RuleEntry) := do
  let parts := splitChar ',' text.toList
  let first := trim (parts.headD [])
  let (matcher, value) := match parts[1]? with
    | some second => (toAsciiUppercase first, trim second)
    | none => ("DOMAIN-SUFFIX", first)
  lib.validateEntry matcher value
  -- an address match does without the name by default
  return (matcher, ⟨matcher, String.ofList value, matcher = "IP-CIDR"⟩)

/-- One line of a downloaded list. -/
def importLine (raw : List Char) : Except String (Option RuleEntry) :=
  let line := trim raw
  if line = [] ∨ startsWith line ['#'] ∨ startsWith line ['/', '/'] then .ok none
  else do
    let parts := splitChar ',' line
    let matcher := toAsciiUppercase (trim (parts.headD []))
    let value := trim (parts[1]?.getD [])
    if value = [] then .error ("无法解析行 " ++ lib.debug (String.ofList line))
    else match lib.validateEntry matcher value with
      | .error error => .error (lib.debug (String.ofList line) ++ ": " ++ error)
      | .ok () =>
        let noResolve := (parts.drop 2).any (trim · = "no-resolve".toList)
        .ok (some ⟨matcher, String.ofList value, noResolve⟩)

end RuleSyntax

def listHeader (kind : RuleKind) : String :=
  "# sbctl 规则列表：" ++ kind.fileName ++ "（TYPE,value 每行一条，# 为注释）"

/-- The file of a list with the given entries. -/
def listText (kind : RuleKind) (entries : List RuleEntry) : String :=
  listHeader kind ++ "\n" ++
    String.join (entries.map fun entry => entry.display ++ "\n")

/-! ## Reading one by one -/

/-- Everything that is read, repeated entries included. -/
def readAll {α : Type} (read : α → Except String (Option RuleEntry)) :
    List α → Option (List RuleEntry)
  | [] => some []
  | raw :: raws =>
    match read raw with
    | .error _ => none
    | .ok none => readAll read raws
    | .ok (some entry) => (readAll read raws).map (entry :: ·)

section
variable {α : Type} {read : α → Except String (Option RuleEntry)}

theorem readAll_append (raws rest : List α) :
    readAll read (raws ++ rest) =
      (readAll read raws).bind fun found => (readAll read rest).map (found ++ ·) := by
  induction raws with
  | nil => cases h : readAll read rest <;> simp [readAll, h]
  | cons raw raws ih =>
    rw [List.cons_append, readAll, readAll, ih]
    cases read raw with
    | error message => rfl
    | ok result =>
      cases result with
      | none => rfl
      | some entry =>
        cases readAll read raws <;> cases readAll read rest <;> rfl

theorem readAll_of_mem {p : RuleEntry → Prop} {raws : List α} {found : List RuleEntry}
    (hread : ∀ raw ∈ raws, ∀ entry, read raw = .ok (some entry) → p entry)
    (h : readAll read raws = some found) : ∀ entry ∈ found, p entry := by
  induction raws generalizing found with
  | nil =>
    cases h
    simp
  | cons raw raws ih =>
    have hrest := fun other hmem => hread other (List.mem_cons_of_mem raw hmem)
    rw [readAll] at h
    split at h
    · cases h
    · exact ih hrest h
    · rename_i entry hentry
      obtain ⟨others, hothers, rfl⟩ := Option.map_eq_some_iff.mp h
      intro other hmem
      rcases List.mem_cons.mp hmem with rfl | hmem
      · exact hread raw List.mem_cons_self other hentry
      · exact ih hrest hothers other hmem

end

/-! ## Adding what is new -/

section
variable {entries new : List RuleEntry} {entry : RuleEntry}

theorem nodup_pushNew (h : entries.Nodup) : (pushNew entries entry).Nodup := by
  unfold pushNew
  split
  · exact h
  · rename_i hnew
    rw [List.nodup_append]
    refine ⟨h, List.nodup_singleton entry, ?_⟩
    rintro other hother _ hmem rfl
    rw [List.mem_singleton.mp hmem] at hother
    exact hnew hother

theorem mem_pushNew {other : RuleEntry} :
    other ∈ pushNew entries entry ↔ other ∈ entries ∨ other = entry := by
  unfold pushNew
  split
  · rename_i hmem
    constructor
    · exact .inl
    · rintro (h | rfl)
      · exact h
      · exact hmem
  · simp

theorem nodup_foldl_pushNew (h : entries.Nodup) : (new.foldl pushNew entries).Nodup := by
  induction new generalizing entries with
  | nil => exact h
  | cons entry new ih => exact ih (nodup_pushNew h)

theorem mem_foldl_pushNew : entry ∈ new.foldl pushNew entries ↔ entry ∈ entries ∨ entry ∈ new := by
  induction new generalizing entries with
  | nil => simp
  | cons other new ih => rw [List.foldl_cons, ih, mem_pushNew, List.mem_cons, or_assoc]

theorem foldl_pushNew_of_nodup (h : (entries ++ new).Nodup) :
    new.foldl pushNew entries = entries ++ new := by
  induction new generalizing entries with
  | nil => rw [List.foldl_nil, List.append_nil]
  | cons entry new ih =>
    have hnew : entry ∉ entries := fun hmem =>
      (List.nodup_append.mp h).2.2 entry hmem entry List.mem_cons_self rfl
    have happend : entries ++ entry :: new = entries ++ [entry] ++ new := by simp
    rw [List.foldl_cons, pushNew, if_neg hnew, happend]
    rw [happend] at h
    exact ih h

end

/-! ## Entries a line can hold -/

/-- What the loader makes of a line, and reads back from it. -/
structure RuleEntry.WellFormed (lib : RuleSyntax) (kind : RuleKind) (entry : RuleEntry) : Prop where
  matcher : entry.matcher ∈ supportedMatchers
  nonempty : entry.value.toList ≠ []
  trimmed : Trimmed entry.value.toList
  comma : ',' ∉ entry.value.toList
  oneLine : '\n' ∉ entry.value.toList
  cidr : entry.matcher = "IP-CIDR" → lib.isCidr entry.value.toList = true
  domain : kind = .fakeIpFilter → entry.matcher ≠ "IP-CIDR"

theorem matcher_facts {matcher : String} (h : matcher ∈ supportedMatchers) :
    ',' ∉ matcher.toList ∧ '\n' ∉ matcher.toList ∧
      toAsciiUppercase (trim matcher.toList) = matcher ∧
      ∃ c cs, matcher.toList = c :: cs ∧ isWhitespace c = false ∧ c ≠ '#' ∧ c ≠ '/' := by
  simp only [supportedMatchers, List.mem_cons, List.not_mem_nil, or_false] at h
  rcases h with rfl | rfl | rfl | rfl
  · exact ⟨by decide, by decide, by decide, 'D', _, rfl, by decide⟩
  · exact ⟨by decide, by decide, by decide, 'D', _, rfl, by decide⟩
  · exact ⟨by decide, by decide, by decide, 'D', _, rfl, by decide⟩
  · exact ⟨by decide, by decide, by decide, 'I', _, rfl, by decide⟩

namespace RuleEntry

/-- What follows the value in a line. -/
def flags (entry : RuleEntry) : List Char := if entry.noResolve then ",no-resolve".toList else []

theorem toList_display (entry : RuleEntry) :
    entry.display.toList = entry.matcher.toList ++ ',' :: (entry.value.toList ++ entry.flags) := by
  cases h : entry.noResolve with
  | false => simp [display, flags, h]
  | true => simp [display, flags, h]

variable {lib : RuleSyntax} {kind : RuleKind} {entry : RuleEntry}

theorem splitChar_value (h : entry.WellFormed lib kind) :
    splitChar ',' (entry.value.toList ++ entry.flags) =
      entry.value.toList :: if entry.noResolve then ["no-resolve".toList] else [] := by
  cases hflag : entry.noResolve with
  | false => simp [flags, hflag, splitChar_of_notMem h.comma]
  | true =>
    have hflags : entry.flags = ',' :: "no-resolve".toList := by simp [flags, hflag]
    rw [hflags, splitChar_append h.comma, splitChar_of_notMem (by decide)]
    rfl

theorem trimmed_value (h : entry.WellFormed lib kind) :
    Trimmed (entry.value.toList ++ entry.flags) := by
  obtain ⟨hhead, hlast⟩ := h.trimmed
  refine ⟨?_, ?_⟩
  · rwa [List.head?_append_of_ne_nil _ h.nonempty]
  · cases hflag : entry.noResolve with
    | false => simpa [flags, hflag] using hlast
    | true =>
      rw [List.getLast?_append_of_ne_nil _ (by simp [flags, hflag])]
      have hend : entry.flags.getLast? = some 'e' := by
        rw [flags, hflag]
        decide
      rw [hend]
      intro c hc
      cases hc
      rfl

theorem trimmed_display (h : entry.WellFormed lib kind) : Trimmed entry.display.toList := by
  obtain ⟨-, -, -, c, cs, hmatcher, hspace, -⟩ := matcher_facts h.matcher
  rw [toList_display, hmatcher]
  refine ⟨?_, ?_⟩
  · intro d hd
    cases hd
    exact hspace
  · have hne : entry.value.toList ++ entry.flags ≠ [] := by simp [h.nonempty]
    rw [List.getLast?_append_of_ne_nil _ (List.cons_ne_nil _ _),
      List.getLast?_cons_of_ne_nil hne]
    exact (trimmed_value h).2

theorem notMem_display (h : entry.WellFormed lib kind) : '\n' ∉ entry.display.toList := by
  obtain ⟨-, hmatcher, -⟩ := matcher_facts h.matcher
  rw [toList_display]
  cases hflag : entry.noResolve with
  | false => simp [flags, hflag, hmatcher, h.oneLine]
  | true => simp [flags, hflag, hmatcher, h.oneLine]

end RuleEntry

namespace RuleSyntax

variable {lib : RuleSyntax} {kind : RuleKind} {entry : RuleEntry}

theorem any_flags (noResolve : Bool) :
    (if noResolve then ["no-resolve".toList] else []).any (trim · = "no-resolve".toList) =
      noResolve := by
  cases noResolve with
  | false => rfl
  | true => decide

/-- A printed entry is read back. -/
theorem parseLine_display (h : entry.WellFormed lib kind) :
    lib.parseLine kind entry.display.toList = .ok (some entry) := by
  obtain ⟨hcomma, -, hupper, c, cs, hmatcher, -, hhash, hslash⟩ := matcher_facts h.matcher
  have hline := trim_eq_self (RuleEntry.trimmed_display h)
  have hvalue := trim_eq_self (RuleEntry.trimmed_value h)
  have hsplit := RuleEntry.splitChar_value h
  have hnotComment : ¬ (entry.display.toList = [] ∨ startsWith entry.display.toList ['#'] ∨
      startsWith entry.display.toList ['/', '/']) := by
    rw [RuleEntry.toList_display, hmatcher]
    simp [startsWith, stripPrefix, Ne.symm hhash, Ne.symm hslash]
  have hcidr : ¬ (entry.matcher = "IP-CIDR" ∧ ¬ lib.isCidr entry.value.toList) :=
    fun hbad => hbad.2 (h.cidr hbad.1)
  have hdomain : ¬ (kind = .fakeIpFilter ∧ entry.matcher = "IP-CIDR") :=
    fun hbad => h.domain hbad.1 hbad.2
  have hflag : ((splitChar ',' entry.display.toList).drop 2).any
      (trim · = "no-resolve".toList) = entry.noResolve := by
    rw [RuleEntry.toList_display, splitChar_append hcomma, hsplit, List.drop_succ_cons,
      List.drop_succ_cons, List.drop_zero, any_flags]
  unfold parseLine
  rw [hline]
  simp only [if_neg hnotComment, hflag]
  rw [RuleEntry.toList_display, splitOnce_append hcomma]
  simp only [hupper, hvalue, hsplit, List.headD_cons, trim_eq_self h.trimmed]
  rw [if_neg (not_not.mpr h.matcher), if_neg h.nonempty, if_neg hcidr, if_neg hdomain,
    String.ofList_toList]

/-- The checks that the three readers share. -/
theorem wellFormed_ofList {matcher : String} {value : List Char} {noResolve : Bool}
    (hmatcher : ¬ matcher ∉ supportedMatchers) (hne : value ≠ []) (htrimmed : Trimmed value)
    (hcomma : ',' ∉ value) (hline : '\n' ∉ value)
    (hcidr : ¬ (matcher = "IP-CIDR" ∧ ¬ lib.isCidr value))
    (hdomain : ¬ (kind = .fakeIpFilter ∧ matcher = "IP-CIDR")) :
    RuleEntry.WellFormed lib kind ⟨matcher, String.ofList value, noResolve⟩ := by
  constructor
  · exact not_not.mp hmatcher
  · rwa [String.toList_ofList]
  · rwa [String.toList_ofList]
  · rwa [String.toList_ofList]
  · rwa [String.toList_ofList]
  · intro hip
    rw [String.toList_ofList]
    exact not_not.mp fun hbad => hcidr ⟨hip, hbad⟩
  · exact fun hkind hip => hdomain ⟨hkind, hip⟩

/-- What the loader reads has a line of its own. -/
theorem parseLine_wellFormed {raw : List Char} (hraw : '\n' ∉ raw)
    (h : lib.parseLine kind raw = .ok (some entry)) : entry.WellFormed lib kind := by
  unfold parseLine at h
  simp only at h
  split at h
  · cases h
  split at h
  · cases h
  rename_i matcher rest hsplit
  split at h
  · cases h
  rename_i hmatcher
  split at h
  · cases h
  rename_i hvalue
  split at h
  · cases h
  rename_i hcidr
  split at h
  · cases h
  rename_i hdomain
  cases h
  have hpiece : (splitChar ',' (trim rest)).headD [] ∈ splitChar ',' (trim rest) := by
    cases hpieces : splitChar ',' (trim rest) with
    | nil => exact absurd hpieces (splitChar_ne_nil _ _)
    | cons piece pieces => exact List.mem_cons_self
  have hmem {c : Char} (hc : c ∈ trim ((splitChar ',' (trim rest)).headD [])) : c ∈ raw := by
    apply mem_of_mem_trim
    rw [(splitOnce_eq_some hsplit).2]
    have := mem_of_mem_trim (mem_of_mem_splitChar hpiece (mem_of_mem_trim hc))
    simp [this]
  exact wellFormed_ofList hmatcher hvalue (trimmed_trim _)
    (fun hc => notMem_splitChar hpiece (mem_of_mem_trim hc)) (fun hc => hraw (hmem hc)) hcidr hdomain

/-! ## Whole files -/

theorem parseLine_trim (kind : RuleKind) (raw : List Char) :
    lib.parseLine kind (trim raw) = lib.parseLine kind raw := by
  simp only [parseLine, trim_trim]

theorem readLines_map_trim (kind : RuleKind) (raws : List (List Char)) :
    readAll (lib.parseLine kind) (raws.map trim) = readAll (lib.parseLine kind) raws := by
  induction raws with
  | nil => rfl
  | cons raw raws ih => rw [List.map_cons, readAll, readAll, parseLine_trim, ih]

theorem readLines_wellFormed {raws : List (List Char)} {found : List RuleEntry}
    (hraws : ∀ raw ∈ raws, '\n' ∉ raw) (h : readAll (lib.parseLine kind) raws = some found) :
    ∀ entry ∈ found, entry.WellFormed lib kind :=
  readAll_of_mem (fun raw hmem _ hentry => parseLine_wellFormed (hraws raw hmem) hentry) h

theorem readLines_display {entries : List RuleEntry}
    (h : ∀ entry ∈ entries, entry.WellFormed lib kind) :
    readAll (lib.parseLine kind) (entries.map fun entry => entry.display.toList) = some entries := by
  induction entries with
  | nil => rfl
  | cons entry entries ih =>
    rw [List.map_cons, readAll, parseLine_display (h entry List.mem_cons_self),
      ih fun other hmem => h other (List.mem_cons_of_mem _ hmem)]
    rfl

theorem loadLines_eq_ok {index : Nat} {raws : List (List Char)} {entries loaded : List RuleEntry} :
    lib.loadLines kind index raws entries = .ok loaded ↔
      ∃ found, readAll (lib.parseLine kind) raws = some found ∧ loaded = found.foldl pushNew entries := by
  induction raws generalizing index entries with
  | nil => simp [loadLines, readAll, eq_comm]
  | cons raw raws ih =>
    rw [loadLines, readAll]
    cases lib.parseLine kind raw with
    | error message => simp
    | ok read =>
      cases read with
      | none => exact ih
      | some entry => simp [ih]

theorem loadText_eq_ok {text : String} {loaded : List RuleEntry} :
    lib.loadText kind text = .ok loaded ↔
      ∃ found, readAll (lib.parseLine kind) (trimmed text.toList) = some found ∧
        loaded = found.foldl pushNew [] := by
  rw [loadText, loadLines_eq_ok, ← map_trim_lines, readLines_map_trim]

theorem loadText_wellFormed {text : String} {loaded : List RuleEntry}
    (h : lib.loadText kind text = .ok loaded) :
    loaded.Nodup ∧ ∀ entry ∈ loaded, entry.WellFormed lib kind := by
  obtain ⟨found, hfound, rfl⟩ := loadText_eq_ok.mp h
  refine ⟨nodup_foldl_pushNew List.nodup_nil, fun entry hmem => ?_⟩
  rw [mem_foldl_pushNew] at hmem
  rcases hmem with hmem | hmem
  · cases hmem
  · exact readLines_wellFormed (fun _ hraw => notMem_trimmed hraw) hfound entry hmem

theorem parseLine_comment {raw : List Char} (h : startsWith (trim raw) ['#'] = true) :
    lib.parseLine kind raw = .ok none := by
  unfold parseLine
  simp only
  rw [if_pos (.inr (.inl h))]

theorem listHeader_facts (kind : RuleKind) :
    '\n' ∉ (listHeader kind).toList ∧
      startsWith (trim (trim (listHeader kind).toList)) ['#'] = true := by
  cases kind <;> decide

theorem trimmed_listText {entries : List RuleEntry}
    (h : ∀ entry ∈ entries, entry.WellFormed lib kind) :
    trimmed (listText kind entries).toList =
      trim (listHeader kind).toList :: entries.map fun entry => entry.display.toList := by
  have hbody : (String.join (entries.map fun entry => entry.display ++ "\n")).toList =
      entries.flatMap fun entry => entry.display.toList ++ ['\n'] := by
    simp [String.toList_join, List.flatMap_def, Function.comp_def]
  have hlines := @trimmed_flatMap RuleEntry (fun entry => entry.display.toList) entries
    fun entry hmem => RuleEntry.notMem_display (h entry hmem)
  have htext : (listText kind entries).toList = (listHeader kind).toList ++
      '\n' :: entries.flatMap fun entry => entry.display.toList ++ ['\n'] := by
    rw [listText, String.toList_append, String.toList_append, hbody, List.append_assoc]
    rfl
  rw [htext, trimmed_line (listHeader_facts kind).1, hlines]
  congr 1
  exact List.map_congr_left fun entry hmem => trim_eq_self (RuleEntry.trimmed_display (h entry hmem))

/-- What is written loads as the entries it was written from. -/
theorem loadText_listText {entries : List RuleEntry} (hnodup : entries.Nodup)
    (h : ∀ entry ∈ entries, entry.WellFormed lib kind) :
    lib.loadText kind (listText kind entries) = .ok entries := by
  rw [loadText_eq_ok, trimmed_listText h, readAll,
    parseLine_comment (listHeader_facts kind).2]
  refine ⟨entries, readLines_display h, ?_⟩
  rw [foldl_pushNew_of_nodup (by rwa [List.nil_append]), List.nil_append]

/-! ## The other two readers -/

theorem validateEntry_ok {matcher : String} {value : List Char}
    (hupper : toAsciiUppercase matcher.toList = matcher)
    (h : lib.validateEntry matcher value = .ok ()) :
    ¬ matcher ∉ supportedMatchers ∧ value ≠ [] ∧ (∀ c ∈ value, isWhitespace c = false) ∧
      ',' ∉ value ∧ ¬ (matcher = "IP-CIDR" ∧ ¬ lib.isCidr value) := by
  unfold validateEntry at h
  simp only [hupper] at h
  split at h
  · cases h
  rename_i hmatcher
  split at h
  · cases h
  rename_i hvalue
  split at h
  · cases h
  rename_i hcidr
  split at h
  · cases h
  rename_i hplain
  rw [not_or] at hplain
  obtain ⟨hcomma, hspace⟩ := hplain
  have hspaces : ∀ c ∈ value, isWhitespace c = false := by simpa using hspace
  have htrim : trim value = value :=
    trim_eq_self ⟨fun c hc => hspaces c (List.mem_of_mem_head? hc),
      fun c hc => hspaces c (List.mem_of_getLast? hc)⟩
  rw [htrim] at hvalue hcidr
  exact ⟨hmatcher, hvalue, hspaces, hcomma, hcidr⟩

theorem validateEntry_wellFormed {matcher : String} {value : List Char} (noResolve : Bool)
    (hupper : toAsciiUppercase matcher.toList = matcher)
    (h : lib.validateEntry matcher value = .ok ())
    (hdomain : ¬ (kind = .fakeIpFilter ∧ matcher = "IP-CIDR")) :
    RuleEntry.WellFormed lib kind ⟨matcher, String.ofList value, noResolve⟩ := by
  obtain ⟨hmatcher, hne, hspaces, hcomma, hcidr⟩ := validateEntry_ok hupper h
  have htrimmed : Trimmed value := ⟨fun c hc => hspaces c (List.mem_of_mem_head? hc),
    fun c hc => hspaces c (List.mem_of_getLast? hc)⟩
  have hline : '\n' ∉ value := fun hmem => by simpa [isWhitespace] using hspaces _ hmem
  exact wellFormed_ofList hmatcher hne htrimmed hcomma hline hcidr hdomain

theorem checked_wellFormed {matcher word : String} {value : List Char}
    (hupper : toAsciiUppercase matcher.toList = matcher)
    (h : (do
      lib.validateEntry matcher value
      return (matcher, RuleEntry.mk matcher (String.ofList value) (matcher = "IP-CIDR"))) =
        Except.ok (word, entry))
    (hdomain : ¬ (kind = .fakeIpFilter ∧ entry.matcher = "IP-CIDR")) :
    entry.WellFormed lib kind := by
  cases hvalid : lib.validateEntry matcher value with
  | error message =>
    rw [hvalid] at h
    cases h
  | ok _ =>
    rw [hvalid] at h
    cases h
    exact validateEntry_wellFormed _ hupper hvalid hdomain

/-- An argument that is accepted for a list is an entry the list can hold. -/
theorem parseEntry_wellFormed {text matcher : String}
    (h : lib.parseEntry text = .ok (matcher, entry))
    (hdomain : ¬ (kind = .fakeIpFilter ∧ entry.matcher = "IP-CIDR")) :
    entry.WellFormed lib kind := by
  unfold parseEntry at h
  simp only at h
  split at h
  · exact checked_wellFormed (toAsciiUppercase_idem _) h hdomain
  · have hupper : ("DOMAIN-SUFFIX".toList.all fun c => c.toUpper == c) = true := by decide
    have hupper : toAsciiUppercase "DOMAIN-SUFFIX".toList = "DOMAIN-SUFFIX" :=
      toAsciiUppercase_eq_self fun c hc => eq_of_beq (List.all_eq_true.mp hupper c hc)
    exact checked_wellFormed hupper h hdomain

theorem importLine_wellFormed {raw : List Char} (h : lib.importLine raw = .ok (some entry))
    (hkind : kind ≠ .fakeIpFilter) : entry.WellFormed lib kind := by
  unfold importLine at h
  simp only at h
  split at h
  · cases h
  split at h
  · cases h
  split at h
  · cases h
  · rename_i hvalid
    cases h
    exact validateEntry_wellFormed _ (toAsciiUppercase_idem _) hvalid fun hbad => hkind hbad.1

end RuleSyntax

end Sbctl
