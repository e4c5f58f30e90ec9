import Mathlib.Logic.Function.Basic
import Sbctl.RuleList

/-!
# The editor of the operator's rules

`rule add`, `rule remove` and the import of a downloaded list read the file of
one list, change its entries, write the file and generate the artifacts again.
When any of it fails the bytes from before are put back.

* `runAll_model`: after any run the file loads, and its entries are those of
  the edits that took effect;
* `rule_files_survive`: the same from the readers and the printer up.
-/

namespace Sbctl

open Text

/-- The bytes of each list; a list without a file is empty. -/
abbrev RuleFiles := RuleKind → Option (List UInt8)

structure RuleLists where
  direct : List RuleEntry
  proxy : List RuleEntry
  reject : List RuleEntry
  fakeIpFilter : List RuleEntry

def RuleLists.entriesFor (lists : RuleLists) : RuleKind → List RuleEntry
  | .direct => lists.direct
  | .proxy => lists.proxy
  | .reject => lists.reject
  | .fakeIpFilter => lists.fakeIpFilter

/-- A file is replaced as a whole or not at all. It can also be replaced and the
replacement then reported as failed. -/
inductive Replacement where
  | done
  | doubtful
  | refused

/-- What a command meets besides the files. -/
structure RuleEnvironment where
  locks : Bool
  reads : Bool
  write : Replacement
  regenerate : Nat
  restore : Replacement

/-- Nothing outside the files keeps a command from its end. -/
structure RuleEnvironment.Works (env : RuleEnvironment) : Prop where
  locks : env.locks = true
  reads : env.reads = true
  write : env.write = .done
  regenerate : env.regenerate = 0

/-- Whether the replacement is reported, and the files after it. -/
def Replacement.apply (replacement : Replacement) (kind : RuleKind) (file : Option (List UInt8))
    (files : RuleFiles) : Bool × RuleFiles :=
  match replacement with
  | .done => (true, Function.update files kind file)
  | .doubtful => (false, Function.update files kind file)
  | .refused => (false, files)

inductive RuleSetTarget where
  | direct
  | proxy
  | reject

def RuleSetTarget.ruleKind : RuleSetTarget → RuleKind
  | .direct => .direct
  | .proxy => .proxy
  | .reject => .reject

inductive RuleCommand where
  | add (kind : RuleKind) (texts : List String)
  | remove (kind : RuleKind) (texts : List String)
  | importList (text : String) (target : RuleSetTarget)

def RuleCommand.kind : RuleCommand → RuleKind
  | .add kind _ => kind
  | .remove kind _ => kind
  | .importList _ target => target.ruleKind

def terminated (text : String) : String :=
  if text.toList.getLast? = some '\n' then text else text ++ "\n"

namespace RuleSyntax

variable (lib : RuleSyntax)

def loadList (kind : RuleKind) : Option (List UInt8) → Except RuleListError (List RuleEntry)
  | none => .ok []
  | some bytes =>
    match fromUtf8 bytes with
    | none => .error .io
    | some text => lib.loadText kind text

def load (files : RuleFiles) : Except RuleListError RuleLists := do
  let direct ← lib.loadList .direct (files .direct)
  let proxy ← lib.loadList .proxy (files .proxy)
  let reject ← lib.loadList .reject (files .reject)
  let fakeIpFilter ← lib.loadList .fakeIpFilter (files .fakeIpFilter)
  return ⟨direct, proxy, reject, fakeIpFilter⟩

/-! ## The commands -/

/-- All entries, and those that are new. -/
def addLoop (kind : RuleKind) : List String → List RuleEntry → List RuleEntry →
    Option (List RuleEntry × List RuleEntry)
  | [], entries, added => some (entries, added)
  | text :: texts, entries, added =>
    match lib.parseEntry text with
    | .error _ => none
    | .ok (_, entry) =>
      if kind = .fakeIpFilter ∧ entry.matcher = "IP-CIDR" then none
      else if entry ∉ entries then addLoop kind texts (entries ++ [entry]) (added ++ [entry])
      else addLoop kind texts entries added

def add (env : RuleEnvironment) (kind : RuleKind) (texts : List String) (files : RuleFiles) :
    Nat × RuleFiles :=
  match lib.load files with
  | .error _ => (2, files)
  | .ok lists =>
    match lib.addLoop kind texts (lists.entriesFor kind) [] with
    | none => (2, files)
    | some (entries, added) =>
      if added = [] then (0, files)
      else match env.write.apply kind (some (bytes (listText kind entries))) files with
        | (false, files) => (2, files)
        | (true, files) => (env.regenerate, files)

/-- The entries that stay, and the values that were found. -/
def removeLoop : List String → List RuleEntry → List String →
    Option (List RuleEntry × List String)
  | [], kept, removed => some (kept, removed)
  | text :: texts, kept, removed =>
    match lib.parseEntry text with
    | .error _ => none
    | .ok (_, target) =>
      -- the value decides, whatever matcher it was written with
      let retained := kept.filter (·.value ≠ target.value)
      if retained.length ≠ kept.length then removeLoop texts retained (removed ++ [target.value])
      else removeLoop texts retained removed

def remove (env : RuleEnvironment) (kind : RuleKind) (texts : List String) (files : RuleFiles) :
    Nat × RuleFiles :=
  match lib.load files with
  | .error _ => (2, files)
  | .ok lists =>
    match lib.removeLoop texts (lists.entriesFor kind) [] with
    | none => (2, files)
    | some (kept, removed) =>
      if removed = [] then (0, files)
      else match env.write.apply kind (some (bytes (listText kind kept))) files with
        | (false, files) => (2, files)
        | (true, files) => (env.regenerate, files)

/-- The entries seen so far, and the file they are appended to. -/
def importLoop : List (List Char) → List RuleEntry → String → Except String (List RuleEntry × String)
  | [], seen, existing => .ok (seen, existing)
  | raw :: raws, seen, existing =>
    match lib.importLine raw with
    | .error message => .error message
    | .ok none => importLoop raws seen existing
    | .ok (some entry) =>
      if entry ∈ seen then importLoop raws seen existing
      else importLoop raws (seen ++ [entry]) (terminated existing ++ entry.display ++ "\n")

def importHeader : String := "# sbctl 规则列表：TYPE,value 每行一条，# 为注释\n"

def appendLines (write : Replacement) (text : String) (target : RuleSetTarget)
    (files : RuleFiles) : Except String Unit × RuleFiles :=
  match lib.load files with
  | .error _ => (.error "rule list read failed", files)
  | .ok lists =>
    let seen := lists.entriesFor target.ruleKind
    match ((files target.ruleKind).map fromUtf8).getD (some importHeader) with
    | none => (.error "invalid utf-8 sequence", files)
    | some existing =>
      match lib.importLoop (lines text.toList) seen existing with
      | .error message => (.error message, files)
      | .ok (_, existing) =>
        match write.apply target.ruleKind (some (bytes existing)) files with
        | (false, files) => (.error "write failed", files)
        | (true, files) => (.ok (), files)

def change (env : RuleEnvironment) (command : RuleCommand) (files : RuleFiles) : Nat × RuleFiles :=
  match command with
  | .add kind texts => lib.add env kind texts files
  | .remove kind texts => lib.remove env kind texts files
  | .importList text target =>
    match lib.appendLines env.write text target files with
    | (.error _, files) => (2, files)
    | (.ok (), files) => (env.regenerate, files)

/-- Puts the bytes from before back unless the change succeeded. -/
def withListTransaction (env : RuleEnvironment) (command : RuleCommand) (files : RuleFiles) :
    Nat × RuleFiles :=
  if ¬ env.locks then (2, files)
  else if ¬ env.reads then (2, files)
  else
    let prior := files command.kind
    match lib.change env command files with
    | (0, files) => (0, files)
    | (result, files) => (result, (env.restore.apply command.kind prior files).2)

/-! ## The obvious model -/

inductive Edit where
  | append (new : List RuleEntry)
  | removeValues (values : List String)

def Edit.apply : Edit → List RuleEntry → List RuleEntry
  | .append new, entries => new.foldl pushNew entries
  | .removeValues values, entries => entries.filter (·.value ∉ values)

/-- One argument of `rule add`. -/
def argument (kind : RuleKind) (text : String) : Except String (Option RuleEntry) :=
  match lib.parseEntry text with
  | .error message => .error message
  | .ok (_, entry) =>
    if kind = .fakeIpFilter ∧ entry.matcher = "IP-CIDR" then
      .error "fake-ip 例外仅支持 DOMAIN、DOMAIN-SUFFIX、DOMAIN-KEYWORD"
    else .ok (some entry)

/-- One argument of `rule remove`. -/
def target (text : String) : Except String (Option RuleEntry) :=
  (lib.parseEntry text).map fun (_, entry) => some entry

/-- The entries a downloaded text holds. -/
def imported (text : String) : Option (List RuleEntry) :=
  readAll lib.importLine (lines text.toList)

/-- What a command asks for, unless its input is refused. -/
def edit : RuleCommand → Option Edit
  | .add kind texts => (readAll (lib.argument kind) texts).map .append
  | .remove _ texts =>
    (readAll lib.target texts).map fun targets => .removeValues (targets.map (·.value))
  | .importList text _ => (lib.imported text).map .append

/-- The entries of a list when every accepted command takes effect. -/
def obey (kind : RuleKind) (entries : List RuleEntry) (command : RuleCommand) : List RuleEntry :=
  if command.kind = kind then ((lib.edit command).map (·.apply entries)).getD entries else entries

/-! ## The loops compute the edits -/

variable {lib} {kind : RuleKind} {entries : List RuleEntry}

theorem argument_of_parseEntry {text word : String} {entry : RuleEntry}
    (h : lib.parseEntry text = .ok (word, entry))
    (hdomain : ¬ (kind = .fakeIpFilter ∧ entry.matcher = "IP-CIDR")) :
    lib.argument kind text = .ok (some entry) := by
  unfold argument
  rw [h]
  exact if_neg hdomain

theorem addLoop_eq_some {texts : List String} {added entries' added' : List RuleEntry}
    (h : lib.addLoop kind texts entries added = some (entries', added')) :
    ∃ new, readAll (lib.argument kind) texts = some new ∧ entries' = new.foldl pushNew entries ∧
      ∃ fresh, added' = added ++ fresh ∧ entries' = entries ++ fresh := by
  induction texts generalizing entries added with
  | nil =>
    cases h
    exact ⟨[], rfl, rfl, [], by simp, by simp⟩
  | cons text texts ih =>
    rw [addLoop] at h
    split at h
    · cases h
    · rename_i word entry hparse
      split at h
      · cases h
      · rename_i hdomain
        rw [readAll, argument_of_parseEntry hparse hdomain]
        split at h
        · rename_i hnew
          obtain ⟨new, hread, hfold, fresh, hadded, hentries⟩ := ih h
          refine ⟨entry :: new, by simp only [hread]; rfl, ?_, entry :: fresh, ?_, ?_⟩
          · rw [hfold, List.foldl_cons, pushNew, if_neg hnew]
          · rw [hadded, List.append_assoc, List.singleton_append]
          · rw [hentries, List.append_assoc, List.singleton_append]
        · rename_i hold
          obtain ⟨new, hread, hfold, hfresh⟩ := ih h
          refine ⟨entry :: new, by simp only [hread]; rfl, ?_, hfresh⟩
          rw [hfold, List.foldl_cons, pushNew, if_pos (not_not.mp hold)]

theorem removeLoop_eq_some {texts : List String} {kept kept' : List RuleEntry}
    {removed removed' : List String}
    (h : lib.removeLoop texts kept removed = some (kept', removed')) :
    ∃ targets, readAll lib.target texts = some targets ∧
      kept' = kept.filter (·.value ∉ targets.map (·.value)) ∧
      ∃ found, removed' = removed ++ found ∧ (found = [] → kept' = kept) := by
  induction texts generalizing kept removed with
  | nil =>
    cases h
    exact ⟨[], rfl, by simp, [], by simp, fun _ => rfl⟩
  | cons text texts ih =>
    rw [removeLoop] at h
    rw [readAll, target]
    split at h
    · cases h
    · rename_i word entry hparse
      rw [hparse]
      have hfilter (targets : List RuleEntry) :
          (kept.filter (·.value ≠ entry.value)).filter (·.value ∉ targets.map (·.value)) =
            kept.filter (·.value ∉ (entry :: targets).map (·.value)) := by
        rw [List.filter_filter]
        congr 1
        funext other
        simp only [List.map_cons, List.mem_cons, not_or, Bool.decide_and, ne_eq, Bool.and_comm]
      simp only at h
      split at h
      · obtain ⟨targets, hread, hkept, found, hremoved, -⟩ := ih h
        refine ⟨entry :: targets, ?_, by rw [hkept, hfilter], entry.value :: found, ?_, ?_⟩
        · simp only [Except.map]
          rw [hread]
          rfl
        · rw [hremoved, List.append_assoc, List.singleton_append]
        · intro hnil
          cases hnil
      · rename_i hlength
        have hsame : kept.filter (·.value ≠ entry.value) = kept :=
          List.filter_sublist.eq_of_length (not_not.mp hlength)
        obtain ⟨targets, hread, hkept, found, hremoved, hnil⟩ := ih h
        refine ⟨entry :: targets, ?_, by rw [hkept, hfilter], found, hremoved, ?_⟩
        · simp only [Except.map]
          rw [hread]
          rfl
        · intro hempty
          rw [hnil hempty, hsame]

/-- Accepted arguments are all added. -/
theorem addLoop_isSome {texts : List String} {new : List RuleEntry}
    (h : readAll (lib.argument kind) texts = some new) (entries added : List RuleEntry) :
    (lib.addLoop kind texts entries added).isSome := by
  induction texts generalizing new entries added with
  | nil => rfl
  | cons text texts ih =>
    rw [readAll] at h
    rw [addLoop]
    unfold argument at h
    cases hparse : lib.parseEntry text with
    | error message =>
      rw [hparse] at h
      cases h
    | ok parsed =>
      rw [hparse] at h
      dsimp only at h ⊢
      by_cases hdomain : kind = .fakeIpFilter ∧ parsed.2.matcher = "IP-CIDR"
      · rw [if_pos hdomain] at h
        cases h
      · rw [if_neg hdomain] at h ⊢
        obtain ⟨others, hothers, -⟩ := Option.map_eq_some_iff.mp h
        split
        · exact ih hothers _ _
        · exact ih hothers _ _

theorem removeLoop_isSome {texts : List String} {targets : List RuleEntry}
    (h : readAll lib.target texts = some targets) (kept : List RuleEntry)
    (removed : List String) : (lib.removeLoop texts kept removed).isSome := by
  induction texts generalizing targets kept removed with
  | nil => rfl
  | cons text texts ih =>
    rw [readAll] at h
    rw [removeLoop]
    unfold target at h
    cases hparse : lib.parseEntry text with
    | error message =>
      rw [hparse] at h
      cases h
    | ok parsed =>
      rw [hparse] at h
      obtain ⟨others, hothers, -⟩ := Option.map_eq_some_iff.mp h
      dsimp only
      split
      · exact ih hothers _ _
      · exact ih hothers _ _

theorem importLoop_isOk {raws : List (List Char)} {new : List RuleEntry}
    (h : readAll lib.importLine raws = some new) (seen : List RuleEntry) (existing : String) :
    ∃ done, lib.importLoop raws seen existing = .ok done := by
  induction raws generalizing new seen existing with
  | nil => exact ⟨_, rfl⟩
  | cons raw raws ih =>
    rw [readAll] at h
    rw [importLoop]
    cases hline : lib.importLine raw with
    | error message =>
      rw [hline] at h
      cases h
    | ok result =>
      rw [hline] at h
      cases result with
      | none => exact ih h _ _
      | some entry =>
        obtain ⟨others, hothers, -⟩ := Option.map_eq_some_iff.mp h
        dsimp only
        split
        · exact ih hothers _ _
        · exact ih hothers _ _

/-! ## Files that load -/

theorem loadList_bytes (kind : RuleKind) (text : String) :
    lib.loadList kind (some (bytes text)) = lib.loadText kind text := by
  rw [loadList, fromUtf8_bytes]

theorem loadList_wellFormed {file : Option (List UInt8)}
    (h : lib.loadList kind file = .ok entries) :
    entries.Nodup ∧ ∀ entry ∈ entries, entry.WellFormed lib kind := by
  unfold loadList at h
  split at h
  · cases h
    simp
  · split at h
    · cases h
    · exact loadText_wellFormed h

theorem load_entriesFor {files : RuleFiles} {lists : RuleLists} (h : lib.load files = .ok lists)
    (kind : RuleKind) : lib.loadList kind (files kind) = .ok (lists.entriesFor kind) := by
  unfold load at h
  cases hdirect : lib.loadList .direct (files .direct) with
  | error _ => rw [hdirect] at h; cases h
  | ok direct =>
    cases hproxy : lib.loadList .proxy (files .proxy) with
    | error _ => rw [hdirect, hproxy] at h; cases h
    | ok proxy =>
      cases hreject : lib.loadList .reject (files .reject) with
      | error _ => rw [hdirect, hproxy, hreject] at h; cases h
      | ok reject =>
        cases hfake : lib.loadList .fakeIpFilter (files .fakeIpFilter) with
        | error _ => rw [hdirect, hproxy, hreject, hfake] at h; cases h
        | ok fakeIpFilter =>
          rw [hdirect, hproxy, hreject, hfake] at h
          cases h
          cases kind <;> assumption

/-- The lists load if each of them does. -/
theorem load_of_entriesFor {files : RuleFiles} {lists : RuleLists}
    (h : ∀ kind, lib.loadList kind (files kind) = .ok (lists.entriesFor kind)) :
    lib.load files = .ok lists := by
  have hdirect := h .direct
  have hproxy := h .proxy
  have hreject := h .reject
  have hfake := h .fakeIpFilter
  unfold load
  rw [hdirect, hproxy, hreject, hfake]
  rfl

/-- An entry printed after the end of a file is loaded after its entries. -/
theorem loadText_append {existing : String} {entry : RuleEntry}
    (h : lib.loadText kind existing = .ok entries) (hentry : entry.WellFormed lib kind) :
    lib.loadText kind (terminated existing ++ entry.display ++ "\n") =
      .ok (pushNew entries entry) := by
  obtain ⟨found, hfound, rfl⟩ := loadText_eq_ok.mp h
  -- the end of the last line changes nothing
  obtain ⟨cs, hcs, hread⟩ : ∃ cs, (terminated existing).toList = cs ++ ['\n'] ∧
      readAll (lib.parseLine kind) (trimmed (cs ++ ['\n'])) = some found := by
    unfold terminated
    split
    · rename_i hlast
      refine ⟨existing.toList.dropLast, (List.dropLast_append_getLast? _ hlast).symm, ?_⟩
      rwa [List.dropLast_append_getLast? _ hlast]
    · rename_i hlast
      refine ⟨existing.toList, by simp, ?_⟩
      by_cases hempty : existing.toList = []
      · rw [hempty] at hfound ⊢
        exact hfound
      · rwa [trimmed_terminate hempty hlast]
  have htext : (terminated existing ++ entry.display ++ "\n").toList =
      cs ++ '\n' :: (entry.display.toList ++ '\n' :: []) := by
    rw [String.toList_append, String.toList_append, hcs]
    simp
  rw [loadText_eq_ok, htext, trimmed_append, trimmed_line (RuleEntry.notMem_display hentry),
    readAll_append, hread]
  refine ⟨found ++ [entry], ?_, by rw [List.foldl_append]; rfl⟩
  have hline := trim_eq_self (RuleEntry.trimmed_display hentry)
  rw [hline, Option.bind_some, readAll, parseLine_display hentry]
  rfl

theorem importLoop_eq_ok {raws : List (List Char)} {seen seen' : List RuleEntry}
    {existing existing' : String} (hkind : kind ≠ .fakeIpFilter)
    (hload : lib.loadText kind existing = .ok seen)
    (h : lib.importLoop raws seen existing = .ok (seen', existing')) :
    ∃ new, readAll lib.importLine raws = some new ∧ seen' = new.foldl pushNew seen ∧
      lib.loadText kind existing' = .ok seen' := by
  induction raws generalizing seen existing with
  | nil =>
    cases h
    exact ⟨[], rfl, rfl, hload⟩
  | cons raw raws ih =>
    rw [importLoop] at h
    rw [readAll]
    rcases hline : lib.importLine raw with message | _ | entry <;> rw [hline] at h
    · cases h
    · exact ih hload h
    · have hentry := importLine_wellFormed hline hkind
      dsimp only at h
      split at h
      · rename_i hold
        obtain ⟨new, hread, hfold, hloaded⟩ := ih hload h
        refine ⟨entry :: new, by simp only [hread]; rfl, ?_, hloaded⟩
        rw [hfold, List.foldl_cons, pushNew, if_pos hold]
      · rename_i hnew
        have happend := loadText_append hload hentry
        rw [pushNew, if_neg hnew] at happend
        obtain ⟨new, hread, hfold, hloaded⟩ := ih happend h
        refine ⟨entry :: new, by simp only [hread]; rfl, ?_, hloaded⟩
        rw [hfold, List.foldl_cons, pushNew, if_neg hnew]

/-- A text whose entries are all there changes nothing. -/
theorem importLoop_of_subset {raws : List (List Char)} {seen new : List RuleEntry}
    (existing : String) (hread : readAll lib.importLine raws = some new)
    (h : ∀ entry ∈ new, entry ∈ seen) :
    lib.importLoop raws seen existing = .ok (seen, existing) := by
  induction raws generalizing new with
  | nil => rfl
  | cons raw raws ih =>
    rw [readAll] at hread
    rw [importLoop]
    rcases hline : lib.importLine raw with message | _ | entry <;> rw [hline] at hread
    · cases hread
    · exact ih hread h
    · obtain ⟨others, hothers, rfl⟩ := Option.map_eq_some_iff.mp hread
      simp only [if_pos (h entry List.mem_cons_self)]
      exact ih hothers fun other hmem => h other (List.mem_cons_of_mem _ hmem)

theorem loadList_listText (hnodup : entries.Nodup)
    (h : ∀ entry ∈ entries, entry.WellFormed lib kind) :
    lib.loadList kind (some (bytes (listText kind entries))) = .ok entries := by
  rw [loadList_bytes, loadText_listText hnodup h]

theorem argument_wellFormed {text : String} {entry : RuleEntry}
    (h : lib.argument kind text = .ok (some entry)) : entry.WellFormed lib kind := by
  unfold argument at h
  split at h
  · cases h
  · rename_i word _ hparse
    split at h
    · cases h
    · rename_i hdomain
      cases h
      exact parseEntry_wellFormed hparse hdomain

/-! ## One command -/

/-- The list of the command went from some entries to those of its edit. -/
def Applies (lib : RuleSyntax) (command : RuleCommand) (files files' : RuleFiles) : Prop :=
  ∃ edit entries, lib.edit command = some edit ∧
    lib.loadList command.kind (files command.kind) = .ok entries ∧
    lib.loadList command.kind (files' command.kind) = .ok (edit.apply entries) ∧
    ∀ other, other ≠ command.kind → files' other = files other

theorem applies_update {command : RuleCommand} {files : RuleFiles} {edit : Edit}
    {file : Option (List UInt8)} (hedit : lib.edit command = some edit)
    (hload : lib.loadList command.kind (files command.kind) = .ok entries)
    (hfile : lib.loadList command.kind file = .ok (edit.apply entries)) :
    Applies lib command files (Function.update files command.kind file) :=
  ⟨edit, entries, hedit, hload, by rwa [Function.update_self],
    fun other hother => Function.update_of_ne hother file files⟩

/-- A command that wants to replace the file does so or leaves everything. -/
theorem apply_cases {command : RuleCommand} {files : RuleFiles} {file : Option (List UInt8)}
    (write : Replacement) (regenerate : Nat)
    (h : Applies lib command files (Function.update files command.kind file)) {result : Nat × RuleFiles}
    (hresult : result = match write.apply command.kind file files with
      | (false, files) => (2, files)
      | (true, files) => (regenerate, files)) :
    result.2 = files ∧ result.1 ≠ 0 ∨ Applies lib command files result.2 := by
  subst hresult
  cases write with
  | done => exact .inr h
  | doubtful => exact .inr h
  | refused => exact .inl ⟨rfl, Nat.succ_ne_zero 1⟩

theorem add_cases (env : RuleEnvironment) (kind : RuleKind) (texts : List String)
    (files : RuleFiles) :
    (lib.add env kind texts files).2 = files ∧ (lib.add env kind texts files).1 ≠ 0 ∨
      Applies lib (.add kind texts) files (lib.add env kind texts files).2 := by
  unfold add
  split
  · exact .inl ⟨rfl, Nat.succ_ne_zero 1⟩
  rename_i lists hlists
  have hload := load_entriesFor hlists kind
  split
  · exact .inl ⟨rfl, Nat.succ_ne_zero 1⟩
  rename_i entries added hloop
  obtain ⟨new, hread, hfold, fresh, hadded, hentries⟩ := addLoop_eq_some hloop
  have hedit : lib.edit (.add kind texts) = some (.append new) := by
    rw [edit, hread]
    rfl
  obtain ⟨hnodup, hold⟩ := loadList_wellFormed hload
  split
  · rename_i hempty
    rw [List.nil_append] at hadded
    rw [← hadded, hempty, List.append_nil] at hentries
    refine .inr ⟨.append new, _, hedit, hload, ?_, fun _ _ => rfl⟩
    rw [Edit.apply, ← hfold, hentries]
    exact hload
  · have hwellFormed : ∀ entry ∈ entries, entry.WellFormed lib kind := by
      intro entry hmem
      rw [hfold, mem_foldl_pushNew] at hmem
      rcases hmem with hmem | hmem
      · exact hold entry hmem
      · exact readAll_of_mem (fun _ _ _ h => argument_wellFormed h) hread entry hmem
    have hentriesNodup : entries.Nodup := hfold ▸ nodup_foldl_pushNew hnodup
    refine @apply_cases lib (.add kind texts) _ _ env.write env.regenerate
      (applies_update hedit hload ?_) _ rfl
    rw [Edit.apply, ← hfold]
    exact loadList_listText hentriesNodup hwellFormed

theorem remove_cases (env : RuleEnvironment) (kind : RuleKind) (texts : List String)
    (files : RuleFiles) :
    (lib.remove env kind texts files).2 = files ∧ (lib.remove env kind texts files).1 ≠ 0 ∨
      Applies lib (.remove kind texts) files (lib.remove env kind texts files).2 := by
  unfold remove
  split
  · exact .inl ⟨rfl, Nat.succ_ne_zero 1⟩
  rename_i lists hlists
  have hload := load_entriesFor hlists kind
  split
  · exact .inl ⟨rfl, Nat.succ_ne_zero 1⟩
  rename_i kept removed hloop
  obtain ⟨targets, hread, hkept, found, hremoved, hnil⟩ := removeLoop_eq_some hloop
  have hedit : lib.edit (.remove kind texts) =
      some (.removeValues (targets.map (·.value))) := by
    rw [edit, hread]
    rfl
  obtain ⟨hnodup, hold⟩ := loadList_wellFormed hload
  split
  · rename_i hempty
    rw [List.nil_append] at hremoved
    refine .inr ⟨_, _, hedit, hload, ?_, fun _ _ => rfl⟩
    rw [Edit.apply, ← hkept, hnil (hremoved ▸ hempty)]
    exact hload
  · have hwellFormed : ∀ entry ∈ kept, entry.WellFormed lib kind := by
      intro entry hmem
      rw [hkept] at hmem
      exact hold entry (List.mem_of_mem_filter hmem)
    have hkeptNodup : kept.Nodup := hkept ▸ hnodup.filter _
    refine @apply_cases lib (.remove kind texts) _ _ env.write env.regenerate
      (applies_update hedit hload ?_) _ rfl
    rw [Edit.apply, ← hkept]
    exact loadList_listText hkeptNodup hwellFormed

theorem ruleKind_ne (target : RuleSetTarget) : target.ruleKind ≠ .fakeIpFilter := by
  cases target <;> decide

/-- The text an import appends to loads as the entries it starts from. -/
theorem loadText_existing {files : RuleFiles} {existing : String}
    (hload : lib.loadList kind (files kind) = .ok entries)
    (hexisting : ((files kind).map fromUtf8).getD (some importHeader) = some existing) :
    lib.loadText kind existing = .ok entries := by
  cases hfile : files kind with
  | none =>
    rw [hfile] at hload hexisting
    cases hload
    cases hexisting
    have hlines : trimmed importHeader.toList =
        ["# sbctl 规则列表：TYPE,value 每行一条，# 为注释".toList] := by decide +kernel
    rw [loadText_eq_ok, hlines, readAll, parseLine_comment (by decide +kernel)]
    exact ⟨[], rfl, rfl⟩
  | some file =>
    rw [hfile] at hload hexisting
    rw [Option.map_some, Option.getD_some] at hexisting
    rw [loadList, hexisting] at hload
    exact hload

theorem appendLines_cases (write : Replacement) (text : String) (target : RuleSetTarget)
    (files : RuleFiles) :
    (∃ message, lib.appendLines write text target files = (.error message, files)) ∨
      ∃ old new existing, lib.loadList target.ruleKind (files target.ruleKind) = .ok old ∧
        lib.imported text = some new ∧
        lib.loadText target.ruleKind existing = .ok (new.foldl pushNew old) ∧
        (lib.appendLines write text target files).2 =
          Function.update files target.ruleKind (some (bytes existing)) ∧
        ((lib.appendLines write text target files).1 = .ok () ∨
          ∃ message, (lib.appendLines write text target files).1 = .error message) := by
  unfold appendLines
  split
  · exact .inl ⟨_, rfl⟩
  rename_i lists hlists
  have hload := load_entriesFor hlists target.ruleKind
  simp only
  split
  · exact .inl ⟨_, rfl⟩
  rename_i existing hexisting
  split
  · exact .inl ⟨_, rfl⟩
  rename_i seen existing' hloop
  obtain ⟨new, hread, hfold, hloaded⟩ :=
    importLoop_eq_ok (ruleKind_ne target) (loadText_existing hload hexisting) hloop
  rw [hfold] at hloaded
  cases write with
  | done => exact .inr ⟨_, new, existing', hload, hread, hloaded, rfl, .inl rfl⟩
  | doubtful => exact .inr ⟨_, new, existing', hload, hread, hloaded, rfl, .inr ⟨_, rfl⟩⟩
  | refused => exact .inl ⟨_, rfl⟩

theorem change_cases (env : RuleEnvironment) (command : RuleCommand) (files : RuleFiles) :
    (lib.change env command files).2 = files ∧ (lib.change env command files).1 ≠ 0 ∨
      Applies lib command files (lib.change env command files).2 := by
  cases command with
  | add kind texts => exact add_cases env kind texts files
  | remove kind texts => exact remove_cases env kind texts files
  | importList text target =>
    rw [change]
    rcases appendLines_cases env.write text target files with
      ⟨message, hfail⟩ | ⟨old, new, existing, hload, hread, hloaded, hfiles, hresult⟩
    · rw [hfail]
      exact .inl ⟨rfl, Nat.succ_ne_zero 1⟩
    · have hedit : lib.edit (.importList text target) = some (.append new) := by
        rw [edit, hread]
        rfl
      have happlies : Applies lib (.importList text target) files
          (lib.appendLines env.write text target files).2 := by
        rw [hfiles]
        exact applies_update hedit hload (by rwa [loadList_bytes])
      revert happlies
      rcases lib.appendLines env.write text target files with ⟨_ | _, files'⟩
      · exact .inr
      · exact .inr

/-- An accepted command that nothing keeps from its end succeeds. -/
theorem change_works {env : RuleEnvironment} {command : RuleCommand} {files : RuleFiles}
    {lists : RuleLists} {edit : Edit} (hload : lib.load files = .ok lists) (henv : env.Works)
    (hedit : lib.edit command = some edit) : (lib.change env command files).1 = 0 := by
  obtain ⟨-, -, hwrite, hregenerate⟩ := henv
  cases command with
  | add kind texts =>
    obtain ⟨new, hread, -⟩ := Option.map_eq_some_iff.mp hedit
    obtain ⟨⟨entries, added⟩, hloop⟩ :=
      Option.isSome_iff_exists.mp (addLoop_isSome hread (lists.entriesFor kind) [])
    simp only [change, add, hload, hloop, hwrite, Replacement.apply, hregenerate]
    split <;> rfl
  | remove kind texts =>
    obtain ⟨targets, hread, -⟩ := Option.map_eq_some_iff.mp hedit
    obtain ⟨⟨kept, removed⟩, hloop⟩ :=
      Option.isSome_iff_exists.mp (removeLoop_isSome hread (lists.entriesFor kind) [])
    simp only [change, remove, hload, hloop, hwrite, Replacement.apply, hregenerate]
    split <;> rfl
  | importList text target =>
    obtain ⟨new, hread, -⟩ := Option.map_eq_some_iff.mp hedit
    have hlist := load_entriesFor hload target.ruleKind
    obtain ⟨existing, hexisting⟩ :
        ∃ existing, ((files target.ruleKind).map fromUtf8).getD (some importHeader) =
          some existing := by
      cases hfile : files target.ruleKind with
      | none => exact ⟨_, rfl⟩
      | some file =>
        rw [hfile, loadList] at hlist
        cases hutf8 : fromUtf8 file with
        | none =>
          rw [hutf8] at hlist
          cases hlist
        | some existing => exact ⟨existing, hutf8⟩
    obtain ⟨⟨seen, existing'⟩, hloop⟩ :=
      importLoop_isOk hread (lists.entriesFor target.ruleKind) existing
    simp only [change, appendLines, hload, hexisting, hloop, hwrite, Replacement.apply,
      hregenerate]

/-- A command that fails leaves everything, unless its file cannot be put back. -/
theorem withListTransaction_cases (env : RuleEnvironment) (command : RuleCommand)
    (files : RuleFiles) :
    (lib.withListTransaction env command files).2 = files ∧
        (lib.withListTransaction env command files).1 ≠ 0 ∨
      Applies lib command files (lib.withListTransaction env command files).2 ∧
        ((lib.withListTransaction env command files).1 = 0 ∨ env.restore = .refused) := by
  unfold withListTransaction
  split
  · exact .inl ⟨rfl, Nat.succ_ne_zero 1⟩
  split
  · exact .inl ⟨rfl, Nat.succ_ne_zero 1⟩
  have hchange := @change_cases lib env command files
  simp only
  split
  · rename_i files' heq
    rw [heq] at hchange
    rcases hchange with ⟨-, hresult⟩ | happlies
    · exact absurd rfl hresult
    · exact .inr ⟨happlies, .inl rfl⟩
  · rename_i result files' hfailed heq
    rw [heq] at hchange
    rcases hchange with ⟨rfl, -⟩ | happlies
    · refine .inl ⟨?_, hfailed⟩
      cases env.restore <;> simp [Replacement.apply]
    · cases hrestore : env.restore with
      | refused => exact .inr ⟨happlies, .inr rfl⟩
      | done | doubtful =>
        -- the bytes from before are back, and no other list was touched
        refine .inl ⟨funext fun other => ?_, hfailed⟩
        obtain ⟨-, -, -, -, -, hothers⟩ := happlies
        by_cases hother : other = command.kind
        · rw [hother]
          exact Function.update_self _ _ _
        · exact (Function.update_of_ne hother _ _).trans (hothers other hother)

theorem withListTransaction_failed {env : RuleEnvironment} {command : RuleCommand}
    {files : RuleFiles} (hfailed : (lib.withListTransaction env command files).1 ≠ 0)
    (hrestore : env.restore ≠ .refused) :
    (lib.withListTransaction env command files).2 = files := by
  rcases @withListTransaction_cases lib env command files with
    ⟨hsame, -⟩ | ⟨-, hzero | hrefused⟩
  · exact hsame
  · exact absurd hzero hfailed
  · exact absurd hrefused hrestore

theorem withListTransaction_works {env : RuleEnvironment} {command : RuleCommand}
    {files : RuleFiles} {lists : RuleLists} {edit : Edit} (hload : lib.load files = .ok lists)
    (henv : env.Works) (hedit : lib.edit command = some edit) :
    (lib.withListTransaction env command files).1 = 0 ∧
      lib.loadList command.kind ((lib.withListTransaction env command files).2 command.kind) =
        .ok (edit.apply (lists.entriesFor command.kind)) ∧
      ∀ other, other ≠ command.kind →
        (lib.withListTransaction env command files).2 other = files other := by
  have hzero : (lib.withListTransaction env command files).1 = 0 := by
    have hchange := change_works hload henv hedit
    simp only [withListTransaction, henv.locks, henv.reads, not_true_eq_false, if_false]
    split
    · rfl
    · rename_i hresult heq
      rw [heq] at hchange
      exact absurd hchange hresult
  refine ⟨hzero, ?_⟩
  obtain ⟨-, hresult⟩ | ⟨⟨edit', entries, hedit', hbefore, hafter, hothers⟩, -⟩ :=
    @withListTransaction_cases lib env command files
  · exact absurd hzero hresult
  · obtain rfl := Option.some.inj (hedit.symm.trans hedit')
    obtain rfl := Except.ok.inj (hbefore.symm.trans (load_entriesFor hload command.kind))
    exact ⟨hafter, hothers⟩

/-! ## Runs -/

/-- A run, with whether each command took effect: it reported success or left
another file behind. -/
def runAll (lib : RuleSyntax) :
    List (RuleCommand × RuleEnvironment) → RuleFiles → List (RuleCommand × Bool) × RuleFiles
  | [], files => ([], files)
  | (command, env) :: commands, files =>
    let (result, after) := lib.withListTransaction env command files
    let (log, final) := runAll lib commands after
    ((command, result = 0 ∨ after command.kind ≠ files command.kind) :: log, final)

def modelStep (lib : RuleSyntax) (kind : RuleKind) (entries : List RuleEntry) :
    RuleCommand × Bool → List RuleEntry
  | (command, effective) =>
    if effective ∧ command.kind = kind then
      match lib.edit command with
      | some edit => edit.apply entries
      | none => entries
    else entries

/-- Step: the list loads as the model's entries. -/
theorem withListTransaction_model {env : RuleEnvironment} {command : RuleCommand}
    {files : RuleFiles} (hload : lib.loadList kind (files kind) = .ok entries)
    {result : Nat} {after : RuleFiles}
    (hstep : lib.withListTransaction env command files = (result, after)) :
    lib.loadList kind (after kind) = .ok (modelStep lib kind entries
      (command, result = 0 ∨ after command.kind ≠ files command.kind)) := by
  have hcases := @withListTransaction_cases lib env command files
  rw [hstep] at hcases
  rcases hcases with ⟨hsame, hresult⟩ | ⟨⟨edit, entries', hedit, hbefore, hafter, hothers⟩, -⟩
  · simp only at hsame hresult
    rw [hsame, modelStep, if_neg (by simp [hresult]), hload]
  · by_cases hkind : command.kind = kind
    · subst hkind
      rw [hload] at hbefore
      cases hbefore
      by_cases heffect : result = 0 ∨ after command.kind ≠ files command.kind
      · rw [modelStep, if_pos (by simpa using heffect), hedit]
        exact hafter
      · rw [modelStep, if_neg (by simpa using heffect), ← hload]
        rw [not_or, not_not] at heffect
        rw [heffect.2]
    · have hsame : after kind = files kind := hothers kind (Ne.symm hkind)
      rw [modelStep, if_neg (fun h => hkind h.2), hsame, hload]

theorem runAll_model {commands : List (RuleCommand × RuleEnvironment)} {files : RuleFiles}
    (hload : lib.loadList kind (files kind) = .ok entries) :
    lib.loadList kind ((runAll lib commands files).2 kind) =
      .ok ((runAll lib commands files).1.foldl (modelStep lib kind) entries) := by
  induction commands generalizing files entries with
  | nil => exact hload
  | cons stage commands ih =>
    obtain ⟨command, env⟩ := stage
    exact ih (withListTransaction_model hload rfl)

/-- An effect comes from a command whose input was accepted. -/
theorem runAll_edit {commands : List (RuleCommand × RuleEnvironment)} {files : RuleFiles} :
    ∀ entry ∈ (runAll lib commands files).1, entry.2 = true → (lib.edit entry.1).isSome := by
  induction commands generalizing files with
  | nil => simp [runAll]
  | cons stage commands ih =>
    obtain ⟨command, env⟩ := stage
    intro entry hmem heffect
    rw [runAll] at hmem
    rcases List.mem_cons.mp hmem with rfl | hmem
    · rcases @withListTransaction_cases lib env command files with
        ⟨hsame, hresult⟩ | ⟨⟨edit, -, hedit, -⟩, -⟩
      · simp [hsame, hresult] at heffect
      · simp [hedit]
    · exact ih entry hmem heffect

/-- With nothing in the way a command leaves every list loadable, as the accepted
edit has it. -/
theorem withListTransaction_obeys {env : RuleEnvironment} {files : RuleFiles}
    {lists : RuleLists} (hload : lib.load files = .ok lists) (henv : env.Works)
    (command : RuleCommand) (kind : RuleKind) :
    lib.loadList kind ((lib.withListTransaction env command files).2 kind) =
      .ok (lib.obey kind (lists.entriesFor kind) command) := by
  have hkind := load_entriesFor hload kind
  unfold obey
  cases hedit : lib.edit command with
  | none =>
    obtain ⟨hsame, -⟩ | ⟨⟨edit, -, hsome, -⟩, -⟩ :=
      @withListTransaction_cases lib env command files
    · rw [hsame, hkind]
      split <;> rfl
    · rw [hedit] at hsome
      cases hsome
  | some edit =>
    obtain ⟨-, hafter, hothers⟩ := withListTransaction_works hload henv hedit
    by_cases hcommand : command.kind = kind
    · subst hcommand
      rw [if_pos rfl]
      exact hafter
    · rw [if_neg hcommand, hothers kind (Ne.symm hcommand), hkind]

theorem runAll_obeys {commands : List (RuleCommand × RuleEnvironment)} {files : RuleFiles}
    {lists : RuleLists} (hload : lib.load files = .ok lists)
    (hworks : ∀ stage ∈ commands, stage.2.Works) (kind : RuleKind) :
    lib.loadList kind ((runAll lib commands files).2 kind) =
      .ok ((commands.map Prod.fst).foldl (lib.obey kind) (lists.entriesFor kind)) := by
  induction commands generalizing files lists with
  | nil => exact load_entriesFor hload kind
  | cons stage commands ih =>
    obtain ⟨command, env⟩ := stage
    obtain ⟨henv, hlater⟩ := List.forall_mem_cons.mp hworks
    have hstep := withListTransaction_obeys hload henv command
    let lists' : RuleLists :=
      ⟨lib.obey .direct lists.direct command, lib.obey .proxy lists.proxy command,
        lib.obey .reject lists.reject command, lib.obey .fakeIpFilter lists.fakeIpFilter command⟩
    have hentries (kind : RuleKind) :
        lists'.entriesFor kind = lib.obey kind (lists.entriesFor kind) command := by
      cases kind <;> rfl
    have hload' : lib.load (lib.withListTransaction env command files).2 = .ok lists' := by
      apply load_of_entriesFor
      intro kind
      rw [hentries, hstep]
    have hrest := ih hload' hlater
    rw [hentries] at hrest
    exact hrest

/-! ## An import -/

/-- A list that holds the entries of a text is left byte for byte. -/
theorem appendLines_again {files : RuleFiles} {existing : String} {new : List RuleEntry}
    {target : RuleSetTarget} {text : String} (write : Replacement)
    (hfile : files target.ruleKind = some (bytes existing)) (hread : lib.imported text = some new)
    (hload : lib.loadText target.ruleKind existing = .ok entries)
    (h : ∀ entry ∈ new, entry ∈ entries) :
    (lib.appendLines write text target files).2 = files := by
  unfold appendLines
  split
  · rfl
  rename_i lists hlists
  have hseen := load_entriesFor hlists target.ruleKind
  rw [hfile, loadList_bytes, hload] at hseen
  cases hseen
  have hexisting : ((files target.ruleKind).map fromUtf8).getD (some importHeader) =
      some existing := by
    rw [hfile, Option.map_some, Option.getD_some, fromUtf8_bytes]
  have hupdate : Function.update files target.ruleKind (some (bytes existing)) = files := by
    rw [← hfile, Function.update_eq_self]
  simp only [hexisting, importLoop_of_subset existing hread h]
  cases write with
  | done => exact hupdate
  | doubtful => exact hupdate
  | refused => rfl

/-- Whatever an import reports, its list is as it was, or it holds the old
entries and the new ones of the text, and importing the text again changes no
byte. -/
theorem appendLines_outcome (write : Replacement) (text : String) (target : RuleSetTarget)
    (files : RuleFiles) :
    (∃ message, lib.appendLines write text target files = (.error message, files)) ∨
      ∃ old new, lib.loadList target.ruleKind (files target.ruleKind) = .ok old ∧
        lib.imported text = some new ∧
        lib.loadList target.ruleKind
            ((lib.appendLines write text target files).2 target.ruleKind) =
          .ok (new.foldl pushNew old) ∧
        (∀ other, other ≠ target.ruleKind →
          (lib.appendLines write text target files).2 other = files other) ∧
        ∀ again, (lib.appendLines again text target
            (lib.appendLines write text target files).2).2 =
          (lib.appendLines write text target files).2 := by
  rcases appendLines_cases write text target files with
    hfail | ⟨old, new, existing, hload, hread, hloaded, hfiles, -⟩
  · exact .inl hfail
  · refine .inr ⟨old, new, hload, hread, ?_, ?_, fun again => ?_⟩
    · rw [hfiles, Function.update_self, loadList_bytes, hloaded]
    · intro other hother
      rw [hfiles, Function.update_of_ne hother]
    · apply appendLines_again again _ hread hloaded
      · exact fun entry hmem => mem_foldl_pushNew.mpr (.inr hmem)
      · rw [hfiles, Function.update_self]

end RuleSyntax

/-- One network is an address, and quoted texts hold nothing to escape. -/
def sampleSyntax : RuleSyntax where
  parseIpAddr address := if address = "10.0.0.0" then some (.v4 0x0A000000) else none
  debug text := "\"" ++ text ++ "\""

/-- A host that lets every command through. -/
def sampleRuleHost : RuleEnvironment := ⟨true, true, .done, 0, .done⟩

end Sbctl
