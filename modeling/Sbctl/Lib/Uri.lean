import Sbctl.Lib.Percent

/-!
# Generic URI syntax

A URI with an authority: scheme, user information, host, port, path, query and
fragment, each from its own alphabet. Text outside the grammar is not read.

* `read_text`: a URI of the grammar is read back from its text;
* `params_join`: the parameters of a query read back;
* `read_eq_some`: what reading says of the text, where it may be cut short.
-/

namespace Uri

open Text

/-- A registered name, or an address that is written in brackets. -/
inductive Host where
  | name (cs : List Char)
  | literal (cs : List Char)
  deriving DecidableEq

def Host.text : Host → List Char
  | .name cs => cs
  | .literal cs => '[' :: (cs ++ [']'])

structure Parts where
  scheme : List Char
  userinfo : Option (List Char)
  host : Host
  port : Option (List Char)
  path : List Char
  query : Option (List Char)
  fragment : Option (List Char)
  deriving DecidableEq

/-! ## Alphabets -/

def isSubDelim (c : Char) : Bool := c ∈ "!$&'()*+,;=".toList

def isUserChar (c : Char) : Bool := isUnreserved c || isSubDelim c || c == ':'

def isNameChar (c : Char) : Bool := isUnreserved c || isSubDelim c

def isLiteralChar (c : Char) : Bool := (hexValue c).isSome || c == ':' || c == '.'

/-- Digits; a scheme that dials a range writes two numbers and a hyphen. -/
def isPortChar (c : Char) : Bool := c.isDigit || c == '-'

def isPathChar (c : Char) : Bool := isUnreserved c || isSubDelim c || c == ':' || c == '@' || c == '/'

def isQueryChar (c : Char) : Bool := isPathChar c || c == '?'

def isSchemeChar (c : Char) : Bool := isAsciiAlphanumeric c || c == '+' || c == '-' || c == '.'

/-- Characters of the alphabet and well-formed escapes. -/
def valid (p : Char → Bool) (cs : List Char) : Bool :=
  cs.all (fun c => p c || c == '%') && (percentDecode cs).isSome

theorem valid_mem {p : Char → Bool} {cs : List Char} (h : valid p cs = true) {c : Char}
    (hc : c ∈ cs) : p c = true ∨ c = '%' := by
  simp only [valid, Bool.and_eq_true, List.all_eq_true, Bool.or_eq_true, beq_iff_eq] at h
  exact h.1 c hc

theorem valid_literal {p : Char → Bool} {cs : List Char} (h : ∀ c ∈ cs, p c = true)
    (hpercent : p '%' = false) : valid p cs = true := by
  have hno : '%' ∉ cs := fun hmem => by
    rw [h _ hmem] at hpercent
    cases hpercent
  simp only [valid, Bool.and_eq_true, List.all_eq_true, Bool.or_eq_true]
  exact ⟨fun c hc => .inl (h c hc), by rw [percentDecode_literal hno]; rfl⟩

theorem valid_notMem {p : Char → Bool} {cs : List Char} {c : Char} (h : valid p cs = true)
    (hc : p c = false) (hpercent : c ≠ '%') : c ∉ cs := by
  intro hmem
  rcases valid_mem h hmem with hp | rfl
  · rw [hc] at hp
    cases hp
  · exact hpercent rfl

theorem valid_append {p : Char → Bool} {cs ds : List Char} (h : valid p cs = true)
    (h' : valid p ds = true) : valid p (cs ++ ds) = true := by
  rw [valid, Bool.and_eq_true] at h h' ⊢
  obtain ⟨decoded, hdecoded⟩ := Option.isSome_iff_exists.mp h.2
  refine ⟨?_, ?_⟩
  · rw [List.all_append, h.1, h'.1]
    rfl
  · rw [percentDecode_append hdecoded, Option.isSome_map]
    exact h'.2

theorem valid_percentEncode {p : Char → Bool} (h : ∀ c, isUnreserved c = true → p c = true)
    (s : String) : valid p (percentEncode s) = true := by
  simp only [valid, Bool.and_eq_true, List.all_eq_true, Bool.or_eq_true, beq_iff_eq]
  refine ⟨fun c hc => ?_, ?_⟩
  · by_cases hpercent : c = '%'
    · exact .inr hpercent
    · refine .inl (h c ?_)
      by_contra hnot
      exact notMem_percentEncode (Bool.eq_false_iff.mpr hnot) hpercent s hc
  · have := decodeText_percentEncode s
    obtain ⟨decoded, hdecoded, -⟩ := Option.bind_eq_some_iff.mp this
    rw [hdecoded]
    rfl

theorem valid_join {p : Char → Bool} {sep : Char} (hsep : valid p [sep] = true)
    {pieces : List (List Char)} (h : ∀ piece ∈ pieces, valid p piece = true) :
    valid p (join sep pieces) = true := by
  induction pieces with
  | nil => rfl
  | cons piece pieces ih =>
    have hpiece := h piece List.mem_cons_self
    have hrest := ih fun other hother => h other (List.mem_cons_of_mem _ hother)
    cases pieces with
    | nil => exact hpiece
    | cons next pieces =>
      have hjoin : join sep (piece :: next :: pieces) =
          piece ++ ([sep] ++ join sep (next :: pieces)) := rfl
      rw [hjoin]
      exact valid_append hpiece (valid_append hsep hrest)

/-! ## Reading -/

/-- The text before the first character that stops it, and the rest. -/
def cut (stop : Char → Bool) (cs : List Char) : List Char × List Char :=
  (cs.takeWhile fun c => !stop c, cs.dropWhile fun c => !stop c)

def stopsAuthority (c : Char) : Bool := c == '/' || c == '?' || c == '#'
def stopsPath (c : Char) : Bool := c == '?' || c == '#'
def stopsQuery (c : Char) : Bool := c == '#'

def readPort (cs : List Char) : Option (Option (List Char)) :=
  match cs with
  | [] => some none
  | c :: port => if c = ':' ∧ port.all isPortChar then some (some port) else none

def readHostPort (cs : List Char) : Option (Host × Option (List Char)) :=
  if cs.head? = some '[' then do
    let (address, after) ← splitOnce ']' cs.tail
    let port ← readPort after
    if address.all isLiteralChar then return (.literal address, port) else none
  else do
    let name := (cut (· == ':') cs).1
    let port ← readPort (cut (· == ':') cs).2
    if valid isNameChar name then return (.name name, port) else none

def readAuthority (cs : List Char) :
    Option (Option (List Char) × Host × Option (List Char)) :=
  match splitOnce '@' cs with
  | none => (readHostPort cs).map fun (host, port) => (none, host, port)
  | some (user, cs) =>
    if valid isUserChar user then
      (readHostPort cs).map fun (host, port) => (some user, host, port)
    else none

/-- The query after its question mark, if there is one, and the rest. -/
def readQuery (cs : List Char) : Option (List Char) × List Char :=
  if cs.head? = some '?' then (some (cut stopsQuery cs.tail).1, (cut stopsQuery cs.tail).2)
  else (none, cs)

def readFragment (cs : List Char) : Option (List Char) :=
  if cs.head? = some '#' then some cs.tail else none

def isScheme (cs : List Char) : Bool :=
  cs.all isSchemeChar && cs.head?.any isAsciiAlphabetic

def read (cs : List Char) : Option Parts := do
  let (scheme, rest) ← splitOnce ':' cs
  let rest ← stripPrefix "//".toList rest
  let (authority, rest) := cut stopsAuthority rest
  let (path, rest) := cut stopsPath rest
  let (query, rest) := readQuery rest
  let fragment := readFragment rest
  let (userinfo, host, port) ← readAuthority authority
  if isScheme scheme ∧ valid isPathChar path ∧ query.all (valid isQueryChar) ∧
      fragment.all (valid isQueryChar) then
    return ⟨scheme, userinfo, host, port, path, query, fragment⟩
  else none

/-! ## Writing -/

def Parts.authority (uri : Parts) : List Char :=
  (uri.userinfo.elim [] fun user => user ++ ['@']) ++ uri.host.text ++
    uri.port.elim [] fun port => ':' :: port

def Parts.text (uri : Parts) : List Char :=
  uri.scheme ++ ':' :: '/' :: '/' :: (uri.authority ++ (uri.path ++
    ((uri.query.elim [] fun query => '?' :: query) ++
      uri.fragment.elim [] fun fragment => '#' :: fragment)))

def Host.WellFormed : Host → Prop
  | .name cs => valid isNameChar cs = true
  | .literal cs => cs.all isLiteralChar = true

structure Parts.WellFormed (uri : Parts) : Prop where
  scheme : isScheme uri.scheme = true
  userinfo : ∀ user ∈ uri.userinfo, valid isUserChar user = true
  host : uri.host.WellFormed
  port : ∀ port ∈ uri.port, port.all isPortChar = true
  path : valid isPathChar uri.path = true ∧ (uri.path = [] ∨ uri.path.head? = some '/')
  query : ∀ query ∈ uri.query, valid isQueryChar query = true
  fragment : ∀ fragment ∈ uri.fragment, valid isQueryChar fragment = true

/-- Where a part ends. -/
def Stops (stop : Char → Bool) (rest : List Char) : Prop := ∀ c ∈ rest.head?, stop c = true

theorem cut_append (stop : Char → Bool) {cs rest : List Char} (h : ∀ c ∈ cs, stop c = false)
    (hrest : Stops stop rest) : cut stop (cs ++ rest) = (cs, rest) := by
  have hcs : ∀ c ∈ cs, (!stop c) = true := fun c hc => by rw [h c hc]; rfl
  rw [cut, List.takeWhile_append_of_pos hcs, List.dropWhile_append_of_pos hcs]
  cases rest with
  | nil => simp
  | cons d rest =>
    have hd : stop d = true := hrest d rfl
    simp [hd]

theorem stops_elim {stop : Char → Bool} {c : Char} (hc : stop c = true)
    (part : Option (List Char)) {rest : List Char} (hrest : Stops stop rest) :
    Stops stop ((part.elim [] fun cs => c :: cs) ++ rest) := by
  cases part with
  | none => exact hrest
  | some cs =>
    intro d hd
    cases hd
    exact hc

theorem readPort_text {port : Option (List Char)} (h : ∀ cs ∈ port, cs.all isPortChar = true) :
    readPort (port.elim [] fun cs => ':' :: cs) = some port := by
  cases port with
  | none => rfl
  | some cs =>
    rw [Option.elim_some, readPort, if_pos ⟨rfl, h cs rfl⟩]

theorem readHostPort_text {host : Host} {port : Option (List Char)} (hhost : host.WellFormed)
    (hport : ∀ cs ∈ port, cs.all isPortChar = true) :
    readHostPort (host.text ++ port.elim [] fun cs => ':' :: cs) = some (host, port) := by
  have hread := readPort_text hport
  cases host with
  | name cs =>
    have hvalid : valid isNameChar cs = true := hhost
    have hbracket : (cs ++ port.elim [] fun cs => ':' :: cs).head? ≠ some '[' := by
      cases cs with
      | nil => cases port <;> simp
      | cons c cs =>
        intro heq
        cases heq
        exact valid_notMem hvalid (by decide) (by decide) List.mem_cons_self
    have hend : Stops (fun c => c == ':') [] := by simp [Stops]
    have hstops : Stops (fun c => c == ':') (port.elim [] fun cs => ':' :: cs) := by
      have := @stops_elim (fun c => c == ':') ':' rfl port [] hend
      rwa [List.append_nil] at this
    have hcut := cut_append (fun c => c == ':')
      (fun c (hc : c ∈ cs) => by
        rw [beq_eq_false_iff_ne]
        rintro rfl
        exact valid_notMem hvalid (by decide) (by decide) hc)
      hstops
    rw [Host.text, readHostPort, if_neg hbracket, hcut]
    simp only [hread, Option.bind_eq_bind, Option.bind_some, hvalid, if_true]
    rfl
  | literal cs =>
    have hall : cs.all isLiteralChar = true := hhost
    have hclose : ']' ∉ cs := by
      intro hmem
      have := List.all_eq_true.mp hall _ hmem
      revert this
      decide
    rw [Host.text, readHostPort]
    simp only [List.cons_append, List.head?_cons, if_true, List.tail_cons, List.append_assoc,
      List.nil_append,
      splitOnce_append hclose, hread, Option.bind_eq_bind, Option.bind_some, hall, if_true]
    rfl

theorem notMem_host {host : Host} (h : host.WellFormed) {c : Char}
    (hc : c = '@' ∨ c = '/' ∨ c = '?' ∨ c = '#') : c ∉ host.text := by
  cases host with
  | name cs =>
    have hvalid : valid isNameChar cs = true := h
    rcases hc with rfl | rfl | rfl | rfl <;> exact valid_notMem hvalid (by decide) (by decide)
  | literal cs =>
    intro hmem
    have hall := List.all_eq_true.mp (h : cs.all isLiteralChar = true)
    rw [Host.text, List.mem_cons, List.mem_append, List.mem_singleton] at hmem
    rcases hmem with rfl | hmem | rfl
    · revert hc
      decide
    · have := hall c hmem
      rcases hc with rfl | rfl | rfl | rfl <;> revert this <;> decide
    · revert hc
      decide

theorem notMem_port {port : Option (List Char)} (h : ∀ cs ∈ port, cs.all isPortChar = true)
    {c : Char} (hc : c = '@' ∨ c = '/' ∨ c = '?' ∨ c = '#') :
    c ∉ port.elim [] fun cs => ':' :: cs := by
  cases port with
  | none => exact List.not_mem_nil
  | some cs =>
    intro hmem
    rw [Option.elim_some, List.mem_cons] at hmem
    rcases hmem with rfl | hmem
    · revert hc
      decide
    · have := List.all_eq_true.mp (h cs rfl) c hmem
      rcases hc with rfl | rfl | rfl | rfl <;> revert this <;> decide

theorem readAuthority_text {uri : Parts} (h : uri.WellFormed) :
    readAuthority uri.authority = some (uri.userinfo, uri.host, uri.port) := by
  have hread := readHostPort_text h.host h.port
  unfold Parts.authority
  cases huser : uri.userinfo with
  | none =>
    have hat : '@' ∉ uri.host.text ++ uri.port.elim [] fun cs => ':' :: cs := by
      rw [List.mem_append, not_or]
      exact ⟨notMem_host h.host (.inl rfl), notMem_port h.port (.inl rfl)⟩
    have hnone := splitOnce_eq_none.mpr hat
    rw [Option.elim_none, List.nil_append, readAuthority, hnone, hread]
    rfl
  | some user =>
    have hvalid := h.userinfo user huser
    have hat : '@' ∉ user := valid_notMem hvalid (by decide) (by decide)
    rw [Option.elim_some, List.append_assoc, List.append_assoc, List.singleton_append,
      readAuthority, splitOnce_append hat]
    simp only [hvalid, if_true, hread]
    rfl

theorem notMem_authority {uri : Parts} (h : uri.WellFormed) {c : Char}
    (hc : c = '/' ∨ c = '?' ∨ c = '#') : c ∉ uri.authority := by
  unfold Parts.authority
  rw [List.mem_append, List.mem_append, not_or, not_or]
  refine ⟨⟨?_, notMem_host h.host (.inr hc)⟩, notMem_port h.port (.inr hc)⟩
  cases huser : uri.userinfo with
  | none => exact List.not_mem_nil
  | some user =>
    have hvalid := h.userinfo user huser
    rw [Option.elim_some, List.mem_append, List.mem_singleton, not_or]
    rcases hc with rfl | rfl | rfl
    · exact ⟨valid_notMem hvalid (by decide) (by decide), by decide⟩
    · exact ⟨valid_notMem hvalid (by decide) (by decide), by decide⟩
    · exact ⟨valid_notMem hvalid (by decide) (by decide), by decide⟩

/-- A URI of the grammar is read back. -/
theorem read_text {uri : Parts} (h : uri.WellFormed) : read uri.text = some uri := by
  have hscheme : ':' ∉ uri.scheme := by
    intro hmem
    have hall := (Bool.and_eq_true_iff.mp h.scheme).1
    have := List.all_eq_true.mp hall _ hmem
    revert this
    decide
  have hend (stop : Char → Bool) : Stops stop [] := by simp [Stops]
  have hfragment (stop : Char → Bool) (hstop : stop '#' = true) :
      Stops stop (uri.fragment.elim [] fun cs => '#' :: cs) := by
    have := stops_elim hstop uri.fragment (hend stop)
    rwa [List.append_nil] at this
  have hquery (stop : Char → Bool) (hstop : stop '#' = true) (hstop' : stop '?' = true) :
      Stops stop ((uri.query.elim [] fun cs => '?' :: cs) ++
        uri.fragment.elim [] fun cs => '#' :: cs) :=
    stops_elim hstop' uri.query (hfragment stop hstop)
  have hpath : Stops stopsAuthority (uri.path ++ ((uri.query.elim [] fun cs => '?' :: cs) ++
      uri.fragment.elim [] fun cs => '#' :: cs)) := by
    rcases h.path.2 with hnil | hslash
    · rw [hnil]
      exact hquery _ (by decide) (by decide)
    · intro c hc
      cases hcs : uri.path with
      | nil =>
        rw [hcs] at hslash
        cases hslash
      | cons d cs =>
        rw [hcs] at hslash hc
        cases hslash
        cases hc
        decide
  have hcutAuthority := cut_append stopsAuthority
    (fun c (hc : c ∈ uri.authority) => by
      simp only [stopsAuthority, Bool.or_eq_false_iff, beq_eq_false_iff_ne]
      refine ⟨⟨?_, ?_⟩, ?_⟩
      · rintro rfl
        exact notMem_authority h (.inl rfl) hc
      · rintro rfl
        exact notMem_authority h (.inr (.inl rfl)) hc
      · rintro rfl
        exact notMem_authority h (.inr (.inr rfl)) hc) hpath
  have hcutPath := cut_append stopsPath
    (fun c (hc : c ∈ uri.path) => by
      simp only [stopsPath, Bool.or_eq_false_iff, beq_eq_false_iff_ne]
      constructor
      · rintro rfl
        exact valid_notMem h.path.1 (by decide) (by decide) hc
      · rintro rfl
        exact valid_notMem h.path.1 (by decide) (by decide) hc)
    (hquery stopsPath (by decide) (by decide))
  have hreadFragment : readFragment (uri.fragment.elim [] fun cs => '#' :: cs) = uri.fragment := by
    cases uri.fragment <;> rfl
  have hreadQuery : readQuery ((uri.query.elim [] fun cs => '?' :: cs) ++
      uri.fragment.elim [] fun cs => '#' :: cs) =
        (uri.query, uri.fragment.elim [] fun cs => '#' :: cs) := by
    cases hq : uri.query with
    | none =>
      rw [Option.elim_none, List.nil_append, readQuery, if_neg]
      cases uri.fragment <;> simp
    | some query =>
      have hcutQuery := cut_append stopsQuery
        (fun c (hc : c ∈ query) => by
          rw [stopsQuery, beq_eq_false_iff_ne]
          rintro rfl
          exact valid_notMem (h.query query hq) (by decide) (by decide) hc)
        (hfragment stopsQuery (by decide))
      rw [Option.elim_some, List.cons_append, readQuery, List.head?_cons, if_pos rfl,
        List.tail_cons, hcutQuery]
  have hqueryValid : uri.query.all (valid isQueryChar) = true := by
    cases hq : uri.query with
    | none => rfl
    | some query => exact h.query query hq
  have hfragmentValid : uri.fragment.all (valid isQueryChar) = true := by
    cases hf : uri.fragment with
    | none => rfl
    | some fragment => exact h.fragment fragment hf
  have hslashes (rest : List Char) :
      stripPrefix "//".toList ('/' :: '/' :: rest) = some rest := stripPrefix_append _ _
  rw [Parts.text, read, splitOnce_append hscheme]
  simp only [Option.bind_eq_bind, Option.bind_some, hslashes, hcutAuthority, hcutPath, hreadQuery,
    hreadFragment, readAuthority_text h, h.scheme, h.path.1, hqueryValid, hfragmentValid,
    and_self, if_true]
  rfl

theorem notMem_host_line {host : Host} (h : host.WellFormed) {c : Char}
    (hc : c = '\n' ∨ c = '\r') : c ∉ host.text := by
  cases host with
  | name cs =>
    have hvalid : valid isNameChar cs = true := h
    rcases hc with rfl | rfl <;> exact valid_notMem hvalid (by decide) (by decide)
  | literal cs =>
    have hall : cs.all isLiteralChar = true := h
    rw [Host.text, List.mem_cons, List.mem_append, List.mem_singleton, not_or, not_or]
    refine ⟨?_, fun hmem => ?_, ?_⟩
    · rcases hc with rfl | rfl <;> decide
    · have := List.all_eq_true.mp hall c hmem
      rcases hc with rfl | rfl <;> revert this <;> decide
    · rcases hc with rfl | rfl <;> decide

/-- A URI is one line. -/
theorem notMem_text {uri : Parts} (h : uri.WellFormed) {c : Char} (hc : c = '\n' ∨ c = '\r') :
    c ∉ uri.text := by
  have hscheme : c ∉ uri.scheme := by
    intro hmem
    have hall := List.all_eq_true.mp (Bool.and_eq_true_iff.mp h.scheme).1 c hmem
    rcases hc with rfl | rfl <;> revert hall <;> decide
  have huser (user : List Char) (hvalid : valid isUserChar user = true) : c ∉ user := by
    rcases hc with rfl | rfl <;> exact valid_notMem hvalid (by decide) (by decide)
  have hquery (query : List Char) (hvalid : valid isQueryChar query = true) : c ∉ query := by
    rcases hc with rfl | rfl <;> exact valid_notMem hvalid (by decide) (by decide)
  have hpath : c ∉ uri.path := by
    rcases hc with rfl | rfl <;> exact valid_notMem h.path.1 (by decide) (by decide)
  have hhost : c ∉ uri.host.text := notMem_host_line h.host hc
  have hport : c ∉ uri.port.elim [] fun port => ':' :: port := by
    cases hsome : uri.port with
    | none => exact List.not_mem_nil
    | some port =>
      rw [Option.elim_some, List.mem_cons, not_or]
      refine ⟨?_, fun hmem => ?_⟩
      · rcases hc with rfl | rfl <;> decide
      · have := List.all_eq_true.mp (h.port port hsome) c hmem
        rcases hc with rfl | rfl <;> revert this <;> decide
  have hsign (d : Char) (hd : d ∈ [':', '/', '@', '?', '#']) : c ≠ d := by
    rintro rfl
    rcases hc with rfl | rfl <;> revert hd <;> decide
  simp only [Parts.text, Parts.authority, List.mem_append, List.mem_cons, not_or]
  refine ⟨hscheme, hsign _ (by decide), hsign _ (by decide), hsign _ (by decide),
    ⟨⟨?_, hhost⟩, hport⟩, hpath, ?_, ?_⟩
  · cases hsome : uri.userinfo with
    | none => exact List.not_mem_nil
    | some user =>
      rw [Option.elim_some, List.mem_append, List.mem_singleton, not_or]
      exact ⟨huser user (h.userinfo user hsome), hsign _ (by decide)⟩
  · cases hsome : uri.query with
    | none => exact List.not_mem_nil
    | some query =>
      rw [Option.elim_some, List.mem_cons, not_or]
      exact ⟨hsign _ (by decide), hquery query (h.query query hsome)⟩
  · cases hsome : uri.fragment with
    | none => exact List.not_mem_nil
    | some fragment =>
      rw [Option.elim_some, List.mem_cons, not_or]
      exact ⟨hsign _ (by decide), hquery fragment (h.fragment fragment hsome)⟩

/-! ## Parameters of a query -/

/-- A name and a value, each with its escapes. -/
def readParam (piece : List Char) : Option (String × String) :=
  match splitOnce '=' piece with
  | none => (decodeText piece).map (·, "")
  | some (name, value) => do
    let name ← decodeText name
    let value ← decodeText value
    return (name, value)

def params (query : List Char) : Option (List (String × String)) :=
  (splitChar '&' query).mapM readParam

def paramText (name : String) (raw : List Char) : List Char := name.toList ++ '=' :: raw

/-- A name that is written as it is. -/
def PlainName (name : String) : Prop :=
  '=' ∉ name.toList ∧ '&' ∉ name.toList ∧ '%' ∉ name.toList

instance (name : String) : Decidable (PlainName name) := by unfold PlainName; infer_instance

/-- A parameter, the way its value is written, and the value. -/
structure Param where
  name : String
  raw : List Char
  value : String

def Param.text (param : Param) : List Char := paramText param.name param.raw
def Param.pair (param : Param) : String × String := (param.name, param.value)

structure Param.Reads (param : Param) : Prop where
  name : PlainName param.name
  raw : '&' ∉ param.raw
  value : decodeText param.raw = some param.value

def queryText (params : List Param) : List Char := join '&' (params.map Param.text)

theorem readParam_text {param : Param} (h : param.Reads) :
    readParam param.text = some param.pair := by
  rw [Param.text, paramText, readParam, splitOnce_append h.name.1]
  simp only [decodeText_literal h.name.2.2, h.value, String.ofList_toList, Option.bind_eq_bind,
    Option.bind_some]
  rfl

/-- Parameters with their values as they are written read back. -/
theorem params_join {written : List Param} (hne : written ≠ [])
    (h : ∀ param ∈ written, param.Reads) :
    params (queryText written) = some (written.map Param.pair) := by
  have hpieces : ∀ piece ∈ written.map Param.text, '&' ∉ piece := by
    intro piece hpiece
    obtain ⟨param, hparam, rfl⟩ := List.mem_map.mp hpiece
    have hreads := h param hparam
    rw [Param.text, paramText, List.mem_append, List.mem_cons, not_or, not_or]
    exact ⟨hreads.name.2.1, by decide, hreads.raw⟩
  rw [params, queryText, splitChar_join (by simpa using hne) hpieces]
  clear hne hpieces
  induction written with
  | nil => rfl
  | cons param written ih =>
    have hread := readParam_text (h param List.mem_cons_self)
    have hrest := ih fun other hother => h other (List.mem_cons_of_mem _ hother)
    rw [List.map_cons, List.mapM_cons, hread, hrest]
    rfl

/-- Parameters after a first one. -/
theorem queryText_cons (first : Param) {params : List Param} (h : params ≠ []) :
    queryText (first :: params) = first.text ++ '&' :: queryText params := by
  cases params with
  | nil => exact absurd rfl h
  | cons next params => rfl

theorem queryText_valid {written : List Param}
    (h : ∀ param ∈ written, valid isQueryChar param.text = true) :
    valid isQueryChar (queryText written) = true := by
  refine valid_join (by decide) fun piece hpiece => ?_
  obtain ⟨param, hparam, rfl⟩ := List.mem_map.mp hpiece
  exact h param hparam

/-! ## Texts that are cut short -/

theorem cut_eq (stop : Char → Bool) (cs : List Char) :
    cs = (cut stop cs).1 ++ (cut stop cs).2 ∧ ∀ c ∈ (cut stop cs).1, stop c = false := by
  refine ⟨List.takeWhile_append_dropWhile.symm, fun c hc => ?_⟩
  have hall : ((cut stop cs).1.all fun c => !stop c) = true := List.all_takeWhile
  have := List.all_eq_true.mp hall c hc
  simpa using this

/-- What reading says of the text that was read. -/
theorem read_eq_some {cs : List Char} {uri : Parts} (h : read cs = some uri) :
    ∃ authority rest, cs = uri.scheme ++ ':' :: '/' :: '/' :: (authority ++ rest) ∧
      ':' ∉ uri.scheme ∧ readAuthority authority = some (uri.userinfo, uri.host, uri.port) ∧
      '?' ∉ authority ∧
      ∀ query ∈ uri.query, valid isQueryChar query = true ∧ '?' ∉ uri.path ∧
        ∃ tail, rest = uri.path ++ '?' :: (query ++ tail) := by
  unfold read at h
  simp only [Option.bind_eq_bind, Option.bind_eq_some_iff, Prod.exists] at h
  obtain ⟨scheme, afterScheme, hscheme, afterSlashes, hslashes, userinfo, host, port, hauthority,
    h⟩ := h
  split at h
  · rename_i hvalid
    cases h
    obtain ⟨hnotin, hcs⟩ := splitOnce_eq_some hscheme
    have hafter := stripPrefix_eq_some.mp hslashes
    obtain ⟨hsplit, hstops⟩ := cut_eq stopsAuthority afterSlashes
    obtain ⟨hpath, hpathStops⟩ := cut_eq stopsPath (cut stopsAuthority afterSlashes).2
    refine ⟨_, (cut stopsAuthority afterSlashes).2, ?_, hnotin, hauthority, ?_, ?_⟩
    · rw [hcs, hafter, ← hsplit]
      rfl
    · intro hmem
      have := hstops _ hmem
      revert this
      decide
    · intro query hquery
      have hall := hvalid.2.2.1
      simp only at hquery hall ⊢
      rw [Option.mem_def] at hquery
      rw [hquery] at hall
      refine ⟨hall, ?_, ?_⟩
      · intro hmem
        have := hpathStops _ hmem
        revert this
        decide
      · unfold readQuery at hquery
        split at hquery
        · rename_i hhead
          cases hquery
          obtain ⟨hcut, -⟩ := cut_eq stopsQuery
            (cut stopsPath (cut stopsAuthority afterSlashes).2).2.tail
          refine ⟨(cut stopsQuery (cut stopsPath (cut stopsAuthority afterSlashes).2).2.tail).2, ?_⟩
          rw [← hcut]
          have hcons : (cut stopsPath (cut stopsAuthority afterSlashes).2).2 =
              '?' :: (cut stopsPath (cut stopsAuthority afterSlashes).2).2.tail := by
            exact (List.cons_head?_tail hhead).symm
          rw [← hcons, ← hpath]
        · cases hquery
  · cases h

theorem readAuthority_userinfo {authority user : List Char} {host : Host}
    {port : Option (List Char)} (h : readAuthority authority = some (some user, host, port)) :
    valid isUserChar user = true ∧ '@' ∉ user ∧ ∃ rest, authority = user ++ '@' :: rest := by
  unfold readAuthority at h
  split at h
  · obtain ⟨⟨host', port'⟩, -, heq⟩ := Option.map_eq_some_iff.mp h
    cases heq
  · rename_i user' rest hsplit
    split at h
    · rename_i hvalid
      obtain ⟨⟨host', port'⟩, -, heq⟩ := Option.map_eq_some_iff.mp h
      cases heq
      obtain ⟨hat, hauthority⟩ := splitOnce_eq_some hsplit
      exact ⟨hvalid, hat, rest, hauthority⟩
    · cases h

/-- An at sign stands before the host only. -/
theorem readHostPort_at {cs : List Char} (h : '@' ∈ cs) : readHostPort cs = none := by
  have hport {cs : List Char} (h : '@' ∈ cs) : readPort cs = none := by
    cases cs with
    | nil => cases h
    | cons c port =>
      rw [readPort, if_neg]
      rintro ⟨rfl, hall⟩
      have hmem := (List.mem_cons.mp h).resolve_left (by decide)
      exact absurd (List.all_eq_true.mp hall _ hmem) (by decide)
  cases hread : readHostPort cs with
  | none => rfl
  | some result =>
    unfold readHostPort at hread
    split at hread
    · rename_i hhead
      simp only [Option.bind_eq_bind, Option.bind_eq_some_iff, Prod.exists] at hread
      obtain ⟨address, after, hsplit, port, hafter, hread⟩ := hread
      obtain ⟨-, htail⟩ := splitOnce_eq_some hsplit
      have hcs : cs = '[' :: (address ++ ']' :: after) := by
        rw [← htail]
        exact (List.cons_head?_tail hhead).symm
      split at hread
      · rename_i hliteral
        rw [hcs] at h
        simp only [List.mem_cons, List.mem_append] at h
        rcases h with h | h | h | h
        · cases h
        · exact absurd (List.all_eq_true.mp hliteral _ h) (by decide)
        · cases h
        · rw [hport h] at hafter
          cases hafter
      · cases hread
    · simp only [Option.bind_eq_bind, Option.bind_eq_some_iff] at hread
      obtain ⟨port, hafter, hread⟩ := hread
      split at hread
      · rename_i hname
        obtain ⟨hcs, -⟩ := cut_eq (· == ':') cs
        rw [hcs, List.mem_append] at h
        rcases h with h | h
        · exact absurd h (valid_notMem hname (by decide) (by decide))
        · rw [hport h] at hafter
          cases hafter
      · cases hread

/-- User information that is not escaped leaves the port of its authority alone. -/
theorem readAuthority_port {plain : List Char} {host : Host} {port : List Char}
    (hhost : host.WellFormed) (hport : port.all isPortChar = true)
    {result : Option (List Char) × Host × Option (List Char)}
    (h : readAuthority (plain ++ '@' :: (host.text ++ ':' :: port)) = some result) :
    result.2.2 = some port := by
  have hport' : ∀ cs ∈ some port, cs.all isPortChar = true := by
    intro cs hcs
    cases hcs
    exact hport
  by_cases hat : '@' ∈ plain
  · -- the authority is cut at the first at sign, and another one follows
    obtain ⟨user, more, hplain, huser⟩ := List.eq_append_cons_of_mem hat
    rw [hplain, List.append_assoc, List.cons_append, readAuthority, splitOnce_append huser] at h
    have hnone : readHostPort (more ++ '@' :: (host.text ++ ':' :: port)) = none :=
      readHostPort_at (by simp)
    simp only [hnone, Option.map_none, ite_self] at h
    cases h
  · rw [readAuthority, splitOnce_append hat] at h
    have hread := readHostPort_text hhost hport'
    rw [Option.elim_some] at hread
    simp only [hread, Option.map_some] at h
    split at h
    · cases h
      rfl
    · cases h

/-- The authority ends where it was written to end. -/
theorem read_authority {scheme authority rest : List Char} {uri : Parts} (hscheme : ':' ∉ scheme)
    (hauthority : ∀ c ∈ authority, stopsAuthority c = false) (hrest : Stops stopsAuthority rest)
    (h : read (scheme ++ ':' :: '/' :: '/' :: (authority ++ rest)) = some uri) :
    uri.scheme = scheme ∧ readAuthority authority = some (uri.userinfo, uri.host, uri.port) := by
  have hslashes : stripPrefix "//".toList ('/' :: '/' :: (authority ++ rest)) =
      some (authority ++ rest) := stripPrefix_eq_some.mpr rfl
  unfold read at h
  simp only [splitOnce_append hscheme, hslashes, cut_append stopsAuthority hauthority hrest,
    Option.bind_eq_bind, Option.bind_some, Option.bind_eq_some_iff, Prod.exists] at h
  obtain ⟨userinfo, host, port, hread, h⟩ := h
  split at h
  · cases h
    exact ⟨rfl, hread⟩
  · cases h

/-! ## What a query says of the text it was read from -/

theorem ascii_of_isUnreserved {c : Char} (h : isUnreserved c = true) : c.toNat < 128 := by
  simp only [isUnreserved, isAsciiAlphanumeric, Bool.or_eq_true, Bool.and_eq_true,
    decide_eq_true_eq, beq_iff_eq, le_iff_toNat_le, Char.reduceToNat] at h
  rcases h with (((h | rfl) | rfl) | rfl) | rfl
  · omega
  all_goals decide

theorem ascii_of_mem {alphabet : List Char} (hall : (alphabet.all fun c => c.toNat < 128) = true)
    {c : Char} (h : c ∈ alphabet) : c.toNat < 128 :=
  of_decide_eq_true (List.all_eq_true.mp hall c h)

theorem ascii_of_isUserChar {c : Char} (h : isUserChar c = true) : c.toNat < 128 := by
  simp only [isUserChar, Bool.or_eq_true, beq_iff_eq] at h
  rcases h with (h | h) | rfl
  · exact ascii_of_isUnreserved h
  · exact ascii_of_mem (by decide) (of_decide_eq_true h)
  · decide

theorem ascii_of_isQueryChar {c : Char} (h : isQueryChar c = true) : c.toNat < 128 := by
  simp only [isQueryChar, isPathChar, Bool.or_eq_true, beq_iff_eq] at h
  rcases h with ((((h | h) | rfl) | rfl) | rfl) | rfl
  · exact ascii_of_isUnreserved h
  · exact ascii_of_mem (by decide) (of_decide_eq_true h)
  all_goals decide

theorem ascii_of_valid {p : Char → Bool} (hp : ∀ c, p c = true → c.toNat < 128) {cs : List Char}
    (h : valid p cs = true) : ∀ c ∈ cs, c.toNat < 128 := by
  intro c hc
  rcases valid_mem h hc with hchar | rfl
  · exact hp c hchar
  · decide

/-- A piece that begins a written parameter and reads back as it has its name. -/
theorem piece_of_prefix {param : Param} {piece more tail : List Char} (hname : PlainName param.name)
    (hread : readParam piece = some param.pair)
    (hpre : piece ++ '&' :: more <+: param.text ++ '&' :: tail) :
    ∃ value, piece = paramText param.name value ∧ decodeText value = some param.value ∧
      value ++ ['&'] <+: param.raw ++ '&' :: tail := by
  have htext : param.text ++ '&' :: tail = param.name.toList ++ '=' :: (param.raw ++ '&' :: tail) := by
    simp [Param.text, paramText]
  rw [htext] at hpre
  cases hsplit : splitOnce '=' piece with
  | none =>
    -- without a sign the separator would stand inside the name
    exact (separators_clash hpre (splitOnce_eq_none.mp hsplit) hname.2.1 (by decide)).elim
  | some pair =>
    obtain ⟨name, value⟩ := pair
    obtain ⟨hnotin, hcs⟩ := splitOnce_eq_some hsplit
    unfold readParam at hread
    simp only [hsplit, Option.bind_eq_bind, Option.bind_eq_some_iff, Option.pure_def,
      Option.some.injEq] at hread
    obtain ⟨name', -, value', hvalue, hpair⟩ := hread
    cases hpair
    rw [hcs, List.append_assoc, List.cons_append] at hpre
    obtain ⟨heq, hrest⟩ := prefix_aligned hpre hnotin hname.1
    refine ⟨value, by rw [hcs, heq]; rfl, hvalue, ?_⟩
    have hshort : value ++ ['&'] <+: value ++ '&' :: more :=
      ⟨more, by simp⟩
    exact hshort.trans hrest

/-- A parameter that is written as it is, or with no separator in it. -/
structure Param.Written (param : Param) : Prop where
  name : PlainName param.name
  raw : '&' ∉ param.raw ∨ param.raw = param.value.toList

/-- The piece is the parameter as it is written; a value that is written as it
is has no escapes and no separator. -/
theorem piece_eq {param : Param} (hwritten : param.Written) {piece more tail : List Char}
    (hascii : ∀ c ∈ piece, c.toNat < 128) (hpiece : '&' ∉ piece)
    (hread : readParam piece = some param.pair)
    (hpre : piece ++ '&' :: more <+: param.text ++ '&' :: tail) :
    piece = param.text ∧ (param.raw = param.value.toList → '%' ∉ param.raw) := by
  obtain ⟨value, hvalue, hdecode, hshort⟩ := piece_of_prefix hwritten.name hread hpre
  have hmem : ∀ c ∈ value, c ∈ piece := by
    intro c hc
    rw [hvalue, paramText]
    exact List.mem_append_right _ (List.mem_cons_of_mem _ hc)
  have hclear : '&' ∉ value := fun h => hpiece (hmem _ h)
  have hraw : value = param.raw := by
    rcases hwritten.raw with hnot | hplain
    · exact (prefix_aligned (b := []) hshort hclear hnot).1
    · have hbegins := prefix_of_notMem hshort hclear
      rw [hplain] at hbegins ⊢
      exact (eq_of_decodeText_begins (fun c hc => hascii c (hmem c hc)) hbegins hdecode).1
  refine ⟨by rw [hvalue, hraw]; rfl, fun hplain => ?_⟩
  rw [hraw] at hdecode hmem
  have hbegins : param.raw <+: param.value.toList := hplain ▸ List.prefix_rfl
  exact (eq_of_decodeText_begins (fun c hc => hascii c (hmem c hc)) hbegins hdecode).2

/-- Where a query that was read begins a written one, the values that are written
as they are, but for the last, need no escapes. -/
theorem literal_of_params {written : List Param} (hwritten : ∀ param ∈ written, param.Written)
    {query tail : List Char} (hvalid : valid isQueryChar query = true)
    (hread : params query = some (written.map Param.pair)) (hpre : query <+: queryText written ++ tail) :
    ∀ param ∈ written.dropLast, param.raw = param.value.toList →
      ∀ c ∈ param.raw, isQueryChar c = true ∧ c ≠ '&' := by
  have hpieces : ∀ piece ∈ splitChar '&' query, '&' ∉ piece := fun _ h => notMem_splitChar h
  have hchars : ∀ piece ∈ splitChar '&' query, ∀ c ∈ piece, isQueryChar c = true ∨ c = '%' :=
    fun _ hpiece c hc => valid_mem hvalid (mem_of_mem_splitChar hpiece hc)
  have hascii : ∀ piece ∈ splitChar '&' query, ∀ c ∈ piece, c.toNat < 128 :=
    fun _ hpiece c hc => ascii_of_valid (fun _ => ascii_of_isQueryChar) hvalid c
      (mem_of_mem_splitChar hpiece hc)
  rw [← join_splitChar '&' query] at hpre
  rw [params] at hread
  generalize splitChar '&' query = pieces at *
  induction written generalizing pieces with
  | nil => exact fun _ h => absurd h List.not_mem_nil
  | cons param written ih =>
    cases written with
    | nil => exact fun _ h => absurd h List.not_mem_nil
    | cons next written =>
      obtain ⟨piece, rest, rfl, hpiece, hrest⟩ : ∃ piece rest, pieces = piece :: rest ∧
          readParam piece = some param.pair ∧
            rest.mapM readParam = some ((next :: written).map Param.pair) := by
        cases pieces with
        | nil => cases hread
        | cons piece rest =>
          rw [List.mapM_cons] at hread
          simp only [Option.bind_eq_bind, Option.bind_eq_some_iff, Option.pure_def,
            Option.some.injEq, List.map_cons, List.cons.injEq] at hread
          obtain ⟨pair, hpair, pairs, hpairs, rfl, rfl⟩ := hread
          exact ⟨piece, rest, rfl, hpair, hpairs⟩
      have hne : rest ≠ [] := by
        rintro rfl
        cases hrest
      rw [queryText_cons _ (List.cons_ne_nil _ _), List.append_assoc, List.cons_append] at hpre
      have hjoin : join '&' (piece :: rest) = piece ++ '&' :: join '&' rest := by
        cases rest with
        | nil => exact absurd rfl hne
        | cons other rest => rfl
      rw [hjoin] at hpre
      obtain ⟨heq, hplain⟩ := piece_eq (hwritten param List.mem_cons_self)
        (hascii piece List.mem_cons_self) (hpieces piece List.mem_cons_self) hpiece hpre
      have htail : join '&' rest <+: queryText (next :: written) ++ tail := by
        rw [heq] at hpre
        exact (List.cons_prefix_cons.mp ((List.prefix_append_right_inj _).mp hpre)).2
      intro other hother hliteral
      rw [List.dropLast_cons_of_ne_nil (List.cons_ne_nil _ _)] at hother
      rcases List.mem_cons.mp hother with rfl | hother
      · intro c hc
        have hmem : c ∈ piece := by
          rw [heq, Param.text, paramText]
          exact List.mem_append_right _ (List.mem_cons_of_mem _ hc)
        refine ⟨?_, fun h => hpieces piece List.mem_cons_self (h ▸ hmem)⟩
        rcases hchars piece List.mem_cons_self c hmem with hchar | rfl
        · exact hchar
        · exact absurd hc (hplain hliteral)
      · exact ih (fun p hp => hwritten p (List.mem_cons_of_mem _ hp)) rest hrest htail
          (fun p hp => hpieces p (List.mem_cons_of_mem _ hp))
          (fun p hp => hchars p (List.mem_cons_of_mem _ hp))
          (fun p hp => hascii p (List.mem_cons_of_mem _ hp)) other hother hliteral

/-- User information that is not escaped, where it is read back as it was, needs
no escapes; and the query is read from where it was written. -/
theorem read_unescaped {uri : Parts} {scheme plain hostPort rest user query : List Char}
    (hread : read (scheme ++ ':' :: '/' :: '/' :: (plain ++ '@' :: (hostPort ++ '?' :: rest))) =
      some uri)
    (hscheme : uri.scheme = scheme) (huser : uri.userinfo = some user)
    (hdecode : decodeText user = some (String.ofList plain)) (hclear : '?' ∉ hostPort)
    (hquery : uri.query = some query) :
    (∀ c ∈ plain, isUserChar c = true) ∧ valid isQueryChar query = true ∧ query <+: rest := by
  obtain ⟨authority, after, htext, -, hauthority, hmark, hall⟩ := read_eq_some hread
  obtain ⟨hvalid, hpath, tail, hafter⟩ := hall query hquery
  rw [huser] at hauthority
  obtain ⟨huserValid, hat, rest', hsplit⟩ := readAuthority_userinfo hauthority
  rw [hscheme] at htext
  have hsame := List.append_cancel_left htext
  simp only [List.cons.injEq, true_and] at hsame
  -- the user information ends where it was written to end
  have hbegins : user ++ ['@'] <+: plain ++ '@' :: (hostPort ++ '?' :: rest) := by
    rw [hsame, hsplit]
    exact ⟨rest' ++ after, by simp⟩
  have hascii := ascii_of_valid (fun _ => ascii_of_isUserChar) huserValid
  have hprefix : user <+: (String.ofList plain).toList := by
    rw [String.toList_ofList]
    exact prefix_of_notMem hbegins hat
  obtain ⟨heq, hpercent⟩ := eq_of_decodeText_begins hascii hprefix hdecode
  rw [String.toList_ofList] at heq
  refine ⟨fun c hc => ?_, hvalid, ?_⟩
  · rw [← heq] at hc
    rcases valid_mem huserValid hc with hchar | rfl
    · exact hchar
    · exact absurd hc hpercent
  · rw [hsplit, heq, List.append_assoc, List.cons_append] at hsame
    have hrest := List.append_cancel_left hsame
    simp only [List.cons.injEq, true_and] at hrest
    have hclear' : '?' ∉ rest' ++ uri.path := by
      rw [List.mem_append, not_or]
      refine ⟨fun h => hmark ?_, hpath⟩
      rw [hsplit]
      exact List.mem_append_right _ (List.mem_cons_of_mem _ h)
    have haligned : rest' ++ uri.path ++ '?' :: (query ++ tail) = hostPort ++ '?' :: rest := by
      rw [hrest, hafter, List.append_assoc]
    have hbegins : rest' ++ uri.path ++ '?' :: (query ++ tail) <+: hostPort ++ '?' :: rest :=
      ⟨[], by rw [List.append_nil, haligned]⟩
    exact (List.prefix_append query tail).trans (prefix_aligned hbegins hclear' hclear).2

end Uri
