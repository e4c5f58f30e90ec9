import Sbctl.Serve
import Sbctl.Lib.Spelling

/-!
# The paths of the routes

A route and a credential have one printed path, which reads back. The reader
takes a version with the parser of unsigned numbers, so it also serves paths
that were never printed.

* `routes_round_trip`: printed paths read back, and a path that is read is the
  printed one exactly if its version is spelled plainly;
* `padded_version_served`: paths with another spelling that are served.
-/

namespace Sbctl

open Text

/-! ## Printing -/

def SubscriptionRoute.suffix : SubscriptionRoute → String
  | .format artifact => artifact.pathName
  | .qr artifact => "qr/" ++ artifact.pathName
  | .index => "index"

/-- The URL of a route for one credential. -/
def SubscriptionHost.routeUrlWithCredential (s : SubscriptionHost) (credential : String)
    (route : SubscriptionRoute) : Except String String := do
  s.ensureSubscriptionNodes
  match route with
  | .format artifact | .qr artifact =>
    if ¬ artifact.hasCompatibleNodes s.config then
      throw ("client compatibility: " ++ artifact.pathName ++ " 不支持当前启用的节点协议")
  | .index => pure ()
  return s.urlPrefix ++ "/sub/" ++ credential ++ "/" ++ route.suffix

/-- What follows scheme and authority in the URL. -/
def routePath (credential : String) (route : SubscriptionRoute) : String :=
  "/sub/" ++ credential ++ "/" ++ route.suffix

/-- Only versions of the registry have artifacts. -/
def SubscriptionFormat.Registered : SubscriptionFormat → Prop
  | .singBoxVersion version => version ∈ allSingBoxVersionProfiles.map (·.version)
  | .clashLegacy version => version = clashLegacyVersion
  | _ => True

def SubscriptionRoute.Registered : SubscriptionRoute → Prop
  | .format artifact | .qr artifact => artifact.Registered
  | .index => True

/-- What a segment says between the name of the client and the extension. -/
def versionText (segment : List Char) : Option (List Char) :=
  ((stripPrefix "sing-box-".toList segment).bind (stripSuffix ".json".toList)).or
    ((stripPrefix "clash-".toList segment).bind (stripSuffix ".yaml".toList))

/-- The numbers of the version in the last segment have no sign and no zero
before other digits. -/
def PlainVersion (path : String) : Prop :=
  ∀ segment ∈ (splitChar '/' path.toList).getLast?, ∀ text ∈ versionText segment,
    ∀ number ∈ splitChar '.' text, plainNumber number

/-! ## Versions -/

namespace ClientVersion

def numbers (version : ClientVersion) : List Nat :=
  version.major :: version.minor :: version.patch.toList

theorem toList_display (version : ClientVersion) :
    version.display.toList = join '.' (version.numbers.map (Nat.toDigits 10)) := by
  obtain ⟨major, minor, patch⟩ := version
  cases patch with
  | none => simp [display, numbers, join, Nat.toString_eq_repr]
  | some patch => simp [display, numbers, join, Nat.toString_eq_repr]

theorem splitChar_display (version : ClientVersion) :
    splitChar '.' version.display.toList = version.numbers.map (Nat.toDigits 10) := by
  have hdot (n : Nat) : '.' ∉ Nat.toDigits 10 n := notMem_toDigits (by decide)
  rw [toList_display]
  obtain ⟨major, minor, patch⟩ := version
  cases patch with
  | none =>
    simp only [numbers, Option.toList_none, List.map_cons, List.map_nil, join]
    rw [splitChar_append (hdot major), splitChar_of_notMem (hdot minor)]
  | some patch =>
    simp only [numbers, Option.toList_some, List.map_cons, List.map_nil, join]
    rw [splitChar_append (hdot major), splitChar_append (hdot minor),
      splitChar_of_notMem (hdot patch)]

end ClientVersion

theorem parseClientVersion_display {version : ClientVersion} (h : ∀ n ∈ version.numbers, n ≤ 255) :
    parseClientVersion version.display.toList = some version := by
  rw [parseClientVersion, version.splitChar_display]
  obtain ⟨major, minor, patch⟩ := version
  cases patch with
  | none =>
    have hmajor : major ≤ 255 := h major (by simp [ClientVersion.numbers])
    have hminor : minor ≤ 255 := h minor (by simp [ClientVersion.numbers])
    simp [ClientVersion.numbers, parseUnsigned_toDigits hmajor, parseUnsigned_toDigits hminor]
  | some patch =>
    have hmajor : major ≤ 255 := h major (by simp [ClientVersion.numbers])
    have hminor : minor ≤ 255 := h minor (by simp [ClientVersion.numbers])
    have hpatch : patch ≤ 255 := h patch (by simp [ClientVersion.numbers])
    simp [ClientVersion.numbers, parseUnsigned_toDigits hmajor, parseUnsigned_toDigits hminor,
      parseUnsigned_toDigits hpatch]

/-- A version is read number by number. -/
theorem parseClientVersion_eq_some {text : List Char} {version : ClientVersion}
    (h : parseClientVersion text = some version) :
    List.Forall₂ (fun number n => parseUnsigned 255 number = some n) (splitChar '.' text)
      version.numbers := by
  unfold parseClientVersion at h
  split at h
  · rename_i major minor heq
    simp only [Option.bind_eq_bind, Option.bind_eq_some_iff, Option.pure_def,
      Option.some.injEq] at h
    obtain ⟨m, hm, n, hn, rfl⟩ := h
    rw [heq]
    exact .cons hm (.cons hn .nil)
  · rename_i major minor patch heq
    simp only [Option.bind_eq_bind, Option.bind_eq_some_iff, Option.pure_def,
      Option.some.injEq] at h
    obtain ⟨m, hm, n, hn, p, hp, rfl⟩ := h
    rw [heq]
    exact .cons hm (.cons hn (.cons hp .nil))
  · cases h

theorem forall₂_plain {pieces : List (List Char)} {numbers : List Nat}
    (h : List.Forall₂ (fun number n => parseUnsigned 255 number = some n) pieces numbers) :
    pieces = numbers.map (Nat.toDigits 10) ↔ ∀ number ∈ pieces, plainNumber number := by
  induction h with
  | nil => simp
  | cons hread _ ih => simp [plain_iff hread, ih]

/-- The text of a version that is read is the printed one if it is plain. -/
theorem display_iff {text : List Char} {version : ClientVersion}
    (h : parseClientVersion text = some version) :
    text = version.display.toList ↔ ∀ number ∈ splitChar '.' text, plainNumber number := by
  rw [← forall₂_plain (parseClientVersion_eq_some h), ← version.splitChar_display]
  constructor
  · rintro rfl
    rfl
  · exact splitChar_injective

/-! ## Segments -/

theorem stripSuffix_eq_some {suffix cs rest : List Char} :
    stripSuffix suffix cs = some rest ↔ cs = rest ++ suffix := by
  rw [stripSuffix, Option.map_eq_some_iff]
  constructor
  · rintro ⟨reversed, h, rfl⟩
    rw [stripPrefix_eq_some] at h
    have := congrArg List.reverse h
    rwa [List.reverse_reverse, List.reverse_append, List.reverse_reverse] at this
  · rintro rfl
    refine ⟨rest.reverse, ?_, List.reverse_reverse rest⟩
    rw [List.reverse_append, stripPrefix_append]

theorem stripped_eq_some {pre suffix segment text : List Char} :
    (stripPrefix pre segment).bind (stripSuffix suffix) = some text ↔
      segment = pre ++ (text ++ suffix) := by
  rw [Option.bind_eq_some_iff]
  constructor
  · rintro ⟨rest, hpre, hsuffix⟩
    rw [stripPrefix_eq_some.mp hpre, stripSuffix_eq_some.mp hsuffix]
  · rintro rfl
    exact ⟨text ++ suffix, stripPrefix_append _ _, stripSuffix_eq_some.mpr rfl⟩

/-- The formats whose path is the same in every release. -/
def fixedFormats : List SubscriptionFormat :=
  [.singBox, .singBoxFull, .clash, .uri, .base64Uri, .shadowrocket]

theorem fixed_names {format : SubscriptionFormat} (h : format ∈ fixedFormats) :
    parseFormatPath format.pathName.toList = some format ∧
      parseVersionedPath format.pathName.toList = none ∧
      (∀ text ∈ versionText format.pathName.toList, ∀ number ∈ splitChar '.' text,
        plainNumber number) ∧
      '/' ∉ format.pathName.toList ∧ '?' ∉ format.pathName.toList := by
  revert format
  decide

/-- The two segments of a route that are no format. -/
theorem reserved_segments : parseFormatPath "index".toList = none ∧
    parseFormatPath "qr".toList = none ∧ versionText "index".toList = none := by
  decide

theorem find?_or_eq_ite {α : Type} (p : α → Prop) [DecidablePred p] (a : α) (l : List α)
    (other : Option α) :
    ((a :: l).find? (p ·)).or other = if p a then some a else (l.find? (p ·)).or other := by
  rw [List.find?_cons]
  by_cases h : p a
  · rw [if_pos h, decide_eq_true h]
    rfl
  · rw [if_neg h, decide_eq_false h]

/-- One of the fixed names, or the name of a versioned format. -/
theorem parseFormatPath_eq (segment : List Char) :
    parseFormatPath segment =
      (fixedFormats.find? (segment = ·.pathName.toList)).or (parseVersionedPath segment) := by
  have hstep := find?_or_eq_ite fun format : SubscriptionFormat => segment = format.pathName.toList
  rw [fixedFormats, hstep, hstep, hstep, hstep, hstep, hstep, List.find?_nil, Option.none_or]
  rfl

theorem parseFormatPath_cases {segment : List Char} {format : SubscriptionFormat}
    (h : parseFormatPath segment = some format) :
    format ∈ fixedFormats ∧ segment = format.pathName.toList ∨
      parseVersionedPath segment = some format := by
  rw [parseFormatPath_eq, Option.or_eq_some_iff] at h
  rcases h with hfixed | ⟨-, hversioned⟩
  · exact .inl ⟨List.mem_of_find?_eq_some hfixed, of_decide_eq_true (List.find?_some hfixed :)⟩
  · exact .inr hversioned

theorem parseFormatPath_of_versioned {segment : List Char} {format : SubscriptionFormat}
    (h : parseVersionedPath segment = some format) : parseFormatPath segment = some format := by
  have hnone : fixedFormats.find? (segment = ·.pathName.toList) = none := by
    rw [List.find?_eq_none]
    intro other hmem heq
    rw [of_decide_eq_true heq, (fixed_names hmem).2.1] at h
    cases h
  rw [parseFormatPath_eq, hnone, Option.none_or, h]

/-! ## Versioned names -/

theorem parseVersionedPath_cases {segment : List Char} {format : SubscriptionFormat}
    (h : parseVersionedPath segment = some format) :
    ∃ text version, versionText segment = some text ∧ parseClientVersion text = some version ∧
      format.Registered ∧
      (segment = format.pathName.toList ↔ text = version.display.toList) := by
  unfold parseVersionedPath at h
  unfold versionText
  split at h
  · rename_i text hstripped
    rw [Option.bind_eq_bind, Option.bind_eq_some_iff] at h
    obtain ⟨version, hversion, h⟩ := h
    split at h
    · rename_i hany
      cases h
      refine ⟨text, version, by rw [hstripped]; rfl, hversion, ?_, ?_⟩
      · obtain ⟨profile, hmem, heq⟩ := List.any_eq_true.mp hany
        exact List.mem_map.mpr ⟨profile, hmem, of_decide_eq_true heq⟩
      · rw [stripped_eq_some.mp hstripped]
        simp [SubscriptionFormat.pathName]
    · cases h
  · rename_i hsingBox
    split at h
    · rename_i text hstripped
      rw [Option.bind_eq_bind, Option.bind_eq_some_iff] at h
      obtain ⟨version, hversion, h⟩ := h
      split at h
      · rename_i hlegacy
        cases h
        refine ⟨text, version, by rw [hsingBox, hstripped]; rfl, hversion, hlegacy, ?_⟩
        rw [stripped_eq_some.mp hstripped]
        simp [SubscriptionFormat.pathName]
      · cases h
    · cases h

theorem registered_numbers {version : ClientVersion}
    (h : version ∈ clashLegacyVersion :: allSingBoxVersionProfiles.map (·.version)) :
    ∀ n ∈ version.numbers, n ≤ 255 := by
  revert version
  decide

theorem parseVersionedPath_singBox {version : ClientVersion}
    (h : version ∈ allSingBoxVersionProfiles.map (·.version)) :
    parseVersionedPath (SubscriptionFormat.singBoxVersion version).pathName.toList =
      some (.singBoxVersion version) := by
  have hread := parseClientVersion_display (registered_numbers (List.mem_cons_of_mem _ h))
  have hstripped : (stripPrefix "sing-box-".toList
      (SubscriptionFormat.singBoxVersion version).pathName.toList).bind
        (stripSuffix ".json".toList) = some version.display.toList := by
    rw [stripped_eq_some]
    simp [SubscriptionFormat.pathName]
  rw [parseVersionedPath, hstripped]
  simpa [hread] using List.mem_map.mp h

theorem parseVersionedPath_clash :
    parseVersionedPath (SubscriptionFormat.clashLegacy clashLegacyVersion).pathName.toList =
      some (.clashLegacy clashLegacyVersion) := by
  decide

theorem parseFormatPath_pathName {format : SubscriptionFormat} (h : format.Registered) :
    parseFormatPath format.pathName.toList = some format := by
  cases format with
  | singBoxVersion version => exact parseFormatPath_of_versioned (parseVersionedPath_singBox h)
  | clashLegacy version =>
    cases (h : version = clashLegacyVersion)
    exact parseFormatPath_of_versioned parseVersionedPath_clash
  | _ => exact (fixed_names (by decide)).1

theorem registered_of_fixed {format : SubscriptionFormat} (h : format ∈ fixedFormats) :
    format.Registered := by
  cases format with
  | singBoxVersion version => simp [fixedFormats] at h
  | clashLegacy version => simp [fixedFormats] at h
  | _ => trivial

/-- The name of a format is the one spelling with plain numbers. -/
theorem pathName_iff {segment : List Char} {format : SubscriptionFormat}
    (h : parseFormatPath segment = some format) :
    segment = format.pathName.toList ↔
      ∀ text ∈ versionText segment, ∀ number ∈ splitChar '.' text, plainNumber number := by
  rcases parseFormatPath_cases h with ⟨hfixed, hsegment⟩ | hversioned
  · rw [hsegment]
    exact ⟨fun _ => (fixed_names hfixed).2.2.1, fun _ => rfl⟩
  · obtain ⟨text, version, htext, hversion, -, hname⟩ := parseVersionedPath_cases hversioned
    rw [hname, display_iff hversion, htext]
    simp

theorem registered_of_parse {segment : List Char} {format : SubscriptionFormat}
    (h : parseFormatPath segment = some format) : format.Registered := by
  rcases parseFormatPath_cases h with ⟨hfixed, -⟩ | hversioned
  · exact registered_of_fixed hfixed
  · obtain ⟨-, -, -, -, hregistered, -⟩ := parseVersionedPath_cases hversioned
    exact hregistered

/-! ## Paths -/

theorem mem_display {version : ClientVersion} {c : Char} (h : c ∈ version.display.toList) :
    c = '.' ∨ c.isDigit := by
  have hjoin (pieces : List (List Char)) (hc : c ∈ join '.' pieces) :
      c = '.' ∨ ∃ piece ∈ pieces, c ∈ piece := by
    induction pieces using join.induct with
    | case1 => simp [join] at hc
    | case2 piece => exact .inr ⟨piece, List.mem_cons_self, hc⟩
    | case3 piece pieces hne ih =>
      rw [join.eq_3 _ _ _ hne, List.mem_append, List.mem_cons] at hc
      rcases hc with hc | rfl | hc
      · exact .inr ⟨piece, List.mem_cons_self, hc⟩
      · exact .inl rfl
      · rcases ih hc with hdot | ⟨other, hmem, hc⟩
        · exact .inl hdot
        · exact .inr ⟨other, List.mem_cons_of_mem _ hmem, hc⟩
  rw [version.toList_display] at h
  rcases hjoin _ h with hdot | ⟨piece, hmem, hc⟩
  · exact .inl hdot
  · obtain ⟨n, -, rfl⟩ := List.mem_map.mp hmem
    exact .inr (isDigit_of_mem hc)

/-- A name is a single segment without a query. -/
theorem notMem_pathName {c : Char} (hc : c = '/' ∨ c = '?') (format : SubscriptionFormat) :
    c ∉ format.pathName.toList := by
  intro h
  have hfixed {other : SubscriptionFormat} (hmem : other ∈ fixedFormats) :
      c ∉ other.pathName.toList := by
    obtain ⟨-, -, -, hslash, hquery⟩ := fixed_names hmem
    rcases hc with rfl | rfl
    · exact hslash
    · exact hquery
  have hdigit : c.isDigit = false := by rcases hc with rfl | rfl <;> decide
  have hversion (version : ClientVersion) : c ∉ version.display.toList := by
    intro hmem
    rcases mem_display hmem with rfl | hmem
    · simp at hc
    · rw [hdigit] at hmem
      cases hmem
  cases format with
  | singBoxVersion version =>
    simp [SubscriptionFormat.pathName, hversion version] at h
    rcases hc with rfl | rfl <;> simp at h
  | clashLegacy version =>
    simp [SubscriptionFormat.pathName, hversion version] at h
    rcases hc with rfl | rfl <;> simp at h
  | _ => exact hfixed (by decide) h

/-- The segments after the credential. -/
def SubscriptionRoute.segments : SubscriptionRoute → List (List Char)
  | .format artifact => [artifact.pathName.toList]
  | .qr artifact => ["qr".toList, artifact.pathName.toList]
  | .index => ["index".toList]

theorem splitChar_suffix (route : SubscriptionRoute) :
    splitChar '/' route.suffix.toList = route.segments := by
  cases route with
  | format artifact => exact splitChar_of_notMem (notMem_pathName (.inl rfl) artifact)
  | qr artifact =>
    have hsuffix : (SubscriptionRoute.qr artifact).suffix.toList =
        "qr".toList ++ '/' :: artifact.pathName.toList := by
      simp [SubscriptionRoute.suffix]
    rw [hsuffix, splitChar_append (by decide),
      splitChar_of_notMem (notMem_pathName (.inl rfl) artifact)]
    rfl
  | index => rfl

theorem splitChar_sub (rest : List Char) :
    splitChar '/' ("/sub/".toList ++ rest) = [] :: "sub".toList :: splitChar '/' rest := by
  have hsub : "/sub/".toList ++ rest = [] ++ '/' :: ("sub".toList ++ '/' :: rest) := by simp
  rw [hsub, splitChar_append List.not_mem_nil, splitChar_append (by decide)]

theorem toList_routePath (credential : String) (route : SubscriptionRoute) :
    (routePath credential route).toList =
      "/sub/".toList ++ (credential.toList ++ '/' :: route.suffix.toList) := by
  simp [routePath]

theorem splitChar_routePath {credential : String} (h : '/' ∉ credential.toList)
    (route : SubscriptionRoute) :
    splitChar '/' (routePath credential route).toList =
      [] :: "sub".toList :: credential.toList :: route.segments := by
  rw [toList_routePath, splitChar_sub, splitChar_append h, splitChar_suffix]

theorem notMem_suffix (route : SubscriptionRoute) : '?' ∉ route.suffix.toList := by
  cases route with
  | format artifact => exact notMem_pathName (.inr rfl) artifact
  | qr artifact => simp [SubscriptionRoute.suffix, notMem_pathName (.inr rfl) artifact]
  | index => simp [SubscriptionRoute.suffix]

theorem pathName_ne_of_parse_none {format : SubscriptionFormat} (h : format.Registered)
    {segment : List Char} (hnone : parseFormatPath segment = none) :
    format.pathName.toList ≠ segment := by
  rintro rfl
  rw [parseFormatPath_pathName h] at hnone
  cases hnone

/-- A printed path reads back. -/
theorem parseRoute_routePath {credential : String} {route : SubscriptionRoute}
    (hslash : '/' ∉ credential.toList) (hquery : '?' ∉ credential.toList)
    (hroute : route.Registered) :
    parseRoute (routePath credential route) = some (credential, route) := by
  have hnoquery : '?' ∉ (routePath credential route).toList := by
    rw [toList_routePath]
    simp [hquery, notMem_suffix]
  unfold parseRoute
  rw [if_neg hnoquery, toList_routePath, stripPrefix_append]
  simp only [Option.bind_eq_bind, Option.bind_some, splitChar_append hslash, splitChar_suffix]
  cases route with
  | format artifact =>
    have hread := parseFormatPath_pathName (hroute : artifact.Registered)
    have hindex := pathName_ne_of_parse_none (hroute : artifact.Registered) reserved_segments.1
    have hqr := pathName_ne_of_parse_none (hroute : artifact.Registered) reserved_segments.2.1
    simp only [SubscriptionRoute.segments]
    rw [if_neg hindex, if_neg hqr, hread]
    simp
  | qr artifact =>
    have hread := parseFormatPath_pathName (hroute : artifact.Registered)
    simp only [SubscriptionRoute.segments]
    rw [if_neg (by simp), if_pos trivial, hread]
    simp
  | index => simp [SubscriptionRoute.segments]

/-- What is read is a credential without a slash, and the segments of a route. -/
theorem parseRoute_cases {path credential : String} {route : SubscriptionRoute}
    (h : parseRoute path = some (credential, route)) :
    '/' ∉ credential.toList ∧ ∃ segments,
      splitChar '/' path.toList = [] :: "sub".toList :: credential.toList :: segments ∧
        (route = .index ∧ segments = ["index".toList] ∨
          ∃ segment format, parseFormatPath segment = some format ∧
            (route = .format format ∧ segments = [segment] ∨
              route = .qr format ∧ segments = ["qr".toList, segment])) := by
  unfold parseRoute at h
  split at h
  · cases h
  rw [Option.bind_eq_bind, Option.bind_eq_some_iff] at h
  obtain ⟨rest, hrest, h⟩ := h
  have hpath := stripPrefix_eq_some.mp hrest
  split at h
  · rename_i text segment parts hsplit
    have hslash : '/' ∉ text := notMem_splitChar (hsplit ▸ List.mem_cons_self)
    have hsegments : splitChar '/' path.toList = [] :: "sub".toList :: text :: segment :: parts := by
      rw [hpath, splitChar_sub, hsplit]
    split at h
    · rename_i hindex
      split at h
      · rename_i hparts
        cases h
        rw [String.toList_ofList]
        exact ⟨hslash, [segment], by rw [hsegments, hparts], .inl ⟨rfl, by rw [hindex]⟩⟩
      · cases h
    · split at h
      · rename_i hqr
        split at h
        · cases h
        · rename_i last parts
          rw [Option.bind_eq_bind, Option.bind_eq_some_iff] at h
          obtain ⟨format, hformat, h⟩ := h
          split at h
          · rename_i hparts
            cases h
            rw [String.toList_ofList]
            exact ⟨hslash, [segment, last], by rw [hsegments, hparts],
              .inr ⟨last, format, hformat, .inr ⟨rfl, by rw [hqr]⟩⟩⟩
          · cases h
      · rw [Option.bind_eq_bind, Option.bind_eq_some_iff] at h
        obtain ⟨format, hformat, h⟩ := h
        split at h
        · rename_i hparts
          cases h
          rw [String.toList_ofList]
          exact ⟨hslash, [segment], by rw [hsegments, hparts],
            .inr ⟨segment, format, hformat, .inl ⟨rfl, rfl⟩⟩⟩
        · cases h
  · cases h

theorem routePath_iff_segments {path credential : String} {segments : List (List Char)}
    (hslash : '/' ∉ credential.toList)
    (hsplit : splitChar '/' path.toList = [] :: "sub".toList :: credential.toList :: segments)
    (route : SubscriptionRoute) :
    path = routePath credential route ↔ segments = route.segments := by
  have hprinted := splitChar_routePath hslash route
  constructor
  · intro heq
    rw [← heq, hsplit] at hprinted
    simpa using hprinted
  · intro heq
    apply String.toList_inj.mp
    refine @splitChar_injective '/' _ _ ?_
    rw [hsplit, hprinted, heq]

/-- A path that is read is the printed one exactly if its version is plain. -/
theorem routePath_iff {path credential : String} {route : SubscriptionRoute}
    (h : parseRoute path = some (credential, route)) :
    path = routePath credential route ↔ PlainVersion path := by
  obtain ⟨hslash, segments, hsplit, hcases⟩ := parseRoute_cases h
  rw [routePath_iff_segments hslash hsplit, PlainVersion, hsplit]
  rcases hcases with ⟨rfl, rfl⟩ | ⟨segment, format, hformat, ⟨rfl, rfl⟩ | ⟨rfl, rfl⟩⟩
  · have hindex : ∀ text ∈ versionText "index".toList, ∀ number ∈ splitChar '.' text,
        plainNumber number := by
      intro text htext
      rw [reserved_segments.2.2] at htext
      cases htext
    simpa [SubscriptionRoute.segments] using hindex
  · simpa [SubscriptionRoute.segments] using pathName_iff hformat
  · simpa [SubscriptionRoute.segments] using pathName_iff hformat

namespace SubscriptionHost

variable (s : SubscriptionHost)

theorem routeUrlWithCredential_ok {credential url : String} {route : SubscriptionRoute}
    (h : s.routeUrlWithCredential credential route = .ok url) :
    url = s.urlPrefix ++ routePath credential route := by
  have hurl : s.urlPrefix ++ "/sub/" ++ credential ++ "/" ++ route.suffix =
      s.urlPrefix ++ routePath credential route := by
    simp [routePath, String.append_assoc]
  unfold routeUrlWithCredential at h
  cases hnodes : s.ensureSubscriptionNodes with
  | error message =>
    rw [hnodes] at h
    cases h
  | ok _ =>
    rw [hnodes] at h
    rw [← hurl]
    cases route with
    | format artifact | qr artifact =>
      by_cases hcompatible : artifact.hasCompatibleNodes s.config
      · simp only [hcompatible] at h
        cases h
        rfl
      · simp only [hcompatible] at h
        cases h
    | index =>
      cases h
      rfl

end SubscriptionHost

/-- Printed paths read back. What is read names a route of the registry, and is
its printed path exactly if the version is spelled plainly. -/
theorem routes_round_trip (s : SubscriptionHost) (path credential : String)
    (route : SubscriptionRoute) :
    (∀ url, s.routeUrlWithCredential credential route = .ok url →
      url = s.urlPrefix ++ routePath credential route) ∧
    ('/' ∉ credential.toList → '?' ∉ credential.toList → route.Registered →
      parseRoute (routePath credential route) = some (credential, route)) ∧
    (parseRoute path = some (credential, route) →
      route.Registered ∧ (path = routePath credential route ↔ PlainVersion path)) := by
  refine ⟨fun url h => s.routeUrlWithCredential_ok h,
    fun hslash hquery hroute => parseRoute_routePath hslash hquery hroute,
    fun h => ⟨?_, routePath_iff h⟩⟩
  obtain ⟨-, segments, -, ⟨rfl, -⟩ | ⟨segment, format, hformat, ⟨rfl, -⟩ | ⟨rfl, -⟩⟩⟩ :=
    parseRoute_cases h
  · trivial
  · exact registered_of_parse hformat
  · exact registered_of_parse hformat

theorem routes_round_trip_sample :
    parseRoute (routePath "cred" (.qr (.singBoxVersion ⟨1, 14, some 4⟩))) =
        some ("cred", .qr (.singBoxVersion ⟨1, 14, some 4⟩)) ∧
      parseRoute "/sub/cred/clash-1.+18.yaml" =
        some ("cred", .format (.clashLegacy clashLegacyVersion)) ∧
      "/sub/cred/clash-1.+18.yaml" ≠
        routePath "cred" (.format (.clashLegacy clashLegacyVersion)) := by
  have hread : parseRoute "/sub/cred/clash-1.+18.yaml" =
      some ("cred", .format (.clashLegacy clashLegacyVersion)) := by decide +kernel
  have hspelled : ¬ PlainVersion "/sub/cred/clash-1.+18.yaml" := by
    intro hplain
    have hnumber := hplain "clash-1.+18.yaml".toList (by decide) "1.+18".toList (by decide)
      "+18".toList (by decide)
    exact absurd hnumber (by decide)
  refine ⟨(routes_round_trip sampleHost "" "cred" _).2.1 (by decide) (by decide)
    (List.mem_map.mpr ⟨⟨⟨1, 14, some 4⟩, true⟩, List.mem_of_getElem? (i := 5) rfl, rfl⟩), hread, ?_⟩
  intro hprinted
  exact hspelled (((routes_round_trip sampleHost _ "cred" _).2.2 hread).2.mp hprinted)

/-- Leading zeros and plus signs are read. -/
theorem padded_version_served :
    parseRoute "/sub/cred/sing-box-01.10.json" =
        some ("cred", .format (.singBoxVersion ⟨1, 10, none⟩)) ∧
      parseRoute "/sub/cred/sing-box-+1.10.json" =
        some ("cred", .format (.singBoxVersion ⟨1, 10, none⟩)) ∧
      routePath "cred" (.format (.singBoxVersion ⟨1, 10, none⟩)) =
        "/sub/cred/sing-box-1.10.json" ∧
      "/sub/cred/sing-box-01.10.json" ≠ "/sub/cred/sing-box-1.10.json" := by
  decide +kernel

end Sbctl
