import Sbctl.Release
import Sbctl.Validate

/-!
# Signing releases

A release is signed with a seed that lies in a file as hexadecimal digits. Builds
trust the public key that was printed for it, which is configured as such digits.

* `signing_chain`: a file that was signed is accepted by the builds that trust the
  key of its seed;
* `canonical_text`: what the text that is signed says of a value;
* `manifest_accepted_iff`: which files are accepted.
-/

namespace Sbctl

open Text

/-! ## Keys as digits -/

theorem hexValue_digitChar {n : Nat} (h : n < 16) : hexValue (Nat.digitChar n) = some n := by
  have hall : ∀ n : Fin 16, hexValue (Nat.digitChar n) = some n.val := by decide
  exact hall ⟨n, h⟩

theorem hexBytes_hexDigits (key : List UInt8) : hexBytes (key.flatMap hexDigits) = some key := by
  induction key with
  | nil => rfl
  | cons byte rest ih =>
    have hbyte := byte.toNat_lt
    have hhigh := hexValue_digitChar (n := byte.toNat / 16) (by omega)
    have hlow := hexValue_digitChar (n := byte.toNat % 16) (by omega)
    have hsum : 16 * (byte.toNat / 16) + byte.toNat % 16 = byte.toNat := by omega
    rw [List.flatMap_cons, hexDigits, List.cons_append, List.cons_append, List.nil_append, hexBytes,
      hhigh, hlow, ih]
    simp only [Option.bind_eq_bind, Option.bind_some, Option.pure_def, hsum, UInt8.ofNat_toNat]

theorem keyFromSlice_toList (key : Key) : keyFromSlice key.toList = some key := by
  have hlength : key.toList.length = 32 := Vector.length_toList
  rw [keyFromSlice, dif_pos hlength]
  rfl

theorem isHex_of_mem {key : List UInt8} {c : Char} (h : c ∈ key.flatMap hexDigits) :
    ∃ n < 16, c = Nat.digitChar n := by
  obtain ⟨byte, -, hc⟩ := List.mem_flatMap.mp h
  have hbyte := byte.toNat_lt
  simp only [hexDigits, List.mem_cons, List.not_mem_nil, or_false] at hc
  rcases hc with rfl | rfl
  · exact ⟨byte.toNat / 16, by omega, rfl⟩
  · exact ⟨byte.toNat % 16, by omega, rfl⟩

/-- No digit is white space, a comment sign or the letter of a prefix. -/
theorem digit_facts {key : List UInt8} {c : Char} (h : c ∈ key.flatMap hexDigits) :
    isWhitespace c = false ∧ c ≠ '#' ∧ c ≠ 'x' ∧ c ≠ '\n' := by
  obtain ⟨n, hn, rfl⟩ := isHex_of_mem h
  have hall : ∀ n : Fin 16, isWhitespace (Nat.digitChar n) = false ∧ Nat.digitChar n ≠ '#' ∧
      Nat.digitChar n ≠ 'x' ∧ Nat.digitChar n ≠ '\n' := by decide
  exact hall ⟨n, hn⟩

theorem toList_formatHex (key : Key) : (formatHex key).toList = key.toList.flatMap hexDigits := by
  rw [formatHex, String.toList_ofList]

theorem hexBytes_formatHex (key : Key) :
    (hexBytes (key.toList.flatMap hexDigits)).bind keyFromSlice = some key := by
  rw [hexBytes_hexDigits, Option.bind_some, keyFromSlice_toList]

theorem hexDigits_ne_nil (key : Key) : key.toList.flatMap hexDigits ≠ [] := by
  intro hnil
  have hread := hexBytes_formatHex key
  rw [hnil] at hread
  cases hread

def IsComment (line : List Char) : Prop :=
  '\n' ∉ line ∧ (trim line = [] ∨ (trim line).head? = some '#')

/-- A key is read from its digits, marked or not, after comments and before other lines. -/
theorem parseSeedHex_formatHex {comments : List (List Char)} (h : ∀ line ∈ comments, IsComment line)
    (marked : Bool) (key : Key) {rest : List Char} (hrest : rest = [] ∨ rest.head? = some '\n') :
    parseSeedHex (String.ofList (comments.flatMap (· ++ ['\n']) ++
      ((if marked then ['0', 'x'] else []) ++ (formatHex key).toList ++ rest))) = .ok key := by
  generalize hdigits : key.toList.flatMap hexDigits = digits
  have hfacts : ∀ c ∈ digits, isWhitespace c = false ∧ c ≠ '#' ∧ c ≠ 'x' ∧ c ≠ '\n' := by
    intro c hc
    rw [← hdigits] at hc
    exact digit_facts hc
  have hread : (hexBytes digits).bind keyFromSlice = some key := hdigits ▸ hexBytes_formatHex key
  have hne : digits ≠ [] := hdigits ▸ hexDigits_ne_nil key
  have hformat : (formatHex key).toList = digits := hdigits ▸ toList_formatHex key
  have hmark : ∀ c ∈ (if marked then ['0', 'x'] else []),
      isWhitespace c = false ∧ c ≠ '#' ∧ c ≠ '\n' := by
    cases marked with
    | false => nofun
    | true =>
      rw [if_pos rfl, List.forall_mem_cons, List.forall_mem_singleton]
      decide
  generalize hline : (if marked then ['0', 'x'] else []) ++ digits = line at *
  have hclean : ∀ c ∈ line, isWhitespace c = false ∧ c ≠ '#' ∧ c ≠ '\n' := by
    intro c hc
    rw [← hline] at hc
    rcases List.mem_append.mp hc with hc | hc
    · exact hmark c hc
    · obtain ⟨hwhite, hcomment, -, hfeed⟩ := hfacts c hc
      exact ⟨hwhite, hcomment, hfeed⟩
  have hlineNe : line ≠ [] := by
    rw [← hline]
    exact fun hnil => hne (List.append_eq_nil_iff.mp hnil).2
  have htrimmed : Trimmed line := trimmed_of_clear fun c hc => (hclean c hc).1
  have hlines : ∃ more, trimmed (line ++ rest) = line :: more := by
    rcases hrest with rfl | hrest
    · refine ⟨[], ?_⟩
      have hlast : line.getLast? ≠ some '\n' :=
        fun hc => (hclean _ (List.mem_of_mem_getLast? hc)).2.2 rfl
      have hfeed : '\n' ∉ line := fun hc => (hclean _ hc).2.2 rfl
      rw [List.append_nil, ← trimmed_terminate hlineNe hlast, trimmed_line hfeed,
        trim_eq_self htrimmed]
      rfl
    · obtain ⟨more, rfl⟩ := List.head?_eq_some_iff.mp hrest
      have hfeed : '\n' ∉ line := fun hc => (hclean _ hc).2.2 rfl
      exact ⟨trimmed more, by rw [trimmed_line hfeed, trim_eq_self htrimmed]⟩
  obtain ⟨more, hlines⟩ := hlines
  have hfound : ((lines (comments.flatMap (· ++ ['\n']) ++ (line ++ rest))).map trim).find?
      (fun line => line ≠ [] ∧ line.head? ≠ some '#') = some line := by
    have hskipped : (comments.map trim).find?
        (fun line => decide (line ≠ [] ∧ line.head? ≠ some '#')) = none := by
      rw [List.find?_eq_none]
      intro skipped hskipped
      obtain ⟨comment, hcomment, rfl⟩ := List.mem_map.mp hskipped
      rw [decide_eq_true_eq, not_and_or, not_not, not_not]
      exact (h comment hcomment).2
    have hkey : line ≠ [] ∧ line.head? ≠ some '#' :=
      ⟨hlineNe, fun hc => (hclean _ (List.mem_of_mem_head? hc)).2.1 rfl⟩
    rw [map_trim_lines, trimmed_flatMap_append fun item hitem => (h item hitem).1, hlines,
      List.find?_append, hskipped, Option.none_or, List.find?_cons, decide_eq_true hkey]
  have hstripped : (stripPrefix ['0', 'x'] line).getD line = digits := by
    rw [← hline]
    cases marked with
    | true =>
      rw [if_pos rfl, stripPrefix_append]
      rfl
    | false =>
      rw [if_neg Bool.false_ne_true, List.nil_append]
      cases hstrip : stripPrefix ['0', 'x'] digits with
      | none => rfl
      | some rest =>
        have hx : 'x' ∈ digits := by rw [stripPrefix_eq_some.mp hstrip]; simp
        exact absurd rfl (hfacts _ hx).2.2.1
  rw [parseSeedHex, String.toList_ofList, hformat, hline, hfound]
  dsimp only
  rw [hstripped, hread]

/-! ## The chain of trust -/

section
variable {ed : Ed25519} {order : MapOrder}

theorem signManifestFile_ok {contents seedText : String} {out : List UInt8} :
    signManifestFile ed order contents seedText = .ok out ↔
      ∃ seed manifest, parseSeedHex seedText = .ok seed ∧
        ReleaseManifest.ofSlice (bytes contents) = .ok manifest ∧
        validateManifestFields manifest = .ok () ∧
        out = manifestJsonWithSignature order (manifest.signed ed order seed) := by
  constructor
  · intro h
    obtain ⟨seed, hseed, h⟩ := bind_ok.mp h
    obtain ⟨manifest, hmanifest, h⟩ := bind_ok.mp h
    obtain ⟨_, hvalid, h⟩ := bind_ok.mp h
    cases h
    exact ⟨seed, manifest, hseed, hmanifest, hvalid, rfl⟩
  · rintro ⟨seed, manifest, hseed, hmanifest, hvalid, rfl⟩
    simp only [signManifestFile, hseed, hmanifest, hvalid, bind, Except.bind]
    rfl

/-- A signature does not depend on the one that was there before. -/
theorem signed_signed (seed : Key) (manifest : ReleaseManifest) :
    (manifest.signed ed order seed).signed ed order seed = manifest.signed ed order seed := by
  have hbytes : canonicalBytes order (manifest.signed ed order seed) =
      canonicalBytes order manifest := canonicalBytes_inj.mpr rfl
  rw [ReleaseManifest.signed, signManifest, hbytes]
  rfl

theorem manifestJson_text (order : MapOrder) (manifest : ReleaseManifest) :
    ∃ text, manifestJsonWithSignature order manifest = bytes text := ⟨_, rfl⟩

theorem parseSeedHex_key (key : Key) : parseSeedHex (formatHex key) = .ok key := by
  have h := parseSeedHex_formatHex (List.forall_mem_nil IsComment) false key (.inl rfl)
  rwa [List.flatMap_nil, if_neg Bool.false_ne_true, List.nil_append, List.nil_append,
    List.append_nil, String.ofList_toList] at h

/-- A key that is configured as it was printed is the one that is trusted. -/
theorem productionPublicKey_formatHex {key : Key} (haccepted : ed.acceptsKey key = true)
    (hdev : key ≠ developmentPublicKey) :
    productionPublicKey ed (some (formatHex key)) = .ok key := by
  have htrim : trim (formatHex key).toList = (formatHex key).toList := by
    apply trim_eq_self
    rw [toList_formatHex]
    exact trimmed_of_clear fun c hc => (digit_facts hc).1
  have hblank : trim (formatHex key).toList ≠ [] := by
    rw [htrim, toList_formatHex]
    exact hexDigits_ne_nil key
  rw [productionPublicKey, Option.filter_some, if_pos (decide_eq_true hblank)]
  dsimp only
  rw [parseSeedHex_key]
  dsimp only
  rw [if_neg (not_or.mpr ⟨hdev, not_not.mpr haccepted⟩)]

/-- The development key is never trusted, however it is spelled. -/
theorem productionPublicKey_ne {configured : Option String} {key : Key}
    (h : productionPublicKey ed configured = .ok key) :
    key ≠ developmentPublicKey ∧ ed.acceptsKey key = true := by
  unfold productionPublicKey at h
  split at h
  · cases h
  · split at h
    · cases h
    · split at h
      · cases h
      · rename_i hkey
        cases h
        obtain ⟨hdev, haccepts⟩ := not_or.mp hkey
        exact ⟨hdev, not_not.mp haccepts⟩

/-- What is signed, and what becomes of it. -/
structure SigningChain (ed : Ed25519) (order : MapOrder) : Prop where
  /-- Only a manifest with valid fields is signed, and every one of them is. -/
  signs : ∀ (contents seedText : String) (out : List UInt8),
    signManifestFile ed order contents seedText = .ok out ↔
      ∃ seed manifest, parseSeedHex seedText = .ok seed ∧
        ReleaseManifest.ofSlice (bytes contents) = .ok manifest ∧
        validateManifestFields manifest = .ok () ∧
        out = manifestJsonWithSignature order (manifest.signed ed order seed)
  /-- A seed is read as it was written, below any comments, marked or not. -/
  seeds : ∀ (comments : List (List Char)), (∀ line ∈ comments, IsComment line) →
    ∀ (marked : Bool) (seed : Key) (rest : List Char), rest = [] ∨ rest.head? = some '\n' →
      parseSeedHex (String.ofList (comments.flatMap (· ++ ['\n']) ++
        ((if marked then ['0', 'x'] else []) ++ (formatHex seed).toList ++ rest))) = .ok seed
  /-- Builds that trust the printed public key accept the signed file. Signed once
  more it is the same file. -/
  accepted : ∀ (contents seedText : String) (out : List UInt8),
    signManifestFile ed order contents seedText = .ok out →
      ∃ seed manifest, parseSeedHex seedText = .ok seed ∧
        ReleaseManifest.ofSlice (bytes contents) = .ok manifest ∧
        (ed.publicKey seed ≠ developmentPublicKey → ∀ reading : MapOrder,
          verifyManifest ed reading
              (productionPublicKey ed (some (formatHex (ed.publicKey seed)))) out =
            .ok (manifest.signed ed order seed)) ∧
        ∃ text, out = bytes text ∧ signManifestFile ed order text seedText = .ok out
  /-- No configured text makes a build trust the development key. -/
  development : ∀ (configured : Option String) (key : Key),
    productionPublicKey ed configured = .ok key → key ≠ developmentPublicKey

/-- What was signed from a file with a stored seed is accepted by every build that
trusts the key printed for it. -/
theorem signing_chain (hed : ed.Correct) (order : MapOrder) : SigningChain ed order := by
  constructor
  · intro contents seedText out
    exact signManifestFile_ok
  · intro comments hcomments marked seed rest hrest
    exact parseSeedHex_formatHex hcomments marked seed hrest
  · intro contents seedText out h
    obtain ⟨seed, manifest, hseed, hmanifest, hvalid, rfl⟩ := signManifestFile_ok.mp h
    refine ⟨seed, manifest, hseed, hmanifest, ?_, ?_⟩
    · intro hdev reading
      rw [productionPublicKey_formatHex (hed.accepts seed) hdev]
      exact verifyManifest_published hed order order reading hvalid seed
    · obtain ⟨text, htext⟩ := manifestJson_text order (manifest.signed ed order seed)
      refine ⟨text, htext, signManifestFile_ok.mpr ⟨seed, manifest.signed ed order seed, hseed, ?_,
        hvalid, ?_⟩⟩
      · rw [← htext, ofSlice_published]
      · rw [signed_signed]
  · intro configured key h
    exact (productionPublicKey_ne h).1

/-- A seed other than the development one, and the file it lies in. -/
def sampleSeed : Key := Vector.replicate 32 0x07

def sampleSeedFile : String :=
  "# release seed\n\n  0x0707070707070707070707070707070707070707070707070707070707070707\n"

/-- The sample manifest is signed with the seed of that file, and a build that trusts
the key printed for the seed accepts what comes out. -/
theorem signing_chain_sample : sampleEd25519.Correct ∧ ∃ text out,
    manifestJsonWithSignature .insertion sampleManifest = bytes text ∧
      signManifestFile sampleEd25519 .insertion text sampleSeedFile = .ok out ∧
      verifyManifest sampleEd25519 .sorted
          (productionPublicKey sampleEd25519 (some (formatHex (sampleEd25519.publicKey sampleSeed))))
          out =
        .ok (sampleManifest.signed sampleEd25519 .insertion sampleSeed) := by
  have hchain := signing_chain sampleEd25519_correct .insertion
  have hseed : parseSeedHex sampleSeedFile = .ok sampleSeed := by decide +kernel
  obtain ⟨text, htext⟩ := manifestJson_text .insertion sampleManifest
  have hread : ReleaseManifest.ofSlice (bytes text) = .ok sampleManifest := by
    rw [← htext, ofSlice_published]
  have hsigned := (hchain.signs text sampleSeedFile _).mpr
    ⟨sampleSeed, sampleManifest, hseed, hread, sampleManifest_valid, rfl⟩
  refine ⟨sampleEd25519_correct, text, _, htext, hsigned, ?_⟩
  obtain ⟨seed, manifest, hseed', hread', haccepted, -⟩ := hchain.accepted _ _ _ hsigned
  cases hseed.symm.trans hseed'
  cases hread.symm.trans hread'
  exact haccepted (by decide) .sorted

end

/-! ## The text that is signed -/

/-- Values have one canonical text exactly where they differ in the order of keys
alone, and that text is one of them. -/
theorem canonical_text {v w : Json} (hv : v.WellFormed) (hw : w.WellFormed) (pv : v.Printable)
    (pw : w.Printable) :
    (writeCanonicalJson v = writeCanonicalJson w ↔ Json.Reorders v w) ∧
      ∃ u, Json.parse (writeCanonicalJson v) = some u ∧ Json.Reorders v u := by
  constructor
  · rw [writeCanonicalJson_eq, writeCanonicalJson_eq, ← Json.canonical_eq_iff hv]
    constructor
    · intro h
      exact ⟨hw, Json.print_canonical_inj pv pw h⟩
    · intro h
      rw [h.2]
  · refine ⟨v.canonical, ?_, Json.reorders_canonical v⟩
    rw [writeCanonicalJson_eq, Json.parse_print pv.canonical]

/-- A range, with its keys in either order. -/
theorem canonical_text_sample :
    writeCanonicalJson (.obj [("min", .str "1.12.0"), ("max", .null)]) =
        writeCanonicalJson (.obj [("max", .null), ("min", .str "1.12.0")]) ∧
      ∃ u, Json.parse (writeCanonicalJson (.obj [("min", .str "1.12.0"), ("max", .null)])) =
          some u ∧
        Json.Reorders (.obj [("min", .str "1.12.0"), ("max", .null)]) u := by
  obtain ⟨htext, hparse⟩ := canonical_text (v := .obj [("min", .str "1.12.0"), ("max", .null)])
    (w := .obj [("max", .null), ("min", .str "1.12.0")])
    (.obj (by decide) (by simp [Json.WellFormed.str, Json.WellFormed.null]))
    (.obj (by decide) (by simp [Json.WellFormed.str, Json.WellFormed.null]))
    (.obj (by simp [Json.Printable.str, Json.Printable.null]))
    (.obj (by simp [Json.Printable.str, Json.Printable.null]))
  exact ⟨htext.mpr (.entries (List.Perm.swap _ _ _)), hparse⟩

/-! ## The manifests that are signed -/

/-- A number as a run of digits, within 64 bits. -/
def SpellsNumber (piece : List Char) (n : Nat) : Prop :=
  piece ≠ [] ∧ (∀ c ∈ piece, c.isDigit = true) ∧ digitsFrom 0 piece = some n ∧ n ≤ Machine.maxU64

/-- One to three numbers with dots between them, after an optional `v`. Those missing
are zero. -/
def SpellsVersion (text : String) (version : List Nat) : Prop :=
  ∃ pre ∈ [[], ['v']], ∃ pieces values, text.toList = pre ++ join '.' pieces ∧ pieces ≠ [] ∧
    pieces.length ≤ 3 ∧ List.Forall₂ SpellsNumber pieces values ∧
    version = values ++ List.replicate (3 - values.length) 0

theorem parseUnsigned_digits {piece : List Char} (hne : piece ≠ [])
    (hdigits : ∀ c ∈ piece, c.isDigit = true) (n : Nat) :
    parseUnsigned Machine.maxU64 piece = some n ↔ SpellsNumber piece n := by
  obtain ⟨c, cs, rfl⟩ := List.exists_cons_of_ne_nil hne
  have hread : parseUnsigned Machine.maxU64 (c :: cs) =
      (digitsFrom 0 (c :: cs)).filter (· ≤ Machine.maxU64) := by
    unfold parseUnsigned
    split
    · rename_i rest heq
      have hdigit := hdigits c List.mem_cons_self
      rw [(List.cons.inj heq).1] at hdigit
      exact absurd hdigit (by decide)
    · rfl
  rw [hread, Option.filter_eq_some_iff, decide_eq_true_eq]
  constructor
  · rintro ⟨hvalue, hbound⟩
    exact ⟨hne, hdigits, hvalue, hbound⟩
  · rintro ⟨-, -, hvalue, hbound⟩
    exact ⟨hvalue, hbound⟩

theorem versionParts_ok {error : ReleaseError} {n : Nat} {pieces : List (List Char)}
    {version : List Nat} :
    versionParts error n pieces = .ok version ↔ pieces.length ≤ n ∧ ∃ values,
      List.Forall₂ SpellsNumber pieces values ∧
        version = values ++ List.replicate (n - values.length) 0 := by
  induction pieces generalizing n version with
  | nil =>
    have hnone : versionParts error n [] = .ok (List.replicate n 0) := by cases n <;> rfl
    rw [hnone, Except.ok.injEq]
    constructor
    · rintro rfl
      exact ⟨Nat.zero_le _, [], .nil, rfl⟩
    · rintro ⟨-, values, hvalues, rfl⟩
      rw [List.forall₂_nil_left_iff.mp hvalues]
      rfl
  | cons piece pieces ih =>
    cases n with
    | zero => exact iff_of_false (by simp [versionParts]) (by simp)
    | succ n =>
      rw [versionParts]
      split
      · rename_i hbad
        refine iff_of_false (by simp) ?_
        rintro ⟨-, values, hvalues, -⟩
        obtain ⟨value, rest, hvalue, -, rfl⟩ := List.forall₂_cons_left_iff.mp hvalues
        rcases hbad with hnil | hdigit
        · exact hvalue.1 hnil
        · exact hdigit (List.all_eq_true.mpr hvalue.2.1)
      · rename_i hgood
        obtain ⟨hne, hdigits⟩ := not_or.mp hgood
        have hspells := parseUnsigned_digits hne (List.all_eq_true.mp (not_not.mp hdigits))
        cases hparse : parseUnsigned Machine.maxU64 piece with
        | none =>
          refine iff_of_false (by simp) ?_
          rintro ⟨-, values, hvalues, -⟩
          obtain ⟨value, rest, hvalue, -, rfl⟩ := List.forall₂_cons_left_iff.mp hvalues
          rw [(hspells value).mpr hvalue] at hparse
          cases hparse
        | some value =>
          dsimp only
          rw [bind_ok]
          constructor
          · rintro ⟨rest, hrest, hversion⟩
            obtain ⟨hlength, values, hvalues, rfl⟩ := ih.mp hrest
            cases hversion
            refine ⟨Nat.succ_le_succ hlength, value :: values,
              .cons ((hspells value).mp hparse) hvalues, ?_⟩
            rw [List.length_cons, Nat.add_sub_add_right]
            rfl
          · rintro ⟨hlength, values, hvalues, rfl⟩
            obtain ⟨value', rest, hvalue, hrest, rfl⟩ := List.forall₂_cons_left_iff.mp hvalues
            have hsame := (hspells value').mpr hvalue
            rw [hparse] at hsame
            cases hsame
            refine ⟨_, ih.mpr ⟨Nat.le_of_succ_le_succ hlength, rest, hrest, rfl⟩, ?_⟩
            rw [List.length_cons, Nat.add_sub_add_right]
            rfl

theorem notMem_spelled {pieces : List (List Char)} {values : List Nat}
    (h : List.Forall₂ SpellsNumber pieces values) {c : Char} (hc : c.isDigit = false) :
    ∀ piece ∈ pieces, c ∉ piece := by
  intro piece hpiece hmem
  induction h with
  | nil => cases hpiece
  | cons hvalue _ ih =>
    rcases List.mem_cons.mp hpiece with rfl | hpiece
    · rw [hvalue.2.1 c hmem] at hc
      cases hc
    · exact ih hpiece

/-- The versions that are read are those that are spelled. -/
theorem parseVersion_ok {value name : String} {version : List Nat} :
    parseVersion value name = .ok version ↔ SpellsVersion value version := by
  unfold parseVersion
  rw [versionParts_ok]
  constructor
  · rintro ⟨hlength, values, hvalues, rfl⟩
    have hne := splitChar_ne_nil '.' ((stripPrefix ['v'] value.toList).getD value.toList)
    have hjoin := join_splitChar '.' ((stripPrefix ['v'] value.toList).getD value.toList)
    cases hstrip : stripPrefix ['v'] value.toList with
    | none =>
      simp only [hstrip, Option.getD_none] at hlength hvalues hne hjoin
      exact ⟨[], by simp, _, values, hjoin.symm, hne, hlength, hvalues, rfl⟩
    | some rest =>
      simp only [hstrip, Option.getD_some] at hlength hvalues hne hjoin
      refine ⟨['v'], by simp, _, values, ?_, hne, hlength, hvalues, rfl⟩
      rw [hjoin]
      exact stripPrefix_eq_some.mp hstrip
  · rintro ⟨pre, hpre, pieces, values, htext, hne, hlength, hvalues, rfl⟩
    have hsplit : splitChar '.' ((stripPrefix ['v'] value.toList).getD value.toList) = pieces := by
      have hstripped : (stripPrefix ['v'] value.toList).getD value.toList = join '.' pieces := by
        rw [htext]
        simp only [List.mem_cons, List.not_mem_nil, or_false] at hpre
        rcases hpre with rfl | rfl
        · cases hstrip : stripPrefix ['v'] ([] ++ join '.' pieces) with
          | none => rfl
          | some rest =>
            have hv : 'v' ∈ join '.' pieces := by
              rw [← List.nil_append (join '.' pieces), stripPrefix_eq_some.mp hstrip]
              exact List.mem_append_left _ List.mem_cons_self
            rcases mem_join hv with hdot | ⟨piece, hpiece, hv⟩
            · exact absurd hdot (by decide)
            · exact absurd hv (notMem_spelled hvalues (by decide) piece hpiece)
        · rw [stripPrefix_append, Option.getD_some]
      rw [hstripped, splitChar_join hne (notMem_spelled hvalues (by decide))]
    rw [hsplit]
    exact ⟨hlength, values, hvalues, rfl⟩

/-- A boundary that is there is a version. -/
def SpellsBoundary (boundary : Option String) (bound : Option (List Nat)) : Prop :=
  match boundary with
  | none => bound = none
  | some text => ∃ version, SpellsVersion text version ∧ bound = some version

theorem parseBoundary_ok {name : String} {boundary : Option String} {bound : Option (List Nat)} :
    parseBoundary name boundary = .ok bound ↔ SpellsBoundary boundary bound := by
  cases boundary with
  | none =>
    rw [parseBoundary, SpellsBoundary, Except.ok.injEq]
    exact eq_comm
  | some text =>
    rw [parseBoundary, SpellsBoundary]
    constructor
    · intro h
      cases hparse : parseVersion text name with
      | error e => rw [hparse] at h; cases h
      | ok version =>
        rw [hparse] at h
        cases h
        exact ⟨version, parseVersion_ok.mp hparse, rfl⟩
    · rintro ⟨version, hversion, rfl⟩
      rw [parseVersion_ok.mpr hversion]
      rfl

def SpellsRange (range : CompatibilityRange)
    (bounds : Option (List Nat) × Option (List Nat)) : Prop :=
  SpellsBoundary range.min bounds.1 ∧ SpellsBoundary range.max bounds.2

theorem parseRange_ok {range : CompatibilityRange}
    {bounds : Option (List Nat) × Option (List Nat)} :
    parseRange range = .ok bounds ↔ SpellsRange range bounds := by
  unfold parseRange
  rw [bind_ok]
  constructor
  · rintro ⟨min, hmin, h⟩
    obtain ⟨max, hmax, h⟩ := bind_ok.mp h
    cases h
    exact ⟨parseBoundary_ok.mp hmin, parseBoundary_ok.mp hmax⟩
  · rintro ⟨hmin, hmax⟩
    exact ⟨_, parseBoundary_ok.mpr hmin, bind_ok.mpr ⟨_, parseBoundary_ok.mpr hmax, rfl⟩⟩

theorem mapM_ok {ε α β : Type} {f : α → Except ε β} {xs : List α} {ys : List β} :
    xs.mapM f = .ok ys ↔ List.Forall₂ (fun x y => f x = .ok y) xs ys := by
  induction xs generalizing ys with
  | nil =>
    rw [List.mapM_nil, List.forall₂_nil_left_iff]
    constructor
    · intro h
      cases h
      rfl
    · rintro rfl
      rfl
  | cons x xs ih =>
    rw [List.mapM_cons, bind_ok, List.forall₂_cons_left_iff]
    constructor
    · rintro ⟨y, hy, h⟩
      obtain ⟨rest, hrest, h⟩ := bind_ok.mp h
      cases h
      exact ⟨y, rest, hy, ih.mp hrest, rfl⟩
    · rintro ⟨y, rest, hy, hrest, rfl⟩
      exact ⟨y, hy, bind_ok.mpr ⟨rest, ih.mpr hrest, rfl⟩⟩

/-- A version between two boundaries, compared number by number. -/
def Admits (bounds : Option (List Nat) × Option (List Nat)) (version : List Nat) : Prop :=
  (∀ min ∈ bounds.1, ¬ version < min) ∧ ∀ max ∈ bounds.2, ¬ max < version

theorem inRange_iff {version : List Nat} {bounds : Option (List Nat) × Option (List Nat)} :
    inRange version bounds = true ↔ Admits bounds version := by
  obtain ⟨min, max⟩ := bounds
  cases min <;> cases max <;> simp [inRange, Admits]

/-- Every boundary is a version, and that of sing-box lies within one of the ranges. -/
def Compatible (manifest : ReleaseManifest) : Prop :=
  ∃ version bounds, SpellsVersion manifest.singBox.version version ∧
    List.Forall₂ SpellsRange manifest.singBoxCompatibility bounds ∧
    ∃ range ∈ bounds, Admits range version

theorem checkCompatibilityMatrix_ok {manifest : ReleaseManifest} :
    checkCompatibilityMatrix manifest = .ok () ↔ Compatible manifest := by
  have hranges {bounds : List (Option (List Nat) × Option (List Nat))} :
      manifest.singBoxCompatibility.mapM parseRange = .ok bounds ↔
        List.Forall₂ SpellsRange manifest.singBoxCompatibility bounds := by
    simp only [mapM_ok, parseRange_ok]
  unfold checkCompatibilityMatrix
  constructor
  · intro h
    split at h
    · cases h
    · obtain ⟨version, hversion, h⟩ := bind_ok.mp h
      obtain ⟨bounds, hbounds, h⟩ := bind_ok.mp h
      split at h
      · rename_i hany
        obtain ⟨range, hrange, hin⟩ := List.any_eq_true.mp hany
        exact ⟨version, bounds, parseVersion_ok.mp hversion, hranges.mp hbounds, range, hrange,
          inRange_iff.mp hin⟩
      · cases h
  · rintro ⟨version, bounds, hversion, hbounds, range, hrange, hin⟩
    have hne : manifest.singBoxCompatibility ≠ [] := by
      intro hnil
      rw [hnil, List.forall₂_nil_left_iff] at hbounds
      rw [hbounds] at hrange
      cases hrange
    have hany : bounds.any (inRange version) = true :=
      List.any_eq_true.mpr ⟨range, hrange, inRange_iff.mpr hin⟩
    rw [if_neg hne]
    refine bind_ok.mpr ⟨version, parseVersion_ok.mpr hversion, bind_ok.mpr ⟨bounds,
      hranges.mpr hbounds, ?_⟩⟩
    rw [if_pos hany]

def IsDigest (text : String) : Prop :=
  text.utf8ByteSize = 64 ∧ ∀ c ∈ text.toList, (hexValue c).isSome

/-- What may be signed: fixed versions, whole digests and a compatible sing-box. -/
structure Publishable (manifest : ReleaseManifest) : Prop where
  schema : manifest.schema = manifestSchemaVersion
  fixed : manifest.sbctl.version ∉ floatingVersions ∧ manifest.singBox.version ∉ floatingVersions
  digests : IsDigest manifest.sbctl.sha256 ∧ IsDigest manifest.singBox.sha256
  compatible : Compatible manifest

theorem rejectFloatingVersion_ok {version name : String} :
    rejectFloatingVersion version name = .ok () ↔ version ∉ floatingVersions := by
  unfold rejectFloatingVersion
  split
  · rename_i hmem
    exact iff_of_false (by simp) (not_not.mpr hmem)
  · rename_i hmem
    exact iff_of_true rfl hmem

theorem validateDigest_ok {name digest : String} :
    validateDigest name digest = .ok () ↔ IsDigest digest := by
  unfold validateDigest
  split
  · rename_i hdigest
    exact iff_of_true rfl ⟨hdigest.1, List.all_eq_true.mp hdigest.2⟩
  · rename_i hdigest
    exact iff_of_false (by simp) fun h => hdigest ⟨h.1, List.all_eq_true.mpr h.2⟩

/-- The manifests whose fields are valid are those that may be signed. -/
theorem valid_iff_publishable {manifest : ReleaseManifest} :
    validateManifestFields manifest = .ok () ↔ Publishable manifest := by
  unfold validateManifestFields
  constructor
  · intro h
    split at h
    · cases h
    · rename_i hschema
      obtain ⟨_, hsbctl, h⟩ := bind_ok.mp h
      obtain ⟨_, hsingBox, h⟩ := bind_ok.mp h
      obtain ⟨_, hdigest, h⟩ := bind_ok.mp h
      obtain ⟨_, hdigest', h⟩ := bind_ok.mp h
      constructor
      · exact not_not.mp hschema
      · exact ⟨rejectFloatingVersion_ok.mp hsbctl, rejectFloatingVersion_ok.mp hsingBox⟩
      · exact ⟨validateDigest_ok.mp hdigest, validateDigest_ok.mp hdigest'⟩
      · exact checkCompatibilityMatrix_ok.mp h
  · intro h
    rw [if_neg (not_not.mpr h.schema)]
    refine bind_ok.mpr ⟨(), rejectFloatingVersion_ok.mpr h.fixed.1, ?_⟩
    refine bind_ok.mpr ⟨(), rejectFloatingVersion_ok.mpr h.fixed.2, ?_⟩
    refine bind_ok.mpr ⟨(), validateDigest_ok.mpr h.digests.1, ?_⟩
    exact bind_ok.mpr ⟨(), validateDigest_ok.mpr h.digests.2,
      checkCompatibilityMatrix_ok.mpr h.compatible⟩

/-- The signature of a manifest is one of a key over its canonical text. -/
def SignedBy (ed : Ed25519) (order : MapOrder) (key : Key) (manifest : ReleaseManifest) : Prop :=
  ∃ encoded signature, manifest.signature = some encoded ∧
    (Base64.decode .standard encoded.toList).bind signatureFromSlice = some signature ∧
    ed.acceptsKey key = true ∧ ed.verifyStrict key (canonicalBytes order manifest) signature = true

theorem verifySignature_ok {ed : Ed25519} {order : MapOrder} {trusted : Except ReleaseError Key}
    {manifest : ReleaseManifest} :
    verifySignature ed order trusted manifest = .ok () ↔
      ∃ key, trusted = .ok key ∧ SignedBy ed order key manifest := by
  unfold verifySignature
  constructor
  · intro h
    split at h
    · cases h
    · rename_i encoded hencoded
      split at h
      · cases h
      · rename_i signature hsignature
        obtain ⟨key, hkey, h⟩ := bind_ok.mp h
        split at h
        · rename_i hverified
          exact ⟨key, hkey, encoded, signature, hencoded, hsignature, hverified⟩
        · cases h
  · rintro ⟨key, rfl, encoded, signature, hencoded, hsignature, hverified⟩
    rw [hencoded]
    dsimp only
    rw [hsignature]
    exact if_pos hverified

/-- A manifest file is accepted exactly if it reads as a manifest that may be signed
and bears a signature of the trusted key over its canonical text, in whatever order
the file has its keys. -/
theorem manifest_accepted_iff (ed : Ed25519) (order : MapOrder)
    (trusted : Except ReleaseError Key) (contents : List UInt8) (manifest : ReleaseManifest) :
    verifyManifest ed order trusted contents = .ok manifest ↔
      ReleaseManifest.ofSlice contents = .ok manifest ∧ Publishable manifest ∧
        ∃ key, trusted = .ok key ∧ ∀ other : MapOrder, SignedBy ed other key manifest := by
  have horder {key : Key} (h : SignedBy ed order key manifest) (other : MapOrder) :
      SignedBy ed other key manifest := by
    have hbytes : canonicalBytes other manifest = canonicalBytes order manifest :=
      canonicalBytes_inj.mpr rfl
    unfold SignedBy
    rw [hbytes]
    exact h
  constructor
  · intro h
    obtain ⟨manifest', hread, h⟩ := bind_ok.mp h
    obtain ⟨_, htrusted, h⟩ := bind_ok.mp h
    cases h
    obtain ⟨_, hvalid, hsignature⟩ := bind_ok.mp htrusted
    obtain ⟨key, hkey, hsigned⟩ := verifySignature_ok.mp hsignature
    exact ⟨hread, valid_iff_publishable.mp hvalid, key, hkey, horder hsigned⟩
  · rintro ⟨hread, hpublishable, key, hkey, hsigned⟩
    have htrusted : verifyTrusted ed order trusted manifest = .ok () :=
      bind_ok.mpr ⟨(), valid_iff_publishable.mpr hpublishable,
        verifySignature_ok.mpr ⟨key, hkey, hsigned order⟩⟩
    exact bind_ok.mpr ⟨manifest, hread, bind_ok.mpr ⟨(), htrusted, rfl⟩⟩

end Sbctl
