import Sbctl.ShareLinks

/-!
# Reading share links

What a client that follows the generic syntax of URIs makes of a list of share
links, and what the nodes mean to say.

* `links_decode_iff`: both lists say exactly their nodes, one line for each, if
  and only if the texts that are written without escapes need none.
-/

namespace Sbctl

open Text

/-! ## The reader -/

/-- The ports a link dials. -/
inductive Dial where
  | port (n : Nat)
  | range (first last : Nat)
  deriving DecidableEq

/-- What a link says. -/
structure Share where
  scheme : String
  credentials : List String
  host : String
  dial : Dial
  path : String
  params : List (String × String)
  name : String
  deriving DecidableEq

def readPort (cs : List Char) : Option Nat := parseUnsigned 65535 cs

def readDial (cs : List Char) : Option Dial :=
  match splitOnce '-' cs with
  | none => (readPort cs).map .port
  | some (first, last) => do
    let first ← readPort first
    let last ← readPort last
    return .range first last

/-- TUIC has two credentials with a colon between them. -/
def readCredentials (scheme user : List Char) : Option (List String) :=
  if scheme = "tuic".toList then do
    let (uuid, password) ← splitOnce ':' user
    let uuid ← decodeText uuid
    let password ← decodeText password
    return [uuid, password]
  else (decodeText user).map fun credential => [credential]

def readHost : Uri.Host → Option String
  | .name cs => decodeText cs
  | .literal cs => some (String.ofList cs)

def readParts (uri : Uri.Parts) : Option Share := do
  let user ← uri.userinfo
  let credentials ← readCredentials uri.scheme user
  let host ← readHost uri.host
  let port ← uri.port
  let dial ← readDial port
  let path ← decodeText uri.path
  let query ← uri.query
  let params ← Uri.params query
  let fragment ← uri.fragment
  let name ← decodeText fragment
  return { scheme := String.ofList uri.scheme, credentials, host, dial, path, params, name }

def readFields : Json → Option (List (String × String))
  | .obj entries => entries.mapM fun (key, value) => value.asStr?.map (key, ·)
  | _ => none

def readVmess (payload : List Char) : Option Share := do
  let encoded ← Base64.decode .standard payload
  let text ← fromUtf8 encoded
  let json ← Json.parse text.toList
  let fields ← readFields json
  let id ← fields.lookup "id"
  let host ← fields.lookup "add"
  let port ← fields.lookup "port"
  let port ← readPort port.toList
  let path ← fields.lookup "path"
  let name ← fields.lookup "ps"
  return { scheme := "vmess", credentials := [id], host, dial := .port port, path, params := fields,
           name }

def readShare (line : List Char) : Option Share :=
  match stripPrefix "vmess://".toList line with
  | some payload => readVmess payload
  | none => (Uri.read line).bind readParts

def readShares (body : List Char) : Option (List Share) := (lines body).mapM readShare

/-! ## What the nodes say -/

def dialOf (config : DeploymentConfig) (port : UInt16) : Dial :=
  match config.hysteria2PortHopping with
  | some hop => .range hop.start.toNat hop.«end».toNat
  | none => .port port.toNat

/-- The parameters with which a link turns verification off or leaves it on. -/
def verifyPairs (skips : Bool) (tuic : Bool) : List (String × String) :=
  if skips then
    [("insecure", "1"), ("allowInsecure", "1")] ++ if tuic then [("allow_insecure", "1")] else []
  else [("insecure", "0")]

def DeploymentConfig.skipsVerification (config : DeploymentConfig) : Bool :=
  config.certificateMode = .selfSigned

/-- The fields of a VMess link, by key. -/
def vmessPairs (skips : Bool) (host : String) (port : UInt16) (tlsServerName uuid path : String) :
    List (String × String) :=
  [("add", host), ("aid", "0")] ++ (if skips then [("allowInsecure", "1")] else []) ++
    [("host", tlsServerName), ("id", uuid)] ++ (if skips then [("insecure", "1")] else []) ++
    [("net", "ws"), ("path", path), ("port", String.ofList (decimal port.toNat)),
      ("ps", "sbctl-vmess-websocket"), ("scy", "auto"), ("sni", tlsServerName), ("tls", "tls"),
      ("type", "none"), ("v", "2")]

/-- The share of a node: every value as the node holds it. -/
def CanonicalNode.share (rocket : Bool) (config : DeploymentConfig) : CanonicalNode → Share
  | .vlessReality host port _ uuid _ publicKey shortId decoySni =>
    { scheme := "vless", credentials := [uuid], host, dial := .port port.toNat, path := "",
      params := [("encryption", "none"), ("flow", "xtls-rprx-vision"), ("security", "reality"),
        ("sni", decoySni), ("fp", "chrome"), ("pbk", publicKey), ("sid", shortId), ("type", "tcp")],
      name := "sbctl-vless-reality" }
  | .vmessWebsocket host port tlsServerName uuid path =>
    { scheme := "vmess", credentials := [uuid], host, dial := .port port.toNat, path,
      params := vmessPairs config.skipsVerification host port tlsServerName uuid path,
      name := "sbctl-vmess-websocket" }
  | .hysteria2 host port tlsServerName password =>
    { scheme := "hysteria2", credentials := [password], host, dial := dialOf config port,
      path := "",
      params := verifyPairs config.skipsVerification false ++ [("sni", tlsServerName)],
      name := "sbctl-hysteria2" }
  | .tuic host port tlsServerName uuid password =>
    { scheme := "tuic", credentials := [uuid, password], host, dial := .port port.toNat, path := "",
      params := ("congestion_control", "bbr") ::
        ((if rocket then [("udp_relay_mode", "native")] else []) ++
          ("alpn", "h3") :: (verifyPairs config.skipsVerification true ++ [("sni", tlsServerName)])),
      name := "sbctl-tuic" }
  | .anytls host port tlsServerName password =>
    { scheme := "anytls", credentials := [password], host, dial := .port port.toNat,
      path := if rocket then "/" else "",
      params := (if rocket then [] else [("security", "tls")]) ++
        (verifyPairs config.skipsVerification false ++ [("sni", tlsServerName)]),
      name := "sbctl-anytls" }

/-- The server name a client presents: the decoy of a Reality node. -/
def CanonicalNode.sni : CanonicalNode → String
  | .vlessReality _ _ _ _ _ _ _ decoySni => decoySni
  | node => node.tlsServerName

section
variable {rocket : Bool} {config : DeploymentConfig}

end

/-! ## Links that read back -/

/-- A parameter that reads back inside a query. -/
structure GoodParam (param : Uri.Param) : Prop extends param.Reads where
  text : Uri.valid Uri.isQueryChar param.text = true

/-- A name of letters, digits and underscores. -/
def SimpleName (name : String) : Prop :=
  Uri.PlainName name ∧ ∀ c ∈ name.toList, Uri.isQueryChar c = true

instance (name : String) : Decidable (SimpleName name) :=
  decidable_of_iff (Uri.PlainName name ∧ name.toList.all Uri.isQueryChar = true)
    (and_congr_right fun _ => List.all_eq_true)

theorem valid_paramText {name : String} {raw : List Char} (hname : SimpleName name)
    (hraw : Uri.valid Uri.isQueryChar raw = true) :
    Uri.valid Uri.isQueryChar (Uri.paramText name raw) = true := by
  have hkey := Uri.valid_literal hname.2 (by decide)
  have hsign : Uri.valid Uri.isQueryChar ['='] = true := by decide
  exact Uri.valid_append hkey (Uri.valid_append hsign hraw)

theorem isQueryChar_of_isUnreserved {c : Char} (h : isUnreserved c = true) :
    Uri.isQueryChar c = true := by
  simp [Uri.isQueryChar, Uri.isPathChar, h]

theorem goodParam_escaped {name : String} (hname : SimpleName name) (value : String) :
    GoodParam (escapedParam name value) where
  name := hname.1
  raw := notMem_percentEncode (by decide) (by decide) value
  value := decodeText_percentEncode value
  text := valid_paramText hname
    (Uri.valid_percentEncode (fun _ => isQueryChar_of_isUnreserved) value)

/-- A text that stands in a query as it is. -/
def PlainParam (value : String) : Prop :=
  ∀ c ∈ value.toList, Uri.isQueryChar c = true ∧ c ≠ '&'

instance (value : String) : Decidable (PlainParam value) :=
  decidable_of_iff ((value.toList.all fun c => Uri.isQueryChar c && c != '&') = true) (by
    simp [PlainParam, List.all_eq_true])

theorem goodParam_literal {name value : String} (hname : SimpleName name) (hvalue : PlainParam value) :
    GoodParam (literalParam name value) where
  name := hname.1
  raw hmem := (hvalue _ hmem).2 rfl
  value := by
    have hpercent : '%' ∉ value.toList := fun hmem => absurd (hvalue _ hmem).1 (by decide)
    rw [literalParam, decodeText_literal hpercent, String.ofList_toList]
  text := valid_paramText hname (Uri.valid_literal (fun c hc => (hvalue c hc).1) (by decide))

/-- A link of the grammar. -/
structure Link.Readable (link : Link) : Prop where
  scheme : Uri.isScheme link.scheme.toList = true
  user : Uri.valid Uri.isUserChar link.user = true
  host : (uriHostPart link.host).WellFormed
  hostText : readHost (uriHostPart link.host) = some link.host
  port : link.port.all Uri.isPortChar = true
  path : link.path = "" ∨ link.path = "/"
  params : link.params ≠ [] ∧ ∀ param ∈ link.params, GoodParam param
  name : ∀ c ∈ link.name.toList, Uri.isQueryChar c = true

theorem Link.Readable.wellFormed {link : Link} (h : link.Readable) : link.parts.WellFormed where
  scheme := h.scheme
  userinfo user huser := by
    cases huser
    exact h.user
  host := h.host
  port port hport := by
    cases hport
    exact h.port
  path := by
    have hempty : Uri.valid Uri.isPathChar "".toList = true := by decide
    have hslash : Uri.valid Uri.isPathChar "/".toList = true := by decide
    unfold Link.parts
    rcases h.path with hpath | hpath
    · rw [hpath]
      exact ⟨hempty, .inl rfl⟩
    · rw [hpath]
      exact ⟨hslash, .inr rfl⟩
  query query hquery := by
    cases hquery
    exact Uri.queryText_valid fun param hparam => (h.params.2 param hparam).text
  fragment fragment hfragment := by
    cases hfragment
    exact Uri.valid_literal h.name (by decide)

/-- A link of the grammar reads back. -/
theorem read_link {link : Link} (h : link.Readable) {credentials : List String} {dial : Dial}
    (hcredentials : readCredentials link.scheme.toList link.user = some credentials)
    (hdial : readDial link.port = some dial) :
    (Uri.read link.parts.text).bind readParts =
      some { scheme := link.scheme, credentials, host := link.host, dial, path := link.path,
             params := link.params.map Uri.Param.pair, name := link.name } := by
  have hparams := Uri.params_join h.params.1 fun param hparam => (h.params.2 param hparam).toReads
  have hpath : decodeText link.path.toList = some link.path := by
    have hpercent : '%' ∉ link.path.toList := by
      rcases h.path with hpath | hpath <;> rw [hpath] <;> decide
    rw [decodeText_literal hpercent, String.ofList_toList]
  have hname : decodeText link.name.toList = some link.name := by
    have hpercent : '%' ∉ link.name.toList := fun hmem => absurd (h.name _ hmem) (by decide)
    rw [decodeText_literal hpercent, String.ofList_toList]
  rw [Uri.read_text h.wellFormed, Option.bind_some, readParts]
  simp only [Link.parts, hcredentials, h.hostText, hdial, hpath, hparams, hname,
    Option.bind_eq_bind, Option.bind_some, String.ofList_toList, Option.pure_def]

/-! ## Ports and hosts -/

theorem readPort_decimal (port : UInt16) : readPort (decimal port.toNat) = some port.toNat := by
  have hlt := port.toNat_lt
  exact parseUnsigned_toDigits (by omega)

theorem readDial_decimal (port : UInt16) : readDial (decimal port.toNat) = some (.port port.toNat) := by
  have hnone : splitOnce '-' (decimal port.toNat) = none :=
    splitOnce_eq_none.mpr (notMem_toDigits (by decide))
  rw [readDial, hnone]
  simp only [readPort_decimal, Option.map_some]

theorem readDial_range (hop : PortHopping) :
    readDial hop.range = some (.range hop.start.toNat hop.«end».toNat) := by
  have hnot : '-' ∉ decimal hop.start.toNat := notMem_toDigits (by decide)
  rw [readDial, PortHopping.range, splitOnce_append hnot]
  simp only [readPort_decimal, Option.bind_eq_bind, Option.bind_some]
  rfl

theorem isPortChar_decimal (n : Nat) : (decimal n).all Uri.isPortChar = true := by
  rw [List.all_eq_true]
  intro c hc
  rw [Uri.isPortChar, isDigit_of_mem hc]
  rfl

theorem isPortChar_range (hop : PortHopping) : hop.range.all Uri.isPortChar = true := by
  rw [PortHopping.range, List.all_append, List.all_cons, isPortChar_decimal, isPortChar_decimal]
  rfl

/-- The host of a node is of the grammar, and reads back without brackets. -/
structure GoodHost (host : String) : Prop where
  wellFormed : (uriHostPart host).WellFormed
  text : readHost (uriHostPart host) = some host

theorem goodHost_nodeHost {lib : Libraries} {config : DeploymentConfig}
    (hread : lib.ReadsAddresses) (h : Accepted lib config) : GoodHost config.nodeHost := by
  rcases nodeHost_kinds hread h with ⟨groups, hv6⟩ | ⟨hplain, hchars⟩
  · have hpart : uriHostPart config.nodeHost = .literal config.nodeHost.toList := by
      rw [uriHostPart, hv6]
    refine ⟨?_, by rw [hpart, readHost, String.ofList_toList]⟩
    rw [hpart, Uri.Host.WellFormed, List.all_eq_true]
    intro c hc
    rcases IpText.mem_v6 hv6 c hc with hdigit | rfl | rfl
    · simp [Uri.isLiteralChar, hdigit]
    · decide
    · decide
  · have hpart : uriHostPart config.nodeHost = .name config.nodeHost.toList := by
      unfold uriHostPart
      unfold uriHost at hplain
      split
      · rename_i groups hv6
        rw [hv6] at hplain
        have hlength := congrArg (fun s => s.toList.length) hplain
        simp only [String.toList_ofList, List.length_cons, List.length_append] at hlength
        omega
      · rfl
    have hpercent : '%' ∉ config.nodeHost.toList := fun hmem => absurd (hchars _ hmem) (by decide)
    refine ⟨?_, by rw [hpart, readHost, decodeText_literal hpercent, String.ofList_toList]⟩
    rw [hpart]
    exact Uri.valid_literal (fun c hc => by simp [Uri.isNameChar, hchars c hc]) (by decide)

/-! ## The lines of the nodes -/

section
variable {rocket : Bool} {config : DeploymentConfig}

/-- The line of a VMess node without its line feed. -/
def vmessText (insecure : Nat) (host : String) (port : UInt16) (uuid tlsServerName path : String) :
    List Char :=
  "vmess://".toList ++ Base64.encode .standard (bytes (String.ofList
    (vmessPayload "sbctl-vmess-websocket" (uriHost host) port uuid tlsServerName path insecure)))

def lineText (rocket : Bool) (insecure : Nat) : CanonicalNode → List Char
  | .vmessWebsocket host port tlsServerName uuid path =>
    vmessText insecure host port uuid tlsServerName path
  | node => ((node.link rocket insecure).map fun link => link.parts.text).getD []

theorem lineOf_eq (rocket : Bool) (insecure : Nat) (node : CanonicalNode) :
    lineOf rocket insecure node.withBracketedHost = lineText rocket insecure node ++ ['\n'] := by
  cases node with
  | vmessWebsocket host port tlsServerName uuid path => cases rocket <;> rfl
  | vlessReality => exact lineOf_link rfl
  | hysteria2 => exact lineOf_link rfl
  | tuic => exact lineOf_link rfl
  | anytls => exact lineOf_link rfl

/-- What becomes of a line when the range is put in. -/
def hopStep (config : DeploymentConfig) (line : List Char) : Option (List Char) :=
  match config.hysteria2PortHopping with
  | none => some line
  | some hop => hopLine hop line

theorem hoppingUris_eq (config : DeploymentConfig) (uris : List Char) :
    hoppingUris config uris =
      ((splitInclusive '\n' uris).mapM (hopStep config)).map List.flatten := by
  unfold hoppingUris hopStep
  cases config.hysteria2PortHopping with
  | none =>
    have hall : (splitInclusive '\n' uris).mapM some = some ((splitInclusive '\n' uris).map id) :=
      Traverse.mapM_eq_some_map.mpr fun _ _ => rfl
    rw [List.map_id] at hall
    rw [hall, Option.map_some, flatten_splitInclusive]
  | some hop => rfl

theorem hopStep_line {line out : List Char} (hline : '\n' ∉ line)
    (h : hopStep config (line ++ ['\n']) = some out) :
    ∃ body, out = body ++ ['\n'] ∧ '\n' ∉ body := by
  unfold hopStep at h
  split at h
  · cases h
    exact ⟨line, rfl, hline⟩
  · exact hopLine_line hline h

/-- The line of a node says what the node says. -/
def Says (rocket : Bool) (config : DeploymentConfig) (node : CanonicalNode) : Prop :=
  '\n' ∉ lineText rocket (insecureFlag config) node ∧
    ((hopStep config (lineText rocket (insecureFlag config) node ++ ['\n'])).bind
      fun line => readShare (stripLineEnd line)) = some (node.share rocket config)

/-- A list says what its nodes say if every line does. -/
theorem readShares_iff (rocket : Bool) (config : DeploymentConfig) (nodes : List CanonicalNode) :
    ((hoppingUris config ((nodes.map CanonicalNode.withBracketedHost).flatMap
        (lineOf rocket (insecureFlag config)))).bind readShares) =
        some (nodes.map (CanonicalNode.share rocket config)) ↔
      ∀ node ∈ nodes, Says rocket config node := by
  have htext : (nodes.map CanonicalNode.withBracketedHost).flatMap
      (lineOf rocket (insecureFlag config)) =
        nodes.flatMap fun node => lineText rocket (insecureFlag config) node ++ ['\n'] := by
    rw [List.flatMap_map]
    exact List.flatMap_congr fun node _ => lineOf_eq rocket (insecureFlag config) node
  rw [htext, hoppingUris_eq]
  exact read_lines_iff fun line out hline => hopStep_line hline

theorem stripLineEnd_line {line : List Char} (h : line.getLast? ≠ some '\r') :
    stripLineEnd (line ++ ['\n']) = line := by
  have hfeed : withoutLast '\n' (line ++ ['\n']) = some line := by
    simp [withoutLast]
  have hreturn : withoutLast '\r' line = none := by
    rw [withoutLast, if_neg h]
  rw [stripLineEnd, hfeed]
  simp only [hreturn, Option.getD_none]

/-! ## Escaped links say what their nodes say -/

theorem readShare_link {link : Link} (h : link.Readable)
    (hscheme : stripPrefix "vmess://".toList link.parts.text = none) {credentials : List String}
    {dial : Dial} (hcredentials : readCredentials link.scheme.toList link.user = some credentials)
    (hdial : readDial link.port = some dial) :
    readShare (stripLineEnd (link.parts.text ++ ['\n'])) =
      some { scheme := link.scheme, credentials, host := link.host, dial, path := link.path,
             params := link.params.map Uri.Param.pair, name := link.name } := by
  have hreturn : link.parts.text.getLast? ≠ some '\r' := fun hlast =>
    Uri.notMem_text h.wellFormed (.inr rfl) (List.mem_of_getLast? hlast)
  rw [stripLineEnd_line hreturn, readShare, hscheme]
  exact read_link h hcredentials hdial

/-- A link whose port stays says what is read of it. -/
theorem says_link {node : CanonicalNode} (link : Link)
    (htext : lineText rocket (insecureFlag config) node = link.parts.text) (h : link.Readable)
    (hscheme : stripPrefix "vmess://".toList link.parts.text = none)
    (hhead : ∃ c, link.parts.text.head? = some c ∧ c ≠ 'h') {credentials : List String} {dial : Dial}
    (hcredentials : readCredentials link.scheme.toList link.user = some credentials)
    (hdial : readDial link.port = some dial)
    (hshare : node.share rocket config =
      { scheme := link.scheme, credentials, host := link.host, dial, path := link.path,
        params := link.params.map Uri.Param.pair, name := link.name }) :
    Says rocket config node := by
  obtain ⟨c, hhead, hc⟩ := hhead
  have hstep : hopStep config (link.parts.text ++ ['\n']) = some (link.parts.text ++ ['\n']) := by
    unfold hopStep
    split
    · rfl
    · refine hopLine_other (c := c) ?_ hc
      rw [List.head?_append, hhead]
      rfl
  refine ⟨?_, ?_⟩
  · rw [htext]
    exact Uri.notMem_text h.wellFormed (.inl rfl)
  · rw [htext, hstep, Option.bind_some, readShare_link h hscheme hcredentials hdial, hshare]

theorem insecureParams_good (config : DeploymentConfig) (tuic : Bool) (tlsServerName : String) :
    ∀ param ∈ insecureParams (insecureFlag config) tuic tlsServerName, GoodParam param := by
  have hsni := goodParam_escaped (by decide : SimpleName "sni") tlsServerName
  have hone {name : String} (hname : SimpleName name) : GoodParam (literalParam name "1") :=
    goodParam_literal hname (by decide)
  have hzero : GoodParam (literalParam "insecure" "0") := goodParam_literal (by decide) (by decide)
  have hflag := hone (by decide : SimpleName "insecure")
  have halias := hone (by decide : SimpleName "allowInsecure")
  have htuic := hone (by decide : SimpleName "allow_insecure")
  have hdigits : String.ofList (decimal 1) = "1" ∧ String.ofList (decimal 0) = "0" := by decide
  have hskips : verifyParams 1 true =
      [literalParam "allowInsecure" "1", literalParam "allow_insecure" "1"] ∧
        verifyParams 1 false = [literalParam "allowInsecure" "1"] := ⟨rfl, rfl⟩
  have hverifies : verifyParams 0 tuic = [] := rfl
  unfold insecureParams insecureFlag
  by_cases hmode : config.certificateMode = .selfSigned
  · rw [if_pos hmode, hdigits.1]
    cases tuic
    · rw [hskips.2]
      simp [hflag, halias, hsni]
    · rw [hskips.1]
      simp [hflag, halias, htuic, hsni]
  · rw [if_neg hmode, hdigits.2, hverifies]
    simp [hzero, hsni]

theorem insecureParams_pairs (config : DeploymentConfig) (tuic : Bool) (tlsServerName : String) :
    (insecureParams (insecureFlag config) tuic tlsServerName).map Uri.Param.pair =
      verifyPairs config.skipsVerification tuic ++ [("sni", tlsServerName)] := by
  have hdigits : String.ofList (decimal 1) = "1" ∧ String.ofList (decimal 0) = "0" := by decide
  unfold insecureParams verifyParams insecureFlag verifyPairs DeploymentConfig.skipsVerification
  by_cases hmode : config.certificateMode = .selfSigned
  · cases tuic <;> simp [hmode, hdigits, Uri.Param.pair, literalParam, escapedParam]
  · simp [hmode, hdigits, Uri.Param.pair, literalParam, escapedParam]

theorem isUserChar_of_isUnreserved {c : Char} (h : isUnreserved c = true) :
    Uri.isUserChar c = true := by
  simp [Uri.isUserChar, h]

theorem credential_encoded {scheme : String} (hscheme : scheme.toList ≠ "tuic".toList)
    (password : String) :
    readCredentials scheme.toList (percentEncode password) = some [password] := by
  rw [readCredentials, if_neg hscheme, decodeText_percentEncode]
  rfl

theorem says_anytls (rocket : Bool) {host : String} (hhost : GoodHost host) (port : UInt16)
    (tlsServerName password : String) :
    Says rocket config (.anytls host port tlsServerName password) := by
  have hgood := insecureParams_good config false tlsServerName
  have htls : GoodParam (literalParam "security" "tls") := goodParam_literal (by decide) (by decide)
  have hscheme : Uri.isScheme "anytls".toList = true := by decide
  have hname : ∀ c ∈ "sbctl-anytls".toList, Uri.isQueryChar c = true :=
    List.all_eq_true.mp (by decide)
  have hcredentials := credential_encoded (by decide : "anytls".toList ≠ "tuic".toList) password
  refine says_link ⟨"anytls", percentEncode password, host, decimal port.toNat,
    if rocket then "/" else "", anytlsParams rocket (insecureFlag config) tlsServerName,
    "sbctl-anytls"⟩ rfl ?_ ?_ ⟨'a', ?_, by decide⟩ hcredentials (readDial_decimal port) ?_
  · refine ⟨hscheme, Uri.valid_percentEncode (fun _ => isUserChar_of_isUnreserved) password,
      hhost.wellFormed, hhost.text, isPortChar_decimal _, ?_, ⟨?_, ?_⟩, hname⟩
    · cases rocket
      · exact .inl rfl
      · exact .inr rfl
    · cases rocket <;> exact List.cons_ne_nil _ _
    · unfold anytlsParams
      cases rocket
      · exact List.forall_mem_cons.mpr ⟨htls, hgood⟩
      · exact hgood
  · simp [Link.text_eq, stripPrefix]
  · simp [Link.text_eq]
  · rw [CanonicalNode.share, anytlsParams, List.map_append, insecureParams_pairs]
    cases rocket <;> rfl

theorem says_tuic (rocket : Bool) {host : String} (hhost : GoodHost host) (port : UInt16)
    (tlsServerName uuid password : String) :
    Says rocket config (.tuic host port tlsServerName uuid password) := by
  have hgood := insecureParams_good config true tlsServerName
  have hcontrol : GoodParam (literalParam "congestion_control" "bbr") :=
    goodParam_literal (by decide) (by decide)
  have hrelay : GoodParam (literalParam "udp_relay_mode" "native") :=
    goodParam_literal (by decide) (by decide)
  have halpn : GoodParam (literalParam "alpn" "h3") := goodParam_literal (by decide) (by decide)
  have hcolon : ':' ∉ percentEncode uuid := notMem_percentEncode (by decide) (by decide) uuid
  have hcredentials : readCredentials "tuic".toList
      (percentEncode uuid ++ ':' :: percentEncode password) = some [uuid, password] := by
    rw [readCredentials, if_pos rfl, splitOnce_append hcolon]
    simp only [decodeText_percentEncode, Option.bind_eq_bind, Option.bind_some, Option.pure_def]
  have hscheme : Uri.isScheme "tuic".toList = true := by decide
  have hname : ∀ c ∈ "sbctl-tuic".toList, Uri.isQueryChar c = true :=
    List.all_eq_true.mp (by decide)
  refine says_link ⟨"tuic", percentEncode uuid ++ ':' :: percentEncode password, host,
    decimal port.toNat, "", tuicParams rocket (insecureFlag config) tlsServerName,
    "sbctl-tuic"⟩ rfl ?_ ?_ ⟨'t', ?_, by decide⟩ hcredentials (readDial_decimal port) ?_
  · have huser : Uri.valid Uri.isUserChar
        (percentEncode uuid ++ ([':'] ++ percentEncode password)) = true :=
      Uri.valid_append (Uri.valid_percentEncode (fun _ => isUserChar_of_isUnreserved) uuid)
        (Uri.valid_append (by decide)
          (Uri.valid_percentEncode (fun _ => isUserChar_of_isUnreserved) password))
    refine ⟨hscheme, huser, hhost.wellFormed, hhost.text, isPortChar_decimal _, .inl rfl,
      ⟨List.cons_ne_nil _ _, ?_⟩, hname⟩
    unfold tuicParams
    cases rocket
    · exact List.forall_mem_cons.mpr ⟨hcontrol, List.forall_mem_cons.mpr ⟨halpn, hgood⟩⟩
    · exact List.forall_mem_cons.mpr ⟨hcontrol, List.forall_mem_cons.mpr
        ⟨hrelay, List.forall_mem_cons.mpr ⟨halpn, hgood⟩⟩⟩
  · simp [Link.text_eq, stripPrefix]
  · simp [Link.text_eq]
  · rw [CanonicalNode.share, tuicParams, List.map_cons, List.map_append, List.map_cons,
      insecureParams_pairs]
    cases rocket <;> rfl

/-- The range takes the place of the port, and reads back. -/
theorem says_hysteria2 (rocket : Bool) {host : String} (hhost : GoodHost host) (port : UInt16)
    (tlsServerName password : String) :
    Says rocket config (.hysteria2 host port tlsServerName password) := by
  have hgood := insecureParams_good config false tlsServerName
  have hpairs := insecureParams_pairs config false tlsServerName
  have hscheme : Uri.isScheme "hysteria2".toList = true := by decide
  have hname : ∀ c ∈ "sbctl-hysteria2".toList, Uri.isQueryChar c = true :=
    List.all_eq_true.mp (by decide)
  have hreadable {port : List Char} (hport : port.all Uri.isPortChar = true) :
      Link.Readable ⟨"hysteria2", percentEncode password, host, port, "",
        insecureParams (insecureFlag config) false tlsServerName, "sbctl-hysteria2"⟩ :=
    ⟨hscheme, Uri.valid_percentEncode (fun _ => isUserChar_of_isUnreserved) password,
      hhost.wellFormed, hhost.text, hport, .inl rfl, ⟨List.cons_ne_nil _ _, hgood⟩, hname⟩
  have hother (port : List Char) : stripPrefix "vmess://".toList (Link.parts ⟨"hysteria2",
      percentEncode password, host, port, "",
        insecureParams (insecureFlag config) false tlsServerName, "sbctl-hysteria2"⟩).text =
          none := by
    simp [Link.text_eq, stripPrefix]
  have hcredentials := credential_encoded (by decide : "hysteria2".toList ≠ "tuic".toList) password
  have hport := isPortChar_decimal port.toNat
  refine ⟨Uri.notMem_text (hreadable hport).wellFormed (.inl rfl), ?_⟩
  change ((hopStep config ((Link.parts ⟨"hysteria2", percentEncode password, host,
    decimal port.toNat, "", insecureParams (insecureFlag config) false tlsServerName,
      "sbctl-hysteria2"⟩).text ++ ['\n'])).bind fun line => readShare (stripLineEnd line)) = _
  unfold hopStep
  cases hhop : config.hysteria2PortHopping with
  | none =>
    simp only [Option.bind_some]
    rw [readShare_link (hreadable hport) (hother _) hcredentials (readDial_decimal port), hpairs]
    simp only [CanonicalNode.share, dialOf, hhop]
  | some hop =>
    have hquestion : '?' ∉ (uriHost host).toList := by
      rw [← uriHostPart_text]
      exact Uri.notMem_host hhost.wellFormed (.inr (.inr (.inl rfl)))
    have hstep := hopLine_hysteria2 hop (Link.mk "hysteria2" (percentEncode password) host
      (decimal port.toNat) "" (insecureParams (insecureFlag config) false tlsServerName)
        "sbctl-hysteria2") rfl rfl (notMem_percentEncode (by decide) (by decide) password)
          hquestion ⟨_, rfl⟩
    simp only [hstep, Option.bind_some]
    rw [readShare_link (hreadable (isPortChar_range hop)) (hother _) hcredentials
      (readDial_range hop), hpairs]
    simp only [CanonicalNode.share, dialOf, hhop]

/-! ## VMess links -/

theorem vmessFields_eq (config : DeploymentConfig) (host : String) (port : UInt16)
    (uuid tlsServerName path : String) :
    vmessFields "sbctl-vmess-websocket" host port uuid tlsServerName path (insecureFlag config) =
      vmessPairs config.skipsVerification host port tlsServerName uuid path := by
  unfold vmessFields vmessPairs insecureFlag DeploymentConfig.skipsVerification
  by_cases hmode : config.certificateMode = .selfSigned <;>
    simp [hmode, KeyOrder.sortKeys, KeyOrder.Before, KeyOrder.precedes]

def stringFields (fields : List (String × String)) : Json :=
  .obj (fields.map fun (key, value) => (key, .str value))

theorem readFields_stringFields (fields : List (String × String)) :
    readFields (stringFields fields) = some fields := by
  have hall : fields.mapM (fun field => some field) = some (fields.map id) :=
    Traverse.mapM_eq_some_map.mpr fun _ _ => rfl
  rw [List.map_id] at hall
  unfold readFields stringFields
  simp only [List.mapM_map]
  exact hall

/-- Strings by key, in the compact layout. -/
theorem print_stringFields {fields : List (String × String)} (hne : fields ≠ []) :
    Json.print Json.compact 0 (stringFields fields) =
      Json.openBrace :: (join ',' (fields.map fun (key, value) =>
        Json.printString key ++ ':' :: Json.printString value) ++ [Json.closeBrace]) := by
  have hentries : Json.printEntries Json.compact 1
      (fields.map fun (key, value) => (key, .str value)) =
        join ',' (fields.map fun (key, value) =>
          Json.printString key ++ ':' :: Json.printString value) := by
    induction fields with
    | nil => rfl
    | cons field fields ih =>
      cases fields with
      | nil => simp [join, Json.printEntries, Json.print, Json.compact]
      | cons next fields =>
        have hrest := ih (List.cons_ne_nil _ _)
        simp only [List.map_cons] at hrest ⊢
        rw [join, Json.printEntries, hrest]
        · simp [Json.print, Json.compact]
        · exact List.cons_ne_nil _ _
        · exact List.cons_ne_nil _ _
  cases fields with
  | nil => exact absurd rfl hne
  | cons field fields =>
    rw [← hentries, stringFields, List.map_cons, Json.print]
    · simp [Json.compact]
    · exact List.cons_ne_nil _ _

theorem printable_stringFields (fields : List (String × String)) :
    Json.Printable (stringFields fields) := by
  refine .obj fun entry hentry => ?_
  obtain ⟨field, -, rfl⟩ := List.mem_map.mp hentry
  exact .str field.2

theorem vmessPayload_eq (config : DeploymentConfig) (host : String) (port : UInt16)
    (uuid tlsServerName path : String) :
    vmessPayload "sbctl-vmess-websocket" host port uuid tlsServerName path (insecureFlag config) =
      Json.print Json.compact 0 (stringFields
        (vmessPairs config.skipsVerification host port tlsServerName uuid path)) := by
  have hne : vmessPairs config.skipsVerification host port tlsServerName uuid path ≠ [] := by
    simp [vmessPairs]
  rw [print_stringFields hne, vmessPayload, vmessFields_eq]

/-- A VMess line reads back as its fields, the host among them. -/
theorem readVmess_payload (rocket : Bool) (config : DeploymentConfig) (host : String) (port : UInt16)
    (uuid tlsServerName path : String) :
    readVmess (Base64.encode .standard (bytes (String.ofList (vmessPayload "sbctl-vmess-websocket"
      host port uuid tlsServerName path (insecureFlag config))))) =
        some ((CanonicalNode.vmessWebsocket host port tlsServerName uuid path).share rocket
          config) := by
  have hport := readPort_decimal port
  have hlookup : ∀ fields, fields = vmessPairs config.skipsVerification host port tlsServerName
      uuid path → fields.lookup "id" = some uuid ∧ fields.lookup "add" = some host ∧
        fields.lookup "port" = some (String.ofList (decimal port.toNat)) ∧
        fields.lookup "path" = some path ∧
        fields.lookup "ps" = some "sbctl-vmess-websocket" := by
    rintro _ rfl
    unfold vmessPairs
    cases config.skipsVerification <;> simp [List.lookup_cons]
  obtain ⟨hid, hadd, hportField, hpath, hname⟩ := hlookup _ rfl
  rw [readVmess, Base64.decode_encode, vmessPayload_eq]
  simp only [Option.bind_eq_bind, Option.bind_some, fromUtf8_bytes, String.toList_ofList,
    Json.parse_print (printable_stringFields _), readFields_stringFields, hid, hadd, hportField,
    hpath, hname, hport, Option.pure_def, CanonicalNode.share]

theorem readShare_vmess (payload : List Char) :
    readShare ("vmess://".toList ++ payload) = readVmess payload := by
  rw [readShare, stripPrefix_append]

theorem vmessText_line {c : Char} (hc : c = '\n' ∨ c = '\r') (encoded : List UInt8) :
    c ∉ "vmess://".toList ++ Base64.encode .standard encoded := by
  rw [List.mem_append, not_or]
  refine ⟨?_, fun hmem => ?_⟩
  · rcases hc with rfl | rfl <;> decide
  · have hsymbol := Base64.isSymbol_of_mem _ hmem
    rcases hc with rfl | rfl <;> revert hsymbol <;> decide

theorem hopStep_vmess (config : DeploymentConfig) (payload : List Char) :
    hopStep config ("vmess://".toList ++ payload) = some ("vmess://".toList ++ payload) := by
  unfold hopStep
  split
  · rfl
  · refine hopLine_other (c := 'v') ?_ (by decide)
    simp

/-- The line of a VMess node says what a node says whose host has the brackets. -/
theorem readShare_vmessText (rocket : Bool) (host : String) (port : UInt16)
    (tlsServerName uuid path : String) {text : List Char}
    (htext : text = lineText rocket (insecureFlag config)
      (.vmessWebsocket host port tlsServerName uuid path)) :
    '\n' ∉ text ∧ hopStep config (text ++ ['\n']) = some (text ++ ['\n']) ∧
      readShare (stripLineEnd (text ++ ['\n'])) = some ((CanonicalNode.vmessWebsocket
        (uriHost host) port tlsServerName uuid path).share rocket config) := by
  obtain ⟨encoded, hencoded⟩ : ∃ encoded, encoded = bytes (String.ofList (vmessPayload
      "sbctl-vmess-websocket" (uriHost host) port uuid tlsServerName path (insecureFlag config))) :=
    ⟨_, rfl⟩
  have hline : text = "vmess://".toList ++ Base64.encode .standard encoded := by
    rw [htext, hencoded]
    rfl
  have hread := readVmess_payload rocket config (uriHost host) port uuid tlsServerName path
  rw [← hencoded] at hread
  have hreturn : ("vmess://".toList ++ Base64.encode .standard encoded).getLast? ≠ some '\r' :=
    fun hlast => vmessText_line (.inr rfl) encoded (List.mem_of_getLast? hlast)
  rw [hline]
  refine ⟨vmessText_line (.inl rfl) encoded, ?_, ?_⟩
  · rw [List.append_assoc, hopStep_vmess]
  · rw [stripLineEnd_line hreturn, readShare_vmess, hread]

/-- The line says what the node says if the host needs no brackets. -/
theorem says_vmess_iff (rocket : Bool) (host : String) (port : UInt16)
    (tlsServerName uuid path : String) :
    Says rocket config (.vmessWebsocket host port tlsServerName uuid path) ↔ uriHost host = host := by
  obtain ⟨hfeed, hstep, hread⟩ :=
    @readShare_vmessText config rocket host port tlsServerName uuid path _ rfl
  rw [Says, hstep, Option.bind_some, hread]
  constructor
  · rintro ⟨-, h⟩
    exact congrArg Share.host (Option.some.inj h)
  · intro h
    rw [h]
    exact ⟨hfeed, rfl⟩

/-! ## VLESS links, which are not escaped -/

/-- A text that stands in the user information as it is. -/
def PlainUser (value : String) : Prop := ∀ c ∈ value.toList, Uri.isUserChar c = true

instance (value : String) : Decidable (PlainUser value) :=
  decidable_of_iff (value.toList.all Uri.isUserChar = true) List.all_eq_true

def vlessLink (host : String) (port : UInt16) (uuid publicKey shortId decoySni : String) : Link :=
  { scheme := "vless", user := uuid.toList, host, port := decimal port.toNat, path := "",
    params := vlessParams decoySni publicKey shortId, name := "sbctl-vless-reality" }

theorem says_vless (rocket : Bool) {host : String} (hhost : GoodHost host) (port : UInt16)
    (name privateKey : String) {uuid publicKey shortId : String} (decoySni : String)
    (huuid : PlainUser uuid) (hkey : PlainParam publicKey) (hid : PlainParam shortId) :
    Says rocket config (.vlessReality host port name uuid privateKey publicKey shortId decoySni) := by
  have hscheme : Uri.isScheme "vless".toList = true := by decide
  have hname : ∀ c ∈ "sbctl-vless-reality".toList, Uri.isQueryChar c = true :=
    List.all_eq_true.mp (by decide)
  have hpercent : '%' ∉ uuid.toList := fun hmem => absurd (huuid _ hmem) (by decide)
  have hcredentials : readCredentials "vless".toList uuid.toList = some [uuid] := by
    rw [readCredentials, if_neg (by decide), decodeText_literal hpercent, String.ofList_toList]
    rfl
  have hgood : ∀ param ∈ vlessParams decoySni publicKey shortId, GoodParam param := by
    simp only [vlessParams, List.forall_mem_cons, List.not_mem_nil, false_implies, implies_true,
      and_true]
    exact ⟨goodParam_literal (by decide) (by decide), goodParam_literal (by decide) (by decide),
      goodParam_literal (by decide) (by decide), goodParam_escaped (by decide) decoySni,
      goodParam_literal (by decide) (by decide), goodParam_literal (by decide) hkey,
      goodParam_literal (by decide) hid, goodParam_literal (by decide) (by decide)⟩
  refine says_link (vlessLink host port uuid publicKey shortId decoySni) rfl ?_ ?_
    ⟨'v', ?_, by decide⟩ hcredentials (readDial_decimal port) rfl
  · exact ⟨hscheme, Uri.valid_literal huuid (by decide), hhost.wellFormed, hhost.text,
      isPortChar_decimal _, .inl rfl, ⟨List.cons_ne_nil _ _, hgood⟩, hname⟩
  · simp [Link.text_eq, vlessLink, stripPrefix]
  · simp [Link.text_eq, vlessLink]

/-- What is read of a link whose line reads as the share of its node. -/
theorem read_of_saying {node : CanonicalNode} {link : Link}
    (htext : lineText rocket (insecureFlag config) node = link.parts.text)
    (hlast : link.parts.text.getLast? ≠ some '\r')
    (hscheme : stripPrefix "vmess://".toList link.parts.text = none)
    (hhead : link.parts.text.head? = some 'v') (h : Says rocket config node) :
    ∃ uri, Uri.read link.parts.text = some uri ∧ readParts uri = some (node.share rocket config) := by
  have hstep : hopStep config (link.parts.text ++ ['\n']) = some (link.parts.text ++ ['\n']) := by
    unfold hopStep
    split
    · rfl
    · refine hopLine_other (c := 'v') ?_ (by decide)
      rw [List.head?_append, hhead]
      rfl
  obtain ⟨-, hread⟩ := h
  rw [htext, hstep, Option.bind_some, stripLineEnd_line hlast, readShare, hscheme] at hread
  exact Option.bind_eq_some_iff.mp hread

theorem readParts_eq_some {uri : Uri.Parts} {share : Share} (h : readParts uri = some share) :
    ∃ user query, uri.userinfo = some user ∧
      readCredentials uri.scheme user = some share.credentials ∧ uri.query = some query ∧
      Uri.params query = some share.params ∧ String.ofList uri.scheme = share.scheme ∧
      uri.port.bind readDial = some share.dial := by
  unfold readParts at h
  simp only [Option.bind_eq_bind, Option.bind_eq_some_iff, Option.pure_def, Option.some.injEq] at h
  obtain ⟨user, huser, credentials, hcredentials, -, -, port, hport, dial, hdial, -, -, query,
    hquery, params, hparams, -, -, -, -, rfl⟩ := h
  refine ⟨user, query, huser, hcredentials, hquery, hparams, rfl, ?_⟩
  rw [hport, Option.bind_some, hdial]

/-- A line that says what its VLESS node says has no text that needs escapes. -/
theorem plain_of_saying {host : String} (hhost : GoodHost host) {port : UInt16}
    {name uuid privateKey publicKey shortId decoySni : String}
    (h : Says rocket config
      (.vlessReality host port name uuid privateKey publicKey shortId decoySni)) :
    PlainUser uuid ∧ PlainParam publicKey ∧ PlainParam shortId := by
  obtain ⟨link, hlink⟩ : ∃ link, link = vlessLink host port uuid publicKey shortId decoySni :=
    ⟨_, rfl⟩
  have htext := Link.text_eq link
  have hlast : link.parts.text.getLast? ≠ some '\r' := by
    rw [htext, hlink]
    simp [vlessLink, List.getLast?_append, List.getLast?_cons]
  have hscheme : stripPrefix "vmess://".toList link.parts.text = none := by
    rw [htext, hlink]
    simp [vlessLink, stripPrefix]
  have hhead : link.parts.text.head? = some 'v' := by
    rw [htext, hlink]
    simp [vlessLink]
  obtain ⟨uri, hread, hparts⟩ := read_of_saying (by rw [hlink]; rfl) hlast hscheme hhead h
  obtain ⟨user, query, huser, hcredentials, hquery, hparams, huriScheme, -⟩ :=
    readParts_eq_some hparts
  have hvless : uri.scheme = "vless".toList := by
    have := congrArg String.toList huriScheme
    rwa [String.toList_ofList] at this
  have hdecode : decodeText user = some (String.ofList uuid.toList) := by
    rw [hvless, readCredentials, if_neg (by decide)] at hcredentials
    obtain ⟨credential, hcredential, hlist⟩ := Option.map_eq_some_iff.mp hcredentials
    cases hlist
    rw [String.ofList_toList, hcredential]
  have hclear : '?' ∉ (uriHost host).toList ++ ':' :: decimal port.toNat := by
    rw [List.mem_append, List.mem_cons, not_or, not_or, ← uriHostPart_text]
    exact ⟨Uri.notMem_host hhost.wellFormed (.inr (.inr (.inl rfl))), by decide,
      notMem_toDigits (by decide)⟩
  have hwhole : link.parts.text = "vless".toList ++ ':' :: '/' :: '/' :: (uuid.toList ++ '@' ::
      ((uriHost host).toList ++ ':' :: decimal port.toNat ++ '?' ::
        (Uri.queryText (vlessParams decoySni publicKey shortId) ++
          '#' :: "sbctl-vless-reality".toList))) := by
    rw [htext, hlink]
    simp [vlessLink]
  rw [hwhole] at hread
  obtain ⟨huuid, hvalid, hbegins⟩ :=
    Uri.read_unescaped hread hvless huser hdecode hclear hquery
  have hplain {name value : String} (hname : Uri.PlainName name) :
      (literalParam name value).Written := ⟨hname, .inr rfl⟩
  have hsni : Uri.PlainName "sni" := by decide
  have hescaped : (escapedParam "sni" decoySni).Written :=
    ⟨hsni, .inl (notMem_percentEncode (by decide) (by decide) decoySni)⟩
  have hwritten : ∀ param ∈ vlessParams decoySni publicKey shortId, param.Written := by
    simp only [vlessParams, List.forall_mem_cons, List.not_mem_nil, false_implies, implies_true,
      and_true]
    exact ⟨hplain (by decide), hplain (by decide), hplain (by decide), hescaped,
      hplain (by decide), hplain (by decide), hplain (by decide), hplain (by decide)⟩
  have hliteral := Uri.literal_of_params hwritten hvalid hparams hbegins
  refine ⟨huuid, ?_, ?_⟩
  · exact hliteral (literalParam "pbk" publicKey) (by simp [vlessParams, List.dropLast]) rfl
  · exact hliteral (literalParam "sid" shortId) (by simp [vlessParams, List.dropLast]) rfl

theorem says_vless_iff (rocket : Bool) {host : String} (hhost : GoodHost host) (port : UInt16)
    (name uuid privateKey publicKey shortId decoySni : String) :
    Says rocket config
        (.vlessReality host port name uuid privateKey publicKey shortId decoySni) ↔
      PlainUser uuid ∧ PlainParam publicKey ∧ PlainParam shortId :=
  ⟨plain_of_saying hhost, fun ⟨huuid, hkey, hid⟩ =>
    says_vless rocket hhost port name privateKey decoySni huuid hkey hid⟩

end

/-! ## The lists of an accepted configuration -/

def readShadowrocket (body : List Char) : Option (List Share) := do
  let encoded ← Base64.decode .standard body
  let text ← fromUtf8 encoded
  readShares text.toList

/-- Both lists of a deployment say exactly its nodes, one line for each. -/
def LinksDecode (lib : Libraries) (x25519 : List UInt8 → List UInt8) (config : DeploymentConfig) :
    Prop :=
  ∃ nodes plain rocket, config.nodes lib x25519 = some nodes ∧ uri config nodes = some plain ∧
    shadowrocket config nodes = some rocket ∧
    readShares plain = some (nodes.map (CanonicalNode.share false config)) ∧
    readShadowrocket rocket = some (nodes.map (CanonicalNode.share true config))

/-- A key of 32 bytes, from which the public key is computed. -/
def PrivateKeyDecodes (privateKey : String) : Prop :=
  ∃ scalar, Base64.decode .urlSafe privateKey.toList = some scalar ∧ scalar.length = 32

/-- The texts that are written without escapes need none: the VLESS user, key and
short identifier. A VMess node dials no IPv6 address. -/
structure LinksPlain (config : DeploymentConfig) : Prop where
  vless : .vlessReality ∈ config.enabledProtocols → ∀ node ∈ config.vlessReality,
    PlainUser node.uuid ∧ PlainParam node.shortId ∧
      (PrivateKeyDecodes node.privateKey ∨ PlainParam node.publicKey)
  vmess : .vmessWebsocket ∈ config.enabledProtocols →
    ∀ groups, IpText.parse config.nodeHost ≠ some (.v6 groups)

/-- The symbols of the alphabet for URLs stand in a query as they are. -/
theorem plain_urlSafe {c : Char} (h : Base64.isSymbol .urlSafe c = true) :
    Uri.isQueryChar c = true ∧ c ≠ '&' := by
  simp only [Base64.isSymbol, Base64.Alphabet.padded, Bool.and_false, Bool.false_or,
    Option.isSome_iff_exists] at h
  obtain ⟨n, hn⟩ := h
  have hunreserved : isUnreserved c = true := by
    unfold Base64.Alphabet.value at hn
    split at hn
    · rename_i hrange
      simp [isUnreserved, isAsciiAlphanumeric, hrange.1, hrange.2]
    · split at hn
      · rename_i hrange
        simp [isUnreserved, isAsciiAlphanumeric, hrange.1, hrange.2]
      · split at hn
        · rename_i hrange
          simp [isUnreserved, isAsciiAlphanumeric, hrange.1, hrange.2]
        · simp only at hn
          split at hn
          · rename_i hc
            rw [hc]
            decide
          · split at hn
            · rename_i hc
              rw [hc]
              decide
            · cases hn
  refine ⟨isQueryChar_of_isUnreserved hunreserved, ?_⟩
  rintro rfl
  revert hunreserved
  decide

theorem plainParam_publicKey (x25519 : List UInt8 → List UInt8) (privateKey fallback : String) :
    PlainParam (vlessPublicKeyFromPrivate x25519 privateKey fallback) ↔
      PrivateKeyDecodes privateKey ∨ PlainParam fallback := by
  unfold vlessPublicKeyFromPrivate PrivateKeyDecodes
  cases hdecode : Base64.decode .urlSafe privateKey.toList with
  | none => simp
  | some scalar =>
    by_cases hlength : scalar.length = 32
    · simp only [Option.filter_some, hlength, decide_true, if_true]
      refine ⟨fun _ => .inl ⟨scalar, rfl, hlength⟩, fun _ c hc => ?_⟩
      rw [String.toList_ofList] at hc
      exact plain_urlSafe (Base64.isSymbol_of_mem _ hc)
    · simp only [Option.filter_some, hlength, decide_false, Bool.false_eq_true, if_false]
      refine ⟨.inr, fun h => ?_⟩
      rcases h with ⟨scalar', hscalar, hlength'⟩ | h
      · cases hscalar
        exact absurd hlength' hlength
      · exact h

theorem uriHost_eq_iff (host : String) :
    uriHost host = host ↔ ∀ groups, IpText.parse host ≠ some (.v6 groups) := by
  unfold uriHost
  constructor
  · intro h groups hv6
    rw [hv6] at h
    have hlength := congrArg (fun s => s.toList.length) h
    simp only [String.toList_ofList, List.length_cons, List.length_append] at hlength
    omega
  · intro h
    split
    · rename_i groups hv6
      exact absurd hv6 (h groups)
    · rfl

section
variable {lib : Libraries} {x25519 : List UInt8 → List UInt8} {config : DeploymentConfig}

/-- What each node of an accepted configuration needs. -/
theorem says_node_iff (hread : lib.ReadsAddresses) (h : Accepted lib config) (rocket : Bool)
    {protocol : ManagedProtocol} {node : CanonicalNode}
    (hnode : config.node lib x25519 protocol = some node) :
    Says rocket config node ↔
      (protocol = .vlessReality → ∀ node ∈ config.vlessReality,
        PlainUser node.uuid ∧ PlainParam node.shortId ∧
          (PrivateKeyDecodes node.privateKey ∨ PlainParam node.publicKey)) ∧
      (protocol = .vmessWebsocket →
        ∀ groups, IpText.parse config.nodeHost ≠ some (.v6 groups)) := by
  have hhost := goodHost_nodeHost hread h
  cases protocol with
  | vlessReality =>
    simp only [DeploymentConfig.node, Option.bind_eq_bind, Option.bind_eq_some_iff,
      Option.pure_def, Option.some.injEq] at hnode
    obtain ⟨credentials, hcredentials, decoySni, -, rfl⟩ := hnode
    rw [says_vless_iff rocket hhost, plainParam_publicKey, hcredentials]
    simp only [Option.mem_def, Option.some.injEq, forall_eq', true_implies, reduceCtorEq,
      false_implies, and_true]
    tauto
  | vmessWebsocket =>
    simp only [DeploymentConfig.node, Option.bind_eq_bind, Option.bind_eq_some_iff,
      Option.pure_def, Option.some.injEq] at hnode
    obtain ⟨credentials, -, rfl⟩ := hnode
    rw [says_vmess_iff, uriHost_eq_iff]
    simp
  | hysteria2 =>
    simp only [DeploymentConfig.node, Option.bind_eq_bind, Option.bind_eq_some_iff,
      Option.pure_def, Option.some.injEq] at hnode
    obtain ⟨credentials, -, rfl⟩ := hnode
    simp [says_hysteria2 rocket hhost]
  | tuic =>
    simp only [DeploymentConfig.node, Option.bind_eq_bind, Option.bind_eq_some_iff,
      Option.pure_def, Option.some.injEq] at hnode
    obtain ⟨credentials, -, rfl⟩ := hnode
    simp [says_tuic rocket hhost]
  | anytls =>
    simp only [DeploymentConfig.node, Option.bind_eq_bind, Option.bind_eq_some_iff,
      Option.pure_def, Option.some.injEq] at hnode
    obtain ⟨credentials, -, rfl⟩ := hnode
    simp [says_anytls rocket hhost]

theorem says_nodes_iff (hread : lib.ReadsAddresses) (h : Accepted lib config) (rocket : Bool)
    {nodes : List CanonicalNode} (hnodes : config.nodes lib x25519 = some nodes) :
    (∀ node ∈ nodes, Says rocket config node) ↔ LinksPlain config := by
  constructor
  · intro hall
    have hsays {protocol : ManagedProtocol} (henabled : protocol ∈ config.enabledProtocols) :
        ∃ node, config.node lib x25519 protocol = some node ∧ Says rocket config node := by
      obtain ⟨node, hmem, hnode⟩ := Traverse.exists_of_mapM hnodes henabled
      exact ⟨node, hnode, hall node hmem⟩
    refine ⟨fun henabled => ?_, fun henabled => ?_⟩
    · obtain ⟨node, hnode, hnodeSays⟩ := hsays henabled
      exact ((says_node_iff hread h rocket hnode).mp hnodeSays).1 rfl
    · obtain ⟨node, hnode, hnodeSays⟩ := hsays henabled
      exact ((says_node_iff hread h rocket hnode).mp hnodeSays).2 rfl
  · intro hplain node hmem
    obtain ⟨henabled, -, hnode⟩ := mem_nodes hnodes hmem
    refine (says_node_iff hread h rocket hnode).mpr ⟨fun hprotocol => ?_, fun hprotocol => ?_⟩
    · exact hplain.vless (hprotocol ▸ henabled)
    · exact hplain.vmess (hprotocol ▸ henabled)

theorem readShadowrocket_base64 (text : List Char) :
    readShadowrocket (base64Uri text) = readShares text := by
  rw [readShadowrocket, base64Uri, Base64.decode_encode]
  simp only [Option.bind_eq_bind, Option.bind_some, fromUtf8_bytes, String.toList_ofList]

/-- Each list on its own. -/
theorem list_decodes_iff (hread : lib.ReadsAddresses) (h : Accepted lib config) (rocket : Bool)
    {nodes : List CanonicalNode} (hnodes : config.nodes lib x25519 = some nodes) :
    (∃ text, hoppingUris config ((nodes.map CanonicalNode.withBracketedHost).flatMap
        (lineOf rocket (insecureFlag config))) = some text ∧
      readShares text = some (nodes.map (CanonicalNode.share rocket config))) ↔
        LinksPlain config := by
  rw [← says_nodes_iff hread h rocket hnodes, ← readShares_iff, Option.bind_eq_some_iff]

/-- The links of an accepted deployment decode to exactly their nodes if and only
if what is written without escapes needs none. -/
theorem links_decode_iff (hread : lib.ReadsAddresses) (h : Accepted lib config) :
    LinksDecode lib x25519 config ↔ LinksPlain config := by
  obtain ⟨nodes, hnodes⟩ := Option.isSome_iff_exists.mp (@nodes_isSome lib x25519 config h)
  have hplain := list_decodes_iff hread h false hnodes
  have hrocket := list_decodes_iff hread h true hnodes
  constructor
  · rintro ⟨nodes', plain, -, hnodes', huri, -, hshares, -⟩
    rw [hnodes] at hnodes'
    cases hnodes'
    exact hplain.mp ⟨plain, huri, hshares⟩
  · intro hlinks
    obtain ⟨plain, huri, hshares⟩ := hplain.mpr hlinks
    obtain ⟨rocket, hrocketUri, hrocketShares⟩ := hrocket.mpr hlinks
    refine ⟨nodes, plain, base64Uri rocket, hnodes, huri, ?_, hshares, ?_⟩
    · exact congrArg (Option.map base64Uri) hrocketUri
    · rw [readShadowrocket_base64, hrocketShares]

end

/-! ## Samples -/

/-- The sample libraries, with addresses read as they are. -/
def addressLibraries : Libraries :=
  { sampleLibraries with isIpAddr := fun s => (IpText.parse s).isSome }

/-- A deployment on an IPv4 address with a hopping range and a self-signed
certificate. -/
def sharedConfig : DeploymentConfig :=
  { sampleConfig with
    subscriptionMode := .ipFallback
    subscriptionHost := "203.0.113.7"
    httpPort := some 2080
    certificateMode := .selfSigned
    enabledProtocols := [.vlessReality, .hysteria2]
    realityDecoySni := some "www.example.com"
    hysteria2PortHopping := some ⟨30000, 30100, 30⟩
    vlessReality := some ⟨20001, "8f7d-11", "private", "public", "0123abcd"⟩
    hysteria2 := some ⟨20000, "pa:ss@word/?#&=+% "⟩ }

theorem sharedConfig_accepted : Accepted addressLibraries sharedConfig := by
  unfold Accepted
  decide

theorem sharedConfig_plain : LinksPlain sharedConfig where
  vless _ node hnode := by
    cases hnode
    exact ⟨by decide, by decide, .inr (by decide)⟩
  vmess henabled := absurd henabled (by decide)

theorem links_decode_iff_hopping : Accepted addressLibraries sharedConfig ∧
    LinksDecode addressLibraries id sharedConfig :=
  ⟨sharedConfig_accepted,
    (links_decode_iff (fun _ => rfl) sharedConfig_accepted).mpr sharedConfig_plain⟩

/-- A VMess deployment on an IPv6 address. -/
def sixConfig : DeploymentConfig :=
  { sampleConfig with
    subscriptionMode := .ipFallback
    subscriptionHost := "2001:db8::1"
    httpPort := some 2080
    certificateMode := .selfSigned
    enabledProtocols := [.vmessWebsocket]
    vmessWebsocket := some ⟨20001, "8f7d-11", "/path"⟩
    hysteria2 := none }

/-- A VLESS user with a line of its own. -/
def twoLineConfig : DeploymentConfig :=
  { sharedConfig with vlessReality := some ⟨20001, "8f7d\n11", "private", "public", "0123abcd"⟩ }

theorem sixConfig_accepted : Accepted addressLibraries sixConfig := by
  unfold Accepted
  decide

theorem twoLineConfig_accepted : Accepted addressLibraries twoLineConfig := by
  unfold Accepted
  decide

theorem not_linksDecode {config : DeploymentConfig} (h : Accepted addressLibraries config)
    (hnot : ¬ LinksPlain config) : ¬ LinksDecode addressLibraries id config := by
  rintro ⟨nodes, plain, -, hnodes, huri, -, hshares, -⟩
  exact hnot ((list_decodes_iff (fun _ => rfl) h false hnodes).mp ⟨plain, huri, hshares⟩)

/-- The `add` field of a VMess link holds brackets, and a VLESS user may add a
line. -/
theorem unescaped_links_misread :
    (Accepted addressLibraries sixConfig ∧ ¬ LinksDecode addressLibraries id sixConfig) ∧
      Accepted addressLibraries twoLineConfig ∧
        ¬ LinksDecode addressLibraries id twoLineConfig := by
  have hsix : IpText.parse "2001:db8::1" = some (.v6 [0x2001, 0xdb8, 0, 0, 0, 0, 0, 1]) := by
    decide +kernel
  refine ⟨⟨sixConfig_accepted, not_linksDecode sixConfig_accepted fun h => ?_⟩,
    twoLineConfig_accepted, not_linksDecode twoLineConfig_accepted fun h => ?_⟩
  · exact h.vmess (by decide) _ hsix
  · have huser := (h.vless (by decide) _ rfl).1
    exact absurd (huser '\n' (by decide)) (by decide)

end Sbctl
