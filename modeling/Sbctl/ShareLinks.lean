import Sbctl.Canonical
import Sbctl.Lib.JsonText
import Sbctl.Lib.KeyOrder
import Sbctl.Lib.Lines
import Sbctl.Lib.Uri

/-!
# Share links

The list of links a client imports, one line for each node, and the same list in
the form Shadowrocket reads. A hopping range replaces the port of the Hysteria2
links in the finished text.

* `nodeUri_eq`, `rocketUri_eq`: a link is a URI with its parameters;
* `hopLine_text`: the range takes the place of the port.
-/

namespace Sbctl

open Text
open Uri (queryText queryText_cons)

def decimal (n : Nat) : List Char := Nat.toDigits 10 n

def PortHopping.range (hop : PortHopping) : List Char :=
  decimal hop.start.toNat ++ '-' :: decimal hop.«end».toNat

/-- Whether clients skip the verification of certificates. -/
def insecureFlag (config : DeploymentConfig) : Nat :=
  if config.certificateMode = .selfSigned then 1 else 0

/-- Importers disagree on the name of the flag. -/
def certVerifyAliases (insecure : Nat) (tuic : Bool) : List Char :=
  match insecure != 0, tuic with
  | true, true => "&allowInsecure=1&allow_insecure=1".toList
  | true, false => "&allowInsecure=1".toList
  | false, _ => []

/-! ## VMess -/

def vmessFields (tag host : String) (port : UInt16) (uuid tlsServerName path : String)
    (insecure : Nat) : List (String × String) :=
  let fields := [("v", "2"), ("ps", tag), ("add", host), ("port", String.ofList (decimal port.toNat)),
    ("id", uuid), ("aid", "0"), ("scy", "auto"), ("net", "ws"), ("type", "none"),
    ("host", tlsServerName), ("path", path), ("tls", "tls"), ("sni", tlsServerName)]
  let fields :=
    if insecure ≠ 0 then fields ++ [("insecure", "1"), ("allowInsecure", "1")] else fields
  KeyOrder.sortKeys fields

/-- The entries with a comma between any two. -/
def vmessPayload (tag host : String) (port : UInt16) (uuid tlsServerName path : String)
    (insecure : Nat) : List Char :=
  let body := join ',' ((vmessFields tag host port uuid tlsServerName path insecure).map
    fun (key, value) => Json.printString key ++ ':' :: Json.printString value)
  Json.openBrace :: (body ++ [Json.closeBrace])

def vmessUri (tag host : String) (port : UInt16) (uuid tlsServerName path : String)
    (insecure : Nat) : List Char :=
  "vmess://".toList ++ Base64.encode .standard (bytes (String.ofList
    (vmessPayload tag host port uuid tlsServerName path insecure))) ++ ['\n']

/-! ## One line for each node -/

/-- The parts of a link: user information, host and port, the query and the
name, and the line feed. -/
def linkLine (scheme : String) (user : List Char) (host : String) (port : UInt16) (path : String)
    (query : List Char) (tag : String) : List Char :=
  scheme.toList ++ "://".toList ++ user ++ "@".toList ++ host.toList ++ ":".toList ++
    decimal port.toNat ++ path.toList ++ "?".toList ++ query ++ "#".toList ++ tag.toList ++ ['\n']

def vlessUri (tag host : String) (port : UInt16) (uuid publicKey shortId decoySni : String) :
    List Char :=
  linkLine "vless" uuid.toList host port ""
    ("encryption=none&flow=xtls-rprx-vision&security=reality&sni=".toList ++
      percentEncode decoySni ++ "&fp=chrome&pbk=".toList ++ publicKey.toList ++ "&sid=".toList ++
      shortId.toList ++ "&type=tcp".toList) tag

/-- The link of a node whose host is ready for a URI, with its line feed. -/
def nodeUri (insecure : Nat) (node : CanonicalNode) : List Char :=
  let aliases := certVerifyAliases insecure false
  let tuicAliases := certVerifyAliases insecure true
  match node with
  | .vlessReality host port _ uuid _ publicKey shortId decoySni =>
    vlessUri node.tag host port uuid publicKey shortId decoySni
  | .vmessWebsocket host port tlsServerName uuid path =>
    vmessUri node.tag host port uuid tlsServerName path insecure
  | .hysteria2 host port tlsServerName password =>
    linkLine "hysteria2" (percentEncode password) host port ""
      ("insecure=".toList ++ decimal insecure ++ aliases ++ "&sni=".toList ++
        percentEncode tlsServerName) node.tag
  | .tuic host port tlsServerName uuid password =>
    linkLine "tuic" (percentEncode uuid ++ ":".toList ++ percentEncode password) host port ""
      ("congestion_control=bbr&alpn=h3&insecure=".toList ++ decimal insecure ++ tuicAliases ++
        "&sni=".toList ++ percentEncode tlsServerName) node.tag
  | .anytls host port tlsServerName password =>
    linkLine "anytls" (percentEncode password) host port ""
      ("security=tls&insecure=".toList ++ decimal insecure ++ aliases ++ "&sni=".toList ++
        percentEncode tlsServerName) node.tag

/-- The line Shadowrocket reads: TUIC names its relay mode, AnyTLS has a path. -/
def rocketUri (insecure : Nat) (node : CanonicalNode) : List Char :=
  let aliases := certVerifyAliases insecure false
  let tuicAliases := certVerifyAliases insecure true
  match node with
  | .vlessReality host port _ uuid _ publicKey shortId decoySni =>
    vlessUri node.tag host port uuid publicKey shortId decoySni
  | .vmessWebsocket host port tlsServerName uuid path =>
    vmessUri node.tag host port uuid tlsServerName path insecure
  | .hysteria2 host port tlsServerName password =>
    linkLine "hysteria2" (percentEncode password) host port ""
      ("insecure=".toList ++ decimal insecure ++ aliases ++ "&sni=".toList ++
        percentEncode tlsServerName) node.tag
  | .tuic host port tlsServerName uuid password =>
    linkLine "tuic" (percentEncode uuid ++ ":".toList ++ percentEncode password) host port ""
      ("congestion_control=bbr&udp_relay_mode=native&alpn=h3&insecure=".toList ++
        decimal insecure ++ tuicAliases ++ "&sni=".toList ++ percentEncode tlsServerName) node.tag
  | .anytls host port tlsServerName password =>
    linkLine "anytls" (percentEncode password) host port "/"
      ("insecure=".toList ++ decimal insecure ++ aliases ++ "&sni=".toList ++
        percentEncode tlsServerName) node.tag

/-! ## The hopping range -/

/-- The line with the range in place of the port, where it is a Hysteria2 link.
A line without a query or a port has none. -/
def hopLine (hop : PortHopping) (line : List Char) : Option (List Char) :=
  if startsWith line "hysteria2://".toList then do
    let (authority, query) ← splitOnce '?' line
    let (host, _) ← rsplitOnce ':' authority
    return host ++ ":".toList ++ hop.range ++ "?".toList ++ query
  else some line

def hoppingUris (config : DeploymentConfig) (uris : List Char) : Option (List Char) :=
  match config.hysteria2PortHopping with
  | none => some uris
  | some hop => ((splitInclusive '\n' uris).mapM (hopLine hop)).map List.flatten

def uri (config : DeploymentConfig) (nodes : List CanonicalNode) : Option (List Char) :=
  hoppingUris config ((nodes.map CanonicalNode.withBracketedHost).flatMap
    (nodeUri (insecureFlag config)))

def base64Uri (uri : List Char) : List Char := Base64.encode .standard (bytes (String.ofList uri))

def shadowrocket (config : DeploymentConfig) (nodes : List CanonicalNode) : Option (List Char) :=
  (hoppingUris config ((nodes.map CanonicalNode.withBracketedHost).flatMap
    (rocketUri (insecureFlag config)))).map base64Uri

/-! ## A link is a URI -/

/-- The host of a URI: an IPv6 address in brackets, or the host as it is. -/
def uriHostPart (host : String) : Uri.Host :=
  match IpText.parse host with
  | some (.v6 _) => .literal host.toList
  | _ => .name host.toList

theorem uriHostPart_text (host : String) : (uriHostPart host).text = (uriHost host).toList := by
  unfold uriHostPart uriHost
  cases IpText.parse host with
  | none => rfl
  | some address => cases address <;> simp [Uri.Host.text]

def escapedParam (name value : String) : Uri.Param := ⟨name, percentEncode value, value⟩
def literalParam (name value : String) : Uri.Param := ⟨name, value.toList, value⟩

def verifyParams (insecure : Nat) (tuic : Bool) : List Uri.Param :=
  match insecure != 0, tuic with
  | true, true => [literalParam "allowInsecure" "1", literalParam "allow_insecure" "1"]
  | true, false => [literalParam "allowInsecure" "1"]
  | false, _ => []

/-- Whether a certificate is verified, as parameters. -/
def insecureParams (insecure : Nat) (tuic : Bool) (tlsServerName : String) : List Uri.Param :=
  literalParam "insecure" (String.ofList (decimal insecure)) ::
    (verifyParams insecure tuic ++ [escapedParam "sni" tlsServerName])

def vlessParams (decoySni publicKey shortId : String) : List Uri.Param :=
  [literalParam "encryption" "none", literalParam "flow" "xtls-rprx-vision",
    literalParam "security" "reality", escapedParam "sni" decoySni, literalParam "fp" "chrome",
    literalParam "pbk" publicKey, literalParam "sid" shortId, literalParam "type" "tcp"]

def tuicParams (rocket : Bool) (insecure : Nat) (tlsServerName : String) : List Uri.Param :=
  literalParam "congestion_control" "bbr" ::
    ((if rocket then [literalParam "udp_relay_mode" "native"] else []) ++
      literalParam "alpn" "h3" :: insecureParams insecure true tlsServerName)

def anytlsParams (rocket : Bool) (insecure : Nat) (tlsServerName : String) : List Uri.Param :=
  (if rocket then [] else [literalParam "security" "tls"]) ++
    insecureParams insecure false tlsServerName

/-- What a link is made of. -/
structure Link where
  scheme : String
  user : List Char
  host : String
  port : List Char
  path : String
  params : List Uri.Param
  name : String

def Link.parts (link : Link) : Uri.Parts where
  scheme := link.scheme.toList
  userinfo := some link.user
  host := uriHostPart link.host
  port := some link.port
  path := link.path.toList
  query := some (queryText link.params)
  fragment := some link.name.toList

/-- The link of a node that is no VMess node. -/
def CanonicalNode.link (rocket : Bool) (insecure : Nat) : CanonicalNode → Option Link
  | .vlessReality host port _ uuid _ publicKey shortId decoySni =>
    some { scheme := "vless", user := uuid.toList, host, port := decimal port.toNat, path := "",
           params := vlessParams decoySni publicKey shortId, name := "sbctl-vless-reality" }
  | .vmessWebsocket .. => none
  | .hysteria2 host port tlsServerName password =>
    some { scheme := "hysteria2", user := percentEncode password, host,
           port := decimal port.toNat, path := "",
           params := insecureParams insecure false tlsServerName, name := "sbctl-hysteria2" }
  | .tuic host port tlsServerName uuid password =>
    some { scheme := "tuic", user := percentEncode uuid ++ ':' :: percentEncode password, host,
           port := decimal port.toNat, path := "",
           params := tuicParams rocket insecure tlsServerName, name := "sbctl-tuic" }
  | .anytls host port tlsServerName password =>
    some { scheme := "anytls", user := percentEncode password, host, port := decimal port.toNat,
           path := if rocket then "/" else "",
           params := anytlsParams rocket insecure tlsServerName, name := "sbctl-anytls" }

/-- The line of a node, in either list. -/
def lineOf (rocket : Bool) (insecure : Nat) (node : CanonicalNode) : List Char :=
  if rocket then rocketUri insecure node else nodeUri insecure node

theorem linkLine_text (scheme : String) (user : List Char) (host : String) (port : UInt16)
    (path : String) (params : List Uri.Param) (tag : String) :
    linkLine scheme user (uriHost host) port path (queryText params) tag =
      (Link.parts ⟨scheme, user, host, decimal port.toNat, path, params, tag⟩).text ++ ['\n'] := by
  simp [linkLine, Link.parts, Uri.Parts.text, Uri.Parts.authority, uriHostPart_text]

section
variable (insecure : Nat) (tuic rocket : Bool) (tlsServerName : String)

theorem insecureParams_text : queryText (insecureParams insecure tuic tlsServerName) =
    "insecure=".toList ++ decimal insecure ++ certVerifyAliases insecure tuic ++ "&sni=".toList ++
      percentEncode tlsServerName := by
  unfold insecureParams verifyParams certVerifyAliases
  cases insecure != 0 <;> cases tuic <;>
    simp [queryText, Uri.Param.text, Uri.paramText, literalParam, escapedParam, join]

theorem vlessParams_text (decoySni publicKey shortId : String) :
    queryText (vlessParams decoySni publicKey shortId) =
      "encryption=none&flow=xtls-rprx-vision&security=reality&sni=".toList ++
        percentEncode decoySni ++ "&fp=chrome&pbk=".toList ++ publicKey.toList ++ "&sid=".toList ++
        shortId.toList ++ "&type=tcp".toList := by
  simp [queryText, vlessParams, Uri.Param.text, Uri.paramText, literalParam, escapedParam, join]

theorem tuicParams_text : queryText (tuicParams rocket insecure tlsServerName) =
    (if rocket then "congestion_control=bbr&udp_relay_mode=native&alpn=h3&insecure=".toList
      else "congestion_control=bbr&alpn=h3&insecure=".toList) ++ decimal insecure ++
      certVerifyAliases insecure true ++ "&sni=".toList ++ percentEncode tlsServerName := by
  have hne : insecureParams insecure true tlsServerName ≠ [] := List.cons_ne_nil _ _
  unfold tuicParams
  cases rocket
  · rw [if_neg Bool.false_ne_true, if_neg Bool.false_ne_true, List.nil_append,
      queryText_cons _ (List.cons_ne_nil _ _), queryText_cons _ hne, insecureParams_text]
    simp [Uri.Param.text, Uri.paramText, literalParam]
  · rw [if_pos rfl, if_pos rfl, List.singleton_append, queryText_cons _ (List.cons_ne_nil _ _),
      queryText_cons _ (List.cons_ne_nil _ _), queryText_cons _ hne, insecureParams_text]
    simp [Uri.Param.text, Uri.paramText, literalParam]

theorem anytlsParams_text : queryText (anytlsParams rocket insecure tlsServerName) =
    (if rocket then "insecure=".toList else "security=tls&insecure=".toList) ++ decimal insecure ++
      certVerifyAliases insecure false ++ "&sni=".toList ++ percentEncode tlsServerName := by
  have hne : insecureParams insecure false tlsServerName ≠ [] := List.cons_ne_nil _ _
  unfold anytlsParams
  cases rocket
  · rw [if_neg Bool.false_ne_true, if_neg Bool.false_ne_true, List.singleton_append,
      queryText_cons _ hne, insecureParams_text]
    simp [Uri.Param.text, Uri.paramText, literalParam]
  · rw [if_pos rfl, if_pos rfl, List.nil_append, insecureParams_text]

end

/-- The line of a node is its URI and a line feed. -/
theorem lineOf_link {rocket : Bool} {insecure : Nat} {node : CanonicalNode} {link : Link}
    (h : node.link rocket insecure = some link) :
    lineOf rocket insecure node.withBracketedHost = link.parts.text ++ ['\n'] := by
  cases node with
  | vlessReality host port name uuid privateKey publicKey shortId decoySni =>
    obtain rfl := Option.some.inj h
    rw [← linkLine_text, vlessParams_text]
    cases rocket <;> rfl
  | vmessWebsocket => cases h
  | hysteria2 host port name password =>
    obtain rfl := Option.some.inj h
    rw [← linkLine_text, insecureParams_text]
    cases rocket <;> rfl
  | tuic host port name uuid password =>
    obtain rfl := Option.some.inj h
    rw [← linkLine_text, tuicParams_text]
    cases rocket <;> simp [lineOf, nodeUri, rocketUri, CanonicalNode.withBracketedHost,
      CanonicalNode.withHost, CanonicalNode.host, CanonicalNode.tag]
  | anytls host port name password =>
    obtain rfl := Option.some.inj h
    rw [← linkLine_text, anytlsParams_text]
    cases rocket <;> rfl

/-! ## Hopping, line by line -/

/-- A line stays a line. -/
theorem hopLine_line {hop : PortHopping} {line hopped : List Char} (hline : '\n' ∉ line)
    (h : hopLine hop (line ++ ['\n']) = some hopped) :
    ∃ body, hopped = body ++ ['\n'] ∧ '\n' ∉ body := by
  unfold hopLine at h
  split at h
  · simp only [Option.bind_eq_bind, Option.bind_eq_some_iff, Prod.exists] at h
    obtain ⟨authority, query, hquery, host, port, hhost, h⟩ := h
    obtain ⟨-, hsplit⟩ := splitOnce_eq_some hquery
    have hauthority := rsplitOnce_eq_some hhost
    -- the line feed is the last character of the query
    have hlast : query.getLast? = some '\n' := by
      have hend : (line ++ ['\n']).getLast? = some '\n' := by simp
      rw [hsplit, List.getLast?_append_of_ne_nil _ (List.cons_ne_nil _ _)] at hend
      cases query with
      | nil => cases hend
      | cons c query => rwa [List.getLast?_cons_cons] at hend
    have hbody := List.dropLast_append_getLast? '\n' hlast
    have hlines : line = host ++ ':' :: (port ++ '?' :: query.dropLast) := by
      have hwhole : line ++ ['\n'] =
          host ++ ':' :: (port ++ '?' :: query.dropLast) ++ ['\n'] := by
        rw [hsplit, hauthority, ← hbody]
        simp
      exact List.append_cancel_right hwhole
    have hrange : '\n' ∉ hop.range := by
      simp only [PortHopping.range, List.mem_append, List.mem_cons, not_or]
      exact ⟨notMem_toDigits (by decide), by decide, notMem_toDigits (by decide)⟩
    refine ⟨host ++ ":".toList ++ hop.range ++ "?".toList ++ query.dropLast, ?_, ?_⟩
    · cases h
      rw [List.append_assoc _ query.dropLast, hbody]
    · rw [hlines] at hline
      simp only [List.mem_append, List.mem_cons, not_or] at hline ⊢
      exact ⟨⟨⟨⟨hline.1, by decide⟩, hrange⟩, by decide⟩, hline.2.2.2.2⟩
  · cases h
    exact ⟨line, rfl, hline⟩

/-- The text of a link up to its query. -/
theorem Link.text_eq (link : Link) : link.parts.text =
    link.scheme.toList ++ "://".toList ++ link.user ++ "@".toList ++ (uriHost link.host).toList ++
      ':' :: (link.port ++ link.path.toList) ++
        '?' :: (queryText link.params ++ '#' :: link.name.toList) := by
  simp [parts, Uri.Parts.text, Uri.Parts.authority, uriHostPart_text]

/-- The range takes the place of the port. -/
theorem hopLine_hysteria2 (hop : PortHopping) (link : Link) (hscheme : link.scheme = "hysteria2")
    (hpath : link.path = "") (huser : '?' ∉ link.user) (hhost : '?' ∉ (uriHost link.host).toList)
    (hport : ∃ n, link.port = decimal n) :
    hopLine hop (link.parts.text ++ ['\n']) =
      some ((Link.parts { link with port := hop.range }).text ++ ['\n']) := by
  obtain ⟨n, hport⟩ := hport
  have hauthority : '?' ∉ link.scheme.toList ++ "://".toList ++ link.user ++ "@".toList ++
      (uriHost link.host).toList ++ ':' :: link.port := by
    rw [hscheme, hport]
    simp only [List.mem_append, List.mem_cons, not_or]
    exact ⟨⟨⟨⟨⟨by decide, by decide⟩, huser⟩, by decide⟩, hhost⟩, by decide,
      notMem_toDigits (by decide)⟩
  have hcolon : ':' ∉ link.port := by
    rw [hport]
    exact notMem_toDigits (by decide)
  have hstarts : startsWith (link.parts.text ++ ['\n']) "hysteria2://".toList = true := by
    have hpre : "hysteria2://".toList = link.scheme.toList ++ "://".toList := by
      rw [hscheme]
      decide
    rw [startsWith, Link.text_eq, hpre]
    simp only [List.append_assoc]
    rw [← List.append_assoc, stripPrefix_append]
    rfl
  have hline : link.parts.text ++ ['\n'] = link.scheme.toList ++ "://".toList ++ link.user ++
      "@".toList ++ (uriHost link.host).toList ++ ':' :: link.port ++
        '?' :: (queryText link.params ++ '#' :: link.name.toList ++ ['\n']) := by
    simp [Link.text_eq, hpath]
  rw [hopLine, if_pos hstarts, hline]
  simp only [splitOnce_append hauthority, rsplitOnce_append hcolon, Option.bind_eq_bind,
    Option.bind_some]
  simp [Link.text_eq, hpath]

theorem hopLine_other {hop : PortHopping} {line : List Char} {c : Char} (hhead : line.head? = some c)
    (hc : c ≠ 'h') : hopLine hop line = some line := by
  cases line with
  | nil => cases hhead
  | cons d line =>
    cases hhead
    have hne : 'h' ≠ c := Ne.symm hc
    have hstarts : startsWith (c :: line) "hysteria2://".toList = false := by
      simp [startsWith, stripPrefix, hne]
    rw [hopLine, hstarts, if_neg Bool.false_ne_true]

end Sbctl
