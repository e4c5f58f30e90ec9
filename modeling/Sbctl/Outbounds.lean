import Sbctl.Lib.Json
import Sbctl.Serve
import Sbctl.ShareReading

/-!
# The nodes in client profiles

Each renderer of client profiles spells the canonical nodes in its own format:
outbounds of sing-box, merged with a template in its full profile, and proxies of
mihomo. Read back, all of them say the same of a node.

* `artifact_names`: every profile names the nodes its clients know, with the
  host, credentials and policy of each and no other ports than its own.
-/

namespace Json

def asBool? : Json → Option Bool
  | .bool b => some b
  | _ => none

def text? (v : Json) (path : Path) : Option String := (v.at? path).bind asStr?

def nat? (v : Json) (path : Path) : Option Nat := (v.at? path).bind (asNat? Machine.maxU64)

/-- A flag that is off where it is missing. -/
def flag (v : Json) (path : Path) : Bool := ((v.at? path).bind asBool?).getD false

end Json

namespace Sbctl

open Text Assoc
open Json (number)

abbrev Entries := List (String × Json)

/-! ## sing-box outbounds -/

/-- The outbound of a node that listens on one port. -/
def plainOutbound (skipVerify : Bool) : CanonicalNode → Entries
  | .vlessReality host port _ uuid _ publicKey shortId decoySni =>
    [("type", .str "vless"), ("tag", .str "sbctl-vless-reality"), ("server", .str host),
      ("server_port", number port.toNat), ("uuid", .str uuid), ("flow", .str "xtls-rprx-vision"),
      ("tls", .obj [("enabled", .bool true), ("server_name", .str decoySni),
        ("utls", .obj [("enabled", .bool true), ("fingerprint", .str "chrome")]),
        ("reality", .obj [("enabled", .bool true), ("public_key", .str publicKey),
          ("short_id", .str shortId)])])]
  | .vmessWebsocket host port tlsServerName uuid path =>
    [("type", .str "vmess"), ("tag", .str "sbctl-vmess-websocket"), ("server", .str host),
      ("server_port", number port.toNat), ("uuid", .str uuid), ("security", .str "auto"),
      ("alter_id", number 0), ("transport", .obj [("type", .str "ws"), ("path", .str path)]),
      ("tls", .obj [("enabled", .bool true), ("server_name", .str tlsServerName),
        ("insecure", .bool skipVerify)])]
  | .hysteria2 host port tlsServerName password =>
    [("type", .str "hysteria2"), ("tag", .str "sbctl-hysteria2"), ("server", .str host),
      ("server_port", number port.toNat), ("password", .str password),
      ("tls", .obj [("enabled", .bool true), ("server_name", .str tlsServerName),
        ("insecure", .bool skipVerify), ("alpn", .arr [.str "h3"])])]
  | .tuic host port tlsServerName uuid password =>
    [("type", .str "tuic"), ("tag", .str "sbctl-tuic"), ("server", .str host),
      ("server_port", number port.toNat), ("uuid", .str uuid), ("password", .str password),
      ("congestion_control", .str "bbr"), ("udp_relay_mode", .str "native"),
      ("tls", .obj [("enabled", .bool true), ("server_name", .str tlsServerName),
        ("insecure", .bool skipVerify), ("alpn", .arr [.str "h3"])])]
  | .anytls host port tlsServerName password =>
    [("type", .str "anytls"), ("tag", .str "sbctl-anytls"), ("server", .str host),
      ("server_port", number port.toNat), ("password", .str password),
      ("idle_session_check_interval", .str "30s"), ("idle_session_timeout", .str "30s"),
      ("min_idle_session", number 5),
      ("tls", .obj [("enabled", .bool true), ("server_name", .str tlsServerName),
        ("insecure", .bool skipVerify)])]

def hopPorts (hop : PortHopping) : String :=
  String.ofList (decimal hop.start.toNat ++ ':' :: decimal hop.«end».toNat)

/-- The range a node is dialled on, where it hops. -/
def hoppingOf (config : DeploymentConfig) (node : CanonicalNode) : Option PortHopping :=
  if node.protocol = .hysteria2 then config.hysteria2PortHopping else none

/-- The outbound of a node; a hopping range replaces its port. -/
def clientOutbound (config : DeploymentConfig) (node : CanonicalNode) : Entries :=
  let outbound := plainOutbound config.skipsVerification node
  match hoppingOf config node with
  | some hop =>
    put "hop_interval" (.str (String.ofList (decimal hop.intervalSeconds.toNat ++ ['s'])))
      (put "server_ports" (.arr [.str (hopPorts hop)]) (remove "server_port" outbound))
  | none => outbound

def clientOutbounds (config : DeploymentConfig) (nodes : List CanonicalNode) : List Entries :=
  nodes.map (clientOutbound config)

/-! ## Versioned profiles -/

def typeOf (entry : Entries) : Option String := (entry.lookup "type").bind Json.asStr?

/-- Cores before 1.11 dial one port: that of the credentials. -/
def profileOutbound (config : DeploymentConfig) (profile : SingBoxVersionProfile)
    (outbound : Entries) : Option Entries :=
  if profile.version.minor < 11 ∧ typeOf outbound = some "hysteria2" then
    config.hysteria2.map fun credentials =>
      put "server_port" (number credentials.listenPort.toNat)
        (remove "hop_interval" (remove "server_ports" outbound))
  else some outbound

def profileOutbounds (config : DeploymentConfig) (nodes : List CanonicalNode)
    (profile : SingBoxVersionProfile) : Option (List Entries) :=
  (clientOutbounds config nodes).mapM (profileOutbound config profile)

/-- The nodes among the outbounds of the reviewed template. -/
def templateOutbounds : List Entries :=
  [[("type", .str "vless"), ("tag", .str "node-01-vless-reality"),
      ("server", .str "YOUR-SERVER.example.com"), ("server_port", number 443),
      ("uuid", .str "00000000-0000-0000-0000-000000000000"), ("flow", .str "xtls-rprx-vision"),
      ("tls", .obj [("enabled", .bool true), ("server_name", .str "YOUR-CAMOUFLAGE.example.com"),
        ("utls", .obj [("enabled", .bool true), ("fingerprint", .str "chrome")]),
        ("reality", .obj [("enabled", .bool true),
          ("public_key", .str "AAAAAAAAAAAAAAAAAAAAAAAAAAAAAAAAAAAAAAAAAAA"),
          ("short_id", .str "0123456789abcdef")])])],
    [("type", .str "vmess"), ("tag", .str "node-02-vmess-ws"),
      ("server", .str "YOUR-SERVER.example.com"), ("server_port", number 443),
      ("uuid", .str "00000000-0000-0000-0000-000000000000"), ("security", .str "auto"),
      ("alter_id", number 0),
      ("tls", .obj [("enabled", .bool true), ("server_name", .str "YOUR-SNI.example.com")]),
      ("transport", .obj [("type", .str "ws"), ("path", .str "/YOUR-WS-PATH"),
        ("headers", .obj [("Host", .str "YOUR-SNI.example.com")])])],
    [("type", .str "hysteria2"), ("tag", .str "node-03-hysteria2"),
      ("server", .str "YOUR-SERVER.example.com"), ("server_port", number 443),
      ("password", .str "YOUR-PASSWORD"),
      ("tls", .obj [("enabled", .bool true), ("server_name", .str "YOUR-SNI.example.com")]),
      ("up_mbps", number 50), ("down_mbps", number 200)],
    [("type", .str "tuic"), ("tag", .str "node-04-tuic"),
      ("server", .str "YOUR-SERVER.example.com"), ("server_port", number 443),
      ("uuid", .str "00000000-0000-0000-0000-000000000000"), ("password", .str "YOUR-PASSWORD"),
      ("congestion_control", .str "bbr"),
      ("tls", .obj [("enabled", .bool true), ("server_name", .str "YOUR-SNI.example.com"),
        ("alpn", .arr [.str "h3"])])],
    [("type", .str "direct"), ("tag", .str "DIRECT")]]

/-- The transport of a VMess node with the server name in its headers. -/
def withHostHeader (node : Entries) : Entries :=
  let serverName := ((Json.obj node).at? [.key "tls", .key "server_name"]).getD .null
  let headers := Json.obj [("Host", serverName)]
  match node.lookup "transport" with
  | some (.obj transport) => put "transport" (.obj (put "headers" headers transport)) node
  | _ => put "transport" (.obj [("headers", headers)]) node

/-- The live values over those of the template's outbound of the same type. -/
def mergedOutbound (live : Entries) : Entries :=
  let base := (templateOutbounds.find? fun entry => typeOf entry == typeOf live).getD []
  let node := live.foldl (fun node (key, field) => put key field node) base
  let node := if (live.lookup "server_ports").isSome then remove "server_port" node else node
  if typeOf node = some "vmess" then withHostHeader node else node

/-- The nodes of a full profile; a core that lacks AnyTLS is given the others. -/
def fullOutbounds (config : DeploymentConfig) (nodes : List CanonicalNode)
    (profile : SingBoxVersionProfile) : Option (List Entries) :=
  let compatible := nodes.filter fun node =>
    profile.supportsAnytls || node.protocol ≠ .anytls
  if compatible = [] then none
  else match config.clientTemplate with
    | .standard | .compact =>
      (profileOutbounds config compatible profile).map (·.map mergedOutbound)
    | .global | .split => profileOutbounds config compatible profile

/-! ## mihomo proxies -/

def plainProxy (skip : Bool) : CanonicalNode → Entries
  | .vlessReality host port _ uuid _ publicKey shortId decoySni =>
    [("name", .str "sbctl-vless-reality"), ("type", .str "vless"), ("server", .str host),
      ("port", number port.toNat), ("uuid", .str uuid), ("network", .str "tcp"),
      ("udp", .bool true), ("flow", .str "xtls-rprx-vision"), ("tls", .bool true),
      ("servername", .str decoySni), ("client-fingerprint", .str "chrome"),
      ("reality-opts", .obj [("public-key", .str publicKey), ("short-id", .str shortId)])]
  | .vmessWebsocket host port tlsServerName uuid path =>
    [("name", .str "sbctl-vmess-websocket"), ("type", .str "vmess"), ("server", .str host),
      ("port", number port.toNat), ("uuid", .str uuid), ("alterId", number 0),
      ("cipher", .str "auto"), ("tls", .bool true), ("servername", .str tlsServerName),
      ("skip-cert-verify", .bool skip), ("network", .str "ws"),
      ("ws-opts", .obj [("path", .str path), ("headers", .obj [("Host", .str tlsServerName)])])]
  | .hysteria2 host port tlsServerName password =>
    [("name", .str "sbctl-hysteria2"), ("type", .str "hysteria2"), ("server", .str host),
      ("port", number port.toNat), ("password", .str password), ("sni", .str tlsServerName),
      ("skip-cert-verify", .bool skip), ("up", .str "50 Mbps"), ("down", .str "200 Mbps")]
  | .tuic host port tlsServerName uuid password =>
    [("name", .str "sbctl-tuic"), ("type", .str "tuic"), ("server", .str host),
      ("port", number port.toNat), ("uuid", .str uuid), ("password", .str password),
      ("sni", .str tlsServerName), ("alpn", .arr [.str "h3"]), ("skip-cert-verify", .bool skip)]
  | .anytls host port tlsServerName password =>
    [("name", .str "sbctl-anytls"), ("type", .str "anytls"), ("server", .str host),
      ("port", number port.toNat), ("password", .str password),
      ("client-fingerprint", .str "chrome"), ("udp", .bool true),
      ("idle-session-check-interval", number 30), ("idle-session-timeout", number 30),
      ("tls", .bool true), ("sni", .str tlsServerName), ("skip-cert-verify", .bool skip)]

/-- The proxy of a node; a hopping range stands beside its port. -/
def clashProxy (config : DeploymentConfig) (node : CanonicalNode) : Entries :=
  let proxy := plainProxy config.skipsVerification node
  match hoppingOf config node with
  | some hop =>
    put "hop-interval" (number hop.intervalSeconds.toNat)
      (put "ports" (.str (String.ofList hop.range)) proxy)
  | none => proxy

def clashProxies (config : DeploymentConfig) (nodes : List CanonicalNode) : List Entries :=
  nodes.map (clashProxy config)

/-- The proxies of the artifact for mihomo 1.18, which has no AnyTLS. -/
def clashLegacyProxies (config : DeploymentConfig) (nodes : List CanonicalNode) : List Entries :=
  clashProxies config (nodes.filter fun node => node.protocol ≠ .anytls)

/-! ## Reading a profile -/

/-- What an artifact says of a node. -/
structure Endpoint where
  protocol : ManagedProtocol
  host : String
  dials : List Dial
  credentials : List String
  serverName : String
  skipsVerification : Bool
  deriving DecidableEq

def readRange (sep : Char) (text : String) : Option Dial := do
  let (first, last) ← splitOnce sep text.toList
  return .range (← readPort first) (← readPort last)

/-- The ports sing-box dials: one port, or the ranges of a list. -/
def outboundDials (v : Json) : List Dial :=
  ((v.nat? [.key "server_port"]).toList.map .port) ++
    match v.at? [.key "server_ports"] with
    | some (.arr items) => items.filterMap fun item => item.asStr?.bind (readRange ':')
    | _ => []

def protocolOfType : String → Option ManagedProtocol
  | "vless" => some .vlessReality
  | "vmess" => some .vmessWebsocket
  | "hysteria2" => some .hysteria2
  | "tuic" => some .tuic
  | "anytls" => some .anytls
  | _ => none

/-- Where an outbound has the credentials of its protocol. -/
def outboundCredentials : ManagedProtocol → List Json.Path
  | .vlessReality => [[.key "uuid"], [.key "tls", .key "reality", .key "public_key"],
      [.key "tls", .key "reality", .key "short_id"]]
  | .vmessWebsocket => [[.key "uuid"], [.key "transport", .key "path"]]
  | .tuic => [[.key "uuid"], [.key "password"]]
  | .hysteria2 | .anytls => [[.key "password"]]

def readOutbound (v : Json) : Option Endpoint := do
  let protocol ← (v.text? [.key "type"]).bind protocolOfType
  let host ← v.text? [.key "server"]
  let credentials ← (outboundCredentials protocol).mapM v.text?
  let serverName ← v.text? [.key "tls", .key "server_name"]
  return { protocol, host, credentials, serverName, dials := outboundDials v,
           skipsVerification := v.flag [.key "tls", .key "insecure"] }

/-- mihomo keeps the single port beside the range. -/
def proxyDials (v : Json) : List Dial :=
  ((v.nat? [.key "port"]).toList.map .port) ++
    ((v.text? [.key "ports"]).bind (readRange '-')).toList

def proxyCredentials : ManagedProtocol → List Json.Path
  | .vlessReality => [[.key "uuid"], [.key "reality-opts", .key "public-key"],
      [.key "reality-opts", .key "short-id"]]
  | .vmessWebsocket => [[.key "uuid"], [.key "ws-opts", .key "path"]]
  | .tuic => [[.key "uuid"], [.key "password"]]
  | .hysteria2 | .anytls => [[.key "password"]]

/-- Proxies over TLS of their own name the server under another key. -/
def proxyServerName : ManagedProtocol → Json.Path
  | .vlessReality | .vmessWebsocket => [.key "servername"]
  | .hysteria2 | .tuic | .anytls => [.key "sni"]

def readProxy (v : Json) : Option Endpoint := do
  let protocol ← (v.text? [.key "type"]).bind protocolOfType
  let host ← v.text? [.key "server"]
  let credentials ← (proxyCredentials protocol).mapM v.text?
  let serverName ← v.text? (proxyServerName protocol)
  return { protocol, host, credentials, serverName, dials := proxyDials v,
           skipsVerification := v.flag [.key "skip-cert-verify"] }

/-- The profiles of some nodes, each as the endpoints it names. -/
inductive Artifact (config : DeploymentConfig) (nodes : List CanonicalNode) :
    List (Option Endpoint) → Prop
  | singBox :
    Artifact config nodes
      ((clientOutbounds config nodes).map fun entry => readOutbound (.obj entry))
  | full {profile : SingBoxVersionProfile} {outbounds : List Entries} :
    fullOutbounds config nodes profile = some outbounds →
      Artifact config nodes (outbounds.map fun entry => readOutbound (.obj entry))
  | clash :
    Artifact config nodes ((clashProxies config nodes).map fun entry => readProxy (.obj entry))
  | clashLegacy :
    Artifact config nodes
      ((clashLegacyProxies config nodes).map fun entry => readProxy (.obj entry))

/-! ## What is read -/

namespace CanonicalNode

def credentials : CanonicalNode → List String
  | vlessReality _ _ _ uuid _ publicKey shortId _ => [uuid, publicKey, shortId]
  | vmessWebsocket _ _ _ uuid path => [uuid, path]
  | hysteria2 _ _ _ password => [password]
  | tuic _ _ _ uuid password => [uuid, password]
  | anytls _ _ _ password => [password]

/-- The node as a client has to know it. Reality has no certificate to verify. -/
def endpoint (node : CanonicalNode) (config : DeploymentConfig) (dials : List Dial) : Endpoint where
  protocol := node.protocol
  host := node.host
  dials := dials
  credentials := node.credentials
  serverName := node.sni
  skipsVerification := node.protocol ≠ .vlessReality ∧ config.skipsVerification

end CanonicalNode

/-- What a client dials for a node. -/
def nodeDial (config : DeploymentConfig) (node : CanonicalNode) : Dial :=
  match hoppingOf config node with
  | some hop => .range hop.start.toNat hop.«end».toNat
  | none => .port node.port.toNat

/-- What a core of a version dials. -/
def profileDial (config : DeploymentConfig) (profile : SingBoxVersionProfile)
    (node : CanonicalNode) : Dial :=
  if profile.version.minor < 11 ∧ node.protocol = .hysteria2 then .port node.port.toNat
  else nodeDial config node

/-- What mihomo dials: the port, and the range beside it. -/
def proxyDial (config : DeploymentConfig) (node : CanonicalNode) : List Dial :=
  .port node.port.toNat ::
    match hoppingOf config node with
    | some hop => [.range hop.start.toNat hop.«end».toNat]
    | none => []

section
variable {config : DeploymentConfig} {node : CanonicalNode}

theorem asNat_port (port : UInt16) :
    (number port.toNat).asNat? Machine.maxU64 = some port.toNat := by
  have hport := port.toNat_lt
  apply Json.asNat_number
  unfold Machine.maxU64
  omega

theorem readRange_text {sep : Char} (hsep : sep.isDigit = false) (hop : PortHopping) :
    readRange sep (String.ofList (decimal hop.start.toNat ++ sep :: decimal hop.«end».toNat)) =
      some (.range hop.start.toNat hop.«end».toNat) := by
  have hfirst : sep ∉ decimal hop.start.toNat := notMem_toDigits hsep
  rw [readRange, String.toList_ofList, splitOnce_append hfirst]
  simp only [Option.bind_eq_bind, Option.bind_some, readPort_decimal, Option.pure_def]

/-- Only a Hysteria2 node hops. -/
theorem hoppingOf_some {hop : PortHopping} (h : hoppingOf config node = some hop) :
    node.protocol = .hysteria2 ∧ config.hysteria2PortHopping = some hop := by
  unfold hoppingOf at h
  split at h
  · rename_i hprotocol
    exact ⟨hprotocol, h⟩
  · exact absurd h (by simp)

section
attribute [local simp] readOutbound readProxy outboundDials proxyDials proxyCredentials
  proxyServerName outboundCredentials protocolOfType Json.text?
  Json.nat? Json.flag Json.at? Json.asStr? Json.asBool? lookup_cons_ite lookup_put lookup_remove
  asNat_port CanonicalNode.endpoint CanonicalNode.credentials CanonicalNode.protocol
  CanonicalNode.host CanonicalNode.port CanonicalNode.sni CanonicalNode.tlsServerName

/-- The outbound of a node, read back. -/
theorem clientOutbound_read :
    readOutbound (.obj (clientOutbound config node)) =
      some (node.endpoint config [nodeDial config node]) := by
  unfold clientOutbound nodeDial
  cases hhop : hoppingOf config node with
  | none => cases node <;> simp [plainOutbound]
  | some hop =>
    obtain ⟨hprotocol, -⟩ := hoppingOf_some hhop
    have hrange : readRange ':' (hopPorts hop) = some (.range hop.start.toNat hop.«end».toNat) :=
      readRange_text (by decide) hop
    cases node <;> simp only [CanonicalNode.protocol, reduceCtorEq] at hprotocol
    simp [plainOutbound, hrange]

/-- The live values win over those of the template. -/
theorem mergedOutbound_read :
    readOutbound (.obj (mergedOutbound (clientOutbound config node))) =
      some (node.endpoint config [nodeDial config node]) := by
  unfold clientOutbound nodeDial
  cases hhop : hoppingOf config node with
  | none =>
    cases node <;> simp [plainOutbound, mergedOutbound, templateOutbounds, typeOf, withHostHeader]
  | some hop =>
    obtain ⟨hprotocol, -⟩ := hoppingOf_some hhop
    have hrange : readRange ':' (hopPorts hop) = some (.range hop.start.toNat hop.«end».toNat) :=
      readRange_text (by decide) hop
    cases node <;> simp only [CanonicalNode.protocol, reduceCtorEq] at hprotocol
    simp [plainOutbound, mergedOutbound, templateOutbounds, typeOf, put, remove, hrange]

theorem typeOf_hysteria2 :
    typeOf (clientOutbound config node) = some "hysteria2" ↔ node.protocol = .hysteria2 := by
  unfold clientOutbound
  cases hoppingOf config node <;> cases node <;> simp [plainOutbound, typeOf]

/-- With its range taken away, an outbound dials the port of the credentials. -/
theorem profileOutbound_read (profile : SingBoxVersionProfile)
    (hport : config.protocolListenerPort node.protocol = some node.port) :
    ∃ outbound, profileOutbound config profile (clientOutbound config node) = some outbound ∧
      readOutbound (.obj outbound) = some (node.endpoint config [profileDial config profile node]) ∧
      readOutbound (.obj (mergedOutbound outbound)) =
        some (node.endpoint config [profileDial config profile node]) := by
  unfold profileOutbound profileDial
  simp only [typeOf_hysteria2]
  split
  · rename_i hold
    rw [hold.2] at hport
    obtain ⟨credentials, hsome, hlisten⟩ := Option.map_eq_some_iff.mp hport
    rw [hsome]
    refine ⟨_, rfl, ?_, ?_⟩ <;> cases hhop : hoppingOf config node <;>
      cases node <;> simp only [CanonicalNode.protocol, reduceCtorEq, and_false] at hold <;>
      simp [clientOutbound, hhop, plainOutbound, mergedOutbound, templateOutbounds, typeOf, put,
        remove, hlisten]
  · exact ⟨_, rfl, clientOutbound_read, mergedOutbound_read⟩

/-- A range stands beside the port of a proxy. -/
theorem clashProxy_read :
    readProxy (.obj (clashProxy config node)) =
      some (node.endpoint config (proxyDial config node)) := by
  unfold clashProxy proxyDial
  cases hhop : hoppingOf config node with
  | none => cases node <;> simp [plainProxy]
  | some hop =>
    obtain ⟨hprotocol, -⟩ := hoppingOf_some hhop
    have hrange : readRange '-' (String.ofList hop.range) =
        some (.range hop.start.toNat hop.«end».toNat) := readRange_text (by decide) hop
    cases node <;> simp only [CanonicalNode.protocol, reduceCtorEq] at hprotocol
    simp [plainProxy, hrange]

end

theorem port_of_node {lib : Libraries} {x25519 : List UInt8 → List UInt8}
    {protocol : ManagedProtocol} (h : config.node lib x25519 protocol = some node) :
    config.protocolListenerPort protocol = some node.port := by
  cases protocol <;>
    simp only [DeploymentConfig.node, Option.bind_eq_bind, Option.bind_eq_some_iff,
      Option.pure_def, Option.some.injEq] at h
  case vlessReality =>
    obtain ⟨credentials, hsome, _, -, rfl⟩ := h
    simp [DeploymentConfig.protocolListenerPort, DeploymentConfig.vlessPort, hsome,
      CanonicalNode.port]
  all_goals
    obtain ⟨credentials, hsome, rfl⟩ := h
    simp [DeploymentConfig.protocolListenerPort, DeploymentConfig.vmessPort,
      DeploymentConfig.hysteria2Port, DeploymentConfig.tuicPort, DeploymentConfig.anytlsPort, hsome,
      CanonicalNode.port]

/-- An entry names a node: all of it, and of ports no others than those it has. -/
def Names (config : DeploymentConfig) (node : CanonicalNode) (said : Option Endpoint) : Prop :=
  ∃ dials, said = some (node.endpoint config dials) ∧ dials ≠ [] ∧
    ∀ dial ∈ dials, dial = .port node.port.toNat ∨ dial = nodeDial config node

theorem names_profile (profile : SingBoxVersionProfile) :
    Names config node (some (node.endpoint config [profileDial config profile node])) := by
  refine ⟨_, rfl, by simp, ?_⟩
  intro dial hdial
  rw [List.mem_singleton.mp hdial, profileDial]
  split
  · exact .inl rfl
  · exact .inr rfl

theorem names_dial : Names config node (some (node.endpoint config [nodeDial config node])) :=
  ⟨_, rfl, by simp, fun _ hdial => .inr (List.mem_singleton.mp hdial)⟩

theorem names_proxy : Names config node (some (node.endpoint config (proxyDial config node))) := by
  refine ⟨_, rfl, by simp [proxyDial], ?_⟩
  intro dial hdial
  rcases List.mem_cons.mp hdial with rfl | hdial
  · exact .inl rfl
  · right
    unfold nodeDial
    cases hhop : hoppingOf config node with
    | none => simp [hhop] at hdial
    | some hop =>
      rw [hhop] at hdial
      exact List.mem_singleton.mp hdial

/-- A full profile has the nodes its core knows, if there are any. -/
theorem fullOutbounds_read {lib : Libraries} {x25519 : List UInt8 → List UInt8}
    {nodes : List CanonicalNode} (hnodes : config.nodes lib x25519 = some nodes)
    (profile : SingBoxVersionProfile) {kept : List CanonicalNode}
    (hkept : kept = nodes.filter fun node => profile.supportsAnytls || node.protocol ≠ .anytls)
    (hne : kept ≠ []) :
    ∃ outbounds, fullOutbounds config nodes profile = some outbounds ∧
      outbounds.map (fun entry => readOutbound (.obj entry)) =
        kept.map fun node => some (node.endpoint config [profileDial config profile node]) := by
  let profiled (node : CanonicalNode) : Entries :=
    (profileOutbound config profile (clientOutbound config node)).getD []
  have hprofiled : ∀ node ∈ kept,
      profileOutbound config profile (clientOutbound config node) = some (profiled node) ∧
        readOutbound (.obj (profiled node)) =
          some (node.endpoint config [profileDial config profile node]) ∧
        readOutbound (.obj (mergedOutbound (profiled node))) =
          some (node.endpoint config [profileDial config profile node]) := by
    intro node hnode
    rw [hkept] at hnode
    obtain ⟨-, -, hsource⟩ := mem_nodes hnodes (List.mem_filter.mp hnode).1
    obtain ⟨outbound, hout, hread, hmerged⟩ :=
      profileOutbound_read profile (port_of_node hsource)
    have heq : profiled node = outbound := by simp only [profiled, hout, Option.getD_some]
    rw [heq]
    exact ⟨hout, hread, hmerged⟩
  have hsome : profileOutbounds config kept profile = some (kept.map profiled) := by
    rw [profileOutbounds, clientOutbounds, List.mapM_map]
    exact Traverse.mapM_eq_some_map.mpr fun node hnode => (hprofiled node hnode).1
  have hfull : fullOutbounds config nodes profile =
      match config.clientTemplate with
      | .standard | .compact => some ((kept.map profiled).map mergedOutbound)
      | .global | .split => some (kept.map profiled) := by
    rw [fullOutbounds, ← hkept, if_neg hne, hsome]
    rfl
  have hplain : (kept.map profiled).map (fun entry => readOutbound (.obj entry)) =
      kept.map fun node => some (node.endpoint config [profileDial config profile node]) := by
    rw [List.map_map]
    exact List.map_congr_left fun node hnode => (hprofiled node hnode).2.1
  have hmerged : ((kept.map profiled).map mergedOutbound).map
      (fun entry => readOutbound (.obj entry)) =
      kept.map fun node => some (node.endpoint config [profileDial config profile node]) := by
    rw [List.map_map, List.map_map]
    exact List.map_congr_left fun node hnode => (hprofiled node hnode).2.2
  rw [hfull]
  cases config.clientTemplate with
  | standard => exact ⟨_, rfl, hmerged⟩
  | compact => exact ⟨_, rfl, hmerged⟩
  | global => exact ⟨_, rfl, hplain⟩
  | split => exact ⟨_, rfl, hplain⟩

/-- Every profile names the nodes its clients know, in their order. -/
theorem artifact_names {lib : Libraries} {x25519 : List UInt8 → List UInt8}
    {nodes : List CanonicalNode} (hnodes : config.nodes lib x25519 = some nodes)
    {said : List (Option Endpoint)} (h : Artifact config nodes said) :
    ∃ anytls : Bool, List.Forall₂ (Names config)
      (nodes.filter fun node => anytls || node.protocol ≠ .anytls) said := by
  have hall : (nodes.filter fun node => true || node.protocol ≠ .anytls) = nodes := by simp
  cases h with
  | singBox =>
    refine ⟨true, ?_⟩
    rw [hall, clientOutbounds, List.map_map, List.forall₂_map_right_iff, List.forall₂_same]
    intro node _
    rw [Function.comp_apply, clientOutbound_read]
    exact names_dial
  | @full profile outbounds hfull =>
    refine ⟨profile.supportsAnytls, ?_⟩
    by_cases hne : (nodes.filter fun node =>
        profile.supportsAnytls || node.protocol ≠ .anytls) = []
    · rw [fullOutbounds, if_pos hne] at hfull
      exact absurd hfull (by simp)
    · obtain ⟨outbounds', hfull', hread⟩ := fullOutbounds_read hnodes profile rfl hne
      rw [hfull] at hfull'
      cases hfull'
      rw [hread, List.forall₂_map_right_iff, List.forall₂_same]
      exact fun node _ => names_profile profile
  | clash =>
    refine ⟨true, ?_⟩
    rw [hall, clashProxies, List.map_map, List.forall₂_map_right_iff, List.forall₂_same]
    intro node _
    rw [Function.comp_apply, clashProxy_read]
    exact names_proxy
  | clashLegacy =>
    refine ⟨false, ?_⟩
    rw [clashLegacyProxies, clashProxies, List.map_map, List.forall₂_map_right_iff]
    simp only [Bool.false_or, List.forall₂_same]
    intro node _
    rw [Function.comp_apply, clashProxy_read]
    exact names_proxy

end

end Sbctl
