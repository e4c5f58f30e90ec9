import Sbctl.Options
import Sbctl.Lib.Base64
import Sbctl.Lib.IpText
import Sbctl.Lib.Traverse

/-!
# The canonical nodes of a deployment

One node for each enabled protocol, from which every client artifact takes its
host, port, credentials and TLS names.

* `nodes_isSome`: an accepted configuration has its nodes;
* `mem_nodes`: what a node of the configuration holds;
* `nodeHost_kinds`: the host is an IPv6 address, or stands in a URI as it is.
-/

namespace Sbctl

open Text

/-- The public key that belongs to a private key that can be read; otherwise the
one that is stored beside it. -/
def vlessPublicKeyFromPrivate (x25519 : List UInt8 → List UInt8) (privateKey fallback : String) :
    String :=
  match (Base64.decode .urlSafe privateKey.toList).filter (·.length = 32) with
  | some scalar => String.ofList (Base64.encode .urlSafe (x25519 scalar))
  | none => fallback

/-- The host as it stands in the authority of a URI. -/
def uriHost (host : String) : String :=
  match IpText.parse host with
  | some (.v6 _) => String.ofList ('[' :: (host.toList ++ [']']))
  | _ => host

inductive CanonicalNode where
  | vlessReality (host : String) (port : UInt16)
      (tlsServerName uuid privateKey publicKey shortId decoySni : String)
  | vmessWebsocket (host : String) (port : UInt16) (tlsServerName uuid path : String)
  | hysteria2 (host : String) (port : UInt16) (tlsServerName password : String)
  | tuic (host : String) (port : UInt16) (tlsServerName uuid password : String)
  | anytls (host : String) (port : UInt16) (tlsServerName password : String)
  deriving DecidableEq

namespace CanonicalNode

def protocol : CanonicalNode → ManagedProtocol
  | vlessReality .. => .vlessReality
  | vmessWebsocket .. => .vmessWebsocket
  | hysteria2 .. => .hysteria2
  | tuic .. => .tuic
  | anytls .. => .anytls

def tag : CanonicalNode → String
  | vlessReality .. => "sbctl-vless-reality"
  | vmessWebsocket .. => "sbctl-vmess-websocket"
  | hysteria2 .. => "sbctl-hysteria2"
  | tuic .. => "sbctl-tuic"
  | anytls .. => "sbctl-anytls"

def host : CanonicalNode → String
  | vlessReality host .. | vmessWebsocket host .. | hysteria2 host .. | tuic host ..
  | anytls host .. => host

def port : CanonicalNode → UInt16
  | vlessReality _ port .. | vmessWebsocket _ port .. | hysteria2 _ port .. | tuic _ port ..
  | anytls _ port .. => port

def tlsServerName : CanonicalNode → String
  | vlessReality _ _ name .. | vmessWebsocket _ _ name .. | hysteria2 _ _ name ..
  | tuic _ _ name .. | anytls _ _ name .. => name

def withHost (host : String) : CanonicalNode → CanonicalNode
  | vlessReality _ port name uuid privateKey publicKey shortId decoySni =>
    vlessReality host port name uuid privateKey publicKey shortId decoySni
  | vmessWebsocket _ port name uuid path => vmessWebsocket host port name uuid path
  | hysteria2 _ port name password => hysteria2 host port name password
  | tuic _ port name uuid password => tuic host port name uuid password
  | anytls _ port name password => anytls host port name password

/-- The node with its host ready for the authority of a URI. -/
def withBracketedHost (node : CanonicalNode) : CanonicalNode := node.withHost (uriHost node.host)

end CanonicalNode

namespace DeploymentConfig

/-- The host that clients dial. -/
def nodeHost (config : DeploymentConfig) : String :=
  config.proxyHost.getD config.subscriptionHost

/-- The node of a protocol. It has none where the credentials it expects are
missing. -/
def node (lib : Libraries) (x25519 : List UInt8 → List UInt8) (config : DeploymentConfig) :
    ManagedProtocol → Option CanonicalNode
  | .vlessReality => do
    let node ← config.vlessReality
    let decoySni ← config.realityDecoySni
    return .vlessReality config.nodeHost node.listenPort (config.protocolServerName lib) node.uuid
      node.privateKey (vlessPublicKeyFromPrivate x25519 node.privateKey node.publicKey)
      node.shortId decoySni
  | .vmessWebsocket => do
    let node ← config.vmessWebsocket
    return .vmessWebsocket config.nodeHost node.listenPort (config.protocolServerName lib)
      node.uuid node.path
  | .hysteria2 => do
    let node ← config.hysteria2
    return .hysteria2 config.nodeHost node.listenPort (config.protocolServerName lib) node.password
  | .tuic => do
    let node ← config.tuic
    return .tuic config.nodeHost node.listenPort (config.protocolServerName lib) node.uuid
      node.password
  | .anytls => do
    let node ← config.anytls
    return .anytls config.nodeHost node.listenPort (config.protocolServerName lib) node.password

/-- The nodes in the order of the enabled protocols. -/
def nodes (lib : Libraries) (x25519 : List UInt8 → List UInt8) (config : DeploymentConfig) :
    Option (List CanonicalNode) :=
  config.enabledProtocols.mapM (config.node lib x25519)

end DeploymentConfig

section
variable {lib : Libraries} {x25519 : List UInt8 → List UInt8} {config : DeploymentConfig}

theorem protocol_of_node {protocol : ManagedProtocol} {node : CanonicalNode}
    (h : config.node lib x25519 protocol = some node) :
    node.protocol = protocol ∧ node.host = config.nodeHost := by
  cases protocol <;>
    simp only [DeploymentConfig.node, Option.bind_eq_bind, Option.bind_eq_some_iff,
      Option.pure_def, Option.some.injEq] at h
  case vlessReality =>
    obtain ⟨_, -, _, -, rfl⟩ := h
    exact ⟨rfl, rfl⟩
  all_goals
    obtain ⟨_, -, rfl⟩ := h
    exact ⟨rfl, rfl⟩

theorem mem_nodes {nodes : List CanonicalNode} (h : config.nodes lib x25519 = some nodes)
    {node : CanonicalNode} (hnode : node ∈ nodes) :
    node.protocol ∈ config.enabledProtocols ∧ node.host = config.nodeHost ∧
      config.node lib x25519 node.protocol = some node := by
  obtain ⟨protocol, hmem, heq⟩ := Traverse.mem_of_mapM h hnode
  obtain ⟨hprotocol, hhost⟩ := protocol_of_node heq
  rw [hprotocol]
  exact ⟨hmem, hhost, heq⟩

/-! ## The nodes of an accepted configuration -/

theorem validateProtocols_decoySni (h : validateProtocols lib config = .ok ())
    (henabled : .vlessReality ∈ config.enabledProtocols) : config.realityDecoySni.isSome := by
  simp only [validateProtocols, check_ok, rejectIf_ok, not_and] at h
  have hdecoy := h.2.2.2.1 henabled
  cases hsni : config.realityDecoySni with
  | none =>
    rw [hsni] at hdecoy
    exact absurd rfl hdecoy
  | some sni => rfl

/-- The credentials a protocol expects are there. -/
theorem node_isSome (h : Accepted lib config) {protocol : ManagedProtocol}
    (henabled : protocol ∈ config.enabledProtocols) :
    (config.node lib x25519 protocol).isSome := by
  obtain ⟨-, -, hprotocols, -⟩ := accepted_iff.mp h
  have hcredentials := validateProtocols_credentials hprotocols henabled
  cases protocol <;>
    obtain ⟨credentials, hsome⟩ := Option.isSome_iff_exists.mp hcredentials
  case vlessReality =>
    obtain ⟨sni, hsni⟩ :=
      Option.isSome_iff_exists.mp (validateProtocols_decoySni hprotocols henabled)
    simp [DeploymentConfig.node, hsome, hsni]
  all_goals simp [DeploymentConfig.node, hsome]

theorem nodes_isSome (h : Accepted lib config) : (config.nodes lib x25519).isSome :=
  Traverse.mapM_isSome fun _ henabled => node_isSome h henabled

/-! ## The host of a node -/

/-- The library's test for an address is the reader of addresses. -/
def Libraries.ReadsAddresses (lib : Libraries) : Prop :=
  ∀ s, lib.isIpAddr s = (IpText.parse s).isSome

/-- The host is an IPv6 address, or stands in a URI as it is. -/
theorem nodeHost_kinds (hread : lib.ReadsAddresses) (h : Accepted lib config) :
    (∃ groups, IpText.parse config.nodeHost = some (.v6 groups)) ∨
      uriHost config.nodeHost = config.nodeHost ∧
        ∀ c ∈ config.nodeHost.toList, isUnreserved c = true := by
  have hvalid : ∃ label, validateHost lib label config.nodeHost = .ok () := by
    obtain ⟨-, hidentity, -⟩ := accepted_iff.mp h
    simp only [validateDeploymentIdentity, check_ok] at hidentity
    obtain ⟨hhost, hproxy, -⟩ := hidentity
    unfold DeploymentConfig.nodeHost
    cases hsome : config.proxyHost with
    | none => exact ⟨_, hhost⟩
    | some proxy =>
      rw [hsome] at hproxy
      exact ⟨_, hproxy⟩
  obtain ⟨label, hvalid⟩ := hvalid
  unfold uriHost
  cases haddress : IpText.parse config.nodeHost with
  | some address =>
    cases address with
    | v6 groups => exact .inl ⟨groups, rfl⟩
    | v4 octets =>
      refine .inr ⟨rfl, fun c hc => ?_⟩
      rcases IpText.mem_v4 haddress c hc with hdigit | rfl
      · obtain ⟨d, hd⟩ := Option.isSome_iff_exists.mp hdigit
        unfold digitValue at hd
        split at hd
        · rename_i hrange
          simp [isUnreserved, isAsciiAlphanumeric, hrange.1, hrange.2]
        · cases hd
      · decide
  | none =>
    refine .inr ⟨rfl, fun c hc => ?_⟩
    have hnot : lib.isIpAddr config.nodeHost = false := by
      rw [hread, haddress]
      rfl
    rw [validateHost, hnot, if_neg Bool.false_ne_true] at hvalid
    unfold validateHostname at hvalid
    rw [rejectIf_ok, not_not] at hvalid
    obtain ⟨-, -, hparts⟩ := hvalid
    rw [← join_splitChar '.' config.nodeHost.toList] at hc
    rcases mem_join hc with rfl | ⟨piece, hpiece, hmem⟩
    · decide
    · have hall := List.all_eq_true.mp (hparts piece hpiece).2.2.2.2 c hmem
      rw [Bool.or_eq_true, beq_iff_eq] at hall
      rcases hall with hplain | rfl
      · simp [isUnreserved, hplain]
      · decide

end

end Sbctl
