import Sbctl.Validate
import Mathlib.Data.List.Nodup

/-!
# The ports a deployment listens on

Four validators share the work of keeping listeners apart. Between them every
pair of listeners is compared but the pairs with the observation API in them,
whose port only the hopping range is compared with.

* `listeners_apart_iff`: an accepted deployment keeps its listeners apart
  exactly when its observation API has a port of its own.
-/

namespace Sbctl

/-- What binds a port on the host. -/
inductive Listener where
  | managed (protocol : ManagedProtocol)
  | http
  | subscription
  | clashApi
  deriving DecidableEq, Repr

namespace DeploymentConfig

def protocolListenerPort (config : DeploymentConfig) : ManagedProtocol → Option UInt16
  | .vlessReality => config.vlessPort
  | .vmessWebsocket => config.vmessPort
  | .hysteria2 => config.hysteria2Port
  | .tuic => config.tuicPort
  | .anytls => config.anytlsPort

def portOf (config : DeploymentConfig) : Listener → Option UInt16
  | .managed protocol => config.protocolListenerPort protocol
  | .http => config.httpPort
  | .subscription => config.subscriptionListenPort
  | .clashApi => config.clashApiPort

/-- No two listeners share a port, and only Hysteria2 itself may listen inside
the hopping range. -/
structure ListenersApart (config : DeploymentConfig) : Prop where
  distinct : ∀ a b port, config.portOf a = some port → config.portOf b = some port → a = b
  outside_hopping : ∀ hop, config.hysteria2PortHopping = some hop → ∀ a port,
    config.portOf a = some port → hop.Contains port → a = .managed .hysteria2

/-- The observation API, if any, is not on the port of another listener. -/
def ClashApiApart (config : DeploymentConfig) : Prop :=
  ∀ port, config.clashApiPort = some port →
    port ∉ config.protocolListenerPorts ∧ config.httpPort ≠ some port ∧
      config.subscriptionListenPort ≠ some port

instance (config : DeploymentConfig) : Decidable config.ClashApiApart :=
  match h : config.clashApiPort with
  | none => isTrue fun port hp => by simp [h] at hp
  | some port => decidable_of_iff
      (port ∉ config.protocolListenerPorts ∧ config.httpPort ≠ some port ∧
        config.subscriptionListenPort ≠ some port)
      ⟨fun hc p hp => by rw [h, Option.some.injEq] at hp; exact hp ▸ hc, fun hc => hc port h⟩

theorem mem_protocolListenerPorts {config : DeploymentConfig} {port : UInt16} :
    port ∈ config.protocolListenerPorts ↔
      ∃ protocol, config.protocolListenerPort protocol = some port := by
  simp only [protocolListenerPorts, List.mem_append, Option.mem_toList]
  constructor
  · rintro ((((h | h) | h) | h) | h)
    exacts [⟨.vlessReality, h⟩, ⟨.vmessWebsocket, h⟩, ⟨.hysteria2, h⟩, ⟨.tuic, h⟩, ⟨.anytls, h⟩]
  · rintro ⟨protocol, h⟩
    cases protocol <;> simp_all [protocolListenerPort]

/-- When the listed ports are distinct, a port names its protocol. -/
theorem protocolListenerPort_injective {config : DeploymentConfig}
    (h : config.protocolListenerPorts.Nodup) {a b : ManagedProtocol} {port : UInt16}
    (ha : config.protocolListenerPort a = some port)
    (hb : config.protocolListenerPort b = some port) : a = b := by
  simp only [protocolListenerPorts, List.nodup_append, List.mem_append,
    Option.mem_toList] at h
  obtain ⟨⟨⟨⟨-, -, h₁⟩, -, h₂⟩, -, h₃⟩, -, h₄⟩ := h
  cases a <;> cases b <;> simp only [protocolListenerPort] at ha hb <;> grind

end DeploymentConfig

section
variable {lib : Libraries} {config : DeploymentConfig}
open DeploymentConfig

theorem validateListenerPorts_ok {before ports : List UInt16}
    (h : validateListenerPorts before ports = .ok ()) :
    ports.Nodup ∧ ∀ port ∈ ports, port ∉ before := by
  induction ports generalizing before with
  | nil => simp
  | cons port ports ih =>
    simp only [validateListenerPorts, check_ok, rejectIf_ok] at h
    obtain ⟨-, hnew, hrest⟩ := h
    obtain ⟨hnodup, hbefore⟩ := ih hrest
    have hport : port ∉ ports := fun hp => hbefore port hp List.mem_cons_self
    refine ⟨List.nodup_cons.mpr ⟨hport, hnodup⟩, ?_⟩
    intro p hp
    rcases List.mem_cons.mp hp with rfl | hp
    · exact hnew
    · exact fun hb => hbefore p hp (List.mem_cons_of_mem _ hb)

theorem validateProtocols_nodup (h : validateProtocols lib config = .ok ()) :
    config.protocolListenerPorts.Nodup := by
  simp only [validateProtocols, check_ok] at h
  exact (validateListenerPorts_ok h.2.1).1

/-- A deployment has at most one of the two subscription listeners, and keeps
it off the protocol ports. -/
theorem validateSubscriptionMode_ok (h : validateSubscriptionMode lib config = .ok ()) :
    (config.httpPort = none ∨ config.subscriptionListenPort = none) ∧
      (∀ port, config.httpPort = some port → port ∉ config.protocolListenerPorts) ∧
      ∀ port, config.subscriptionListenPort = some port →
        port ∉ config.protocolListenerPorts := by
  unfold validateSubscriptionMode at h
  cases hm : config.subscriptionMode with
  | ipFallback =>
    cases hp : config.httpPort <;> simp_all
  | direct => simp_all
  | externalProxy =>
    cases hp : config.subscriptionListenPort <;> simp_all

/-- Only Hysteria2 may listen inside an accepted hopping range. -/
theorem portHopping_ok (h : PortHopping.validate config = .ok ()) {hop : PortHopping}
    (hh : config.hysteria2PortHopping = some hop) {a : Listener} {port : UInt16}
    (hp : config.portOf a = some port) (hc : hop.Contains port) : a = .managed .hysteria2 := by
  simp only [PortHopping.validate, hh, check_ok, rejectIf_ok] at h
  obtain ⟨-, -, hother⟩ := h
  by_contra hne
  refine hother (List.any_eq_true.mpr ⟨port, ?_, decide_eq_true hc⟩)
  simp only [List.mem_filterMap, id, exists_eq_right, PortHopping.otherPorts, ← hp]
  cases a with
  | managed protocol => cases protocol <;> simp_all [portOf, protocolListenerPort]
  | http => simp [portOf]
  | subscription => simp [portOf]
  | clashApi => simp [portOf]

/-- An accepted deployment keeps its listeners apart exactly when its
observation API has a port of its own. -/
theorem listeners_apart_iff (h : Accepted lib config) :
    config.ListenersApart ↔ config.ClashApiApart := by
  obtain ⟨hhop, -, hprotocols, -, hmode⟩ := accepted_iff.mp h
  obtain ⟨hone, hhttp, hsub⟩ := validateSubscriptionMode_ok hmode
  have hinj := @protocolListenerPort_injective _ (validateProtocols_nodup hprotocols)
  simp only [mem_protocolListenerPorts, not_exists] at hhttp hsub
  constructor
  · intro hapart port hport
    rw [mem_protocolListenerPorts]
    refine ⟨?_, fun hc => ?_, fun hc => ?_⟩
    · rintro ⟨protocol, hp⟩
      cases hapart.distinct (.managed protocol) .clashApi port hp hport
    · cases hapart.distinct .http .clashApi port hc hport
    · cases hapart.distinct .subscription .clashApi port hc hport
  · intro hapi
    simp only [ClashApiApart, mem_protocolListenerPorts, not_exists] at hapi
    refine ⟨fun a b port ha hb => ?_, fun hop hh a port => portHopping_ok hhop hh⟩
    cases a <;> cases b <;> simp only [portOf] at ha hb <;> grind

end

/-- The sample deployment with the observation API on the port of its protocol. -/
def collidingConfig : DeploymentConfig :=
  { sampleConfig with serverClashApi := some { port := 20000, secret := "s" } }

theorem collidingConfig_accepted : Accepted sampleLibraries collidingConfig := by
  unfold Accepted
  decide

/-- The protocol and the observation API are accepted on one port. -/
theorem clash_api_may_collide :
    Accepted sampleLibraries collidingConfig ∧ ¬ collidingConfig.ListenersApart := by
  refine ⟨collidingConfig_accepted, fun h => ?_⟩
  cases h.distinct (.managed .hysteria2) .clashApi 20000 rfl rfl

/-- The sample deployment with the observation API on a port of its own. -/
def observedConfig : DeploymentConfig :=
  { sampleConfig with serverClashApi := some { port := 20001, secret := "s" } }

theorem listeners_apart_iff_observed :
    Accepted sampleLibraries observedConfig ∧ observedConfig.ListenersApart := by
  have haccepted : Accepted sampleLibraries observedConfig := by
    unfold Accepted
    decide
  exact ⟨haccepted, (listeners_apart_iff haccepted).mpr (by decide)⟩

end Sbctl
