import Sbctl.Serve
import Sbctl.Lib.Tally

/-!
# Connection limits

Every connection holds a permit: a place among all connections and, where
sources are limited, one of its source. A permit that is dropped gives up the
place of its source first and its place among all afterwards.

* `connections_exact`: whatever is acquired and dropped, in any order, the
  places taken are those of the permits that are live.
-/

namespace Sbctl

def maxConcurrentConnections : Nat := 32

def maxConnectionsPerPeer : Nat := 8

/-- An IPv4 address, where one is mapped into IPv6. -/
def IpAddr.toCanonical : IpAddr → IpAddr
  | .v4 address => .v4 address
  | .v6 address =>
    if address.extractLsb' 32 96 = 0xFFFF#96 then .v4 (address.extractLsb' 0 32) else .v6 address

structure ConnectionLimits where
  /-- The free places of the semaphore. -/
  global : Nat
  peers : List (IpAddr × Nat)
  perPeer : Bool
  deriving DecidableEq

structure ConnectionPermit where
  peer : Option IpAddr
  deriving DecidableEq

namespace ConnectionLimits

def new (perPeer : Bool) : ConnectionLimits := ⟨maxConcurrentConnections, [], perPeer⟩

/-- The source a permit is charged to. -/
def charged (limits : ConnectionLimits) (peer : Option IpAddr) : Option IpAddr :=
  (peer.filter fun _ => limits.perPeer).map IpAddr.toCanonical

def tryAcquire (limits : ConnectionLimits) (peer : Option IpAddr) :
    Option ConnectionPermit × ConnectionLimits :=
  if limits.global = 0 then (none, limits)
  else
    let global := limits.global - 1
    match limits.charged peer with
    | none => (some ⟨none⟩, { limits with global })
    | some peer =>
      let count := (limits.peers.lookup peer).getD 0
      -- the entry is there before its count is looked at
      let peers := Assoc.put peer count limits.peers
      if maxConnectionsPerPeer ≤ count then (none, { limits with global := global + 1, peers })
      else (some ⟨some peer⟩, { limits with global, peers := Assoc.put peer (count + 1) peers })

/-- One less, in a machine word. -/
def decrement (count : Nat) : Nat := if count = 0 then 2 ^ 64 - 1 else count - 1

/-- A dropped permit first gives up the place of its source. -/
def leave (limits : ConnectionLimits) (permit : ConnectionPermit) : ConnectionLimits :=
  match permit.peer with
  | none => limits
  | some peer =>
    match limits.peers.lookup peer with
    | none => limits
    | some count =>
      let count := decrement count
      { limits with
        peers := if count = 0 then Assoc.remove peer limits.peers
          else Assoc.put peer count limits.peers }

theorem leave_eq {limits : ConnectionLimits} {permit : ConnectionPermit} {address : IpAddr}
    {count : Nat} (hpeer : permit.peer = some address)
    (hentry : limits.peers.lookup address = some (count + 1)) :
    limits.leave permit = { limits with
      peers := if count = 0 then Assoc.remove address limits.peers
        else Assoc.put address count limits.peers } := by
  unfold leave
  rw [hpeer]
  simp only [hentry, decrement, Nat.succ_ne_zero, if_false, Nat.add_sub_cancel]

/-- And then its place among all. -/
def release (limits : ConnectionLimits) : ConnectionLimits :=
  { limits with global := limits.global + 1 }

end ConnectionLimits

/-- The limits with the permits that are live, and those in the middle of being
dropped. -/
structure ConnectionPool where
  limits : ConnectionLimits
  live : List ConnectionPermit
  closing : List ConnectionPermit

namespace ConnectionPool

def new (perPeer : Bool) : ConnectionPool := ⟨.new perPeer, [], []⟩

def acquire (pool : ConnectionPool) (peer : Option IpAddr) : ConnectionPool :=
  let answer := pool.limits.tryAcquire peer
  { pool with limits := answer.2, live := answer.1.toList ++ pool.live }

inductive Step (pool : ConnectionPool) : ConnectionPool → Prop
  | acquire (peer : Option IpAddr) : Step pool (pool.acquire peer)
  | leave {before after : List ConnectionPermit} {permit : ConnectionPermit}
      (live : pool.live = before ++ permit :: after) :
      Step pool { limits := pool.limits.leave permit, live := before ++ after,
                  closing := permit :: pool.closing }
  | release {before after : List ConnectionPermit} {permit : ConnectionPermit}
      (closing : pool.closing = before ++ permit :: after) :
      Step pool { pool with limits := pool.limits.release, closing := before ++ after }

inductive Reachable (perPeer : Bool) : ConnectionPool → Prop
  | new : Reachable perPeer (.new perPeer)
  | step {pool next : ConnectionPool} (before : Reachable perPeer pool) (step : Step pool next) :
      Reachable perPeer next

/-- The sources of the live permits. -/
def sources (pool : ConnectionPool) : List IpAddr := pool.live.filterMap (·.peer)

/-- How many live permits a source holds. -/
def held (pool : ConnectionPool) (address : IpAddr) : Nat := pool.sources.count address

/-- What is taken is what the permits stand for. -/
structure Exact (perPeer : Bool) (pool : ConnectionPool) : Prop where
  mode : pool.limits.perPeer = perPeer
  global : pool.limits.global + pool.live.length + pool.closing.length = maxConcurrentConnections
  tally : Assoc.Tally pool.limits.peers pool.sources
  bounded : ∀ address, pool.held address ≤ maxConnectionsPerPeer
  charged : perPeer = false → pool.sources = []

variable {perPeer : Bool} {pool : ConnectionPool}

/-- A source that is not limited is charged to nobody. -/
theorem charged_of_perPeer_false (h : pool.limits.perPeer = false) (peer : Option IpAddr) :
    pool.limits.charged peer = none := by
  cases peer <;> simp [ConnectionLimits.charged, h, Option.filter]

/-- An attempt is answered by the places that are free, all in all and for its
source. A refusal gives back what it took. -/
theorem tryAcquire_eq (h : pool.Exact perPeer) (peer : Option IpAddr) :
    pool.limits.tryAcquire peer =
      if pool.limits.global = 0 ∨ ∃ address, pool.limits.charged peer = some address ∧
          maxConnectionsPerPeer ≤ pool.held address then (none, pool.limits)
      else (some ⟨pool.limits.charged peer⟩, { pool.limits with
        global := pool.limits.global - 1
        peers := match pool.limits.charged peer with
          | none => pool.limits.peers
          | some address => Assoc.put address (pool.held address + 1) pool.limits.peers }) := by
  unfold ConnectionLimits.tryAcquire
  by_cases hfull : pool.limits.global = 0
  · rw [if_pos hfull, if_pos (.inl hfull)]
  · rw [if_neg hfull]
    dsimp only
    cases hcharged : pool.limits.charged peer with
    | none =>
      rw [if_neg (by simp [hfull])]
    | some address =>
      have hcount : (pool.limits.peers.lookup address).getD 0 = pool.held address :=
        h.tally.getD address
      simp only [hcount]
      by_cases hmany : maxConnectionsPerPeer ≤ pool.held address
      · have hentry : pool.limits.peers.lookup address = some (pool.held address) :=
          h.tally.lookup_eq_some.mpr ⟨rfl, Nat.lt_of_lt_of_le (by decide) hmany⟩
        have hglobal : pool.limits.global - 1 + 1 = pool.limits.global := by omega
        rw [if_pos hmany, Assoc.put_of_lookup hentry, hglobal,
          if_pos (.inr ⟨address, rfl, hmany⟩)]
      · have hnone : ¬ (pool.limits.global = 0 ∨ ∃ a, some address = some a ∧
            maxConnectionsPerPeer ≤ pool.held a) := by
          rintro (hzero | ⟨a, ha, hheld⟩)
          · exact hfull hzero
          · cases ha
            exact hmany hheld
        rw [if_neg hnone, if_neg hmany, Assoc.put_put]

theorem Exact.new (perPeer : Bool) : (new perPeer).Exact perPeer where
  mode := rfl
  global := rfl
  tally := Assoc.Tally.nil
  bounded := fun _ => Nat.zero_le _
  charged := fun _ => rfl

theorem Exact.acquire (h : pool.Exact perPeer) (peer : Option IpAddr) :
    (pool.acquire peer).Exact perPeer := by
  unfold ConnectionPool.acquire
  rw [tryAcquire_eq h]
  dsimp only
  split
  · exact ⟨h.mode, h.global, h.tally, h.bounded, h.charged⟩
  · rename_i hfree
    obtain ⟨hsome, hfew⟩ := not_or.mp hfree
    have hglobal := h.global
    cases hcharged : pool.limits.charged peer with
    | none =>
      refine ⟨h.mode, ?_, h.tally, h.bounded, h.charged⟩
      simp only [Option.toList, List.length_append, List.length_cons, List.length_nil]
      omega
    | some address =>
      refine ⟨h.mode, ?_, h.tally.add address, ?_, ?_⟩
      · simp only [Option.toList, List.length_append, List.length_cons, List.length_nil]
        omega
      · intro a
        change (address :: pool.sources).count a ≤ maxConnectionsPerPeer
        by_cases ha : a = address
        · have hroom : pool.held address < maxConnectionsPerPeer :=
            Nat.lt_of_not_le fun hmany => hfew ⟨address, hcharged, hmany⟩
          rw [ha, List.count_cons_self]
          exact hroom
        · rw [List.count_cons_of_ne (Ne.symm ha)]
          exact h.bounded a
      · intro hmode
        rw [charged_of_perPeer_false (h.mode.trans hmode)] at hcharged
        cases hcharged

theorem Exact.leave (h : pool.Exact perPeer) {before after : List ConnectionPermit}
    {permit : ConnectionPermit} (live : pool.live = before ++ permit :: after) :
    Exact perPeer { limits := pool.limits.leave permit, live := before ++ after,
                    closing := permit :: pool.closing } := by
  have hglobal := h.global
  have hlength : pool.live.length = (before ++ after).length + 1 := by
    rw [live]
    simp only [List.length_append, List.length_cons]
    omega
  have hsources : pool.sources.Perm
      (permit.peer.toList ++ (before ++ after).filterMap (·.peer)) := by
    have hperm : (before ++ permit :: after).Perm (permit :: (before ++ after)) :=
      List.perm_middle
    rw [sources, live]
    refine (hperm.filterMap _).trans ?_
    rw [List.filterMap_cons]
    cases permit.peer <;> exact List.Perm.refl _
  have hheld : ∀ address, ((before ++ after).filterMap (·.peer)).count address ≤
      pool.held address := by
    intro address
    rw [held, hsources.count_eq, List.count_append]
    exact Nat.le_add_left _ _
  have hbounded := fun address => Nat.le_trans (hheld address) (h.bounded address)
  have hnone : perPeer = false → (before ++ after).filterMap (·.peer) = [] := by
    intro hmode
    have hnil := hsources
    rw [h.charged hmode] at hnil
    exact (List.append_eq_nil_iff.mp hnil.symm.eq_nil).2
  have htally := h.tally.perm hsources
  cases hpeer : permit.peer with
  | none =>
    have hleave : pool.limits.leave permit = pool.limits := by
      unfold ConnectionLimits.leave
      rw [hpeer]
    rw [hpeer] at htally
    rw [hleave]
    refine ⟨h.mode, ?_, htally, hbounded, hnone⟩
    simp only [List.length_cons]
    omega
  | some address =>
    have hcons : Assoc.Tally pool.limits.peers
        (address :: (before ++ after).filterMap (·.peer)) := by
      rw [hpeer] at htally
      exact htally
    obtain ⟨hentry, htake⟩ := hcons.take
    rw [ConnectionLimits.leave_eq hpeer hentry]
    refine ⟨h.mode, ?_, htake, hbounded, hnone⟩
    simp only [List.length_cons]
    omega

theorem Exact.release (h : pool.Exact perPeer) {before after : List ConnectionPermit}
    {permit : ConnectionPermit} (closing : pool.closing = before ++ permit :: after) :
    Exact perPeer
      { pool with limits := pool.limits.release, closing := before ++ after } := by
  refine ⟨h.mode, ?_, h.tally, h.bounded, h.charged⟩
  have hglobal := h.global
  rw [closing] at hglobal
  simp only [ConnectionLimits.release, List.length_append, List.length_cons] at hglobal ⊢
  omega

theorem Exact.charged_eq (h : pool.Exact perPeer) (peer : Option IpAddr) :
    pool.limits.charged peer = if perPeer then peer.map IpAddr.toCanonical else none := by
  have hmode := h.mode
  cases perPeer with
  | false => exact charged_of_perPeer_false hmode peer
  | true => cases peer <;> simp [ConnectionLimits.charged, hmode, Option.filter]

/-- An attempt succeeds while there is a place for it. -/
theorem Exact.answer (h : pool.Exact perPeer) (peer : Option IpAddr) :
    (pool.limits.tryAcquire peer).1 =
      if pool.live.length + pool.closing.length < maxConcurrentConnections ∧
          (∀ address, pool.limits.charged peer = some address →
            pool.held address < maxConnectionsPerPeer)
      then some ⟨pool.limits.charged peer⟩ else none := by
  have hglobal := h.global
  rw [tryAcquire_eq h]
  by_cases hroom : pool.live.length + pool.closing.length < maxConcurrentConnections ∧
      (∀ address, pool.limits.charged peer = some address →
        pool.held address < maxConnectionsPerPeer)
  · rw [if_pos hroom, if_neg]
    rintro (hfull | ⟨address, hcharged, hmany⟩)
    · omega
    · have := hroom.2 address hcharged
      omega
  · rw [if_neg hroom, if_pos]
    by_contra hfree
    obtain ⟨hplace, hfew⟩ := not_or.mp hfree
    refine hroom ⟨by omega, fun address hcharged => ?_⟩
    exact Nat.lt_of_not_le fun hmany => hfew ⟨address, hcharged, hmany⟩

theorem Exact.refused (h : pool.Exact perPeer) {peer : Option IpAddr}
    (hrefused : (pool.limits.tryAcquire peer).1 = none) :
    (pool.limits.tryAcquire peer).2 = pool.limits := by
  rw [tryAcquire_eq h] at hrefused ⊢
  split
  · rfl
  · rename_i hfree
    rw [if_neg hfree] at hrefused
    cases hrefused

theorem filterMap_peer_eq_replicate {source : IpAddr} {live : List ConnectionPermit}
    (h : ∀ permit ∈ live, permit.peer = some source) :
    live.filterMap (·.peer) = List.replicate live.length source := by
  induction live with
  | nil => rfl
  | cons permit live ih =>
    obtain ⟨hpermit, hrest⟩ := List.forall_mem_cons.mp h
    rw [List.filterMap_cons, hpermit, ih hrest]
    rfl

/-- One source alone leaves a place for another. -/
theorem Exact.alone (h : pool.Exact perPeer) (hmode : perPeer = true)
    (hclosing : pool.closing = []) {source other : IpAddr}
    (hsource : ∀ permit ∈ pool.live, permit.peer = some source)
    (hother : other.toCanonical ≠ source) :
    (pool.limits.tryAcquire (some other)).1 = some ⟨some other.toCanonical⟩ := by
  have hall : pool.sources = List.replicate pool.live.length source :=
    filterMap_peer_eq_replicate hsource
  have hfew : pool.live.length ≤ maxConnectionsPerPeer := by
    have hbound := h.bounded source
    rwa [held, hall, List.count_replicate_self] at hbound
  have hplaces : pool.live.length + pool.closing.length < maxConcurrentConnections := by
    rw [hclosing, List.length_nil]
    exact Nat.lt_of_le_of_lt hfew (by decide)
  have hto : pool.limits.charged (some other) = some other.toCanonical := by
    rw [h.charged_eq, if_pos hmode]
    rfl
  rw [h.answer, hto, if_pos]
  refine ⟨hplaces, ?_⟩
  rintro address ⟨⟩
  rw [held, hall, List.count_replicate, if_neg (by simpa using hother.symm)]
  decide

theorem Exact.step {next : ConnectionPool} (h : pool.Exact perPeer) (hstep : Step pool next) :
    next.Exact perPeer := by
  cases hstep with
  | acquire peer => exact h.acquire peer
  | leave live => exact h.leave live
  | release closing => exact h.release closing

theorem Reachable.acquires (h : Reachable perPeer pool) (peers : List (Option IpAddr)) :
    Reachable perPeer (peers.foldl ConnectionPool.acquire pool) := by
  induction peers generalizing pool with
  | nil => exact h
  | cons peer peers ih => exact ih (h.step (.acquire peer))

theorem Reachable.exact (h : Reachable perPeer pool) : pool.Exact perPeer := by
  induction h with
  | new => exact Exact.new perPeer
  | step _ hstep ih => exact ih.step hstep

end ConnectionPool

open ConnectionPool in
/-- Whatever is acquired and dropped, in any order: the map counts, source by
source, the live permits charged to it; the free places are those no permit
holds; a refusal changes nothing; an attempt succeeds while there is a place
for it; and where sources are limited none keeps another out. -/
theorem connections_exact {perPeer : Bool} {pool : ConnectionPool}
    (h : Reachable perPeer pool) :
    ((pool.limits.peers.map Prod.fst).Nodup ∧ ∀ address count,
      pool.limits.peers.lookup address = some count ↔ pool.held address = count ∧ 0 < count) ∧
    pool.limits.global = maxConcurrentConnections - (pool.live.length + pool.closing.length) ∧
    pool.live.length + pool.closing.length ≤ maxConcurrentConnections ∧
    (∀ peer, (pool.limits.tryAcquire peer).1 = none →
      (pool.limits.tryAcquire peer).2 = pool.limits) ∧
    (∀ peer, (pool.limits.tryAcquire peer).1 =
      if pool.live.length + pool.closing.length < maxConcurrentConnections ∧
          (∀ address, pool.limits.charged peer = some address →
            pool.held address < maxConnectionsPerPeer)
      then some ⟨pool.limits.charged peer⟩ else none) ∧
    (∀ peer, pool.limits.charged peer = if perPeer then peer.map IpAddr.toCanonical else none) ∧
    (perPeer = true → pool.closing = [] → ∀ source other,
      (∀ permit ∈ pool.live, permit.peer = some source) → other.toCanonical ≠ source →
      (pool.limits.tryAcquire (some other)).1 = some ⟨some other.toCanonical⟩) := by
  have hexact := h.exact
  have hglobal := hexact.global
  refine ⟨⟨hexact.tally.distinct, fun _ _ => hexact.tally.lookup_eq_some⟩, by omega, by omega,
    fun _ hrefused => hexact.refused hrefused, hexact.answer, hexact.charged_eq, ?_⟩
  intro hmode hclosing source other hsource hother
  exact hexact.alone hmode hclosing hsource hother

/-- One source in both spellings, with one attempt too many, another source and a
connection whose source is not known. -/
def samplePool : ConnectionPool :=
  ([some (IpAddr.v6 0xFFFF00000001#128)] ++ List.replicate 8 (some (IpAddr.v4 1)) ++
    [some (IpAddr.v4 2), none]).foldl ConnectionPool.acquire (.new true)

open ConnectionPool in
theorem connections_exact_sample : Reachable true samplePool ∧
    samplePool.limits.peers.lookup (.v4 1) = some 8 ∧
    samplePool.limits.peers.lookup (.v4 2) = some 1 ∧ samplePool.limits.global = 22 ∧
    (samplePool.limits.tryAcquire (some (.v4 1))).1 = none ∧
    (samplePool.limits.tryAcquire (some (.v4 2))).1 = some ⟨some (.v4 2)⟩ := by
  have h : Reachable true samplePool := Reachable.new.acquires _
  obtain ⟨⟨-, hmap⟩, hglobal, -, -, hanswer, -⟩ := connections_exact h
  refine ⟨h, (hmap _ _).mpr (by decide), (hmap _ _).mpr (by decide), hglobal.trans (by decide),
    ?_, ?_⟩
  · rw [hanswer, if_neg]
    rintro ⟨-, hfew⟩
    exact absurd (hfew (.v4 1) (by decide)) (by decide)
  · have hcharged : samplePool.limits.charged (some (.v4 2)) = some (.v4 2) := by decide
    have hfew : ∀ address, samplePool.limits.charged (some (.v4 2)) = some address →
        samplePool.held address < maxConnectionsPerPeer := by
      intro address haddress
      rw [hcharged] at haddress
      cases haddress
      decide
    rw [hanswer, if_pos ⟨by decide, hfew⟩, hcharged]

/-- Behind a reverse proxy sources are not limited: one of them holds every
place, the map does not know it, and another is refused. -/
theorem unlimited_source_keeps_others_out :
    let pool := (List.replicate 32 (some (IpAddr.v4 1))).foldl ConnectionPool.acquire (.new false)
    ConnectionPool.Reachable false pool ∧ pool.live.length = 32 ∧
      pool.limits.peers.lookup (.v4 1) = none ∧
      (pool.limits.tryAcquire (some (.v4 200))).1 = none :=
  ⟨ConnectionPool.Reachable.new.acquires _, by decide, by decide, by decide⟩

end Sbctl
