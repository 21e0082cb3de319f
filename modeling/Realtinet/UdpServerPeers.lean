import Realtinet.InetAddress
import Realtinet.OrderedMap
import Realtinet.UdpServerConnections

/-! The server with `peerAddrToUdpConnectors_` as the source has it: a `std::map` under the `operator<` of
`InetAddress`. The datagrams come from a set of peers. If `operator<` is a strict total order on them, the map is a
finite map on the addresses and the server runs as `UdpServer` does. -/

namespace Realtinet

open EitherOrder InetAddress TransitionSystem

/-- The server; `peers` has the entries of the map in their order, and answers the lookups instead of the finite map
of `server`. -/
structure OrderedServer (Peers : Set InetAddress) where
  server : UdpServer Peers
  peers : List (Peers × ConnectorPtr Peers)

namespace OrderedServer

variable {Peers : Set InetAddress}

/-- The comparison of the map. -/
def below (a b : Peers) : Bool := a.1.operatorLt b.1

def new (numThreads : Nat) (writeCompleteCallback : Bool) : OrderedServer Peers :=
  ⟨UdpServer.new numThreads writeCompleteCallback, []⟩

def find (m : OrderedServer Peers) (peerAddr : Peers) : Option (ConnectorPtr Peers) :=
  OrderedMap.find? below peerAddr m.peers

/-- The server as a machine that looks its peers up in the map. -/
def view (m : OrderedServer Peers) : UdpServer Peers := { m.server with peerAddrToUdpConnectors := m.find }

/-- What an input does to the map: `handleRead` assigns the new connector to a peer that it has not found,
`EraseConnector` erases a peer. -/
def updatePeers (m : OrderedServer Peers) : UdpServer.Input Peers → List (Peers × ConnectorPtr Peers)
  | .handleRead (some peerAddr) _ =>
      match m.find peerAddr with
      | some _ => m.peers
      | none => OrderedMap.assign below peerAddr ⟨m.server.nextConnector, peerAddr⟩ m.peers
  | .timer index _ =>
      match m.server.timers[index]? with
      | some (.eraseConnector peerAddr) => OrderedMap.erase below peerAddr m.peers
      | _ => m.peers
  | _ => m.peers

def step (m : OrderedServer Peers) (i : UdpServer.Input Peers) : Except Halt (OrderedServer Peers) :=
  match m.view.step i with
  | .ok server => .ok ⟨server, m.updatePeers i⟩
  | .error e => .error e

/-- The servers some run leads to from a newly started one. -/
def Run (numThreads : Nat) (writeCompleteCallback : Bool) (inputs : List (UdpServer.Input Peers))
    (m : OrderedServer Peers) : Prop :=
  run step (new numThreads writeCompleteCallback) inputs = .ok m

end OrderedServer

/-! ### The entries of the finite map -/

namespace UdpServer

variable {Addr : Type} [DecidableEq Addr] {s s' : UdpServer Addr} {i : Input Addr} {conn : ConnectionPtr Addr}
  {connector : ConnectorPtr Addr}

omit [DecidableEq Addr] in
theorem entries_runFunctor {loop : Nat} {functor : Functor Addr} (h : s.runFunctor loop functor = .ok s') :
    s'.peerAddrToUdpConnectors = s.peerAddrToUdpConnectors := by
  cases functor with
  | connectEstablished conn | connectDestroyed conn =>
      obtain ⟨c, -, rfl⟩ := stepConnection_eq_ok h
      rfl
  | removeConnectionInLoop conn =>
      simp only [runFunctor, removeConnectionInLoop] at h
      split_ifs at h
      cases h
      rfl
  | removeConnector peerAddr =>
      simp only [runFunctor, removeConnector] at h
      split at h <;> cases h
      rfl
  | stopInLoop connector =>
      obtain ⟨c, new, timers, rfl, -⟩ := stopConnector_eq_ok h
      rfl
  | resetChannel connector =>
      cases h
      rfl

omit [DecidableEq Addr] in
theorem entries_runInLoop {caller loop : Nat} {functor : Functor Addr} (h : s.runInLoop caller loop functor = .ok s') :
    s'.peerAddrToUdpConnectors = s.peerAddrToUdpConnectors := by
  rw [runInLoop] at h
  split_ifs at h
  · exact entries_runFunctor h
  · cases h
    rfl

omit [DecidableEq Addr] in
theorem entries_perform {effect : ConnectorEffect} (h : s.perform connector effect = .ok s') :
    s'.peerAddrToUdpConnectors = s.peerAddrToUdpConnectors := by
  cases effect with
  | newConnection =>
      have hentries := entries_runInLoop h
      exact hentries
  | _ =>
      cases h
      rfl

omit [DecidableEq Addr] in
theorem entries_startConnector {c : UdpConnector} {errno : Errno}
    (h : s.startConnector connector c errno = .ok s') : s'.peerAddrToUdpConnectors = s.peerAddrToUdpConnectors := by
  unfold startConnector at h
  split at h
  · have hkept : ∀ (t : UdpServer Addr) effect t', t.peerAddrToUdpConnectors = s.peerAddrToUdpConnectors →
        t.perform connector effect = .ok t' → t'.peerAddrToUdpConnectors = s.peerAddrToUdpConnectors := by
      intro t effect t' ht hperform
      exact (entries_perform hperform).trans ht
    refine run_invariant hkept ?_ h
    rfl
  · cases h

omit [DecidableEq Addr] in
theorem entries_connectionInput {j : UdpConnection.Input} (h : s.connectionInput conn j = .ok s') :
    s'.peerAddrToUdpConnectors = s.peerAddrToUdpConnectors := by
  obtain ⟨c, -, ⟨-, rfl⟩ | ⟨-, hremove⟩⟩ := connectionInput_cases h
  · rfl
  · have hentries := entries_runInLoop hremove
    exact hentries

/-- The finite map after an input. -/
def updateEntries (s : UdpServer Addr) : Input Addr → Addr → Option (ConnectorPtr Addr)
  | .handleRead (some peerAddr) _ =>
      match s.peerAddrToUdpConnectors peerAddr with
      | some _ => s.peerAddrToUdpConnectors
      | none => Function.update s.peerAddrToUdpConnectors peerAddr (some ⟨s.nextConnector, peerAddr⟩)
  | .timer index _ =>
      match s.timers[index]? with
      | some (.eraseConnector peerAddr) => Function.update s.peerAddrToUdpConnectors peerAddr none
      | _ => s.peerAddrToUdpConnectors
  | _ => s.peerAddrToUdpConnectors

theorem entries_step (h : s.step i = .ok s') : s'.peerAddrToUdpConnectors = s.updateEntries i := by
  cases i with
  | handleRead received errno =>
      simp only [step, handleRead] at h
      split at h
      · cases h
        rfl
      · split at h
        · rename_i hentry
          cases h
          simp only [updateEntries, hentry]
        · rename_i hentry
          have hentries := entries_startConnector h
          simp only [updateEntries, hentry]
          exact hentries
  | timer index errno =>
      simp only [step] at h
      split at h
      · rename_i htimer
        have hentries := entries_startConnector h
        simp only [updateEntries, htimer]
        exact hentries
      · rename_i htimer
        cases h
        simp only [updateEntries, htimer, eraseConnector]
      · cases h
  | functor loop =>
      simp only [step] at h
      split at h
      · have hentries := entries_runFunctor h
        exact hentries
      · cases h
  | connection conn j =>
      simp only [step] at h
      split_ifs at h
      exact entries_connectionInput h

end UdpServer

/-! ### Peers that `operator<` orders -/

/-- Addresses of one family that `operator<` orders strictly: no two share ip and port without being equal, and no two
have the smaller ip with the larger port. -/
structure PeersOrdered (Peers : Set InetAddress) : Prop where
  family : ∃ family, (family = AF_INET ∨ family = AF_INET6) ∧ ∀ a ∈ Peers, a.sin6_family = family
  key_inj : ∀ a ∈ Peers, ∀ b ∈ Peers, a.key = b.key → a = b
  chain : ∀ a ∈ Peers, ∀ b ∈ Peers, ¬(a.ipBelow b ∧ b.port < a.port)

namespace OrderedServer

variable {Peers : Set InetAddress} {m m' : OrderedServer Peers} {i : UdpServer.Input Peers}

theorem strictTotalOrder_below (h : PeersOrdered Peers) : IsStrictTotalOrder Peers fun a b => below a b = true := by
  obtain ⟨family, hfamily, hof⟩ := h.family
  have horders : OrdersPeers Peers :=
    (ordersPeers_iff_eitherLt hfamily hof).mpr ((strictWeakOrderOn_iff key Peers).mpr h.chain)
  refine { trichotomous := fun a b hab hba => ?_, irrefl := fun a => ?_, trans := fun a b c => ?_ }
  · have hsame := (horders.incomparable_iff a a.2 b b.2).mp ⟨hab, hba⟩
    exact Subtype.ext (h.key_inj a a.2 b b.2 (Prod.ext hsame.1 hsame.2))
  · exact horders.irrefl a a.2
  · exact horders.trans a a.2 b b.2 c c.2

/-! ### The map is the finite map -/

/-- `s` is the server with its map taken for a finite map. -/
def Shows (s : UdpServer Peers) (m : OrderedServer Peers) : Prop := s = m.view ∧ OrderedMap.Sorted below m.peers

theorem shows_new (numThreads : Nat) (writeComplete : Bool) :
    Shows (UdpServer.new numThreads writeComplete) (new numThreads writeComplete : OrderedServer Peers) :=
  ⟨rfl, OrderedMap.sorted_nil⟩

/-- On ordered peers the operations on the map are those on the finite map. -/
theorem updatePeers_eq (h : PeersOrdered Peers) (hsorted : OrderedMap.Sorted below m.peers) :
    (fun a => OrderedMap.find? below a (m.updatePeers i)) = m.view.updateEntries i ∧
      OrderedMap.Sorted below (m.updatePeers i) := by
  have horder := strictTotalOrder_below h
  cases i with
  | handleRead received errno =>
      cases received with
      | none => exact ⟨rfl, hsorted⟩
      | some peerAddr =>
          have hview : m.view.peerAddrToUdpConnectors = m.find := rfl
          simp only [updatePeers, UdpServer.updateEntries, hview]
          cases m.find peerAddr with
          | some connector => exact ⟨rfl, hsorted⟩
          | none => exact ⟨OrderedMap.find?_assign _ _ _, OrderedMap.sorted_assign hsorted⟩
  | timer index errno =>
      have hview : m.view.timers = m.server.timers := rfl
      simp only [updatePeers, UdpServer.updateEntries, hview]
      cases m.server.timers[index]? with
      | none => exact ⟨rfl, hsorted⟩
      | some timer =>
          cases timer with
          | startInLoop connector => exact ⟨rfl, hsorted⟩
          | eraseConnector peerAddr => exact ⟨OrderedMap.find?_erase hsorted _, OrderedMap.sorted_erase hsorted⟩
  | functor loop => exact ⟨rfl, hsorted⟩
  | connection conn j => exact ⟨rfl, hsorted⟩

/-- **On ordered peers the server runs as with a finite map.** -/
theorem step_matches (h : PeersOrdered Peers) {s : UdpServer Peers} (hshows : Shows s m) :
    Matches Shows (s.step i) (m.step i) := by
  obtain ⟨rfl, hsorted⟩ := hshows
  unfold step
  cases hstep : m.view.step i with
  | error e => exact .error e
  | ok s' =>
      obtain ⟨hentries, hsorted'⟩ := updatePeers_eq (i := i) h hsorted
      refine .ok ⟨?_, hsorted'⟩
      have hmap : s'.peerAddrToUdpConnectors = fun a => OrderedMap.find? below a (m.updatePeers i) :=
        (UdpServer.entries_step hstep).trans hentries.symm
      unfold view find
      rw [← hmap]

theorem run_view (h : PeersOrdered Peers) {numThreads : Nat} {writeComplete : Bool}
    {inputs : List (UdpServer.Input Peers)} (hrun : Run numThreads writeComplete inputs m) :
    UdpServer.Run numThreads writeComplete inputs m.view := by
  have hmatch := run_matches Shows (fun s t i hR _ => step_matches (i := i) h hR)
    (shows_new numThreads writeComplete) (along_of_forall (fun _ _ => trivial) _ inputs)
  rw [Run] at hrun
  rw [hrun] at hmatch
  unfold UdpServer.Run
  generalize run UdpServer.step (UdpServer.new numThreads writeComplete) inputs = x at hmatch ⊢
  cases hmatch with
  | ok hshows => rw [hshows.1]

/-- A condition that looks at the server through its map holds along a run if it holds of the finite map. -/
theorem along_view (h : PeersOrdered Peers) {P : UdpServer Peers → UdpServer.Input Peers → Prop} {numThreads : Nat}
    {writeComplete : Bool} {inputs : List (UdpServer.Input Peers)} :
    Along UdpServer.step P (UdpServer.new numThreads writeComplete) inputs ↔
      Along step (fun m i => P m.view i) (new numThreads writeComplete) inputs :=
  along_matches Shows (fun _ _ i hR => step_matches (i := i) h hR) (fun _ _ _ hR => by rw [hR.1])
    (shows_new numThreads writeComplete)

end OrderedServer
end Realtinet
