import Realtinet.UdpServerAdmission
import Realtinet.UdpServerPeers

/-! Whether a peer can be locked out. As long as a peer has an entry in `peerAddrToUdpConnectors_` its
datagrams are dropped, so every entry needs something that will in the end remove it. The branches of
`UdpConnector::connect` for hard and unexpected errors leave the entry with nothing. The entries are
followed in the finite map first, and then in the `std::map` of peers that `operator<` orders. -/

namespace Realtinet

open TransitionSystem

namespace UdpServer

variable {Addr : Type} [DecidableEq Addr]

/-- Something is under way for the peer: its connector has a retry timer, it has a connection in
`connections_`, or a removal is pending. -/
def HasReason (s : UdpServer Addr) (peerAddr : Addr) : Prop :=
  (∃ connector, s.peerAddrToUdpConnectors peerAddr = some connector ∧ .startInLoop connector ∈ s.timers) ∨
    (∃ conn ∈ s.connections, conn.peerAddr = peerAddr) ∨
    (∃ conn, conn.peerAddr = peerAddr ∧ (0, .removeConnectionInLoop conn) ∈ s.pendingFunctors) ∨
    (0, .removeConnector peerAddr) ∈ s.pendingFunctors ∨ .eraseConnector peerAddr ∈ s.timers

/-- Every entry of `peerAddrToUdpConnectors_` has a live reason. -/
def NoneLockedOut (s : UdpServer Addr) : Prop :=
  ∀ peerAddr, s.peerAddrToUdpConnectors peerAddr ≠ none → s.HasReason peerAddr

/-- A `connect(2)` does not end in the groups of hard and unexpected errors. -/
def AttemptNotFailed (s : UdpServer Addr) (i : Input Addr) : Prop :=
  ∀ errno ∈ s.attempt i, errno.outcome ≠ .failed

instance attemptNotFailedDecidable (s : UdpServer Addr) (i : Input Addr) : Decidable (s.AttemptNotFailed i) :=
  match h : s.attempt i with
  | none => .isTrue (by simp [AttemptNotFailed, h])
  | some errno => decidable_of_iff (errno.outcome ≠ .failed) (by simp [AttemptNotFailed, h])

/-- The same in terms of what keeps entries alive. -/
def AllHeld (s : UdpServer Addr) : Prop :=
  ∀ peerAddr, s.peerAddrToUdpConnectors peerAddr ≠ none → 0 < s.holders peerAddr

variable {s s' : UdpServer Addr} {i : Input Addr} {peerAddr : Addr}

theorem hasReason_of_held (h : s.Admission) (hpos : 0 < s.holders peerAddr) :
    s.HasReason peerAddr := by
  have hone : 0 < s.registered peerAddr ∨ 0 < s.posted 0 (.removeConnector peerAddr) ∨
      0 < s.timers.count (.eraseConnector peerAddr) ∨ 0 < s.timers.countP (Timer.retries peerAddr) := by
    rw [holders] at hpos
    omega
  rcases hone with hpos | hpos | hpos | hpos
  · obtain ⟨conn, hmem, hpeer⟩ := List.countP_pos_iff.mp hpos
    exact Or.inr (Or.inl ⟨conn, hmem, by simpa using hpeer⟩)
  · exact Or.inr (Or.inr (Or.inr (Or.inl (List.count_pos_iff.mp hpos))))
  · exact Or.inr (Or.inr (Or.inr (Or.inr (List.count_pos_iff.mp hpos))))
  · obtain ⟨timer, hmem, hretries⟩ := List.countP_pos_iff.mp hpos
    cases timer with
    | startInLoop connector =>
        have hpeer : connector.peerAddr = peerAddr := by simpa [Timer.retries] using hretries
        exact Or.inl ⟨connector, hpeer ▸ (h.retry connector hmem).1, hmem⟩
    | eraseConnector other => simp [Timer.retries] at hretries

/-- A queued `removeConnectionInLoop` of a connection that closed once still has its connection. -/
theorem registered_of_removing {conn : ConnectionPtr Addr} (hledger : s.Ledger) (honce : s.NoneClosedTwice)
    (hmem : (0, .removeConnectionInLoop conn) ∈ s.pendingFunctors) : conn ∈ s.connections := by
  have haccepted : conn ∈ s.accepted := (hledger.queued _ hmem).2
  have hlife := hledger.lives conn haccepted
  have hpos : 0 < s.posted 0 (.removeConnectionInLoop conn) := List.count_pos_iff.mpr hmem
  have hremove : s.posted 0 (.removeConnectionInLoop conn) + s.ran 0 (.removeConnectionInLoop conn) =
    s.closeCalls conn := hlife.remove
  have hle : s.closeCalls conn ≤ 1 := honce conn.connId
  exact hlife.registered.mpr (show s.ran 0 (.removeConnectionInLoop conn) = 0 by omega)

theorem held_of_hasReason (hledger : s.Ledger) (h : s.Admission) (honce : s.NoneClosedTwice)
    (hreason : s.HasReason peerAddr) : 0 < s.holders peerAddr := by
  have hregistered : ∀ conn ∈ s.connections, conn.peerAddr = peerAddr → 0 < s.registered peerAddr :=
    fun conn hmem hpeer => List.countP_pos_iff.mpr ⟨conn, hmem, by simp [hpeer]⟩
  rw [holders]
  rcases hreason with ⟨connector, hentry, hmem⟩ | ⟨conn, hmem, hpeer⟩ | ⟨conn, hpeer, hmem⟩ | hmem | hmem
  · have hpeer := (h.entry peerAddr connector hentry).1
    have hpos : 0 < s.timers.countP (Timer.retries peerAddr) :=
      List.countP_pos_iff.mpr ⟨_, hmem, by simp [Timer.retries, hpeer]⟩
    omega
  · have hpos := hregistered conn hmem hpeer
    omega
  · have hpos := hregistered conn (registered_of_removing hledger honce hmem) hpeer
    omega
  · have hpos : 0 < s.posted 0 (.removeConnector peerAddr) := List.count_pos_iff.mpr hmem
    omega
  · have hpos : 0 < s.timers.count (.eraseConnector peerAddr) := List.count_pos_iff.mpr hmem
    omega

/-- While every entry is held, an input leaves it so exactly if its attempt does not fail for good. -/
theorem allHeld_step (habsent : ∀ peerAddr, s.peerAddrToUdpConnectors peerAddr = none → s.holders peerAddr = 0)
    (hheld : s.AllHeld) (heffect : AdmissionEffect s s' i) :
    s'.AllHeld ↔ s.AttemptNotFailed i := by
  cases heffect with
  | kept hattempt hentries hholders =>
      simp only [AllHeld, AttemptNotFailed, hentries, hholders, hattempt]
      exact ⟨fun _ => by simp, fun _ => hheld⟩
  | admitted peerAddr errno hattempt hentry hentry' hentries hholders =>
      have hnot : s.AttemptNotFailed i ↔ errno.outcome ≠ .failed := by simp [AttemptNotFailed, hattempt]
      rw [hnot]
      constructor
      · intro hheld' hfailed
        have hpos := hheld' peerAddr hentry'
        rw [hholders, if_neg (fun hand => hand.2 hfailed), Nat.add_zero, habsent peerAddr hentry] at hpos
        exact absurd hpos (Nat.lt_irrefl 0)
      · intro hout other hother
        rw [hholders]
        by_cases heq : other = peerAddr
        · rw [if_pos ⟨heq, hout⟩]
          exact Nat.succ_pos _
        · rw [hentries other heq] at hother
          exact Nat.add_pos_left (hheld other hother) _
  | retried peerAddr errno hattempt hentry hone hentries hholders =>
      have hnot : s.AttemptNotFailed i ↔ errno.outcome ≠ .failed := by simp [AttemptNotFailed, hattempt]
      rw [hnot]
      constructor
      · intro hheld' hfailed
        have hpos := hheld' peerAddr (by rw [hentries]; exact hentry)
        rw [hholders, if_pos rfl, if_neg (fun hne => hne hfailed)] at hpos
        exact absurd hpos (Nat.lt_irrefl 0)
      · intro hout other hother
        rw [hentries] at hother
        rw [hholders]
        split_ifs
        · exact Nat.one_pos
        · exact hheld other hother
  | erased peerAddr hattempt hone hentry' hentries hholders =>
      have hnot : s.AttemptNotFailed i := by simp [AttemptNotFailed, hattempt]
      refine iff_of_true ?_ hnot
      intro other hother
      have hne : other ≠ peerAddr := fun heq => hother (heq ▸ hentry')
      rw [hentries other hne] at hother
      rw [hholders, if_neg hne]
      exact hheld other hother

/-- An entry that nothing keeps alive stays as it is. -/
theorem not_allHeld_step (hstuck : ¬s.AllHeld) (heffect : AdmissionEffect s s' i) : ¬s'.AllHeld := by
  simp only [AllHeld, not_forall] at hstuck ⊢
  obtain ⟨stuck, hentry, hzero⟩ := hstuck
  refine ⟨stuck, ?_⟩
  cases heffect with
  | kept hattempt hentries hholders => exact ⟨by rwa [hentries], by rwa [hholders]⟩
  | admitted peerAddr errno hattempt hnone hentry' hentries hholders =>
      have hne : stuck ≠ peerAddr := fun heq => hentry (heq ▸ hnone)
      refine ⟨by rwa [hentries stuck hne], ?_⟩
      rwa [hholders, if_neg (fun hand => hne hand.1), Nat.add_zero]
  | retried peerAddr errno hattempt hsome hone hentries hholders =>
      have hne : stuck ≠ peerAddr := fun heq => hzero (by rw [heq, hone]; exact Nat.one_pos)
      exact ⟨by rwa [hentries], by rwa [hholders, if_neg hne]⟩
  | erased peerAddr hattempt hone hentry' hentries hholders =>
      have hne : stuck ≠ peerAddr := fun heq => hzero (by rw [heq, hone]; exact Nat.one_pos)
      exact ⟨by rwa [hentries stuck hne], by rwa [hholders, if_neg hne]⟩

omit [DecidableEq Addr] in
theorem newConnection_eq_ok (peerAddr : Addr) (s : UdpServer Addr) :
    ∃ s', s.newConnection peerAddr = .ok s' ∧ s'.peerAddrToUdpConnectors = s.peerAddrToUdpConnectors := by
  simp only [newConnection, runInLoop]
  split_ifs
  · have hconn : (s.registerConnection ⟨s.nextConnId, s.threadPool.getNextLoop.1, peerAddr⟩).conns s.nextConnId =
        UdpConnection.new s.writeCompleteCallback := by simp [registerConnection]
    simp only [runFunctor, stepConnection, hconn]
    exact ⟨_, rfl, rfl⟩
  · exact ⟨_, rfl, rfl⟩

/-- A datagram of a peer without an entry makes one, and starts its connector. -/
theorem handleRead_admits (hnone : s.peerAddrToUdpConnectors peerAddr = none) (errno : Errno) :
    ∃ s', s.step (.handleRead (some peerAddr) errno) = .ok s' ∧
      s'.peerAddrToUdpConnectors peerAddr = some ⟨s.nextConnector, peerAddr⟩ := by
  simp only [step, handleRead, hnone, startConnector]
  have hstart : UdpConnector.new.start.startInLoop errno = .ok (UdpConnector.new.start.connect errno) := rfl
  rw [hstart, UdpConnector.connect]
  cases errno.outcome with
  | connected =>
      obtain ⟨s', hnew, hentries⟩ := newConnection_eq_ok peerAddr
        { s with
          nextConnector := s.nextConnector + 1
          peerAddrToUdpConnectors := Function.update s.peerAddrToUdpConnectors peerAddr
            (some ⟨s.nextConnector, peerAddr⟩)
          connectors := Function.update s.connectors s.nextConnector UdpConnector.new.start.connected.1 }
      refine ⟨s', ?_, by simp [hentries]⟩
      exact (run_singleton _ _).trans hnew
  | retry => exact ⟨_, rfl, by simp [post]⟩
  | failed => exact ⟨_, rfl, by simp [post]⟩

/-- Over every run all entries are held exactly if no attempt has failed for good. -/
theorem allHeld_iff {numThreads : Nat} {writeComplete : Bool} {inputs : List (Input Addr)}
    (hrun : Run numThreads writeComplete inputs s) :
    s.AllHeld ↔ Along step AttemptNotFailed (new numThreads writeComplete) inputs := by
  refine good_iff_along (fun s => s.Ledger ∧ s.Admission) AllHeld ?_ ?_ ?_
    ⟨ledger_new numThreads writeComplete, admission_new numThreads writeComplete⟩ ?_
    (along_of_forall (fun _ _ => trivial) _ inputs) hrun
  · intro s i s' hinv _ hstep
    exact ⟨ledger_step hinv.1 hstep, (admission_step hinv.1 hinv.2 hstep).1⟩
  · intro s i s' hinv _ hheld hstep
    exact allHeld_step hinv.2.absent hheld (admission_step hinv.1 hinv.2 hstep).2
  · intro s i s' hinv hstuck hstep
    exact not_allHeld_step hstuck (admission_step hinv.1 hinv.2 hstep).2
  · intro peerAddr hentry
    exact absurd rfl hentry

theorem noneClosedTwice_run {numThreads : Nat} {writeComplete : Bool} {inputs : List (Input Addr)}
    (honce : Along step ClosesOnce (new numThreads writeComplete) inputs)
    (hrun : Run numThreads writeComplete inputs s) : s.NoneClosedTwice := by
  refine run_invariant_along (fun _ _ _ h1 h2 h3 => noneClosedTwice_step h1 h2 h3) ?_ honce hrun
  intro id
  simp [new, UdpConnection.new]

/-- Over every run with a finite map no entry is without a reason if no attempt has failed for good, and, as long as no
connection calls its `closeCallback_` twice, only then. -/
theorem noneLockedOut_run {numThreads : Nat} {writeComplete : Bool} {inputs : List (Input Addr)}
    (hrun : Run numThreads writeComplete inputs s) :
    (Along step AttemptNotFailed (new numThreads writeComplete) inputs → s.NoneLockedOut) ∧
      (Along step ClosesOnce (new numThreads writeComplete) inputs → s.NoneLockedOut →
        Along step AttemptNotFailed (new numThreads writeComplete) inputs) := by
  obtain ⟨hledger, hadmission⟩ := admission_run hrun
  rw [← allHeld_iff hrun]
  constructor
  · intro hheld peerAddr hentry
    exact hasReason_of_held hadmission (hheld peerAddr hentry)
  · intro honce hfree peerAddr hentry
    exact held_of_hasReason hledger hadmission (noneClosedTwice_run honce hrun) (hfree peerAddr hentry)

end UdpServer

namespace OrderedServer

variable {Peers : Set InetAddress}

/-- A `connect(2)` does not end in the groups of hard and unexpected errors. -/
def AttemptNotFailed (m : OrderedServer Peers) (i : UdpServer.Input Peers) : Prop := m.view.AttemptNotFailed i

instance attemptNotFailedDecidable (m : OrderedServer Peers) (i : UdpServer.Input Peers) :
    Decidable (m.AttemptNotFailed i) :=
  inferInstanceAs (Decidable (m.view.AttemptNotFailed i))

def ClosesOnce (m : OrderedServer Peers) (i : UdpServer.Input Peers) : Prop := m.view.ClosesOnce i

instance closesOnceDecidable (m : OrderedServer Peers) (i : UdpServer.Input Peers) : Decidable (m.ClosesOnce i) :=
  inferInstanceAs (Decidable (m.view.ClosesOnce i))

/-- Every entry that the map finds has a live reason. -/
def NoneLockedOut (m : OrderedServer Peers) : Prop := m.view.NoneLockedOut

/-- A datagram of a peer that is not found makes an entry for it, and starts its connector. -/
theorem handleRead_admits (hpeers : PeersOrdered Peers) {m : OrderedServer Peers} {peerAddr : Peers}
    (hnone : m.find peerAddr = none) (errno : Errno) :
    ∃ m', m.step (.handleRead (some peerAddr) errno) = .ok m' ∧
      m'.find peerAddr = some ⟨m.server.nextConnector, peerAddr⟩ := by
  have horder := strictTotalOrder_below hpeers
  obtain ⟨s', hstep, -⟩ := UdpServer.handleRead_admits (s := m.view) hnone errno
  have hmap : m.updatePeers (.handleRead (some peerAddr) errno) =
      OrderedMap.assign below peerAddr ⟨m.server.nextConnector, peerAddr⟩ m.peers := by
    simp only [updatePeers, hnone]
  refine ⟨⟨s', _⟩, by rw [step, hstep], ?_⟩
  rw [find, hmap, OrderedMap.find?_assign_self]

/-- **When no peer is locked out.** The peers are addresses of one family that `operator<` orders. In every run in
which no `connect(2)` of a connector ends in the groups of hard and unexpected errors, every entry has a live reason,
so that a peer without one has no entry and its next datagram is admitted. Conversely, as long as no connection calls
its `closeCallback_` twice, a run that locks no peer out is of this kind. -/
theorem noneLockedOut_iff (Peers : Set InetAddress) (hpeers : PeersOrdered Peers) (numThreads : Nat)
    (writeComplete : Bool) (inputs : List (UdpServer.Input Peers)) (m : OrderedServer Peers)
    (hrun : Run numThreads writeComplete inputs m) :
    (Along step AttemptNotFailed (new numThreads writeComplete) inputs →
      m.NoneLockedOut ∧ ∀ peerAddr, ¬m.view.HasReason peerAddr → ∀ errno, ∃ m',
        m.step (.handleRead (some peerAddr) errno) = .ok m' ∧
          m'.find peerAddr = some ⟨m.server.nextConnector, peerAddr⟩) ∧
      (Along step ClosesOnce (new numThreads writeComplete) inputs → m.NoneLockedOut →
        Along step AttemptNotFailed (new numThreads writeComplete) inputs) := by
  obtain ⟨hforward, hconverse⟩ := UdpServer.noneLockedOut_run (run_view hpeers hrun)
  constructor
  · intro hgood
    have hfree : m.NoneLockedOut := hforward ((along_view hpeers).mpr hgood)
    refine ⟨hfree, ?_⟩
    intro peerAddr hreason errno
    have hnone : m.find peerAddr = none := by
      by_contra hentry
      exact hreason (hfree peerAddr hentry)
    exact handleRead_admits hpeers hnone errno
  · intro honce hfree
    exact (along_view hpeers).mp (hconverse ((along_view hpeers).mpr honce) hfree)

/-- Any address may send a datagram. -/
def anyPeer (a : InetAddress) : (Set.univ : Set InetAddress) := ⟨a, trivial⟩

/-- A peer whose first `connect(2)` is refused for good. -/
theorem peer_locked_out :
    ¬∀ (numThreads : Nat) (writeComplete : Bool) (inputs : List (UdpServer.Input (Set.univ : Set InetAddress)))
      (m : OrderedServer Set.univ), Run numThreads writeComplete inputs m → m.NoneLockedOut := by
  intro h
  have hreason := h 0 false [.handleRead (some (anyPeer InetAddress.firstPeer)) .EACCES] _ rfl
    (anyPeer InetAddress.firstPeer) (by decide)
  -- no timer, no connection, and nothing is queued
  rcases hreason with ⟨connector, -, hmem⟩ | ⟨conn, hmem, -⟩ | ⟨conn, -, hmem⟩ | hmem | hmem
  · exact List.not_mem_nil hmem
  · exact List.not_mem_nil hmem
  · exact List.not_mem_nil hmem
  · exact List.not_mem_nil hmem
  · exact List.not_mem_nil hmem

/-- A peer whose first `connect(2)` is to be retried, and whose connection closes in its own loop. -/
def retriedThenClosed {Addr : Type} (peerAddr : Addr) : List (UdpServer.Input Addr) :=
  let conn : ConnectionPtr Addr := ⟨1, 1, peerAddr⟩
  [.handleRead (some peerAddr) .ECONNREFUSED, .handleRead (some peerAddr) .ok, .timer 0 .ok, .functor 1,
    .connection conn (.updateReturns (-1)), .connection conn .userReturns, .connection conn .proceed,
    .connection conn .userReturns, .functor 0, .functor 0, .functor 1, .connection conn .proceed, .functor 0,
    .timer 0 .ok]

theorem peersOrdered_singleton (a : InetAddress) (hfamily : a.sin6_family = AF_INET ∨ a.sin6_family = AF_INET6) :
    PeersOrdered {a} := by
  refine ⟨⟨a.sin6_family, hfamily, ?_⟩, ?_, ?_⟩
  · rintro b rfl
    rfl
  · rintro b rfl c rfl -
    rfl
  · rintro b rfl c rfl ⟨-, hport⟩
    exact Nat.lt_irrefl _ hport

theorem retriedThenClosed_not_lockedOut :
    let peerAddr : ({InetAddress.firstPeer} : Set InetAddress) := ⟨InetAddress.firstPeer, rfl⟩
    ∃ m : OrderedServer {InetAddress.firstPeer}, Run 1 false (retriedThenClosed peerAddr) m ∧
      m.find peerAddr = none ∧ m.NoneLockedOut ∧
      Along step AttemptNotFailed (new 1 false) (retriedThenClosed peerAddr) := by
  intro peerAddr
  obtain ⟨m, hrun, hnone⟩ : ∃ m : OrderedServer {InetAddress.firstPeer}, Run 1 false (retriedThenClosed peerAddr) m ∧
      m.find peerAddr = none := ⟨_, rfl, by decide⟩
  obtain ⟨hforward, hconverse⟩ := noneLockedOut_iff {InetAddress.firstPeer}
    (peersOrdered_singleton _ (Or.inl rfl)) 1 false (retriedThenClosed peerAddr) m hrun
  have hfree := (hforward (by decide)).1
  exact ⟨m, hrun, hnone, hfree, hconverse (by decide) hfree⟩

end OrderedServer
end Realtinet
