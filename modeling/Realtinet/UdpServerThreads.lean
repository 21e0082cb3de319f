import Realtinet.UdpServerLedger

/-! The threads of a server. Connections are dealt out to the loops of the pool in turn, whatever happens to them
afterwards: the number of a connection alone says which loop has it. Everything that is run for a connection later on,
in whichever thread it was asked for, is run in that loop, and what concerns the server itself in loop 0; so no
`assertInLoopThread` of these functions fails. -/

namespace Realtinet.UdpServer

open TransitionSystem

variable {Addr : Type} {s s' : UdpServer Addr} {functor : Functor Addr} {loop n : Nat}

/-- The loop of the connection with the given number. -/
def turnOf (n connId : Nat) : Nat :=
  if n = 0 then 0 else (connId - 1) % n + 1

/-- The loop a functor belongs to. -/
def Functor.home (n : Nat) : Functor Addr → Nat
  | .connectEstablished conn | .connectDestroyed conn => turnOf n conn.connId
  | .removeConnectionInLoop _ | .removeConnector _ | .stopInLoop _ | .resetChannel _ => 0

/-- The connections a loop has been given. -/
def load (s : UdpServer Addr) (loop : Nat) : Nat :=
  s.accepted.countP fun conn => conn.loop = loop

/-- After `rounds` full rounds, the loops before the next one have had one more connection than the others. -/
structure Dealt (n : Nat) (s : UdpServer Addr) : Prop where
  threads : s.threadPool.numThreads = n
  number : s.nextConnId = s.accepted.length + 1
  loops : ∀ conn ∈ s.accepted, conn.loop = turnOf n conn.connId
  round : n ≠ 0 → s.threadPool.next < n ∧ ∃ rounds, s.accepted.length = rounds * n + s.threadPool.next ∧
    ∀ loop, 1 ≤ loop → loop ≤ n → s.load loop = rounds + if loop ≤ s.threadPool.next then 1 else 0

/-- What the dealing of connections is about. -/
def dealing (s : UdpServer Addr) :=
  (s.threadPool, s.nextConnId, s.accepted)

theorem Dealt.congr (h : s.Dealt n) (hdealing : s'.dealing = s.dealing) : s'.Dealt n := by
  simp only [dealing, Prod.mk.injEq] at hdealing
  obtain ⟨hpool, hnext, haccepted⟩ := hdealing
  refine ⟨by rw [hpool]; exact h.threads, by rw [hnext, haccepted]; exact h.number, by rw [haccepted]; exact h.loops, ?_⟩
  simp only [load, hpool, haccepted]
  exact h.round

theorem dealing_runFunctor (hrun : s.runFunctor loop functor = .ok s') : s'.dealing = s.dealing := by
  cases functor with
  | connectEstablished conn =>
      obtain ⟨c, -, rfl⟩ := stepConnection_eq_ok hrun
      rfl
  | connectDestroyed conn =>
      obtain ⟨c, -, rfl⟩ := stepConnection_eq_ok hrun
      rfl
  | removeConnectionInLoop conn =>
      simp only [runFunctor, removeConnectionInLoop] at hrun
      split_ifs at hrun
      cases hrun
      rfl
  | removeConnector peerAddr =>
      simp only [runFunctor, removeConnector] at hrun
      split at hrun <;> cases hrun
      rfl
  | stopInLoop connector =>
      obtain ⟨c, new, timers, rfl, -⟩ := stopConnector_eq_ok hrun
      rfl
  | resetChannel connector =>
      cases hrun
      rfl

theorem dealing_runInLoop {caller : Nat} (hrun : s.runInLoop caller loop functor = .ok s') : s'.dealing = s.dealing := by
  rw [runInLoop] at hrun
  split_ifs at hrun
  · exact dealing_runFunctor hrun
  · cases hrun
    rfl

/-- The connection that is registered goes to the loop whose turn it is. -/
theorem dealt_registerConnection (h : s.Dealt n) (peerAddr : Addr) :
    (s.registerConnection ⟨s.nextConnId, s.threadPool.getNextLoop.1, peerAddr⟩).Dealt n := by
  by_cases hn : n = 0
  · have hloop : s.threadPool.getNextLoop = (0, s.threadPool) := by
      rw [EventLoopThreadPool.getNextLoop, if_pos (h.threads.trans hn)]
    refine ⟨?_, ?_, ?_, fun hpos => absurd hn hpos⟩
    · rw [registerConnection, hloop]
      exact h.threads
    · simp [registerConnection, h.number]
    · intro conn hmem
      rcases List.mem_cons.mp hmem with rfl | hmem
      · rw [hloop, turnOf, if_pos hn]
      · exact h.loops conn hmem
  · obtain ⟨hlt, rounds, hlength, hload⟩ := h.round hn
    have hloop : s.threadPool.getNextLoop =
        (s.threadPool.next + 1, ⟨n, if s.threadPool.next + 1 ≥ n then 0 else s.threadPool.next + 1⟩) := by
      rw [EventLoopThreadPool.getNextLoop, if_neg (h.threads ▸ hn), h.threads]
    have hload' : ∀ loop, (s.registerConnection ⟨s.nextConnId, s.threadPool.getNextLoop.1, peerAddr⟩).load loop =
        s.load loop + if s.threadPool.next + 1 = loop then 1 else 0 := by
      intro loop
      simp [load, registerConnection, List.countP_cons, hloop]
    refine ⟨?_, ?_, ?_, fun _ => ?_⟩
    · rw [registerConnection, hloop]
    · simp [registerConnection, h.number]
    · intro conn hmem
      rcases List.mem_cons.mp hmem with rfl | hmem
      · rw [hloop, turnOf, if_neg hn, h.number, Nat.add_sub_cancel, hlength, Nat.mul_comm, Nat.mul_add_mod,
          Nat.mod_eq_of_lt hlt]
      · exact h.loops conn hmem
    · simp only [hload']
      have hpool : (s.registerConnection ⟨s.nextConnId, s.threadPool.getNextLoop.1, peerAddr⟩).threadPool.next =
          if s.threadPool.next + 1 ≥ n then 0 else s.threadPool.next + 1 := by
        rw [registerConnection, hloop]
      have hlength' : (s.registerConnection ⟨s.nextConnId, s.threadPool.getNextLoop.1, peerAddr⟩).accepted.length =
          rounds * n + (s.threadPool.next + 1) := by
        rw [← Nat.add_assoc, ← hlength]
        rfl
      rw [hpool, hlength']
      split_ifs with hlast
      · -- the round is over
        refine ⟨Nat.pos_of_ne_zero hn, rounds + 1, ?_, ?_⟩
        · rw [Nat.succ_mul]
          omega
        · intro loop hpos hle
          rw [hload loop hpos hle]
          split_ifs <;> omega
      · refine ⟨by omega, rounds, rfl, ?_⟩
        intro loop hpos hle
        rw [hload loop hpos hle]
        split_ifs <;> omega

theorem dealt_perform {connector : ConnectorPtr Addr} {effect : ConnectorEffect} (h : s.Dealt n)
    (hrun : s.perform connector effect = .ok s') : s'.Dealt n := by
  cases effect with
  | newConnection => exact (dealt_registerConnection h connector.peerAddr).congr (dealing_runInLoop hrun)
  | socket =>
      cases hrun
      exact h
  | runAfter delayMs =>
      cases hrun
      exact h.congr rfl
  | resetChannel =>
      cases hrun
      exact h.congr rfl

theorem dealt_startConnector {connector : ConnectorPtr Addr} {c : UdpConnector} {errno : Errno} (h : s.Dealt n)
    (hrun : s.startConnector connector c errno = .ok s') : s'.Dealt n := by
  rw [startConnector] at hrun
  split at hrun
  · refine run_invariant (fun _ _ _ h₁ h₂ => dealt_perform h₁ h₂) ?_ hrun
    exact h.congr rfl
  · cases hrun

theorem dealt_step [DecidableEq Addr] {i : Input Addr} (h : s.Dealt n) (hstep : s.step i = .ok s') : s'.Dealt n := by
  cases i with
  | handleRead peerAddr errno =>
      simp only [step, handleRead] at hstep
      split at hstep
      · cases hstep
        exact h
      · split at hstep
        · cases hstep
          exact h
        · refine dealt_startConnector ?_ hstep
          exact h.congr rfl
  | timer index errno =>
      simp only [step] at hstep
      split at hstep
      · refine dealt_startConnector ?_ hstep
        exact h.congr rfl
      · cases hstep
        exact h.congr rfl
      · cases hstep
  | functor loop =>
      simp only [step] at hstep
      split at hstep
      · have hsame := dealing_runFunctor hstep
        exact h.congr hsame
      · cases hstep
  | connection conn j =>
      simp only [step] at hstep
      split_ifs at hstep
      obtain ⟨c, hc, ⟨-, rfl⟩ | ⟨-, hremove⟩⟩ := connectionInput_cases hstep
      · exact h.congr rfl
      · have hsame := dealing_runInLoop hremove
        exact h.congr hsame

theorem dealt_new (n : Nat) (writeComplete : Bool) : (new n writeComplete : UdpServer Addr).Dealt n := by
  refine ⟨rfl, rfl, by simp [new], ?_⟩
  intro hn
  refine ⟨Nat.pos_of_ne_zero hn, 0, by simp [new], ?_⟩
  intro loop hpos _
  have hnot : ¬loop ≤ 0 := by omega
  simp [load, new, hnot]

/-- **Connections are dealt out in turn.** After every run of a server, however peers arrive, attempts are retried and
connections are closed: the number of a connection says which loop it has, no loop of the pool has been given two more
than another, and every functor has been run by the thread it belongs to, `connectEstablished` and `connectDestroyed`
in the connection's own loop, all others in loop 0. -/
theorem connections_dealt_in_turn [DecidableEq Addr] {writeComplete : Bool} {inputs : List (Input Addr)}
    (hrun : Run n writeComplete inputs s) :
    (∀ conn ∈ s.accepted, conn.loop = turnOf n conn.connId) ∧
      (∀ loop other, 1 ≤ loop → loop ≤ n → 1 ≤ other → other ≤ n → s.load loop ≤ s.load other + 1) ∧
      ∀ loop functor, (loop, functor) ∈ s.executed → loop = functor.home n := by
  have hdealt : s.Dealt n := run_invariant (fun _ _ _ => dealt_step) (dealt_new n writeComplete) hrun
  have hledger : s.Ledger := run_invariant (fun _ _ _ => ledger_step) (ledger_new n writeComplete) hrun
  refine ⟨hdealt.loops, ?_, ?_⟩
  · intro loop other hpos hle hpos' hle'
    obtain ⟨-, rounds, -, hload⟩ := hdealt.round (by omega)
    rw [hload loop hpos hle, hload other hpos' hle']
    split_ifs <;> omega
  · intro loop functor hmem
    have hplaced := hledger.executedPlaced _ hmem
    cases functor with
    | connectEstablished conn => exact hplaced.1.trans (hdealt.loops conn hplaced.2)
    | connectDestroyed conn => exact hplaced.1.trans (hdealt.loops conn hplaced.2)
    | removeConnectionInLoop conn => exact hplaced.1
    | removeConnector peerAddr => exact hplaced
    | stopInLoop connector => exact hplaced
    | resetChannel connector => exact hplaced

/-- Three peers and two I/O loops; the first connection is closed by an error before the third peer comes. -/
def threePeers : List (Input Nat) :=
  let conn : ConnectionPtr Nat := ⟨1, 1, 7⟩
  [.handleRead (some 7) .ok, .functor 1, .connection conn (.updateReturns 10),
    .connection conn (.poll { pollErr := true }), .connection conn .handleEvent,
    .connection conn (.errorCallback 111), .connection conn .userReturns, .connection conn .proceed,
    .connection conn .userReturns, .handleRead (some 8) .ok, .functor 0, .functor 2, .handleRead (some 9) .ok]

theorem connections_dealt_in_turn_threePeers :
    ∃ s : UdpServer Nat, Run 2 false threePeers s ∧ s.accepted = [⟨3, 1, 9⟩, ⟨2, 2, 8⟩, ⟨1, 1, 7⟩] ∧
      s.load 1 ≤ s.load 2 + 1 := by
  obtain ⟨s, hrun, haccepted⟩ : ∃ s : UdpServer Nat, Run 2 false threePeers s ∧
      s.accepted = [⟨3, 1, 9⟩, ⟨2, 2, 8⟩, ⟨1, 1, 7⟩] := ⟨_, rfl, by decide⟩
  exact ⟨s, hrun, haccepted, (connections_dealt_in_turn hrun).2.1 1 2 (by decide) (by decide) (by decide) (by decide)⟩

end Realtinet.UdpServer
