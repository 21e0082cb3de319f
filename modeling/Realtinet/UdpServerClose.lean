import Realtinet.UdpConnectionCallbacks
import Realtinet.UdpConnectionChannel
import Realtinet.UdpServerLedger

/-! How connections leave a server: what the books say about every run, and that the assert of
`removeConnectionInLoop` holds as long as no connection calls its `closeCallback_` twice. -/

namespace Realtinet.UdpServer

open TransitionSystem

variable {Addr : Type} [DecidableEq Addr]

/-- What is promised about the connections of a server. Every removal is executed in loop 0 and takes its
own connection out of `connections_`; `connectDestroyed` is executed at most once, in the connection's
loop, after the connection has been established and removed; and once no functor is queued, every
close has been carried out to its end. -/
structure ClosedInOrder (s : UdpServer Addr) : Prop where
  registered : ∀ conn, conn ∈ s.connections ↔
    conn ∈ s.accepted ∧ (0, .removeConnectionInLoop conn) ∉ s.executed
  removed : ∀ loop conn, (loop, .removeConnectionInLoop conn) ∈ s.executed →
    loop = 0 ∧ s.ran 0 (.removeConnectionInLoop conn) = 1
  destroyed : ∀ loop conn, (loop, .connectDestroyed conn) ∈ s.executed →
    loop = conn.loop ∧ s.ran conn.loop (.connectDestroyed conn) = 1
  destroying : ∀ loop conn, (loop, .connectDestroyed conn) ∈ s.pendingFunctors ++ s.executed →
    (conn.loop, .connectEstablished conn) ∈ s.executed ∧ conn ∉ s.connections
  ordered : Ordered s.executed
  settled : s.pendingFunctors = [] → ∀ conn, conn ∈ s.connections ↔ conn ∈ s.accepted ∧ s.closeCalls conn = 0
  carriedOut : s.pendingFunctors = [] → ∀ conn ∈ s.accepted,
    s.ran 0 (.removeConnectionInLoop conn) = s.closeCalls conn ∧
      s.ran conn.loop (.connectDestroyed conn) = s.closeCalls conn

variable {s s' : UdpServer Addr} {conn : ConnectionPtr Addr} {functor : Functor Addr} {loop : Nat}

theorem not_mem_executed_iff {entry : Nat × Functor Addr} : entry ∉ s.executed ↔ s.ran entry.1 entry.2 = 0 :=
  List.count_eq_zero.symm

theorem Ledger.registered_iff (h : s.Ledger) :
    conn ∈ s.connections ↔ conn ∈ s.accepted ∧ (0, .removeConnectionInLoop conn) ∉ s.executed := by
  rw [not_mem_executed_iff]
  constructor
  · intro hreg
    have hmem := h.registered_accepted conn hreg
    exact ⟨hmem, (h.lives conn hmem).registered.mp hreg⟩
  · rintro ⟨hmem, hran⟩
    exact (h.lives conn hmem).registered.mpr hran

theorem closedInOrder_of_ledger (h : s.Ledger) : s.ClosedInOrder := by
  have hpos : ∀ {loop functor}, (loop, functor) ∈ s.executed → 0 < s.ran loop functor :=
    fun hmem => List.count_pos_iff.mpr hmem
  have hidle : s.pendingFunctors = [] → ∀ conn ∈ s.accepted,
      s.ran 0 (.removeConnectionInLoop conn) = s.closeCalls conn ∧
        s.ran conn.loop (.connectDestroyed conn) = s.closeCalls conn := by
    intro hempty conn hmem
    have hnone : ∀ loop functor, s.posted loop functor = 0 := by
      intro loop functor
      rw [posted, hempty]
      rfl
    have hremove : s.posted 0 (.removeConnectionInLoop conn) + s.ran 0 (.removeConnectionInLoop conn) =
      s.closeCalls conn := (h.lives conn hmem).remove
    have hdestroy : s.posted conn.loop (.connectDestroyed conn) + s.ran conn.loop (.connectDestroyed conn) =
      s.ran 0 (.removeConnectionInLoop conn) := (h.lives conn hmem).destroy
    rw [hnone] at hremove hdestroy
    omega
  constructor
  · exact fun conn => h.registered_iff
  · intro loop conn hmem
    obtain ⟨rfl, haccepted⟩ := h.executedPlaced _ hmem
    have hran := hpos hmem
    have hle : s.ran 0 (.removeConnectionInLoop conn) ≤ 1 := (h.lives conn haccepted).removedOnce
    exact ⟨rfl, by omega⟩
  · intro loop conn hmem
    obtain ⟨rfl, haccepted⟩ := h.executedPlaced _ hmem
    have hran := hpos hmem
    have hle : s.ran 0 (.removeConnectionInLoop conn) ≤ 1 := (h.lives conn haccepted).removedOnce
    have hdestroy : s.posted conn.loop (.connectDestroyed conn) + s.ran conn.loop (.connectDestroyed conn) =
      s.ran 0 (.removeConnectionInLoop conn) := (h.lives conn haccepted).destroy
    exact ⟨rfl, by omega⟩
  · intro loop conn hmem
    obtain ⟨rfl, haccepted⟩ : loop = conn.loop ∧ conn ∈ s.accepted :=
      (List.mem_append.mp hmem).elim (h.queued _) (h.executedPlaced _)
    have hdestroy : 0 < (s.life conn).destroyQueued + (s.life conn).destroyRan := by
      rcases List.mem_append.mp hmem with hmem | hmem
      · exact Nat.add_pos_left (List.count_pos_iff.mpr hmem) _
      · exact Nat.add_pos_right _ (List.count_pos_iff.mpr hmem)
    obtain ⟨hestablished, hremoved⟩ := (h.lives conn haccepted).before_destroyed hdestroy
    refine ⟨List.count_pos_iff.mp hestablished, fun hreg => ?_⟩
    rw [(h.lives conn haccepted).registered.mp hreg] at hremoved
    exact absurd hremoved (Nat.lt_irrefl _)
  · exact h.ordered
  · intro hempty conn
    rw [h.registered_iff, not_mem_executed_iff]
    refine and_congr_right fun hmem => ?_
    rw [← (hidle hempty conn hmem).1]
  · exact hidle

/-! ### The assert of `removeConnectionInLoop` -/

/-- A connection calls its `closeCallback_` only if it has not done so before. -/
def ClosesOnce (s : UdpServer Addr) : Input Addr → Prop
  | .connection conn i => (s.conns conn.connId).callsClose i = true → s.closeCalls conn = 0
  | _ => True

instance closesOnceDecidable (s : UdpServer Addr) : ∀ i : Input Addr, Decidable (s.ClosesOnce i)
  | .connection conn i =>
      inferInstanceAs (Decidable ((s.conns conn.connId).callsClose i = true → s.closeCalls conn = 0))
  | .handleRead _ _ | .timer _ _ | .functor _ => .isTrue trivial

/-- No connection has called its `closeCallback_` twice. -/
def NoneClosedTwice (s : UdpServer Addr) : Prop := ∀ id, (s.conns id).trace.count .closeCallback ≤ 1

omit [DecidableEq Addr] in
theorem noneClosedTwice_update {i : UdpConnection.Input} {c : UdpConnection} (h : s.NoneClosedTwice)
    (hstep : (s.conns conn.connId).step i = .ok c)
    (honce : (s.conns conn.connId).callsClose i = true → s.closeCalls conn = 0) :
    NoneClosedTwice { s with conns := Function.update s.conns conn.connId c } := by
  intro id
  by_cases hid : id = conn.connId
  · subst hid
    have hcount := UdpConnection.step_closeCallback_count hstep
    have hle := h conn.connId
    rw [closeCalls] at honce
    simp only [Function.update_self, hcount]
    cases hcalls : (s.conns conn.connId).callsClose i with
    | true => simp [honce hcalls]
    | false => simpa using hle
  · simpa [hid] using h id

theorem noneClosedTwice_step {i : Input Addr} (h : s.NoneClosedTwice) (honce : s.ClosesOnce i)
    (hstep : s.step i = .ok s') : s'.NoneClosedTwice := by
  have hevery : s.EveryConnection (fun c => c.trace.count .closeCallback ≤ 1) s.writeCompleteCallback := ⟨rfl, h⟩
  refine (every_step ?_ (by simp [UdpConnection.new]) hevery ?_ hstep).conns
  · rintro c j c' (rfl | rfl) hle hc
    · rw [UdpConnection.step_closeCallback_count hc]
      exact hle
    · rw [UdpConnection.step_closeCallback_count hc]
      exact hle
  · rintro conn j c' rfl hc
    simpa using noneClosedTwice_update h hc honce conn.connId

theorem asserts_of_removeAndResetChannel {c : UdpConnector} {a : Assertion}
    (h : c.removeAndResetChannel = .error (.assertFailed a)) : UdpConnection.asserts a = true := by
  unfold UdpConnector.removeAndResetChannel at h
  split at h
  · cases h
  · rcases bind_eq_error.mp h with hdisable | ⟨channel, -, h⟩
    · exact UdpConnection.asserts_of_update hdisable
    · rcases bind_eq_error.mp h with hremove | ⟨_, -, h⟩
      · exact UdpConnection.asserts_of_remove hremove
      · cases h

theorem asserts_of_stopInLoop {c : UdpConnector} {a : Assertion} (h : c.stopInLoop = .error (.assertFailed a)) :
    UdpConnection.asserts a = true := by
  unfold UdpConnector.stopInLoop at h
  split_ifs at h
  split at h
  · cases h
  · rename_i e hreset
    cases h
    exact asserts_of_removeAndResetChannel hreset

omit [DecidableEq Addr] in
theorem asserts_of_stepConnection {i : UdpConnection.Input} {a : Assertion}
    (h : s.stepConnection conn i = .error (.assertFailed a)) : UdpConnection.asserts a = true := by
  rw [stepConnection] at h
  split at h
  · cases h
  · rename_i e hstep
    cases h
    exact UdpConnection.asserts_of_step hstep

omit [DecidableEq Addr] in
/-- The asserts a functor can fail: its own, or one inside a connection or a channel. -/
theorem runFunctor_error {a : Assertion} (hrun : s.runFunctor loop functor = .error (.assertFailed a)) :
    UdpConnection.asserts a = true ∨
      (∃ conn, functor = .removeConnectionInLoop conn ∧ a = .erasedOne ∧
        (s.connections.countP fun c => c.connId = conn.connId) ≠ 1) ∨
      ∃ peerAddr, functor = .removeConnector peerAddr ∧ a = .connectorFound ∧
        s.peerAddrToUdpConnectors peerAddr = none := by
  cases functor with
  | connectEstablished conn => exact Or.inl (asserts_of_stepConnection hrun)
  | connectDestroyed conn => exact Or.inl (asserts_of_stepConnection hrun)
  | removeConnectionInLoop conn =>
      simp only [runFunctor, removeConnectionInLoop] at hrun
      split_ifs at hrun with hone
      cases hrun
      exact Or.inr (Or.inl ⟨conn, rfl, rfl, hone⟩)
  | removeConnector peerAddr =>
      simp only [runFunctor, removeConnector] at hrun
      split at hrun
      · cases hrun
      · rename_i hnone
        cases hrun
        exact Or.inr (Or.inr ⟨peerAddr, rfl, rfl, hnone⟩)
  | stopInLoop connector =>
      simp only [runFunctor, stopConnector] at hrun
      split at hrun
      · cases hrun
      · rename_i e hstop
        cases hrun
        exact Or.inl (asserts_of_stopInLoop hstop)
  | resetChannel connector => cases hrun

omit [DecidableEq Addr] in
theorem startConnector_error {connector : ConnectorPtr Addr} {c : UdpConnector} {errno : Errno} {a : Assertion}
    (hrun : s.startConnector connector c errno = .error (.assertFailed a)) :
    UdpConnection.asserts a = true ∨ a = .connectorDisconnected := by
  rw [startConnector] at hrun
  split at hrun
  · obtain ⟨t, effect, -, hperform⟩ := exists_of_run_eq_error hrun
    cases effect with
    | newConnection =>
        simp only [perform, newConnection, runInLoop] at hperform
        split_ifs at hperform
        rcases runFunctor_error hperform with hinner | ⟨conn, heq, -⟩ | ⟨peerAddr, heq, -⟩
        · exact Or.inl hinner
        · cases heq
        · cases heq
    | socket => cases hperform
    | runAfter delayMs => cases hperform
    | resetChannel => cases hperform
  · rename_i e hstart
    cases hrun
    obtain ⟨-, heq⟩ := UdpConnector.startInLoop_eq_error_iff.mp hstart
    cases heq
    exact Or.inr rfl

/-- The asserts an input can fail: one inside a connection or a connector, one of the functor that the
input takes from its queue, or one of the `removeConnectionInLoop` that a closed connection runs at once. -/
theorem step_error {i : Input Addr} {a : Assertion} (hstep : s.step i = .error (.assertFailed a)) :
    (UdpConnection.asserts a = true ∨ a = .connectorDisconnected) ∨
      (∃ loop functor left, i = .functor loop ∧
        LoopQueues.takeOldest loop s.pendingFunctors = some (functor, left) ∧
        runFunctor loop functor { s with pendingFunctors := left } = .error (.assertFailed a)) ∨
      ∃ conn j c, i = .connection conn j ∧ conn ∈ s.accepted ∧ j ≠ .connectEstablished ∧
        (s.conns conn.connId).step j = .ok c ∧ (s.conns conn.connId).callsClose j = true ∧
        runFunctor 0 (.removeConnectionInLoop conn) { s with conns := Function.update s.conns conn.connId c } =
          .error (.assertFailed a) := by
  cases i with
  | handleRead peerAddr errno =>
      simp only [step, handleRead] at hstep
      split at hstep
      · cases hstep
      · split at hstep
        · cases hstep
        · exact Or.inl (startConnector_error hstep)
  | timer index errno =>
      simp only [step] at hstep
      split at hstep
      · exact Or.inl (startConnector_error hstep)
      · cases hstep
      · cases hstep
  | functor loop =>
      simp only [step] at hstep
      split at hstep
      · rename_i functor left htake
        exact Or.inr (Or.inl ⟨loop, functor, left, rfl, htake, hstep⟩)
      · cases hstep
  | connection conn j =>
      simp only [step] at hstep
      split_ifs at hstep with henabled
      · rw [connectionInput] at hstep
        cases hrun : s.stepConnection conn j with
        | error e =>
            rw [hrun] at hstep
            cases hstep
            exact Or.inl (Or.inl (asserts_of_stepConnection hrun))
        | ok s₁ =>
            obtain ⟨c, hc, rfl⟩ := stepConnection_eq_ok hrun
            simp only [hrun] at hstep
            split_ifs at hstep with hcalls
            rw [removeConnection, runInLoop] at hstep
            split_ifs at hstep
            exact Or.inr (Or.inr ⟨conn, j, c, rfl, henabled.1, henabled.2.1, hc, hcalls, hstep⟩)
      · cases hstep

/-- A functor in hand does not fail the assert of `removeConnectionInLoop`. -/
theorem runFunctor_ne_erasedOne (h : (s.hold loop functor).Ledger) (honce : s.NoneClosedTwice) :
    s.runFunctor loop functor ≠ .error (.assertFailed .erasedOne) := by
  intro hrun
  rcases runFunctor_error hrun with hinner | ⟨conn, rfl, -, hone⟩ | ⟨peerAddr, -, heq, -⟩
  · exact absurd hinner (by decide)
  · obtain ⟨rfl, hmem⟩ : loop = 0 ∧ conn ∈ s.accepted := h.posted_pos.1
    have hvalid := h.lives conn hmem
    rw [life_hold_removeConnectionInLoop] at hvalid
    have hremove : s.posted 0 (.removeConnectionInLoop conn) + 1 + s.ran 0 (.removeConnectionInLoop conn) =
      s.closeCalls conn := hvalid.remove
    have hle : s.closeCalls conn ≤ 1 := honce conn.connId
    have hran : s.ran 0 (.removeConnectionInLoop conn) = 0 := by omega
    have hreg : conn ∈ s.connections := hvalid.registered.mpr hran
    exact hone ((erasedOne_iff h.registered_accepted h.accepted_inj h.registered_nodup hmem).mpr hreg)
  · cases heq

theorem step_ne_erasedOne {i : Input Addr} (h : s.Ledger) (honce : s.NoneClosedTwice) (hi : s.ClosesOnce i) :
    s.step i ≠ .error (.assertFailed .erasedOne) := by
  intro hstep
  rcases step_error hstep with hinner | ⟨loop, functor, left, rfl, htake, hrun⟩ |
    ⟨conn, j, c, rfl, hmem, hj, hc, hcalls, hrun⟩
  · exact absurd hinner (by decide)
  · refine runFunctor_ne_erasedOne ?_ ?_ hrun
    · exact h.congr (LoopQueues.takeOldest_perm htake) rfl
    · exact honce
  · exact runFunctor_ne_erasedOne (ledger_closeCallback h hmem hj hc hcalls) (noneClosedTwice_update honce hc hi) hrun

/-- **Connections are closed in order.** Every run of a server, in whatever way its loops take turns,
leaves its connections in order; and if no connection calls its `closeCallback_` a second time, no
`removeConnectionInLoop` finds its connection missing. -/
theorem connections_closed_in_order (numThreads : Nat) (writeComplete : Bool) (inputs : List (Input Addr)) :
    (∀ s, Run numThreads writeComplete inputs s → s.ClosedInOrder) ∧
      (Along step ClosesOnce (new numThreads writeComplete) inputs →
        run step (new numThreads writeComplete) inputs ≠ .error (.assertFailed .erasedOne)) := by
  constructor
  · intro s hrun
    exact closedInOrder_of_ledger
      (run_invariant (fun _ _ _ h1 h2 => ledger_step h1 h2) (ledger_new numThreads writeComplete) hrun)
  · intro honce
    refine run_ne_error_along (fun s => s.Ledger ∧ s.NoneClosedTwice) ?_ ?_ ?_ honce
    · intro s i s' hinv hi hstep
      exact ⟨ledger_step hinv.1 hstep, noneClosedTwice_step hinv.2 hi hstep⟩
    · intro s i hinv hi
      exact step_ne_erasedOne hinv.1 hinv.2 hi
    · refine ⟨ledger_new numThreads writeComplete, ?_⟩
      intro id
      simp [new, UdpConnection.new]

/-- A connection of an I/O loop, closed by an error on its socket, on its way through both loops. -/
def closedInOwnLoop : List (Input Nat) :=
  let conn : ConnectionPtr Nat := ⟨1, 1, 7⟩
  [.handleRead (some 7) .ok, .functor 1, .connection conn (.updateReturns 10),
    .connection conn (.poll { pollErr := true }), .connection conn .handleEvent,
    .connection conn (.errorCallback 111), .connection conn .userReturns, .connection conn .proceed,
    .connection conn .userReturns, .connection conn .proceed, .connection conn .eventsHandled, .functor 0, .functor 0,
    .functor 1, .connection conn .proceed, .functor 0]

theorem closed_in_order_in_own_loop :
    run step (new 1 false) closedInOwnLoop ≠ .error (.assertFailed .erasedOne) ∧
      ∃ s : UdpServer Nat, Run 1 false closedInOwnLoop s ∧ s.pendingFunctors = [] ∧ s.connections = [] ∧
        s.closeCalls ⟨1, 1, 7⟩ = 1 ∧ s.ClosedInOrder :=
  ⟨(connections_closed_in_order 1 false closedInOwnLoop).2 (by decide), _, rfl, by decide, by decide, by decide,
    (connections_closed_in_order 1 false closedInOwnLoop).1 _ rfl⟩

/-! ### Connections that are closed only while they are up -/

/-- No close cause reaches a connection of the server that is already disconnected. -/
def ClosedOnlyWhileUp (s : UdpServer Addr) : Input Addr → Prop
  | .connection conn i => (s.conns conn.connId).ClosedOnlyWhileUp i
  | _ => True

theorem everyClosedOnce_step {i : Input Addr} {writeComplete : Bool}
    (h : s.EveryConnection UdpConnection.ClosedOnce writeComplete) (hguard : s.ClosedOnlyWhileUp i)
    (hstep : s.step i = .ok s') : s'.EveryConnection UdpConnection.ClosedOnce writeComplete := by
  refine every_step ?_ (UdpConnection.closedOnce_new writeComplete) h ?_ hstep
  · -- what the owner runs is no close cause
    rintro c j c' (rfl | rfl) hinv hc
    · exact UdpConnection.closedOnce_step hinv (fun _ => rfl) hc
    · exact UdpConnection.closedOnce_step hinv (fun _ => rfl) hc
  · rintro conn j c' rfl hc
    exact UdpConnection.closedOnce_step (h.conns conn.connId) hguard hc

omit [DecidableEq Addr] in
theorem closesOnce_of_everyClosedOnce {writeComplete : Bool} (i : Input Addr)
    (h : s.EveryConnection UdpConnection.ClosedOnce writeComplete) : s.ClosesOnce i := by
  cases i with
  | connection conn j => exact (h.conns conn.connId).count_of_callsClose
  | handleRead peerAddr errno => trivial
  | timer index errno => trivial
  | functor loop => trivial

/-- **The assert of `removeConnectionInLoop`**, in terms of what happens to the connections: it never
fails in a run in which close causes reach only connections that are up. -/
theorem ne_erasedOne_of_closedOnlyWhileUp {numThreads : Nat} {writeComplete : Bool} {inputs : List (Input Addr)}
    (hguard : Along step ClosedOnlyWhileUp (new numThreads writeComplete) inputs) :
    run step (new numThreads writeComplete) inputs ≠ .error (.assertFailed .erasedOne) := by
  refine run_ne_error_along (fun s => s.Ledger ∧ s.EveryConnection UdpConnection.ClosedOnce writeComplete)
    ?_ ?_ ?_ hguard
  · intro s i s' hinv hi hstep
    exact ⟨ledger_step hinv.1 hstep, everyClosedOnce_step hinv.2 hi hstep⟩
  · intro s i hinv _
    exact step_ne_erasedOne hinv.1 (fun id => (hinv.2.conns id).count_le) (closesOnce_of_everyClosedOnce i hinv.2)
  · exact ⟨ledger_new numThreads writeComplete, rfl, fun _ => UdpConnection.closedOnce_new writeComplete⟩

end Realtinet.UdpServer
