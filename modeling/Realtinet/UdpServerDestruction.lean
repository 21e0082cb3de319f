import Realtinet.UdpServerAdmission

/-! `~UdpServer`, with its acceptor. The destructor runs in the acceptor's loop, runs or queues `connectDestroyed` for
every connection that is still registered, and takes the acceptor's channel out of the loop. It withdraws nothing that
was given out bound to the server or the acceptor: the `closeCallback_` of the connections, the functors of
`removeConnectionInLoop` and `RemoveConnector`, the timers of `EraseConnector`, and the new-connection callback of the
connectors, which a retry timer keeps alive. The I/O loops are taken to run on: the thread pool is shared. -/

namespace Realtinet

open TransitionSystem

/-- The server with its acceptor as an object; what stays in the loops is kept in `server`. -/
structure ServerObject (Addr : Type) where
  server : UdpServer Addr
  alive : Bool

namespace UdpServer

variable {Addr : Type} [DecidableEq Addr]

/-- No connection in the acceptor's loop is in the middle of a call. -/
def loopIdle (s : UdpServer Addr) : Bool :=
  s.accepted.all fun conn => conn.loop != 0 || (s.conns conn.connId).stack.isEmpty

/-- `~UdpServer` and `~UdpAcceptor`, `order` being that of `connections_`. -/
def destroy (order : List (ConnectionPtr Addr)) (s : UdpServer Addr) : Except Halt (UdpServer Addr) :=
  run (fun s conn => s.runInLoop 0 conn.loop (.connectDestroyed conn))
    { s with connections := [], peerAddrToUdpConnectors := fun _ => none } order

/-- Bound to the server or the acceptor. -/
def Functor.isBound : Functor Addr → Bool
  | .removeConnectionInLoop _ => true
  | .removeConnector _ => true
  | _ => false

/-- The input executes something that is bound to the server or the acceptor. -/
def reaches (s : UdpServer Addr) : Input Addr → Bool
  | .handleRead _ _ => false
  | .timer index errno =>
      match s.timers[index]? with
      | some (.startInLoop connector) =>
          match (s.connectors connector.id).startInLoop errno with
          | .ok (_, effects) => effects.contains .newConnection
          | .error _ => false
      | some (.eraseConnector _) => true
      | none => false
  | .functor loop =>
      match LoopQueues.takeOldest loop s.pendingFunctors with
      | some (functor, _) => functor.isBound
      | none => false
  | .connection conn i => s.accepted.contains conn && (s.conns conn.connId).callsClose i

end UdpServer

namespace ServerObject

variable {Addr : Type} [DecidableEq Addr]

/-- Why a run ends: the server's reasons, or the execution of a callback on the destroyed server or acceptor. -/
inductive Stop where
  | notEnabled
  | server (halt : Halt)
  | afterDestruction
  deriving DecidableEq

inductive Input (Addr : Type) where
  | server (i : UdpServer.Input Addr)
  | destroy (order : List (ConnectionPtr Addr))

def new (numThreads : Nat) (writeCompleteCallback : Bool) : ServerObject Addr :=
  ⟨UdpServer.new numThreads writeCompleteCallback, true⟩

def finish (alive : Bool) (result : Except Halt (UdpServer Addr)) : Except Stop (ServerObject Addr) :=
  match result with
  | .ok server => .ok ⟨server, alive⟩
  | .error e => .error (.server e)

/-- What is left in the loops. The acceptor's channel is not: `~UdpAcceptor` removes it. -/
def stepDestroyed (s : UdpServer Addr) (i : UdpServer.Input Addr) : Except Stop (ServerObject Addr) :=
  match i with
  | .handleRead _ _ => .error .notEnabled
  | i => if s.reaches i then .error .afterDestruction else finish false (s.step i)

def step (s : ServerObject Addr) : Input Addr → Except Stop (ServerObject Addr)
  | .server i => if s.alive then finish true (s.server.step i) else stepDestroyed s.server i
  | .destroy order =>
      if s.alive && s.server.loopIdle && order.isPerm s.server.connections then finish false (s.server.destroy order)
      else .error .notEnabled

end ServerObject

/-! ### What the destructor has to find -/

namespace UdpServer

variable {Addr : Type} {s s' : UdpServer Addr} {functor : Functor Addr} {loop : Nat}
  {conn : ConnectionPtr Addr} {i : UdpConnection.Input}

/-- Nothing that is bound to the server or the acceptor is on its way: no functor is queued, no timer armed, and no
connection is in `handleClose`, before the call of `closeCallback_`. -/
def withdrawn (s : UdpServer Addr) : Bool :=
  s.pendingFunctors.all (fun entry => !entry.2.isBound) && s.timers.isEmpty &&
    s.accepted.all fun conn => (s.conns conn.connId).closesOwed == 0

/-- The same, with what is true of all connectors. -/
structure Withdrawn (s : UdpServer Addr) : Prop where
  functors : ∀ entry ∈ s.pendingFunctors, entry.2.isBound = false
  timers : s.timers = []
  owed : ∀ conn ∈ s.accepted, (s.conns conn.connId).closesOwed = 0
  neverConnecting : ∀ id, (s.connectors id).state ≠ .kConnecting

theorem withdrawn_iff (hnever : ∀ id, (s.connectors id).state ≠ .kConnecting) : s.withdrawn = true ↔ s.Withdrawn := by
  constructor
  · intro h
    obtain ⟨⟨hfunctors, htimers⟩, howed⟩ : ((∀ a b, (a, b) ∈ s.pendingFunctors → b.isBound = false) ∧ s.timers = []) ∧
        ∀ conn ∈ s.accepted, (s.conns conn.connId).closesOwed = 0 := by
      simpa [withdrawn] using h
    exact ⟨fun entry hmem => hfunctors entry.1 entry.2 hmem, htimers, howed, hnever⟩
  · intro h
    simp only [withdrawn, Bool.and_eq_true, List.all_eq_true, List.isEmpty_iff]
    refine ⟨⟨fun entry hmem => ?_, h.timers⟩, fun conn hmem => ?_⟩
    · rw [h.functors entry hmem]
      rfl
    · rw [h.owed conn hmem]
      rfl

theorem Withdrawn.stepConnection (h : s.Withdrawn) (hno : (s.conns conn.connId).entersClose i = false)
    (hrun : s.stepConnection conn i = .ok s') : s'.Withdrawn := by
  obtain ⟨c, hc, rfl⟩ := stepConnection_eq_ok hrun
  refine ⟨h.functors, h.timers, fun other hmem => ?_, h.neverConnecting⟩
  have hzero := h.owed other hmem
  by_cases hid : other.connId = conn.connId
  · have hle := UdpConnection.closesOwed_le hc hno
    rw [hid] at hzero
    simp only [hid, Function.update_self]
    omega
  · simpa [hid] using hzero

theorem withdrawn_runFunctor (h : s.Withdrawn) (hbound : functor.isBound = false)
    (hrun : s.runFunctor loop functor = .ok s') : s'.Withdrawn := by
  have h' : Withdrawn { s with executed := (loop, functor) :: s.executed } :=
    ⟨h.functors, h.timers, h.owed, h.neverConnecting⟩
  cases functor with
  | connectEstablished conn => exact h'.stepConnection rfl hrun
  | connectDestroyed conn => exact h'.stepConnection rfl hrun
  | removeConnectionInLoop conn => cases hbound
  | removeConnector peerAddr => cases hbound
  | stopInLoop connector =>
      -- a connector is never seen in `kConnecting`, and there is nothing to stop
      simp only [runFunctor, stopConnector, UdpConnector.stopInLoop, if_neg (h.neverConnecting connector.id)] at hrun
      cases hrun
      refine ⟨h.functors, h.timers, h.owed, ?_⟩
      apply (Function.forall_update_iff s.connectors fun _ c => c.state ≠ .kConnecting).mpr
      exact ⟨h.neverConnecting connector.id, fun id _ => h.neverConnecting id⟩
  | resetChannel connector =>
      cases hrun
      refine ⟨h.functors, h.timers, h.owed, ?_⟩
      apply (Function.forall_update_iff s.connectors fun _ c => c.state ≠ .kConnecting).mpr
      exact ⟨h.neverConnecting connector.id, fun id _ => h.neverConnecting id⟩

theorem withdrawn_destroy {order : List (ConnectionPtr Addr)} (h : s.Withdrawn) (hrun : s.destroy order = .ok s') :
    s'.Withdrawn := by
  have hstart : Withdrawn { s with connections := [], peerAddrToUdpConnectors := fun _ => none } :=
    ⟨h.functors, h.timers, h.owed, h.neverConnecting⟩
  refine run_invariant ?_ hstart hrun
  intro t conn t' ht hstep
  unfold runInLoop at hstep
  split_ifs at hstep
  · exact withdrawn_runFunctor ht rfl hstep
  · cases hstep
    refine ⟨fun entry hmem => ?_, ht.timers, ht.owed, ht.neverConnecting⟩
    rcases List.mem_append.mp hmem with hmem | hmem
    · exact ht.functors entry hmem
    · rw [List.mem_singleton.mp hmem]
      rfl

/-- Nothing that is bound to the destroyed server comes up again, unless a connection enters `handleClose`. -/
theorem withdrawn_step [DecidableEq Addr] {input : Input Addr} (h : s.Withdrawn) (hread : ∀ peerAddr errno, input ≠ .handleRead peerAddr errno)
    (hno : ∀ conn i, input = .connection conn i → (s.conns conn.connId).entersClose i = false)
    (hreach : s.reaches input = false) (hstep : s.step input = .ok s') : s'.Withdrawn := by
  cases input with
  | handleRead peerAddr errno => exact absurd rfl (hread peerAddr errno)
  | timer index errno => simp [step, h.timers] at hstep
  | functor loop =>
      simp only [step, reaches] at hstep hreach
      split at hstep
      · rename_i functor left htake
        rw [htake] at hreach
        have hperm := LoopQueues.takeOldest_perm htake
        have hleft : Withdrawn { s with pendingFunctors := left } := by
          refine ⟨fun entry hmem => h.functors entry ?_, h.timers, h.owed, h.neverConnecting⟩
          exact hperm.mem_iff.mp (List.mem_cons_of_mem _ hmem)
        exact withdrawn_runFunctor hleft hreach hstep
      · cases hstep
  | connection conn i =>
      simp only [step] at hstep
      split_ifs at hstep with henabled
      have hcalls : (s.conns conn.connId).callsClose i = false := by
        simpa [reaches, henabled.1] using hreach
      simp only [connectionInput, hcalls] at hstep
      cases hrun : s.stepConnection conn i with
      | error e => simp [hrun] at hstep
      | ok s₁ =>
          rw [hrun] at hstep
          cases hstep
          exact h.stepConnection (hno conn i rfl) hrun

/-- A server that has withdrawn everything is not reached. -/
theorem Withdrawn.not_reached [DecidableEq Addr] (h : s.Withdrawn) (input : Input Addr) : s.reaches input = false := by
  cases input with
  | handleRead peerAddr errno => rfl
  | timer index errno => simp [reaches, h.timers]
  | functor loop =>
      simp only [reaches]
      split
      · rename_i functor left htake
        have hperm := LoopQueues.takeOldest_perm htake
        exact h.functors (loop, functor) (hperm.mem_iff.mp List.mem_cons_self)
      · rfl
  | connection conn i =>
      rw [Bool.eq_false_iff]
      intro hreach
      obtain ⟨hmem, hcalls⟩ : conn ∈ s.accepted ∧ (s.conns conn.connId).callsClose i = true := by
        simpa [reaches] using hreach
      have howed := UdpConnection.closesOwed_pos hcalls
      have hzero := h.owed conn hmem
      omega

end UdpServer

namespace ServerObject

variable {Addr : Type} {s s' : ServerObject Addr} {input : Input Addr}

theorem finish_eq_ok {alive : Bool} {result : Except Halt (UdpServer Addr)} (h : finish alive result = .ok s') :
    result = .ok s'.server ∧ s'.alive = alive := by
  cases result with
  | error e => cases h
  | ok server =>
      cases h
      exact ⟨rfl, rfl⟩

theorem finish_ne_afterDestruction {alive : Bool} {result : Except Halt (UdpServer Addr)} :
    finish alive result ≠ .error .afterDestruction := by
  unfold finish
  split <;> simp

variable [DecidableEq Addr]

/-- The server is destroyed when it has withdrawn everything, and no connection enters `handleClose` after that. -/
def WithdrawnFirst (s : ServerObject Addr) : Input Addr → Prop
  | .destroy _ => s.server.withdrawn = true
  | .server (.connection conn i) => s.alive = false → (s.server.conns conn.connId).entersClose i = false
  | .server _ => True

instance withdrawnFirstDecidable (s : ServerObject Addr) : ∀ input : Input Addr, Decidable (s.WithdrawnFirst input)
  | .destroy _ => inferInstanceAs (Decidable (s.server.withdrawn = true))
  | .server (.connection conn i) =>
      inferInstanceAs (Decidable (s.alive = false → (s.server.conns conn.connId).entersClose i = false))
  | .server (.handleRead _ _) | .server (.timer _ _) | .server (.functor _) => .isTrue trivial

/-- While the server is alive its ledger and its admissions are in order; when it is destroyed, everything has been
withdrawn. -/
def Sound (s : ServerObject Addr) : Prop :=
  (s.alive = true → s.server.Ledger ∧ s.server.Admission) ∧ (s.alive = false → s.server.Withdrawn)

theorem sound_new (numThreads : Nat) (writeComplete : Bool) :
    (new numThreads writeComplete : ServerObject Addr).Sound :=
  ⟨fun _ => ⟨UdpServer.ledger_new numThreads writeComplete, UdpServer.admission_new numThreads writeComplete⟩, nofun⟩

theorem stepDestroyed_eq_ok {server : UdpServer Addr} {i : UdpServer.Input Addr}
    (h : stepDestroyed server i = .ok s') :
    (∀ peerAddr errno, i ≠ .handleRead peerAddr errno) ∧ server.reaches i = false ∧ server.step i = .ok s'.server ∧
      s'.alive = false := by
  unfold stepDestroyed at h
  split at h
  · cases h
  · rename_i hread
    split_ifs at h with hreach
    obtain ⟨hstep, halive⟩ := finish_eq_ok h
    exact ⟨hread, by simpa using hreach, hstep, halive⟩

theorem sound_step (hinv : s.Sound) (hfirst : s.WithdrawnFirst input) (h : s.step input = .ok s') : s'.Sound := by
  cases input with
  | server i =>
      simp only [step] at h
      split_ifs at h with halive
      · obtain ⟨hstep, halive'⟩ := finish_eq_ok h
        obtain ⟨hledger, hadmission⟩ := hinv.1 halive
        refine ⟨fun _ => ⟨UdpServer.ledger_step hledger hstep, (UdpServer.admission_step hledger hadmission hstep).1⟩, ?_⟩
        rw [halive']
        exact nofun
      · have hdead : s.alive = false := by simpa using halive
        obtain ⟨hread, hreach, hstep, hdead'⟩ := stepDestroyed_eq_ok h
        refine ⟨fun halive' => absurd (hdead'.symm.trans halive') (by decide), fun _ => ?_⟩
        refine UdpServer.withdrawn_step (hinv.2 hdead) hread ?_ hreach hstep
        rintro conn j rfl
        exact hfirst hdead
  | destroy order =>
      simp only [step] at h
      split_ifs at h with hguard
      have halive : s.alive = true := by
        simp only [Bool.and_eq_true] at hguard
        exact hguard.1.1
      obtain ⟨hrun, hdead⟩ := finish_eq_ok h
      have hnever := (hinv.1 halive).2.neverConnecting
      have hwithdrawn := (UdpServer.withdrawn_iff hnever).mp hfirst
      refine ⟨fun halive' => absurd (hdead.symm.trans halive') (by decide), fun _ => ?_⟩
      exact UdpServer.withdrawn_destroy hwithdrawn hrun

theorem step_ne_afterDestruction (hinv : s.Sound) : s.step input ≠ .error .afterDestruction := by
  cases input with
  | server i =>
      simp only [step]
      split_ifs with halive
      · exact finish_ne_afterDestruction
      · have hreach := (hinv.2 (by simpa using halive)).not_reached i
        unfold stepDestroyed
        split
        · simp
        · rw [hreach]
          exact finish_ne_afterDestruction
  | destroy order =>
      simp only [step]
      split_ifs
      · exact finish_ne_afterDestruction
      · simp

/-- **When deferred callbacks reach a destroyed server.** They do not in any run in which the destructor finds no
functor of `removeConnectionInLoop` or `RemoveConnector` queued, no retry or `EraseConnector` timer armed and no
connection about to call its `closeCallback_`, and in which no connection enters `handleClose` after that. -/
theorem destroyed_server_not_reached (numThreads : Nat) (writeComplete : Bool) (inputs : List (Input Addr))
    (hfirst : Along step WithdrawnFirst (new numThreads writeComplete) inputs) :
    run step (new numThreads writeComplete) inputs ≠ .error .afterDestruction :=
  run_ne_error_along Sound (fun _ _ _ hinv hfirst h => sound_step hinv hfirst h)
    (fun _ _ hinv _ => step_ne_afterDestruction hinv) (sound_new numThreads writeComplete) hfirst

/-- A server without I/O threads is destroyed with one established connection, whose update timer fires later. -/
def destroyedWhileEstablished : List (Input Nat) :=
  [.server (.handleRead (some 7) .ok), .server (.connection ⟨1, 0, 7⟩ (.updateReturns 10)), .destroy [⟨1, 0, 7⟩],
    .server (.connection ⟨1, 0, 7⟩ .userReturns), .server (.connection ⟨1, 0, 7⟩ .proceed),
    .server (.connection ⟨1, 0, 7⟩ (.timer 0))]

theorem destroyed_server_not_reached_established :
    run step (new 0 false) destroyedWhileEstablished ≠ .error .afterDestruction ∧
      ∃ s, run step (new 0 false) destroyedWhileEstablished = .ok s ∧ s.alive = false :=
  ⟨destroyed_server_not_reached 0 false destroyedWhileEstablished (by decide), _, rfl, rfl⟩

/-- The first attempt to connect to a peer fails, the server is destroyed, and the retry timer expires. -/
def destroyedBeforeRetry : List (Input Nat) :=
  [.server (.handleRead (some 7) .ECONNREFUSED), .destroy [], .server (.timer 0 .ok)]

theorem retry_after_destruction :
    ¬∀ (numThreads : Nat) (writeComplete : Bool) (inputs : List (Input Nat)),
      run step (new numThreads writeComplete) inputs ≠ .error .afterDestruction := by
  intro h
  exact h 0 false destroyedBeforeRetry rfl

end ServerObject
end Realtinet
