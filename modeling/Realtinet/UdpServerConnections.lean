import Realtinet.UdpServer

/-! The connections of a server as machines of their own. Whatever the loops do, a connection changes
by its own inputs only: the two that its owner runs as functors, and those that come from its event
loop, from `KcpSession` and from user code. So what holds of every run of a `UdpConnection` holds of
every connection of a server. -/

namespace Realtinet.UdpServer

open TransitionSystem

variable {Addr : Type} {s s' : UdpServer Addr} {conn : ConnectionPtr Addr} {functor : Functor Addr} {loop : Nat}

theorem stepConnection_eq_ok {i : UdpConnection.Input} (hrun : s.stepConnection conn i = .ok s') :
    ∃ c, (s.conns conn.connId).step i = .ok c ∧ s' = { s with conns := Function.update s.conns conn.connId c } := by
  rw [stepConnection] at hrun
  cases hstep : (s.conns conn.connId).step i with
  | error e => simp [hstep] at hrun
  | ok c =>
      rw [hstep] at hrun
      cases hrun
      exact ⟨c, rfl, rfl⟩

/-- Only a call of `closeCallback_` brings an input of a connection to the server. -/
theorem connectionInput_cases {i : UdpConnection.Input} (hrun : s.connectionInput conn i = .ok s') :
    ∃ c, (s.conns conn.connId).step i = .ok c ∧
      ((s.conns conn.connId).callsClose i = false ∧ s' = { s with conns := Function.update s.conns conn.connId c } ∨
        (s.conns conn.connId).callsClose i = true ∧
          removeConnection conn { s with conns := Function.update s.conns conn.connId c } = .ok s') := by
  rw [connectionInput] at hrun
  cases hstep : s.stepConnection conn i with
  | error e => simp [hstep] at hrun
  | ok s₁ =>
      obtain ⟨c, hc, rfl⟩ := stepConnection_eq_ok hstep
      simp only [hstep] at hrun
      refine ⟨c, hc, ?_⟩
      split_ifs at hrun with hcalls
      · exact Or.inr ⟨hcalls, hrun⟩
      · cases hrun
        exact Or.inl ⟨by simpa using hcalls, rfl⟩

/-- What a connector asks for, other than a new connection, is timers and `resetChannel` functors. -/
theorem foldl_post (connector : ConnectorPtr Addr) (effects : List ConnectorEffect) (s : UdpServer Addr) :
    ∃ new timers, effects.foldl (post connector) s =
        { s with pendingFunctors := s.pendingFunctors ++ new, timers := timers } ∧
      ∀ entry ∈ new, entry = (0, .resetChannel connector) := by
  induction effects generalizing s with
  | nil => exact ⟨[], s.timers, by simp, by simp⟩
  | cons effect effects ih =>
      obtain ⟨new, timers, heq, hnew⟩ := ih (s.post connector effect)
      rw [List.foldl_cons, heq]
      cases effect with
      | socket => exact ⟨new, timers, rfl, hnew⟩
      | newConnection => exact ⟨new, timers, rfl, hnew⟩
      | runAfter delayMs => exact ⟨new, timers, rfl, hnew⟩
      | resetChannel =>
          refine ⟨(0, .resetChannel connector) :: new, timers, by simp [post, queueInLoop], ?_⟩
          intro entry hmem
          exact (List.mem_cons.mp hmem).elim id (hnew entry)

/-- So a connector that is stopped changes itself, timers and `resetChannel` functors. -/
theorem stopConnector_eq_ok {connector : ConnectorPtr Addr} (hrun : s.stopConnector connector = .ok s') :
    ∃ c new timers, s' =
        { s with
          connectors := Function.update s.connectors connector.id c
          pendingFunctors := s.pendingFunctors ++ new
          timers := timers } ∧
      ∀ entry ∈ new, entry = (0, .resetChannel connector) := by
  rw [stopConnector] at hrun
  split at hrun
  · rename_i c effects hstop
    obtain ⟨new, timers, heq, hnew⟩ := foldl_post connector effects
      { s with connectors := Function.update s.connectors connector.id c }
    rw [heq, Except.ok.injEq] at hrun
    exact ⟨c, new, timers, hrun.symm, hnew⟩
  · cases hrun

/-- Every connection has the property `P`, and those to come start with the same callbacks. -/
structure EveryConnection (P : UdpConnection → Prop) (writeComplete : Bool) (s : UdpServer Addr) : Prop where
  callback : s.writeCompleteCallback = writeComplete
  conns : ∀ id, P (s.conns id)

section EveryConnection

variable {P : UdpConnection → Prop} {writeComplete : Bool}

theorem EveryConnection.update {c : UdpConnection} (h : s.EveryConnection P writeComplete) (id : Nat) (hc : P c) :
    EveryConnection P writeComplete { s with conns := Function.update s.conns id c } := by
  refine ⟨h.callback, ?_⟩
  apply (Function.forall_update_iff s.conns fun _ c => P c).mpr
  exact ⟨hc, fun other _ => h.conns other⟩

variable (howner : ∀ c i c', i = .connectEstablished ∨ i = .connectDestroyed → P c → UdpConnection.step c i = .ok c' → P c')

include howner

theorem every_runFunctor (h : s.EveryConnection P writeComplete) (hrun : s.runFunctor loop functor = .ok s') :
    s'.EveryConnection P writeComplete := by
  cases functor with
  | connectEstablished conn =>
      obtain ⟨c, hstep, rfl⟩ := stepConnection_eq_ok hrun
      have h' := h.update conn.connId (howner _ _ c (Or.inl rfl) (h.conns conn.connId) hstep)
      exact ⟨h'.callback, h'.conns⟩
  | connectDestroyed conn =>
      obtain ⟨c, hstep, rfl⟩ := stepConnection_eq_ok hrun
      have h' := h.update conn.connId (howner _ _ c (Or.inr rfl) (h.conns conn.connId) hstep)
      exact ⟨h'.callback, h'.conns⟩
  | removeConnectionInLoop conn =>
      simp only [runFunctor, removeConnectionInLoop] at hrun
      split_ifs at hrun
      cases hrun
      exact ⟨h.callback, h.conns⟩
  | removeConnector peerAddr =>
      simp only [runFunctor, removeConnector] at hrun
      split at hrun <;> cases hrun
      exact ⟨h.callback, h.conns⟩
  | stopInLoop connector =>
      obtain ⟨c, new, timers, rfl, -⟩ := stopConnector_eq_ok hrun
      exact ⟨h.callback, h.conns⟩
  | resetChannel connector =>
      cases hrun
      exact ⟨h.callback, h.conns⟩

theorem every_runInLoop {caller : Nat} (h : s.EveryConnection P writeComplete)
    (hrun : s.runInLoop caller loop functor = .ok s') : s'.EveryConnection P writeComplete := by
  rw [runInLoop] at hrun
  split_ifs at hrun
  · exact every_runFunctor howner h hrun
  · cases hrun
    exact ⟨h.callback, h.conns⟩

variable (hnew : P (UdpConnection.new writeComplete))

include hnew

theorem every_perform {connector : ConnectorPtr Addr} {effect : ConnectorEffect}
    (h : s.EveryConnection P writeComplete) (hrun : s.perform connector effect = .ok s') :
    s'.EveryConnection P writeComplete := by
  cases effect with
  | newConnection =>
      refine every_runInLoop howner ?_ hrun
      have h' := h.update s.nextConnId (h.callback ▸ hnew)
      exact ⟨h'.callback, h'.conns⟩
  | socket =>
      cases hrun
      exact h
  | runAfter delayMs =>
      cases hrun
      exact ⟨h.callback, h.conns⟩
  | resetChannel =>
      cases hrun
      exact ⟨h.callback, h.conns⟩

theorem every_startConnector {connector : ConnectorPtr Addr} {c : UdpConnector} {errno : Errno}
    (h : s.EveryConnection P writeComplete) (hrun : s.startConnector connector c errno = .ok s') :
    s'.EveryConnection P writeComplete := by
  rw [startConnector] at hrun
  split at hrun
  · refine run_invariant (fun _ _ _ h1 h2 => every_perform howner hnew h1 h2) ?_ hrun
    exact ⟨h.callback, h.conns⟩
  · cases hrun

/-- **One input of the server**, as the connections see it: the property is kept if the owner's inputs
keep it and the input, should it be one of a connection, does too. -/
theorem every_step [DecidableEq Addr] {i : Input Addr} (h : s.EveryConnection P writeComplete)
    (hinput : ∀ conn j c', i = .connection conn j → (s.conns conn.connId).step j = .ok c' → P c')
    (hstep : s.step i = .ok s') : s'.EveryConnection P writeComplete := by
  cases i with
  | handleRead peerAddr errno =>
      simp only [step, handleRead] at hstep
      split at hstep
      · cases hstep
        exact h
      · split at hstep
        · cases hstep
          exact h
        · refine every_startConnector howner hnew ?_ hstep
          exact ⟨h.callback, h.conns⟩
  | timer index errno =>
      simp only [step] at hstep
      split at hstep
      · refine every_startConnector howner hnew ?_ hstep
        exact ⟨h.callback, h.conns⟩
      · cases hstep
        exact ⟨h.callback, h.conns⟩
      · cases hstep
  | functor loop =>
      simp only [step] at hstep
      split at hstep
      · refine every_runFunctor howner ?_ hstep
        exact ⟨h.callback, h.conns⟩
      · cases hstep
  | connection conn j =>
      simp only [step] at hstep
      split_ifs at hstep
      obtain ⟨c, hc, ⟨-, rfl⟩ | ⟨-, hremove⟩⟩ := connectionInput_cases hstep
      · exact h.update conn.connId (hinput conn j c rfl hc)
      · exact every_runInLoop howner (h.update conn.connId (hinput conn j c rfl hc)) hremove

end EveryConnection

end Realtinet.UdpServer
