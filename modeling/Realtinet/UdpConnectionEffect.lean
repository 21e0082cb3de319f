import Realtinet.UdpConnectionOutcome

/-! What one input can do to the state, to the calls made so far and to the calls of `closeCallback_`
still owed. Every law about the order of a connection's callbacks is read off this list. -/

namespace Realtinet.UdpConnection

open TransitionSystem

/-- The inputs on which the code calls `handleClose` whatever `state_` is: a hang-up, an error on the
socket reported by the poller or met by `write` or `read`, an empty `read`, a session that goes down, a
negative result of `Update`. The functor `forceCloseInLoop` is the only caller that looks at `state_`. -/
def closeCause (c : UdpConnection) : Input → Bool
  | .proceed => c.stack.head? == some .channelClose
  | .errorCallback soError => soError != 0
  | .doSend _ nwrote soError => decide (nwrote < 0) && soError != 0
  | .doRecv n soError => n == 0 || (decide (n < 0) && soError != 0)
  | .kcpConnection isConnected => !isConnected
  | .updateReturns nextUpdateTimeMs => decide (nextUpdateTimeMs < 0)
  | _ => false

/-- The calls of `closeCallback_` that `handleClose` still owes. -/
def closesOwed (c : UdpConnection) : Nat := c.stack.count .closeCallback

/-- The input makes the connection call `closeCallback_`. -/
def callsClose (c : UdpConnection) (i : Input) : Bool :=
  i == .proceed && c.stack.head? == some .closeCallback

/-- An entry of the trace that is neither data nor a close, and labelled with the state it is made in. -/
def Neutral (state : StateE) : Event → Prop
  | .connectionCallback label => label = state
  | .messageCallback => False
  | .closeCallback => False
  | _ => True

/-- The input `i` takes `c` to `c'`, as far as `state_`, the trace and the owed closes go. -/
inductive Effect (c c' : UdpConnection) (i : Input) : Prop
  | silent (hstate : c'.state = c.state) (htrace : c'.trace = c.trace) (howed : c'.closesOwed = c.closesOwed)
  | disconnecting (hbefore : c.state = .kConnected ∨ c.state = .kDisconnecting)
      (hstate : c'.state = .kDisconnecting) (htrace : c'.trace = c.trace) (howed : c'.closesOwed = c.closesOwed)
  | record (e : Event) (hneutral : Neutral c.state e) (hstate : c'.state = c.state)
      (htrace : c'.trace = e :: c.trace) (howed : c'.closesOwed = c.closesOwed)
  | established (hinput : i = .connectEstablished) (hbefore : c.state = .kConnecting)
      (hstate : c'.state = .kConnected) (htrace : c'.trace = .kcpUpdate :: c.trace)
      (howed : c'.closesOwed = c.closesOwed)
  | message (n : Int) (buf : List UInt8) (hinput : i = .recvReturns true n buf) (hn : 0 < n)
      (hstate : c'.state = c.state) (htrace : c'.trace = .messageCallback :: c.trace)
      (howed : c'.closesOwed = c.closesOwed)
  | close (hcause : c.closeCause i = true ∨ c.state = .kConnected ∨ c.state = .kDisconnecting)
      (hstarted : c.stack ≠ [] ∨ c.state ≠ .kConnecting)
      (hstate : c'.state = .kDisconnected) (htrace : c'.trace = .connectionCallback .kDisconnected :: c.trace)
      (howed : c'.closesOwed = c.closesOwed + 1)
  | closed (hstate : c'.state = c.state) (htrace : c'.trace = .closeCallback :: c.trace)
      (howed : c.closesOwed = c'.closesOwed + 1) (hcalls : c.callsClose i = true)
  | destroyed (hinput : i = .connectDestroyed) (hbefore : c.state = .kConnected)
      (hstate : c'.state = .kDisconnected) (htrace : c'.trace = .connectionCallback .kDisconnected :: c.trace)
      (howed : c'.closesOwed = c.closesOwed)

variable {c c' : UdpConnection} {i : Input}

/-! ### The effects -/

/-- A frame other than that of `handleClose` is left. -/
theorem Effect.pop {frame : Frame} {rest : List Frame} (hstack : c.stack = frame :: rest)
    (hframe : frame ≠ .closeCallback)
    (hstate : c'.state = c.state) (htrace : c'.trace = c.trace) (hrest : c'.stack = rest) : Effect c c' i := by
  refine .silent hstate htrace ?_
  rw [closesOwed, closesOwed, hstack, hrest, List.count_cons_of_ne hframe]

theorem Effect.handleClose {base : UdpConnection} (h : base.handleClose = .ok c')
    (hcause : c.closeCause i = true ∨ c.state = .kConnected ∨ c.state = .kDisconnecting)
    (hstarted : c.stack ≠ [] ∨ c.state ≠ .kConnecting)
    (htrace : base.trace = c.trace) (howed : base.closesOwed = c.closesOwed) : Effect c c' i := by
  obtain ⟨channel, -, rfl⟩ := handleClose_eq_ok h
  refine .close hcause hstarted rfl ?_ ?_
  · simp [callConnectionCallback, htrace]
  · simp only [closesOwed] at howed
    simp [callConnectionCallback, closesOwed, howed]

theorem Effect.handleError {base : UdpConnection} {soError : Int} (h : base.handleError soError = .ok c')
    (hcause : soError ≠ 0 → c.closeCause i = true) (hstarted : c.stack ≠ [] ∨ c.state ≠ .kConnecting)
    (hstate : base.state = c.state) (htrace : base.trace = c.trace)
    (howed : base.closesOwed = c.closesOwed) : Effect c c' i := by
  rw [UdpConnection.handleError] at h
  split_ifs at h with herror
  · exact Effect.handleClose h (Or.inl (hcause herror)) hstarted htrace howed
  · cases h
    exact .silent hstate htrace howed

theorem stack_ne_nil_of_kcpTurn (h : c.kcpTurn = true) : c.stack ≠ [] := by
  intro hnil
  rw [kcpTurn, hnil] at h
  exact absurd h (by decide)

theorem effect_connectEstablished (h : c.connectEstablished = .ok c') : Effect c c' .connectEstablished := by
  obtain ⟨hconnecting, channel, -, rfl⟩ := connectEstablished_eq_ok h
  exact .established rfl hconnecting rfl rfl (by simp [kcpSessionUpdate, closesOwed])

theorem effect_connectDestroyed (h : c.connectDestroyed = .ok c') : Effect c c' .connectDestroyed := by
  rcases connectDestroyed_eq_ok h with ⟨-, rfl⟩ | ⟨hup, channel, -, rfl⟩
  · exact .silent rfl rfl (by simp [closesOwed])
  · exact .destroyed rfl hup rfl rfl (by simp [callConnectionCallback, closesOwed])

theorem effect_handleEvent {revents : Revents} : Effect c (c.handleEvent revents) .handleEvent := by
  refine .silent rfl rfl ?_
  simp only [handleEvent, handleEventWithGuard, closesOwed, List.count_append]
  split_ifs <;> simp

theorem effect_startReadInLoop {base : UdpConnection} (h : base.startReadInLoop = .ok c')
    (hstate : base.state = c.state)
    (htrace : base.trace = c.trace) (howed : base.closesOwed = c.closesOwed) : Effect c c' i := by
  rcases startReadInLoop_eq_ok h with ⟨rfl, -⟩ | ⟨-, channel, -, rfl⟩ <;> exact .silent hstate htrace howed

theorem effect_stopReadInLoop {base : UdpConnection} (h : base.stopReadInLoop = .ok c') (hstate : base.state = c.state)
    (htrace : base.trace = c.trace) (howed : base.closesOwed = c.closesOwed) : Effect c c' i := by
  rcases stopReadInLoop_eq_ok h with ⟨rfl, -⟩ | ⟨-, channel, -, rfl⟩ <;> exact .silent hstate htrace howed

theorem effect_sendInLoop {base : UdpConnection} {caller : Thread} {message : List UInt8}
    {mode : TransmitModeE} (hstate : base.state = c.state) (htrace : base.trace = c.trace)
    (howed : base.closesOwed = c.closesOwed) : Effect c (base.sendInLoop caller message mode) i := by
  rw [sendInLoop]
  split_ifs
  · exact .silent hstate htrace howed
  · refine .record (.kcpSend caller message mode) trivial hstate (by simp [kcpSend, htrace]) ?_
    simp only [closesOwed] at howed
    simp [kcpSend, closesOwed, howed]

theorem effect_runApi {caller : Thread} {api : Api} (h : c.runApi caller api = .ok c') : Effect c c' i := by
  cases api with
  | send message mode =>
      cases h
      rw [send]
      split_ifs
      · exact effect_sendInLoop rfl rfl rfl
      · exact .silent rfl rfl rfl
      · exact .silent rfl rfl rfl
  | shutdown =>
      cases h
      rw [shutdown]
      split_ifs with hup
      · exact .disconnecting (Or.inl hup) rfl rfl rfl
      · exact .silent rfl rfl rfl
  | forceClose =>
      cases h
      rw [forceClose]
      split_ifs with hup
      · exact .disconnecting hup rfl rfl rfl
      · exact .silent rfl rfl rfl
  | startRead =>
      simp only [runApi, startRead] at h
      split_ifs at h
      · exact effect_startReadInLoop h rfl rfl rfl
      · cases h
        exact .silent rfl rfl rfl
  | stopRead =>
      simp only [runApi, stopRead] at h
      split_ifs at h
      · exact effect_stopReadInLoop h rfl rfl rfl
      · cases h
        exact .silent rfl rfl rfl

theorem effect_runFunctor {functor : Functor} {rest : List Functor} (hidle : c.loopIdle = true)
    (h : runFunctor functor { c with pendingFunctors := rest } = .ok c') : Effect c c' .functor := by
  have hstarted : c.state ≠ .kConnecting := by
    intro hconnecting
    rw [loopIdle, hconnecting] at hidle
    simp at hidle
  cases functor with
  | sendInLoop caller message mode =>
      cases h
      exact effect_sendInLoop rfl rfl rfl
  | startReadInLoop => exact effect_startReadInLoop h rfl rfl rfl
  | stopReadInLoop => exact effect_stopReadInLoop h rfl rfl rfl
  | forceCloseInLoop =>
      simp only [runFunctor, forceCloseInLoop] at h
      split_ifs at h with hup
      · exact Effect.handleClose h (Or.inr hup) (Or.inr hstarted) rfl rfl
      · cases h
        exact .silent rfl rfl rfl
  | writeCompleteCallback =>
      cases h
      exact .record .writeCompleteCallback trivial rfl rfl (by simp [closesOwed])

theorem effect_doSend {len nwrote soError : Int} (hturn : c.kcpTurn = true)
    (h : c.doSend len nwrote soError = .ok c') : Effect c c' (.doSend len nwrote soError) := by
  rw [doSend] at h
  split_ifs at h with hwrote hfull
  · cases h
    exact .silent rfl rfl rfl
  · cases h
    exact .silent rfl rfl rfl
  · refine Effect.handleError h (fun herror => ?_) (Or.inl (stack_ne_nil_of_kcpTurn hturn)) rfl rfl rfl
    have hneg : nwrote < 0 := by omega
    simp [closeCause, hneg, herror]

theorem effect_doRecv {n soError : Int} (hstarted : c.stack ≠ []) (h : c.doRecv n soError = .ok c') :
    Effect c c' (.doRecv n soError) := by
  rw [doRecv] at h
  split_ifs at h with hzero hneg
  · exact Effect.handleClose h (Or.inl (by simp [closeCause, hzero])) (Or.inl hstarted) rfl rfl
  · exact Effect.handleError h (fun herror => by simp [closeCause, hneg, herror]) (Or.inl hstarted) rfl rfl rfl
  · cases h
    exact .silent rfl rfl rfl

theorem effect_onKcpsessConnection {isConnected : Bool} (hturn : c.kcpTurn = true)
    (h : c.onKcpsessConnection isConnected = .ok c') : Effect c c' (.kcpConnection isConnected) := by
  rw [onKcpsessConnection] at h
  split_ifs at h with hconnected
  · cases h
    exact .record (.connectionCallback c.state) rfl rfl rfl (by simp [callConnectionCallback, closesOwed])
  · exact Effect.handleClose h (Or.inl (by simpa [closeCause] using hconnected))
      (Or.inl (stack_ne_nil_of_kcpTurn hturn)) rfl rfl

theorem effect_kcpReceived {ok : Bool} {n : Int} {buf : List UInt8} {rest : List Frame}
    (hstack : c.stack = .kcpRecv :: rest) : Effect c (c.kcpReceived ok n buf) (.recvReturns ok n buf) := by
  rw [kcpReceived]
  split_ifs with hok hneg hpos
  · exact .pop hstack (by decide) rfl rfl (by rw [hstack, List.tail_cons])
  · exact .silent rfl rfl rfl
  · have htrue : ok = true := by simpa using hok
    subst htrue
    exact .message n buf rfl hpos rfl rfl (by simp [closesOwed])
  · exact .silent rfl rfl rfl

theorem effect_kcpUpdated {nextUpdateTimeMs : Int} {rest : List Frame} (hstack : c.stack = .kcpUpdate :: rest)
    (h : kcpUpdated nextUpdateTimeMs { c with stack := rest } = .ok c') :
    Effect c c' (.updateReturns nextUpdateTimeMs) := by
  rw [kcpUpdated] at h
  split_ifs at h with hneg
  · exact Effect.handleClose h (Or.inl (by simp [closeCause, hneg])) (Or.inl (by simp [hstack])) rfl
      (by simp [closesOwed, hstack])
  · cases h
    exact .record (.runAt c.nextTimer) trivial rfl rfl (by simp [closesOwed, hstack])

/-- **Every accepted input has one of the listed effects.** -/
theorem step_effect (hstep : step c i = .ok c') : Effect c c' i := by
  cases step_outcome hstep with
  | established hempty h => exact effect_connectEstablished h
  | destroyed hturn h => exact effect_connectDestroyed h
  | polled hidle hinactive h | eventsHandled hidle hhandled h | retrieve hturn h =>
      subst h
      exact .silent rfl rfl rfl
  | handling hidle hreported h =>
      subst h
      exact effect_handleEvent
  | timer hidle harmed h =>
      subst h
      exact .record .kcpUpdate trivial rfl rfl (by simp [kcpSessionUpdate, closesOwed])
  | functor hidle hinactive hqueue h => exact effect_runFunctor hidle h
  | call hturn h => exact effect_runApi h
  | eventReturns hstack h | sendReturns hstack h | userReturns hstack h =>
      subst h
      exact .pop hstack (by decide) rfl rfl rfl
  | hangsUp hstack h =>
      exact Effect.handleClose h (Or.inl (by simp [closeCause, hstack])) (Or.inl (by simp [hstack])) rfl
        (by simp [closesOwed, hstack])
  | reads hstack h =>
      subst h
      exact .silent rfl rfl (by simp [handleRead, closesOwed, hstack])
  | callsClose hstack h =>
      subst h
      exact .closed rfl rfl (by simp [closesOwed, hstack]) (by simp [UdpConnection.callsClose, hstack])
  | removes hstack hremove h =>
      subst h
      exact .pop hstack (by decide) rfl rfl rfl
  | errorCallback hstack h =>
      exact Effect.handleError h (fun herror => by simp [closeCause, herror]) (Or.inl (by simp [hstack])) rfl rfl
        (by simp [closesOwed, hstack])
  | doSend hturn h => exact effect_doSend hturn h
  | doRecv hstack h => exact effect_doRecv (by simp [hstack]) h
  | kcpConnection hturn h => exact effect_onKcpsessConnection hturn h
  | received hstack h =>
      subst h
      exact effect_kcpReceived hstack
  | updateReturns hstack h => exact effect_kcpUpdated hstack h

/-! ### What an owner sees -/

theorem exists_run_step {writeComplete : Bool} (hrun : ∃ own, Run writeComplete own c) (h : step c i = .ok c') :
    ∃ own, Run writeComplete own c' := by
  obtain ⟨own, hown⟩ := hrun
  refine ⟨own ++ [i], ?_⟩
  rw [Run, TransitionSystem.run_append hown, TransitionSystem.run_singleton, h]

/-- A call of `closeCallback_` is owed until it is made. -/
theorem closesOwed_pos (hcalls : c.callsClose i = true) : 0 < c.closesOwed := by
  have hhead : c.stack.head? = some .closeCallback := by
    simpa using (Bool.and_eq_true_iff.mp hcalls).2
  exact List.count_pos_iff.mpr (List.mem_of_mem_head? hhead)

/-- Only the rest of `handleClose` calls `closeCallback_`, once. -/
theorem step_closeCallback_count (h : step c i = .ok c') :
    c'.trace.count .closeCallback = c.trace.count .closeCallback + (c.callsClose i).toNat := by
  cases hcalls : c.callsClose i with
  | true =>
      obtain ⟨rfl, hhead⟩ : i = .proceed ∧ c.stack.head? = some .closeCallback := by
        simpa [callsClose] using hcalls
      obtain ⟨rest, hstack⟩ := List.head?_eq_some_iff.mp hhead
      simp only [step, proceed, hstack] at h
      cases h
      simp
  | false =>
      rw [Bool.toNat_false, Nat.add_zero]
      cases step_effect h with
      | silent hstate htrace => rw [htrace]
      | disconnecting hbefore hstate htrace => rw [htrace]
      | record e hneutral hstate htrace =>
          have hne : e ≠ .closeCallback := fun he => by simp [he, Neutral] at hneutral
          rw [htrace, List.count_cons_of_ne hne]
      | established hinput hbefore hstate htrace => rw [htrace, List.count_cons_of_ne (by decide)]
      | message n buf hinput hn hstate htrace => rw [htrace, List.count_cons_of_ne (by decide)]
      | close hcause hstarted hstate htrace => rw [htrace, List.count_cons_of_ne (by decide)]
      | closed hstate htrace howed htrue => exact absurd (hcalls.symm.trans htrue) (by decide)
      | destroyed hinput hbefore hstate htrace => rw [htrace, List.count_cons_of_ne (by decide)]

/-- Until its owner establishes it, a connection has no call in progress. -/
def WaitsForOwner (c : UdpConnection) : Prop := c.state = .kConnecting → c.stack = []

/-- Before `connectEstablished` nothing but queueing happens to a connection. -/
theorem step_waiting (hstate : c.state = .kConnecting) (hstack : c.stack = []) (hi : i ≠ .connectEstablished)
    (hstep : step c i = .ok c') : c'.state = .kConnecting ∧ c'.stack = [] := by
  have hbusy : c.loopIdle = false := by simp [loopIdle, hstate]
  have hforeign : c.userTurn = false := by simp [userTurn, hstate]
  have hsession : c.kcpTurn = false := by simp [kcpTurn, hstack]
  cases step_outcome hstep with
  | established => exact absurd rfl hi
  | @call caller api hturn h =>
      have hcaller : caller ≠ .loop := fun hcaller => by simp [hturn hcaller] at hforeign
      cases api with
      | send message mode =>
          cases h
          simp [send, hstate, hstack]
      | shutdown =>
          cases h
          simp [shutdown, hstate, hstack]
      | forceClose =>
          cases h
          simp [forceClose, hstate, hstack]
      | startRead =>
          simp only [runApi, startRead, if_neg hcaller] at h
          cases h
          exact ⟨hstate, hstack⟩
      | stopRead =>
          simp only [runApi, stopRead, if_neg hcaller] at h
          cases h
          exact ⟨hstate, hstack⟩
  | _ => simp_all

theorem step_connecting_iff (hinv : c.WaitsForOwner) (hi : i ≠ .connectEstablished) (h : step c i = .ok c') :
    (c'.state = .kConnecting ↔ c.state = .kConnecting) ∧ c'.WaitsForOwner := by
  by_cases hstate : c.state = .kConnecting
  · obtain ⟨hstate', hstack'⟩ := step_waiting hstate (hinv hstate) hi h
    exact ⟨iff_of_true hstate' hstate, fun _ => hstack'⟩
  · have hne : c'.state ≠ .kConnecting := by
      cases step_effect h with
      | silent hstate' => rwa [hstate']
      | disconnecting hbefore hstate' => simp [hstate']
      | record e hneutral hstate' => rwa [hstate']
      | established hinput => exact absurd hinput hi
      | message n buf hinput hn hstate' => rwa [hstate']
      | close hcause hstarted hstate' => simp [hstate']
      | closed hstate' => rwa [hstate']
      | destroyed hinput hbefore hstate' => simp [hstate']
    exact ⟨iff_of_false hne hstate, fun hstate' => absurd hstate' hne⟩

theorem connecting_of_connectEstablished (hstep : step c .connectEstablished = .ok c') :
    c.state = .kConnecting ∧ c'.state = .kConnected := by
  cases step_outcome hstep with
  | established hempty h =>
      obtain ⟨hconnecting, channel, -, rfl⟩ := connectEstablished_eq_ok h
      exact ⟨hconnecting, rfl⟩

theorem waitsForOwner_step (hinv : c.WaitsForOwner) (h : step c i = .ok c') : c'.WaitsForOwner := by
  by_cases hi : i = .connectEstablished
  · intro hstate
    rw [hi] at h
    rw [(connecting_of_connectEstablished h).2] at hstate
    exact absurd hstate (by decide)
  · exact (step_connecting_iff hinv hi h).2

theorem waitsForOwner_run {writeComplete : Bool} {inputs : List Input} (hrun : Run writeComplete inputs c) :
    c.WaitsForOwner :=
  TransitionSystem.run_invariant (fun _ _ _ h1 h2 => waitsForOwner_step h1 h2) (fun _ => rfl) hrun

/-! ### What takes a connection down -/

/-- The loop is about to run a `forceCloseInLoop` that finds the connection up. -/
def forceClosing (c : UdpConnection) (i : Input) : Bool :=
  i == .functor && c.pendingFunctors.head? == some .forceCloseInLoop &&
    (c.state == .kConnected || c.state == .kDisconnecting)

/-- The input makes the connection enter `handleClose`. -/
def entersClose (c : UdpConnection) (i : Input) : Bool := c.closeCause i || c.forceClosing i

end Realtinet.UdpConnection
