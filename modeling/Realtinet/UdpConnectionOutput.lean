import Realtinet.UdpConnectionEffect

/-! What one input puts out: the call it records in the trace, and the functor it queues. At most one of each, and
both are functions of the connection and the input. -/

namespace Realtinet.UdpConnection

open TransitionSystem

variable {c c' : UdpConnection} {i : Input}

/-- The call that a functor records. -/
def functorEmits (c : UdpConnection) : Functor → Option Event
  | .sendInLoop caller message mode =>
      if c.state = .kDisconnected then none else some (.kcpSend caller message mode)
  | .writeCompleteCallback => some .writeCompleteCallback
  | _ => none

/-- The call that an input records. -/
def emits (c : UdpConnection) (i : Input) : Option Event :=
  if c.entersClose i then some (.connectionCallback .kDisconnected)
  else
    match i with
    | .connectEstablished => some .kcpUpdate
    | .connectDestroyed => if c.state = .kConnected then some (.connectionCallback .kDisconnected) else none
    | .timer _ => some .kcpUpdate
    | .functor => c.pendingFunctors.head?.bind c.functorEmits
    | .call .loop (.send message mode) => if c.state = .kConnected then some (.kcpSend .loop message mode) else none
    | .proceed => if c.stack.head? = some .closeCallback then some .closeCallback else none
    | .kcpConnection _ => some (.connectionCallback c.state)
    | .recvReturns ok n _ => if ok && decide (0 < n) then some .messageCallback else none
    | .updateReturns _ => some (.runAt c.nextTimer)
    | _ => none

/-- The functor that an input queues. -/
def queues (c : UdpConnection) : Input → Option Functor
  | .call caller (.send message mode) =>
      if c.state = .kConnected ∧ caller ≠ .loop then some (.sendInLoop caller message mode) else none
  | .call _ .forceClose => if c.state = .kConnected ∨ c.state = .kDisconnecting then some .forceCloseInLoop else none
  | .call caller .startRead => if caller ≠ .loop then some .startReadInLoop else none
  | .call caller .stopRead => if caller ≠ .loop then some .stopReadInLoop else none
  | .doSend len nwrote _ =>
      if nwrote ≥ 0 ∧ len - nwrote = 0 ∧ c.writeCompleteCallback then some .writeCompleteCallback else none
  | _ => none

structure Output (c c' : UdpConnection) (i : Input) : Prop where
  trace : c'.trace = (c.emits i).toList ++ c.trace
  functors : c'.pendingFunctors =
    (if i = .functor then c.pendingFunctors.tail else c.pendingFunctors) ++ (c.queues i).toList

theorem emits_of_entersClose (h : c.entersClose i = true) : c.emits i = some (.connectionCallback .kDisconnected) := by
  unfold emits
  rw [if_pos h]

/-- The inputs that queue nothing and are not functors. -/
theorem Output.plain (hi : i ≠ .functor ∧ c.queues i = none) (htrace : c'.trace = (c.emits i).toList ++ c.trace)
    (hfunctors : c'.pendingFunctors = c.pendingFunctors) : Output c c' i :=
  ⟨htrace, by rw [if_neg hi.1, hi.2, hfunctors]; simp⟩

theorem Output.handleClose {base : UdpConnection} (h : base.handleClose = .ok c')
    (hi : i ≠ .functor ∧ c.queues i = none) (henters : c.entersClose i = true) (htrace : base.trace = c.trace)
    (hfunctors : base.pendingFunctors = c.pendingFunctors) : Output c c' i := by
  obtain ⟨channel, -, rfl⟩ := handleClose_eq_ok h
  refine .plain hi ?_ hfunctors
  rw [emits_of_entersClose henters, ← htrace]
  rfl

theorem Output.handleError {base : UdpConnection} {soError : Int} (h : base.handleError soError = .ok c')
    (hi : i ≠ .functor ∧ c.queues i = none) (henters : c.entersClose i = (soError != 0))
    (hsilent : c.entersClose i = false → c.emits i = none)
    (htrace : base.trace = c.trace) (hfunctors : base.pendingFunctors = c.pendingFunctors) : Output c c' i := by
  rw [UdpConnection.handleError] at h
  split_ifs at h with herror
  · exact .handleClose h hi (by simpa [henters] using herror) htrace hfunctors
  · cases h
    refine .plain hi ?_ hfunctors
    rw [hsilent (by simpa [henters] using herror), htrace]
    rfl

/-! ### The functions of the loop's owner and of the user -/

theorem output_connectEstablished (h : c.connectEstablished = .ok c') : Output c c' .connectEstablished := by
  obtain ⟨-, channel, -, rfl⟩ := connectEstablished_eq_ok h
  exact .plain ⟨by simp, rfl⟩ rfl rfl

theorem output_connectDestroyed (h : c.connectDestroyed = .ok c') : Output c c' .connectDestroyed := by
  have hclose : c.entersClose .connectDestroyed = false := rfl
  rcases connectDestroyed_eq_ok h with ⟨hup, rfl⟩ | ⟨hup, channel, -, rfl⟩
  · exact .plain ⟨by simp, rfl⟩ (by simp [emits, hclose, hup]) rfl
  · exact .plain ⟨by simp, rfl⟩ (by simp [emits, hclose, hup, callConnectionCallback]) rfl

theorem output_send {caller : Thread} {message : List UInt8} {mode : TransmitModeE} :
    Output c (c.send caller message mode) (.call caller (.send message mode)) := by
  have hclose : c.entersClose (.call caller (.send message mode)) = false := rfl
  simp only [send, sendInLoop]
  split_ifs with hup hloop hdown
  · rw [hup] at hdown
    cases hdown
  · subst hloop
    exact ⟨by simp [emits, hclose, hup, kcpSend], by simp [queues, kcpSend]⟩
  · refine ⟨?_, by simp [queues, hup, hloop, queueInLoop]⟩
    cases caller with
    | loop => exact absurd rfl hloop
    | other id => rfl
  · refine ⟨?_, by simp [queues, hup]⟩
    cases caller with
    | loop => simp [emits, hclose, hup]
    | other id => rfl

theorem output_runApi {caller : Thread} {api : Api} (h : c.runApi caller api = .ok c') :
    Output c c' (.call caller api) := by
  cases api with
  | send message mode =>
      cases h
      exact output_send
  | shutdown =>
      cases h
      rw [shutdown]
      split_ifs <;> cases caller <;> exact .plain (by simp [queues]) rfl rfl
  | forceClose =>
      cases h
      rw [forceClose]
      split_ifs with hup
      · refine ⟨?_, by simp [queues, hup, queueInLoop]⟩
        cases caller <;> rfl
      · refine ⟨?_, by simp [queues, hup]⟩
        cases caller <;> rfl
  | startRead =>
      cases caller with
      | loop =>
          rcases startReadInLoop_eq_ok h with ⟨rfl, -⟩ | ⟨-, channel, -, rfl⟩ <;> exact .plain (by simp [queues]) rfl rfl
      | other id =>
          cases h
          exact ⟨rfl, rfl⟩
  | stopRead =>
      cases caller with
      | loop =>
          rcases stopReadInLoop_eq_ok h with ⟨rfl, -⟩ | ⟨-, channel, -, rfl⟩ <;> exact .plain (by simp [queues]) rfl rfl
      | other id =>
          cases h
          exact ⟨rfl, rfl⟩

/-- The oldest functor leaves the queue, and what it emits is added to the trace. -/
theorem Output.functor {functor : Functor} {rest : List Functor} (hqueue : c.pendingFunctors = functor :: rest)
    (htrace : c'.trace = (c.emits .functor).toList ++ c.trace) (hrest : c'.pendingFunctors = rest) :
    Output c c' .functor :=
  ⟨htrace, by simp [hrest, hqueue, queues]⟩

theorem output_runFunctor {functor : Functor} {rest : List Functor} (hqueue : c.pendingFunctors = functor :: rest)
    (h : runFunctor functor { c with pendingFunctors := rest } = .ok c') : Output c c' .functor := by
  have hemits : functor ≠ .forceCloseInLoop → c.emits .functor = c.functorEmits functor := by
    intro hne
    have hclose : c.entersClose .functor = false := by simp [entersClose, closeCause, forceClosing, hqueue, hne]
    simp [emits, hclose, hqueue]
  cases functor with
  | sendInLoop caller message mode =>
      have hsend := hemits (by simp)
      simp only [runFunctor, sendInLoop, Except.ok.injEq] at h
      subst h
      split_ifs with hdown
      · exact .functor hqueue (by simp [hsend, functorEmits, hdown]) rfl
      · exact .functor hqueue (by simp [hsend, functorEmits, hdown, kcpSend]) rfl
  | startReadInLoop =>
      rcases startReadInLoop_eq_ok h with ⟨rfl, -⟩ | ⟨-, channel, -, rfl⟩ <;>
        exact .functor hqueue (by simp [hemits, functorEmits]) rfl
  | stopReadInLoop =>
      rcases stopReadInLoop_eq_ok h with ⟨rfl, -⟩ | ⟨-, channel, -, rfl⟩ <;>
        exact .functor hqueue (by simp [hemits, functorEmits]) rfl
  | forceCloseInLoop =>
      simp only [runFunctor, forceCloseInLoop] at h
      split_ifs at h with hup
      · have henters : c.entersClose .functor = true := by
          simpa [entersClose, forceClosing, hqueue] using Or.inr hup
        obtain ⟨channel, -, rfl⟩ := handleClose_eq_ok h
        exact .functor hqueue (by rw [emits_of_entersClose henters]; rfl) rfl
      · have hclose : c.entersClose .functor = false := by
          simpa [entersClose, closeCause, forceClosing, hqueue] using hup
        cases h
        exact .functor hqueue (by simp [emits, hclose, hqueue, functorEmits]) rfl
  | writeCompleteCallback =>
      cases h
      exact .functor hqueue (by simp [hemits, functorEmits]) rfl

/-! ### The callbacks of the session -/

theorem output_doSend {len nwrote soError : Int} (h : c.doSend len nwrote soError = .ok c') :
    Output c c' (.doSend len nwrote soError) := by
  rw [doSend] at h
  split_ifs at h with hwrote hfull
  · have hclose : c.entersClose (.doSend len nwrote soError) = false := by
      simpa [entersClose, closeCause, forceClosing] using fun hneg : nwrote < 0 => absurd hneg (by omega)
    cases h
    exact ⟨by simp [emits, hclose, queueInLoop], by simp [queues, hwrote, hfull, queueInLoop]⟩
  · have hclose : c.entersClose (.doSend len nwrote soError) = false := by
      simpa [entersClose, closeCause, forceClosing] using fun hneg : nwrote < 0 => absurd hneg (by omega)
    cases h
    refine ⟨by simp [emits, hclose], ?_⟩
    have hnone : c.queues (.doSend len nwrote soError) = none := if_neg fun h => hfull h.2
    simp [hnone]
  · have hneg : nwrote < 0 := by omega
    refine .handleError h ⟨by simp, if_neg fun h => hwrote h.1⟩ ?_ (fun hclose => ?_) rfl rfl
    · simp [entersClose, closeCause, forceClosing, hneg]
    · simp [emits, hclose]

theorem output_doRecv {n soError : Int} (h : c.doRecv n soError = .ok c') : Output c c' (.doRecv n soError) := by
  rw [doRecv] at h
  split_ifs at h with hzero hneg
  · exact .handleClose h ⟨by simp, rfl⟩ (by simp [entersClose, closeCause, hzero]) rfl rfl
  · refine .handleError h ⟨by simp, rfl⟩ ?_ (fun hclose => ?_) rfl rfl
    · have hforce : c.forceClosing (.doRecv n soError) = false := rfl
      have hnot : (n == 0) = false := by simpa using hzero
      simp [entersClose, closeCause, hforce, hneg, hnot]
    · simp [emits, hclose]
  · have hclose : c.entersClose (.doRecv n soError) = false := by
      simp [entersClose, closeCause, forceClosing, hneg, hzero]
    cases h
    exact .plain ⟨by simp, rfl⟩ (by simp [emits, hclose]) rfl

theorem output_onKcpsessConnection {isConnected : Bool} (h : c.onKcpsessConnection isConnected = .ok c') :
    Output c c' (.kcpConnection isConnected) := by
  rw [onKcpsessConnection] at h
  split_ifs at h with hconnected
  · have hclose : c.entersClose (.kcpConnection isConnected) = false := by
      simp [entersClose, closeCause, forceClosing, hconnected]
    cases h
    exact .plain ⟨by simp, rfl⟩ (by simp [emits, hclose, callConnectionCallback]) rfl
  · exact .handleClose h ⟨by simp, rfl⟩ (by simpa [entersClose, closeCause, forceClosing] using hconnected) rfl rfl

/-! ### The returns of the session -/

theorem output_kcpReceived {ok : Bool} {n : Int} {buf : List UInt8} :
    Output c (c.kcpReceived ok n buf) (.recvReturns ok n buf) := by
  have hclose : c.entersClose (.recvReturns ok n buf) = false := rfl
  unfold kcpReceived
  split_ifs with hok hneg hpos
  · exact .plain ⟨by simp, rfl⟩ (by simp [emits, hclose]; simp_all) rfl
  · exact .plain ⟨by simp, rfl⟩ (by simp [emits, hclose]; omega) rfl
  · exact .plain ⟨by simp, rfl⟩ (by simp_all [emits]) rfl
  · exact .plain ⟨by simp, rfl⟩ (by simp [emits, hclose]; omega) rfl

theorem output_kcpUpdated {nextUpdateTimeMs : Int} {rest : List Frame}
    (h : kcpUpdated nextUpdateTimeMs { c with stack := rest } = .ok c') :
    Output c c' (.updateReturns nextUpdateTimeMs) := by
  rw [kcpUpdated] at h
  split_ifs at h with hneg
  · exact .handleClose h ⟨by simp, rfl⟩ (by simp [entersClose, closeCause, hneg]) rfl rfl
  · have hclose : c.entersClose (.updateReturns nextUpdateTimeMs) = false := by
      simp [entersClose, closeCause, forceClosing, hneg]
    cases h
    exact .plain ⟨by simp, rfl⟩ (by simp [emits, hclose]) rfl

/-- A frame other than those of `handleClose` goes on or returns. -/
theorem Output.proceed {frame : Frame} {rest : List Frame} (hstack : c.stack = frame :: rest)
    (hframe : frame ≠ .channelClose ∧ frame ≠ .closeCallback) (htrace : c'.trace = c.trace)
    (hfunctors : c'.pendingFunctors = c.pendingFunctors) : Output c c' .proceed :=
  .plain ⟨by simp, rfl⟩ (by simp [emits, entersClose, closeCause, forceClosing, hstack, hframe, htrace]) hfunctors

/-- **Every accepted input puts out what is said here.** -/
theorem step_output (hstep : step c i = .ok c') : Output c c' i := by
  cases step_outcome hstep with
  | established hempty h => exact output_connectEstablished h
  | destroyed hturn h => exact output_connectDestroyed h
  | polled hidle hinactive h | handling hidle hreported h | eventsHandled hidle hhandled h | timer hidle harmed h
  | retrieve hturn h | sendReturns hstack h | userReturns hstack h =>
      subst h
      exact .plain ⟨by simp, rfl⟩ rfl rfl
  | functor hidle hinactive hqueue h => exact output_runFunctor hqueue h
  | call hturn h => exact output_runApi h
  | hangsUp hstack h =>
      exact .handleClose h ⟨by simp, rfl⟩ (by simp [entersClose, closeCause, hstack]) rfl rfl
  | callsClose hstack h =>
      subst h
      exact .plain ⟨by simp, rfl⟩ (by simp [emits, entersClose, closeCause, forceClosing, hstack]) rfl
  | eventReturns hstack h | reads hstack h | removes hstack hremove h =>
      subst h
      exact .proceed hstack (by decide) rfl rfl
  | errorCallback hstack h =>
      refine .handleError h ⟨by simp, rfl⟩ ?_ (fun hclose => ?_) rfl rfl
      · simp [entersClose, closeCause, forceClosing]
      · simp [emits, hclose]
  | doSend hturn h => exact output_doSend h
  | doRecv hstack h => exact output_doRecv h
  | kcpConnection hturn h => exact output_onKcpsessConnection h
  | received hstack h =>
      subst h
      exact output_kcpReceived
  | updateReturns hstack h => exact output_kcpUpdated h

theorem functors_of_functor (h : step c .functor = .ok c') : c'.pendingFunctors = c.pendingFunctors.tail := by
  rw [(step_output h).functors, if_pos rfl]
  exact List.append_nil _

theorem functors_of_other (h : step c i = .ok c') (hi : i ≠ .functor) :
    c'.pendingFunctors = c.pendingFunctors ++ (c.queues i).toList := by
  rw [(step_output h).functors, if_neg hi]

/-- While it is up, a connection tells user code that it is down only in `handleClose` and `connectDestroyed`. -/
theorem entersClose_of_emits (hup : c.state ≠ .kDisconnected)
    (h : c.emits i = some (.connectionCallback .kDisconnected)) : c.entersClose i = true ∨ i = .connectDestroyed := by
  unfold emits at h
  by_cases henters : c.entersClose i = true
  · exact Or.inl henters
  · rw [if_neg henters] at h
    cases i with
    | connectDestroyed => exact Or.inr rfl
    | kcpConnection isConnected =>
        have hdown : c.state = .kDisconnected := by simpa using h
        exact absurd hdown hup
    | functor =>
        obtain ⟨functor, -, hemits⟩ := Option.bind_eq_some_iff.mp h
        unfold functorEmits at hemits
        split at hemits <;> (try split_ifs at hemits) <;> cases hemits
    | call caller api =>
        cases caller with
        | loop =>
            cases api with
            | send message mode =>
                dsimp only at h
                split_ifs at h
                cases h
            | _ => cases h
        | other id => cases h
    | proceed =>
        dsimp only at h
        split_ifs at h
        cases h
    | recvReturns ok n buf =>
        dsimp only at h
        split_ifs at h
        cases h
    | _ => cases h

/-- Without `handleClose` only `connectDestroyed` takes the connection down. -/
theorem step_up (h : step c i = .ok c') (hup : c.state ≠ .kDisconnected) (hno : c.entersClose i = false)
    (hi : i ≠ .connectDestroyed) : c'.state ≠ .kDisconnected := by
  cases step_effect h with
  | silent hstate => rwa [hstate]
  | disconnecting hbefore hstate => simp [hstate]
  | record e hneutral hstate => rwa [hstate]
  | established hinput hbefore hstate => simp [hstate]
  | message n buf hinput hn hstate => rwa [hstate]
  | close hcause hstarted hstate htrace =>
      -- the callback is in the trace
      have hemits : (c.emits i).toList = [.connectionCallback .kDisconnected] :=
        List.append_cancel_right ((step_output h).trace.symm.trans htrace)
      have hsome : c.emits i = some (.connectionCallback .kDisconnected) := by
        simpa [Option.toList_eq_singleton_iff] using hemits
      rcases entersClose_of_emits hup hsome with henters | hdestroyed
      · rw [hno] at henters
        cases henters
      · exact absurd hdestroyed hi
  | closed hstate => rwa [hstate]
  | destroyed hinput => exact absurd hinput hi

end Realtinet.UdpConnection
