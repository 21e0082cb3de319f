import Realtinet.UdpConnection

/-! The step function read backwards: what an accepted input has found and done. The laws about a connection are proved
from this list; the guards of `step` and the calls of the channel's functions are taken apart only here. -/

namespace Realtinet.UdpConnection

open TransitionSystem

variable {c c' : UdpConnection} {i : Input}

theorem handleClose_eq_ok (h : c.handleClose = .ok c') :
    ∃ channel, c.channel.disableAll = .ok channel ∧ c' = callConnectionCallback
      { c with state := .kDisconnected, channel := channel, stack := .closeCallback :: c.stack } := by
  obtain ⟨channel, hchannel, hc⟩ := bind_eq_ok.mp h
  exact ⟨channel, hchannel, (Except.ok.inj hc).symm⟩

theorem startReadInLoop_eq_ok (h : c.startReadInLoop = .ok c') :
    c' = c ∧ (!c.reading || !c.channel.isReading) = false ∨ (!c.reading || !c.channel.isReading) = true ∧
      ∃ channel, c.channel.enableReading = .ok channel ∧ c' = { c with channel := channel, reading := true } := by
  unfold startReadInLoop at h
  split_ifs at h with hreading
  · obtain ⟨channel, hchannel, hc⟩ := bind_eq_ok.mp h
    exact Or.inr ⟨hreading, channel, hchannel, (Except.ok.inj hc).symm⟩
  · cases h
    exact Or.inl ⟨rfl, by simpa using hreading⟩

theorem stopReadInLoop_eq_ok (h : c.stopReadInLoop = .ok c') :
    c' = c ∧ (c.reading || c.channel.isReading) = false ∨ (c.reading || c.channel.isReading) = true ∧
      ∃ channel, c.channel.disableReading = .ok channel ∧ c' = { c with channel := channel, reading := false } := by
  unfold stopReadInLoop at h
  split_ifs at h with hreading
  · obtain ⟨channel, hchannel, hc⟩ := bind_eq_ok.mp h
    exact Or.inr ⟨hreading, channel, hchannel, (Except.ok.inj hc).symm⟩
  · cases h
    exact Or.inl ⟨rfl, by simpa using hreading⟩

theorem connectEstablished_eq_ok (h : c.connectEstablished = .ok c') :
    c.state = .kConnecting ∧ ∃ channel, c.channel.enableReading = .ok channel ∧
      c' = kcpSessionUpdate { c with state := .kConnected, channel := channel } := by
  unfold connectEstablished at h
  split_ifs at h with hstate
  obtain ⟨channel, hchannel, hc⟩ := bind_eq_ok.mp h
  exact ⟨hstate, channel, hchannel, (Except.ok.inj hc).symm⟩

theorem connectDestroyed_eq_ok (h : c.connectDestroyed = .ok c') :
    c.state ≠ .kConnected ∧ c' = { c with stack := .channelRemove :: c.stack } ∨
      c.state = .kConnected ∧ ∃ channel, c.channel.disableAll = .ok channel ∧ c' = callConnectionCallback
        { c with state := .kDisconnected, channel := channel, stack := .channelRemove :: c.stack } := by
  unfold connectDestroyed at h
  split_ifs at h with hstate
  · obtain ⟨channel, hchannel, hc⟩ := bind_eq_ok.mp h
    exact Or.inr ⟨hstate, channel, hchannel, (Except.ok.inj hc).symm⟩
  · cases h
    exact Or.inl ⟨hstate, rfl⟩

/-- What an accepted input has found and done: one case for each input, and for `proceed` one for each frame. -/
inductive Outcome (c c' : UdpConnection) : Input → Prop
  | established (hempty : c.stack = []) (h : c.connectEstablished = .ok c') : Outcome c c' .connectEstablished
  | destroyed (hturn : c.userTurn = true) (h : c.connectDestroyed = .ok c') : Outcome c c' .connectDestroyed
  | polled {revents : Revents} (hidle : c.loopIdle = true) (hinactive : c.activity = .inactive)
      (h : c' = { c with activity := .reported revents }) : Outcome c c' (.poll revents)
  | handling {revents : Revents} (hidle : c.loopIdle = true) (hreported : c.activity = .reported revents)
      (h : c' = c.handleEvent revents) : Outcome c c' .handleEvent
  | eventsHandled (hidle : c.loopIdle = true) (hhandled : c.activity = .handled)
      (h : c' = { c with activity := .inactive }) : Outcome c c' .eventsHandled
  | timer {id : Nat} (hidle : c.loopIdle = true) (harmed : id ∈ c.timers)
      (h : c' = kcpSessionUpdate { c with timers := c.timers.erase id }) : Outcome c c' (.timer id)
  | functor {functor : Functor} {rest : List Functor} (hidle : c.loopIdle = true) (hinactive : c.activity = .inactive)
      (hqueue : c.pendingFunctors = functor :: rest)
      (h : runFunctor functor { c with pendingFunctors := rest } = .ok c') : Outcome c c' .functor
  | call {caller : Thread} {api : Api} (hturn : caller = .loop → c.userTurn = true)
      (h : c.runApi caller api = .ok c') : Outcome c c' (.call caller api)
  | retrieve {len : Nat} (hturn : c.userTurn = true) (h : c' = { c with inputBuffer := c.inputBuffer.drop len }) :
      Outcome c c' (.retrieve len)
  | eventReturns {rest : List Frame} (hstack : c.stack = .channelEvent :: rest) (h : c' = { c with stack := rest }) :
      Outcome c c' .proceed
  | hangsUp {rest : List Frame} (hstack : c.stack = .channelClose :: rest)
      (h : handleClose { c with stack := rest } = .ok c') : Outcome c c' .proceed
  | reads {rest : List Frame} (hstack : c.stack = .channelRead :: rest) (h : c' = handleRead { c with stack := rest }) :
      Outcome c c' .proceed
  | callsClose {rest : List Frame} (hstack : c.stack = .closeCallback :: rest)
      (h : c' = { c with trace := .closeCallback :: c.trace, stack := .user :: rest }) : Outcome c c' .proceed
  | removes {rest : List Frame} {channel : Channel} (hstack : c.stack = .channelRemove :: rest)
      (hremove : c.channel.remove c.activeAside = .ok channel)
      (h : c' = { c with channel := channel, stack := rest }) : Outcome c c' .proceed
  | errorCallback {soError : Int} {rest : List Frame} (hstack : c.stack = .channelError :: rest)
      (h : handleError soError { c with stack := rest } = .ok c') : Outcome c c' (.errorCallback soError)
  | doSend {len nwrote soError : Int} (hturn : c.kcpTurn = true) (h : c.doSend len nwrote soError = .ok c') :
      Outcome c c' (.doSend len nwrote soError)
  | doRecv {n soError : Int} {rest : List Frame} (hstack : c.stack = .kcpRecv :: rest)
      (h : c.doRecv n soError = .ok c') : Outcome c c' (.doRecv n soError)
  | kcpConnection {isConnected : Bool} (hturn : c.kcpTurn = true) (h : c.onKcpsessConnection isConnected = .ok c') :
      Outcome c c' (.kcpConnection isConnected)
  | received {ok : Bool} {n : Int} {buf : List UInt8} {rest : List Frame} (hstack : c.stack = .kcpRecv :: rest)
      (h : c' = c.kcpReceived ok n buf) : Outcome c c' (.recvReturns ok n buf)
  | sendReturns {len : Int} {rest : List Frame} (hstack : c.stack = .kcpSend :: rest)
      (h : c' = { c with stack := rest }) : Outcome c c' (.sendReturns len)
  | updateReturns {nextUpdateTimeMs : Int} {rest : List Frame} (hstack : c.stack = .kcpUpdate :: rest)
      (h : kcpUpdated nextUpdateTimeMs { c with stack := rest } = .ok c') :
      Outcome c c' (.updateReturns nextUpdateTimeMs)
  | userReturns {rest : List Frame} (hstack : c.stack = .user :: rest) (h : c' = { c with stack := rest }) :
      Outcome c c' .userReturns

/-- The rest of a function that is called back from the stack. -/
theorem proceed_outcome (h : c.proceed = .ok c') : Outcome c c' .proceed := by
  unfold proceed at h
  split at h
  · rename_i rest hstack
    exact .eventReturns hstack (Except.ok.inj h).symm
  · rename_i rest hstack
    exact .hangsUp hstack h
  · rename_i rest hstack
    exact .reads hstack (Except.ok.inj h).symm
  · rename_i rest hstack
    exact .callsClose hstack (Except.ok.inj h).symm
  · rename_i rest hstack
    obtain ⟨channel, hremove, hc⟩ := bind_eq_ok.mp h
    exact .removes hstack hremove (Except.ok.inj hc).symm
  · cases h

/-- What a guard lets through. -/
theorem of_guard {guard : Bool} {x : Except Halt UdpConnection}
    (h : (if guard then x else .error .notEnabled) = .ok c') : guard = true ∧ x = .ok c' := by
  split_ifs at h with hguard
  exact ⟨hguard, h⟩

theorem step_outcome (h : step c i = .ok c') : Outcome c c' i := by
  cases i with
  | connectEstablished =>
      obtain ⟨hempty, h⟩ := of_guard h
      exact .established (List.isEmpty_iff.mp hempty) h
  | connectDestroyed =>
      obtain ⟨hturn, h⟩ := of_guard h
      exact .destroyed hturn h
  | poll revents =>
      obtain ⟨hguard, h⟩ := of_guard h
      rw [Bool.and_eq_true, Bool.and_eq_true, beq_iff_eq] at hguard
      exact .polled hguard.1.1 hguard.1.2 (Except.ok.inj h).symm
  | handleEvent =>
      simp only [step] at h
      split at h
      · rename_i revents hreported
        obtain ⟨hidle, h⟩ := of_guard h
        exact .handling hidle hreported (Except.ok.inj h).symm
      · cases h
  | eventsHandled =>
      obtain ⟨hguard, h⟩ := of_guard h
      rw [Bool.and_eq_true, beq_iff_eq] at hguard
      exact .eventsHandled hguard.1 hguard.2 (Except.ok.inj h).symm
  | timer id =>
      obtain ⟨hguard, h⟩ := of_guard h
      rw [Bool.and_eq_true, List.contains_iff_mem] at hguard
      exact .timer hguard.1 hguard.2 (Except.ok.inj h).symm
  | functor =>
      simp only [step] at h
      split at h
      · rename_i functor rest hqueue
        obtain ⟨hguard, h⟩ := of_guard h
        rw [Bool.and_eq_true, beq_iff_eq] at hguard
        exact .functor hguard.1 hguard.2 hqueue h
      · cases h
  | call caller api =>
      obtain ⟨hguard, h⟩ := of_guard h
      refine .call (fun hcaller => ?_) h
      simpa [hcaller] using hguard
  | retrieve len =>
      obtain ⟨hturn, h⟩ := of_guard h
      exact .retrieve hturn (Except.ok.inj h).symm
  | proceed => exact proceed_outcome h
  | errorCallback soError =>
      simp only [step] at h
      split at h
      · rename_i rest hstack
        exact .errorCallback hstack h
      · cases h
  | doSend len nwrote soError =>
      obtain ⟨hturn, h⟩ := of_guard h
      exact .doSend hturn h
  | doRecv n soError =>
      obtain ⟨hturn, h⟩ := of_guard h
      obtain ⟨rest, hstack⟩ := List.head?_eq_some_iff.mp (beq_iff_eq.mp hturn)
      exact .doRecv hstack h
  | kcpConnection isConnected =>
      obtain ⟨hturn, h⟩ := of_guard h
      exact .kcpConnection hturn h
  | recvReturns ok n buf =>
      obtain ⟨hturn, h⟩ := of_guard h
      obtain ⟨rest, hstack⟩ := List.head?_eq_some_iff.mp (beq_iff_eq.mp hturn)
      exact .received hstack (Except.ok.inj h).symm
  | sendReturns len =>
      simp only [step] at h
      split at h
      · rename_i rest hstack
        exact .sendReturns hstack (Except.ok.inj h).symm
      · cases h
  | updateReturns nextUpdateTimeMs =>
      simp only [step] at h
      split at h
      · rename_i rest hstack
        exact .updateReturns hstack h
      · cases h
  | userReturns =>
      simp only [step] at h
      split at h
      · rename_i rest hstack
        exact .userReturns hstack (Except.ok.inj h).symm
      · cases h

/-! ### What the functions leave alone -/

/-- Neither `inputBuffer_` nor what the loop knows of the channel is touched. -/
structure SameInput (c c' : UdpConnection) : Prop where
  inputBuffer : c'.inputBuffer = c.inputBuffer
  activity : c'.activity = c.activity

theorem sameInput_handleClose (h : c.handleClose = .ok c') : SameInput c c' := by
  obtain ⟨channel, -, rfl⟩ := handleClose_eq_ok h
  exact ⟨rfl, rfl⟩

theorem sameInput_handleError {soError : Int} (h : c.handleError soError = .ok c') : SameInput c c' := by
  unfold handleError at h
  split_ifs at h
  · exact sameInput_handleClose h
  · cases h
    exact ⟨rfl, rfl⟩

theorem sameInput_connectDestroyed (h : c.connectDestroyed = .ok c') : SameInput c c' := by
  rcases connectDestroyed_eq_ok h with ⟨-, rfl⟩ | ⟨-, channel, -, rfl⟩ <;> exact ⟨rfl, rfl⟩

theorem sameInput_startReadInLoop (h : c.startReadInLoop = .ok c') : SameInput c c' := by
  rcases startReadInLoop_eq_ok h with ⟨rfl, -⟩ | ⟨-, channel, -, rfl⟩ <;> exact ⟨rfl, rfl⟩

theorem sameInput_stopReadInLoop (h : c.stopReadInLoop = .ok c') : SameInput c c' := by
  rcases stopReadInLoop_eq_ok h with ⟨rfl, -⟩ | ⟨-, channel, -, rfl⟩ <;> exact ⟨rfl, rfl⟩

theorem sameInput_runApi {caller : Thread} {api : Api} (h : c.runApi caller api = .ok c') : SameInput c c' := by
  cases api with
  | send message mode =>
      simp only [runApi, send, sendInLoop] at h
      split_ifs at h <;> cases h <;> exact ⟨rfl, rfl⟩
  | shutdown =>
      simp only [runApi, shutdown] at h
      split_ifs at h <;> cases h <;> exact ⟨rfl, rfl⟩
  | forceClose =>
      simp only [runApi, forceClose] at h
      split_ifs at h <;> cases h <;> exact ⟨rfl, rfl⟩
  | startRead =>
      simp only [runApi, startRead] at h
      split_ifs at h
      · exact sameInput_startReadInLoop h
      · cases h
        exact ⟨rfl, rfl⟩
  | stopRead =>
      simp only [runApi, stopRead] at h
      split_ifs at h
      · exact sameInput_stopReadInLoop h
      · cases h
        exact ⟨rfl, rfl⟩

theorem sameInput_runFunctor {functor : Functor} (h : c.runFunctor functor = .ok c') : SameInput c c' := by
  cases functor with
  | sendInLoop caller message mode =>
      simp only [runFunctor, sendInLoop] at h
      split_ifs at h <;> cases h <;> exact ⟨rfl, rfl⟩
  | startReadInLoop => exact sameInput_startReadInLoop h
  | stopReadInLoop => exact sameInput_stopReadInLoop h
  | forceCloseInLoop =>
      simp only [runFunctor, forceCloseInLoop] at h
      split_ifs at h
      · exact sameInput_handleClose h
      · cases h
        exact ⟨rfl, rfl⟩
  | writeCompleteCallback =>
      cases h
      exact ⟨rfl, rfl⟩

theorem sameInput_doSend {len nwrote soError : Int} (h : c.doSend len nwrote soError = .ok c') : SameInput c c' := by
  unfold doSend at h
  split_ifs at h
  · cases h
    exact ⟨rfl, rfl⟩
  · cases h
    exact ⟨rfl, rfl⟩
  · exact sameInput_handleError h

theorem sameInput_doRecv {n soError : Int} (h : c.doRecv n soError = .ok c') : SameInput c c' := by
  unfold doRecv at h
  split_ifs at h
  · exact sameInput_handleClose h
  · exact sameInput_handleError h
  · cases h
    exact ⟨rfl, rfl⟩

theorem sameInput_onKcpsessConnection {isConnected : Bool} (h : c.onKcpsessConnection isConnected = .ok c') :
    SameInput c c' := by
  unfold onKcpsessConnection at h
  split_ifs at h
  · cases h
    exact ⟨rfl, rfl⟩
  · exact sameInput_handleClose h

theorem sameInput_kcpUpdated {nextUpdateTimeMs : Int} (h : c.kcpUpdated nextUpdateTimeMs = .ok c') :
    SameInput c c' := by
  unfold kcpUpdated at h
  split_ifs at h
  · exact sameInput_handleClose h
  · cases h
    exact ⟨rfl, rfl⟩

/-- While a call is in progress the loop polls nothing and handles no other event, and the owner's functors do neither. -/
theorem step_activity (hstep : step c i = .ok c') (hbusy : c.stack ≠ [] ∨ i = .connectDestroyed) :
    c'.activity = c.activity := by
  have hnotIdle : i ≠ .connectDestroyed → c.loopIdle ≠ true := fun hi hidle =>
    hbusy.resolve_right hi (List.isEmpty_iff.mp (Bool.and_eq_true_iff.mp hidle).1)
  cases step_outcome hstep with
  | established hempty => exact absurd hempty (hbusy.resolve_right (by simp))
  | polled hidle => exact absurd hidle (hnotIdle (by simp))
  | handling hidle => exact absurd hidle (hnotIdle (by simp))
  | eventsHandled hidle => exact absurd hidle (hnotIdle (by simp))
  | timer hidle => exact absurd hidle (hnotIdle (by simp))
  | functor hidle => exact absurd hidle (hnotIdle (by simp))
  | destroyed hturn h => exact (sameInput_connectDestroyed h).activity
  | call hturn h => exact (sameInput_runApi h).activity
  | hangsUp hstack h => exact (sameInput_handleClose h).activity
  | errorCallback hstack h => exact (sameInput_handleError h).activity
  | doSend hturn h => exact (sameInput_doSend h).activity
  | doRecv hstack h => exact (sameInput_doRecv h).activity
  | kcpConnection hturn h => exact (sameInput_onKcpsessConnection h).activity
  | updateReturns hstack h => exact (sameInput_kcpUpdated h).activity
  | received hstack h =>
      rw [h, kcpReceived]
      split_ifs <;> rfl
  | retrieve hturn h => rw [h]
  | eventReturns hstack h => rw [h]
  | reads hstack h => rw [h, handleRead]
  | callsClose hstack h => rw [h]
  | removes hstack hremove h => rw [h]
  | sendReturns hstack h => rw [h]
  | userReturns hstack h => rw [h]

end Realtinet.UdpConnection
