import Realtinet.UdpConnectionEffect

/-! A connection in its first `Update`, which `connectEstablished` calls. Until this `Update` returns the calls in progress
stay on top of it, and the event loop does not come to the connection. Inputs are told apart by where they come from:
what other threads do, and what is done to a connection that is down, makes no call that lasts. -/

namespace Realtinet.UdpConnection

variable {c c' : UdpConnection} {i : Input} {frame : Frame} {rest : List Frame}

/-- Where an input of a connection comes from: the event loop of the connection, user code in its thread, another thread,
or the innermost call in progress. -/
inductive Source where
  | eventLoop
  | userCode
  | otherThread
  | innermostCall
  deriving DecidableEq, Repr

def source : Input → Source
  | .connectEstablished | .connectDestroyed | .poll _ | .handleEvent | .eventsHandled | .timer _ | .functor => .eventLoop
  | .call .loop _ | .retrieve _ => .userCode
  | .call (.other _) _ => .otherThread
  | .proceed | .errorCallback _ | .doSend _ _ _ | .doRecv _ _ | .kcpConnection _ | .recvReturns _ _ _ | .sendReturns _
  | .updateReturns _ | .userReturns => .innermostCall

theorem stack_of_startReadInLoop (h : c.startReadInLoop = .ok c') :
    c'.stack = c.stack ∧ c'.curKcpsessUpTimerId = c.curKcpsessUpTimerId := by
  rcases startReadInLoop_eq_ok h with ⟨rfl, -⟩ | ⟨-, channel, -, rfl⟩ <;> exact ⟨rfl, rfl⟩

theorem stack_of_stopReadInLoop (h : c.stopReadInLoop = .ok c') :
    c'.stack = c.stack ∧ c'.curKcpsessUpTimerId = c.curKcpsessUpTimerId := by
  rcases stopReadInLoop_eq_ok h with ⟨rfl, -⟩ | ⟨-, channel, -, rfl⟩ <;> exact ⟨rfl, rfl⟩

/-- A public function is over at once, unless it is a `send` in the loop thread of a connection that is up. -/
theorem stack_of_runApi {caller : Thread} {api : Api} (h : c.runApi caller api = .ok c') :
    c'.stack = c.stack ∧ c'.curKcpsessUpTimerId = c.curKcpsessUpTimerId ∨
      caller = .loop ∧ c.state = .kConnected ∧ c'.stack = .kcpSend :: c.stack ∧
        c'.curKcpsessUpTimerId = c.curKcpsessUpTimerId := by
  cases api with
  | send message mode =>
      simp only [runApi, send, sendInLoop, Except.ok.injEq] at h
      subst h
      split_ifs with hup hcaller
      · exact Or.inl ⟨rfl, rfl⟩
      · exact Or.inr ⟨hcaller, hup, rfl, rfl⟩
      · exact Or.inl ⟨rfl, rfl⟩
      · exact Or.inl ⟨rfl, rfl⟩
  | shutdown =>
      cases h
      rw [shutdown]
      split_ifs <;> exact Or.inl ⟨rfl, rfl⟩
  | forceClose =>
      cases h
      rw [forceClose]
      split_ifs <;> exact Or.inl ⟨rfl, rfl⟩
  | startRead =>
      simp only [runApi, startRead] at h
      split_ifs at h
      · exact Or.inl (stack_of_startReadInLoop h)
      · cases h
        exact Or.inl ⟨rfl, rfl⟩
  | stopRead =>
      simp only [runApi, stopRead] at h
      split_ifs at h
      · exact Or.inl (stack_of_stopReadInLoop h)
      · cases h
        exact Or.inl ⟨rfl, rfl⟩

/-- What another thread does, and what user code does to a connection that is down, is over at once. -/
theorem stack_of_source (hstep : step c i = .ok c')
    (hsource : source i = .otherThread ∨ source i = .userCode ∧ c.state = .kDisconnected) :
    c'.stack = c.stack ∧ c'.curKcpsessUpTimerId = c.curKcpsessUpTimerId := by
  cases step_outcome hstep with
  | call hturn h =>
      rcases stack_of_runApi h with hsame | ⟨hcaller, hup, -⟩
      · exact hsame
      · subst hcaller
        rcases hsource with hother | ⟨-, hdown⟩
        · cases hother
        · rw [hup] at hdown
          cases hdown
  | retrieve hturn h =>
      subst h
      exact ⟨rfl, rfl⟩
  | _ => simp [source] at hsource

/-- The owner's code, or user code, that is the innermost call can only return. -/
theorem returns_of_user (hstep : step c i = .ok c') (hsource : source i = .innermostCall)
    (huser : c.stack.head? = some .user) : c.stack = .user :: c'.stack := by
  have hsession : c.kcpTurn = false := by simp [kcpTurn, huser]
  cases step_outcome hstep with
  | userReturns hstack h =>
      subst h
      exact hstack
  | @call caller => cases caller <;> cases hsource
  | doSend hturn | kcpConnection hturn =>
      rw [hsession] at hturn
      cases hturn
  | eventReturns hstack | hangsUp hstack | reads hstack | callsClose hstack | removes hstack | errorCallback hstack
  | doRecv hstack | received hstack | sendReturns hstack | updateReturns hstack =>
      rw [hstack] at huser
      cases huser
  | _ => cases hsource

/-! ### The first `Update` -/

/-- The first `Update` is at the bottom of the calls in progress, and nothing above it closes the connection. -/
inductive InFirstUpdate : List Frame → Prop
  | running : InFirstUpdate [.kcpUpdate]
  | inside {frame : Frame} {rest : List Frame} (hupdate : frame ≠ .kcpUpdate) (hclose : frame ≠ .closeCallback)
      (h : InFirstUpdate rest) : InFirstUpdate (frame :: rest)

theorem InFirstUpdate.ne_nil {stack : List Frame} (h : InFirstUpdate stack) : stack ≠ [] := by
  cases h <;> simp

theorem InFirstUpdate.pop (h : InFirstUpdate (frame :: rest)) (hframe : frame ≠ .kcpUpdate) : InFirstUpdate rest := by
  cases h with
  | running => exact absurd rfl hframe
  | inside hupdate hclose h => exact h

theorem InFirstUpdate.bottom (h : InFirstUpdate (.kcpUpdate :: rest)) : rest = [] := by
  cases h with
  | running => rfl
  | inside hupdate hclose h => exact absurd rfl hupdate

theorem InFirstUpdate.ne_closeCallback (h : InFirstUpdate (frame :: rest)) : frame ≠ .closeCallback := by
  cases h with
  | running => decide
  | inside hupdate hclose h => exact hclose

/-- The first `Update` of a session is running. -/
structure Opening (c : UdpConnection) : Prop where
  stack : InFirstUpdate c.stack
  notArmed : c.curKcpsessUpTimerId = none

theorem Opening.push (h : c.Opening) (hstack : c'.stack = frame :: c.stack)
    (hcurrent : c'.curKcpsessUpTimerId = c.curKcpsessUpTimerId) (hupdate : frame ≠ .kcpUpdate)
    (hclose : frame ≠ .closeCallback) : c'.Opening := by
  refine ⟨?_, hcurrent.trans h.notArmed⟩
  rw [hstack]
  exact .inside hupdate hclose h.stack

theorem Opening.pop (h : c.Opening) (hstack : c.stack = frame :: c'.stack)
    (hcurrent : c'.curKcpsessUpTimerId = c.curKcpsessUpTimerId) (hupdate : frame ≠ .kcpUpdate) : c'.Opening := by
  refine ⟨?_, hcurrent.trans h.notArmed⟩
  have hfirst := h.stack
  rw [hstack] at hfirst
  exact hfirst.pop hupdate

theorem Opening.congr (h : c.Opening) (hstack : c'.stack = c.stack)
    (hcurrent : c'.curKcpsessUpTimerId = c.curKcpsessUpTimerId) : c'.Opening :=
  ⟨hstack ▸ h.stack, hcurrent.trans h.notArmed⟩

theorem Opening.loopIdle (h : c.Opening) : c.loopIdle = false := by
  have hne := h.stack.ne_nil
  cases hstack : c.stack with
  | nil => exact absurd hstack hne
  | cons frame rest => simp [UdpConnection.loopIdle, hstack]

theorem opening_runApi {caller : Thread} {api : Api} (hopening : c.Opening) (h : c.runApi caller api = .ok c') :
    c'.Opening := by
  rcases stack_of_runApi h with ⟨hstack, hcurrent⟩ | ⟨-, -, hstack, hcurrent⟩
  · exact hopening.congr hstack hcurrent
  · exact hopening.push hstack hcurrent (by decide) (by decide)

theorem opening_doSend {len nwrote soError : Int} (hopening : c.Opening)
    (hopen : c.closeCause (.doSend len nwrote soError) = false) (h : c.doSend len nwrote soError = .ok c') :
    c'.Opening := by
  rw [doSend, handleError] at h
  split_ifs at h with hwrote hfull herror
  · cases h
    exact hopening.congr rfl rfl
  · cases h
    exact hopening
  · have hneg : nwrote < 0 := by omega
    simp [closeCause, hneg, herror] at hopen
  · cases h
    exact hopening

theorem opening_doRecv {n soError : Int} (hopening : c.Opening) (hopen : c.closeCause (.doRecv n soError) = false)
    (h : c.doRecv n soError = .ok c') : c'.Opening := by
  rw [doRecv, handleError] at h
  split_ifs at h with hzero hneg herror
  · simp [closeCause, hzero] at hopen
  · simp [closeCause, hneg, herror] at hopen
  · cases h
    exact hopening
  · cases h
    exact hopening

theorem opening_kcpReceived {ok : Bool} {n : Int} {buf : List UInt8} (hopening : c.Opening)
    (hstack : c.stack = .kcpRecv :: rest) : (c.kcpReceived ok n buf).Opening := by
  rw [kcpReceived]
  split_ifs
  · have htail : c.stack = .kcpRecv :: c.stack.tail := by rw [hstack, List.tail_cons]
    exact hopening.pop htail rfl (by decide)
  · exact hopening
  · exact hopening.push rfl rfl (by decide) (by decide)
  · exact hopening

/-- The first `Update` goes on, with the calls made in it, or returns and is over. -/
theorem opening_step (hopening : c.Opening) (hdestroy : i ≠ .connectDestroyed) (hopen : c.entersClose i = false)
    (hstep : step c i = .ok c') : c'.stack = [] ∨ c'.Opening := by
  have hfirst := hopening.stack
  have hbusy := hopening.loopIdle
  have hcause : c.closeCause i = false := (Bool.or_eq_false_iff.mp hopen).1
  cases step_outcome hstep with
  | established hempty => exact absurd hempty hfirst.ne_nil
  | destroyed => exact absurd rfl hdestroy
  | polled hidle | handling hidle | eventsHandled hidle | timer hidle | functor hidle =>
      rw [hbusy] at hidle
      cases hidle
  | call hturn h => exact Or.inr (opening_runApi hopening h)
  | retrieve hturn h =>
      subst h
      exact Or.inr (hopening.congr rfl rfl)
  | eventReturns hstack h | sendReturns hstack h | userReturns hstack h | removes hstack hremove h =>
      subst h
      exact Or.inr (hopening.pop hstack rfl (by decide))
  | hangsUp hstack h => simp [closeCause, hstack] at hcause
  | @reads rest hstack h =>
      subst h
      have hrest : Opening { c with stack := rest } := hopening.pop hstack rfl (by decide)
      exact Or.inr (hrest.push rfl rfl (by decide) (by decide))
  | callsClose hstack h =>
      rw [hstack] at hfirst
      exact absurd rfl hfirst.ne_closeCallback
  | errorCallback hstack h =>
      rw [handleError, if_neg (by simpa [closeCause] using hcause)] at h
      cases h
      exact Or.inr (hopening.pop hstack rfl (by decide))
  | doSend hturn h => exact Or.inr (opening_doSend hopening hcause h)
  | doRecv hstack h => exact Or.inr (opening_doRecv hopening hcause h)
  | kcpConnection hturn h =>
      rw [onKcpsessConnection, if_pos (by simpa [closeCause] using hcause)] at h
      cases h
      exact Or.inr (hopening.push rfl rfl (by decide) (by decide))
  | received hstack h =>
      subst h
      exact Or.inr (opening_kcpReceived hopening hstack)
  | updateReturns hstack h =>
      rw [hstack] at hfirst
      rw [kcpUpdated, if_neg (by simpa [closeCause] using hcause)] at h
      cases h
      exact Or.inl hfirst.bottom

end Realtinet.UdpConnection
