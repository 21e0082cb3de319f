import Realtinet.UdpConnectionCallbacks

/-! The chain of updates. `connectEstablished` calls `KcpSessionUpdate`, which calls `Update` and arms the
timer for the next call of itself, and so on until `Update` returns a negative number. Nothing else takes the
chain down: neither `handleClose` nor `connectDestroyed` cancels the timer, and `KcpSessionUpdate` does not look
at `state_`. -/

namespace Realtinet.UdpConnection

open TransitionSystem

variable {c c' : UdpConnection} {i : Input}

/-- A call of `Update`, or the arming of the timer for the next one. -/
def Event.isUpdate : Event → Bool
  | .kcpUpdate => true
  | .runAt _ => true
  | _ => false

/-- The calls of `Update` in progress. -/
def updating (c : UdpConnection) : Nat := c.stack.count .kcpUpdate

def updates (c : UdpConnection) : List Event := c.trace.filter Event.isUpdate

/-- `c'` differs from `c` by nothing that concerns the chain. -/
structure SameChain (c c' : UdpConnection) : Prop where
  timers : c'.timers = c.timers
  current : c'.curKcpsessUpTimerId = c.curKcpsessUpTimerId
  next : c'.nextTimer = c.nextTimer
  updating : c'.updating = c.updating
  updates : c'.updates = c.updates

/-- What an input does to the chain. -/
inductive ChainEffect (c c' : UdpConnection) (i : Input) : Prop
  | same (hchain : SameChain c c')
      (hinput : i ≠ .connectEstablished ∧ (∀ id, i ≠ .timer id) ∧ ∀ n, i ≠ .updateReturns n)
  | started (hinput : i = .connectEstablished) (htimers : c'.timers = c.timers)
      (hcurrent : c'.curKcpsessUpTimerId = c.curKcpsessUpTimerId) (hnext : c'.nextTimer = c.nextTimer)
      (hupdating : c'.updating = c.updating + 1) (htrace : c'.trace = .kcpUpdate :: c.trace)
  | fired (id : Nat) (hinput : i = .timer id) (hmem : id ∈ c.timers) (htimers : c'.timers = c.timers.erase id)
      (hcurrent : c'.curKcpsessUpTimerId = c.curKcpsessUpTimerId) (hnext : c'.nextTimer = c.nextTimer)
      (hupdating : c'.updating = c.updating + 1) (htrace : c'.trace = .kcpUpdate :: c.trace)
  | armed (n : Int) (hinput : i = .updateReturns n) (hn : ¬n < 0) (htimers : c'.timers = c.timers ++ [c.nextTimer])
      (hcurrent : c'.curKcpsessUpTimerId = some c.nextTimer) (hnext : c'.nextTimer = c.nextTimer + 1)
      (hupdating : c.updating = c'.updating + 1) (htrace : c'.trace = .runAt c.nextTimer :: c.trace)
  | ended (n : Int) (hinput : i = .updateReturns n) (hn : n < 0) (htimers : c'.timers = c.timers)
      (hcurrent : c'.curKcpsessUpTimerId = c.curKcpsessUpTimerId) (hnext : c'.nextTimer = c.nextTimer)
      (hupdating : c.updating = c'.updating + 1) (hupdates : c'.updates = c.updates)

theorem SameChain.refl (c : UdpConnection) : SameChain c c := ⟨rfl, rfl, rfl, rfl, rfl⟩

theorem SameChain.trans {b : UdpConnection} (h : SameChain c b) (h' : SameChain b c') : SameChain c c' :=
  ⟨h'.timers.trans h.timers, h'.current.trans h.current, h'.next.trans h.next, h'.updating.trans h.updating,
    h'.updates.trans h.updates⟩

theorem sameChain_handleClose (h : c.handleClose = .ok c') : SameChain c c' := by
  obtain ⟨channel, -, rfl⟩ := handleClose_eq_ok h
  exact ⟨rfl, rfl, rfl, by simp [updating, callConnectionCallback],
    by simp [updates, callConnectionCallback, Event.isUpdate]⟩

theorem sameChain_handleError {soError : Int} (h : c.handleError soError = .ok c') : SameChain c c' := by
  rw [handleError] at h
  split_ifs at h
  · exact sameChain_handleClose h
  · cases h
    exact SameChain.refl c

theorem sameChain_connectDestroyed (h : c.connectDestroyed = .ok c') : SameChain c c' := by
  rcases connectDestroyed_eq_ok h with ⟨-, rfl⟩ | ⟨-, channel, -, rfl⟩
  · exact ⟨rfl, rfl, rfl, by simp [updating], rfl⟩
  · exact ⟨rfl, rfl, rfl, by simp [updating, callConnectionCallback],
      by simp [updates, callConnectionCallback, Event.isUpdate]⟩

theorem sameChain_handleEvent (revents : Revents) (c : UdpConnection) : SameChain c (c.handleEvent revents) := by
  refine ⟨rfl, rfl, rfl, ?_, rfl⟩
  simp only [updating, handleEvent, handleEventWithGuard, List.count_append]
  split_ifs <;> simp

theorem sameChain_startReadInLoop (h : c.startReadInLoop = .ok c') : SameChain c c' := by
  rcases startReadInLoop_eq_ok h with ⟨rfl, -⟩ | ⟨-, channel, -, rfl⟩ <;> exact ⟨rfl, rfl, rfl, rfl, rfl⟩

theorem sameChain_stopReadInLoop (h : c.stopReadInLoop = .ok c') : SameChain c c' := by
  rcases stopReadInLoop_eq_ok h with ⟨rfl, -⟩ | ⟨-, channel, -, rfl⟩ <;> exact ⟨rfl, rfl, rfl, rfl, rfl⟩

theorem sameChain_sendInLoop (caller : Thread) (message : List UInt8) (mode : TransmitModeE) (c : UdpConnection) :
    SameChain c (c.sendInLoop caller message mode) := by
  unfold sendInLoop
  split_ifs
  · exact SameChain.refl c
  · exact ⟨rfl, rfl, rfl, by simp [updating, kcpSend], by simp [updates, kcpSend, Event.isUpdate]⟩

theorem sameChain_runApi {caller : Thread} {api : Api} (h : c.runApi caller api = .ok c') : SameChain c c' := by
  cases api with
  | send message mode =>
      cases h
      rw [send]
      split_ifs
      · exact sameChain_sendInLoop caller message mode c
      · exact ⟨rfl, rfl, rfl, rfl, rfl⟩
      · exact SameChain.refl c
  | shutdown =>
      cases h
      rw [shutdown]
      split_ifs <;> exact ⟨rfl, rfl, rfl, rfl, rfl⟩
  | forceClose =>
      cases h
      rw [forceClose]
      split_ifs <;> exact ⟨rfl, rfl, rfl, rfl, rfl⟩
  | startRead =>
      simp only [runApi, startRead] at h
      split_ifs at h
      · exact sameChain_startReadInLoop h
      · cases h
        exact ⟨rfl, rfl, rfl, rfl, rfl⟩
  | stopRead =>
      simp only [runApi, stopRead] at h
      split_ifs at h
      · exact sameChain_stopReadInLoop h
      · cases h
        exact ⟨rfl, rfl, rfl, rfl, rfl⟩

theorem sameChain_runFunctor {functor : Functor} (h : c.runFunctor functor = .ok c') : SameChain c c' := by
  cases functor with
  | sendInLoop caller message mode =>
      cases h
      exact sameChain_sendInLoop caller message mode c
  | startReadInLoop => exact sameChain_startReadInLoop h
  | stopReadInLoop => exact sameChain_stopReadInLoop h
  | forceCloseInLoop =>
      simp only [runFunctor, forceCloseInLoop] at h
      split_ifs at h
      · exact sameChain_handleClose h
      · cases h
        exact SameChain.refl c
  | writeCompleteCallback =>
      cases h
      exact ⟨rfl, rfl, rfl, by simp [updating], by simp [updates, Event.isUpdate]⟩

theorem sameChain_doSend {len nwrote soError : Int} (h : c.doSend len nwrote soError = .ok c') : SameChain c c' := by
  rw [doSend] at h
  split_ifs at h
  · cases h
    exact ⟨rfl, rfl, rfl, rfl, rfl⟩
  · cases h
    exact SameChain.refl c
  · exact sameChain_handleError h

theorem sameChain_doRecv {n soError : Int} (h : c.doRecv n soError = .ok c') : SameChain c c' := by
  rw [doRecv] at h
  split_ifs at h
  · exact sameChain_handleClose h
  · exact sameChain_handleError h
  · cases h
    exact SameChain.refl c

theorem sameChain_onKcpsessConnection {isConnected : Bool} (h : c.onKcpsessConnection isConnected = .ok c') :
    SameChain c c' := by
  rw [onKcpsessConnection] at h
  split_ifs at h
  · cases h
    exact ⟨rfl, rfl, rfl, by simp [updating, callConnectionCallback],
      by simp [updates, callConnectionCallback, Event.isUpdate]⟩
  · exact sameChain_handleClose h

/-- A frame that is not an `Update` leaves the stack. -/
theorem sameChain_pop {f : Frame} {rest : List Frame} (hstack : c.stack = f :: rest) (hf : f ≠ .kcpUpdate) :
    SameChain c { c with stack := rest } :=
  ⟨rfl, rfl, rfl, by simp [updating, hstack, List.count_cons_of_ne hf], rfl⟩

theorem sameChain_kcpReceived (ok : Bool) (n : Int) (buf : List UInt8) {rest : List Frame}
    (hstack : c.stack = .kcpRecv :: rest) : SameChain c (c.kcpReceived ok n buf) := by
  unfold kcpReceived
  split_ifs
  · exact ⟨rfl, rfl, rfl, by simp [updating, hstack], rfl⟩
  · exact SameChain.refl c
  · exact ⟨rfl, rfl, rfl, by simp [updating], by simp [updates, Event.isUpdate]⟩
  · exact SameChain.refl c

/-- An `Update` returns. -/
theorem chain_kcpUpdated {n : Int} {rest : List Frame} (hstack : c.stack = .kcpUpdate :: rest)
    (h : kcpUpdated n { c with stack := rest } = .ok c') : ChainEffect c c' (.updateReturns n) := by
  rw [kcpUpdated] at h
  split_ifs at h with hn
  · have hclose := sameChain_handleClose h
    refine .ended n rfl hn hclose.timers hclose.current hclose.next ?_ hclose.updates
    rw [hclose.updating]
    simp [updating, hstack]
  · cases h
    exact .armed n rfl hn rfl rfl rfl (by simp [updating, hstack]) rfl

/-- **Every accepted input does one of these things to the chain.** -/
theorem step_chain (hstep : step c i = .ok c') : ChainEffect c c' i := by
  cases step_outcome hstep with
  | established hempty h =>
      obtain ⟨-, channel, -, rfl⟩ := connectEstablished_eq_ok h
      exact .started rfl rfl rfl rfl (by simp [updating, kcpSessionUpdate]) rfl
  | timer hidle harmed h =>
      subst h
      exact .fired _ rfl harmed rfl rfl rfl (by simp [updating, kcpSessionUpdate]) rfl
  | updateReturns hstack h => exact chain_kcpUpdated hstack h
  | destroyed hturn h => exact .same (sameChain_connectDestroyed h) (by simp)
  | polled hidle hinactive h | eventsHandled hidle hhandled h | retrieve hturn h =>
      subst h
      exact .same ⟨rfl, rfl, rfl, rfl, rfl⟩ (by simp)
  | handling hidle hreported h =>
      subst h
      exact .same (sameChain_handleEvent _ c) (by simp)
  | @functor functor rest hidle hinactive hqueue h =>
      have htaken : SameChain c { c with pendingFunctors := rest } := ⟨rfl, rfl, rfl, rfl, rfl⟩
      exact .same (htaken.trans (sameChain_runFunctor h)) (by simp)
  | call hturn h => exact .same (sameChain_runApi h) (by simp)
  | eventReturns hstack h | sendReturns hstack h | userReturns hstack h =>
      subst h
      exact .same (sameChain_pop hstack (by decide)) (by simp)
  | hangsUp hstack h => exact .same ((sameChain_pop hstack (by decide)).trans (sameChain_handleClose h)) (by simp)
  | reads hstack h =>
      subst h
      exact .same ⟨rfl, rfl, rfl, by simp [updating, handleRead, hstack], rfl⟩ (by simp)
  | callsClose hstack h =>
      subst h
      exact .same ⟨rfl, rfl, rfl, by simp [updating, hstack], by simp [updates, Event.isUpdate]⟩ (by simp)
  | removes hstack hremove h =>
      subst h
      exact .same ⟨rfl, rfl, rfl, by simp [updating, hstack], rfl⟩ (by simp)
  | errorCallback hstack h =>
      exact .same ((sameChain_pop hstack (by decide)).trans (sameChain_handleError h)) (by simp)
  | doSend hturn h => exact .same (sameChain_doSend h) (by simp)
  | doRecv hstack h => exact .same (sameChain_doRecv h) (by simp)
  | kcpConnection hturn h => exact .same (sameChain_onKcpsessConnection h) (by simp)
  | received hstack h =>
      subst h
      exact .same (sameChain_kcpReceived _ _ _ hstack) (by simp)

/-! ### One chain -/

/-- Before `connectEstablished` there is no update, and while the connection is up exactly one is in progress or
armed, the armed one under the id that the connection remembers. -/
structure OneChain (c : UdpConnection) : Prop where
  waits : c.WaitsForOwner
  none : c.state = .kConnecting → c.updating + c.timers.length = 0
  one : c.state ≠ .kConnecting → c.state ≠ .kDisconnected → c.updating + c.timers.length = 1
  atMostOne : c.updating + c.timers.length ≤ 1
  current : ∀ id ∈ c.timers, c.curKcpsessUpTimerId = some id

theorem oneChain_new (writeComplete : Bool) : (new writeComplete).OneChain :=
  ⟨fun _ => rfl, fun _ => rfl, fun hstate => absurd rfl hstate, by simp [new, updating], by simp [new]⟩

/-- The number of updates is kept by an input that neither starts nor ends the chain. -/
theorem OneChain.keep (hinv : c.OneChain) (h : step c i = .ok c') (hi : i ≠ .connectEstablished)
    (hcount : c'.updating + c'.timers.length = c.updating + c.timers.length)
    (hcurrent : ∀ id ∈ c'.timers, c'.curKcpsessUpTimerId = some id) : c'.OneChain := by
  have hiff := (step_connecting_iff hinv.waits hi h).1
  refine ⟨waitsForOwner_step hinv.waits h, ?_, ?_, by rw [hcount]; exact hinv.atMostOne, hcurrent⟩
  · intro hstate
    rw [hcount]
    exact hinv.none (hiff.mp hstate)
  · intro hstarted hup
    rw [hcount]
    exact hinv.one (fun hstate => hstarted (hiff.mpr hstate)) fun hdown => hup (step_disconnected h hdown)

theorem oneChain_step (hinv : c.OneChain) (h : step c i = .ok c') : c'.OneChain := by
  have hle := hinv.atMostOne
  cases step_chain h with
  | same hchain hinput =>
      apply hinv.keep h hinput.1 (by rw [hchain.updating, hchain.timers])
      rw [hchain.timers, hchain.current]
      exact hinv.current
  | started hinput htimers hcurrent hnext hupdating =>
      subst hinput
      obtain ⟨hbefore, hafter⟩ := connecting_of_connectEstablished h
      have hzero := hinv.none hbefore
      refine ⟨waitsForOwner_step hinv.waits h, ?_, ?_, by rw [hupdating, htimers]; omega, ?_⟩
      · intro hstate
        rw [hafter] at hstate
        exact absurd hstate (by decide)
      · intro _ _
        rw [hupdating, htimers]
        omega
      · rw [htimers, hcurrent]
        exact hinv.current
  | fired id hinput hmem htimers hcurrent hnext hupdating =>
      have hlen : c'.timers.length = c.timers.length - 1 := by rw [htimers, List.length_erase_of_mem hmem]
      have hpos := List.length_pos_of_mem hmem
      apply hinv.keep h (by simp [hinput]) (by omega)
      intro id' hid'
      rw [htimers] at hid'
      rw [hcurrent]
      exact hinv.current id' (List.mem_of_mem_erase hid')
  | armed n hinput hn htimers hcurrent hnext hupdating =>
      have hempty : c.timers = [] := List.length_eq_zero_iff.mp (by omega)
      apply hinv.keep h (by simp [hinput]) (by simp [htimers]; omega)
      intro id hid
      rw [htimers, hempty, List.nil_append, List.mem_singleton] at hid
      rw [hcurrent, hid]
  | ended n hinput hn htimers hcurrent hnext hupdating =>
      subst hinput
      have hdown := (step_of_entersClose h (by simp [entersClose, closeCause, hn])).1
      refine ⟨waitsForOwner_step hinv.waits h, ?_, fun _ hup => absurd hdown hup, by rw [htimers]; omega, ?_⟩
      · intro hstate
        rw [hdown] at hstate
        exact absurd hstate (by decide)
      · rw [htimers, hcurrent]
        exact hinv.current

/-! ### Silence after the close -/

/-- `Update` was called or its timer armed after the connection went down (the trace has the newest call
first). -/
def UpdateAfterDown (trace : List Event) : Prop :=
  ∃ later earlier, trace = later ++ .connectionCallback .kDisconnected :: earlier ∧ ∃ e ∈ later, e.isUpdate = true

theorem updateAfterDown_cons {e : Event} {trace : List Event} :
    UpdateAfterDown (e :: trace) ↔
      UpdateAfterDown trace ∨ e.isUpdate = true ∧ .connectionCallback .kDisconnected ∈ trace :=
  newer_cons

theorem step_trace (h : step c i = .ok c') : c'.trace = c.trace ∨ ∃ e, c'.trace = e :: c.trace := by
  cases step_effect h with
  | silent hstate htrace => exact Or.inl htrace
  | disconnecting hbefore hstate htrace => exact Or.inl htrace
  | record e hneutral hstate htrace => exact Or.inr ⟨e, htrace⟩
  | established hinput hbefore hstate htrace => exact Or.inr ⟨_, htrace⟩
  | message n buf hinput hn hstate htrace => exact Or.inr ⟨_, htrace⟩
  | close hcause hstarted hstate htrace => exact Or.inr ⟨_, htrace⟩
  | closed hstate htrace => exact Or.inr ⟨_, htrace⟩
  | destroyed hinput hbefore hstate htrace => exact Or.inr ⟨_, htrace⟩

theorem updateAfterDown_of_updates (h : step c i = .ok c') (hupdates : c'.updates = c.updates) :
    UpdateAfterDown c'.trace ↔ UpdateAfterDown c.trace := by
  rcases step_trace h with htrace | ⟨e, htrace⟩
  · rw [htrace]
  · have hnot : e.isUpdate = false := by
      unfold updates at hupdates
      by_contra hupdate
      rw [htrace, List.filter_cons_of_pos (by simpa using hupdate)] at hupdates
      exact absurd (congrArg List.length hupdates) (by simp)
    rw [htrace, updateAfterDown_cons, hnot]
    simp

/-- The only updates after the close are a timer that fires and an `Update` that returns no error. -/
theorem updateAfterDown_step (hinv : c.DownIffTold) (h : step c i = .ok c') :
    UpdateAfterDown c'.trace ↔ UpdateAfterDown c.trace ∨
      c.state = .kDisconnected ∧ ((∃ id, i = .timer id) ∨ ∃ n, i = .updateReturns n ∧ ¬n < 0) := by
  unfold DownIffTold at hinv
  cases step_chain h with
  | same hchain hinput =>
      rw [updateAfterDown_of_updates h hchain.updates]
      refine ⟨Or.inl, fun hor => hor.resolve_right ?_⟩
      rintro ⟨-, ⟨id, hid⟩ | ⟨n, hn, -⟩⟩
      · exact hinput.2.1 id hid
      · exact hinput.2.2 n hn
  | started hinput htimers hcurrent hnext hupdating htrace =>
      subst hinput
      rw [htrace, updateAfterDown_cons, ← hinv, (connecting_of_connectEstablished h).1]
      simp
  | fired id hinput hmem htimers hcurrent hnext hupdating htrace =>
      rw [htrace, updateAfterDown_cons, ← hinv, hinput]
      simp [Event.isUpdate]
  | armed n hinput hn htimers hcurrent hnext hupdating htrace =>
      rw [htrace, updateAfterDown_cons, ← hinv, hinput]
      have hnonneg : 0 ≤ n := by omega
      simp [Event.isUpdate, hnonneg]
  | ended n hinput hn htimers hcurrent hnext hupdating hupdates =>
      rw [updateAfterDown_of_updates h hupdates, hinput]
      have hneg : ¬0 ≤ n := by omega
      simp [hneg]

/-- The input takes a connection that is up to `kDisconnected`. -/
def goesDown (c : UdpConnection) (i : Input) : Bool :=
  c.state != .kDisconnected && (c.entersClose i || i == .connectDestroyed && c.state == .kConnected)

/-- `Update` returns a time. -/
def updateSucceeds : Input → Bool
  | .updateReturns n => decide (¬n < 0)
  | _ => false

/-- The connection goes down only while `Update` is running (its own negative result included), and an `Update` that
returns to a connection that is down returns a negative number. -/
def DownWithinUpdate (c : UdpConnection) (i : Input) : Prop :=
  (c.goesDown i = true → 0 < c.updating) ∧ (c.state = .kDisconnected → updateSucceeds i = false)

instance downWithinUpdateDecidable (c : UdpConnection) (i : Input) : Decidable (c.DownWithinUpdate i) :=
  inferInstanceAs (Decidable (_ ∧ _))

theorem goesDown_iff (h : step c i = .ok c') : c.goesDown i = true ↔ c.state ≠ .kDisconnected ∧ c'.state = .kDisconnected := by
  by_cases hup : c.state = .kDisconnected
  · simp [goesDown, hup]
  · rw [step_down_iff h hup]
    simp [goesDown, hup]

/-- Nothing is updated after the close, and no timer is left for it. -/
def Silent (c : UdpConnection) : Prop :=
  ¬UpdateAfterDown c.trace ∧ (c.state = .kDisconnected → c.timers = [])

/-- What the chain and the callbacks made so far say about a reachable connection. -/
def ChainInv (c : UdpConnection) : Prop := c.OneChain ∧ c.DownIffTold

theorem chainInv_step (hinv : c.ChainInv) (h : step c i = .ok c') : c'.ChainInv :=
  ⟨oneChain_step hinv.1 h, downIffTold_step hinv.2 h⟩

/-- A close while the connection is up leaves a timer unless `Update` is running. -/
theorem silent_iff_of_up (hinv : c.ChainInv) (hup : c.state ≠ .kDisconnected) (hsilent : c.Silent)
    (h : step c i = .ok c') : c'.Silent ↔ c.DownWithinUpdate i := by
  have hupdates : ¬UpdateAfterDown c'.trace := by
    rw [updateAfterDown_step hinv.2 h]
    rintro (hbefore | ⟨hdown, -⟩)
    · exact hsilent.1 hbefore
    · exact hup hdown
  have hgoes := goesDown_iff h
  by_cases hdown : c'.state = .kDisconnected
  · have hpos : c.goesDown i = true := hgoes.mpr ⟨hup, hdown⟩
    have hstarted : c.state ≠ .kConnecting := by
      intro hstate
      by_cases hi : i = .connectEstablished
      · rw [hi] at h
        rw [(connecting_of_connectEstablished h).2] at hdown
        exact absurd hdown (by decide)
      · have hsame := (step_waiting hstate (hinv.1.waits hstate) hi h).1
        rw [hdown] at hsame
        exact absurd hsame (by decide)
    have hone := hinv.1.one hstarted hup
    have htimers : c'.timers = [] ↔ 0 < c.updating := by
      cases step_chain h with
      | same hchain hinput =>
          rw [hchain.timers, ← List.length_eq_zero_iff]
          omega
      | started hinput =>
          subst hinput
          rw [(connecting_of_connectEstablished h).2] at hdown
          exact absurd hdown (by decide)
      | fired id hinput =>
          subst hinput
          simp [goesDown, entersClose, closeCause, forceClosing] at hpos
      | armed n hinput hn =>
          subst hinput
          simp [goesDown, entersClose, closeCause, forceClosing, hn] at hpos
      | ended n hinput hn htimers hcurrent hnext hupdating =>
          rw [htimers, ← List.length_eq_zero_iff]
          omega
    constructor
    · rintro ⟨-, hnone⟩
      exact ⟨fun _ => htimers.mp (hnone hdown), fun hdown' => absurd hdown' hup⟩
    · rintro ⟨hwithin, -⟩
      exact ⟨hupdates, fun _ => htimers.mpr (hwithin hpos)⟩
  · have hneg : ¬c.goesDown i = true := fun hpos => hdown (hgoes.mp hpos).2
    exact iff_of_true ⟨hupdates, fun hdown' => absurd hdown' hdown⟩
      ⟨fun hpos => absurd hpos hneg, fun hdown' => absurd hdown' hup⟩

theorem silent_iff_of_down (hinv : c.ChainInv) (hdown : c.state = .kDisconnected) (hsilent : c.Silent)
    (h : step c i = .ok c') : c'.Silent ↔ c.DownWithinUpdate i := by
  have hempty := hsilent.2 hdown
  have hneg : ¬c.goesDown i = true := fun hpos => ((goesDown_iff h).mp hpos).1 hdown
  have hupdates : UpdateAfterDown c'.trace ↔ updateSucceeds i = true := by
    rw [updateAfterDown_step hinv.2 h]
    constructor
    · rintro (hbefore | ⟨-, ⟨id, rfl⟩ | ⟨n, rfl, hn⟩⟩)
      · exact absurd hbefore hsilent.1
      · simp only [step, hempty] at h
        simp at h
      · simpa [updateSucceeds] using hn
    · intro hsucceeds
      refine Or.inr ⟨hdown, Or.inr ?_⟩
      cases i <;> simp [updateSucceeds] at hsucceeds
      exact ⟨_, rfl, by omega⟩
  have htimers : updateSucceeds i = false → c'.timers = [] := by
    intro hfails
    cases step_chain h with
    | same hchain => rw [hchain.timers, hempty]
    | started hinput htimers => rw [htimers, hempty]
    | fired id hinput hmem htimers => rw [htimers, hempty, List.erase_nil]
    | armed n hinput hn => simp [hinput, updateSucceeds] at hfails; omega
    | ended n hinput hn htimers => rw [htimers, hempty]
  unfold Silent DownWithinUpdate
  rw [hupdates]
  constructor
  · rintro ⟨hnot, -⟩
    exact ⟨fun hpos => absurd hpos hneg, fun _ => by simpa using hnot⟩
  · rintro ⟨-, hfails⟩
    have hfails := hfails hdown
    exact ⟨by simp [hfails], fun _ => htimers hfails⟩

theorem not_silent_step (hinv : c.ChainInv) (hbad : ¬c.Silent) (h : step c i = .ok c') : ¬c'.Silent := by
  rintro ⟨hupdates, htimers⟩
  rw [updateAfterDown_step hinv.2 h] at hupdates
  obtain ⟨hbefore, hnow⟩ := not_or.mp hupdates
  refine hbad ⟨hbefore, fun hdown => ?_⟩
  have hempty := htimers (step_disconnected h hdown)
  cases step_chain h with
  | same hchain => rw [← hchain.timers, hempty]
  | started hinput htimers => rw [← htimers, hempty]
  | fired id hinput => exact absurd ⟨hdown, Or.inl ⟨id, hinput⟩⟩ hnow
  | armed n hinput hn => exact absurd ⟨hdown, Or.inr ⟨n, hinput, hn⟩⟩ hnow
  | ended n hinput hn htimers => rw [← htimers, hempty]

/-- **When a closed connection is silent.** In every run in which the connection goes down only while `Update` is
running, and in which `Update` returns a negative number to a connection that is down, `Update` is not called
and no timer is armed after the close. Conversely, a run after which nothing has been updated since the close,
and no timer is left that would, is of this kind. -/
theorem closed_connection_silent (writeComplete : Bool) (inputs : List Input) (c : UdpConnection)
    (hrun : Run writeComplete inputs c) :
    (Along step DownWithinUpdate (new writeComplete) inputs → ¬UpdateAfterDown c.trace) ∧
      (¬UpdateAfterDown c.trace → (c.state = .kDisconnected → c.timers = []) →
        Along step DownWithinUpdate (new writeComplete) inputs) := by
  have hnew : (new writeComplete).ChainInv := ⟨oneChain_new writeComplete, by simp [DownIffTold, new]⟩
  have hgood : (new writeComplete).Silent := by
    refine ⟨?_, fun hdown => absurd hdown (by simp [new])⟩
    rintro ⟨later, earlier, htrace, -⟩
    simp [new] at htrace
  have hiff : c.Silent ↔ Along step DownWithinUpdate (new writeComplete) inputs := by
    refine good_iff_along ChainInv Silent (fun _ _ _ h1 _ h2 => chainInv_step h1 h2) ?_
      (fun _ _ _ h1 h2 h3 => not_silent_step h1 h2 h3) hnew hgood (along_of_forall (fun _ _ => trivial) _ _) hrun
    intro s j s' hinv _ hsilent hstep
    by_cases hdown : s.state = .kDisconnected
    · exact silent_iff_of_down hinv hdown hsilent hstep
    · exact silent_iff_of_up hinv hdown hsilent hstep
  exact ⟨fun halong => (hiff.mpr halong).1, fun hupdates htimers => hiff.mp ⟨hupdates, htimers⟩⟩

/-- The session fails in `Update`, and the chain ends with the connection. -/
def updateFails : List Input :=
  [.connectEstablished, .updateReturns 10, .timer 0, .updateReturns (-1), .userReturns, .proceed, .userReturns]

theorem closed_connection_silent_updateFails :
    ∃ c, Run false updateFails c ∧ c.state = .kDisconnected ∧ ¬UpdateAfterDown c.trace :=
  ⟨_, rfl, rfl, (closed_connection_silent false updateFails _ rfl).1 (by decide)⟩

/-- User code closes the connection, and the timer armed before fires. -/
def closeThenTimer : List Input :=
  [.connectEstablished, .updateReturns 10, .call (.other 1) .forceClose, .functor, .userReturns, .proceed, .userReturns,
    .timer 0, .updateReturns 10]

theorem update_after_close :
    ¬∀ (writeComplete : Bool) (inputs : List Input) (c : UdpConnection), Run writeComplete inputs c →
      ¬UpdateAfterDown c.trace := by
  intro h
  exact h false closeThenTimer _ rfl
    ⟨[.runAt 1, .kcpUpdate, .closeCallback], [.runAt 0, .kcpUpdate], by decide, .kcpUpdate, by decide, rfl⟩

end Realtinet.UdpConnection
