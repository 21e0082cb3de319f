import Realtinet.UdpConnectionEffect

/-! What one input does to the channel of a connection, to the removals of the channel still owed, and why an input is
refused. The laws about the teardown of a connection are read off these lists. -/

namespace Realtinet.UdpConnection

open TransitionSystem

variable {c c' : UdpConnection} {i : Input}

/-- The calls of `channel_->remove()` that `connectDestroyed` still owes. -/
def removesOwed (c : UdpConnection) : Nat := c.stack.count .channelRemove

/-- The input makes the connection call `channel_->remove()`. -/
def removesChannel (c : UdpConnection) (i : Input) : Bool :=
  i == .proceed && c.stack.head? == some .channelRemove

/-- The input runs `startReadInLoop`, and it has something to do. -/
def startsReading (c : UdpConnection) (i : Input) : Bool :=
  (i == .call .loop .startRead || (i == .functor && c.pendingFunctors.head? == some .startReadInLoop)) &&
    (!c.reading || !c.channel.isReading)

/-- The input runs `stopReadInLoop`, and it has something to do. -/
def stopsReading (c : UdpConnection) (i : Input) : Bool :=
  (i == .call .loop .stopRead || (i == .functor && c.pendingFunctors.head? == some .stopReadInLoop)) &&
    (c.reading || c.channel.isReading)

/-- The input takes the interest of the channel away: `handleClose`, or `connectDestroyed` of a connection that is up. -/
def clearsInterest (c : UdpConnection) (i : Input) : Bool :=
  c.entersClose i || (i == .connectDestroyed && c.state == .kConnected)

/-- The input updates the channel in its poller. -/
def updatesChannel (c : UdpConnection) (i : Input) : Bool :=
  c.startsReading i || c.stopsReading i || c.clearsInterest i

/-- What becomes of the channel. -/
def channelAfter (c : UdpConnection) (i : Input) : Except Halt Channel :=
  if i = .connectEstablished ∨ c.startsReading i = true then c.channel.enableReading
  else if c.stopsReading i then c.channel.disableReading
  else if c.clearsInterest i then c.channel.disableAll
  else if c.removesChannel i then c.channel.remove c.activeAside
  else .ok c.channel

/-- The five things that may become of it. -/
inductive ChannelEffect (c : UdpConnection) (i : Input) (channel : Channel) : Prop
  | enabled (hinput : i = .connectEstablished ∨ c.startsReading i = true) (h : c.channel.enableReading = .ok channel)
  | disabled (hinput : c.stopsReading i = true) (h : c.channel.disableReading = .ok channel)
  | cleared (hinput : c.clearsInterest i = true) (h : c.channel.disableAll = .ok channel)
  | removed (hinput : c.removesChannel i = true) (h : c.channel.remove c.activeAside = .ok channel)
  | same (hinput : i ≠ .connectEstablished ∧ c.updatesChannel i = false) (h : channel = c.channel)

/-- An input leaves the channel, and the removals owed, as it should, or stops at the channel or in `connectEstablished`;
or it cannot occur. -/
inductive LoopResult (c : UdpConnection) (i : Input) : Except Halt UdpConnection → Prop
  | done {c' : UdpConnection} (hchannel : c.channelAfter i = .ok c'.channel)
      (hremoves : c'.removesOwed + (c.removesChannel i).toNat = c.removesOwed + (decide (i = .connectDestroyed)).toNat) :
      LoopResult c i (.ok c')
  | stopped {e : Halt} (hchannel : c.channelAfter i = .error e) : LoopResult c i (.error e)
  | notConnecting (hi : i = .connectEstablished) : LoopResult c i (.error (.assertFailed .connectionConnecting))
  | notEnabled : LoopResult c i (.error .notEnabled)

/-! ### Which input does what to the channel -/

theorem startsReading_iff : c.startsReading i = true ↔
    (i = .call .loop .startRead ∨ i = .functor ∧ c.pendingFunctors.head? = some .startReadInLoop) ∧
      (!c.reading || !c.channel.isReading) = true := by
  simp [startsReading]

theorem stopsReading_iff : c.stopsReading i = true ↔
    (i = .call .loop .stopRead ∨ i = .functor ∧ c.pendingFunctors.head? = some .stopReadInLoop) ∧
      (c.reading || c.channel.isReading) = true := by
  simp [stopsReading]

theorem removesChannel_iff : c.removesChannel i = true ↔ i = .proceed ∧ ∃ rest, c.stack = .channelRemove :: rest := by
  simp only [removesChannel, Bool.and_eq_true, beq_iff_eq, List.head?_eq_some_iff]

/-- The inputs that close a connection do not also start or stop reading. -/
theorem clearsInterest_cases (h : c.clearsInterest i = true) :
    i ≠ .connectEstablished ∧ c.startsReading i = false ∧ c.stopsReading i = false := by
  cases i with
  | functor =>
      have hforce : c.pendingFunctors.head? = some .forceCloseInLoop := by
        simp only [clearsInterest, entersClose, closeCause, forceClosing] at h
        simp_all
      simp [startsReading, stopsReading, hforce]
  | call caller api => simp [clearsInterest, entersClose, closeCause, forceClosing] at h
  | connectEstablished => simp [clearsInterest, entersClose, closeCause, forceClosing] at h
  | _ => exact ⟨by simp, rfl, rfl⟩

theorem channelAfter_of_startsReading (h : c.startsReading i = true) : c.channelAfter i = c.channel.enableReading := by
  rw [channelAfter, if_pos (Or.inr h)]

theorem channelAfter_of_stopsReading (h : c.stopsReading i = true) : c.channelAfter i = c.channel.disableReading := by
  have hnot : ¬(i = .connectEstablished ∨ c.startsReading i = true) := by
    rw [startsReading_iff]
    rcases (stopsReading_iff.mp h).1 with rfl | ⟨rfl, hhead⟩
    · simp
    · simp [hhead]
  rw [channelAfter, if_neg hnot, if_pos h]

theorem channelAfter_of_clearsInterest (h : c.clearsInterest i = true) : c.channelAfter i = c.channel.disableAll := by
  obtain ⟨hestablish, hstarts, hstops⟩ := clearsInterest_cases h
  rw [channelAfter, hstops, hstarts]
  simp [hestablish, h]

theorem channelAfter_of_removesChannel (h : c.removesChannel i = true) :
    c.channelAfter i = c.channel.remove c.activeAside := by
  obtain ⟨rfl, rest, hstack⟩ := removesChannel_iff.mp h
  have hclears : c.clearsInterest .proceed = false := by
    simp [clearsInterest, entersClose, closeCause, forceClosing, hstack]
  rw [channelAfter, h, hclears]
  rfl

theorem channelAfter_of_quiet (hi : i ≠ .connectEstablished) (hupdates : c.updatesChannel i = false)
    (hremoves : c.removesChannel i = false) : c.channelAfter i = .ok c.channel := by
  simp only [updatesChannel, Bool.or_eq_false_iff] at hupdates
  rw [channelAfter, hupdates.1.1, hupdates.1.2, hupdates.2, hremoves]
  simp [hi]

/-- Whatever updates the channel is one call of `Channel::update`. -/
theorem channelAfter_of_updatesChannel (h : i = .connectEstablished ∨ c.updatesChannel i = true) :
    ∃ d : Channel, d.index = c.channel.index ∧ c.channelAfter i = d.update := by
  rcases h with rfl | h
  · exact ⟨{ c.channel with readEvent := true }, rfl, rfl⟩
  · simp only [updatesChannel, Bool.or_eq_true] at h
    rcases h with (hstarts | hstops) | hclears
    · exact ⟨{ c.channel with readEvent := true }, rfl, channelAfter_of_startsReading hstarts⟩
    · exact ⟨{ c.channel with readEvent := false }, rfl, channelAfter_of_stopsReading hstops⟩
    · exact ⟨{ c.channel with readEvent := false, writeEvent := false }, rfl, channelAfter_of_clearsInterest hclears⟩

theorem clearsInterest_of_entersClose (h : c.entersClose i = true) : c.clearsInterest i = true := by
  rw [clearsInterest, h, Bool.true_or]

/-- The input has nothing to do with the channel. -/
def Aside (c : UdpConnection) (i : Input) : Prop :=
  c.channelAfter i = .ok c.channel ∧ c.removesChannel i = false ∧ i ≠ .connectDestroyed

theorem aside_of_quiet (hi : i ≠ .connectEstablished ∧ i ≠ .connectDestroyed) (hupdates : c.updatesChannel i = false)
    (hremoves : c.removesChannel i = false) : c.Aside i :=
  ⟨channelAfter_of_quiet hi.1 hupdates hremoves, hremoves, hi.2⟩

theorem entersClose_cases (h : c.entersClose i = true) : c.removesChannel i = false ∧ i ≠ .connectDestroyed := by
  cases i with
  | proceed =>
      have hstack : c.stack.head? = some .channelClose := by
        simpa [entersClose, closeCause, forceClosing] using h
      exact ⟨by simp [removesChannel, hstack], by simp⟩
  | connectDestroyed => cases h
  | _ => exact ⟨rfl, by simp⟩

/-! ### What the functions of the connection do to it -/

/-- A function that leaves the channel alone and removes nothing. -/
theorem LoopResult.same (hi : c.Aside i) (hchannel : c'.channel = c.channel) (howed : c'.removesOwed = c.removesOwed) :
    LoopResult c i (.ok c') :=
  .done (by rw [hi.1, hchannel]) (by simp [hi.2, howed])

/-- A frame is left. -/
theorem LoopResult.pop {frame : Frame} {rest : List Frame} (hi : c.Aside i) (hstack : c.stack = frame :: rest)
    (hframe : frame ≠ .channelRemove) (hchannel : c'.channel = c.channel) (hrest : c'.stack = rest) :
    LoopResult c i (.ok c') := by
  refine .same hi hchannel ?_
  rw [removesOwed, removesOwed, hstack, hrest, List.count_cons_of_ne hframe]

/-- An update of the channel, in a function that removes nothing. -/
theorem LoopResult.update {f : Channel → UdpConnection} {x : Except Halt Channel} (hx : c.channelAfter i = x)
    (hi : c.removesChannel i = false ∧ i ≠ .connectDestroyed)
    (hf : ∀ channel, (f channel).channel = channel ∧ (f channel).removesOwed = c.removesOwed) :
    LoopResult c i (do return f (← x)) := by
  cases x with
  | error e => exact .stopped hx
  | ok channel => exact .done (by rw [hx, (hf channel).1]) (by simp [hi, (hf channel).2])

theorem LoopResult.guard {guard : Bool} {x : Except Halt UdpConnection} (h : guard = true → LoopResult c i x) :
    LoopResult c i (if guard then x else .error .notEnabled) := by
  split_ifs with hguard
  · exact h hguard
  · exact .notEnabled

theorem result_handleClose {base : UdpConnection} (henters : c.entersClose i = true)
    (hchannel : base.channel = c.channel)
    (howed : base.removesOwed = c.removesOwed) : LoopResult c i base.handleClose := by
  have hclears : c.clearsInterest i = true := clearsInterest_of_entersClose henters
  refine .update (by rw [channelAfter_of_clearsInterest hclears, hchannel]) (entersClose_cases henters)
    fun channel => ⟨rfl, ?_⟩
  rw [← howed]
  simp [callConnectionCallback, removesOwed]

theorem result_handleError {base : UdpConnection} {soError : Int} (henters : soError ≠ 0 → c.entersClose i = true)
    (haside : soError = 0 → c.Aside i) (hchannel : base.channel = c.channel)
    (howed : base.removesOwed = c.removesOwed) : LoopResult c i (base.handleError soError) := by
  rw [handleError]
  split_ifs with herror
  · exact result_handleClose (henters herror) hchannel howed
  · exact .same (haside (not_not.mp herror)) hchannel howed

theorem result_connectEstablished : LoopResult c .connectEstablished c.connectEstablished := by
  rw [connectEstablished]
  split_ifs
  · exact .update rfl (by simp [removesChannel]) fun channel => ⟨rfl, by simp [kcpSessionUpdate, removesOwed]⟩
  · exact .notConnecting rfl

theorem result_connectDestroyed : LoopResult c .connectDestroyed c.connectDestroyed := by
  rw [connectDestroyed]
  split_ifs with hup
  · have hchannel : c.channelAfter .connectDestroyed = c.channel.disableAll :=
      channelAfter_of_clearsInterest (by simp [clearsInterest, hup])
    cases hdisable : c.channel.disableAll with
    | error e => exact .stopped (hchannel.trans hdisable)
    | ok channel =>
        refine .done (hchannel.trans hdisable) ?_
        simp [removesChannel, removesOwed, callConnectionCallback]
  · have hclears : c.clearsInterest .connectDestroyed = false := by
      simp [clearsInterest, entersClose, closeCause, forceClosing, hup]
    refine .done (channelAfter_of_quiet (by simp) (by simp [updatesChannel, startsReading, stopsReading, hclears]) rfl) ?_
    simp [removesChannel, removesOwed]

theorem result_startReadInLoop {base : UdpConnection}
    (hinput : i = .call .loop .startRead ∨ i = .functor ∧ c.pendingFunctors.head? = some .startReadInLoop)
    (hreading : base.reading = c.reading) (hchannel : base.channel = c.channel)
    (howed : base.removesOwed = c.removesOwed) : LoopResult c i base.startReadInLoop := by
  have hnot : c.removesChannel i = false ∧ i ≠ .connectDestroyed := by
    rcases hinput with rfl | ⟨rfl, -⟩ <;> exact ⟨rfl, by simp⟩
  rw [startReadInLoop, hreading, hchannel]
  split_ifs with hstarts
  · exact .update (channelAfter_of_startsReading (startsReading_iff.mpr ⟨hinput, hstarts⟩)) hnot
      fun channel => ⟨rfl, howed⟩
  · refine .same ⟨?_, hnot⟩ hchannel howed
    have hstops : ¬c.startsReading i = true := fun h => hstarts (startsReading_iff.mp h).2
    rcases hinput with rfl | ⟨rfl, hhead⟩
    · exact channelAfter_of_quiet (by simp) (by simpa [updatesChannel, stopsReading, clearsInterest, entersClose,
        closeCause, forceClosing] using hstops) rfl
    · exact channelAfter_of_quiet (by simp) (by simpa [updatesChannel, stopsReading, clearsInterest, entersClose,
        closeCause, forceClosing, hhead] using hstops) rfl

theorem result_stopReadInLoop {base : UdpConnection}
    (hinput : i = .call .loop .stopRead ∨ i = .functor ∧ c.pendingFunctors.head? = some .stopReadInLoop)
    (hreading : base.reading = c.reading) (hchannel : base.channel = c.channel)
    (howed : base.removesOwed = c.removesOwed) : LoopResult c i base.stopReadInLoop := by
  have hnot : c.removesChannel i = false ∧ i ≠ .connectDestroyed := by
    rcases hinput with rfl | ⟨rfl, -⟩ <;> exact ⟨rfl, by simp⟩
  rw [stopReadInLoop, hreading, hchannel]
  split_ifs with hstops
  · exact .update (channelAfter_of_stopsReading (stopsReading_iff.mpr ⟨hinput, hstops⟩)) hnot
      fun channel => ⟨rfl, howed⟩
  · refine .same ⟨?_, hnot⟩ hchannel howed
    have hstops : ¬c.stopsReading i = true := fun h => hstops (stopsReading_iff.mp h).2
    rcases hinput with rfl | ⟨rfl, hhead⟩
    · exact channelAfter_of_quiet (by simp) (by simpa [updatesChannel, startsReading, clearsInterest, entersClose,
        closeCause, forceClosing] using hstops) rfl
    · exact channelAfter_of_quiet (by simp) (by simpa [updatesChannel, startsReading, clearsInterest, entersClose,
        closeCause, forceClosing, hhead] using hstops) rfl

/-- The public functions that have nothing to do with reading. -/
theorem aside_of_call {caller : Thread} {api : Api} (h : api ≠ .startRead ∧ api ≠ .stopRead) :
    c.Aside (.call caller api) := by
  refine aside_of_quiet (by simp) ?_ rfl
  simp [updatesChannel, startsReading, stopsReading, clearsInterest, entersClose, closeCause, forceClosing, h]

theorem result_runApi {caller : Thread} {api : Api} : LoopResult c (.call caller api) (c.runApi caller api) := by
  cases api with
  | send message mode =>
      have haside : c.Aside (.call caller (.send message mode)) := aside_of_call (by simp)
      simp only [runApi, send, sendInLoop]
      split_ifs
      · exact .same haside rfl rfl
      · exact .same haside rfl (by simp [removesOwed, kcpSend])
      · exact .same haside rfl rfl
      · exact .same haside rfl rfl
  | shutdown =>
      simp only [runApi, shutdown]
      split_ifs <;> exact .same (aside_of_call (by simp)) rfl rfl
  | forceClose =>
      simp only [runApi, forceClose]
      split_ifs <;> exact .same (aside_of_call (by simp)) rfl rfl
  | startRead =>
      cases caller with
      | loop => exact result_startReadInLoop (Or.inl rfl) rfl rfl rfl
      | other id => exact .same (aside_of_quiet (by simp) rfl rfl) rfl rfl
  | stopRead =>
      cases caller with
      | loop => exact result_stopReadInLoop (Or.inl rfl) rfl rfl rfl
      | other id => exact .same (aside_of_quiet (by simp) rfl rfl) rfl rfl

theorem result_runFunctor {functor : Functor} {rest : List Functor} (hqueue : c.pendingFunctors = functor :: rest) :
    LoopResult c .functor (runFunctor functor { c with pendingFunctors := rest }) := by
  have haside : functor ≠ .startReadInLoop ∧ functor ≠ .stopReadInLoop ∧ c.forceClosing .functor = false →
      c.Aside .functor := by
    rintro ⟨hstart, hstop, hforce⟩
    refine aside_of_quiet (by simp) ?_ rfl
    simp [updatesChannel, startsReading, stopsReading, clearsInterest, entersClose, closeCause, hforce, hqueue, hstart,
      hstop]
  cases functor with
  | sendInLoop caller message mode =>
      have hsend := haside (by simp [forceClosing, hqueue])
      simp only [runFunctor, sendInLoop]
      split_ifs
      · exact .same hsend rfl rfl
      · exact .same hsend rfl (by simp [removesOwed, kcpSend])
  | startReadInLoop => exact result_startReadInLoop (Or.inr ⟨rfl, by simp [hqueue]⟩) rfl rfl rfl
  | stopReadInLoop => exact result_stopReadInLoop (Or.inr ⟨rfl, by simp [hqueue]⟩) rfl rfl rfl
  | forceCloseInLoop =>
      simp only [runFunctor, forceCloseInLoop]
      split_ifs with hup
      · exact result_handleClose (by simpa [entersClose, forceClosing, hqueue] using Or.inr hup) rfl rfl
      · exact .same (haside (by simpa [forceClosing, hqueue] using hup)) rfl rfl
  | writeCompleteCallback => exact .same (haside (by simp [forceClosing, hqueue])) rfl (by simp [removesOwed])

theorem result_proceed : LoopResult c .proceed c.proceed := by
  have haside : c.stack.head? ≠ some .channelClose ∧ c.stack.head? ≠ some .channelRemove → c.Aside .proceed := by
    rintro ⟨hclose, hremove⟩
    refine aside_of_quiet (by simp) ?_ (by simp [removesChannel, hremove])
    simp [updatesChannel, startsReading, stopsReading, clearsInterest, entersClose, closeCause, forceClosing, hclose]
  unfold proceed
  split
  · rename_i rest hstack
    exact .pop (haside (by simp [hstack])) hstack (by decide) rfl rfl
  · rename_i rest hstack
    exact result_handleClose (by simp [entersClose, closeCause, hstack]) rfl (by simp [removesOwed, hstack])
  · rename_i rest hstack
    exact .same (haside (by simp [hstack])) rfl (by simp [removesOwed, handleRead, hstack])
  · rename_i rest hstack
    exact .same (haside (by simp [hstack])) rfl (by simp [removesOwed, hstack])
  · rename_i rest hstack
    have hremoves : c.removesChannel .proceed = true := by simp [removesChannel, hstack]
    have hchannel := channelAfter_of_removesChannel hremoves
    cases hremove : c.channel.remove c.activeAside with
    | error e => exact .stopped (hchannel.trans hremove)
    | ok channel =>
        refine .done (hchannel.trans hremove) ?_
        simp [hremoves, removesOwed, hstack]
  · exact .notEnabled

/-- What the poller and the session report without closing the connection. -/
theorem aside_of_report (hi : i ≠ .connectEstablished ∧ i ≠ .connectDestroyed)
    (hloop : c.startsReading i = false ∧ c.stopsReading i = false ∧ c.forceClosing i = false ∧
      c.removesChannel i = false)
    (hclose : c.closeCause i = false) : c.Aside i := by
  refine aside_of_quiet hi ?_ hloop.2.2.2
  simp [updatesChannel, clearsInterest, entersClose, hloop, hclose, hi]

theorem result_doSend {len nwrote soError : Int} :
    LoopResult c (.doSend len nwrote soError) (c.doSend len nwrote soError) := by
  have haside := @aside_of_report c (.doSend len nwrote soError) (by simp) ⟨rfl, rfl, rfl, rfl⟩
  rw [doSend]
  split_ifs with hwrote hfull
  · have hneg : ¬nwrote < 0 := by omega
    exact .same (haside (by simp [closeCause, hneg])) rfl rfl
  · have hneg : ¬nwrote < 0 := by omega
    exact .same (haside (by simp [closeCause, hneg])) rfl rfl
  · have hneg : nwrote < 0 := by omega
    refine result_handleError (fun herror => ?_) (fun herror => haside ?_) rfl rfl
    · simp [entersClose, closeCause, hneg, herror]
    · simp [closeCause, herror]

theorem result_doRecv {n soError : Int} : LoopResult c (.doRecv n soError) (c.doRecv n soError) := by
  have haside := @aside_of_report c (.doRecv n soError) (by simp) ⟨rfl, rfl, rfl, rfl⟩
  rw [doRecv]
  split_ifs with hzero hneg
  · exact result_handleClose (by simp [entersClose, closeCause, hzero]) rfl rfl
  · refine result_handleError (fun herror => ?_) (fun herror => haside ?_) rfl rfl
    · simp [entersClose, closeCause, hneg, herror]
    · simp [closeCause, hzero, herror]
  · exact .same (haside (by simp [closeCause, hzero, hneg])) rfl rfl

theorem result_onKcpsessConnection {isConnected : Bool} :
    LoopResult c (.kcpConnection isConnected) (c.onKcpsessConnection isConnected) := by
  rw [onKcpsessConnection]
  split_ifs with hconnected
  · have haside := aside_of_report (c := c) (i := .kcpConnection isConnected) (by simp) ⟨rfl, rfl, rfl, rfl⟩
      (by simp [closeCause, hconnected])
    exact .same haside rfl (by simp [callConnectionCallback, removesOwed])
  · exact result_handleClose (by simpa [entersClose, closeCause, forceClosing] using hconnected) rfl rfl

theorem result_kcpReceived {ok : Bool} {n : Int} {buf : List UInt8} {rest : List Frame}
    (hstack : c.stack = .kcpRecv :: rest) : LoopResult c (.recvReturns ok n buf) (.ok (c.kcpReceived ok n buf)) := by
  have haside : c.Aside (.recvReturns ok n buf) := aside_of_report (by simp) ⟨rfl, rfl, rfl, rfl⟩ rfl
  rw [kcpReceived]
  split_ifs
  · exact .pop haside hstack (by decide) rfl (by rw [hstack, List.tail_cons])
  · exact .same haside rfl rfl
  · exact .same haside rfl (by simp [removesOwed])
  · exact .same haside rfl rfl

theorem result_kcpUpdated {nextUpdateTimeMs : Int} {rest : List Frame} (hstack : c.stack = .kcpUpdate :: rest) :
    LoopResult c (.updateReturns nextUpdateTimeMs) (kcpUpdated nextUpdateTimeMs { c with stack := rest }) := by
  rw [kcpUpdated]
  split_ifs with hneg
  · exact result_handleClose (by simp [entersClose, closeCause, hneg]) rfl (by simp [removesOwed, hstack])
  · have haside : c.Aside (.updateReturns nextUpdateTimeMs) :=
      aside_of_report (by simp) ⟨rfl, rfl, rfl, rfl⟩ (by simp [closeCause, hneg])
    exact .pop haside hstack (by decide) rfl rfl

/-- **Every input does to the channel what is said here, or is refused for it.** -/
theorem step_result (c : UdpConnection) (i : Input) : LoopResult c i (step c i) := by
  cases i with
  | connectEstablished => exact .guard fun _ => result_connectEstablished
  | connectDestroyed => exact .guard fun _ => result_connectDestroyed
  | poll revents => exact .guard fun _ => .same (aside_of_quiet (by simp) rfl rfl) rfl rfl
  | handleEvent =>
      simp only [step]
      split
      · refine .guard fun _ => .same (aside_of_quiet (by simp) rfl rfl) rfl ?_
        simp only [removesOwed, handleEvent, handleEventWithGuard, List.count_append]
        split_ifs <;> simp
      · exact .notEnabled
  | eventsHandled => exact .guard fun _ => .same (aside_of_quiet (by simp) rfl rfl) rfl rfl
  | timer id =>
      refine .guard fun _ => .same (aside_of_quiet (by simp) rfl rfl) rfl ?_
      simp [removesOwed, kcpSessionUpdate]
  | functor =>
      simp only [step]
      split
      · rename_i functor rest hqueue
        exact .guard fun _ => result_runFunctor hqueue
      · exact .notEnabled
  | call caller api => exact .guard fun _ => result_runApi
  | retrieve len => exact .guard fun _ => .same (aside_of_quiet (by simp) rfl rfl) rfl rfl
  | proceed => exact result_proceed
  | errorCallback soError =>
      simp only [step]
      split
      · rename_i rest hstack
        refine result_handleError (fun herror => ?_) (fun herror => ?_) rfl (by simp [removesOwed, hstack])
        · simp [entersClose, closeCause, herror]
        · exact aside_of_report (by simp) ⟨rfl, rfl, rfl, rfl⟩ (by simp [closeCause, herror])
      · exact .notEnabled
  | doSend len nwrote soError => exact .guard fun _ => result_doSend
  | doRecv n soError => exact .guard fun _ => result_doRecv
  | kcpConnection isConnected => exact .guard fun _ => result_onKcpsessConnection
  | recvReturns ok n buf =>
      refine .guard fun hturn => ?_
      obtain ⟨rest, hstack⟩ := List.head?_eq_some_iff.mp (beq_iff_eq.mp hturn)
      exact result_kcpReceived hstack
  | sendReturns len =>
      simp only [step]
      split
      · rename_i rest hstack
        exact .pop (aside_of_quiet (by simp) rfl rfl) hstack (by decide) rfl rfl
      · exact .notEnabled
  | updateReturns nextUpdateTimeMs =>
      simp only [step]
      split
      · rename_i rest hstack
        exact result_kcpUpdated hstack
      · exact .notEnabled
  | userReturns =>
      simp only [step]
      split
      · rename_i rest hstack
        exact .pop (aside_of_quiet (by simp) rfl rfl) hstack (by decide) rfl rfl
      · exact .notEnabled

/-! ### Read off an accepted input, and off a refused one -/

theorem step_channel (h : step c i = .ok c') : c.channelAfter i = .ok c'.channel := by
  have hresult := step_result c i
  rw [h] at hresult
  cases hresult with
  | done hchannel hremoves => exact hchannel

theorem step_channelEffect (h : step c i = .ok c') : ChannelEffect c i c'.channel := by
  have hafter := step_channel h
  unfold channelAfter at hafter
  split_ifs at hafter with hstarts hstops hclears hremoves
  · exact .enabled hstarts hafter
  · exact .disabled hstops hafter
  · exact .cleared hclears hafter
  · exact .removed hremoves hafter
  · refine .same ?_ (Except.ok.inj hafter).symm
    rw [not_or, Bool.not_eq_true] at hstarts
    rw [Bool.not_eq_true] at hstops hclears
    exact ⟨hstarts.1, by simp [updatesChannel, hstarts, hstops, hclears]⟩

theorem step_removes (h : step c i = .ok c') :
    c'.removesOwed + (c.removesChannel i).toNat = c.removesOwed + (decide (i = .connectDestroyed)).toNat := by
  have hresult := step_result c i
  rw [h] at hresult
  cases hresult with
  | done hchannel hremoves => exact hremoves

/-- Only the asserts of `connectEstablished` and of the channel can fail. -/
theorem step_error {e : Halt} (h : step c i = .error e) :
    e = .notEnabled ∨ i = .connectEstablished ∧ e = .assertFailed .connectionConnecting ∨
      c.channelAfter i = .error e := by
  have hresult := step_result c i
  rw [h] at hresult
  cases hresult with
  | stopped hchannel => exact Or.inr (Or.inr hchannel)
  | notConnecting hi => exact Or.inr (Or.inl ⟨hi, rfl⟩)
  | notEnabled => exact Or.inl rfl

theorem step_removesChannel (h : step c i = .ok c') (hremoves : c.removesChannel i = true) :
    c.channel.remove c.activeAside = .ok c'.channel ∧ c.removesOwed = c'.removesOwed + 1 := by
  obtain ⟨rfl, rest, hstack⟩ := removesChannel_iff.mp hremoves
  have hbalance := step_removes h
  rw [hremoves] at hbalance
  exact ⟨(channelAfter_of_removesChannel hremoves).symm.trans (step_channel h), hbalance.symm⟩

/-- An update that is accepted finds the channel in the poller, or new, and leaves it there. -/
theorem updated_of_updatesChannel (hupdates : i = .connectEstablished ∨ c.updatesChannel i = true)
    (h : step c i = .ok c') :
    c.channel.index ≠ .removed ∧ c'.channel.inChannels = true ∧ (c.channel.index ≠ .unset → c'.channel.Known) := by
  obtain ⟨d, hindex, hafter⟩ := channelAfter_of_updatesChannel hupdates
  have hupdated := Channel.update_eq_ok (hafter.symm.trans (step_channel h))
  rw [← hindex]
  exact ⟨hupdated.notRemoved, hupdated.inChannels, fun hset => hupdated.known (Or.inl hset)⟩

/-- The asserts inside a connection: its own and those of its channel. -/
def asserts : Assertion → Bool
  | .connectionConnecting | .channelNoneEvent | .channelNotActive | .channelRegistered | .channelIgnored => true
  | _ => false

theorem asserts_of_update {d : Channel} {a : Assertion} (h : d.update = .error (.assertFailed a)) :
    asserts a = true := by
  cases (Channel.update_error h).2
  rfl

theorem asserts_of_remove {d : Channel} {activeAside : Bool} {a : Assertion}
    (h : d.remove activeAside = .error (.assertFailed a)) : asserts a = true := by
  unfold Channel.remove Channel.removeChannel at h
  split_ifs at h
  · cases h
    rfl
  · split at h <;> cases h <;> rfl
  · cases h
    rfl

theorem asserts_of_channelAfter {a : Assertion} (h : c.channelAfter i = .error (.assertFailed a)) :
    asserts a = true := by
  unfold channelAfter at h
  split_ifs at h
  · exact asserts_of_update h
  · exact asserts_of_update h
  · exact asserts_of_update h
  · exact asserts_of_remove h

/-- A connection never fails an assert of its owner. -/
theorem asserts_of_step {a : Assertion} (h : step c i = .error (.assertFailed a)) : asserts a = true := by
  rcases step_error h with hnot | ⟨-, hconnecting⟩ | hchannel
  · cases hnot
  · cases hconnecting
    rfl
  · exact asserts_of_channelAfter hchannel

end Realtinet.UdpConnection
