import Realtinet.UdpConnectionChannel

/-! Teardown: what `connectDestroyed` finds in a connection that its owner gives up, as `~UdpServer`
does with every connection still in `connections_`. It takes the connection down only from
`kConnected`, and `Channel::remove` asserts that no interest is left. The loop asserts in addition that
it has not to do with the channel in this round, unless it is in the callbacks of the channel itself. -/

namespace Realtinet.UdpConnection

open TransitionSystem

variable {c c' : UdpConnection} {i : Input}

/-- A connection that has been established and not been given up is known to the poller. -/
structure Registered (c : UdpConnection) : Prop where
  kept : .channelRemove ∉ c.stack
  known : c.state ≠ .kConnecting → c.channel.Known

theorem registered_iff : c.Registered ↔ c.removesOwed = 0 ∧ (c.state ≠ .kConnecting → c.channel.Known) :=
  ⟨fun h => ⟨List.count_eq_zero.mpr h.kept, h.known⟩, fun h => ⟨List.count_eq_zero.mp h.1, h.2⟩⟩

/-- Whatever updates the channel leaves it known to the poller. -/
theorem registered_step (hwaits : c.WaitsForOwner) (h : c.Registered) (hnot : i ≠ .connectDestroyed)
    (hstep : step c i = .ok c') : c'.Registered := by
  rw [registered_iff] at h ⊢
  have hremoves : c'.removesOwed = 0 ∧ c.removesChannel i = false := by
    have hbalance := step_removes hstep
    rw [h.1, decide_eq_false hnot] at hbalance
    cases hremoving : c.removesChannel i with
    | true => simp [hremoving] at hbalance
    | false =>
        rw [hremoving] at hbalance
        exact ⟨by simpa using hbalance, rfl⟩
  refine ⟨hremoves.1, fun hstarted => ?_⟩
  have hbefore : i ≠ .connectEstablished → c.channel.Known := by
    intro hi
    exact h.2 fun hstate => hstarted ((step_connecting_iff hwaits hi hstep).1.mpr hstate)
  cases step_channelEffect hstep with
  | enabled hinput henable => exact (Channel.update_eq_ok henable).known (Or.inr rfl)
  | disabled hinput hdisable =>
      have hi : i ≠ .connectEstablished := by
        rintro rfl
        cases hinput
      exact (Channel.update_eq_ok hdisable).known (Or.inl (Channel.index_of_known (hbefore hi)).2)
  | cleared hinput hdisable =>
      exact (Channel.update_eq_ok hdisable).known
        (Or.inl (Channel.index_of_known (hbefore (clearsInterest_cases hinput).1)).2)
  | removed hinput hremove =>
      rw [hremoves.2] at hinput
      cases hinput
  | same hinput hchannel =>
      rw [hchannel]
      exact hbefore hinput.1

theorem registered_new (writeComplete : Bool) : (new writeComplete).Registered :=
  ⟨by simp [new], fun hne => absurd rfl hne⟩

theorem registered_run {writeComplete : Bool} {inputs : List Input} (hrun : Run writeComplete inputs c)
    (hnot : .connectDestroyed ∉ inputs) : c.Registered := by
  have hboth : c.WaitsForOwner ∧ c.Registered := by
    refine @run_invariant_along _ _ _ step (fun _ i => i ≠ .connectDestroyed) (fun c => c.WaitsForOwner ∧ c.Registered)
      ?_ _ _ _ ⟨fun _ => rfl, registered_new writeComplete⟩ ?_ hrun
    · intro c i c' hinv hi hstep
      exact ⟨waitsForOwner_step hinv.1 hstep, registered_step hinv.1 hinv.2 hi hstep⟩
    · exact along_of_mem (fun i hi => ne_of_mem_of_not_mem hi hnot) _
  exact hboth.2

/-! ### Running `connectDestroyed` to its end -/

/-- `connectDestroyed` as a whole. From `kConnected` it calls the connection callback first; `calls`
are the public functions called meanwhile, by the callback and by other threads. -/
def destroyInputs (calls : List (Thread × Api)) (c : UdpConnection) : List Input :=
  if c.state = .kConnected then
    .connectDestroyed :: (calls.map fun call => .call call.1 call.2) ++ [.userReturns, .proceed]
  else [.connectDestroyed, .proceed]

/-- The asserts of `connectDestroyed` hold and it leaves a connection that may be destructed: down,
and with a channel the poller has forgotten. -/
def TornDown (calls : List (Thread × Api)) (c : UdpConnection) : Prop :=
  ∃ c', run step c (c.destroyInputs calls) = .ok c' ∧ c'.state = .kDisconnected ∧
    c'.channel.inChannels = false ∧ c'.channel.addedToLoop = false

/-- Read interest after the calls made during the callback: the last `startRead` or `stopRead` made in
the loop thread decides; those of other threads are only queued. -/
def readingAfter : List (Thread × Api) → Bool → Bool
  | [], reading => reading
  | (.loop, .startRead) :: calls, _ => readingAfter calls true
  | (.loop, .stopRead) :: calls, _ => readingAfter calls false
  | _ :: calls, reading => readingAfter calls reading

/-- A connection that is down inside a callback, as the calls of that callback leave it. -/
structure InDownCallback (rest : List Frame) (c : UdpConnection) : Prop where
  down : c.state = .kDisconnected
  stack : c.stack = .user :: rest
  known : c.channel.Known
  notWriting : c.channel.writeEvent = false

theorem InDownCallback.userTurn {rest : List Frame} (h : InDownCallback rest c) : c.userTurn = true := by
  simp [UdpConnection.userTurn, h.down, h.stack]

/-- `c'` is what a call made in the callback leaves. -/
structure CalledInside (rest : List Frame) (c c' : UdpConnection) : Prop where
  inside : InDownCallback rest c'
  activity : c'.activity = c.activity

theorem InDownCallback.startReadInLoop {rest : List Frame} (h : InDownCallback rest c) :
    ∃ c', c.startReadInLoop = .ok c' ∧ CalledInside rest c c' ∧ c'.channel.readEvent = true := by
  unfold UdpConnection.startReadInLoop
  split_ifs with hreading
  · obtain ⟨channel, hupdate, hknown, hread, hwrite⟩ :=
      Channel.update_of_known (c := { c.channel with readEvent := true }) h.known
    have henable : c.channel.enableReading = .ok channel := hupdate
    rw [henable]
    exact ⟨_, rfl, ⟨⟨h.down, h.stack, hknown, hwrite.trans h.notWriting⟩, rfl⟩, hread⟩
  · have htrue : c.channel.readEvent = true := by
      rw [Bool.or_eq_true, not_or] at hreading
      simpa [Channel.isReading] using hreading.2
    exact ⟨c, rfl, ⟨h, rfl⟩, htrue⟩

theorem InDownCallback.stopReadInLoop {rest : List Frame} (h : InDownCallback rest c) :
    ∃ c', c.stopReadInLoop = .ok c' ∧ CalledInside rest c c' ∧ c'.channel.readEvent = false := by
  unfold UdpConnection.stopReadInLoop
  split_ifs with hreading
  · obtain ⟨channel, hupdate, hknown, hread, hwrite⟩ :=
      Channel.update_of_known (c := { c.channel with readEvent := false }) h.known
    have hdisable : c.channel.disableReading = .ok channel := hupdate
    rw [hdisable]
    exact ⟨_, rfl, ⟨⟨h.down, h.stack, hknown, hwrite.trans h.notWriting⟩, rfl⟩, hread⟩
  · have hfalse : c.channel.readEvent = false := by
      rw [Bool.or_eq_true, not_or] at hreading
      simpa [Channel.isReading] using hreading.2
    exact ⟨c, rfl, ⟨h, rfl⟩, hfalse⟩

theorem InDownCallback.runApi {rest : List Frame} (h : InDownCallback rest c) (call : Thread × Api)
    (calls : List (Thread × Api)) :
    ∃ c', c.runApi call.1 call.2 = .ok c' ∧ CalledInside rest c c' ∧
      readingAfter calls c'.channel.readEvent = readingAfter (call :: calls) c.channel.readEvent := by
  have hup : ¬c.state = .kConnected := by simp [h.down]
  have hclosing : ¬(c.state = .kConnected ∨ c.state = .kDisconnecting) := by simp [h.down]
  have hqueued : ∀ functor, CalledInside rest c (c.queueInLoop functor) := fun functor =>
    ⟨⟨h.down, h.stack, h.known, h.notWriting⟩, rfl⟩
  obtain ⟨caller, api⟩ := call
  cases api with
  | send message mode =>
      refine ⟨c, by rw [UdpConnection.runApi, send, if_neg hup], ⟨h, rfl⟩, ?_⟩
      cases caller <;> rfl
  | shutdown =>
      refine ⟨c, by rw [UdpConnection.runApi, shutdown, if_neg hup], ⟨h, rfl⟩, ?_⟩
      cases caller <;> rfl
  | forceClose =>
      refine ⟨c, by rw [UdpConnection.runApi, forceClose, if_neg hclosing], ⟨h, rfl⟩, ?_⟩
      cases caller <;> rfl
  | startRead =>
      cases caller with
      | loop =>
          obtain ⟨c', hstart, hcalled, hread⟩ := h.startReadInLoop
          exact ⟨c', hstart, hcalled, by rw [hread]; rfl⟩
      | other id => exact ⟨_, rfl, hqueued _, rfl⟩
  | stopRead =>
      cases caller with
      | loop =>
          obtain ⟨c', hstop, hcalled, hread⟩ := h.stopReadInLoop
          exact ⟨c', hstop, hcalled, by rw [hread]; rfl⟩
      | other id => exact ⟨_, rfl, hqueued _, rfl⟩

theorem run_calls {rest : List Frame} (calls : List (Thread × Api)) (h : InDownCallback rest c) :
    ∃ c', run step c (calls.map fun call => .call call.1 call.2) = .ok c' ∧ CalledInside rest c c' ∧
      c'.channel.readEvent = readingAfter calls c.channel.readEvent := by
  induction calls generalizing c with
  | nil => exact ⟨c, rfl, ⟨h, rfl⟩, rfl⟩
  | cons call calls ih =>
      obtain ⟨c₁, hcall, hnext, hreading⟩ := h.runApi call calls
      obtain ⟨c', hrun, hcalled, hread⟩ := ih hnext.inside
      have hstep : step c (.call call.1 call.2) = .ok c₁ := by simp [step, h.userTurn, hcall]
      refine ⟨c', ?_, ⟨hcalled.inside, hcalled.activity.trans hnext.activity⟩, hread.trans hreading⟩
      rw [List.map_cons, run_cons hstep, hrun]

/-- The last step of `connectDestroyed`, on a channel the poller knows. -/
theorem proceed_remove {rest : List Frame} (hstack : c.stack = .channelRemove :: rest) (hknown : c.channel.Known) :
    (∃ c', step c .proceed = .ok c' ∧ c'.state = .kDisconnected ∧ c'.channel.inChannels = false ∧
      c'.channel.addedToLoop = false) ↔
      c.activeAside = false ∧ c.state = .kDisconnected ∧ c.channel.isNoneEvent = true := by
  have hstep : step c .proceed = do
      let channel ← c.channel.remove c.activeAside
      return { c with channel := channel, stack := rest } := by
    simp only [step, proceed, hstack]
  constructor
  · rintro ⟨c', h, hdown, -⟩
    rw [hstep] at h
    obtain ⟨channel, hremove, hc⟩ := bind_eq_ok.mp h
    cases hc
    obtain ⟨hnone, hactive, -⟩ := Channel.remove_eq_ok_iff.mp hremove
    exact ⟨hactive, hdown, hnone⟩
  · rintro ⟨hactive, hdown, hnone⟩
    have hindex : c.channel.index = .pollfd true := by rw [hknown, hnone]
    have hremove := Channel.remove_eq_ok_iff.mpr ⟨hnone, hactive, hindex, rfl⟩
    rw [hstep, hremove]
    exact ⟨_, rfl, hdown, rfl, rfl⟩

/-- What stands above the callbacks in progress is not `Channel::handleEvent`. -/
theorem activeAside_push {frame : Frame} (hframe : frame ≠ .channelEvent) (hactivity : c'.activity = c.activity)
    (hstack : c'.stack = frame :: c.stack) : c'.activeAside = c.activeAside := by
  rw [activeAside, activeAside, hactivity, hstack]
  simp [Ne.symm hframe]

theorem tornDown_of_connected {calls : List (Thread × Api)} (hturn : c.userTurn = true) (hknown : c.channel.Known)
    (hup : c.state = .kConnected) : c.TornDown calls ↔ c.activeAside = false ∧ readingAfter calls false = false := by
  obtain ⟨channel, hupdate, hstill, hread, hwrite⟩ :=
    Channel.update_of_known (c := { c.channel with readEvent := false, writeEvent := false }) hknown
  have hdisable : c.channel.disableAll = .ok channel := hupdate
  let b := callConnectionCallback
    { c with state := .kDisconnected, channel := channel, stack := .channelRemove :: c.stack }
  have hb : step c .connectDestroyed = .ok b := by
    show (if c.userTurn then c.connectDestroyed else _) = _
    rw [if_pos hturn, connectDestroyed, if_pos hup, hdisable]
    rfl
  have hbegin : InDownCallback (.channelRemove :: c.stack) b := ⟨rfl, rfl, hstill, hwrite⟩
  have hbread : b.channel.readEvent = false := hread
  obtain ⟨c₁, hrun, hcallback, hcread⟩ := run_calls calls hbegin
  have hreturn : step c₁ .userReturns = .ok { c₁ with stack := .channelRemove :: c.stack } := by
    simp [step, hcallback.inside.stack]
  have hall : run step c (c.destroyInputs calls) =
      step { c₁ with stack := .channelRemove :: c.stack } .proceed := by
    rw [destroyInputs, if_pos hup, List.cons_append, run_cons hb, run_append hrun, run_cons hreturn,
      run_singleton]
  have haside : activeAside { c₁ with stack := .channelRemove :: c.stack } = c.activeAside :=
    activeAside_push (by decide) hcallback.activity rfl
  rw [hbread] at hcread
  rw [TornDown, hall]
  refine (proceed_remove (c := { c₁ with stack := .channelRemove :: c.stack }) rfl hcallback.inside.known).trans ?_
  rw [haside]
  simp [hcallback.inside.down, Channel.isNoneEvent, hcread, hcallback.inside.notWriting]

theorem tornDown_of_not_connected {calls : List (Thread × Api)} (hturn : c.userTurn = true)
    (hup : c.state ≠ .kConnected) (hknown : c.channel.Known) :
    c.TornDown calls ↔ c.activeAside = false ∧ c.state = .kDisconnected ∧ c.channel.isNoneEvent = true := by
  have hfirst : step c .connectDestroyed = .ok { c with stack := .channelRemove :: c.stack } := by
    simp [step, hturn, connectDestroyed, hup]
  have haside : activeAside { c with stack := .channelRemove :: c.stack } = c.activeAside :=
    activeAside_push (by decide) rfl rfl
  rw [TornDown, destroyInputs, if_neg hup, run_cons hfirst, run_singleton, ← haside]
  exact proceed_remove rfl hknown

/-- **When teardown is safe.** A connection reached by any run without `connectDestroyed`, given up
between two of its callbacks or from inside one, is torn down safely if and only if the loop is not
handling the events of another channel in a round whose poll has reported the connection's, and either
it is `kConnected` and the callback does not leave reading enabled, or it is already `kDisconnected`
without any interest. In `kDisconnecting`, where `shutdown` and a pending `forceClose` leave it, it
never is. -/
theorem tornDown_iff (writeComplete : Bool) (inputs : List Input) (c : UdpConnection)
    (hrun : Run writeComplete inputs c) (hnot : .connectDestroyed ∉ inputs) (hturn : c.userTurn = true)
    (calls : List (Thread × Api)) :
    c.TornDown calls ↔
      c.activeAside = false ∧ (c.state = .kConnected ∧ readingAfter calls false = false ∨
        c.state = .kDisconnected ∧ c.channel.isNoneEvent = true) := by
  have hinv := registered_run hrun hnot
  have hknown : c.channel.Known := hinv.known (by
    intro hstate
    simp [userTurn, hstate] at hturn)
  by_cases hup : c.state = .kConnected
  · rw [tornDown_of_connected hturn hknown hup]
    simp [hup]
  · rw [tornDown_of_not_connected hturn hup hknown]
    simp [hup]

/-- Established, then shut down by the user, as `UdpClient::disconnect` or a codec that has met an
invalid length does. -/
def establishedThenShutdown : List Input :=
  [.connectEstablished, .updateReturns 10, .call .loop .shutdown]

theorem not_tornDown_after_shutdown :
    ¬∀ (writeComplete : Bool) (inputs : List Input) (c : UdpConnection), Run writeComplete inputs c →
      .connectDestroyed ∉ inputs → c.userTurn = true → ∀ calls, c.TornDown calls := by
  intro h
  obtain ⟨c', hc', -⟩ := h false establishedThenShutdown _ rfl (by decide) (by decide) []
  have hfail : Except.error (Halt.assertFailed .channelNoneEvent) = Except.ok c' := hc'
  cases hfail

theorem tornDown_while_connected :
    ∃ c, Run false [.connectEstablished, .updateReturns 10] c ∧ c.TornDown [(.loop, .startRead), (.loop, .stopRead)] :=
  ⟨_, rfl, (tornDown_iff false [.connectEstablished, .updateReturns 10] _ rfl (by decide) (by decide) _).mpr
    (by decide)⟩

-- The same poll has reported the connection's channel, and the owner gives the connection up in the
-- callback of another one.
example : run step (new false) [.connectEstablished, .updateReturns 10, .poll { pollIn := true }, .connectDestroyed,
    .userReturns, .proceed] = .error (.assertFailed .channelNotActive) := rfl

end Realtinet.UdpConnection
