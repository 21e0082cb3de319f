import Realtinet.UdpConnectionCallbacks
import Realtinet.UdpConnectionChannel

/-! What becomes of the channel of a connection that is down. `handleClose` and `connectDestroyed` take its interest
away, and `connectDestroyed` takes it out of the poller; but `startReadInLoop`, `stopReadInLoop` and `handleClose`
do not look at `state_`. Until the removal a `startReadInLoop` gives the channel its read interest back. After it any
change of interest fails the assert of `PollPoller::updateChannel`, which finds an `index_` and no channel. -/

namespace Realtinet.UdpConnection

open TransitionSystem

variable {c c' : UdpConnection} {i : Input}

/-! ### Interest after the close -/

/-- A connection that is down has no read interest. -/
def NotReadingWhenDown (c : UdpConnection) : Prop := c.state = .kDisconnected → c.channel.isReading = false

/-- `startReadInLoop` is not run on a connection that is down. -/
def StartsReadingOnlyWhileUp (c : UdpConnection) (i : Input) : Prop :=
  c.state = .kDisconnected → c.startsReading i = false

instance startsReadingOnlyWhileUpDecidable (c : UdpConnection) (i : Input) : Decidable (c.StartsReadingOnlyWhileUp i) :=
  inferInstanceAs (Decidable (c.state = .kDisconnected → c.startsReading i = false))

theorem reading_of_startsReading (h : step c i = .ok c') (hstarts : c.startsReading i = true) :
    c'.channel.isReading = true := by
  have hafter := step_channel h
  rw [channelAfter_of_startsReading hstarts] at hafter
  exact (Channel.update_eq_ok hafter).readEvent

theorem notReading_of_clearsInterest (h : step c i = .ok c') (hclears : c.clearsInterest i = true) :
    c'.channel.isReading = false := by
  have hafter := step_channel h
  rw [channelAfter_of_clearsInterest hclears] at hafter
  exact (Channel.update_eq_ok hafter).readEvent

theorem notReadingWhenDown_iff (hgood : c.NotReadingWhenDown) (h : step c i = .ok c') :
    c'.NotReadingWhenDown ↔ c.StartsReadingOnlyWhileUp i := by
  by_cases hdown : c.state = .kDisconnected
  · have hdown' := step_disconnected h hdown
    constructor
    · intro hnext _
      by_contra hstarts
      have hreading := reading_of_startsReading h (by simpa using hstarts)
      rw [hnext hdown'] at hreading
      cases hreading
    · intro hnot _
      have hquiet := hgood hdown
      cases step_channelEffect h with
      | enabled hinput henable =>
          rcases hinput with rfl | hstarts
          · rw [(connecting_of_connectEstablished h).1] at hdown
            cases hdown
          · rw [hnot hdown] at hstarts
            cases hstarts
      | disabled hinput hdisable => exact (Channel.update_eq_ok hdisable).readEvent
      | cleared hinput hdisable => exact (Channel.update_eq_ok hdisable).readEvent
      | removed hinput hremove =>
          rw [(Channel.remove_eq_ok_iff.mp hremove).2.2.2]
          exact hquiet
      | same hinput hchannel => rw [hchannel, hquiet]
  · refine iff_of_true (fun hdown' => ?_) fun hdown' => absurd hdown' hdown
    have hclears : c.clearsInterest i = true := by
      simpa [clearsInterest] using (step_down_iff h hdown).mp hdown'
    exact notReading_of_clearsInterest h hclears

/-! ### After the removal -/

/-- What `~Channel` asserts: the channel is not in the poller, and not marked as added. -/
def Unregistered (c : UdpConnection) : Prop := c.channel.inChannels = false ∧ c.channel.addedToLoop = false

/-- The input leaves the channel alone. -/
def LeavesChannel (c : UdpConnection) (i : Input) : Prop :=
  i ≠ .connectEstablished ∧ c.updatesChannel i = false ∧ c.removesChannel i = false

instance leavesChannelDecidable (c : UdpConnection) (i : Input) : Decidable (c.LeavesChannel i) :=
  inferInstanceAs (Decidable (_ ∧ _ ∧ _))

/-- A connection that its owner has established, and whose channel `connectDestroyed` has removed. -/
structure Removed (c : UdpConnection) : Prop where
  waits : c.WaitsForOwner
  started : c.state ≠ .kConnecting
  index : c.channel.index = .removed
  notAdded : c.channel.addedToLoop = false

theorem Removed.unregistered (h : c.Removed) : c.Unregistered := by
  refine ⟨?_, h.notAdded⟩
  rw [Channel.inChannels, h.index]

theorem started_step (hwaits : c.WaitsForOwner) (hstarted : c.state ≠ .kConnecting) (h : step c i = .ok c') :
    c'.state ≠ .kConnecting := by
  have hi : i ≠ .connectEstablished := by
    rintro rfl
    exact hstarted (connecting_of_connectEstablished h).1
  exact fun hstate => hstarted ((step_connecting_iff hwaits hi h).1.mp hstate)

/-- What gets through leaves the channel alone. -/
theorem Removed.leavesChannel (hinv : c.Removed) (h : step c i = .ok c') : c.LeavesChannel i := by
  have hi : i ≠ .connectEstablished := by
    rintro rfl
    exact hinv.started (connecting_of_connectEstablished h).1
  refine ⟨hi, ?_, ?_⟩
  · by_contra hupdates
    exact (updated_of_updatesChannel (Or.inr (by simpa using hupdates)) h).1 hinv.index
  · by_contra hremoves
    have hremove := (step_removesChannel h (by simpa using hremoves)).1
    have hindex := (Channel.remove_eq_ok_iff.mp hremove).2.2.1
    rw [hinv.index] at hindex
    cases hindex

theorem removed_step (hinv : c.Removed) (h : step c i = .ok c') : c'.Removed := by
  obtain ⟨hi, hupdates, hremoves⟩ := hinv.leavesChannel h
  have hchannel : c'.channel = c.channel :=
    (Except.ok.inj ((channelAfter_of_quiet hi hupdates hremoves).symm.trans (step_channel h))).symm
  exact ⟨waitsForOwner_step hinv.waits h, started_step hinv.waits hinv.started h, by rw [hchannel, hinv.index],
    by rw [hchannel, hinv.notAdded]⟩

/-- Nothing but an update or a second removal of the channel fails an assert. -/
theorem Removed.accepted_iff (hinv : c.Removed) (hne : step c i ≠ .error .notEnabled) :
    (∃ c', step c i = .ok c') ↔ c.LeavesChannel i := by
  constructor
  · rintro ⟨c', h⟩
    exact hinv.leavesChannel h
  · rintro ⟨hi, hupdates, hremoves⟩
    cases h : step c i with
    | ok c' => exact ⟨c', rfl⟩
    | error e =>
        exfalso
        rcases step_error h with rfl | ⟨hestablish, -⟩ | hchannel
        · exact hne h
        · exact hi hestablish
        · rw [channelAfter_of_quiet hi hupdates hremoves] at hchannel
          cases hchannel

/-- `connectDestroyed` has come to `channel_->remove()`. -/
theorem removed_of_removesChannel (hwaits : c.WaitsForOwner) (hremoves : c.removesChannel i = true)
    (h : step c i = .ok c') : c'.Removed := by
  have hremove := (step_removesChannel h hremoves).1
  obtain ⟨-, rest, hstack⟩ := removesChannel_iff.mp hremoves
  have hstarted : c.state ≠ .kConnecting := by
    intro hstate
    rw [hwaits hstate] at hstack
    cases hstack
  have hchannel := (Channel.remove_eq_ok_iff.mp hremove).2.2.2
  exact ⟨waitsForOwner_step hwaits h, started_step hwaits hstarted h, by rw [hchannel], by rw [hchannel]⟩

/-- **When the channel of a closed connection stays quiet.** In every run, the connection is never reading while it
is down if and only if `startReadInLoop` is never run on it then. After `connectDestroyed` has removed the channel it
is never registered again, as `~Channel` asserts; and a continuation made of inputs that can occur fails no assert if
and only if in it no `startReadInLoop` is run, no `stopReadInLoop` that still finds `reading_` set, no `handleClose`,
and the connection is not established or destroyed again. -/
theorem closed_channel_iff (writeComplete : Bool) (inputs : List Input) (c : UdpConnection)
    (hrun : Run writeComplete inputs c) :
    (Throughout step NotReadingWhenDown (new writeComplete) inputs ↔
        Along step StartsReadingOnlyWhileUp (new writeComplete) inputs) ∧
      ∀ i d later, c.removesChannel i = true → step c i = .ok d →
        Throughout step Unregistered d later ∧
          (run step d later ≠ .error .notEnabled →
            ((∃ e, run step d later = .ok e) ↔ Along step LeavesChannel d later)) := by
  constructor
  · refine throughout_iff_along (fun _ => True) NotReadingWhenDown (fun _ _ _ _ _ => trivial) ?_ trivial ?_ hrun
    · intro s j s' _ hgood hstep
      exact notReadingWhenDown_iff hgood hstep
    · intro hdown
      simp [new] at hdown
  · intro i d later hremoves hstep
    have hremoved := removed_of_removesChannel (waitsForOwner_run hrun) hremoves hstep
    constructor
    · have hthroughout : Throughout step Removed d later :=
        throughout_of_step (fun _ _ _ h1 h2 => removed_step h1 h2) hremoved later
      exact throughout_mono (fun s => Removed.unregistered) hthroughout
    · exact run_accepted_iff_along Removed (fun _ _ _ => removed_step) (fun _ _ => Removed.accepted_iff) hremoved

/-- The owner gives the connection up while it is connected: up to the removal of the channel. -/
def givenUp : List Input := [.connectEstablished, .updateReturns 10, .connectDestroyed, .userReturns]

/-- User code that has kept the connection looks at it, and another thread tries to close it. -/
theorem closed_channel_stays_quiet :
    ∃ c d, Run false givenUp c ∧ step c .proceed = .ok d ∧
      ∃ e, run step d [.timer 0, .updateReturns 10, .call (.other 1) .forceClose, .retrieve 0] = .ok e :=
  ⟨_, _, rfl, rfl, (((closed_channel_iff false givenUp _ rfl).2 .proceed _ _ rfl rfl).2 (by decide)).mpr (by decide)⟩

/-- User code that has kept the connection starts reading. -/
example : ∃ c, Run false (givenUp ++ [.proceed]) c ∧
    step c (.call .loop .startRead) = .error (.assertFailed .channelRegistered) := ⟨_, rfl, rfl⟩

/-- The session fails, and user code, told that the connection is down, starts reading: the channel is still in the
poller, and has read interest again. -/
def failedThenReading : List Input := [.connectEstablished, .updateReturns (-1), .call .loop .startRead]

theorem reading_after_close :
    ¬∀ (writeComplete : Bool) (inputs : List Input) (c : UdpConnection), Run writeComplete inputs c →
      Throughout step NotReadingWhenDown (new writeComplete) inputs ∧
        ∀ i d later, c.removesChannel i = true → step c i = .ok d →
          Throughout step Unregistered d later ∧
            (run step d later ≠ .error .notEnabled → ∃ e, run step d later = .ok e) := by
  intro h
  obtain ⟨c, hrun, hdown, hreading⟩ : ∃ c, Run false failedThenReading c ∧ c.state = .kDisconnected ∧
      c.channel.isReading = true := ⟨_, rfl, rfl, rfl⟩
  have hthroughout := (h false failedThenReading c hrun).1
  rw [throughout_last hthroughout hrun hdown] at hreading
  cases hreading

end Realtinet.UdpConnection
