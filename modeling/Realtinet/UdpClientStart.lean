import Realtinet.UdpClientConnection

/-! When the connector may be started. `startInLoop` asserts `kDisconnected`, but `connect` does not check
the state: after a success it stays `kConnected` until `restart`, and `stop` does not cancel the retry
timer. A client whose `connect` is called only while the connector is idle never fails the assert. -/

namespace Realtinet.UdpClient

open TransitionSystem

/-- The starts of the connector that are under way: retry timers and queued `startInLoop`. -/
def starts (s : UdpClient) : Nat := s.timers.length + s.pendingFunctors.count .startInLoop

/-- The connector is disconnected and nothing is under way to start it. -/
def Idle (s : UdpClient) : Prop := s.connector.state = .kDisconnected ∧ s.timers = [] ∧ .startInLoop ∉ s.pendingFunctors

instance idleDecidable (s : UdpClient) : Decidable s.Idle :=
  inferInstanceAs (Decidable (s.connector.state = .kDisconnected ∧ s.timers = [] ∧ .startInLoop ∉ s.pendingFunctors))

def ConnectsWhenIdle (s : UdpClient) : Input → Prop
  | .connect _ _ => s.Idle
  | _ => True

instance connectsWhenIdleDecidable (s : UdpClient) : ∀ input : Input, Decidable (s.ConnectsWhenIdle input)
  | .connect _ _ => inferInstanceAs (Decidable s.Idle)
  | .disconnect | .stop | .enableRetry | .timer _ _ | .functor _ | .connection _ _ _ => .isTrue trivial

/-- At most one start is under way, and only while the connector is disconnected. -/
structure OneStart (s : UdpClient) : Prop where
  starts_le : s.starts ≤ 1
  disconnected : 0 < s.starts → s.connector.state = .kDisconnected

variable {s s' : UdpClient} {id : Nat} {i : UdpConnection.Input} {errno : Errno}

theorem starts_of_idle (h : s.Idle) : s.starts = 0 := by
  obtain ⟨-, htimers, hqueue⟩ := h
  rw [starts, htimers, List.count_eq_zero.mpr hqueue]
  rfl

theorem OneStart.congr (h : s.OneStart) (hstarts : s'.starts = s.starts)
    (hstate : s'.connector.state = s.connector.state) : s'.OneStart := by
  refine ⟨?_, ?_⟩
  · rw [hstarts]
    exact h.starts_le
  · rw [hstarts, hstate]
    exact h.disconnected

theorem starts_queueInLoop {functor : Functor} (hne : functor ≠ .startInLoop) :
    (s.queueInLoop functor).starts = s.starts := by
  simp [starts, queueInLoop, List.count_append, hne]

theorem stepConnection_frame (hrun : s.stepConnection id i = .ok s') :
    s'.starts = s.starts ∧ s'.connector = s.connector := by
  obtain ⟨c, -, rfl⟩ := stepConnection_eq_ok hrun
  exact ⟨rfl, rfl⟩

/-- The only start under way has come to `startInLoop`; it may leave one retry timer. -/
theorem oneStart_startInLoop {c : UdpConnector} (hzero : s.starts = 0)
    (hrun : s.finish (c.startInLoop errno) = .ok s') : s'.OneStart := by
  cases hstart : c.startInLoop errno with
  | error e => simp [finish, hstart] at hrun
  | ok result =>
      obtain ⟨c', effects⟩ := result
      rw [hstart] at hrun
      change run perform { s with connector := c' } effects = .ok s' at hrun
      have hnone : ∀ {t : UdpClient}, t.starts = 0 → t.OneStart := by
        intro t ht
        exact ⟨by omega, fun hpos => by omega⟩
      obtain ⟨-, hcases⟩ := UdpConnector.startInLoop_cases hstart
      rcases hcases with ⟨-, -, rfl⟩ | ⟨-, -, -, rfl⟩ | ⟨-, -, -, hstate, rfl⟩ | ⟨-, -, -, rfl⟩
      · cases hrun
        exact hnone hzero
      · obtain ⟨t, hsocket, hrun'⟩ := run_cons_eq_ok.mp hrun
        cases hsocket
        rw [run_singleton] at hrun'
        have hframe := (stepConnection_frame hrun').1
        exact hnone (hframe.trans hzero)
      · cases hrun
        refine ⟨?_, fun _ => hstate⟩
        rw [starts] at hzero ⊢
        simp only [List.length_append, List.length_singleton]
        omega
      · cases hrun
        exact hnone hzero

theorem oneStart_removeConnection (hcurrent : s.connection = some id → s.starts = 0)
    (hrun : s.removeConnection id errno = .ok s') : s'.OneStart := by
  obtain ⟨hid, hcases⟩ := removeConnection_cases hrun
  have hzero : (queueInLoop (.connectDestroyed id) { s with connection := none }).starts = 0 :=
    (starts_queueInLoop (by simp)).trans (hcurrent hid)
  rcases hcases with ⟨-, rfl⟩ | ⟨-, hfinish⟩
  · exact ⟨by omega, fun hpos => by omega⟩
  · exact oneStart_startInLoop hzero hfinish

theorem oneStart_step {input : Input} (hsingle : s.Single) (h : s.OneStart) (hidle : s.ConnectsWhenIdle input)
    (hstep : s.step input = .ok s') : s'.OneStart := by
  cases input with
  | connect inLoop errno =>
      have hzero : starts { s with connect_ := true, connector := s.connector.start } = 0 := starts_of_idle hidle
      cases inLoop with
      | true => exact oneStart_startInLoop hzero hstep
      | false =>
          cases hstep
          refine ⟨?_, fun _ => hidle.1⟩
          simp only [starts] at hzero
          simp only [starts, queueInLoop, List.count_append, List.count_singleton_self]
          omega
  | disconnect =>
      cases hstep
      rw [disconnect]
      split
      · exact h.congr rfl rfl
      · exact h.congr rfl rfl
  | stop =>
      cases hstep
      exact h.congr (starts_queueInLoop (by simp)) rfl
  | enableRetry =>
      cases hstep
      exact h.congr rfl rfl
  | timer index errno =>
      simp only [step] at hstep
      split_ifs at hstep with hlt
      refine oneStart_startInLoop ?_ hstep
      have hle := h.starts_le
      rw [starts] at hle ⊢
      simp only [List.length_eraseIdx_of_lt hlt]
      omega
  | functor errno =>
      simp only [step] at hstep
      split at hstep
      · rename_i functor rest hqueue
        have hstarts : s.starts = starts { s with pendingFunctors := rest } +
            if functor = .startInLoop then 1 else 0 := by
          simp only [starts, hqueue, List.count_cons, beq_iff_eq]
          omega
        cases functor with
        | startInLoop =>
            refine oneStart_startInLoop ?_ hstep
            have hle := h.starts_le
            rw [if_pos rfl] at hstarts
            omega
        | stopInLoop =>
            have h' : OneStart { s with pendingFunctors := rest } := h.congr (by simpa using hstarts.symm) rfl
            rw [runFunctor, UdpConnector.stopInLoop, if_neg hsingle.neverConnecting] at hstep
            cases hstep
            exact h'
        | resetChannel =>
            have h' : OneStart { s with pendingFunctors := rest } := h.congr (by simpa using hstarts.symm) rfl
            cases hstep
            exact h'.congr rfl rfl
        | connectDestroyed id =>
            obtain ⟨hsame, hconnector⟩ := stepConnection_frame hstep
            exact h.congr (hsame.trans (by simpa using hstarts.symm)) (by rw [hconnector])
      · cases hstep
  | connection id i errno =>
      simp only [step] at hstep
      split_ifs at hstep
      obtain ⟨c, -, ⟨-, rfl⟩ | ⟨-, hremove⟩⟩ := connectionInput_cases hstep
      · exact h.congr rfl rfl
      · refine oneStart_removeConnection ?_ hremove
        intro hid
        change s.starts = 0
        have hstate := (hsingle.current id hid).2
        by_contra hne
        have hdisconnected := h.disconnected (by omega)
        rw [hstate] at hdisconnected
        cases hdisconnected

theorem starts_pos (h : s.timers ≠ [] ∨ .startInLoop ∈ s.pendingFunctors) : 0 < s.starts := by
  rcases h with htimers | hmem
  · exact Nat.add_pos_left (List.length_pos_iff.mpr htimers) _
  · exact Nat.add_pos_right _ (List.count_pos_iff.mpr hmem)

theorem step_ne_connectorDisconnected {input : Input} (hsingle : s.Single) (h : s.OneStart)
    (hidle : s.ConnectsWhenIdle input) : s.step input ≠ .error (.assertFailed .connectorDisconnected) := by
  intro hstep
  rcases step_error hsingle.neverConnecting hstep with hinner | ⟨-, hstate, ⟨errno, rfl⟩ | hunder⟩ | ⟨id, i, errno, -, heq, -⟩
  · exact absurd hinner (by decide)
  · exact hstate hidle.1
  · exact hstate (h.disconnected (starts_pos hunder))
  · cases heq

/-! ### `connect` while the connector is idle, and while it is not -/

/-- A connection that has just been established: its first `Update` is running. -/
def opened (writeComplete : Bool) : UdpConnection :=
  UdpConnection.kcpSessionUpdate
    { UdpConnection.new writeComplete with
      state := .kConnected
      channel := { readEvent := true, writeEvent := false, index := .pollfd false, addedToLoop := true } }

/-- The client with a new connection. -/
def withOpened (s : UdpClient) : UdpClient :=
  { s with
    nextConnId := s.nextConnId + 1
    connection := some s.nextConnId
    conns := Function.update s.conns s.nextConnId (opened s.writeCompleteCallback) }

theorem newConnection_eq (s : UdpClient) : s.newConnection = .ok s.withOpened := by
  have hconn : s.construct.conns s.nextConnId = UdpConnection.new s.writeCompleteCallback := by simp [construct]
  have hopen : (UdpConnection.new s.writeCompleteCallback).step .connectEstablished =
      .ok (opened s.writeCompleteCallback) := rfl
  simp only [newConnection, stepConnection, hconn, hopen]
  simp [construct, withOpened]

/-- A start that succeeds. -/
theorem finish_connected {c : UdpConnector} (hstate : c.state = .kDisconnected) (hconnect : c.connect_ = true)
    (hout : errno.outcome = .connected) :
    s.finish (c.startInLoop errno) =
      .ok { s with connector := { c with state := .kConnected }, attempts := s.attempts + 1 }.withOpened := by
  have hstart : c.startInLoop errno = .ok ({ c with state := .kConnected }, [.socket, .newConnection]) := by
    simp [UdpConnector.startInLoop, hstate, hconnect, UdpConnector.connect, hout, UdpConnector.connected]
  rw [hstart]
  exact (run_singleton _ _).trans (newConnection_eq _)

/-- A connector that is disconnected is started at once by `connect` in the loop thread, and a
`connect(2)` that succeeds leaves it connected, whatever its timers. -/
theorem connect_starts (hstate : s.connector.state = .kDisconnected) (errno : Errno) :
    ∃ s', s.step (.connect true errno) = .ok s' ∧ s'.attempts = s.attempts + 1 ∧
      (errno.outcome = .connected → s'.connector.state = .kConnected ∧ s'.timers = s.timers) := by
  have hstart : s.connector.start.startInLoop errno = .ok (s.connector.start.connect errno) := by
    simp [UdpConnector.startInLoop, UdpConnector.start, hstate]
  simp only [step, connect, if_true, hstart, UdpConnector.connect]
  cases errno.outcome with
  | connected => exact ⟨_, (run_singleton _ _).trans (newConnection_eq _), rfl, fun _ => ⟨rfl, rfl⟩⟩
  | retry => exact ⟨_, rfl, rfl, by simp⟩
  | failed => exact ⟨_, rfl, rfl, by simp⟩

/-- A `connect` in the loop thread on a connector that is not disconnected, or that has a retry timer,
fails the assert: at once, or when the timer expires after a success. -/
theorem connect_fails_assert (hbusy : s.connector.state ≠ .kDisconnected ∨ s.timers ≠ []) :
    ∃ more, run step s (.connect true .ok :: more) = .error (.assertFailed .connectorDisconnected) := by
  by_cases hstate : s.connector.state = .kDisconnected
  · obtain ⟨s', hconnect, -, hconnected⟩ := connect_starts hstate .ok
    obtain ⟨hstate', htimers⟩ := hconnected rfl
    have hlt : 0 < s'.timers.length := by
      rw [htimers]
      exact List.length_pos_iff.mpr (hbusy.resolve_left (not_not.mpr hstate))
    refine ⟨[.timer 0 .ok], ?_⟩
    rw [run_cons hconnect, run_singleton]
    simp [step, hlt, UdpConnector.startInLoop, hstate', finish]
  · refine ⟨[], ?_⟩
    rw [run_singleton]
    simp [step, connect, UdpConnector.startInLoop, UdpConnector.start, hstate, finish]

/-- **When the connector can be started.** In every run in which `connect` is only called while the
connector is idle, the assert of `startInLoop` never fails, there is at most one retry timer, and a
`connect` on the idle connector, also after a `stop`, makes a new attempt. On a connector that is not
disconnected or has a retry timer `connect` can fail the assert. -/
theorem startInLoop_when_idle (writeComplete : Bool) (inputs : List Input)
    (hidle : Along step ConnectsWhenIdle (new writeComplete) inputs) :
    run step (new writeComplete) inputs ≠ .error (.assertFailed .connectorDisconnected) ∧
      ∀ s, Run writeComplete inputs s → s.timers.length ≤ 1 ∧
        (s.Idle → ∀ errno, ∃ s', s.step (.connect true errno) = .ok s' ∧ s'.attempts = s.attempts + 1) ∧
        (s.connector.state ≠ .kDisconnected ∨ s.timers ≠ [] →
          ∃ more, run step s (.connect true .ok :: more) = .error (.assertFailed .connectorDisconnected)) := by
  have hstart : (new writeComplete).Single ∧ (new writeComplete).OneStart :=
    ⟨single_new writeComplete, ⟨Nat.zero_le 1, fun _ => rfl⟩⟩
  have hstep : ∀ (s : UdpClient) input s', s.Single ∧ s.OneStart → s.ConnectsWhenIdle input →
      s.step input = .ok s' → s'.Single ∧ s'.OneStart := by
    intro s input s' hinv hwhen hstep
    exact ⟨single_step hinv.1 hstep, oneStart_step hinv.1 hinv.2 hwhen hstep⟩
  constructor
  · refine run_ne_error_along (fun s => s.Single ∧ s.OneStart) hstep ?_ hstart hidle
    intro s input hinv hwhen
    exact step_ne_connectorDisconnected hinv.1 hinv.2 hwhen
  · intro s hrun
    obtain ⟨-, hone⟩ := run_invariant_along hstep hstart hidle hrun
    have hle := hone.starts_le
    rw [starts] at hle
    refine ⟨by omega, ?_, connect_fails_assert⟩
    intro hidle' errno
    obtain ⟨s', hconnect, hattempts, -⟩ := connect_starts hidle'.1 errno
    exact ⟨s', hconnect, hattempts⟩

/-- A connection that has closed, without retry, and a second `connect`. -/
def connectAfterClose : List Input :=
  [.connect true .ok, .connection 1 (.updateReturns (-1)) .ok, .connection 1 .userReturns .ok,
    .connection 1 .proceed .ok, .connection 1 .userReturns .ok, .functor .ok, .connection 1 .proceed .ok,
    .connect true .ok]

theorem connect_after_close_fails :
    ¬∀ (writeComplete : Bool) (inputs : List Input),
      run step (new writeComplete) inputs ≠ .error (.assertFailed .connectorDisconnected) ∧
        ∀ s, Run writeComplete inputs s → s.timers.length ≤ 1 := by
  intro h
  exact (h false connectAfterClose).1 rfl

/-- A `connect` that is to be retried, stopped before the timer expires, and a second `connect`. -/
def connectAfterStop : List Input :=
  [.connect true .EAGAIN, .stop, .functor .ok, .timer 0 .ok, .connect true .ok]

theorem connect_after_stop :
    ∃ s, Run false connectAfterStop s ∧ s.attempts = 2 ∧ s.timers.length ≤ 1 ∧
      run step (new false) connectAfterStop ≠ .error (.assertFailed .connectorDisconnected) := by
  obtain ⟨s, hrun, hattempts⟩ : ∃ s, Run false connectAfterStop s ∧ s.attempts = 2 := ⟨_, rfl, by decide⟩
  obtain ⟨hassert, hone⟩ := startInLoop_when_idle false connectAfterStop (by decide)
  exact ⟨s, hrun, hattempts, (hone s hrun).1, hassert⟩

end Realtinet.UdpClient
