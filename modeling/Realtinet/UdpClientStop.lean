import Realtinet.UdpClientStart

/-! What `stop` and `disconnect` prevent. There are two flags `connect_`: the client's, which `removeConnection` looks
at before it restarts the connector, and the connector's, which `startInLoop` looks at. `stop` clears both; `disconnect`
clears the client's and leaves a start that is under way, a queued `startInLoop` or a retry timer, to go on. -/

namespace Realtinet.UdpClient

open TransitionSystem

/-- What an input makes the connector do, if anything. -/
def connectorCall (s : UdpClient) : Input → Option (Except Halt (UdpConnector × List ConnectorEffect))
  | .connect true errno => some (s.connector.start.startInLoop errno)
  | .timer index errno => if index < s.timers.length then some (s.connector.startInLoop errno) else none
  | .functor errno =>
      match s.pendingFunctors with
      | .startInLoop :: _ => some (s.connector.startInLoop errno)
      | .stopInLoop :: _ => some s.connector.stopInLoop
      | _ => none
  | .connection id i errno =>
      if s.Created id ∧ (s.conns id).callsClose i ∧ s.connection = some id ∧ s.retry ∧ s.connect_ then
        some (s.connector.restart errno)
      else none
  | _ => none

/-- `newConnectionCallback_` is called by a function of the connector. -/
def handsOver : Except Halt (UdpConnector × List ConnectorEffect) → Bool
  | .ok (_, effects) => effects.contains .newConnection
  | .error _ => false

/-- The input makes the connector call `newConnectionCallback_`. -/
def callsNewConnection (s : UdpClient) (i : Input) : Bool := (s.connectorCall i).elim false handsOver

/-- The connector does not connect of itself: its flag is clear, or it is connected already, or no start is under
way. -/
def Quiet (s : UdpClient) : Prop :=
  s.connector.connect_ = false ∨ s.connector.state ≠ .kDisconnected ∨ s.starts = 0

instance quietDecidable (s : UdpClient) : Decidable s.Quiet :=
  inferInstanceAs (Decidable (_ ∨ _ ∨ _))

/-- The client does not restart the connector, and the connector does not connect of itself. -/
def Abandoned (s : UdpClient) : Prop := s.connect_ = false ∧ s.Quiet

def Input.isConnect : Input → Bool
  | .connect _ _ => true
  | _ => false

variable {s s' : UdpClient} {id : Nat} {i : UdpConnection.Input} {errno : Errno} {input : Input}

theorem Abandoned.congr (h : s.Abandoned) (hconnect : s'.connect_ = s.connect_)
    (hflag : s'.connector.connect_ = s.connector.connect_) (hstate : s'.connector.state = s.connector.state)
    (hstarts : s'.starts ≤ s.starts) : s'.Abandoned := by
  refine ⟨hconnect.trans h.1, ?_⟩
  unfold Quiet
  rw [hflag, hstate]
  exact h.2.imp_right (Or.imp_right fun hzero => by omega)

/-- A start that is under way does nothing, or fails its assert. -/
theorem Abandoned.quiet (h : s.Abandoned) (hstarts : 0 < s.starts) :
    s.connector.connect_ = false ∨ s.connector.state ≠ .kDisconnected :=
  h.2.imp_right fun hor => hor.resolve_right (by omega)

theorem startInLoop_of_quiet {c : UdpConnector} (hquiet : c.connect_ = false ∨ c.state ≠ .kDisconnected) :
    c.startInLoop errno = .ok (c, []) ∨ c.startInLoop errno = .error (.assertFailed .connectorDisconnected) := by
  unfold UdpConnector.startInLoop
  split_ifs with hstate hconnect
  · rcases hquiet with hflag | hne
    · rw [hconnect] at hflag
      cases hflag
    · exact absurd hstate hne
  · exact Or.inl rfl
  · exact Or.inr rfl

theorem finish_of_quiet {c : UdpConnector} (hquiet : c.connect_ = false ∨ c.state ≠ .kDisconnected)
    (hrun : s.finish (c.startInLoop errno) = .ok s') : s' = { s with connector := c } := by
  rcases startInLoop_of_quiet hquiet with hstart | hstart
  · rw [hstart] at hrun
    cases hrun
    rfl
  · rw [hstart] at hrun
    cases hrun

theorem starts_pos_of_head {rest : List Functor} (hqueue : s.pendingFunctors = .startInLoop :: rest) : 0 < s.starts :=
  starts_pos (Or.inr (by simp [hqueue]))

theorem starts_pos_of_lt {index : Nat} (hlt : index < s.timers.length) : 0 < s.starts :=
  starts_pos (Or.inl (List.length_pos_iff.mp (by omega)))

/-- Without a `connect` nothing reaches `newConnectionCallback_`. -/
theorem callsNewConnection_of_abandoned (h : s.Abandoned) (hnever : s.connector.state ≠ .kConnecting)
    (hinput : input.isConnect = false) : s.callsNewConnection input = false := by
  have hstart : 0 < s.starts → ∀ errno, handsOver (s.connector.startInLoop errno) = false := by
    intro hpos errno
    rcases startInLoop_of_quiet (h.quiet hpos) with hstart | hstart <;> rw [hstart] <;> rfl
  unfold callsNewConnection connectorCall
  cases input with
  | connect inLoop errno => cases hinput
  | timer index errno =>
      simp only
      split_ifs with hlt
      · exact hstart (starts_pos_of_lt hlt) errno
      · rfl
  | functor errno =>
      rcases hqueue : s.pendingFunctors with _ | ⟨functor, rest⟩
      · rfl
      · cases functor with
        | startInLoop => exact hstart (starts_pos_of_head hqueue) errno
        | stopInLoop =>
            rw [UdpConnector.stopInLoop, if_neg hnever]
            rfl
        | resetChannel => rfl
        | connectDestroyed id => rfl
  | connection id i errno =>
      simp only
      rw [if_neg (by simp [h.1])]
      rfl
  | disconnect => rfl
  | stop => rfl
  | enableRetry => rfl

/-- No connection is made, and `connection_` is at most given up. -/
structure MakesNoConnection (s s' : UdpClient) : Prop where
  nextConnId : s'.nextConnId = s.nextConnId
  connection : s'.connection = s.connection ∨ s'.connection = none

theorem abandoned_runFunctor {functor : Functor} {rest : List Functor} (h : s.Abandoned)
    (hnever : s.connector.state ≠ .kConnecting) (hqueue : s.pendingFunctors = functor :: rest)
    (hrun : { s with pendingFunctors := rest }.runFunctor functor errno = .ok s') :
    s'.Abandoned ∧ MakesNoConnection s s' := by
  have hstarts : starts { s with pendingFunctors := rest } ≤ s.starts := by
    simp only [starts, hqueue, List.count_cons]
    omega
  cases functor with
  | startInLoop =>
      rw [finish_of_quiet (h.quiet (starts_pos_of_head hqueue)) hrun]
      exact ⟨h.congr rfl rfl rfl hstarts, rfl, Or.inl rfl⟩
  | stopInLoop =>
      rw [runFunctor, UdpConnector.stopInLoop, if_neg hnever] at hrun
      cases hrun
      exact ⟨h.congr rfl rfl rfl hstarts, rfl, Or.inl rfl⟩
  | resetChannel =>
      cases hrun
      exact ⟨h.congr rfl rfl rfl hstarts, rfl, Or.inl rfl⟩
  | connectDestroyed id =>
      obtain ⟨c, -, rfl⟩ := stepConnection_eq_ok hrun
      exact ⟨h.congr rfl rfl rfl hstarts, rfl, Or.inl rfl⟩

theorem abandoned_step (hsingle : s.Single) (h : s.Abandoned) (hinput : input.isConnect = false)
    (hstep : s.step input = .ok s') : s'.Abandoned ∧ MakesNoConnection s s' := by
  cases input with
  | connect inLoop errno => cases hinput
  | disconnect =>
      cases hstep
      rw [disconnect]
      split
      · exact ⟨h.congr h.1.symm rfl rfl (Nat.le_refl _), rfl, Or.inl rfl⟩
      · exact ⟨h.congr h.1.symm rfl rfl (Nat.le_refl _), rfl, Or.inl rfl⟩
  | stop =>
      cases hstep
      exact ⟨⟨rfl, Or.inl rfl⟩, rfl, Or.inl rfl⟩
  | enableRetry =>
      cases hstep
      exact ⟨h.congr rfl rfl rfl (Nat.le_refl _), rfl, Or.inl rfl⟩
  | timer index errno =>
      simp only [step] at hstep
      split_ifs at hstep with hlt
      rw [finish_of_quiet (h.quiet (starts_pos_of_lt hlt)) hstep]
      refine ⟨h.congr rfl rfl rfl ?_, rfl, Or.inl rfl⟩
      simp only [starts, List.length_eraseIdx_of_lt hlt]
      omega
  | functor errno =>
      simp only [step] at hstep
      split at hstep
      · rename_i functor rest hqueue
        exact abandoned_runFunctor h hsingle.neverConnecting hqueue hstep
      · cases hstep
  | connection id i errno =>
      simp only [step] at hstep
      split_ifs at hstep
      obtain ⟨c, -, ⟨-, rfl⟩ | ⟨-, hremove⟩⟩ := connectionInput_cases hstep
      · exact ⟨h.congr rfl rfl rfl (Nat.le_refl _), rfl, Or.inl rfl⟩
      · obtain ⟨-, ⟨-, rfl⟩ | ⟨hagain, -⟩⟩ := removeConnection_cases hremove
        · refine ⟨h.congr rfl rfl rfl ?_, rfl, Or.inr rfl⟩
          exact Nat.le_of_eq (starts_queueInLoop (by simp))
        · have hconnect : s.connect_ = true := (Bool.and_eq_true_iff.mp hagain).2
          rw [h.1] at hconnect
          cases hconnect

/-! ### Whole continuations -/

/-- The input does not make the connector call `newConnectionCallback_`. -/
def NoNewConnection (s : UdpClient) (input : Input) : Prop := s.callsNewConnection input = false

instance noNewConnectionDecidable (s : UdpClient) (input : Input) : Decidable (s.NoNewConnection input) :=
  inferInstanceAs (Decidable (s.callsNewConnection input = false))

/-- `connection()` does not change from null to non-null. -/
def NoConnectionAppears (s : UdpClient) (input : Input) : Prop :=
  ∀ s', s.step input = .ok s' → s.connection = none → s'.connection = none

/-- What a client that has been abandoned does until the next `connect`. -/
theorem abandoned_run {later : List Input} (hsingle : s.Single) (h : s.Abandoned)
    (hlater : ∀ input ∈ later, input.isConnect = false) :
    Along step (fun s input => s.NoNewConnection input ∧ s.NoConnectionAppears input) s later ∧
      ∀ t, run step s later = .ok t → t.nextConnId = s.nextConnId := by
  induction later generalizing s with
  | nil =>
      refine ⟨trivial, fun t hrun => ?_⟩
      cases hrun
      rfl
  | cons input later ih =>
      have hinput := hlater input List.mem_cons_self
      have hrest : ∀ input ∈ later, input.isConnect = false := fun j hj => hlater j (List.mem_cons_of_mem _ hj)
      constructor
      · refine ⟨⟨callsNewConnection_of_abandoned h hsingle.neverConnecting hinput, ?_⟩, ?_⟩
        · intro s' hstep hnone
          rcases (abandoned_step hsingle h hinput hstep).2.connection with hsame | hgone
          · rw [hsame, hnone]
          · exact hgone
        · intro s' hstep
          exact (ih (single_step hsingle hstep) (abandoned_step hsingle h hinput hstep).1 hrest).1
      · intro t hrun
        obtain ⟨s', hstep, hrun'⟩ := run_cons_eq_ok.mp hrun
        obtain ⟨hnext, hmakes⟩ := abandoned_step hsingle h hinput hstep
        rw [(ih (single_step hsingle hstep) hnext hrest).2 t hrun', hmakes.nextConnId]

theorem single_run {writeComplete : Bool} {inputs : List Input} (hrun : Run writeComplete inputs s) : s.Single :=
  run_invariant (fun _ _ _ => single_step) (single_new writeComplete) hrun

/-- What `disconnect` leaves as it is. -/
structure DisconnectFrame (s s' : UdpClient) : Prop where
  connect_ : s'.connect_ = false
  connector : s'.connector = s.connector
  timers : s'.timers = s.timers
  starts : s'.starts = s.starts
  connection : s'.connection = s.connection
  nextConnId : s'.nextConnId = s.nextConnId

theorem disconnect_frame (s : UdpClient) : DisconnectFrame s s.disconnect := by
  unfold disconnect
  split
  · exact ⟨rfl, rfl, rfl, rfl, rfl, rfl⟩
  · exact ⟨rfl, rfl, rfl, rfl, rfl, rfl⟩

/-- **`stop` is final.** From any reachable state, whatever follows a `stop` without a further `connect` never calls
`newConnectionCallback_` and makes no connection. -/
theorem stop_is_final (writeComplete : Bool) (inputs : List Input) (s : UdpClient)
    (hrun : Run writeComplete inputs s) (later : List Input) (hlater : ∀ input ∈ later, input.isConnect = false) :
    Along step NoNewConnection s (.stop :: later) ∧
      ∀ t, run step s (.stop :: later) = .ok t → t.nextConnId = s.nextConnId := by
  have hstop : s.step .stop = .ok s.stop := rfl
  have habandoned : s.stop.Abandoned := ⟨rfl, Or.inl rfl⟩
  obtain ⟨halong, hnext⟩ := abandoned_run (single_step (single_run hrun) hstop) habandoned hlater
  refine ⟨⟨rfl, ?_⟩, ?_⟩
  · intro s' hs'
    cases hs'
    exact along_mono (fun _ _ hboth => hboth.1) halong
  · intro t ht
    rw [run_cons hstop] at ht
    exact hnext t ht

/-- A client with a retry timer armed and a start queued; a `stop` makes both come too late. -/
def stoppedWhileRetrying : List Input := [.enableRetry, .connect true .EAGAIN, .connect false .ok]

theorem stop_is_final_stoppedWhileRetrying :
    ∃ s t, Run false stoppedWhileRetrying s ∧ s.timers.length = 1 ∧
      run step s [.stop, .functor .ok, .timer 0 .ok, .functor .ok] = .ok t ∧ t.nextConnId = 1 := by
  obtain ⟨s, hrun, htimers⟩ : ∃ s, Run false stoppedWhileRetrying s ∧ s.timers.length = 1 := ⟨_, rfl, by decide⟩
  cases hrun
  exact ⟨_, _, rfl, htimers, rfl,
    (stop_is_final false stoppedWhileRetrying _ rfl [.functor .ok, .timer 0 .ok, .functor .ok] (by decide)).2 _ rfl⟩

/-- **When `disconnect` prevents new connections.** From any reachable state in which the connector is quiet (its flag
is clear, or it is connected, or no start of it is under way), whatever follows a `disconnect` without a further
`connect` makes no connection, and `connection()` does not become non-null. With the flag set on a disconnected
connector that has a retry timer, the timer makes one. -/
theorem disconnect_prevents_connections (writeComplete : Bool) (inputs : List Input) (s : UdpClient)
    (hrun : Run writeComplete inputs s) :
    (s.Quiet → ∀ later : List Input, (∀ input ∈ later, input.isConnect = false) →
      Along step (fun s input => s.NoNewConnection input ∧ s.NoConnectionAppears input) s (.disconnect :: later) ∧
        ∀ t, run step s (.disconnect :: later) = .ok t → t.nextConnId = s.nextConnId) ∧
      (s.connector.connect_ = true → s.connector.state = .kDisconnected → s.timers ≠ [] →
        ∃ t, run step s [.disconnect, .timer 0 .ok] = .ok t ∧ t.nextConnId = s.nextConnId + 1) := by
  have hdisconnect : s.step .disconnect = .ok s.disconnect := rfl
  have hframe := disconnect_frame s
  constructor
  · intro hquiet later hlater
    have habandoned : s.disconnect.Abandoned := by
      refine ⟨hframe.connect_, ?_⟩
      rw [Quiet, hframe.connector, hframe.starts]
      exact hquiet
    obtain ⟨halong, hnext⟩ := abandoned_run (single_step (single_run hrun) hdisconnect) habandoned hlater
    refine ⟨⟨⟨rfl, ?_⟩, ?_⟩, ?_⟩
    · intro s' hs' hnone
      cases hs'
      rw [hframe.connection, hnone]
    · intro s' hs'
      cases hs'
      exact halong
    · intro t ht
      rw [run_cons hdisconnect] at ht
      rw [hnext t ht, hframe.nextConnId]
  · intro hflag hstate htimers
    have hlt : 0 < s.disconnect.timers.length := by
      rw [hframe.timers]
      exact List.length_pos_iff.mpr htimers
    have hstep : s.disconnect.step (.timer 0 .ok) =
        finish (s.disconnect.connector.startInLoop .ok)
          { s.disconnect with timers := s.disconnect.timers.eraseIdx 0 } := if_pos hlt
    rw [← hframe.connector] at hstate hflag
    rw [finish_connected hstate hflag rfl] at hstep
    refine ⟨_, (run_cons hdisconnect).trans ((run_singleton _ _).trans hstep), ?_⟩
    simp [withOpened, hframe.nextConnId]

/-- A client that has found its server is told to disconnect, and the connection closes. -/
def connectedClient : List Input := [.enableRetry, .connect true .ok, .connection 1 (.updateReturns 10) .ok]

def closedAfterDisconnect : List Input :=
  [.connection 1 (.timer 0) .ok, .connection 1 (.updateReturns (-1)) .ok, .connection 1 .userReturns .ok,
    .connection 1 .proceed .ok]

theorem disconnect_prevents_reconnection :
    ∃ s t, Run false connectedClient s ∧ run step s (.disconnect :: closedAfterDisconnect) = .ok t ∧
      t.nextConnId = 2 :=
  ⟨_, _, rfl, rfl, ((disconnect_prevents_connections false connectedClient _ rfl).1 (by decide) closedAfterDisconnect
    (by decide)).2 _ rfl⟩

/-- A client is told to disconnect while it is still trying to connect, and its retry timer connects it. -/
theorem connection_after_disconnect :
    ¬∀ (writeComplete : Bool) (inputs : List Input) (s : UdpClient), Run writeComplete inputs s →
      ∀ later : List Input, (∀ input ∈ later, input.isConnect = false) →
        Along step (fun s input => s.NoNewConnection input ∧ s.NoConnectionAppears input) s (.disconnect :: later) ∧
          ∀ t, run step s (.disconnect :: later) = .ok t → t.nextConnId = s.nextConnId := by
  intro h
  have hnext := (h false [.connect true .ECONNREFUSED] _ rfl [.timer 0 .ok] (by decide)).2 _ rfl
  exact absurd hnext (by decide)

end Realtinet.UdpClient
