import Realtinet.UdpClientStop
import Realtinet.UdpConnectionOpening

/-! How deep the calls of a reconnecting client nest. `removeConnection` restarts the connector before it returns, the
connector hands a new socket to `newConnection` before `restart` returns, and `connectEstablished` calls the first
`Update` of the session. If this `Update` fails, the new connection closes at once and `removeConnection` is called again
inside the first call of it. Here the loop thread of the client has its calls in progress on one stack: only the
innermost one goes on, and the event loop goes on when there is none. -/

namespace Realtinet

open TransitionSystem

namespace UdpClient

variable {s s' : UdpClient} {id : Nat} {i : UdpConnection.Input} {errno : Errno}

/-- A start of the connector makes at most one connection, whose first `Update` is then running. -/
theorem finish_startInLoop_cases {c : UdpConnector} (hrun : s.finish (c.startInLoop errno) = .ok s') :
    s'.nextConnId = s.nextConnId ∧ s'.connection = s.connection ∧ s'.conns = s.conns ∨
      s'.nextConnId = s.nextConnId + 1 ∧ s'.connection = some s.nextConnId ∧
        s'.conns = Function.update s.conns s.nextConnId (opened s.writeCompleteCallback) := by
  cases hstart : c.startInLoop errno with
  | error e => simp [hstart, finish] at hrun
  | ok result =>
      obtain ⟨c', effects⟩ := result
      obtain ⟨hstate, hcases⟩ := UdpConnector.startInLoop_cases hstart
      rcases hcases with ⟨-, -, rfl⟩ | ⟨hconnect, hout, -, -⟩ | ⟨-, -, -, -, rfl⟩ | ⟨-, -, -, rfl⟩
      · rw [hstart] at hrun
        cases hrun
        exact Or.inl ⟨rfl, rfl, rfl⟩
      · rw [finish_connected hstate hconnect hout] at hrun
        cases hrun
        exact Or.inr ⟨rfl, rfl, rfl⟩
      · rw [hstart] at hrun
        cases hrun
        exact Or.inl ⟨rfl, rfl, rfl⟩
      · rw [hstart] at hrun
        cases hrun
        exact Or.inl ⟨rfl, rfl, rfl⟩

/-- So does `removeConnection`. -/
theorem removeConnection_opens (hrun : s.removeConnection id errno = .ok s') :
    s'.nextConnId = s.nextConnId ∧ s'.conns = s.conns ∨
      s'.nextConnId = s.nextConnId + 1 ∧ s'.connection = some s.nextConnId ∧
        s'.conns = Function.update s.conns s.nextConnId (opened s.writeCompleteCallback) := by
  obtain ⟨-, ⟨-, rfl⟩ | ⟨-, hfinish⟩⟩ := removeConnection_cases hrun
  · exact Or.inl ⟨rfl, rfl⟩
  · rcases finish_startInLoop_cases hfinish with ⟨hnext, -, hconns⟩ | hopened
    · exact Or.inl ⟨hnext, hconns⟩
    · exact Or.inr hopened

theorem opening_opened (writeComplete : Bool) : (opened writeComplete).Opening := ⟨.running, rfl⟩

theorem connectionInput_of_step (h : s.step (.connection id i errno) = .ok s') :
    s.Created id ∧ i ≠ .connectDestroyed ∧ s.connectionInput id i errno = .ok s' := by
  rw [step] at h
  split_ifs at h with henabled
  exact ⟨henabled.1, henabled.2.2, h⟩

/-- A connection that is not `connection_` is down. -/
theorem Single.down (h : s.Single) (hcreated : s.Created id) (hne : s.connection ≠ some id) :
    (s.conns id).state = .kDisconnected := by
  apply UdpConnection.disconnected_of_closed (h.closedDown id hcreated)
  by_contra hopen
  exact hne (h.unclosed id hcreated hopen)

end UdpClient

/-! ### The loop thread -/

/-- A call in progress that belongs to a connection; `removal` tells whether it is the call of `closeCallback_`, that is
of `removeConnection`. -/
structure Call where
  conn : Nat
  removal : Bool
  deriving DecidableEq, Repr

/-- The client and the calls in progress in its loop thread, innermost first. -/
structure ClientThread where
  client : UdpClient
  calls : List Call

namespace ClientThread

def new (writeCompleteCallback : Bool) : ClientThread := ⟨UdpClient.new writeCompleteCallback, []⟩

/-- The activations of `removeConnection` that are nested in each other. -/
def depth (t : ClientThread) : Nat := t.calls.countP Call.removal

/-- User code holds the loop thread. -/
def userTurn (t : ClientThread) : Bool :=
  match t.calls with
  | [] => true
  | call :: _ => !call.removal && (t.client.conns call.conn).stack.head? == some .user

/-- Whether an input of a connection can come now. -/
def connectionTurn (t : ClientThread) (id : Nat) (i : UdpConnection.Input) : Bool :=
  match UdpConnection.source i with
  | .eventLoop => t.calls.isEmpty
  | .userCode => t.userTurn
  | .otherThread => true
  | .innermostCall => t.calls.head?.map Call.conn == some id

/-- The functions of the client that may be called from any thread at any time. A `connect` in the loop thread is made by
user code that holds it. -/
def fromAnyThread : UdpClient.Input → Bool
  | .connect false _ | .disconnect | .stop | .enableRetry => true
  | _ => false

def turn (t : ClientThread) : UdpClient.Input → Bool
  | .connect true _ => t.userTurn
  | .connect false _ | .disconnect | .stop | .enableRetry => true
  | .timer _ _ | .functor _ => t.calls.isEmpty
  | .connection id i _ => t.connectionTurn id i

/-- The connection in which an input makes or ends calls, a new one apart. -/
def subject (s : UdpClient) : UdpClient.Input → Option Nat
  | .connection id _ _ => some id
  | .functor _ =>
      match s.pendingFunctors with
      | .connectDestroyed id :: _ => some id
      | _ => none
  | _ => none

/-- The calls after the calls of a connection have become more or fewer. -/
def adjust (id before after : Nat) (calls : List Call) : List Call :=
  List.replicate (after - before) ⟨id, false⟩ ++ calls.drop (before - after)

def adjustSubject (s s' : UdpClient) (input : UdpClient.Input) (calls : List Call) : List Call :=
  match subject s input with
  | some id => adjust id (s.conns id).stack.length (s'.conns id).stack.length calls
  | none => calls

/-- The input is the call of `closeCallback_`. -/
def callsRemove (s : UdpClient) : UdpClient.Input → Bool
  | .connection id i _ => (s.conns id).callsClose i
  | _ => false

/-- The innermost call is one of `removeConnection`. -/
def markRemoval : List Call → List Call
  | [] => []
  | call :: rest => { call with removal := true } :: rest

/-- The calls in progress after an input that takes the client from `s` to `s'`: a new connection is in its first
`Update`, inside whatever made it. -/
def callsAfter (s s' : UdpClient) (input : UdpClient.Input) (calls : List Call) : List Call :=
  let calls := adjustSubject s s' input calls
  let calls := if callsRemove s input then markRemoval calls else calls
  if s.nextConnId < s'.nextConnId then ⟨s.nextConnId, false⟩ :: calls else calls

def step (t : ClientThread) (input : UdpClient.Input) : Except Halt ClientThread :=
  if t.turn input then
    match t.client.step input with
    | .ok s' => .ok ⟨s', callsAfter t.client s' input t.calls⟩
    | .error e => .error e
  else .error .notEnabled

variable {t t' : ClientThread} {input : UdpClient.Input} {id : Nat} {i : UdpConnection.Input} {errno : Errno}

theorem step_eq_ok (h : t.step input = .ok t') :
    t.turn input = true ∧ t.client.step input = .ok t'.client ∧
      t'.calls = callsAfter t.client t'.client input t.calls := by
  rw [step] at h
  split_ifs at h with hturn
  cases hstep : t.client.step input with
  | error e => simp [hstep] at h
  | ok s' =>
      rw [hstep] at h
      cases h
      exact ⟨hturn, rfl, rfl⟩

/-- The client runs as before; the thread only has the order in which its calls go on. -/
theorem client_run {writeComplete : Bool} {inputs : List UdpClient.Input}
    (hrun : run step (new writeComplete) inputs = .ok t) : UdpClient.Run writeComplete inputs t.client :=
  run_view client (fun _ _ _ hstep => (step_eq_ok hstep).2.1) hrun

/-- The calls of a connection on top of those that are in progress. -/
theorem adjust_replicate {before : Nat} (after : Nat) (rest : List Call) :
    adjust id before after (List.replicate before ⟨id, false⟩ ++ rest) = List.replicate after ⟨id, false⟩ ++ rest := by
  rw [adjust]
  rcases Nat.le_total before after with hle | hle
  · rw [Nat.sub_eq_zero_of_le hle, List.drop_zero, ← List.append_assoc, List.replicate_append_replicate,
      Nat.sub_add_cancel hle]
  · have hdrop : before - after ≤ (List.replicate before (⟨id, false⟩ : Call)).length := by
      rw [List.length_replicate]
      exact Nat.sub_le _ _
    rw [Nat.sub_eq_zero_of_le hle, List.replicate_zero, List.nil_append, List.drop_append_of_le_length hdrop,
      List.drop_replicate, Nat.sub_sub_self hle]

@[simp]
theorem adjust_self {before : Nat} (calls : List Call) : adjust id before before calls = calls := by
  simp [adjust]

/-! ### How the calls nest -/

/-- No session that `removeConnection` has opened fails before its first `Update` has returned. -/
def OpenedBeforeClosed (t : ClientThread) : UdpClient.Input → Prop
  | .connection id i _ =>
      0 < t.depth → (t.client.conns id).curKcpsessUpTimerId = none → (t.client.conns id).entersClose i = false
  | _ => True

instance openedBeforeClosedDecidable (t : ClientThread) : ∀ input, Decidable (t.OpenedBeforeClosed input)
  | .connection id i _ =>
      inferInstanceAs (Decidable (0 < t.depth → (t.client.conns id).curKcpsessUpTimerId = none →
        (t.client.conns id).entersClose i = false))
  | .connect _ _ | .disconnect | .stop | .enableRetry | .timer _ _ | .functor _ => .isTrue trivial

/-- No `removeConnection` is in progress; or the innermost call is one; or inside it, alone, the first `Update` of the
connection it has opened. -/
inductive Nesting (t : ClientThread) : Prop
  | flat (hflat : ∀ call ∈ t.calls, call.removal = false)
  | removing (removed : Nat) (rest : List Call) (hcalls : t.calls = ⟨removed, true⟩ :: rest)
      (hrest : ∀ call ∈ rest, call.removal = false)
      (huser : (t.client.conns removed).stack.head? = some .user)
  | opening (removed opened : Nat) (rest : List Call)
      (hcalls : t.calls =
        List.replicate (t.client.conns opened).stack.length ⟨opened, false⟩ ++ ⟨removed, true⟩ :: rest)
      (hrest : ∀ call ∈ rest, call.removal = false)
      (huser : (t.client.conns removed).stack.head? = some .user) (hne : removed ≠ opened)
      (hcurrent : t.client.connection = some opened) (hopening : (t.client.conns opened).Opening)

theorem countP_removal_eq_zero {calls : List Call} (h : ∀ call ∈ calls, call.removal = false) :
    calls.countP Call.removal = 0 := by
  rw [List.countP_eq_zero]
  intro call hmem
  simp [h call hmem]

theorem Nesting.depth_le (h : t.Nesting) : t.depth ≤ 1 := by
  rw [depth]
  cases h with
  | flat hflat =>
      rw [countP_removal_eq_zero hflat]
      exact Nat.zero_le 1
  | removing removed rest hcalls hrest huser =>
      apply Nat.le_of_eq
      rw [hcalls, List.countP_cons_of_pos rfl, countP_removal_eq_zero hrest]
  | opening removed opened rest hcalls hrest huser hne hcurrent hopening =>
      have hfirst : ∀ call ∈ List.replicate (t.client.conns opened).stack.length (⟨opened, false⟩ : Call),
          call.removal = false := by
        intro call hmem
        rw [List.eq_of_mem_replicate hmem]
      apply Nat.le_of_eq
      rw [hcalls, List.countP_append, countP_removal_eq_zero hfirst, List.countP_cons_of_pos rfl,
        countP_removal_eq_zero hrest]

/-- The client as the nesting sees it. -/
structure SameCalls (s s' : UdpClient) : Prop where
  nextConnId : s'.nextConnId = s.nextConnId
  connection : s'.connection = s.connection
  stack : ∀ id, (s'.conns id).stack = (s.conns id).stack
  timer : ∀ id, (s'.conns id).curKcpsessUpTimerId = (s.conns id).curKcpsessUpTimerId

/-- A connection whose calls in progress stay as they are. -/
theorem sameCalls_update {s : UdpClient} {c : UdpConnection} (hstack : c.stack = (s.conns id).stack)
    (htimer : c.curKcpsessUpTimerId = (s.conns id).curKcpsessUpTimerId) (connect_ : Bool) :
    SameCalls s { s with connect_ := connect_, conns := Function.update s.conns id c } := by
  refine ⟨rfl, rfl, ?_, ?_⟩
  · apply (Function.forall_update_iff s.conns fun id c => c.stack = (s.conns id).stack).mpr
    exact ⟨hstack, fun _ _ => rfl⟩
  · apply (Function.forall_update_iff s.conns fun id c =>
      c.curKcpsessUpTimerId = (s.conns id).curKcpsessUpTimerId).mpr
    exact ⟨htimer, fun _ _ => rfl⟩

theorem Nesting.congr (h : t.Nesting) (hcalls' : t'.calls = t.calls) (hsame : SameCalls t.client t'.client) :
    t'.Nesting := by
  cases h with
  | flat hflat =>
      refine .flat ?_
      rwa [hcalls']
  | removing removed rest hcalls hrest huser =>
      refine .removing removed rest (hcalls'.trans hcalls) hrest ?_
      rwa [hsame.stack]
  | opening removed opened rest hcalls hrest huser hne hcurrent hopening =>
      refine .opening removed opened rest ?_ hrest ?_ hne (hsame.connection.trans hcurrent) ?_
      · rw [hcalls', hsame.stack, hcalls]
      · rwa [hsame.stack]
      · exact hopening.congr (hsame.stack opened) (hsame.timer opened)

theorem flat_callsAfter {s s' : UdpClient} {calls : List Call} (hflat : ∀ call ∈ calls, call.removal = false)
    (hremove : callsRemove s input = false) : ∀ call ∈ callsAfter s s' input calls, call.removal = false := by
  have hadjust : ∀ call ∈ adjustSubject s s' input calls, call.removal = false := by
    intro call hmem
    rw [adjustSubject] at hmem
    split at hmem
    · rcases List.mem_append.mp hmem with hnew | hold
      · rw [List.eq_of_mem_replicate hnew]
      · exact hflat call (List.mem_of_mem_drop hold)
    · exact hflat call hmem
  intro call hmem
  simp only [callsAfter, hremove, Bool.false_eq_true, if_false] at hmem
  split_ifs at hmem
  · rcases List.mem_cons.mp hmem with rfl | hmem
    · rfl
    · exact hadjust call hmem
  · exact hadjust call hmem

/-- The innermost call belongs to the connection that goes on. -/
theorem calls_of_innermostCall (hsource : UdpConnection.source i = .innermostCall)
    (hturn : t.connectionTurn id i = true) : ∃ removal rest, t.calls = ⟨id, removal⟩ :: rest := by
  simp only [connectionTurn, hsource] at hturn
  cases hcalls : t.calls with
  | nil => simp [hcalls] at hturn
  | cons call rest =>
      have hid : call.conn = id := by simpa [hcalls] using hturn
      exact ⟨call.removal, rest, by rw [← hid]⟩

/-- The first activation of `removeConnection`: it is over for the client, or it has opened a connection. -/
theorem nesting_of_removal (hflat : ∀ call ∈ t.calls, call.removal = false)
    (hremove : callsRemove t.client input = true) (hstep : t.step input = .ok t') : t'.Nesting := by
  obtain ⟨hturn, hclient, hcalls⟩ := step_eq_ok hstep
  cases input with
  | connection id i errno =>
      have hcloses : (t.client.conns id).callsClose i = true := hremove
      obtain ⟨rfl, hhead⟩ : i = .proceed ∧ (t.client.conns id).stack.head? = some .closeCallback := by
        simpa [UdpConnection.callsClose] using hcloses
      obtain ⟨below, hstack⟩ := List.head?_eq_some_iff.mp hhead
      have hconnection : t.connectionTurn id .proceed = true := hturn
      obtain ⟨removal, rest, htop⟩ := calls_of_innermostCall rfl hconnection
      rw [htop] at hflat
      have hrest : ∀ call ∈ rest, call.removal = false := fun call hmem => hflat call (List.mem_cons_of_mem _ hmem)
      obtain ⟨hcreated, -, hinput⟩ := UdpClient.connectionInput_of_step hclient
      obtain ⟨c, hc, ⟨hno, -⟩ | ⟨-, hremoved⟩⟩ := UdpClient.connectionInput_cases hinput
      · exact absurd (hcloses.symm.trans hno) (by decide)
      have hc' : c.stack = .user :: below := by
        simp only [UdpConnection.step, UdpConnection.proceed, hstack] at hc
        cases hc
        rfl
      have hne : id ≠ t.client.nextConnId := Nat.ne_of_lt hcreated.2
      have hconn : (t'.client.conns id).stack = .user :: below := by
        rcases UdpClient.removeConnection_opens hremoved with ⟨-, hconns⟩ | ⟨-, -, hconns⟩
        · simp [hconns, hc']
        · simp [hconns, hne, hc']
      have hsame : adjustSubject t.client t'.client (.connection id .proceed errno) t.calls = ⟨id, removal⟩ :: rest := by
        simp [adjustSubject, subject, hstack, hconn, htop]
      simp only [callsAfter, hsame, hremove, if_true, markRemoval] at hcalls
      rcases UdpClient.removeConnection_opens hremoved with ⟨hnext, -⟩ | ⟨hnext, hcurrent, hconns⟩
      · rw [if_neg (by simp [hnext])] at hcalls
        exact .removing id rest hcalls hrest (by rw [hconn, List.head?_cons])
      · rw [if_pos (by simp [hnext])] at hcalls
        have hopened : t'.client.conns t.client.nextConnId = UdpClient.opened t.client.writeCompleteCallback := by
          simp [hconns]
        refine .opening id t.client.nextConnId rest ?_ hrest (by rw [hconn, List.head?_cons]) hne hcurrent ?_
        · rw [hcalls, hopened]
          rfl
        · rw [hopened]
          exact UdpClient.opening_opened _
  | connect inLoop errno => cases hremove
  | disconnect => cases hremove
  | stop => cases hremove
  | enableRetry => cases hremove
  | timer index errno => cases hremove
  | functor errno => cases hremove

theorem callsClose_of_source (c : UdpConnection) (hsource : UdpConnection.source i ≠ .innermostCall) :
    c.callsClose i = false := by
  rw [UdpConnection.callsClose, Bool.and_eq_false_iff]
  refine Or.inl (beq_eq_false_iff_ne.mpr ?_)
  rintro rfl
  exact hsource rfl

/-- An input of a connection that does not call `closeCallback_`. -/
theorem connection_step (hcloses : (t.client.conns id).callsClose i = false)
    (hstep : t.step (.connection id i errno) = .ok t') :
    t.client.Created id ∧ i ≠ .connectDestroyed ∧ ∃ c, (t.client.conns id).step i = .ok c ∧
      t'.client = { t.client with conns := Function.update t.client.conns id c } ∧
      t'.calls = adjust id (t.client.conns id).stack.length c.stack.length t.calls := by
  obtain ⟨-, hclient, hcalls⟩ := step_eq_ok hstep
  obtain ⟨hcreated, hdestroy, hinput⟩ := UdpClient.connectionInput_of_step hclient
  obtain ⟨c, hc, ⟨-, hclient'⟩ | ⟨hyes, -⟩⟩ := UdpClient.connectionInput_cases hinput
  · refine ⟨hcreated, hdestroy, c, hc, hclient', ?_⟩
    rw [hcalls]
    simp [callsAfter, adjustSubject, subject, callsRemove, hcloses, hclient']
  · exact absurd (hcloses.symm.trans hyes) (by decide)

/-- An input of a connection that leaves its calls in progress alone. -/
theorem Nesting.connection_frame (h : t.Nesting) (hsource : UdpConnection.source i ≠ .innermostCall)
    (hstack : ∀ c, (t.client.conns id).step i = .ok c → c.stack = (t.client.conns id).stack ∧
      c.curKcpsessUpTimerId = (t.client.conns id).curKcpsessUpTimerId)
    (hstep : t.step (.connection id i errno) = .ok t') : t'.Nesting := by
  obtain ⟨-, -, c, hc, hclient, hcalls⟩ := connection_step (callsClose_of_source _ hsource) hstep
  obtain ⟨hstack, htimer⟩ := hstack c hc
  apply h.congr
  · rw [hcalls, hstack, adjust_self]
  · rw [hclient]
    exact sameCalls_update hstack htimer t.client.connect_

theorem sameCalls_of_anyThread {s s' : UdpClient} (hinput : fromAnyThread input = true) (h : s.step input = .ok s') :
    SameCalls s s' := by
  cases input with
  | connect inLoop errno =>
      cases inLoop with
      | false =>
          cases h
          exact ⟨rfl, rfl, fun _ => rfl, fun _ => rfl⟩
      | true => cases hinput
  | disconnect =>
      have hshutdown : ∀ c : UdpConnection, c.shutdown.stack = c.stack ∧
          c.shutdown.curKcpsessUpTimerId = c.curKcpsessUpTimerId := by
        intro c
        rw [UdpConnection.shutdown]
        split_ifs <;> exact ⟨rfl, rfl⟩
      rw [UdpClient.step, UdpClient.disconnect, Except.ok.injEq] at h
      subst h
      split
      · exact sameCalls_update (hshutdown _).1 (hshutdown _).2 false
      · exact ⟨rfl, rfl, fun _ => rfl, fun _ => rfl⟩
  | stop =>
      cases h
      exact ⟨rfl, rfl, fun _ => rfl, fun _ => rfl⟩
  | enableRetry =>
      cases h
      exact ⟨rfl, rfl, fun _ => rfl, fun _ => rfl⟩
  | timer index errno => cases hinput
  | functor errno => cases hinput
  | connection id i errno => cases hinput

theorem Nesting.anyThread (h : t.Nesting) (hinput : fromAnyThread input = true) (hstep : t.step input = .ok t') :
    t'.Nesting := by
  obtain ⟨-, hclient, hcalls⟩ := step_eq_ok hstep
  have hsame := sameCalls_of_anyThread hinput hclient
  have hsubject : subject t.client input = none ∧ callsRemove t.client input = false := by
    cases input <;> first | exact ⟨rfl, rfl⟩ | cases hinput
  refine h.congr ?_ hsame
  rw [hcalls]
  simp [callsAfter, adjustSubject, hsubject, hsame.nextConnId]

/-- **What can happen while a call is in progress.** -/
theorem turn_cases (hbusy : t.calls ≠ []) (hturn : t.turn input = true) :
    fromAnyThread input = true ∨ (∃ errno, input = .connect true errno ∧ t.userTurn = true) ∨
      ∃ id i errno, input = .connection id i errno ∧
        (UdpConnection.source i = .otherThread ∨ UdpConnection.source i = .userCode ∧ t.userTurn = true ∨
          UdpConnection.source i = .innermostCall ∧ ∃ removal rest, t.calls = ⟨id, removal⟩ :: rest) := by
  have hempty : t.calls.isEmpty = false := by simpa using hbusy
  cases input with
  | connect inLoop errno =>
      cases inLoop with
      | false => exact Or.inl rfl
      | true => exact Or.inr (Or.inl ⟨errno, rfl, hturn⟩)
  | disconnect => exact Or.inl rfl
  | stop => exact Or.inl rfl
  | enableRetry => exact Or.inl rfl
  | timer index errno => exact absurd (hempty.symm.trans hturn) (by decide)
  | functor errno => exact absurd (hempty.symm.trans hturn) (by decide)
  | connection id i errno =>
      refine Or.inr (Or.inr ⟨id, i, errno, rfl, ?_⟩)
      have hconnection : t.connectionTurn id i = true := hturn
      cases hsource : UdpConnection.source i with
      | eventLoop =>
          simp only [connectionTurn, hsource] at hconnection
          exact absurd (hempty.symm.trans hconnection) (by decide)
      | userCode =>
          simp only [connectionTurn, hsource] at hconnection
          exact Or.inr (Or.inl ⟨rfl, hconnection⟩)
      | otherThread => exact Or.inl rfl
      | innermostCall => exact Or.inr (Or.inr ⟨rfl, calls_of_innermostCall hsource hconnection⟩)

/-- What another thread does to a connection. -/
theorem Nesting.otherThread (h : t.Nesting) (hsource : UdpConnection.source i = .otherThread)
    (hstep : t.step (.connection id i errno) = .ok t') : t'.Nesting := by
  refine h.connection_frame (by simp [hsource]) ?_ hstep
  intro c hc
  exact UdpConnection.stack_of_source hc (Or.inl hsource)

/-- While `removeConnection` is the innermost call it can only return. -/
theorem nesting_of_removing {removed : Nat} {rest : List Call} (hcalls : t.calls = ⟨removed, true⟩ :: rest)
    (hrest : ∀ call ∈ rest, call.removal = false) (huser : (t.client.conns removed).stack.head? = some .user)
    (hstep : t.step input = .ok t') : t'.Nesting := by
  have hnesting : t.Nesting := .removing removed rest hcalls hrest huser
  have hnot : t.userTurn = false := by simp [userTurn, hcalls]
  rcases turn_cases (by simp [hcalls]) (step_eq_ok hstep).1 with hany | ⟨errno, -, hturn⟩ | ⟨id, i, errno, rfl, hsource⟩
  · exact hnesting.anyThread hany hstep
  · exact absurd (hnot.symm.trans hturn) (by decide)
  · rcases hsource with hsource | ⟨-, hturn⟩ | ⟨hsource, removal, rest', htop⟩
    · exact hnesting.otherThread hsource hstep
    · exact absurd (hnot.symm.trans hturn) (by decide)
    · rw [hcalls, List.cons.injEq, Call.mk.injEq] at htop
      obtain ⟨⟨rfl, -⟩, rfl⟩ := htop
      have hcloses : (t.client.conns removed).callsClose i = false := by
        simp [UdpConnection.callsClose, huser]
      obtain ⟨-, -, c, hc, -, hcalls'⟩ := connection_step hcloses hstep
      have hpop := UdpConnection.returns_of_user hc hsource huser
      refine .flat ?_
      rw [hcalls', hpop, hcalls, adjust]
      simpa using hrest

theorem Nesting.depth_pos {removed : Nat} {upper rest : List Call} (hcalls : t.calls = upper ++ ⟨removed, true⟩ :: rest) :
    0 < t.depth := by
  rw [depth, List.countP_pos_iff]
  exact ⟨⟨removed, true⟩, by simp [hcalls], rfl⟩

/-- The first `Update` of the new connection, with the calls made in it. -/
theorem nesting_of_update {removed opened : Nat} {rest : List Call}
    (hcalls : t.calls =
      List.replicate (t.client.conns opened).stack.length ⟨opened, false⟩ ++ ⟨removed, true⟩ :: rest)
    (hrest : ∀ call ∈ rest, call.removal = false) (huser : (t.client.conns removed).stack.head? = some .user)
    (hne : removed ≠ opened) (hcurrent : t.client.connection = some opened)
    (hopening : (t.client.conns opened).Opening) (hopened : t.OpenedBeforeClosed (.connection opened i errno))
    (hstep : t.step (.connection opened i errno) = .ok t') : t'.Nesting := by
  have hopen : (t.client.conns opened).entersClose i = false :=
    hopened (Nesting.depth_pos hcalls) hopening.notArmed
  have hcloses : (t.client.conns opened).callsClose i = false := by
    obtain ⟨frame, below, hstack⟩ := List.exists_cons_of_ne_nil hopening.stack.ne_nil
    have hframe : frame ≠ .closeCallback := (hstack ▸ hopening.stack).ne_closeCallback
    simp [UdpConnection.callsClose, hstack, hframe]
  obtain ⟨-, hdestroy, c, hc, hclient, hcalls'⟩ := connection_step hcloses hstep
  rw [hcalls, adjust_replicate] at hcalls'
  have hconn : t'.client.conns opened = c := by simp [hclient]
  have huser' : (t'.client.conns removed).stack.head? = some .user := by simpa [hclient, hne] using huser
  rcases UdpConnection.opening_step hopening hdestroy hopen hc with hover | hopening'
  · refine .removing removed rest ?_ hrest huser'
    rw [hcalls', hover]
    rfl
  · refine .opening removed opened rest ?_ hrest huser' hne ?_ ?_
    · rw [hcalls', hconn]
    · rw [hclient]
      exact hcurrent
    · rw [hconn]
      exact hopening'

/-- While the first `Update` of the new connection runs, inside `removeConnection`, it is the only one to go on; it ends
before the session can fail. -/
theorem nesting_of_opening (hsingle : t.client.Single) {removed opened : Nat} {rest : List Call}
    (hcalls : t.calls =
      List.replicate (t.client.conns opened).stack.length ⟨opened, false⟩ ++ ⟨removed, true⟩ :: rest)
    (hrest : ∀ call ∈ rest, call.removal = false) (huser : (t.client.conns removed).stack.head? = some .user)
    (hne : removed ≠ opened) (hcurrent : t.client.connection = some opened)
    (hopening : (t.client.conns opened).Opening) (hopened : t.OpenedBeforeClosed input)
    (hstep : t.step input = .ok t') : t'.Nesting := by
  have hnesting : t.Nesting := .opening removed opened rest hcalls hrest huser hne hcurrent hopening
  obtain ⟨hturn, hclient, -⟩ := step_eq_ok hstep
  obtain ⟨frame, below, hstack⟩ := List.exists_cons_of_ne_nil hopening.stack.ne_nil
  have htop : t.calls = ⟨opened, false⟩ :: (List.replicate below.length ⟨opened, false⟩ ++ ⟨removed, true⟩ :: rest) := by
    rw [hcalls, hstack, List.length_cons, List.replicate_succ, List.cons_append]
  rcases turn_cases (by simp [htop]) hturn with hany | ⟨errno, rfl, -⟩ | ⟨id, i, errno, rfl, hsource⟩
  · exact hnesting.anyThread hany hstep
  · -- the connector is connected, so that the assert of `startInLoop` fails
    have hstate := (hsingle.current opened hcurrent).2
    simp [UdpClient.step, UdpClient.connect, UdpClient.finish, UdpConnector.startInLoop, UdpConnector.start, hstate]
      at hclient
  · by_cases hid : id = opened
    · subst hid
      exact nesting_of_update hcalls hrest huser hne hcurrent hopening hopened hstep
    · rcases hsource with hsource | ⟨hsource, -⟩ | ⟨-, removal, rest', hinnermost⟩
      · exact hnesting.otherThread hsource hstep
      · have hcreated := (UdpClient.connectionInput_of_step hclient).1
        have hdown : (t.client.conns id).state = .kDisconnected := by
          apply hsingle.down hcreated
          rw [hcurrent]
          exact fun heq => hid (Option.some.inj heq).symm
        refine hnesting.connection_frame (by simp [hsource]) ?_ hstep
        intro c hc
        exact UdpConnection.stack_of_source hc (Or.inr ⟨hsource, hdown⟩)
      · rw [htop, List.cons.injEq, Call.mk.injEq] at hinnermost
        exact absurd hinnermost.1.1.symm hid

def WellNested (t : ClientThread) : Prop := t.client.Single ∧ t.Nesting

theorem wellNested_step (h : t.WellNested) (hopened : t.OpenedBeforeClosed input) (hstep : t.step input = .ok t') :
    t'.WellNested := by
  obtain ⟨hsingle, hnesting⟩ := h
  refine ⟨UdpClient.single_step hsingle (step_eq_ok hstep).2.1, ?_⟩
  cases hnesting with
  | flat hflat =>
      cases hremove : callsRemove t.client input with
      | true => exact nesting_of_removal hflat hremove hstep
      | false =>
          refine .flat ?_
          rw [(step_eq_ok hstep).2.2]
          exact flat_callsAfter hflat hremove
  | removing removed rest hcalls hrest huser => exact nesting_of_removing hcalls hrest huser hstep
  | opening removed opened rest hcalls hrest huser hne hcurrent hopening =>
      exact nesting_of_opening hsingle hcalls hrest huser hne hcurrent hopening hopened hstep

/-- **How deep reconnection nests.** In every run in which no session that `removeConnection` has opened fails before its
first `Update` has returned, at most one `removeConnection` is in progress at a time. -/
theorem reconnection_not_nested (writeComplete : Bool) (inputs : List UdpClient.Input) (t : ClientThread)
    (hopened : Along step OpenedBeforeClosed (new writeComplete) inputs)
    (hrun : run step (new writeComplete) inputs = .ok t) : t.depth ≤ 1 := by
  have hnew : (new writeComplete).WellNested := ⟨UdpClient.single_new writeComplete, .flat (by simp [new])⟩
  have hinv : t.WellNested := run_invariant_along (fun _ _ _ h1 h2 h3 => wellNested_step h1 h2 h3) hnew hopened hrun
  exact hinv.2.depth_le

/-- A session fails after its first `Update`; the next one is opened inside `removeConnection`. -/
def reopened : List UdpClient.Input :=
  [.enableRetry, .connect true .ok, .connection 1 (.updateReturns 10) .ok, .connection 1 (.timer 0) .ok,
    .connection 1 (.updateReturns (-1)) .ok, .connection 1 .userReturns .ok, .connection 1 .proceed .ok]

theorem reconnection_not_nested_reopened :
    ∃ t, run step (new false) reopened = .ok t ∧ t.client.connection = some 2 ∧ t.depth = 1 ∧ t.depth ≤ 1 := by
  obtain ⟨t, hrun, hcurrent, hdepth⟩ : ∃ t, run step (new false) reopened = .ok t ∧ t.client.connection = some 2 ∧
      t.depth = 1 := ⟨_, rfl, rfl, rfl⟩
  exact ⟨t, hrun, hcurrent, hdepth, reconnection_not_nested false reopened t (by decide) hrun⟩

/-! ### Sessions that fail at once -/

/-- A client that will connect again has made `id` connections; `stack` has the calls in progress of the last one. -/
structure Inside (id : Nat) (stack : List UdpConnection.Frame) (calls : List Call) (t : ClientThread) : Prop where
  positive : 0 < id
  retry : t.client.retry = true
  connect_ : t.client.connect_ = true
  nextConnId : t.client.nextConnId = id + 1
  connection : t.client.connection = some id
  stack : (t.client.conns id).stack = stack
  known : (t.client.conns id).channel.Known
  calls : t.calls = calls

variable {stack : List UdpConnection.Frame} {rest : List Call}

theorem Inside.created {calls : List Call} (h : Inside id stack calls t) : t.client.Created id :=
  ⟨h.positive, by rw [h.nextConnId]; exact Nat.lt_succ_self id⟩

theorem Inside.turn (h : Inside id stack (⟨id, false⟩ :: rest) t) (hsource : UdpConnection.source i = .innermostCall) :
    t.turn (.connection id i errno) = true := by
  simp [ClientThread.turn, connectionTurn, hsource, h.calls]

/-- The innermost call goes on. -/
theorem inside_step {c : UdpConnection} (h : Inside id stack (⟨id, false⟩ :: rest) t)
    (hsource : UdpConnection.source i = .innermostCall) (hc : (t.client.conns id).step i = .ok c)
    (hcloses : (t.client.conns id).callsClose i = false) (hknown : c.channel.Known) (errno : Errno) :
    ∃ t', t.step (.connection id i errno) = .ok t' ∧
      Inside id c.stack (adjust id stack.length c.stack.length (⟨id, false⟩ :: rest)) t' := by
  have howner : i ≠ .connectEstablished ∧ i ≠ .connectDestroyed := by
    constructor <;> rintro rfl <;> cases hsource
  have hclient : t.client.step (.connection id i errno) =
      .ok { t.client with conns := Function.update t.client.conns id c } := by
    rw [UdpClient.step, if_pos ⟨h.created, howner⟩, UdpClient.connectionInput, UdpClient.stepConnection, hc]
    simp [hcloses]
  rw [step, if_pos (h.turn hsource), hclient]
  refine ⟨_, rfl, h.positive, h.retry, h.connect_, h.nextConnId, h.connection, by simp, by simpa using hknown, ?_⟩
  simp [callsAfter, adjustSubject, subject, callsRemove, hcloses, h.calls, h.stack]

/-- `closeCallback_` is called: the client connects again, and the first `Update` of the new connection is the innermost
call. -/
theorem inside_remove (h : Inside id (.closeCallback :: stack) (⟨id, false⟩ :: rest) t) :
    ∃ t', t.step (.connection id .proceed .ok) = .ok t' ∧
      Inside (id + 1) [.kcpUpdate] (⟨id + 1, false⟩ :: ⟨id, true⟩ :: rest) t' := by
  have hcloses : (t.client.conns id).callsClose .proceed = true := by simp [UdpConnection.callsClose, h.stack]
  obtain ⟨c, hc, hstack⟩ : ∃ c, (t.client.conns id).step .proceed = .ok c ∧ c.stack = .user :: stack := by
    simp only [UdpConnection.step, UdpConnection.proceed, h.stack]
    exact ⟨_, rfl, rfl⟩
  obtain ⟨s', hclient, hretry, hconnect, hnext, hconnection, hconns⟩ : ∃ s',
      t.client.step (.connection id .proceed .ok) = .ok s' ∧ s'.retry = true ∧ s'.connect_ = true ∧
        s'.nextConnId = t.client.nextConnId + 1 ∧ s'.connection = some t.client.nextConnId ∧
        s'.conns = Function.update (Function.update t.client.conns id c) t.client.nextConnId
          (UdpClient.opened t.client.writeCompleteCallback) := by
    rw [UdpClient.step, if_pos ⟨h.created, by decide, by decide⟩, UdpClient.connectionInput, UdpClient.stepConnection, hc]
    simp only [hcloses, if_true, UdpClient.removeConnection, h.connection, UdpClient.queueInLoop, h.retry, h.connect_,
      Bool.and_true, UdpConnector.restart]
    rw [UdpClient.finish_connected rfl rfl rfl]
    exact ⟨_, rfl, rfl, rfl, rfl, rfl, rfl⟩
  rw [h.nextConnId] at hnext hconnection hconns
  rw [step, if_pos (h.turn rfl), hclient]
  refine ⟨_, rfl, Nat.succ_pos id, hretry, hconnect, hnext, hconnection, ?_, ?_, ?_⟩
  · simp only [hconns, Function.update_self]
    rfl
  · simp only [hconns, Function.update_self]
    rfl
  · simp [callsAfter, adjustSubject, subject, callsRemove, hcloses, h.calls, h.stack, h.nextConnId, hnext, hconns,
      hstack, markRemoval]

/-- `Update` returns a negative number, the connection callback returns, and `closeCallback_` is called. -/
def fails (id : Nat) : List UdpClient.Input :=
  [.connection id (.updateReturns (-1)) .ok, .connection id .userReturns .ok, .connection id .proceed .ok]

/-- A session that fails while the poller has the channel. -/
theorem handleClose_of_known {c : UdpConnection} {below : List UdpConnection.Frame} (hknown : c.channel.Known) :
    ∃ c', UdpConnection.handleClose { c with stack := below } = .ok c' ∧
      c'.stack = .user :: .closeCallback :: below ∧ c'.channel.Known := by
  obtain ⟨channel, hupdate, hstill, -⟩ :=
    Channel.update_of_known (c := { c.channel with readEvent := false, writeEvent := false }) hknown
  have hdisable : c.channel.disableAll = .ok channel := hupdate
  unfold UdpConnection.handleClose
  rw [hdisable]
  exact ⟨_, rfl, rfl, hstill⟩

/-- Every session that fails at once is one more activation of `removeConnection`. -/
theorem inside_fails (h : Inside id [.kcpUpdate] (⟨id, false⟩ :: rest) t) :
    ∃ t', run step t (fails id) = .ok t' ∧
      Inside (id + 1) [.kcpUpdate] (⟨id + 1, false⟩ :: ⟨id, true⟩ :: rest) t' := by
  obtain ⟨c₁, hc₁, hstack₁, hknown₁⟩ : ∃ c, (t.client.conns id).step (.updateReturns (-1)) = .ok c ∧
      c.stack = [.user, .closeCallback] ∧ c.channel.Known := by
    simp only [UdpConnection.step, h.stack]
    exact handleClose_of_known h.known
  obtain ⟨t₁, hstep₁, h₁⟩ := inside_step h rfl hc₁ (by simp [UdpConnection.callsClose]) hknown₁ .ok
  rw [hstack₁] at h₁
  obtain ⟨c₂, hc₂, hstack₂, hknown₂⟩ : ∃ c, (t₁.client.conns id).step .userReturns = .ok c ∧
      c.stack = [.closeCallback] ∧ c.channel.Known := by
    simp only [UdpConnection.step, h₁.stack]
    exact ⟨_, rfl, rfl, h₁.known⟩
  obtain ⟨t₂, hstep₂, h₂⟩ := inside_step h₁ rfl hc₂ (by simp [UdpConnection.callsClose]) hknown₂ .ok
  rw [hstack₂] at h₂
  obtain ⟨t₃, hstep₃, h₃⟩ := inside_remove h₂
  refine ⟨t₃, ?_, h₃⟩
  rw [fails, run_cons hstep₁, run_cons hstep₂, run_singleton, hstep₃]

/-- The calls in progress when the first `n` sessions have failed. -/
def removals : Nat → List Call
  | 0 => []
  | n + 1 => ⟨n + 1, true⟩ :: removals n

theorem exists_run_fails (writeComplete : Bool) (n : Nat) :
    ∃ inputs t, run step (new writeComplete) inputs = .ok t ∧
      Inside (n + 1) [.kcpUpdate] (⟨n + 1, false⟩ :: removals n) t := by
  induction n with
  | zero =>
      refine ⟨[.enableRetry, .connect true .ok], _, rfl, ?_⟩
      exact ⟨by decide, rfl, rfl, rfl, rfl, rfl, rfl, rfl⟩
  | succ n ih =>
      obtain ⟨inputs, t, hrun, h⟩ := ih
      obtain ⟨t', hfails, h'⟩ := inside_fails h
      refine ⟨inputs ++ fails (n + 1), t', ?_, h'⟩
      rw [run_append hrun, hfails]

theorem countP_removals (n : Nat) : (removals n).countP Call.removal = n := by
  induction n with
  | zero => rfl
  | succ n ih => rw [removals, List.countP_cons_of_pos rfl, ih]

/-- For every bound there is a run, with retry enabled, that nests deeper: all its sessions fail at once. -/
theorem reconnection_unbounded :
    ¬∃ bound : Nat, ∀ (writeComplete : Bool) (inputs : List UdpClient.Input) (t : ClientThread),
      run step (new writeComplete) inputs = .ok t → t.client.retry = true → t.depth ≤ bound := by
  rintro ⟨bound, h⟩
  obtain ⟨inputs, t, hrun, hinside⟩ := exists_run_fails false (bound + 1)
  have hdepth : t.depth = bound + 1 := by
    rw [depth, hinside.calls, List.countP_cons_of_neg (by simp), countP_removals]
  have hle := h false inputs t hrun hinside.retry
  omega

end ClientThread
end Realtinet
