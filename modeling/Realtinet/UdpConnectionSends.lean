import Mathlib.Algebra.Group.Int.Defs
import Mathlib.Algebra.Group.Nat.Defs
import Realtinet.Buffer
import Realtinet.UdpConnectionCallbacks

/-! What becomes of the payloads given to `send`. A send is accepted by a look at `state_` in the calling
thread; it is handed to `kcpSession_->Send` at once in the loop thread, and from any other thread when its
functor is run, after a second and weaker look at `state_`. -/

namespace Realtinet.UdpConnection

open TransitionSystem

/-! ### The two overloads -/

/-- The bytes `kcpSession_->Send(data, len, ..)` reads, the length having passed through `int`. -/
def kcpSendBytes (data : List UInt8) (len : Nat) : List UInt8 :=
  data.take ((len : Int).bmod (2 ^ 32)).toNat

/-- `sendInLoop(const void*, size_t, ..)`. -/
def sendInLoopData (caller : Thread) (data : List UInt8) (len : Nat) (mode : TransmitModeE) (c : UdpConnection) :
    UdpConnection :=
  if c.state = .kDisconnected then c else c.kcpSend caller (kcpSendBytes data len) mode

/-- `send(const StringPiece&, ..)`. -/
def sendStringPiece (caller : Thread) (message : List UInt8) (mode : TransmitModeE) (c : UdpConnection) :
    UdpConnection :=
  if c.state = .kConnected then
    if caller = .loop then c.sendInLoopData caller message message.length mode
    else c.queueInLoop (.sendInLoop caller message mode)
  else c

/-- `send(Buffer*, ..)`, with the buffer it leaves behind. -/
def sendBuffer (caller : Thread) (buf : Buffer) (mode : TransmitModeE) (c : UdpConnection) :
    UdpConnection × Buffer :=
  if c.state = .kConnected then
    if caller = .loop then
      (c.sendInLoopData caller (buf.peek buf.readableBytes) buf.readableBytes mode, buf.retrieveAll)
    else
      let message := buf.retrieveAllAsString
      (c.queueInLoop (.sendInLoop caller message.1 mode), message.2)
  else (c, buf)

theorem kcpSendBytes_eq {data : List UInt8} (h : data.length < 2 ^ 31) :
    kcpSendBytes data data.length = data := by
  have hint : (data.length : Int).bmod (2 ^ 32) = data.length :=
    Int.bmod_eq_of_le_mul_two (by omega) (by omega)
  rw [kcpSendBytes, hint, Int.toNat_natCast, List.take_length]

theorem sendInLoopData_eq {data : List UInt8} (h : data.length < 2 ^ 31) (caller : Thread) (mode : TransmitModeE)
    (c : UdpConnection) : c.sendInLoopData caller data data.length mode = c.sendInLoop caller data mode := by
  rw [sendInLoopData, sendInLoop, kcpSendBytes_eq h]

theorem sendStringPiece_eq {message : List UInt8} (h : message.length < 2 ^ 31) (caller : Thread)
    (mode : TransmitModeE) (c : UdpConnection) :
    c.sendStringPiece caller message mode = c.send caller message mode := by
  rw [sendStringPiece, send, sendInLoopData_eq h]

/-- The overload for buffers sends what the buffer holds, and takes it out of the buffer exactly when
the connection is connected. -/
theorem sendBuffer_eq {buf : Buffer} (h : buf.content.length < 2 ^ 31) (caller : Thread) (mode : TransmitModeE)
    (c : UdpConnection) :
    c.sendBuffer caller buf mode =
      (c.send caller buf.content mode, if c.state = .kConnected then buf.retrieveAll else buf) := by
  have hpeek : buf.peek buf.readableBytes = buf.content := by
    rw [Buffer.peek_eq (Nat.le_refl _), ← buf.length_content, List.take_length]
  rw [sendBuffer, send]
  split_ifs
  · rw [hpeek, ← buf.length_content, sendInLoopData_eq h]
  · rw [buf.retrieveAllAsString_eq]
  · rfl

/-! ### The way of a payload -/

/-- A payload with its transmit mode and the thread that sends it. -/
structure Send where
  caller : Thread
  message : List UInt8
  transmitMode : TransmitModeE
  deriving DecidableEq

def Functor.send? : Functor → Option Send
  | .sendInLoop caller message mode => some ⟨caller, message, mode⟩
  | _ => none

def Event.send? : Event → Option Send
  | .kcpSend caller message mode => some ⟨caller, message, mode⟩
  | _ => none

/-- The payloads waiting in the loop's queue, oldest first. -/
def queuedSends (c : UdpConnection) : List Send := c.pendingFunctors.filterMap Functor.send?

/-- The payloads handed to `kcpSession_->Send`, oldest first. -/
def handedSends (c : UdpConnection) : List Send := c.trace.reverse.filterMap Event.send?

/-- The input is a `send` made while `state_` is `kConnected`. -/
def acceptedSend (c : UdpConnection) : Input → List Send
  | .call caller (.send message mode) => if c.state = .kConnected then [⟨caller, message, mode⟩] else []
  | _ => []

/-- The turn of a queued payload comes while `state_` is `kDisconnected`. -/
def droppedSend (c : UdpConnection) : Input → List Send
  | .functor => if c.state = .kDisconnected then ((c.pendingFunctors.head?).bind Functor.send?).toList else []
  | _ => []

variable {c c' : UdpConnection} {i : Input}

/-- What an input does to the payloads. -/
inductive SendEffect (c c' : UdpConnection) (i : Input) : Prop
  | none (hqueued : c'.queuedSends = c.queuedSends) (hhanded : c'.handedSends = c.handedSends)
      (haccepted : c.acceptedSend i = []) (hdropped : c.droppedSend i = [])
  | direct (x : Send) (hcaller : x.caller = .loop) (hstate : c.state = .kConnected)
      (hqueued : c'.queuedSends = c.queuedSends) (hhanded : c'.handedSends = c.handedSends ++ [x])
      (haccepted : c.acceptedSend i = [x]) (hdropped : c.droppedSend i = [])
  | queued (x : Send) (hcaller : x.caller ≠ .loop) (hqueued : c'.queuedSends = c.queuedSends ++ [x])
      (hhanded : c'.handedSends = c.handedSends) (haccepted : c.acceptedSend i = [x])
      (hdropped : c.droppedSend i = [])
  | handed (x : Send) (hstate : c.state ≠ .kDisconnected) (hqueued : c.queuedSends = x :: c'.queuedSends)
      (hhanded : c'.handedSends = c.handedSends ++ [x]) (haccepted : c.acceptedSend i = [])
      (hdropped : c.droppedSend i = [])
  | dropped (x : Send) (hstate : c.state = .kDisconnected) (hqueued : c.queuedSends = x :: c'.queuedSends)
      (hhanded : c'.handedSends = c.handedSends) (haccepted : c.acceptedSend i = [])
      (hdropped : c.droppedSend i = [x])

theorem handedSends_step (h : step c i = .ok c') :
    c'.handedSends = c.handedSends ++ ((c.emits i).bind Event.send?).toList := by
  have htrace := (step_output h).trace
  rw [handedSends, htrace, handedSends, List.reverse_append, List.filterMap_append]
  cases c.emits i with
  | none => rfl
  | some e => cases e <;> rfl

theorem queuedSends_step (h : step c i = .ok c') (hi : i ≠ .functor) :
    c'.queuedSends = c.queuedSends ++ ((c.queues i).bind Functor.send?).toList := by
  rw [queuedSends, functors_of_other h hi, queuedSends, List.filterMap_append]
  cases c.queues i with
  | none => rfl
  | some functor => cases functor <;> rfl

/-- An input that neither hands over nor queues a payload. -/
theorem SendEffect.silent (h : step c i = .ok c') (hi : i ≠ .functor) (hemits : (c.emits i).bind Event.send? = Option.none)
    (hqueues : (c.queues i).bind Functor.send? = Option.none) (haccepted : c.acceptedSend i = []) :
    SendEffect c c' i := by
  refine .none ?_ ?_ haccepted ?_
  · rw [queuedSends_step h hi, hqueues, Option.toList_none, List.append_nil]
  · rw [handedSends_step h, hemits, Option.toList_none, List.append_nil]
  · cases i with
    | functor => exact absurd rfl hi
    | _ => rfl

/-- Only functors and calls hand a payload to the session. -/
theorem emits_send? (hfunctor : i ≠ .functor) (hcall : ∀ caller api, i ≠ .call caller api) :
    (c.emits i).bind Event.send? = none := by
  unfold emits
  by_cases henters : c.entersClose i = true
  · rw [if_pos henters]
    rfl
  · rw [if_neg henters]
    cases i with
    | functor => exact absurd rfl hfunctor
    | call caller api => exact absurd rfl (hcall caller api)
    | connectDestroyed =>
        dsimp only
        split_ifs <;> rfl
    | proceed =>
        dsimp only
        split_ifs <;> rfl
    | recvReturns ok n buf =>
        dsimp only
        split_ifs <;> rfl
    | _ => rfl

theorem sendEffect_functor (h : step c .functor = .ok c') : SendEffect c c' .functor := by
  obtain ⟨f, rest, hfunctors⟩ : ∃ f rest, c.pendingFunctors = f :: rest := by
    rcases hfunctors : c.pendingFunctors with _ | ⟨f, rest⟩
    · simp [step, hfunctors] at h
    · exact ⟨f, rest, rfl⟩
  have hqueued : c'.queuedSends = rest.filterMap Functor.send? := by
    rw [queuedSends, functors_of_functor h, hfunctors, List.tail_cons]
  have hhanded := handedSends_step h
  cases f with
  | sendInLoop caller message mode =>
      have hclose : c.entersClose .functor = false := by simp [entersClose, closeCause, forceClosing, hfunctors]
      have hbefore : c.queuedSends = ⟨caller, message, mode⟩ :: c'.queuedSends := by
        rw [hqueued, queuedSends, hfunctors]
        rfl
      by_cases hstate : c.state = .kDisconnected
      · refine .dropped ⟨caller, message, mode⟩ hstate hbefore ?_ rfl ?_
        · rw [hhanded]
          simp [emits, hclose, hfunctors, functorEmits, hstate]
        · simp [droppedSend, hfunctors, Functor.send?, hstate]
      · refine .handed ⟨caller, message, mode⟩ hstate hbefore ?_ rfl ?_
        · rw [hhanded]
          simp [emits, hclose, hfunctors, functorEmits, hstate, Event.send?]
        · simp [droppedSend, hstate]
  | _ =>
      refine .none ?_ ?_ rfl ?_
      · rw [hqueued, queuedSends, hfunctors]
        rfl
      · rw [hhanded]
        unfold emits
        split_ifs <;> simp [hfunctors, functorEmits, Event.send?]
      · simp [droppedSend, hfunctors, Functor.send?]

theorem sendEffect_call {caller : Thread} {api : Api} (h : step c (.call caller api) = .ok c') :
    SendEffect c c' (.call caller api) := by
  have hclose : c.entersClose (.call caller api) = false := rfl
  cases api with
  | send message mode =>
      have hqueued := queuedSends_step h (by simp)
      have hhanded := handedSends_step h
      by_cases hstate : c.state = .kConnected
      · have haccepted : c.acceptedSend (.call caller (.send message mode)) = [⟨caller, message, mode⟩] := if_pos hstate
        cases caller with
        | loop =>
            refine .direct ⟨.loop, message, mode⟩ rfl hstate ?_ ?_ haccepted rfl
            · rw [hqueued]
              simp [queues]
            · rw [hhanded]
              simp [emits, hclose, hstate, Event.send?]
        | other id =>
            refine .queued ⟨.other id, message, mode⟩ (by simp) ?_ ?_ haccepted rfl
            · rw [hqueued]
              simp [queues, hstate, Functor.send?]
            · rw [hhanded]
              simp [emits, hclose]
      · refine .silent h (by simp) ?_ ?_ (if_neg hstate)
        · cases caller <;> simp [emits, hclose, hstate]
        · simp [queues, hstate]
  | forceClose =>
      refine .silent h (by simp) ?_ ?_ rfl
      · cases caller <;> rfl
      · dsimp only [queues]
        split_ifs <;> rfl
  | shutdown => exact .silent h (by simp) (by cases caller <;> rfl) rfl rfl
  | startRead => exact .silent h (by simp) (by cases caller <;> rfl) (by cases caller <;> rfl) rfl
  | stopRead => exact .silent h (by simp) (by cases caller <;> rfl) (by cases caller <;> rfl) rfl

/-- **Every accepted input does one of these things to the payloads.** -/
theorem step_sends (h : step c i = .ok c') : SendEffect c c' i := by
  cases i with
  | functor => exact sendEffect_functor h
  | call caller api => exact sendEffect_call h
  | doSend len nwrote soError =>
      refine .silent h (by simp) (emits_send? (by simp) (by simp)) ?_ rfl
      dsimp only [queues]
      split_ifs <;> rfl
  | _ => exact .silent h (by simp) (emits_send? (by simp) (by simp)) rfl rfl

/-! ### The order of the payloads -/

/-- The payloads of one thread. -/
def ofThread (t : Thread) (sends : List Send) : List Send := sends.filter (fun x => x.caller = t)

/-- The two kinds of records a run leaves: the payloads accepted, and those whose turn came too late. -/
inductive Record where
  | accepted
  | dropped

def Record.of : Record → UdpConnection → Input → List Send
  | .accepted => acceptedSend
  | .dropped => droppedSend

/-- Every accepted payload of a thread has been handed over, has been dropped or waits, in this order;
only the loop thread's own are never queued, and nothing is dropped before the connection is down. -/
structure SendsAccounted (t : Thread) (c : UdpConnection) (record : Record → List Send) : Prop where
  balance : ofThread t (record .accepted) =
    ofThread t c.handedSends ++ ofThread t (record .dropped) ++ ofThread t c.queuedSends
  queuedElsewhere : ∀ x ∈ c.queuedSends, x.caller ≠ .loop
  droppedDown : record .dropped ≠ [] → c.state = .kDisconnected

theorem ofThread_append (t : Thread) (xs ys : List Send) : ofThread t (xs ++ ys) = ofThread t xs ++ ofThread t ys :=
  List.filter_append xs ys

@[simp] theorem ofThread_nil (t : Thread) : ofThread t [] = [] := rfl

theorem ofThread_cons (t : Thread) (x : Send) (xs : List Send) : ofThread t (x :: xs) = ofThread t [x] ++ ofThread t xs := by
  rw [← ofThread_append, List.singleton_append]

/-- A payload sent in the loop thread overtakes no payload of its own thread. -/
theorem ofThread_loop_comm (t : Thread) {x : Send} {queue : List Send} (hcaller : x.caller = .loop)
    (hqueue : ∀ y ∈ queue, y.caller ≠ .loop) :
    ofThread t queue ++ ofThread t [x] = ofThread t [x] ++ ofThread t queue := by
  by_cases ht : t = .loop
  · have hempty : ofThread t queue = [] := by
      rw [ofThread, List.filter_eq_nil_iff]
      intro y hy
      simpa [ht] using hqueue y hy
    rw [hempty, List.append_nil, List.nil_append]
  · have hempty : ofThread t [x] = [] := by
      rw [ofThread, List.filter_eq_nil_iff]
      intro y hy
      rw [List.mem_singleton.mp hy, hcaller]
      simpa using fun heq => ht heq.symm
    rw [hempty, List.append_nil, List.nil_append]

theorem sendsAccounted_step {t : Thread} {record : Record → List Send} (hinv : SendsAccounted t c record)
    (h : step c i = .ok c') : SendsAccounted t c' (fun k => record k ++ k.of c i) := by
  have hdown : record .dropped ≠ [] → c'.state = .kDisconnected :=
    fun hne => step_disconnected h (hinv.droppedDown hne)
  have hnone : c.state ≠ .kDisconnected → record .dropped = [] := by
    intro hup
    by_contra hne
    exact hup (hinv.droppedDown hne)
  have hbalance := hinv.balance
  -- the three laws follow from what the input does to the queue, to the calls of `Send` and to the two records
  cases step_sends h with
  | none hqueued hhanded haccepted hdropped =>
      refine ⟨?_, ?_, ?_⟩
      · simpa only [Record.of, haccepted, hdropped, hqueued, hhanded, List.append_nil] using hbalance
      · rw [hqueued]
        exact hinv.queuedElsewhere
      · simpa only [Record.of, hdropped, List.append_nil] using hdown
  | direct x hcaller hstate hqueued hhanded haccepted hdropped =>
      rw [hnone (by simp [hstate])] at hbalance
      refine ⟨?_, ?_, ?_⟩
      · calc ofThread t (record .accepted ++ c.acceptedSend i)
            = ofThread t c.handedSends ++ (ofThread t c.queuedSends ++ ofThread t [x]) := by
              rw [haccepted, ofThread_append, hbalance, ofThread_nil, List.append_nil, List.append_assoc]
          _ = ofThread t c.handedSends ++ (ofThread t [x] ++ ofThread t c.queuedSends) := by
              rw [ofThread_loop_comm t hcaller hinv.queuedElsewhere]
          _ = ofThread t c'.handedSends ++ ofThread t (record .dropped ++ c.droppedSend i) ++
                ofThread t c'.queuedSends := by
              rw [hhanded, hqueued, hdropped, hnone (by simp [hstate]), ofThread_append, List.append_nil, ofThread_nil,
                List.append_nil, List.append_assoc]
      · rw [hqueued]
        exact hinv.queuedElsewhere
      · simpa only [Record.of, hdropped, List.append_nil] using hdown
  | queued x hcaller hqueued hhanded haccepted hdropped =>
      refine ⟨?_, ?_, ?_⟩
      · simp only [Record.of, haccepted, hdropped, hqueued, hhanded, List.append_nil, ofThread_append]
        rw [hbalance, List.append_assoc _ _ (ofThread t [x])]
      · intro y hy
        rw [hqueued, List.mem_append, List.mem_singleton] at hy
        rcases hy with hy | rfl
        · exact hinv.queuedElsewhere y hy
        · exact hcaller
      · simpa only [Record.of, hdropped, List.append_nil] using hdown
  | handed x hstate hqueued hhanded haccepted hdropped =>
      rw [hnone hstate] at hbalance
      refine ⟨?_, ?_, ?_⟩
      · calc ofThread t (record .accepted ++ c.acceptedSend i)
            = ofThread t c.handedSends ++ (ofThread t [x] ++ ofThread t c'.queuedSends) := by
              rw [haccepted, List.append_nil, hbalance, ofThread_nil, List.append_nil, hqueued, ofThread_cons]
          _ = ofThread t c'.handedSends ++ ofThread t (record .dropped ++ c.droppedSend i) ++
                ofThread t c'.queuedSends := by
              rw [hhanded, hdropped, hnone hstate, ofThread_append, List.append_nil, ofThread_nil, List.append_nil,
                List.append_assoc]
      · intro y hy
        exact hinv.queuedElsewhere y (hqueued ▸ List.mem_cons_of_mem _ hy)
      · simpa only [Record.of, hdropped, List.append_nil] using hdown
  | dropped x hstate hqueued hhanded haccepted hdropped =>
      refine ⟨?_, ?_, ?_⟩
      · simp only [Record.of, haccepted, hdropped, hhanded, List.append_nil, ofThread_append]
        rw [hbalance, hqueued, ofThread_cons]
        simp only [List.append_assoc]
      · intro y hy
        exact hinv.queuedElsewhere y (hqueued ▸ List.mem_cons_of_mem _ hy)
      · intro _
        exact step_disconnected h hstate

/-- Nothing is handed over while the connection is down. -/
theorem handedSends_of_disconnected (hstate : c.state = .kDisconnected) (h : step c i = .ok c') :
    c'.handedSends = c.handedSends := by
  cases step_sends h with
  | none hqueued hhanded => exact hhanded
  | direct x hcaller hconnected =>
      rw [hstate] at hconnected
      exact absurd hconnected (by decide)
  | queued x hcaller hqueued hhanded => exact hhanded
  | handed x hup => exact absurd hstate hup
  | dropped x hdown hqueued hhanded => exact hhanded

/-- The connection is down and nothing has been handed over since it was `d`. -/
def NothingHandedSince (d c : UdpConnection) : Prop :=
  c.state = .kDisconnected ∧ c.handedSends = d.handedSends

theorem nothingHandedSince_step {d : UdpConnection} (hinv : NothingHandedSince d c) (h : step c i = .ok c') :
    NothingHandedSince d c' :=
  ⟨step_disconnected h hinv.1, (handedSends_of_disconnected hinv.1 h).trans hinv.2⟩

/-- **Sends are neither lost, duplicated nor reordered.** In every run and for every thread, the payloads
handed to `kcpSession_->Send` are an initial segment of the sends the thread made while `state_` was
`kConnected`: the others are those whose turn came in `kDisconnected` and those still queued, in this
order. Nothing is handed over once `state_` is `kDisconnected`, and the two overloads of `send` do the
same with every payload below `2^31` bytes. -/
theorem sends_in_order (writeComplete : Bool) (inputs : List Input) (c : UdpConnection)
    (hrun : Run writeComplete inputs c) :
    (∀ t : Thread,
      ofThread t c.handedSends <+: ofThread t (outputs step acceptedSend (new writeComplete) inputs) ∧
      ofThread t (outputs step acceptedSend (new writeComplete) inputs) =
        ofThread t c.handedSends ++ ofThread t (outputs step droppedSend (new writeComplete) inputs) ++
          ofThread t c.queuedSends) ∧
    (∀ (before after : List Input) (d : UdpConnection), inputs = before ++ after → Run writeComplete before d →
      d.state = .kDisconnected → c.handedSends = d.handedSends) ∧
    (∀ (caller : Thread) (message : List UInt8) (mode : TransmitModeE) (d : UdpConnection),
      message.length < 2 ^ 31 → d.sendStringPiece caller message mode = d.send caller message mode) ∧
    (∀ (caller : Thread) (buf : Buffer) (mode : TransmitModeE) (d : UdpConnection),
      buf.content.length < 2 ^ 31 → (d.sendBuffer caller buf mode).1 = d.send caller buf.content mode) := by
  refine ⟨?_, ?_, ?_, ?_⟩
  · intro t
    have hnew : SendsAccounted t (new writeComplete) (fun _ => []) :=
      ⟨rfl, by simp [new, queuedSends], by simp⟩
    have hinv := run_outputs_invariant Record.of (SendsAccounted t) (fun _ _ _ _ h1 h2 => sendsAccounted_step h1 h2)
      hnew hrun
    have hbalance := hinv.balance
    simp only [List.nil_append, Record.of] at hbalance
    exact ⟨⟨_, (hbalance.trans (List.append_assoc _ _ _)).symm⟩, hbalance⟩
  · rintro before after d rfl hbefore hstate
    rw [Run, run_append hbefore] at hrun
    have hinv : NothingHandedSince d c :=
      run_invariant (fun _ _ _ h1 h2 => nothingHandedSince_step h1 h2) ⟨hstate, rfl⟩ hrun
    exact hinv.2
  · intro caller message mode d h
    exact sendStringPiece_eq h caller mode d
  · intro caller buf mode d h
    rw [sendBuffer_eq h]

/-- Another thread and the loop thread send; the connection is closed before the other thread's second
payload is taken out of the queue. -/
def twoThreadsSend : List Input :=
  [.connectEstablished, .updateReturns 10, .call (.other 1) (.send [1, 2] 0), .call .loop (.send [3] 1),
    .sendReturns 1, .functor, .sendReturns 2, .call (.other 1) (.send [4] 0), .poll { pollErr := true },
    .handleEvent, .errorCallback 111, .userReturns, .proceed, .userReturns, .proceed, .eventsHandled, .functor]

theorem sends_in_order_twoThreadsSend :
    ∃ c, Run false twoThreadsSend c ∧ ofThread (.other 1) c.handedSends = [⟨.other 1, [1, 2], 0⟩] ∧
      ofThread (.other 1) c.handedSends <+:
        ofThread (.other 1) (outputs step acceptedSend (new false) twoThreadsSend) :=
  ⟨_, rfl, by decide, ((sends_in_order false twoThreadsSend _ rfl).1 (.other 1)).1⟩

end Realtinet.UdpConnection
