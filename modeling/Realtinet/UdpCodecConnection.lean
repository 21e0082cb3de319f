import Realtinet.UdpLengthHeaderCodec

/-! A connection whose message callback is `UdpLengthHeaderCodec::onMessage`. The callback runs to its end
within the input that delivers the data: it takes whole frames off the input buffer and calls `shutdown` on
an invalid header. Nobody else touches the buffer. -/

namespace Realtinet

open UdpConnection UdpLengthHeaderCodec StreamDecoding TransitionSystem

/-- The connection, with `inputBuffer_` as a buffer and with what the codec has delivered. -/
structure CodecConnection where
  conn : UdpConnection
  received : Received

namespace CodecConnection

def new (writeComplete : Bool) : CodecConnection :=
  ⟨UdpConnection.new writeComplete, ⟨[], false, Buffer.new⟩⟩

/-- The bytes an input hands to `inputBuffer_.append`. -/
def chunkOf : Input → List UInt8
  | .recvReturns true n kcpsessRcvBuf => kcpsessRcvBuf.take n.toNat
  | _ => []

/-- `messageCallback_` on the chunk that has been appended. -/
def afterInput (s : CodecConnection) (conn : UdpConnection) (chunk : List UInt8) : CodecConnection :=
  if chunk = [] then { s with conn := conn }
  else
    let next := onMessage (s.received.inputBuffer.append chunk)
    let conn := if next.shutdownCalled then conn.shutdown else conn
    { conn := { conn with inputBuffer := next.inputBuffer.content }
      received := receive s.received chunk }

def step (s : CodecConnection) (i : Input) : Except Halt CodecConnection :=
  match i with
  | .retrieve _ => .error .notEnabled
  | i =>
      match s.conn.step i with
      | .ok conn => .ok (s.afterInput conn (chunkOf i))
      | .error e => .error e

def Run (writeComplete : Bool) (inputs : List Input) (s : CodecConnection) : Prop :=
  run step (new writeComplete) inputs = .ok s

/-- The bytes received in a run. -/
def streamOf (inputs : List Input) : List UInt8 := (inputs.map chunkOf).flatten

variable {s s' : CodecConnection} {i : Input}

theorem step_eq_ok (h : step s i = .ok s') :
    (∀ len, i ≠ .retrieve len) ∧ ∃ conn, s.conn.step i = .ok conn ∧ s' = s.afterInput conn (chunkOf i) := by
  unfold step at h
  split at h
  · cases h
  · rename_i hne
    split at h
    · rename_i conn hconn
      cases h
      exact ⟨fun len hi => hne len hi, conn, hconn, rfl⟩
    · cases h

theorem inputBuffer_kcpReceived (ok : Bool) (n : Int) (buf : List UInt8) (c : UdpConnection) :
    (c.kcpReceived ok n buf).inputBuffer = c.inputBuffer ++ chunkOf (.recvReturns ok n buf) := by
  unfold kcpReceived
  split_ifs with hok hneg hpos
  · have hfalse : ok = false := by simpa using hok
    rw [hfalse, chunkOf, List.append_nil]
    simp
  · have htrue : ok = true := by simpa using hok
    rw [htrue, chunkOf, Int.toNat_eq_zero.mpr (by omega), List.take_zero, List.append_nil]
  · have htrue : ok = true := by simpa using hok
    rw [htrue, chunkOf]
  · have htrue : ok = true := by simpa using hok
    rw [htrue, chunkOf, Int.toNat_eq_zero.mpr (by omega), List.take_zero, List.append_nil]

theorem inputBuffer_of_not_recv {c c' : UdpConnection} (hrecv : ∀ ok n buf, i ≠ .recvReturns ok n buf)
    (hi : ∀ len, i ≠ .retrieve len) (hstep : c.step i = .ok c') : c'.inputBuffer = c.inputBuffer := by
  cases step_outcome hstep with
  | established hempty h =>
      obtain ⟨-, channel, -, rfl⟩ := connectEstablished_eq_ok h
      rfl
  | destroyed hturn h => exact (sameInput_connectDestroyed h).inputBuffer
  | functor hidle hinactive hqueue h => exact (sameInput_runFunctor h).inputBuffer
  | call hturn h => exact (sameInput_runApi h).inputBuffer
  | hangsUp hstack h => exact (sameInput_handleClose h).inputBuffer
  | errorCallback hstack h => exact (sameInput_handleError h).inputBuffer
  | doSend hturn h => exact (sameInput_doSend h).inputBuffer
  | doRecv hstack h => exact (sameInput_doRecv h).inputBuffer
  | kcpConnection hturn h => exact (sameInput_onKcpsessConnection h).inputBuffer
  | updateReturns hstack h => exact (sameInput_kcpUpdated h).inputBuffer
  | retrieve => exact absurd rfl (hi _)
  | received => exact absurd rfl (hrecv _ _ _)
  | polled hidle hinactive h => rw [h]
  | handling hidle hreported h => rw [h, handleEvent, handleEventWithGuard]
  | eventsHandled hidle hhandled h => rw [h]
  | timer hidle harmed h => rw [h, kcpSessionUpdate]
  | eventReturns hstack h => rw [h]
  | reads hstack h => rw [h, handleRead]
  | callsClose hstack h => rw [h]
  | removes hstack hremove h => rw [h]
  | sendReturns hstack h => rw [h]
  | userReturns hstack h => rw [h]

/-- Only `Recv` adds to the input buffer, and only `retrieve` takes away. -/
theorem step_inputBuffer {c c' : UdpConnection} (hi : ∀ len, i ≠ .retrieve len) (h : c.step i = .ok c') :
    c'.inputBuffer = c.inputBuffer ++ chunkOf i := by
  cases i with
  | retrieve len => exact absurd rfl (hi len)
  | recvReturns ok n buf =>
      simp only [UdpConnection.step] at h
      split_ifs at h
      cases h
      exact inputBuffer_kcpReceived ok n buf c
  | _ =>
      -- no other input appends a chunk
      show c'.inputBuffer = c.inputBuffer ++ []
      rw [List.append_nil]
      exact inputBuffer_of_not_recv (by simp) hi h

/-- The connection's view of its input buffer is that of the codec. -/
def Tied (s : CodecConnection) : Prop := s.conn.inputBuffer = s.received.inputBuffer.content

theorem received_afterInput (conn : UdpConnection) (chunk : List UInt8) :
    (s.afterInput conn chunk).received = receive s.received chunk := by
  unfold afterInput receive
  split_ifs <;> rfl

theorem tied_step (hinv : s.Tied) (h : step s i = .ok s') : s'.Tied := by
  obtain ⟨hi, conn, hconn, rfl⟩ := step_eq_ok h
  have hbuffer := step_inputBuffer hi hconn
  unfold afterInput
  split_ifs with hempty
  · rw [hempty, List.append_nil] at hbuffer
    exact hbuffer.trans hinv
  · show _ = (receive s.received (chunkOf i)).inputBuffer.content
    rw [receive, if_neg hempty]

/-- In every run the codec has received the bytes of the run, chunk by chunk. -/
theorem run_received {t : CodecConnection} {inputs : List Input} (h : run step s inputs = .ok t) :
    t.received = (inputs.map chunkOf).foldl receive s.received := by
  induction inputs generalizing s with
  | nil =>
      cases h
      rfl
  | cons i inputs ih =>
      obtain ⟨s', hstep, hrun⟩ := run_cons_eq_ok.mp h
      obtain ⟨hi, conn, hconn, rfl⟩ := step_eq_ok hstep
      rw [ih hrun, received_afterInput, List.map_cons, List.foldl_cons]

theorem inputBuffer_of_run {writeComplete : Bool} {inputs : List Input} (hrun : Run writeComplete inputs s) :
    s.conn.inputBuffer = (format.decode (streamOf inputs)).rest := by
  have hnew : (new writeComplete).Tied := Buffer.content_new.symm
  have htied : s.Tied := run_invariant (fun _ _ _ h1 h2 => tied_step h1 h2) hnew hrun
  have hreceived : s.received = receiveAll (inputs.map chunkOf) := run_received hrun
  rw [htied, streamOf, ← receiveAll_view, ← hreceived]
  rfl

/-! ### The callback is a run of the connection -/

theorem recv_of_chunk (h : chunkOf i ≠ []) : ∃ n buf, i = .recvReturns true n buf ∧ 0 < n := by
  unfold chunkOf at h
  split at h
  · rename_i n buf
    refine ⟨n, buf, rfl, ?_⟩
    by_contra hn
    rw [Int.toNat_eq_zero.mpr (by omega)] at h
    exact h List.take_zero
  · exact absurd rfl h

/-- `onMessage` takes some bytes off the front. -/
theorem content_onMessage (buf : Buffer) : ∃ len, (onMessage buf).inputBuffer.content = buf.content.drop len := by
  have hspec := format.decode_spec buf.content
  rw [← onMessage_view] at hspec
  refine ⟨(format.encodeAll (onMessage buf).view.items).length, ?_⟩
  conv_rhs => rw [hspec.stream]
  rw [List.drop_left]
  rfl

theorem userTurn_shutdown {c : UdpConnection} (h : c.userTurn = true) : (c.shutdown).userTurn = true := by
  unfold shutdown
  split_ifs with hstate
  · rw [userTurn, hstate] at h
    simpa [userTurn] using h
  · exact h

/-- What the codec does within its callback user code may do: call `shutdown`, and retrieve. -/
theorem run_callback {c : UdpConnection} (hturn : c.userTurn = true) (shutdown : Bool) (len : Nat) :
    ∃ js, run UdpConnection.step c js =
      .ok { (if shutdown then c.shutdown else c) with inputBuffer := c.inputBuffer.drop len } := by
  cases shutdown with
  | true =>
      refine ⟨[.call .loop .shutdown, .retrieve len], ?_⟩
      have hcall : c.step (.call .loop .shutdown) = .ok c.shutdown := by simp [UdpConnection.step, hturn, runApi]
      have hshutdown : c.runApi .loop .shutdown = .ok c.shutdown := rfl
      have hbuffer : c.shutdown.inputBuffer = c.inputBuffer := (sameInput_runApi hshutdown).inputBuffer
      rw [run_cons hcall, run_singleton, UdpConnection.step, if_pos (userTurn_shutdown hturn), hbuffer]
      rfl
  | false =>
      refine ⟨[.retrieve len], ?_⟩
      rw [run_singleton, UdpConnection.step, if_pos hturn]
      rfl

/-- The buffer is tied, and the connection has been reached by its own inputs. -/
def TiedRun (writeComplete : Bool) (s : CodecConnection) : Prop :=
  s.Tied ∧ ∃ js, UdpConnection.Run writeComplete js s.conn

theorem conn_step {writeComplete : Bool} (htied : s.Tied) (hrun : ∃ js, UdpConnection.Run writeComplete js s.conn)
    (h : step s i = .ok s') : ∃ js, UdpConnection.Run writeComplete js s'.conn := by
  obtain ⟨hi, conn, hconn, rfl⟩ := step_eq_ok h
  obtain ⟨before, hbefore⟩ := hrun
  obtain ⟨js, hjs⟩ := exists_run_step ⟨before, hbefore⟩ hconn
  unfold afterInput
  split_ifs with hempty
  · exact ⟨js, hjs⟩
  · obtain ⟨n, buf, rfl, hn⟩ := recv_of_chunk hempty
    have hbuffer := step_inputBuffer hi hconn
    obtain ⟨len, hlen⟩ := content_onMessage (s.received.inputBuffer.append (chunkOf (.recvReturns true n buf)))
    rw [Buffer.content_append, ← htied, ← hbuffer] at hlen
    have hturn : conn.userTurn = true := by
      cases step_outcome hconn with
      | received hstack hreceived =>
          have hstarted : s.conn.state ≠ .kConnecting := fun hstate => by
            rw [waitsForOwner_run hbefore hstate] at hstack
            cases hstack
          have hneg : ¬n < 0 := by omega
          simp [hreceived, kcpReceived, hneg, hn, userTurn, hstarted]
    obtain ⟨more, hmore⟩ := run_callback hturn
      (onMessage (s.received.inputBuffer.append (chunkOf (.recvReturns true n buf)))).shutdownCalled len
    refine ⟨js ++ more, ?_⟩
    rw [UdpConnection.Run, run_append hjs, hmore]
    simp only [hlen]

theorem tiedRun_step {writeComplete : Bool} (hinv : TiedRun writeComplete s) (h : step s i = .ok s') :
    TiedRun writeComplete s' :=
  ⟨tied_step hinv.1 h, conn_step hinv.1 hinv.2 h⟩

/-- **The codec adds nothing to the connection**: every run of the two together is a run of the connection. -/
theorem conn_run {writeComplete : Bool} {inputs : List Input} (hrun : Run writeComplete inputs s) :
    ∃ js, UdpConnection.Run writeComplete js s.conn := by
  have hnew : TiedRun writeComplete (new writeComplete) := ⟨Buffer.content_new.symm, [], rfl⟩
  have hinv : TiedRun writeComplete s := run_invariant (fun _ _ _ h1 h2 => tiedRun_step h1 h2) hnew hrun
  exact hinv.2

/-! ### How much the buffer can hold -/

/-- Behind some complete frames the stream has an invalid header, and from that header on as many bytes as
the largest frame. -/
def InvalidTail (stream : List UInt8) : Prop :=
  ∃ (messages : List (List UInt8)) (tail : List UInt8), (∀ m ∈ messages, m.length ≤ 65536) ∧
    stream = (messages.map frame).flatten ++ tail ∧ InvalidHeader tail ∧ kHeaderLen + 65536 ≤ tail.length

/-- A valid header waits for fewer bytes than the largest frame has. -/
theorem length_lt_of_wait {stream : List UInt8} (h : look stream = .wait) :
    stream.length < kHeaderLen + 65536 := by
  rw [look] at h
  split_ifs at h with hheader hinvalid hwhole
  · have hle := (invalidLength_eq_false.mp (Bool.eq_false_iff.mpr hinvalid)).2
    omega
  · omega

theorem rest_lt_iff (stream : List UInt8) :
    (format.decode stream).rest.length < kHeaderLen + 65536 ↔ ¬InvalidTail stream := by
  constructor
  · rintro hlt ⟨messages, tail, hvalid, rfl, hinvalid, hlong⟩
    have hreject : format.look tail = .reject := look_eq_reject.mpr hinvalid
    have hdecode : format.decode ((messages.map frame).flatten ++ tail) = ⟨messages ++ [], tail, true⟩ := by
      refine (format.decode_encodeAll_append hvalid tail).trans ?_
      rw [format.decode_of_reject hreject]
      rfl
    rw [hdecode] at hlt
    exact absurd hlong (Nat.not_le.mpr hlt)
  · intro hnone
    have hspec := format.decode_spec stream
    cases hrejected : (format.decode stream).rejected with
    | false =>
        have hwait := hspec.stuck
        rw [hrejected] at hwait
        exact length_lt_of_wait hwait
    | true =>
        have hinvalid : InvalidHeader (format.decode stream).rest :=
          look_eq_reject.mp ((Format.Spec.rejected_iff format hspec).mp hrejected)
        by_contra hlong
        exact hnone ⟨_, _, hspec.valid, hspec.stream, hinvalid, Nat.not_lt.mp hlong⟩

/-! ### Reading goes on after `shutdown` -/

/-- The connection waits for the next read event, and will get one. -/
structure Reading (s : CodecConnection) : Prop where
  idle : s.conn.stack = []
  started : s.conn.state ≠ .kConnecting
  noEvents : s.conn.activity = .inactive
  canRead : s.conn.channel.canReport { pollIn := true } = true

/-- One read event that delivers one chunk. -/
def readEvent (chunk : List UInt8) : List Input :=
  [.poll { pollIn := true }, .handleEvent, .proceed, .recvReturns true chunk.length chunk, .userReturns,
    .recvReturns false 0 [], .proceed, .eventsHandled]

/-- A read event is being handled: the calls in progress, and the channel. -/
structure InEvent (stack : List Frame) (channel : Channel) (c : UdpConnection) : Prop where
  stack : c.stack = stack
  started : c.state ≠ .kConnecting
  activity : c.activity = .handled
  channel : c.channel = channel

variable {stack : List Frame} {channel : Channel}

theorem InEvent.shutdown {c : UdpConnection} (h : InEvent stack channel c) : InEvent stack channel c.shutdown := by
  unfold UdpConnection.shutdown
  split_ifs
  · exact ⟨h.stack, nofun, h.activity, h.channel⟩
  · exact h

theorem InEvent.afterInput {conn : UdpConnection} {chunk : List UInt8} (h : InEvent stack channel conn) :
    InEvent stack channel (s.afterInput conn chunk).conn := by
  unfold CodecConnection.afterInput
  split_ifs
  · exact h
  · simp only
    split_ifs
    · exact ⟨h.shutdown.stack, h.shutdown.started, h.shutdown.activity, h.shutdown.channel⟩
    · exact ⟨h.stack, h.started, h.activity, h.channel⟩

theorem step_of_conn {conn : UdpConnection} (hi : ∀ len, i ≠ .retrieve len) (h : s.conn.step i = .ok conn) :
    step s i = .ok (s.afterInput conn (chunkOf i)) := by
  unfold step
  split
  · exact absurd rfl (hi _)
  · rw [h]

/-- The event leads to `Recv`. -/
theorem run_to_recv (h : s.Reading) :
    ∃ t : CodecConnection, run step s [.poll { pollIn := true }, .handleEvent, .proceed] = .ok t ∧
      InEvent [.kcpRecv, .channelEvent] s.conn.channel t.conn := by
  have hidle : s.conn.loopIdle = true := by simp [loopIdle, h.idle, h.started]
  have hpoll : s.conn.step (.poll { pollIn := true }) =
      .ok { s.conn with activity := .reported { pollIn := true } } := by
    simp [UdpConnection.step, hidle, h.noEvents, h.canRead]
  have hevent : UdpConnection.step { s.conn with activity := .reported { pollIn := true } } .handleEvent =
      .ok { s.conn with activity := .handled, stack := [.channelRead, .channelEvent] } := by
    simp [UdpConnection.step, loopIdle, handleEvent, handleEventWithGuard, h.idle, h.started]
  have hproceed : UdpConnection.step { s.conn with activity := .handled, stack := [.channelRead, .channelEvent] }
      .proceed = .ok { s.conn with activity := .handled, stack := [.kcpRecv, .channelEvent] } := by
    simp [UdpConnection.step, proceed, handleRead]
  refine ⟨{ s with conn := { s.conn with activity := .handled, stack := [.kcpRecv, .channelEvent] } }, ?_,
    rfl, h.started, rfl, rfl⟩
  rw [run_cons (step_of_conn (by simp) hpoll)]
  refine (run_cons (step_of_conn (by simp) hevent)).trans ?_
  refine (run_cons (step_of_conn (by simp) hproceed)).trans ?_
  rfl

/-- The codec runs in the callback and leaves the loop of `handleRead` as it was. -/
theorem run_chunk {chunk : List UInt8} (hchunk : chunk ≠ []) (h : InEvent [.kcpRecv, .channelEvent] channel s.conn) :
    ∃ t : CodecConnection, run step s [.recvReturns true chunk.length chunk, .userReturns] = .ok t ∧
      InEvent [.kcpRecv, .channelEvent] channel t.conn := by
  have hpos : 0 < chunk.length := List.length_pos_iff.mpr hchunk
  have hof : chunkOf (.recvReturns true chunk.length chunk) = chunk := by simp [chunkOf]
  obtain ⟨conn, hconn, hinside⟩ : ∃ conn, s.conn.step (.recvReturns true chunk.length chunk) = .ok conn ∧
      InEvent [.user, .kcpRecv, .channelEvent] channel conn := by
    have hnot : ¬((chunk.length : Int) < 0) := by omega
    refine ⟨s.conn.kcpReceived true chunk.length chunk, by simp [UdpConnection.step, h.stack], ?_⟩
    simp only [kcpReceived, hnot, Bool.not_true, Bool.false_eq_true, if_false, gt_iff_lt, Int.natCast_pos, hpos,
      if_true, h.stack]
    exact ⟨rfl, h.started, h.activity, h.channel⟩
  obtain ⟨t, ht, hafter⟩ : ∃ t, s.afterInput conn chunk = t ∧ InEvent [.user, .kcpRecv, .channelEvent] channel t.conn :=
    ⟨_, rfl, hinside.afterInput⟩
  have hreturn : t.conn.step .userReturns = .ok { t.conn with stack := [.kcpRecv, .channelEvent] } := by
    simp [UdpConnection.step, hafter.stack]
  refine ⟨{ t with conn := { t.conn with stack := [.kcpRecv, .channelEvent] } }, ?_, rfl, hafter.started,
    hafter.activity, hafter.channel⟩
  rw [run_cons (step_of_conn (by simp) hconn), hof, ht, run_singleton]
  exact step_of_conn (by simp) hreturn

/-- `Recv` has nothing more, and the event is over. -/
theorem run_to_idle (h : InEvent [.kcpRecv, .channelEvent] channel s.conn) :
    ∃ t : CodecConnection, run step s [.recvReturns false 0 [], .proceed, .eventsHandled] = .ok t ∧
      t.conn.stack = [] ∧ t.conn.state ≠ .kConnecting ∧ t.conn.activity = .inactive ∧ t.conn.channel = channel := by
  have hempty : s.conn.step (.recvReturns false 0 []) = .ok { s.conn with stack := [.channelEvent] } := by
    simp [UdpConnection.step, kcpReceived, h.stack]
  have hreturn : UdpConnection.step { s.conn with stack := [.channelEvent] } .proceed =
      .ok { s.conn with stack := [] } := by
    simp [UdpConnection.step, proceed]
  have hend : UdpConnection.step { s.conn with stack := [] } .eventsHandled =
      .ok { s.conn with stack := [], activity := .inactive } := by
    simp [UdpConnection.step, loopIdle, h.started, h.activity]
  refine ⟨{ s with conn := { s.conn with stack := [], activity := .inactive } }, ?_, rfl, h.started, rfl, h.channel⟩
  rw [run_cons (step_of_conn (by simp) hempty)]
  refine (run_cons (step_of_conn (by simp) hreturn)).trans ?_
  refine (run_cons (step_of_conn (by simp) hend)).trans ?_
  rfl

theorem reading_readEvent {chunk : List UInt8} (h : s.Reading) (hchunk : chunk ≠ []) :
    ∃ t : CodecConnection, run step s (readEvent chunk) = .ok t ∧ t.Reading := by
  obtain ⟨r, hr, hreceiving⟩ := run_to_recv h
  obtain ⟨q, hq, hreceiving'⟩ := run_chunk hchunk hreceiving
  obtain ⟨t, ht, htstack, htstate, htactivity, htchannel⟩ := run_to_idle hreceiving'
  refine ⟨t, (run_append hr).trans ((run_append hq).trans ht), htstack, htstate, htactivity, ?_⟩
  rw [htchannel]
  exact h.canRead

/-- Whatever has been received, read events bring any further chunks, also after `shutdown`. -/
theorem exists_run_chunks {chunks : List (List UInt8)} (h : s.Reading) (hchunks : ∀ chunk ∈ chunks, chunk ≠ []) :
    ∃ t : CodecConnection, run step s (chunks.flatMap readEvent) = .ok t ∧ t.Reading := by
  induction chunks generalizing s with
  | nil => exact ⟨s, rfl, h⟩
  | cons chunk chunks ih =>
      obtain ⟨r, hr, hreading⟩ := reading_readEvent h (hchunks chunk List.mem_cons_self)
      obtain ⟨t, ht, hreading'⟩ := ih hreading fun c hc => hchunks c (List.mem_cons_of_mem _ hc)
      exact ⟨t, (run_append hr).trans ht, hreading'⟩

theorem streamOf_readEvents (chunks : List (List UInt8)) : streamOf (chunks.flatMap readEvent) = chunks.flatten := by
  induction chunks with
  | nil => rfl
  | cons chunk chunks ih =>
      have hevent : streamOf (readEvent chunk) = chunk := by simp [streamOf, readEvent, chunkOf]
      rw [List.flatMap_cons, List.flatten_cons, ← ih]
      unfold streamOf at hevent ⊢
      rw [List.map_append, List.flatten_append, hevent]

/-- **How much a hostile peer can make the buffer hold.** In every state that a run reaches, `inputBuffer_` holds
fewer bytes than the largest frame has, if and only if the stream received so far has no invalid header
with that many bytes from the header on. -/
theorem inputBuffer_bounded_iff (writeComplete : Bool) (inputs : List Input) (s : CodecConnection)
    (hrun : Run writeComplete inputs s) :
    s.conn.inputBuffer.length < kHeaderLen + 65536 ↔ ¬InvalidTail (streamOf inputs) := by
  rw [inputBuffer_of_run hrun]
  exact rest_lt_iff _

/-- An established connection in its event loop. -/
def establish : List Input := [.connectEstablished, .updateReturns 10]

theorem reading_establish : ∃ s, Run false establish s ∧ s.Reading :=
  ⟨_, rfl, rfl, by decide, rfl, by decide⟩

theorem invalidTail_of_header {junk : List UInt8} (h : 65536 ≤ junk.length) :
    InvalidTail ([255, 255, 255, 255] ++ junk) := by
  have hheader : headerLength ([255, 255, 255, 255] ++ junk) = -1 := by
    show networkToHost32 [255, 255, 255, 255] = -1
    decide
  refine ⟨[], [255, 255, 255, 255] ++ junk, by simp, rfl, ⟨?_, ?_⟩, ?_⟩
  · rw [List.length_append]
    exact Nat.le_add_right 4 _
  · rw [hheader]
    rfl
  · rw [List.length_append]
    exact Nat.add_le_add_left h 4

/-- One invalid header makes the codec call `shutdown`; reading goes on, and what comes behind it piles up. -/
theorem exists_run_invalidTail {junk : List UInt8} (h : 65536 ≤ junk.length) :
    ∃ inputs t, Run false inputs t ∧ InvalidTail (streamOf inputs) := by
  obtain ⟨s, hs, hreading⟩ := reading_establish
  have hchunks : ∀ chunk ∈ [[255, 255, 255, 255], junk], chunk ≠ [] := by
    intro chunk hchunk
    rcases List.mem_cons.mp hchunk with rfl | hchunk
    · simp
    · rw [List.mem_singleton.mp hchunk]
      exact List.ne_nil_of_length_pos (by omega)
  obtain ⟨t, ht, -⟩ := exists_run_chunks hreading hchunks
  refine ⟨establish ++ [[255, 255, 255, 255], junk].flatMap readEvent, t, (run_append hs).trans ht, ?_⟩
  have hstream : streamOf (establish ++ [[255, 255, 255, 255], junk].flatMap readEvent) =
      [255, 255, 255, 255] ++ junk := by
    have hflat := streamOf_readEvents [[255, 255, 255, 255], junk]
    unfold streamOf at hflat ⊢
    rw [List.map_append, List.flatten_append, hflat, List.flatten_cons, List.flatten_cons, List.flatten_nil,
      List.append_nil]
    rfl
  rw [hstream]
  exact invalidTail_of_header h

theorem inputBuffer_unbounded :
    ¬∀ (writeComplete : Bool) (inputs : List Input) (s : CodecConnection), Run writeComplete inputs s →
      s.conn.inputBuffer.length < kHeaderLen + 65536 := by
  intro h
  obtain ⟨inputs, t, hrun, htail⟩ :=
    exists_run_invalidTail (Nat.le_of_eq (List.length_replicate (n := 65536) (a := (0 : UInt8))).symm)
  have hlt := h false inputs t hrun
  rw [inputBuffer_of_run hrun, rest_lt_iff] at hlt
  exact hlt htail

/-- A valid frame, and the beginning of the next. -/
theorem inputBuffer_bounded_oneFrame :
    ∃ s, Run false (establish ++ readEvent [0, 0, 0, 1, 65, 0, 0]) s ∧ s.conn.inputBuffer.length < kHeaderLen + 65536 := by
  obtain ⟨s, hs, hreading⟩ := reading_establish
  obtain ⟨t, ht, -⟩ := reading_readEvent hreading (show [0, 0, 0, 1, 65, 0, 0] ≠ ([] : List UInt8) by simp)
  have hrun : Run false (establish ++ readEvent [0, 0, 0, 1, 65, 0, 0]) t := (run_append hs).trans ht
  refine ⟨t, hrun, (inputBuffer_bounded_iff false _ t hrun).mpr ?_⟩
  rintro ⟨messages, tail, -, hstream, -, hlong⟩
  have hlen := congrArg List.length hstream
  rw [List.length_append] at hlen
  have hseven : (streamOf (establish ++ readEvent [0, 0, 0, 1, 65, 0, 0])).length = 7 := by decide
  omega

end CodecConnection
end Realtinet
