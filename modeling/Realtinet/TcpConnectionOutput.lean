import Realtinet.TcpConnection

/-! The output of a `TcpConnection` over whole runs: which bytes reach the kernel, in which order, and when the writing
side is shut down. A send goes from the thread that makes it to the queue of the loop, and from there to the kernel or to
the output buffer; the invariant accounts for every send that was accepted, and ties the bytes to the sends. -/

namespace Realtinet

open TransitionSystem

namespace TcpConnection

/-- The message a queued functor carries, with the thread it comes from. -/
def Functor.send? : Functor → Option (Thread × List UInt8)
  | .sendInLoop caller message => some (caller, message)
  | _ => none

/-- A functor that only calls user code. -/
def Functor.isCallback : Functor → Bool
  | .writeCompleteCallback => true
  | .highWaterMarkCallback _ => true
  | _ => false

theorem isCallback_of_mem_nil : ∀ f ∈ ([] : List Functor), f.isCallback = true := by
  intro f hf
  cases hf

def queued (c : TcpConnection) : List (Thread × List UInt8) := c.pendingFunctors.filterMap Functor.send?

def posted (c : TcpConnection) : List (Thread × List UInt8) := c.posts.filterMap fun post => post.2.send?

/-- The sends of one thread. -/
def of (thread : Thread) (sends : List (Thread × List UInt8)) : List (Thread × List UInt8) :=
  sends.filter fun send => send.1 = thread

def bytes (sends : List (Thread × List UInt8)) : List UInt8 := (sends.map Prod.snd).flatten

/-- `shutdown` or a close has been called. -/
def Down (c : TcpConnection) : Prop := c.state = .kDisconnecting ∨ c.state = .kDisconnected

variable {c c' d : TcpConnection} {caller : Thread} {message : List UInt8} {result : WriteResult} {i : Input}
  {inputs : List Input}

theorem bytes_append (sends : List (Thread × List UInt8)) (send : Thread × List UInt8) :
    bytes (sends ++ [send]) = bytes sends ++ send.2 := by
  simp [bytes]

/-- The bytes and the interest in writing. -/
structure Output (c : TcpConnection) : Prop where
  stream : c.written ++ c.outputBuffer.content = bytes c.sent
  writing : c.state ≠ .kDisconnected → (c.channel.isWriting = true ↔ c.outputBuffer.content ≠ [])
  shut : c.writeShut = true → c.state ≠ .kDisconnected → c.outputBuffer.content = []
  down : c.writeShut = true → Down c

/-- Nothing that the output depends on has changed. -/
theorem Output.congr (h : Output c) (hstate : c'.state = c.state) (hwriting : c'.channel.isWriting = c.channel.isWriting)
    (hbuffer : c'.outputBuffer = c.outputBuffer) (hwritten : c'.written = c.written)
    (hshut : c'.writeShut = c.writeShut) (hsent : c'.sent = c.sent) : Output c' := by
  refine ⟨?_, ?_, ?_, ?_⟩
  · rw [hwritten, hbuffer, hsent]
    exact h.stream
  · rw [hstate, hwriting, hbuffer]
    exact h.writing
  · rw [hstate, hshut, hbuffer]
    exact h.shut
  · rw [Down, hstate, hshut]
    exact h.down

/-- The connection goes down: what is in the buffer stays there. -/
theorem Output.closed (h : Output c) (hstate : c'.state = .kDisconnected) (hbuffer : c'.outputBuffer = c.outputBuffer)
    (hwritten : c'.written = c.written) (hsent : c'.sent = c.sent) : Output c' := by
  refine ⟨?_, fun hne => absurd hstate hne, fun _ hne => absurd hstate hne, fun _ => .inr hstate⟩
  rw [hwritten, hbuffer, hsent]
  exact h.stream

/-- The connection is on its way down. -/
theorem Output.disconnecting (h : Output c) (hstate : c.state = .kConnected ∨ c.state = .kDisconnecting) :
    Output { c with state := .kDisconnecting } := by
  have hne : c.state ≠ .kDisconnected := by
    rcases hstate with hstate | hstate <;> simp [hstate]
  exact ⟨h.stream, fun _ => h.writing hne, fun hshut _ => h.shut hshut hne, fun _ => .inl rfl⟩

/-- Writing changes the bytes and the interest, and queues callbacks. -/
structure Writes (c c' : TcpConnection) : Prop where
  output : Output c'
  state : c'.state = c.state
  posts : c'.posts = c.posts
  accepted : c'.accepted = c.accepted
  shut : c.writeShut = true → c'.writeShut = true
  functors : ∃ extra, c'.pendingFunctors = c.pendingFunctors ++ extra ∧ ∀ f ∈ extra, f.isCallback = true

theorem content_eq_nil_iff (b : Buffer) : b.readableBytes = 0 ↔ b.content = [] := by
  rw [Buffer.readableBytes_eq, List.length_eq_zero_iff]

/-- The rest of `sendInLoop` for bytes that were not written at once: they go behind those in the buffer, writing is of
interest afterwards, and at most a callback is queued. -/
theorem keepRemaining_eq_ok {remaining : List UInt8} (h : c.keepRemaining remaining = .ok c') :
    ∃ channel extra, channel.isWriting = true ∧ (∀ f ∈ extra, Functor.isCallback f = true) ∧
      c' = { c with
        channel := channel
        outputBuffer := c.outputBuffer.append remaining
        pendingFunctors := c.pendingFunctors ++ extra } := by
  obtain ⟨extra, hextra, hmark⟩ : ∃ extra, (∀ f ∈ extra, Functor.isCallback f = true) ∧
      (if c.highWaterMark ≤ c.outputBuffer.readableBytes + remaining.length ∧
          c.outputBuffer.readableBytes < c.highWaterMark ∧ c.highWaterMarkCallback = true then
        c.queueInLoop (.highWaterMarkCallback (c.outputBuffer.readableBytes + remaining.length))
      else c) = { c with pendingFunctors := c.pendingFunctors ++ extra } := by
    split_ifs with hmark
    · exact ⟨[.highWaterMarkCallback (c.outputBuffer.readableBytes + remaining.length)], by simp [Functor.isCallback],
        rfl⟩
    · exact ⟨[], isCallback_of_mem_nil, by rw [List.append_nil]⟩
  simp only [keepRemaining, hmark] at h
  split_ifs at h with hwriting
  · obtain ⟨channel, henable, hc⟩ := bind_eq_ok.mp h
    exact ⟨channel, extra, (Channel.update_eq_ok henable).writeEvent, hextra, (Except.ok.inj hc).symm⟩
  · cases h
    exact ⟨c.channel, extra, by simpa using hwriting, hextra, rfl⟩

/-- What is kept is accounted for. -/
theorem output_keepRemaining {remaining : List UInt8} (h : c.keepRemaining remaining = .ok c') (hne : remaining ≠ [])
    (hstream : c.written ++ (c.outputBuffer.content ++ remaining) = bytes c.sent)
    (hshut : c.writeShut = true → c.state = .kDisconnected) (hdown : c.writeShut = true → Down c) : Writes c c' := by
  obtain ⟨channel, extra, hwriting, hextra, rfl⟩ := keepRemaining_eq_ok h
  refine ⟨⟨?_, ?_, ?_, hdown⟩, rfl, rfl, rfl, id, ⟨extra, rfl, hextra⟩⟩
  · rw [Buffer.content_append]
    exact hstream
  · intro _
    refine iff_of_true hwriting ?_
    rw [Buffer.content_append]
    exact List.append_ne_nil_of_right_ne_nil _ hne
  · exact fun hs hstate => absurd (hshut hs) hstate

/-- `sendInLoop` took the message: it is written or kept. -/
structure Takes (send : Thread × List UInt8) (c c' : TcpConnection) : Prop where
  writes : Writes c c'
  sent : c'.sent = c.sent ++ [send]
  dropped : c'.dropped = c.dropped
  writing : c.channel.isWriting = true → c'.channel.isWriting = true

/-- Nothing is left to be kept. -/
theorem takes_whole {written : List UInt8} (caller : Thread) (extra : List Functor) (h : Output c)
    (hstream : written ++ c.outputBuffer.content = bytes c.sent ++ message)
    (hextra : ∀ f ∈ extra, f.isCallback = true) :
    Takes (caller, message) c
      { c with
        written := written
        sent := c.sent ++ [(caller, message)]
        pendingFunctors := c.pendingFunctors ++ extra } := by
  refine ⟨⟨⟨?_, h.writing, h.shut, h.down⟩, rfl, rfl, rfl, id, ⟨extra, rfl, hextra⟩⟩, rfl, rfl, id⟩
  rw [bytes_append]
  exact hstream

theorem takes_keepRemaining {remaining written : List UInt8}
    (h : keepRemaining remaining { c with written := written, sent := c.sent ++ [(caller, message)] } = .ok c')
    (hshut : c.writeShut = false) (hne : remaining ≠ [])
    (hstream : written ++ (c.outputBuffer.content ++ remaining) = bytes c.sent ++ message) :
    Takes (caller, message) c c' := by
  have hnot : ¬c.writeShut = true := by simp [hshut]
  have hwrites : Writes { c with written := written, sent := c.sent ++ [(caller, message)] } c' := by
    refine output_keepRemaining h hne ?_ (fun hs => absurd hs hnot) (fun hs => absurd hs hnot)
    rw [bytes_append]
    exact hstream
  obtain ⟨channel, extra, hwriting, -, rfl⟩ := keepRemaining_eq_ok h
  exact ⟨⟨hwrites.output, hwrites.state, hwrites.posts, hwrites.accepted, hwrites.shut, hwrites.functors⟩, rfl, rfl,
    fun _ => hwriting⟩

/-- Nothing has been written: the whole message is kept. -/
theorem takes_rest (houtput : Output c) (hshut : c.writeShut = false)
    (h : (if 0 < message.length then keepRemaining message { c with sent := c.sent ++ [(caller, message)] }
      else .ok { c with sent := c.sent ++ [(caller, message)] }) = .ok c') : Takes (caller, message) c c' := by
  split_ifs at h with hpos
  · refine takes_keepRemaining h hshut (List.ne_nil_of_length_pos hpos) ?_
    rw [← List.append_assoc, houtput.stream]
  · cases h
    have hnil : message = [] := List.length_eq_zero_iff.mp (by omega)
    have hstream : c.written ++ c.outputBuffer.content = bytes c.sent ++ message := by
      rw [hnil, List.append_nil, houtput.stream]
    have htakes := takes_whole caller [] houtput hstream isCallback_of_mem_nil
    rw [List.append_nil] at htakes
    exact htakes

/-- The bytes that `write` has taken at once, and the rest if there is any. -/
theorem takes_wrote {n : Nat} (houtput : Output c) (hshut : c.writeShut = false)
    (hempty : c.outputBuffer.content = [])
    (h : (let d := { c with
            written := c.written ++ message.take (min n message.length), sent := c.sent ++ [(caller, message)] }
        if message.length - min n message.length = 0 then
          if d.writeCompleteCallback then .ok (d.queueInLoop .writeCompleteCallback) else .ok d
        else d.keepRemaining (message.drop (min n message.length))) = Except.ok c') :
    Takes (caller, message) c c' := by
  have hwritten : c.written = bytes c.sent := by
    have hstream := houtput.stream
    rwa [hempty, List.append_nil] at hstream
  have hwhole : message.length - min n message.length = 0 →
      c.written ++ message.take (min n message.length) ++ c.outputBuffer.content = bytes c.sent ++ message := by
    intro hrest
    rw [hempty, List.append_nil, List.take_of_length_le (by omega), hwritten]
  simp only at h
  split_ifs at h with hrest hcallback
  · cases h
    exact takes_whole caller [.writeCompleteCallback] houtput (hwhole hrest) (by simp [Functor.isCallback])
  · cases h
    have htakes := takes_whole caller [] houtput (hwhole hrest) isCallback_of_mem_nil
    rw [List.append_nil] at htakes
    exact htakes
  · refine takes_keepRemaining h hshut ?_ ?_
    · rw [ne_eq, List.drop_eq_nil_iff]
      omega
    · rw [hempty, List.nil_append, List.append_assoc, List.take_append_drop, hwritten]

/-- **`sendInLoop` takes the message or gives it up.** It gives it up when the connection is down, or when it writes at
once and is told that the connection is broken. -/
theorem sendInLoop_cases (houtput : Output c) (h : c.sendInLoop caller message result = .ok c') :
    (c' = { c with dropped := c.dropped ++ [(caller, message)] } ∧
      (c.state = .kDisconnected ∨ c.writeShut = true ∨ result = .broken)) ∨ Takes (caller, message) c c' := by
  by_cases hstate : c.state = .kDisconnected
  · rw [sendInLoop, if_pos hstate] at h
    exact .inl ⟨(Except.ok.inj h).symm, .inl hstate⟩
  by_cases hdirect : (!c.channel.isWriting && c.outputBuffer.readableBytes == 0) = true
  · rw [sendInLoop, if_neg hstate, if_pos hdirect] at h
    rw [Bool.and_eq_true, beq_iff_eq] at hdirect
    have hempty : c.outputBuffer.content = [] := (content_eq_nil_iff _).mp hdirect.2
    by_cases hshut : c.writeShut = true
    · have hkernel : c.kernelWrite message.length result = .broken := by simp [kernelWrite, hshut]
      rw [hkernel] at h
      exact .inl ⟨(Except.ok.inj h).symm, .inr (.inl hshut)⟩
    · have hfalse : c.writeShut = false := Bool.not_eq_true _ |>.mp hshut
      cases result with
      | broken =>
          have hkernel : c.kernelWrite message.length .broken = .broken := by simp [kernelWrite, hshut]
          rw [hkernel] at h
          exact .inl ⟨(Except.ok.inj h).symm, .inr (.inr rfl)⟩
      | wrote n =>
          have hkernel : c.kernelWrite message.length (.wrote n) = .wrote (min n message.length) := by
            simp [kernelWrite, hshut]
          rw [hkernel] at h
          exact .inr (takes_wrote houtput hfalse hempty h)
      | tryAgain =>
          have hkernel : c.kernelWrite message.length .tryAgain = .tryAgain := by simp [kernelWrite, hshut]
          rw [hkernel] at h
          exact .inr (takes_rest houtput hfalse h)
  · rw [sendInLoop, if_neg hstate, if_neg hdirect] at h
    have hne : c.outputBuffer.content ≠ [] := by
      intro hnil
      have hnw : c.channel.isWriting = false := by
        rw [← Bool.not_eq_true, houtput.writing hstate]
        exact fun hne => hne hnil
      have hzero := (content_eq_nil_iff _).mpr hnil
      exact hdirect (by simp [hnw, hzero])
    have hfalse : c.writeShut = false := by
      rw [← Bool.not_eq_true]
      exact fun hshut => hne (houtput.shut hshut hstate)
    exact .inr (takes_rest houtput hfalse h)

/-! ### Writing from the buffer, and shutting down -/

/-- What changes no send, and owes no shutdown that it does not carry out. -/
structure Flushes (c c' : TcpConnection) : Prop where
  writes : Writes c c'
  sent : c'.sent = c.sent
  dropped : c'.dropped = c.dropped
  shuts : c.state = .kDisconnecting → c.channel.isWriting = true → c'.channel.isWriting = true ∨ c'.writeShut = true

theorem Output.flushes_refl (h : Output c) : Flushes c c :=
  ⟨⟨h, rfl, rfl, rfl, id, [], (List.append_nil _).symm, isCallback_of_mem_nil⟩, rfl, rfl,
    fun _ hwriting => .inl hwriting⟩

theorem output_shutdownInLoop (h : Output c) (hdown : Down c) : Output c.shutdownInLoop := by
  rw [shutdownInLoop]
  split_ifs with hwriting
  · have hnw : ¬c.channel.isWriting = true := by simpa using hwriting
    refine ⟨h.stream, h.writing, ?_, fun _ => hdown⟩
    intro _ hstate
    by_contra hne
    exact hnw ((h.writing hstate).mpr hne)
  · exact h

theorem shutdownInLoop_eq (c : TcpConnection) :
    ∃ writeShut, c.shutdownInLoop = { c with writeShut := writeShut } ∧ (c.writeShut = true → writeShut = true) ∧
      (c.channel.isWriting = true ∨ writeShut = true) := by
  rw [shutdownInLoop]
  split_ifs with hwriting
  · exact ⟨true, rfl, fun _ => rfl, .inr rfl⟩
  · exact ⟨c.writeShut, rfl, id, .inl (by simpa using hwriting)⟩

theorem flushes_shutdownInLoop (h : Output c) (hdown : Down c) : Flushes c c.shutdownInLoop := by
  have houtput := output_shutdownInLoop h hdown
  obtain ⟨writeShut, heq, hmono, hshuts⟩ := shutdownInLoop_eq c
  rw [heq] at houtput ⊢
  exact ⟨⟨houtput, rfl, rfl, rfl, hmono, [], (List.append_nil _).symm, isCallback_of_mem_nil⟩, rfl, rfl,
    fun _ _ => hshuts⟩

/-- The buffer is empty now: `writeCompleteCallback_`, and the shutdown that was put off; `channel` has no interest in
writing any more. -/
def drained (channel : Channel) (c : TcpConnection) : TcpConnection :=
  let c := { c with channel := channel }
  let c := if c.writeCompleteCallback then c.queueInLoop .writeCompleteCallback else c
  if c.state = .kDisconnecting then c.shutdownInLoop else c

theorem flushes_drained {channel : Channel} (hnw : channel.isWriting = false) (hstream : c.written = bytes c.sent)
    (hempty : c.outputBuffer.content = []) (hdown : c.writeShut = true → Down c) : Flushes c (c.drained channel) := by
  obtain ⟨extra, hextra, hqueue⟩ : ∃ extra, (∀ f ∈ extra, Functor.isCallback f = true) ∧
      (if c.writeCompleteCallback then queueInLoop .writeCompleteCallback { c with channel := channel }
      else { c with channel := channel }) =
        { c with channel := channel, pendingFunctors := c.pendingFunctors ++ extra } := by
    split_ifs
    · exact ⟨[.writeCompleteCallback], by simp [Functor.isCallback], rfl⟩
    · exact ⟨[], isCallback_of_mem_nil, by rw [List.append_nil]⟩
  have houtput : Output { c with channel := channel, pendingFunctors := c.pendingFunctors ++ extra } := by
    refine ⟨by rw [hempty, List.append_nil, hstream], fun _ => iff_of_false (by simp [hnw]) (fun hne => hne hempty),
      fun _ _ => hempty, hdown⟩
  rw [drained]
  simp only [hqueue]
  split_ifs with hstate
  · have hflushes := flushes_shutdownInLoop houtput (.inl hstate)
    obtain ⟨writeShut, heq, hmono, hshuts⟩ := shutdownInLoop_eq
      { c with channel := channel, pendingFunctors := c.pendingFunctors ++ extra }
    have hshut : writeShut = true := by
      rcases hshuts with hwriting | hshut
      · simp [hnw] at hwriting
      · exact hshut
    have houtput' := hflushes.writes.output
    rw [heq] at houtput' ⊢
    exact ⟨⟨houtput', rfl, rfl, rfl, hmono, extra, rfl, hextra⟩, rfl, rfl, fun _ _ => .inr hshut⟩
  · exact ⟨⟨houtput, rfl, rfl, rfl, id, extra, rfl, hextra⟩, rfl, rfl, fun h => absurd h hstate⟩

/-- `handleWrite` does nothing, or takes what the kernel has accepted out of the buffer, and that may empty it. -/
theorem handleWrite_eq_ok (h : c.handleWrite result = .ok c') :
    c' = c ∨ c.channel.isWriting = true ∧ ∃ n, ∃ hn : n ≤ c.outputBuffer.readableBytes, ∃ d : TcpConnection,
      d = { c with
        written := c.written ++ c.outputBuffer.peek n, outputBuffer := c.outputBuffer.retrieve n hn } ∧
      (d.outputBuffer.readableBytes ≠ 0 ∧ c' = d ∨
        d.outputBuffer.readableBytes = 0 ∧ ∃ channel : Channel, channel.isWriting = false ∧ c' = d.drained channel) := by
  rw [handleWrite] at h
  split_ifs at h with hwriting
  · split at h
    · split_ifs at h with hn
      · refine Or.inr ⟨hwriting, _, hn.2, _, rfl, ?_⟩
        by_cases hzero : (c.outputBuffer.retrieve _ hn.2).readableBytes = 0
        · simp only [if_pos hzero] at h
          obtain ⟨channel, hdisable, hc⟩ := bind_eq_ok.mp h
          exact Or.inr ⟨hzero, channel, (Channel.update_eq_ok hdisable).writeEvent, (Except.ok.inj hc).symm⟩
        · simp only [if_neg hzero] at h
          exact Or.inl ⟨hzero, (Except.ok.inj h).symm⟩
      · exact Or.inl (Except.ok.inj h).symm
    · exact Or.inl (Except.ok.inj h).symm
  · exact Or.inl (Except.ok.inj h).symm

theorem flushes_handleWrite (houtput : Output c) (h : c.handleWrite result = .ok c') : Flushes c c' := by
  rcases handleWrite_eq_ok h with rfl | ⟨hwriting, n, hn, d, rfl, hrest⟩
  · exact houtput.flushes_refl
  · have hcontent := Buffer.content_retrieve hn
    have hstream : c.written ++ c.outputBuffer.peek n ++ (c.outputBuffer.retrieve n hn).content = bytes c.sent := by
      rw [Buffer.peek_eq hn, hcontent, List.append_assoc, List.take_append_drop, houtput.stream]
    rcases hrest with ⟨hleft, rfl⟩ | ⟨hzero, channel, hnw, rfl⟩
    · have hne : (c.outputBuffer.retrieve n hn).content ≠ [] := fun hnil => hleft ((content_eq_nil_iff _).mpr hnil)
      have hshut : c.writeShut = true → c.state ≠ .kDisconnected → (c.outputBuffer.retrieve n hn).content = [] := by
        intro hs hstate
        rw [hcontent, houtput.shut hs hstate, List.drop_nil]
      exact ⟨⟨⟨hstream, fun _ => iff_of_true hwriting hne, hshut, houtput.down⟩, rfl, rfl, rfl, id, [],
        (List.append_nil _).symm, isCallback_of_mem_nil⟩, rfl, rfl, fun _ _ => .inl hwriting⟩
    · have hempty := (content_eq_nil_iff _).mp hzero
      rw [hempty, List.append_nil] at hstream
      have hflushes := flushes_drained (c := { c with
        written := c.written ++ c.outputBuffer.peek n
        outputBuffer := c.outputBuffer.retrieve n hn }) hnw hstream hempty houtput.down
      exact ⟨⟨hflushes.writes.output, hflushes.writes.state, hflushes.writes.posts, hflushes.writes.accepted,
        hflushes.writes.shut, hflushes.writes.functors⟩, hflushes.sent, hflushes.dropped, hflushes.shuts⟩

/-! ### What one input does -/

/-- The connections differ in nothing that the output or the sends depend on. -/
structure Same (c c' : TcpConnection) : Prop where
  state : c'.state = c.state
  writing : c'.channel.isWriting = c.channel.isWriting
  outputBuffer : c'.outputBuffer = c.outputBuffer
  written : c'.written = c.written
  writeShut : c'.writeShut = c.writeShut
  accepted : c'.accepted = c.accepted
  sent : c'.sent = c.sent
  dropped : c'.dropped = c.dropped
  pendingFunctors : c'.pendingFunctors = c.pendingFunctors
  posts : c'.posts = c.posts

theorem Same.refl (c : TcpConnection) : Same c c := ⟨rfl, rfl, rfl, rfl, rfl, rfl, rfl, rfl, rfl, rfl⟩

/-- What only the loop and the reading side look at. -/
theorem Same.aside (stack : List Frame) (activity : Activity Revents) (inputBuffer : Buffer) (delayedCloses : Nat)
    (c : TcpConnection) :
    Same c { c with
      stack := stack, activity := activity, inputBuffer := inputBuffer, delayedCloses := delayedCloses } :=
  ⟨rfl, rfl, rfl, rfl, rfl, rfl, rfl, rfl, rfl, rfl⟩

theorem Same.channel {channel : Channel} (reading : Bool) (stack : List Frame)
    (h : channel.isWriting = c.channel.isWriting) :
    Same c { c with channel := channel, reading := reading, stack := stack } :=
  ⟨rfl, h, rfl, rfl, rfl, rfl, rfl, rfl, rfl, rfl⟩

/-- What an accepted input can do. -/
inductive Change (i : Input) (c c' : TcpConnection) : Prop where
  | quiet (h : Same c c')
  | establish (hstate : c.state = .kConnecting) (h : Same { c with state := .kConnected } c')
  | close (channel : Channel) (hstate : c.state = .kConnected ∨ c.state = .kDisconnecting)
      (h : Same { c with state := .kDisconnected, channel := channel } c')
  | write (result : WriteResult) (stack : List Frame) (h : handleWrite result { c with stack := stack } = .ok c')
  | runSend (caller : Thread) (message : List UInt8) (result : WriteResult) (rest : List Functor)
      (hfunctors : c.pendingFunctors = .sendInLoop caller message :: rest)
      (h : sendInLoop caller message result { c with pendingFunctors := rest } = .ok c')
  | runShutdown (rest : List Functor) (hfunctors : c.pendingFunctors = .shutdownInLoop :: rest)
      (h : c' = shutdownInLoop { c with pendingFunctors := rest })
  | runClose (channel : Channel) (rest : List Functor) (hfunctors : c.pendingFunctors = .forceCloseInLoop :: rest)
      (h : Same { c with pendingFunctors := rest, state := .kDisconnected, channel := channel } c')
  | runOther (functor : Functor) (rest : List Functor) (hfunctors : c.pendingFunctors = functor :: rest)
      (hsend : functor.send? = none) (hother : functor ≠ .shutdownInLoop) (h : Same { c with pendingFunctors := rest } c')
  | enqueue (before : List (Thread × Functor)) (post : Thread × Functor) (after : List (Thread × Functor))
      (hposts : c.posts = before ++ post :: after) (hfirst : ∀ p ∈ before, p.1 ≠ post.1)
      (h : c' = queueInLoop post.2 { c with posts := before ++ after })
  | askClose (hstate : c.state = .kConnected ∨ c.state = .kDisconnecting)
      (h : Same { c with
        state := .kDisconnecting, pendingFunctors := c.pendingFunctors ++ [.forceCloseInLoop] } c')
  | disconnecting (hstate : c.state = .kConnected ∨ c.state = .kDisconnecting)
      (h : Same { c with state := .kDisconnecting } c')
  | sendHere (message : List UInt8) (result : WriteResult) (hi : i = .call .loop (.send message) result)
      (hstate : c.state = .kConnected)
      (h : sendInLoop .loop message result { c with accepted := c.accepted ++ [(.loop, message)] } = .ok c')
  | shutdownHere (hstate : c.state = .kConnected) (h : c' = shutdownInLoop { c with state := .kDisconnecting })
  | postSend (caller : Thread) (message : List UInt8) (result : WriteResult)
      (hi : i = .call caller (.send message) result) (hcaller : caller ≠ .loop) (hstate : c.state = .kConnected)
      (h : c' = { c with
        accepted := c.accepted ++ [(caller, message)]
        posts := c.posts ++ [(caller, .sendInLoop caller message)] })
  | postShutdown (caller : Thread) (hcaller : caller ≠ .loop) (hstate : c.state = .kConnected)
      (h : c' = { c with state := .kDisconnecting, posts := c.posts ++ [(caller, .shutdownInLoop)] })
  | postClose (caller : Thread) (hcaller : caller ≠ .loop) (hstate : c.state = .kConnected ∨ c.state = .kDisconnecting)
      (h : c' = { c with state := .kDisconnecting, posts := c.posts ++ [(caller, .forceCloseInLoop)] })
  | postOther (caller : Thread) (functor : Functor) (hcaller : caller ≠ .loop) (hsend : functor.send? = none)
      (hother : functor ≠ .shutdownInLoop) (h : c' = { c with posts := c.posts ++ [(caller, functor)] })

/-! #### The functions of the channel's interest -/

theorem same_startReadInLoop (h : c.startReadInLoop = .ok c') : Same c c' := by
  rw [startReadInLoop] at h
  split_ifs at h
  · obtain ⟨channel, henable, hc⟩ := bind_eq_ok.mp h
    cases hc
    exact Same.channel _ _ (Channel.update_eq_ok henable).writeEvent
  · cases h
    exact Same.refl c

theorem same_stopReadInLoop (h : c.stopReadInLoop = .ok c') : Same c c' := by
  rw [stopReadInLoop] at h
  split_ifs at h
  · obtain ⟨channel, hdisable, hc⟩ := bind_eq_ok.mp h
    cases hc
    exact Same.channel _ _ (Channel.update_eq_ok hdisable).writeEvent
  · cases h
    exact Same.refl c

theorem handleClose_eq_ok (h : c.handleClose = .ok c') :
    (c.state = .kConnected ∨ c.state = .kDisconnecting) ∧
      ∃ channel, Same { c with state := .kDisconnected, channel := channel } c' := by
  rw [handleClose] at h
  split_ifs at h with hstate
  obtain ⟨channel, -, hc⟩ := bind_eq_ok.mp h
  cases hc
  exact ⟨hstate, channel, Same.aside ..⟩

/-- `handleClose`, called from a callback of the channel. -/
theorem change_handleClose {stack : List Frame} (h : handleClose { c with stack := stack } = .ok c') :
    Change i c c' := by
  obtain ⟨hstate, channel, hsame⟩ := handleClose_eq_ok h
  exact .close channel hstate ⟨hsame.state, hsame.writing, hsame.outputBuffer, hsame.written, hsame.writeShut,
    hsame.accepted, hsame.sent, hsame.dropped, hsame.pendingFunctors, hsame.posts⟩

/-! #### The functions of the owner, of the queue and of the user -/

theorem change_connectEstablished (h : c.connectEstablished = .ok c') : Change i c c' := by
  rw [connectEstablished] at h
  split_ifs at h with hstate
  obtain ⟨channel, henable, hc⟩ := bind_eq_ok.mp h
  cases hc
  exact .establish hstate (Same.channel _ _ (Channel.update_eq_ok henable).writeEvent)

theorem change_connectDestroyed (h : c.connectDestroyed = .ok c') : Change i c c' := by
  rw [connectDestroyed] at h
  split_ifs at h with hstate
  · obtain ⟨channel, -, hc⟩ := bind_eq_ok.mp h
    cases hc
    exact .close channel (.inl hstate) (Same.aside ..)
  · cases h
    exact .quiet (Same.aside ..)

/-- A functor taken from the queue is run. -/
theorem change_functor {functor : Functor} {rest : List Functor} (hfunctors : c.pendingFunctors = functor :: rest)
    (h : runFunctor functor result { c with pendingFunctors := rest } = .ok c') : Change i c c' := by
  cases functor with
  | sendInLoop caller message => exact .runSend caller message result rest hfunctors h
  | shutdownInLoop =>
      cases h
      exact .runShutdown rest hfunctors rfl
  | forceCloseInLoop =>
      simp only [runFunctor, forceCloseInLoop] at h
      split_ifs at h with hstate
      · obtain ⟨-, channel, hsame⟩ := handleClose_eq_ok h
        exact .runClose channel rest hfunctors hsame
      · cases h
        exact .runOther _ rest hfunctors rfl nofun (Same.refl _)
  | startReadInLoop => exact .runOther _ rest hfunctors rfl nofun (same_startReadInLoop h)
  | stopReadInLoop => exact .runOther _ rest hfunctors rfl nofun (same_stopReadInLoop h)
  | writeCompleteCallback =>
      cases h
      exact .runOther _ rest hfunctors rfl nofun (Same.aside ..)
  | highWaterMarkCallback size =>
      cases h
      exact .runOther _ rest hfunctors rfl nofun (Same.aside ..)

theorem change_forceClose (caller : Thread) (c : TcpConnection) : Change i c (c.forceClose caller) := by
  rw [forceClose]
  split_ifs with hstate hcaller
  · exact .askClose hstate (Same.refl _)
  · exact .postClose caller hcaller hstate rfl
  · exact .quiet (Same.refl c)

/-- The timer of `forceCloseWithDelay` is due. -/
theorem change_timer {delayedCloses : Nat} (c : TcpConnection) :
    Change i c (forceClose .loop { c with delayedCloses := delayedCloses }) := by
  simp only [forceClose]
  split_ifs with hstate
  · exact .askClose hstate (Same.aside ..)
  · exact .quiet (Same.aside ..)

/-- A thread queues the first functor of its own. -/
theorem change_enqueue {thread : Thread} {post : Thread × Functor}
    (hfind : c.posts.find? (fun post => post.1 = thread) = some post) :
    Change i c (queueInLoop post.2 { c with posts := c.posts.erase post }) := by
  obtain ⟨hthread, before, after, hposts, hbefore⟩ := List.find?_eq_some_iff_append.mp hfind
  have hthread : post.1 = thread := of_decide_eq_true hthread
  have hfirst : ∀ p ∈ before, p.1 ≠ post.1 := by
    intro p hp
    have hother := hbefore p hp
    simpa [hthread] using hother
  have herase : c.posts.erase post = before ++ after := by
    rw [hposts, List.erase_append_right _ (fun hmem => hfirst post hmem rfl), List.erase_cons_head]
  exact .enqueue before post after hposts hfirst (by rw [herase])

/-- A public function is called. -/
theorem change_runApi {api : Api} (hi : i = .call caller api result) (h : c.runApi caller api result = .ok c') :
    Change i c c' := by
  cases api with
  | send message =>
      simp only [runApi, send, runInLoop] at h
      split_ifs at h with hstate hcaller
      · subst hcaller
        exact .sendHere message result hi hstate h
      · cases h
        exact .postSend caller message result hi hcaller hstate rfl
      · cases h
        exact .quiet (Same.refl c)
  | shutdown =>
      simp only [runApi, shutdown, runInLoop] at h
      split_ifs at h with hstate hcaller
      · cases h
        exact .shutdownHere hstate rfl
      · cases h
        exact .postShutdown caller hcaller hstate rfl
      · cases h
        exact .quiet (Same.refl c)
  | forceClose =>
      cases h
      exact change_forceClose caller c
  | forceCloseWithDelay =>
      simp only [runApi, forceCloseWithDelay] at h
      split_ifs at h with hstate
      · cases h
        exact .disconnecting hstate (Same.aside ..)
      · cases h
        exact .quiet (Same.refl c)
  | startRead =>
      simp only [runApi, runInLoop] at h
      split_ifs at h with hcaller
      · exact .quiet (same_startReadInLoop h)
      · cases h
        exact .postOther caller .startReadInLoop hcaller rfl nofun rfl
  | stopRead =>
      simp only [runApi, runInLoop] at h
      split_ifs at h with hcaller
      · exact .quiet (same_stopReadInLoop h)
      · cases h
        exact .postOther caller .stopReadInLoop hcaller rfl nofun rfl

/-! #### The rests of functions, and the inputs -/

/-- The rest of a function that is called back from the stack. -/
theorem change_proceed (h : c.proceed = .ok c') : Change i c c' := by
  rw [proceed] at h
  split at h
  · cases h
    exact .quiet (Same.aside ..)
  · exact change_handleClose h
  · cases h
    exact .quiet (Same.aside ..)
  · obtain ⟨channel, hremove, hc⟩ := bind_eq_ok.mp h
    obtain ⟨-, -, -, rfl⟩ := Channel.remove_eq_ok_iff.mp hremove
    cases hc
    exact .quiet (Same.channel _ _ rfl)
  · cases h

theorem change_handleRead {readResult : ReadResult} {stack : List Frame}
    (h : handleRead readResult { c with stack := stack } = .ok c') : Change i c c' := by
  cases readResult with
  | received data =>
      cases h
      exact .quiet (Same.aside ..)
  | closed => exact change_handleClose h
  | failed =>
      cases h
      exact .quiet (Same.aside ..)

/-- What a guard lets through. -/
theorem of_guard {guard : Bool} {x : Except Halt TcpConnection}
    (h : (if guard then x else .error .notEnabled) = .ok c') : guard = true ∧ x = .ok c' := by
  split_ifs at h with hguard
  exact ⟨hguard, h⟩

theorem step_change (hstep : step c i = .ok c') : Change i c c' := by
  cases i with
  | connectEstablished => exact change_connectEstablished (of_guard hstep).2
  | connectDestroyed => exact change_connectDestroyed (of_guard hstep).2
  | poll revents =>
      cases (of_guard hstep).2
      exact .quiet (Same.aside ..)
  | handleEvent =>
      simp only [step] at hstep
      split at hstep
      · cases (of_guard hstep).2
        exact .quiet (Same.aside ..)
      · cases hstep
  | eventsHandled =>
      cases (of_guard hstep).2
      exact .quiet (Same.aside ..)
  | proceed => exact change_proceed hstep
  | read readResult =>
      simp only [step] at hstep
      split at hstep
      · exact change_handleRead hstep
      · cases hstep
  | write writeResult =>
      simp only [step] at hstep
      split at hstep
      · exact .write writeResult _ hstep
      · cases hstep
  | functor writeResult =>
      simp only [step] at hstep
      split at hstep
      · rename_i functor rest hfunctors
        exact change_functor hfunctors (of_guard hstep).2
      · cases hstep
  | enqueue thread =>
      simp only [step] at hstep
      split at hstep
      · rename_i post hfind
        cases hstep
        exact change_enqueue hfind
      · cases hstep
  | timer =>
      cases (of_guard hstep).2
      exact change_timer c
  | call caller api writeResult => exact change_runApi rfl (of_guard hstep).2
  | retrieve len =>
      simp only [step] at hstep
      split_ifs at hstep
      cases hstep
      exact .quiet (Same.aside ..)
  | userReturns =>
      simp only [step] at hstep
      split at hstep
      · cases hstep
        exact .quiet (Same.aside ..)
      · cases hstep

end TcpConnection
end Realtinet
