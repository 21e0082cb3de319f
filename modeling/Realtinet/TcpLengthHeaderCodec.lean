import Realtinet.TcpConnectionSends
import Realtinet.UdpLengthHeaderCodec

/-! The codec of the TCP chat examples between two connections. `onMessage` and the buffer that `send` builds are the same
code as in the UDP codec; what differs is the transport: the frames leave through the output buffer of one connection, in
as many writes as the kernel makes of them, and come in through `readFd` of the other. -/

namespace Realtinet

open TransitionSystem StreamDecoding

namespace TcpLengthHeaderCodec

open UdpLengthHeaderCodec (Received format frame frameBuffer content_frameBuffer)
open TcpConnection (Input Run bytes)

def onMessage (buf : Buffer) : Received := UdpLengthHeaderCodec.onMessage buf

/-- A send through the codec. -/
def send : Input → Input
  | .call caller (.send message) result => .call caller (.send (frameBuffer message).content) result
  | i => i

/-- `TcpConnection::handleRead` when `readFd` has returned a positive number: the codec is the message callback. -/
def receive (r : Received) (chunk : List UInt8) : Received :=
  if chunk = [] then r
  else
    let next := onMessage (r.inputBuffer.readFd chunk)
    { messages := r.messages ++ next.messages
      shutdownCalled := r.shutdownCalled || next.shutdownCalled
      inputBuffer := next.inputBuffer }

def receiveAll (chunks : List (List UInt8)) : Received := chunks.foldl receive ⟨[], false, Buffer.new⟩

variable {c c' : TcpConnection} {i : Input} {inputs : List Input}

/-! ### The receiver -/

theorem receive_view {r : Received} {stream : List UInt8} (h : r.view = format.decode stream) (chunk : List UInt8) :
    (receive r chunk).view = format.decode (stream ++ chunk) := by
  rw [receive]
  split_ifs with hempty
  · rw [h, hempty, List.append_nil]
  · have hnext : (onMessage (r.inputBuffer.readFd chunk)).view = format.decode (r.view.rest ++ chunk) := by
      rw [onMessage, UdpLengthHeaderCodec.onMessage_view, Buffer.content_readFd]
      rfl
    rw [← format.feed_decode, ← h, Format.feed, ← hnext]
    rfl

theorem receiveAll_view (chunks : List (List UInt8)) : (receiveAll chunks).view = format.decode chunks.flatten := by
  have hfold : ∀ (chunks : List (List UInt8)) (r : Received) (stream : List UInt8), r.view = format.decode stream →
      (chunks.foldl receive r).view = format.decode (stream ++ chunks.flatten) := by
    intro chunks
    induction chunks with
    | nil =>
        intro r stream h
        rw [List.foldl_nil, h, List.flatten_nil, List.append_nil]
    | cons chunk chunks ih =>
        intro r stream h
        rw [List.foldl_cons, ih _ _ (receive_view h chunk), List.flatten_cons, List.append_assoc]
  have hnew : Received.view ⟨[], false, Buffer.new⟩ = format.decode [] := by
    rw [format.decode_of_wait format.look_nil, Received.view, Buffer.content_new]
  exact hfold chunks _ [] hnew

/-! ### The sender -/

/-- The payload of a message that the codec may send. -/
def Framed (payload : List UInt8) : Prop := ∃ message : List UInt8, message.length ≤ 65536 ∧ payload = frame message

/-- The input is no send of the connection, or one that the codec makes. -/
def FramedInput (i : Input) : Prop := ∀ caller payload result, i = .call caller (.send payload) result → Framed payload

theorem framedInput_send (hsize : ∀ caller message result, i = .call caller (.send message) result → message.length ≤ 65536) :
    FramedInput (send i) := by
  unfold send
  split
  · rename_i caller message result
    have hlength := hsize caller message result rfl
    intro caller' payload result' heq
    injection heq with _ hapi _
    injection hapi with hpayload
    rw [← hpayload]
    exact ⟨message, hlength, content_frameBuffer (by omega)⟩
  · rename_i hother
    intro caller payload result heq
    exact absurd heq (hother caller payload result)

/-- What is accepted has been sent through the codec. -/
theorem framed_step (h : c.Sound ∧ ∀ x ∈ c.accepted, Framed x.2) (hi : FramedInput i)
    (hstep : TcpConnection.step c i = .ok c') : c'.Sound ∧ ∀ x ∈ c'.accepted, Framed x.2 := by
  refine ⟨TcpConnection.sound_step h.1 hstep, ?_⟩
  rcases TcpConnection.accepted_step h.1.output hstep with heq | ⟨caller, message, result, hcall, heq⟩
  · rw [heq]
    exact h.2
  · intro x hx
    rw [heq, List.mem_append, List.mem_singleton] at hx
    rcases hx with hx | rfl
    · exact h.2 x hx
    · exact hi caller message result hcall

/-- Framed payloads, one after the other, are the encoding of their messages. -/
theorem exists_messages {sends : List (Thread × List UInt8)} (h : ∀ x ∈ sends, Framed x.2) :
    ∃ taken : List (Thread × List UInt8), sends = taken.map (fun x => (x.1, frame x.2)) ∧
      ∀ m ∈ taken.map Prod.snd, m.length ≤ 65536 := by
  induction sends with
  | nil => exact ⟨[], rfl, nofun⟩
  | cons x sends ih =>
      obtain ⟨taken, rfl, hsize⟩ := ih fun y hy => h y (List.mem_cons_of_mem _ hy)
      obtain ⟨message, hlength, hpayload⟩ := h x List.mem_cons_self
      refine ⟨(x.1, message) :: taken, ?_, ?_⟩
      · rw [List.map_cons, ← hpayload]
      · intro m hm
        rw [List.map_cons, List.mem_cons] at hm
        rcases hm with rfl | hm
        · exact hlength
        · exact hsize m hm

theorem bytes_frames (taken : List (Thread × List UInt8)) :
    bytes (taken.map fun x => (x.1, frame x.2)) = format.encodeAll (taken.map Prod.snd) := by
  rw [bytes, Format.encodeAll, List.map_map, List.map_map]
  rfl

/-- **Chat messages arrive whole and in order.** Several threads send messages of at most 65536 bytes through the codec.
However the kernel cuts the stream on the way out and `readFd` on the way in, the receiver's `onMessage` delivers a prefix
of the messages that the sender's `sendInLoop` has taken over, all of them once all bytes have arrived, and never calls
`shutdown`. -/
theorem messages_arrive {writeCompleteCallback highWaterMarkCallback : Bool} {highWaterMark : Nat}
    {chunks : List (List UInt8)}
    (hsize : ∀ caller message result, .call caller (.send message) result ∈ inputs → message.length ≤ 65536)
    (hrun : Run writeCompleteCallback highWaterMarkCallback highWaterMark (inputs.map send) c)
    (harrive : chunks.flatten <+: c.written) :
    ∃ taken : List (Thread × List UInt8), c.sent = taken.map (fun x => (x.1, frame x.2)) ∧
      (receiveAll chunks).messages <+: taken.map Prod.snd ∧ (receiveAll chunks).shutdownCalled = false ∧
      (chunks.flatten = bytes c.sent → (receiveAll chunks).messages = taken.map Prod.snd) := by
  have hinputs : ∀ i ∈ inputs.map send, FramedInput i := by
    intro i hi
    obtain ⟨j, hj, rfl⟩ := List.mem_map.mp hi
    exact framedInput_send fun caller message result heq => hsize caller message result (heq ▸ hj)
  have hstep : ∀ c i c', (TcpConnection.Sound c ∧ ∀ x ∈ c.accepted, Framed x.2) → FramedInput i →
      TcpConnection.step c i = .ok c' → TcpConnection.Sound c' ∧ ∀ x ∈ c'.accepted, Framed x.2 :=
    fun _ _ _ => framed_step
  obtain ⟨hsound, haccepted⟩ :=
    run_invariant_along hstep ⟨TcpConnection.sound_new, nofun⟩ (along_of_mem hinputs _) hrun
  have hsent : ∀ x ∈ c.sent, Framed x.2 := by
    intro x hx
    refine haccepted x (hsound.ledger.account.mem_iff.mp ?_)
    simp [hx]
  obtain ⟨taken, htaken, hlengths⟩ := exists_messages hsent
  have hbytes : bytes c.sent = format.encodeAll (taken.map Prod.snd) := by rw [htaken, bytes_frames]
  have hview := receiveAll_view chunks
  have hitems : (receiveAll chunks).messages = (format.decode chunks.flatten).items := congrArg Decoded.items hview
  have hrejected : (receiveAll chunks).shutdownCalled = (format.decode chunks.flatten).rejected :=
    congrArg Decoded.rejected hview
  have hprefix : chunks.flatten <+: format.encodeAll (taken.map Prod.snd) := by
    rw [← hbytes, ← hsound.output.stream]
    exact harrive.trans (List.prefix_append _ _)
  obtain ⟨hfirst, hvalid⟩ := format.items_of_prefix hlengths hprefix
  refine ⟨taken, htaken, hitems ▸ hfirst, hrejected.trans hvalid, ?_⟩
  intro hall
  rw [hitems, hall, hbytes, format.decode_encodeAll hlengths]

/-- Two messages of two threads, the first of which leaves in two writes, come in three chunks. -/
def twoMessages : List Input :=
  [.connectEstablished, .userReturns, .call .loop (.send [65]) (.wrote 3), .call (.other 7) (.send []) .tryAgain,
    .enqueue (.other 7), .functor .tryAgain, .poll { pollOut := true }, .handleEvent, .write (.wrote 6)]

theorem messages_arrive_twoMessages :
    ∃ c, Run true true 100 (twoMessages.map send) c ∧
      (receiveAll [[0], [0, 0, 1, 65], [0, 0, 0, 0]]).messages.length = 2 := by
  have hends : TcpConnection.ends (TcpConnection.new true true 100) (twoMessages.map send)
      (fun c => c.written = [0, 0, 0, 1, 65, 0, 0, 0, 0] ∧ bytes c.sent = c.written ∧ c.sent.length = 2) = true := by
    decide +kernel
  obtain ⟨c, hrun, htest⟩ := TcpConnection.exists_run hends
  obtain ⟨hwritten, hbytes, hlength⟩ := of_decide_eq_true htest
  have hsize : ∀ caller message result, .call caller (.send message) result ∈ twoMessages → message.length ≤ 65536 := by
    intro caller message result hmem
    simp only [twoMessages, List.mem_cons, Input.call.injEq, TcpConnection.Api.send.injEq, reduceCtorEq, false_or,
      List.not_mem_nil, or_false] at hmem
    rcases hmem with ⟨-, rfl, -⟩ | ⟨-, rfl, -⟩ <;> decide
  have hflatten : [[0], [0, 0, 1, 65], [0, 0, 0, 0]].flatten = c.written := hwritten.symm
  have harrive : [[0], [0, 0, 1, 65], [0, 0, 0, 0]].flatten <+: c.written := ⟨[], by rw [List.append_nil, hflatten]⟩
  obtain ⟨taken, htaken, -, -, hall⟩ := messages_arrive hsize hrun harrive
  refine ⟨c, hrun, ?_⟩
  rw [hall (hflatten.trans hbytes.symm), List.length_map, ← hlength, htaken, List.length_map]

end TcpLengthHeaderCodec
end Realtinet
