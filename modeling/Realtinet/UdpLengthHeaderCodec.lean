import Realtinet.StreamDecoding
import Realtinet.UdpConnectionSends

/-! The codec of the chat examples: every message travels behind its length, a signed 32-bit number in
network order. `send` builds a frame in a buffer; `onMessage` is the message callback of the connection and
takes frames off its input buffer. The loop is shown to refine the decoding of one stream, from which
follow its independence of chunking and the round trip. -/

namespace Realtinet.UdpLengthHeaderCodec

open StreamDecoding

def kHeaderLen : Nat := 4

/-- `hostToNetwork32`: the four bytes of the result as they lie in memory. -/
def hostToNetwork32 (host32 : Int) : List UInt8 :=
  let n := (host32 % 2 ^ 32).toNat
  [UInt8.ofNat (n / 2 ^ 24), UInt8.ofNat (n / 2 ^ 16), UInt8.ofNat (n / 2 ^ 8), UInt8.ofNat n]

/-- The number four bytes spell in network order. -/
def bigEndian (bytes : List UInt8) : Nat := bytes.foldl (fun n b => n * 2 ^ 8 + b.toNat) 0

/-- `networkToHost32` of the four bytes in memory, as an `int32_t`. -/
def networkToHost32 (be32 : List UInt8) : Int := (BitVec.ofNat 32 (bigEndian be32)).toInt

/-- The test of `onMessage` on the length it has read. -/
def invalidLength (len : Int) : Bool := decide (len > 65536) || decide (len < 0)

/-- A message behind its length. -/
def frame (message : List UInt8) : List UInt8 := hostToNetwork32 message.length ++ message

theorem length_hostToNetwork32 (host32 : Int) : (hostToNetwork32 host32).length = kHeaderLen := by
  simp only [hostToNetwork32, List.length_cons, List.length_nil, kHeaderLen]

theorem bigEndian_hostToNetwork32 {n : Nat} (h : n < 2 ^ 31) : bigEndian (hostToNetwork32 n) = n := by
  have hmod : (n : Int) % 2 ^ 32 = n := Int.emod_eq_of_lt (by omega) (by omega)
  simp only [bigEndian, hostToNetwork32, hmod, Int.toNat_natCast, List.foldl_cons, List.foldl_nil,
    UInt8.toNat_ofNat']
  omega

theorem networkToHost32_hostToNetwork32 {n : Nat} (h : n < 2 ^ 31) : networkToHost32 (hostToNetwork32 n) = n := by
  rw [networkToHost32, bigEndian_hostToNetwork32 h, BitVec.toInt_ofNat']
  exact Int.bmod_eq_of_le_mul_two (by omega) (by omega)

theorem networkToHost32_emod (be32 : List UInt8) : networkToHost32 be32 % 2 ^ 32 = (bigEndian be32 : Int) % 2 ^ 32 := by
  rw [networkToHost32, BitVec.toInt_ofNat']
  exact Int.bmod_emod

theorem hostToNetwork32_networkToHost32 {be32 : List UInt8} (hlen : be32.length = kHeaderLen) :
    hostToNetwork32 (networkToHost32 be32) = be32 := by
  obtain ⟨b0, b1, b2, b3, rfl⟩ : ∃ b0 b1 b2 b3, be32 = [b0, b1, b2, b3] := List.length_eq_four.mp hlen
  have h0 := b0.toNat_lt
  have h1 := b1.toNat_lt
  have h2 := b2.toNat_lt
  have h3 := b3.toNat_lt
  have hvalue : bigEndian [b0, b1, b2, b3] = ((b0.toNat * 2 ^ 8 + b1.toNat) * 2 ^ 8 + b2.toNat) * 2 ^ 8 + b3.toNat := by
    simp only [bigEndian, List.foldl_cons, List.foldl_nil, Nat.zero_mul, Nat.zero_add]
  have hmod : networkToHost32 [b0, b1, b2, b3] % 2 ^ 32 = (bigEndian [b0, b1, b2, b3] : Int) := by
    rw [networkToHost32_emod]
    exact Int.emod_eq_of_lt (by omega) (by omega)
  simp only [hostToNetwork32, hmod, Int.toNat_natCast, hvalue, List.cons.injEq, and_true]
  refine ⟨?_, ?_, ?_, ?_⟩ <;> apply UInt8.toNat_inj.mp <;> simp only [UInt8.toNat_ofNat'] <;> omega

/-! ### The format -/

theorem length_frame (message : List UInt8) : (frame message).length = kHeaderLen + message.length := by
  rw [frame, List.length_append, length_hostToNetwork32]

/-- The length spelled by the first four bytes. -/
def headerLength (stream : List UInt8) : Int := networkToHost32 (stream.take kHeaderLen)

/-- Four bytes or more, the first of which spell an invalid length. -/
def InvalidHeader (stream : List UInt8) : Prop :=
  kHeaderLen ≤ stream.length ∧ invalidLength (headerLength stream) = true

instance invalidHeaderDecidable (stream : List UInt8) : Decidable (InvalidHeader stream) :=
  inferInstanceAs (Decidable (_ ∧ _))

/-- What one look at the front of the stream says. -/
def look (stream : List UInt8) : Verdict (List UInt8) :=
  if kHeaderLen ≤ stream.length then
    if invalidLength (headerLength stream) then .reject
    else if (headerLength stream).toNat + kHeaderLen ≤ stream.length then
      .item ((stream.drop kHeaderLen).take (headerLength stream).toNat)
    else .wait
  else .wait

theorem invalidLength_eq_false {len : Int} : invalidLength len = false ↔ 0 ≤ len ∧ len ≤ 65536 := by
  simp only [invalidLength, Bool.or_eq_false_iff, decide_eq_false_iff_not]
  omega

theorem look_eq_reject {stream : List UInt8} : look stream = .reject ↔ InvalidHeader stream := by
  rw [look, InvalidHeader]
  split_ifs with hlen hinvalid hwhole
  · simp [hlen, hinvalid]
  · simp [hinvalid]
  · simp [hinvalid]
  · simp [hlen]

/-- A header followed by as many bytes as it says is a frame. -/
theorem frame_of_headerLength {stream : List UInt8} (hheader : kHeaderLen ≤ stream.length)
    (hnonneg : 0 ≤ headerLength stream) (hwhole : (headerLength stream).toNat + kHeaderLen ≤ stream.length) :
    frame ((stream.drop kHeaderLen).take (headerLength stream).toNat) <+: stream := by
  have hsize : (((stream.drop kHeaderLen).take (headerLength stream).toNat).length : Int) = headerLength stream := by
    rw [List.length_take, List.length_drop]
    omega
  have hbytes : hostToNetwork32 (headerLength stream) = stream.take kHeaderLen :=
    hostToNetwork32_networkToHost32 (by rw [List.length_take]; omega)
  rw [frame, hsize, hbytes]
  refine ⟨(stream.drop kHeaderLen).drop (headerLength stream).toNat, ?_⟩
  rw [List.append_assoc, List.take_append_drop, List.take_append_drop]

theorem headerLength_frame_append {message : List UInt8} (h : message.length ≤ 65536) (tail : List UInt8) :
    headerLength (frame message ++ tail) = message.length := by
  have htake : (frame message ++ tail).take kHeaderLen = hostToNetwork32 message.length := by
    rw [frame, List.append_assoc, List.take_left' (length_hostToNetwork32 _)]
  rw [headerLength, htake, networkToHost32_hostToNetwork32 (by omega)]

theorem look_eq_item {stream message : List UInt8} :
    look stream = .item message ↔ message.length ≤ 65536 ∧ frame message <+: stream := by
  constructor
  · intro h
    rw [look] at h
    split_ifs at h with hlen hinvalid hwhole
    obtain rfl := Verdict.item.inj h
    obtain ⟨hnonneg, hle⟩ := invalidLength_eq_false.mp (Bool.eq_false_iff.mpr hinvalid)
    refine ⟨?_, frame_of_headerLength hlen hnonneg hwhole⟩
    rw [List.length_take]
    omega
  · rintro ⟨hle, tail, rfl⟩
    have hdrop : (frame message ++ tail).drop kHeaderLen = message ++ tail := by
      rw [frame, List.append_assoc, List.drop_left' (length_hostToNetwork32 _)]
    have hlen := length_frame message
    have hvalid : invalidLength (message.length : Int) = false := invalidLength_eq_false.mpr ⟨by omega, by omega⟩
    rw [look, headerLength_frame_append hle, hdrop, hvalid, List.length_append, hlen, if_pos (by omega),
      if_neg (by decide), Int.toNat_natCast, if_pos (by omega), List.take_left]

/-- Frames laid end to end. -/
def format : Format UInt8 (List UInt8) where
  Valid message := message.length ≤ 65536
  encode := frame
  look := look
  encode_pos message := by rw [length_frame, kHeaderLen]; omega
  look_nil := by rw [look, if_neg (by decide)]
  look_encode hvalid := look_eq_item.mpr ⟨hvalid, List.prefix_append _ _⟩
  valid_of_look h := (look_eq_item.mp h).1
  encode_of_look h := (look_eq_item.mp h).2
  look_reject h := by
    obtain ⟨hlen, hinvalid⟩ := look_eq_reject.mp h
    refine look_eq_reject.mpr ⟨by rw [List.length_append]; omega, ?_⟩
    rwa [headerLength, List.take_append_of_le_length hlen]

/-! ### The code -/

/-- What has come of the bytes received: the calls of `udp_messageCallback_`, whether `conn->shutdown()` has
been called, and the input buffer. -/
structure Received where
  messages : List (List UInt8)
  shutdownCalled : Bool
  inputBuffer : Buffer

theorem readableBytes_retrieve {buf : Buffer} {len : Nat} (h : len ≤ buf.readableBytes) :
    (buf.retrieve len h).readableBytes = buf.readableBytes - len := by
  rw [← Buffer.length_content, Buffer.content_retrieve, List.length_drop, Buffer.length_content]

/-- `onMessage`, the user's callback leaving the buffer alone. -/
def onMessage (buf : Buffer) : Received :=
  if hheader : kHeaderLen ≤ buf.readableBytes then
    let len := networkToHost32 (buf.peek kHeaderLen)
    if invalidLength len then ⟨[], true, buf⟩
    -- `len` is not negative here, so that the sum with `size_t` is the sum of the numbers
    else if hwhole : len.toNat + kHeaderLen ≤ buf.readableBytes then
      let body := buf.retrieve kHeaderLen hheader
      let message := body.peek len.toNat
      let rest := onMessage (body.retrieve len.toNat (by rw [readableBytes_retrieve]; omega))
      { rest with messages := message :: rest.messages }
    else ⟨[], false, buf⟩
  else ⟨[], false, buf⟩
termination_by buf.readableBytes
decreasing_by
  rw [readableBytes_retrieve, readableBytes_retrieve]
  rw [kHeaderLen] at hheader ⊢
  omega

/-- The part of `handleRead` after `Recv` has handed over `chunk`: an empty one reaches neither the buffer
nor the callback. -/
def receive (r : Received) (chunk : List UInt8) : Received :=
  if chunk = [] then r
  else
    let next := onMessage (r.inputBuffer.append chunk)
    { messages := r.messages ++ next.messages
      shutdownCalled := r.shutdownCalled || next.shutdownCalled
      inputBuffer := next.inputBuffer }

def receiveAll (chunks : List (List UInt8)) : Received :=
  chunks.foldl receive ⟨[], false, Buffer.new⟩

/-- The buffer that `send` builds: the message, then its length in the room in front of it. -/
def frameBuffer (message : List UInt8) : Buffer :=
  (Buffer.new.append message).prepend (hostToNetwork32 ((message.length : Int).bmod (2 ^ 32)))
    (by
      have hroom := Buffer.le_prependableBytes_append (Nat.le_refl Buffer.new.prependableBytes) message
      rw [length_hostToNetwork32]
      exact Nat.le_trans (by decide) hroom)

/-- `send`, called from the thread `caller`; `kReliable` is the default mode of `conn->send`. -/
def send (kReliable : TransmitModeE) (conn : UdpConnection) (caller : Thread) (message : List UInt8) :
    UdpConnection :=
  (conn.sendBuffer caller (frameBuffer message) kReliable).1

/-! ### The loop decodes the stream -/

/-- What is left of the buffer for an observer: its bytes. -/
def Received.view (r : Received) : Decoded UInt8 (List UInt8) :=
  ⟨r.messages, r.inputBuffer.content, r.shutdownCalled⟩

theorem headerLength_content {buf : Buffer} (h : kHeaderLen ≤ buf.readableBytes) :
    headerLength buf.content = networkToHost32 (buf.peek kHeaderLen) := by
  rw [headerLength, Buffer.peek_eq h]

theorem onMessage_view (buf : Buffer) : (onMessage buf).view = format.decode buf.content := by
  fun_induction onMessage buf with
  | case1 buf hheader len hinvalid =>
      have hreject : format.look buf.content = .reject := by
        refine look_eq_reject.mpr ⟨by rwa [Buffer.length_content], ?_⟩
        rwa [headerLength_content hheader]
      rw [format.decode_of_reject hreject]
      rfl
  | case2 buf hheader len hinvalid hwhole body message rest ih =>
      have hlen : headerLength buf.content = len := headerLength_content hheader
      have hmessage : message = (buf.content.drop kHeaderLen).take len.toNat := by
        rw [← Buffer.content_retrieve hheader]
        exact Buffer.peek_eq (by rw [readableBytes_retrieve]; omega)
      have hitem : format.look buf.content = .item message := by
        change look buf.content = _
        rw [look, hlen, Buffer.length_content, if_pos hheader, if_neg hinvalid, if_pos hwhole, hmessage]
      have hsize : (frame message).length = kHeaderLen + len.toNat := by
        rw [length_frame, hmessage, List.length_take, List.length_drop, Buffer.length_content]
        omega
      have hrest : buf.content.drop (frame message).length = (buf.content.drop kHeaderLen).drop len.toNat := by
        rw [hsize, List.drop_drop]
      rw [Buffer.content_retrieve, Buffer.content_retrieve] at ih
      rw [format.decode_of_item hitem]
      change _ = (format.decode (buf.content.drop (frame message).length)).after [message]
      rw [hrest, ← ih]
      rfl
  | case3 buf hheader len hinvalid hwhole =>
      have hlen : headerLength buf.content = len := headerLength_content hheader
      have hwait : format.look buf.content = .wait := by
        change look buf.content = _
        rw [look, hlen, Buffer.length_content, if_pos hheader, if_neg hinvalid, if_neg hwhole]
      rw [format.decode_of_wait hwait]
      rfl
  | case4 buf hheader =>
      have hwait : format.look buf.content = .wait := by
        change look buf.content = _
        rw [look, Buffer.length_content, if_neg hheader]
      rw [format.decode_of_wait hwait]
      rfl

/-- One call of `onMessage` on what was left and the new chunk is one step of the decoding. -/
theorem receive_view {r : Received} {stream : List UInt8} (h : r.view = format.decode stream) (chunk : List UInt8) :
    (receive r chunk).view = format.decode (stream ++ chunk) := by
  rw [receive]
  split_ifs with hempty
  · rw [h, hempty, List.append_nil]
  · have hnext := onMessage_view (r.inputBuffer.append chunk)
    rw [Buffer.content_append] at hnext
    rw [← format.feed_decode, ← h, Format.feed]
    change (⟨_, _, _⟩ : Decoded UInt8 (List UInt8)) = _
    rw [show r.view.rest = r.inputBuffer.content from rfl, ← hnext]
    rfl

theorem foldl_receive_view {r : Received} {stream : List UInt8} (h : r.view = format.decode stream)
    (chunks : List (List UInt8)) : (chunks.foldl receive r).view = format.decode (stream ++ chunks.flatten) := by
  induction chunks generalizing r stream with
  | nil => rw [List.foldl_nil, h, List.flatten_nil, List.append_nil]
  | cons chunk chunks ih =>
      rw [List.foldl_cons, ih (receive_view h chunk), List.flatten_cons, List.append_assoc]

/-- **The loop refines the decoding of the stream**, however the stream was cut. -/
theorem receiveAll_view (chunks : List (List UInt8)) : (receiveAll chunks).view = format.decode chunks.flatten := by
  have hnew : Received.view ⟨[], false, Buffer.new⟩ = format.decode [] := by
    rw [format.decode_of_wait format.look_nil, Received.view, Buffer.content_new]
  rw [receiveAll, foldl_receive_view hnew, List.nil_append]

/-! ### Chunking and round trip -/

/-- The messages are the payloads of the longest sequence of frames at the front of the stream, the buffer
holds the rest, and `shutdown` has been called exactly if the rest starts with an invalid header. -/
structure DecodesStream (stream : List UInt8) (r : Received) : Prop where
  split : stream = (r.messages.map frame).flatten ++ r.inputBuffer.content
  valid : ∀ m ∈ r.messages, m.length ≤ 65536
  longest : ∀ ms : List (List UInt8), (∀ m ∈ ms, m.length ≤ 65536) → (ms.map frame).flatten <+: stream →
    ms <+: r.messages
  shutdown : r.shutdownCalled = true ↔ InvalidHeader r.inputBuffer.content

theorem decodesStream_of_view {stream : List UInt8} {r : Received} (h : r.view = format.decode stream) :
    DecodesStream stream r := by
  have hspec := format.decode_spec stream
  have hlongest := @Format.prefix_items _ _ format stream
  rw [← h] at hspec hlongest
  refine ⟨hspec.stream, hspec.valid, fun ms hvalid hprefix => hlongest hvalid hprefix, ?_⟩
  rw [← look_eq_reject]
  exact Format.Spec.rejected_iff format hspec

/-- **Decoding does not depend on chunking.** The messages delivered, the bytes left and whether `shutdown`
has been called are a function of the stream: the longest sequence of complete frames at its front is
delivered and the rest is kept. An invalid header stays at the front of the buffer, and nothing that comes
after it is delivered. -/
theorem onMessage_any_chunking :
    ∃ decoded : List UInt8 → Decoded UInt8 (List UInt8), ∀ chunks : List (List UInt8),
      (receiveAll chunks).view = decoded chunks.flatten ∧ DecodesStream chunks.flatten (receiveAll chunks) ∧
      (InvalidHeader (receiveAll chunks).inputBuffer.content → ∀ later : List (List UInt8),
        (receiveAll (chunks ++ later)).messages = (receiveAll chunks).messages ∧
        (receiveAll (chunks ++ later)).inputBuffer.content =
          (receiveAll chunks).inputBuffer.content ++ later.flatten ∧
        (receiveAll (chunks ++ later)).shutdownCalled = true) := by
  refine ⟨format.decode, fun chunks => ?_⟩
  have hview := receiveAll_view chunks
  have hdecodes := decodesStream_of_view hview
  refine ⟨hview, hdecodes, fun hinvalid later => ?_⟩
  have hrejected : (format.decode chunks.flatten).rejected = true := by
    rw [← hview]
    exact hdecodes.shutdown.mpr hinvalid
  have hlater : (receiveAll (chunks ++ later)).view =
      { (receiveAll chunks).view with rest := (receiveAll chunks).view.rest ++ later.flatten } := by
    rw [receiveAll_view, List.flatten_append, format.decode_append_of_rejected hrejected, hview]
  refine ⟨congrArg Decoded.items hlater, congrArg Decoded.rest hlater, ?_⟩
  rw [← hview] at hrejected
  exact (congrArg Decoded.rejected hlater).trans hrejected

theorem content_frameBuffer {message : List UInt8} (h : message.length < 2 ^ 31) :
    (frameBuffer message).content = frame message := by
  have hint : (message.length : Int).bmod (2 ^ 32) = message.length :=
    Int.bmod_eq_of_le_mul_two (by omega) (by omega)
  rw [frameBuffer, Buffer.content_prepend, Buffer.content_append, Buffer.content_new, List.nil_append, hint, frame]

/-- What `send` passes on to the connection is the frame of the message. -/
theorem send_eq {message : List UInt8} (h : message.length ≤ 65536) (kReliable : TransmitModeE) (conn : UdpConnection)
    (caller : Thread) : send kReliable conn caller message = conn.send caller (frame message) kReliable := by
  have hframe : (frameBuffer message).content = frame message := content_frameBuffer (by omega)
  have hsize : (frameBuffer message).content.length < 2 ^ 31 := by
    rw [hframe, length_frame, kHeaderLen]
    omega
  rw [send, UdpConnection.sendBuffer_eq hsize, hframe]

/-- **Round trip.** Each message of at most 65536 bytes goes out as one payload, the content of the buffer that
`send` builds. If the payloads arrive in order, cut into chunks in any way, `onMessage` delivers exactly these
messages, leaves the input buffer empty and never calls `shutdown`. -/
theorem codec_round_trip (messages : List (List UInt8)) (hsize : ∀ m ∈ messages, m.length ≤ 65536)
    (chunks : List (List UInt8))
    (harrive : chunks.flatten = (messages.map fun m => (frameBuffer m).content).flatten) :
    (∀ m ∈ messages, ∀ (kReliable : TransmitModeE) (conn : UdpConnection) (caller : Thread),
      send kReliable conn caller m = conn.send caller (frameBuffer m).content kReliable) ∧
    (receiveAll chunks).messages = messages ∧ (receiveAll chunks).inputBuffer.content = [] ∧
      (receiveAll chunks).shutdownCalled = false := by
  have hframe : ∀ m ∈ messages, (frameBuffer m).content = frame m := by
    intro m hm
    have := hsize m hm
    exact content_frameBuffer (by omega)
  have hstream : chunks.flatten = format.encodeAll messages := by
    rw [harrive, List.map_congr_left hframe]
    rfl
  have hview : (receiveAll chunks).view = ⟨messages, [], false⟩ := by
    rw [receiveAll_view, hstream, format.decode_encodeAll hsize]
  refine ⟨?_, congrArg Decoded.items hview, congrArg Decoded.rest hview, congrArg Decoded.rejected hview⟩
  intro m hm kReliable conn caller
  rw [send_eq (hsize m hm), hframe m hm]

/-- An empty message and one that looks like a header, cut in the middle of both headers. -/
theorem codec_round_trip_cut :
    (receiveAll [[0, 0], [0, 0, 0, 0, 0], [4, 255, 255, 255], [255]]).messages = [[], [255, 255, 255, 255]] :=
  (codec_round_trip [[], [255, 255, 255, 255]] (by decide) [[0, 0], [0, 0, 0, 0, 0], [4, 255, 255, 255], [255]]
    (by
      have hempty : (frameBuffer []).content = frame [] := content_frameBuffer (by decide)
      have hheader : (frameBuffer [255, 255, 255, 255]).content = frame [255, 255, 255, 255] :=
        content_frameBuffer (by decide)
      have hflat : [[0, 0], [0, 0, 0, 0, 0], [4, 255, 255, 255], [255]].flatten =
          [frame [], frame [255, 255, 255, 255]].flatten := by decide
      simpa only [List.map_cons, List.map_nil, hempty, hheader] using hflat)).2.1

end Realtinet.UdpLengthHeaderCodec
