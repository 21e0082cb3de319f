import Mathlib.Order.MinMax
import Realtinet.Buffer
import Realtinet.TransitionSystem

/-! `muduo::net::Buffer` over whole runs of its operations. A byte queue says what a buffer is for: the bytes it holds,
how many may be put in front, how many may be written in place at the end, and how much it was ever asked to hold. The
buffer keeps to it, whichever way it makes room. -/

namespace Realtinet

open TransitionSystem

namespace Buffer

/-! ### The other operations -/

def unwrite (b : Buffer) (len : Nat) (h : len ≤ b.readableBytes) : Buffer :=
  { b with
    writerIndex := b.writerIndex - len
    reader_le_writer := by
      have := b.reader_le_writer
      rw [readableBytes] at h
      omega
    writer_le_size := Nat.le_trans (Nat.sub_le _ _) b.writer_le_size }

/-- `shrink`; the bytes are handed on as a `StringPiece`, whose length is an `int`. -/
def shrink (b : Buffer) (reserve : Nat) : Buffer :=
  (new.ensureWritableBytes (b.readableBytes + reserve)).append b.content

/-- `sizeof extrabuf` of `readFd`. -/
def extrabufSize : Nat := 65536

/-- The bytes that `readFd` offers to `readv`. -/
def iovLen (b : Buffer) : Nat := b.writableBytes + if b.writableBytes < extrabufSize then extrabufSize else 0

/-- `readFd` when `readv` has delivered `data`: first into the block, the rest by way of `extrabuf`. -/
def readFd (b : Buffer) (data : List UInt8) : Buffer :=
  if h : data.length ≤ b.writableBytes then b.write data h
  else
    (b.write (data.take b.writableBytes) (List.length_take_le _ _)).append (data.drop b.writableBytes)

/-- `hasWritten` comes after the caller has written `data` from `beginWrite()` on; `readFd` comes with what `readv`
delivered, or nothing if it failed. -/
inductive Op where
  | append (data : List UInt8)
  | prepend (data : List UInt8)
  | retrieve (len : Nat)
  | retrieveAll
  | unwrite (len : Nat)
  | ensureWritableBytes (len : Nat)
  | hasWritten (data : List UInt8)
  | shrink (reserve : Nat)
  | readFd (result : Option (List UInt8))
  deriving DecidableEq, Repr

/-- An assert fails; more bytes than an `int` counts; more bytes than `readv` was given room for. -/
inductive Halt where
  | assert
  | intOverflow
  | notEnabled
  deriving DecidableEq, Repr

def step (b : Buffer) : Op → Except Halt Buffer
  | .append data => .ok (b.append data)
  | .prepend data => if h : data.length ≤ b.prependableBytes then .ok (b.prepend data h) else .error .assert
  | .retrieve len => if h : len ≤ b.readableBytes then .ok (b.retrieve len h) else .error .assert
  | .retrieveAll => .ok b.retrieveAll
  | .unwrite len => if h : len ≤ b.readableBytes then .ok (b.unwrite len h) else .error .assert
  | .ensureWritableBytes len => .ok (b.ensureWritableBytes len)
  | .hasWritten data => if h : data.length ≤ b.writableBytes then .ok (b.write data h) else .error .assert
  | .shrink reserve => if b.readableBytes < 2147483648 then .ok (b.shrink reserve) else .error .intOverflow
  | .readFd none => .ok b
  | .readFd (some data) => if data.length ≤ b.iovLen then .ok (b.readFd data) else .error .notEnabled

end Buffer

/-! ### The byte queue -/

/-- What a buffer is for: `reserve` bytes may be put in front and `room` bytes written in place; `demand` is the most
that it was asked to hold. -/
structure ByteQueue where
  content : List UInt8
  reserve : Nat
  room : Nat
  demand : Nat
  deriving DecidableEq, Repr

namespace ByteQueue

open Buffer (Op)

def empty : ByteQueue := ⟨[], kCheapPrepend, kInitialSize, 0⟩

def cleared (q : ByteQueue) : ByteQueue := ⟨[], kCheapPrepend, 0, q.demand⟩

def push (data : List UInt8) (room : Nat) (q : ByteQueue) : ByteQueue :=
  ⟨q.content ++ data, q.reserve, room, max q.demand (q.content.length + data.length)⟩

def apply (q : ByteQueue) : Op → ByteQueue
  | .append data => q.push data (q.room - data.length)
  | .prepend data => { q with content := data ++ q.content, reserve := q.reserve - data.length }
  | .retrieve len =>
      if len < q.content.length then
        { q with content := q.content.drop len, reserve := min kCheapPrepend (q.reserve + len) }
      else q.cleared
  | .retrieveAll => q.cleared
  | .unwrite len => { q with content := q.content.take (q.content.length - len), room := q.room + len }
  | .ensureWritableBytes len => { q with room := len, demand := max q.demand (q.content.length + len) }
  | .hasWritten data => q.push data (q.room - data.length)
  | .shrink reserve =>
      ⟨q.content, kCheapPrepend, reserve, max q.demand (q.content.length + reserve)⟩
  | .readFd none => q
  | .readFd (some data) => q.push data (q.room - data.length)

/-- What its users may ask of it. -/
def allows (q : ByteQueue) : Op → Bool
  | .prepend data => data.length ≤ q.reserve
  | .retrieve len => len ≤ q.content.length
  | .unwrite len => len ≤ q.content.length
  | .hasWritten data => data.length ≤ q.room
  | .shrink _ => q.content.length < 2147483648
  | .readFd (some data) => data.length ≤ Buffer.extrabufSize
  | _ => true

/-- The queue itself: it accepts what it allows. -/
def step (q : ByteQueue) (op : Op) : Except Unit ByteQueue := if q.allows op then .ok (q.apply op) else .error ()

/-- What the operations come to. -/
def after (ops : List Op) : ByteQueue := ops.foldl apply empty

end ByteQueue

namespace Buffer

variable {b b' : Buffer} {data : List UInt8} {len reserve : Nat} {q : ByteQueue} {op : Op}

/-! ### Making room -/

theorem readableBytes_eq (b : Buffer) : b.readableBytes = b.content.length := b.length_content.symm

/-- The block has grown to less than twice what it must hold, or it has not grown. -/
theorem length_ensureWritableBytes_le (b : Buffer) (len : Nat) :
    (b.ensureWritableBytes len).buffer.length ≤ max b.buffer.length (8 + 2 * (b.content.length + len)) := by
  have := b.reader_le_writer
  have := b.writer_le_size
  rw [← readableBytes_eq, ensureWritableBytes]
  split_ifs with h
  · rw [makeSpace]
    split_ifs with hgrow
    · simp only [length_resize]
      simp only [writableBytes, prependableBytes, readableBytes, kCheapPrepend] at *
      omega
    · have hfront : kCheapPrepend < b.readerIndex := by
        rw [prependableBytes] at hgrow
        omega
      exact le_sup_of_le_left (Nat.le_of_eq (length_overwrite (content_le_of_front hfront)))
  · exact le_max_left _ _

/-- Making room leaves as many bytes in front, or as many as a new buffer has. -/
theorem min_prependableBytes_le (b : Buffer) (len : Nat) :
    min kCheapPrepend b.prependableBytes ≤ (b.ensureWritableBytes len).prependableBytes := by
  rw [ensureWritableBytes]
  split_ifs
  · rw [makeSpace]
    split_ifs
    · exact min_le_right _ _
    · exact min_le_left _ _
  · exact min_le_right _ _

theorem length_write (h : data.length ≤ b.writableBytes) : (b.write data h).buffer.length = b.buffer.length := by
  have := b.writer_le_size
  rw [writableBytes] at h
  exact length_overwrite (by omega)

theorem writableBytes_write (h : data.length ≤ b.writableBytes) :
    (b.write data h).writableBytes = b.writableBytes - data.length := by
  rw [writableBytes, length_write h, writableBytes, Nat.sub_sub]
  rfl

/-- The bytes of `readv` end up behind one another, whichever way they took. -/
theorem content_readFd (b : Buffer) (data : List UInt8) : (b.readFd data).content = b.content ++ data := by
  rw [readFd]
  split_ifs with hfits
  · exact content_write hfits
  · rw [content_append, content_write, List.append_assoc, List.take_append_drop]

/-- A buffer keeps to a byte queue. -/
structure Holds (b : Buffer) (q : ByteQueue) : Prop where
  content : b.content = q.content
  reserve_le_eight : q.reserve ≤ kCheapPrepend
  reserve : q.reserve ≤ b.prependableBytes
  room : q.room ≤ b.writableBytes
  size : b.buffer.length ≤ max (kCheapPrepend + kInitialSize) (8 + 2 * q.demand)

theorem length_new : new.buffer.length = kCheapPrepend + kInitialSize := List.length_replicate

theorem holds_new : Holds new .empty := by
  refine ⟨content_new, Nat.le_refl _, Nat.le_refl _, ?_, ?_⟩
  · rw [writableBytes, length_new]
    exact Nat.le_refl _
  · rw [length_new]
    exact le_max_left _ _

theorem holds_write (h : Holds b q) (hroom : data.length ≤ b.writableBytes) :
    Holds (b.write data hroom) (q.push data (q.room - data.length)) := by
  refine ⟨?_, h.reserve_le_eight, h.reserve, ?_, ?_⟩
  · rw [content_write, h.content]
    rfl
  · rw [writableBytes_write]
    exact Nat.sub_le_sub_right h.room _
  · rw [length_write]
    refine le_trans h.size (max_le_max (le_refl _) ?_)
    change 8 + 2 * q.demand ≤ 8 + 2 * max q.demand (q.content.length + data.length)
    omega

/-- Making room for `len` bytes, whether the block grows or the bytes move to the front. -/
theorem holds_ensureWritableBytes (h : Holds b q) (len : Nat) :
    Holds (b.ensureWritableBytes len) (q.apply (.ensureWritableBytes len)) := by
  refine ⟨?_, h.reserve_le_eight, ?_, b.le_writableBytes_ensureWritableBytes len, ?_⟩
  · rw [content_ensureWritableBytes, h.content]
    rfl
  · exact le_trans (le_min h.reserve_le_eight h.reserve) (min_prependableBytes_le b len)
  · have hlength := b.length_ensureWritableBytes_le len
    have hsize := h.size
    rw [h.content] at hlength
    change _ ≤ max (kCheapPrepend + kInitialSize) (8 + 2 * max q.demand (q.content.length + len))
    omega

theorem holds_append (h : Holds b q) (data : List UInt8) : Holds (b.append data) (q.apply (.append data)) := by
  have hensured := holds_ensureWritableBytes h data.length
  have hwritten := holds_write hensured (b.le_writableBytes_ensureWritableBytes data.length)
  refine ⟨hwritten.content, hwritten.reserve_le_eight, hwritten.reserve, ?_, ?_⟩
  · change q.room - data.length ≤ ((b.ensureWritableBytes data.length).write data _).writableBytes
    rw [writableBytes_write]
    have hroom := h.room
    by_cases hlt : b.writableBytes < data.length
    · omega
    · rw [ensureWritableBytes, dif_neg hlt]
      omega
  · refine le_trans hwritten.size (max_le_max (le_refl _) ?_)
    change 8 + 2 * max (max q.demand (q.content.length + data.length)) (q.content.length + data.length) ≤
      8 + 2 * max q.demand (q.content.length + data.length)
    omega

theorem holds_prepend (h : Holds b q) (hroom : data.length ≤ b.prependableBytes) :
    Holds (b.prepend data hroom) (q.apply (.prepend data)) := by
  have hlength : (b.prepend data hroom).buffer.length = b.buffer.length := by
    have := b.writer_le_size
    have := b.reader_le_writer
    rw [prependableBytes] at hroom
    exact length_overwrite (by omega)
  refine ⟨?_, Nat.le_trans (Nat.sub_le _ _) h.reserve_le_eight, Nat.sub_le_sub_right h.reserve _, ?_, ?_⟩
  · rw [content_prepend, h.content]
    rfl
  · rw [writableBytes, hlength]
    exact h.room
  · rw [hlength]
    exact h.size

theorem holds_retrieveAll (h : Holds b q) : Holds b.retrieveAll q.cleared :=
  ⟨content_retrieveAll b, Nat.le_refl _, Nat.le_refl _, Nat.zero_le _, h.size⟩

theorem holds_retrieve (h : Holds b q) (hlen : len ≤ b.readableBytes) :
    Holds (b.retrieve len hlen) (q.apply (.retrieve len)) := by
  have hlength : b.readableBytes = q.content.length := by rw [readableBytes_eq, h.content]
  by_cases hlt : len < b.readableBytes
  · have hcontent := content_retrieve hlen
    rw [retrieve, dif_pos hlt] at hcontent ⊢
    rw [ByteQueue.apply, if_pos (hlength ▸ hlt)]
    refine ⟨?_, min_le_left _ _, ?_, h.room, h.size⟩
    · rw [hcontent, h.content]
    · exact le_trans (min_le_right _ _) (Nat.add_le_add_right h.reserve len)
  · rw [retrieve, dif_neg hlt, ByteQueue.apply, if_neg (hlength ▸ hlt)]
    exact holds_retrieveAll h

theorem holds_unwrite (h : Holds b q) (hlen : len ≤ b.readableBytes) :
    Holds (b.unwrite len hlen) (q.apply (.unwrite len)) := by
  refine ⟨?_, h.reserve_le_eight, h.reserve, ?_, h.size⟩
  · have hcontent : (b.unwrite len hlen).content = b.content.take (b.content.length - len) := by
      rw [length_content, content, content, List.take_drop]
      change (b.buffer.take (b.writerIndex - len)).drop b.readerIndex = _
      have := b.reader_le_writer
      rw [readableBytes] at hlen
      rw [List.take_take, readableBytes]
      congr 2
      omega
    rw [hcontent, h.content]
    rfl
  · have := b.writer_le_size
    have hroom := h.room
    rw [readableBytes] at hlen
    simp only [writableBytes, ByteQueue.apply, unwrite] at hroom ⊢
    omega

theorem holds_readFd (h : Holds b q) (data : List UInt8) : Holds (b.readFd data) (q.apply (.readFd (some data))) := by
  have hcontent : (b.readFd data).content = q.content ++ data := by rw [content_readFd, h.content]
  rw [readFd] at hcontent ⊢
  split_ifs at hcontent ⊢ with hfits
  · exact holds_write h hfits
  · -- The block is filled, and what is in `extrabuf` appended.
    have hfilled := holds_append (holds_write h (List.length_take_le _ data)) (data.drop b.writableBytes)
    have hroom := h.room
    refine ⟨hcontent, hfilled.reserve_le_eight, hfilled.reserve, ?_, ?_⟩
    · simp only [ByteQueue.apply, ByteQueue.push]
      omega
    · refine le_trans hfilled.size (max_le_max (le_refl _) ?_)
      simp only [ByteQueue.apply, ByteQueue.push, List.length_append, List.length_take, List.length_drop]
      omega

theorem holds_shrink (h : Holds b q) (reserve : Nat) : Holds (b.shrink reserve) (q.apply (.shrink reserve)) := by
  have hother := holds_append (holds_ensureWritableBytes holds_new (b.readableBytes + reserve)) b.content
  have hlength : b.readableBytes = q.content.length := by rw [readableBytes_eq, h.content]
  refine ⟨?_, Nat.le_refl _, hother.reserve, ?_, ?_⟩
  · refine hother.content.trans ?_
    rw [h.content]
    rfl
  · have hroom := hother.room
    simp only [ByteQueue.apply, ByteQueue.push, h.content, hlength] at hroom ⊢
    rw [shrink, hlength, h.content]
    omega
  · have hsize := hother.size
    simp only [ByteQueue.apply, ByteQueue.push, ByteQueue.empty, h.content, hlength, List.length_nil] at hsize ⊢
    rw [shrink, hlength, h.content]
    omega

/-- Whatever is accepted is what the byte queue does. -/
theorem holds_step (h : Holds b q) (hstep : step b op = .ok b') : Holds b' (q.apply op) := by
  cases op with
  | append data =>
      cases hstep
      exact holds_append h data
  | prepend data =>
      simp only [step] at hstep
      split_ifs at hstep with hroom
      cases hstep
      exact holds_prepend h hroom
  | retrieve len =>
      simp only [step] at hstep
      split_ifs at hstep with hlen
      cases hstep
      exact holds_retrieve h hlen
  | retrieveAll =>
      cases hstep
      exact holds_retrieveAll h
  | unwrite len =>
      simp only [step] at hstep
      split_ifs at hstep with hlen
      cases hstep
      exact holds_unwrite h hlen
  | ensureWritableBytes len =>
      cases hstep
      exact holds_ensureWritableBytes h len
  | hasWritten data =>
      simp only [step] at hstep
      split_ifs at hstep with hroom
      cases hstep
      exact holds_write h hroom
  | shrink reserve =>
      simp only [step] at hstep
      split_ifs at hstep with hlen
      cases hstep
      exact holds_shrink h reserve
  | readFd result =>
      cases result with
      | none =>
          cases hstep
          exact h
      | some data =>
          simp only [step] at hstep
          split_ifs at hstep with hlen
          cases hstep
          exact holds_readFd h data

/-- What the byte queue allows is accepted. -/
theorem step_isOk (h : Holds b q) (hallows : q.allows op = true) : ∃ b', step b op = .ok b' := by
  have hlength : b.readableBytes = q.content.length := by rw [readableBytes_eq, h.content]
  cases op with
  | append data => exact ⟨_, rfl⟩
  | prepend data =>
      simp only [ByteQueue.allows, decide_eq_true_eq] at hallows
      exact ⟨_, dif_pos (Nat.le_trans hallows h.reserve)⟩
  | retrieve len =>
      simp only [ByteQueue.allows, decide_eq_true_eq] at hallows
      exact ⟨_, dif_pos (hlength ▸ hallows)⟩
  | retrieveAll => exact ⟨_, rfl⟩
  | unwrite len =>
      simp only [ByteQueue.allows, decide_eq_true_eq] at hallows
      exact ⟨_, dif_pos (hlength ▸ hallows)⟩
  | ensureWritableBytes len => exact ⟨_, rfl⟩
  | hasWritten data =>
      simp only [ByteQueue.allows, decide_eq_true_eq] at hallows
      exact ⟨_, dif_pos (Nat.le_trans hallows h.room)⟩
  | shrink reserve =>
      simp only [ByteQueue.allows, decide_eq_true_eq] at hallows
      exact ⟨_, if_pos (hlength ▸ hallows)⟩
  | readFd result =>
      cases result with
      | none => exact ⟨_, rfl⟩
      | some data =>
          simp only [ByteQueue.allows, decide_eq_true_eq] at hallows
          have hiov : data.length ≤ b.iovLen := by
            rw [iovLen]
            split_ifs with hsmall
            · omega
            · omega
          exact ⟨_, if_pos hiov⟩

theorem holds_run {ops : List Op} (h : Holds b q) (hrun : run step b ops = .ok b') : Holds b' (ops.foldl .apply q) := by
  induction ops generalizing b q with
  | nil =>
      cases hrun
      exact h
  | cons op ops ih =>
      obtain ⟨b₁, hstep, hrest⟩ := run_cons_eq_ok.mp hrun
      exact ih (holds_step h hstep) hrest

theorem run_isOk {q' : ByteQueue} {ops : List Op} (h : Holds b q) (hrun : run ByteQueue.step q ops = .ok q') :
    ∃ b', run step b ops = .ok b' ∧ Holds b' q' := by
  induction ops generalizing b q with
  | nil =>
      cases hrun
      exact ⟨b, rfl, h⟩
  | cons op ops ih =>
      obtain ⟨q₁, hstep, hrest⟩ := run_cons_eq_ok.mp hrun
      rw [ByteQueue.step] at hstep
      split_ifs at hstep with hallows
      cases hstep
      obtain ⟨b₁, hb₁⟩ := step_isOk h hallows
      obtain ⟨b₂, hrun₂, hb₂⟩ := ih (holds_step h hb₁) hrest
      exact ⟨b₂, (run_cons hb₁).trans hrun₂, hb₂⟩

/-- **A buffer is a byte queue.** After any accepted operations, also such as the queue does not promise, its readable
bytes are what the operations come to, whichever of them moved the bytes, made the block grow or went through
`extrabuf`. Operations that the queue allows are accepted: no assert fails as long as no more is put in front than has
been kept free there, no more is written in place than has been asked for, and no more is taken than there is. -/
theorem bytes_kept (ops : List Op) :
    (∀ b, run step new ops = .ok b → b.content = (ByteQueue.after ops).content) ∧
    ∀ q, run ByteQueue.step .empty ops = .ok q → ∃ b, run step new ops = .ok b ∧ b.content = q.content := by
  refine ⟨?_, ?_⟩
  · intro b hrun
    exact (holds_run holds_new hrun).content
  · intro q hrun
    obtain ⟨b, hb, hholds⟩ := run_isOk holds_new hrun
    exact ⟨b, hb, hholds.content⟩

/-- A header goes in front of what was appended, a part is taken, more is appended. -/
theorem bytes_kept_header :
    ∃ b, run step new [.append [3, 4, 5], .prepend [1, 2], .retrieve 1, .shrink 9, .readFd (some [6]), .unwrite 2] =
      .ok b ∧ b.content = [2, 3, 4] :=
  (bytes_kept _).2 ⟨[2, 3, 4], 8, 10, 13⟩ rfl

/-- **The block stays within twice the need.** Although `makeSpace` grows the block without first moving the
readable bytes to the front, it never becomes longer than a new one or than twice what the buffer was ever asked to
hold, and the room in front. -/
theorem size_bounded {ops : List Op} (hrun : run step new ops = .ok b) :
    b.buffer.length ≤ max (kCheapPrepend + kInitialSize) (kCheapPrepend + 2 * (ByteQueue.after ops).demand) :=
  (holds_run holds_new hrun).size

theorem size_bounded_large :
    ∃ b, run step new [.ensureWritableBytes 2000, .append [1], .retrieve 1, .ensureWritableBytes 3000] = .ok b ∧
      b.buffer.length ≤ 6008 := by
  have hqueue : run ByteQueue.step .empty [.ensureWritableBytes 2000, .append [1], .retrieve 1,
      .ensureWritableBytes 3000] = .ok ⟨[], 8, 3000, 3000⟩ := rfl
  obtain ⟨b, hb, -⟩ := run_isOk holds_new hqueue
  exact ⟨b, hb, size_bounded hb⟩

end Buffer
end Realtinet
