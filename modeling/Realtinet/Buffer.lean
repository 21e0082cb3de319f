import Mathlib.Data.List.Basic

/-! `muduo::net::Buffer`: one block of bytes with a reader and a writer index, room for a header kept in
front of the readable bytes. The indices are in order in every buffer that can be built, and what the
source asserts before an operation is an argument of it. The view of a buffer is the list of its
readable bytes; each operation is described by what it does to the view. -/

namespace Realtinet

/-- `std::copy(data, data + len, begin() + index)`. -/
def overwrite (bytes : List UInt8) (index : Nat) (data : List UInt8) : List UInt8 :=
  bytes.take index ++ data ++ bytes.drop (index + data.length)

/-- `std::vector::resize`. -/
def resize (bytes : List UInt8) (size : Nat) : List UInt8 :=
  bytes.take size ++ List.replicate (size - bytes.length) 0

theorem length_overwrite {bytes data : List UInt8} {index : Nat} (h : index + data.length ≤ bytes.length) :
    (overwrite bytes index data).length = bytes.length := by
  simp only [overwrite, List.length_append, List.length_take, List.length_drop]
  omega

theorem length_resize (bytes : List UInt8) (size : Nat) : (resize bytes size).length = size := by
  simp only [resize, List.length_append, List.length_take, List.length_replicate]
  omega

def kCheapPrepend : Nat := 8

def kInitialSize : Nat := 1024

structure Buffer where
  buffer : List UInt8
  readerIndex : Nat
  writerIndex : Nat
  reader_le_writer : readerIndex ≤ writerIndex
  writer_le_size : writerIndex ≤ buffer.length
  prepend_le_size : kCheapPrepend ≤ buffer.length
  deriving DecidableEq

namespace Buffer

def new : Buffer where
  buffer := List.replicate (kCheapPrepend + kInitialSize) 0
  readerIndex := kCheapPrepend
  writerIndex := kCheapPrepend
  reader_le_writer := Nat.le_refl _
  writer_le_size := by rw [List.length_replicate]; omega
  prepend_le_size := by rw [List.length_replicate]; omega

def readableBytes (b : Buffer) : Nat := b.writerIndex - b.readerIndex

def writableBytes (b : Buffer) : Nat := b.buffer.length - b.writerIndex

def prependableBytes (b : Buffer) : Nat := b.readerIndex

/-- The readable bytes. -/
def content (b : Buffer) : List UInt8 := (b.buffer.take b.writerIndex).drop b.readerIndex

theorem length_content (b : Buffer) : b.content.length = b.readableBytes := by
  have := b.writer_le_size
  rw [content, List.length_drop, List.length_take, readableBytes]
  omega

/-- Readable bytes that do not start at the front have room there. -/
theorem content_le_of_front {b : Buffer} (h : kCheapPrepend < b.readerIndex) :
    kCheapPrepend + b.content.length ≤ b.buffer.length := by
  have := b.writer_le_size
  have := b.reader_le_writer
  rw [length_content, readableBytes]
  omega

/-- The `len` bytes from `peek()` on. -/
def peek (b : Buffer) (len : Nat) : List UInt8 := (b.buffer.drop b.readerIndex).take len

def retrieveAll (b : Buffer) : Buffer :=
  { b with
    readerIndex := kCheapPrepend
    writerIndex := kCheapPrepend
    reader_le_writer := Nat.le_refl _
    writer_le_size := b.prepend_le_size }

def retrieve (b : Buffer) (len : Nat) (_h : len ≤ b.readableBytes) : Buffer :=
  if hlt : len < b.readableBytes then
    { b with
      readerIndex := b.readerIndex + len
      reader_le_writer := by rw [readableBytes] at hlt; omega }
  else b.retrieveAll

def retrieveAsString (b : Buffer) (len : Nat) (h : len ≤ b.readableBytes) : List UInt8 × Buffer :=
  (b.peek len, b.retrieve len h)

def retrieveAllAsString (b : Buffer) : List UInt8 × Buffer :=
  b.retrieveAsString b.readableBytes (Nat.le_refl _)

/-- `makeSpace`, called when fewer than `len` bytes are writable: the block grows, or the readable bytes
move to the front. -/
def makeSpace (b : Buffer) (len : Nat) (h : b.writableBytes < len) : Buffer :=
  if hgrow : b.writableBytes + b.prependableBytes < len + kCheapPrepend then
    { b with
      buffer := resize b.buffer (b.writerIndex + len)
      writer_le_size := by rw [length_resize]; omega
      prepend_le_size := by
        have := b.prepend_le_size
        rw [writableBytes] at h
        rw [length_resize]
        omega }
  else
    -- here `kCheapPrepend < readerIndex_`, as the source asserts
    have hfront : kCheapPrepend < b.readerIndex := by
      rw [prependableBytes] at hgrow
      omega
    have hroom := content_le_of_front hfront
    { buffer := overwrite b.buffer kCheapPrepend b.content
      readerIndex := kCheapPrepend
      writerIndex := kCheapPrepend + b.readableBytes
      reader_le_writer := Nat.le_add_right _ _
      writer_le_size := by rw [length_overwrite hroom, ← length_content]; exact hroom
      prepend_le_size := by rw [length_overwrite hroom]; exact b.prepend_le_size }

def ensureWritableBytes (b : Buffer) (len : Nat) : Buffer :=
  if h : b.writableBytes < len then b.makeSpace len h else b

/-- The copy of `append` and its `hasWritten`. -/
def write (b : Buffer) (data : List UInt8) (h : data.length ≤ b.writableBytes) : Buffer :=
  have hroom : b.writerIndex + data.length ≤ b.buffer.length := by
    have := b.writer_le_size
    rw [writableBytes] at h
    omega
  { buffer := overwrite b.buffer b.writerIndex data
    readerIndex := b.readerIndex
    writerIndex := b.writerIndex + data.length
    reader_le_writer := Nat.le_add_right_of_le b.reader_le_writer
    writer_le_size := by rw [length_overwrite hroom]; exact hroom
    prepend_le_size := by rw [length_overwrite hroom]; exact b.prepend_le_size }

/-- What `ensureWritableBytes` asserts at its end. -/
theorem le_writableBytes_ensureWritableBytes (b : Buffer) (len : Nat) :
    len ≤ (b.ensureWritableBytes len).writableBytes := by
  rw [ensureWritableBytes]
  split_ifs with h
  · rw [makeSpace]
    split_ifs with hgrow
    · simp only [writableBytes, length_resize]
      omega
    · have hfront : kCheapPrepend < b.readerIndex := by
        rw [prependableBytes] at hgrow
        omega
      have hsize := length_overwrite (content_le_of_front hfront)
      have := b.reader_le_writer
      have := b.writer_le_size
      simp only [writableBytes, readableBytes, prependableBytes, hsize] at hgrow h ⊢
      omega
  · omega

def append (b : Buffer) (data : List UInt8) : Buffer :=
  (b.ensureWritableBytes data.length).write data (b.le_writableBytes_ensureWritableBytes data.length)

def prepend (b : Buffer) (data : List UInt8) (h : data.length ≤ b.prependableBytes) : Buffer :=
  have hroom : b.readerIndex - data.length + data.length ≤ b.buffer.length := by
    have := b.writer_le_size
    have := b.reader_le_writer
    rw [prependableBytes] at h
    omega
  { buffer := overwrite b.buffer (b.readerIndex - data.length) data
    readerIndex := b.readerIndex - data.length
    writerIndex := b.writerIndex
    reader_le_writer := Nat.le_trans (Nat.sub_le _ _) b.reader_le_writer
    writer_le_size := by rw [length_overwrite hroom]; exact b.writer_le_size
    prepend_le_size := by rw [length_overwrite hroom]; exact b.prepend_le_size }

/-! ### The view -/

theorem content_new : new.content = [] := by
  rw [← List.length_eq_zero_iff, length_content]
  rfl

theorem peek_eq {b : Buffer} {len : Nat} (h : len ≤ b.readableBytes) : b.peek len = b.content.take len := by
  rw [readableBytes] at h
  rw [peek, content, List.drop_take, List.take_take, Nat.min_eq_left h]

theorem content_retrieveAll (b : Buffer) : b.retrieveAll.content = [] := by
  rw [← List.length_eq_zero_iff, length_content, readableBytes, retrieveAll, Nat.sub_self]

theorem content_retrieve {b : Buffer} {len : Nat} (h : len ≤ b.readableBytes) :
    (b.retrieve len h).content = b.content.drop len := by
  rw [retrieve]
  split_ifs with hlt
  · rw [content, content, List.drop_drop]
  · rw [content_retrieveAll, eq_comm, List.drop_eq_nil_iff, length_content]
    omega

theorem retrieveAllAsString_eq (b : Buffer) : b.retrieveAllAsString = (b.content, b.retrieveAll) := by
  have htake : b.content.take b.readableBytes = b.content := List.take_of_length_le (Nat.le_of_eq b.length_content)
  rw [retrieveAllAsString, retrieveAsString, peek_eq (Nat.le_refl _), htake, retrieve, dif_neg (Nat.lt_irrefl _)]

theorem content_makeSpace {b : Buffer} {len : Nat} (h : b.writableBytes < len) :
    (b.makeSpace len h).content = b.content := by
  rw [makeSpace]
  split_ifs with hgrow
  · have hle : b.writerIndex ≤ (b.buffer.take (b.writerIndex + len)).length := by
      have := b.writer_le_size
      rw [List.length_take]
      omega
    rw [content]
    simp only [resize]
    rw [List.take_append_of_le_length hle, List.take_take, Nat.min_eq_left (Nat.le_add_right _ _), content]
  · have hlen : (b.buffer.take kCheapPrepend).length = kCheapPrepend := by
      rw [List.length_take, Nat.min_eq_left b.prepend_le_size]
    have hend : kCheapPrepend + b.readableBytes = (b.buffer.take kCheapPrepend ++ b.content).length := by
      rw [List.length_append, hlen, length_content]
    rw [content]
    simp only [overwrite]
    rw [hend, List.take_left, List.drop_left' hlen]

theorem content_ensureWritableBytes (b : Buffer) (len : Nat) :
    (b.ensureWritableBytes len).content = b.content := by
  rw [ensureWritableBytes]
  split_ifs with h
  · exact content_makeSpace h
  · rfl

theorem content_write {b : Buffer} {data : List UInt8} (h : data.length ≤ b.writableBytes) :
    (b.write data h).content = b.content ++ data := by
  have hlen : (b.buffer.take b.writerIndex).length = b.writerIndex := by
    rw [List.length_take, Nat.min_eq_left b.writer_le_size]
  have hend : b.writerIndex + data.length = (b.buffer.take b.writerIndex ++ data).length := by
    rw [List.length_append, hlen]
  rw [content, write]
  simp only [overwrite]
  rw [hend, List.take_left, List.drop_append_of_le_length (by rw [hlen]; exact b.reader_le_writer), content]

/-- `append` adds its bytes at the end of the view, whether it moves, grows or just writes. -/
theorem content_append (b : Buffer) (data : List UInt8) : (b.append data).content = b.content ++ data := by
  rw [append, content_write, content_ensureWritableBytes]

theorem content_prepend {b : Buffer} {data : List UInt8} (h : data.length ≤ b.prependableBytes) :
    (b.prepend data h).content = data ++ b.content := by
  have hle : b.readerIndex ≤ b.buffer.length := Nat.le_trans b.reader_le_writer b.writer_le_size
  rw [prependableBytes] at h
  have hlen : (b.buffer.take (b.readerIndex - data.length)).length = b.readerIndex - data.length := by
    rw [List.length_take]
    omega
  have hback : b.readerIndex - data.length + data.length = b.readerIndex := by omega
  have hpre : (b.buffer.take (b.readerIndex - data.length) ++ data).length = b.readerIndex := by
    rw [List.length_append, hlen, hback]
  rw [content, prepend]
  simp only [overwrite]
  rw [hback, List.take_append, hpre, List.take_of_length_le (by rw [hpre]; exact b.reader_le_writer), List.append_assoc,
    List.drop_left' hlen, content, List.drop_take]

/-- The room for a header survives `append`. -/
theorem le_prependableBytes_append {b : Buffer} (h : kCheapPrepend ≤ b.prependableBytes) (data : List UInt8) :
    kCheapPrepend ≤ (b.append data).prependableBytes := by
  change kCheapPrepend ≤ (b.ensureWritableBytes data.length).prependableBytes
  rw [ensureWritableBytes]
  split_ifs
  · rw [makeSpace]
    split_ifs
    · exact h
    · exact Nat.le_refl _
  · exact h

end Buffer
end Realtinet
