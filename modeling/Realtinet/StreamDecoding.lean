import Mathlib.Data.List.Basic

/-! Items laid end to end in a stream that arrives in chunks. A format encodes each item and looks at
what has arrived so far: it sees a whole item at the front, has to wait for more, or rejects the stream.
The rules below say that the result of decoding chunk by chunk, the undecoded rest kept for the next
chunk, is a function of the stream, and which function. Nothing here depends on what the symbols and
items are. -/

namespace StreamDecoding

inductive Verdict (μ : Type) where
  | item (m : μ)
  | wait
  | reject

/-- A format is given by the encoding of an item, by what it sees at the front of a stream, and by the
laws that tie the two together: an item is seen exactly where it has been encoded, and more symbols do
not repair a rejected stream. -/
structure Format (α μ : Type) where
  Valid : μ → Prop
  encode : μ → List α
  look : List α → Verdict μ
  encode_pos : ∀ m, 0 < (encode m).length
  look_nil : look [] = .wait
  look_encode : ∀ {m tail}, Valid m → look (encode m ++ tail) = .item m
  valid_of_look : ∀ {s m}, look s = .item m → Valid m
  encode_of_look : ∀ {s m}, look s = .item m → encode m <+: s
  look_reject : ∀ {s tail}, look s = .reject → look (s ++ tail) = .reject

/-- The items decoded so far, what is left, and whether the rest has been rejected. -/
structure Decoded (α μ : Type) where
  items : List μ
  rest : List α
  rejected : Bool

variable {α μ : Type}

/-- Items that come before those of `d`. -/
def Decoded.after (ms : List μ) (d : Decoded α μ) : Decoded α μ :=
  { d with items := ms ++ d.items }

namespace Format

variable (F : Format α μ)

def encodeAll (ms : List μ) : List α := (ms.map F.encode).flatten

@[simp] theorem encodeAll_nil : F.encodeAll [] = [] := rfl

@[simp] theorem encodeAll_cons (m : μ) (ms : List μ) : F.encodeAll (m :: ms) = F.encode m ++ F.encodeAll ms := rfl

theorem length_le_of_look {s : List α} {m : μ} (h : F.look s = .item m) :
    0 < (F.encode m).length ∧ (F.encode m).length ≤ s.length :=
  ⟨F.encode_pos m, (F.encode_of_look h).length_le⟩

/-- Items are taken off the front until there is none. -/
def decode (s : List α) : Decoded α μ :=
  match _h : F.look s with
  | .item m => (decode (s.drop (F.encode m).length)).after [m]
  | .wait => ⟨[], s, false⟩
  | .reject => ⟨[], s, true⟩
termination_by s.length
decreasing_by
  have hlen := F.length_le_of_look _h
  rw [List.length_drop]
  omega

theorem decode_of_item {s : List α} {m : μ} (h : F.look s = .item m) :
    F.decode s = (F.decode (s.drop (F.encode m).length)).after [m] := by
  rw [decode]
  split <;> simp_all

theorem decode_of_wait {s : List α} (h : F.look s = .wait) : F.decode s = ⟨[], s, false⟩ := by
  rw [decode]
  split <;> simp_all

theorem decode_of_reject {s : List α} (h : F.look s = .reject) : F.decode s = ⟨[], s, true⟩ := by
  rw [decode]
  split <;> simp_all

theorem decode_encodeAll_append {ms : List μ} (hvalid : ∀ m ∈ ms, F.Valid m) (s : List α) :
    F.decode (F.encodeAll ms ++ s) = (F.decode s).after ms := by
  induction ms with
  | nil => rfl
  | cons m ms ih =>
      have hlook : F.look (F.encode m ++ (F.encodeAll ms ++ s)) = .item m :=
        F.look_encode (hvalid m List.mem_cons_self)
      rw [encodeAll_cons, List.append_assoc, F.decode_of_item hlook, List.drop_left,
        ih fun m' hm' => hvalid m' (List.mem_cons_of_mem _ hm')]
      rfl

/-- The stream is what was decoded followed by the rest, which starts with no item. -/
structure Spec (s : List α) (d : Decoded α μ) : Prop where
  valid : ∀ m ∈ d.items, F.Valid m
  stream : s = F.encodeAll d.items ++ d.rest
  stuck : F.look d.rest = if d.rejected then .reject else .wait

theorem decode_spec (s : List α) : F.Spec s (F.decode s) := by
  fun_induction F.decode s with
  | case1 s m h ih =>
      obtain ⟨tail, rfl⟩ := F.encode_of_look h
      rw [List.drop_left] at ih ⊢
      refine ⟨?_, ?_, ih.stuck⟩
      · intro m' hm'
        rcases List.mem_cons.mp hm' with rfl | hm'
        · exact F.valid_of_look h
        · exact ih.valid m' hm'
      · rw [Decoded.after, List.singleton_append, encodeAll_cons, List.append_assoc, ← ih.stream]
  | case2 s h => exact ⟨by simp, by simp, by simp [h]⟩
  | case3 s h => exact ⟨by simp, by simp, by simp [h]⟩

theorem Spec.rejected_iff {s : List α} {d : Decoded α μ} (h : F.Spec s d) :
    d.rejected = true ↔ F.look d.rest = .reject := by
  rw [h.stuck]
  cases d.rejected <;> simp

theorem decode_append (s t : List α) :
    F.decode (s ++ t) = (F.decode ((F.decode s).rest ++ t)).after (F.decode s).items := by
  have hspec := F.decode_spec s
  conv_lhs => rw [hspec.stream, List.append_assoc]
  exact F.decode_encodeAll_append hspec.valid _

/-- No sequence of items at the front of the stream is longer than the decoded one. -/
theorem prefix_items {s : List α} {ms : List μ} (hvalid : ∀ m ∈ ms, F.Valid m) (h : F.encodeAll ms <+: s) :
    ms <+: (F.decode s).items := by
  obtain ⟨tail, rfl⟩ := h
  rw [F.decode_encodeAll_append hvalid]
  exact List.prefix_append ms _

theorem decode_encodeAll {ms : List μ} (hvalid : ∀ m ∈ ms, F.Valid m) : F.decode (F.encodeAll ms) = ⟨ms, [], false⟩ := by
  have h := F.decode_encodeAll_append hvalid []
  rw [List.append_nil, F.decode_of_wait F.look_nil] at h
  rw [h, Decoded.after, List.append_nil]

/-! ### Chunks -/

/-- One more chunk arrives behind what was left. -/
def feed (d : Decoded α μ) (chunk : List α) : Decoded α μ :=
  let next := F.decode (d.rest ++ chunk)
  { items := d.items ++ next.items, rest := next.rest, rejected := d.rejected || next.rejected }

theorem decode_of_rejected {s : List α} (h : (F.decode s).rejected = true) (t : List α) :
    F.decode ((F.decode s).rest ++ t) = ⟨[], (F.decode s).rest ++ t, true⟩ := by
  have hlook := (Spec.rejected_iff F (F.decode_spec s)).mp h
  exact F.decode_of_reject (F.look_reject hlook)

theorem feed_decode (s chunk : List α) : F.feed (F.decode s) chunk = F.decode (s ++ chunk) := by
  rw [F.decode_append, feed, Decoded.after]
  cases h : (F.decode s).rejected with
  | true => simp [F.decode_of_rejected h]
  | false => simp

/-- A rejected stream delivers nothing more. -/
theorem decode_append_of_rejected {s : List α} (h : (F.decode s).rejected = true) (t : List α) :
    F.decode (s ++ t) = { F.decode s with rest := (F.decode s).rest ++ t } := by
  rw [F.decode_append, F.decode_of_rejected h, Decoded.after, List.append_nil, ← h]

/-- A stream of items that has arrived in part is decoded into the first of them. -/
theorem items_of_prefix {s : List α} {ms : List μ} (hvalid : ∀ m ∈ ms, F.Valid m) (h : s <+: F.encodeAll ms) :
    (F.decode s).items <+: ms ∧ (F.decode s).rejected = false := by
  obtain ⟨tail, htail⟩ := h
  have hfeed := F.feed_decode s tail
  rw [htail, F.decode_encodeAll hvalid] at hfeed
  have hitems : (F.decode s).items ++ (F.decode ((F.decode s).rest ++ tail)).items = ms := congrArg Decoded.items hfeed
  have hrejected : ((F.decode s).rejected || (F.decode ((F.decode s).rest ++ tail)).rejected) = false :=
    congrArg Decoded.rejected hfeed
  exact ⟨⟨_, hitems⟩, (Bool.or_eq_false_iff.mp hrejected).1⟩

end Format

end StreamDecoding
