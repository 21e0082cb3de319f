import Mathlib.Data.List.Sort
import Mathlib.Data.List.TakeWhile
import Mathlib.Order.Basic

/-! Sets kept as sorted lists without repetitions, with the operations of an ordered container: insertion, removal,
the first element, and the elements below a bound, which stand at the front. -/

/-- The elements in increasing order. -/
structure SortedSet (α : Type) [LinearOrder α] where
  elems : List α
  sorted : elems.Pairwise (· < ·)
  deriving DecidableEq

namespace SortedSet

variable {α : Type} [LinearOrder α] {a b : α} {s : SortedSet α}

def empty : SortedSet α := ⟨[], List.Pairwise.nil⟩

instance membership : Membership α (SortedSet α) := ⟨fun s a => a ∈ s.elems⟩

instance memDecidable (a : α) (s : SortedSet α) : Decidable (a ∈ s) := inferInstanceAs (Decidable (a ∈ s.elems))

theorem mem_def : a ∈ s ↔ a ∈ s.elems := Iff.rfl

@[simp] theorem not_mem_empty : a ∉ (empty : SortedSet α) := List.not_mem_nil

theorem nodup (s : SortedSet α) : s.elems.Nodup := s.sorted.imp ne_of_lt

def size (s : SortedSet α) : Nat := s.elems.length

/-- Insertion leaves a set that has the element as it is. -/
def insert (a : α) (s : SortedSet α) : SortedSet α :=
  if h : a ∈ s.elems then s
  else
    { elems := s.elems.orderedInsert (· ≤ ·) a
      sorted := by
        have hle : (s.elems.orderedInsert (· ≤ ·) a).Pairwise (· ≤ ·) :=
          List.Pairwise.orderedInsert a _ (s.sorted.imp le_of_lt)
        have hnodup : (s.elems.orderedInsert (· ≤ ·) a).Nodup :=
          (List.perm_orderedInsert _ a s.elems).nodup_iff.mpr (List.nodup_cons.mpr ⟨h, s.nodup⟩)
        exact (hle.and hnodup).imp fun hab => lt_of_le_of_ne hab.1 hab.2 }

def erase (a : α) (s : SortedSet α) : SortedSet α := ⟨s.elems.erase a, s.sorted.sublist List.erase_sublist⟩

def first (s : SortedSet α) : Option α := s.elems.head?

/-- From the first element up to the first one that is not below `a`. -/
def below (a : α) (s : SortedSet α) : List α := s.elems.takeWhile (· < a)

/-- What is left without these elements. -/
def dropBelow (a : α) (s : SortedSet α) : SortedSet α :=
  ⟨s.elems.dropWhile (· < a), s.sorted.sublist (List.dropWhile_sublist _)⟩

/-- The element an iterator at `a` moves on to. -/
def next (a : α) (s : SortedSet α) : Option α := (s.elems.dropWhile (· ≤ a)).head?

theorem elems_insert_perm (h : a ∉ s) : (s.insert a).elems.Perm (a :: s.elems) := by
  have h' : a ∉ s.elems := h
  rw [insert, dif_neg h']
  exact List.perm_orderedInsert _ a s.elems

@[simp] theorem mem_insert : b ∈ s.insert a ↔ b = a ∨ b ∈ s := by
  by_cases h : a ∈ s
  · have h' : a ∈ s.elems := h
    rw [insert, dif_pos h']
    exact ⟨Or.inr, fun hb => hb.elim (fun heq => heq ▸ h) id⟩
  · rw [mem_def, (elems_insert_perm h).mem_iff, List.mem_cons, mem_def]

@[simp] theorem mem_erase : b ∈ s.erase a ↔ b ≠ a ∧ b ∈ s := s.nodup.mem_erase_iff

theorem elems_erase_perm (h : a ∈ s) : (a :: (s.erase a).elems).Perm s.elems := (List.perm_cons_erase h).symm

theorem below_append_dropBelow (a : α) (s : SortedSet α) : s.below a ++ (s.dropBelow a).elems = s.elems :=
  List.takeWhile_append_dropWhile

/-- Nothing below the bound stands behind it. -/
theorem le_of_mem_dropBelow (h : b ∈ s.dropBelow a) : a ≤ b := by
  rw [mem_def] at h
  cases hd : (s.dropBelow a).elems with
  | nil => rw [hd] at h; cases h
  | cons c rest =>
      have hc : ¬c < a := by
        have := List.head?_dropWhile_not (· < a) s.elems
        rw [dropBelow] at hd
        simp only at hd
        rw [hd] at this
        simpa using this
      have hsorted := (s.dropBelow a).sorted
      rw [hd] at h hsorted
      rcases List.mem_cons.mp h with rfl | hmem
      · exact not_lt.mp hc
      · exact le_trans (not_lt.mp hc) (le_of_lt (List.rel_of_pairwise_cons hsorted hmem))

theorem lt_of_mem_below (h : b ∈ s.below a) : b < a := by
  simpa using List.mem_takeWhile_imp h

theorem mem_below : b ∈ s.below a ↔ b ∈ s ∧ b < a := by
  constructor
  · intro h
    exact ⟨(List.takeWhile_sublist _).subset h, lt_of_mem_below h⟩
  · rintro ⟨hmem, hlt⟩
    rw [mem_def, ← below_append_dropBelow a s] at hmem
    rcases List.mem_append.mp hmem with h | h
    · exact h
    · exact absurd hlt (not_lt.mpr (le_of_mem_dropBelow h))

@[simp] theorem mem_dropBelow : b ∈ s.dropBelow a ↔ b ∈ s ∧ a ≤ b := by
  constructor
  · intro h
    exact ⟨(List.dropWhile_sublist _).subset h, le_of_mem_dropBelow h⟩
  · rintro ⟨hmem, hle⟩
    rw [mem_def, ← below_append_dropBelow a s] at hmem
    rcases List.mem_append.mp hmem with h | h
    · exact absurd (lt_of_mem_below h) (not_lt.mpr hle)
    · exact h

theorem next_of_split {before after : List α} (h : s.elems = before ++ a :: after) : s.next a = after.head? := by
  have hsorted := s.sorted
  rw [h] at hsorted
  have hbefore : ∀ x ∈ before ++ [a], decide (x ≤ a) = true := by
    intro x hx
    rcases List.mem_append.mp hx with hx | hx
    · exact decide_eq_true (le_of_lt ((List.pairwise_append.mp hsorted).2.2 x hx a List.mem_cons_self))
    · rw [List.mem_singleton.mp hx]
      exact decide_eq_true (le_refl a)
  have hafter : after.dropWhile (· ≤ a) = after := by
    cases after with
    | nil => rfl
    | cons c rest =>
        have hlt : a < c := List.rel_of_pairwise_cons (List.pairwise_append.mp hsorted).2.1 List.mem_cons_self
        exact List.dropWhile_cons_of_neg (by simpa using hlt)
  rw [next, h, List.append_cons, List.dropWhile_append_of_pos hbefore, hafter]

theorem mem_of_first (h : s.first = some a) : a ∈ s := List.mem_of_head? h

theorem first_le (h : s.first = some a) (hb : b ∈ s) : a ≤ b := by
  obtain ⟨rest, hrest⟩ := List.head?_eq_some_iff.mp h
  have hsorted := s.sorted
  rw [mem_def, hrest] at hb
  rw [hrest] at hsorted
  rcases List.mem_cons.mp hb with rfl | hmem
  · exact le_refl _
  · exact le_of_lt (List.rel_of_pairwise_cons hsorted hmem)

theorem not_mem_of_first_eq_none (h : s.first = none) : b ∉ s := by
  rw [first, List.head?_eq_none_iff] at h
  rw [mem_def, h]
  exact List.not_mem_nil

end SortedSet
