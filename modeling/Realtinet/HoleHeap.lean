import Mathlib.Logic.Function.Basic
import Mathlib.Order.Lattice

/-! Binary heaps in an array, repaired by moving a hole instead of swapping. One place of the array is free; pulling an
entry into it from its parent or from its smaller child moves the hole there, and filling the hole ends the repair. The
rules say of one pull, and of the filling, what becomes of the order, of the entries and of an index kept of them; the
loops that make the pulls belong to the programs. -/

namespace HoleHeap

variable {α κ : Type}

def parent (i : Nat) : Nat := (i - 1) / 2

theorem parent_lt {i : Nat} (h : 0 < i) : parent i < i := by
  rw [parent]
  omega

theorem parent_ne {i : Nat} (h : 0 < i) : parent i ≠ i := Nat.ne_of_lt (parent_lt h)

/-- The places below `i` are `2 * i + 1` and `2 * i + 2`. -/
theorem parent_eq_iff {i j : Nat} (h : 0 < j) : parent j = i ↔ j = 2 * i + 1 ∨ j = 2 * (i + 1) := by
  rw [parent]
  omega

/-- The entry at `j` goes into the hole. -/
def pull (h : Nat → α) (hole j : Nat) : Nat → α := Function.update h hole (h j)

@[simp] theorem pull_hole (h : Nat → α) (hole j : Nat) : pull h hole j hole = h j := Function.update_self ..

@[simp] theorem pull_of_ne {h : Nat → α} {hole j i : Nat} (hne : i ≠ hole) : pull h hole j i = h i :=
  Function.update_of_ne hne ..

section Order

variable [LinearOrder κ] (key : α → κ) {h : Nat → α} {n hole : Nat}

/-- No entry of the first `n` comes before its parent. -/
def Ordered (h : Nat → α) (n : Nat) : Prop := ∀ i, 0 < i → i < n → key (h (parent i)) ≤ key (h i)

/-- The entries are in order around the hole: those that do not touch it, and those above it with those below it. -/
structure Around (h : Nat → α) (n hole : Nat) : Prop where
  off : ∀ i, 0 < i → i < n → i ≠ hole → parent i ≠ hole → key (h (parent i)) ≤ key (h i)
  across : 0 < hole → ∀ i, 0 < i → i < n → parent i = hole → key (h (parent hole)) ≤ key (h i)

variable {key}

/-- The first entry comes before no other. -/
theorem Ordered.first_le (ho : Ordered key h n) {i : Nat} (hi : i < n) : key (h 0) ≤ key (h i) := by
  induction i using Nat.strongRecOn with
  | ind i ih =>
      rcases Nat.eq_zero_or_pos i with rfl | hpos
      · exact le_refl _
      · have hlt := parent_lt hpos
        exact le_trans (ih (parent i) hlt (Nat.lt_trans hlt hi)) (ho i hpos hi)

theorem Ordered.mono (ho : Ordered key h n) {m : Nat} (hle : m ≤ n) : Ordered key h m :=
  fun i hpos hi => ho i hpos (Nat.lt_of_lt_of_le hi hle)

/-- Any place of an ordered heap may become the hole. -/
theorem Ordered.around (ho : Ordered key h n) (hhole : hole < n) : Around key h n hole := by
  refine ⟨fun i hpos hi _ _ => ho i hpos hi, ?_⟩
  intro hhole0 i hpos hi hparent
  exact le_trans (ho hole hhole0 hhole) (hparent ▸ ho i hpos hi)

/-- A hole behind the last entry touches nothing. -/
theorem Ordered.around_end (ho : Ordered key h n) : Around key h (n + 1) n := by
  refine ⟨?_, ?_⟩
  · intro i hpos hi hne _
    exact ho i hpos (by omega)
  · intro _ i hpos hi hparent
    have := parent_lt hpos
    omega

theorem Around.pull_parent (ha : Around key h n hole) (hhole : 0 < hole) (hn : hole < n) :
    Around key (pull h hole (parent hole)) n (parent hole) := by
  have hlt := parent_lt hhole
  -- the old parent and whatever is above it
  have habove : 0 < parent hole → key (h (parent (parent hole))) ≤ key (h (parent hole)) := by
    intro hpos
    refine ha.off (parent hole) hpos (Nat.lt_trans hlt hn) (Nat.ne_of_lt hlt) ?_
    exact Nat.ne_of_lt (Nat.lt_trans (parent_lt hpos) hlt)
  refine ⟨?_, ?_⟩
  · intro i hpos hi hne hparent
    have hih : i ≠ hole := by
      rintro rfl
      exact hparent rfl
    rw [pull_of_ne hih]
    by_cases hbelow : parent i = hole
    · rw [hbelow, pull_hole]
      exact ha.across hhole i hpos hi hbelow
    · rw [pull_of_ne hbelow]
      exact ha.off i hpos hi hih hbelow
  · intro hpos i hi0 hi hparent
    rw [pull_of_ne (Nat.ne_of_lt (Nat.lt_trans (parent_lt hpos) hlt))]
    by_cases hih : i = hole
    · rw [hih, pull_hole]
      exact habove hpos
    · rw [pull_of_ne hih]
      refine le_trans (habove hpos) ?_
      have := ha.off i hi0 hi hih (hparent ▸ Nat.ne_of_lt hlt)
      rwa [hparent] at this

theorem Around.pull_child (ha : Around key h n hole) {j : Nat} (hj : 0 < j) (hjn : j < n) (hparent : parent j = hole)
    (hmin : ∀ i, 0 < i → i < n → parent i = hole → key (h j) ≤ key (h i)) :
    Around key (pull h hole j) n j := by
  have hlt : hole < j := hparent ▸ parent_lt hj
  refine ⟨?_, ?_⟩
  · intro i hpos hi hne hne'
    by_cases hih : i = hole
    · subst hih
      rw [pull_hole, pull_of_ne (parent_ne hpos)]
      exact ha.across hpos j hj hjn hparent
    · rw [pull_of_ne hih]
      by_cases hbelow : parent i = hole
      · rw [hbelow, pull_hole]
        exact hmin i hpos hi hbelow
      · rw [pull_of_ne hbelow]
        exact ha.off i hpos hi hih hbelow
  · intro _ i hpos hi hbelow
    have hih : i ≠ hole := by
      have := parent_lt hpos
      omega
    rw [hparent, pull_hole, pull_of_ne hih]
    have := ha.off i hpos hi hih (by omega)
    rwa [hbelow] at this

/-- The hole is filled where the entry is between what is above and what is below. -/
theorem Around.fill (ha : Around key h n hole) {e : α} (habove : 0 < hole → key (h (parent hole)) ≤ key e)
    (hbelow : ∀ i, 0 < i → i < n → parent i = hole → key e ≤ key (h i)) : Ordered key (Function.update h hole e) n := by
  intro i hpos hi
  by_cases hih : i = hole
  · subst hih
    rw [Function.update_self, Function.update_of_ne (parent_ne hpos)]
    exact habove hpos
  · rw [Function.update_of_ne hih]
    by_cases hparent : parent i = hole
    · rw [hparent, Function.update_self]
      exact hbelow i hpos hi hparent
    · rw [Function.update_of_ne hparent]
      exact ha.off i hpos hi hih hparent

end Order

section Entries

variable {h : Nat → α} {n hole j : Nat} {x e : α}

/-- `x` is among the first `n` entries, not counting what is left in the hole. -/
def Rest (h : Nat → α) (n hole : Nat) (x : α) : Prop := ∃ i, i < n ∧ i ≠ hole ∧ h i = x

theorem rest_pull (hhole : hole < n) (hj : j < n) (hne : j ≠ hole) : Rest (pull h hole j) n j x ↔ Rest h n hole x := by
  constructor
  · rintro ⟨i, hi, hij, hx⟩
    by_cases hih : i = hole
    · rw [hih, pull_hole] at hx
      exact ⟨j, hj, hne, hx⟩
    · rw [pull_of_ne hih] at hx
      exact ⟨i, hi, hih, hx⟩
  · rintro ⟨i, hi, hih, hx⟩
    by_cases hij : i = j
    · exact ⟨hole, hhole, Ne.symm hne, by rw [pull_hole, ← hij]; exact hx⟩
    · exact ⟨i, hi, hij, by rw [pull_of_ne hih]; exact hx⟩

theorem entry_fill (hhole : hole < n) : (∃ i, i < n ∧ Function.update h hole e i = x) ↔ x = e ∨ Rest h n hole x := by
  constructor
  · rintro ⟨i, hi, hx⟩
    by_cases hih : i = hole
    · rw [hih, Function.update_self] at hx
      exact .inl hx.symm
    · rw [Function.update_of_ne hih] at hx
      exact .inr ⟨i, hi, hih, hx⟩
  · rintro (rfl | ⟨i, hi, hih, hx⟩)
    · exact ⟨hole, hhole, Function.update_self ..⟩
    · exact ⟨i, hi, by rw [Function.update_of_ne hih]; exact hx⟩

variable [DecidableEq α]

/-- `index` is right for the first `n` entries, not counting what is left in the hole. -/
def IndexedOff (index : α → Option Int) (h : Nat → α) (n hole : Nat) : Prop :=
  ∀ i, i < n → i ≠ hole → index (h i) = some (i : Int)

theorem IndexedOff.pull {index : α → Option Int} (hi : IndexedOff index h n hole) (hj : j < n) (hne : j ≠ hole) :
    IndexedOff (Function.update index (h j) (some (hole : Int))) (pull h hole j) n j := by
  intro i hin hij
  by_cases hih : i = hole
  · rw [hih, pull_hole, Function.update_self]
  · rw [pull_of_ne hih]
    have hother : h i ≠ h j := by
      intro heq
      have hii := hi i hin hih
      rw [heq, hi j hj hne] at hii
      exact hij (Int.ofNat_inj.mp (Option.some.inj hii)).symm
    rw [Function.update_of_ne hother]
    exact hi i hin hih

theorem IndexedOff.fill {index : α → Option Int} (hi : IndexedOff index h n hole) (he : ¬Rest h n hole e) :
    ∀ i, i < n → Function.update index e (some (hole : Int)) (Function.update h hole e i) = some (i : Int) := by
  intro i hin
  by_cases hih : i = hole
  · rw [hih, Function.update_self, Function.update_self]
  · rw [Function.update_of_ne hih]
    have hother : h i ≠ e := fun heq => he ⟨i, hin, hih, heq⟩
    rw [Function.update_of_ne hother]
    exact hi i hin hih

end Entries

end HoleHeap
