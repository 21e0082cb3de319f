import Mathlib.Order.Preorder.Chain
import Mathlib.Order.Basic
import Mathlib.Tactic.Common

/-! Comparing pairs coordinate by coordinate with "or". A pair is put below another when its first
coordinate is smaller or its second one is. This is how a lexicographic comparison reads when the
test for the reversed first coordinate is missing. On a product of linear orders the relation always
identifies exactly the equal pairs, but it orders a set of pairs only if the set is a chain of the
product order. -/

namespace EitherOrder

variable {γ α β : Type}

/-- What an ordered container asks of its comparison `r` on the keys in `S`: a strict weak order whose
classes of incomparable keys are the classes of `same`. -/
structure StrictWeakOrderOn (r same : γ → γ → Prop) (S : Set γ) : Prop where
  irrefl : ∀ a ∈ S, ¬r a a
  asymm : ∀ a ∈ S, ∀ b ∈ S, r a b → ¬r b a
  trans : ∀ a ∈ S, ∀ b ∈ S, ∀ c ∈ S, r a b → r b c → r a c
  incomparable_iff : ∀ a ∈ S, ∀ b ∈ S, (¬r a b ∧ ¬r b a) ↔ same a b

/-- The notion looks at the relations on the keys of `S` only. -/
theorem StrictWeakOrderOn.congr {r r' same same' : γ → γ → Prop} {S : Set γ} (h : StrictWeakOrderOn r same S)
    (hr : ∀ a ∈ S, ∀ b ∈ S, (r' a b ↔ r a b)) (hsame : ∀ a ∈ S, ∀ b ∈ S, (same' a b ↔ same a b)) :
    StrictWeakOrderOn r' same' S := by
  constructor
  · intro a ha
    rw [hr a ha a ha]
    exact h.irrefl a ha
  · intro a ha b hb
    rw [hr a ha b hb, hr b hb a ha]
    exact h.asymm a ha b hb
  · intro a ha b hb c hc
    rw [hr a ha b hb, hr b hb c hc, hr a ha c hc]
    exact h.trans a ha b hb c hc
  · intro a ha b hb
    rw [hr a ha b hb, hr b hb a ha, hsame a ha b hb]
    exact h.incomparable_iff a ha b hb

variable [LinearOrder α] [LinearOrder β]

def EitherLt (a b : α × β) : Prop := a.1 < b.1 ∨ a.2 < b.2

theorem not_eitherLt_iff {a b : α × β} : ¬EitherLt a b ↔ b ≤ a := by
  rw [EitherLt, not_or, not_lt, not_lt, Prod.le_def]

theorem not_eitherLt_self (a : α × β) : ¬EitherLt a a :=
  not_eitherLt_iff.mpr le_rfl

theorem eitherLt_incomparable_iff {a b : α × β} : (¬EitherLt a b ∧ ¬EitherLt b a) ↔ a = b := by
  rw [not_eitherLt_iff, not_eitherLt_iff, and_comm]
  exact le_antisymm_iff.symm

/-- Between comparable pairs the relation is the strict product order. -/
theorem eitherLt_iff_lt {a b : α × β} (h : a ≤ b ∨ b ≤ a) : EitherLt a b ↔ a < b := by
  constructor
  · intro hlt
    have hnot : ¬b ≤ a := fun hle => not_eitherLt_iff.mpr hle hlt
    exact lt_of_le_not_ge (h.resolve_right hnot) hnot
  · intro hlt
    by_contra hnot
    exact hlt.not_ge (not_eitherLt_iff.mp hnot)

/-- Two pairs are comparable in the product order exactly when their coordinates are not ordered in
opposite directions. -/
theorem comparable_iff {a b : α × β} :
    (a ≤ b ∨ b ≤ a) ↔ ¬(a.1 < b.1 ∧ b.2 < a.2) ∧ ¬(b.1 < a.1 ∧ a.2 < b.2) := by
  rw [Prod.le_def, Prod.le_def]
  constructor
  · rintro (⟨h1, h2⟩ | ⟨h1, h2⟩)
    · exact ⟨fun h => h2.not_gt h.2, fun h => h1.not_gt h.1⟩
    · exact ⟨fun h => h1.not_gt h.1, fun h => h2.not_gt h.2⟩
  · rintro ⟨h1, h2⟩
    rcases lt_trichotomy a.1 b.1 with h | h | h
    · exact Or.inl ⟨h.le, not_lt.mp fun h' => h1 ⟨h, h'⟩⟩
    · exact (le_total a.2 b.2).imp (fun h' => ⟨h.le, h'⟩) (fun h' => ⟨h.ge, h'⟩)
    · exact Or.inr ⟨h.le, not_lt.mp fun h' => h2 ⟨h, h'⟩⟩

/-- **The relation orders exactly the chains.** Keys are read off through `key`; on a set of keys the
relation is a strict weak order that identifies equal keys if and only if no two of them have their
coordinates ordered in opposite directions. -/
theorem strictWeakOrderOn_iff (key : γ → α × β) (S : Set γ) :
    StrictWeakOrderOn (fun a b => EitherLt (key a) (key b)) (fun a b => key a = key b) S ↔
      ∀ a ∈ S, ∀ b ∈ S, ¬((key a).1 < (key b).1 ∧ (key b).2 < (key a).2) := by
  constructor
  · intro h a ha b hb hopp
    exact h.asymm a ha b hb (Or.inl hopp.1) (Or.inr hopp.2)
  · intro h
    have hcomp : ∀ a ∈ S, ∀ b ∈ S, key a ≤ key b ∨ key b ≤ key a := fun a ha b hb =>
      comparable_iff.mpr ⟨h a ha b hb, h b hb a ha⟩
    refine ⟨fun a _ => not_eitherLt_self _, ?_, ?_, fun a _ b _ => eitherLt_incomparable_iff⟩
    · intro a ha b hb hab hba
      have hlt := (eitherLt_iff_lt (hcomp a ha b hb)).mp hab
      exact hlt.not_gt ((eitherLt_iff_lt (hcomp b hb a ha)).mp hba)
    · intro a ha b hb c hc hab hbc
      have hab' := (eitherLt_iff_lt (hcomp a ha b hb)).mp hab
      have hbc' := (eitherLt_iff_lt (hcomp b hb c hc)).mp hbc
      exact (eitherLt_iff_lt (hcomp a ha c hc)).mpr (hab'.trans hbc')

end EitherOrder
