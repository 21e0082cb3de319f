import Mathlib.Logic.Function.Basic
import Mathlib.Order.Defs.Unbundled
import Mathlib.Tactic.Common

/-! An ordered container of keys and values under a comparison that its user supplies, as the list of its entries in
their order. Every operation walks past the entries below the key and compares the first one left with it. If the
comparison is a strict total order the container is a finite map; if it is not, the container may find a key that was
never put in, or miss one that was, and nothing is said about it here. -/

namespace OrderedMap

variable {κ α : Type} (lt : κ → κ → Bool)

def find? (k : κ) : List (κ × α) → Option α
  | [] => none
  | e :: m => if lt e.1 k then find? k m else if lt k e.1 then none else some e.2

/-- The value of the key is replaced, or the key inserted with it. -/
def assign (k : κ) (v : α) : List (κ × α) → List (κ × α)
  | [] => [(k, v)]
  | e :: m => if lt e.1 k then e :: assign k v m else if lt k e.1 then (k, v) :: e :: m else (e.1, v) :: m

/-- All entries that are neither below nor above the key go. -/
def erase (k : κ) : List (κ × α) → List (κ × α)
  | [] => []
  | e :: m =>
      if lt e.1 k then e :: erase k m else if lt k e.1 then e :: m else m.dropWhile fun f => !lt k f.1

/-- The entries are in their order. -/
def Sorted (m : List (κ × α)) : Prop := m.Pairwise fun e f => lt e.1 f.1 = true

variable {lt} {k l : κ} {v : α} {m : List (κ × α)}

theorem sorted_nil : Sorted lt ([] : List (κ × α)) := List.Pairwise.nil

theorem mem_assign {e : κ × α} (h : e ∈ assign lt k v m) : e.1 = k ∨ ∃ f ∈ m, e.1 = f.1 := by
  induction m with
  | nil => exact Or.inl (by rw [List.mem_singleton.mp h])
  | cons f m ih =>
      rw [assign] at h
      split_ifs at h
      · rcases List.mem_cons.mp h with rfl | hmem
        · exact Or.inr ⟨e, List.mem_cons_self, rfl⟩
        · exact (ih hmem).imp_right fun ⟨g, hg, heq⟩ => ⟨g, List.mem_cons_of_mem _ hg, heq⟩
      · rcases List.mem_cons.mp h with rfl | hmem
        · exact Or.inl rfl
        · exact Or.inr ⟨e, hmem, rfl⟩
      · rcases List.mem_cons.mp h with rfl | hmem
        · exact Or.inr ⟨f, List.mem_cons_self, rfl⟩
        · exact Or.inr ⟨e, List.mem_cons_of_mem _ hmem, rfl⟩

theorem erase_sublist (k : κ) (m : List (κ × α)) : (erase lt k m).Sublist m := by
  induction m with
  | nil => exact List.Sublist.refl _
  | cons e m ih =>
      rw [erase]
      split_ifs
      · exact ih.cons_cons e
      · exact List.Sublist.refl _
      · exact (List.dropWhile_sublist _).cons e

theorem sorted_erase (hsorted : Sorted lt m) : Sorted lt (erase lt k m) := hsorted.sublist (erase_sublist k m)

section StrictTotal

variable [hlt : IsStrictTotalOrder κ fun a b => lt a b = true]

theorem not_lt_of_lt (h : lt k l = true) : lt l k ≠ true := asymm (r := fun a b => lt a b = true) h

theorem eq_of_not_lt (hkl : lt k l ≠ true) (hlk : lt l k ≠ true) : k = l := hlt.trichotomous k l hkl hlk

/-- A key that is below all entries is not found. -/
theorem find?_eq_none (hbelow : ∀ e ∈ m, lt k e.1 = true) : find? lt k m = none := by
  cases m with
  | nil => rfl
  | cons e m =>
      have hke := hbelow e List.mem_cons_self
      rw [find?, if_neg (not_lt_of_lt hke), if_pos hke]

theorem find?_assign_self (k : κ) (v : α) (m : List (κ × α)) : find? lt k (assign lt k v m) = some v := by
  have hirrefl : lt k k ≠ true := hlt.irrefl k
  induction m with
  | nil => rw [assign, find?, if_neg hirrefl, if_neg hirrefl]
  | cons e m ih =>
      rw [assign]
      split_ifs with hek hke
      · rw [find?, if_pos hek, ih]
      · rw [find?, if_neg hirrefl, if_neg hirrefl]
      · rw [find?, if_neg hek, if_neg hke]

theorem find?_assign_of_ne (hne : l ≠ k) (v : α) (m : List (κ × α)) :
    find? lt l (assign lt k v m) = find? lt l m := by
  have hothers : ∀ rest, (lt k l ≠ true → find? lt l rest = none) → find? lt l ((k, v) :: rest) = find? lt l rest := by
    intro rest hrest
    by_cases hkl : lt k l = true
    · rw [find?, if_pos hkl]
    · have hlk : lt l k = true := by
        by_contra hlk
        exact hne (eq_of_not_lt hlk hkl)
      rw [find?, if_neg hkl, if_pos hlk, hrest hkl]
  induction m with
  | nil => exact hothers [] fun _ => rfl
  | cons e m ih =>
      rw [assign]
      split_ifs with hek hke
      · rw [find?, find?, ih]
      · refine hothers (e :: m) fun hkl => ?_
        have hle : lt l e.1 = true := by
          by_contra hle
          by_cases hel : lt e.1 l = true
          · exact hkl (hlt.trans _ _ _ hke hel)
          · exact hkl (eq_of_not_lt hle hel ▸ hke)
        rw [find?, if_neg (not_lt_of_lt hle), if_pos hle]
      · have heq : e.1 = k := eq_of_not_lt hek hke
        rw [find?, find?]
        simp only
        split_ifs with hel hle
        · rfl
        · rfl
        · exact absurd (heq ▸ eq_of_not_lt hle hel) hne

/-- **Assigning to a key changes what is found under it and nothing else.** -/
theorem find?_assign [DecidableEq κ] (k : κ) (v : α) (m : List (κ × α)) :
    (fun l => find? lt l (assign lt k v m)) = Function.update (fun l => find? lt l m) k (some v) := by
  funext l
  by_cases hl : l = k
  · rw [hl, Function.update_self, find?_assign_self]
  · rw [Function.update_of_ne hl, find?_assign_of_ne hl]

theorem sorted_assign (hsorted : Sorted lt m) : Sorted lt (assign lt k v m) := by
  induction m with
  | nil => exact List.pairwise_singleton _ _
  | cons e m ih =>
      obtain ⟨hfirst, hrest⟩ := List.pairwise_cons.mp hsorted
      rw [assign]
      split_ifs with hek hke
      · refine List.pairwise_cons.mpr ⟨fun f hf => ?_, ih hrest⟩
        rcases mem_assign hf with hk | ⟨g, hg, heq⟩
        · rw [hk, hek]
        · rw [heq]
          exact hfirst g hg
      · refine List.pairwise_cons.mpr ⟨fun f hf => ?_, hsorted⟩
        rcases List.mem_cons.mp hf with rfl | hmem
        · exact hke
        · exact hlt.trans _ _ _ hke (hfirst f hmem)
      · exact List.pairwise_cons.mpr ⟨hfirst, hrest⟩

/-- **Erasing a key takes away what is found under it and nothing else.** -/
theorem find?_erase [DecidableEq κ] (hsorted : Sorted lt m) (k : κ) :
    (fun l => find? lt l (erase lt k m)) = Function.update (fun l => find? lt l m) k none := by
  funext l
  induction m with
  | nil => by_cases hl : l = k <;> simp [hl, erase, find?]
  | cons e m ih =>
      obtain ⟨hfirst, hrest⟩ := List.pairwise_cons.mp hsorted
      have ih' : find? lt l (erase lt k m) = if l = k then none else find? lt l m := by
        simpa [Function.update_apply] using ih hrest
      rw [Function.update_apply, erase]
      by_cases hek : lt e.1 k = true
      · rw [if_pos hek, find?, find?, ih']
        by_cases hl : l = k
        · rw [if_pos hl, if_pos hl, hl, if_pos hek]
        · rw [if_neg hl, if_neg hl]
      rw [if_neg hek]
      by_cases hke : lt k e.1 = true
      · rw [if_pos hke]
        by_cases hl : l = k
        · rw [if_pos hl, hl, find?, if_neg hek, if_pos hke]
        · rw [if_neg hl]
      · rw [if_neg hke]
        have heq : e.1 = k := eq_of_not_lt hek hke
        subst heq
        have hkept : m.dropWhile (fun f => !lt e.1 f.1) = m := by
          cases m with
          | nil => rfl
          | cons f m => exact List.dropWhile_cons_of_neg (by simp [hfirst f List.mem_cons_self])
        rw [hkept]
        by_cases hl : l = e.1
        · rw [if_pos hl, hl, find?_eq_none hfirst]
        · rw [if_neg hl, find?]
          split_ifs with hel hle
          · rfl
          · exact find?_eq_none fun f hf => hlt.trans _ _ _ hle (hfirst f hf)
          · exact absurd (eq_of_not_lt hle hel) hl

end StrictTotal

end OrderedMap
