import Mathlib.Data.List.Perm.Basic

/-! The queues of several event loops in one list: every queued call stands in it with the loop it is
queued in, in the order of queueing. A loop takes its oldest call out, which is the first one of the
list that is tagged with the loop. -/

namespace LoopQueues

variable {κ φ : Type} [DecidableEq κ]

/-- The oldest call of a loop and what is left, or nothing if the loop has no call queued. -/
def takeOldest (loop : κ) : List (κ × φ) → Option (φ × List (κ × φ))
  | [] => none
  | (tag, call) :: rest =>
      if tag = loop then some (call, rest)
      else
        match takeOldest loop rest with
        | some (oldest, left) => some (oldest, (tag, call) :: left)
        | none => none

variable {loop : κ} {pending left : List (κ × φ)} {call : φ}

/-- Nothing of the loop stands before the call that is taken. -/
theorem takeOldest_eq_some (h : takeOldest loop pending = some (call, left)) :
    ∃ before after, pending = before ++ (loop, call) :: after ∧ left = before ++ after ∧
      ∀ entry ∈ before, entry.1 ≠ loop := by
  induction pending generalizing left with
  | nil => simp [takeOldest] at h
  | cons entry rest ih =>
      obtain ⟨tag, first⟩ := entry
      rw [takeOldest] at h
      split_ifs at h with htag
      · cases h
        exact ⟨[], rest, by rw [htag]; rfl, rfl, by simp⟩
      · split at h
        · rename_i oldest left' hrest
          cases h
          obtain ⟨before, after, hpending, hleft, hbefore⟩ := ih hrest
          refine ⟨(tag, first) :: before, after, by rw [hpending]; rfl, by rw [hleft]; rfl, ?_⟩
          intro entry hmem
          rcases List.mem_cons.mp hmem with rfl | hmem
          · exact htag
          · exact hbefore entry hmem
        · cases h

/-- Taking a call out changes nothing else. -/
theorem takeOldest_perm (h : takeOldest loop pending = some (call, left)) :
    ((loop, call) :: left).Perm pending := by
  obtain ⟨before, after, rfl, rfl, -⟩ := takeOldest_eq_some h
  exact List.perm_middle.symm

end LoopQueues
