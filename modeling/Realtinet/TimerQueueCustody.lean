import Realtinet.TimerQueue

/-! Who holds the timers of a queue. A timer that exists stands in `timers_`, in the batch that `handleRead` goes
through, or in a queued `addTimerInLoop`, and in exactly one of them; `activeTimers_` has those of `timers_` under
their addresses and sequence numbers. It follows that no assert of the queue fails and that no timer is lost, whatever
ids are given to `cancel` and whichever addresses are used again, and that a deleted timer is used only by `addTimer`
itself, in the last line of a call from another thread. -/

namespace Realtinet

open TransitionSystem

namespace TimerQueue

variable {s s' : TimerQueue} {batch : List Entry} {e : Entry} {t : Timer} {p : Address} {id : TimerId}

def Functor.timer? : Functor → Option Address
  | .addTimerInLoop timer => some timer
  | .cancelInLoop _ => none

/-- The timers on their way into the loop. -/
def queued (s : TimerQueue) : List Address := s.pendingFunctors.filterMap Functor.timer?

/-- Where the timers are, while `batch` is being gone through. -/
def places (batch : List Entry) (s : TimerQueue) : List Address :=
  s.timers.elems.map Entry.timer ++ (batch.map Entry.timer ++ s.queued)

structure Custody (batch : List Entry) (s : TimerQueue) : Prop where
  nodup : (s.places batch).Nodup
  exists_iff : ∀ p, (∃ t, s.memory p = some t) ↔ p ∈ s.places batch
  expiration : ∀ e, e ∈ s.timers ∨ e ∈ batch → ∀ t, s.memory e.timer = some t → t.expiration = e.expiration
  active : ∀ id, id ∈ s.activeTimers ↔
    ∃ t, s.memory id.timer = some t ∧ t.sequence = id.sequence ∧ ⟨t.expiration, id.timer⟩ ∈ s.timers
  numbered : ∀ p t, s.memory p = some t → t.sequence ≤ s.numCreated
  distinct : ∀ p q t u, s.memory p = some t → s.memory q = some u → t.sequence = u.sequence → p = q
  range : ∀ p t, s.memory p = some t → p < UINTPTR_MAX

theorem custody_new : Custody [] new where
  nodup := by simp [places, new, queued, SortedSet.empty]
  exists_iff := by simp [places, new, queued, SortedSet.empty]
  expiration := by simp [new]
  active := by simp [new]
  numbered := by simp [new]
  distinct := by simp [new]
  range := by simp [new]

/-- A timer may change its place between the batch and the queue. -/
theorem Custody.move {batch' : List Entry} (h : Custody batch s) (htimers : s'.timers = s.timers)
    (hactive : s'.activeTimers = s.activeTimers) (hmemory : s'.memory = s.memory)
    (hcreated : s.numCreated ≤ s'.numCreated) (hplaces : (s'.places batch').Perm (s.places batch))
    (hexp : ∀ e ∈ batch', ∀ t, s.memory e.timer = some t → t.expiration = e.expiration) : Custody batch' s' := by
  refine ⟨hplaces.nodup_iff.mpr h.nodup, ?_, ?_, ?_, ?_, ?_, ?_⟩
  · intro p
    rw [hplaces.mem_iff, hmemory]
    exact h.exists_iff p
  · intro e he t ht
    rw [htimers] at he
    rw [hmemory] at ht
    exact he.elim (fun he => h.expiration e (Or.inl he) t ht) (fun he => hexp e he t ht)
  · rw [hactive, htimers, hmemory]
    exact h.active
  · rw [hmemory]
    exact fun p t hp => Nat.le_trans (h.numbered p t hp) hcreated
  · rw [hmemory]
    exact h.distinct
  · rw [hmemory]
    exact h.range

theorem Custody.congr (h : Custody batch s) (htimers : s'.timers = s.timers)
    (hactive : s'.activeTimers = s.activeTimers) (hmemory : s'.memory = s.memory)
    (hcreated : s.numCreated ≤ s'.numCreated) (hqueued : s'.queued = s.queued) : Custody batch s' := by
  refine h.move htimers hactive hmemory hcreated ?_ fun e he => h.expiration e (Or.inr he)
  rw [places, places, htimers, hqueued]

theorem Custody.exists_of_mem_timers (h : Custody batch s) (he : e ∈ s.timers) :
    ∃ t, s.memory e.timer = some t ∧ t.expiration = e.expiration := by
  have hmem : e.timer ∈ s.places batch := List.mem_append_left _ (List.mem_map_of_mem he)
  obtain ⟨t, ht⟩ := (h.exists_iff e.timer).mpr hmem
  exact ⟨t, ht, h.expiration e (Or.inl he) t ht⟩

theorem Custody.exists_of_mem_batch (h : Custody batch s) (he : e ∈ batch) :
    ∃ t, s.memory e.timer = some t ∧ t.expiration = e.expiration := by
  have hmem : e.timer ∈ s.places batch :=
    List.mem_append_right _ (List.mem_append_left _ (List.mem_map_of_mem he))
  obtain ⟨t, ht⟩ := (h.exists_iff e.timer).mpr hmem
  exact ⟨t, ht, h.expiration e (Or.inr he) t ht⟩

/-- A timer of the batch is not in `timers_`, under any expiration. -/
theorem Custody.not_mem_timers (h : Custody (e :: batch) s) (x : Timestamp) : (⟨x, e.timer⟩ : Entry) ∉ s.timers := by
  intro hmem
  have hdisjoint := (List.nodup_append.mp h.nodup).2.2
  have htimer : e.timer ∈ s.timers.elems.map Entry.timer := List.mem_map.mpr ⟨_, hmem, rfl⟩
  exact hdisjoint e.timer htimer e.timer (by simp) rfl

/-- The sequence number of the timer at an address. -/
def number (s : TimerQueue) (p : Address) : Nat :=
  match s.memory p with
  | some t => t.sequence
  | none => 0

theorem number_eq (ht : s.memory p = some t) : s.number p = t.sequence := by rw [number, ht]

/-- `activeTimers_` is the other index of the same timers. -/
theorem Custody.active_perm (h : Custody batch s) :
    s.activeTimers.elems.Perm (s.timers.elems.map fun e => ⟨e.timer, s.number e.timer⟩) := by
  have hnodup : (s.timers.elems.map fun e => (⟨e.timer, s.number e.timer⟩ : TimerId)).Nodup := by
    apply List.Nodup.of_map TimerId.timer
    rw [List.map_map]
    exact (List.nodup_append.mp h.nodup).1
  rw [List.perm_ext_iff_of_nodup s.activeTimers.nodup hnodup]
  intro id
  rw [← SortedSet.mem_def, h.active id, List.mem_map]
  constructor
  · rintro ⟨t, ht, hseq, hmem⟩
    refine ⟨_, hmem, ?_⟩
    rw [number_eq ht, hseq]
  · rintro ⟨e, he, rfl⟩
    obtain ⟨t, ht, hexp⟩ := h.exists_of_mem_timers he
    refine ⟨t, ht, (number_eq ht).symm, ?_⟩
    rw [hexp]
    exact he

theorem Custody.sameSize (h : Custody batch s) : s.sameSize = true := by
  have hlen := h.active_perm.length_eq
  rw [List.length_map] at hlen
  rw [TimerQueue.sameSize, SortedSet.size, SortedSet.size, hlen, beq_self_eq_true]

theorem ok_bind {α β : Type} (a : α) (f : α → Except Halt β) : (Except.ok a >>= f) = f a := rfl

theorem check_ok {holds : Bool} {assertion : Assertion} (h : holds = true) : check holds assertion = .ok () := by
  rw [check, if_pos h]

theorem deref_eq (ht : s.memory p = some t) : s.deref p = .ok t := by rw [deref, ht]

/-! ### The operations -/

theorem Custody.enter (h : Custody (e :: batch) s) (ht : s.memory e.timer = some t) :
    Custody batch (s.enter e.timer t) := by
  have hexp : t.expiration = e.expiration := h.expiration e (Or.inr List.mem_cons_self) t ht
  have hnot := h.not_mem_timers t.expiration
  have hperm : ((s.enter e.timer t).places batch).Perm (s.places (e :: batch)) := by
    have htimers := (SortedSet.elems_insert_perm hnot).map Entry.timer
    rw [places, places, TimerQueue.enter]
    simp only [queued]
    refine (htimers.append_right _).trans ?_
    rw [List.map_cons, List.map_cons, List.cons_append]
    exact List.perm_middle.symm
  refine ⟨hperm.nodup_iff.mpr h.nodup, ?_, ?_, ?_, h.numbered, h.distinct, h.range⟩
  · intro p
    rw [hperm.mem_iff]
    exact h.exists_iff p
  · intro e' he' t' ht'
    rw [TimerQueue.enter, SortedSet.mem_insert] at he'
    rcases he' with (rfl | he') | he'
    · rw [show t' = t from Option.some.inj (ht'.symm.trans ht)]
    · exact h.expiration e' (Or.inl he') t' ht'
    · exact h.expiration e' (Or.inr (List.mem_cons_of_mem _ he')) t' ht'
  · intro id
    simp only [TimerQueue.enter, SortedSet.mem_insert]
    rw [h.active id]
    constructor
    · rintro (rfl | ⟨u, hu, hseq, hmem⟩)
      · exact ⟨t, ht, rfl, Or.inl rfl⟩
      · exact ⟨u, hu, hseq, Or.inr hmem⟩
    · rintro ⟨u, hu, hseq, heq | hmem⟩
      · have htimer : id.timer = e.timer := congrArg Entry.timer heq
        rw [htimer, ht] at hu
        cases hu
        left
        cases id
        simp_all
      · exact Or.inr ⟨u, hu, hseq, hmem⟩

/-- `insert` passes its asserts. -/
theorem insert_eq (h : Custody (e :: batch) s) (ht : s.memory e.timer = some t) :
    s.insert e.timer = .ok (s.earliest t, s.enter e.timer t) := by
  have hnot := h.not_mem_timers t.expiration
  have hnotActive : (⟨e.timer, t.sequence⟩ : TimerId) ∉ s.activeTimers := by
    rw [h.active]
    rintro ⟨u, hu, -, hmem⟩
    exact h.not_mem_timers u.expiration hmem
  simp only [insert, check_ok h.sameSize, deref_eq ht, ok_bind, check_ok (decide_eq_true hnot),
    check_ok (decide_eq_true hnotActive), check_ok (h.enter ht).sameSize]
  rfl

theorem Custody.delete (h : Custody (e :: batch) s) : Custody batch (s.store e.timer none) := by
  have hplaces : (s.places (e :: batch)).Perm (e.timer :: s.places batch) := by
    rw [places, places, List.map_cons, List.cons_append]
    exact List.perm_middle
  have hnodup := hplaces.nodup_iff.mp h.nodup
  have hnot : e.timer ∉ s.places batch := (List.nodup_cons.mp hnodup).1
  have hold : ∀ {p t}, (s.store e.timer none).memory p = some t → p ≠ e.timer ∧ s.memory p = some t := by
    intro p t hp
    simp only [store, Function.update_apply] at hp
    split_ifs at hp with heq
    exact ⟨heq, hp⟩
  refine ⟨(List.nodup_cons.mp hnodup).2, ?_, ?_, ?_, ?_, ?_, ?_⟩
  · intro p
    change _ ↔ p ∈ s.places batch
    by_cases hp : p = e.timer
    · rw [hp]
      simp [store, hnot]
    · simp only [store, Function.update_of_ne hp]
      rw [h.exists_iff p, hplaces.mem_iff, List.mem_cons]
      exact or_iff_right hp
  · intro e' he' t' ht'
    exact h.expiration e' (he'.imp_right (List.mem_cons_of_mem _)) t' (hold ht').2
  · intro id
    change id ∈ s.activeTimers ↔ _
    rw [h.active id]
    constructor
    · rintro ⟨t, ht, hseq, hmem⟩
      have hne : id.timer ≠ e.timer := fun heq => h.not_mem_timers t.expiration (heq ▸ hmem)
      refine ⟨t, ?_, hseq, hmem⟩
      simp only [store, Function.update_of_ne hne]
      exact ht
    · rintro ⟨t, ht, hseq, hmem⟩
      exact ⟨t, (hold ht).2, hseq, hmem⟩
  · exact fun p t hp => h.numbered p t (hold hp).2
  · exact fun p q t u hp hq => h.distinct p q t u (hold hp).2 (hold hq).2
  · exact fun p t hp => h.range p t (hold hp).2

/-- A timer stored at a free address, under a sequence number of its own, counts as one of the batch until it is
entered or queued. -/
theorem Custody.add {u : Timer} (h : Custody batch s) (hnone : s.memory p = none) (hmax : p < UINTPTR_MAX)
    (hnumber : u.sequence ≤ s.numCreated) (hfresh : ∀ q v, s.memory q = some v → v.sequence ≠ u.sequence) :
    Custody (⟨u.expiration, p⟩ :: batch) (s.store p (some u)) := by
  have hnot : p ∉ s.places batch := by
    rw [← h.exists_iff p, hnone]
    simp
  have hcases : ∀ {q v}, (s.store p (some u)).memory q = some v → q = p ∧ v = u ∨ q ≠ p ∧ s.memory q = some v := by
    intro q v hq
    simp only [TimerQueue.store, Function.update_apply] at hq
    split_ifs at hq with heq
    · exact Or.inl ⟨heq, (Option.some.inj hq).symm⟩
    · exact Or.inr ⟨heq, hq⟩
  have hother : ∀ {e' : Entry}, e' ∈ s.timers ∨ e' ∈ batch → e'.timer ≠ p := by
    rintro e' (he' | he') rfl
    · exact hnot (List.mem_append_left _ (List.mem_map_of_mem he'))
    · exact hnot (List.mem_append_right _ (List.mem_append_left _ (List.mem_map_of_mem he')))
  have hplaces : ((s.store p (some u)).places (⟨u.expiration, p⟩ :: batch)).Perm (p :: s.places batch) :=
    List.perm_middle
  refine ⟨hplaces.nodup_iff.mpr (List.nodup_cons.mpr ⟨hnot, h.nodup⟩), ?_, ?_, ?_, ?_, ?_, ?_⟩
  · intro q
    rw [hplaces.mem_iff, List.mem_cons, ← h.exists_iff q]
    by_cases hq : q = p
    · rw [hq]
      simp [TimerQueue.store]
    · simp [TimerQueue.store, hq]
  · intro e' he' v hv
    rcases hcases hv with ⟨heq, rfl⟩ | ⟨hne, hv⟩
    · rcases he' with he' | he'
      · exact absurd heq (hother (Or.inl he'))
      · rcases List.mem_cons.mp he' with rfl | he'
        · rfl
        · exact absurd heq (hother (Or.inr he'))
    · rcases he' with he' | he'
      · exact h.expiration e' (Or.inl he') v hv
      · rcases List.mem_cons.mp he' with rfl | he'
        · exact absurd rfl hne
        · exact h.expiration e' (Or.inr he') v hv
  · intro id
    change id ∈ s.activeTimers ↔ _
    rw [h.active id]
    constructor
    · rintro ⟨v, hv, hseq, hmem⟩
      have hne : id.timer ≠ p := hother (Or.inl hmem)
      refine ⟨v, ?_, hseq, hmem⟩
      simp only [TimerQueue.store, Function.update_of_ne hne]
      exact hv
    · rintro ⟨v, hv, hseq, hmem⟩
      rcases hcases hv with ⟨heq, -⟩ | ⟨-, hv⟩
      · exact absurd heq (hother (Or.inl hmem))
      · exact ⟨v, hv, hseq, hmem⟩
  · intro q v hq
    rcases hcases hq with ⟨-, rfl⟩ | ⟨-, hq⟩
    · exact hnumber
    · exact h.numbered q v hq
  · intro q r v w hq hr heq
    rcases hcases hq with ⟨hqp, hvu⟩ | ⟨-, hq'⟩ <;> rcases hcases hr with ⟨hrp, hwu⟩ | ⟨-, hr'⟩
    · rw [hqp, hrp]
    · exact absurd (heq.symm.trans (congrArg Timer.sequence hvu)) (hfresh r w hr')
    · exact absurd (heq.trans (congrArg Timer.sequence hwu)) (hfresh q v hq')
    · exact h.distinct q r v w hq' hr' heq
  · intro q v hq
    rcases hcases hq with ⟨rfl, -⟩ | ⟨-, hq⟩
    · exact hmax
    · exact h.range q v hq

/-- `Timer::restart`, or any change of a timer of the batch that keeps its number. -/
theorem Custody.store (h : Custody (e :: batch) s) (ht : s.memory e.timer = some t) {u : Timer}
    (hseq : u.sequence = t.sequence) : Custody (⟨u.expiration, e.timer⟩ :: batch) (s.store e.timer (some u)) := by
  have hadd : Custody (⟨u.expiration, e.timer⟩ :: batch) ((s.store e.timer none).store e.timer (some u)) := by
    refine h.delete.add (by simp [TimerQueue.store]) (h.range _ t ht) (hseq ▸ h.numbered _ t ht) ?_
    intro q v hq heq
    simp only [TimerQueue.store, Function.update_apply] at hq
    split_ifs at hq with hne
    exact hne (h.distinct q e.timer v t hq ht (heq.trans hseq))
  rwa [TimerQueue.store, TimerQueue.store, Function.update_idem] at hadd

theorem Custody.construct (h : Custody batch s) (hfree : s.free p = true) (expiration : Timestamp) (delta : Nat)
    (repeat_ : Bool) : Custody (⟨expiration, p⟩ :: batch) (s.construct p expiration delta repeat_) := by
  obtain ⟨⟨-, hmax⟩, hnone⟩ : (0 < p ∧ p < UINTPTR_MAX) ∧ s.memory p = none := by
    simpa [free] using hfree
  have hcounted : Custody batch { s with numCreated := s.numCreated + 1 } :=
    h.congr rfl rfl rfl (Nat.le_succ _) rfl
  refine hcounted.add (u := ⟨expiration, delta, repeat_, s.numCreated + 1⟩) hnone hmax (Nat.le_refl _) ?_
  intro q v hq heq
  have := h.numbered q v hq
  simp only at heq
  omega

theorem Custody.queue (h : Custody (e :: batch) s) : Custody batch (s.queueInLoop (.addTimerInLoop e.timer)) := by
  refine h.move rfl rfl rfl (Nat.le_refl _) ?_ fun e' he' => h.expiration e' (Or.inr (List.mem_cons_of_mem _ he'))
  simp only [places, queued, queueInLoop, List.filterMap_append, List.filterMap_cons, Functor.timer?,
    List.filterMap_nil, List.map_cons, ← List.append_assoc]
  exact (List.perm_append_singleton _ _).trans (by simpa using List.perm_middle.symm)

theorem Custody.unqueue {rest : List Functor} (h : Custody batch s)
    (hpending : s.pendingFunctors = .addTimerInLoop p :: rest) :
    ∃ t, s.memory p = some t ∧ Custody (⟨t.expiration, p⟩ :: batch) { s with pendingFunctors := rest } := by
  have hmem : p ∈ s.places batch := by simp [places, queued, hpending, Functor.timer?]
  obtain ⟨t, ht⟩ := (h.exists_iff p).mpr hmem
  refine ⟨t, ht, h.move rfl rfl rfl (Nat.le_refl _) ?_ ?_⟩
  · simp only [places, queued, hpending, List.filterMap_cons, Functor.timer?, List.map_cons, List.cons_append]
    exact List.Perm.append_left _ List.perm_middle.symm
  · intro e he u hu
    rcases List.mem_cons.mp he with rfl | he
    · rw [show u = t from Option.some.inj (hu.symm.trans ht)]
    · exact h.expiration e (Or.inr he) u hu

/-- Timers taken out of both sets join the batch. -/
theorem Custody.leave {out : List Entry} (h : Custody batch s) (hlist : (out ++ s'.timers.elems).Perm s.timers.elems)
    (hactive : ∀ id, id ∈ s'.activeTimers ↔ id ∈ s.activeTimers ∧ id.timer ∉ out.map Entry.timer)
    (hmemory : s'.memory = s.memory) (hcreated : s'.numCreated = s.numCreated) (hqueued : s'.queued = s.queued) :
    Custody (out ++ batch) s' := by
  have hplaces : (s'.places (out ++ batch)).Perm (s.places batch) := by
    rw [places, places, hqueued, List.map_append, List.append_assoc, ← List.append_assoc]
    refine List.Perm.append_right _ ?_
    rw [← List.map_append]
    exact (List.perm_append_comm.trans hlist).map _
  have hmem : ∀ e, e ∈ s.timers ↔ e ∈ out ∨ e ∈ s'.timers := by
    intro e
    rw [SortedSet.mem_def, ← hlist.mem_iff, List.mem_append, SortedSet.mem_def]
  refine ⟨hplaces.nodup_iff.mpr h.nodup, ?_, ?_, ?_, ?_, ?_, ?_⟩
  · intro p
    rw [hplaces.mem_iff, hmemory]
    exact h.exists_iff p
  · intro e he t ht
    rw [hmemory] at ht
    rcases he with he | he
    · exact h.expiration e (Or.inl ((hmem e).mpr (Or.inr he))) t ht
    · rcases List.mem_append.mp he with he | he
      · exact h.expiration e (Or.inl ((hmem e).mpr (Or.inl he))) t ht
      · exact h.expiration e (Or.inr he) t ht
  · intro id
    rw [hactive id, h.active id, hmemory]
    constructor
    · rintro ⟨⟨t, ht, hseq, htimers⟩, hout⟩
      refine ⟨t, ht, hseq, ?_⟩
      rcases (hmem _).mp htimers with he | he
      · exact absurd (List.mem_map.mpr ⟨_, he, rfl⟩) hout
      · exact he
    · rintro ⟨t, ht, hseq, htimers⟩
      refine ⟨⟨t, ht, hseq, (hmem _).mpr (Or.inr htimers)⟩, ?_⟩
      intro hout
      have hnodup := (List.nodup_append.mp h.nodup).1
      rw [← (hlist.map Entry.timer).nodup_iff, List.map_append] at hnodup
      exact (List.nodup_append.mp hnodup).2.2 id.timer hout id.timer (List.mem_map.mpr ⟨_, htimers, rfl⟩) rfl
  · rw [hmemory, hcreated]
    exact h.numbered
  · rw [hmemory]
    exact h.distinct
  · rw [hmemory]
    exact h.range

theorem Custody.forget (h : Custody batch s) (hid : id ∈ s.activeTimers) (ht : s.memory id.timer = some t) :
    (⟨t.expiration, id.timer⟩ : Entry) ∈ s.timers ∧ Custody batch (s.forget id t) := by
  obtain ⟨u, hu, hseq, hmem⟩ := (h.active id).mp hid
  rw [ht] at hu
  cases hu
  have hleft : Custody ([⟨t.expiration, id.timer⟩] ++ batch)
      { s with
        timers := s.timers.erase ⟨t.expiration, id.timer⟩
        activeTimers := s.activeTimers.erase id } := by
    refine h.leave (SortedSet.elems_erase_perm hmem) ?_ rfl rfl rfl
    intro id'
    simp only [SortedSet.mem_erase, List.map_cons, List.map_nil, List.mem_singleton]
    constructor
    · rintro ⟨hne, hid'⟩
      refine ⟨hid', fun htimer => hne ?_⟩
      obtain ⟨u, hu, hseq', -⟩ := (h.active id').mp hid'
      rw [htimer, ht] at hu
      cases hu
      cases id
      cases id'
      simp_all
    · rintro ⟨hid', htimer⟩
      exact ⟨fun heq => htimer (congrArg TimerId.timer heq), hid'⟩
  exact ⟨hmem, hleft.delete⟩

/-- `cancelInLoop` passes its asserts; it deletes a timer that is armed and takes note of any other id while the
expired timers are being called. -/
theorem cancelInLoop_cases (h : Custody batch s) (id : TimerId) :
    (∃ t, id ∈ s.activeTimers ∧ s.memory id.timer = some t ∧ t.sequence = id.sequence ∧
      s.cancelInLoop id = .ok (s.forget id t)) ∨
    id ∉ s.activeTimers ∧ s.calling.isSome = true ∧
      s.cancelInLoop id = .ok { s with cancelingTimers := s.cancelingTimers.insert id } ∨
    id ∉ s.activeTimers ∧ s.calling = none ∧ s.cancelInLoop id = .ok s := by
  by_cases hid : id ∈ s.activeTimers
  · obtain ⟨t, ht, hseq, -⟩ := (h.active id).mp hid
    obtain ⟨hmem, hforget⟩ := h.forget hid ht
    refine Or.inl ⟨t, hid, ht, hseq, ?_⟩
    simp only [cancelInLoop, check_ok h.sameSize, ok_bind, if_pos hid, deref_eq ht, check_ok (decide_eq_true hmem),
      check_ok hforget.sameSize]
    rfl
  · right
    by_cases hcalling : s.calling.isSome = true
    · refine Or.inl ⟨hid, hcalling, ?_⟩
      simp only [cancelInLoop, check_ok h.sameSize, ok_bind, if_neg hid, if_pos hcalling]
      rfl
    · refine Or.inr ⟨hid, by simpa using hcalling, ?_⟩
      simp only [cancelInLoop, check_ok h.sameSize, ok_bind, if_neg hid, if_neg hcalling]
      rfl

/-- What `addTimerInLoop` does: the timer is entered, and the timerfd set if it is the next to expire. -/
def schedule (timer : Address) (t : Timer) (clock : Timestamp) (s : TimerQueue) : TimerQueue :=
  if s.earliest t then (s.enter timer t).resetTimerfd t.expiration clock else s.enter timer t

theorem addTimerInLoop_eq (h : Custody (e :: batch) s) (ht : s.memory e.timer = some t) (clock : Timestamp) :
    s.addTimerInLoop e.timer clock = .ok (s.schedule e.timer t clock) := by
  have hderef : (s.enter e.timer t).deref e.timer = .ok t := deref_eq ht
  simp only [addTimerInLoop, insert_eq h ht, ok_bind, hderef]
  rfl

theorem Custody.schedule (h : Custody (e :: batch) s) (ht : s.memory e.timer = some t) (clock : Timestamp) :
    Custody batch (s.schedule e.timer t clock) := by
  rw [TimerQueue.schedule]
  split_ifs
  · exact (h.enter ht).congr rfl rfl rfl (Nat.le_refl _) rfl
  · exact h.enter ht

/-- The numbers of the expired timers leave `activeTimers_`, one after another. -/
theorem eraseActive_eq {expired : List Entry} (hnodup : (expired.map Entry.timer).Nodup)
    (hmem : ∀ e ∈ expired, ∃ t, s.memory e.timer = some t ∧ ⟨e.timer, t.sequence⟩ ∈ s.activeTimers)
    (hactive : ∀ id ∈ s.activeTimers, ∃ t, s.memory id.timer = some t ∧ t.sequence = id.sequence) :
    ∃ ids : SortedSet TimerId, eraseActive expired s = .ok { s with activeTimers := ids } ∧
      ∀ id, id ∈ ids ↔ id ∈ s.activeTimers ∧ id.timer ∉ expired.map Entry.timer := by
  induction expired generalizing s with
  | nil => exact ⟨s.activeTimers, rfl, by simp⟩
  | cons e rest ih =>
      obtain ⟨t, ht, hid⟩ := hmem e List.mem_cons_self
      rw [List.map_cons] at hnodup
      obtain ⟨hnot, hrest⟩ := List.nodup_cons.mp hnodup
      -- the timers of the other entries are still there after this one has been taken out
      have hmem' : ∀ e' ∈ rest, ∃ t', s.memory e'.timer = some t' ∧
          ⟨e'.timer, t'.sequence⟩ ∈ s.activeTimers.erase ⟨e.timer, t.sequence⟩ := by
        intro e' he'
        obtain ⟨t', ht', hid'⟩ := hmem e' (List.mem_cons_of_mem _ he')
        refine ⟨t', ht', SortedSet.mem_erase.mpr ⟨?_, hid'⟩⟩
        intro heq
        have htimer : e'.timer = e.timer := congrArg TimerId.timer heq
        exact hnot (htimer ▸ List.mem_map_of_mem he')
      obtain ⟨ids, heq, hids⟩ := ih (s := { s with activeTimers := s.activeTimers.erase ⟨e.timer, t.sequence⟩ }) hrest
        hmem' (fun id hid => hactive id (SortedSet.mem_erase.mp hid).2)
      refine ⟨ids, ?_, ?_⟩
      · simp only [eraseActive, deref_eq ht, ok_bind, check_ok (decide_eq_true hid)]
        exact heq
      · intro id
        rw [hids id, SortedSet.mem_erase, List.map_cons, List.mem_cons]
        constructor
        · rintro ⟨⟨hne, hmem⟩, hnot'⟩
          refine ⟨hmem, ?_⟩
          rintro (htimer | htimer)
          · obtain ⟨u, hu, hseq⟩ := hactive id hmem
            rw [htimer, ht] at hu
            cases hu
            apply hne
            cases id
            simp_all
          · exact hnot' htimer
        · rintro ⟨hmem, hnot'⟩
          refine ⟨⟨fun heq => hnot' (Or.inl (congrArg TimerId.timer heq)), hmem⟩, fun h => hnot' (Or.inr h)⟩

/-- A timer is below the sentry exactly if it has expired. -/
theorem lt_sentry_iff {now : Timestamp} (hp : e.timer < UINTPTR_MAX) : e < sentry now ↔ e.expiration ≤ now := by
  change toLex (e.expiration, e.timer) < toLex (now, UINTPTR_MAX) ↔ _
  rw [Prod.Lex.toLex_lt_toLex]
  simp only [hp, and_true]
  exact le_iff_lt_or_eq.symm

/-- `getExpired` passes its asserts and moves exactly the expired timers into the batch. -/
theorem getExpired_eq (h : Custody [] s) (now : Timestamp) :
    ∃ s', s.getExpired now = .ok (s.timers.below (sentry now), s') ∧ Custody (s.timers.below (sentry now)) s' ∧
      ∃ ids, s' = { s with timers := s.timers.dropBelow (sentry now), activeTimers := ids } := by
  have hlist := SortedSet.below_append_dropBelow (sentry now) s.timers
  have hsub : ∀ e ∈ s.timers.below (sentry now), e ∈ s.timers := fun e he => (SortedSet.mem_below.mp he).1
  have hnodup : ((s.timers.below (sentry now)).map Entry.timer).Nodup := by
    have hall := (List.nodup_append.mp h.nodup).1
    rw [← hlist, List.map_append] at hall
    exact (List.nodup_append.mp hall).1
  obtain ⟨ids, heq, hids⟩ :=
    eraseActive_eq (s := { s with timers := s.timers.dropBelow (sentry now) }) hnodup
      (by
        intro e he
        obtain ⟨t, ht, hexp⟩ := h.exists_of_mem_timers (hsub e he)
        refine ⟨t, ht, (h.active _).mpr ⟨t, ht, rfl, ?_⟩⟩
        rw [hexp]
        exact hsub e he)
      (by
        intro id hid
        obtain ⟨t, ht, hseq, -⟩ := (h.active id).mp hid
        exact ⟨t, ht, hseq⟩)
  have hcustody : Custody (s.timers.below (sentry now) ++ [])
      { s with timers := s.timers.dropBelow (sentry now), activeTimers := ids } := by
    refine h.leave ?_ hids rfl rfl rfl
    rw [hlist]
  rw [List.append_nil] at hcustody
  have hend : ((s.timers.dropBelow (sentry now)).first.all fun e => decide (now < e.expiration)) = true := by
    rw [Option.all_eq_true]
    intro e he
    obtain ⟨hmem, hle⟩ := SortedSet.mem_dropBelow.mp (SortedSet.mem_of_first he)
    obtain ⟨t, ht, -⟩ := h.exists_of_mem_timers hmem
    have hnot : ¬e < sentry now := not_lt.mpr hle
    rw [lt_sentry_iff (h.range _ t ht), not_le] at hnot
    exact decide_eq_true hnot
  refine ⟨_, ?_, hcustody, ids, rfl⟩
  simp only [getExpired, check_ok h.sameSize, ok_bind, check_ok hend, heq, check_ok hcustody.sameSize]
  rfl

/-- **The rule for the loop of `reset`.** The loop succeeds, and what every round keeps holds after it: a round puts a
repeating timer back that has not been cancelled meanwhile, or deletes the timer. -/
theorem resetEach_rule (now : Timestamp) (Inv : List Entry → TimerQueue → Prop)
    (hback : ∀ e rest s t, Custody (e :: rest) s → s.memory e.timer = some t → t.repeat_ = true →
      ⟨e.timer, t.sequence⟩ ∉ s.cancelingTimers → Inv (e :: rest) s →
      Inv rest ((s.store e.timer (some (t.restart now))).enter e.timer (t.restart now)))
    (hdelete : ∀ e rest s t, Custody (e :: rest) s → s.memory e.timer = some t →
      ¬(t.repeat_ = true ∧ ⟨e.timer, t.sequence⟩ ∉ s.cancelingTimers) → Inv (e :: rest) s →
      Inv rest (s.store e.timer none))
    (h : Custody batch s) (hinv : Inv batch s) :
    ∃ s', s.resetEach now batch = .ok s' ∧ Custody [] s' ∧ Inv [] s' := by
  induction batch generalizing s with
  | nil => exact ⟨s, rfl, h, hinv⟩
  | cons e rest ih =>
      obtain ⟨t, ht, -⟩ := h.exists_of_mem_batch List.mem_cons_self
      by_cases hrepeat : t.repeat_ = true ∧ (⟨e.timer, t.sequence⟩ : TimerId) ∉ s.cancelingTimers
      · have hstore : Custody (⟨(t.restart now).expiration, e.timer⟩ :: rest)
            (s.store e.timer (some (t.restart now))) := h.store ht rfl
        have hmemory : (s.store e.timer (some (t.restart now))).memory e.timer = some (t.restart now) := by
          simp [TimerQueue.store]
        have hcond : (t.repeat_ && decide ((⟨e.timer, t.sequence⟩ : TimerId) ∉ s.cancelingTimers)) = true := by
          simp [hrepeat]
        obtain ⟨s', heq, hresult⟩ := ih (hstore.enter hmemory) (hback e rest s t h ht hrepeat.1 hrepeat.2 hinv)
        refine ⟨s', ?_, hresult⟩
        simp only [resetEach, deref_eq ht, ok_bind, if_pos hcond]
        rw [insert_eq hstore hmemory, ok_bind]
        exact heq
      · have hcond : ¬(t.repeat_ && decide ((⟨e.timer, t.sequence⟩ : TimerId) ∉ s.cancelingTimers)) = true := by
          simpa using hrepeat
        obtain ⟨s', heq, hresult⟩ := ih h.delete (hdelete e rest s t h ht hrepeat hinv)
        refine ⟨s', ?_, hresult⟩
        simp only [resetEach, deref_eq ht, ok_bind, if_neg hcond]
        exact heq

/-! ### The steps -/

/-- What `handleRead` has taken out and not yet put back or deleted. -/
def taken (s : TimerQueue) : List Entry := s.calling.elim [] Calling.expired

structure Sound (s : TimerQueue) : Prop where
  custody : Custody s.taken s
  left : ∀ calling, s.calling = some calling → calling.left <:+ calling.expired

/-- The queue when `handleRead` has taken the expired timers out and left `ids` in `activeTimers_`. -/
def expire (now : Timestamp) (ids : SortedSet TimerId) (s : TimerQueue) : TimerQueue :=
  { s with
    timerfd := none
    timers := s.timers.dropBelow (sentry now)
    activeTimers := ids
    cancelingTimers := .empty }

/-- **What a step can do.** An addition in the loop thread, from another thread, which returns later, or through the
queue; a cancellation,
at once or through the queue, that finds the timer, takes note of its id or does nothing; the next timer of the batch
is called, after a `getExpired` or after the callback before it; the batch has ended. -/
inductive Outcome (s : TimerQueue) : Input → TimerQueue → Prop where
  | added {p : Address} {x : Timestamp} {d : Nat} {r : Bool} {clock : Timestamp} (hfree : s.free p = true) :
      Outcome s (.addTimer true p x d r clock)
        ((s.construct p x d r).schedule p ⟨x, d, r, s.numCreated + 1⟩ clock)
  | addQueued {p : Address} {x : Timestamp} {d : Nat} {r : Bool} {clock : Timestamp} (hfree : s.free p = true) :
      Outcome s (.addTimer false p x d r clock) ((s.construct p x d r).queueTimer p)
  | returned {id : TimerId} {t : Timer} (hadding : id ∈ s.adding) (ht : s.memory id.timer = some t)
      (hseq : t.sequence = id.sequence) : Outcome s (.addTimerReturns id) { s with adding := s.adding.erase id }
  | arrived {p : Address} {t : Timer} {rest : List Functor} {clock : Timestamp} (hcalling : s.calling = none)
      (hpending : s.pendingFunctors = .addTimerInLoop p :: rest) (ht : s.memory p = some t) :
      Outcome s (.functor clock) (({ s with pendingFunctors := rest } : TimerQueue).schedule p t clock)
  | cancelQueued {id : TimerId} : Outcome s (.cancel false id) (s.queueInLoop (.cancelInLoop id))
  | forgotten {id : TimerId} {t : Timer} (hid : id ∈ s.activeTimers) (ht : s.memory id.timer = some t)
      (hseq : t.sequence = id.sequence) : Outcome s (.cancel true id) (s.forget id t)
  | noted {id : TimerId} (hid : id ∉ s.activeTimers) (hcalling : s.calling.isSome = true) :
      Outcome s (.cancel true id) { s with cancelingTimers := s.cancelingTimers.insert id }
  | ignored {id : TimerId} (hid : id ∉ s.activeTimers) (hcalling : s.calling = none) : Outcome s (.cancel true id) s
  | forgottenLater {id : TimerId} {t : Timer} {rest : List Functor} {clock : Timestamp} (hcalling : s.calling = none)
      (hpending : s.pendingFunctors = .cancelInLoop id :: rest) (hid : id ∈ s.activeTimers)
      (ht : s.memory id.timer = some t) (hseq : t.sequence = id.sequence) :
      Outcome s (.functor clock) (({ s with pendingFunctors := rest } : TimerQueue).forget id t)
  | ignoredLater {id : TimerId} {rest : List Functor} {clock : Timestamp} (hcalling : s.calling = none)
      (hpending : s.pendingFunctors = .cancelInLoop id :: rest) (hid : id ∉ s.activeTimers) :
      Outcome s (.functor clock) { s with pendingFunctors := rest }
  | created : Outcome s .created { s with numCreated := s.numCreated + 1 }
  | firstCalled {now clock : Timestamp} {e : Entry} {left : List Entry} {t : Timer} {ids : SortedSet TimerId}
      (hcalling : s.calling = none) (hnow : 0 < now) (hexpired : s.timers.below (sentry now) = e :: left)
      (hcustody : Custody (e :: left) (s.expire now ids)) (ht : s.memory e.timer = some t) :
      Outcome s (.handleRead now clock)
        { s.expire now ids with
          calling := some ⟨now, e :: left, left⟩
          firings := ⟨t, now⟩ :: s.firings }
  | noneCalled {now clock : Timestamp} {ids : SortedSet TimerId} {s' : TimerQueue} (hcalling : s.calling = none)
      (hnow : 0 < now) (hexpired : s.timers.below (sentry now) = []) (hcustody : Custody [] (s.expire now ids))
      (hset : (s.expire now ids).setNextExpire clock = .ok s') : Outcome s (.handleRead now clock) s'
  | nextCalled {clock now : Timestamp} {expired left : List Entry} {e : Entry} {t : Timer}
      (hcalling : s.calling = some ⟨now, expired, e :: left⟩) (ht : s.memory e.timer = some t) :
      Outcome s (.callbackReturns clock)
        { s with
          calling := some ⟨now, expired, left⟩
          firings := ⟨t, now⟩ :: s.firings }
  | ended {clock now : Timestamp} {expired : List Entry} {s₁ s' : TimerQueue}
      (hcalling : s.calling = some ⟨now, expired, []⟩)
      (heach : resetEach now expired { s with calling := none } = .ok s₁) (hset : s₁.setNextExpire clock = .ok s') :
      Outcome s (.callbackReturns clock) s'

/-- The end of `reset` sets the timerfd for the first timer, unless its time is not a valid one. -/
theorem setNextExpire_cases (h : Custody [] s) (clock : Timestamp) :
    s.timers.first = none ∧ s.setNextExpire clock = .ok s ∨
    ∃ e, s.timers.first = some e ∧
      s.setNextExpire clock = .ok (if Timestamp.valid e.expiration then s.resetTimerfd e.expiration clock else s) := by
  cases hfirst : s.timers.first with
  | none => exact Or.inl ⟨rfl, by rw [setNextExpire, hfirst]⟩
  | some e =>
      obtain ⟨t, ht, hexp⟩ := h.exists_of_mem_timers (SortedSet.mem_of_first hfirst)
      refine Or.inr ⟨e, rfl, ?_⟩
      rw [setNextExpire, hfirst]
      simp only [deref_eq ht, ok_bind, hexp]
      rfl

theorem sound_setNextExpire (h : Custody [] s) (hcalling : s.calling = none) (clock : Timestamp) :
    ∃ s', s.setNextExpire clock = .ok s' ∧ Sound s' := by
  have hsound : ∀ s' : TimerQueue, s'.timers = s.timers → s'.activeTimers = s.activeTimers → s'.memory = s.memory →
      s'.numCreated = s.numCreated → s'.pendingFunctors = s.pendingFunctors → s'.calling = none → Sound s' := by
    intro s' htimers hactive hmemory hcreated hpending hcalling'
    have hcustody : Custody s'.taken s' := by
      rw [taken, hcalling']
      exact h.congr htimers hactive hmemory (Nat.le_of_eq hcreated.symm) (by rw [queued, queued, hpending])
    exact ⟨hcustody, by rw [hcalling']; exact nofun⟩
  rcases setNextExpire_cases h clock with ⟨-, heq⟩ | ⟨e, -, heq⟩
  · exact ⟨s, heq, hsound s rfl rfl rfl rfl rfl hcalling⟩
  · refine ⟨_, heq, ?_⟩
    split_ifs
    · exact hsound _ rfl rfl rfl rfl rfl hcalling
    · exact hsound _ rfl rfl rfl rfl rfl hcalling

/-- The timers that are added, cancelled or queued do not concern the batch. -/
theorem Sound.of_custody (h : Sound s) (hcalling : s'.calling = s.calling) (hcustody : Custody s.taken s') :
    Sound s' := by
  refine ⟨?_, by rw [hcalling]; exact h.left⟩
  rw [taken, hcalling]
  exact hcustody

theorem schedule_calling (p : Address) (t : Timer) (clock : Timestamp) (s : TimerQueue) :
    (s.schedule p t clock).calling = s.calling := by
  rw [schedule]
  split_ifs <;> rfl

theorem schedule_memory (p : Address) (t : Timer) (clock : Timestamp) (s : TimerQueue) :
    (s.schedule p t clock).memory = s.memory := by
  rw [schedule]
  split_ifs <;> rfl

theorem schedule_numCreated (p : Address) (t : Timer) (clock : Timestamp) (s : TimerQueue) :
    (s.schedule p t clock).numCreated = s.numCreated := by
  rw [schedule]
  split_ifs <;> rfl

theorem taken_of_none (h : s.calling = none) : s.taken = [] := by rw [taken, h]; rfl

theorem readSequence_eq (ht : s.memory id.timer = some t) (hseq : t.sequence = id.sequence) :
    s.readSequence id = .ok () := by
  simp only [readSequence, ht, if_pos hseq]

theorem readSequence_eq_error (hdead : ∀ t, s.memory id.timer = some t → t.sequence ≠ id.sequence) :
    s.readSequence id = .error .deadTimer := by
  rw [readSequence]
  cases ht : s.memory id.timer with
  | none => rfl
  | some t => exact if_neg (hdead t ht)

/-- An accepted input with what it does, and the invariant after it. -/
def Accepted (s : TimerQueue) (i : Input) : Prop := ∃ s', s.step i = .ok s' ∧ Outcome s i s' ∧ Sound s'

theorem accepted_addTimer (h : Sound s) {inLoop : Bool} {x clock : Timestamp} {d : Nat} {r : Bool}
    (hfree : s.free p = true) : s.Accepted (.addTimer inLoop p x d r clock) := by
  have hconstruct := h.custody.construct hfree x d r
  cases inLoop with
  | true =>
      have hmemory : (s.construct p x d r).memory p = some ⟨x, d, r, s.numCreated + 1⟩ := by
        simp [construct]
      refine ⟨_, ?_, .added hfree, h.of_custody (schedule_calling _ _ _ _) (hconstruct.schedule hmemory clock)⟩
      have hread : ((s.construct p x d r).schedule p ⟨x, d, r, s.numCreated + 1⟩ clock).readSequence
          ⟨p, ((s.construct p x d r).schedule p ⟨x, d, r, s.numCreated + 1⟩ clock).numCreated⟩ = .ok () := by
        refine readSequence_eq (t := ⟨x, d, r, s.numCreated + 1⟩) ?_ ?_
        · rw [schedule_memory, hmemory]
        · rw [schedule_numCreated]
          rfl
      simp only [step, if_pos hfree, if_true, addTimerInLoop_eq hconstruct hmemory clock, ok_bind, hread]
      rfl
  | false =>
      have hqueued : Custody s.taken ((s.construct p x d r).queueTimer p) :=
        hconstruct.queue.congr rfl rfl rfl (Nat.le_refl _) rfl
      refine ⟨_, ?_, .addQueued hfree, h.of_custody rfl hqueued⟩
      simp only [step, if_pos hfree]
      rfl

theorem accepted_cancel (h : Sound s) {inLoop : Bool} : s.Accepted (.cancel inLoop id) := by
  cases inLoop with
  | true =>
      rcases cancelInLoop_cases h.custody id with ⟨t, hid, ht, hseq, heq⟩ | ⟨hid, hcalling, heq⟩ | ⟨hid, hcalling, heq⟩
      · exact ⟨_, heq, .forgotten hid ht hseq, h.of_custody rfl (h.custody.forget hid ht).2⟩
      · exact ⟨_, heq, .noted hid hcalling, h.of_custody rfl (h.custody.congr rfl rfl rfl (Nat.le_refl _) rfl)⟩
      · exact ⟨_, heq, .ignored hid hcalling, h⟩
  | false =>
      refine ⟨_, rfl, .cancelQueued, h.of_custody rfl (h.custody.congr rfl rfl rfl (Nat.le_refl _) ?_)⟩
      simp [queued, queueInLoop, Functor.timer?]

theorem accepted_functor (h : Sound s) {functor : Functor} {rest : List Functor} {clock : Timestamp}
    (hcalling : s.calling = none) (hpending : s.pendingFunctors = functor :: rest) :
    s.Accepted (.functor clock) := by
  have hnone : s.calling.isNone = true := by rw [hcalling]; rfl
  cases functor with
  | addTimerInLoop p =>
      obtain ⟨t, ht, hcustody⟩ := h.custody.unqueue hpending
      have hresult := hcustody.schedule ht clock
      refine ⟨_, ?_, .arrived hcalling hpending ht, h.of_custody (schedule_calling _ _ _ _) hresult⟩
      simp only [step, hpending, hnone, if_true]
      exact addTimerInLoop_eq hcustody ht clock
  | cancelInLoop id =>
      have hcustody : Custody s.taken { s with pendingFunctors := rest } := by
        refine h.custody.congr rfl rfl rfl (Nat.le_refl _) ?_
        rw [queued, queued, hpending]
        rfl
      have hstep : s.step (.functor clock) = cancelInLoop id { s with pendingFunctors := rest } := by
        simp only [step, hpending, hnone, if_true]
      rcases cancelInLoop_cases hcustody id with ⟨t, hid, ht, hseq, heq⟩ | ⟨-, hsome, -⟩ | ⟨hid, -, heq⟩
      · exact ⟨_, hstep.trans heq, .forgottenLater hcalling hpending hid ht hseq,
          h.of_custody rfl (hcustody.forget hid ht).2⟩
      · rw [hcalling] at hsome
        cases hsome
      · exact ⟨_, hstep.trans heq, .ignoredLater hcalling hpending hid, h.of_custody rfl hcustody⟩

theorem accepted_handleRead (h : Sound s) {now clock : Timestamp} (hcalling : s.calling = none)
    (halarm : s.timerfd.isSome = true) (hnow : 0 < now) : s.Accepted (.handleRead now clock) := by
  have hcustody : Custody [] { s with timerfd := none } := by
    rw [← taken_of_none hcalling]
    exact h.custody.congr rfl rfl rfl (Nat.le_refl _) rfl
  obtain ⟨s₁, hget, hbatch, ids, rfl⟩ := getExpired_eq hcustody now
  have hexpire : Custody (s.timers.below (sentry now)) (s.expire now ids) :=
    hbatch.congr rfl rfl rfl (Nat.le_refl _) rfl
  have hstep : s.step (.handleRead now clock) =
      callNext ⟨now, s.timers.below (sentry now), s.timers.below (sentry now)⟩ clock (s.expire now ids) := by
    have hcond : (s.calling.isNone && s.timerfd.isSome && decide (0 < now)) = true := by simp [hcalling, halarm, hnow]
    rw [step, if_pos hcond, handleRead, hget]
    rfl
  cases hexpired : s.timers.below (sentry now) with
  | nil =>
      rw [hexpired] at hexpire hstep
      obtain ⟨s', hset, hsound⟩ := sound_setNextExpire hexpire hcalling clock
      refine ⟨s', ?_, .noneCalled hcalling hnow hexpired hexpire hset, hsound⟩
      have hnone : ({ s.expire now ids with calling := none } : TimerQueue) = s.expire now ids := by
        rw [← hcalling]
        rfl
      rw [hstep, ← hset, callNext, reset, resetEach, ok_bind, hnone]
  | cons e left =>
      rw [hexpired] at hexpire hstep
      obtain ⟨t, ht, -⟩ := hexpire.exists_of_mem_batch List.mem_cons_self
      refine ⟨_, ?_, .firstCalled hcalling hnow hexpired hexpire ht, ?_, ?_⟩
      · have hderef : (s.expire now ids).deref e.timer = .ok t := deref_eq ht
        rw [hstep]
        simp only [callNext, hderef, ok_bind]
        rfl
      · exact hexpire.congr rfl rfl rfl (Nat.le_refl _) rfl
      · rintro calling ⟨⟩
        exact List.suffix_cons e left

theorem accepted_callbackReturns (h : Sound s) {calling : Calling} {clock : Timestamp}
    (hcalling : s.calling = some calling) : s.Accepted (.callbackReturns clock) := by
  obtain ⟨now, expired, left⟩ := calling
  have hcustody : Custody expired s := by
    have := h.custody
    rwa [taken, hcalling] at this
  have hsuffix := h.left _ hcalling
  have hstep : s.step (.callbackReturns clock) = s.callNext ⟨now, expired, left⟩ clock := by
    simp only [step, hcalling]
  cases left with
  | nil =>
      have hcustody' : Custody expired { s with calling := none } := hcustody.congr rfl rfl rfl (Nat.le_refl _) rfl
      obtain ⟨s₁, heach, hempty, hnone⟩ := resetEach_rule now (fun _ s => s.calling = none)
        (fun _ _ _ _ _ _ _ _ hinv => hinv) (fun _ _ _ _ _ _ _ hinv => hinv) hcustody' rfl
      obtain ⟨s', hset, hsound⟩ := sound_setNextExpire hempty hnone clock
      refine ⟨s', ?_, .ended hcalling heach hset, hsound⟩
      rw [hstep]
      simp only [callNext, reset, heach, ok_bind]
      exact hset
  | cons e left =>
      obtain ⟨t, ht, -⟩ := hcustody.exists_of_mem_batch (hsuffix.subset List.mem_cons_self)
      refine ⟨_, ?_, .nextCalled hcalling ht, ?_⟩
      · rw [hstep]
        simp only [callNext, deref_eq ht, ok_bind]
        rfl
      · refine ⟨hcustody.congr rfl rfl rfl (Nat.le_refl _) rfl, ?_⟩
        rintro calling ⟨⟩
        exact (List.suffix_cons e left).trans hsuffix

/-- An `addTimer` of another thread comes to its last line after its timer has been deleted. -/
def ReadsDeleted (id : TimerId) (s : TimerQueue) : Prop :=
  id ∈ s.adding ∧ ∀ t, s.memory id.timer = some t → t.sequence ≠ id.sequence

theorem accepted_addTimerReturns (h : Sound s) (hadding : id ∈ s.adding) (ht : s.memory id.timer = some t)
    (hseq : t.sequence = id.sequence) : s.Accepted (.addTimerReturns id) := by
  refine ⟨_, ?_, .returned hadding ht hseq, h.of_custody rfl (h.custody.congr rfl rfl rfl (Nat.le_refl _) rfl)⟩
  simp only [step, if_pos hadding, readSequence_eq ht hseq, ok_bind]
  rfl

/-- Every input is refused because it cannot occur, or is accepted, or reads a deleted timer. -/
theorem step_outcome (h : Sound s) (i : Input) :
    s.step i = .error .notEnabled ∨ s.Accepted i ∨
      ∃ id, i = .addTimerReturns id ∧ s.ReadsDeleted id ∧ s.step i = .error .deadTimer := by
  rw [← or_assoc]
  cases i with
  | addTimerReturns id =>
      by_cases hadding : id ∈ s.adding
      · by_cases halive : ∃ t, s.memory id.timer = some t ∧ t.sequence = id.sequence
        · obtain ⟨t, ht, hseq⟩ := halive
          exact Or.inl (Or.inr (accepted_addTimerReturns h hadding ht hseq))
        · have hdead : ∀ t, s.memory id.timer = some t → t.sequence ≠ id.sequence :=
            fun t ht hseq => halive ⟨t, ht, hseq⟩
          refine Or.inr ⟨id, rfl, ⟨hadding, hdead⟩, ?_⟩
          simp only [step, if_pos hadding, readSequence_eq_error hdead]
          rfl
      · exact Or.inl (Or.inl (by simp only [step, if_neg hadding]))
  | addTimer inLoop p x d r clock =>
      left
      by_cases hfree : s.free p = true
      · exact Or.inr (accepted_addTimer h hfree)
      · exact Or.inl (by simp only [step, if_neg hfree])
  | cancel inLoop id => exact Or.inl (Or.inr (accepted_cancel h))
  | functor clock =>
      left
      cases hpending : s.pendingFunctors with
      | nil => exact Or.inl (by simp only [step, hpending])
      | cons functor rest =>
          cases hcalling : s.calling with
          | none => exact Or.inr (accepted_functor h hcalling hpending)
          | some calling =>
              left
              simp [step, hpending, hcalling]
  | created =>
      left
      exact Or.inr ⟨_, rfl, .created, h.of_custody rfl (h.custody.congr rfl rfl rfl (Nat.le_succ _) rfl)⟩
  | handleRead now clock =>
      left
      by_cases hcond : (s.calling.isNone && s.timerfd.isSome && decide (0 < now)) = true
      · obtain ⟨⟨hcalling, halarm⟩, hnow⟩ : (s.calling = none ∧ s.timerfd.isSome = true) ∧ 0 < now := by
          simpa using hcond
        exact Or.inr (accepted_handleRead h hcalling halarm hnow)
      · exact Or.inl (by simp only [step, if_neg hcond])
  | callbackReturns clock =>
      left
      cases hcalling : s.calling with
      | none => exact Or.inl (by simp only [step, hcalling])
      | some calling => exact Or.inr (accepted_callbackReturns h hcalling)

theorem sound_new : Sound new := ⟨custody_new, nofun⟩

theorem sound_step {i : Input} (h : Sound s) (hstep : s.step i = .ok s') : Outcome s i s' ∧ Sound s' := by
  rcases step_outcome h i with herror | ⟨s'', heq, houtcome⟩ | ⟨id, -, -, herror⟩
  · rw [herror] at hstep
    cases hstep
  · rw [hstep] at heq
    cases heq
    exact houtcome
  · rw [herror] at hstep
    cases hstep

theorem sound_run {inputs : List Input} (hrun : Run inputs s) : Sound s :=
  run_invariant (fun _ _ _ h hstep => (sound_step h hstep).2) sound_new hrun

/-- The loop of another thread calls a timer and deletes it before `addTimer` has read its number. -/
example : run step new [.addTimer false 64 100 0 false 10, .functor 20, .handleRead 150 150, .callbackReturns 160,
    .addTimerReturns ⟨64, 1⟩] = .error .deadTimer := rfl

end TimerQueue
end Realtinet
