import Mathlib.Data.List.Count
import Realtinet.TimerQueueCustody

/-! Which callbacks a timer queue calls. A cancelled timer is called at most once more, and only if it waits in the
batch that is being gone through; a timer that does not repeat is called once; no timer is called before its time; and
one `handleRead` calls exactly the timers that are due, in the order in which they expire, whatever their callbacks
add and cancel. -/

namespace Realtinet

open TransitionSystem

namespace TimerQueue

variable {s s' : TimerQueue} {e : Entry} {t : Timer} {p : Address} {id : TimerId} {i : Input}

/-- How often the timer with this number has been called. -/
def calls (sequence : Nat) (s : TimerQueue) : Nat := s.firings.countP fun f => f.timer.sequence == sequence

/-- The entries of the batch that are still to be called. -/
def waiting (s : TimerQueue) : List Entry := s.calling.elim [] Calling.left

theorem schedule_eq (p : Address) (t : Timer) (clock : Timestamp) (s : TimerQueue) :
    ∃ alarm, s.schedule p t clock = { s.enter p t with timerfd := alarm } := by
  rw [schedule]
  split_ifs
  · exact ⟨_, rfl⟩
  · exact ⟨s.timerfd, rfl⟩

theorem setNextExpire_eq {clock : Timestamp} (h : Custody [] s) (hset : s.setNextExpire clock = .ok s') :
    ∃ alarm, s' = { s with timerfd := alarm } := by
  rcases setNextExpire_cases h clock with ⟨-, heq⟩ | ⟨e, -, heq⟩
  · rw [heq] at hset
    cases hset
    exact ⟨s.timerfd, rfl⟩
  · rw [heq] at hset
    cases hset
    split_ifs
    · exact ⟨_, rfl⟩
    · exact ⟨s.timerfd, rfl⟩

/-- What the loop of `reset` leaves, by the rule for it. -/
theorem resetEach_inv {now : Timestamp} {batch : List Entry} (Inv : List Entry → TimerQueue → Prop)
    (hback : ∀ e rest s t, Custody (e :: rest) s → s.memory e.timer = some t → t.repeat_ = true →
      ⟨e.timer, t.sequence⟩ ∉ s.cancelingTimers → Inv (e :: rest) s →
      Inv rest ((s.store e.timer (some (t.restart now))).enter e.timer (t.restart now)))
    (hdelete : ∀ e rest s t, Custody (e :: rest) s → s.memory e.timer = some t →
      ¬(t.repeat_ = true ∧ ⟨e.timer, t.sequence⟩ ∉ s.cancelingTimers) → Inv (e :: rest) s →
      Inv rest (s.store e.timer none))
    (h : Custody batch s) (hinv : Inv batch s) (heach : s.resetEach now batch = .ok s') :
    Custody [] s' ∧ Inv [] s' := by
  obtain ⟨s'', heq, hresult⟩ := resetEach_rule now Inv hback hdelete h hinv
  rw [heach] at heq
  cases heq
  exact hresult

theorem Sound.custody_none (h : Sound s) {now : Timestamp} {expired left : List Entry}
    (hcalling : s.calling = some ⟨now, expired, left⟩) : Custody expired { s with calling := none } := by
  have hcustody := h.custody
  rw [taken, hcalling] at hcustody
  exact hcustody.congr rfl rfl rfl (Nat.le_refl _) rfl

/-! ### Cancelled timers -/

/-- A timer that exists and has this number stands in the batch and, should it repeat, has been noted as cancelled;
with the call it waits for it will have been called `bound` times. -/
structure Stopped (id : TimerId) (bound : Nat) (s : TimerQueue) : Prop where
  issued : id.sequence ≤ s.numCreated
  calls_le : s.calls id.sequence ≤ bound
  held : ∀ p t, s.memory p = some t → t.sequence = id.sequence →
    p = id.timer ∧ p ∈ s.taken.map Entry.timer ∧ (t.repeat_ = true → id ∈ s.cancelingTimers) ∧
      s.calls id.sequence + (s.waiting.map Entry.timer).count p ≤ bound

theorem Stopped.congr {bound : Nat} (h : Stopped id bound s) (hcreated : s.numCreated ≤ s'.numCreated)
    (hmemory : ∀ p t, s'.memory p = some t → t.sequence = id.sequence → s.memory p = some t)
    (hcalling : s'.calling = s.calling) (hcanceling : ∀ id ∈ s.cancelingTimers, id ∈ s'.cancelingTimers)
    (hfirings : s'.firings = s.firings) : Stopped id bound s' := by
  have hcalls : s'.calls id.sequence = s.calls id.sequence := by rw [calls, calls, hfirings]
  refine ⟨Nat.le_trans h.issued hcreated, by rw [hcalls]; exact h.calls_le, ?_⟩
  intro p t ht hseq
  obtain ⟨htimer, htaken, hcancel, hbound⟩ := h.held p t (hmemory p t ht hseq) hseq
  refine ⟨htimer, ?_, fun hrepeat => hcanceling _ (hcancel hrepeat), ?_⟩
  · rw [taken, hcalling]
    exact htaken
  · rw [hcalls, waiting, hcalling]
    exact hbound

theorem Stopped.pop {bound : Nat} (h : Stopped id bound s) (rest : List Functor) :
    Stopped id bound { s with pendingFunctors := rest } :=
  h.congr (Nat.le_refl _) (fun _ _ h _ => h) rfl (fun _ h => h) rfl

theorem Stopped.construct {bound : Nat} (h : Stopped id bound s) (p : Address) (x : Timestamp) (d : Nat) (r : Bool) :
    Stopped id bound (s.construct p x d r) := by
  refine h.congr (Nat.le_succ _) ?_ rfl (fun _ h => h) rfl
  intro q t ht hseq
  simp only [TimerQueue.construct, Function.update_apply] at ht
  split_ifs at ht
  · cases ht
    have := h.issued
    simp only at hseq
    omega
  · exact ht

theorem Stopped.forget {bound : Nat} {id' : TimerId} (h : Stopped id bound s) : Stopped id bound (s.forget id' t) := by
  refine h.congr (Nat.le_refl _) ?_ rfl (fun _ h => h) rfl
  intro p t ht _
  simp only [TimerQueue.forget, Function.update_apply] at ht
  split_ifs at ht
  exact ht

theorem Stopped.schedule {bound : Nat} (h : Stopped id bound s) (p : Address) (t : Timer) (clock : Timestamp) :
    Stopped id bound (s.schedule p t clock) := by
  obtain ⟨alarm, heq⟩ := schedule_eq p t clock s
  rw [heq]
  exact h.congr (Nat.le_refl _) (fun _ _ h _ => h) rfl (fun _ h => h) rfl

theorem calls_cons {f : Firing} {q : Nat} (hfirings : s'.firings = f :: s.firings) :
    s'.calls q = s.calls q + if f.timer.sequence = q then 1 else 0 := by
  rw [calls, calls, hfirings, List.countP_cons]
  simp only [beq_iff_eq]

/-- With `waiting` still to be called of the batch: no call was early, a timer that does not repeat has been called
once, and one that exists has not been called unless its call in the batch is over. -/
structure Punctual (batch waiting : List Entry) (s : TimerQueue) : Prop where
  notEarly : ∀ f ∈ s.firings, f.timer.expiration ≤ f.now
  issued : ∀ f ∈ s.firings, f.timer.sequence ≤ s.numCreated
  flag : ∀ f ∈ s.firings, ∀ p t, s.memory p = some t → t.sequence = f.timer.sequence → t.repeat_ = f.timer.repeat_
  uncalled : ∀ p t, s.memory p = some t → t.repeat_ = false →
    (p ∈ batch.map Entry.timer → p ∈ waiting.map Entry.timer) → s.calls t.sequence = 0
  once : ∀ f ∈ s.firings, f.timer.repeat_ = false → s.calls f.timer.sequence = 1

variable {batch waiting : List Entry}

theorem Punctual.congr (h : Punctual batch waiting s) (hcreated : s.numCreated ≤ s'.numCreated)
    (hmemory : ∀ p t, s'.memory p = some t → s.memory p = some t) (hfirings : s'.firings = s.firings) :
    Punctual batch waiting s' := by
  have hcalls : ∀ q, s'.calls q = s.calls q := fun q => by rw [calls, calls, hfirings]
  refine ⟨?_, ?_, ?_, ?_, ?_⟩
  · rw [hfirings]
    exact h.notEarly
  · rw [hfirings]
    exact fun f hf => Nat.le_trans (h.issued f hf) hcreated
  · rw [hfirings]
    exact fun f hf p t ht => h.flag f hf p t (hmemory p t ht)
  · intro p t ht hflag hplace
    rw [hcalls]
    exact h.uncalled p t (hmemory p t ht) hflag hplace
  · rw [hfirings]
    intro f hf hflag
    rw [hcalls]
    exact h.once f hf hflag

theorem Punctual.calls_fresh (h : Punctual batch waiting s) {q : Nat} (hq : s.numCreated < q) : s.calls q = 0 := by
  rw [calls, List.countP_eq_zero]
  intro f hf heq
  have := h.issued f hf
  have : f.timer.sequence = q := by simpa using heq
  omega

theorem Punctual.construct (h : Punctual batch waiting s) (p : Address) (x : Timestamp) (d : Nat) (r : Bool) :
    Punctual batch waiting (s.construct p x d r) := by
  have hcases : ∀ {q v}, (s.construct p x d r).memory q = some v →
      v.sequence = s.numCreated + 1 ∨ s.memory q = some v := by
    intro q v hq
    simp only [TimerQueue.construct, Function.update_apply] at hq
    split_ifs at hq
    · cases hq
      exact Or.inl rfl
    · exact Or.inr hq
  refine ⟨h.notEarly, fun f hf => Nat.le_succ_of_le (h.issued f hf), ?_, ?_, h.once⟩
  · intro f hf q v hv hseq
    rcases hcases hv with hnew | hold
    · have := h.issued f hf
      omega
    · exact h.flag f hf q v hold hseq
  · intro q v hv hflag hplace
    rcases hcases hv with hnew | hold
    · rw [hnew]
      exact h.calls_fresh (Nat.lt_succ_self _)
    · exact h.uncalled q v hold hflag hplace

/-- The next timer of the batch is called. -/
theorem Punctual.call {left : List Entry} {now : Timestamp} (h : Punctual batch (e :: left) s)
    (hcustody : Custody batch s) (hsuffix : (e :: left) <:+ batch) (hdue : e.expiration ≤ now)
    (ht : s.memory e.timer = some t) (hmemory : s'.memory = s.memory) (hcreated : s'.numCreated = s.numCreated)
    (hfirings : s'.firings = ⟨t, now⟩ :: s.firings) : Punctual batch left s' := by
  have hmem : e ∈ batch := hsuffix.subset List.mem_cons_self
  have hexp := hcustody.expiration e (Or.inr hmem) t ht
  have huncalled : t.repeat_ = false → s.calls t.sequence = 0 := fun hflag => h.uncalled e.timer t ht hflag (by simp)
  have hnodup : (e.timer :: left.map Entry.timer).Nodup := by
    have hbatch := (List.nodup_append.mp (List.nodup_append.mp hcustody.nodup).2.1).1
    exact (hsuffix.map Entry.timer).sublist.nodup hbatch
  refine ⟨?_, ?_, ?_, ?_, ?_⟩
  · intro f hf
    rw [hfirings] at hf
    rcases List.mem_cons.mp hf with rfl | hf
    · exact le_of_eq_of_le hexp hdue
    · exact h.notEarly f hf
  · intro f hf
    rw [hfirings] at hf
    rw [hcreated]
    rcases List.mem_cons.mp hf with rfl | hf
    · exact hcustody.numbered e.timer t ht
    · exact h.issued f hf
  · intro f hf p u hu hseq
    rw [hmemory] at hu
    rw [hfirings] at hf
    rcases List.mem_cons.mp hf with rfl | hf
    · have hp := hcustody.distinct p e.timer u t hu ht hseq
      rw [hp, ht] at hu
      cases hu
      rfl
    · exact h.flag f hf p u hu hseq
  · intro p u hu hflag hplace
    rw [hmemory] at hu
    have hpe : p ≠ e.timer := by
      rintro rfl
      exact (List.nodup_cons.mp hnodup).1 (hplace (List.mem_map_of_mem hmem))
    have hseq : t.sequence ≠ u.sequence := fun heq => hpe (hcustody.distinct p e.timer u t hu ht heq.symm)
    rw [calls_cons hfirings, if_neg hseq]
    exact h.uncalled p u hu hflag fun hp => List.mem_cons_of_mem _ (hplace hp)
  · intro f hf hflag
    rw [hfirings] at hf
    rw [calls_cons hfirings]
    rcases List.mem_cons.mp hf with rfl | hf
    · rw [if_pos rfl, huncalled hflag]
    · have hseq : t.sequence ≠ f.timer.sequence := by
        intro heq
        have hzero := huncalled ((h.flag f hf e.timer t ht heq).trans hflag)
        rw [heq, h.once f hf hflag] at hzero
        cases hzero
      rw [if_neg hseq]
      exact h.once f hf hflag

/-- The loop of `reset` deletes what does not repeat. -/
theorem Punctual.resetEach {now : Timestamp} (h : Punctual batch [] s) (hcustody : Custody batch s)
    (heach : s.resetEach now batch = .ok s') : Custody [] s' ∧ Punctual [] [] s' := by
  refine resetEach_inv (fun batch u => Punctual batch [] u) ?_ ?_ hcustody h heach
  · intro e rest u t hcustody ht hrepeat _ h
    have hcases : ∀ {p v}, ((u.store e.timer (some (t.restart now))).enter e.timer (t.restart now)).memory p = some v →
        p = e.timer ∧ v = t.restart now ∨ p ≠ e.timer ∧ u.memory p = some v := by
      intro p v hv
      simp only [enter, store, Function.update_apply] at hv
      split_ifs at hv with heq
      · exact Or.inl ⟨heq, (Option.some.inj hv).symm⟩
      · exact Or.inr ⟨heq, hv⟩
    refine ⟨h.notEarly, h.issued, ?_, ?_, h.once⟩
    · intro f hf p v hv hseq
      rcases hcases hv with ⟨rfl, rfl⟩ | ⟨-, hv⟩
      · exact h.flag f hf e.timer t ht hseq
      · exact h.flag f hf p v hv hseq
    · intro p v hv hflag hplace
      rcases hcases hv with ⟨rfl, rfl⟩ | ⟨hne, hv⟩
      · exact absurd (hrepeat.symm.trans hflag) (by decide)
      · refine h.uncalled p v hv hflag fun hp => ?_
        rw [List.map_cons, List.mem_cons] at hp
        exact hplace (hp.resolve_left hne)
  · intro e rest u t hcustody ht _ h
    have hold : ∀ {p v}, (u.store e.timer none).memory p = some v → p ≠ e.timer ∧ u.memory p = some v := by
      intro p v hv
      simp only [store, Function.update_apply] at hv
      split_ifs at hv with heq
      exact ⟨heq, hv⟩
    refine ⟨h.notEarly, h.issued, fun f hf p v hv => h.flag f hf p v (hold hv).2, ?_, h.once⟩
    intro p v hv hflag hplace
    refine h.uncalled p v (hold hv).2 hflag fun hp => ?_
    rw [List.map_cons, List.mem_cons] at hp
    exact hplace (hp.resolve_left (hold hv).1)

/-- Every timer of the batch was due when the batch was taken. -/
def BatchDue (s : TimerQueue) : Prop :=
  ∀ calling, s.calling = some calling → ∀ e ∈ calling.expired, e.expiration ≤ calling.now

theorem due_of_below {now : Timestamp} (h : Custody batch s) (he : e ∈ s.timers.below (sentry now)) :
    e.expiration ≤ now := by
  obtain ⟨hmem, hlt⟩ := SortedSet.mem_below.mp he
  obtain ⟨t, ht, -⟩ := h.exists_of_mem_timers hmem
  exact (lt_sentry_iff (h.range _ t ht)).mp hlt

/-- Neither the batch nor the calls are concerned. -/
theorem punctual_aside (h : BatchDue s ∧ Punctual s.taken s.waiting s) (hcalling : s'.calling = s.calling)
    (hpunctual : Punctual s.taken s.waiting s') : BatchDue s' ∧ Punctual s'.taken s'.waiting s' := by
  rw [BatchDue, taken, TimerQueue.waiting, hcalling]
  exact ⟨h.1, hpunctual⟩

theorem punctual_step (hsound : Sound s) (h : BatchDue s ∧ Punctual s.taken s.waiting s) (hstep : s.step i = .ok s') :
    BatchDue s' ∧ Punctual s'.taken s'.waiting s' := by
  cases (sound_step hsound hstep).1 with
  | @added p x d r clock hfree =>
      obtain ⟨alarm, heq⟩ := schedule_eq p ⟨x, d, r, s.numCreated + 1⟩ clock (s.construct p x d r)
      rw [heq]
      exact punctual_aside h rfl ((h.2.construct p x d r).congr (Nat.le_refl _) (fun _ _ h => h) rfl)
  | @addQueued p x d r clock hfree =>
      exact punctual_aside h rfl ((h.2.construct p x d r).congr (Nat.le_refl _) (fun _ _ h => h) rfl)
  | @arrived p t rest clock hcalling hpending ht =>
      obtain ⟨alarm, heq⟩ := schedule_eq p t clock { s with pendingFunctors := rest }
      rw [heq]
      exact punctual_aside h rfl (h.2.congr (Nat.le_refl _) (fun _ _ h => h) rfl)
  | cancelQueued => exact punctual_aside h rfl (h.2.congr (Nat.le_refl _) (fun _ _ h => h) rfl)
  | forgotten hid ht hseq =>
      refine punctual_aside h rfl (h.2.congr (Nat.le_refl _) ?_ rfl)
      intro p t ht
      simp only [forget, Function.update_apply] at ht
      split_ifs at ht
      exact ht
  | noted hid hcalling => exact punctual_aside h rfl (h.2.congr (Nat.le_refl _) (fun _ _ h => h) rfl)
  | ignored hid hcalling => exact h
  | forgottenLater hcalling hpending hid ht hseq =>
      refine punctual_aside h rfl (h.2.congr (Nat.le_refl _) ?_ rfl)
      intro p t ht
      simp only [forget, Function.update_apply] at ht
      split_ifs at ht
      exact ht
  | ignoredLater hcalling hpending hid => exact punctual_aside h rfl (h.2.congr (Nat.le_refl _) (fun _ _ h => h) rfl)
  | created => exact punctual_aside h rfl (h.2.congr (Nat.le_succ _) (fun _ _ h => h) rfl)
  | returned hadding ht hseq => exact punctual_aside h rfl (h.2.congr (Nat.le_refl _) (fun _ _ h => h) rfl)
  | @firstCalled now clock e left t ids hcalling hnow hexpired hcustody ht =>
      have hdue : ∀ e' ∈ e :: left, e'.expiration ≤ now := by
        rw [← hexpired]
        exact fun e' he' => due_of_below hsound.custody he'
      have hall : Punctual (e :: left) (e :: left) (s.expire now ids) := by
        have hpunctual := h.2
        rw [taken_of_none hcalling] at hpunctual
        exact ⟨hpunctual.notEarly, hpunctual.issued, hpunctual.flag,
          fun p u hu hflag _ => hpunctual.uncalled p u hu hflag (by simp), hpunctual.once⟩
      constructor
      · rintro calling ⟨⟩
        exact hdue
      · exact hall.call hcustody (List.suffix_refl _) (hdue e List.mem_cons_self) ht rfl rfl rfl
  | noneCalled hcalling hnow hexpired hcustody hset =>
      obtain ⟨alarm, rfl⟩ := setNextExpire_eq hcustody hset
      exact punctual_aside h rfl (h.2.congr (Nat.le_refl _) (fun _ _ h => h) rfl)
  | @nextCalled clock now expired left e t hcalling ht =>
      have hcustody := hsound.custody
      have hpunctual := h.2
      rw [taken, hcalling] at hcustody
      rw [taken, TimerQueue.waiting, hcalling] at hpunctual
      have hsuffix := hsound.left _ hcalling
      have hdue := h.1 _ hcalling
      constructor
      · rintro calling ⟨⟩
        exact hdue
      · exact hpunctual.call hcustody hsuffix (hdue e (hsuffix.subset List.mem_cons_self)) ht rfl rfl rfl
  | @ended clock now expired s₁ s' hcalling heach hset =>
      have hpunctual : Punctual expired [] { s with calling := none } := by
        have h' := h.2
        rw [taken, TimerQueue.waiting, hcalling] at h'
        exact h'.congr (Nat.le_refl _) (fun _ _ h => h) rfl
      have hnone : s₁.calling = none := (resetEach_inv (fun _ u => u.calling = none)
        (fun _ _ _ _ _ _ _ _ hinv => hinv) (fun _ _ _ _ _ _ _ hinv => hinv) (hsound.custody_none hcalling) rfl heach).2
      obtain ⟨hcustody, hresult⟩ := hpunctual.resetEach (hsound.custody_none hcalling) heach
      obtain ⟨alarm, rfl⟩ := setNextExpire_eq hcustody hset
      refine ⟨?_, ?_⟩
      · intro calling hsome
        rw [show s₁.calling = some calling from hsome] at hnone
        cases hnone
      · rw [taken, TimerQueue.waiting]
        simp only [hnone]
        exact hresult.congr (Nat.le_refl _) (fun _ _ h => h) rfl

def OnTime (s : TimerQueue) : Prop := Sound s ∧ BatchDue s ∧ Punctual s.taken s.waiting s

theorem onTime_run {inputs : List Input} (hrun : Run inputs s) : OnTime s := by
  refine run_invariant (fun _ _ _ h hstep => ⟨(sound_step h.1 hstep).2, punctual_step h.1 h.2 hstep⟩) ?_ hrun
  exact ⟨sound_new, nofun, by simp [new], by simp [new], by simp [new], by simp [new], by simp [new]⟩

/-- **Calls are not early, and a timer that does not repeat is called once.** In every run, whatever is added and
cancelled, in callbacks or by other threads, and however often addresses are used again. -/
theorem calls_punctual (inputs : List Input) (s : TimerQueue) (hrun : Run inputs s) :
    ∀ f ∈ s.firings, f.timer.expiration ≤ f.now ∧
      (f.timer.repeat_ = false → s.calls f.timer.sequence = 1) := by
  have hpunctual := (onTime_run hrun).2.2
  intro f hf
  exact ⟨hpunctual.notEarly f hf, hpunctual.once f hf⟩

theorem calls_punctual_twoDue :
    ∃ s, Run [.addTimer true 64 100 50 true 10, .addTimer false 128 90 0 false 10, .functor 20, .handleRead 150 150,
        .callbackReturns 160, .callbackReturns 160, .handleRead 300 300] s ∧ s.firings.length = 3 ∧
      s.calls 2 = 1 := by
  obtain ⟨s, hrun, hlength, hmem⟩ : ∃ s, Run [.addTimer true 64 100 50 true 10, .addTimer false 128 90 0 false 10,
      .functor 20, .handleRead 150 150, .callbackReturns 160, .callbackReturns 160, .handleRead 300 300] s ∧
      s.firings.length = 3 ∧ (⟨⟨90, 0, false, 2⟩, 150⟩ : Firing) ∈ s.firings := ⟨_, rfl, by decide, by decide⟩
  exact ⟨s, hrun, hlength, (calls_punctual _ s hrun _ hmem).2 rfl⟩

/-! ### One batch -/

/-- The timers whose time has come, in the order of `timers_`. -/
def due (now : Timestamp) (s : TimerQueue) : List Entry := s.timers.elems.filter fun e => decide (e.expiration ≤ now)

theorem below_eq_due (h : Custody batch s) (now : Timestamp) : s.timers.below (sentry now) = s.due now := by
  have hbelow : (s.timers.below (sentry now)).filter (fun e => decide (e.expiration ≤ now)) =
      s.timers.below (sentry now) := by
    rw [List.filter_eq_self]
    exact fun e he => decide_eq_true (due_of_below h he)
  have hrest : (s.timers.dropBelow (sentry now)).elems.filter (fun e => decide (e.expiration ≤ now)) = [] := by
    rw [List.filter_eq_nil_iff]
    intro e he
    obtain ⟨hmem, hle⟩ := SortedSet.mem_dropBelow.mp he
    obtain ⟨t, ht, -⟩ := h.exists_of_mem_timers hmem
    rw [decide_eq_true_eq, ← lt_sentry_iff (h.range _ t ht)]
    exact not_lt.mpr hle
  rw [due, ← SortedSet.below_append_dropBelow (sentry now) s.timers, List.filter_append, hbelow, hrest, List.append_nil]

/-- The call of an entry's timer. -/
def firing (now : Timestamp) (s : TimerQueue) (e : Entry) : Option Firing := (s.memory e.timer).map fun t => ⟨t, now⟩

/-- The batch that `start` has taken at `now`: its timers are as they were, and the calls made since are those of the
entries that are not left. -/
def InBatch (start : TimerQueue) (now : Timestamp) (s : TimerQueue) : Prop :=
  ∃ called left, s.calling = some ⟨now, start.due now, left⟩ ∧ called ++ left = start.due now ∧
    (∀ e ∈ start.due now, s.memory e.timer = start.memory e.timer) ∧
    s.firings = (called.filterMap (start.firing now)).reverse ++ start.firings

/-- The batch is over. -/
def AfterBatch (start : TimerQueue) (now : Timestamp) (s : TimerQueue) : Prop :=
  s.calling = none ∧ s.firings = ((start.due now).filterMap (start.firing now)).reverse ++ start.firings

variable {start : TimerQueue} {now : Timestamp}

/-- What is added, cancelled or queued meanwhile does not reach the batch. -/
theorem inBatch_aside (h : InBatch start now s ∨ AfterBatch start now s) (hcalling : s'.calling = s.calling)
    (hfirings : s'.firings = s.firings) (hmemory : ∀ e ∈ s.taken, s'.memory e.timer = s.memory e.timer) :
    InBatch start now s' ∨ AfterBatch start now s' := by
  rcases h with ⟨called, left, hsome, hlist, hsame, hcalls⟩ | ⟨hnone, hcalls⟩
  · rw [taken, hsome] at hmemory
    refine Or.inl ⟨called, left, hcalling.trans hsome, hlist, ?_, hfirings.trans hcalls⟩
    exact fun e he => (hmemory e he).trans (hsame e he)
  · exact Or.inr ⟨hcalling.trans hnone, hfirings.trans hcalls⟩

theorem memory_construct_of_taken (hsound : Sound s) (hfree : s.free p = true) (x : Timestamp) (d : Nat) (r : Bool) :
    ∀ e ∈ s.taken, (s.construct p x d r).memory e.timer = s.memory e.timer := by
  intro e he
  obtain ⟨t, ht, -⟩ := hsound.custody.exists_of_mem_batch he
  have hnone : s.memory p = none := by
    simp only [free, Bool.and_eq_true, Option.isNone_iff_eq_none] at hfree
    exact hfree.2
  have hne : e.timer ≠ p := by
    rintro rfl
    rw [ht] at hnone
    cases hnone
  simp only [construct, Function.update_of_ne hne]

theorem memory_forget_of_taken (hsound : Sound s) (hid : id ∈ s.activeTimers) (t : Timer) :
    ∀ e ∈ s.taken, (s.forget id t).memory e.timer = s.memory e.timer := by
  intro e he
  obtain ⟨u, -, -, htimers⟩ := (hsound.custody.active id).mp hid
  have hdisjoint := (List.nodup_append.mp hsound.custody.nodup).2.2
  have hne : e.timer ≠ id.timer := fun heq =>
    hdisjoint id.timer (List.mem_map.mpr ⟨_, htimers, rfl⟩) e.timer
      (List.mem_append_left _ (List.mem_map_of_mem he)) heq.symm
  simp only [forget, Function.update_of_ne hne]

theorem inBatch_step (hsound : Sound s) (h : InBatch start now s ∨ AfterBatch start now s)
    (hinput : ∀ now clock, i ≠ .handleRead now clock) (hstep : s.step i = .ok s') :
    InBatch start now s' ∨ AfterBatch start now s' := by
  cases (sound_step hsound hstep).1 with
  | @added p x d r clock hfree =>
      obtain ⟨alarm, heq⟩ := schedule_eq p ⟨x, d, r, s.numCreated + 1⟩ clock (s.construct p x d r)
      rw [heq]
      exact inBatch_aside h rfl rfl (memory_construct_of_taken hsound hfree x d r)
  | @addQueued p x d r clock hfree =>
      exact inBatch_aside h rfl rfl (memory_construct_of_taken hsound hfree x d r)
  | @arrived p t rest clock hcalling hpending ht =>
      obtain ⟨alarm, heq⟩ := schedule_eq p t clock { s with pendingFunctors := rest }
      rw [heq]
      exact inBatch_aside h rfl rfl fun _ _ => rfl
  | cancelQueued => exact inBatch_aside h rfl rfl fun _ _ => rfl
  | forgotten hid ht hseq => exact inBatch_aside h rfl rfl (memory_forget_of_taken hsound hid _)
  | noted hid hcalling => exact inBatch_aside h rfl rfl fun _ _ => rfl
  | ignored hid hcalling => exact h
  | @forgottenLater _ t _ _ hcalling hpending hid ht hseq =>
      exact inBatch_aside h rfl rfl (memory_forget_of_taken hsound hid t)
  | ignoredLater hcalling hpending hid => exact inBatch_aside h rfl rfl fun _ _ => rfl
  | created => exact inBatch_aside h rfl rfl fun _ _ => rfl
  | returned hadding ht hseq => exact inBatch_aside h rfl rfl fun _ _ => rfl
  | firstCalled hcalling hnow hexpired hcustody ht => exact absurd rfl (hinput _ _)
  | noneCalled hcalling hnow hexpired hcustody hset => exact absurd rfl (hinput _ _)
  | @nextCalled clock now' expired left e t hcalling ht =>
      rcases h with ⟨called, left', hsome, hlist, hsame, hcalls⟩ | ⟨hnone, -⟩
      · rw [hcalling] at hsome
        cases hsome
        have hmem : e ∈ start.due now := hlist ▸ List.mem_append_right _ List.mem_cons_self
        have hfiring : start.firing now e = some ⟨t, now⟩ := by rw [firing, ← hsame e hmem, ht]; rfl
        refine Or.inl ⟨called ++ [e], left, rfl, by rw [List.append_assoc]; exact hlist, hsame, ?_⟩
        rw [List.filterMap_append, List.filterMap_cons, hfiring, List.filterMap_nil, List.reverse_append,
          List.append_assoc, ← hcalls]
        rfl
      · rw [hcalling] at hnone
        cases hnone
  | @ended clock now' expired s₁ s' hcalling heach hset =>
      rcases h with ⟨called, left', hsome, hlist, hsame, hcalls⟩ | ⟨hnone, -⟩
      · rw [hcalling] at hsome
        cases hsome
        rw [List.append_nil] at hlist
        obtain ⟨hcustody, hnone, hfirings⟩ := resetEach_inv (fun _ u => u.calling = none ∧ u.firings = s.firings)
          (fun _ _ _ _ _ _ _ _ hinv => hinv) (fun _ _ _ _ _ _ _ hinv => hinv) (hsound.custody_none hcalling)
          ⟨rfl, rfl⟩ heach
        obtain ⟨alarm, rfl⟩ := setNextExpire_eq hcustody hset
        refine Or.inr ⟨hnone, ?_⟩
        rw [hlist] at hcalls
        exact hfirings.trans hcalls
      · rw [hcalling] at hnone
        cases hnone

theorem inBatch_handleRead {clock : Timestamp} (hsound : Sound start)
    (hstep : start.step (.handleRead now clock) = .ok s) : InBatch start now s ∨ AfterBatch start now s := by
  have hdue := below_eq_due hsound.custody now
  cases (sound_step hsound hstep).1 with
  | @firstCalled _ _ e left t ids hcalling hnow hexpired hcustody ht =>
      rw [hexpired] at hdue
      have hfiring : start.firing now e = some ⟨t, now⟩ := by rw [firing, ht]; rfl
      refine Or.inl ⟨[e], left, by rw [← hdue], hdue, fun _ _ => rfl, ?_⟩
      rw [List.filterMap_cons, hfiring]
      rfl
  | noneCalled hcalling hnow hexpired hcustody hset =>
      obtain ⟨alarm, rfl⟩ := setNextExpire_eq hcustody hset
      rw [hexpired] at hdue
      refine Or.inr ⟨hcalling, ?_⟩
      rw [← hdue]
      rfl

/-- **A batch is what was due.** From any reachable state, when one `handleRead` is over the calls it has made are
those of the timers that were due at its `now`, each once, in the order in which they expire, with nothing skipped
for what the callbacks and other threads have added and cancelled meanwhile. -/
theorem batch_is_due (inputs : List Input) (start : TimerQueue) (hrun : Run inputs start) (now clock : Timestamp)
    (later : List Input) (hlater : ∀ i ∈ later, ∀ now clock, i ≠ .handleRead now clock) (s : TimerQueue)
    (hbatch : run step start (.handleRead now clock :: later) = .ok s) (hend : s.calling = none) :
    s.firings = ((start.due now).filterMap (start.firing now)).reverse ++ start.firings ∧
      (start.due now).Pairwise (· < ·) ∧ ∀ e ∈ start.due now, ∃ t, start.firing now e = some ⟨t, now⟩ := by
  have hsound := sound_run hrun
  obtain ⟨s₁, hstep, hrest⟩ := run_cons_eq_ok.mp hbatch
  have hinv : Sound s ∧ (InBatch start now s ∨ AfterBatch start now s) := by
    have hrule : ∀ u j u', (Sound u ∧ (InBatch start now u ∨ AfterBatch start now u)) →
        (∀ now clock, j ≠ .handleRead now clock) → u.step j = .ok u' →
        Sound u' ∧ (InBatch start now u' ∨ AfterBatch start now u') :=
      fun u j u' h hinput hstep => ⟨(sound_step h.1 hstep).2, inBatch_step h.1 h.2 hinput hstep⟩
    exact run_invariant_along hrule ⟨(sound_step hsound hstep).2, inBatch_handleRead hsound hstep⟩
      (along_of_mem hlater s₁) hrest
  refine ⟨?_, start.timers.sorted.sublist List.filter_sublist, ?_⟩
  · rcases hinv.2 with ⟨called, left, hsome, -⟩ | ⟨-, hcalls⟩
    · rw [hend] at hsome
      cases hsome
    · exact hcalls
  · intro e he
    obtain ⟨t, ht, -⟩ := hsound.custody.exists_of_mem_timers (List.mem_of_mem_filter he)
    exact ⟨t, by rw [firing, ht]; rfl⟩

/-- The first callback cancels the timer that comes after it in the batch, and adds one that is due at once. -/
theorem batch_is_due_cancelInside :
    ∃ start s, Run [.addTimer true 64 100 0 false 10, .addTimer true 128 110 0 false 10] start ∧
      run step start [.handleRead 150 150, .cancel true ⟨128, 2⟩, .addTimer true 192 120 0 false 150,
        .callbackReturns 160, .callbackReturns 160] = .ok s ∧
      s.firings = [⟨⟨110, 0, false, 2⟩, 150⟩, ⟨⟨100, 0, false, 1⟩, 150⟩] := by
  obtain ⟨start, hrun, hcalls⟩ : ∃ start, Run [.addTimer true 64 100 0 false 10, .addTimer true 128 110 0 false 10]
      start ∧ ((start.due 150).filterMap (start.firing 150)).reverse ++ start.firings =
        [⟨⟨110, 0, false, 2⟩, 150⟩, ⟨⟨100, 0, false, 1⟩, 150⟩] := ⟨_, rfl, by decide⟩
  obtain ⟨s, hbatch, hend⟩ : ∃ s, run step start [.handleRead 150 150, .cancel true ⟨128, 2⟩,
      .addTimer true 192 120 0 false 150, .callbackReturns 160, .callbackReturns 160] = .ok s ∧ s.calling = none := by
    cases hrun
    exact ⟨_, rfl, rfl⟩
  have hdue := (batch_is_due _ start hrun 150 150 _ (by simp) s hbatch hend).1
  exact ⟨start, s, hrun, hbatch, hdue.trans hcalls⟩

end TimerQueue
end Realtinet
