import Realtinet.TimerQueueCalls

/-! The timerfd of a timer queue. It is set when a timer becomes the next to expire and at the end of each
`handleRead`, where a time that is not valid is passed over; it is not set again for a cancelled timer. No timer is
forgotten for that: whenever the loop waits, the timerfd has been set, and it expires not later than any timer in the
queue, or 100 microseconds after it was set, which is the least it is ever set to. Timers may be added for times
before the epoch, which the connections do when their update time overflows. -/

namespace Realtinet

open TransitionSystem

namespace TimerQueue

variable {s s' : TimerQueue} {e : Entry} {t : Timer} {p : Address} {id : TimerId} {i : Input}

/-! ### The time until the alarm -/

/-- A proper `timespec`: the number of microseconds that `expiration` is ahead, at least 100 of them, so that the
timerfd is never switched off by it. -/
theorem howMuchTimeFromNow_spec (expiration now : Int) :
    let value := howMuchTimeFromNow expiration now
    0 ≤ value.tv_sec ∧ 0 ≤ value.tv_nsec ∧ value.tv_nsec < 1000000000 ∧
      value.tv_sec * 1000000000 + value.tv_nsec = 1000 * max 100 (expiration - now) := by
  simp only [howMuchTimeFromNow]
  split_ifs with h
  · refine ⟨by decide, by decide, by decide, ?_⟩
    rw [max_eq_left (by omega)]
    decide
  · have hpos : 0 ≤ expiration - now := by omega
    rw [max_eq_right (by omega), Int.tdiv_eq_ediv_of_nonneg hpos, Int.tmod_eq_emod_of_nonneg hpos]
    omega

theorem howMuchTimeFromNow_ne_zero (expiration now : Int) : howMuchTimeFromNow expiration now ≠ ⟨0, 0⟩ := by
  intro hzero
  have hspec := howMuchTimeFromNow_spec expiration now
  rw [hzero] at hspec
  simp only at hspec
  omega

theorem resetTimerfd_eq (expiration clock : Timestamp) (s : TimerQueue) :
    s.resetTimerfd expiration clock =
      { s with timerfd := some ⟨clock, howMuchTimeFromNow expiration clock⟩ } := by
  rw [resetTimerfd]
  simp only [if_neg (howMuchTimeFromNow_ne_zero expiration clock)]

/-- The timerfd expires at the expiration it was set for, or after the least it is ever set to. -/
theorem expires_resetTimerfd (expiration clock : Int) :
    let alarm : Alarm := ⟨clock, howMuchTimeFromNow expiration clock⟩
    alarm.expires ≤ alarm.clock + 100 ∨ alarm.expires ≤ expiration := by
  obtain ⟨hsec, hnsec, -, htotal⟩ := howMuchTimeFromNow_spec expiration clock
  generalize howMuchTimeFromNow expiration clock = value at *
  change clock + (value.tv_sec * 1000000 + value.tv_nsec / 1000) ≤ clock + 100 ∨
    clock + (value.tv_sec * 1000000 + value.tv_nsec / 1000) ≤ expiration
  omega

/-! ### No timer is forgotten -/

/-- The timerfd has been set for a time from then on, and will have expired by `x`, or after the least it is ever set
to. -/
def AlarmBy (x : Timestamp) (s : TimerQueue) : Prop :=
  ∃ alarm, s.timerfd = some alarm ∧ alarm.value ≠ ⟨0, 0⟩ ∧ (alarm.expires ≤ alarm.clock + 100 ∨ alarm.expires ≤ x)

theorem AlarmBy.mono {x y : Timestamp} (h : AlarmBy x s) (hle : x ≤ y) : AlarmBy y s := by
  obtain ⟨alarm, hset, hvalue, hx⟩ := h
  exact ⟨alarm, hset, hvalue, hx.imp_right fun hx => hx.trans hle⟩

theorem alarmBy_resetTimerfd {x expiration : Timestamp} (hle : expiration ≤ x) (clock : Timestamp) (s : TimerQueue) :
    AlarmBy x (s.resetTimerfd expiration clock) := by
  rw [resetTimerfd_eq]
  refine ⟨_, rfl, howMuchTimeFromNow_ne_zero expiration clock, ?_⟩
  exact (expires_resetTimerfd expiration clock).imp_right fun h => h.trans hle

/-- The timers that the timerfd has been set for: all of them, or, while `handleRead` is at work, those whose times
are not valid, because its end passes them over. -/
def Covered (calling : Bool) (s : TimerQueue) : Prop :=
  ∀ e ∈ s.timers, (calling = true → e.expiration ≤ 0) → AlarmBy e.expiration s

theorem Covered.congr {calling : Bool} (h : Covered calling s) (htimers : ∀ e ∈ s'.timers, e ∈ s.timers)
    (htimerfd : s'.timerfd = s.timerfd) : Covered calling s' := by
  intro e he hvalid
  rw [AlarmBy, htimerfd]
  exact h e (htimers e he) hvalid

theorem expiration_le_of_le {e e' : Entry} (h : e ≤ e') : e.expiration ≤ e'.expiration := by
  have hlex : toLex (e.expiration, e.timer) ≤ toLex (e'.expiration, e'.timer) := h
  rw [Prod.Lex.toLex_le_toLex] at hlex
  rcases hlex with hlt | ⟨heq, -⟩
  · exact le_of_lt hlt
  · exact le_of_eq heq

/-- A timer that is not earlier than all others has one of them before it. -/
theorem covered_schedule {calling : Bool} (h : Covered calling s) (p : Address) (t : Timer) (clock : Timestamp) :
    Covered calling (s.schedule p t clock) := by
  intro e he hvalid
  rw [schedule] at he ⊢
  split_ifs at he ⊢ with hearliest
  · rw [resetTimerfd_eq] at he
    refine alarmBy_resetTimerfd ?_ clock _
    simp only [enter, SortedSet.mem_insert] at he
    rcases he with rfl | he
    · exact le_refl _
    · rw [earliest] at hearliest
      cases hfirst : s.timers.first with
      | none => exact absurd he (SortedSet.not_mem_of_first_eq_none hfirst)
      | some first =>
          have hlt : t.expiration < first.expiration := by simpa [hfirst] using hearliest
          exact le_trans (le_of_lt hlt) (expiration_le_of_le (SortedSet.first_le hfirst he))
  · simp only [enter, SortedSet.mem_insert] at he
    rcases he with rfl | he
    · rw [earliest] at hearliest
      cases hfirst : s.timers.first with
      | none => simp [hfirst] at hearliest
      | some first =>
          have hle : first.expiration ≤ t.expiration := by simpa [hfirst] using hearliest
          have hcovered := h first (SortedSet.mem_of_first hfirst) fun hcalling => hle.trans (hvalid hcalling)
          exact hcovered.mono hle
    · exact h e he hvalid

/-- The end of `reset`: if the first time is not valid, the timerfd has been set in a callback. -/
theorem covered_setNextExpire {clock : Timestamp} (hcustody : Custody [] s) (h : Covered true s)
    (hset : s.setNextExpire clock = .ok s') : Covered false s' := by
  rcases setNextExpire_cases hcustody clock with ⟨hfirst, heq⟩ | ⟨first, hfirst, heq⟩
  · rw [heq] at hset
    cases hset
    exact fun e he => absurd he (SortedSet.not_mem_of_first_eq_none hfirst)
  · rw [heq] at hset
    cases hset
    intro e he _
    split_ifs at he ⊢ with hvalid
    · rw [resetTimerfd_eq] at he
      exact alarmBy_resetTimerfd (expiration_le_of_le (SortedSet.first_le hfirst he)) clock s
    · have hpast : first.expiration ≤ 0 := by simpa [Timestamp.valid] using hvalid
      have hcovered := h first (SortedSet.mem_of_first hfirst) fun _ => hpast
      exact hcovered.mono (expiration_le_of_le (SortedSet.first_le hfirst he))

/-- What `getExpired` leaves is after `now`. -/
theorem covered_expire {now : Timestamp} {ids : SortedSet TimerId} (hcustody : Custody [] s) (hnow : 0 < now) :
    Covered true (s.expire now ids) := by
  intro e he hpast
  obtain ⟨hmem, hle⟩ := SortedSet.mem_dropBelow.mp he
  obtain ⟨t, ht, -⟩ := hcustody.exists_of_mem_timers hmem
  have hnot : ¬e < sentry now := not_lt.mpr hle
  rw [lt_sentry_iff (hcustody.range _ t ht)] at hnot
  exact absurd (le_trans (hpast rfl) (le_of_lt hnow)) hnot

/-- The timers that `reset` puts back expire after `now`. -/
theorem covered_resetEach {now : Timestamp} {batch : List Entry} (hnow : 0 < now) (hcustody : Custody batch s)
    (h : Covered true s) (heach : s.resetEach now batch = .ok s') : Custody [] s' ∧ Covered true s' := by
  refine resetEach_inv (fun _ u => Covered true u) ?_ ?_ hcustody h heach
  · intro e rest u t _ _ hrepeat _ hcovered e' he' hpast
    simp only [enter, SortedSet.mem_insert] at he'
    rcases he' with rfl | he'
    · have hexp : (t.restart now).expiration = now + t.delta := by simp [Timer.restart, hrepeat]
      have hle : (t.restart now).expiration ≤ 0 := hpast rfl
      rw [hexp] at hle
      exact absurd (Int.add_pos_of_pos_of_nonneg hnow (Int.natCast_nonneg _)) (not_lt.mpr hle)
    · exact hcovered e' he' hpast
  · intro e rest u t _ _ _ hcovered
    exact hcovered.congr (fun _ h => h) rfl

structure Watched (s : TimerQueue) : Prop where
  sound : Sound s
  covered : Covered s.calling.isSome s
  now_pos : ∀ calling, s.calling = some calling → 0 < calling.now

theorem watched_step (h : Watched s) (hstep : s.step i = .ok s') : Watched s' := by
  obtain ⟨houtcome, hsound⟩ := sound_step h.sound hstep
  cases houtcome with
  | @added p x d r clock hfree =>
      have hcovered : Covered s.calling.isSome (s.construct p x d r) := h.covered.congr (fun _ h => h) rfl
      have hcalling := schedule_calling p ⟨x, d, r, s.numCreated + 1⟩ clock (s.construct p x d r)
      refine ⟨hsound, ?_, ?_⟩
      · rw [hcalling]
        exact covered_schedule hcovered _ _ _
      · rw [hcalling]
        exact h.now_pos
  | addQueued hfree => exact ⟨hsound, h.covered.congr (fun _ h => h) rfl, h.now_pos⟩
  | @arrived p t rest clock hcalling hpending ht =>
      have hcovered : Covered s.calling.isSome { s with pendingFunctors := rest } := h.covered.congr (fun _ h => h) rfl
      have hsame := schedule_calling p t clock { s with pendingFunctors := rest }
      refine ⟨hsound, ?_, ?_⟩
      · rw [hsame]
        exact covered_schedule hcovered _ _ _
      · rw [hsame]
        exact h.now_pos
  | cancelQueued => exact ⟨hsound, h.covered.congr (fun _ h => h) rfl, h.now_pos⟩
  | forgotten hid ht hseq =>
      exact ⟨hsound, h.covered.congr (fun _ he => (SortedSet.mem_erase.mp he).2) rfl, h.now_pos⟩
  | noted hid hcalling => exact ⟨hsound, h.covered.congr (fun _ h => h) rfl, h.now_pos⟩
  | ignored hid hcalling => exact h
  | forgottenLater hcalling hpending hid ht hseq =>
      exact ⟨hsound, h.covered.congr (fun _ he => (SortedSet.mem_erase.mp he).2) rfl, h.now_pos⟩
  | ignoredLater hcalling hpending hid => exact ⟨hsound, h.covered.congr (fun _ h => h) rfl, h.now_pos⟩
  | created => exact ⟨hsound, h.covered.congr (fun _ h => h) rfl, h.now_pos⟩
  | returned hadding ht hseq => exact ⟨hsound, h.covered.congr (fun _ h => h) rfl, h.now_pos⟩
  | @firstCalled now _ _ _ _ ids hcalling hnow hexpired hcustody ht =>
      have hempty : Custody [] s := taken_of_none hcalling ▸ h.sound.custody
      have hcovered : Covered true (s.expire now ids) := covered_expire hempty hnow
      refine ⟨hsound, hcovered.congr (fun _ h => h) rfl, ?_⟩
      rintro calling ⟨⟩
      exact hnow
  | noneCalled hcalling hnow hexpired hcustody hset =>
      have hempty : Custody [] s := taken_of_none hcalling ▸ h.sound.custody
      have hcovered := covered_setNextExpire hcustody (covered_expire hempty hnow) hset
      obtain ⟨alarm, rfl⟩ := setNextExpire_eq hcustody hset
      refine ⟨hsound, ?_, h.now_pos⟩
      change Covered s.calling.isSome _
      rw [hcalling]
      exact hcovered
  | nextCalled hcalling ht =>
      have hcovered := h.covered
      have hnow := h.now_pos _ hcalling
      rw [hcalling] at hcovered
      refine ⟨hsound, hcovered.congr (fun _ h => h) rfl, ?_⟩
      rintro calling ⟨⟩
      exact hnow
  | @ended clock now expired s₁ s' hcalling heach hset =>
      have hcovered : Covered true { s with calling := none } := by
        have h' := h.covered
        rw [hcalling] at h'
        exact h'.congr (fun _ h => h) rfl
      have hnone : s₁.calling = none := (resetEach_inv (fun _ u => u.calling = none)
        (fun _ _ _ _ _ _ _ _ hinv => hinv) (fun _ _ _ _ _ _ _ hinv => hinv) (h.sound.custody_none hcalling) rfl
        heach).2
      obtain ⟨hcustody, hcovered'⟩ :=
        covered_resetEach (h.now_pos _ hcalling) (h.sound.custody_none hcalling) hcovered heach
      have hend := covered_setNextExpire hcustody hcovered' hset
      obtain ⟨alarm, rfl⟩ := setNextExpire_eq hcustody hset
      refine ⟨hsound, ?_, ?_⟩
      · change Covered s₁.calling.isSome _
        rw [hnone]
        exact hend
      · intro calling hsome
        rw [show s₁.calling = some calling from hsome] at hnone
        cases hnone

/-- **No timer is forgotten.** In every run, whenever no `handleRead` is at work, the timerfd has been set, not to
nothing, and not been switched off or read since, and it expires not later than any timer in the queue or 100
microseconds after it was set; also for timers whose time lies before the epoch, and whatever has been cancelled. -/
theorem no_timer_forgotten (inputs : List Input) (s : TimerQueue) (hrun : Run inputs s) (hcalling : s.calling = none) :
    ∀ e ∈ s.timers, ∃ alarm, s.timerfd = some alarm ∧ alarm.value ≠ ⟨0, 0⟩ ∧
      (alarm.expires ≤ alarm.clock + 100 ∨ alarm.expires ≤ e.expiration) := by
  have hwatched : Watched s := by
    refine run_invariant (fun _ _ _ => watched_step) ⟨sound_new, ?_, nofun⟩ hrun
    exact fun e he => absurd he SortedSet.not_mem_empty
  intro e he
  refine hwatched.covered e he ?_
  rw [hcalling]
  exact nofun

/-- A callback arms a timer for a time before the epoch; the end of `handleRead` passes it over. -/
theorem no_timer_forgotten_beforeEpoch :
    ∃ s, Run [.addTimer true 64 100 0 false 10, .handleRead 150 150, .addTimer true 128 (-5) 0 false 150,
        .callbackReturns 160] s ∧
      ∃ alarm, s.timerfd = some alarm ∧ alarm.value ≠ ⟨0, 0⟩ ∧
        (alarm.expires ≤ alarm.clock + 100 ∨ alarm.expires ≤ -5) := by
  obtain ⟨s, hrun, hcalling, hmem⟩ : ∃ s, Run [.addTimer true 64 100 0 false 10, .handleRead 150 150,
      .addTimer true 128 (-5) 0 false 150, .callbackReturns 160] s ∧ s.calling = none ∧
      (⟨-5, 128⟩ : Entry) ∈ s.timers := ⟨_, rfl, rfl, by decide⟩
  exact ⟨s, hrun, no_timer_forgotten _ s hrun hcalling _ hmem⟩

end TimerQueue
end Realtinet
