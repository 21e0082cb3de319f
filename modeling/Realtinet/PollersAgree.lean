import Realtinet.EPollPoller
import Realtinet.PollPoller

/-! The two pollers side by side, given the same calls. On `proper` calls they watch the same descriptors for the same
events, report the same channels and stop at the same asserts. The connections of this repository also make calls that
are not proper: one that is closed twice takes away interest that is gone already, and one whose channel is changed
after its removal stops `PollPoller` at an assert. -/

namespace Realtinet

open TransitionSystem

namespace Poller

variable {s : EPollPoller.Loop} {t : PollPoller.Loop} {p : Pointer}

/-- The calls on which the pollers agree. A channel is not changed any more once it has been removed: `PollPoller`
leaves its index behind. Interest is taken away only from a channel that has some: `EPollPoller` adds one that has none
to the interest list again, where errors and hang-ups are reported of it. And `epoll_wait` reports what `poll`
reports: every ready descriptor, in the order of `pollfds_`. It may choose another order, and leaves out those that
`events_` has no room for. -/
def proper (t : PollPoller.Loop) : Input → Bool
  | .change p what =>
      match t.memory p with
      | none => true
      | some d =>
          (d.index < 0 || t.channels d.fd == some p) &&
            (!(what.apply d.events).isNone ||
              match PollPoller.pollfdAt d.index t with
              | some pfd => pfd.fd == d.fd
              | none => false)
  | .poll ready order =>
      order == (t.poller.filter fun pfd => (pfd.revents ready).any).map PollPoller.Pollfd.descriptor
  | _ => true

structure Agree (s : EPollPoller.Loop) (t : PollPoller.Loop) : Prop where
  exact_list : EPollPoller.Exact s
  placed : PollPoller.Placed t
  bare : ∀ p, (s.memory p).map Channel.bare = (t.memory p).map Channel.bare
  channels : s.channels = t.channels
  activeChannels : s.activeChannels = t.activeChannels
  handling : s.handling = t.handling
  added : ∀ p c d pfd, s.memory p = some c → t.memory p = some d → t.channels d.fd = some p →
    PollPoller.pollfdAt d.index t = some pfd → (c.index = .kAdded ↔ pfd.fd = d.fd)
  interested : ∀ p c, s.memory p = some c → c.index = .kAdded → c.events.isNone = false

theorem bare_eq_iff {ι κ : Type} {c : Channel ι} {d : Channel κ} :
    c.bare = d.bare ↔ c.fd = d.fd ∧ c.events = d.events ∧ c.revents = d.revents ∧ c.addedToLoop = d.addedToLoop := by
  simp [Channel.bare]

theorem Agree.lookup (h : Agree s t) (p : Pointer) :
    (s.memory p = none ∧ t.memory p = none) ∨
      ∃ c d, s.memory p = some c ∧ t.memory p = some d ∧ c.fd = d.fd ∧ c.events = d.events ∧ c.revents = d.revents ∧
        c.addedToLoop = d.addedToLoop := by
  have hbare := h.bare p
  cases hs : s.memory p with
  | none =>
      rw [hs] at hbare
      cases ht : t.memory p with
      | none => exact .inl ⟨rfl, rfl⟩
      | some d =>
          rw [ht] at hbare
          cases hbare
  | some c =>
      rw [hs] at hbare
      cases ht : t.memory p with
      | none =>
          rw [ht] at hbare
          cases hbare
      | some d =>
          rw [ht] at hbare
          exact .inr ⟨c, d, rfl, rfl, bare_eq_iff.mp (Option.some.inj hbare)⟩

/-- The kernel watches the same descriptors for the same channels and events. -/
theorem Agree.interest_iff (h : Agree s t) (fd : Nat) (p : Pointer) (events : Events) :
    s.poller.interest fd = some (p, events) ↔
      (⟨fd, events⟩ : PollPoller.Pollfd) ∈ t.poller ∧ t.channels fd = some p := by
  rw [h.exact_list.interest]
  constructor
  · rintro ⟨c, hc, rfl, hindex, rfl⟩
    rcases h.lookup p with ⟨hnone, -⟩ | ⟨c', d, hc', hd, hfd, hevents, -, -⟩
    · rw [hc] at hnone
      cases hnone
    · rw [hc] at hc'
      cases hc'
      have hreg : t.channels d.fd = some p := by
        rw [← h.channels, ← hfd]
        exact (h.exact_list.registered p c hc).mpr (by rw [hindex]; decide)
      obtain ⟨pfd, hat, hget, hentry⟩ := h.placed.pollfdAt hd hreg
      have hpfd := (h.added p c d pfd hc hd hreg hat).mp hindex
      refine ⟨?_, hfd ▸ hreg⟩
      rw [hfd, hevents, ← hpfd, ← hentry.events]
      exact List.mem_of_getElem? hget
  · rintro ⟨hmem, hreg⟩
    obtain ⟨n, hn⟩ := List.getElem?_of_mem hmem
    obtain ⟨q, d, hd, hregd, hindex⟩ := h.placed.owner n _ hn
    obtain ⟨pfd, hat, hget, hentry⟩ := h.placed.pollfdAt hd hregd
    rw [hindex, Int.toNat_natCast, hn] at hget
    cases hget
    have hdfd : fd = d.fd := by
      have := hentry.descriptor
      rwa [PollPoller.descriptor_of_nonneg (by simp), Int.toNat_natCast] at this
    rw [← hdfd, hreg] at hregd
    cases hregd
    rcases h.lookup p with ⟨-, hnone⟩ | ⟨c, d', hc, hd', hfd, hevents, -, -⟩
    · rw [hd] at hnone
      cases hnone
    · rw [hd] at hd'
      cases hd'
      refine ⟨c, hc, hfd.trans hdfd.symm, ?_, hevents.trans hentry.events.symm⟩
      exact (h.added p c d _ hc hd (hdfd ▸ hreg) hat).mpr (by rw [hdfd])

/-! ### One step of both -/

section Step

variable {s' : EPollPoller.Loop} {t' : PollPoller.Loop} {i : Input}

theorem agree_of_steps (h : Agree s t) (hs : step EPollPoller.virtual s i = .ok s')
    (ht : step PollPoller.virtual t i = .ok t')
    (hbare : ∀ p, (s'.memory p).map Channel.bare = (t'.memory p).map Channel.bare)
    (hchannels : s'.channels = t'.channels) (hactive : s'.activeChannels = t'.activeChannels)
    (hhandling : s'.handling = t'.handling)
    (hadded : ∀ p c d pfd, s'.memory p = some c → t'.memory p = some d → t'.channels d.fd = some p →
      PollPoller.pollfdAt d.index t' = some pfd → (c.index = .kAdded ↔ pfd.fd = d.fd))
    (hinterested : ∀ p c, s'.memory p = some c → c.index = .kAdded → c.events.isNone = false) :
    Matches Agree (step EPollPoller.virtual s i) (step PollPoller.virtual t i) := by
  rw [hs, ht]
  exact .ok ⟨EPollPoller.exact_step h.exact_list hs, PollPoller.placed_step h.placed ht, hbare, hchannels, hactive,
    hhandling, hadded, hinterested⟩

theorem agree_construct (h : Agree s t) (p : Pointer) (fd : Nat) :
    Matches Agree (step EPollPoller.virtual s (.construct p fd)) (step PollPoller.virtual t (.construct p fd)) := by
  rcases h.lookup p with ⟨hs, ht⟩ | ⟨c, d, hs, ht, -⟩
  · have hstep : step EPollPoller.virtual s (.construct p fd) =
        .ok (s.store p (some ⟨fd, ⟨false, false⟩, .none, .kNew, false⟩)) := by
      simp only [step, hs]
      rfl
    have hstep' : step PollPoller.virtual t (.construct p fd) =
        .ok (t.store p (some ⟨fd, ⟨false, false⟩, .none, -1, false⟩)) := by
      simp only [step, ht]
      rfl
    refine agree_of_steps h hstep hstep' ?_ h.channels h.activeChannels h.handling ?_ ?_
    · intro q
      by_cases hqp : q = p
      · simp [Loop.store, hqp, Channel.bare]
      · simpa [Loop.store, Function.update_of_ne hqp] using h.bare q
    · intro q c d pfd hc hd hreg hat
      have hqp : q ≠ p := by
        rintro rfl
        obtain ⟨d', hd', -⟩ := h.placed.known _ _ hreg
        rw [ht] at hd'
        cases hd'
      simp only [Loop.store, Function.update_of_ne hqp] at hc hd
      exact h.added q c d pfd hc hd hreg hat
    · intro q c hc hindex
      by_cases hqp : q = p
      · subst hqp
        simp only [Loop.store, Function.update_self, Option.some.injEq] at hc
        subst hc
        cases hindex
      · simp only [Loop.store, Function.update_of_ne hqp] at hc
        exact h.interested q c hc hindex
  · simp only [step, hs, ht]
    exact .error _

theorem agree_destruct (h : Agree s t) (p : Pointer) :
    Matches Agree (step EPollPoller.virtual s (.destruct p)) (step PollPoller.virtual t (.destruct p)) := by
  rcases h.lookup p with ⟨hs, ht⟩ | ⟨c, d, hs, ht, hfd, -, -, haddedToLoop⟩
  · simp only [step, hs, ht]
    exact .error _
  · have hhandles : s.handles p = t.handles p := by simp only [Loop.handles, h.handling]
    have hhas : s.hasChannel p c = t.hasChannel p d := by simp only [Loop.hasChannel, h.channels, hfd]
    by_cases hbad : t.handles p = true
    · simp only [step, hs, ht, hhandles, hbad, if_true]
      exact .error _
    by_cases hadded : d.addedToLoop = true
    · simp only [step, hs, ht, hhandles, hbad, haddedToLoop, hadded, if_true]
      exact .error _
    by_cases hreg : t.hasChannel p d = true
    · simp only [step, hs, ht, hhandles, hbad, haddedToLoop, hadded, hhas, hreg, if_true]
      exact .error _
    have hstep : step EPollPoller.virtual s (.destruct p) = .ok (s.store p none) := by
      simp [step, hs, hhandles, hbad, haddedToLoop, hadded, hhas, hreg]
    have hstep' : step PollPoller.virtual t (.destruct p) = .ok (t.store p none) := by
      simp [step, ht, hbad, hadded, hreg]
    refine agree_of_steps h hstep hstep' ?_ h.channels h.activeChannels h.handling ?_ ?_
    · intro q
      by_cases hqp : q = p
      · simp [Loop.store, hqp]
      · simpa [Loop.store, Function.update_of_ne hqp] using h.bare q
    · intro q c d pfd hc hd hregq hat
      by_cases hqp : q = p
      · simp [Loop.store, hqp] at hc
      · simp only [Loop.store, Function.update_of_ne hqp] at hc hd
        exact h.added q c d pfd hc hd hregq hat
    · intro q c hc hindex
      by_cases hqp : q = p
      · simp [Loop.store, hqp] at hc
      · simp only [Loop.store, Function.update_of_ne hqp] at hc
        exact h.interested q c hc hindex

/-- A channel that both pollers see for the first time. -/
theorem agree_change_new (h : Agree s t) {c : EPollPoller.Channel} {d : PollPoller.Channel} {what : Change}
    (hs : s.memory p = some c) (ht : t.memory p = some d) (hfd : c.fd = d.fd) (hevents : c.events = d.events)
    (hrevents : c.revents = d.revents) (hneg : d.index < 0) (hsome : (what.apply d.events).isNone = false) :
    Matches Agree (step EPollPoller.virtual s (.change p what)) (step PollPoller.virtual t (.change p what)) := by
  have hunreg : t.channels d.fd ≠ some p := fun hreg => absurd (h.placed.index_nonneg ht hreg) (by omega)
  have hnew : c.index = .kNew := by
    by_contra hne
    have hreg := (h.exact_list.registered p c hs).mpr hne
    rw [h.channels, hfd] at hreg
    exact hunreg hreg
  have hstep : step EPollPoller.virtual s (.change p what) = _ :=
    (step_change hs).trans (EPollPoller.updateChannel_eq h.exact_list hs (what.apply c.events) rfl)
  have hstep' : step PollPoller.virtual t (.change p what) = _ :=
    (step_change ht).trans (PollPoller.updateChannel_eq h.placed ht (what.apply d.events) rfl)
  rw [if_pos hneg] at hstep'
  by_cases hfree : t.channels d.fd = none
  · have hfree' : s.channels c.fd = none := by rw [h.channels, hfd, hfree]
    rw [if_neg (fun hbad => hbad.2 hfree')] at hstep
    rw [if_pos hfree] at hstep'
    refine agree_of_steps h hstep hstep' ?_ ?_ h.activeChannels h.handling ?_ ?_
    · intro q
      by_cases hqp : q = p
      · simp [EPollPoller.settle, PollPoller.append, hqp, Channel.bare, hfd, hevents, hrevents]
      · simpa [EPollPoller.settle, PollPoller.append, Function.update_of_ne hqp] using h.bare q
    · simp [EPollPoller.settle, PollPoller.append, h.channels, hfd, hnew, EPollPoller.nextIndex]
    · intro q c₁ d₁ pfd hc hd hreg hat
      by_cases hqp : q = p
      · subst hqp
        simp only [EPollPoller.settle, PollPoller.append, Function.update_self, Option.some.injEq] at hc hd hat
        subst hc hd
        simp [PollPoller.pollfdAt] at hat
        simp [← hat, hnew, EPollPoller.nextIndex]
      · simp only [EPollPoller.settle, PollPoller.append, Function.update_of_ne hqp] at hc hd hreg
        by_cases heq : d₁.fd = d.fd
        · rw [heq, Function.update_self] at hreg
          exact absurd (Option.some.inj hreg).symm hqp
        · rw [Function.update_of_ne heq] at hreg
          obtain ⟨pfd', hat', hget, -⟩ := h.placed.pollfdAt hd hreg
          have hlt := (List.getElem?_eq_some_iff.mp hget).1
          have hnonneg := h.placed.index_nonneg hd hreg
          simp only [PollPoller.pollfdAt, PollPoller.append, hnonneg, if_true, List.getElem?_append_left hlt] at hat
          refine h.added q c₁ d₁ pfd hc hd hreg ?_
          simpa only [PollPoller.pollfdAt, hnonneg, if_true] using hat
    · intro q c₁ hc hindex
      by_cases hqp : q = p
      · subst hqp
        simp only [EPollPoller.settle, Function.update_self, Option.some.injEq] at hc
        subst hc
        rw [hevents]
        exact hsome
      · simp only [EPollPoller.settle, Function.update_of_ne hqp] at hc
        exact h.interested q c₁ hc hindex
  · have hfree' : s.channels c.fd ≠ none := by rwa [h.channels, hfd]
    rw [if_pos ⟨hnew, hfree'⟩] at hstep
    rw [if_neg hfree] at hstep'
    rw [hstep, hstep']
    exact .error _

/-- A channel that is registered; `hkeep` says that interest is taken away only where there is some. -/
theorem agree_change_registered (h : Agree s t) {c : EPollPoller.Channel} {d : PollPoller.Channel} {what : Change}
    {old : PollPoller.Pollfd} (hs : s.memory p = some c) (ht : t.memory p = some d) (hfd : c.fd = d.fd)
    (hevents : c.events = d.events) (hrevents : c.revents = d.revents) (hreg : t.channels d.fd = some p)
    (hold : PollPoller.pollfdAt d.index t = some old)
    (hkeep : (what.apply d.events).isNone = true → old.fd = d.fd) :
    Matches Agree (step EPollPoller.virtual s (.change p what)) (step PollPoller.virtual t (.change p what)) := by
  have hnonneg := h.placed.index_nonneg ht hreg
  have hreg' : s.channels c.fd = some p := by rw [h.channels, hfd, hreg]
  have hindex := (h.exact_list.registered p c hs).mp hreg'
  have hadded := h.added p c d old hs ht hreg hold
  have hstep : step EPollPoller.virtual s (.change p what) = _ :=
    (step_change hs).trans (EPollPoller.updateChannel_eq h.exact_list hs (what.apply c.events) rfl)
  have hstep' : step PollPoller.virtual t (.change p what) = _ :=
    (step_change ht).trans (PollPoller.updateChannel_eq h.placed ht (what.apply d.events) rfl)
  rw [if_neg (fun hbad => hindex hbad.1), hevents] at hstep
  rw [if_neg (by omega), if_pos hreg] at hstep'
  -- The channel is watched afterwards exactly if it has interest.
  have hnext : EPollPoller.nextIndex c.index (what.apply d.events) = .kAdded ↔
      (what.apply d.events).isNone = false := by
    cases hc : c.index with
    | kNew => exact absurd hc hindex
    | kAdded =>
        simp only [EPollPoller.nextIndex]
        split_ifs with hnone <;> simp [hnone]
    | kDeleted =>
        refine iff_of_true rfl ?_
        by_contra hnone
        have := hadded.mpr (hkeep (by simpa using hnone))
        rw [hc] at this
        cases this
  refine agree_of_steps h hstep hstep' ?_ ?_ h.activeChannels h.handling ?_ ?_
  · intro q
    by_cases hqp : q = p
    · simp [EPollPoller.settle, PollPoller.overwrite, hqp, Channel.bare, hfd, hrevents]
    · simpa [EPollPoller.settle, PollPoller.overwrite, Function.update_of_ne hqp] using h.bare q
  · simp only [EPollPoller.settle, PollPoller.overwrite, EPollPoller.nextIndex_ne_kNew, if_false]
    rw [← hreg', Function.update_eq_self]
    exact h.channels
  · intro q c₁ d₁ pfd hc hd hregq hat
    obtain ⟨n, _, hn, hn', -⟩ := h.placed.slot p d ht hreg
    have hlt : n < t.poller.length := (List.getElem?_eq_some_iff.mp hn').1
    by_cases hqp : q = p
    · subst hqp
      simp only [EPollPoller.settle, PollPoller.overwrite, Function.update_self, Option.some.injEq] at hc hd
      subst hc hd
      simp only [hnext]
      simp only [PollPoller.pollfdAt, PollPoller.overwrite, hn, Int.natCast_nonneg, if_true, Int.toNat_natCast,
        List.getElem?_set_self hlt, Option.some.injEq] at hat
      rw [← hat]
      by_cases hnone : (what.apply d.events).isNone = true
      · simp only [hnone, if_true, PollPoller.ignored]
        refine iff_of_false (by simp) ?_
        omega
      · simp [hnone]
    · simp only [EPollPoller.settle, PollPoller.overwrite, Function.update_of_ne hqp] at hc hd hregq
      obtain ⟨m, _, hm, -, -⟩ := h.placed.slot q d₁ hd hregq
      have hnm : n ≠ m := by
        rintro rfl
        exact hqp (h.placed.index_injective hd hregq ht hreg (hm.trans hn.symm))
      refine h.added q c₁ d₁ pfd hc hd hregq ?_
      simpa [PollPoller.pollfdAt, PollPoller.overwrite, hm, hn, hnm] using hat
  · intro q c₁ hc hindex'
    by_cases hqp : q = p
    · subst hqp
      simp only [EPollPoller.settle, Function.update_self, Option.some.injEq] at hc
      subst hc
      exact hnext.mp hindex'
    · simp only [EPollPoller.settle, Function.update_of_ne hqp] at hc
      exact h.interested q c₁ hc hindex'

theorem agree_change (h : Agree s t) {what : Change} (hproper : proper t (.change p what) = true) :
    Matches Agree (step EPollPoller.virtual s (.change p what)) (step PollPoller.virtual t (.change p what)) := by
  rcases h.lookup p with ⟨hs, ht⟩ | ⟨c, d, hs, ht, hfd, hevents, hrevents, -⟩
  · simp only [step, hs, ht]
    exact .error _
  · simp only [proper, ht, Bool.and_eq_true, Bool.or_eq_true, decide_eq_true_eq, beq_iff_eq,
      Bool.not_eq_true'] at hproper
    obtain ⟨hfirst, hsecond⟩ := hproper
    by_cases hneg : d.index < 0
    · refine agree_change_new h hs ht hfd hevents hrevents hneg ?_
      rcases hsecond with hsome | hbad
      · exact hsome
      · rw [PollPoller.pollfdAt, if_neg (by omega)] at hbad
        cases hbad
    · have hreg : t.channels d.fd = some p := hfirst.resolve_left hneg
      obtain ⟨old, hold, -, -⟩ := h.placed.pollfdAt ht hreg
      refine agree_change_registered h hs ht hfd hevents hrevents hreg hold ?_
      intro hnone
      rw [hold] at hsecond
      rcases hsecond with hsome | hwatched
      · rw [hnone] at hsome
        cases hsome
      · simpa using hwatched

theorem agree_remove (h : Agree s t) (p : Pointer) :
    Matches Agree (step EPollPoller.virtual s (.remove p)) (step PollPoller.virtual t (.remove p)) := by
  rcases h.lookup p with ⟨hs, ht⟩ | ⟨c, d, hs, ht, hfd, hevents, hrevents, -⟩
  · simp only [step, hs, ht]
    exact .error _
  · have hactive : s.activeElsewhere p = t.activeElsewhere p := by
      simp only [Loop.activeElsewhere, h.handling, h.activeChannels]
    by_cases hnone : d.events.isNone = true
    · by_cases hbad : t.activeElsewhere p = true
      · simp only [step, hs, ht, hevents, hnone, hactive, hbad, if_true]
        exact .error _
      · have hstep : step EPollPoller.virtual s (.remove p) = _ :=
          (step_remove hs (hevents ▸ hnone) (by simpa [hactive] using hbad)).trans
            (EPollPoller.removeChannel_eq h.exact_list hs rfl)
        have hstep' : step PollPoller.virtual t (.remove p) = _ := step_remove ht hnone (by simpa using hbad)
        rcases PollPoller.removeChannel_cases h.placed ht rfl with
          ⟨hunreg, hfail⟩ | ⟨hreg, pfd, hat, ⟨hwatched, -⟩ | ⟨-, t', hok, hdropped⟩⟩
        · have hunreg' : s.channels c.fd ≠ some p := by rwa [h.channels, hfd]
          rw [if_neg hunreg'] at hstep
          rw [hstep, hstep'.trans hfail]
          exact .error _
        · -- The entry is not ignored: the channel is watched, but it has no interest.
          exfalso
          obtain ⟨pfd', hat', -, hentry⟩ := h.placed.pollfdAt ht hreg
          rw [hat] at hat'
          cases hat'
          have hpos := ((PollPoller.descriptor_eq_iff pfd d.fd).mp hentry.descriptor).resolve_right hwatched
          have hinterested := h.interested p c hs ((h.added p c d pfd hs ht hreg hat).mpr hpos)
          rw [hevents, hnone] at hinterested
          cases hinterested
        · have hreg' : s.channels c.fd = some p := by rw [h.channels, hfd, hreg]
          rw [if_pos hreg'] at hstep
          refine agree_of_steps h hstep (hstep'.trans hok) ?_ ?_ ?_ ?_ ?_ ?_
          · intro q
            by_cases hqp : q = p
            · simp [EPollPoller.settle, hqp, hdropped.self, Channel.bare, hfd, hevents, hrevents]
            · rw [EPollPoller.settle]
              simp only [Function.update_of_ne hqp, h.bare q]
              rcases hdropped.others q hqp with hsame | ⟨d', index, hd', -, hmoved⟩
              · rw [hsame]
              · rw [hd', hmoved]
                rfl
          · rw [hdropped.channels]
            simp [EPollPoller.settle, h.channels, hfd]
          · exact h.activeChannels.trans hdropped.activeChannels.symm
          · exact h.handling.trans hdropped.handling.symm
          · intro q c₁ d₁ pfd' hc hd hregq hat'
            have hqp : q ≠ p := by
              rintro rfl
              rw [hdropped.self] at hd
              cases hd
              rw [hdropped.channels] at hregq
              simp at hregq
            simp only [EPollPoller.settle, Function.update_of_ne hqp] at hc
            -- The channel is one of those that keep their entries.
            have hne : d₁.fd ≠ d.fd := by
              intro heq
              rw [hdropped.channels, heq, Function.update_self] at hregq
              cases hregq
            rw [hdropped.channels, Function.update_of_ne hne] at hregq
            obtain ⟨d₂, hd₂, hfd₂⟩ := h.placed.known _ _ hregq
            have hregq₂ : t.channels d₂.fd = some q := hfd₂ ▸ hregq
            rw [hdropped.entries q d₂ d₁ hqp hd₂ hregq₂ hd] at hat'
            rw [← hfd₂]
            exact h.added q c₁ d₂ pfd' hc hd₂ hregq₂ hat'
          · intro q c₁ hc hindex
            by_cases hqp : q = p
            · subst hqp
              simp only [EPollPoller.settle, Function.update_self, Option.some.injEq] at hc
              subst hc
              cases hindex
            · simp only [EPollPoller.settle, Function.update_of_ne hqp] at hc
              exact h.interested q c₁ hc hindex
    · simp only [step, hs, ht, hevents, hnone]
      exact .error _

theorem report_eq (h : Agree s t) {ready : Nat → Revents} {pfd : PollPoller.Pollfd} (hpfd : pfd ∈ t.poller)
    (hany : (pfd.revents ready).any = true) :
    EPollPoller.reportable ready s pfd.descriptor = true ∧
      EPollPoller.report ready s pfd.descriptor = PollPoller.report ready t pfd := by
  have hnonneg := PollPoller.nonneg_of_any hany
  obtain ⟨p, -, hp, -, -⟩ := h.placed.owner_of_mem hpfd
  have hself : (⟨(pfd.descriptor : Int), pfd.events⟩ : PollPoller.Pollfd) = pfd := by
    rw [PollPoller.descriptor_of_nonneg hnonneg, Int.toNat_of_nonneg hnonneg]
  have hinterest := (h.interest_iff pfd.descriptor p pfd.events).mpr ⟨hself ▸ hpfd, hp⟩
  have hrevents : pfd.revents ready = (ready pfd.descriptor).mask pfd.events := by
    rw [PollPoller.Pollfd.revents, if_neg (by omega), PollPoller.descriptor_of_nonneg hnonneg]
  constructor
  · simp only [EPollPoller.reportable, hinterest]
    rw [← hrevents]
    exact hany
  · rw [hrevents] at hany
    simp [EPollPoller.report, PollPoller.report, hinterest, hany, hp, hrevents]

theorem reports_eq (h : Agree s t) (ready : Nat → Revents) {l : List PollPoller.Pollfd}
    (hl : ∀ pfd ∈ l, pfd ∈ t.poller) :
    ((l.filter fun pfd => (pfd.revents ready).any).map PollPoller.Pollfd.descriptor).filterMap
      (EPollPoller.report ready s) = l.filterMap (PollPoller.report ready t) := by
  induction l with
  | nil => rfl
  | cons pfd rest ih =>
      have hrest := ih (fun x hx => hl x (List.mem_cons_of_mem _ hx))
      by_cases hany : (pfd.revents ready).any = true
      · rw [List.filter_cons, if_pos hany, List.map_cons, List.filterMap_cons, List.filterMap_cons, hrest,
          (report_eq h (hl pfd List.mem_cons_self) hany).2]
      · rw [List.filter_cons, if_neg hany, hrest, List.filterMap_cons_none (by simp [PollPoller.report, hany])]

theorem agree_setRevents (h : Agree s t) (active : List (Pointer × Revents)) (p : Pointer) :
    ((s.setRevents active).memory p).map Channel.bare = ((t.setRevents active).memory p).map Channel.bare := by
  rw [setRevents_memory, setRevents_memory]
  rcases h.lookup p with ⟨hs, ht⟩ | ⟨c, d, hs, ht, hfd, hevents, hrevents, hadded⟩
  · rw [hs, ht]
    rfl
  · simp [hs, ht, Channel.bare, hfd, hevents, hrevents, hadded]

theorem agree_poll (h : Agree s t) {ready : Nat → Revents} {order : List Nat}
    (hproper : proper t (.poll ready order) = true) :
    Matches Agree (step EPollPoller.virtual s (.poll ready order)) (step PollPoller.virtual t (.poll ready order)) := by
  simp only [proper, beq_iff_eq] at hproper
  have hpoll' : PollPoller.virtual.poll ready order t = .ok (t.poller.filterMap (PollPoller.report ready t)) :=
    PollPoller.poll_eq h.placed ready order
  have hpoll : EPollPoller.virtual.poll ready order s = .ok (t.poller.filterMap (PollPoller.report ready t)) := by
    have hnodup : order.Nodup := by
      rw [hproper]
      exact (List.filter_sublist.map _).nodup h.placed.descriptors_nodup
    have hall : order.all (EPollPoller.reportable ready s) = true := by
      rw [hproper, List.all_eq_true]
      intro fd hfd
      obtain ⟨pfd, hpfd, rfl⟩ := List.mem_map.mp hfd
      obtain ⟨hmem, hany⟩ := List.mem_filter.mp hpfd
      exact (report_eq h hmem hany).1
    change EPollPoller.poll ready order s = _
    rw [EPollPoller.poll, if_pos ⟨hnodup, hall⟩, EPollPoller.fillActiveChannels_eq h.exact_list hall, hproper,
      reports_eq h ready (fun _ hpfd => hpfd)]
  cases hhandling : t.handling with
  | some current =>
      simp only [step, h.handling, hhandling]
      exact .error _
  | none =>
      have hidle : s.handling = none := h.handling.trans hhandling
      cases hactive : t.poller.filterMap (PollPoller.report ready t) with
      | nil =>
          rw [hactive] at hpoll hpoll'
          have hstep : step EPollPoller.virtual s (.poll ready order) = .ok { s with activeChannels := [] } := by
            simp only [step, hidle, hpoll]
          have hstep' : step PollPoller.virtual t (.poll ready order) = .ok { t with activeChannels := [] } := by
            simp only [step, hhandling, hpoll']
          exact agree_of_steps h hstep hstep' h.bare h.channels rfl h.handling h.added h.interested
      | cons first rest =>
          obtain ⟨p, revents⟩ := first
          rw [hactive] at hpoll hpoll'
          obtain ⟨hchannels, -, -⟩ := setRevents_frame ((p, revents) :: rest) s
          obtain ⟨hchannels', hpoller', -⟩ := setRevents_frame ((p, revents) :: rest) t
          have hstep : step EPollPoller.virtual s (.poll ready order) =
              .ok { s.setRevents ((p, revents) :: rest) with
                activeChannels := p :: rest.map Prod.fst
                handling := some (p, rest.map Prod.fst) } := by
            simp only [step, hidle, hpoll]
          have hstep' : step PollPoller.virtual t (.poll ready order) =
              .ok { t.setRevents ((p, revents) :: rest) with
                activeChannels := p :: rest.map Prod.fst
                handling := some (p, rest.map Prod.fst) } := by
            simp only [step, hhandling, hpoll']
          refine agree_of_steps h hstep hstep' (agree_setRevents h _) ?_ rfl rfl ?_ ?_
          · simp only [hchannels, hchannels', h.channels]
          · intro q c d pfd hc hd hreg hat
            simp only [setRevents_memory, Option.map_eq_some_iff] at hc hd
            obtain ⟨c', hc', rfl⟩ := hc
            obtain ⟨d', hd', rfl⟩ := hd
            simp only [hchannels'] at hreg
            refine h.added q c' d' pfd hc' hd' hreg ?_
            simpa only [PollPoller.pollfdAt, hpoller'] using hat
          · intro q c hc hindex
            simp only [setRevents_memory, Option.map_eq_some_iff] at hc
            obtain ⟨c', hc', rfl⟩ := hc
            exact h.interested q c' hc' hindex

theorem agree_next (h : Agree s t) :
    Matches Agree (step EPollPoller.virtual s .next) (step PollPoller.virtual t .next) := by
  cases hhandling : t.handling with
  | none =>
      simp only [step, h.handling, hhandling]
      exact .error _
  | some now =>
      obtain ⟨current, rest⟩ := now
      have hhandling' := h.handling.trans hhandling
      cases rest with
      | nil =>
          have hstep : step EPollPoller.virtual s .next = .ok { s with handling := none } := by
            simp only [step, hhandling']
          have hstep' : step PollPoller.virtual t .next = .ok { t with handling := none } := by
            simp only [step, hhandling]
          exact agree_of_steps h hstep hstep' h.bare h.channels h.activeChannels rfl h.added h.interested
      | cons q rest =>
          rcases h.lookup q with ⟨hs, ht⟩ | ⟨c, d, hs, ht, -⟩
          · simp only [step, hhandling, hhandling', hs, ht]
            exact .error _
          · have hstep : step EPollPoller.virtual s .next = .ok { s with handling := some (q, rest) } := by
              simp [step, hhandling', hs]
            have hstep' : step PollPoller.virtual t .next = .ok { t with handling := some (q, rest) } := by
              simp [step, hhandling, ht]
            exact agree_of_steps h hstep hstep' h.bare h.channels h.activeChannels rfl h.added h.interested

theorem agree_step (h : Agree s t) (hproper : proper t i = true) :
    Matches Agree (step EPollPoller.virtual s i) (step PollPoller.virtual t i) := by
  cases i with
  | construct p fd => exact agree_construct h p fd
  | destruct p => exact agree_destruct h p
  | change p what => exact agree_change h hproper
  | remove p => exact agree_remove h p
  | poll ready order => exact agree_poll h hproper
  | next => exact agree_next h

end Step

theorem agree_new : Agree EPollPoller.new PollPoller.new := by
  refine ⟨EPollPoller.exact_new, PollPoller.placed_new, fun _ => rfl, rfl, rfl, rfl, ?_, ?_⟩
  · intro p c d pfd hc
    cases hc
  · intro p c hc
    cases hc

/-- **The pollers agree.** For every sequence of calls on which a removed channel is not changed again and interest is
taken away only where there is some: a run ends over one poller exactly if it does over the other, for the same reason;
otherwise the channels are left the same, active and registered ones included, and the kernel watches the same
descriptors for the same events. -/
theorem pollers_agree (inputs : List Input)
    (hproper : Along (step PollPoller.virtual) (fun t i => proper t i = true) PollPoller.new inputs) :
    (∀ e, run (step EPollPoller.virtual) EPollPoller.new inputs = .error e ↔
      run (step PollPoller.virtual) PollPoller.new inputs = .error e) ∧
    ∀ t, PollPoller.Run inputs t → ∃ s, EPollPoller.Run inputs s ∧
      (∀ p, (s.memory p).map Channel.bare = (t.memory p).map Channel.bare) ∧ s.channels = t.channels ∧
      s.activeChannels = t.activeChannels ∧
      ∀ fd p events, s.poller.interest fd = some (p, events) ↔
        (⟨fd, events⟩ : PollPoller.Pollfd) ∈ t.poller ∧ t.channels fd = some p := by
  have hmatch : Matches Agree (run (step EPollPoller.virtual) EPollPoller.new inputs)
      (run (step PollPoller.virtual) PollPoller.new inputs) := by
    refine run_matches Agree ?_ agree_new hproper
    intro s t i h hi
    exact agree_step h hi
  simp only [PollPoller.Run, EPollPoller.Run]
  generalize run (step EPollPoller.virtual) EPollPoller.new inputs = x at hmatch ⊢
  generalize run (step PollPoller.virtual) PollPoller.new inputs = y at hmatch ⊢
  cases hmatch with
  | error e => exact ⟨fun _ => by simp, nofun⟩
  | ok h =>
      refine ⟨fun _ => by simp, ?_⟩
      rintro t ⟨⟩
      exact ⟨_, rfl, h.bare, h.channels, h.activeChannels, h.interest_iff⟩

/-- The life of two channels, as a connection leads it: interest, an event, no interest, removal, deletion. -/
theorem pollers_agree_twoChannels :
    ∃ t, PollPoller.Run [.construct 64 5, .change 64 .enableReading, .construct 128 6, .change 128 .enableReading,
        .poll (fun _ => ⟨true, false, false⟩) [5, 6], .change 64 .disableAll, .remove 64, .next, .destruct 64] t ∧
      ∃ s, EPollPoller.Run [.construct 64 5, .change 64 .enableReading, .construct 128 6, .change 128 .enableReading,
        .poll (fun _ => ⟨true, false, false⟩) [5, 6], .change 64 .disableAll, .remove 64, .next, .destruct 64] s ∧
        s.activeChannels = t.activeChannels ∧ s.poller.interest 6 = some (128, ⟨true, false⟩) := by
  have hruns : ∃ t, PollPoller.Run [.construct 64 5, .change 64 .enableReading, .construct 128 6,
      .change 128 .enableReading, .poll (fun _ => ⟨true, false, false⟩) [5, 6], .change 64 .disableAll, .remove 64,
      .next, .destruct 64] t ∧ t.poller = [⟨6, ⟨true, false⟩⟩] ∧ t.channels 6 = some 128 := ⟨_, rfl, rfl, rfl⟩
  obtain ⟨t, hrun, hpoller, hreg⟩ := hruns
  obtain ⟨s, hrun', -, -, hactive, hinterest⟩ := (pollers_agree _ (by decide)).2 t hrun
  exact ⟨t, hrun, s, hrun', hactive, (hinterest 6 128 _).mpr ⟨by simp [hpoller], hreg⟩⟩

/-- `disableAll` twice: the kernel watches the descriptor again over `EPollPoller`, and not over `PollPoller`. -/
example : ∃ s t, EPollPoller.Run [.construct 64 5, .change 64 .enableReading, .change 64 .disableAll,
      .change 64 .disableAll] s ∧
    PollPoller.Run [.construct 64 5, .change 64 .enableReading, .change 64 .disableAll, .change 64 .disableAll] t ∧
    s.poller.interest 5 = some (64, ⟨false, false⟩) ∧ t.poller = [⟨-6, ⟨false, false⟩⟩] :=
  ⟨_, _, rfl, rfl, rfl, rfl⟩

/-- A channel is used again after its removal. -/
example : (∃ s, EPollPoller.Run [.construct 64 5, .change 64 .enableReading, .change 64 .disableAll, .remove 64,
      .change 64 .enableReading] s) ∧
    run (step PollPoller.virtual) PollPoller.new [.construct 64 5, .change 64 .enableReading, .change 64 .disableAll,
      .remove 64, .change 64 .enableReading] = .error (.assertFailed .channelKnown) := ⟨⟨_, rfl⟩, rfl⟩

end Poller
end Realtinet
