import Realtinet.EPollPoller
import Realtinet.EventLoop
import Realtinet.PollPoller

/-! One channel among many. The connections are verified over a model of a single channel, and a poller has many: seen
from one of them, a run of the poller is the run of its own calls in the model of one. `PollPoller` has
`Realtinet.Channel` for that model, whose index says what the channel's entry in `pollfds_` looks like, wherever it is
moved to; `EPollPoller` has a model of its own. -/

namespace Realtinet

open TransitionSystem

namespace Poller

/-- The calls on one channel. -/
inductive Call where
  | change (what : Change)
  | remove
  deriving DecidableEq, Repr

/-- The call an input makes on the channel at `q`. -/
def concerning (q : Pointer) : Input → Option Call
  | .change p what => if p = q then some (.change what) else none
  | .remove p => if p = q then some .remove else none
  | _ => none

section Views

variable {ι π κ ε : Type} {poller : Virtual ι π} {Inv : Loop ι π → Prop}
  {view : Loop ι π → Pointer → Channel ι → κ} {call : κ → Call → Except ε κ} {s s' t : Loop ι π} {i : Input}
  {p q : Pointer} {c : Channel ι}

/-- `view` takes each channel to a model of one, which its own calls step and those on the others leave as it is. -/
structure Views (poller : Virtual ι π) (Inv : Loop ι π → Prop) (view : Loop ι π → Pointer → Channel ι → κ)
    (call : κ → Call → Except ε κ) : Prop where
  inv : ∀ s i s', Inv s → step poller s i = .ok s' → Inv s'
  frame : ∀ s s' q c, s'.channels = s.channels → s'.poller = s.poller → view s' q c = view s q c
  revents : ∀ s q c revents, view s q { c with revents := revents } = view s q c
  change : ∀ s p what s' q c, Inv s → step poller s (.change p what) = .ok s' → s.memory q = some c →
    ∃ c', s'.memory q = some c' ∧ run call (view s q c) (concerning q (.change p what)).toList = .ok (view s' q c')
  remove : ∀ s p s' q c, Inv s → step poller s (.remove p) = .ok s' → s.memory q = some c →
    ∃ c', s'.memory q = some c' ∧ run call (view s q c) (concerning q (.remove p)).toList = .ok (view s' q c')

theorem run_concerning_none {x y : κ} (hi : concerning q i = none) (heq : x = y) :
    run call x (concerning q i).toList = .ok y := by
  rw [hi, heq]
  rfl

theorem concerning_change_of_ne (hqp : q ≠ p) (what : Change) : concerning q (.change p what) = none := by
  rw [concerning, if_neg (Ne.symm hqp)]

theorem concerning_remove_of_ne (hqp : q ≠ p) : concerning q (.remove p) = none := by
  rw [concerning, if_neg (Ne.symm hqp)]

theorem Views.step (hviews : Views poller Inv view call) (h : Inv s) (hstep : Poller.step poller s i = .ok s')
    (hi : i ≠ .destruct q) (hmem : s.memory q = some c) :
    ∃ c', s'.memory q = some c' ∧
      TransitionSystem.run call (view s q c) (concerning q i).toList = .ok (view s' q c') := by
  -- What does not concern the channel leaves the poller as it is.
  have hsame : ∀ (s' : Loop ι π) revents, s'.channels = s.channels → s'.poller = s.poller →
      TransitionSystem.run call (view s q c) [] = .ok (view s' q { c with revents := revents }) := by
    intro s' revents hchannels hpoller
    rw [hviews.revents s', hviews.frame s s' q c hchannels hpoller]
    rfl
  cases step_outcome hstep with
  | @constructed p fd hfree =>
      have hqp : q ≠ p := by
        rintro rfl
        rw [hmem] at hfree
        cases hfree
      refine ⟨c, by simpa [Loop.store, Function.update_of_ne hqp] using hmem, ?_⟩
      exact hsame _ _ rfl rfl
  | @destructed p d hmem' hhandles hadded hhas =>
      have hqp : q ≠ p := by
        rintro rfl
        exact hi rfl
      refine ⟨c, by simpa [Loop.store, Function.update_of_ne hqp] using hmem, ?_⟩
      exact hsame _ _ rfl rfl
  | changed hmem' hupdate => exact hviews.change _ _ _ _ _ _ h hstep hmem
  | removed hmem' hnone hactive hremove => exact hviews.remove _ _ _ _ _ h hstep hmem
  | nothingActive hidle hpoll => exact ⟨c, hmem, hsame _ _ rfl rfl⟩
  | @polled ready order p revents rest hidle hpoll =>
      obtain ⟨hchannels, hpoller, -⟩ := setRevents_frame ((p, revents) :: rest) s
      refine ⟨_, setRevents_memory_of_some _ hmem, ?_⟩
      exact hsame _ _ hchannels hpoller
  | ended hhandling => exact ⟨c, hmem, hsame _ _ rfl rfl⟩
  | advanced hhandling hmem' => exact ⟨c, hmem, hsame _ _ rfl rfl⟩

/-- By induction over the run: the calls are those of its inputs, one after the other. -/
theorem Views.run (hviews : Views poller Inv view call) {later : List Input} (h : Inv s)
    (hlater : TransitionSystem.run (Poller.step poller) s later = .ok t) (hmem : s.memory q = some c)
    (hdestruct : Input.destruct q ∉ later) :
    ∃ c', t.memory q = some c' ∧
      TransitionSystem.run call (view s q c) (later.filterMap (concerning q)) = .ok (view t q c') := by
  induction later generalizing s c with
  | nil =>
      cases hlater
      exact ⟨c, hmem, rfl⟩
  | cons i later ih =>
      obtain ⟨s', hstep, hrest⟩ := run_cons_eq_ok.mp hlater
      rw [List.mem_cons, not_or] at hdestruct
      obtain ⟨c₁, hmem₁, hcall⟩ := hviews.step h hstep (Ne.symm hdestruct.1) hmem
      obtain ⟨c', hmem', hrun⟩ := ih (hviews.inv _ _ _ h hstep) hrest hmem₁ hdestruct.2
      have hcons : (i :: later).filterMap (concerning q) =
          (concerning q i).toList ++ later.filterMap (concerning q) := by
        cases hi : concerning q i <;> simp [hi]
      rw [hcons, run_append hcall]
      exact ⟨c', hmem', hrun⟩

end Views

/-! ### `EPollPoller` -/

namespace EPollPoller

/-- What `Channel` and `EPollPoller` have of one channel. -/
structure OneChannel where
  events : Events
  index : ChannelIndex
  addedToLoop : Bool
  deriving DecidableEq, Repr

namespace OneChannel

/-- A channel that is not in the interest list is added, whatever its events; one that is leaves the list when it has
no events left. -/
def updateChannel (c : OneChannel) : OneChannel :=
  match c.index with
  | .kNew => { c with index := .kAdded }
  | .kDeleted => { c with index := .kAdded }
  | .kAdded => if c.events.isNone then { c with index := .kDeleted } else c

def update (c : OneChannel) : OneChannel := ({ c with addedToLoop := true } : OneChannel).updateChannel

/-- `Channel::remove` with `EPollPoller::removeChannel`. -/
def remove (c : OneChannel) : Except Realtinet.Halt OneChannel :=
  if c.events.isNone then
    match c.index with
    | .kNew => .error (.assertFailed .channelRegistered)
    | _ => .ok { c with addedToLoop := false, index := .kNew }
  else .error (.assertFailed .channelNoneEvent)

def call (c : OneChannel) : Call → Except Realtinet.Halt OneChannel
  | .change what => .ok ({ c with events := what.apply c.events } : OneChannel).update
  | .remove => c.remove

end OneChannel

def view (_ : Loop) (_ : Pointer) (c : Channel) : OneChannel := ⟨c.events, c.index, c.addedToLoop⟩

variable {s s' : Loop} {p q : Pointer} {c c' : Channel}

theorem call_change (what : Change) :
    OneChannel.call (view s q c) (.change what) =
      .ok (view s' q { c with
        events := what.apply c.events
        addedToLoop := true
        index := nextIndex c.index (what.apply c.events) }) := by
  simp only [OneChannel.call, OneChannel.update, OneChannel.updateChannel, view]
  cases c.index with
  | kNew => rfl
  | kDeleted => rfl
  | kAdded =>
      by_cases hnone : (what.apply c.events).isNone = true
      · simp [nextIndex, hnone]
      · simp [nextIndex, hnone]

theorem call_remove (hindex : c.index ≠ .kNew) (hnone : c.events.isNone = true) :
    OneChannel.call (view s q c) .remove = .ok (view s' q { c with addedToLoop := false, index := .kNew }) := by
  cases hi : c.index with
  | kNew => exact absurd hi hindex
  | kDeleted => simp [OneChannel.call, OneChannel.remove, view, hnone, hi]
  | kAdded => simp [OneChannel.call, OneChannel.remove, view, hnone, hi]

theorem view_changed {what : Change} (h : Exact s) (hstep : step virtual s (.change p what) = .ok s')
    (hmem : s.memory q = some c) :
    ∃ c', s'.memory q = some c' ∧
      run OneChannel.call (view s q c) (concerning q (.change p what)).toList = .ok (view s' q c') := by
  cases step_outcome hstep with
  | @changed _ _ d _ hp hupdate =>
      have heq := (updateChannel_eq h hp (what.apply d.events) rfl).symm.trans hupdate
      split_ifs at heq
      cases heq
      by_cases hqp : q = p
      · subst hqp
        rw [hmem] at hp
        cases hp
        refine ⟨_, Function.update_self _ _ _, ?_⟩
        simp only [concerning, if_true, Option.toList_some, run_singleton]
        exact call_change what
      · refine ⟨c, by simpa [settle, Function.update_of_ne hqp] using hmem, ?_⟩
        exact run_concerning_none (concerning_change_of_ne hqp what) rfl

theorem view_removed (h : Exact s) (hstep : step virtual s (.remove p) = .ok s') (hmem : s.memory q = some c) :
    ∃ c', s'.memory q = some c' ∧
      run OneChannel.call (view s q c) (concerning q (.remove p)).toList = .ok (view s' q c') := by
  cases step_outcome hstep with
  | @removed _ d _ hp hnone hactive hremove =>
      have heq := (removeChannel_eq h hp rfl).symm.trans hremove
      split_ifs at heq with hreg
      cases heq
      by_cases hqp : q = p
      · subst hqp
        rw [hmem] at hp
        cases hp
        refine ⟨_, Function.update_self _ _ _, ?_⟩
        simp only [concerning, if_true, Option.toList_some, run_singleton]
        exact call_remove ((h.registered q c hmem).mp hreg) hnone
      · refine ⟨c, by simpa [settle, Function.update_of_ne hqp] using hmem, ?_⟩
        exact run_concerning_none (concerning_remove_of_ne hqp) rfl

theorem views : Views virtual Exact view OneChannel.call where
  inv := fun _ _ _ => exact_step
  frame := fun _ _ _ _ _ _ => rfl
  revents := fun _ _ _ _ => rfl
  change := fun _ _ _ _ _ _ => view_changed
  remove := fun _ _ _ _ _ => view_removed

end EPollPoller

/-! ### `PollPoller` -/

namespace PollPoller

/-- Whether the entry of a channel that has one is ignored. -/
def viewIndex (s : Loop) (q : Pointer) (c : Channel) : Realtinet.ChannelIndex :=
  if c.index < 0 then .unset
  else if s.channels c.fd = some q then .pollfd ((pollfdAt c.index s).any fun pfd => pfd.fd < 0)
  else .removed

def view (s : Loop) (q : Pointer) (c : Channel) : Realtinet.Channel where
  readEvent := c.events.read
  writeEvent := c.events.write
  index := viewIndex s q c
  addedToLoop := c.addedToLoop

/-- Removed by the handler of its own events, or while it is not active. -/
def call (c : Realtinet.Channel) : Call → Except Realtinet.Halt Realtinet.Channel
  | .change .enableReading => c.enableReading
  | .change .disableReading => c.disableReading
  | .change .enableWriting => ({ c with writeEvent := true } : Realtinet.Channel).update
  | .change .disableWriting => ({ c with writeEvent := false } : Realtinet.Channel).update
  | .change .disableAll => c.disableAll
  | .remove => c.remove false

variable {s s' : Loop} {p q : Pointer} {c c' d d' : Channel} {pfd : Pollfd}

theorem viewIndex_unset (hindex : c.index < 0) : viewIndex s q c = .unset := by
  rw [viewIndex, if_pos hindex]

theorem viewIndex_pollfd (hindex : 0 ≤ c.index) (hreg : s.channels c.fd = some q)
    (hat : pollfdAt c.index s = some pfd) : viewIndex s q c = .pollfd (pfd.fd < 0) := by
  rw [viewIndex, if_neg (by omega), if_pos hreg, hat, Option.any_some]

theorem viewIndex_removed (hindex : 0 ≤ c.index) (hreg : s.channels c.fd ≠ some q) : viewIndex s q c = .removed := by
  rw [viewIndex, if_neg (by omega), if_neg hreg]

/-- What a change makes of the events, and then `update`. -/
theorem call_change (x : Realtinet.Channel) (what : Change) :
    call x (.change what) = ({ x with
      readEvent := (what.apply ⟨x.readEvent, x.writeEvent⟩).read
      writeEvent := (what.apply ⟨x.readEvent, x.writeEvent⟩).write } : Realtinet.Channel).update := by
  cases what <;> rfl

/-- A channel looks the same if it is registered as before, with the entry it had. -/
theorem viewIndex_congr (hindex : d'.index < 0 ↔ d.index < 0) (hfd : d'.fd = d.fd)
    (hreg : s'.channels d.fd = some q ↔ s.channels d.fd = some q)
    (hat : s.channels d.fd = some q → pollfdAt d'.index s' = pollfdAt d.index s) :
    viewIndex s' q d' = viewIndex s q d := by
  simp only [viewIndex, hindex, hfd, hreg]
  by_cases hregd : s.channels d.fd = some q
  · rw [hat hregd]
  · simp only [if_neg hregd]

/-- A new channel gets an entry that is not ignored. -/
theorem call_append (hindex : c.index < 0) (what : Change)
    (hc : c' = { c with events := what.apply c.events, addedToLoop := true }) :
    call (view s p c) (.change what) =
      .ok (view (append p c' s) p { c' with index := (s.poller.length : Int) }) := by
  have hbefore : viewIndex s p c = .unset := viewIndex_unset hindex
  have hafter : viewIndex (append p c' s) p { c' with index := (s.poller.length : Int) } = .pollfd false := by
    have hnonneg : ¬ (c'.fd : Int) < 0 := by omega
    simp [viewIndex, append, pollfdAt, hnonneg]
  subst hc
  simp only [call_change, Realtinet.Channel.update, Realtinet.Channel.updateChannel, view, hbefore, hafter]

/-- The entry of a registered channel is ignored from now on if it has no interest, and not otherwise. -/
theorem call_overwrite (h : Placed s) (hmem : s.memory p = some c) (hreg : s.channels c.fd = some p) (what : Change)
    (hc : c' = { c with events := what.apply c.events, addedToLoop := true }) :
    call (view s p c) (.change what) = .ok (view (overwrite p c' s) p c') := by
  have hnonneg := h.index_nonneg hmem hreg
  obtain ⟨pfd, hat, hget, -⟩ := h.pollfdAt hmem hreg
  have hlt : c.index.toNat < s.poller.length := (List.getElem?_eq_some_iff.mp hget).1
  have hbefore := viewIndex_pollfd hnonneg hreg hat
  have hafter : viewIndex (overwrite p c' s) p c' = .pollfd (what.apply c.events).isNone := by
    subst hc
    have hneg : ignored c.fd < 0 := by
      rw [ignored]
      omega
    have hfd : ¬ (c.fd : Int) < 0 := by omega
    simp only [viewIndex, overwrite, pollfdAt, hreg, if_true, if_pos hnonneg, List.getElem?_set_self hlt,
      Option.any_some, if_neg (Int.not_lt.mpr hnonneg)]
    split_ifs with hnone
    · simp [hneg, hnone]
    · simp [hfd, hnone]
  subst hc
  simp only [call_change, Realtinet.Channel.update, Realtinet.Channel.updateChannel, view, hbefore, hafter]
  rfl

/-- An accepted removal finds the entry ignored. -/
theorem call_dropped (h : Placed s) (hmem : s.memory p = some c) (hreg : s.channels c.fd = some p)
    (hnone : c.events.isNone = true) (hat : pollfdAt c.index s = some pfd) (hignored : pfd.fd = ignored c.fd)
    (hc : c' = { c with addedToLoop := false }) (hdropped : Dropped p c' s s') :
    call (view s p c) .remove = .ok (view s' p c') := by
  have hnonneg := h.index_nonneg hmem hreg
  have hbefore := viewIndex_pollfd hnonneg hreg hat
  have hneg : pfd.fd < 0 := by
    rw [hignored, ignored]
    omega
  subst hc
  have hafter : viewIndex s' p { c with addedToLoop := false } = .removed := by
    refine viewIndex_removed hnonneg ?_
    rw [hdropped.channels, Function.update_self]
    exact (Option.some_ne_none p).symm
  refine Realtinet.Channel.remove_eq_ok_iff.mpr ⟨hnone, rfl, ?_, ?_⟩
  · simp only [view, hbefore, hneg, decide_true]
  · simp only [view, hafter]

/-! Other channels. -/

theorem view_append (hfree : s.channels c.fd = none) (h : Placed s) (hq : s.memory q = some d) (hqp : q ≠ p) :
    view (append p c s) q d = view s q d := by
  have hindex : viewIndex (append p c s) q d = viewIndex s q d := by
    refine viewIndex_congr Iff.rfl rfl ?_ ?_
    · simp only [append]
      by_cases heq : d.fd = c.fd
      · rw [heq, Function.update_self, hfree]
        simp [Ne.symm hqp]
      · rw [Function.update_of_ne heq]
    · intro hregd
      obtain ⟨n, pfd, hn, hpfd, -⟩ := h.slot q d hq hregd
      have hlt : n < s.poller.length := (List.getElem?_eq_some_iff.mp hpfd).1
      simp [pollfdAt, append, hn, List.getElem?_append_left hlt]
  rw [view, hindex]
  rfl

theorem view_overwrite (h : Placed s) (hp : s.memory p = some c) (hreg : s.channels c.fd = some p)
    (hindex : c'.index = c.index) (hq : s.memory q = some d) (hqp : q ≠ p) :
    view (overwrite p c' s) q d = view s q d := by
  have hview : viewIndex (overwrite p c' s) q d = viewIndex s q d := by
    refine viewIndex_congr Iff.rfl rfl Iff.rfl ?_
    intro hregd
    have hne : c.index.toNat ≠ d.index.toNat := by
      intro heq
      have hnonneg := h.index_nonneg hp hreg
      have hnonneg' := h.index_nonneg hq hregd
      exact hqp (h.index_injective hq hregd hp hreg (by omega))
    simp [pollfdAt, overwrite, hindex, List.getElem?_set_ne hne]
  rw [view, hview]
  rfl

/-- Another channel may have been moved to the place of the one that is gone. -/
theorem view_dropped (h : Placed s) (hreg : s.channels c.fd = some p) (hdropped : Dropped p c' s s')
    (hfd : c'.fd = c.fd) (hq : s.memory q = some d) (hqp : q ≠ p) :
    ∃ d', s'.memory q = some d' ∧ view s' q d' = view s q d := by
  have hchannels : s'.channels d.fd = some q ↔ s.channels d.fd = some q := by
    rw [hdropped.channels, hfd]
    by_cases heq : d.fd = c.fd
    · rw [heq, Function.update_self, hreg]
      simp [Ne.symm hqp]
    · rw [Function.update_of_ne heq]
  rcases hdropped.others q hqp with hsame | ⟨e, index, he, hrege, hmoved⟩
  · refine ⟨d, hsame.trans hq, ?_⟩
    have hview : viewIndex s' q d = viewIndex s q d :=
      viewIndex_congr Iff.rfl rfl hchannels (fun hregd => hdropped.entries q d d hqp hq hregd (hsame.trans hq))
    rw [view, hview]
    rfl
  · rw [hq] at he
    cases he
    refine ⟨_, hmoved, ?_⟩
    have hnonneg := h.index_nonneg hq hrege
    have hnonneg' : 0 ≤ index := hdropped.placed.index_nonneg hmoved (hchannels.mpr hrege)
    have hview : viewIndex s' q { d with index := index } = viewIndex s q d := by
      refine viewIndex_congr ?_ rfl hchannels (fun hregd => hdropped.entries q d _ hqp hq hregd hmoved)
      simp only
      omega
    rw [view, hview]
    rfl

theorem view_changed {what : Change} (h : Placed s) (hstep : step virtual s (.change p what) = .ok s')
    (hmem : s.memory q = some c) :
    ∃ c', s'.memory q = some c' ∧
      run call (view s q c) (concerning q (.change p what)).toList = .ok (view s' q c') := by
  cases step_outcome hstep with
  | @changed _ _ d _ hp hupdate =>
      have heq := (updateChannel_eq h hp (what.apply d.events) rfl).symm.trans hupdate
      split_ifs at heq with hneg hfree hreg
      · cases heq
        by_cases hqp : q = p
        · subst hqp
          rw [hmem] at hp
          cases hp
          refine ⟨_, Function.update_self _ _ _, ?_⟩
          simp only [concerning, if_true, Option.toList_some, run_singleton]
          exact call_append hneg what rfl
        · refine ⟨c, by simpa [append, Function.update_of_ne hqp] using hmem, ?_⟩
          refine run_concerning_none (concerning_change_of_ne hqp what) (Eq.symm ?_)
          exact view_append hfree h hmem hqp
      · cases heq
        by_cases hqp : q = p
        · subst hqp
          rw [hmem] at hp
          cases hp
          refine ⟨_, Function.update_self _ _ _, ?_⟩
          simp only [concerning, if_true, Option.toList_some, run_singleton]
          exact call_overwrite h hmem hreg what rfl
        · refine ⟨c, by simpa [overwrite, Function.update_of_ne hqp] using hmem, ?_⟩
          refine run_concerning_none (concerning_change_of_ne hqp what) (Eq.symm ?_)
          exact view_overwrite h hp hreg rfl hmem hqp

theorem view_removed (h : Placed s) (hstep : step virtual s (.remove p) = .ok s') (hmem : s.memory q = some c) :
    ∃ c', s'.memory q = some c' ∧ run call (view s q c) (concerning q (.remove p)).toList = .ok (view s' q c') := by
  cases step_outcome hstep with
  | @removed _ d _ hp hnone hactive hremove =>
      rcases removeChannel_cases h hp rfl with ⟨-, hfail⟩ | ⟨hreg, pfd, hat, ⟨-, hfail⟩ | ⟨hignored, s₁, hok, hdropped⟩⟩
      · cases hfail.symm.trans hremove
      · cases hfail.symm.trans hremove
      · cases hok.symm.trans hremove
        by_cases hqp : q = p
        · subst hqp
          rw [hmem] at hp
          cases hp
          refine ⟨_, hdropped.self, ?_⟩
          simp only [concerning, if_true, Option.toList_some, run_singleton]
          exact call_dropped h hmem hreg hnone hat hignored rfl hdropped
        · obtain ⟨c', hmem', hview⟩ := view_dropped h hreg hdropped rfl hmem hqp
          exact ⟨c', hmem', run_concerning_none (concerning_remove_of_ne hqp) hview.symm⟩

theorem view_frame (hchannels : s'.channels = s.channels) (hpoller : s'.poller = s.poller) :
    view s' q c = view s q c := by
  simp only [view, viewIndex, pollfdAt, hchannels, hpoller]

theorem views : Views virtual Placed view call where
  inv := fun _ _ _ => placed_step
  frame := fun _ _ _ _ => view_frame
  revents := fun _ _ _ _ => rfl
  change := fun _ _ _ _ _ _ => view_changed
  remove := fun _ _ _ _ _ => view_removed

/-- What `poll` reports of a channel, the model of it can report: its entry is not ignored, and it is readable only
with read interest. -/
theorem canReport_of_reported (h : Placed s) {ready : Nat → Revents} {order : List Nat}
    {active : List (Pointer × Revents)} {revents : Revents} (hpoll : poll ready order s = .ok active)
    (hactive : (q, revents) ∈ active) (hmem : s.memory q = some c) (bits : Realtinet.Revents)
    (hbits : (bits.pollIn || bits.pollPri || bits.pollRdhup) = true → revents.read = true) :
    (view s q c).canReport bits = true := by
  rw [poll_eq h] at hpoll
  cases hpoll
  obtain ⟨pfd, hpfd, hreport⟩ := List.mem_filterMap.mp hactive
  rw [report] at hreport
  split_ifs at hreport with hany
  obtain ⟨p, hreg, heq⟩ := Option.map_eq_some_iff.mp hreport
  cases heq
  obtain ⟨n, hn⟩ := List.getElem?_of_mem hpfd
  obtain ⟨p, d, hp, hregp, hindex⟩ := h.owner n pfd hn
  obtain ⟨pfd', hat, hget, hentry⟩ := h.pollfdAt hp hregp
  rw [hindex, Int.toNat_natCast, hn] at hget
  cases hget
  rw [hentry.descriptor, hregp] at hreg
  cases hreg
  rw [hmem] at hp
  cases hp
  have hnonneg := nonneg_of_any hany
  have hview : viewIndex s q c = .pollfd false := by
    rw [viewIndex_pollfd (h.index_nonneg hmem hregp) hregp hat, decide_eq_false (Int.not_lt.mpr hnonneg)]
  have hread : (bits.pollIn || bits.pollPri || bits.pollRdhup) = true → c.events.read = true := by
    intro hsome
    have hrevents := hbits hsome
    rw [Pollfd.revents, if_neg (Int.not_lt.mpr hnonneg), hentry.events] at hrevents
    simp only [Revents.mask, Bool.and_eq_true] at hrevents
    exact hrevents.2
  rw [Realtinet.Channel.canReport, Bool.and_eq_true]
  refine ⟨by simp [view, hview], ?_⟩
  cases hsome : bits.pollIn || bits.pollPri || bits.pollRdhup with
  | false => simp
  | true => simp [view, hread hsome]

end PollPoller

/-- **One channel among many.** From every state either poller can be in, and whatever else is done to it: a channel
goes through what its own calls make of it in the model of a single channel, until it is deleted. -/
theorem channel_among_many (inputs later : List Input) (q : Pointer) (hdestruct : Input.destruct q ∉ later) :
    (∀ s t c, EPollPoller.Run inputs s → run (step EPollPoller.virtual) s later = .ok t → s.memory q = some c →
      ∃ c', t.memory q = some c' ∧
        run EPollPoller.OneChannel.call (EPollPoller.view s q c) (later.filterMap (concerning q)) =
          .ok (EPollPoller.view t q c')) ∧
    ∀ s t c, PollPoller.Run inputs s → run (step PollPoller.virtual) s later = .ok t → s.memory q = some c →
      ∃ c', t.memory q = some c' ∧
        run PollPoller.call (PollPoller.view s q c) (later.filterMap (concerning q)) =
          .ok (PollPoller.view t q c') := by
  constructor
  · intro s t c hrun hlater hmem
    exact EPollPoller.views.run (EPollPoller.sound_run hrun).exact_list hlater hmem hdestruct
  · intro s t c hrun hlater hmem
    exact PollPoller.views.run (PollPoller.sound_run hrun).placed hlater hmem hdestruct

/-- Another channel is moved, removed and deleted in between. -/
theorem channel_among_many_otherRemoved :
    ∃ s t c c', PollPoller.Run [.construct 64 5, .construct 128 6, .change 64 .enableReading] s ∧
      run (step PollPoller.virtual) s [.change 128 .enableReading, .change 64 .disableAll, .change 128 .disableAll,
        .remove 128, .destruct 128, .remove 64] = .ok t ∧
      s.memory 64 = some c ∧ t.memory 64 = some c' ∧
      run PollPoller.call (PollPoller.view s 64 c) [.change .disableAll, .remove] =
        .ok (PollPoller.view t 64 c') := by
  have hruns : ∃ s t c, PollPoller.Run [.construct 64 5, .construct 128 6, .change 64 .enableReading] s ∧
      run (step PollPoller.virtual) s [.change 128 .enableReading, .change 64 .disableAll, .change 128 .disableAll,
        .remove 128, .destruct 128, .remove 64] = .ok t ∧ s.memory 64 = some c := ⟨_, _, _, rfl, rfl, rfl⟩
  obtain ⟨s, t, c, hrun, hlater, hmem⟩ := hruns
  obtain ⟨c', hmem', hcalls⟩ := (channel_among_many _ _ 64 (by simp)).2 s t c hrun hlater hmem
  exact ⟨s, t, c, c', hrun, hlater, hmem, hmem', hcalls⟩

end Poller
end Realtinet
