import Mathlib.Data.List.Nodup
import Realtinet.Poller

/-! `EPollPoller` over the kernel's interest list. Whatever is done to the channels and in whatever order, the list holds
exactly the channels with `kAdded`, each with its events, and only the caller's own mistakes end the process. -/

namespace Realtinet

open TransitionSystem

namespace Poller
namespace EPollPoller

/-- The interest list has under a descriptor the pointer and the events of the last `epoll_ctl`; `failedDeletes` counts
the calls of `EPOLL_CTL_DEL` that are refused, which `EPollPoller::update` only logs. -/
structure Epoll where
  interest : Nat → Option (Pointer × Events)
  failedDeletes : Nat

/-- `kNew`, `kAdded` and `kDeleted` of `EPollPoller.cc`. -/
inductive ChannelIndex where
  | kNew
  | kAdded
  | kDeleted
  deriving DecidableEq, Repr

abbrev Loop := Poller.Loop ChannelIndex Epoll

abbrev Channel := Poller.Channel ChannelIndex

inductive Operation where
  | add
  | mod
  | del
  deriving DecidableEq, Repr

def setInterest (fd : Nat) (entry : Option (Pointer × Events)) (s : Loop) : Loop :=
  { s with poller := { s.poller with interest := Function.update s.poller.interest fd entry } }

/-- `EPollPoller::update`: `EPOLL_CTL_ADD` of a descriptor that is in the list and `EPOLL_CTL_MOD` of one that is not
are fatal. -/
def update (operation : Operation) (p : Pointer) (c : Channel) (s : Loop) : Except Halt Loop :=
  match operation, s.poller.interest c.fd with
  | .add, none => .ok (setInterest c.fd (some (p, c.events)) s)
  | .add, some _ => .error .epollCtl
  | .mod, some _ => .ok (setInterest c.fd (some (p, c.events)) s)
  | .mod, none => .error .epollCtl
  | .del, some _ => .ok (setInterest c.fd none s)
  | .del, none => .ok { s with poller := { s.poller with failedDeletes := s.poller.failedDeletes + 1 } }

def setIndex (index : ChannelIndex) (p : Pointer) (c : Channel) (s : Loop) : Loop :=
  s.store p (some { c with index := index })

def updateChannel (p : Pointer) (c : Channel) (s : Loop) : Except Halt Loop :=
  match c.index with
  | .kNew =>
      if s.channels c.fd = none then update .add p c (setIndex .kAdded p c (s.register c.fd (some p)))
      else .error (.assertFailed .descriptorFree)
  | .kDeleted =>
      if s.channels c.fd = some p then update .add p c (setIndex .kAdded p c s)
      else .error (.assertFailed .channelKnown)
  | .kAdded =>
      if s.channels c.fd = some p then
        if c.events.isNone then
          match update .del p c s with
          | .ok s => .ok (setIndex .kDeleted p c s)
          | .error e => .error e
        else update .mod p c s
      else .error (.assertFailed .channelKnown)

def removeChannel (p : Pointer) (c : Channel) (s : Loop) : Except Halt Loop :=
  if s.channels c.fd = some p then
    match c.index with
    | .kNew => .error (.assertFailed .channelKnown)
    | .kAdded =>
        match update .del p c (s.register c.fd none) with
        | .ok s => .ok (setIndex .kNew p c s)
        | .error e => .error e
    | .kDeleted => .ok (setIndex .kNew p c (s.register c.fd none))
  else .error (.assertFailed .channelRegistered)

/-- `epoll_wait` may report the descriptor. -/
def reportable (ready : Nat → Revents) (s : Loop) (fd : Nat) : Bool :=
  match s.poller.interest fd with
  | some (_, events) => ((ready fd).mask events).any
  | none => false

def fillActiveChannels (ready : Nat → Revents) (s : Loop) : List Nat → Except Halt (List (Pointer × Revents))
  | [] => .ok []
  | fd :: rest =>
      match s.poller.interest fd with
      | none => .error .notEnabled
      | some (p, events) =>
          match s.memory p with
          | none => .error .dangling
          | some c =>
              if s.channels c.fd = some p then
                match fillActiveChannels ready s rest with
                | .ok active => .ok ((p, (ready fd).mask events) :: active)
                | .error e => .error e
              else .error (.assertFailed .reportedKnown)

/-- `epoll_wait` reports some of the ready descriptors, each once, in an order of its own. -/
def poll (ready : Nat → Revents) (order : List Nat) (s : Loop) : Except Halt (List (Pointer × Revents)) :=
  if order.Nodup ∧ order.all (reportable ready s) = true then fillActiveChannels ready s order
  else .error .notEnabled

def virtual : Virtual ChannelIndex Epoll where
  index := .kNew
  empty := ⟨fun _ => none, 0⟩
  updateChannel := updateChannel
  removeChannel := removeChannel
  poll := poll

def new : Loop := Poller.Loop.new virtual

/-- The loops some run leads to. -/
def Run (inputs : List Input) (s : Loop) : Prop := run (step virtual) new inputs = .ok s

/-- `channels_`, `index_`, `addedToLoop_` and the interest list say the same. -/
structure Exact (s : Loop) : Prop where
  registered : ∀ p c, s.memory p = some c → (s.channels c.fd = some p ↔ c.index ≠ .kNew)
  known : ∀ fd p, s.channels fd = some p → ∃ c, s.memory p = some c ∧ c.fd = fd
  added : ∀ p c, s.memory p = some c → (c.addedToLoop = true ↔ c.index ≠ .kNew)
  interest : ∀ fd p events, s.poller.interest fd = some (p, events) ↔
    ∃ c, s.memory p = some c ∧ c.fd = fd ∧ c.index = .kAdded ∧ c.events = events
  deleted : ∀ p c, s.memory p = some c → c.index = .kDeleted → c.events.isNone = true
  failedDeletes : s.poller.failedDeletes = 0

variable {s s' : Loop} {i : Input} {p q : Pointer} {c c' : Channel} {inputs : List Input}

/-! ### What an update of a channel leaves -/

/-- The loop after the channel at `p` has become `c`: registered unless it is new, watched if it is added. -/
def settle (p : Pointer) (c : Channel) (s : Loop) : Loop :=
  { s with
    memory := Function.update s.memory p (some c)
    channels := Function.update s.channels c.fd (if c.index = .kNew then none else some p)
    poller := { s.poller with
      interest := Function.update s.poller.interest c.fd (if c.index = .kAdded then some (p, c.events) else none) } }

/-- `index_` after `updateChannel`. -/
def nextIndex : ChannelIndex → Events → ChannelIndex
  | .kAdded, events => if events.isNone then .kDeleted else .kAdded
  | .kNew, _ => .kAdded
  | .kDeleted, _ => .kAdded

theorem Exact.interest_none (h : Exact s) (hmem : s.memory p = some c) (hindex : c.index ≠ .kAdded)
    (hchannels : s.channels c.fd = none ∨ s.channels c.fd = some p) : s.poller.interest c.fd = none := by
  cases hentry : s.poller.interest c.fd with
  | none => rfl
  | some entry =>
      obtain ⟨q, events⟩ := entry
      obtain ⟨d, hd, hfd, hadded, -⟩ := (h.interest _ _ _).mp hentry
      have hq := (h.registered q d hd).mpr (by rw [hadded]; decide)
      rw [hfd] at hq
      rcases hchannels with hnone | hp
      · rw [hnone] at hq
        cases hq
      · rw [hp] at hq
        cases hq
        rw [hmem] at hd
        cases hd
        exact absurd hadded hindex

theorem Exact.interest_some (h : Exact s) (hmem : s.memory p = some c) (hindex : c.index = .kAdded) :
    s.poller.interest c.fd = some (p, c.events) :=
  (h.interest _ _ _).mpr ⟨c, hmem, rfl, hindex, rfl⟩

/-- `updateChannel` fails on a new channel whose descriptor another one is registered for, and otherwise settles the
channel with its next index. -/
theorem updateChannel_eq (h : Exact s) (hmem : s.memory p = some c) (events : Events)
    (hc : c' = { c with events := events, addedToLoop := true }) :
    updateChannel p c' (s.store p (some c')) =
      if c.index = .kNew ∧ s.channels c.fd ≠ none then .error (.assertFailed .descriptorFree)
      else .ok (settle p { c' with index := nextIndex c.index events } s) := by
  have hregistered := h.registered p c hmem
  subst hc
  cases hindex : c.index with
  | kNew =>
      by_cases hfree : s.channels c.fd = none
      · have hinterest := h.interest_none hmem (by rw [hindex]; decide) (.inl hfree)
        simp [updateChannel, Loop.store, Loop.register, hfree, update, hinterest, setIndex, setInterest,
          settle, nextIndex]
      · simp [updateChannel, Loop.store, hfree]
  | kDeleted =>
      have hhas : s.channels c.fd = some p := hregistered.mpr (by rw [hindex]; decide)
      have hinterest := h.interest_none hmem (by rw [hindex]; decide) (.inr hhas)
      simp [updateChannel, Loop.store, hhas, update, hinterest, setIndex, setInterest, settle, nextIndex]
  | kAdded =>
      have hhas : s.channels c.fd = some p := hregistered.mpr (by rw [hindex]; decide)
      have hinterest := h.interest_some hmem hindex
      by_cases hnone : events.isNone = true
      · simp [updateChannel, Loop.store, hhas, hnone, update, hinterest, setIndex, setInterest, settle,
          nextIndex]
      · simp [updateChannel, Loop.store, hhas, hnone, update, hinterest, setInterest, settle,
          nextIndex]

theorem removeChannel_eq (h : Exact s) (hmem : s.memory p = some c)
    (hc : c' = { c with addedToLoop := false }) :
    removeChannel p c' (s.store p (some c')) =
      if s.channels c.fd = some p then .ok (settle p { c' with index := .kNew } s)
      else .error (.assertFailed .channelRegistered) := by
  have hregistered := h.registered p c hmem
  subst hc
  by_cases hhas : s.channels c.fd = some p
  · cases hindex : c.index with
    | kNew => exact absurd hindex (hregistered.mp hhas)
    | kDeleted =>
        have hinterest := h.interest_none hmem (by rw [hindex]; decide) (.inr hhas)
        have hself : Function.update s.poller.interest c.fd none = s.poller.interest := by
          rw [← hinterest, Function.update_eq_self]
        simp [removeChannel, Loop.store, Loop.register, hhas, hself, setIndex, settle]
    | kAdded =>
        have hinterest := h.interest_some hmem hindex
        simp [removeChannel, Loop.store, Loop.register, hhas, update, hinterest, setIndex, setInterest, settle]
  · simp [removeChannel, Loop.store, hhas]

/-- No other channel is registered for the descriptor of one that is, or that may be. -/
theorem Exact.others_kNew {d : Channel} (h : Exact s) (hqp : q ≠ p)
    (hchannels : s.channels c.fd = none ∨ s.channels c.fd = some p) (hd : s.memory q = some d) (heq : d.fd = c.fd) :
    d.index = .kNew := by
  by_contra hindex
  have hreg := (h.registered q d hd).mpr hindex
  rw [heq] at hreg
  rcases hchannels with hnone | hp
  · rw [hnone] at hreg
    cases hreg
  · rw [hp] at hreg
    exact hqp (Option.some.inj hreg).symm

section Settle

variable {d : Channel} (h : Exact s) (hmem : s.memory p = some c) (hfd : c'.fd = c.fd)
  (hchannels : s.channels c.fd = none ∨ s.channels c.fd = some p)

/-- The channel that is settled, and the others as they were. -/
theorem memory_settle (hq : (settle p c' s).memory q = some d) : q = p ∧ d = c' ∨ q ≠ p ∧ s.memory q = some d := by
  by_cases hqp : q = p
  · subst hqp
    simp only [settle, Function.update_self, Option.some.injEq] at hq
    exact .inl ⟨rfl, hq.symm⟩
  · simp only [settle, Function.update_of_ne hqp] at hq
    exact .inr ⟨hqp, hq⟩

include h hfd hchannels in
theorem settle_registered (hq : (settle p c' s).memory q = some d) :
    (settle p c' s).channels d.fd = some q ↔ d.index ≠ .kNew := by
  rcases memory_settle hq with ⟨rfl, rfl⟩ | ⟨hqp, hd⟩
  · simp only [settle, Function.update_self]
    split_ifs with hnew <;> simp [hnew]
  · simp only [settle]
    by_cases heq : d.fd = c'.fd
    · rw [heq, Function.update_self]
      have hnew := h.others_kNew hqp hchannels hd (heq.trans hfd)
      refine iff_of_false ?_ (by simp [hnew])
      split_ifs <;> simp [Ne.symm hqp]
    · rw [Function.update_of_ne heq]
      exact h.registered q d hd

include h hmem hfd in
theorem settle_known {fd : Nat} (hq : (settle p c' s).channels fd = some q) :
    ∃ d, (settle p c' s).memory q = some d ∧ d.fd = fd := by
  by_cases heq : fd = c'.fd
  · subst heq
    simp only [settle, Function.update_self] at hq
    split_ifs at hq
    cases hq
    exact ⟨c', by simp [settle], rfl⟩
  · simp only [settle, Function.update_of_ne heq] at hq
    obtain ⟨d, hd, hdfd⟩ := h.known fd q hq
    have hqp : q ≠ p := by
      rintro rfl
      rw [hmem] at hd
      cases hd
      exact heq (hdfd ▸ hfd.symm)
    exact ⟨d, by simpa [settle, Function.update_of_ne hqp] using hd, hdfd⟩

include h hmem hfd in
theorem settle_interest_self (fd : Nat) (events : Events) :
    (settle p c' s).poller.interest fd = some (p, events) ↔
      c'.fd = fd ∧ c'.index = .kAdded ∧ c'.events = events := by
  simp only [settle]
  by_cases heq : fd = c'.fd
  · subst heq
    rw [Function.update_self]
    split_ifs with hindex <;> simp [hindex]
  · rw [Function.update_of_ne heq]
    refine iff_of_false ?_ (fun hd => heq hd.1.symm)
    rw [h.interest]
    rintro ⟨d, hd, hdfd, -⟩
    rw [hmem] at hd
    cases hd
    exact heq (hdfd ▸ hfd.symm)

include h hfd hchannels in
theorem settle_interest_other (hqp : q ≠ p) (fd : Nat) (events : Events) :
    (settle p c' s).poller.interest fd = some (q, events) ↔
      ∃ d, s.memory q = some d ∧ d.fd = fd ∧ d.index = .kAdded ∧ d.events = events := by
  simp only [settle]
  by_cases heq : fd = c'.fd
  · subst heq
    rw [Function.update_self]
    refine iff_of_false ?_ ?_
    · split_ifs <;> simp [Ne.symm hqp]
    · rintro ⟨d, hd, hdfd, hadded, -⟩
      rw [h.others_kNew hqp hchannels hd (hdfd.trans hfd)] at hadded
      cases hadded
  · rw [Function.update_of_ne heq]
    exact h.interest fd q events

include h hmem hfd hchannels in
theorem exact_settle (hadded : c'.addedToLoop = true ↔ c'.index ≠ .kNew)
    (hdeleted : c'.index = .kDeleted → c'.events.isNone = true) : Exact (settle p c' s) where
  registered q d hq := settle_registered h hfd hchannels hq
  known fd q hq := settle_known h hmem hfd hq
  added q d hq := by
    rcases memory_settle hq with ⟨-, rfl⟩ | ⟨-, hd⟩
    · exact hadded
    · exact h.added q d hd
  interest fd q events := by
    by_cases hqp : q = p
    · subst hqp
      rw [settle_interest_self h hmem hfd]
      simp [settle]
    · rw [settle_interest_other h hfd hchannels hqp]
      simp [settle, Function.update_of_ne hqp]
  deleted q d hq := by
    rcases memory_settle hq with ⟨-, rfl⟩ | ⟨-, hd⟩
    · exact hdeleted
    · exact h.deleted q d hd
  failedDeletes := h.failedDeletes

end Settle

theorem exact_store (h : Exact s) (hnone : ∀ fd, s.channels fd ≠ some p) (x : Option Channel)
    (hx : ∀ c, x = some c → c.index = .kNew ∧ c.addedToLoop = false) : Exact (s.store p x) := by
  refine ⟨?_, ?_, ?_, ?_, ?_, h.failedDeletes⟩
  · intro q d hq
    by_cases hqp : q = p
    · subst hqp
      simp only [Loop.store, Function.update_self] at hq ⊢
      exact iff_of_false (hnone _) (by simp [(hx d hq).1])
    · simp only [Loop.store, Function.update_of_ne hqp] at hq ⊢
      exact h.registered q d hq
  · intro fd q hq
    have hqp : q ≠ p := by
      rintro rfl
      exact hnone fd hq
    obtain ⟨d, hd, hdfd⟩ := h.known fd q hq
    exact ⟨d, by simpa [Loop.store, Function.update_of_ne hqp] using hd, hdfd⟩
  · intro q d hq
    by_cases hqp : q = p
    · subst hqp
      simp only [Loop.store, Function.update_self] at hq
      simp [(hx d hq).1, (hx d hq).2]
    · simp only [Loop.store, Function.update_of_ne hqp] at hq
      exact h.added q d hq
  · intro fd q events
    by_cases hqp : q = p
    · subst hqp
      simp only [Loop.store, Function.update_self]
      refine iff_of_false ?_ ?_
      · rw [h.interest]
        rintro ⟨d, hd, hdfd, hindex, -⟩
        exact hnone _ ((h.registered q d hd).mpr (by rw [hindex]; decide))
      · rintro ⟨d, hd, -, hindex, -⟩
        rw [(hx d hd).1] at hindex
        cases hindex
    · simp only [Loop.store, Function.update_of_ne hqp]
      exact h.interest fd q events
  · intro q d hq
    by_cases hqp : q = p
    · subst hqp
      simp only [Loop.store, Function.update_self] at hq
      simp [(hx d hq).1]
    · simp only [Loop.store, Function.update_of_ne hqp] at hq
      exact h.deleted q d hq

theorem exact_setRevents (h : Exact s) (active : List (Pointer × Revents)) : Exact (s.setRevents active) := by
  obtain ⟨hchannels, hpoller, -⟩ := setRevents_frame active s
  refine ⟨?_, ?_, ?_, ?_, ?_, hpoller ▸ h.failedDeletes⟩
  · intro q d hq
    obtain ⟨c, hc, rfl⟩ := memory_of_setRevents hq
    rw [hchannels]
    exact h.registered q c hc
  · intro fd q hq
    rw [hchannels] at hq
    obtain ⟨c, hc, hfd⟩ := h.known fd q hq
    exact ⟨_, setRevents_memory_of_some active hc, hfd⟩
  · intro q d hq
    obtain ⟨c, hc, rfl⟩ := memory_of_setRevents hq
    exact h.added q c hc
  · intro fd q events
    rw [hpoller, h.interest]
    constructor
    · rintro ⟨c, hc, hrest⟩
      exact ⟨_, setRevents_memory_of_some active hc, hrest⟩
    · rintro ⟨d, hd, hrest⟩
      obtain ⟨c, hc, rfl⟩ := memory_of_setRevents hd
      exact ⟨c, hc, hrest⟩
  · intro q d hq
    obtain ⟨c, hc, rfl⟩ := memory_of_setRevents hq
    exact h.deleted q c hc

theorem nextIndex_ne_kNew (index : ChannelIndex) (events : Events) : nextIndex index events ≠ .kNew := by
  cases index with
  | kNew => exact nofun
  | kDeleted => exact nofun
  | kAdded =>
      simp only [nextIndex]
      split_ifs <;> decide

theorem nextIndex_kDeleted {index : ChannelIndex} {events : Events} (h : nextIndex index events = .kDeleted) :
    events.isNone = true := by
  cases index with
  | kNew => cases h
  | kDeleted => cases h
  | kAdded =>
      simp only [nextIndex] at h
      split_ifs at h with hnone
      exact hnone

/-- The channels `changed` and `removed` concern are registered under their descriptor, or nothing is. -/
theorem Exact.channels_of_index (h : Exact s) (hmem : s.memory p = some c)
    (hfree : c.index = .kNew → s.channels c.fd = none) : s.channels c.fd = none ∨ s.channels c.fd = some p := by
  by_cases hnew : c.index = .kNew
  · exact .inl (hfree hnew)
  · exact .inr ((h.registered p c hmem).mpr hnew)

theorem exact_step (h : Exact s) (hstep : step virtual s i = .ok s') : Exact s' := by
  cases step_outcome hstep with
  | @constructed p fd hfree =>
      refine exact_store h ?_ _ ?_
      · intro fd' hp
        obtain ⟨c, hc, -⟩ := h.known fd' p hp
        rw [hfree] at hc
        cases hc
      · rintro c ⟨⟩
        exact ⟨rfl, rfl⟩
  | @destructed p c hmem hhandles hadded hhas =>
      refine exact_store h ?_ none ?_
      · intro fd hp
        obtain ⟨d, hd, rfl⟩ := h.known fd p hp
        rw [hmem] at hd
        cases hd
        simp [Loop.hasChannel, hp] at hhas
      · intro d hd
        cases hd
  | @changed p what c s' hmem hupdate =>
      have heq := (updateChannel_eq h hmem (what.apply c.events) rfl).symm.trans hupdate
      split_ifs at heq with hfail
      cases heq
      refine exact_settle h hmem rfl (h.channels_of_index hmem ?_) ?_ nextIndex_kDeleted
      · intro hnew
        by_contra hne
        exact hfail ⟨hnew, hne⟩
      · exact iff_of_true rfl (nextIndex_ne_kNew _ _)
  | @removed p c s' hmem hnone hactive hremove =>
      have heq := (removeChannel_eq h hmem rfl).symm.trans hremove
      split_ifs at heq with hhas
      cases heq
      refine exact_settle h hmem rfl (.inr hhas) (by simp) ?_
      intro hindex
      cases hindex
  | nothingActive hidle hpoll =>
      exact ⟨h.registered, h.known, h.added, h.interest, h.deleted, h.failedDeletes⟩
  | @polled ready order p revents rest hidle hpoll =>
      have hset := exact_setRevents h ((p, revents) :: rest)
      exact ⟨hset.registered, hset.known, hset.added, hset.interest, hset.deleted, hset.failedDeletes⟩
  | ended hhandling => exact ⟨h.registered, h.known, h.added, h.interest, h.deleted, h.failedDeletes⟩
  | advanced hhandling hmem => exact ⟨h.registered, h.known, h.added, h.interest, h.deleted, h.failedDeletes⟩

/-! ### What `poll` returns -/

/-- What `epoll_wait` says of a descriptor it reports. -/
def report (ready : Nat → Revents) (s : Loop) (fd : Nat) : Option (Pointer × Revents) :=
  (s.poller.interest fd).map fun entry => (entry.1, (ready fd).mask entry.2)

/-- The asserts of `fillActiveChannels` hold of whatever the kernel reports. -/
theorem fillActiveChannels_eq (h : Exact s) {ready : Nat → Revents} {order : List Nat}
    (hall : order.all (reportable ready s) = true) :
    fillActiveChannels ready s order = .ok (order.filterMap (report ready s)) := by
  induction order with
  | nil => rfl
  | cons fd rest ih =>
      rw [List.all_cons, Bool.and_eq_true] at hall
      obtain ⟨hfirst, hrest⟩ := hall
      cases hentry : s.poller.interest fd with
      | none => simp [reportable, hentry] at hfirst
      | some entry =>
          obtain ⟨q, events⟩ := entry
          obtain ⟨c, hmem, hfd, hindex, -⟩ := (h.interest fd q events).mp hentry
          have hhas : s.channels c.fd = some q := (h.registered q c hmem).mpr (by rw [hindex]; decide)
          simp [fillActiveChannels, hentry, hmem, hhas, ih hrest, report]

theorem poll_reports (h : Exact s) {ready : Nat → Revents} {order : List Nat} {active : List (Pointer × Revents)}
    (hpoll : poll ready order s = .ok active) :
    (active.map Prod.fst).Nodup ∧ ∀ x ∈ active, Registered s x.1 := by
  rw [poll] at hpoll
  split_ifs at hpoll with hcond
  rw [fillActiveChannels_eq h hcond.2] at hpoll
  cases hpoll
  constructor
  · rw [List.map_filterMap]
    refine List.Nodup.filterMap ?_ hcond.1
    -- A channel is in the interest list under one descriptor only, its own.
    intro fd fd' q hq hq'
    simp only [report, Option.map_map, Option.mem_def, Option.map_eq_some_iff] at hq hq'
    obtain ⟨⟨_, events⟩, hentry, rfl⟩ := hq
    obtain ⟨⟨_, events'⟩, hentry', heq⟩ := hq'
    obtain ⟨c, hc, hfd, -⟩ := (h.interest _ _ _).mp hentry
    obtain ⟨d, hd, hfd', -⟩ := (h.interest _ _ _).mp hentry'
    simp only [Function.comp_apply] at hc heq
    rw [heq, hc] at hd
    cases hd
    exact hfd.symm.trans hfd'
  · intro x hx
    obtain ⟨fd, -, hfd⟩ := List.mem_filterMap.mp hx
    simp only [report, Option.map_eq_some_iff] at hfd
    obtain ⟨⟨q, events⟩, hentry, rfl⟩ := hfd
    obtain ⟨c, hc, -, hindex, -⟩ := (h.interest _ _ _).mp hentry
    exact ⟨c, hc, (h.registered q c hc).mpr (by rw [hindex]; decide)⟩

theorem keeps_settle (hmem : s.memory p = some c) (hfd : c'.fd = c.fd)
    (hchannels : s.channels c.fd = none ∨ s.channels c.fd = some p) (x : Option Pointer)
    (hx : some p ≠ x → c'.index ≠ .kNew) : Keeps x s (settle p c' s) := by
  refine ⟨rfl, rfl, ?_, ?_⟩
  · rintro q hq ⟨d, hd, hreg⟩
    by_cases hqp : q = p
    · subst hqp
      exact ⟨c', by simp [settle], by simp [settle, hx hq]⟩
    · refine ⟨d, by simpa [settle, Function.update_of_ne hqp] using hd, ?_⟩
      have hne : d.fd ≠ c'.fd := by
        intro heq
        rw [heq, hfd] at hreg
        rcases hchannels with hnone | hp
        · rw [hnone] at hreg
          cases hreg
        · rw [hp] at hreg
          exact hqp (Option.some.inj hreg).symm
      simpa [settle, Function.update_of_ne hne] using hreg
  · intro q hq
    by_cases hqp : q = p
    · simp [settle, hqp]
    · simpa [settle, Function.update_of_ne hqp] using hq

theorem exact_new : Exact new :=
  ⟨nofun, nofun, nofun, fun _ _ _ => iff_of_false nofun (fun ⟨_, h, _⟩ => nomatch h), nofun, rfl⟩

theorem lawful : Lawful virtual Exact where
  new := exact_new
  step := fun _ _ _ => exact_step
  change := by
    intro s p what s' h hstep
    cases step_outcome hstep with
    | @changed _ _ c _ hmem hupdate =>
        have heq := (updateChannel_eq h hmem (what.apply c.events) rfl).symm.trans hupdate
        split_ifs at heq with hfail
        cases heq
        refine keeps_settle hmem ?_ (h.channels_of_index hmem ?_) none ?_
        · rfl
        · intro hnew
          by_contra hne
          exact hfail ⟨hnew, hne⟩
        · exact fun _ => nextIndex_ne_kNew _ _
  remove := by
    intro s p s' h hstep
    cases step_outcome hstep with
    | @removed _ c _ hmem hnone hactive hremove =>
        have heq := (removeChannel_eq h hmem rfl).symm.trans hremove
        split_ifs at heq with hhas
        cases heq
        refine keeps_settle hmem ?_ (.inr hhas) (some p) (fun hne => absurd rfl hne)
        rfl
  poll := fun _ _ _ _ h hpoll => poll_reports h hpoll

/-! ### Whole runs -/

structure Sound (s : Loop) : Prop where
  exact_list : Exact s
  handleable : Handleable s

theorem sound_new : Sound new := ⟨exact_new, nofun⟩

theorem sound_step (h : Sound s) (hstep : step virtual s i = .ok s') : Sound s' :=
  ⟨exact_step h.exact_list hstep, handleable_step lawful h.exact_list h.handleable hstep⟩

theorem sound_run (hrun : Run inputs s) : Sound s := run_invariant (fun _ _ _ => sound_step) sound_new hrun

/-- The ends of a run that the code which uses the channels brings about: two channels for one descriptor, a channel
removed with interest or without being registered, a channel removed while the loop has still to come to it or has just
passed it, a channel deleted while it is being handled or registered. -/
def callersFault : Halt → Bool
  | .notEnabled => true
  | .assertFailed .descriptorFree => true
  | .assertFailed .noneEvent => true
  | .assertFailed .channelRegistered => true
  | .assertFailed .notActive => true
  | .assertFailed .notHandled => true
  | .assertFailed .notAdded => true
  | _ => false

theorem step_error {e : Halt} (hsound : Sound s) (hstep : step virtual s i = .error e) : callersFault e = true := by
  have h := hsound.exact_list
  cases step_failure hstep with
  | notEnabled => rfl
  | handled => rfl
  | added => rfl
  | @inPoller p c hmem hadded hhas =>
      -- A registered channel is added to the loop.
      have hindex := (h.registered p c hmem).mp (by simpa [Loop.hasChannel] using hhas)
      rw [(h.added p c hmem).mpr hindex] at hadded
      cases hadded
  | interested => rfl
  | active => rfl
  | @updateChannel p what c e hmem hupdate =>
      have heq := (updateChannel_eq h hmem (what.apply c.events) rfl).symm.trans hupdate
      split_ifs at heq
      cases heq
      rfl
  | removeChannel hmem hremove =>
      have heq := (removeChannel_eq h hmem rfl).symm.trans hremove
      split_ifs at heq
      cases heq
      rfl
  | @poll ready order e hpoll =>
      have hfail : poll ready order s = .error e := hpoll
      rw [poll] at hfail
      split_ifs at hfail with hcond
      · rw [fillActiveChannels_eq h hcond.2] at hfail
        cases hfail
      · cases hfail
        rfl
  | gone hhandling hmem => exact (hsound.handleable.not_gone hhandling hmem).elim

/-- **The interest list is exact.** Whatever channels are created, changed, removed and deleted, also while the loop
handles the ones that are active: the kernel watches a descriptor exactly for the channel that is added with it, for
its present events; `epoll_ctl` is never refused, no assert of the poller fails but for a mistake of its caller, and
the loop does not come to a channel that is deleted. -/
theorem interest_list_exact (inputs : List Input) :
    (∀ s, Run inputs s → s.poller.failedDeletes = 0 ∧ ∀ fd p events, s.poller.interest fd = some (p, events) ↔
      ∃ c, s.memory p = some c ∧ c.fd = fd ∧ c.index = .kAdded ∧ c.events = events) ∧
    ∀ e, run (step virtual) new inputs = .error e → callersFault e = true := by
  refine ⟨fun s hrun => ?_, fun e herror => ?_⟩
  · have h := (sound_run hrun).exact_list
    exact ⟨h.failedDeletes, h.interest⟩
  · by_contra hfault
    have hall : Along (step virtual) (fun _ _ => True) new inputs := along_of_forall (fun _ _ => trivial) _ _
    refine run_ne_error_along Sound (fun _ _ _ h _ hstep => sound_step h hstep) ?_ sound_new hall herror
    intro s i h _ hstep
    exact hfault (step_error h hstep)

/-- The loop handles two channels; the first one's callback takes the interest of the second one away, and the second
one removes itself. -/
theorem interest_list_exact_removedWhileHandled :
    ∃ s, Run [.construct 64 5, .change 64 .enableReading, .construct 128 6, .change 128 .enableReading,
        .poll (fun _ => ⟨true, false, false⟩) [6, 5], .change 64 .disableAll, .next, .remove 64, .next,
        .destruct 64] s ∧
      s.poller.interest 6 = some (128, ⟨true, false⟩) ∧ ∀ events, s.poller.interest 5 ≠ some (64, events) := by
  have hruns : ∃ s, Run [.construct 64 5, .change 64 .enableReading, .construct 128 6, .change 128 .enableReading,
      .poll (fun _ => ⟨true, false, false⟩) [6, 5], .change 64 .disableAll, .next, .remove 64, .next,
      .destruct 64] s ∧ s.memory 64 = none ∧
      s.memory 128 = some ⟨6, ⟨true, false⟩, ⟨true, false, false⟩, .kAdded, true⟩ := ⟨_, rfl, rfl, rfl⟩
  obtain ⟨s, hrun, hgone, hmem⟩ := hruns
  have hexact := ((interest_list_exact _).1 s hrun).2
  refine ⟨s, hrun, (hexact _ _ _).mpr ⟨_, hmem, rfl, rfl, rfl⟩, ?_⟩
  intro events hentry
  obtain ⟨c, hc, -⟩ := (hexact _ _ _).mp hentry
  rw [hgone] at hc
  cases hc

end EPollPoller
end Poller
end Realtinet
