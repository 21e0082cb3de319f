import Mathlib.Data.List.Nodup
import Realtinet.Poller

/-! `PollPoller`, which `Poller::newDefaultPoller` returns. `index_` of a channel is its place in `pollfds_`; a channel
without interest keeps its place with a negative descriptor, which `poll` passes over; a removed one is replaced by the
last. Unlike `EPollPoller::removeChannel`, `PollPoller::removeChannel` leaves `index_` as it is. -/

namespace Realtinet

open TransitionSystem

namespace Poller
namespace PollPoller

structure Pollfd where
  fd : Int
  events : Events
  deriving DecidableEq, Repr

abbrev Loop := Poller.Loop Int (List Pollfd)

abbrev Channel := Poller.Channel Int

/-- What stands in `pollfds_` for a descriptor that `poll` is to pass over. -/
def ignored (fd : Nat) : Int := -(fd : Int) - 1

/-- The descriptor, ignored or not. -/
def Pollfd.descriptor (pfd : Pollfd) : Nat := if pfd.fd < 0 then (-pfd.fd - 1).toNat else pfd.fd.toNat

/-- `pollfds_[index]`, unless the index is out of range. -/
def pollfdAt (index : Int) (s : Loop) : Option Pollfd := if 0 ≤ index then s.poller[index.toNat]? else none

def updateChannel (p : Pointer) (c : Channel) (s : Loop) : Except Halt Loop :=
  if c.index < 0 then
    if s.channels c.fd = none then
      .ok { (s.register c.fd (some p)).store p (some { c with index := (s.poller.length : Int) }) with
        poller := s.poller ++ [⟨c.fd, c.events⟩] }
    else .error (.assertFailed .descriptorFree)
  else if s.channels c.fd = some p then
    match pollfdAt c.index s with
    | none => .error (.assertFailed .indexInRange)
    | some pfd =>
        if pfd.fd = c.fd ∨ pfd.fd = ignored c.fd then
          .ok { s with
            poller := s.poller.set c.index.toNat ⟨if c.events.isNone then ignored c.fd else c.fd, c.events⟩ }
        else .error (.assertFailed .pollfdMatches)
  else .error (.assertFailed .channelKnown)

/-- The entry at `index` is dropped; the last one takes its place, and its channel is told so. -/
def swapRemove (index : Int) (s : Loop) : Except Halt Loop :=
  if index.toNat + 1 = s.poller.length then .ok { s with poller := s.poller.dropLast }
  else
    match s.poller.getLast? with
    | none => .error (.assertFailed .indexInRange)
    | some last =>
        match s.channels last.descriptor with
        | none => .error .dangling
        | some q =>
            match s.memory q with
            | none => .error .dangling
            | some d =>
                .ok { s.store q (some { d with index := index }) with
                  poller := (s.poller.set index.toNat last).dropLast }

def removeChannel (p : Pointer) (c : Channel) (s : Loop) : Except Halt Loop :=
  if s.channels c.fd = some p then
    match pollfdAt c.index s with
    | none => .error (.assertFailed .indexInRange)
    | some pfd =>
        if pfd.fd = ignored c.fd then
          if pfd.events = c.events then swapRemove c.index (s.register c.fd none)
          else .error (.assertFailed .eventsMatch)
        else .error (.assertFailed .pollfdIgnored)
  else .error (.assertFailed .channelRegistered)

/-- What `poll` leaves in `revents`. -/
def Pollfd.revents (ready : Nat → Revents) (pfd : Pollfd) : Revents :=
  if pfd.fd < 0 then .none else (ready pfd.fd.toNat).mask pfd.events

/-- `fillActiveChannels`, which stops when it has found `numEvents`. -/
def fillActiveChannels (ready : Nat → Revents) (s : Loop) :
    Nat → List Pollfd → Except Halt (List (Pointer × Revents))
  | 0, _ => .ok []
  | _ + 1, [] => .ok []
  | n + 1, pfd :: rest =>
      if (pfd.revents ready).any then
        match s.channels pfd.fd.toNat with
        | none => .error (.assertFailed .reportedKnown)
        | some p =>
            match s.memory p with
            | none => .error .dangling
            | some c =>
                if (c.fd : Int) = pfd.fd then
                  match fillActiveChannels ready s n rest with
                  | .ok active => .ok ((p, pfd.revents ready) :: active)
                  | .error e => .error e
                else .error (.assertFailed .pollfdMatches)
      else fillActiveChannels ready s (n + 1) rest

/-- `poll(2)` returns the number of entries with something to report; it has no order of its own. -/
def poll (ready : Nat → Revents) (_order : List Nat) (s : Loop) : Except Halt (List (Pointer × Revents)) :=
  fillActiveChannels ready s (s.poller.countP fun pfd => (pfd.revents ready).any) s.poller

def virtual : Virtual Int (List Pollfd) where
  index := -1
  empty := []
  updateChannel := updateChannel
  removeChannel := removeChannel
  poll := poll

def new : Loop := Poller.Loop.new virtual

/-- The loops some run leads to. -/
def Run (inputs : List Input) (s : Loop) : Prop := run (step virtual) new inputs = .ok s

/-- The entry of a channel: its events, and its descriptor, which may be ignored only without interest. -/
structure EntryOf (c : Channel) (pfd : Pollfd) : Prop where
  descriptor : pfd.descriptor = c.fd
  events : pfd.events = c.events
  ignored : pfd.fd < 0 → c.events.isNone = true

/-- Every registered channel has an entry at its index, and every entry a registered channel. -/
structure Placed (s : Loop) : Prop where
  known : ∀ fd p, s.channels fd = some p → ∃ c, s.memory p = some c ∧ c.fd = fd
  added : ∀ p c, s.memory p = some c → (c.addedToLoop = true ↔ s.channels c.fd = some p)
  slot : ∀ p c, s.memory p = some c → s.channels c.fd = some p →
    ∃ (n : Nat) (pfd : Pollfd), c.index = n ∧ s.poller[n]? = some pfd ∧ EntryOf c pfd
  owner : ∀ (n : Nat) pfd, s.poller[n]? = some pfd →
    ∃ p c, s.memory p = some c ∧ s.channels c.fd = some p ∧ c.index = n

variable {s s' : Loop} {i : Input} {p q : Pointer} {c c' d : Channel} {pfd : Pollfd} {n : Nat} {inputs : List Input}

theorem descriptor_eq_iff (pfd : Pollfd) (fd : Nat) :
    pfd.descriptor = fd ↔ pfd.fd = fd ∨ pfd.fd = ignored fd := by
  simp only [Pollfd.descriptor, ignored]
  split_ifs with hneg
  · omega
  · omega

@[simp] theorem descriptor_mk (fd : Nat) (none : Bool) (events : Events) :
    Pollfd.descriptor ⟨if none then ignored fd else fd, events⟩ = fd := by
  rw [descriptor_eq_iff]
  cases none with
  | false => exact .inl rfl
  | true => exact .inr rfl

/-- Registered channels with one index are one. -/
theorem Placed.index_injective (h : Placed s) (hp : s.memory p = some c) (hregp : s.channels c.fd = some p)
    (hq : s.memory q = some d) (hregq : s.channels d.fd = some q) (hindex : c.index = d.index) : p = q := by
  obtain ⟨n, pfd, hn, hpfd, hentry⟩ := h.slot p c hp hregp
  obtain ⟨m, pfd', hm, hpfd', hentry'⟩ := h.slot q d hq hregq
  obtain rfl : n = m := by omega
  rw [hpfd] at hpfd'
  cases hpfd'
  rw [← hentry.descriptor, hentry'.descriptor, hregq] at hregp
  exact (Option.some.inj hregp).symm

theorem Placed.pollfdAt (h : Placed s) (hp : s.memory p = some c) (hreg : s.channels c.fd = some p) :
    ∃ pfd, PollPoller.pollfdAt c.index s = some pfd ∧ s.poller[c.index.toNat]? = some pfd ∧ EntryOf c pfd := by
  obtain ⟨n, pfd, hn, hpfd, hentry⟩ := h.slot p c hp hreg
  refine ⟨pfd, ?_, ?_, hentry⟩
  · simp [PollPoller.pollfdAt, hn, hpfd]
  · simp [hn, hpfd]

theorem Placed.index_nonneg (h : Placed s) (hp : s.memory p = some c) (hreg : s.channels c.fd = some p) :
    0 ≤ c.index := by
  obtain ⟨n, pfd, hn, -⟩ := h.slot p c hp hreg
  omega

/-! ### What an update of a channel leaves -/

/-- A new channel is appended to `pollfds_`. -/
def append (p : Pointer) (c : Channel) (s : Loop) : Loop :=
  { s with
    memory := Function.update s.memory p (some { c with index := (s.poller.length : Int) })
    channels := Function.update s.channels c.fd (some p)
    poller := s.poller ++ [⟨c.fd, c.events⟩] }

/-- The entry of a registered channel is overwritten. -/
def overwrite (p : Pointer) (c : Channel) (s : Loop) : Loop :=
  { s with
    memory := Function.update s.memory p (some c)
    poller := s.poller.set c.index.toNat ⟨if c.events.isNone then ignored c.fd else c.fd, c.events⟩ }

theorem updateChannel_eq (h : Placed s) (hmem : s.memory p = some c) (events : Events)
    (hc : c' = { c with events := events, addedToLoop := true }) :
    updateChannel p c' (s.store p (some c')) =
      if c.index < 0 then
        if s.channels c.fd = none then .ok (append p c' s) else .error (.assertFailed .descriptorFree)
      else if s.channels c.fd = some p then .ok (overwrite p c' s) else .error (.assertFailed .channelKnown) := by
  subst hc
  by_cases hneg : c.index < 0
  · by_cases hfree : s.channels c.fd = none
    · simp [updateChannel, hneg, hfree, Loop.store, Loop.register, append]
    · simp [updateChannel, hneg, hfree, Loop.store]
  · by_cases hreg : s.channels c.fd = some p
    · obtain ⟨pfd, hat, -, hentry⟩ := h.pollfdAt hmem hreg
      have hmatch := (descriptor_eq_iff pfd c.fd).mp hentry.descriptor
      have hat' : pollfdAt c.index (s.store p (some { c with events := events, addedToLoop := true })) = some pfd := hat
      simp only [updateChannel, hneg, if_false, Loop.store, hreg, if_true, overwrite]
      rw [Loop.store] at hat'
      rw [hat']
      simp only [hmatch, if_true]
    · simp [updateChannel, hneg, hreg, Loop.store]

theorem placed_append (h : Placed s) (hmem : s.memory p = some c)
    (hfree : s.channels c.fd = none) (hfd : c'.fd = c.fd) (hadded : c'.addedToLoop = true) :
    Placed (append p c' s) := by
  -- A registered channel is another one, with another descriptor, and has its entry already.
  have hother : ∀ q d, s.memory q = some d → s.channels d.fd = some q → q ≠ p ∧ d.fd ≠ c'.fd := by
    intro q d hq hreg
    have hne : d.fd ≠ c'.fd := by
      intro heq
      rw [heq, hfd, hfree] at hreg
      cases hreg
    refine ⟨?_, hne⟩
    rintro rfl
    rw [hmem] at hq
    cases hq
    exact hne hfd.symm
  refine ⟨?_, ?_, ?_, ?_⟩
  · intro fd q hq
    by_cases heq : fd = c'.fd
    · subst heq
      simp only [append, Function.update_self, Option.some.injEq] at hq
      subst hq
      exact ⟨{ c' with index := (s.poller.length : Int) }, by simp [append], rfl⟩
    · simp only [append, Function.update_of_ne heq] at hq
      obtain ⟨d, hd, rfl⟩ := h.known fd q hq
      have hqp := (hother q d hd hq).1
      exact ⟨d, by simpa [append, Function.update_of_ne hqp] using hd, rfl⟩
  · intro q d hq
    by_cases hqp : q = p
    · subst hqp
      simp only [append, Function.update_self, Option.some.injEq] at hq ⊢
      subst hq
      simp [hadded]
    · simp only [append, Function.update_of_ne hqp] at hq ⊢
      rw [h.added q d hq]
      by_cases heq : d.fd = c'.fd
      · rw [heq, Function.update_self, hfd, hfree]
        simp [Ne.symm hqp]
      · rw [Function.update_of_ne heq]
  · intro q d hq hreg
    by_cases hqp : q = p
    · subst hqp
      simp only [append, Function.update_self, Option.some.injEq] at hq ⊢
      subst hq
      refine ⟨s.poller.length, ⟨c'.fd, c'.events⟩, rfl, by simp, ?_, rfl, ?_⟩
      · rw [descriptor_eq_iff]
        exact .inl rfl
      · intro hlt
        simp only at hlt
        omega
    · simp only [append, Function.update_of_ne hqp] at hq hreg ⊢
      by_cases heq : d.fd = c'.fd
      · rw [heq, Function.update_self] at hreg
        exact absurd (Option.some.inj hreg).symm hqp
      · rw [Function.update_of_ne heq] at hreg
        obtain ⟨n, pfd, hn, hpfd, hentry⟩ := h.slot q d hq hreg
        have hlt : n < s.poller.length := (List.getElem?_eq_some_iff.mp hpfd).1
        exact ⟨n, pfd, hn, by rw [List.getElem?_append_left hlt]; exact hpfd, hentry⟩
  · intro n pfd hpfd
    simp only [append] at hpfd
    by_cases hlt : n < s.poller.length
    · rw [List.getElem?_append_left hlt] at hpfd
      obtain ⟨q, d, hq, hreg, hn⟩ := h.owner n pfd hpfd
      obtain ⟨hqp, hne⟩ := hother q d hq hreg
      refine ⟨q, d, ?_, ?_, hn⟩
      · simpa [append, Function.update_of_ne hqp] using hq
      · simpa [append, Function.update_of_ne hne] using hreg
    · have hn : n = s.poller.length := by
        have := (List.getElem?_eq_some_iff.mp hpfd).1
        rw [List.length_append, List.length_singleton] at this
        omega
      exact ⟨p, { c' with index := (s.poller.length : Int) }, by simp [append], by simp [append], by simp [hn]⟩

theorem placed_overwrite (h : Placed s) (hmem : s.memory p = some c) (hreg : s.channels c.fd = some p)
    (hfd : c'.fd = c.fd) (hindex : c'.index = c.index) (hadded : c'.addedToLoop = true) :
    Placed (overwrite p c' s) := by
  obtain ⟨m, old, hm, hold, -⟩ := h.slot p c hmem hreg
  have hm' : c'.index.toNat = m := by omega
  have hlt : m < s.poller.length := (List.getElem?_eq_some_iff.mp hold).1
  refine ⟨?_, ?_, ?_, ?_⟩
  · intro fd q hq
    obtain ⟨d, hd, rfl⟩ := h.known fd q hq
    by_cases hqp : q = p
    · subst hqp
      rw [hmem] at hd
      cases hd
      exact ⟨c', by simp [overwrite], hfd⟩
    · exact ⟨d, by simpa [overwrite, Function.update_of_ne hqp] using hd, rfl⟩
  · intro q d hq
    by_cases hqp : q = p
    · subst hqp
      simp only [overwrite, Function.update_self, Option.some.injEq] at hq ⊢
      subst hq
      simp [hadded, hfd, hreg]
    · simp only [overwrite, Function.update_of_ne hqp] at hq ⊢
      exact h.added q d hq
  · intro q d hq hreg'
    by_cases hqp : q = p
    · subst hqp
      simp only [overwrite, Function.update_self, Option.some.injEq] at hq ⊢
      subst hq
      refine ⟨m, ⟨if c'.events.isNone then ignored c'.fd else c'.fd, c'.events⟩, by omega, ?_, descriptor_mk _ _ _, rfl,
        ?_⟩
      · rw [hm', List.getElem?_set_self hlt]
      · intro hneg
        by_contra hnone
        simp only [Bool.not_eq_true] at hnone
        simp only [hnone, Bool.false_eq_true, if_false] at hneg
        omega
    · simp only [overwrite, Function.update_of_ne hqp] at hq hreg' ⊢
      obtain ⟨n, pfd, hn, hpfd, hentry⟩ := h.slot q d hq hreg'
      have hne : m ≠ n := by
        rintro rfl
        exact hqp (h.index_injective hq hreg' hmem hreg (hn.trans hm.symm))
      exact ⟨n, pfd, hn, by rw [hm', List.getElem?_set_ne hne]; exact hpfd, hentry⟩
  · intro n pfd hpfd
    by_cases hnm : n = m
    · subst hnm
      exact ⟨p, c', by simp [overwrite], by simpa [overwrite, hfd] using hreg, hindex.trans hm⟩
    · simp only [overwrite, hm', List.getElem?_set_ne (Ne.symm hnm)] at hpfd
      obtain ⟨q, d, hq, hregq, hn⟩ := h.owner n pfd hpfd
      have hqp : q ≠ p := by
        rintro rfl
        rw [hmem] at hq
        cases hq
        omega
      exact ⟨q, d, by simpa [overwrite, Function.update_of_ne hqp] using hq, hregq, hn⟩

/-! ### What a removal leaves -/

/-- The channel at `p`, now `c`, is not registered any more; the others keep their entries, at whatever index. -/
structure Dropped (p : Pointer) (c : Channel) (s s' : Loop) : Prop where
  placed : Placed s'
  handling : s'.handling = s.handling
  activeChannels : s'.activeChannels = s.activeChannels
  channels : s'.channels = Function.update s.channels c.fd none
  self : s'.memory p = some c
  others : ∀ q, q ≠ p → s'.memory q = s.memory q ∨
    ∃ d index, s.memory q = some d ∧ s.channels d.fd = some q ∧ s'.memory q = some { d with index := index }
  entries : ∀ q d d', q ≠ p → s.memory q = some d → s.channels d.fd = some q → s'.memory q = some d' →
    pollfdAt d'.index s' = pollfdAt d.index s

/-- What removals have in common: the channel at `p` has become `c'`, which is not registered; each channel that stays
registered has the entry it had, the one at `n` in `place n`; and no entry is left without a channel. -/
structure Reindexed (place : Nat → Nat) (p : Pointer) (c c' : Channel) (s s' : Loop) : Prop where
  fd : c'.fd = c.fd
  notAdded : c'.addedToLoop = false
  self : s'.memory p = some c'
  channels : s'.channels = Function.update s.channels c'.fd none
  handling : s'.handling = s.handling
  activeChannels : s'.activeChannels = s.activeChannels
  unregistered : ∀ q, q ≠ p → (∀ d, s.memory q = some d → s.channels d.fd ≠ some q) → s'.memory q = s.memory q
  moved : ∀ q d, q ≠ p → s.memory q = some d → s.channels d.fd = some q →
    s'.memory q = some { d with index := (place d.index.toNat : Int) } ∧
      s'.poller[place d.index.toNat]? = s.poller[d.index.toNat]?
  entry : ∀ (n : Nat) pfd, s'.poller[n]? = some pfd → ∃ m : Nat, c.index ≠ m ∧ m < s.poller.length ∧ place m = n

section Reindexed

variable {place : Nat → Nat} (hr : Reindexed place p c c' s s') (h : Placed s) (hmem : s.memory p = some c)
  (hreg : s.channels c.fd = some p)

include hr in
theorem Reindexed.ne_fd {fd : Nat} (hq : s'.channels fd = some q) : fd ≠ c'.fd ∧ s.channels fd = some q := by
  rw [hr.channels] at hq
  have hne : fd ≠ c'.fd := by
    rintro rfl
    rw [Function.update_self] at hq
    cases hq
  exact ⟨hne, by rwa [Function.update_of_ne hne] at hq⟩

include hr hreg in
/-- The others keep their descriptors. -/
theorem Reindexed.channels_of_ne (hqp : q ≠ p) (hregd : s.channels d.fd = some q) : s'.channels d.fd = some q := by
  have hne : d.fd ≠ c'.fd := by
    intro heq
    rw [heq, hr.fd, hreg] at hregd
    exact hqp (Option.some.inj hregd).symm
  rw [hr.channels, Function.update_of_ne hne]
  exact hregd

include hr h in
/-- A channel that is registered now was registered before. -/
theorem Reindexed.before {fd : Nat} (hq : s'.channels fd = some q) :
    ∃ d, s.memory q = some d ∧ s.channels d.fd = some q ∧ d.fd = fd := by
  obtain ⟨-, hchannels⟩ := hr.ne_fd hq
  obtain ⟨d, hd, hdfd⟩ := h.known _ _ hchannels
  exact ⟨d, hd, hdfd ▸ hchannels, hdfd⟩

include hr h hmem in
theorem Reindexed.known {fd : Nat} (hq : s'.channels fd = some q) : ∃ d, s'.memory q = some d ∧ d.fd = fd := by
  obtain ⟨d, hd, hregd, hdfd⟩ := hr.before h hq
  have hqp : q ≠ p := by
    rintro rfl
    rw [hmem] at hd
    cases hd
    exact (hr.ne_fd hq).1 (hdfd.symm.trans hr.fd.symm)
  exact ⟨_, (hr.moved q d hqp hd hregd).1, hdfd⟩

include hr h hreg in
theorem Reindexed.added (hq : s'.memory q = some d) : d.addedToLoop = true ↔ s'.channels d.fd = some q := by
  by_cases hqp : q = p
  · subst hqp
    rw [hr.self] at hq
    cases hq
    simp [hr.notAdded, hr.channels]
  · by_cases hregistered : ∃ e, s.memory q = some e ∧ s.channels e.fd = some q
    · obtain ⟨e, he, hrege⟩ := hregistered
      rw [(hr.moved q e hqp he hrege).1] at hq
      cases hq
      exact iff_of_true ((h.added q e he).mpr hrege) (hr.channels_of_ne hreg hqp hrege)
    · rw [hr.unregistered q hqp (fun e he hrege => hregistered ⟨e, he, hrege⟩)] at hq
      refine iff_of_false ?_ ?_
      · rw [h.added q d hq]
        exact fun hregd => hregistered ⟨d, hq, hregd⟩
      · intro hregd
        obtain ⟨e, he, hrege, -⟩ := hr.before h hregd
        exact hregistered ⟨e, he, hrege⟩

include hr h in
theorem Reindexed.slot (hq : s'.memory q = some d) (hregd : s'.channels d.fd = some q) :
    ∃ (n : Nat) (pfd : Pollfd), d.index = n ∧ s'.poller[n]? = some pfd ∧ EntryOf d pfd := by
  have hqp : q ≠ p := by
    rintro rfl
    rw [hr.self] at hq
    cases hq
    exact (hr.ne_fd hregd).1 rfl
  obtain ⟨e, he, hrege, -⟩ := hr.before h hregd
  obtain ⟨hmoved, hentry'⟩ := hr.moved q e hqp he hrege
  rw [hmoved] at hq
  cases hq
  obtain ⟨n, pfd, hn, hpfd, hentry⟩ := h.slot q e he hrege
  refine ⟨place e.index.toNat, pfd, rfl, ?_, hentry.descriptor, hentry.events, hentry.ignored⟩
  rw [hentry', hn]
  exact hpfd

include hr h hmem hreg in
theorem Reindexed.owner (hpfd : s'.poller[n]? = some pfd) :
    ∃ q d, s'.memory q = some d ∧ s'.channels d.fd = some q ∧ d.index = n := by
  obtain ⟨m, hmc, hlt, rfl⟩ := hr.entry n pfd hpfd
  obtain ⟨q, d, hq, hregq, hdm⟩ := h.owner m _ (List.getElem?_eq_getElem hlt)
  have hqp : q ≠ p := by
    rintro rfl
    rw [hmem] at hq
    cases hq
    exact hmc hdm
  have htoNat : d.index.toNat = m := by omega
  exact ⟨q, _, (hr.moved q d hqp hq hregq).1, hr.channels_of_ne hreg hqp hregq, by simp [htoNat]⟩

include hr h hmem hreg in
theorem dropped_of_reindexed : Dropped p c' s s' := by
  have hplaced : Placed s' := by
    refine ⟨fun fd q => hr.known h hmem, fun q d => hr.added h hreg, fun q d => hr.slot h, ?_⟩
    exact fun n pfd => hr.owner h hmem hreg
  refine ⟨hplaced, hr.handling, hr.activeChannels, hr.channels, hr.self, ?_, ?_⟩
  · intro q hqp
    by_cases hregistered : ∃ d, s.memory q = some d ∧ s.channels d.fd = some q
    · obtain ⟨d, hd, hregd⟩ := hregistered
      exact .inr ⟨d, _, hd, hregd, (hr.moved q d hqp hd hregd).1⟩
    · exact .inl (hr.unregistered q hqp (fun d hd hregd => hregistered ⟨d, hd, hregd⟩))
  · intro q d d' hqp hd hregd hd'
    obtain ⟨hmoved, hentry⟩ := hr.moved q d hqp hd hregd
    rw [hmoved] at hd'
    cases hd'
    simp [pollfdAt, hentry, h.index_nonneg hd hregd]

end Reindexed

theorem withIndex_self {n : Nat} (hn : d.index = n) : { d with index := (n : Int) } = d := by
  rw [← hn]

/-- The entry to be dropped is the last one. -/
theorem reindexed_last (h : Placed s) (hmem : s.memory p = some c) (hreg : s.channels c.fd = some p)
    (hc : c' = { c with addedToLoop := false }) (hlast : c.index.toNat + 1 = s.poller.length) :
    Reindexed id p c c' s
      { (s.store p (some c')).register c'.fd none with poller := s.poller.dropLast } := by
  subst hc
  have hnonneg := h.index_nonneg hmem hreg
  refine ⟨rfl, rfl, by simp [Loop.store, Loop.register], rfl, rfl, rfl, ?_, ?_, ?_⟩
  · intro q hqp _
    simp [Loop.store, Loop.register, Function.update_of_ne hqp]
  · intro q d hqp hd hregq
    obtain ⟨n, pfd, hn, hpfd, -⟩ := h.slot q d hd hregq
    have hlt : n < s.poller.length := (List.getElem?_eq_some_iff.mp hpfd).1
    have hne : n ≠ c.index.toNat := by
      intro heq
      exact hqp (h.index_injective hd hregq hmem hreg (by omega))
    have htoNat : d.index.toNat = n := by omega
    rw [htoNat, id, withIndex_self hn]
    refine ⟨by simpa [Loop.store, Loop.register, Function.update_of_ne hqp] using hd, ?_⟩
    have hlt' : n < s.poller.length - 1 := by omega
    simp [hlt']
  · intro n pfd hpfd
    simp only [List.getElem?_dropLast] at hpfd
    split_ifs at hpfd with hlt
    exact ⟨n, by omega, by omega, rfl⟩

/-- Where the entry at `m` goes when the last one fills the place of the one at `n`. -/
def fillPlace (n last m : Nat) : Nat := if m = last then n else m

/-- Every place but the last one is filled. -/
theorem fillPlace_surjective {last k : Nat} (n : Nat) (hk : k < last) :
    ∃ m, m ≠ n ∧ m ≤ last ∧ fillPlace n last m = k := by
  by_cases hkn : k = n
  · exact ⟨last, by omega, Nat.le_refl _, by simp [fillPlace, hkn]⟩
  · exact ⟨k, hkn, by omega, by simp [fillPlace, Nat.ne_of_lt hk]⟩

/-- The entries of the others after the last one has been moved. -/
theorem getElem?_fillPlace {l : List Pollfd} {last : Pollfd} {m : Nat} (hlast : l[l.length - 1]? = some last)
    (hn : n < l.length - 1) (hm : m < l.length) (hmn : m ≠ n) :
    ((l.set n last).dropLast)[fillPlace n (l.length - 1) m]? = l[m]? := by
  by_cases hmlast : m = l.length - 1
  · simp [fillPlace, hmlast, hlast, hn]
  · have hmlt : m < l.length - 1 := by omega
    simp [fillPlace, hmlast, hmlt, Ne.symm hmn]

/-- The last entry takes the place of the one to be dropped. -/
theorem reindexed_swapped {last : Pollfd} (h : Placed s) (hmem : s.memory p = some c) (hreg : s.channels c.fd = some p)
    (hc : c' = { c with addedToLoop := false }) (hlast : c.index.toNat + 1 ≠ s.poller.length)
    (hpfd : s.poller[s.poller.length - 1]? = some last) (hq : s.memory q = some d) (hregq : s.channels d.fd = some q)
    (hindex : d.index = (s.poller.length - 1 : Nat)) :
    Reindexed (fillPlace c.index.toNat (s.poller.length - 1)) p c c' s
      { ((s.store p (some c')).register c'.fd none).store q (some { d with index := c.index }) with
        poller := (s.poller.set c.index.toNat last).dropLast } := by
  subst hc
  obtain ⟨n, old, hn, hold, -⟩ := h.slot p c hmem hreg
  have hlt : n < s.poller.length := (List.getElem?_eq_some_iff.mp hold).1
  have htoNat : c.index.toNat = n := by omega
  have hqp : q ≠ p := by
    rintro rfl
    rw [hmem] at hq
    cases hq
    omega
  rw [htoNat] at hlast ⊢
  refine ⟨rfl, rfl, ?_, rfl, rfl, rfl, ?_, ?_, ?_⟩
  · simp [Loop.store, Loop.register, Function.update_of_ne (Ne.symm hqp)]
  · intro r hrp hnone
    have hrq : r ≠ q := by
      rintro rfl
      exact hnone d hq hregq
    simp [Loop.store, Loop.register, Function.update_of_ne hrp, Function.update_of_ne hrq]
  · intro r e hrp he hrege
    obtain ⟨m, pfd, hm, hpfd', -⟩ := h.slot r e he hrege
    have hmlt : m < s.poller.length := (List.getElem?_eq_some_iff.mp hpfd').1
    have hmn : m ≠ n := by
      rintro rfl
      exact hrp (h.index_injective he hrege hmem hreg (hm.trans hn.symm))
    have hmtoNat : e.index.toNat = m := by omega
    rw [hmtoNat]
    refine ⟨?_, getElem?_fillPlace hpfd (by omega) hmlt hmn⟩
    by_cases hrq : r = q
    · subst hrq
      rw [hq] at he
      cases he
      have hmlast : m = s.poller.length - 1 := by omega
      simp [Loop.store, fillPlace, hmlast, hn]
    · have hmlast : m ≠ s.poller.length - 1 := by
        intro heq
        exact hrq (h.index_injective he hrege hq hregq (by omega))
      rw [fillPlace, if_neg hmlast, withIndex_self hm]
      simpa [Loop.store, Loop.register, Function.update_of_ne hrp, Function.update_of_ne hrq] using he
  · intro k pfd hk
    simp only [List.getElem?_dropLast, List.length_set] at hk
    split_ifs at hk with hklt
    obtain ⟨m, hmn, hmlast, hmk⟩ := fillPlace_surjective n hklt
    exact ⟨m, by omega, by omega, hmk⟩

/-- `removeChannel` fails on a channel that is not registered, and on one that was registered without interest and
never had any since; otherwise the channel is dropped. -/
theorem removeChannel_cases (h : Placed s) (hmem : s.memory p = some c) (hc : c' = { c with addedToLoop := false }) :
    (s.channels c.fd ≠ some p ∧
      removeChannel p c' (s.store p (some c')) = .error (.assertFailed .channelRegistered)) ∨
    (s.channels c.fd = some p ∧ ∃ pfd, pollfdAt c.index s = some pfd ∧
      ((pfd.fd ≠ ignored c.fd ∧ removeChannel p c' (s.store p (some c')) = .error (.assertFailed .pollfdIgnored)) ∨
      (pfd.fd = ignored c.fd ∧
        ∃ s', removeChannel p c' (s.store p (some c')) = .ok s' ∧ Dropped p c' s s'))) := by
  by_cases hreg : s.channels c.fd = some p
  · refine .inr ⟨hreg, ?_⟩
    obtain ⟨pfd, hat, -, hentry⟩ := h.pollfdAt hmem hreg
    have hat' : pollfdAt c'.index (s.store p (some c')) = some pfd := by
      subst hc
      exact hat
    have hreg' : (s.store p (some c')).channels c'.fd = some p := by
      subst hc
      exact hreg
    have hfd : c'.fd = c.fd := by rw [hc]
    have hevents : pfd.events = c'.events := by
      rw [hc]
      exact hentry.events
    refine ⟨pfd, hat, ?_⟩
    by_cases hignored : pfd.fd = ignored c.fd
    · refine .inr ⟨hignored, ?_⟩
      rw [removeChannel, if_pos hreg', hat']
      simp only [hfd, hignored, hevents, if_true]
      by_cases hlast : c.index.toNat + 1 = s.poller.length
      · refine ⟨_, ?_, dropped_of_reindexed (reindexed_last h hmem hreg hc hlast) h hmem hreg⟩
        subst hc
        simp [swapRemove, Loop.store, Loop.register, hlast]
      · obtain ⟨n, old, hn, hold, -⟩ := h.slot p c hmem hreg
        have hlt : n < s.poller.length := (List.getElem?_eq_some_iff.mp hold).1
        have hlastlt : s.poller.length - 1 < s.poller.length := by omega
        obtain ⟨q, d, hq, hregq, hdindex⟩ := h.owner _ _ (List.getElem?_eq_getElem hlastlt)
        have hreindexed := reindexed_swapped h hmem hreg hc hlast (List.getElem?_eq_getElem hlastlt) hq hregq hdindex
        refine ⟨_, ?_, dropped_of_reindexed hreindexed h hmem hreg⟩
        have hqp : q ≠ p := by
          rintro rfl
          rw [hmem] at hq
          cases hq
          omega
        obtain ⟨m, last, hm, hlastpfd, hlastentry⟩ := h.slot q d hq hregq
        have hml : m = s.poller.length - 1 := by omega
        subst hml
        have hlasteq : s.poller[s.poller.length - 1] = last := by
          rw [List.getElem?_eq_getElem hlastlt] at hlastpfd
          exact Option.some.inj hlastpfd
        have hne : d.fd ≠ c.fd := by
          intro heq
          rw [heq, hreg] at hregq
          exact hqp (Option.some.inj hregq).symm
        subst hc
        simp [swapRemove, Loop.store, Loop.register, hlast, List.getLast?_eq_getElem?, hlastpfd, hlasteq,
          hlastentry.descriptor, Function.update_of_ne hne, hregq, Function.update_of_ne hqp, hq]
    · refine .inl ⟨hignored, ?_⟩
      rw [removeChannel, if_pos hreg', hat']
      simp [hfd, hignored]
  · refine .inl ⟨hreg, ?_⟩
    subst hc
    simp [removeChannel, Loop.store, hreg]

theorem placed_store (h : Placed s) (hnone : ∀ fd, s.channels fd ≠ some p) (x : Option Channel)
    (hx : ∀ c, x = some c → c.addedToLoop = false) : Placed (s.store p x) := by
  have hother : ∀ q fd, s.channels fd = some q → q ≠ p := by
    rintro q fd hq rfl
    exact hnone fd hq
  refine ⟨?_, ?_, ?_, ?_⟩
  · intro fd q hq
    obtain ⟨d, hd, hfd⟩ := h.known fd q hq
    exact ⟨d, by simpa [Loop.store, Function.update_of_ne (hother q fd hq)] using hd, hfd⟩
  · intro q d hq
    by_cases hqp : q = p
    · subst hqp
      simp only [Loop.store, Function.update_self] at hq ⊢
      exact iff_of_false (by simp [hx d hq]) (hnone _)
    · simp only [Loop.store, Function.update_of_ne hqp] at hq ⊢
      exact h.added q d hq
  · intro q d hq hreg
    simp only [Loop.store, Function.update_of_ne (hother q _ hreg)] at hq
    exact h.slot q d hq hreg
  · intro n pfd hpfd
    obtain ⟨q, d, hq, hreg, hn⟩ := h.owner n pfd hpfd
    exact ⟨q, d, by simpa [Loop.store, Function.update_of_ne (hother q _ hreg)] using hq, hreg, hn⟩

theorem placed_setRevents (h : Placed s) (active : List (Pointer × Revents)) : Placed (s.setRevents active) := by
  obtain ⟨hchannels, hpoller, -⟩ := setRevents_frame active s
  refine ⟨?_, ?_, ?_, ?_⟩
  · intro fd q hq
    rw [hchannels] at hq
    obtain ⟨c, hc, hfd⟩ := h.known fd q hq
    exact ⟨_, setRevents_memory_of_some active hc, hfd⟩
  · intro q d hq
    obtain ⟨c, hc, rfl⟩ := memory_of_setRevents hq
    rw [hchannels]
    exact h.added q c hc
  · intro q d hq hreg
    obtain ⟨c, hc, rfl⟩ := memory_of_setRevents hq
    rw [hchannels] at hreg
    obtain ⟨n, pfd, hn, hpfd, hentry⟩ := h.slot q c hc hreg
    exact ⟨n, pfd, hn, hpoller ▸ hpfd, hentry.descriptor, hentry.events, hentry.ignored⟩
  · intro n pfd hpfd
    rw [hpoller] at hpfd
    obtain ⟨q, c, hq, hreg, hn⟩ := h.owner n pfd hpfd
    exact ⟨q, _, setRevents_memory_of_some active hq, by rw [hchannels]; exact hreg, hn⟩

theorem Placed.congr (h : Placed s) (hmemory : s'.memory = s.memory) (hchannels : s'.channels = s.channels)
    (hpoller : s'.poller = s.poller) : Placed s' := by
  refine ⟨?_, ?_, ?_, ?_⟩
  · rw [hmemory, hchannels]
    exact h.known
  · rw [hmemory, hchannels]
    exact h.added
  · rw [hmemory, hchannels, hpoller]
    exact h.slot
  · rw [hmemory, hchannels, hpoller]
    exact h.owner

theorem placed_step (h : Placed s) (hstep : step virtual s i = .ok s') : Placed s' := by
  cases step_outcome hstep with
  | @constructed p fd hfree =>
      refine placed_store h ?_ _ ?_
      · intro fd' hp
        obtain ⟨c, hc, -⟩ := h.known fd' p hp
        rw [hfree] at hc
        cases hc
      · rintro c ⟨⟩
        rfl
  | @destructed p c hmem hhandles hadded hhas =>
      refine placed_store h ?_ _ nofun
      intro fd hp
      obtain ⟨d, hd, rfl⟩ := h.known fd p hp
      rw [hmem] at hd
      cases hd
      simp [Loop.hasChannel, hp] at hhas
  | @changed p what c s' hmem hupdate =>
      have heq := (updateChannel_eq h hmem (what.apply c.events) rfl).symm.trans hupdate
      split_ifs at heq with hneg hfree hreg
      · cases heq
        exact placed_append h hmem hfree rfl rfl
      · cases heq
        exact placed_overwrite h hmem hreg rfl rfl rfl
  | @removed p c s' hmem hnone hactive hremove =>
      rcases removeChannel_cases h hmem rfl with ⟨-, hfail⟩ | ⟨-, pfd, -, ⟨-, hfail⟩ | ⟨-, s₁, hok, hdropped⟩⟩
      · cases hfail.symm.trans hremove
      · cases hfail.symm.trans hremove
      · cases hok.symm.trans hremove
        exact hdropped.placed
  | nothingActive hidle hpoll => exact h.congr rfl rfl rfl
  | @polled ready order p revents rest hidle hpoll =>
      exact (placed_setRevents h ((p, revents) :: rest)).congr rfl rfl rfl
  | ended hhandling => exact h.congr rfl rfl rfl
  | advanced hhandling hmem => exact h.congr rfl rfl rfl

/-! ### What `poll` returns -/

/-- What `fillActiveChannels` makes of an entry. -/
def report (ready : Nat → Revents) (s : Loop) (pfd : Pollfd) : Option (Pointer × Revents) :=
  if (pfd.revents ready).any then (s.channels pfd.descriptor).map fun p => (p, pfd.revents ready) else none

theorem nonneg_of_any {ready : Nat → Revents} (hany : (pfd.revents ready).any = true) : 0 ≤ pfd.fd := by
  by_contra hneg
  rw [Pollfd.revents, if_pos (by omega)] at hany
  cases hany

theorem descriptor_of_nonneg (hfd : 0 ≤ pfd.fd) : pfd.descriptor = pfd.fd.toNat := by
  rw [Pollfd.descriptor, if_neg (by omega)]

/-- The asserts of `fillActiveChannels` hold, and it does not stop early. -/
theorem fillActiveChannels_eq {ready : Nat → Revents} {l : List Pollfd}
    (hl : ∀ pfd ∈ l, ∃ p c, s.channels pfd.descriptor = some p ∧ s.memory p = some c ∧ c.fd = pfd.descriptor) :
    fillActiveChannels ready s (l.countP fun pfd => (pfd.revents ready).any) l = .ok (l.filterMap (report ready s)) := by
  induction l with
  | nil => rfl
  | cons pfd rest ih =>
      have hrest := ih (fun pfd hpfd => hl pfd (List.mem_cons_of_mem _ hpfd))
      by_cases hany : (pfd.revents ready).any = true
      · obtain ⟨p, c, hp, hc, hfd⟩ := hl pfd List.mem_cons_self
        have hnonneg := nonneg_of_any hany
        rw [descriptor_of_nonneg hnonneg] at hp hfd
        have hfd' : (c.fd : Int) = pfd.fd := by omega
        simp [fillActiveChannels, hany, hp, hc, hfd', hrest, report, descriptor_of_nonneg hnonneg]
      · have hcons : ((pfd :: rest).countP fun pfd => (pfd.revents ready).any) =
            rest.countP fun pfd => (pfd.revents ready).any := List.countP_cons_of_neg hany
        rw [hcons, List.filterMap_cons_none (by simp [report, hany])]
        cases hcount : rest.countP fun pfd => (pfd.revents ready).any with
        | zero =>
            rw [hcount] at hrest
            simpa [fillActiveChannels] using hrest
        | succ n =>
            rw [hcount] at hrest
            simpa [fillActiveChannels, hany] using hrest

theorem Placed.owner_of_mem (h : Placed s) (hpfd : pfd ∈ s.poller) :
    ∃ p c, s.channels pfd.descriptor = some p ∧ s.memory p = some c ∧ c.fd = pfd.descriptor := by
  obtain ⟨n, hn⟩ := List.getElem?_of_mem hpfd
  obtain ⟨p, c, hp, hreg, hindex⟩ := h.owner n pfd hn
  obtain ⟨m, pfd', hm, hpfd', hentry⟩ := h.slot p c hp hreg
  obtain rfl : n = m := by omega
  rw [hn] at hpfd'
  cases hpfd'
  exact ⟨p, c, hentry.descriptor ▸ hreg, hp, hentry.descriptor.symm⟩

theorem poll_eq (h : Placed s) (ready : Nat → Revents) (order : List Nat) :
    poll ready order s = .ok (s.poller.filterMap (report ready s)) :=
  fillActiveChannels_eq fun _ hpfd => h.owner_of_mem hpfd

theorem Placed.descriptors_nodup (h : Placed s) : (s.poller.map Pollfd.descriptor).Nodup := by
  rw [List.nodup_iff_getElem?_ne_getElem?]
  intro n m hlt hm heq
  rw [List.length_map] at hm
  have hn : n < s.poller.length := by omega
  rw [List.getElem?_map, List.getElem?_map, List.getElem?_eq_getElem hn, List.getElem?_eq_getElem hm] at heq
  obtain ⟨p, c, hp, hregp, hindexp⟩ := h.owner n _ (List.getElem?_eq_getElem hn)
  obtain ⟨q, d, hq, hregq, hindexq⟩ := h.owner m _ (List.getElem?_eq_getElem hm)
  obtain ⟨n', pfd, hn', hpfd, hentry⟩ := h.slot p c hp hregp
  obtain ⟨m', pfd', hm', hpfd', hentry'⟩ := h.slot q d hq hregq
  obtain rfl : n = n' := by omega
  obtain rfl : m = m' := by omega
  rw [List.getElem?_eq_getElem hn] at hpfd
  rw [List.getElem?_eq_getElem hm] at hpfd'
  cases hpfd
  cases hpfd'
  have hfd : c.fd = d.fd := by
    rw [← hentry.descriptor, ← hentry'.descriptor]
    exact Option.some.inj heq
  rw [hfd, hregq] at hregp
  cases hregp
  rw [hp] at hq
  cases hq
  omega

theorem map_fst_report (ready : Nat → Revents) (s : Loop) (l : List Pollfd) :
    (l.filterMap (report ready s)).map Prod.fst =
      ((l.filter fun pfd => (pfd.revents ready).any).map Pollfd.descriptor).filterMap s.channels := by
  induction l with
  | nil => rfl
  | cons pfd rest ih =>
      by_cases hany : (pfd.revents ready).any = true
      · cases hp : s.channels pfd.descriptor with
        | none => simp [report, hany, hp, ih]
        | some p => simp [report, hany, hp, ih]
      · simp [report, hany, ih]

theorem poll_reports (h : Placed s) (ready : Nat → Revents) (order : List Nat) {active : List (Pointer × Revents)}
    (hpoll : poll ready order s = .ok active) :
    (active.map Prod.fst).Nodup ∧ ∀ x ∈ active, Registered s x.1 := by
  rw [poll_eq h] at hpoll
  cases hpoll
  constructor
  · rw [map_fst_report]
    refine List.Nodup.filterMap ?_ ((List.filter_sublist.map _).nodup h.descriptors_nodup)
    intro fd fd' p hp hp'
    obtain ⟨c, hc, rfl⟩ := h.known fd p hp
    obtain ⟨d, hd, rfl⟩ := h.known fd' p hp'
    rw [hc] at hd
    cases hd
    rfl
  · intro x hx
    obtain ⟨pfd, hpfd, hreport⟩ := List.mem_filterMap.mp hx
    rw [report] at hreport
    split_ifs at hreport
    obtain ⟨p, hp, rfl⟩ := Option.map_eq_some_iff.mp hreport
    obtain ⟨c, hc, hfd⟩ := h.known _ p hp
    exact ⟨c, hc, hfd ▸ hp⟩

theorem keeps_append (hfree : s.channels c.fd = none) : Keeps none s (append p c s) := by
  refine ⟨rfl, rfl, ?_, ?_⟩
  · rintro q - ⟨d, hd, hreg⟩
    have hne : d.fd ≠ c.fd := by
      intro heq
      rw [heq, hfree] at hreg
      cases hreg
    by_cases hqp : q = p
    · subst hqp
      exact ⟨{ c with index := (s.poller.length : Int) }, by simp [append], by simp [append]⟩
    · exact ⟨d, by simpa [append, Function.update_of_ne hqp] using hd,
        by simpa [append, Function.update_of_ne hne] using hreg⟩
  · intro q hq
    by_cases hqp : q = p
    · simp [append, hqp]
    · simpa [append, Function.update_of_ne hqp] using hq

theorem keeps_overwrite (hmem : s.memory p = some c) (hfd : c'.fd = c.fd) : Keeps none s (overwrite p c' s) := by
  refine ⟨rfl, rfl, ?_, ?_⟩
  · rintro q - ⟨d, hd, hreg⟩
    by_cases hqp : q = p
    · subst hqp
      rw [hmem] at hd
      cases hd
      exact ⟨c', by simp [overwrite], by simpa [overwrite, hfd] using hreg⟩
    · exact ⟨d, by simpa [overwrite, Function.update_of_ne hqp] using hd, hreg⟩
  · intro q hq
    by_cases hqp : q = p
    · simp [overwrite, hqp]
    · simpa [overwrite, Function.update_of_ne hqp] using hq

theorem keeps_dropped (hreg : s.channels c.fd = some p) (h : Dropped p c s s') : Keeps (some p) s s' := by
  refine ⟨h.handling, h.activeChannels, ?_, ?_⟩
  · rintro q hq ⟨d, hd, hregq⟩
    have hqp : q ≠ p := fun heq => hq (congrArg some heq)
    have hne : d.fd ≠ c.fd := by
      intro heq
      rw [heq, hreg] at hregq
      exact hqp (Option.some.inj hregq).symm
    have hchannels : s'.channels d.fd = some q := by
      rw [h.channels, Function.update_of_ne hne]
      exact hregq
    rcases h.others q hqp with hsame | ⟨d', index, hd', -, hmoved⟩
    · exact ⟨d, hsame.trans hd, hchannels⟩
    · rw [hd] at hd'
      cases hd'
      exact ⟨_, hmoved, hchannels⟩
  · intro q hq
    by_cases hqp : q = p
    · simp [hqp, h.self]
    · rcases h.others q hqp with hsame | ⟨d', index, -, -, hmoved⟩
      · rw [hsame]
        exact hq
      · simp [hmoved]

theorem placed_new : Placed new := ⟨nofun, nofun, nofun, fun _ _ h => by cases h⟩

theorem lawful : Lawful virtual Placed where
  new := placed_new
  step := fun _ _ _ => placed_step
  change := by
    intro s p what s' h hstep
    cases step_outcome hstep with
    | @changed _ _ c _ hmem hupdate =>
        have heq := (updateChannel_eq h hmem (what.apply c.events) rfl).symm.trans hupdate
        split_ifs at heq with hneg hfree hreg
        · cases heq
          exact keeps_append hfree
        · cases heq
          refine keeps_overwrite hmem ?_
          rfl
  remove := by
    intro s p s' h hstep
    cases step_outcome hstep with
    | @removed _ c _ hmem hnone hactive hremove =>
        rcases removeChannel_cases h hmem rfl with ⟨-, hfail⟩ | ⟨hreg, pfd, -, ⟨-, hfail⟩ | ⟨-, s₁, hok, hdropped⟩⟩
        · cases hfail.symm.trans hremove
        · cases hfail.symm.trans hremove
        · cases hok.symm.trans hremove
          refine keeps_dropped ?_ hdropped
          exact hreg
  poll := fun _ ready order _ h hpoll => poll_reports h ready order hpoll

/-! ### Whole runs -/

structure Sound (s : Loop) : Prop where
  placed : Placed s
  handleable : Handleable s

theorem sound_new : Sound new := ⟨placed_new, nofun⟩

theorem sound_step (h : Sound s) (hstep : step virtual s i = .ok s') : Sound s' :=
  ⟨placed_step h.placed hstep, handleable_step lawful h.placed h.handleable hstep⟩

theorem sound_run (hrun : Run inputs s) : Sound s := run_invariant (fun _ _ _ => sound_step) sound_new hrun

/-- The ends of a run that the code which uses the channels brings about: as with `EPollPoller`, and a channel changed
after it was removed, and one removed that was registered without interest and never had any. -/
def callersFault : Halt → Bool
  | .notEnabled => true
  | .assertFailed .descriptorFree => true
  | .assertFailed .channelKnown => true
  | .assertFailed .noneEvent => true
  | .assertFailed .channelRegistered => true
  | .assertFailed .pollfdIgnored => true
  | .assertFailed .notActive => true
  | .assertFailed .notHandled => true
  | .assertFailed .notAdded => true
  | _ => false

theorem step_error {e : Halt} (hsound : Sound s) (hstep : step virtual s i = .error e) : callersFault e = true := by
  have h := hsound.placed
  cases step_failure hstep with
  | notEnabled => rfl
  | handled => rfl
  | added => rfl
  | @inPoller p c hmem hadded hhas =>
      rw [(h.added p c hmem).mpr (by simpa [Loop.hasChannel] using hhas)] at hadded
      cases hadded
  | interested => rfl
  | active => rfl
  | @updateChannel p what c e hmem hupdate =>
      have heq := (updateChannel_eq h hmem (what.apply c.events) rfl).symm.trans hupdate
      split_ifs at heq
      · cases heq
        rfl
      · cases heq
        rfl
  | removeChannel hmem hremove =>
      rcases removeChannel_cases h hmem rfl with ⟨-, hfail⟩ | ⟨-, pfd, -, ⟨-, hfail⟩ | ⟨-, s₁, hok, -⟩⟩
      · cases hfail.symm.trans hremove
        rfl
      · cases hfail.symm.trans hremove
        rfl
      · cases hok.symm.trans hremove
  | @poll ready order e hpoll => cases (poll_eq h ready order).symm.trans hpoll
  | gone hhandling hmem => exact (hsound.handleable.not_gone hhandling hmem).elim

end PollPoller
end Poller
end Realtinet
