import Mathlib.Logic.Function.Basic
import Realtinet.TransitionSystem

/-! `Channel`, `Poller` and the part of `EventLoop` that goes between them: several channels, created, changed, removed
and deleted by the code that uses them, and `activeChannels_`, which the loop goes through while all of this goes on.
The virtual functions of `Poller` are a parameter; `EPollPoller` and `PollPoller` are the two instances.

A `Channel` is an object at an address, and the pollers keep pointers to it; the loop reaches it through a pointer after
any number of changes, and that it is still there is to be proved. A descriptor stays open while a channel for it is
registered. -/

namespace Realtinet

open TransitionSystem

namespace Poller

abbrev Pointer := Nat

/-- `events_`: the bits of `kReadEvent` and of `kWriteEvent` are set and reset together. -/
structure Events where
  read : Bool
  write : Bool
  deriving DecidableEq, Repr

def Events.isNone (events : Events) : Bool := !events.read && !events.write

/-- `enableReading`, `disableReading`, `enableWriting`, `disableWriting` and `disableAll` of `Channel`, which all end
in `update()`. -/
inductive Change where
  | enableReading
  | disableReading
  | enableWriting
  | disableWriting
  | disableAll
  deriving DecidableEq, Repr

def Change.apply : Change → Events → Events
  | .enableReading, events => { events with read := true }
  | .disableReading, events => { events with read := false }
  | .enableWriting, events => { events with write := true }
  | .disableWriting, events => { events with write := false }
  | .disableAll, _ => ⟨false, false⟩

/-- `POLLIN` or `POLLPRI`, `POLLOUT`, and `POLLERR` or `POLLHUP`, which are reported without being asked for. -/
structure Revents where
  read : Bool
  write : Bool
  always : Bool
  deriving DecidableEq, Repr

namespace Revents

def none : Revents := ⟨false, false, false⟩

/-- What the kernel reports of `ready` to one who asks for `events`. -/
def mask (ready : Revents) (events : Events) : Revents :=
  ⟨ready.read && events.read, ready.write && events.write, ready.always⟩

def any (revents : Revents) : Bool := revents.read || revents.write || revents.always

end Revents

/-- `Channel`; `ι` is what the poller keeps in `index_`. -/
structure Channel (ι : Type) where
  fd : Nat
  events : Events
  revents : Revents
  index : ι
  addedToLoop : Bool
  deriving DecidableEq

/-- The channel without what the poller keeps in it. -/
def Channel.bare {ι : Type} (c : Channel ι) : Channel Unit := { c with index := () }

/-- The asserts of `Channel`, `EventLoop::removeChannel` and the two pollers. -/
inductive Assertion where
  | descriptorFree
  | channelKnown
  | noneEvent
  | channelRegistered
  | pollfdIgnored
  | notActive
  | notHandled
  | notAdded
  | notInPoller
  | indexInRange
  | pollfdMatches
  | eventsMatch
  | reportedKnown
  deriving DecidableEq, Repr

/-- Not an input for this state; a failed assert; `LOG_SYSFATAL` of `EPollPoller::update`; a pointer to a channel that
is deleted, or a null pointer. -/
inductive Halt where
  | notEnabled
  | assertFailed (assertion : Assertion)
  | epollCtl
  | dangling
  deriving DecidableEq, Repr

/-- `memory` are the channels that exist, `channels` is `channels_` of the poller and `poller` what it has besides;
`handling` is the channel whose `handleEvent` runs, with those of `activeChannels_` that come after it. -/
structure Loop (ι π : Type) where
  memory : Pointer → Option (Channel ι)
  channels : Nat → Option Pointer
  poller : π
  activeChannels : List Pointer
  handling : Option (Pointer × List Pointer)

/-- The virtual functions of `Poller`, and `index_` and the poller as constructed. `poll` is given what is ready and
the order in which the kernel reports, and returns what it appends to `activeChannels_`. -/
structure Virtual (ι π : Type) where
  index : ι
  empty : π
  updateChannel : Pointer → Channel ι → Loop ι π → Except Halt (Loop ι π)
  removeChannel : Pointer → Channel ι → Loop ι π → Except Halt (Loop ι π)
  poll : (Nat → Revents) → List Nat → Loop ι π → Except Halt (List (Pointer × Revents))

variable {ι π : Type}

namespace Loop

def new (poller : Virtual ι π) : Loop ι π where
  memory := fun _ => none
  channels := fun _ => none
  poller := poller.empty
  activeChannels := []
  handling := none

def store (p : Pointer) (c : Option (Channel ι)) (s : Loop ι π) : Loop ι π :=
  { s with memory := Function.update s.memory p c }

/-- `channels_[fd] = channel`, or `channels_.erase(fd)`. -/
def register (fd : Nat) (p : Option Pointer) (s : Loop ι π) : Loop ι π :=
  { s with channels := Function.update s.channels fd p }

/-- `Poller::hasChannel`. -/
def hasChannel (p : Pointer) (c : Channel ι) (s : Loop ι π) : Bool := s.channels c.fd == some p

/-- `set_revents` of the channels that `poll` reports. -/
def setRevents : List (Pointer × Revents) → Loop ι π → Loop ι π
  | [], s => s
  | (p, revents) :: rest, s =>
      setRevents rest (s.store p ((s.memory p).map fun c => { c with revents := revents }))

/-- `EventLoop::removeChannel` refuses a channel that is active and not the one being handled. -/
def activeElsewhere (p : Pointer) (s : Loop ι π) : Bool :=
  match s.handling with
  | some (current, _) => current != p && s.activeChannels.contains p
  | none => false

/-- The assert of `~Channel` on `eventHandling_`. -/
def handles (p : Pointer) (s : Loop ι π) : Bool :=
  match s.handling with
  | some (current, _) => current == p
  | none => false

end Loop

/-- A channel is constructed at `p`, or destructed; one of the changes is made to its events; it is removed; `poll`
returns; the loop goes on to the next active channel, or ends going through them. -/
inductive Input where
  | construct (p : Pointer) (fd : Nat)
  | destruct (p : Pointer)
  | change (p : Pointer) (what : Change)
  | remove (p : Pointer)
  | poll (ready : Nat → Revents) (order : List Nat)
  | next

def step (poller : Virtual ι π) (s : Loop ι π) : Input → Except Halt (Loop ι π)
  | .construct p fd =>
      match s.memory p with
      | none => .ok (s.store p (some ⟨fd, ⟨false, false⟩, .none, poller.index, false⟩))
      | some _ => .error .notEnabled
  | .destruct p =>
      match s.memory p with
      | none => .error .notEnabled
      | some c =>
          if s.handles p then .error (.assertFailed .notHandled)
          else if c.addedToLoop then .error (.assertFailed .notAdded)
          else if s.hasChannel p c then .error (.assertFailed .notInPoller)
          else .ok (s.store p none)
  | .change p what =>
      match s.memory p with
      | none => .error .notEnabled
      | some c =>
          let c := { c with events := what.apply c.events, addedToLoop := true }
          poller.updateChannel p c (s.store p (some c))
  | .remove p =>
      match s.memory p with
      | none => .error .notEnabled
      | some c =>
          if c.events.isNone then
            let c := { c with addedToLoop := false }
            if s.activeElsewhere p then .error (.assertFailed .notActive)
            else poller.removeChannel p c (s.store p (some c))
          else .error (.assertFailed .noneEvent)
  | .poll ready order =>
      match s.handling with
      | some _ => .error .notEnabled
      | none =>
          match poller.poll ready order s with
          | .error e => .error e
          | .ok [] => .ok { s with activeChannels := [] }
          | .ok ((p, revents) :: rest) =>
              .ok { s.setRevents ((p, revents) :: rest) with
                activeChannels := p :: rest.map Prod.fst
                handling := some (p, rest.map Prod.fst) }
  | .next =>
      match s.handling with
      | none => .error .notEnabled
      | some (_, []) => .ok { s with handling := none }
      | some (_, p :: rest) =>
          if (s.memory p).isSome then .ok { s with handling := some (p, rest) } else .error .dangling

variable {poller : Virtual ι π} {s s' : Loop ι π} {i : Input}

theorem step_change {p : Pointer} {c : Channel ι} {what : Change} (hmem : s.memory p = some c) :
    step poller s (.change p what) =
      poller.updateChannel p { c with events := what.apply c.events, addedToLoop := true }
        (s.store p (some { c with events := what.apply c.events, addedToLoop := true })) := by
  simp only [step, hmem]

theorem step_remove {p : Pointer} {c : Channel ι} (hmem : s.memory p = some c) (hnone : c.events.isNone = true)
    (hactive : s.activeElsewhere p = false) :
    step poller s (.remove p) =
      poller.removeChannel p { c with addedToLoop := false } (s.store p (some { c with addedToLoop := false })) := by
  simp [step, hmem, hnone, hactive]

/-- What a step can do, one case for each branch of the source that does not end the process. -/
inductive Outcome (poller : Virtual ι π) (s : Loop ι π) : Input → Loop ι π → Prop where
  | constructed {p : Pointer} {fd : Nat} (hfree : s.memory p = none) :
      Outcome poller s (.construct p fd) (s.store p (some ⟨fd, ⟨false, false⟩, .none, poller.index, false⟩))
  | destructed {p : Pointer} {c : Channel ι} (hmem : s.memory p = some c) (hhandles : s.handles p = false)
      (hadded : c.addedToLoop = false) (hhas : s.hasChannel p c = false) :
      Outcome poller s (.destruct p) (s.store p none)
  | changed {p : Pointer} {what : Change} {c : Channel ι} {s' : Loop ι π} (hmem : s.memory p = some c)
      (hupdate : poller.updateChannel p { c with events := what.apply c.events, addedToLoop := true }
        (s.store p (some { c with events := what.apply c.events, addedToLoop := true })) = .ok s') :
      Outcome poller s (.change p what) s'
  | removed {p : Pointer} {c : Channel ι} {s' : Loop ι π} (hmem : s.memory p = some c)
      (hnone : c.events.isNone = true) (hactive : s.activeElsewhere p = false)
      (hremove : poller.removeChannel p { c with addedToLoop := false }
        (s.store p (some { c with addedToLoop := false })) = .ok s') :
      Outcome poller s (.remove p) s'
  | nothingActive {ready : Nat → Revents} {order : List Nat} (hidle : s.handling = none)
      (hpoll : poller.poll ready order s = .ok []) :
      Outcome poller s (.poll ready order) { s with activeChannels := [] }
  | polled {ready : Nat → Revents} {order : List Nat} {p : Pointer} {revents : Revents}
      {rest : List (Pointer × Revents)} (hidle : s.handling = none)
      (hpoll : poller.poll ready order s = .ok ((p, revents) :: rest)) :
      Outcome poller s (.poll ready order)
        { s.setRevents ((p, revents) :: rest) with
          activeChannels := p :: rest.map Prod.fst
          handling := some (p, rest.map Prod.fst) }
  | ended {p : Pointer} (hhandling : s.handling = some (p, [])) : Outcome poller s .next { s with handling := none }
  | advanced {p q : Pointer} {rest : List Pointer} (hhandling : s.handling = some (p, q :: rest))
      (hmem : (s.memory q).isSome = true) : Outcome poller s .next { s with handling := some (q, rest) }

theorem step_outcome (hstep : step poller s i = .ok s') : Outcome poller s i s' := by
  cases i with
  | construct p fd =>
      simp only [step] at hstep
      split at hstep
      · cases hstep
        exact .constructed ‹_›
      · cases hstep
  | destruct p =>
      simp only [step] at hstep
      split at hstep
      · cases hstep
      · split_ifs at hstep with hhandles hadded hhas
        cases hstep
        exact .destructed ‹_› (by simpa using hhandles) (by simpa using hadded) (by simpa using hhas)
  | change p what =>
      simp only [step] at hstep
      split at hstep
      · cases hstep
      · exact .changed ‹_› hstep
  | remove p =>
      simp only [step] at hstep
      split at hstep
      · cases hstep
      · split_ifs at hstep with hnone hactive
        exact .removed ‹_› hnone (by simpa using hactive) hstep
  | poll ready order =>
      simp only [step] at hstep
      split at hstep
      · cases hstep
      · split at hstep
        · cases hstep
        · cases hstep
          exact .nothingActive ‹_› ‹_›
        · cases hstep
          exact .polled ‹_› ‹_›
  | next =>
      simp only [step] at hstep
      split at hstep
      · cases hstep
      · cases hstep
        exact .ended ‹_›
      · split_ifs at hstep with hmem
        cases hstep
        exact .advanced ‹_› hmem

/-- Why a step fails: not an input for this state, an assert of `Channel` or `EventLoop`, a function of the poller, or a
channel that the loop comes to and that is gone. -/
inductive Failure (poller : Virtual ι π) (s : Loop ι π) : Input → Halt → Prop where
  | notEnabled {i : Input} : Failure poller s i .notEnabled
  | handled {p : Pointer} : Failure poller s (.destruct p) (.assertFailed .notHandled)
  | added {p : Pointer} : Failure poller s (.destruct p) (.assertFailed .notAdded)
  | inPoller {p : Pointer} {c : Channel ι} (hmem : s.memory p = some c) (hadded : c.addedToLoop = false)
      (hhas : s.hasChannel p c = true) : Failure poller s (.destruct p) (.assertFailed .notInPoller)
  | interested {p : Pointer} : Failure poller s (.remove p) (.assertFailed .noneEvent)
  | active {p : Pointer} : Failure poller s (.remove p) (.assertFailed .notActive)
  | updateChannel {p : Pointer} {what : Change} {c : Channel ι} {e : Halt} (hmem : s.memory p = some c)
      (hupdate : poller.updateChannel p { c with events := what.apply c.events, addedToLoop := true }
        (s.store p (some { c with events := what.apply c.events, addedToLoop := true })) = .error e) :
      Failure poller s (.change p what) e
  | removeChannel {p : Pointer} {c : Channel ι} {e : Halt} (hmem : s.memory p = some c)
      (hremove : poller.removeChannel p { c with addedToLoop := false }
        (s.store p (some { c with addedToLoop := false })) = .error e) :
      Failure poller s (.remove p) e
  | poll {ready : Nat → Revents} {order : List Nat} {e : Halt} (hpoll : poller.poll ready order s = .error e) :
      Failure poller s (.poll ready order) e
  | gone {p q : Pointer} {rest : List Pointer} (hhandling : s.handling = some (p, q :: rest))
      (hmem : s.memory q = none) : Failure poller s .next .dangling

theorem step_failure {e : Halt} (hstep : step poller s i = .error e) : Failure poller s i e := by
  cases i with
  | construct p fd =>
      simp only [step] at hstep
      split at hstep
      · cases hstep
      · cases hstep
        exact .notEnabled
  | destruct p =>
      simp only [step] at hstep
      split at hstep
      · cases hstep
        exact .notEnabled
      · split_ifs at hstep with hhandles hadded hhas
        · cases hstep
          exact .handled
        · cases hstep
          exact .added
        · cases hstep
          exact .inPoller ‹_› (by simpa using hadded) hhas
  | change p what =>
      simp only [step] at hstep
      split at hstep
      · cases hstep
        exact .notEnabled
      · exact .updateChannel ‹_› hstep
  | remove p =>
      simp only [step] at hstep
      split at hstep
      · cases hstep
        exact .notEnabled
      · split_ifs at hstep with hnone hactive
        · cases hstep
          exact .active
        · exact .removeChannel ‹_› hstep
        · cases hstep
          exact .interested
  | poll ready order =>
      simp only [step] at hstep
      split at hstep
      · cases hstep
        exact .notEnabled
      · split at hstep
        · cases hstep
          exact .poll ‹_›
        · cases hstep
        · cases hstep
  | next =>
      simp only [step] at hstep
      split at hstep
      · cases hstep
        exact .notEnabled
      · cases hstep
      · split_ifs at hstep with hmem
        cases hstep
        exact .gone ‹_› (by simpa using hmem)

/-! ### The channels the loop goes through -/

/-- `revents_` of the channel at `p`, `revents` before, after `poll` has reported `active`. -/
def reported : List (Pointer × Revents) → Pointer → Revents → Revents
  | [], _, revents => revents
  | (q, latest) :: rest, p, revents => reported rest p (if q = p then latest else revents)

theorem setRevents_memory (active : List (Pointer × Revents)) (s : Loop ι π) (p : Pointer) :
    (s.setRevents active).memory p =
      (s.memory p).map fun c => { c with revents := reported active p c.revents } := by
  induction active generalizing s with
  | nil => simp [Loop.setRevents, reported]
  | cons head rest ih =>
      obtain ⟨q, latest⟩ := head
      rw [Loop.setRevents, ih, Loop.store]
      by_cases hqp : q = p
      · subst hqp
        simp [reported, Function.comp_def]
      · simp [reported, hqp, Function.update_of_ne (Ne.symm hqp)]

/-- The channels are those from before, with what `poll` reported of them. -/
theorem memory_of_setRevents {active : List (Pointer × Revents)} {s : Loop ι π} {p : Pointer} {d : Channel ι}
    (h : (s.setRevents active).memory p = some d) :
    ∃ c, s.memory p = some c ∧ d = { c with revents := reported active p c.revents } := by
  rw [setRevents_memory] at h
  obtain ⟨c, hc, rfl⟩ := Option.map_eq_some_iff.mp h
  exact ⟨c, hc, rfl⟩

theorem setRevents_memory_of_some {s : Loop ι π} {p : Pointer} {c : Channel ι} (active : List (Pointer × Revents))
    (h : s.memory p = some c) :
    (s.setRevents active).memory p = some { c with revents := reported active p c.revents } := by
  rw [setRevents_memory, h]
  rfl

theorem setRevents_frame (active : List (Pointer × Revents)) (s : Loop ι π) :
    (s.setRevents active).channels = s.channels ∧ (s.setRevents active).poller = s.poller ∧
      (s.setRevents active).handling = s.handling := by
  induction active generalizing s with
  | nil => exact ⟨rfl, rfl, rfl⟩
  | cons head rest ih => exact ih _

/-- The channel at `p` exists, and the poller finds it under its descriptor. -/
def Registered (s : Loop ι π) (p : Pointer) : Prop := ∃ c, s.memory p = some c ∧ s.channels c.fd = some p

/-- What a change leaves of the other channels; `p` is the channel that is unregistered, if any. -/
structure Keeps (p : Option Pointer) (s s' : Loop ι π) : Prop where
  handling : s'.handling = s.handling
  activeChannels : s'.activeChannels = s.activeChannels
  registered : ∀ q, some q ≠ p → Registered s q → Registered s' q
  exist : ∀ q, (s.memory q).isSome = true → (s'.memory q).isSome = true

/-- What the loop relies on in its poller, as long as `Inv` holds. -/
structure Lawful (poller : Virtual ι π) (Inv : Loop ι π → Prop) : Prop where
  new : Inv (.new poller)
  step : ∀ s i s', Inv s → Poller.step poller s i = .ok s' → Inv s'
  change : ∀ s p what s', Inv s → Poller.step poller s (.change p what) = .ok s' → Keeps none s s'
  remove : ∀ s p s', Inv s → Poller.step poller s (.remove p) = .ok s' → Keeps (some p) s s'
  poll : ∀ s ready order active, Inv s → poller.poll ready order s = .ok active →
    (active.map Prod.fst).Nodup ∧ ∀ x ∈ active, Registered s x.1

/-- The channel being handled exists, and those still to be handled are registered. -/
def Handleable (s : Loop ι π) : Prop :=
  ∀ p rest, s.handling = some (p, rest) →
    (p :: rest).Nodup ∧ (∀ q ∈ rest, q ∈ s.activeChannels) ∧ (s.memory p).isSome = true ∧
      ∀ q ∈ rest, Registered s q

theorem Handleable.of_keeps (h : Handleable s) {p : Option Pointer} (hkeeps : Keeps p s s')
    (hp : ∀ current rest, s.handling = some (current, rest) → ∀ q ∈ rest, some q ≠ p) : Handleable s' := by
  intro current rest hhandling
  rw [hkeeps.handling] at hhandling
  obtain ⟨hnodup, hactive, hexists, hregistered⟩ := h current rest hhandling
  refine ⟨hnodup, hkeeps.activeChannels ▸ hactive, hkeeps.exist current hexists, ?_⟩
  intro q hq
  exact hkeeps.registered q (hp current rest hhandling q hq) (hregistered q hq)

/-- The loop comes to channels that exist. -/
theorem Handleable.not_gone (h : Handleable s) {current q : Pointer} {rest : List Pointer}
    (hhandling : s.handling = some (current, q :: rest)) (hmem : s.memory q = none) : False := by
  obtain ⟨-, -, -, hregistered⟩ := h current (q :: rest) hhandling
  obtain ⟨c, hc, -⟩ := hregistered q List.mem_cons_self
  rw [hmem] at hc
  cases hc

theorem registered_setRevents {active : List (Pointer × Revents)} {p : Pointer} (h : Registered s p) :
    Registered (s.setRevents active) p := by
  obtain ⟨c, hmem, hhas⟩ := h
  refine ⟨_, setRevents_memory_of_some _ hmem, ?_⟩
  rw [(setRevents_frame active s).1]
  exact hhas

theorem handleable_step {Inv : Loop ι π → Prop} (hlawful : Lawful poller Inv) (hinv : Inv s) (h : Handleable s)
    (hstep : step poller s i = .ok s') : Handleable s' := by
  cases step_outcome hstep with
  | @constructed p fd hfree =>
      refine h.of_keeps ⟨rfl, rfl, ?_, ?_⟩ (p := none) nofun
      · rintro q - ⟨c, hmem, hhas⟩
        have hqp : q ≠ p := by
          rintro rfl
          rw [hfree] at hmem
          cases hmem
        exact ⟨c, by simpa [Loop.store, Function.update_of_ne hqp] using hmem, hhas⟩
      · intro q hq
        by_cases hqp : q = p
        · simp [Loop.store, hqp]
        · simpa [Loop.store, Function.update_of_ne hqp] using hq
  | @destructed p c hmem hhandles hadded hhas =>
      intro current rest hhandling
      obtain ⟨hnodup, hactive, hexists, hregistered⟩ := h current rest hhandling
      have hcurrent : current ≠ p := by
        simpa [Loop.handles, show s.handling = some (current, rest) from hhandling] using hhandles
      refine ⟨hnodup, hactive, by simpa [Loop.store, Function.update_of_ne hcurrent] using hexists, ?_⟩
      intro q hq
      obtain ⟨d, hd, hreg⟩ := hregistered q hq
      have hqp : q ≠ p := by
        rintro rfl
        rw [hmem] at hd
        cases hd
        simp [Loop.hasChannel, hreg] at hhas
      exact ⟨d, by simpa [Loop.store, Function.update_of_ne hqp] using hd, hreg⟩
  | changed hmem hupdate => exact h.of_keeps (hlawful.change _ _ _ _ hinv hstep) nofun
  | @removed p c s' hmem hnone hactive hremove =>
      refine h.of_keeps (hlawful.remove _ _ _ hinv hstep) ?_
      intro current rest hhandling q hq
      obtain ⟨hnodup, hmember, -, -⟩ := h current rest hhandling
      -- The assert of `EventLoop::removeChannel`: the channel is the one being handled, or not active.
      intro heq
      obtain rfl : q = p := Option.some.inj heq
      have hcurrent : current ≠ q := by
        rintro rfl
        exact (List.nodup_cons.mp hnodup).1 hq
      simp [Loop.activeElsewhere, hhandling, hcurrent, hmember q hq] at hactive
  | nothingActive hidle hpoll =>
      intro current rest hhandling
      rw [show s.handling = some (current, rest) from hhandling] at hidle
      cases hidle
  | @polled ready order p revents rest hidle hpoll =>
      obtain ⟨hnodup, hregistered⟩ := hlawful.poll _ _ _ _ hinv hpoll
      intro current later hhandling
      cases hhandling
      refine ⟨by simpa using hnodup, fun q hq => List.mem_cons_of_mem _ hq, ?_, ?_⟩
      · have hfirst : Registered (s.setRevents ((p, revents) :: rest)) p :=
          registered_setRevents (hregistered _ List.mem_cons_self)
        obtain ⟨c, hmem, -⟩ := hfirst
        simp [hmem]
      · intro q hq
        obtain ⟨x, hx, rfl⟩ := List.mem_map.mp hq
        exact registered_setRevents (hregistered x (List.mem_cons_of_mem _ hx))
  | ended hhandling => exact nofun
  | @advanced p q rest hhandling hmem =>
      intro current later hcurrent
      cases hcurrent
      obtain ⟨hnodup, hactive, -, hregistered⟩ := h p (q :: rest) hhandling
      refine ⟨(List.nodup_cons.mp hnodup).2, fun x hx => hactive x (List.mem_cons_of_mem _ hx), hmem, ?_⟩
      exact fun x hx => hregistered x (List.mem_cons_of_mem _ hx)

end Poller
end Realtinet
