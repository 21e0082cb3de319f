import Mathlib.Data.Prod.Lex
import Mathlib.Logic.Function.Basic
import Realtinet.SortedSet
import Realtinet.TransitionSystem

/-! `TimerQueue` of an event loop with the timers it allocates and the timerfd that wakes the loop. A timer stands in
`timers_` under its expiration and its address, and in `activeTimers_` under its address and its sequence number;
`handleRead` takes the expired ones out of both, calls them one after another and puts the repeating ones back. The
callbacks are user code and may add and cancel timers in the middle of it.

The allocator gives a new timer any address that is free, so that an address may come back while ids of an earlier
timer at that place are still held. `addTimer` reads the sequence number of its timer after it has handed the timer to
the loop; in another thread that is a step of its own, before which the loop may go on. Times are microseconds since
the epoch, far from the limits of 64 bits. An input that may set the timerfd comes with what the clock shows at that
moment. -/

namespace Realtinet

open TransitionSystem

abbrev Timestamp := Int

/-- `Timestamp::valid`. -/
def Timestamp.valid (t : Timestamp) : Bool := decide (0 < t)

abbrev Address := Nat

/-- The largest value of a pointer. -/
def UINTPTR_MAX : Address := 0xFFFFFFFFFFFFFFFF

namespace TimerQueue

/-- `Timer`: `delta` are the microseconds that `addTime` adds for `interval_`. -/
structure Timer where
  expiration : Timestamp
  delta : Nat
  repeat_ : Bool
  sequence : Nat
  deriving DecidableEq, Repr

def Timer.restart (now : Timestamp) (timer : Timer) : Timer :=
  { timer with expiration := if timer.repeat_ then now + timer.delta else 0 }

/-- `TimerQueue::Entry`. -/
structure Entry where
  expiration : Timestamp
  timer : Address
  deriving DecidableEq, Repr

/-- Pairs are compared by their first components, then by their second. -/
instance Entry.order : LinearOrder Entry :=
  LinearOrder.lift' (fun e => toLex (e.expiration, e.timer)) (by
    intro a b h
    cases a
    cases b
    simpa using h)

/-- `TimerId`, and the pair `TimerQueue::ActiveTimer` made of it. -/
structure TimerId where
  timer : Address
  sequence : Nat
  deriving DecidableEq, Repr

instance TimerId.order : LinearOrder TimerId :=
  LinearOrder.lift' (fun id => toLex (id.timer, id.sequence)) (by
    intro a b h
    cases a
    cases b
    simpa using h)

structure Timespec where
  tv_sec : Int
  tv_nsec : Int
  deriving DecidableEq, Repr

def howMuchTimeFromNow (expiration now : Int) : Timespec :=
  let microseconds := if expiration - now < 100 then 100 else expiration - now
  ⟨microseconds.tdiv 1000000, microseconds.tmod 1000000 * 1000⟩

/-- The asserts of `TimerQueue.cc`: `timers_.size() == activeTimers_.size()`, `result.second` of the two insertions,
`n == 1` of the erasures in `cancelInLoop` and `getExpired`, and `now < end->first`. -/
inductive Assertion where
  | sameSize
  | insertedTimer
  | insertedActive
  | erasedTimer
  | erasedActive
  | endAfterNow
  deriving DecidableEq, Repr

/-- An input that cannot occur in the state, a failed assert, or the use of a timer that has been deleted. -/
inductive Halt where
  | notEnabled
  | assertFailed (assertion : Assertion)
  | deadTimer
  deriving DecidableEq, Repr

inductive Functor where
  | addTimerInLoop (timer : Address)
  | cancelInLoop (timerId : TimerId)
  deriving DecidableEq, Repr

/-- `handleRead` in the middle of its loop: its local variables, and the entries it has still to call. -/
structure Calling where
  now : Timestamp
  expired : List Entry
  left : List Entry
  deriving DecidableEq, Repr

/-- When the timerfd was set, and the time it was set to run from then on. -/
structure Alarm where
  clock : Timestamp
  value : Timespec
  deriving DecidableEq, Repr

/-- The time at which the timerfd expires, in microseconds. -/
def Alarm.expires (alarm : Alarm) : Timestamp :=
  alarm.clock + (alarm.value.tv_sec * 1000000 + alarm.value.tv_nsec / 1000)

/-- A call of a timer's callback: the timer as it is then, and the `now` of its `handleRead`. -/
structure Firing where
  timer : Timer
  now : Timestamp
  deriving DecidableEq, Repr

end TimerQueue

open TimerQueue in
/-- The queue with the functors it has queued in its loop. `callingExpiredTimers_` is set while `calling` is not
empty; `timerfd` is set until it is read, `memory` has the timers that exist, `numCreated` counts the timers of all
loops, `adding` has the calls of `addTimer` in other threads that have still to read the sequence number of their
timer, and `firings` are the calls made so far (newest first). -/
structure TimerQueue where
  timers : SortedSet Entry
  activeTimers : SortedSet TimerId
  cancelingTimers : SortedSet TimerId
  calling : Option Calling
  timerfd : Option Alarm
  memory : Address → Option Timer
  numCreated : Nat
  pendingFunctors : List Functor
  adding : List TimerId
  firings : List Firing

namespace TimerQueue

def new : TimerQueue where
  timers := .empty
  activeTimers := .empty
  cancelingTimers := .empty
  calling := none
  timerfd := none
  memory := fun _ => none
  numCreated := 0
  pendingFunctors := []
  adding := []
  firings := []

def check (holds : Bool) (assertion : Assertion) : Except Halt Unit :=
  if holds then .ok () else .error (.assertFailed assertion)

def sameSize (s : TimerQueue) : Bool := s.timers.size == s.activeTimers.size

/-- A timer is used through its pointer. -/
def deref (timer : Address) (s : TimerQueue) : Except Halt Timer :=
  match s.memory timer with
  | some t => .ok t
  | none => .error .deadTimer

/-- `resetTimerfd`; `timerfd_settime` with a zero value would switch the alarm off. -/
def resetTimerfd (expiration clock : Timestamp) (s : TimerQueue) : TimerQueue :=
  let value := howMuchTimeFromNow expiration clock
  { s with timerfd := if value = ⟨0, 0⟩ then none else some ⟨clock, value⟩ }

/-- Nothing in `timers_` expires before the timer. -/
def earliest (timer : Timer) (s : TimerQueue) : Bool :=
  match s.timers.first with
  | none => true
  | some e => decide (timer.expiration < e.expiration)

/-- The timer in both sets. -/
def enter (timer : Address) (t : Timer) (s : TimerQueue) : TimerQueue :=
  { s with
    timers := s.timers.insert ⟨t.expiration, timer⟩
    activeTimers := s.activeTimers.insert ⟨timer, t.sequence⟩ }

/-- `insert`, with `earliestChanged`. -/
def insert (timer : Address) (s : TimerQueue) : Except Halt (Bool × TimerQueue) := do
  check s.sameSize .sameSize
  let t ← s.deref timer
  check (⟨t.expiration, timer⟩ ∉ s.timers) .insertedTimer
  check (⟨timer, t.sequence⟩ ∉ s.activeTimers) .insertedActive
  let s' := s.enter timer t
  check s'.sameSize .sameSize
  return (s.earliest t, s')

def addTimerInLoop (timer : Address) (clock : Timestamp) (s : TimerQueue) : Except Halt TimerQueue := do
  let (earliestChanged, s) ← s.insert timer
  let t ← s.deref timer
  return if earliestChanged then s.resetTimerfd t.expiration clock else s

/-- The timer out of both sets and deleted. -/
def forget (timerId : TimerId) (t : Timer) (s : TimerQueue) : TimerQueue :=
  { s with
    timers := s.timers.erase ⟨t.expiration, timerId.timer⟩
    activeTimers := s.activeTimers.erase timerId
    memory := Function.update s.memory timerId.timer none }

def cancelInLoop (timerId : TimerId) (s : TimerQueue) : Except Halt TimerQueue := do
  check s.sameSize .sameSize
  if timerId ∈ s.activeTimers then
    let t ← s.deref timerId.timer
    check (⟨t.expiration, timerId.timer⟩ ∈ s.timers) .erasedTimer
    let s' := s.forget timerId t
    check s'.sameSize .sameSize
    return s'
  else if s.calling.isSome then
    return { s with cancelingTimers := s.cancelingTimers.insert timerId }
  else return s

/-- The second loop of `getExpired`. -/
def eraseActive : List Entry → TimerQueue → Except Halt TimerQueue
  | [], s => .ok s
  | e :: rest, s => do
      let t ← s.deref e.timer
      check (⟨e.timer, t.sequence⟩ ∈ s.activeTimers) .erasedActive
      eraseActive rest { s with activeTimers := s.activeTimers.erase ⟨e.timer, t.sequence⟩ }

def sentry (now : Timestamp) : Entry := ⟨now, UINTPTR_MAX⟩

def getExpired (now : Timestamp) (s : TimerQueue) : Except Halt (List Entry × TimerQueue) := do
  check s.sameSize .sameSize
  let left := s.timers.dropBelow (sentry now)
  check (left.first.all fun e => decide (now < e.expiration)) .endAfterNow
  let expired := s.timers.below (sentry now)
  let s' ← eraseActive expired { s with timers := left }
  check s'.sameSize .sameSize
  return (expired, s')

/-- What is stored at an address is replaced, or deleted. -/
def store (timer : Address) (t : Option Timer) (s : TimerQueue) : TimerQueue :=
  { s with memory := Function.update s.memory timer t }

/-- The loop of `reset`: a repeating timer that has not been cancelled meanwhile is put back, any other is deleted. -/
def resetEach (now : Timestamp) : List Entry → TimerQueue → Except Halt TimerQueue
  | [], s => .ok s
  | e :: rest, s => do
      let t ← s.deref e.timer
      if t.repeat_ && decide (⟨e.timer, t.sequence⟩ ∉ s.cancelingTimers) then
        let (_, s') ← (s.store e.timer (some (t.restart now))).insert e.timer
        resetEach now rest s'
      else resetEach now rest (s.store e.timer none)

/-- The end of `reset`. -/
def setNextExpire (clock : Timestamp) (s : TimerQueue) : Except Halt TimerQueue :=
  match s.timers.first with
  | some e => do
      let t ← s.deref e.timer
      return if Timestamp.valid t.expiration then s.resetTimerfd t.expiration clock else s
  | none => .ok s

def reset (expired : List Entry) (now clock : Timestamp) (s : TimerQueue) : Except Halt TimerQueue := do
  let s' ← s.resetEach now expired
  s'.setNextExpire clock

/-- `handleRead` goes on: it calls the next expired timer, or ends. -/
def callNext (calling : Calling) (clock : Timestamp) (s : TimerQueue) : Except Halt TimerQueue :=
  match calling.left with
  | e :: left => do
      let t ← s.deref e.timer
      return { s with
        calling := some { calling with left := left }
        firings := ⟨t, calling.now⟩ :: s.firings }
  | [] => reset calling.expired calling.now clock { s with calling := none }

/-- `handleRead` up to the first callback. -/
def handleRead (now clock : Timestamp) (s : TimerQueue) : Except Halt TimerQueue := do
  let (expired, s') ← getExpired now { s with timerfd := none }
  callNext ⟨now, expired, expired⟩ clock { s' with cancelingTimers := .empty }

/-- `addTimer` up to `runInLoop`: `new Timer` at an address that is free. -/
def construct (timer : Address) (expiration : Timestamp) (delta : Nat) (repeat_ : Bool) (s : TimerQueue) : TimerQueue :=
  { s with
    memory := Function.update s.memory timer (some ⟨expiration, delta, repeat_, s.numCreated + 1⟩)
    numCreated := s.numCreated + 1 }

def queueInLoop (functor : Functor) (s : TimerQueue) : TimerQueue :=
  { s with pendingFunctors := s.pendingFunctors ++ [functor] }

/-- `addTimer` in another thread up to its last line. -/
def queueTimer (timer : Address) (s : TimerQueue) : TimerQueue :=
  { s.queueInLoop (.addTimerInLoop timer) with adding := ⟨timer, s.numCreated⟩ :: s.adding }

/-- The last line of `addTimer` uses the timer it has made, which must not have been deleted since. -/
def readSequence (timerId : TimerId) (s : TimerQueue) : Except Halt Unit :=
  match s.memory timerId.timer with
  | some t => if t.sequence = timerId.sequence then .ok () else .error .deadTimer
  | none => .error .deadTimer

/-- Some thread adds or cancels a timer, in the loop thread or in another one; an `addTimer` of another thread comes to
its last line; the loop runs the oldest functor of the queue; a timer is made for another loop; the timerfd has expired
and the loop comes to it; the callback that is running returns. -/
inductive Input where
  | addTimer (inLoop : Bool) (timer : Address) (expiration : Timestamp) (delta : Nat) (repeat_ : Bool)
      (clock : Timestamp)
  | addTimerReturns (timerId : TimerId)
  | cancel (inLoop : Bool) (timerId : TimerId)
  | functor (clock : Timestamp)
  | created
  | handleRead (now clock : Timestamp)
  | callbackReturns (clock : Timestamp)
  deriving DecidableEq, Repr

/-- What the allocator can return. -/
def free (timer : Address) (s : TimerQueue) : Bool :=
  decide (0 < timer) && decide (timer < UINTPTR_MAX) && (s.memory timer).isNone

def step (s : TimerQueue) : Input → Except Halt TimerQueue
  | .addTimer inLoop timer expiration delta repeat_ clock =>
      if s.free timer then
        let s := s.construct timer expiration delta repeat_
        if inLoop then do
          let s ← s.addTimerInLoop timer clock
          s.readSequence ⟨timer, s.numCreated⟩
          return s
        else .ok (s.queueTimer timer)
      else .error .notEnabled
  | .addTimerReturns timerId =>
      if timerId ∈ s.adding then do
        s.readSequence timerId
        return { s with adding := s.adding.erase timerId }
      else .error .notEnabled
  | .cancel inLoop timerId =>
      if inLoop then s.cancelInLoop timerId else .ok (s.queueInLoop (.cancelInLoop timerId))
  | .functor clock =>
      match s.pendingFunctors with
      | functor :: rest =>
          -- functors run after the loop has gone through the active channels
          if s.calling.isNone then
            let s := { s with pendingFunctors := rest }
            match functor with
            | .addTimerInLoop timer => s.addTimerInLoop timer clock
            | .cancelInLoop timerId => s.cancelInLoop timerId
          else .error .notEnabled
      | [] => .error .notEnabled
  | .created => .ok { s with numCreated := s.numCreated + 1 }
  | .handleRead now clock =>
      if s.calling.isNone && s.timerfd.isSome && decide (0 < now) then s.handleRead now clock else .error .notEnabled
  | .callbackReturns clock =>
      match s.calling with
      | some calling => s.callNext calling clock
      | none => .error .notEnabled

/-- The queues some run leads to from a newly constructed one. -/
def Run (inputs : List Input) (s : TimerQueue) : Prop := run step new inputs = .ok s

end TimerQueue
end Realtinet
