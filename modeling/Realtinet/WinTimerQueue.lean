import Mathlib.Data.Int.Order.Basic
import Realtinet.HoleHeap
import Realtinet.TransitionSystem

/-! `TimerQueue` of the Windows port, over the heap of `TimeMinHeap.h`. The heap is an array of pointers to timers, of
which the first `size` count; each timer has in `min_heap_idx` the place it stands at. The timers are not deleted before
the queue is, so that a timer is named by its number.

`expiredProcess` calls a timer while it is still in the heap and takes the top out afterwards; the callback is user code
and may add and cancel timers before that. Nobody sets `min_heap_idx` when a timer is constructed, nor when it is taken
out of the top. -/

namespace Realtinet

open TransitionSystem

namespace WinTimerQueue

/-- `Timer`: `delta` are the microseconds that `addTime` adds for `interval_`; `minHeapIdx` is none as long as nothing
has been written to it. -/
structure Timer where
  expiration : Int
  delta : Nat
  repeat_ : Bool
  minHeapIdx : Option Int
  deriving DecidableEq, Repr

def Timer.restart (now : Int) (timer : Timer) : Timer :=
  { timer with expiration := if timer.repeat_ then now + timer.delta else 0 }

/-- What other threads have queued; a null pointer is the timer of an id that was never set. -/
inductive Functor where
  | addTimerInLoop (timer : Nat)
  | cancelInLoop (timer : Option Nat)
  deriving DecidableEq, Repr

end WinTimerQueue

open WinTimerQueue in
/-- `created` timers exist; `event`, `size` and `capacity` are the heap; `running` is the timer `expiredProcess` is
calling, with its `now`. `wanted` is what the queue was asked for: the timer has been added or put back, and since then
it has neither been cancelled nor had its last call. -/
structure WinTimerQueue where
  timers : Nat → Timer
  created : Nat
  event : Nat → Nat
  size : Nat
  capacity : Nat
  functors : List Functor
  running : Option (Nat × Int)
  wanted : Nat → Bool

namespace WinTimerQueue

def new : WinTimerQueue where
  timers := fun _ => ⟨0, 0, false, none⟩
  created := 0
  event := fun _ => 0
  size := 0
  capacity := 0
  functors := []
  running := none
  wanted := fun _ => false

/-! ### The heap -/

def minHeapElemGreater (lhs rhs : Nat) (s : WinTimerQueue) : Bool :=
  decide ((s.timers rhs).expiration < (s.timers lhs).expiration)

def setIdx (timer : Nat) (index : Int) (s : WinTimerQueue) : WinTimerQueue :=
  { s with timers := Function.update s.timers timer { s.timers timer with minHeapIdx := some index } }

/-- `(s->event[hole_index] = e)->min_heap_idx = hole_index`. -/
def place (hole timer : Nat) (s : WinTimerQueue) : WinTimerQueue :=
  setIdx timer hole { s with event := Function.update s.event hole timer }

/-- `min_heap_shift_up_`; the hole moves at most `fuel` times. -/
def shiftUp : Nat → Nat → Nat → WinTimerQueue → WinTimerQueue
  | 0, hole, e, s => s.place hole e
  | fuel + 1, hole, e, s =>
      let parent := (hole - 1) / 2
      if hole ≠ 0 ∧ s.minHeapElemGreater (s.event parent) e = true then
        shiftUp fuel parent e (s.place hole (s.event parent))
      else s.place hole e

/-- The child that `min_heap_shift_down_` compares with: the right one, unless there is none or it is the greater. -/
def minChild (hole : Nat) (s : WinTimerQueue) : Nat :=
  let right := (hole + 1) * 2
  if right = s.size ∨ s.minHeapElemGreater (s.event right) (s.event (right - 1)) = true then right - 1 else right

/-- `min_heap_shift_down_`; the hole moves at most `fuel` times. -/
def shiftDown : Nat → Nat → Nat → WinTimerQueue → WinTimerQueue
  | 0, hole, e, s => s.place hole e
  | fuel + 1, hole, e, s =>
      if (hole + 1) * 2 ≤ s.size ∧ s.minHeapElemGreater e (s.event (s.minChild hole)) = true then
        shiftDown fuel (s.minChild hole) e (s.place hole (s.event (s.minChild hole)))
      else s.place hole e

/-- `min_heap_reserve`; `realloc` is taken to succeed. -/
def minHeapReserve (n : Nat) (s : WinTimerQueue) : WinTimerQueue :=
  if s.capacity < n then
    let capacity := if s.capacity ≠ 0 then s.capacity * 2 else 8
    { s with capacity := if capacity < n then n else capacity }
  else s

def minHeapPush (e : Nat) (s : WinTimerQueue) : WinTimerQueue :=
  let s := s.minHeapReserve (s.size + 1)
  shiftUp s.size s.size e { s with size := s.size + 1 }

def minHeapPop (s : WinTimerQueue) : WinTimerQueue :=
  if s.size ≠ 0 then shiftDown s.size 0 (s.event (s.size - 1)) { s with size := s.size - 1 } else s

/-- Not an input for this state; a null pointer followed; `min_heap_idx` read before anything was written to it;
`event[size - 1]` of an empty heap. -/
inductive Halt where
  | notEnabled
  | nullTimer
  | uninitialized
  | outOfBounds
  deriving DecidableEq, Repr

def minHeapErase (e : Nat) (s : WinTimerQueue) : Except Halt WinTimerQueue :=
  match (s.timers e).minHeapIdx with
  | none => .error .uninitialized
  | some index =>
      if index = -1 then .ok s
      else if s.size = 0 then .error .outOfBounds
      else
        let last := s.event (s.size - 1)
        let hole := index.toNat
        let s := { s with size := s.size - 1 }
        if 0 < hole ∧ s.minHeapElemGreater (s.event ((hole - 1) / 2)) last = true then
          .ok ((shiftUp hole hole last s).setIdx e (-1))
        else .ok ((shiftDown s.size hole last s).setIdx e (-1))

/-! ### The queue -/

/-- `new Timer`. -/
def newTimer (expiration : Int) (delta : Nat) (repeat_ : Bool) (s : WinTimerQueue) : WinTimerQueue :=
  { s with
    timers := Function.update s.timers s.created ⟨expiration, delta, repeat_, none⟩
    created := s.created + 1 }

def addTimerInLoop (timer : Nat) (s : WinTimerQueue) : WinTimerQueue :=
  { s.minHeapPush timer with wanted := Function.update s.wanted timer true }

def cancelInLoop (timer : Option Nat) (s : WinTimerQueue) : Except Halt WinTimerQueue :=
  match timer with
  | none => .error .nullTimer
  | some timer =>
      match s.minHeapErase timer with
      | .ok s' => .ok { s' with wanted := Function.update s.wanted timer false }
      | .error e => .error e

/-- `addTimer` and `cancel`, called in the loop's thread or in another; the loop runs the oldest functor;
`expiredProcess` finds the top expired and calls it; the callback returns. -/
inductive Input where
  | addTimer (inLoop : Bool) (expiration : Int) (delta : Nat) (repeat_ : Bool)
  | cancel (inLoop : Bool) (timer : Option Nat)
  | runFunctor
  | expire (now : Int)
  | callbackReturns
  deriving DecidableEq, Repr

def step (s : WinTimerQueue) : Input → Except Halt WinTimerQueue
  | .addTimer inLoop expiration delta repeat_ =>
      let timer := s.created
      let s := s.newTimer expiration delta repeat_
      if inLoop then .ok (s.addTimerInLoop timer)
      else .ok { s with functors := s.functors ++ [.addTimerInLoop timer] }
  | .cancel inLoop timer =>
      if inLoop then s.cancelInLoop timer else .ok { s with functors := s.functors ++ [.cancelInLoop timer] }
  | .runFunctor =>
      if s.running ≠ none then .error .notEnabled
      else
        match s.functors with
        | [] => .error .notEnabled
        | .addTimerInLoop timer :: rest => .ok ({ s with functors := rest }.addTimerInLoop timer)
        | .cancelInLoop timer :: rest => { s with functors := rest }.cancelInLoop timer
  | .expire now =>
      if s.running = none ∧ s.size ≠ 0 ∧ (s.timers (s.event 0)).expiration ≤ now then
        .ok { s with running := some (s.event 0, now) }
      else .error .notEnabled
  | .callbackReturns =>
      match s.running with
      | none => .error .notEnabled
      | some (timer, now) =>
          let s := { s.minHeapPop with
            running := none
            wanted := Function.update s.wanted timer (s.timers timer).repeat_ }
          if (s.timers timer).repeat_ then
            .ok ({ s with timers := Function.update s.timers timer ((s.timers timer).restart now) }.minHeapPush timer)
          else .ok s

/-- The queues some run leads to. -/
def Run (inputs : List Input) (s : WinTimerQueue) : Prop := run step new inputs = .ok s

open HoleHeap

variable {s s' s₁ t : WinTimerQueue} {i : Input} {n hole e fuel timer : Nat} {inputs : List Input}

def expirationOf (s : WinTimerQueue) (timer : Nat) : Int := (s.timers timer).expiration

def indexOf (s : WinTimerQueue) (timer : Nat) : Option Int := (s.timers timer).minHeapIdx

theorem greater_iff (lhs rhs : Nat) :
    s.minHeapElemGreater lhs rhs = true ↔ s.expirationOf rhs < s.expirationOf lhs := by
  simp [minHeapElemGreater, expirationOf]

theorem expirationOf_setIdx (timer : Nat) (index : Int) (s : WinTimerQueue) :
    (s.setIdx timer index).expirationOf = s.expirationOf := by
  funext x
  by_cases hx : x = timer
  · simp [expirationOf, setIdx, hx]
  · simp [expirationOf, setIdx, Function.update_of_ne hx]

theorem indexOf_setIdx (timer : Nat) (index : Int) (s : WinTimerQueue) :
    (s.setIdx timer index).indexOf = Function.update s.indexOf timer (some index) := by
  funext x
  by_cases hx : x = timer
  · simp [indexOf, setIdx, hx]
  · simp [indexOf, setIdx, Function.update_of_ne hx]

theorem expirationOf_place (hole timer : Nat) (s : WinTimerQueue) :
    (s.place hole timer).expirationOf = s.expirationOf := expirationOf_setIdx ..

theorem indexOf_place (hole timer : Nat) (s : WinTimerQueue) :
    (s.place hole timer).indexOf = Function.update s.indexOf timer (some (hole : Int)) := indexOf_setIdx ..

/-- Nothing but the heap and indices of timers has changed. -/
structure Frame (s s' : WinTimerQueue) : Prop where
  created : s'.created = s.created
  functors : s'.functors = s.functors
  running : s'.running = s.running
  wanted : s'.wanted = s.wanted
  timers : ∀ x, s'.timers x = { s.timers x with minHeapIdx := s'.indexOf x }

theorem Frame.trans (h : Frame s s₁) (h' : Frame s₁ s') : Frame s s' := by
  refine ⟨h'.created.trans h.created, h'.functors.trans h.functors, h'.running.trans h.running, h'.wanted.trans h.wanted, ?_⟩
  intro x
  rw [h'.timers x, h.timers x]

theorem Frame.repeat_ (h : Frame s s') (x : Nat) : (s'.timers x).repeat_ = (s.timers x).repeat_ := by
  rw [h.timers x]

theorem frame_setIdx (timer : Nat) (index : Int) (s : WinTimerQueue) : Frame s (s.setIdx timer index) := by
  refine ⟨rfl, rfl, rfl, rfl, ?_⟩
  intro x
  by_cases hx : x = timer
  · simp [setIdx, indexOf, hx]
  · simp [setIdx, indexOf, Function.update_of_ne hx]

theorem frame_place (hole timer : Nat) (s : WinTimerQueue) : Frame s (s.place hole timer) := by
  have h := frame_setIdx timer hole { s with event := Function.update s.event hole timer }
  exact ⟨h.created, h.functors, h.running, h.wanted, h.timers⟩

/-- A repair that ends: the first `n` entries are in order and indexed, and are those there were, with `e` in the place
of what was left in the hole. -/
structure Repaired (n hole e : Nat) (s s' : WinTimerQueue) : Prop where
  frame : Frame s s'
  size : s'.size = s.size
  capacity : s'.capacity = s.capacity
  ordered : Ordered s'.expirationOf s'.event n
  indexed : ∀ i, i < n → s'.indexOf (s'.event i) = some (i : Int)
  entries : ∀ x, (∃ i, i < n ∧ s'.event i = x) ↔ x = e ∨ Rest s.event n hole x
  untouched : ∀ x, x ≠ e → ¬Rest s.event n hole x → s'.indexOf x = s.indexOf x

theorem repaired_place (hn : hole < n) (ha : Around s.expirationOf s.event n hole)
    (hi : IndexedOff s.indexOf s.event n hole) (he : ¬Rest s.event n hole e)
    (habove : 0 < hole → s.expirationOf (s.event (parent hole)) ≤ s.expirationOf e)
    (hbelow : ∀ i, 0 < i → i < n → parent i = hole → s.expirationOf e ≤ s.expirationOf (s.event i)) :
    Repaired n hole e s (s.place hole e) := by
  refine ⟨frame_place .., rfl, rfl, ?_, ?_, ?_, ?_⟩
  · rw [expirationOf_place]
    exact ha.fill habove hbelow
  · rw [indexOf_place]
    exact hi.fill he
  · exact fun x => entry_fill hn
  · intro x hx _
    rw [indexOf_place, Function.update_of_ne hx]

/-- One pull on the way. -/
theorem repaired_pull {j : Nat} (hn : hole < n) (hj : j < n) (hne : j ≠ hole)
    (h : Repaired n j e (s.place hole (s.event j)) s') : Repaired n hole e s s' := by
  have hrest : ∀ x, Rest (s.place hole (s.event j)).event n j x ↔ Rest s.event n hole x :=
    fun x => rest_pull hn hj hne
  refine ⟨(frame_place ..).trans h.frame, h.size, h.capacity, h.ordered, h.indexed, ?_, ?_⟩
  · intro x
    rw [h.entries, hrest]
  · intro x hxe hx
    rw [h.untouched x hxe (by rwa [hrest]), indexOf_place]
    refine Function.update_of_ne ?_ _ _
    rintro rfl
    exact hx ⟨j, hj, hne, rfl⟩

theorem repaired_shiftUp (hfuel : hole ≤ fuel) (hn : hole < n) (ha : Around s.expirationOf s.event n hole)
    (hi : IndexedOff s.indexOf s.event n hole) (he : ¬Rest s.event n hole e)
    (hbelow : ∀ i, 0 < i → i < n → parent i = hole → s.expirationOf e ≤ s.expirationOf (s.event i)) :
    Repaired n hole e s (shiftUp fuel hole e s) := by
  induction fuel generalizing hole s with
  | zero => exact repaired_place hn ha hi he (by omega) hbelow
  | succ fuel ih =>
      rw [shiftUp]
      change Repaired n hole e s (if hole ≠ 0 ∧ s.minHeapElemGreater (s.event (parent hole)) e = true then
        shiftUp fuel (parent hole) e (s.place hole (s.event (parent hole))) else s.place hole e)
      split_ifs with hcond
      · obtain ⟨hne, hgreater⟩ := hcond
        have hpos : 0 < hole := Nat.pos_of_ne_zero hne
        have hlt := parent_lt hpos
        have hpn : parent hole < n := Nat.lt_trans hlt hn
        rw [greater_iff] at hgreater
        refine repaired_pull hn hpn (Nat.ne_of_lt hlt) (ih (by omega) hpn ?_ ?_ ?_ ?_)
        · rw [expirationOf_place]
          exact ha.pull_parent hpos hn
        · rw [indexOf_place]
          exact hi.pull hpn (Nat.ne_of_lt hlt)
        · intro hrest
          exact he ((rest_pull hn hpn (Nat.ne_of_lt hlt)).mp hrest)
        · intro i hi0 hin hparent
          rw [expirationOf_place]
          by_cases hih : i = hole
          · subst hih
            exact le_of_lt (by simpa [place, setIdx] using hgreater)
          · have hoff := ha.off i hi0 hin hih (by omega)
            rw [hparent] at hoff
            have hevent : (s.place hole (s.event (parent hole))).event i = s.event i := Function.update_of_ne hih ..
            rw [hevent]
            exact le_trans (le_of_lt hgreater) hoff
      · refine repaired_place hn ha hi he ?_ hbelow
        intro hpos
        by_contra hlt
        exact hcond ⟨Nat.ne_of_gt hpos, greater_iff _ _ |>.mpr (not_le.mp hlt)⟩

theorem minChild_spec (h : (hole + 1) * 2 ≤ s.size) :
    0 < s.minChild hole ∧ s.minChild hole < s.size ∧ parent (s.minChild hole) = hole ∧
      ∀ i, 0 < i → i < s.size → parent i = hole →
        s.expirationOf (s.event (s.minChild hole)) ≤ s.expirationOf (s.event i) := by
  have hleft : (hole + 1) * 2 - 1 = 2 * hole + 1 := by omega
  have hright : (hole + 1) * 2 = 2 * (hole + 1) := by omega
  by_cases hcond : (hole + 1) * 2 = s.size ∨
      s.minHeapElemGreater (s.event ((hole + 1) * 2)) (s.event ((hole + 1) * 2 - 1)) = true
  · have hmin : s.minChild hole = 2 * hole + 1 := (if_pos hcond).trans hleft
    rw [hmin]
    refine ⟨by omega, by omega, (parent_eq_iff (by omega)).mpr (.inl rfl), ?_⟩
    intro i hpos hi hparent
    rcases (parent_eq_iff hpos).mp hparent with rfl | rfl
    · exact le_refl _
    · rcases hcond with hsize | hgreater
      · omega
      · rw [greater_iff, hleft, hright] at hgreater
        exact le_of_lt hgreater
  · have hmin : s.minChild hole = 2 * (hole + 1) := (if_neg hcond).trans hright
    rw [hmin]
    have hne : (hole + 1) * 2 ≠ s.size := fun heq => hcond (.inl heq)
    refine ⟨by omega, by omega, (parent_eq_iff (by omega)).mpr (.inr rfl), ?_⟩
    intro i hpos hi hparent
    rcases (parent_eq_iff hpos).mp hparent with rfl | rfl
    · by_contra hlt
      refine hcond (.inr ?_)
      rw [greater_iff, hleft, hright]
      exact not_le.mp hlt
    · exact le_refl _

theorem repaired_shiftDown (hsize : s.size = n) (hfuel : n ≤ hole + fuel) (hn : hole < n)
    (ha : Around s.expirationOf s.event n hole) (hi : IndexedOff s.indexOf s.event n hole)
    (he : ¬Rest s.event n hole e)
    (habove : 0 < hole → s.expirationOf (s.event (parent hole)) ≤ s.expirationOf e) :
    Repaired n hole e s (shiftDown fuel hole e s) := by
  induction fuel generalizing hole s with
  | zero => omega
  | succ fuel ih =>
      rw [shiftDown]
      split_ifs with hcond
      · obtain ⟨hle, hgreater⟩ := hcond
        obtain ⟨hpos, hlt, hparent, hmin⟩ := minChild_spec hle
        rw [greater_iff] at hgreater
        rw [hsize] at hlt hmin
        have hgt : hole < s.minChild hole := by
          have := parent_lt hpos
          omega
        refine repaired_pull hn hlt (Nat.ne_of_gt hgt) (ih hsize (by omega) hlt ?_ ?_ ?_ ?_)
        · rw [expirationOf_place]
          exact ha.pull_child hpos hlt hparent hmin
        · rw [indexOf_place]
          exact hi.pull hlt (Nat.ne_of_gt hgt)
        · intro hrest
          exact he ((rest_pull hn hlt (Nat.ne_of_gt hgt)).mp hrest)
        · intro _
          rw [expirationOf_place, hparent]
          exact le_of_lt (by simpa [place, setIdx] using hgreater)
      · refine repaired_place hn ha hi he habove ?_
        intro i hpos hin hparent
        by_cases hle : (hole + 1) * 2 ≤ s.size
        · have hmin := (minChild_spec hle).2.2.2 i hpos (hsize ▸ hin) hparent
          refine le_trans ?_ hmin
          by_contra hlt
          exact hcond ⟨hle, greater_iff _ _ |>.mpr (not_le.mp hlt)⟩
        · have := (parent_eq_iff hpos).mp hparent
          omega

/-- A hole behind the entries stays where it is. -/
theorem shiftDown_end (hsize : s.size ≤ hole) : shiftDown fuel hole e s = s.place hole e := by
  cases fuel with
  | zero => rfl
  | succ fuel => rw [shiftDown, if_neg (by omega)]

/-! ### The operations of the heap -/

/-- The timers in the heap are in order and know where they are. -/
structure Heap (s : WinTimerQueue) : Prop where
  ordered : Ordered s.expirationOf s.event s.size
  indexed : ∀ i, i < s.size → s.indexOf (s.event i) = some (i : Int)

/-- The timer is in the heap. -/
def Armed (s : WinTimerQueue) (timer : Nat) : Prop := ∃ i, i < s.size ∧ s.event i = timer

theorem Heap.injective (h : Heap s) {i j : Nat} (hi : i < s.size) (hj : j < s.size) (heq : s.event i = s.event j) :
    i = j := by
  have hij := h.indexed i hi
  rw [heq, h.indexed j hj] at hij
  exact (Int.ofNat_inj.mp (Option.some.inj hij)).symm

/-- What `min_heap_push` leaves. -/
structure Pushed (e : Nat) (s s' : WinTimerQueue) : Prop where
  frame : Frame s s'
  heap : Heap s'
  size : s'.size = s.size + 1
  armed : ∀ x, Armed s' x ↔ x = e ∨ Armed s x
  untouched : ∀ x, x ≠ e → ¬Armed s x → s'.indexOf x = s.indexOf x

theorem pushed_minHeapPush (h : Heap s) (he : ¬Armed s e) : Pushed e s (s.minHeapPush e) := by
  -- `min_heap_reserve` makes room and changes nothing else.
  obtain ⟨capacity, hreserve⟩ : ∃ capacity, s.minHeapReserve (s.size + 1) = { s with capacity := capacity } := by
    by_cases hfull : s.capacity < s.size + 1
    · exact ⟨_, if_pos hfull⟩
    · exact ⟨s.capacity, if_neg hfull⟩
  rw [minHeapPush, hreserve]
  have hrest : ∀ x, Rest s.event (s.size + 1) s.size x ↔ Armed s x := by
    intro x
    constructor
    · rintro ⟨i, hi, hne, hx⟩
      exact ⟨i, by omega, hx⟩
    · rintro ⟨i, hi, hx⟩
      exact ⟨i, by omega, by omega, hx⟩
  have hrepaired : Repaired (s.size + 1) s.size e { s with capacity := capacity, size := s.size + 1 }
      (shiftUp s.size s.size e { s with capacity := capacity, size := s.size + 1 }) := by
    refine repaired_shiftUp (Nat.le_refl _) (Nat.lt_succ_self _) h.ordered.around_end ?_ ?_ ?_
    · intro i hi hne
      exact h.indexed i (by omega)
    · rw [hrest]
      exact he
    · intro i hpos hi hparent
      have := parent_lt hpos
      omega
  have hframe := hrepaired.frame
  refine ⟨⟨hframe.created, hframe.functors, hframe.running, hframe.wanted, hframe.timers⟩, ⟨?_, ?_⟩, hrepaired.size,
    ?_, ?_⟩
  · rw [hrepaired.size]
    exact hrepaired.ordered
  · rw [hrepaired.size]
    exact hrepaired.indexed
  · intro x
    rw [Armed, hrepaired.size, hrepaired.entries, hrest]
  · intro x hxe hx
    exact hrepaired.untouched x hxe (by rwa [hrest])

/-- What is left without the entry at `i`. -/
structure Dropped (i : Nat) (s s' : WinTimerQueue) : Prop where
  frame : Frame s s'
  heap : Heap s'
  size : s'.size = s.size - 1
  armed : ∀ x, Armed s' x ↔ Armed s x ∧ x ≠ s.event i
  self : s'.indexOf (s.event i) = some (i : Int)
  untouched : ∀ x, ¬Armed s x → s'.indexOf x = s.indexOf x

/-- The last entry has been moved to the place of the one at `i`, if that is another one. -/
theorem dropped_of_repaired {i : Nat} (h : Heap s) (hi : i < s.size)
    (hrepaired : i < s.size - 1 → Repaired (s.size - 1) i (s.event (s.size - 1)) { s with size := s.size - 1 } s')
    (hlast : i = s.size - 1 → s' = { s with size := s.size - 1 }.place i (s.event (s.size - 1))) : Dropped i s s' := by
  rcases Nat.lt_or_eq_of_le (Nat.le_sub_one_of_lt hi) with hlt | heq
  · have hr := hrepaired hlt
    have hsize : s'.size = s.size - 1 := hr.size
    have hnot : ¬(s.event i = s.event (s.size - 1) ∨ Rest s.event (s.size - 1) i (s.event i)) := by
      rintro (heq | ⟨j, hj, hne, heq⟩)
      · exact Nat.ne_of_lt hlt (h.injective hi (by omega) heq)
      · exact hne (h.injective (by omega) hi heq)
    have harmed : ∀ x, (x = s.event (s.size - 1) ∨ Rest s.event (s.size - 1) i x) ↔ Armed s x ∧ x ≠ s.event i := by
      intro x
      constructor
      · rintro hx
        refine ⟨?_, ?_⟩
        · rcases hx with rfl | ⟨j, hj, -, rfl⟩
          · exact ⟨s.size - 1, by omega, rfl⟩
          · exact ⟨j, by omega, rfl⟩
        · rintro rfl
          exact hnot hx
      · rintro ⟨⟨j, hj, rfl⟩, hne⟩
        by_cases hjlast : j = s.size - 1
        · exact .inl (by rw [hjlast])
        · exact .inr ⟨j, by omega, fun hji => hne (by rw [hji]), rfl⟩
    have hframe := hr.frame
    refine ⟨⟨hframe.created, hframe.functors, hframe.running, hframe.wanted, hframe.timers⟩, ⟨?_, ?_⟩, hsize, ?_, ?_, ?_⟩
    · rw [hsize]
      exact hr.ordered
    · rw [hsize]
      exact hr.indexed
    · intro x
      rw [Armed, hsize, hr.entries]
      exact harmed x
    · rw [hr.untouched _ (fun heq => hnot (.inl heq)) (fun hrest => hnot (.inr hrest))]
      exact h.indexed i hi
    · intro x hx
      refine hr.untouched x ?_ ?_
      · rintro rfl
        exact hx ⟨s.size - 1, by omega, rfl⟩
      · rintro ⟨j, hj, -, hjx⟩
        exact hx ⟨j, by omega, hjx⟩
  · have hs' := hlast heq
    rw [← heq] at hs'
    -- The entry is the last one: it is written where it stands.
    have hevent : s'.event = s.event := by
      rw [hs']
      exact Function.update_eq_self i s.event
    have hindex : s'.indexOf = s.indexOf := by
      rw [hs', indexOf_place]
      refine (Function.update_eq_iff.mpr ⟨?_, fun _ _ => rfl⟩)
      exact (h.indexed i hi).symm
    have hexpiration : s'.expirationOf = s.expirationOf := by
      rw [hs', expirationOf_place]
      rfl
    have hsize : s'.size = i := by rw [hs']; rfl
    have hframe : Frame s s' := by
      have hplace := frame_place i (s.event i) { s with size := i }
      rw [← hs'] at hplace
      exact ⟨hplace.created, hplace.functors, hplace.running, hplace.wanted, hplace.timers⟩
    refine ⟨hframe, ⟨?_, ?_⟩, hsize.trans heq, ?_, ?_, ?_⟩
    · rw [hsize, hevent, hexpiration]
      exact h.ordered.mono (Nat.le_of_lt hi)
    · rw [hsize, hevent, hindex]
      exact fun j hj => h.indexed j (Nat.lt_trans hj hi)
    · intro x
      rw [Armed, Armed, hsize, hevent]
      constructor
      · rintro ⟨j, hj, rfl⟩
        refine ⟨⟨j, by omega, rfl⟩, ?_⟩
        intro hji
        exact Nat.ne_of_lt hj (h.injective (by omega) hi hji)
      · rintro ⟨⟨j, hj, rfl⟩, hne⟩
        refine ⟨j, ?_, rfl⟩
        have : j ≠ i := fun hji => hne (by rw [hji])
        omega
    · rw [hindex]
      exact h.indexed i hi
    · intro x _
      rw [hindex]

/-- What stands in the hole at `i` when the entry there is dropped. -/
theorem Heap.not_rest_last (h : Heap s) (i : Nat) :
    ¬Rest s.event (s.size - 1) i (s.event (s.size - 1)) := by
  rintro ⟨j, hj, -, heq⟩
  exact Nat.ne_of_lt hj (h.injective (by omega) (by omega) heq)

theorem dropped_shiftDown {i : Nat} (h : Heap s) (hi : i < s.size) (hfuel : s.size - 1 ≤ i + fuel)
    (habove : 0 < i → s.expirationOf (s.event (parent i)) ≤ s.expirationOf (s.event (s.size - 1))) :
    Dropped i s (shiftDown fuel i (s.event (s.size - 1)) { s with size := s.size - 1 }) := by
  refine dropped_of_repaired h hi ?_ ?_
  · intro hlt
    refine repaired_shiftDown rfl hfuel hlt ((h.ordered.mono (Nat.sub_le _ _)).around hlt) ?_ (h.not_rest_last i)
      habove
    exact fun j hj _ => h.indexed j (by omega)
  · intro heq
    exact shiftDown_end (Nat.le_of_eq heq.symm)

theorem dropped_shiftUp {i : Nat} (h : Heap s) (hi : i < s.size) (hpos : 0 < i)
    (hgreater : s.expirationOf (s.event (s.size - 1)) < s.expirationOf (s.event (parent i))) :
    Dropped i s (shiftUp i i (s.event (s.size - 1)) { s with size := s.size - 1 }) := by
  refine dropped_of_repaired h hi ?_ ?_
  · intro hlt
    have haround : Around s.expirationOf s.event (s.size - 1) i := (h.ordered.mono (Nat.sub_le _ _)).around hlt
    refine repaired_shiftUp (Nat.le_refl _) hlt haround ?_ (h.not_rest_last i) ?_
    · exact fun j hj _ => h.indexed j (by omega)
    · intro j hj0 hj hparent
      exact le_trans (le_of_lt hgreater) (haround.across hpos j hj0 hj hparent)
  · -- The last entry does not come before its parent.
    intro heq
    have := h.ordered i hpos hi
    rw [← heq] at hgreater
    exact absurd this (not_le.mpr hgreater)

theorem dropped_minHeapPop (h : Heap s) (hsize : s.size ≠ 0) : Dropped 0 s s.minHeapPop := by
  rw [minHeapPop, if_pos hsize]
  exact dropped_shiftDown h (Nat.pos_of_ne_zero hsize) (by omega) (by omega)

/-- `min_heap_erase` of a timer with an index: the entry at that index is dropped, whichever it is. -/
theorem minHeapErase_eq {i : Nat} (h : Heap s) (hindex : s.indexOf e = some (i : Int)) (hi : i < s.size) :
    ∃ s₁, Dropped i s s₁ ∧ s.minHeapErase e = .ok (s₁.setIdx e (-1)) := by
  have hneg : (i : Int) ≠ -1 := by omega
  have hsize : s.size ≠ 0 := by omega
  rw [indexOf] at hindex
  simp only [minHeapErase, hindex, hneg, hsize, if_false, Int.toNat_natCast]
  by_cases hcond : 0 < i ∧
      minHeapElemGreater (s.event ((i - 1) / 2)) (s.event (s.size - 1)) { s with size := s.size - 1 } = true
  · rw [if_pos hcond]
    exact ⟨_, dropped_shiftUp h hi hcond.1 ((greater_iff _ _).mp hcond.2), rfl⟩
  · rw [if_neg hcond]
    refine ⟨_, dropped_shiftDown h hi (Nat.le_add_left _ _) ?_, rfl⟩
    intro hpos
    by_contra hlt
    exact hcond ⟨hpos, (greater_iff _ _).mpr (not_le.mp hlt)⟩

/-- The index of a timer that is not in the heap may be overwritten. -/
theorem heap_setIdx (h : Heap s) (he : ¬Armed s e) (index : Int) : Heap (s.setIdx e index) := by
  refine ⟨?_, ?_⟩
  · rw [expirationOf_setIdx]
    exact h.ordered
  · intro j hj
    rw [indexOf_setIdx]
    have hne : s.event j ≠ e := fun heq => he ⟨j, hj, heq⟩
    exact (Function.update_of_ne hne _ _).trans (h.indexed j hj)

/-! ### Whole runs -/

/-- The timer an id points to may be cancelled: it is in the heap, or it has been cancelled before. -/
def cancelable (timer : Option Nat) (s : WinTimerQueue) : Bool :=
  match timer with
  | none => false
  | some timer =>
      match s.indexOf timer with
      | none => false
      | some index => index == -1 || (0 ≤ index && index.toNat < s.size && s.event index.toNat == timer)

/-- The inputs on which the heap does what the queue is asked for: no timer is cancelled that has had its last call, or
has not yet come to the loop, or never was; and when a callback returns, its timer is still the top. -/
def proper (s : WinTimerQueue) : Input → Bool
  | .cancel true timer => s.cancelable timer
  | .runFunctor =>
      match s.functors with
      | .cancelInLoop timer :: _ => s.cancelable timer
      | _ => true
  | .callbackReturns =>
      match s.running with
      | some (timer, _) => s.size != 0 && s.event 0 == timer
      | none => true
  | _ => true

/-- The timer that a queued functor adds. -/
def Functor.added : Functor → Option Nat
  | .addTimerInLoop timer => some timer
  | .cancelInLoop _ => none

def pendingAdds (s : WinTimerQueue) : List Nat := s.functors.filterMap Functor.added

structure Kept (s : WinTimerQueue) : Prop where
  heap : Heap s
  armed_iff : ∀ x, Armed s x ↔ s.wanted x = true
  armed_lt : ∀ x, Armed s x → x < s.created
  adds_nodup : s.pendingAdds.Nodup
  adds : ∀ x ∈ s.pendingAdds, x < s.created ∧ ¬Armed s x

theorem heap_of_timers (h : Heap s) (hevent : s'.event = s.event) (hsize : s'.size = s.size)
    (htimers : ∀ x, Armed s x → s'.timers x = s.timers x) : Heap s' := by
  have harmed : ∀ i, i < s.size → s'.timers (s.event i) = s.timers (s.event i) := fun i hi => htimers _ ⟨i, hi, rfl⟩
  refine ⟨?_, ?_⟩
  · intro i hpos hi
    rw [hsize] at hi
    rw [expirationOf, expirationOf, hevent, harmed i hi, harmed _ (Nat.lt_trans (parent_lt hpos) hi)]
    exact h.ordered i hpos hi
  · intro i hi
    rw [hsize] at hi
    rw [indexOf, hevent, harmed i hi]
    exact h.indexed i hi

/-- One timer goes into the heap (`b`) or is out of it, and the queue was asked for as much. -/
theorem Kept.update {b : Bool} (h : Kept s) (hheap : Heap s') (hcreated : s'.created = s.created)
    (hfunctors : s'.functors = s.functors) (hwanted : s'.wanted = Function.update s.wanted timer b)
    (hadd : b = true → timer < s.created ∧ timer ∉ s.pendingAdds)
    (harmed : ∀ x, Armed s' x ↔ x = timer ∧ b = true ∨ x ≠ timer ∧ Armed s x) : Kept s' := by
  have hadds : s'.pendingAdds = s.pendingAdds := by rw [pendingAdds, pendingAdds, hfunctors]
  refine ⟨hheap, ?_, ?_, ?_, ?_⟩
  · intro x
    rw [harmed, hwanted]
    by_cases hx : x = timer
    · simp [hx]
    · simp [hx, h.armed_iff]
  · intro x hx
    rw [hcreated]
    rcases (harmed x).mp hx with ⟨rfl, hb⟩ | ⟨-, hx⟩
    · exact (hadd hb).1
    · exact h.armed_lt x hx
  · rw [hadds]
    exact h.adds_nodup
  · intro x hx
    rw [hadds] at hx
    rw [hcreated, harmed]
    refine ⟨(h.adds x hx).1, ?_⟩
    rintro (⟨rfl, hb⟩ | ⟨-, harm⟩)
    · exact (hadd hb).2 hx
    · exact (h.adds x hx).2 harm

/-- A timer that has had its last call: `min_heap_pop` has left it with the index of the top. -/
structure Expired (x : Nat) (s : WinTimerQueue) : Prop where
  created : x < s.created
  not_armed : ¬Armed s x
  not_added : x ∉ s.pendingAdds
  index : s.indexOf x = some 0

theorem Expired.update {b : Bool} {x : Nat} (hx : Expired x s) (hne : x ≠ timer) (hcreated : s'.created = s.created)
    (hfunctors : s'.functors = s.functors) (hindex : s'.indexOf x = s.indexOf x)
    (harmed : ∀ x, Armed s' x ↔ x = timer ∧ b = true ∨ x ≠ timer ∧ Armed s x) : Expired x s' := by
  refine ⟨hcreated ▸ hx.created, ?_, ?_, hindex.trans hx.index⟩
  · rw [harmed]
    rintro (⟨heq, -⟩ | ⟨-, harm⟩)
    · exact hne heq
    · exact hx.not_armed harm
  · rw [pendingAdds, hfunctors]
    exact hx.not_added

/-- What an accepted step does to the invariant, and to a timer that has had its last call. -/
structure Keeps (s s' : WinTimerQueue) : Prop where
  kept : Kept s'
  expired : ∀ x, Expired x s → Expired x s'

theorem keeps_addTimerInLoop (h : Kept s) (hlt : timer < s.created) (hnew : ¬Armed s timer)
    (hpending : timer ∉ s.pendingAdds) :
    Kept (s.addTimerInLoop timer) ∧ ∀ x, x ≠ timer → Expired x s → Expired x (s.addTimerInLoop timer) := by
  have hp := pushed_minHeapPush h.heap hnew
  have harmed : ∀ x, Armed (s.addTimerInLoop timer) x ↔ x = timer ∧ true = true ∨ x ≠ timer ∧ Armed s x := by
    intro x
    refine (hp.armed x).trans ?_
    by_cases hx : x = timer
    · simp [hx]
    · simp [hx]
  refine ⟨h.update ⟨hp.heap.ordered, hp.heap.indexed⟩ hp.frame.created hp.frame.functors rfl
    (fun _ => ⟨hlt, hpending⟩) harmed, ?_⟩
  intro x hne hx
  exact hx.update hne hp.frame.created hp.frame.functors (hp.untouched x hne hx.not_armed) harmed

/-- The timer of an id that may be cancelled is in the heap at its index, or has the index `-1`. -/
theorem cancelable_cases {id : Option Nat} (hcancelable : s.cancelable id = true) :
    ∃ timer, id = some timer ∧ (s.indexOf timer = some (-1) ∨
      ∃ i : Nat, s.indexOf timer = some (i : Int) ∧ i < s.size ∧ s.event i = timer) := by
  cases id with
  | none => cases hcancelable
  | some timer =>
      refine ⟨timer, rfl, ?_⟩
      cases hindex : s.indexOf timer with
      | none => simp [cancelable, hindex] at hcancelable
      | some index =>
          simp only [cancelable, hindex, Bool.or_eq_true, beq_iff_eq, Bool.and_eq_true, decide_eq_true_eq] at hcancelable
          rcases hcancelable with rfl | ⟨⟨hnonneg, hlt⟩, hevent⟩
          · exact .inl rfl
          · exact .inr ⟨index.toNat, by rw [Int.toNat_of_nonneg hnonneg], hlt, hevent⟩

theorem keeps_cancelInLoop {id : Option Nat} (h : Kept s) (hcancelable : s.cancelable id = true)
    (hcancel : s.cancelInLoop id = .ok s') : Keeps s s' := by
  obtain ⟨timer, rfl, hindex | ⟨i, hindex, hi, hevent⟩⟩ := cancelable_cases hcancelable
  · -- Cancelled before: the heap is left alone.
    have hna : ¬Armed s timer := by
      rintro ⟨j, hj, rfl⟩
      rw [h.heap.indexed j hj] at hindex
      cases hindex
    have herase : s.minHeapErase timer = .ok s := by
      rw [indexOf] at hindex
      simp [minHeapErase, hindex]
    simp only [cancelInLoop, herase] at hcancel
    cases hcancel
    have harmed : ∀ x, Armed s x ↔ x = timer ∧ false = true ∨ x ≠ timer ∧ Armed s x := by
      intro x
      by_cases hx : x = timer
      · simp [hx, hna]
      · simp [hx]
    refine ⟨h.update ⟨h.heap.ordered, h.heap.indexed⟩ rfl rfl rfl nofun harmed, ?_⟩
    exact fun x hx => ⟨hx.created, hx.not_armed, hx.not_added, hx.index⟩
  · obtain ⟨s₁, hdropped, herase⟩ := minHeapErase_eq h.heap hindex hi
    simp only [cancelInLoop, herase] at hcancel
    cases hcancel
    have harmed : ∀ x, Armed s₁ x ↔ x = timer ∧ false = true ∨ x ≠ timer ∧ Armed s x := by
      intro x
      rw [hdropped.armed, hevent]
      simp [and_comm]
    have hnot : ¬Armed s₁ timer := by simp [harmed]
    have hheap := heap_setIdx hdropped.heap hnot (-1)
    refine ⟨h.update ⟨hheap.ordered, hheap.indexed⟩ hdropped.frame.created hdropped.frame.functors rfl nofun harmed,
      ?_⟩
    intro x hx
    have hne : x ≠ timer := by
      rintro rfl
      exact hx.not_armed ⟨i, hi, hevent⟩
    refine hx.update hne hdropped.frame.created hdropped.frame.functors ?_ harmed
    change (s₁.setIdx timer (-1)).indexOf x = s.indexOf x
    rw [indexOf_setIdx, Function.update_of_ne hne]
    exact hdropped.untouched x hx.not_armed

theorem keeps_newTimer (expiration : Int) (delta : Nat) (repeat_ : Bool) (h : Kept s) :
    Keeps s (s.newTimer expiration delta repeat_) := by
  have htimers : ∀ x, x < s.created → (s.newTimer expiration delta repeat_).timers x = s.timers x :=
    fun x hx => Function.update_of_ne (Nat.ne_of_lt hx) ..
  refine ⟨⟨heap_of_timers h.heap rfl rfl fun x hx => htimers x (h.armed_lt x hx), h.armed_iff, ?_, h.adds_nodup, ?_⟩, ?_⟩
  · exact fun x hx => Nat.lt_succ_of_lt (h.armed_lt x hx)
  · exact fun x hx => ⟨Nat.lt_succ_of_lt (h.adds x hx).1, (h.adds x hx).2⟩
  · intro x hx
    refine ⟨Nat.lt_succ_of_lt hx.created, hx.not_armed, hx.not_added, ?_⟩
    rw [indexOf, htimers x hx.created]
    exact hx.index

theorem pendingAdds_append (functor : Functor) :
    { s with functors := s.functors ++ [functor] }.pendingAdds = s.pendingAdds ++ functor.added.toList := by
  rw [pendingAdds, pendingAdds, List.filterMap_append]
  cases h : functor.added with
  | none => simp [h]
  | some timer => simp [h]

theorem pendingAdds_cons {functor : Functor} {rest : List Functor} (h : s.functors = functor :: rest) :
    s.pendingAdds = functor.added.toList ++ { s with functors := rest }.pendingAdds := by
  rw [pendingAdds, h]
  cases hadded : functor.added with
  | none => simp [hadded, pendingAdds]
  | some timer => simp [hadded, pendingAdds]

/-- A functor is queued. -/
theorem keeps_append (functor : Functor) (h : Kept s)
    (hfresh : ∀ x, functor.added = some x → x < s.created ∧ ¬Armed s x ∧ x ∉ s.pendingAdds) :
    Kept { s with functors := s.functors ++ [functor] } ∧
      ∀ x, functor.added ≠ some x → Expired x s → Expired x { s with functors := s.functors ++ [functor] } := by
  have hadds := pendingAdds_append (s := s) functor
  refine ⟨⟨⟨h.heap.ordered, h.heap.indexed⟩, h.armed_iff, h.armed_lt, ?_, ?_⟩, ?_⟩
  · rw [hadds]
    refine List.nodup_append.mpr ⟨h.adds_nodup, ?_, ?_⟩
    · cases functor.added with
      | none => exact List.nodup_nil
      | some x => simp
    · intro a ha b hb
      rintro rfl
      exact (hfresh a (Option.mem_toList.mp hb)).2.2 ha
  · intro x hx
    rw [hadds, List.mem_append, Option.mem_toList] at hx
    rcases hx with hx | hx
    · exact h.adds x hx
    · exact ⟨(hfresh x hx).1, (hfresh x hx).2.1⟩
  · intro x hne hx
    refine ⟨hx.created, hx.not_armed, ?_, hx.index⟩
    rw [hadds, List.mem_append, Option.mem_toList]
    rintro (hmem | hmem)
    · exact hx.not_added hmem
    · exact hne hmem

/-- The oldest functor is taken from the queue. -/
theorem keeps_pop {functor : Functor} {rest : List Functor} (h : Kept s) (hfunctors : s.functors = functor :: rest) :
    Keeps s { s with functors := rest } := by
  have hadds := pendingAdds_cons hfunctors
  refine ⟨⟨⟨h.heap.ordered, h.heap.indexed⟩, h.armed_iff, h.armed_lt, ?_, ?_⟩, ?_⟩
  · have hnodup := h.adds_nodup
    rw [hadds] at hnodup
    exact (List.nodup_append.mp hnodup).2.1
  · intro x hx
    exact h.adds x (by rw [hadds]; exact List.mem_append_right _ hx)
  · intro x hx
    refine ⟨hx.created, hx.not_armed, ?_, hx.index⟩
    intro hmem
    exact hx.not_added (by rw [hadds]; exact List.mem_append_right _ hmem)

theorem keeps_runFunctor (h : Kept s) (hproper : s.proper .runFunctor = true) (hstep : step s .runFunctor = .ok s') :
    Keeps s s' := by
  simp only [step] at hstep
  split_ifs at hstep
  split at hstep
  · cases hstep
  · rename_i timer rest hfunctors
    cases hstep
    have hpop := keeps_pop h hfunctors
    have hadds := pendingAdds_cons hfunctors
    have hmem : timer ∈ s.pendingAdds := by
      rw [hadds]
      exact List.mem_append_left _ List.mem_cons_self
    have hrest : timer ∉ { s with functors := rest }.pendingAdds := by
      have hnodup := h.adds_nodup
      rw [hadds] at hnodup
      exact (List.nodup_cons.mp hnodup).1
    obtain ⟨hkept, hexpired⟩ := keeps_addTimerInLoop hpop.kept (h.adds timer hmem).1 (h.adds timer hmem).2 hrest
    refine ⟨hkept, fun x hx => hexpired x ?_ (hpop.expired x hx)⟩
    rintro rfl
    exact hx.not_added hmem
  · rename_i id rest hfunctors
    have hpop := keeps_pop h hfunctors
    have hcancelable : { s with functors := rest }.cancelable id = true := by
      simp only [proper, hfunctors] at hproper
      exact hproper
    have hcancel := keeps_cancelInLoop hpop.kept hcancelable hstep
    exact ⟨hcancel.kept, fun x hx => hcancel.expired x (hpop.expired x hx)⟩

/-- The callback returns to the top: the timer is taken out, and put back if it repeats. -/
theorem keeps_callbackReturns (h : Kept s) (hproper : s.proper .callbackReturns = true)
    (hstep : step s .callbackReturns = .ok s') : Keeps s s' := by
  obtain ⟨timer, now, hrunning⟩ : ∃ timer now, s.running = some (timer, now) := by
    cases hrunning : s.running with
    | none => simp [step, hrunning] at hstep
    | some r => exact ⟨r.1, r.2, rfl⟩
  obtain ⟨hsize, htop⟩ : s.size ≠ 0 ∧ s.event 0 = timer := by simpa [proper, hrunning] using hproper
  have hdropped := dropped_minHeapPop h.heap hsize
  have harm : Armed s timer := ⟨0, Nat.pos_of_ne_zero hsize, htop⟩
  have hne : ∀ x, Expired x s → x ≠ timer := by
    rintro x hx rfl
    exact hx.not_armed harm
  have hrepeat : (s.minHeapPop.timers timer).repeat_ = (s.timers timer).repeat_ := hdropped.frame.repeat_ timer
  simp only [step, hrunning, hrepeat] at hstep
  split_ifs at hstep with hcond
  · -- Restarted outside of the heap, and pushed again.
    cases hstep
    set s₁ : WinTimerQueue := { s.minHeapPop with
      timers := Function.update s.minHeapPop.timers timer ((s.minHeapPop.timers timer).restart now)
      running := none
      wanted := Function.update s.wanted timer (s.timers timer).repeat_ } with hs₁
    have hnot : ¬Armed s₁ timer := fun harm => ((hdropped.armed timer).mp harm).2 htop.symm
    have hheap : Heap s₁ := by
      refine heap_of_timers hdropped.heap rfl rfl ?_
      intro x hx
      refine Function.update_of_ne ?_ _ _
      rintro rfl
      exact hnot hx
    have hp := pushed_minHeapPush hheap hnot
    have harmed : ∀ x, Armed (s₁.minHeapPush timer) x ↔ x = timer ∧ true = true ∨ x ≠ timer ∧ Armed s x := by
      intro x
      rw [hp.armed]
      by_cases hx : x = timer
      · simp [hx]
      · have : Armed s₁ x ↔ Armed s x ∧ x ≠ s.event 0 := hdropped.armed x
        simp [this, htop, hx]
    have hcreated : (s₁.minHeapPush timer).created = s.created := hp.frame.created.trans hdropped.frame.created
    have hfunctors : (s₁.minHeapPush timer).functors = s.functors := hp.frame.functors.trans hdropped.frame.functors
    refine ⟨h.update hp.heap hcreated hfunctors ?_ ?_ harmed, ?_⟩
    · rw [hp.frame.wanted, ← hcond]
    · exact fun _ => ⟨h.armed_lt timer harm, fun hmem => (h.adds timer hmem).2 harm⟩
    · intro x hx
      refine hx.update (hne x hx) hcreated hfunctors ?_ harmed
      have hnot₁ : ¬Armed s₁ x := fun harm => hx.not_armed ((hdropped.armed x).mp harm).1
      have hs₁x : s₁.indexOf x = s.minHeapPop.indexOf x := by
        rw [indexOf, indexOf]
        exact congrArg Timer.minHeapIdx (Function.update_of_ne (hne x hx) _ _)
      rw [hp.untouched x (hne x hx) hnot₁, hs₁x]
      exact hdropped.untouched x hx.not_armed
  · cases hstep
    have hlast : (s.timers timer).repeat_ = false := Bool.not_eq_true _ |>.mp hcond
    have harmed : ∀ x, Armed s.minHeapPop x ↔ x = timer ∧ false = true ∨ x ≠ timer ∧ Armed s x := by
      intro x
      rw [hdropped.armed, htop]
      simp [and_comm]
    have hwanted : Function.update s.wanted timer (s.timers timer).repeat_ = Function.update s.wanted timer false := by
      rw [hlast]
    refine ⟨h.update ⟨hdropped.heap.ordered, hdropped.heap.indexed⟩ hdropped.frame.created hdropped.frame.functors
      hwanted nofun harmed, ?_⟩
    intro x hx
    exact hx.update (hne x hx) hdropped.frame.created hdropped.frame.functors (hdropped.untouched x hx.not_armed) harmed

theorem keeps_step (h : Kept s) (hproper : s.proper i = true) (hstep : step s i = .ok s') : Keeps s s' := by
  cases i with
  | addTimer inLoop expiration delta repeat_ =>
      have hnew := keeps_newTimer expiration delta repeat_ h
      have hna : ¬Armed s s.created := fun harm => Nat.lt_irrefl _ (h.armed_lt _ harm)
      have hadds : s.created ∉ s.pendingAdds := fun hmem => Nat.lt_irrefl _ (h.adds _ hmem).1
      cases inLoop with
      | true =>
          simp only [step, if_true] at hstep
          cases hstep
          obtain ⟨hkept, hexpired⟩ := keeps_addTimerInLoop hnew.kept (Nat.lt_succ_self s.created) hna hadds
          exact ⟨hkept, fun x hx => hexpired x (Nat.ne_of_lt hx.created) (hnew.expired x hx)⟩
      | false =>
          simp only [step, Bool.false_eq_true, if_false] at hstep
          cases hstep
          have happend := keeps_append (.addTimerInLoop s.created) hnew.kept ?_
          · obtain ⟨hkept, hexpired⟩ := happend
            refine ⟨hkept, fun x hx => hexpired x ?_ (hnew.expired x hx)⟩
            intro heq
            exact Nat.ne_of_gt hx.created (Option.some.inj heq)
          · rintro x heq
            cases heq
            exact ⟨Nat.lt_succ_self _, hna, hadds⟩
  | cancel inLoop id =>
      cases inLoop with
      | true => exact keeps_cancelInLoop h hproper (by simpa [step] using hstep)
      | false =>
          simp only [step, Bool.false_eq_true, if_false] at hstep
          cases hstep
          obtain ⟨hkept, hexpired⟩ := keeps_append (.cancelInLoop id) h nofun
          exact ⟨hkept, fun x hx => hexpired x nofun hx⟩
  | runFunctor => exact keeps_runFunctor h hproper hstep
  | expire now =>
      simp only [step] at hstep
      split_ifs at hstep with hcond
      cases hstep
      exact ⟨⟨⟨h.heap.ordered, h.heap.indexed⟩, h.armed_iff, h.armed_lt, h.adds_nodup, h.adds⟩,
        fun x hx => ⟨hx.created, hx.not_armed, hx.not_added, hx.index⟩⟩
  | callbackReturns => exact keeps_callbackReturns h hproper hstep

theorem kept_new : Kept new := by
  refine ⟨⟨?_, ?_⟩, ?_, ?_, List.nodup_nil, ?_⟩
  · intro i _ hi
    exact absurd hi (Nat.not_lt_zero i)
  · intro i hi
    exact absurd hi (Nat.not_lt_zero i)
  · intro x
    refine iff_of_false ?_ (by simp [new])
    rintro ⟨i, hi, -⟩
    exact Nat.not_lt_zero i hi
  · rintro x ⟨i, hi, -⟩
    exact absurd hi (Nat.not_lt_zero i)
  · intro x hx
    cases hx

/-- The inputs of the run are proper where they come. -/
def Proper (s : WinTimerQueue) (inputs : List Input) : Prop := Along step (fun s i => s.proper i = true) s inputs

instance (s : WinTimerQueue) (inputs : List Input) : Decidable (Proper s inputs) :=
  inferInstanceAs (Decidable (Along step (fun s i => s.proper i = true) s inputs))

theorem kept_run (h : Kept s) (hproper : Proper s inputs) (hrun : run step s inputs = .ok t) : Kept t :=
  run_invariant_along (fun _ _ _ hkept hp hstep => (keeps_step hkept hp hstep).kept) h hproper hrun

/-- **The heap holds the timers that are asked for.** As long as no timer is cancelled that is neither in the heap nor
cancelled before, and a callback leaves its own timer on top, the heap holds exactly the timers that have been added and
not been cancelled nor called for the last time, each once, and the first of them to expire is the top, which is the one
that `expiredProcess` looks at. -/
theorem timers_kept (hrun : Run inputs s) (hproper : Proper new inputs) :
    (∀ x, Armed s x ↔ s.wanted x = true) ∧
    (∀ i j, i < s.size → j < s.size → s.event i = s.event j → i = j) ∧
    ∀ x, s.wanted x = true → 0 < s.size ∧ (s.timers (s.event 0)).expiration ≤ (s.timers x).expiration := by
  have hkept := kept_run kept_new hproper hrun
  refine ⟨hkept.armed_iff, fun i j => hkept.heap.injective, ?_⟩
  intro x hx
  obtain ⟨i, hi, rfl⟩ := (hkept.armed_iff x).mpr hx
  exact ⟨Nat.lt_of_le_of_lt (Nat.zero_le i) hi, hkept.heap.ordered.first_le hi⟩

/-- A run with every kind of input: timers added in the loop and from another thread, one called for its last time, one
put back, one cancelled. -/
def mixedInputs : List Input :=
  [.addTimer true 500 0 false, .addTimer true 300 250 true, .addTimer false 400 0 false, .runFunctor,
    .expire 450, .callbackReturns, .expire 450, .callbackReturns, .cancel false (some 0), .runFunctor]

theorem timers_kept_mixedInputs :
    ∃ s, Run mixedInputs s ∧ Proper new mixedInputs ∧ s.wanted 1 = true ∧
      ∀ x, Armed s x ↔ s.wanted x = true := by
  have hrun : ∃ s, Run mixedInputs s ∧ s.wanted 1 = true := ⟨_, rfl, rfl⟩
  have hproper : Proper new mixedInputs := by decide
  obtain ⟨s, hs, hwanted⟩ := hrun
  exact ⟨s, hs, hproper, hwanted, (timers_kept hs hproper).1⟩

end WinTimerQueue
end Realtinet
