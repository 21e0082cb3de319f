import Realtinet.UdpConnection

/-! `EventLoop` as the thread that runs `loop()` and the threads that queue functors in it and tell it to quit. What a
functor does is left open: while one runs, the loop thread may make the calls that user code may make, and once more
when `doPendingFunctors` destroys the functors it has called, and with them the objects bound in them. `queueInLoop`
and `quit` of another thread are two steps, the change under the mutex and the write to `wakeupFd_` that follows, and
the loop may take any number of steps between them. `poll` may return without `wakeupChannel_` although there is
something to read: at most `events_.size()` events are reported. -/

namespace Realtinet

open TransitionSystem

namespace EventLoop

/-- Where the loop thread is: not in `loop()`, before the test of `quit_`, in `poll`, going through the active channels
(with `wakeupChannel_` still among them or not), in `doPendingFunctors`, or at its end, where the functors are
destroyed. -/
inductive Phase where
  | outside
  | head
  | polling
  | handling (wakeupActive : Bool)
  | functors
  | releasing
  deriving DecidableEq, Repr

end EventLoop

open EventLoop in
/-- `functors` is what `doPendingFunctors` has still to call, `owing` are the threads that have still to write to
`wakeupFd_`, `queued` and `executed` the functors queued and called so far, oldest first. -/
structure EventLoop (φ : Type) where
  phase : Phase
  looping : Bool
  quit : Bool
  callingPendingFunctors : Bool
  pendingFunctors : List φ
  functors : List φ
  wakeupFd : Nat
  owing : List Nat
  iteration : Nat
  queued : List φ
  executed : List φ
  deriving DecidableEq

namespace EventLoop

variable {φ : Type}

def new : EventLoop φ where
  phase := .outside
  looping := false
  quit := false
  callingPendingFunctors := false
  pendingFunctors := []
  functors := []
  wakeupFd := 0
  owing := []
  iteration := 0
  queued := []
  executed := []

def wakeup (s : EventLoop φ) : EventLoop φ := { s with wakeupFd := s.wakeupFd + 1 }

/-- `EventLoop::handleRead` empties the eventfd. -/
def handleRead (s : EventLoop φ) : EventLoop φ := { s with wakeupFd := 0, phase := .handling false }

/-- Code of the loop thread that may call into the loop is running. -/
def loopThreadRuns (s : EventLoop φ) : Bool :=
  match s.phase with
  | .head => false
  | .polling => false
  | _ => true

/-- The thread is not in the middle of a call. -/
def ready (caller : Thread) (s : EventLoop φ) : Bool :=
  match caller with
  | .loop => s.loopThreadRuns
  | .other id => !s.owing.contains id

/-- `queueInLoop`, for another thread up to its call of `wakeup`. -/
def queueInLoop (caller : Thread) (cb : φ) (s : EventLoop φ) : EventLoop φ :=
  let s := { s with pendingFunctors := s.pendingFunctors ++ [cb], queued := s.queued ++ [cb] }
  match caller with
  | .loop => if s.callingPendingFunctors then s.wakeup else s
  | .other id => { s with owing := id :: s.owing }

/-- `quit`, for another thread up to its call of `wakeup`. -/
def callQuit (caller : Thread) (s : EventLoop φ) : EventLoop φ :=
  match caller with
  | .loop => { s with quit := true }
  | .other id => { s with quit := true, owing := id :: s.owing }

/-- `loop` is called; it tests `quit_`; `poll` returns, and may report `wakeupChannel_` if there is something to read;
the callback of that channel is called; all active channels have been gone through and `doPendingFunctors` takes the
functors; it calls the next one; it has called them all; it has destroyed them; a thread calls `queueInLoop` or `quit`;
another thread writes to `wakeupFd_`. -/
inductive Input (φ : Type) where
  | loop
  | testQuit
  | pollReturns (wakeupActive : Bool)
  | handleRead
  | handled
  | runFunctor
  | functorsDone
  | released
  | queueInLoop (caller : Thread) (cb : φ)
  | quit (caller : Thread)
  | wakeup (id : Nat)
  deriving DecidableEq

inductive Halt where
  | notEnabled
  | alreadyLooping
  deriving DecidableEq

def step (s : EventLoop φ) : Input φ → Except Halt (EventLoop φ)
  | .loop =>
      if s.loopThreadRuns then
        if s.looping then .error .alreadyLooping
        else .ok { s with looping := true, quit := false, phase := .head }
      else .error .notEnabled
  | .testQuit =>
      if s.phase = .head then
        if s.quit then .ok { s with looping := false, phase := .outside } else .ok { s with phase := .polling }
      else .error .notEnabled
  | .pollReturns wakeupActive =>
      if s.phase = .polling ∧ (wakeupActive = true → 0 < s.wakeupFd) then
        .ok { s with iteration := s.iteration + 1, phase := .handling wakeupActive }
      else .error .notEnabled
  | .handleRead => if s.phase = .handling true then .ok s.handleRead else .error .notEnabled
  | .handled =>
      if s.phase = .handling false then
        .ok { s with
          callingPendingFunctors := true
          functors := s.pendingFunctors
          pendingFunctors := []
          phase := .functors }
      else .error .notEnabled
  | .runFunctor =>
      match s.functors with
      | cb :: rest => .ok { s with functors := rest, executed := s.executed ++ [cb] }
      | [] => .error .notEnabled
  | .functorsDone =>
      if s.phase = .functors ∧ s.functors = [] then .ok { s with callingPendingFunctors := false, phase := .releasing }
      else .error .notEnabled
  | .released => if s.phase = .releasing then .ok { s with phase := .head } else .error .notEnabled
  | .queueInLoop caller cb => if s.ready caller then .ok (s.queueInLoop caller cb) else .error .notEnabled
  | .quit caller => if s.ready caller then .ok (s.callQuit caller) else .error .notEnabled
  | .wakeup id =>
      if s.owing.contains id then .ok { s.wakeup with owing := s.owing.erase id } else .error .notEnabled

/-- The loops some run leads to from a newly constructed one. -/
def Run (inputs : List (Input φ)) (s : EventLoop φ) : Prop := run step new inputs = .ok s

variable {s s' t : EventLoop φ} {i : Input φ} {inputs later : List (Input φ)}

/-- What a step can do, one case for each branch of the source. -/
inductive Outcome (s : EventLoop φ) : Input φ → EventLoop φ → Prop where
  | entered (hruns : s.loopThreadRuns = true) (hlooping : s.looping = false) :
      Outcome s .loop { s with looping := true, quit := false, phase := .head }
  | exited (hphase : s.phase = .head) (hquit : s.quit = true) :
      Outcome s .testQuit { s with looping := false, phase := .outside }
  | polls (hphase : s.phase = .head) (hquit : s.quit = false) : Outcome s .testQuit { s with phase := .polling }
  | polled {active : Bool} (hphase : s.phase = .polling) (hactive : active = true → 0 < s.wakeupFd) :
      Outcome s (.pollReturns active) { s with iteration := s.iteration + 1, phase := .handling active }
  | read (hphase : s.phase = .handling true) : Outcome s .handleRead s.handleRead
  | swapped (hphase : s.phase = .handling false) :
      Outcome s .handled { s with
        callingPendingFunctors := true
        functors := s.pendingFunctors
        pendingFunctors := []
        phase := .functors }
  | called {cb : φ} {rest : List φ} (hfunctors : s.functors = cb :: rest) :
      Outcome s .runFunctor { s with functors := rest, executed := s.executed ++ [cb] }
  | finished (hphase : s.phase = .functors) (hfunctors : s.functors = []) :
      Outcome s .functorsDone { s with callingPendingFunctors := false, phase := .releasing }
  | released (hphase : s.phase = .releasing) : Outcome s .released { s with phase := .head }
  | queuedHere {cb : φ} (hruns : s.loopThreadRuns = true) :
      Outcome s (.queueInLoop .loop cb) (s.queueInLoop .loop cb)
  | queuedThere {id : Nat} {cb : φ} : Outcome s (.queueInLoop (.other id) cb) (s.queueInLoop (.other id) cb)
  | quitHere (hruns : s.loopThreadRuns = true) : Outcome s (.quit .loop) { s with quit := true }
  | quitThere {id : Nat} : Outcome s (.quit (.other id)) { s with quit := true, owing := id :: s.owing }
  | woken {id : Nat} (hid : id ∈ s.owing) : Outcome s (.wakeup id) { s.wakeup with owing := s.owing.erase id }

theorem step_outcome (hstep : s.step i = .ok s') : Outcome s i s' := by
  cases i with
  | loop =>
      simp only [step] at hstep
      split_ifs at hstep with hruns hlooping
      cases hstep
      exact .entered hruns (by simpa using hlooping)
  | testQuit =>
      simp only [step] at hstep
      split_ifs at hstep with hphase hquit
      · cases hstep
        exact .exited hphase hquit
      · cases hstep
        exact .polls hphase (by simpa using hquit)
  | pollReturns active =>
      simp only [step] at hstep
      split_ifs at hstep with hcond
      cases hstep
      exact .polled hcond.1 hcond.2
  | handleRead =>
      simp only [step] at hstep
      split_ifs at hstep with hphase
      cases hstep
      exact .read hphase
  | handled =>
      simp only [step] at hstep
      split_ifs at hstep with hphase
      cases hstep
      exact .swapped hphase
  | runFunctor =>
      simp only [step] at hstep
      split at hstep
      · cases hstep
        exact .called ‹_›
      · cases hstep
  | functorsDone =>
      simp only [step] at hstep
      split_ifs at hstep with hcond
      cases hstep
      exact .finished hcond.1 hcond.2
  | released =>
      simp only [step] at hstep
      split_ifs at hstep with hphase
      cases hstep
      exact .released hphase
  | queueInLoop caller cb =>
      simp only [step] at hstep
      split_ifs at hstep with hready
      cases hstep
      cases caller with
      | loop => exact .queuedHere hready
      | other id => exact .queuedThere
  | quit caller =>
      simp only [step] at hstep
      split_ifs at hstep with hready
      cases hstep
      cases caller with
      | loop => exact .quitHere hready
      | other id => exact .quitThere
  | wakeup id =>
      simp only [step] at hstep
      split_ifs at hstep with hid
      cases hstep
      exact .woken (by simpa using hid)

/-! ### Every functor is called once, in the order of queueing -/

structure Accounted (s : EventLoop φ) : Prop where
  looping_iff : s.looping = true ↔ s.phase ≠ .outside
  calling_iff : s.callingPendingFunctors = true ↔ s.phase = .functors
  functors_nil : s.phase ≠ .functors → s.functors = []
  queued_eq : s.queued = s.executed ++ (s.functors ++ s.pendingFunctors)

theorem queueInLoop_frame (caller : Thread) (cb : φ) (s : EventLoop φ) :
    (s.queueInLoop caller cb).phase = s.phase ∧ (s.queueInLoop caller cb).looping = s.looping ∧
      (s.queueInLoop caller cb).quit = s.quit ∧ (s.queueInLoop caller cb).functors = s.functors ∧
      (s.queueInLoop caller cb).callingPendingFunctors = s.callingPendingFunctors ∧
      (s.queueInLoop caller cb).pendingFunctors = s.pendingFunctors ++ [cb] ∧
      (s.queueInLoop caller cb).queued = s.queued ++ [cb] ∧ (s.queueInLoop caller cb).executed = s.executed ∧
      (s.queueInLoop caller cb).iteration = s.iteration := by
  cases caller with
  | loop =>
      simp only [queueInLoop]
      split_ifs <;> simp [wakeup]
  | other id => simp [queueInLoop]

theorem accounted_queueInLoop (h : Accounted s) (caller : Thread) (cb : φ) : Accounted (s.queueInLoop caller cb) := by
  obtain ⟨hphase, hlooping, -, hfunctors, hcalling, hpending, hqueued, hexecuted, -⟩ := queueInLoop_frame caller cb s
  refine ⟨?_, ?_, ?_, ?_⟩
  · rw [hlooping, hphase]
    exact h.looping_iff
  · rw [hcalling, hphase]
    exact h.calling_iff
  · rw [hfunctors, hphase]
    exact h.functors_nil
  · rw [hqueued, hexecuted, hfunctors, hpending, h.queued_eq]
    simp only [List.append_assoc]

/-- `loop()` is not entered a second time from inside. -/
theorem Accounted.outside (h : Accounted s) (hlooping : s.looping = false) : s.phase = .outside := by
  by_contra hphase
  have := h.looping_iff.mpr hphase
  rw [hlooping] at this
  cases this

theorem Accounted.not_calling (h : Accounted s) (hphase : s.phase ≠ .functors) :
    s.callingPendingFunctors = false ∧ s.functors = [] :=
  ⟨by simpa using mt h.calling_iff.mp hphase, h.functors_nil hphase⟩

theorem accounted_step (h : Accounted s) (hstep : s.step i = .ok s') : Accounted s' := by
  have hqueued := h.queued_eq
  cases step_outcome hstep with
  | entered hruns hlooping =>
      have hphase := h.outside hlooping
      obtain ⟨hcalling, hnil⟩ := h.not_calling (by simp [hphase])
      exact ⟨by simp, by simp [hcalling], fun _ => hnil, hqueued⟩
  | exited hphase hquit =>
      obtain ⟨hcalling, hnil⟩ := h.not_calling (by simp [hphase])
      exact ⟨by simp, by simp [hcalling], fun _ => hnil, hqueued⟩
  | polls hphase hquit =>
      have hlooping := h.looping_iff.mpr (by simp [hphase])
      obtain ⟨hcalling, hnil⟩ := h.not_calling (by simp [hphase])
      exact ⟨by simp [hlooping], by simp [hcalling], fun _ => hnil, hqueued⟩
  | polled hphase hactive =>
      have hlooping := h.looping_iff.mpr (by simp [hphase])
      obtain ⟨hcalling, hnil⟩ := h.not_calling (by simp [hphase])
      exact ⟨by simp [hlooping], by simp [hcalling], fun _ => hnil, hqueued⟩
  | read hphase =>
      have hlooping := h.looping_iff.mpr (by simp [hphase])
      obtain ⟨hcalling, hnil⟩ := h.not_calling (by simp [hphase])
      exact ⟨by simp [handleRead, hlooping], by simp [handleRead, hcalling], fun _ => hnil, hqueued⟩
  | swapped hphase =>
      have hlooping := h.looping_iff.mpr (by simp [hphase])
      have hnil := h.functors_nil (by rw [hphase]; exact nofun)
      refine ⟨by simp [hlooping], by simp, fun hne => absurd rfl hne, ?_⟩
      rw [hnil, List.nil_append] at hqueued
      simpa using hqueued
  | @called cb rest hfunctors =>
      have hphase : s.phase = .functors := by
        by_contra hne
        rw [h.functors_nil hne] at hfunctors
        cases hfunctors
      refine ⟨h.looping_iff, h.calling_iff, fun hne => absurd hphase hne, ?_⟩
      rw [hfunctors] at hqueued
      simpa using hqueued
  | finished hphase hfunctors =>
      have hlooping := h.looping_iff.mpr (by simp [hphase])
      exact ⟨by simp [hlooping], by simp, fun _ => hfunctors, hqueued⟩
  | released hphase =>
      have hlooping := h.looping_iff.mpr (by simp [hphase])
      obtain ⟨hcalling, hnil⟩ := h.not_calling (by simp [hphase])
      exact ⟨by simp [hlooping], by simp [hcalling], fun _ => hnil, hqueued⟩
  | queuedHere hruns => exact accounted_queueInLoop h .loop _
  | queuedThere => exact accounted_queueInLoop h (.other _) _
  | quitHere hruns => exact ⟨h.looping_iff, h.calling_iff, h.functors_nil, hqueued⟩
  | quitThere => exact ⟨h.looping_iff, h.calling_iff, h.functors_nil, hqueued⟩
  | woken hid => exact ⟨h.looping_iff, h.calling_iff, h.functors_nil, hqueued⟩

theorem accounted_run (hrun : Run inputs s) : Accounted s :=
  run_invariant (fun _ _ _ => accounted_step) ⟨by simp [new], by simp [new], fun _ => rfl, rfl⟩ hrun

/-- How far the functors queued before `n` iterations were over have come. -/
structure Served (Q : List φ) (n : Nat) (s : EventLoop φ) : Prop where
  accounted : Accounted s
  queued : Q <+: s.queued
  le_iteration : n ≤ s.iteration
  stage : n < s.iteration →
    (s.iteration = n + 1 ∧ ∃ active, s.phase = .handling active) ∨
    (s.iteration = n + 1 ∧ s.phase = .functors ∧ Q <+: s.executed ++ s.functors) ∨
    Q <+: s.executed

theorem Served.executed {Q : List φ} {n : Nat} (h : Served Q n s) (hlt : n < s.iteration)
    (hhandling : ∀ active, s.phase ≠ .handling active) (hfunctors : s.phase ≠ .functors) : Q <+: s.executed := by
  rcases h.stage hlt with ⟨-, active, hphase⟩ | ⟨-, hphase, -⟩ | hexecuted
  · exact absurd hphase (hhandling active)
  · exact absurd hphase hfunctors
  · exact hexecuted

theorem served_step {Q : List φ} {n : Nat} (h : Served Q n s) (hstep : s.step i = .ok s') : Served Q n s' := by
  have haccounted := accounted_step h.accounted hstep
  have hle := h.le_iteration
  cases step_outcome hstep with
  | entered hruns hlooping =>
      have hphase := h.accounted.outside hlooping
      refine ⟨haccounted, h.queued, hle, fun hlt => .inr (.inr ?_)⟩
      exact h.executed hlt (by simp [hphase]) (by simp [hphase])
  | exited hphase hquit =>
      refine ⟨haccounted, h.queued, hle, fun hlt => .inr (.inr ?_)⟩
      exact h.executed hlt (by simp [hphase]) (by simp [hphase])
  | polls hphase hquit =>
      refine ⟨haccounted, h.queued, hle, fun hlt => .inr (.inr ?_)⟩
      exact h.executed hlt (by simp [hphase]) (by simp [hphase])
  | @polled active hphase hactive =>
      refine ⟨haccounted, h.queued, Nat.le_succ_of_le hle, fun _ => ?_⟩
      -- The first poll to return after `n` iterations, or one that finds the functors called.
      rcases Nat.eq_or_lt_of_le hle with heq | hlt
      · exact .inl ⟨by rw [heq], active, rfl⟩
      · exact .inr (.inr (h.executed hlt (by simp [hphase]) (by simp [hphase])))
  | read hphase =>
      refine ⟨haccounted, h.queued, hle, fun hlt => ?_⟩
      rcases h.stage hlt with ⟨heq, -⟩ | ⟨-, hfunctors, -⟩ | hexecuted
      · exact .inl ⟨heq, false, rfl⟩
      · rw [hphase] at hfunctors
        cases hfunctors
      · exact .inr (.inr hexecuted)
  | swapped hphase =>
      have hnil := h.accounted.functors_nil (by rw [hphase]; exact nofun)
      have hqueued := h.accounted.queued_eq
      rw [hnil, List.nil_append] at hqueued
      refine ⟨haccounted, h.queued, hle, fun hlt => ?_⟩
      rcases h.stage hlt with ⟨heq, -⟩ | ⟨-, hfunctors, -⟩ | hexecuted
      · exact .inr (.inl ⟨heq, rfl, hqueued ▸ h.queued⟩)
      · rw [hphase] at hfunctors
        cases hfunctors
      · exact .inr (.inr hexecuted)
  | @called cb rest hfunctors =>
      refine ⟨haccounted, h.queued, hle, fun hlt => ?_⟩
      rcases h.stage hlt with hhandling | ⟨heq, hphase, hprefix⟩ | hexecuted
      · exact .inl hhandling
      · rw [hfunctors] at hprefix
        exact .inr (.inl ⟨heq, hphase, by simpa using hprefix⟩)
      · exact .inr (.inr (hexecuted.trans (List.prefix_append _ _)))
  | finished hphase hfunctors =>
      refine ⟨haccounted, h.queued, hle, fun hlt => .inr (.inr ?_)⟩
      rcases h.stage hlt with ⟨-, active, hhandling⟩ | ⟨-, -, hprefix⟩ | hexecuted
      · rw [hphase] at hhandling
        cases hhandling
      · simpa [hfunctors] using hprefix
      · exact hexecuted
  | released hphase =>
      refine ⟨haccounted, h.queued, hle, fun hlt => .inr (.inr ?_)⟩
      exact h.executed hlt (by simp [hphase]) (by simp [hphase])
  | @queuedHere cb hruns =>
      obtain ⟨hphase, -, -, hfunctors, -, -, hqueued, hexecuted, hiteration⟩ := queueInLoop_frame .loop cb s
      refine ⟨haccounted, ?_, hiteration ▸ hle, ?_⟩
      · exact hqueued ▸ h.queued.trans (List.prefix_append _ _)
      · rw [hphase, hfunctors, hexecuted, hiteration]
        exact h.stage
  | @queuedThere id cb =>
      obtain ⟨hphase, -, -, hfunctors, -, -, hqueued, hexecuted, hiteration⟩ := queueInLoop_frame (.other id) cb s
      refine ⟨haccounted, ?_, hiteration ▸ hle, ?_⟩
      · exact hqueued ▸ h.queued.trans (List.prefix_append _ _)
      · rw [hphase, hfunctors, hexecuted, hiteration]
        exact h.stage
  | quitHere hruns => exact ⟨haccounted, h.queued, hle, h.stage⟩
  | quitThere => exact ⟨haccounted, h.queued, hle, h.stage⟩
  | woken hid => exact ⟨haccounted, h.queued, hle, h.stage⟩

/-- **Functors are called once, in order, and without starvation.** Whatever the threads and the functors themselves
queue and when, the functors called are the first ones queued, in that order and none twice; and by the time `poll` has
returned twice more, all functors queued by then have been called. -/
theorem functors_called_in_order (inputs later : List (Input φ)) (s t : EventLoop φ) (hrun : Run inputs s)
    (hlater : run step s later = .ok t) :
    t.queued = t.executed ++ (t.functors ++ t.pendingFunctors) ∧
      (s.iteration + 2 ≤ t.iteration → s.queued <+: t.executed) := by
  have hserved : Served s.queued s.iteration s :=
    ⟨accounted_run hrun, List.prefix_refl _, Nat.le_refl _, fun hlt => absurd hlt (Nat.lt_irrefl _)⟩
  have hend : Served s.queued s.iteration t := run_invariant (fun _ _ _ => served_step) hserved hlater
  refine ⟨hend.accounted.queued_eq, ?_⟩
  intro htwo
  rcases hend.stage (by omega) with ⟨heq, -⟩ | ⟨heq, -⟩ | hexecuted
  · omega
  · omega
  · exact hexecuted

/-- A functor queues another one while it is called; a third comes from another thread in between. -/
theorem functors_called_in_order_reentrant :
    ∃ s t : EventLoop Nat, Run [.loop, .testQuit, .queueInLoop (.other 7) 1, .pollReturns false, .handled, .runFunctor,
        .queueInLoop (.other 8) 2, .queueInLoop .loop 3] s ∧
      run step s [.functorsDone, .released, .testQuit, .wakeup 7, .pollReturns true, .handleRead, .handled, .runFunctor,
        .runFunctor, .functorsDone, .released, .testQuit, .wakeup 8, .pollReturns true] = .ok t ∧
      s.queued = [1, 2, 3] ∧ s.queued <+: t.executed := by
  have hruns : ∃ s t : EventLoop Nat, Run [.loop, .testQuit, .queueInLoop (.other 7) 1, .pollReturns false, .handled,
      .runFunctor, .queueInLoop (.other 8) 2, .queueInLoop .loop 3] s ∧
      run step s [.functorsDone, .released, .testQuit, .wakeup 7, .pollReturns true, .handleRead, .handled, .runFunctor,
        .runFunctor, .functorsDone, .released, .testQuit, .wakeup 8, .pollReturns true] = .ok t ∧
      s.queued = [1, 2, 3] ∧ s.iteration + 2 ≤ t.iteration := ⟨_, _, rfl, rfl, rfl, by decide⟩
  obtain ⟨s, t, hrun, hlater, hqueued, htwo⟩ := hruns
  exact ⟨s, t, hrun, hlater, hqueued, (functors_called_in_order _ _ s t hrun hlater).2 htwo⟩

/-! ### The loop does not sleep on work -/

/-- `poll` returns at once, or as soon as a thread that is inside `wakeup` has written. -/
def Awake (s : EventLoop φ) : Prop := 0 < s.wakeupFd ∨ s.owing ≠ []

/-- The loop thread queues nothing before it calls `loop()`, and nothing while the functors that have been called are
destroyed; there `queueInLoop` does not wake the loop up. -/
def QueuesInside (s : EventLoop φ) : Input φ → Prop
  | .queueInLoop .loop _ => s.phase ≠ .outside ∧ s.phase ≠ .releasing
  | _ => True

instance (s : EventLoop φ) (i : Input φ) : Decidable (QueuesInside s i) := by
  unfold QueuesInside
  split <;> infer_instance

structure Alert (s : EventLoop φ) : Prop where
  accounted : Accounted s
  awake : (∀ active, s.phase ≠ .handling active) → s.pendingFunctors ≠ [] → Awake s

theorem Alert.of_phase (h : Alert s) (hhandling : ∀ active, s.phase ≠ .handling active)
    (haccounted : Accounted s') (hpending : s'.pendingFunctors = s.pendingFunctors) (hfd : s'.wakeupFd = s.wakeupFd)
    (howing : s'.owing = s.owing) : Alert s' := by
  refine ⟨haccounted, fun _ hne => ?_⟩
  rw [hpending] at hne
  rw [Awake, hfd, howing]
  exact h.awake hhandling hne

theorem alert_step (h : Alert s) (hinside : QueuesInside s i) (hstep : s.step i = .ok s') : Alert s' := by
  have haccounted := accounted_step h.accounted hstep
  cases step_outcome hstep with
  | entered hruns hlooping =>
      have hphase := h.accounted.outside hlooping
      exact h.of_phase (by simp [hphase]) haccounted rfl rfl rfl
  | exited hphase hquit => exact h.of_phase (by simp [hphase]) haccounted rfl rfl rfl
  | polls hphase hquit => exact h.of_phase (by simp [hphase]) haccounted rfl rfl rfl
  | polled hphase hactive => exact ⟨haccounted, fun hhandling => absurd rfl (hhandling _)⟩
  | read hphase => exact ⟨haccounted, fun hhandling => absurd rfl (hhandling _)⟩
  | swapped hphase => exact ⟨haccounted, fun _ hne => absurd rfl hne⟩
  | @called cb rest hfunctors =>
      have hphase : s.phase = .functors := by
        by_contra hne
        rw [h.accounted.functors_nil hne] at hfunctors
        cases hfunctors
      exact h.of_phase (by simp [hphase]) haccounted rfl rfl rfl
  | finished hphase hfunctors => exact h.of_phase (by simp [hphase]) haccounted rfl rfl rfl
  | released hphase => exact h.of_phase (by simp [hphase]) haccounted rfl rfl rfl
  | @queuedHere cb hruns =>
      refine ⟨haccounted, fun hhandling _ => .inl ?_⟩
      rw [(queueInLoop_frame .loop cb s).1] at hhandling
      -- The loop thread runs code inside `loop()`, and not that of a channel: a functor.
      have hphase : s.phase = .functors := by
        cases hphase : s.phase with
        | outside => exact absurd hphase hinside.1
        | releasing => exact absurd hphase hinside.2
        | head => simp [loopThreadRuns, hphase] at hruns
        | polling => simp [loopThreadRuns, hphase] at hruns
        | handling active => exact absurd hphase (hhandling active)
        | functors => rfl
      simp [queueInLoop, h.accounted.calling_iff.mpr hphase, wakeup]
  | queuedThere => exact ⟨haccounted, fun _ _ => .inr (by simp [queueInLoop])⟩
  | quitHere hruns => exact ⟨haccounted, h.awake⟩
  | quitThere => exact ⟨haccounted, fun _ _ => .inr (by simp)⟩
  | woken hid => exact ⟨haccounted, fun _ _ => .inl (Nat.succ_pos _)⟩

/-- **No wakeup is lost.** However the queueing threads and the loop interleave, the loop is in `poll` with functors
pending only if there is something to read from `wakeupFd_` or a thread is on its way to write to it; provided that the
loop thread itself queues nothing while it is not in `loop()`, nor in the destructor of an object bound in a functor
that has been called. -/
theorem no_wakeup_lost (inputs : List (Input φ)) (s : EventLoop φ) (hrun : Run inputs s)
    (hinside : Along step QueuesInside new inputs) (hpolling : s.phase = .polling) (hpending : s.pendingFunctors ≠ []) :
    Awake s := by
  have hnew : Alert (new : EventLoop φ) :=
    ⟨⟨by simp [new], by simp [new], fun _ => rfl, rfl⟩, fun _ hne => absurd rfl hne⟩
  have halert : Alert s := run_invariant_along (fun _ _ _ => alert_step) hnew hinside hrun
  exact halert.awake (by simp [hpolling]) hpending

/-- The write of the first thread is read before the second one queues, whose own write is still to come. -/
theorem no_wakeup_lost_secondThread :
    ∃ s : EventLoop Nat, Run [.loop, .testQuit, .queueInLoop (.other 7) 1, .wakeup 7, .pollReturns true, .handleRead,
        .handled, .queueInLoop (.other 8) 2, .runFunctor, .functorsDone, .released, .testQuit] s ∧
      s.pendingFunctors = [2] ∧ s.wakeupFd = 0 ∧ Awake s := by
  have hruns : ∃ s : EventLoop Nat, Run [.loop, .testQuit, .queueInLoop (.other 7) 1, .wakeup 7, .pollReturns true,
      .handleRead, .handled, .queueInLoop (.other 8) 2, .runFunctor, .functorsDone, .released, .testQuit] s ∧
      s.phase = .polling ∧ s.pendingFunctors = [2] ∧ s.wakeupFd = 0 := ⟨_, rfl, rfl, rfl, rfl⟩
  obtain ⟨s, hrun, hpolling, hpending, hfd⟩ := hruns
  exact ⟨s, hrun, hpending, hfd, no_wakeup_lost _ s hrun (by decide) hpolling (by simp [hpending])⟩

/-- What the loop thread queues before `loop()` waits for the first poll to time out. -/
example : ∃ s : EventLoop Nat, Run [.queueInLoop .loop 1, .loop, .testQuit] s ∧ s.phase = .polling ∧
    s.pendingFunctors = [1] ∧ s.wakeupFd = 0 ∧ s.owing = [] := ⟨_, rfl, rfl, rfl, rfl, rfl⟩

/-- The destructor of an object bound in a functor queues another functor, and the loop goes to sleep on it. -/
example : ∃ s : EventLoop Nat, Run [.loop, .testQuit, .queueInLoop (.other 7) 1, .wakeup 7, .pollReturns true,
      .handleRead, .handled, .runFunctor, .functorsDone, .queueInLoop .loop 2, .released, .testQuit] s ∧
    s.phase = .polling ∧ s.pendingFunctors = [2] ∧ s.wakeupFd = 0 ∧ s.owing = [] := ⟨_, rfl, rfl, rfl, rfl, rfl⟩

/-! ### The end of `loop()` -/

end EventLoop
end Realtinet
