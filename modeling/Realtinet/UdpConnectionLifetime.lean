import Realtinet.UdpConnectionUpdates

/-! The life of a `UdpConnection` object. It is destroyed by whoever drops the last reference to it: the owner,
user code and other threads hold references, so do the functors bound to `shared_from_this()` and the calls in
progress that were made through one. The functors of `send`, `startRead` and `stopRead` and the callback of the
update timer are bound to the raw pointer and hold none. The destructor cancels the timer: at once in the loop
thread, through the loop's queue from any other thread, and without effect on a timer that the loop has already
taken out as expired. -/

namespace Realtinet

open UdpConnection TransitionSystem

namespace UdpConnection

/-- Bound to `shared_from_this()`. -/
def Functor.isShared : Functor → Bool
  | .forceCloseInLoop => true
  | .writeCompleteCallback => true
  | _ => false

/-- A call in progress that keeps the connection alive: callbacks hold the pointer they were given, `handleClose`
its `guardThis`, `Channel::handleEvent` the tied object while it goes through the events, and the functors of
`connectEstablished`, which makes the first call of `Update`, and `connectDestroyed` the pointer they are bound to.
`Send` and the later calls of `Update` may be made through the raw pointer. -/
def guards (c : UdpConnection) : Frame → Bool
  | .kcpSend => false
  | .kcpUpdate => c.curKcpsessUpTimerId.isNone
  | _ => true

end UdpConnection

/-- The connection as an object. `heldInLoop` and `heldElsewhere` count the references that code in the loop thread
and in other threads has, apart from the loop's queue and the calls in progress; `expired` are the update timers in
the batch that the loop is going through; `cancelQueued` is a `TimerQueue::cancelInLoop` that waits behind the
functors of the connection. -/
structure ConnectionObject where
  conn : UdpConnection
  heldInLoop : Nat
  heldElsewhere : Nat
  alive : Bool
  expired : List Nat
  cancelQueued : Option Nat
  deriving DecidableEq

namespace ConnectionObject

/-- Why a run ends: the connection's own reasons, an assert of a destructor, or the execution of a functor or a
timer callback on a destroyed connection. -/
inductive Stop where
  | notEnabled
  | connection (halt : Halt)
  | notDisconnected
  | channelStillAdded
  | afterDestruction
  deriving DecidableEq

/-- An input of the connection; the loop takes an update timer out as expired; it comes to a queued cancellation;
some thread is given a copy of a reference; some thread drops one. -/
inductive Input where
  | conn (i : UdpConnection.Input)
  | expire (id : Nat)
  | cancelInLoop
  | hold (caller : Thread)
  | drop (caller : Thread)
  deriving DecidableEq

/-- A new connection, held by its owner: a client in the connection's loop, or a server in its own. -/
def new (writeComplete : Bool) (owner : Thread) : ConnectionObject where
  conn := UdpConnection.new writeComplete
  heldInLoop := if owner = .loop then 1 else 0
  heldElsewhere := if owner = .loop then 0 else 1
  alive := true
  expired := []
  cancelQueued := none

def held (s : ConnectionObject) : Nat := s.heldInLoop + s.heldElsewhere

def references (s : ConnectionObject) : Nat :=
  s.held + s.conn.pendingFunctors.countP Functor.isShared + s.conn.stack.countP s.conn.guards

/-- The inputs that the rest of the program can give: a thread calls through a reference that it has, user code also
through the one it was called with, the owner's functors are bound to a copy, a timer runs in its batch, and the loop
handles events and functors only between two batches. -/
def allowed (s : ConnectionObject) : UdpConnection.Input → Bool
  | .timer id => s.expired.contains id
  | .poll _ => s.expired.isEmpty
  | .handleEvent => s.expired.isEmpty
  | .eventsHandled => s.expired.isEmpty
  | .functor => s.expired.isEmpty
  | .call .loop _ => decide (0 < s.heldInLoop) || !s.conn.stack.isEmpty
  | .call (.other _) _ => decide (0 < s.heldElsewhere)
  | .retrieve _ => decide (0 < s.heldInLoop) || !s.conn.stack.isEmpty
  | .connectEstablished => decide (0 < s.held)
  | .connectDestroyed => decide (0 < s.held) || !s.conn.stack.isEmpty
  | _ => true

/-- The references of functors that have been run are dropped with the batch of functors. -/
def heldInLoopAfter (s : ConnectionObject) : UdpConnection.Input → Nat
  | .functor => s.heldInLoop + (s.conn.pendingFunctors.head?.elim 0 fun functor => functor.isShared.toNat)
  | _ => s.heldInLoop

def expiredAfter (s : ConnectionObject) : UdpConnection.Input → List Nat
  | .timer id => s.expired.erase id
  | _ => s.expired

/-- `TimerQueue::getExpired`. -/
def expire (id : Nat) (s : ConnectionObject) : Except Stop ConnectionObject :=
  if s.conn.stack.isEmpty && s.conn.timers.contains id && !s.expired.contains id then
    .ok { s with expired := s.expired ++ [id] }
  else .error .notEnabled

/-- An input to a living connection, up to the destructor that may follow. -/
def act (s : ConnectionObject) : Input → Except Stop ConnectionObject
  | .conn i =>
      if s.allowed i then
        match s.conn.step i with
        | .ok conn => .ok { s with conn := conn, heldInLoop := s.heldInLoopAfter i, expired := s.expiredAfter i }
        | .error e => .error (.connection e)
      else .error .notEnabled
  | .expire id => s.expire id
  | .cancelInLoop => .error .notEnabled
  | .hold caller =>
      if decide (0 < s.held) || s.conn.stack.head? == some .user then
        if caller = .loop then .ok { s with heldInLoop := s.heldInLoop + 1 }
        else .ok { s with heldElsewhere := s.heldElsewhere + 1 }
      else .error .notEnabled
  | .drop .loop =>
      if decide (0 < s.heldInLoop) && s.conn.userTurn then .ok { s with heldInLoop := s.heldInLoop - 1 }
      else .error .notEnabled
  | .drop (.other _) =>
      if 0 < s.heldElsewhere then .ok { s with heldElsewhere := s.heldElsewhere - 1 } else .error .notEnabled

/-- `TimerQueue::cancelInLoop`: a timer that has been taken out as expired is not found. -/
def cancelInLoop (timerId : Option Nat) (s : ConnectionObject) : ConnectionObject :=
  match timerId with
  | some id => if s.expired.contains id then s else { s with conn := { s.conn with timers := s.conn.timers.erase id } }
  | none => s

/-- `TimerQueue::cancel`, through `runInLoop`. -/
def cancel (caller : Thread) (timerId : Option Nat) (s : ConnectionObject) : ConnectionObject :=
  if caller = .loop then s.cancelInLoop timerId else { s with cancelQueued := timerId }

/-- `~UdpConnection`, then `~Channel`. -/
def destroy (caller : Thread) (s : ConnectionObject) : Except Stop ConnectionObject :=
  if s.conn.state = .kDisconnected then
    if s.conn.channel.addedToLoop then .error .channelStillAdded
    else .ok { s.cancel caller s.conn.curKcpsessUpTimerId with alive := false }
  else .error .notDisconnected

/-- The thread that drops a reference in an input: the loop thread in all but the drops of other threads. -/
def Input.caller : Input → Thread
  | .drop caller => caller
  | _ => .loop

/-- What still calls into a destroyed connection: a queued functor, a timer of the batch, and the session, which
goes on in a call that was made through the raw pointer. -/
def reaches (s : ConnectionObject) : UdpConnection.Input → Bool
  | .functor => s.conn.stack.isEmpty && s.expired.isEmpty && !s.conn.pendingFunctors.isEmpty
  | .timer id => s.conn.stack.isEmpty && s.expired.contains id
  | .doSend _ _ _ => s.conn.kcpTurn
  | .kcpConnection _ => s.conn.kcpTurn
  | .sendReturns _ => s.conn.kcpTurn
  | .updateReturns _ => s.conn.kcpTurn
  | _ => false

/-- The loop after the destruction. -/
def stepDestroyed (s : ConnectionObject) : Input → Except Stop ConnectionObject
  | .conn i => if s.reaches i then .error .afterDestruction else .error .notEnabled
  | .expire id => s.expire id
  | .cancelInLoop =>
      match s.cancelQueued with
      | some id =>
          if s.conn.stack.isEmpty && s.expired.isEmpty && s.conn.pendingFunctors.isEmpty then
            .ok { s.cancelInLoop (some id) with cancelQueued := none }
          else .error .notEnabled
      | none => .error .notEnabled
  | _ => .error .notEnabled

def step (s : ConnectionObject) (i : Input) : Except Stop ConnectionObject :=
  if s.alive then
    match s.act i with
    | .ok t => if t.references = 0 then t.destroy i.caller else .ok t
    | .error e => .error e
  else s.stepDestroyed i

def Run (writeComplete : Bool) (owner : Thread) (inputs : List Input) (s : ConnectionObject) : Prop :=
  run step (new writeComplete owner) inputs = .ok s

variable {s s' t : ConnectionObject} {i : Input}

/-! ### The destructor and what it leaves -/

/-- Nothing that is bound to the raw pointer is queued or in progress, no timer is in the batch, and the destructor
runs in the loop thread or finds no timer armed. -/
def unbound (caller : Thread) (t : ConnectionObject) : Bool :=
  t.conn.pendingFunctors.all Functor.isShared && t.conn.stack.all t.conn.guards && t.expired.isEmpty &&
    (caller == .loop || t.conn.timers.isEmpty)

/-- If the input drops the last reference, the connection is unbound at that moment. -/
def DestroyedUnbound (s : ConnectionObject) (i : Input) : Prop :=
  match s.act i with
  | .ok t => s.alive = true → t.references = 0 → t.unbound i.caller = true
  | .error _ => True

instance destroyedUnboundDecidable (s : ConnectionObject) (i : Input) : Decidable (s.DestroyedUnbound i) :=
  match h : s.act i with
  | .ok t =>
      decidable_of_iff (s.alive = true → t.references = 0 → t.unbound i.caller = true) (by simp only [DestroyedUnbound, h])
  | .error _ => .isTrue (by simp only [DestroyedUnbound, h])

/-- A living connection has one chain of updates, and the timers of the batch are among its armed ones. -/
structure Living (s : ConnectionObject) : Prop where
  chain : s.conn.OneChain
  batch : ∀ id ∈ s.expired, id ∈ s.conn.timers
  nodup : s.expired.Nodup

/-- A destroyed connection has left nothing in its loop. -/
structure Gone (s : ConnectionObject) : Prop where
  functors : s.conn.pendingFunctors = []
  timers : s.conn.timers = []
  calls : s.conn.stack = []
  batch : s.expired = []

theorem timers_mono {c c' : UdpConnection} {j : UdpConnection.Input} (h : c.step j = .ok c')
    (hj : ∀ id, j ≠ .timer id) {id : Nat} (hid : id ∈ c.timers) : id ∈ c'.timers := by
  cases step_chain h with
  | same hchain => rwa [hchain.timers]
  | started hinput htimers => rwa [htimers]
  | fired id' hinput => exact absurd hinput (hj id')
  | armed n hinput hn htimers =>
      rw [htimers, List.mem_append]
      exact Or.inl hid
  | ended n hinput hn htimers => rwa [htimers]

/-- The timer that runs is the only one. -/
theorem expired_after_timer (h : s.Living) {id : Nat} (hid : id ∈ s.conn.timers) : s.expired.erase id = [] := by
  have hone := h.chain.atMostOne
  have htimers : s.conn.timers = [id] := by
    rcases htimers : s.conn.timers with _ | ⟨a, _ | ⟨b, rest⟩⟩
    · simp [htimers] at hid
    · rw [htimers, List.mem_singleton] at hid
      rw [hid]
    · rw [htimers] at hone
      simp only [List.length_cons] at hone
      omega
  have hsub : ∀ a ∈ s.expired, a = id := by
    intro a ha
    have := h.batch a ha
    rwa [htimers, List.mem_singleton] at this
  rw [h.nodup.erase_eq_filter]
  exact List.filter_eq_nil_iff.mpr fun a ha => by simp [hsub a ha]

/-- What an input to a living connection does. -/
inductive Effect (s t : ConnectionObject) (i : Input) : Prop
  | conn (j : UdpConnection.Input) (conn : UdpConnection) (hinput : i = .conn j) (hallowed : s.allowed j = true)
      (hconn : s.conn.step j = .ok conn)
      (ht : t = { s with conn := conn, heldInLoop := s.heldInLoopAfter j, expired := s.expiredAfter j })
  | expired (id : Nat) (hinput : i = .expire id) (harmed : id ∈ s.conn.timers) (hnew : id ∉ s.expired)
      (ht : t = { s with expired := s.expired ++ [id] })
  | held (inLoop elsewhere : Nat) (ht : t = { s with heldInLoop := inLoop, heldElsewhere := elsewhere })

theorem act_effect (h : s.act i = .ok t) : Effect s t i := by
  cases i with
  | conn j =>
      simp only [act] at h
      split_ifs at h with hallowed
      split at h
      · rename_i conn hconn
        cases h
        exact .conn j conn rfl hallowed hconn rfl
      · cases h
  | expire id =>
      simp only [act, expire] at h
      split_ifs at h with hguard
      cases h
      obtain ⟨⟨-, harmed⟩, hnew⟩ : (s.conn.stack = [] ∧ id ∈ s.conn.timers) ∧ id ∉ s.expired := by
        simpa using hguard
      exact .expired id rfl harmed hnew rfl
  | cancelInLoop => simp [act] at h
  | hold caller =>
      simp only [act] at h
      split_ifs at h <;> cases h
      · exact .held _ _ rfl
      · exact .held _ _ rfl
  | drop caller =>
      cases caller with
      | loop =>
          simp only [act] at h
          split_ifs at h
          cases h
          exact .held _ _ rfl
      | other id =>
          simp only [act] at h
          split_ifs at h
          cases h
          exact .held _ _ rfl

/-- The batch that an input of the connection leaves is armed. -/
theorem batch_after (hinv : s.Living) {j : UdpConnection.Input} {conn : UdpConnection}
    (hconn : s.conn.step j = .ok conn) : ∀ id ∈ s.expiredAfter j, id ∈ conn.timers := by
  by_cases hj : ∃ id, j = .timer id
  · obtain ⟨id, rfl⟩ := hj
    have hmem : id ∈ s.conn.timers := by
      simp only [UdpConnection.step] at hconn
      split_ifs at hconn with hidle
      simpa using (Bool.and_eq_true_iff.mp hidle).2
    simp [expiredAfter, expired_after_timer hinv hmem]
  · have hnot : ∀ id, j ≠ .timer id := fun id hid => hj ⟨id, hid⟩
    have hsame : s.expiredAfter j = s.expired := by
      cases j with
      | timer id => exact absurd rfl (hnot id)
      | _ => rfl
    rw [hsame]
    intro id hid
    exact timers_mono hconn hnot (hinv.batch id hid)

theorem living_act (hinv : s.Living) (h : s.act i = .ok t) : t.Living := by
  cases act_effect h with
  | conn j conn hinput hallowed hconn ht =>
      subst ht
      refine ⟨oneChain_step hinv.chain hconn, batch_after hinv hconn, ?_⟩
      show (s.expiredAfter j).Nodup
      unfold expiredAfter
      split
      · exact hinv.nodup.erase _
      · exact hinv.nodup
  | expired id hinput harmed hnew ht =>
      subst ht
      refine ⟨hinv.chain, ?_, ?_⟩
      · intro id' hid'
        rcases List.mem_append.mp hid' with hid' | hid'
        · exact hinv.batch id' hid'
        · rw [List.mem_singleton.mp hid']
          exact harmed
      · rw [List.nodup_append]
        refine ⟨hinv.nodup, by simp, ?_⟩
        intro a ha b hb hab
        rw [List.mem_singleton.mp hb] at hab
        exact hnew (hab ▸ ha)
  | held inLoop elsewhere ht =>
      subst ht
      exact ⟨hinv.chain, hinv.batch, hinv.nodup⟩

theorem act_alive (h : s.act i = .ok t) : t.alive = s.alive := by
  cases act_effect h with
  | conn j conn hinput hallowed hconn ht => rw [ht]
  | expired id hinput harmed hnew ht => rw [ht]
  | held inLoop elsewhere ht => rw [ht]

theorem step_living (halive : s.alive = true) (h : step s i = .ok s') :
    ∃ t, s.act i = .ok t ∧ (t.references ≠ 0 ∧ s' = t ∨ t.references = 0 ∧ t.destroy i.caller = .ok s') := by
  unfold step at h
  rw [if_pos halive] at h
  split at h
  · rename_i t hact
    refine ⟨t, hact, ?_⟩
    split_ifs at h with hzero
    · exact Or.inr ⟨hzero, h⟩
    · cases h
      exact Or.inl ⟨hzero, rfl⟩
  · cases h

theorem destroy_eq_ok {caller : Thread} (h : t.destroy caller = .ok s') :
    s' = { t.cancel caller t.conn.curKcpsessUpTimerId with alive := false } := by
  unfold destroy at h
  split_ifs at h
  cases h
  rfl

/-- Without references no shared functor is queued and no guarded call is in progress. -/
theorem raw_of_references (h : t.references = 0) :
    t.held = 0 ∧ (∀ f ∈ t.conn.pendingFunctors, f.isShared = false) ∧ ∀ f ∈ t.conn.stack, t.conn.guards f = false := by
  unfold references at h
  obtain ⟨⟨hheld, hfunctors⟩, hstack⟩ : (t.held = 0 ∧ t.conn.pendingFunctors.countP Functor.isShared = 0) ∧
      t.conn.stack.countP t.conn.guards = 0 := ⟨⟨by omega, by omega⟩, by omega⟩
  refine ⟨hheld, fun f hf => ?_, fun f hf => ?_⟩
  · simpa using List.countP_eq_zero.mp hfunctors f hf
  · simpa using List.countP_eq_zero.mp hstack f hf

theorem unbound_iff {caller : Thread} (h : t.references = 0) :
    t.unbound caller = true ↔
      t.conn.pendingFunctors = [] ∧ t.conn.stack = [] ∧ t.expired = [] ∧ (caller = .loop ∨ t.conn.timers = []) := by
  obtain ⟨-, hfunctors, hstack⟩ := raw_of_references h
  have hall : (t.conn.pendingFunctors.all Functor.isShared = true) ↔ t.conn.pendingFunctors = [] := by
    constructor
    · intro hshared
      by_contra hne
      obtain ⟨f, hf⟩ := List.exists_mem_of_ne_nil _ hne
      have htrue := List.all_eq_true.mp hshared f hf
      rw [hfunctors f hf] at htrue
      exact absurd htrue (by decide)
    · intro hnil
      rw [hnil]
      rfl
  have hguard : (t.conn.stack.all t.conn.guards = true) ↔ t.conn.stack = [] := by
    constructor
    · intro hguarded
      by_contra hne
      obtain ⟨f, hf⟩ := List.exists_mem_of_ne_nil _ hne
      have htrue := List.all_eq_true.mp hguarded f hf
      rw [hstack f hf] at htrue
      exact absurd htrue (by decide)
    · intro hnil
      rw [hnil]
      rfl
  unfold unbound
  rw [Bool.and_eq_true, Bool.and_eq_true, Bool.and_eq_true, hall, hguard]
  simp [and_assoc]

/-- Every armed timer is the one the destructor cancels. -/
theorem timers_cancelInLoop (h : t.Living) (hbatch : t.expired = []) :
    (t.cancelInLoop t.conn.curKcpsessUpTimerId).conn.timers = [] := by
  have hone := h.chain.atMostOne
  rcases htimers : t.conn.timers with _ | ⟨a, _ | ⟨b, rest⟩⟩
  · unfold cancelInLoop
    split
    · rw [hbatch]
      simp [htimers]
    · exact htimers
  · have hcurrent : t.conn.curKcpsessUpTimerId = some a := h.chain.current a (by simp [htimers])
    simp [cancelInLoop, hcurrent, hbatch, htimers]
  · rw [htimers] at hone
    simp only [List.length_cons] at hone
    omega

/-- **One chain of updates.** In every state that a run of a connection reaches, inside a call of `Update` or between
two events, at most one update timer is armed, and under the id that the connection remembers: the one cancellation
that `~UdpConnection` makes, outside of the batch of expired timers, leaves none. -/
theorem one_update_chain (writeComplete : Bool) (inputs : List UdpConnection.Input) (c : UdpConnection)
    (hrun : UdpConnection.Run writeComplete inputs c) :
    c.timers.length ≤ 1 ∧ (∀ id ∈ c.timers, c.curKcpsessUpTimerId = some id) ∧
      ∀ t : ConnectionObject, t.conn = c → t.expired = [] →
        (t.cancelInLoop t.conn.curKcpsessUpTimerId).conn.timers = [] := by
  have hchain : c.OneChain := run_invariant (fun _ _ _ => oneChain_step) (oneChain_new writeComplete) hrun
  have hone := hchain.atMostOne
  refine ⟨by omega, hchain.current, ?_⟩
  rintro t rfl hbatch
  exact timers_cancelInLoop ⟨hchain, by simp [hbatch], by simp [hbatch]⟩ hbatch

/-- `Update` sends, is answered by a failing `write` that closes the connection, and arms a timer all the same. -/
def closedInsideUpdate : List UdpConnection.Input :=
  [.connectEstablished, .updateReturns 10, .timer 0, .doSend 24 24 0, .doSend 24 (-1) 111, .userReturns, .proceed,
    .userReturns, .updateReturns 20]

theorem one_update_chain_closedInsideUpdate :
    ∃ c, UdpConnection.Run true closedInsideUpdate c ∧ c.timers = [1] ∧ c.curKcpsessUpTimerId = some 1 :=
  ⟨_, rfl, rfl, (one_update_chain true closedInsideUpdate _ rfl).2.1 1 (by decide)⟩

theorem cancel_frame (caller : Thread) (timerId : Option Nat) :
    (t.cancel caller timerId).conn.pendingFunctors = t.conn.pendingFunctors ∧
      (t.cancel caller timerId).conn.stack = t.conn.stack ∧ (t.cancel caller timerId).expired = t.expired := by
  unfold cancel cancelInLoop
  split_ifs
  · split
    · split_ifs <;> exact ⟨rfl, rfl, rfl⟩
    · exact ⟨rfl, rfl, rfl⟩
  · exact ⟨rfl, rfl, rfl⟩

theorem gone_destroy {caller : Thread} (hliving : t.Living) (hzero : t.references = 0)
    (hunbound : t.unbound caller = true) (h : t.destroy caller = .ok s') : s'.Gone := by
  obtain ⟨hfunctors, hstack, hbatch, htimer⟩ := (unbound_iff hzero).mp hunbound
  obtain ⟨hsame, hsame', hsame''⟩ := @cancel_frame t caller t.conn.curKcpsessUpTimerId
  rw [destroy_eq_ok h]
  refine ⟨hsame.trans hfunctors, ?_, hsame'.trans hstack, hsame''.trans hbatch⟩
  show (t.cancel caller t.conn.curKcpsessUpTimerId).conn.timers = []
  unfold cancel
  split_ifs with hcaller
  · exact timers_cancelInLoop hliving hbatch
  · exact htimer.resolve_left hcaller

/-! ### After the destruction -/

/-- What has left nothing in its loop is not reached any more. -/
theorem stepDestroyed_of_gone (h : s.Gone) : s.stepDestroyed i ≠ .error .afterDestruction := by
  have hreaches : ∀ j, s.reaches j = false := by
    intro j
    unfold reaches
    split <;> simp [h.functors, h.calls, h.batch, kcpTurn]
  cases i with
  | conn j => simp [stepDestroyed, hreaches j]
  | expire id =>
      simp only [stepDestroyed, expire]
      split_ifs <;> simp
  | cancelInLoop =>
      simp only [stepDestroyed]
      split
      · split_ifs <;> simp
      · simp
  | hold caller => simp [stepDestroyed]
  | drop caller => simp [stepDestroyed]

theorem stepDestroyed_alive (h : s.stepDestroyed i = .ok s') : s'.alive = s.alive := by
  cases i with
  | conn j =>
      simp only [stepDestroyed] at h
      split_ifs at h
  | expire id =>
      simp only [stepDestroyed, expire] at h
      split_ifs at h
      cases h
      rfl
  | cancelInLoop =>
      simp only [stepDestroyed] at h
      split at h
      · split_ifs at h
        cases h
        unfold cancelInLoop
        dsimp only
        split_ifs <;> rfl
      · cases h
  | hold caller => cases h
  | drop caller => cases h

theorem gone_stepDestroyed (hinv : s.Gone) (h : s.stepDestroyed i = .ok s') : s'.Gone := by
  cases i with
  | conn j =>
      simp only [stepDestroyed] at h
      split_ifs at h
  | expire id => simp [stepDestroyed, expire, hinv.timers] at h
  | cancelInLoop =>
      simp only [stepDestroyed] at h
      split at h
      · rename_i id hqueued
        split_ifs at h
        cases h
        have hfound : s.expired.contains id = false := by simp [hinv.batch]
        simp only [cancelInLoop, hfound]
        refine ⟨hinv.functors, ?_, hinv.calls, hinv.batch⟩
        simp [hinv.timers]
      · cases h
  | hold caller => cases h
  | drop caller => cases h

/-- A connection is alive and has one chain of updates, or it is destroyed and has left nothing. -/
def Sound (s : ConnectionObject) : Prop := (s.alive = true → s.Living) ∧ (s.alive = false → s.Gone)

theorem sound_new (writeComplete : Bool) (owner : Thread) : (new writeComplete owner).Sound := by
  refine ⟨fun _ => ⟨oneChain_new writeComplete, ?_, ?_⟩, fun hdead => by simp [new] at hdead⟩
  · simp [new]
  · simp [new]

theorem sound_step (hinv : s.Sound) (hunbound : s.DestroyedUnbound i) (h : step s i = .ok s') : s'.Sound := by
  by_cases halive : s.alive = true
  · obtain ⟨t, hact, hnext⟩ := step_living halive h
    have hliving := living_act (hinv.1 halive) hact
    rcases hnext with ⟨-, rfl⟩ | ⟨hzero, hdestroy⟩
    · have hstill : s'.alive = true := (act_alive hact).trans halive
      refine ⟨fun _ => hliving, fun hdead => ?_⟩
      rw [hstill] at hdead
      cases hdead
    · simp only [DestroyedUnbound, hact] at hunbound
      have hgone := gone_destroy hliving hzero (hunbound halive hzero) hdestroy
      refine ⟨fun hstill => ?_, fun _ => hgone⟩
      rw [destroy_eq_ok hdestroy] at hstill
      cases hstill
  · have hdead : s.alive = false := by simpa using halive
    unfold step at h
    rw [if_neg halive] at h
    refine ⟨fun hstill => ?_, fun _ => gone_stepDestroyed (hinv.2 hdead) h⟩
    rw [stepDestroyed_alive h, hdead] at hstill
    cases hstill

theorem act_ne_afterDestruction : s.act i ≠ .error .afterDestruction := by
  unfold act expire
  split
  · split_ifs
    · split <;> simp
    · simp
  · split_ifs <;> simp
  · simp
  · split_ifs <;> simp
  · split_ifs <;> simp
  · split_ifs <;> simp

theorem destroy_ne_afterDestruction (caller : Thread) : t.destroy caller ≠ .error .afterDestruction := by
  unfold destroy
  split_ifs <;> simp

theorem step_ne_afterDestruction (hinv : s.Sound) : step s i ≠ .error .afterDestruction := by
  unfold step
  split_ifs with halive
  · split
    · split_ifs
      · exact destroy_ne_afterDestruction i.caller
      · simp
    · rename_i e hact
      intro h
      cases h
      exact act_ne_afterDestruction hact
  · exact stepDestroyed_of_gone (hinv.2 (by simpa using halive))

/-- Destruction while something is still bound: the loop comes to it. -/
theorem reached_of_bound {caller : Thread} (hzero : t.references = 0)
    (hbound : ¬t.unbound caller = true) (h : t.destroy caller = .ok s') :
    ∃ later, run step s' later = .error .afterDestruction := by
  obtain ⟨hfunctors, hstack, hbatch⟩ := @cancel_frame t caller t.conn.curKcpsessUpTimerId
  have hs' := destroy_eq_ok h
  have hdead : s'.alive = false := by rw [hs']
  replace hfunctors : s'.conn.pendingFunctors = t.conn.pendingFunctors := by rw [hs', ← hfunctors]
  replace hstack : s'.conn.stack = t.conn.stack := by rw [hs', ← hstack]
  replace hbatch : s'.expired = t.expired := by rw [hs', ← hbatch]
  rw [unbound_iff hzero] at hbound
  by_cases hcalls : t.conn.stack = []
  · rcases hexpired : t.expired with _ | ⟨id, ids⟩
    · by_cases hqueue : t.conn.pendingFunctors = []
      · -- only the timer is left, and the cancellation is in the queue
        have hleft : caller ≠ .loop ∧ t.conn.timers ≠ [] := by
          refine ⟨fun hcaller => hbound ⟨hqueue, hcalls, hexpired, Or.inl hcaller⟩, fun htimers => ?_⟩
          exact hbound ⟨hqueue, hcalls, hexpired, Or.inr htimers⟩
        obtain ⟨id, hid⟩ := List.exists_mem_of_ne_nil _ hleft.2
        have htimers : id ∈ s'.conn.timers := by
          rw [hs']
          simpa [cancel, hleft.1] using hid
        have hexpire : step s' (.expire id) = .ok { s' with expired := [id] } := by
          simp [step, hdead, stepDestroyed, expire, hstack, hcalls, hbatch, hexpired, htimers]
        refine ⟨[.expire id, .conn (.timer id)], ?_⟩
        rw [run_cons hexpire, run_singleton]
        simp [step, hdead, stepDestroyed, reaches, hstack, hcalls]
      · refine ⟨[.conn .functor], ?_⟩
        rw [run_singleton]
        simp [step, hdead, stepDestroyed, reaches, hstack, hcalls, hbatch, hexpired, hfunctors, hqueue]
    · refine ⟨[.conn (.timer id)], ?_⟩
      rw [run_singleton]
      simp [step, hdead, stepDestroyed, reaches, hstack, hcalls, hbatch, hexpired]
  · obtain ⟨-, -, hraw⟩ := raw_of_references hzero
    have hturn : s'.conn.kcpTurn = true := by
      unfold kcpTurn
      rw [hstack]
      rcases hframes : t.conn.stack with _ | ⟨f, rest⟩
      · exact absurd hframes hcalls
      · have hf := hraw f (by simp [hframes])
        cases f with
        | kcpSend => simp
        | kcpUpdate => simp
        | _ => simp [UdpConnection.guards] at hf
    refine ⟨[.conn (.doSend 0 0 0)], ?_⟩
    rw [run_singleton]
    simp [step, hdead, stepDestroyed, reaches, hturn]

/-- **When deferred callbacks reach a destroyed connection.** They do not in a run in which, whenever the last
reference is dropped, no functor of `send`, `startRead` or `stopRead` is queued, no call through the raw pointer is in
progress, the update timer is not in the batch, and it is dropped in the loop thread or with no timer armed; and
wherever it is dropped otherwise, a continuation of the run executes one of them. -/
theorem destroyed_connection_not_reached (writeComplete : Bool) (owner : Thread) :
    (∀ inputs, Along step DestroyedUnbound (new writeComplete owner) inputs →
      run step (new writeComplete owner) inputs ≠ .error .afterDestruction) ∧
    ∀ before s i s', Run writeComplete owner before s → step s i = .ok s' → ¬s.DestroyedUnbound i →
      ∃ later, run step s' later = .error .afterDestruction := by
  refine ⟨fun inputs halong => ?_, fun before s i s' hrun h hbound => ?_⟩
  · exact run_ne_error_along Sound (fun _ _ _ hinv hunbound h => sound_step hinv hunbound h)
      (fun _ _ hinv _ => step_ne_afterDestruction hinv) (sound_new writeComplete owner) halong
  · have halive : s.alive = true := by
      by_contra hdead
      apply hbound
      unfold DestroyedUnbound
      split
      · exact fun halive => absurd halive hdead
      · trivial
    obtain ⟨t, hact, hnext⟩ := step_living halive h
    simp only [DestroyedUnbound, hact] at hbound
    rcases hnext with ⟨hheld, -⟩ | ⟨hzero, hdestroy⟩
    · exact absurd (fun _ hzero => absurd hzero hheld) hbound
    · exact reached_of_bound hzero (fun hunbound => hbound fun _ _ => hunbound) hdestroy

/-- The server closes the connection from its own loop and drops it; the functor of `connectDestroyed` has the last
reference. -/
def droppedInLoop : List Input :=
  [.conn .connectEstablished, .conn (.updateReturns 10), .hold .loop, .conn .connectDestroyed, .conn .userReturns,
    .conn .proceed, .drop (.other 0), .drop .loop]

theorem destroyed_connection_not_reached_droppedInLoop :
    (∃ s, Run false (.other 0) droppedInLoop s ∧ s.alive = false ∧ s.conn.timers = []) ∧
      run step (new false (.other 0)) (droppedInLoop ++ [.conn (.timer 0)]) ≠ .error .afterDestruction :=
  ⟨⟨_, rfl, rfl, rfl⟩, (destroyed_connection_not_reached false (.other 0)).1 _ (by decide)⟩

/-- Another thread has the last reference to a closed connection, calls `startRead` and drops it. -/
def startReadAndDrop : List Input :=
  [.conn .connectEstablished, .conn (.updateReturns 10), .hold (.other 1), .conn .connectDestroyed, .conn .userReturns,
    .conn .proceed, .drop .loop, .conn (.call (.other 1) .startRead), .drop (.other 1), .conn .functor]

theorem functor_after_destruction :
    ¬∀ (writeComplete : Bool) (owner : Thread) (inputs : List Input),
      run step (new writeComplete owner) inputs ≠ .error .afterDestruction := by
  intro h
  exact h false .loop startReadAndDrop rfl

end ConnectionObject
end Realtinet
