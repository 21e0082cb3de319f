import Realtinet.UdpClientConnection
import Realtinet.UdpConnectionLifetime
import Realtinet.UdpConnectionTeardown

/-! `~UdpClient` with a connection that is still up, and what becomes of the connection. The destructor replaces
`closeCallback_`, which is bound to the client, by `detail::removeUdpConnection`, and closes the connection only if
`connection_` is the one reference to it. From then on nobody but the loop has references: the functors in its queue,
those that have been run until their batch ends, and the calls in progress. -/

namespace Realtinet

open TransitionSystem

namespace UdpClient

/-- What the queue of the loop has for the connection: the next of its own functors, `setCloseCallback` from a
destructor in another thread, or `connectDestroyed`. The last two are bound to a reference. -/
inductive Queued where
  | own
  | setCloseCallback
  | connectDestroyed
  deriving DecidableEq, Repr

/-- A connection that has outlived its client. `ran` counts the references of functors that have been run in the
present batch, `destroys` the calls of `connectDestroyed`. -/
structure Orphan where
  conn : UdpConnection
  queue : List Queued
  ran : Nat
  closeCallbackSet : Bool
  destroys : Nat
  alive : Bool
  deriving DecidableEq

namespace Orphan

/-- Why a run ends: the connection's own reasons, a call of the `closeCallback_` that is bound to the destroyed
client, or an assert of `~UdpConnection` or `~Channel`. -/
inductive Stop where
  | notEnabled
  | connection (halt : Halt)
  | clientDestroyed
  | notDisconnected
  | channelStillAdded
  deriving DecidableEq

/-- The input cannot occur. -/
def Stop.isRefusal : Stop → Bool
  | .notEnabled => true
  | .connection .notEnabled => true
  | _ => false

/-- An input of the connection, other than its functors; the loop runs its oldest functor; a batch of functors ends
and their references with it. -/
inductive Input where
  | conn (i : UdpConnection.Input)
  | functor
  | batchEnds
  deriving DecidableEq

def references (o : Orphan) : Nat :=
  o.ran + o.conn.pendingFunctors.countP UdpConnection.Functor.isShared + o.conn.stack.countP o.conn.guards +
    o.queue.countP (· != .own)

/-- User code has the pointer in a callback only, and no other thread has it. -/
def allowed (o : Orphan) : UdpConnection.Input → Bool
  | .functor => false
  | .connectEstablished => false
  | .connectDestroyed => false
  | .call .loop _ => o.conn.stack.head? == some .user
  | .call (.other _) _ => false
  | .retrieve _ => o.conn.stack.head? == some .user
  | _ => true

/-- `detail::removeUdpConnection`, once it is the `closeCallback_`. -/
def removeUdpConnection (o : Orphan) : Except Stop Orphan :=
  if o.closeCallbackSet then .ok { o with queue := o.queue ++ [.connectDestroyed] } else .error .clientDestroyed

/-- One input of the connection's own machine, with the functors it queues. -/
def stepConnection (i : UdpConnection.Input) (o : Orphan) : Except Stop Orphan :=
  match o.conn.step i with
  | .ok c =>
      .ok { o with
        conn := c
        queue := o.queue ++ List.replicate (c.pendingFunctors.length - o.conn.pendingFunctors.length) .own }
  | .error e => .error (.connection e)

/-- The loop runs functors: it is between two callbacks of the connection, and through with the events. -/
def loopIdle (o : Orphan) : Bool := o.conn.loopIdle && o.conn.activity == .inactive

def runFunctor (functor : Queued) (o : Orphan) : Except Stop Orphan :=
  match functor with
  | .own =>
      match o.conn.step .functor with
      | .ok c => .ok { o with conn := c, ran := o.ran + (o.conn.pendingFunctors.head?.elim 0 fun f => f.isShared.toNat) }
      | .error e => .error (.connection e)
  | .setCloseCallback =>
      if o.loopIdle then .ok { o with closeCallbackSet := true, ran := o.ran + 1 } else .error .notEnabled
  | .connectDestroyed =>
      if o.loopIdle then
        stepConnection .connectDestroyed { o with destroys := o.destroys + 1, ran := o.ran + 1 }
      else .error .notEnabled

def act (o : Orphan) : Input → Except Stop Orphan
  | .conn i =>
      if o.allowed i then
        match o.stepConnection i with
        | .ok o' => if o.conn.callsClose i then o'.removeUdpConnection else .ok o'
        | .error e => .error e
      else .error .notEnabled
  | .functor =>
      match o.queue with
      | functor :: rest => runFunctor functor { o with queue := rest }
      | [] => .error .notEnabled
  | .batchEnds => if o.conn.stack.isEmpty then .ok { o with ran := 0 } else .error .notEnabled

/-- `~UdpConnection` and `~Channel`, when the last reference is gone. -/
def release (o : Orphan) : Except Stop Orphan :=
  if o.references = 0 then
    if o.conn.state = .kDisconnected then
      if o.conn.channel.addedToLoop then .error .channelStillAdded else .ok { o with alive := false }
    else .error .notDisconnected
  else .ok o

def step (o : Orphan) (input : Input) : Except Stop Orphan :=
  if o.alive then
    match o.act input with
    | .ok o' => o'.release
    | .error e => .error e
  else .error .notEnabled

end Orphan

/-- `connection_.unique()`, where user code has `held` references. -/
def unique (held : Nat) (c : UdpConnection) : Bool :=
  held == 0 && c.pendingFunctors.all (fun functor => !functor.isShared) && c.stack.all fun frame => !c.guards frame

/-- `~UdpClient` with a connection, in the given thread, up to the release of the references that the destructor and
user code have. `runInLoop` sets the callback at once in the loop thread. -/
def destroy (caller : Thread) (held : Nat) (c : UdpConnection) : Orphan where
  conn := if unique held c then c.forceClose else c
  queue := List.replicate c.pendingFunctors.length .own ++
    (if caller = .loop then [] else [.setCloseCallback]) ++
    (if unique held c then [.own] else [])
  ran := 0
  closeCallbackSet := caller = .loop
  destroys := 0
  alive := true

/-! ### The connection while it is taken down -/

/-- What goes on in an orderly way: `handleClose` is entered only while the connection is up, and after
`setCloseCallback`; no read interest is left when `connectDestroyed` comes to remove the channel, and neither
`startRead` nor `stopRead` gives the poller a channel that has been removed. -/
def orderly (closeCallbackSet : Bool) (c : UdpConnection) (i : UdpConnection.Input) : Bool :=
  (!c.entersClose i || (c.state != .kDisconnected && closeCallbackSet)) &&
    (!c.removesChannel i || c.channel.isNoneEvent) &&
    (!(c.startsReading i || c.stopsReading i) || c.channel.inChannels)

/-- A connection on its way down, `connectDestroyed` having been called `destroys` times: while it is up,
`forceCloseInLoop` is queued; `handleClose` is entered once; `connectDestroyed` is called after it, at most once and
not while events are handled, and leaves the channel unregistered. -/
structure Closing (destroys : Nat) (closeCallbackSet : Bool) (c : UdpConnection) : Prop where
  started : c.state ≠ .kConnecting
  once : c.ClosedOnce
  down : c.DownIffClosed
  forced : c.state ≠ .kDisconnected → .forceCloseInLoop ∈ c.pendingFunctors
  replaced : c.state = .kDisconnected → closeCallbackSet = true
  destroyed : destroys ≤ 1 ∧ (0 < destroys → c.state = .kDisconnected)
  owed : c.removesOwed ≤ destroys
  quiet : 0 < c.removesOwed → c.activity = .inactive
  known : destroys = 0 ∨ 0 < c.removesOwed → c.channel.Known
  removed : 0 < destroys → c.removesOwed = 0 → c.channel.inChannels = false ∧ c.channel.addedToLoop = false

section Closing

variable {c c' : UdpConnection} {i : UdpConnection.Input} {destroys : Nat} {closeCallbackSet : Bool}

theorem orderly_iff : orderly closeCallbackSet c i = true ↔
    (c.entersClose i = true → c.state ≠ .kDisconnected ∧ closeCallbackSet = true) ∧
      (c.removesChannel i = true → c.channel.isNoneEvent = true) ∧
      (c.startsReading i = true ∨ c.stopsReading i = true → c.channel.inChannels = true) := by
  unfold orderly
  cases c.entersClose i <;> cases c.removesChannel i <;> cases c.startsReading i <;> cases c.stopsReading i <;>
    simp [and_assoc]

theorem closedOnlyWhileUp_of_orderly (h : orderly closeCallbackSet c i = true) : c.ClosedOnlyWhileUp i := by
  intro hdown
  by_contra hcause
  have htrue : c.closeCause i = true := by simpa using hcause
  have henters : c.entersClose i = true := by simp [UdpConnection.entersClose, htrue]
  exact ((orderly_iff.mp h).1 henters).1 hdown

/-- `connectDestroyed` finds the connection down. -/
theorem down_iff_of_destroy (h : c.step i = .ok c')
    (hdestroy : i = .connectDestroyed → c.state = .kDisconnected) :
    c'.state = .kDisconnected ↔ c.state = .kDisconnected ∨ c.entersClose i = true := by
  by_cases hup : c.state = .kDisconnected
  · exact iff_of_true (UdpConnection.step_disconnected h hup) (Or.inl hup)
  · rw [UdpConnection.step_down_iff h hup]
    constructor
    · rintro (henters | ⟨hi, -⟩)
      · exact Or.inr henters
      · exact absurd (hdestroy hi) hup
    · rintro (hdown | henters)
      · exact absurd hdown hup
      · exact Or.inl henters

theorem downIffClosed_of_closing (hinv : Closing destroys closeCallbackSet c) (h : c.step i = .ok c')
    (hdestroy : i = .connectDestroyed → c.state = .kDisconnected) : c'.DownIffClosed := by
  have hiff := down_iff_of_destroy h hdestroy
  have hbefore := hinv.down
  unfold UdpConnection.DownIffClosed at hbefore ⊢
  rw [hiff, hbefore]
  rcases UdpConnection.step_closes h with ⟨hcloses, -⟩ | ⟨hcloses, hdown, -⟩
  · rw [hcloses]
    refine ⟨?_, Or.inl⟩
    rintro (hpos | henters)
    · exact hpos
    · have hmore := UdpConnection.closes_of_entersClose h henters
      omega
  · refine iff_of_true ?_ (by omega)
    rw [← hbefore]
    exact hiff.mp hdown

/-- `forceCloseInLoop` stays in the queue until it has taken the connection down. -/
theorem forced_step (hinv : Closing destroys closeCallbackSet c) (h : c.step i = .ok c')
    (hup : c'.state ≠ .kDisconnected) : .forceCloseInLoop ∈ c'.pendingFunctors := by
  have hbefore : c.state ≠ .kDisconnected := fun hdown => hup (UdpConnection.step_disconnected h hdown)
  have hmem := hinv.forced hbefore
  by_cases hi : i = .functor
  · subst hi
    obtain ⟨functor, rest, hqueue⟩ := List.exists_cons_of_ne_nil (List.ne_nil_of_mem hmem)
    rw [UdpConnection.functors_of_functor h, hqueue, List.tail_cons]
    rw [hqueue] at hmem
    rcases List.mem_cons.mp hmem with rfl | hmem
    · -- the one at the front closes a connection that is up
      exfalso
      have hstate : c.state = .kConnected ∨ c.state = .kDisconnecting := by
        have hstarted := hinv.started
        cases hc : c.state <;> simp_all
      have henters : c.entersClose .functor = true := by
        simpa [UdpConnection.entersClose, UdpConnection.forceClosing, hqueue] using Or.inr hstate
      exact hup (UdpConnection.step_of_entersClose h henters).1
    · exact hmem
  · rw [UdpConnection.functors_of_other h hi]
    exact List.mem_append_left _ hmem

/-- The channel is not among the active ones while `connectDestroyed` has still to remove it. -/
theorem quiet_step (hinv : Closing destroys closeCallbackSet c) (h : c.step i = .ok c')
    (hdestroy : i = .connectDestroyed → c.activity = .inactive) (howed : 0 < c'.removesOwed) :
    c'.activity = .inactive := by
  by_cases hi : i = .connectDestroyed
  · rw [UdpConnection.step_activity h (Or.inr hi)]
    exact hdestroy hi
  · have hbalance := UdpConnection.step_removes h
    rw [decide_eq_false hi, Bool.toNat_false] at hbalance
    have hbefore : 0 < c.removesOwed := by omega
    have hbusy : c.stack ≠ [] := by
      intro hempty
      rw [UdpConnection.removesOwed, hempty] at hbefore
      exact absurd hbefore (by decide)
    rw [UdpConnection.step_activity h (Or.inl hbusy)]
    exact hinv.quiet hbefore

/-- Whatever updates the channel finds it with the poller. -/
theorem inChannels_of_updates (hinv : Closing destroys closeCallbackSet c) (hupdates : c.updatesChannel i = true)
    (horderly : orderly closeCallbackSet c i = true)
    (hdestroy : i = .connectDestroyed → c.state = .kDisconnected) : c.channel.inChannels = true := by
  obtain ⟨hcloses, -, hreads⟩ := orderly_iff.mp horderly
  simp only [UdpConnection.updatesChannel, UdpConnection.clearsInterest, Bool.or_eq_true] at hupdates
  rcases hupdates with hreading | henters | hdestroys
  · exact hreads hreading
  · -- a connection that is up has not been destroyed
    have hzero : destroys = 0 := by
      by_contra hne
      exact (hcloses henters).1 (hinv.destroyed.2 (Nat.pos_of_ne_zero hne))
    exact Channel.inChannels_of_known (hinv.known (Or.inl hzero))
  · rw [Bool.and_eq_true, beq_iff_eq, beq_iff_eq] at hdestroys
    have hdown := hdestroy hdestroys.1
    rw [hdestroys.2] at hdown
    cases hdown

/-- The channel stays with the poller until `connectDestroyed` removes it, and is not given back. -/
theorem channel_step (hinv : Closing destroys closeCallbackSet c) (h : c.step i = .ok c')
    (hi : i ≠ .connectEstablished) (horderly : orderly closeCallbackSet c i = true)
    (hdestroy : i = .connectDestroyed → c.state = .kDisconnected ∧ destroys = 0) {destroys' : Nat}
    (hdestroys : destroys' = destroys + (decide (i = .connectDestroyed)).toNat) :
    (destroys' = 0 ∨ 0 < c'.removesOwed → c'.channel.Known) ∧
      (0 < destroys' → c'.removesOwed = 0 → c'.channel.inChannels = false ∧ c'.channel.addedToLoop = false) := by
  have hbalance := UdpConnection.step_removes h
  have howed := hinv.owed
  have hatMost := hinv.destroyed.1
  by_cases hremoves : c.removesChannel i = true
  · obtain ⟨hchannel, hbefore⟩ := UdpConnection.step_removesChannel h hremoves
    obtain ⟨-, -, -, hchannel⟩ := Channel.remove_eq_ok_iff.mp hchannel
    refine ⟨fun hpending => ?_, fun _ _ => by simp [hchannel, Channel.inChannels]⟩
    rcases hpending with hzero | hpos <;> omega
  · replace hremoves : c.removesChannel i = false := by simpa using hremoves
    rw [hremoves] at hbalance
    have hsame : i ≠ .connectDestroyed → destroys' = destroys ∧ c'.removesOwed = c.removesOwed := by
      intro hne
      rw [decide_eq_false hne] at hbalance hdestroys
      exact ⟨by simpa using hdestroys, by simpa using hbalance⟩
    have hknown : destroys' = 0 ∨ 0 < c'.removesOwed → c.channel.Known := by
      intro hpending
      by_cases hne : i = .connectDestroyed
      · exact hinv.known (Or.inl (hdestroy hne).2)
      · obtain ⟨hdestroys, howed⟩ := hsame hne
        rw [hdestroys, howed] at hpending
        exact hinv.known hpending
    have hremoved : 0 < destroys' → c'.removesOwed = 0 →
        c.channel.inChannels = false ∧ c.channel.addedToLoop = false := by
      intro hpos hzero
      by_cases hne : i = .connectDestroyed
      · simp [hne, hzero] at hbalance
      · obtain ⟨hdestroys, howed⟩ := hsame hne
        exact hinv.removed (hdestroys ▸ hpos) (howed ▸ hzero)
    cases hupdates : c.updatesChannel i with
    | true =>
        have hin := inChannels_of_updates hinv hupdates horderly fun hne => (hdestroy hne).1
        obtain ⟨-, -, hknown'⟩ := UdpConnection.updated_of_updatesChannel (Or.inr hupdates) h
        refine ⟨fun _ => hknown' (Channel.index_of_inChannels hin).2, fun hpos hzero => ?_⟩
        exact absurd hin (by simp [(hremoved hpos hzero).1])
    | false =>
        have hchannel := UdpConnection.step_channel h
        rw [UdpConnection.channelAfter_of_quiet hi hupdates hremoves, Except.ok.injEq] at hchannel
        rw [← hchannel]
        exact ⟨hknown, hremoved⟩

/-- `connectDestroyed` comes as a functor, to a connection that is down and has not been destroyed. -/
structure Destroyable (destroys : Nat) (c : UdpConnection) : Prop where
  down : c.state = .kDisconnected
  first : destroys = 0
  inactive : c.activity = .inactive

theorem closing_step (hinv : Closing destroys closeCallbackSet c) (h : c.step i = .ok c')
    (hi : i ≠ .connectEstablished) (horderly : orderly closeCallbackSet c i = true)
    (hdestroy : i = .connectDestroyed → Destroyable destroys c) :
    Closing (destroys + (decide (i = .connectDestroyed)).toNat) closeCallbackSet c' := by
  have hdown := down_iff_of_destroy h fun hne => (hdestroy hne).down
  have hbalance := UdpConnection.step_removes h
  have howed := hinv.owed
  obtain ⟨hknown, hremoved⟩ :=
    channel_step hinv h hi horderly (fun hne => ⟨(hdestroy hne).down, (hdestroy hne).first⟩) rfl
  constructor
  · have hwaits : c.WaitsForOwner := fun hstate => absurd hstate hinv.started
    exact fun hstate => hinv.started ((UdpConnection.step_connecting_iff hwaits hi h).1.mp hstate)
  · exact UdpConnection.closedOnce_step hinv.once (closedOnlyWhileUp_of_orderly horderly) h
  · exact downIffClosed_of_closing hinv h fun hne => (hdestroy hne).down
  · exact forced_step hinv h
  · intro hstate
    rcases hdown.mp hstate with hbefore | henters
    · exact hinv.replaced hbefore
    · exact ((orderly_iff.mp horderly).1 henters).2
  · by_cases hne : i = .connectDestroyed
    · exact ⟨by simp [hne, (hdestroy hne).first], fun _ => UdpConnection.step_disconnected h (hdestroy hne).down⟩
    · rw [decide_eq_false hne]
      exact ⟨hinv.destroyed.1, fun hpos => UdpConnection.step_disconnected h (hinv.destroyed.2 hpos)⟩
  · omega
  · exact quiet_step hinv h fun hne => (hdestroy hne).inactive
  · exact hknown
  · exact hremoved

/-- An orderly input fails no assert. -/
theorem closing_error (hinv : Closing destroys closeCallbackSet c) (hi : i ≠ .connectEstablished)
    (horderly : orderly closeCallbackSet c i = true) (hdestroy : i = .connectDestroyed → Destroyable destroys c)
    {e : Halt} (h : c.step i = .error e) : e = .notEnabled := by
  rcases UdpConnection.step_error h with hrefused | ⟨hestablish, -⟩ | hchannel
  · exact hrefused
  · exact absurd hestablish hi
  · exfalso
    cases hupdates : c.updatesChannel i with
    | true =>
        have hin := inChannels_of_updates hinv hupdates horderly fun hne => (hdestroy hne).down
        obtain ⟨d, hindex, hafter⟩ := UdpConnection.channelAfter_of_updatesChannel (Or.inr hupdates)
        rw [hafter] at hchannel
        exact (Channel.index_of_inChannels hin).1 (hindex ▸ (Channel.update_error hchannel).1)
    | false =>
        cases hremoves : c.removesChannel i with
        | true =>
            -- the channel has no interest left, the poller still has it, and it is not active
            have hnone := (orderly_iff.mp horderly).2.1 hremoves
            obtain ⟨-, rest, hstack⟩ := UdpConnection.removesChannel_iff.mp hremoves
            have howed : 0 < c.removesOwed := by simp [UdpConnection.removesOwed, hstack]
            have hindex : c.channel.index = .pollfd true := by rw [hinv.known (Or.inr howed), hnone]
            have haside : c.activeAside = false := by rw [UdpConnection.activeAside, hinv.quiet howed]; rfl
            rw [UdpConnection.channelAfter_of_removesChannel hremoves,
              Channel.remove_eq_ok_iff.mpr ⟨hnone, haside, hindex, rfl⟩] at hchannel
            cases hchannel
        | false =>
            rw [UdpConnection.channelAfter_of_quiet hi hupdates hremoves] at hchannel
            cases hchannel

end Closing

namespace Orphan

variable {o o' : Orphan} {i : UdpConnection.Input} {input : Input}

/-- `handleClose` and `connectDestroyed` have each been run once, and the connection may be destructed. -/
structure ClosedAndDestroyed (o : Orphan) : Prop where
  closes : o.conn.closes = 1
  destroys : o.destroys = 1
  disconnected : o.conn.state = .kDisconnected
  unregistered : o.conn.channel.inChannels = false ∧ o.conn.channel.addedToLoop = false

/-- The input is orderly for the connection. -/
def Orderly (o : Orphan) : Input → Prop
  | .conn i => orderly o.closeCallbackSet o.conn i = true
  | .functor => o.queue.head? = some .own → orderly o.closeCallbackSet o.conn .functor = true
  | .batchEnds => True

instance orderlyDecidable (o : Orphan) : ∀ input : Input, Decidable (o.Orderly input)
  | .conn i => inferInstanceAs (Decidable (orderly o.closeCallbackSet o.conn i = true))
  | .functor =>
      inferInstanceAs (Decidable (o.queue.head? = some .own → orderly o.closeCallbackSet o.conn .functor = true))
  | .batchEnds => .isTrue trivial

/-- The queue has one entry for each functor of the connection, and one `connectDestroyed` for each call of
`closeCallback_` that has not come to it yet. -/
structure Sound (o : Orphan) : Prop where
  own : o.queue.count .own = o.conn.pendingFunctors.length
  ledger : o.queue.count .connectDestroyed + o.destroys = o.conn.trace.count .closeCallback
  closing : Closing o.destroys o.closeCallbackSet o.conn

theorem allowed_ne (h : o.allowed i = true) : i ≠ .functor ∧ i ≠ .connectEstablished ∧ i ≠ .connectDestroyed := by
  refine ⟨?_, ?_, ?_⟩ <;>
  · rintro rfl
    cases h

theorem stepConnection_eq_ok (h : o.stepConnection i = .ok o') :
    ∃ c, o.conn.step i = .ok c ∧
      o' = { o with
        conn := c
        queue := o.queue ++ List.replicate (c.pendingFunctors.length - o.conn.pendingFunctors.length) .own } := by
  unfold stepConnection at h
  split at h
  · rename_i c hc
    cases h
    exact ⟨c, hc, rfl⟩
  · cases h

/-- The entries of the queue follow the functors of the connection. -/
theorem own_queue {c : UdpConnection} (hown : o.queue.count .own = o.conn.pendingFunctors.length)
    (hi : i ≠ .functor) (hc : o.conn.step i = .ok c) :
    (o.queue ++ List.replicate (c.pendingFunctors.length - o.conn.pendingFunctors.length) Queued.own).count .own =
      c.pendingFunctors.length := by
  rw [List.count_append, List.count_replicate_self, hown, UdpConnection.functors_of_other hc hi, List.length_append]
  omega

theorem count_connectDestroyed (queue : List Queued) (n : Nat) :
    (queue ++ List.replicate n Queued.own).count .connectDestroyed = queue.count .connectDestroyed := by
  simp [List.count_append, List.count_replicate]

theorem sound_conn (hinv : o.Sound) (horderly : o.Orderly (.conn i)) (h : o.act (.conn i) = .ok o') : o'.Sound := by
  unfold act at h
  by_cases hallowed : o.allowed i = true
  swap
  · simp [hallowed] at h
  obtain ⟨hfunctor, hestablish, hdestroy⟩ := allowed_ne hallowed
  simp only [hallowed, if_true] at h
  split at h
  · rename_i o₁ hstep
    obtain ⟨c, hc, rfl⟩ := stepConnection_eq_ok hstep
    have hclosing := closing_step hinv.closing hc hestablish horderly fun hne => absurd hne hdestroy
    rw [decide_eq_false hdestroy] at hclosing
    have hcount := UdpConnection.step_closeCallback_count hc
    have hledger := hinv.ledger
    split_ifs at h with hcalls
    · unfold removeUdpConnection at h
      split_ifs at h
      cases h
      refine ⟨?_, ?_, hclosing⟩
      · rw [List.count_append, own_queue hinv.own hfunctor hc]
        rfl
      · rw [List.count_append, count_connectDestroyed, hcount, hcalls]
        simp
        omega
    · cases h
      refine ⟨own_queue hinv.own hfunctor hc, ?_, hclosing⟩
      rw [count_connectDestroyed, hcount, hinv.ledger]
      simp [hcalls]
  · cases h

/-- `connectDestroyed` is queued by `closeCallback_` only. -/
theorem Sound.destroyable (hinv : o.Sound) (hpos : 0 < o.queue.count .connectDestroyed) (hidle : o.loopIdle = true) :
    Destroyable o.destroys o.conn := by
  have hledger := hinv.ledger
  have hle := hinv.closing.once.count_le
  refine ⟨hinv.closing.down.mpr ?_, by omega, by simpa using (Bool.and_eq_true_iff.mp hidle).2⟩
  unfold UdpConnection.closes
  omega

theorem sound_functor (hinv : o.Sound) (horderly : o.Orderly .functor) (h : o.act .functor = .ok o') : o'.Sound := by
  obtain ⟨hown, hledger, hclosing⟩ := hinv
  simp only [act] at h
  split at h
  · rename_i functor rest hqueue
    rw [hqueue] at hown hledger
    cases functor with
    | own =>
        simp only [runFunctor] at h
        split at h
        · rename_i c hc
          cases h
          have hcount := UdpConnection.step_closeCallback_count hc
          have hnext := closing_step hclosing hc (by simp) (horderly (by simp [hqueue])) (by simp)
          refine ⟨?_, ?_, hnext⟩
          · rw [UdpConnection.functors_of_functor hc, List.length_tail, ← hown]
            simp
          · rw [hcount, ← hledger]
            simp [UdpConnection.callsClose]
        · cases h
    | setCloseCallback =>
        simp only [runFunctor] at h
        split_ifs at h
        cases h
        refine ⟨by simpa using hown, by simpa using hledger, ?_⟩
        exact { hclosing with replaced := fun _ => rfl }
    | connectDestroyed =>
        simp only [runFunctor] at h
        split_ifs at h with hidle
        obtain ⟨c, hc, rfl⟩ := stepConnection_eq_ok h
        have hcount := UdpConnection.step_closeCallback_count hc
        have hbefore := Sound.destroyable ⟨hqueue ▸ hown, hqueue ▸ hledger, hclosing⟩ (by simp [hqueue]) hidle
        have hnext := closing_step hclosing hc (by simp) (by rfl) (fun _ => hbefore)
        refine ⟨?_, ?_, hnext⟩
        · exact own_queue (o := { o with queue := rest }) (by simpa using hown) (by simp) hc
        · show (rest ++ List.replicate _ Queued.own).count .connectDestroyed + (o.destroys + 1) = c.trace.count .closeCallback
          have hsame : c.trace.count .closeCallback = o.conn.trace.count .closeCallback := hcount
          rw [count_connectDestroyed, hsame, ← hledger, List.count_cons_self]
          omega
  · cases h

theorem sound_act (hinv : o.Sound) (horderly : o.Orderly input) (h : o.act input = .ok o') : o'.Sound := by
  cases input with
  | conn i => exact sound_conn hinv horderly h
  | functor => exact sound_functor hinv horderly h
  | batchEnds =>
      simp only [act] at h
      split_ifs at h
      cases h
      exact ⟨hinv.own, hinv.ledger, hinv.closing⟩

theorem stepConnection_error (hinv : o.Sound) (horderly : orderly o.closeCallbackSet o.conn i = true)
    (hi : i ≠ .connectEstablished) (hdestroy : i = .connectDestroyed → Destroyable o.destroys o.conn) {e : Stop}
    (h : o.stepConnection i = .error e) : e = .connection .notEnabled := by
  unfold stepConnection at h
  split at h
  · cases h
  · rename_i e' hstep
    cases h
    rw [closing_error hinv.closing hi horderly hdestroy hstep]

theorem act_error (hinv : o.Sound) (horderly : o.Orderly input) {e : Stop} (h : o.act input = .error e) :
    e.isRefusal = true := by
  cases input with
  | conn i =>
      unfold act at h
      by_cases hallowed : o.allowed i = true
      · simp only [hallowed, if_true] at h
        split at h
        · rename_i o₁ hstep
          obtain ⟨c, hc, rfl⟩ := stepConnection_eq_ok hstep
          split_ifs at h with hcalls
          -- `closeCallback_` is called by a connection that has been closed, and so after `setCloseCallback`
          have hdown : o.conn.state = .kDisconnected := by
            exact hinv.closing.down.mpr (Nat.add_pos_right _ (UdpConnection.closesOwed_pos hcalls))
          simp [removeUdpConnection, hinv.closing.replaced hdown] at h
        · rename_i e' hstep
          cases h
          rw [stepConnection_error hinv horderly (allowed_ne hallowed).2.1
            (fun hne => absurd hne (allowed_ne hallowed).2.2) hstep]
          rfl
      · simp only [hallowed] at h
        cases h
        rfl
  | functor =>
      simp only [act] at h
      split at h
      · rename_i functor rest hqueue
        cases functor with
        | own =>
            simp only [runFunctor] at h
            split at h
            · cases h
            · rename_i e' hstep
              cases h
              have hrefused : o.stepConnection .functor = .error (.connection e') := by
                rw [stepConnection, hstep]
              rw [stepConnection_error hinv (horderly (by simp [hqueue])) (by simp) (by simp) hrefused]
              rfl
        | setCloseCallback =>
            simp only [runFunctor] at h
            split_ifs at h
            cases h
            rfl
        | connectDestroyed =>
            simp only [runFunctor] at h
            split_ifs at h with hidle
            · have hrefused : o.stepConnection .connectDestroyed = .error e := by
                unfold stepConnection at h ⊢
                simp only at h
                split at h <;> cases h
                rfl
              have hbefore := hinv.destroyable (by simp [hqueue]) hidle
              rw [stepConnection_error hinv rfl (by simp) (fun _ => hbefore) hrefused]
              rfl
            · cases h
              rfl
      · cases h
        rfl
  | batchEnds =>
      simp only [act] at h
      split_ifs at h
      cases h
      rfl

/-! ### Destruction -/

/-- Once nothing of the teardown is left to come, all of it has been done. -/
theorem closedAndDestroyed_of_quiet (hinv : o.Sound) (hfunctors : .forceCloseInLoop ∉ o.conn.pendingFunctors)
    (hcloses : o.conn.closesOwed = 0) (hqueue : o.queue.count .connectDestroyed = 0)
    (hremoves : o.conn.removesOwed = 0) : o.ClosedAndDestroyed := by
  have hdown : o.conn.state = .kDisconnected := by
    by_contra hup
    exact hfunctors (hinv.closing.forced hup)
  have hpos := hinv.closing.down.mp hdown
  have hone : o.conn.closes = 1 := Nat.le_antisymm hinv.closing.once.1 hpos
  have hdestroys : o.destroys = 1 := by
    have hledger := hinv.ledger
    unfold UdpConnection.closes at hone
    omega
  exact ⟨hone, hdestroys, hdown, hinv.closing.removed (by omega) hremoves⟩

/-- The last reference goes only after `connectDestroyed`. -/
theorem closedAndDestroyed_of_references (hinv : o.Sound) (hzero : o.references = 0) : o.ClosedAndDestroyed := by
  unfold references at hzero
  obtain ⟨hfunctors, hstack, hqueue⟩ : o.conn.pendingFunctors.countP UdpConnection.Functor.isShared = 0 ∧
      o.conn.stack.countP o.conn.guards = 0 ∧ o.queue.countP (· != .own) = 0 := ⟨by omega, by omega, by omega⟩
  rw [List.countP_eq_zero] at hfunctors hstack hqueue
  apply closedAndDestroyed_of_quiet hinv
  · exact fun hmem => hfunctors _ hmem rfl
  · exact List.count_eq_zero.mpr fun hmem => hstack _ hmem rfl
  · exact List.count_eq_zero.mpr fun hmem => hqueue _ hmem rfl
  · exact List.count_eq_zero.mpr fun hmem => hstack _ hmem rfl

theorem act_alive (h : o.act input = .ok o') : o'.alive = o.alive := by
  cases input with
  | conn i =>
      unfold act removeUdpConnection at h
      simp only at h
      split at h
      · split at h
        · rename_i o₁ hstep
          obtain ⟨c, -, rfl⟩ := stepConnection_eq_ok hstep
          split_ifs at h <;> cases h <;> rfl
        · cases h
      · cases h
  | functor =>
      simp only [act] at h
      split at h
      · rename_i functor rest hqueue
        cases functor with
        | own =>
            simp only [runFunctor] at h
            split at h <;> cases h
            rfl
        | setCloseCallback =>
            simp only [runFunctor] at h
            split_ifs at h
            cases h
            rfl
        | connectDestroyed =>
            simp only [runFunctor] at h
            split_ifs at h
            obtain ⟨c, -, rfl⟩ := stepConnection_eq_ok h
            rfl
      · cases h
  | batchEnds =>
      simp only [act] at h
      split_ifs at h
      cases h
      rfl

theorem step_eq_ok (h : o.step input = .ok o') :
    o.alive = true ∧ ∃ o₁, o.act input = .ok o₁ ∧ o₁.release = .ok o' := by
  unfold step at h
  split_ifs at h with halive
  split at h
  · rename_i o₁ hact
    exact ⟨halive, o₁, hact, h⟩
  · cases h

theorem release_cases (hinv : o.Sound) :
    o.release = .ok o ∨ o.release = .ok { o with alive := false } ∧ o.ClosedAndDestroyed := by
  unfold release
  split_ifs with hzero hdown hadded
  · have hclosed := closedAndDestroyed_of_references hinv hzero
    rw [hclosed.unregistered.2] at hadded
    cases hadded
  · exact Or.inr ⟨rfl, closedAndDestroyed_of_references hinv hzero⟩
  · exact absurd (closedAndDestroyed_of_references hinv hzero).disconnected hdown
  · exact Or.inl rfl

/-- The connection is being taken down, and destructed only after that. -/
def SoundUntilDead (o : Orphan) : Prop := o.Sound ∧ (o.alive = false → o.ClosedAndDestroyed)

theorem step_error (hinv : o.SoundUntilDead) (horderly : o.Orderly input) {e : Stop} (h : o.step input = .error e) :
    e.isRefusal = true := by
  unfold step at h
  split_ifs at h
  · split at h
    · rename_i o₁ hact
      rcases release_cases (sound_act hinv.1 horderly hact) with hkept | ⟨hdead, -⟩
      · rw [hkept] at h
        cases h
      · rw [hdead] at h
        cases h
    · rename_i e' hact
      cases h
      exact act_error hinv.1 horderly hact
  · cases h
    rfl

/-! ### Without the destructor's help -/

/-- Nothing but the queue closes the connection. -/
def Quiet (o : Orphan) : Input → Prop
  | .conn i => o.conn.closeCause i = false ∧ i ≠ .call .loop .forceClose
  | _ => True

end Orphan

/-- A client with an established connection. -/
def connected : List Input := [.connect true .ok, .connection 1 (.updateReturns 10) .ok]

end UdpClient
end Realtinet
