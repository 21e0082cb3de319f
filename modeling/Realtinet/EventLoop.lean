import Mathlib.Tactic.Common

/-! What the connection code uses of muduo's event loop: the reasons for which a step does not happen,
`Channel` with its poller, and the choice of an I/O loop from the thread pool.

`Channel` comes with the part of `PollPoller` that concerns one channel, for `newDefaultPoller` returns a `PollPoller`
whatever the environment says. A channel that has been removed keeps its `index_`, so that the next update of it takes it
for a channel that the poller has, and fails the assert that says so. -/

namespace Realtinet

/-- The asserts of the source that the modelled code can run into: `state_ == kConnecting` of `connectEstablished`,
`state_ == kConnected || state_ == kDisconnecting` of `TcpConnection::handleClose`, `isNoneEvent()` of
`Channel::remove`, the one of `EventLoop::removeChannel` that a channel which is not the current one is not active,
`channels_.find(channel->fd()) != channels_.end()` of `PollPoller` and `pfd.fd == -channel->fd()-1` of its
`removeChannel`, `state_ == kDisconnected` of `UdpConnector::startInLoop`, `n == 1` of
`UdpServer::removeConnectionInLoop`, the entry found by `UdpAcceptor::RemoveConnector`, and `connection_ == conn` of
`UdpClient::removeConnection`. -/
inductive Assertion where
  | connectionConnecting
  | connectionUp
  | channelNoneEvent
  | channelNotActive
  | channelRegistered
  | channelIgnored
  | connectorDisconnected
  | erasedOne
  | connectorFound
  | connectionIsCurrent
  deriving DecidableEq, Repr

/-- An input that cannot occur in the state, or one that ends the process: a failed assert, or a
dereferenced null `channel_` of a connector. -/
inductive Halt where
  | notEnabled
  | assertFailed (assertion : Assertion)
  | nullChannel
  deriving DecidableEq, Repr

/-- `index_`: no entry of `pollfds_` yet; one, whose descriptor is negated if `poll` is to ignore it; one that has been
removed. -/
inductive ChannelIndex where
  | unset
  | pollfd (ignored : Bool)
  | removed
  deriving DecidableEq, Repr

/-- The bits of `revents_` that `Channel::handleEventWithGuard` tests. -/
structure Revents where
  pollIn : Bool := false
  pollPri : Bool := false
  pollRdhup : Bool := false
  pollErr : Bool := false
  pollNval : Bool := false
  pollHup : Bool := false
  deriving DecidableEq, Repr

/-- Whether the loop is handling events and `activeChannels_` has the channel: no; with these events, which have still
to be handled; or they have been, as far as the loop is concerned. -/
inductive Activity (ρ : Type) where
  | inactive
  | reported (revents : ρ)
  | handled
  deriving DecidableEq, Repr

/-- The two groups of bits of `events_`, the poller's note, and `addedToLoop_`. -/
structure Channel where
  readEvent : Bool
  writeEvent : Bool
  index : ChannelIndex
  addedToLoop : Bool
  deriving DecidableEq, Repr

namespace Channel

def new : Channel :=
  ⟨false, false, .unset, false⟩

def isNoneEvent (c : Channel) : Bool := !c.readEvent && !c.writeEvent

def isReading (c : Channel) : Bool := c.readEvent

/-- `channels_` of the poller has the channel under its descriptor. -/
def inChannels (c : Channel) : Bool :=
  match c.index with
  | .pollfd _ => true
  | _ => false

/-- `PollPoller::updateChannel`. A new channel is watched whatever its events, a known one is ignored if it has none. -/
def updateChannel (c : Channel) : Except Halt Channel :=
  match c.index with
  | .unset => .ok { c with index := .pollfd false }
  | .pollfd _ => .ok { c with index := .pollfd c.isNoneEvent }
  | .removed => .error (.assertFailed .channelRegistered)

def update (c : Channel) : Except Halt Channel := ({ c with addedToLoop := true } : Channel).updateChannel

def enableReading (c : Channel) : Except Halt Channel := ({ c with readEvent := true } : Channel).update

def disableReading (c : Channel) : Except Halt Channel := ({ c with readEvent := false } : Channel).update

def disableAll (c : Channel) : Except Halt Channel :=
  ({ c with readEvent := false, writeEvent := false } : Channel).update

/-- `PollPoller::removeChannel`. -/
def removeChannel (c : Channel) : Except Halt Channel :=
  match c.index with
  | .pollfd true => .ok { c with index := .removed }
  | .pollfd false => .error (.assertFailed .channelIgnored)
  | _ => .error (.assertFailed .channelRegistered)

/-- `Channel::remove`, with the assert of `EventLoop::removeChannel` on a channel that is active although the loop is
handling the events of another one. -/
def remove (activeAside : Bool) (c : Channel) : Except Halt Channel :=
  if c.isNoneEvent then
    if activeAside then .error (.assertFailed .channelNotActive)
    else ({ c with addedToLoop := false } : Channel).removeChannel
  else .error (.assertFailed .channelNoneEvent)

/-- What `poll` can report: a channel that is not ignored, and read bits only with read interest. Errors and hang-ups
are always reported. -/
def canReport (c : Channel) (revents : Revents) : Bool :=
  c.index == .pollfd false && (c.readEvent || !(revents.pollIn || revents.pollPri || revents.pollRdhup))

/-! ### What an update leaves -/

/-- The poller has the channel, and ignores it exactly if it has no interest. -/
def Known (c : Channel) : Prop := c.index = .pollfd c.isNoneEvent

/-- `c'` is the channel `c` after an update. -/
structure Updated (c c' : Channel) : Prop where
  readEvent : c'.readEvent = c.readEvent
  writeEvent : c'.writeEvent = c.writeEvent
  inChannels : c'.inChannels = true
  addedToLoop : c'.addedToLoop = true
  notRemoved : c.index ≠ .removed
  known : c.index ≠ .unset ∨ c.isNoneEvent = false → c'.Known

variable {c c' : Channel}

theorem inChannels_of_known (h : c.Known) : c.inChannels = true := by
  rw [inChannels, h]

theorem index_of_inChannels (h : c.inChannels = true) : c.index ≠ .removed ∧ c.index ≠ .unset := by
  constructor <;>
  · intro hindex
    rw [inChannels, hindex] at h
    cases h

theorem index_of_known (h : c.Known) : c.index ≠ .removed ∧ c.index ≠ .unset :=
  index_of_inChannels (inChannels_of_known h)

theorem update_eq_ok (h : c.update = .ok c') : Updated c c' := by
  unfold update updateChannel at h
  split at h
  · rename_i hindex
    cases h
    exact ⟨rfl, rfl, rfl, rfl, by simp_all, by simp_all [Known, isNoneEvent]⟩
  · rename_i ignored hindex
    cases h
    exact ⟨rfl, rfl, rfl, rfl, by simp_all, fun _ => rfl⟩
  · cases h

theorem update_ok (h : c.index ≠ .removed) : ∃ c', c.update = .ok c' := by
  unfold update updateChannel
  split
  · exact ⟨_, rfl⟩
  · exact ⟨_, rfl⟩
  · rename_i hindex
    exact absurd hindex h

/-- A known channel stays known. -/
theorem update_of_known {ignored : Bool} (h : c.index = .pollfd ignored) :
    ∃ c', c.update = .ok c' ∧ c'.Known ∧ c'.readEvent = c.readEvent ∧ c'.writeEvent = c.writeEvent := by
  obtain ⟨c', hupdate⟩ := update_ok (c := c) (by rw [h]; exact nofun)
  have hupdated := update_eq_ok hupdate
  exact ⟨c', hupdate, hupdated.known (Or.inl (by rw [h]; exact nofun)), hupdated.readEvent, hupdated.writeEvent⟩

theorem update_error {e : Halt} (h : c.update = .error e) :
    c.index = .removed ∧ e = .assertFailed .channelRegistered := by
  unfold update updateChannel at h
  split at h
  · cases h
  · cases h
  · rename_i hindex
    cases h
    exact ⟨hindex, rfl⟩

/-- `remove` passes its asserts exactly on a channel without interest that the poller has and ignores, and that is not
active aside; `index_` stays. -/
theorem remove_eq_ok_iff {activeAside : Bool} :
    c.remove activeAside = .ok c' ↔ c.isNoneEvent = true ∧ activeAside = false ∧ c.index = .pollfd true ∧
      c' = { c with addedToLoop := false, index := .removed } := by
  unfold remove removeChannel
  split_ifs with hnone hactive
  · refine ⟨(nomatch ·), fun h => ?_⟩
    rw [h.2.1] at hactive
    cases hactive
  · rw [Bool.not_eq_true] at hactive
    split
    · rename_i hindex
      rw [Except.ok.injEq]
      exact ⟨fun h => ⟨hnone, hactive, hindex, h.symm⟩, fun h => h.2.2.2.symm⟩
    · rename_i hindex
      refine ⟨(nomatch ·), fun h => ?_⟩
      cases hindex.symm.trans h.2.2.1
    · rename_i hindex _
      exact ⟨(nomatch ·), fun h => absurd h.2.2.1 hindex⟩
  · exact ⟨(nomatch ·), fun h => absurd h.1 hnone⟩

end Channel

/-- `EventLoopThreadPool`: the base loop is number 0, the loops of the pool are 1, ..., `numThreads`. -/
structure EventLoopThreadPool where
  numThreads : Nat
  next : Nat
  deriving DecidableEq, Repr

namespace EventLoopThreadPool

/-- `getNextLoop`: round-robin over the pool, or the base loop when the pool has no threads. -/
def getNextLoop (pool : EventLoopThreadPool) : Nat × EventLoopThreadPool :=
  if pool.numThreads = 0 then (0, pool)
  else (pool.next + 1, { pool with next := if pool.next + 1 ≥ pool.numThreads then 0 else pool.next + 1 })

end EventLoopThreadPool
end Realtinet
