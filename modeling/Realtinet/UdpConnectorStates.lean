import Realtinet.UdpConnector

/-! A connector in its loop, with `state_` read and written step by step. `connected` sets `kConnecting` and then
`kConnected`, and other threads may call `start` and `stop` between the two, and between the tests of `connect_` in
`startInLoop` and in `connected`; `newConnectionCallback_` may call back into the connector. In `kConnecting` the
functions `stopInLoop`, `handleWrite` and `handleError` take `channel_` for a channel, which it never is: its only
maker, `connecting`, is not called any more.

The sockets come with it: every descriptor the connector has opened that is not closed, and the `UdpConnection`s made
from them. A connection holds its socket in a `unique_ptr` and closes it when it is destructed; nothing else closes a
socket of a connector. -/

namespace Realtinet

open TransitionSystem

inductive ConnectorFunctor where
  | startInLoop
  | stopInLoop
  | resetChannel
  deriving DecidableEq, Repr

/-- What is in progress in the loop thread: `connect(2)`, with the rest of `UdpConnector::connect` and its
`connectSocket`; the rest of `connected` after it has set `kConnecting`; `newConnectionCallback_`, which has handed
its socket to a new `UdpConnection` before any other code runs. -/
inductive ConnectorCall where
  | connect (connectSocket : Nat)
  | connected (connectedSocket : Nat)
  | newConnectionCallback
  deriving DecidableEq, Repr

/-- The functions that read `state_`. -/
inductive StateReader where
  | startInLoop
  | stopInLoop
  | handleWrite
  | handleError
  deriving DecidableEq, Repr

/-- The connector with its loop: the queued functors, the retry timers (their delays), the calls in progress
(innermost first) and what has been read of `state_` so far (newest first). Sockets are numbered in the order they
are opened; `connections` has, for every `UdpConnection` not yet destructed, the socket it owns. `halted` is set when
the process has ended in a function of the connector. -/
structure ConnectorThread where
  connector : UdpConnector
  pendingFunctors : List ConnectorFunctor
  timers : List Nat
  calls : List ConnectorCall
  reads : List (StateReader × ConnectorState)
  nextSocket : Nat
  openSockets : List Nat
  connections : List Nat
  halted : Option Halt
  deriving DecidableEq

namespace ConnectorThread

def new : ConnectorThread := ⟨UdpConnector.new, [], [], [], [], 0, [], [], none⟩

def read (reader : StateReader) (w : ConnectorThread) : ConnectorThread :=
  { w with reads := (reader, w.connector.state) :: w.reads }

def setState (state : ConnectorState) (w : ConnectorThread) : ConnectorThread :=
  { w with connector := { w.connector with state := state } }

def queueInLoop (functor : ConnectorFunctor) (w : ConnectorThread) : ConnectorThread :=
  { w with pendingFunctors := w.pendingFunctors ++ [functor] }

/-- `UdpConnector::connect` up to the call of `connect(2)`: it opens a new socket every time. -/
def connect (w : ConnectorThread) : ConnectorThread :=
  { w with
    nextSocket := w.nextSocket + 1
    openSockets := w.openSockets ++ [w.nextSocket]
    calls := .connect w.nextSocket :: w.calls }

/-- `startInLoop` up to the call of `connect(2)`. -/
def startInLoop (w : ConnectorThread) : ConnectorThread :=
  if w.connector.state = .kDisconnected then
    if w.connector.connect_ then (w.read .startInLoop).connect else w.read .startInLoop
  else { w.read .startInLoop with halted := some (.assertFailed .connectorDisconnected) }

def retry (w : ConnectorThread) : ConnectorThread :=
  { w with
    connector := w.connector.retry.1
    timers := if w.connector.connect_ then w.timers ++ [w.connector.retryDelayMs] else w.timers }

/-- The rest of `UdpConnector::connect` after `connect(2)`; `connected` up to its second line. The socket goes on to
`connected` or is forgotten: the calls that would close it are commented out. -/
def connectReturned (connectSocket : Nat) (errno : Errno) (w : ConnectorThread) : ConnectorThread :=
  match errno.outcome with
  | .connected => { w.setState .kConnecting with calls := .connected connectSocket :: w.calls }
  | .retry => w.retry
  | .failed => w

/-- The rest of `connected`. -/
def connected (connectedSocket : Nat) (w : ConnectorThread) : ConnectorThread :=
  if w.connector.connect_ then
    { w.setState .kConnected with
      calls := .newConnectionCallback :: w.calls
      connections := w.connections ++ [connectedSocket] }
  else w.setState .kConnected

/-- `removeAndResetChannel`, then `rest` with the descriptor it returns. -/
def withoutChannel (rest : ConnectorThread → ConnectorThread) (w : ConnectorThread) : ConnectorThread :=
  match w.connector.removeAndResetChannel with
  | .ok connector => rest ({ w with connector := connector }.queueInLoop .resetChannel)
  | .error e => { w with halted := some e }

def stopInLoop (w : ConnectorThread) : ConnectorThread :=
  if w.connector.state = .kConnecting then ((w.read .stopInLoop).setState .kDisconnected).withoutChannel retry
  else w.read .stopInLoop

/-- `handleWrite`, with the results of `getSocketError` and `isSelfConnect`. -/
def handleWrite (err : Int) (isSelfConnect : Bool) (w : ConnectorThread) : ConnectorThread :=
  if w.connector.state = .kConnecting then
    (w.read .handleWrite).withoutChannel fun w => if err ≠ 0 ∨ isSelfConnect then w.retry else w.setState .kConnected
  else if w.connector.state = .kDisconnected then w.read .handleWrite
  else { w.read .handleWrite with halted := some (.assertFailed .connectorDisconnected) }

def handleError (w : ConnectorThread) : ConnectorThread :=
  if w.connector.state = .kConnecting then (w.read .handleError).withoutChannel retry else w.read .handleError

/-- `start` is called in the loop thread or in another one, `stop` in any, `restart` in the loop thread; a retry timer
expires; the loop runs its oldest functor, or reports an event of `channel_`; `connect(2)` returns; `connected` goes
on; `newConnectionCallback_` returns; the `UdpConnection` that owns a socket is destructed. -/
inductive Input where
  | start (inLoop : Bool)
  | stop
  | restart
  | timer (index : Nat)
  | functor
  | handleWrite (err : Int) (isSelfConnect : Bool)
  | handleError
  | connectReturns (errno : Errno)
  | connected
  | callbackReturns
  | destruct (socket : Nat)
  deriving DecidableEq, Repr

/-- Code outside of the connector has the loop thread. -/
def foreignTurn (w : ConnectorThread) : Bool := w.calls.isEmpty || w.calls.head? == some .newConnectionCallback

def runFunctor (functor : ConnectorFunctor) (w : ConnectorThread) : ConnectorThread :=
  match functor with
  | .startInLoop => w.startInLoop
  | .stopInLoop => w.stopInLoop
  | .resetChannel => { w with connector := { w.connector with channel := none } }

/-- The state after an input that can occur. -/
def next (w : ConnectorThread) : Input → Option ConnectorThread
  | .start true => if w.foreignTurn then some { w with connector := w.connector.start }.startInLoop else none
  | .start false => some ({ w with connector := w.connector.start }.queueInLoop .startInLoop)
  | .stop => some ({ w with connector := w.connector.stop }.queueInLoop .stopInLoop)
  | .restart =>
      if w.foreignTurn then
        some { w with connector :=
          { w.connector with
            state := .kDisconnected, retryDelayMs := UdpConnector.kInitRetryDelayMs, connect_ := true } }.startInLoop
      else none
  | .timer index =>
      if w.calls.isEmpty && decide (index < w.timers.length) then
        some { w with timers := w.timers.eraseIdx index }.startInLoop
      else none
  | .functor =>
      match w.pendingFunctors with
      | functor :: rest => if w.calls.isEmpty then some ({ w with pendingFunctors := rest }.runFunctor functor) else none
      | [] => none
  | .handleWrite err isSelfConnect =>
      -- the callbacks of a channel are called only if there is one
      if w.calls.isEmpty && w.connector.channel.isSome then some (w.handleWrite err isSelfConnect) else none
  | .handleError => if w.calls.isEmpty && w.connector.channel.isSome then some w.handleError else none
  | .connectReturns errno =>
      match w.calls with
      | .connect connectSocket :: rest => some ({ w with calls := rest }.connectReturned connectSocket errno)
      | _ => none
  | .connected =>
      match w.calls with
      | .connected connectedSocket :: rest => some ({ w with calls := rest }.connected connectedSocket)
      | _ => none
  | .callbackReturns =>
      match w.calls with
      | .newConnectionCallback :: rest => some { w with calls := rest }
      | _ => none
  | .destruct socket =>
      if socket ∈ w.connections then
        some { w with connections := w.connections.erase socket, openSockets := w.openSockets.erase socket }
      else none

def step (w : ConnectorThread) (i : Input) : Except Halt ConnectorThread :=
  if w.halted.isNone then
    match w.next i with
    | some w' => .ok w'
    | none => .error .notEnabled
  else .error .notEnabled

/-! ### `kConnecting` is never seen -/

/-- There is no channel, `kConnecting` is seen by nobody but the rest of `connected`, and has not been seen so far. -/
structure Passing (w : ConnectorThread) : Prop where
  noChannel : w.connector.channel = none
  passing : w.connector.state = .kConnecting → ∃ socket, w.calls.head? = some (.connected socket)
  reads : ∀ read ∈ w.reads, read.2 ≠ .kConnecting
  notNull : w.halted ≠ some .nullChannel

variable {w w' : ConnectorThread} {i : Input}

theorem passing_new : new.Passing := ⟨rfl, fun h => (nomatch h), by simp [new], by simp [new]⟩

theorem Passing.not_connecting (h : w.Passing) (hturn : w.foreignTurn = true) : w.connector.state ≠ .kConnecting := by
  intro hstate
  obtain ⟨socket, hhead⟩ := h.passing hstate
  rcases Bool.or_eq_true_iff.mp hturn with hempty | hcallback
  · rw [List.isEmpty_iff.mp hempty] at hhead
    cases hhead
  · rw [beq_iff_eq, hhead] at hcallback
    cases hcallback

theorem foreignTurn_of_isEmpty (h : w.calls.isEmpty = true) : w.foreignTurn = true := by
  rw [foreignTurn, h]
  rfl

/-- A function that reads `state_` does so while it is not `kConnecting`. -/
theorem passing_read (h : w.Passing) (hstate : w.connector.state ≠ .kConnecting) (reader : StateReader) :
    (w.read reader).Passing := by
  refine ⟨h.noChannel, h.passing, ?_, h.notNull⟩
  intro read hread
  rcases List.mem_cons.mp hread with rfl | hread
  · exact hstate
  · exact h.reads read hread

theorem passing_startInLoop (h : w.Passing) (hstate : w.connector.state ≠ .kConnecting) : w.startInLoop.Passing := by
  have hread := passing_read h hstate .startInLoop
  unfold startInLoop
  split_ifs
  · exact ⟨hread.noChannel, fun hconnecting => absurd hconnecting hstate, hread.reads, hread.notNull⟩
  · exact hread
  · exact ⟨hread.noChannel, hread.passing, hread.reads, by simp⟩

/-- What the loop runs only between two calls, with `state_` and `channel_` as they are. -/
theorem passing_runFunctor (h : w.Passing) (hstate : w.connector.state ≠ .kConnecting) (functor : ConnectorFunctor) :
    (w.runFunctor functor).Passing := by
  cases functor with
  | startInLoop => exact passing_startInLoop h hstate
  | stopInLoop =>
      rw [runFunctor, stopInLoop, if_neg hstate]
      exact passing_read h hstate .stopInLoop
  | resetChannel => exact ⟨rfl, h.passing, h.reads, h.notNull⟩

/-- The flag and the queues are not looked at. -/
theorem Passing.congr (h : w.Passing) (hstate : w'.connector.state = w.connector.state)
    (hchannel : w'.connector.channel = w.connector.channel) (hcalls : w'.calls = w.calls)
    (hreads : w'.reads = w.reads) (hhalted : w'.halted = w.halted) : w'.Passing := by
  refine ⟨hchannel.trans h.noChannel, ?_, ?_, ?_⟩
  · rw [hstate, hcalls]
    exact h.passing
  · rw [hreads]
    exact h.reads
  · rw [hhalted]
    exact h.notNull

theorem passing_connectReturned {socket : Nat} {rest : List ConnectorCall} (h : w.Passing)
    (hcalls : w.calls = .connect socket :: rest) (errno : Errno) :
    (connectReturned socket errno { w with calls := rest }).Passing := by
  have hstate : w.connector.state ≠ .kConnecting := by
    intro hstate
    obtain ⟨other, hhead⟩ := h.passing hstate
    rw [hcalls] at hhead
    cases hhead
  unfold connectReturned
  split
  · exact ⟨h.noChannel, fun _ => ⟨socket, rfl⟩, h.reads, h.notNull⟩
  · refine ⟨?_, fun hconnecting => ?_, h.reads, h.notNull⟩
    · rw [retry, UdpConnector.retry]
      split_ifs <;> exact h.noChannel
    · rw [retry, UdpConnector.retry] at hconnecting
      split_ifs at hconnecting
  · exact ⟨h.noChannel, fun hconnecting => absurd hconnecting hstate, h.reads, h.notNull⟩

theorem passing_connected (h : w.Passing) (socket : Nat) (rest : List ConnectorCall) :
    (connected socket { w with calls := rest }).Passing := by
  unfold connected
  split_ifs
  · exact ⟨h.noChannel, fun hconnecting => (nomatch hconnecting), h.reads, h.notNull⟩
  · exact ⟨h.noChannel, fun hconnecting => (nomatch hconnecting), h.reads, h.notNull⟩

theorem passing_next (h : w.Passing) (hnext : w.next i = some w') : w'.Passing := by
  cases i with
  | start inLoop =>
      cases inLoop with
      | true =>
          simp only [next] at hnext
          split_ifs at hnext with hturn
          cases hnext
          exact passing_startInLoop (h.congr rfl rfl rfl rfl rfl) (h.not_connecting hturn)
      | false =>
          cases hnext
          exact h.congr rfl rfl rfl rfl rfl
  | stop =>
      cases hnext
      exact h.congr rfl rfl rfl rfl rfl
  | restart =>
      simp only [next] at hnext
      split_ifs at hnext with hturn
      cases hnext
      refine passing_startInLoop ⟨h.noChannel, fun hconnecting => (nomatch hconnecting), h.reads, h.notNull⟩ ?_
      simp
  | timer index =>
      simp only [next] at hnext
      split_ifs at hnext with hidle
      cases hnext
      have hturn := foreignTurn_of_isEmpty (Bool.and_eq_true_iff.mp hidle).1
      exact passing_startInLoop (h.congr rfl rfl rfl rfl rfl) (h.not_connecting hturn)
  | functor =>
      simp only [next] at hnext
      split at hnext
      · rename_i functor rest hqueue
        split_ifs at hnext with hidle
        cases hnext
        have h' : Passing { w with pendingFunctors := rest } := h.congr rfl rfl rfl rfl rfl
        exact passing_runFunctor h' (h.not_connecting (foreignTurn_of_isEmpty hidle)) functor
      · cases hnext
  | handleWrite err isSelfConnect => simp [next, h.noChannel] at hnext
  | handleError => simp [next, h.noChannel] at hnext
  | connectReturns errno =>
      simp only [next] at hnext
      split at hnext
      · rename_i socket rest hcalls
        cases hnext
        exact passing_connectReturned h hcalls errno
      · cases hnext
  | connected =>
      simp only [next] at hnext
      split at hnext
      · cases hnext
        exact passing_connected h _ _
      · cases hnext
  | callbackReturns =>
      simp only [next] at hnext
      split at hnext
      · rename_i rest hcalls
        cases hnext
        have hturn : w.foreignTurn = true := by simp [foreignTurn, hcalls]
        exact ⟨h.noChannel, fun hconnecting => absurd hconnecting (h.not_connecting hturn), h.reads, h.notNull⟩
      · cases hnext
  | destruct socket =>
      simp only [next] at hnext
      split_ifs at hnext
      cases hnext
      exact h.congr rfl rfl rfl rfl rfl

theorem passing_step (h : w.Passing) (hstep : step w i = .ok w') : w'.Passing := by
  unfold step at hstep
  split_ifs at hstep
  split at hstep
  · rename_i w'' hnext
    cases hstep
    exact passing_next h hnext
  · cases hstep

/-- **The path through `kConnecting` is dead.** In every state that a run reaches, also one with calls into the
connector from inside `newConnectionCallback_`, whatever function has read `state_` has seen `kDisconnected` or
`kConnected`, `channel_` is null, as the destructor asserts, and no function has dereferenced it. -/
theorem connecting_never_seen (inputs : List Input) (w : ConnectorThread) (hrun : run step new inputs = .ok w) :
    (∀ read ∈ w.reads, read.2 = .kDisconnected ∨ read.2 = .kConnected) ∧ w.connector.channel = none ∧
      w.halted ≠ some .nullChannel := by
  have hinv : w.Passing := run_invariant (fun _ _ _ => passing_step) passing_new hrun
  refine ⟨fun read hread => ?_, hinv.noChannel, hinv.notNull⟩
  have hne := hinv.reads read hread
  cases hstate : read.2 with
  | kDisconnected => exact Or.inl rfl
  | kConnecting => exact absurd hstate hne
  | kConnected => exact Or.inr rfl

/-- The callback stops the connector and restarts it, and the queued `stopInLoop` is run after all have returned; a
`stop` of another thread comes between the two lines of `connected`. -/
def restartedInCallback : List Input :=
  [.start true, .connectReturns .ok, .connected, .stop, .restart, .connectReturns .EINTR, .stop, .connected,
    .callbackReturns, .functor, .functor]

theorem connecting_never_seen_restartedInCallback :
    ∃ w, run step new restartedInCallback = .ok w ∧
      w.reads.map Prod.snd = [.kConnected, .kConnected, .kDisconnected, .kDisconnected] ∧ w.connector.channel = none :=
  ⟨_, rfl, by decide, (connecting_never_seen restartedInCallback _ rfl).2.1⟩

/-! ### The functions of the connector, uninterrupted -/

/-- What the rest of `startInLoop` takes: the result of `connect(2)`, and the rest of `connected` if it succeeds. -/
def attempt (w : ConnectorThread) (errno : Errno) : List Input :=
  if w.connector.connect_ then
    .connectReturns errno :: (if errno.outcome = .connected then [.connected] else [])
  else []

/-- The delay of the timer that an effect asks for. -/
def delay? : ConnectorEffect → Option Nat
  | .runAfter delayMs => some delayMs
  | _ => none

/-- `w'` is `w` after a function of the connector that ended with `result`; `newConnectionCallback_`, if it is called,
is in progress. -/
structure Finished (result : UdpConnector × List ConnectorEffect) (w w' : ConnectorThread) : Prop where
  connector : w'.connector = result.1
  halted : w'.halted = w.halted
  timers : w'.timers = w.timers ++ result.2.filterMap delay?
  calls : w'.calls = (if .newConnection ∈ result.2 then [.newConnectionCallback] else []) ++ w.calls

/-- If no other thread comes in between, the steps of `startInLoop` do what `UdpConnector.startInLoop` does at once. -/
theorem run_startInLoop {errno : Errno} {result : UdpConnector × List ConnectorEffect}
    (h : w.connector.startInLoop errno = .ok result) (hhalted : w.halted = none) :
    ∃ w', run step w.startInLoop (w.attempt errno) = .ok w' ∧ Finished result w w' := by
  obtain ⟨c, effects⟩ := result
  obtain ⟨hstate, hcases⟩ := UdpConnector.startInLoop_cases h
  have hstart : w.connector.connect_ = true →
      w.startInLoop = (w.read .startInLoop).connect := by
    intro hflag
    simp [startInLoop, hstate, hflag]
  rcases hcases with ⟨hflag, rfl, rfl⟩ | ⟨hflag, hout, rfl, rfl⟩ | ⟨hflag, hout, rfl, -, rfl⟩ | ⟨hflag, hout, rfl, rfl⟩
  · refine ⟨w.read .startInLoop, by simp [startInLoop, attempt, hstate, hflag, run], rfl, rfl, ?_, ?_⟩
    · simp [read]
    · simp [read]
  · rw [hstart hflag]
    simp only [attempt, hflag, hout, if_true, run, step, next, read, connect, hhalted, Option.isNone_none,
      connectReturned, setState, connected]
    exact ⟨_, rfl, rfl, hhalted.symm, by simp [delay?], by simp⟩
  · rw [hstart hflag]
    simp only [attempt, hflag, hout, if_true, run, step, next, read, connect, hhalted, Option.isNone_none,
      connectReturned, retry]
    exact ⟨_, rfl, rfl, hhalted.symm, rfl, by simp⟩
  · rw [hstart hflag]
    simp only [attempt, hflag, hout, if_true, run, step, next, read, connect, hhalted, Option.isNone_none,
      connectReturned]
    exact ⟨_, rfl, rfl, hhalted.symm, by simp [delay?], by simp⟩

end ConnectorThread
end Realtinet
