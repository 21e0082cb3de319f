import Realtinet.BufferRuns
import Realtinet.UdpConnection

/-! `TcpConnection` as a state machine, with its two buffers and the part of the kernel that it writes to. As for
`UdpConnection` the calls in progress are a stack: a frame is user code that is running now, or the rest of a connection
or channel function that runs once the frames above it have returned.

A thread other than the loop's reads and writes `state_` first and queues its functor later; what it is about to queue is
in `posts`, and the loop may do anything in between. -/

namespace Realtinet

namespace Channel

def isWriting (c : Channel) : Bool := c.writeEvent

def enableWriting (c : Channel) : Except Halt Channel := ({ c with writeEvent := true } : Channel).update

def disableWriting (c : Channel) : Except Halt Channel := ({ c with writeEvent := false } : Channel).update

end Channel

namespace TcpConnection

inductive Functor where
  | sendInLoop (caller : Thread) (message : List UInt8)
  | shutdownInLoop
  | forceCloseInLoop
  | startReadInLoop
  | stopReadInLoop
  | writeCompleteCallback
  | highWaterMarkCallback (size : Nat)
  deriving DecidableEq, Repr

/-- A call in progress: user code; `Channel::handleEvent` has still to return, and until then the channel is the current
one of the loop; `Channel::handleEventWithGuard` has still to call `handleClose`, `handleRead` or `handleWrite`
(`handleError` only logs); `handleClose` has still to call `closeCallback_`; `connectDestroyed` has still to call
`channel_->remove()`. -/
inductive Frame where
  | user
  | channelEvent
  | channelClose
  | channelRead
  | channelWrite
  | closeCallback
  | channelRemove
  deriving DecidableEq, Repr

/-- What `write` returns: a number of bytes, `EWOULDBLOCK` or an error that is only logged, `EPIPE` or `ECONNRESET`. -/
inductive WriteResult where
  | wrote (n : Nat)
  | tryAgain
  | broken
  deriving DecidableEq, Repr

/-- What `readFd` returns: bytes, 0, or an error. -/
inductive ReadResult where
  | received (data : List UInt8)
  | closed
  | failed
  deriving DecidableEq, Repr

structure Revents extends Realtinet.Revents where
  pollOut : Bool := false
  deriving DecidableEq, Repr

end TcpConnection

open TcpConnection in
/-- The connection with the part of its loop that serves it. `written` are the bytes the kernel has accepted and
`writeShut` whether `shutdownWrite` has been called. The sends are recorded with the thread that made them, oldest first:
`accepted` those that found the connection up, `sent` those that `sendInLoop` has written or kept, `dropped` those that it
has given up. -/
structure TcpConnection where
  state : StateE
  reading : Bool
  channel : Channel
  inputBuffer : Buffer
  outputBuffer : Buffer
  highWaterMark : Nat
  highWaterMarkCallback : Bool
  writeCompleteCallback : Bool
  delayedCloses : Nat
  pendingFunctors : List Functor
  posts : List (Thread × Functor)
  activity : Activity TcpConnection.Revents
  stack : List Frame
  written : List UInt8
  writeShut : Bool
  accepted : List (Thread × List UInt8)
  sent : List (Thread × List UInt8)
  dropped : List (Thread × List UInt8)

namespace TcpConnection

def new (writeCompleteCallback highWaterMarkCallback : Bool) (highWaterMark : Nat) : TcpConnection where
  state := .kConnecting
  reading := true
  channel := Channel.new
  inputBuffer := Buffer.new
  outputBuffer := Buffer.new
  highWaterMark := highWaterMark
  highWaterMarkCallback := highWaterMarkCallback
  writeCompleteCallback := writeCompleteCallback
  delayedCloses := 0
  pendingFunctors := []
  posts := []
  activity := .inactive
  stack := []
  written := []
  writeShut := false
  accepted := []
  sent := []
  dropped := []

/-- `queueInLoop`, called in the loop's thread. -/
def queueInLoop (functor : Functor) (c : TcpConnection) : TcpConnection :=
  { c with pendingFunctors := c.pendingFunctors ++ [functor] }

/-- `sockets::write`: no more than is offered, and nothing once the writing side is shut down. -/
def kernelWrite (len : Nat) (result : WriteResult) (c : TcpConnection) : WriteResult :=
  if c.writeShut then .broken
  else
    match result with
    | .wrote n => .wrote (min n len)
    | result => result

/-- What `sendInLoop` does with the bytes it could not write at once. -/
def keepRemaining (remaining : List UInt8) (c : TcpConnection) : Except Halt TcpConnection :=
  let oldLen := c.outputBuffer.readableBytes
  let c :=
    if c.highWaterMark ≤ oldLen + remaining.length ∧ oldLen < c.highWaterMark ∧ c.highWaterMarkCallback = true then
      c.queueInLoop (.highWaterMarkCallback (oldLen + remaining.length))
    else c
  let c := { c with outputBuffer := c.outputBuffer.append remaining }
  if !c.channel.isWriting then do
    let channel ← c.channel.enableWriting
    return { c with channel := channel }
  else .ok c

def sendInLoop (caller : Thread) (message : List UInt8) (result : WriteResult) (c : TcpConnection) :
    Except Halt TcpConnection :=
  if c.state = .kDisconnected then .ok { c with dropped := c.dropped ++ [(caller, message)] }
  else if !c.channel.isWriting && c.outputBuffer.readableBytes == 0 then
    match c.kernelWrite message.length result with
    | .wrote n =>
        let c := { c with written := c.written ++ message.take n, sent := c.sent ++ [(caller, message)] }
        if message.length - n = 0 then
          if c.writeCompleteCallback then .ok (c.queueInLoop .writeCompleteCallback) else .ok c
        else c.keepRemaining (message.drop n)
    | .tryAgain =>
        let c := { c with sent := c.sent ++ [(caller, message)] }
        if 0 < message.length then c.keepRemaining message else .ok c
    | .broken => .ok { c with dropped := c.dropped ++ [(caller, message)] }
  else
    let c := { c with sent := c.sent ++ [(caller, message)] }
    if 0 < message.length then c.keepRemaining message else .ok c

def shutdownInLoop (c : TcpConnection) : TcpConnection :=
  if !c.channel.isWriting then { c with writeShut := true } else c

def handleWrite (result : WriteResult) (c : TcpConnection) : Except Halt TcpConnection :=
  if c.channel.isWriting then
    match c.kernelWrite c.outputBuffer.readableBytes result with
    | .wrote n =>
        if h : 0 < n ∧ n ≤ c.outputBuffer.readableBytes then
          let c := { c with
            written := c.written ++ c.outputBuffer.peek n
            outputBuffer := c.outputBuffer.retrieve n h.2 }
          if c.outputBuffer.readableBytes = 0 then do
            let channel ← c.channel.disableWriting
            let c := { c with channel := channel }
            let c := if c.writeCompleteCallback then c.queueInLoop .writeCompleteCallback else c
            return if c.state = .kDisconnecting then c.shutdownInLoop else c
          else .ok c
        else .ok c
    | _ => .ok c
  else .ok c

/-- `handleClose` up to the return of `connectionCallback_`. -/
def handleClose (c : TcpConnection) : Except Halt TcpConnection :=
  if c.state = .kConnected ∨ c.state = .kDisconnecting then do
    let channel ← c.channel.disableAll
    return { c with
      state := .kDisconnected
      channel := channel
      stack := .user :: .closeCallback :: c.stack }
  else .error (.assertFailed .connectionUp)

def handleRead (result : ReadResult) (c : TcpConnection) : Except Halt TcpConnection :=
  match result with
  | .received data => .ok { c with inputBuffer := c.inputBuffer.readFd data, stack := .user :: c.stack }
  | .closed => c.handleClose
  | .failed => .ok c

def forceCloseInLoop (c : TcpConnection) : Except Halt TcpConnection :=
  if c.state = .kConnected ∨ c.state = .kDisconnecting then c.handleClose else .ok c

def startReadInLoop (c : TcpConnection) : Except Halt TcpConnection :=
  if !c.reading || !c.channel.isReading then do
    let channel ← c.channel.enableReading
    return { c with channel := channel, reading := true }
  else .ok c

def stopReadInLoop (c : TcpConnection) : Except Halt TcpConnection :=
  if c.reading || c.channel.isReading then do
    let channel ← c.channel.disableReading
    return { c with channel := channel, reading := false }
  else .ok c

def connectEstablished (c : TcpConnection) : Except Halt TcpConnection :=
  if c.state = .kConnecting then do
    let channel ← c.channel.enableReading
    return { c with state := .kConnected, channel := channel, stack := .user :: c.stack }
  else .error (.assertFailed .connectionConnecting)

/-- `connectDestroyed` up to `channel_->remove()`. -/
def connectDestroyed (c : TcpConnection) : Except Halt TcpConnection :=
  if c.state = .kConnected then do
    let channel ← c.channel.disableAll
    return { c with
      state := .kDisconnected
      channel := channel
      stack := .user :: .channelRemove :: c.stack }
  else .ok { c with stack := .channelRemove :: c.stack }

def runFunctor (functor : Functor) (result : WriteResult) (c : TcpConnection) : Except Halt TcpConnection :=
  match functor with
  | .sendInLoop caller message => c.sendInLoop caller message result
  | .shutdownInLoop => .ok c.shutdownInLoop
  | .forceCloseInLoop => c.forceCloseInLoop
  | .startReadInLoop => c.startReadInLoop
  | .stopReadInLoop => c.stopReadInLoop
  | .writeCompleteCallback => .ok { c with stack := .user :: c.stack }
  | .highWaterMarkCallback _ => .ok { c with stack := .user :: c.stack }

/-! ### The public functions -/

/-- `runInLoop`: at once in the loop's thread; from another one the functor is about to be queued. -/
def runInLoop (caller : Thread) (functor : Functor) (result : WriteResult) (c : TcpConnection) :
    Except Halt TcpConnection :=
  if caller = .loop then c.runFunctor functor result else .ok { c with posts := c.posts ++ [(caller, functor)] }

def send (caller : Thread) (message : List UInt8) (result : WriteResult) (c : TcpConnection) :
    Except Halt TcpConnection :=
  if c.state = .kConnected then
    { c with accepted := c.accepted ++ [(caller, message)] }.runInLoop caller (.sendInLoop caller message) result
  else .ok c

def shutdown (caller : Thread) (result : WriteResult) (c : TcpConnection) : Except Halt TcpConnection :=
  if c.state = .kConnected then
    { c with state := .kDisconnecting }.runInLoop caller .shutdownInLoop result
  else .ok c

def forceClose (caller : Thread) (c : TcpConnection) : TcpConnection :=
  if c.state = .kConnected ∨ c.state = .kDisconnecting then
    let c := { c with state := .kDisconnecting }
    if caller = .loop then c.queueInLoop .forceCloseInLoop
    else { c with posts := c.posts ++ [(caller, .forceCloseInLoop)] }
  else c

/-- The timer that `forceCloseWithDelay` sets calls `forceClose`. -/
def forceCloseWithDelay (c : TcpConnection) : TcpConnection :=
  if c.state = .kConnected ∨ c.state = .kDisconnecting then
    { c with state := .kDisconnecting, delayedCloses := c.delayedCloses + 1 }
  else c

inductive Api where
  | send (message : List UInt8)
  | shutdown
  | forceClose
  | forceCloseWithDelay
  | startRead
  | stopRead
  deriving DecidableEq, Repr

def runApi (caller : Thread) (api : Api) (result : WriteResult) (c : TcpConnection) : Except Halt TcpConnection :=
  match api with
  | .send message => c.send caller message result
  | .shutdown => c.shutdown caller result
  | .forceClose => .ok (c.forceClose caller)
  | .forceCloseWithDelay => .ok c.forceCloseWithDelay
  | .startRead => c.runInLoop caller .startReadInLoop result
  | .stopRead => c.runInLoop caller .stopReadInLoop result

/-! ### Inputs -/

/-- The owner runs `connectEstablished` or `connectDestroyed`; `poll` reports events of the channel, later the loop comes
to the channel among the active ones, and then it is through with all of them; the rest of a function on top of the stack
goes on, for `handleRead` and `handleWrite` with the result of the system call; the loop runs the oldest functor; a thread
queues what it was about to; a delayed close is due; a public function is called; user code takes bytes out of
`inputBuffer_`; user code returns. -/
inductive Input where
  | connectEstablished
  | connectDestroyed
  | poll (revents : Revents)
  | handleEvent
  | eventsHandled
  | proceed
  | read (result : ReadResult)
  | write (result : WriteResult)
  | functor (result : WriteResult)
  | enqueue (thread : Thread)
  | timer
  | call (caller : Thread) (api : Api) (result : WriteResult)
  | retrieve (len : Nat)
  | userReturns
  deriving DecidableEq, Repr

/-- What `poll` can report. -/
def canReport (revents : Revents) (c : TcpConnection) : Bool :=
  c.channel.canReport revents.toRevents && (c.channel.isWriting || !revents.pollOut)

/-- `Channel::handleEventWithGuard`: the callbacks the events ask for, in the order it calls them. -/
def handleEventWithGuard (revents : Revents) (c : TcpConnection) : TcpConnection :=
  { c with stack :=
      (if revents.pollHup && !revents.pollIn then [.channelClose] else []) ++
      (if revents.pollIn || revents.pollPri || revents.pollRdhup then [.channelRead] else []) ++
      (if revents.pollOut then [.channelWrite] else []) ++
      c.stack }

/-- `Channel::handleEvent`, called by the loop. -/
def handleEvent (revents : Revents) (c : TcpConnection) : TcpConnection :=
  handleEventWithGuard revents { c with activity := .handled, stack := .channelEvent :: c.stack }

/-- The loop is handling the events of a round whose poll has reported the channel, but not those of the channel. -/
def activeAside (c : TcpConnection) : Bool := c.activity != .inactive && !c.stack.contains .channelEvent

def loopIdle (c : TcpConnection) : Bool := c.stack.isEmpty && c.state != .kConnecting

/-- Code outside the connection holds the loop thread. -/
def userTurn (c : TcpConnection) : Bool :=
  c.state != .kConnecting && (c.stack.isEmpty || c.stack.head? == some .user)

/-- A thread that is about to queue a functor does nothing else before. -/
def mayCall (caller : Thread) (c : TcpConnection) : Bool :=
  if caller = .loop then c.userTurn else c.state != .kConnecting && !(c.posts.map Prod.fst).contains caller

def proceed (c : TcpConnection) : Except Halt TcpConnection :=
  match c.stack with
  | .channelEvent :: rest => .ok { c with stack := rest }
  | .channelClose :: rest => { c with stack := rest }.handleClose
  | .closeCallback :: rest => .ok { c with stack := .user :: rest }
  | .channelRemove :: rest => do
      let channel ← c.channel.remove c.activeAside
      return { c with channel := channel, stack := rest }
  | _ => .error .notEnabled

def step (c : TcpConnection) : Input → Except Halt TcpConnection
  | .connectEstablished => if c.stack.isEmpty then c.connectEstablished else .error .notEnabled
  | .connectDestroyed => if c.userTurn then c.connectDestroyed else .error .notEnabled
  | .poll revents =>
      if c.loopIdle && c.activity == .inactive && c.canReport revents then
        .ok { c with activity := .reported revents }
      else .error .notEnabled
  | .handleEvent =>
      match c.activity with
      | .reported revents => if c.loopIdle then .ok (c.handleEvent revents) else .error .notEnabled
      | _ => .error .notEnabled
  | .eventsHandled =>
      if c.loopIdle && c.activity == .handled then .ok { c with activity := .inactive } else .error .notEnabled
  | .proceed => c.proceed
  | .read result =>
      match c.stack with
      | .channelRead :: rest => { c with stack := rest }.handleRead result
      | _ => .error .notEnabled
  | .write result =>
      match c.stack with
      | .channelWrite :: rest => { c with stack := rest }.handleWrite result
      | _ => .error .notEnabled
  | .functor result =>
      match c.pendingFunctors with
      | functor :: rest =>
          if c.loopIdle && c.activity == .inactive then { c with pendingFunctors := rest }.runFunctor functor result
          else .error .notEnabled
      | [] => .error .notEnabled
  | .enqueue thread =>
      match c.posts.find? (fun post => post.1 = thread) with
      | some post => .ok (queueInLoop post.2 { c with posts := c.posts.erase post })
      | none => .error .notEnabled
  | .timer =>
      if c.loopIdle && decide (0 < c.delayedCloses) then
        .ok (forceClose .loop { c with delayedCloses := c.delayedCloses - 1 })
      else .error .notEnabled
  | .call caller api result => if c.mayCall caller then c.runApi caller api result else .error .notEnabled
  | .retrieve len =>
      if h : c.userTurn = true ∧ len ≤ c.inputBuffer.readableBytes then
        .ok { c with inputBuffer := c.inputBuffer.retrieve len h.2 }
      else .error .notEnabled
  | .userReturns =>
      match c.stack with
      | .user :: rest => .ok { c with stack := rest }
      | _ => .error .notEnabled

end TcpConnection
end Realtinet
