import Realtinet.EventLoop
import Realtinet.TransitionSystem

/-! `UdpConnection` as a state machine. The connection is a passive object: the event loop, the owner,
`KcpSession` and user code call into it, and it calls back out in the middle of its functions. The
calls in progress are kept as an explicit stack. A frame is either foreign code that is running now
(user code, or a `KcpSession` function) or the rest of a connection or channel function that runs once
the frames above it have returned. Each function below does what the source does up to its next call
of foreign code and pushes the frame of that call on top of its own rest.

One input is one return or call of foreign code, one event of the loop, or one call from another
thread, together with the results of the system calls made while it is handled. `KcpSession` is not
part of the repository; it may call `DoRecv` from `Recv`, and `DoSend` and the connection callback from
`Recv`, `Send` and `Update`, as often as it likes, and return anything. -/

namespace Realtinet

inductive StateE where
  | kDisconnected
  | kConnecting
  | kConnected
  | kDisconnecting
  deriving DecidableEq, Repr

/-- A value of `kcpp::TransmitModeE`, only passed through. -/
abbrev TransmitModeE := Nat

/-- The thread a call is made from: the connection's own loop thread, or another one. -/
inductive Thread where
  | loop
  | other (id : Nat)
  deriving DecidableEq, Repr

namespace UdpConnection

inductive Functor where
  | sendInLoop (caller : Thread) (message : List UInt8) (transmitMode : TransmitModeE)
  | startReadInLoop
  | stopReadInLoop
  | forceCloseInLoop
  | writeCompleteCallback
  deriving DecidableEq, Repr

/-- A call in progress. `user` is user code, or the owner's code called through `closeCallback_`;
`kcpRecv`, `kcpSend` and `kcpUpdate` are the `KcpSession` functions called by `handleRead`, `kcpSend`
and `KcpSessionUpdate`. The others are rests of functions: `Channel::handleEvent` has still to return, and
the channel is `currentActiveChannel_` of the loop until it does; `Channel::handleEventWithGuard` has still
to call `handleClose`, `handleError` or `handleRead`; `handleClose` has still to call `closeCallback_`;
`connectDestroyed` has still to call `channel_->remove()`. -/
inductive Frame where
  | user
  | kcpRecv
  | kcpSend
  | kcpUpdate
  | channelEvent
  | channelClose
  | channelError
  | channelRead
  | closeCallback
  | channelRemove
  deriving DecidableEq, Repr

/-- The calls out of the connection, as an observer sees them. A connection callback is labelled with
`state_` at the call. -/
inductive Event where
  | connectionCallback (state : StateE)
  | messageCallback
  | writeCompleteCallback
  | closeCallback
  | kcpSend (caller : Thread) (message : List UInt8) (transmitMode : TransmitModeE)
  | kcpUpdate
  | runAt (timer : Nat)
  deriving DecidableEq, Repr

end UdpConnection

open UdpConnection in
/-- The connection with the part of its loop that serves it: the armed update timers, the queued
functors, what the loop knows of its channel since the last poll, the calls in progress, and the calls
made so far (newest first). `writeCompleteCallback` tells whether that callback is set. -/
structure UdpConnection where
  state : StateE
  reading : Bool
  channel : Channel
  writeCompleteCallback : Bool
  inputBuffer : List UInt8
  curKcpsessUpTimerId : Option Nat
  timers : List Nat
  nextTimer : Nat
  pendingFunctors : List Functor
  activity : Activity Revents
  stack : List Frame
  trace : List Event
  deriving DecidableEq

namespace UdpConnection

/-- `UdpConnection::UdpConnection`, with the callbacks set by the owner. -/
def new (writeCompleteCallback : Bool) : UdpConnection where
  state := .kConnecting
  reading := true
  channel := Channel.new
  writeCompleteCallback := writeCompleteCallback
  inputBuffer := []
  curKcpsessUpTimerId := none
  timers := []
  nextTimer := 0
  pendingFunctors := []
  activity := .inactive
  stack := []
  trace := []

def queueInLoop (functor : Functor) (c : UdpConnection) : UdpConnection :=
  { c with pendingFunctors := c.pendingFunctors ++ [functor] }

/-- `connectionCallback_(shared_from_this())`: user code runs, labelled with the present state. -/
def callConnectionCallback (c : UdpConnection) : UdpConnection :=
  { c with trace := .connectionCallback c.state :: c.trace, stack := .user :: c.stack }

def handleClose (c : UdpConnection) : Except Halt UdpConnection := do
  let channel ← c.channel.disableAll
  return callConnectionCallback
    { c with state := .kDisconnected, channel := channel, stack := .closeCallback :: c.stack }

/-- `handleError`, with the result of `getsockopt(SO_ERROR)`. -/
def handleError (soError : Int) (c : UdpConnection) : Except Halt UdpConnection :=
  if soError ≠ 0 then c.handleClose else .ok c

def onKcpsessConnection (isConnected : Bool) (c : UdpConnection) : Except Halt UdpConnection :=
  if isConnected then .ok c.callConnectionCallback else c.handleClose

/-- `DoSend`, with the result of `write` and, should it fail, of `getsockopt`. -/
def doSend (len nwrote soError : Int) (c : UdpConnection) : Except Halt UdpConnection :=
  if nwrote ≥ 0 then
    if len - nwrote = 0 ∧ c.writeCompleteCallback then .ok (c.queueInLoop .writeCompleteCallback) else .ok c
  else c.handleError soError

/-- `DoRecv`, with the result of `read` and, should it fail, of `getsockopt`. -/
def doRecv (n soError : Int) (c : UdpConnection) : Except Halt UdpConnection :=
  if n = 0 then c.handleClose
  else if n < 0 then c.handleError soError
  else .ok c

def kcpSend (caller : Thread) (message : List UInt8) (mode : TransmitModeE) (c : UdpConnection) :
    UdpConnection :=
  { c with trace := .kcpSend caller message mode :: c.trace, stack := .kcpSend :: c.stack }

def sendInLoop (caller : Thread) (message : List UInt8) (mode : TransmitModeE) (c : UdpConnection) :
    UdpConnection :=
  if c.state = .kDisconnected then c else c.kcpSend caller message mode

/-- `send`: both overloads check the state, hand the bytes over at once in the loop thread and queue a
copy of them from any other thread. -/
def send (caller : Thread) (message : List UInt8) (mode : TransmitModeE) (c : UdpConnection) :
    UdpConnection :=
  if c.state = .kConnected then
    if caller = .loop then c.sendInLoop caller message mode
    else c.queueInLoop (.sendInLoop caller message mode)
  else c

def shutdown (c : UdpConnection) : UdpConnection :=
  if c.state = .kConnected then { c with state := .kDisconnecting } else c

def forceClose (c : UdpConnection) : UdpConnection :=
  if c.state = .kConnected ∨ c.state = .kDisconnecting then
    queueInLoop .forceCloseInLoop { c with state := .kDisconnecting }
  else c

def forceCloseInLoop (c : UdpConnection) : Except Halt UdpConnection :=
  if c.state = .kConnected ∨ c.state = .kDisconnecting then c.handleClose else .ok c

def startReadInLoop (c : UdpConnection) : Except Halt UdpConnection :=
  if !c.reading || !c.channel.isReading then do
    let channel ← c.channel.enableReading
    return { c with channel := channel, reading := true }
  else .ok c

def stopReadInLoop (c : UdpConnection) : Except Halt UdpConnection :=
  if c.reading || c.channel.isReading then do
    let channel ← c.channel.disableReading
    return { c with channel := channel, reading := false }
  else .ok c

/-- `startRead`: `runInLoop` runs the functor at once in the loop thread. -/
def startRead (caller : Thread) (c : UdpConnection) : Except Halt UdpConnection :=
  if caller = .loop then c.startReadInLoop else .ok (c.queueInLoop .startReadInLoop)

def stopRead (caller : Thread) (c : UdpConnection) : Except Halt UdpConnection :=
  if caller = .loop then c.stopReadInLoop else .ok (c.queueInLoop .stopReadInLoop)

/-- `KcpSessionUpdate`, always called in the loop thread: `kcpSession_->Update()` begins. -/
def kcpSessionUpdate (c : UdpConnection) : UdpConnection :=
  { c with trace := .kcpUpdate :: c.trace, stack := .kcpUpdate :: c.stack }

/-- The rest of `KcpSessionUpdate` after `Update`. -/
def kcpUpdated (nextUpdateTimeMs : Int) (c : UdpConnection) : Except Halt UdpConnection :=
  if nextUpdateTimeMs < 0 then c.handleClose
  else
    .ok { c with
      curKcpsessUpTimerId := some c.nextTimer
      timers := c.timers ++ [c.nextTimer]
      nextTimer := c.nextTimer + 1
      trace := .runAt c.nextTimer :: c.trace }

def handleRead (c : UdpConnection) : UdpConnection :=
  { c with stack := .kcpRecv :: c.stack }

/-- The loop of `handleRead` after `Recv(&kcpsessRcvBuf_, n)` has returned `ok`: the `kcpRecv` frame on
top stays for the next round, or is left. -/
def kcpReceived (ok : Bool) (n : Int) (kcpsessRcvBuf : List UInt8) (c : UdpConnection) : UdpConnection :=
  if !ok then { c with stack := c.stack.tail }
  else if n < 0 then c
  else if n > 0 then
    { c with
      inputBuffer := c.inputBuffer ++ kcpsessRcvBuf.take n.toNat
      trace := .messageCallback :: c.trace
      stack := .user :: c.stack }
  else c

def connectEstablished (c : UdpConnection) : Except Halt UdpConnection :=
  if c.state = .kConnecting then do
    let channel ← c.channel.enableReading
    return kcpSessionUpdate { c with state := .kConnected, channel := channel }
  else .error (.assertFailed .connectionConnecting)

/-- `connectDestroyed` up to `channel_->remove()`. -/
def connectDestroyed (c : UdpConnection) : Except Halt UdpConnection :=
  if c.state = .kConnected then do
    let channel ← c.channel.disableAll
    return callConnectionCallback
      { c with state := .kDisconnected, channel := channel, stack := .channelRemove :: c.stack }
  else .ok { c with stack := .channelRemove :: c.stack }

/-- The loop is handling the events of a round whose poll has reported the channel, but not those of the channel. -/
def activeAside (c : UdpConnection) : Bool := c.activity != .inactive && !c.stack.contains .channelEvent

/-- `Channel::handleEventWithGuard`: the callbacks the events ask for, in the order it calls them. -/
def handleEventWithGuard (revents : Revents) (c : UdpConnection) : UdpConnection :=
  { c with stack :=
      (if revents.pollHup && !revents.pollIn then [.channelClose] else []) ++
      (if revents.pollErr || revents.pollNval then [.channelError] else []) ++
      (if revents.pollIn || revents.pollPri || revents.pollRdhup then [.channelRead] else []) ++
      c.stack }

/-- `Channel::handleEvent`, called by the loop. -/
def handleEvent (revents : Revents) (c : UdpConnection) : UdpConnection :=
  handleEventWithGuard revents { c with activity := .handled, stack := .channelEvent :: c.stack }

def runFunctor (functor : Functor) (c : UdpConnection) : Except Halt UdpConnection :=
  match functor with
  | .sendInLoop caller message mode => .ok (c.sendInLoop caller message mode)
  | .startReadInLoop => c.startReadInLoop
  | .stopReadInLoop => c.stopReadInLoop
  | .forceCloseInLoop => c.forceCloseInLoop
  | .writeCompleteCallback =>
      .ok { c with trace := .writeCompleteCallback :: c.trace, stack := .user :: c.stack }

/-! ### Inputs -/

/-- The public functions user code may call. -/
inductive Api where
  | send (message : List UInt8) (transmitMode : TransmitModeE)
  | shutdown
  | forceClose
  | startRead
  | stopRead
  deriving DecidableEq, Repr

/-- The owner runs `connectEstablished` or `connectDestroyed` in the connection's loop; `poll` reports
events of the channel, later the loop comes to the channel among the active ones, and then it is through
with all of them; an armed update timer expires; the loop runs the oldest queued functor; some thread
calls a public function; user code takes bytes out of `inputBuffer_`; the rest of a function on top of
the stack goes on, which for `handleError` takes the result of `getsockopt`; `KcpSession` calls `DoSend`,
`DoRecv` or the connection callback; foreign code on top of the stack returns. -/
inductive Input where
  | connectEstablished
  | connectDestroyed
  | poll (revents : Revents)
  | handleEvent
  | eventsHandled
  | timer (id : Nat)
  | functor
  | call (caller : Thread) (api : Api)
  | retrieve (len : Nat)
  | proceed
  | errorCallback (soError : Int)
  | doSend (len nwrote soError : Int)
  | doRecv (n soError : Int)
  | kcpConnection (isConnected : Bool)
  | recvReturns (ok : Bool) (n : Int) (kcpsessRcvBuf : List UInt8)
  | sendReturns (len : Int)
  | updateReturns (nextUpdateTimeMs : Int)
  | userReturns
  deriving DecidableEq, Repr

def runApi (caller : Thread) (api : Api) (c : UdpConnection) : Except Halt UdpConnection :=
  match api with
  | .send message mode => .ok (c.send caller message mode)
  | .shutdown => .ok c.shutdown
  | .forceClose => .ok c.forceClose
  | .startRead => c.startRead caller
  | .stopRead => c.stopRead caller

/-- The loop thread is between two callbacks of this connection. -/
def loopIdle (c : UdpConnection) : Bool := c.stack.isEmpty && c.state != .kConnecting

/-- Code outside the connection holds the loop thread. User code has no access to a connection before
`connectEstablished`. -/
def userTurn (c : UdpConnection) : Bool :=
  c.state != .kConnecting && (c.stack.isEmpty || c.stack.head? == some .user)

/-- `KcpSession` holds the loop thread. -/
def kcpTurn (c : UdpConnection) : Bool :=
  c.stack.head? == some .kcpRecv || c.stack.head? == some .kcpSend || c.stack.head? == some .kcpUpdate

/-- The rest of a connection or channel function, once the frames above it have returned. -/
def proceed (c : UdpConnection) : Except Halt UdpConnection :=
  match c.stack with
  | .channelEvent :: rest => .ok { c with stack := rest }
  | .channelClose :: rest => handleClose { c with stack := rest }
  | .channelRead :: rest => .ok (handleRead { c with stack := rest })
  | .closeCallback :: rest =>
      .ok { c with trace := .closeCallback :: c.trace, stack := .user :: rest }
  | .channelRemove :: rest => do
      let channel ← c.channel.remove c.activeAside
      return { c with channel := channel, stack := rest }
  | _ => .error .notEnabled

def step (c : UdpConnection) : Input → Except Halt UdpConnection
  | .connectEstablished => if c.stack.isEmpty then c.connectEstablished else .error .notEnabled
  | .connectDestroyed => if c.userTurn then c.connectDestroyed else .error .notEnabled
  | .poll revents =>
      if c.loopIdle && c.activity == .inactive && c.channel.canReport revents then
        .ok { c with activity := .reported revents }
      else .error .notEnabled
  | .handleEvent =>
      match c.activity with
      | .reported revents => if c.loopIdle then .ok (c.handleEvent revents) else .error .notEnabled
      | _ => .error .notEnabled
  | .eventsHandled =>
      if c.loopIdle && c.activity == .handled then .ok { c with activity := .inactive } else .error .notEnabled
  | .timer id =>
      if c.loopIdle && c.timers.contains id then
        .ok (kcpSessionUpdate { c with timers := c.timers.erase id })
      else .error .notEnabled
  | .functor =>
      match c.pendingFunctors with
      | functor :: rest =>
          -- functors run after the loop has gone through the active channels
          if c.loopIdle && c.activity == .inactive then runFunctor functor { c with pendingFunctors := rest }
          else .error .notEnabled
      | [] => .error .notEnabled
  | .call caller api =>
      if caller != .loop || c.userTurn then c.runApi caller api else .error .notEnabled
  | .retrieve len =>
      if c.userTurn then .ok { c with inputBuffer := c.inputBuffer.drop len } else .error .notEnabled
  | .proceed => c.proceed
  | .errorCallback soError =>
      match c.stack with
      | .channelError :: rest => handleError soError { c with stack := rest }
      | _ => .error .notEnabled
  | .doSend len nwrote soError =>
      if c.kcpTurn then c.doSend len nwrote soError else .error .notEnabled
  | .doRecv n soError =>
      if c.stack.head? == some .kcpRecv then c.doRecv n soError else .error .notEnabled
  | .kcpConnection isConnected =>
      if c.kcpTurn then c.onKcpsessConnection isConnected else .error .notEnabled
  | .recvReturns ok n kcpsessRcvBuf =>
      if c.stack.head? == some .kcpRecv then .ok (c.kcpReceived ok n kcpsessRcvBuf)
      else .error .notEnabled
  | .sendReturns _ =>
      -- `kcpSend` only logs a negative result
      match c.stack with
      | .kcpSend :: rest => .ok { c with stack := rest }
      | _ => .error .notEnabled
  | .updateReturns nextUpdateTimeMs =>
      match c.stack with
      | .kcpUpdate :: rest => kcpUpdated nextUpdateTimeMs { c with stack := rest }
      | _ => .error .notEnabled
  | .userReturns =>
      match c.stack with
      | .user :: rest => .ok { c with stack := rest }
      | _ => .error .notEnabled

/-- The connections some run leads to from a newly constructed one. -/
def Run (writeCompleteCallback : Bool) (inputs : List Input) (c : UdpConnection) : Prop :=
  TransitionSystem.run step (new writeCompleteCallback) inputs = .ok c

end UdpConnection
end Realtinet
