import Mathlib.Logic.Function.Basic
import Realtinet.UdpConnectionEffect
import Realtinet.UdpConnector

/-! `UdpClient` with its connector and all the connections it has made, each one the full machine of
`UdpConnection`. Everything happens in one loop, except that the public functions may be called from any
thread. A connection that closes while `connectEstablished` runs, and the reconnect this leads to, come
in the inputs that follow: neither `newConnection` nor `removeConnection` has anything left to do after
the call in which they happen. The client is not destroyed while the run lasts. -/

namespace Realtinet

open TransitionSystem

namespace UdpClient

inductive Functor where
  | startInLoop
  | stopInLoop
  | resetChannel
  | connectDestroyed (conn : Nat)
  deriving DecidableEq, Repr

end UdpClient

open UdpClient in
/-- The client, with the part of its loop that serves it: the queued functors and the retry timers of
the connector (their delays). Connections have the numbers 1, 2, ...; `conns` has their states, and
`attempts` counts the calls of `connect(2)`. -/
structure UdpClient where
  retry : Bool
  connect_ : Bool
  nextConnId : Nat
  connection : Option Nat
  connector : UdpConnector
  writeCompleteCallback : Bool
  conns : Nat → UdpConnection
  pendingFunctors : List Functor
  timers : List Nat
  attempts : Nat

namespace UdpClient

def new (writeCompleteCallback : Bool) : UdpClient where
  retry := false
  connect_ := true
  nextConnId := 1
  connection := none
  connector := UdpConnector.new
  writeCompleteCallback := writeCompleteCallback
  conns := fun _ => UdpConnection.new writeCompleteCallback
  pendingFunctors := []
  timers := []
  attempts := 0

/-- The client has constructed the connection. -/
def Created (s : UdpClient) (id : Nat) : Prop := 0 < id ∧ id < s.nextConnId

instance createdDecidable (s : UdpClient) (id : Nat) : Decidable (s.Created id) :=
  inferInstanceAs (Decidable (0 < id ∧ id < s.nextConnId))

def queueInLoop (functor : Functor) (s : UdpClient) : UdpClient :=
  { s with pendingFunctors := s.pendingFunctors ++ [functor] }

/-- One input of a connection's own machine. -/
def stepConnection (id : Nat) (i : UdpConnection.Input) (s : UdpClient) : Except Halt UdpClient :=
  match (s.conns id).step i with
  | .ok c => .ok { s with conns := Function.update s.conns id c }
  | .error e => .error e

/-- `newConnection` up to its last line. -/
def construct (s : UdpClient) : UdpClient :=
  { s with
    nextConnId := s.nextConnId + 1
    conns := Function.update s.conns s.nextConnId (UdpConnection.new s.writeCompleteCallback)
    connection := some s.nextConnId }

def newConnection (s : UdpClient) : Except Halt UdpClient :=
  s.construct.stepConnection s.nextConnId .connectEstablished

def perform (s : UdpClient) : ConnectorEffect → Except Halt UdpClient
  | .socket => .ok { s with attempts := s.attempts + 1 }
  | .newConnection => s.newConnection
  | .runAfter delayMs => .ok { s with timers := s.timers ++ [delayMs] }
  | .resetChannel => .ok (s.queueInLoop .resetChannel)

/-- What a function of the connector has done and asked for. -/
def finish (result : Except Halt (UdpConnector × List ConnectorEffect)) (s : UdpClient) : Except Halt UdpClient :=
  match result with
  | .ok (connector, effects) => run perform { s with connector := connector } effects
  | .error e => .error e

/-- `connect`, called in the loop thread or in another one. -/
def connect (inLoop : Bool) (errno : Errno) (s : UdpClient) : Except Halt UdpClient :=
  let s := { s with connect_ := true, connector := s.connector.start }
  if inLoop then s.finish (s.connector.startInLoop errno) else .ok (s.queueInLoop .startInLoop)

def disconnect (s : UdpClient) : UdpClient :=
  match s.connection with
  | some id => { s with connect_ := false, conns := Function.update s.conns id (s.conns id).shutdown }
  | none => { s with connect_ := false }

def stop (s : UdpClient) : UdpClient :=
  queueInLoop .stopInLoop { s with connect_ := false, connector := s.connector.stop }

def enableRetry (s : UdpClient) : UdpClient := { s with retry := true }

/-- `removeConnection`, the `closeCallback_` of the connections, with the result of `connect(2)` should
it reconnect. -/
def removeConnection (id : Nat) (errno : Errno) (s : UdpClient) : Except Halt UdpClient :=
  if s.connection = some id then
    let s := queueInLoop (.connectDestroyed id) { s with connection := none }
    if s.retry && s.connect_ then s.finish (s.connector.restart errno) else .ok s
  else .error (.assertFailed .connectionIsCurrent)

def runFunctor (functor : Functor) (errno : Errno) (s : UdpClient) : Except Halt UdpClient :=
  match functor with
  | .startInLoop => s.finish (s.connector.startInLoop errno)
  | .stopInLoop => s.finish s.connector.stopInLoop
  | .resetChannel => .ok { s with connector := { s.connector with channel := none } }
  | .connectDestroyed id => s.stepConnection id .connectDestroyed

/-- A public function is called; a retry timer expires, in any order; the loop runs its oldest functor;
something happens to a connection, other than what its owner does. The result of `connect(2)`, should
the input reach it, comes with the input. -/
inductive Input where
  | connect (inLoop : Bool) (errno : Errno)
  | disconnect
  | stop
  | enableRetry
  | timer (index : Nat) (errno : Errno)
  | functor (errno : Errno)
  | connection (id : Nat) (i : UdpConnection.Input) (errno : Errno)
  deriving DecidableEq, Repr

def connectionInput (id : Nat) (i : UdpConnection.Input) (errno : Errno) (s : UdpClient) : Except Halt UdpClient :=
  match s.stepConnection id i with
  | .ok s' => if (s.conns id).callsClose i then s'.removeConnection id errno else .ok s'
  | .error e => .error e

def step (s : UdpClient) : Input → Except Halt UdpClient
  | .connect inLoop errno => s.connect inLoop errno
  | .disconnect => .ok s.disconnect
  | .stop => .ok s.stop
  | .enableRetry => .ok s.enableRetry
  | .timer index errno =>
      if index < s.timers.length then
        { s with timers := s.timers.eraseIdx index }.finish (s.connector.startInLoop errno)
      else .error .notEnabled
  | .functor errno =>
      match s.pendingFunctors with
      | functor :: rest => { s with pendingFunctors := rest }.runFunctor functor errno
      | [] => .error .notEnabled
  | .connection id i errno =>
      if s.Created id ∧ i ≠ .connectEstablished ∧ i ≠ .connectDestroyed then s.connectionInput id i errno
      else .error .notEnabled

/-- The clients some run leads to from a newly constructed one. -/
def Run (writeCompleteCallback : Bool) (inputs : List Input) (s : UdpClient) : Prop :=
  run step (new writeCompleteCallback) inputs = .ok s

end UdpClient
end Realtinet
