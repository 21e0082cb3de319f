import Mathlib.Logic.Function.Basic
import Realtinet.LoopQueues
import Realtinet.UdpConnectionEffect
import Realtinet.UdpConnector

/-! `UdpServer` with its `UdpAcceptor`, the connectors the acceptor makes for its peers, and all the
connections of the server, each one the full machine of `UdpConnection`. Loop 0 is the loop of the
acceptor; every connection lives in the I/O loop that `getNextLoop` gave it, which is loop 0 when the
pool has no threads. `runInLoop` runs a functor at once when it is called in the thread of the loop.

Objects held by shared pointers are named by handles with their constant parts, and stay in the state
after the last pointer to them is gone. `connName` is a fixed text followed by `nextConnId_`, so the
key of `connections_` is the number; `UdpServerNames` has the map under the names.
`peerAddrToUdpConnectors_` is a finite map on the addresses.
A connection closed while `connectEstablished` runs does so in the inputs that follow it: on the way
back to the event loop neither that function nor its callers have anything left to do. -/

namespace Realtinet

open TransitionSystem

/-- The constant part of a `UdpConnection`: `id_`, `loop_`, `peerAddr_`. -/
structure ConnectionPtr (Addr : Type) where
  connId : Nat
  loop : Nat
  peerAddr : Addr
  deriving DecidableEq

structure ConnectorPtr (Addr : Type) where
  id : Nat
  peerAddr : Addr
  deriving DecidableEq

namespace UdpServer

inductive Functor (Addr : Type) where
  | connectEstablished (conn : ConnectionPtr Addr)
  | removeConnectionInLoop (conn : ConnectionPtr Addr)
  | connectDestroyed (conn : ConnectionPtr Addr)
  | removeConnector (peerAddr : Addr)
  | stopInLoop (connector : ConnectorPtr Addr)
  | resetChannel (connector : ConnectorPtr Addr)
  deriving DecidableEq

/-- The timers of the acceptor's loop: a connector's retry, and the end of a peer's entry. -/
inductive Timer (Addr : Type) where
  | startInLoop (connector : ConnectorPtr Addr)
  | eraseConnector (peerAddr : Addr)
  deriving DecidableEq

end UdpServer

open UdpServer in
/-- The server, with the pending functors of all its loops (oldest first, each with its loop) and the
timers of loop 0. `conns` and `connectors` have the changing parts of the objects under their numbers,
`accepted` every connection the server has constructed, `executed` the functors run so far, with the
loop whose thread ran them (newest first). -/
structure UdpServer (Addr : Type) where
  threadPool : EventLoopThreadPool
  writeCompleteCallback : Bool
  nextConnId : Nat
  connections : List (ConnectionPtr Addr)
  peerAddrToUdpConnectors : Addr → Option (ConnectorPtr Addr)
  nextConnector : Nat
  connectors : Nat → UdpConnector
  conns : Nat → UdpConnection
  pendingFunctors : List (Nat × Functor Addr)
  timers : List (Timer Addr)
  accepted : List (ConnectionPtr Addr)
  executed : List (Nat × Functor Addr)

namespace UdpServer

variable {Addr : Type} [DecidableEq Addr]

/-- A started server with `numThreads` I/O threads. -/
def new (numThreads : Nat) (writeCompleteCallback : Bool) : UdpServer Addr where
  threadPool := ⟨numThreads, 0⟩
  writeCompleteCallback := writeCompleteCallback
  nextConnId := 1
  connections := []
  peerAddrToUdpConnectors := fun _ => none
  nextConnector := 0
  connectors := fun _ => UdpConnector.new
  conns := fun _ => UdpConnection.new writeCompleteCallback
  pendingFunctors := []
  timers := []
  accepted := []
  executed := []

def queueInLoop (loop : Nat) (functor : Functor Addr) (s : UdpServer Addr) : UdpServer Addr :=
  { s with pendingFunctors := s.pendingFunctors ++ [(loop, functor)] }

/-- One input of the connection's own machine. -/
def stepConnection (conn : ConnectionPtr Addr) (i : UdpConnection.Input) (s : UdpServer Addr) :
    Except Halt (UdpServer Addr) :=
  match (s.conns conn.connId).step i with
  | .ok c => .ok { s with conns := Function.update s.conns conn.connId c }
  | .error e => .error e

/-- `removeConnectionInLoop`: `n` is the number of entries that `erase` found. -/
def removeConnectionInLoop (conn : ConnectionPtr Addr) (s : UdpServer Addr) : Except Halt (UdpServer Addr) :=
  let n := s.connections.countP fun c => c.connId = conn.connId
  if n = 1 then
    let s := { s with connections := s.connections.filter fun c => c.connId ≠ conn.connId }
    .ok ((s.queueInLoop 0 (.removeConnector conn.peerAddr)).queueInLoop conn.loop (.connectDestroyed conn))
  else .error (.assertFailed .erasedOne)

/-- `UdpAcceptor::RemoveConnector`, with `UdpConnector::stop`. -/
def removeConnector (peerAddr : Addr) (s : UdpServer Addr) : Except Halt (UdpServer Addr) :=
  match s.peerAddrToUdpConnectors peerAddr with
  | some connector =>
      let s := { s with
        connectors := Function.update s.connectors connector.id (s.connectors connector.id).stop }
      let s := s.queueInLoop 0 (.stopInLoop connector)
      .ok { s with timers := s.timers ++ [.eraseConnector peerAddr] }
  | none => .error (.assertFailed .connectorFound)

/-- `UdpAcceptor::EraseConnector`. -/
def eraseConnector (peerAddr : Addr) (s : UdpServer Addr) : UdpServer Addr :=
  { s with peerAddrToUdpConnectors := Function.update s.peerAddrToUdpConnectors peerAddr none }

/-- A retry timer or a queued `resetChannel` that a connector has asked for. Its sockets are accounted
for elsewhere. -/
def post (connector : ConnectorPtr Addr) (s : UdpServer Addr) : ConnectorEffect → UdpServer Addr
  | .runAfter _ => { s with timers := s.timers ++ [.startInLoop connector] }
  | .resetChannel => s.queueInLoop 0 (.resetChannel connector)
  | .socket | .newConnection => s

/-- `UdpConnector::stopInLoop`, which never asks for a new connection. -/
def stopConnector (connector : ConnectorPtr Addr) (s : UdpServer Addr) : Except Halt (UdpServer Addr) :=
  match (s.connectors connector.id).stopInLoop with
  | .ok (c, effects) =>
      .ok (effects.foldl (post connector) { s with connectors := Function.update s.connectors connector.id c })
  | .error e => .error e

def resetChannel (connector : ConnectorPtr Addr) (s : UdpServer Addr) : UdpServer Addr :=
  { s with
    connectors := Function.update s.connectors connector.id
      { s.connectors connector.id with channel := none } }

/-- A functor run in the thread of `loop`. -/
def runFunctor (loop : Nat) (functor : Functor Addr) (s : UdpServer Addr) : Except Halt (UdpServer Addr) :=
  let s := { s with executed := (loop, functor) :: s.executed }
  match functor with
  | .connectEstablished conn => s.stepConnection conn .connectEstablished
  | .removeConnectionInLoop conn => s.removeConnectionInLoop conn
  | .connectDestroyed conn => s.stepConnection conn .connectDestroyed
  | .removeConnector peerAddr => s.removeConnector peerAddr
  | .stopInLoop connector => s.stopConnector connector
  | .resetChannel connector => .ok (s.resetChannel connector)

def runInLoop (caller loop : Nat) (functor : Functor Addr) (s : UdpServer Addr) : Except Halt (UdpServer Addr) :=
  if caller = loop then s.runFunctor loop functor else .ok (s.queueInLoop loop functor)

/-- `UdpServer::removeConnection`, the `closeCallback_` of the connections, called in the
connection's thread. -/
def removeConnection (conn : ConnectionPtr Addr) (s : UdpServer Addr) : Except Halt (UdpServer Addr) :=
  s.runInLoop conn.loop 0 (.removeConnectionInLoop conn)

/-- `UdpServer::newConnection` up to its last line: the connection is constructed and registered. -/
def registerConnection (conn : ConnectionPtr Addr) (s : UdpServer Addr) : UdpServer Addr :=
  { s with
    threadPool := s.threadPool.getNextLoop.2
    nextConnId := s.nextConnId + 1
    conns := Function.update s.conns conn.connId (UdpConnection.new s.writeCompleteCallback)
    connections := s.connections.filter (fun c => c.connId ≠ conn.connId) ++ [conn]
    accepted := conn :: s.accepted }

/-- `UdpServer::newConnection`, called through `UdpAcceptor::newConnection` in loop 0. -/
def newConnection (peerAddr : Addr) (s : UdpServer Addr) : Except Halt (UdpServer Addr) :=
  let ioLoop := s.threadPool.getNextLoop.1
  let conn : ConnectionPtr Addr := ⟨s.nextConnId, ioLoop, peerAddr⟩
  (s.registerConnection conn).runInLoop 0 ioLoop (.connectEstablished conn)

def perform (connector : ConnectorPtr Addr) (s : UdpServer Addr) : ConnectorEffect → Except Halt (UdpServer Addr)
  | .newConnection => s.newConnection connector.peerAddr
  | effect => .ok (s.post connector effect)

/-- `UdpConnector::startInLoop` of a connector that is `c` when it is called. -/
def startConnector (connector : ConnectorPtr Addr) (c : UdpConnector) (errno : Errno) (s : UdpServer Addr) :
    Except Halt (UdpServer Addr) :=
  match c.startInLoop errno with
  | .ok (c, effects) =>
      run (perform connector) { s with connectors := Function.update s.connectors connector.id c } effects
  | .error e => .error e

/-- `UdpAcceptor::handleRead`: `none` when `recvfrom` fails. -/
def handleRead (peerAddr : Option Addr) (errno : Errno) (s : UdpServer Addr) : Except Halt (UdpServer Addr) :=
  match peerAddr with
  | none => .ok s
  | some peerAddr =>
      match s.peerAddrToUdpConnectors peerAddr with
      | some _ => .ok s
      | none =>
          let connector : ConnectorPtr Addr := ⟨s.nextConnector, peerAddr⟩
          let s := { s with
            nextConnector := s.nextConnector + 1
            peerAddrToUdpConnectors := Function.update s.peerAddrToUdpConnectors peerAddr (some connector) }
          s.startConnector connector UdpConnector.new.start errno

/-- The acceptor's socket is readable; a timer of loop 0 expires, in any order; a loop runs its oldest
functor; something happens to a connection, other than what its owner does. The result of `connect(2)`,
should the input reach it, comes with the input. -/
inductive Input (Addr : Type) where
  | handleRead (peerAddr : Option Addr) (errno : Errno)
  | timer (index : Nat) (errno : Errno)
  | functor (loop : Nat)
  | connection (conn : ConnectionPtr Addr) (i : UdpConnection.Input)

/-- An input of a connection; `closeCallback_` is the server's `removeConnection`. -/
def connectionInput (conn : ConnectionPtr Addr) (i : UdpConnection.Input) (s : UdpServer Addr) :
    Except Halt (UdpServer Addr) :=
  match s.stepConnection conn i with
  | .ok s' => if (s.conns conn.connId).callsClose i then s'.removeConnection conn else .ok s'
  | .error e => .error e

def step (s : UdpServer Addr) : Input Addr → Except Halt (UdpServer Addr)
  | .handleRead peerAddr errno => s.handleRead peerAddr errno
  | .timer index errno =>
      match s.timers[index]? with
      | some (.startInLoop connector) =>
          { s with timers := s.timers.eraseIdx index }.startConnector connector
            (s.connectors connector.id) errno
      | some (.eraseConnector peerAddr) =>
          .ok ({ s with timers := s.timers.eraseIdx index }.eraseConnector peerAddr)
      | none => .error .notEnabled
  | .functor loop =>
      match LoopQueues.takeOldest loop s.pendingFunctors with
      | some (functor, left) => { s with pendingFunctors := left }.runFunctor loop functor
      | none => .error .notEnabled
  | .connection conn i =>
      if conn ∈ s.accepted ∧ i ≠ .connectEstablished ∧ i ≠ .connectDestroyed then s.connectionInput conn i
      else .error .notEnabled

/-- The servers some run leads to from a newly started one. -/
def Run (numThreads : Nat) (writeCompleteCallback : Bool) (inputs : List (Input Addr)) (s : UdpServer Addr) : Prop :=
  run step (new numThreads writeCompleteCallback) inputs = .ok s

end UdpServer
end Realtinet
