import Realtinet.EventLoop
import Realtinet.TransitionSystem

/-! `UdpConnector` and the sockets it opens. A connector is used by the client, for its one server, and
by the acceptor, once for every peer. Its functions return the new connector and what they ask of
their surroundings, in order: the socket they open, the call of `newConnectionCallback_` with it, a
retry timer, a queued `resetChannel`. The calls that end the process on failure (`socket` and `bind`
through their `OrDie` wrappers) are taken to succeed. -/

namespace Realtinet

open TransitionSystem

/-- The results of `connect(2)` that `UdpConnector::connect` tells apart; `ok` is `savedErrno == 0`. -/
inductive Errno where
  | ok
  | EINPROGRESS
  | EINTR
  | EISCONN
  | EAGAIN
  | EADDRINUSE
  | EADDRNOTAVAIL
  | ECONNREFUSED
  | ENETUNREACH
  | EACCES
  | EPERM
  | EAFNOSUPPORT
  | EALREADY
  | EBADF
  | EFAULT
  | ENOTSOCK
  | other (code : Nat)
  deriving DecidableEq, Repr

inductive ConnectOutcome where
  | connected
  | retry
  | failed
  deriving DecidableEq, Repr

/-- The branch of the `switch` in `UdpConnector::connect`. The hard errors and the unexpected ones
do nothing but log. -/
def Errno.outcome : Errno → ConnectOutcome
  | .ok | .EINPROGRESS | .EINTR | .EISCONN => .connected
  | .EAGAIN | .EADDRINUSE | .EADDRNOTAVAIL | .ECONNREFUSED | .ENETUNREACH => .retry
  | .EACCES | .EPERM | .EAFNOSUPPORT | .EALREADY | .EBADF | .EFAULT | .ENOTSOCK => .failed
  | .other _ => .failed

/-- `UdpConnector::States`. -/
inductive ConnectorState where
  | kDisconnected
  | kConnecting
  | kConnected
  deriving DecidableEq, Repr

structure UdpConnector where
  connect_ : Bool
  state : ConnectorState
  channel : Option Channel
  retryDelayMs : Nat
  deriving DecidableEq

inductive ConnectorEffect where
  | socket
  | newConnection
  | runAfter (delayMs : Nat)
  | resetChannel
  deriving DecidableEq, Repr

namespace UdpConnector

def kMaxRetryDelayMs : Nat := 30 * 1000

def kInitRetryDelayMs : Nat := 500

def new : UdpConnector := ⟨false, .kDisconnected, none, kInitRetryDelayMs⟩

/-- `retry`: the descriptor it is given is not closed. -/
def retry (c : UdpConnector) : UdpConnector × List ConnectorEffect :=
  if c.connect_ then
    ({ c with
        state := .kDisconnected
        retryDelayMs := if c.retryDelayMs * 2 < kMaxRetryDelayMs then c.retryDelayMs * 2 else kMaxRetryDelayMs },
      [.runAfter c.retryDelayMs])
  else ({ c with state := .kDisconnected }, [])

/-- `connected`: the state passes through `kConnecting` before any other code can see it. -/
def connected (c : UdpConnector) : UdpConnector × List ConnectorEffect :=
  ({ c with state := .kConnected }, if c.connect_ then [.newConnection] else [])

/-- `connect`: a new socket on every call, and the branch its result leads to. -/
def connect (errno : Errno) (c : UdpConnector) : UdpConnector × List ConnectorEffect :=
  match errno.outcome with
  | .connected => (c.connected.1, .socket :: c.connected.2)
  | .retry => (c.retry.1, .socket :: c.retry.2)
  | .failed => (c, [.socket])

def startInLoop (errno : Errno) (c : UdpConnector) : Except Halt (UdpConnector × List ConnectorEffect) :=
  if c.state = .kDisconnected then .ok (if c.connect_ then c.connect errno else (c, []))
  else .error (.assertFailed .connectorDisconnected)

/-- `start` and `stop` set the flag; the loop then runs or queues their second half. -/
def start (c : UdpConnector) : UdpConnector := { c with connect_ := true }

def stop (c : UdpConnector) : UdpConnector := { c with connect_ := false }

def restart (errno : Errno) (c : UdpConnector) : Except Halt (UdpConnector × List ConnectorEffect) :=
  startInLoop errno { c with state := .kDisconnected, retryDelayMs := kInitRetryDelayMs, connect_ := true }

/-- `removeAndResetChannel`. The callbacks of the channel call it, or a functor does after the events have been
handled: the channel is not active aside. -/
def removeAndResetChannel (c : UdpConnector) : Except Halt UdpConnector :=
  match c.channel with
  | none => .error .nullChannel
  | some channel => do
      let channel ← channel.disableAll
      let channel ← channel.remove false
      return { c with channel := some channel }

def stopInLoop (c : UdpConnector) : Except Halt (UdpConnector × List ConnectorEffect) :=
  if c.state = .kConnecting then
    match removeAndResetChannel { c with state := .kDisconnected } with
    | .ok c' => .ok (c'.retry.1, .resetChannel :: c'.retry.2)
    | .error e => .error e
  else .ok (c, [])

/-- **What `startInLoop` can do.** Nothing when the connector has been stopped; otherwise it opens a
socket and hands it over, arms a retry timer, or leaves it at that. -/
theorem startInLoop_cases {errno : Errno} {c c' : UdpConnector} {effects : List ConnectorEffect}
    (h : c.startInLoop errno = .ok (c', effects)) :
    c.state = .kDisconnected ∧
      (c.connect_ = false ∧ c' = c ∧ effects = [] ∨
        c.connect_ = true ∧ errno.outcome = .connected ∧ c' = { c with state := .kConnected } ∧
          effects = [.socket, .newConnection] ∨
        c.connect_ = true ∧ errno.outcome = .retry ∧ c' = c.retry.1 ∧ c'.state = .kDisconnected ∧
          effects = [.socket, .runAfter c.retryDelayMs] ∨
        c.connect_ = true ∧ errno.outcome = .failed ∧ c' = c ∧ effects = [.socket]) := by
  rw [startInLoop] at h
  split_ifs at h with hstate hconnect
  · refine ⟨hstate, Or.inr ?_⟩
    rw [Except.ok.injEq, connect] at h
    cases hout : errno.outcome with
    | connected =>
        rw [hout] at h
        simp only [connected, hconnect, if_true] at h
        cases h
        exact Or.inl ⟨hconnect, rfl, by rw [hconnect], rfl⟩
    | retry =>
        rw [hout] at h
        simp only at h
        cases h
        refine Or.inr (Or.inl ⟨hconnect, rfl, rfl, ?_, ?_⟩)
        · simp [retry, hconnect]
        · simp [retry, hconnect]
    | failed =>
        rw [hout] at h
        cases h
        exact Or.inr (Or.inr ⟨hconnect, rfl, rfl, rfl⟩)
  · cases h
    exact ⟨hstate, Or.inl ⟨by simpa using hconnect, rfl, rfl⟩⟩

/-- The state `kConnecting` is never seen from outside. -/
theorem startInLoop_not_connecting {errno : Errno} {c c' : UdpConnector} {effects : List ConnectorEffect}
    (h : c.startInLoop errno = .ok (c', effects)) : c'.state ≠ .kConnecting := by
  obtain ⟨hstate, hcases⟩ := startInLoop_cases h
  rcases hcases with ⟨-, rfl, -⟩ | ⟨-, -, rfl, -⟩ | ⟨-, -, -, hstate', -⟩ | ⟨-, -, rfl, -⟩
  · simp [hstate]
  · simp
  · simp [hstate']
  · simp [hstate]

theorem startInLoop_eq_error_iff {errno : Errno} {c : UdpConnector} {e : Halt} :
    c.startInLoop errno = .error e ↔ c.state ≠ .kDisconnected ∧ e = .assertFailed .connectorDisconnected := by
  rw [startInLoop]
  split_ifs with hstate
  · simp [hstate]
  · simp [hstate, eq_comm]

end UdpConnector
end Realtinet
