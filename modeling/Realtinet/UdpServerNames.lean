import Realtinet.InetAddressText
import Realtinet.UdpServerLedger

/-! The server with `connections_` under the names of the connections, as the source has it. The name is made of the
server's name, the address it listens on and `nextConnId_`, and passes through a buffer of 64 characters. As long as
`nextConnId_` does not overflow the names are as good as the numbers, and this server is the one whose map is keyed by
the numbers. -/

namespace Realtinet.UdpServer

open TransitionSystem BoundedPrint

/-- `connName` of `UdpServer::newConnection`. -/
def connName (inetNtop6 : Vector UInt8 16 → List Char) (name : List Char) (listenAddr : InetAddress)
    (nextConnId : Nat) : List Char :=
  name ++ snprintf 64 ('-' :: listenAddr.toIpPort inetNtop6 ++ '#' :: decimal nextConnId)

namespace ByName

variable {Addr : Type} (connName : Nat → List Char)

/-- `removeConnectionInLoop`, with `connections_.erase( conn->name() )`. -/
def removeConnectionInLoop (conn : ConnectionPtr Addr) (s : UdpServer Addr) : Except Halt (UdpServer Addr) :=
  let n := s.connections.countP fun c => connName c.connId = connName conn.connId
  if n = 1 then
    let s := { s with connections := s.connections.filter fun c => connName c.connId ≠ connName conn.connId }
    .ok ((s.queueInLoop 0 (.removeConnector conn.peerAddr)).queueInLoop conn.loop (.connectDestroyed conn))
  else .error (.assertFailed .erasedOne)

/-- No other functor reaches `connections_`. -/
def runFunctor (loop : Nat) (functor : Functor Addr) (s : UdpServer Addr) : Except Halt (UdpServer Addr) :=
  match functor with
  | .removeConnectionInLoop conn =>
      removeConnectionInLoop connName conn { s with executed := (loop, functor) :: s.executed }
  | _ => s.runFunctor loop functor

def runInLoop (caller loop : Nat) (functor : Functor Addr) (s : UdpServer Addr) : Except Halt (UdpServer Addr) :=
  if caller = loop then runFunctor connName loop functor s else .ok (s.queueInLoop loop functor)

def removeConnection (conn : ConnectionPtr Addr) (s : UdpServer Addr) : Except Halt (UdpServer Addr) :=
  runInLoop connName conn.loop 0 (.removeConnectionInLoop conn) s

/-- `newConnection` up to its last line, with `connections_[connName] = conn`. -/
def registerConnection (conn : ConnectionPtr Addr) (s : UdpServer Addr) : UdpServer Addr :=
  { s.registerConnection conn with
    connections := s.connections.filter (fun c => connName c.connId ≠ connName conn.connId) ++ [conn] }

def newConnection (peerAddr : Addr) (s : UdpServer Addr) : Except Halt (UdpServer Addr) :=
  let ioLoop := s.threadPool.getNextLoop.1
  let conn : ConnectionPtr Addr := ⟨s.nextConnId, ioLoop, peerAddr⟩
  runInLoop connName 0 ioLoop (.connectEstablished conn) (registerConnection connName conn s)

def perform (connector : ConnectorPtr Addr) (s : UdpServer Addr) : ConnectorEffect → Except Halt (UdpServer Addr)
  | .newConnection => newConnection connName connector.peerAddr s
  | effect => .ok (s.post connector effect)

def startConnector (connector : ConnectorPtr Addr) (c : UdpConnector) (errno : Errno) (s : UdpServer Addr) :
    Except Halt (UdpServer Addr) :=
  match c.startInLoop errno with
  | .ok (c, effects) =>
      run (perform connName connector) { s with connectors := Function.update s.connectors connector.id c } effects
  | .error e => .error e

def connectionInput (conn : ConnectionPtr Addr) (i : UdpConnection.Input) (s : UdpServer Addr) :
    Except Halt (UdpServer Addr) :=
  match s.stepConnection conn i with
  | .ok s' => if (s.conns conn.connId).callsClose i then removeConnection connName conn s' else .ok s'
  | .error e => .error e

variable [DecidableEq Addr]

def handleRead (peerAddr : Option Addr) (errno : Errno) (s : UdpServer Addr) : Except Halt (UdpServer Addr) :=
  match peerAddr with
  | none => .ok s
  | some peerAddr =>
      match s.peerAddrToUdpConnectors peerAddr with
      | some _ => .ok s
      | none =>
          let connector : ConnectorPtr Addr := ⟨s.nextConnector, peerAddr⟩
          let s := { s with
            nextConnector := s.nextConnector + 1
            peerAddrToUdpConnectors := Function.update s.peerAddrToUdpConnectors peerAddr (some connector) }
          startConnector connName connector UdpConnector.new.start errno s

def step (s : UdpServer Addr) : Input Addr → Except Halt (UdpServer Addr)
  | .handleRead peerAddr errno => handleRead connName peerAddr errno s
  | .timer index errno =>
      match s.timers[index]? with
      | some (.startInLoop connector) =>
          startConnector connName connector (s.connectors connector.id) errno
            { s with timers := s.timers.eraseIdx index }
      | some (.eraseConnector peerAddr) =>
          .ok ({ s with timers := s.timers.eraseIdx index }.eraseConnector peerAddr)
      | none => .error .notEnabled
  | .functor loop =>
      match LoopQueues.takeOldest loop s.pendingFunctors with
      | some (functor, left) => runFunctor connName loop functor { s with pendingFunctors := left }
      | none => .error .notEnabled
  | .connection conn i =>
      if s.accepted.contains conn ∧ i ≠ .connectEstablished ∧ i ≠ .connectDestroyed then
        connectionInput connName conn i s
      else .error .notEnabled

variable {connName : Nat → List Char} {s s' : UdpServer Addr} {conn : ConnectionPtr Addr} {loop : Nat}
  {functor : Functor Addr}

omit [DecidableEq Addr] in
theorem runFunctor_of_ne (hfunctor : ∀ conn, functor ≠ .removeConnectionInLoop conn) :
    runFunctor connName loop functor s = s.runFunctor loop functor := by
  cases functor with
  | removeConnectionInLoop conn => exact absurd rfl (hfunctor conn)
  | connectEstablished conn => rfl
  | connectDestroyed conn => rfl
  | removeConnector peerAddr => rfl
  | stopInLoop connector => rfl
  | resetChannel connector => rfl

section Agreement

variable {bound : Nat} (hnames : ∀ i ≤ bound, ∀ j ≤ bound, connName i = connName j → i = j)

include hnames

omit [DecidableEq Addr] in
theorem countP_connName (hreg : ∀ c ∈ s.connections, c.connId ≤ bound) (hconn : conn.connId ≤ bound) :
    (s.connections.countP fun c => connName c.connId = connName conn.connId) =
      s.connections.countP fun c => c.connId = conn.connId := by
  apply List.countP_congr
  intro c hmem
  simp only [decide_eq_true_eq]
  exact ⟨hnames _ (hreg c hmem) _ hconn, congrArg connName⟩

omit [DecidableEq Addr] in
theorem filter_connName (hreg : ∀ c ∈ s.connections, c.connId ≤ bound) (hconn : conn.connId ≤ bound) :
    (s.connections.filter fun c => connName c.connId ≠ connName conn.connId) =
      s.connections.filter fun c => c.connId ≠ conn.connId := by
  apply List.filter_congr
  intro c hmem
  have hsame : connName c.connId = connName conn.connId ↔ c.connId = conn.connId :=
    ⟨hnames _ (hreg c hmem) _ hconn, congrArg connName⟩
  simp only [ne_eq, hsame]

omit [DecidableEq Addr] in
theorem removeConnectionInLoop_eq (hreg : ∀ c ∈ s.connections, c.connId ≤ bound) (hconn : conn.connId ≤ bound) :
    removeConnectionInLoop connName conn s = s.removeConnectionInLoop conn := by
  rw [removeConnectionInLoop, UdpServer.removeConnectionInLoop, countP_connName hnames hreg hconn,
    filter_connName hnames hreg hconn]

omit [DecidableEq Addr] in
theorem runFunctor_eq (hreg : ∀ c ∈ s.connections, c.connId ≤ bound)
    (hfunctor : ∀ conn, functor.conn = some conn → conn.connId ≤ bound) :
    runFunctor connName loop functor s = s.runFunctor loop functor := by
  by_cases hremove : ∃ conn, functor = .removeConnectionInLoop conn
  · obtain ⟨conn, rfl⟩ := hremove
    exact removeConnectionInLoop_eq hnames hreg (hfunctor conn rfl)
  · exact runFunctor_of_ne fun conn heq => hremove ⟨conn, heq⟩

omit [DecidableEq Addr] in
theorem removeConnection_eq (hreg : ∀ c ∈ s.connections, c.connId ≤ bound) (hconn : conn.connId ≤ bound) :
    removeConnection connName conn s = s.removeConnection conn := by
  have hfunctor : ∀ other, (Functor.removeConnectionInLoop conn).conn = some other → other.connId ≤ bound := by
    rintro other ⟨rfl⟩
    exact hconn
  rw [removeConnection, runInLoop, runFunctor_eq hnames hreg hfunctor]
  rfl

omit [DecidableEq Addr] in
theorem registerConnection_eq (hreg : ∀ c ∈ s.connections, c.connId ≤ bound) (hconn : conn.connId ≤ bound) :
    registerConnection connName conn s = s.registerConnection conn := by
  rw [registerConnection, filter_connName hnames hreg hconn]
  rfl

omit [DecidableEq Addr] in
theorem newConnection_eq {peerAddr : Addr} (hreg : ∀ c ∈ s.connections, c.connId ≤ bound)
    (hnext : s.nextConnId ≤ bound) : newConnection connName peerAddr s = s.newConnection peerAddr := by
  rw [newConnection, registerConnection_eq hnames hreg hnext]
  rfl

omit [DecidableEq Addr] in
theorem startConnector_eq {connector : ConnectorPtr Addr} {c : UdpConnector} {errno : Errno}
    (hreg : ∀ c ∈ s.connections, c.connId ≤ bound) (hnext : s.nextConnId ≤ bound) :
    startConnector connName connector c errno s = s.startConnector connector c errno := by
  rw [startConnector, UdpServer.startConnector]
  cases hstart : c.startInLoop errno with
  | error e => rfl
  | ok result =>
      obtain ⟨c', effects⟩ := result
      obtain ⟨-, hcases⟩ := UdpConnector.startInLoop_cases hstart
      rcases hcases with ⟨-, -, rfl⟩ | ⟨-, -, -, rfl⟩ | ⟨-, -, -, -, rfl⟩ | ⟨-, -, -, rfl⟩
      · rfl
      · have hsocket : ∀ t : UdpServer Addr, UdpServer.perform connector t .socket = .ok t := fun t => rfl
        have hsocket' : ∀ t : UdpServer Addr, perform connName connector t .socket = .ok t := fun t => rfl
        simp only
        rw [run_cons (hsocket' _), run_cons (hsocket _), run_singleton, run_singleton]
        exact newConnection_eq hnames hreg hnext
      · rfl
      · rfl

omit hnames in
theorem connId_le (h : s.Ledger) (hnext : s.nextConnId ≤ bound) (hmem : conn ∈ s.accepted) : conn.connId ≤ bound := by
  have hlt := h.accepted_lt conn hmem
  omega

/-- **Names for numbers.** Under names that are distinct up to `bound`, and as long as the numbers in use stay below it,
an input does what it does with the numbers as keys. -/
theorem step_eq (h : s.Ledger) (hnext : s.nextConnId ≤ bound) (i : Input Addr) : step connName s i = s.step i := by
  have hlt : ∀ c ∈ s.accepted, c.connId ≤ bound := fun c hmem => connId_le h hnext hmem
  have hreg : ∀ c ∈ s.connections, c.connId ≤ bound := fun c hmem => hlt c (h.registered_accepted c hmem)
  cases i with
  | handleRead peerAddr errno =>
      cases peerAddr with
      | none => rfl
      | some peerAddr =>
          simp only [step, UdpServer.step, handleRead, UdpServer.handleRead]
          cases s.peerAddrToUdpConnectors peerAddr with
          | some connector => rfl
          | none => exact startConnector_eq hnames hreg hnext
  | timer index errno =>
      rw [step, UdpServer.step]
      cases s.timers[index]? with
      | none => rfl
      | some timer =>
          cases timer with
          | startInLoop connector => exact startConnector_eq hnames hreg hnext
          | eraseConnector peerAddr => rfl
  | functor loop =>
      rw [step, UdpServer.step]
      cases htake : LoopQueues.takeOldest loop s.pendingFunctors with
      | none => rfl
      | some taken =>
          obtain ⟨functor, left⟩ := taken
          have hqueued : (loop, functor) ∈ s.pendingFunctors :=
            (LoopQueues.takeOldest_perm htake).mem_iff.mp List.mem_cons_self
          refine runFunctor_eq hnames hreg ?_
          intro conn hconn
          exact hlt conn ((h.queued _ hqueued).conn_mem hconn)
  | connection conn i =>
      simp only [step, UdpServer.step, List.contains_iff_mem]
      split_ifs with henabled
      · rw [connectionInput, UdpServer.connectionInput]
        cases hstep : s.stepConnection conn i with
        | error e => rfl
        | ok s₁ =>
            obtain ⟨c, -, rfl⟩ := stepConnection_eq_ok hstep
            simp only
            split_ifs
            · exact removeConnection_eq hnames hreg (hlt conn henabled.1)
            · rfl
      · rfl

end Agreement

section Changes

/-- The input does not reach `connections_`. -/
structure Keeps (s s' : UdpServer Addr) : Prop where
  nextConnId : s'.nextConnId = s.nextConnId
  accepted : s'.accepted = s.accepted
  connections : s'.connections = s.connections

/-- `erase` is called with the name of `conn`, and finds one entry. -/
structure Erases (connName : Nat → List Char) (conn : ConnectionPtr Addr) (s s' : UdpServer Addr) : Prop where
  nextConnId : s'.nextConnId = s.nextConnId
  accepted : s'.accepted = s.accepted
  executed : ∃ loop, s'.executed = (loop, .removeConnectionInLoop conn) :: s.executed
  found : (s.connections.countP fun c => connName c.connId = connName conn.connId) = 1
  connections : s'.connections = s.connections.filter fun c => connName c.connId ≠ connName conn.connId

/-- A new connection is entered under its name. -/
structure Inserts (connName : Nat → List Char) (conn : ConnectionPtr Addr) (s s' : UdpServer Addr) : Prop where
  connId : conn.connId = s.nextConnId
  nextConnId : s'.nextConnId = s.nextConnId + 1
  accepted : s'.accepted = conn :: s.accepted
  connections : s'.connections = s.connections.filter (fun c => connName c.connId ≠ connName conn.connId) ++ [conn]

/-- What the books know of a change of `connections_`. -/
def Changes (connName : Nat → List Char) (s s' : UdpServer Addr) : Prop :=
  Keeps s s' ∨ (∃ conn, Erases connName conn s s') ∨ ∃ conn, Inserts connName conn s s'

def register (s : UdpServer Addr) := (s.nextConnId, s.accepted, s.connections, s.executed)

omit [DecidableEq Addr] in
theorem Changes.congr {t : UdpServer Addr} (h : Changes connName t s') (hsame : register t = register s) :
    Changes connName s s' := by
  simp only [register, Prod.mk.injEq] at hsame
  obtain ⟨hnext, haccepted, hconnections, hexecuted⟩ := hsame
  rcases h with h | ⟨conn, h⟩ | ⟨conn, h⟩
  · obtain ⟨hnext', haccepted', hconnections'⟩ := h
    exact Or.inl ⟨hnext'.trans hnext, haccepted'.trans haccepted, hconnections'.trans hconnections⟩
  · obtain ⟨hnext', haccepted', hexecuted', hfound, hconnections'⟩ := h
    rw [hconnections] at hfound hconnections'
    rw [hexecuted] at hexecuted'
    exact Or.inr (Or.inl ⟨conn, hnext'.trans hnext, haccepted'.trans haccepted, hexecuted', hfound, hconnections'⟩)
  · obtain ⟨hid, hnext', haccepted', hconnections'⟩ := h
    rw [hnext] at hid hnext'
    rw [haccepted] at haccepted'
    rw [hconnections] at hconnections'
    exact Or.inr (Or.inr ⟨conn, hid, hnext', haccepted', hconnections'⟩)

omit [DecidableEq Addr] in
theorem keeps_runFunctor (hfunctor : ∀ conn, functor ≠ .removeConnectionInLoop conn)
    (hrun : s.runFunctor loop functor = .ok s') : Keeps s s' := by
  cases functor with
  | connectEstablished conn =>
      obtain ⟨c, -, rfl⟩ := stepConnection_eq_ok hrun
      exact ⟨rfl, rfl, rfl⟩
  | connectDestroyed conn =>
      obtain ⟨c, -, rfl⟩ := stepConnection_eq_ok hrun
      exact ⟨rfl, rfl, rfl⟩
  | removeConnectionInLoop conn => exact absurd rfl (hfunctor conn)
  | removeConnector peerAddr =>
      simp only [UdpServer.runFunctor, removeConnector] at hrun
      split at hrun <;> cases hrun
      exact ⟨rfl, rfl, rfl⟩
  | stopInLoop connector =>
      obtain ⟨c, new, timers, rfl, -⟩ := stopConnector_eq_ok hrun
      exact ⟨rfl, rfl, rfl⟩
  | resetChannel connector =>
      cases hrun
      exact ⟨rfl, rfl, rfl⟩

omit [DecidableEq Addr] in
theorem erases_removeConnectionInLoop (hrun : runFunctor connName loop (.removeConnectionInLoop conn) s = .ok s') :
    Erases connName conn s s' := by
  simp only [runFunctor, removeConnectionInLoop] at hrun
  split_ifs at hrun with hfound
  cases hrun
  exact ⟨rfl, rfl, ⟨loop, rfl⟩, hfound, rfl⟩

omit [DecidableEq Addr] in
theorem changes_runFunctor (hrun : runFunctor connName loop functor s = .ok s') : Changes connName s s' := by
  by_cases hremove : ∃ conn, functor = .removeConnectionInLoop conn
  · obtain ⟨conn, rfl⟩ := hremove
    exact Or.inr (Or.inl ⟨conn, erases_removeConnectionInLoop hrun⟩)
  · have hother : ∀ conn, functor ≠ .removeConnectionInLoop conn := fun conn heq => hremove ⟨conn, heq⟩
    rw [runFunctor_of_ne hother] at hrun
    exact Or.inl (keeps_runFunctor hother hrun)

omit [DecidableEq Addr] in
theorem inserts_newConnection {peerAddr : Addr} (hrun : newConnection connName peerAddr s = .ok s') :
    ∃ conn, Inserts connName conn s s' := by
  rw [newConnection, runInLoop] at hrun
  refine ⟨⟨s.nextConnId, s.threadPool.getNextLoop.1, peerAddr⟩, ?_⟩
  split_ifs at hrun
  · rw [runFunctor_of_ne (by simp)] at hrun
    obtain ⟨hnext, haccepted, hconnections⟩ := keeps_runFunctor (by simp) hrun
    exact ⟨rfl, hnext, haccepted, hconnections⟩
  · cases hrun
    exact ⟨rfl, rfl, rfl, rfl⟩

omit [DecidableEq Addr] in
theorem changes_startConnector {connector : ConnectorPtr Addr} {c : UdpConnector} {errno : Errno}
    (hrun : startConnector connName connector c errno s = .ok s') : Changes connName s s' := by
  rw [startConnector] at hrun
  cases hstart : c.startInLoop errno with
  | error e => simp [hstart] at hrun
  | ok result =>
      obtain ⟨c', effects⟩ := result
      simp only [hstart] at hrun
      obtain ⟨-, hcases⟩ := UdpConnector.startInLoop_cases hstart
      rcases hcases with ⟨-, -, rfl⟩ | ⟨-, -, -, rfl⟩ | ⟨-, -, -, -, rfl⟩ | ⟨-, -, -, rfl⟩
      · cases hrun
        exact Or.inl ⟨rfl, rfl, rfl⟩
      · have hsocket : ∀ t : UdpServer Addr, perform connName connector t .socket = .ok t := fun t => rfl
        rw [run_cons (hsocket _), run_singleton] at hrun
        obtain ⟨conn, hinserts⟩ := inserts_newConnection hrun
        exact Or.inr (Or.inr ⟨conn, hinserts.connId, hinserts.nextConnId, hinserts.accepted, hinserts.connections⟩)
      · cases hrun
        exact Or.inl ⟨rfl, rfl, rfl⟩
      · cases hrun
        exact Or.inl ⟨rfl, rfl, rfl⟩

/-- **What an input does to `connections_`.** -/
theorem step_changes {i : Input Addr} (h : step connName s i = .ok s') : Changes connName s s' := by
  cases i with
  | handleRead peerAddr errno =>
      cases peerAddr with
      | none =>
          cases h
          exact Or.inl ⟨rfl, rfl, rfl⟩
      | some peerAddr =>
          simp only [step, handleRead] at h
          split at h
          · cases h
            exact Or.inl ⟨rfl, rfl, rfl⟩
          · exact (changes_startConnector h).congr rfl
  | timer index errno =>
      rw [step] at h
      split at h
      · exact (changes_startConnector h).congr rfl
      · cases h
        exact Or.inl ⟨rfl, rfl, rfl⟩
      · cases h
  | functor loop =>
      rw [step] at h
      split at h
      · exact (changes_runFunctor h).congr rfl
      · cases h
  | connection conn i =>
      rw [step] at h
      split_ifs at h
      rw [connectionInput] at h
      cases hstep : s.stepConnection conn i with
      | error e => simp [hstep] at h
      | ok s₁ =>
          obtain ⟨c, -, rfl⟩ := stepConnection_eq_ok hstep
          simp only [hstep] at h
          split_ifs at h
          · rw [removeConnection, runInLoop] at h
            split_ifs at h
            · exact (changes_runFunctor h).congr rfl
            · cases h
              exact Or.inl ⟨rfl, rfl, rfl⟩
          · cases h
            exact Or.inl ⟨rfl, rfl, rfl⟩

end Changes

/-- The books of a server that has accepted fewer than 2^31 connections. -/
structure Numbered (s : UdpServer Addr) : Prop where
  nextConnId : s.nextConnId = s.accepted.length + 1
  ledger : s.accepted.length < 2 ^ 31 → s.Ledger

theorem numbered_step {i : Input Addr} (hnames : ∀ i ≤ 2 ^ 31, ∀ j ≤ 2 ^ 31, connName i = connName j → i = j)
    (h : Numbered s) (hstep : step connName s i = .ok s') : Numbered s' := by
  have hnumbered := h.nextConnId
  obtain ⟨hnumbered', hmono⟩ : s'.nextConnId = s'.accepted.length + 1 ∧ s.accepted.length ≤ s'.accepted.length := by
    rcases step_changes hstep with hkeeps | ⟨conn, herases⟩ | ⟨conn, hinserts⟩
    · rw [hkeeps.nextConnId, hkeeps.accepted]
      exact ⟨hnumbered, Nat.le_refl _⟩
    · rw [herases.nextConnId, herases.accepted]
      exact ⟨hnumbered, Nat.le_refl _⟩
    · rw [hinserts.nextConnId, hinserts.accepted, List.length_cons]
      omega
  refine ⟨hnumbered', ?_⟩
  intro hlt
  have hledger := h.ledger (by omega)
  rw [step_eq hnames hledger (by omega)] at hstep
  exact ledger_step hledger hstep

end ByName

section Names

variable {Addr : Type} [DecidableEq Addr] {connName : Nat → List Char} {s s' : UdpServer Addr}

/-- `connections_` under the names: the next name is not in use, and `erase` with the name of a connection finds it if
it is registered, and nothing else. -/
structure KeyedByName (connName : Nat → List Char) (s : UdpServer Addr) : Prop where
  fresh : s.accepted.length + 1 < 2 ^ 31 → ∀ other ∈ s.connections, connName other.connId ≠ connName s.nextConnId
  found : ∀ conn ∈ s.accepted,
    ((s.connections.countP fun c => connName c.connId = connName conn.connId) = 1 ↔ conn ∈ s.connections)
  erased : ∀ conn ∈ s.accepted,
    (s.connections.filter fun c => connName c.connId ≠ connName conn.connId) = s.connections.erase conn

/-- One connection more, which takes the place of no other; or one less, whose `removeConnectionInLoop` has run; or no
change. -/
def ChangesOne (s s' : UdpServer Addr) : Prop :=
  s'.connections = s.connections ∨
    (∃ conn ∈ s.connections, s'.connections = s.connections.erase conn ∧
      ∃ loop, s'.executed = (loop, .removeConnectionInLoop conn) :: s.executed) ∨
    ∃ conn, s'.accepted = conn :: s.accepted ∧ s'.connections = s.connections ++ [conn]

variable (hnames : ∀ i ≤ 2 ^ 31, ∀ j ≤ 2 ^ 31, connName i = connName j → i = j)

include hnames

theorem keyedByName_of_ledger (h : s.Ledger) (hnext : s.nextConnId ≤ 2 ^ 31) : s.KeyedByName connName := by
  have hle : ∀ c ∈ s.accepted, c.connId ≤ 2 ^ 31 := fun c hmem => ByName.connId_le h hnext hmem
  have hreg : ∀ c ∈ s.connections, c.connId ≤ 2 ^ 31 := fun c hmem => hle c (h.registered_accepted c hmem)
  constructor
  · intro _ other hother heq
    have hlt := h.accepted_lt other (h.registered_accepted other hother)
    have hid := hnames _ (hreg other hother) _ hnext heq
    omega
  · intro conn hconn
    rw [ByName.countP_connName hnames hreg (hle conn hconn)]
    exact erasedOne_iff h.registered_accepted h.accepted_inj h.registered_nodup hconn
  · intro conn hconn
    rw [ByName.filter_connName hnames hreg (hle conn hconn)]
    exact filter_connId_eq_erase h.registered_accepted h.accepted_inj h.registered_nodup hconn

theorem changesOne_step {i : Input Addr} (h : ByName.Numbered s) (hstep : ByName.step connName s i = .ok s')
    (hlt : s'.accepted.length < 2 ^ 31) : ChangesOne s s' := by
  have hnext := h.nextConnId
  have h' := ByName.numbered_step hnames h hstep
  rcases ByName.step_changes hstep with hkeeps | ⟨conn, herases⟩ | ⟨conn, hinserts⟩
  · exact Or.inl hkeeps.connections
  · have hlt' : s.accepted.length < 2 ^ 31 := herases.accepted ▸ hlt
    have hkeyed := keyedByName_of_ledger hnames (h.ledger hlt') (by omega)
    obtain ⟨loop, hexecuted⟩ := herases.executed
    have hconn : conn ∈ s.accepted := by
      rw [← herases.accepted]
      exact ((h'.ledger hlt).executedPlaced _ (hexecuted ▸ List.mem_cons_self)).conn_mem rfl
    refine Or.inr (Or.inl ⟨conn, (hkeyed.found conn hconn).mp herases.found, ?_, loop, hexecuted⟩)
    rw [herases.connections]
    exact hkeyed.erased conn hconn
  · rw [hinserts.accepted, List.length_cons] at hlt
    have hkeyed := keyedByName_of_ledger hnames (h.ledger (by omega)) (by omega)
    refine Or.inr (Or.inr ⟨conn, hinserts.accepted, ?_⟩)
    rw [hinserts.connections, List.append_cancel_right_eq, List.filter_eq_self]
    intro other hother
    have hfresh := hkeyed.fresh hlt other hother
    rw [← hinserts.connId] at hfresh
    simpa using hfresh

end Names

section Keys

variable (inetNtop6 : Vector UInt8 16 → List Char) (hinetNtop6 : ∀ addr, (inetNtop6 addr).length ≤ 45)
  (name : List Char) (listenAddr : InetAddress)

include hinetNtop6

/-- A dash, at most 51 characters of ip and port, a number sign and ten digits fill the buffer to the last character. -/
theorem connName_eq {nextConnId : Nat} (hid : nextConnId ≤ 2 ^ 31) :
    connName inetNtop6 name listenAddr nextConnId =
      name ++ ('-' :: listenAddr.toIpPort inetNtop6 ++ '#' :: decimal nextConnId) := by
  have hip := listenAddr.length_toIpPort_le inetNtop6 hinetNtop6
  have hprint : snprintf 64 (('-' :: listenAddr.toIpPort inetNtop6 ++ ['#']) ++ decimal nextConnId) =
      ('-' :: listenAddr.toIpPort inetNtop6 ++ ['#']) ++ decimal nextConnId := by
    refine snprintf_append_decimal ?_ (by omega)
    simp only [List.length_append, List.length_cons, List.length_nil]
    omega
  rw [List.append_assoc, List.singleton_append] at hprint
  rw [connName, hprint]

theorem connName_injOn : ∀ i ≤ 2 ^ 31, ∀ j ≤ 2 ^ 31,
    connName inetNtop6 name listenAddr i = connName inetNtop6 name listenAddr j → i = j := by
  intro i hi j hj h
  rw [connName_eq inetNtop6 hinetNtop6 name listenAddr hi, connName_eq inetNtop6 hinetNtop6 name listenAddr hj] at h
  exact decimal_injective (List.cons_eq_cons.mp (List.append_cancel_left (List.append_cancel_left h))).2

/-- **The names are keys.** A name is never cut off, and different numbers have different names. So in every run of the
server with `connections_` under the names that accepts fewer than 2^31 connections, an insertion overwrites no other
connection and an erasure removes exactly the connection that is to be removed. -/
theorem names_are_keys (Addr : Type) [DecidableEq Addr] :
    (∀ i, 1 ≤ i → i < 2 ^ 31 → connName inetNtop6 name listenAddr i =
      name ++ ('-' :: listenAddr.toIpPort inetNtop6 ++ '#' :: decimal i)) ∧
    (∀ i j, 1 ≤ i → i < 2 ^ 31 → 1 ≤ j → j < 2 ^ 31 → i ≠ j →
      connName inetNtop6 name listenAddr i ≠ connName inetNtop6 name listenAddr j) ∧
    ∀ (numThreads : Nat) (writeComplete : Bool) (inputs : List (Input Addr)) (s : UdpServer Addr),
      run (ByName.step (connName inetNtop6 name listenAddr)) (new numThreads writeComplete) inputs = .ok s →
      s.accepted.length < 2 ^ 31 →
      s.KeyedByName (connName inetNtop6 name listenAddr) ∧
        ∀ i s', ByName.step (connName inetNtop6 name listenAddr) s i = .ok s' → s'.accepted.length < 2 ^ 31 →
          ChangesOne s s' := by
  have hnames := connName_injOn inetNtop6 hinetNtop6 name listenAddr
  refine ⟨?_, ?_, ?_⟩
  · intro i _ hi
    exact connName_eq inetNtop6 hinetNtop6 name listenAddr (Nat.le_of_lt hi)
  · intro i j _ hi _ hj hne heq
    exact hne (hnames i (Nat.le_of_lt hi) j (Nat.le_of_lt hj) heq)
  · intro numThreads writeComplete inputs s hrun hlt
    have hnew : ByName.Numbered (new numThreads writeComplete : UdpServer Addr) :=
      ⟨rfl, fun _ => ledger_new numThreads writeComplete⟩
    have hnumbered : ByName.Numbered s :=
      run_invariant (fun _ _ _ h1 h2 => ByName.numbered_step hnames h1 h2) hnew hrun
    have hnext := hnumbered.nextConnId
    refine ⟨keyedByName_of_ledger hnames (hnumbered.ledger hlt) (by omega), ?_⟩
    intro i s' hstep hlt'
    exact changesOne_step hnames hnumbered hstep hlt'

end Keys

/-- A server at an address without a zero, with the largest port. -/
def longListenAddr : InetAddress :=
  ⟨AF_INET6, 0xFFFF, 0,
    #v[0x20, 0x01, 0x1d, 0xb8, 0x11, 0x11, 0x22, 0x22, 0x33, 0x33, 0x44, 0x44, 0x55, 0x55, 0x66, 0x66], 0⟩

/-- Two peers are admitted; the session of the second one fails at once. -/
def secondFails : List (Input Nat) :=
  [.handleRead (some 7) .ok, .connection ⟨1, 0, 7⟩ (.updateReturns 10), .handleRead (some 8) .ok,
    .connection ⟨2, 0, 8⟩ (.updateReturns (-1)), .connection ⟨2, 0, 8⟩ .userReturns]

/-- Its removal leaves the first one registered. -/
theorem names_are_keys_secondFails :
    ∃ s s' : UdpServer Nat,
      run (ByName.step (connName hexGroups "srv".toList longListenAddr)) (new 0 false) secondFails = .ok s ∧
      s.connections = [⟨1, 0, 7⟩, ⟨2, 0, 8⟩] ∧
      ByName.step (connName hexGroups "srv".toList longListenAddr) s (.connection ⟨2, 0, 8⟩ .proceed) = .ok s' ∧
      s'.connections = [⟨1, 0, 7⟩] ∧ ChangesOne s s' := by
  have htext : ∀ addr, (hexGroups addr).length ≤ 45 := fun addr => Nat.le_trans (length_hexGroups_le addr) (by decide)
  obtain ⟨-, -, hruns⟩ := names_are_keys hexGroups htext "srv".toList longListenAddr Nat
  obtain ⟨s, s', hrun, hconnections, hstep, hconnections', hlen, hlen'⟩ : ∃ s s' : UdpServer Nat,
      run (ByName.step (connName hexGroups "srv".toList longListenAddr)) (new 0 false) secondFails = .ok s ∧
        s.connections = [⟨1, 0, 7⟩, ⟨2, 0, 8⟩] ∧
        ByName.step (connName hexGroups "srv".toList longListenAddr) s (.connection ⟨2, 0, 8⟩ .proceed) = .ok s' ∧
        s'.connections = [⟨1, 0, 7⟩] ∧ s.accepted.length = 2 ∧ s'.accepted.length = 2 :=
    ⟨_, _, rfl, rfl, rfl, rfl, rfl, rfl⟩
  have hone := (hruns 0 false secondFails s hrun (by omega)).2 _ s' hstep (by omega)
  exact ⟨s, s', hrun, hconnections, hstep, hconnections', hone⟩

end Realtinet.UdpServer
