import Mathlib.Data.List.Nodup
import Realtinet.UdpServerConnections

/-! The books of a server: how the functors that concern a connection, queued and executed, fit together
with the connection's own state and with `connections_`. A connection is created in loop 0, established
and closed in its own loop, unregistered in loop 0 and destroyed in its own loop; `runInLoop` shortens
these ways when the loops coincide. A functor that is being executed, or is about to be handed to
`runInLoop`, counts as queued in front of all others. -/

namespace Realtinet.UdpServer

open TransitionSystem

variable {Addr : Type} [DecidableEq Addr]

/-- How often a functor is queued in a loop. -/
def posted (s : UdpServer Addr) (loop : Nat) (functor : Functor Addr) : Nat :=
  s.pendingFunctors.count (loop, functor)

/-- How often a functor has been executed in the thread of a loop. -/
def ran (s : UdpServer Addr) (loop : Nat) (functor : Functor Addr) : Nat :=
  s.executed.count (loop, functor)

/-- How often a connection has called its `closeCallback_`. -/
def closeCalls (s : UdpServer Addr) (conn : ConnectionPtr Addr) : Nat :=
  (s.conns conn.connId).trace.count .closeCallback

/-- A functor is queued only in the loop it belongs to, and concerns an accepted connection if any. -/
def Placed (accepted : List (ConnectionPtr Addr)) (entry : Nat × Functor Addr) : Prop :=
  match entry.2 with
  | .connectEstablished conn => entry.1 = conn.loop ∧ conn ∈ accepted
  | .connectDestroyed conn => entry.1 = conn.loop ∧ conn ∈ accepted
  | .removeConnectionInLoop conn => entry.1 = 0 ∧ conn ∈ accepted
  | .removeConnector _ | .stopInLoop _ | .resetChannel _ => entry.1 = 0

/-- The connection a functor concerns. -/
def Functor.conn : Functor Addr → Option (ConnectionPtr Addr)
  | .connectEstablished conn | .connectDestroyed conn | .removeConnectionInLoop conn => some conn
  | .removeConnector _ | .stopInLoop _ | .resetChannel _ => none

/-- Every `connectDestroyed` comes after the connection's `connectEstablished` and after its removal
from `connections_` (the log has the newest functor first). -/
def Ordered (executed : List (Nat × Functor Addr)) : Prop :=
  ∀ later earlier loop conn, executed = later ++ (loop, .connectDestroyed conn) :: earlier →
    (conn.loop, .connectEstablished conn) ∈ earlier ∧ (0, .removeConnectionInLoop conn) ∈ earlier

/-- One connection as the books have it: how often its `connectEstablished`, `removeConnectionInLoop`
and `connectDestroyed` are queued and have run, its calls of `closeCallback_`, whether it is still in
`kConnecting`, and whether it is in `connections_`. -/
structure Life where
  establishQueued : Nat
  establishRan : Nat
  removeQueued : Nat
  removeRan : Nat
  destroyQueued : Nat
  destroyRan : Nat
  closeCalls : Nat
  connecting : Prop
  registered : Prop

namespace Life

/-- Established once; removed once for every close, and at most once in all; destroyed once it has
been removed. -/
structure Valid (l : Life) : Prop where
  establish : l.establishQueued + l.establishRan = 1
  connecting : l.connecting ↔ l.establishRan = 0
  remove : l.removeQueued + l.removeRan = l.closeCalls
  closed : 0 < l.closeCalls → l.establishRan = 1
  registered : l.registered ↔ l.removeRan = 0
  removedOnce : l.removeRan ≤ 1
  destroy : l.destroyQueued + l.destroyRan = l.removeRan

def start : Life := ⟨1, 0, 0, 0, 0, 0, 0, True, True⟩

variable {l : Life}

theorem valid_start : start.Valid := by
  constructor <;> simp [start]

theorem Valid.established (h : Valid { l with establishQueued := l.establishQueued + 1 }) :
    Valid { l with establishRan := l.establishRan + 1, connecting := False } := by
  obtain ⟨establish, -, remove, closed, registered, removedOnce, destroy⟩ := h
  simp only at *
  exact ⟨by simp only; omega, by simp, remove, fun _ => by simp only; omega, registered, removedOnce, destroy⟩

theorem Valid.closed_once (h : l.Valid) (hup : ¬l.connecting) :
    Valid { l with removeQueued := l.removeQueued + 1, closeCalls := l.closeCalls + 1 } := by
  obtain ⟨establish, connecting, remove, closed, registered, removedOnce, destroy⟩ := h
  have hran : l.establishRan ≠ 0 := fun hzero => hup (connecting.mpr hzero)
  exact ⟨establish, connecting, by simp only; omega, fun _ => by simp only; omega, registered, removedOnce, destroy⟩

theorem Valid.removed (h : Valid { l with removeQueued := l.removeQueued + 1 }) (hreg : l.registered) :
    Valid { l with
      removeRan := l.removeRan + 1, destroyQueued := l.destroyQueued + 1, registered := False } := by
  obtain ⟨establish, connecting, remove, closed, registered, removedOnce, destroy⟩ := h
  have hzero : l.removeRan = 0 := registered.mp hreg
  simp only at *
  exact ⟨establish, connecting, by simp only; omega, closed, by simp, by simp only; omega, by simp only; omega⟩

theorem Valid.destroyed (h : Valid { l with destroyQueued := l.destroyQueued + 1 }) :
    Valid { l with destroyRan := l.destroyRan + 1 } := by
  obtain ⟨establish, connecting, remove, closed, registered, removedOnce, destroy⟩ := h
  simp only at *
  exact ⟨establish, connecting, remove, closed, registered, removedOnce, by simp only; omega⟩

/-- Who is destroyed, or about to be, has been established and removed. -/
theorem Valid.before_destroyed (h : l.Valid) (hpos : 0 < l.destroyQueued + l.destroyRan) :
    0 < l.establishRan ∧ 0 < l.removeRan := by
  obtain ⟨establish, connecting, remove, closed, registered, removedOnce, destroy⟩ := h
  have hran := closed (by omega)
  omega

end Life

def life (s : UdpServer Addr) (conn : ConnectionPtr Addr) : Life where
  establishQueued := s.posted conn.loop (.connectEstablished conn)
  establishRan := s.ran conn.loop (.connectEstablished conn)
  removeQueued := s.posted 0 (.removeConnectionInLoop conn)
  removeRan := s.ran 0 (.removeConnectionInLoop conn)
  destroyQueued := s.posted conn.loop (.connectDestroyed conn)
  destroyRan := s.ran conn.loop (.connectDestroyed conn)
  closeCalls := s.closeCalls conn
  connecting := (s.conns conn.connId).state = .kConnecting
  registered := conn ∈ s.connections

structure Ledger (s : UdpServer Addr) : Prop where
  accepted_lt : ∀ conn ∈ s.accepted, conn.connId < s.nextConnId
  accepted_inj : ∀ conn ∈ s.accepted, ∀ other ∈ s.accepted, conn.connId = other.connId → conn = other
  registered_accepted : ∀ conn ∈ s.connections, conn ∈ s.accepted
  registered_nodup : s.connections.Nodup
  queued : ∀ entry ∈ s.pendingFunctors, Placed s.accepted entry
  executedPlaced : ∀ entry ∈ s.executed, Placed s.accepted entry
  waits : ∀ conn ∈ s.accepted, (s.conns conn.connId).WaitsForOwner
  lives : ∀ conn ∈ s.accepted, (s.life conn).Valid
  ordered : Ordered s.executed

variable {s s' : UdpServer Addr} {conn : ConnectionPtr Addr} {functor : Functor Addr} {loop : Nat}

/-- `functor` is in the hands of the thread of `loop`. -/
def hold (loop : Nat) (functor : Functor Addr) (s : UdpServer Addr) : UdpServer Addr :=
  { s with pendingFunctors := (loop, functor) :: s.pendingFunctors }

/-- The life of a connection depends on the functors that concern it, on the connection itself, and on
its registration. -/
theorem valid_congr (h : (s.life conn).Valid)
    (hposted : ∀ loop functor, functor.conn = some conn → s'.posted loop functor = s.posted loop functor)
    (hran : ∀ loop functor, functor.conn = some conn → s'.ran loop functor = s.ran loop functor)
    (hconn : s'.conns conn.connId = s.conns conn.connId)
    (hreg : conn ∈ s'.connections ↔ conn ∈ s.connections) : (s'.life conn).Valid := by
  have hsame : s'.life conn = s.life conn := by
    simp only [life, closeCalls, hconn, hreg]
    rw [hposted _ _ rfl, hposted _ _ rfl, hposted _ _ rfl, hran _ _ rfl, hran _ _ rfl, hran _ _ rfl]
  rw [hsame]
  exact h

/-- A change that neither registers a connection nor executes a functor. -/
theorem Ledger.frame (h : s.Ledger) (hnext : s'.nextConnId = s.nextConnId)
    (haccepted : s'.accepted = s.accepted) (hconnections : s'.connections = s.connections)
    (hexecuted : s'.executed = s.executed) (hqueued : ∀ entry ∈ s'.pendingFunctors, Placed s.accepted entry)
    (hlives : ∀ conn ∈ s.accepted, (s'.conns conn.connId).WaitsForOwner ∧ (s'.life conn).Valid) :
    s'.Ledger := by
  constructor
  · rw [haccepted, hnext]
    exact h.accepted_lt
  · rw [haccepted]
    exact h.accepted_inj
  · rw [hconnections, haccepted]
    exact h.registered_accepted
  · rw [hconnections]
    exact h.registered_nodup
  · rw [haccepted]
    exact hqueued
  · rw [hexecuted, haccepted]
    exact h.executedPlaced
  · rw [haccepted]
    exact fun conn hmem => (hlives conn hmem).1
  · rw [haccepted]
    exact fun conn hmem => (hlives conn hmem).2
  · rw [hexecuted]
    exact h.ordered

/-- What the books are about, the queues apart. -/
def booked (s : UdpServer Addr) :=
  (s.nextConnId, s.accepted, s.connections, s.executed, s.conns)

/-- The order in which functors are queued, the timers and the connectors are not in the books. -/
theorem Ledger.congr (h : s.Ledger) (hpending : s'.pendingFunctors.Perm s.pendingFunctors)
    (hbooked : s'.booked = s.booked) : s'.Ledger := by
  simp only [booked, Prod.mk.injEq] at hbooked
  obtain ⟨hnext, haccepted, hconnections, hexecuted, hconns⟩ := hbooked
  refine h.frame hnext haccepted hconnections hexecuted ?_ ?_
  · intro entry hmem
    exact h.queued entry (hpending.mem_iff.mp hmem)
  · intro conn hmem
    refine ⟨by rw [hconns]; exact h.waits conn hmem, ?_⟩
    refine valid_congr (h.lives conn hmem) (fun loop functor _ => hpending.count_eq _) ?_ (congrFun hconns _)
      (by rw [hconnections])
    intro loop functor _
    rw [ran, ran, hexecuted]

/-- A functor that concerns no connection may be queued at any time. -/
theorem Ledger.hold_other (h : s.Ledger) (hconn : functor.conn = none) (hplaced : Placed s.accepted (loop, functor)) :
    (s.hold loop functor).Ledger := by
  refine h.frame rfl rfl rfl rfl ?_ ?_
  · intro entry hmem
    rcases List.mem_cons.mp hmem with rfl | hmem
    · exact hplaced
    · exact h.queued entry hmem
  · intro conn hmem
    refine ⟨h.waits conn hmem, ?_⟩
    refine valid_congr (h.lives conn hmem) ?_ (fun _ _ _ => rfl) rfl Iff.rfl
    intro loop' functor' hconn'
    apply List.count_cons_of_ne
    rintro ⟨-, rfl⟩
    exact absurd (hconn.symm.trans hconn') (by simp)

theorem ledger_queueInLoop (h : (s.hold loop functor).Ledger) : (s.queueInLoop loop functor).Ledger :=
  h.congr (List.perm_append_singleton _ _) rfl

omit [DecidableEq Addr] in
theorem ordered_cons {entry : Nat × Functor Addr} {executed : List (Nat × Functor Addr)}
    (h : Ordered executed) (hentry : ∀ loop conn, entry = (loop, .connectDestroyed conn) →
      (conn.loop, .connectEstablished conn) ∈ executed ∧ (0, .removeConnectionInLoop conn) ∈ executed) :
    Ordered (entry :: executed) := by
  intro later earlier loop conn heq
  cases later with
  | nil =>
      obtain ⟨rfl, rfl⟩ := List.cons_eq_cons.mp heq
      exact hentry loop conn rfl
  | cons first later =>
      obtain ⟨rfl, rfl⟩ := List.cons_eq_cons.mp heq
      exact h later earlier loop conn rfl

/-- The functor in hand has its entry in the books. -/
theorem Ledger.posted_pos (h : (s.hold loop functor).Ledger) :
    Placed s.accepted (loop, functor) ∧ 0 < (s.hold loop functor).posted loop functor := by
  refine ⟨h.queued _ List.mem_cons_self, ?_⟩
  rw [posted, hold, List.count_cons_self]
  exact Nat.succ_pos _

/-- The thread of `loop` has executed the functor in its hands. Nothing changes for the connections that
the functor does not concern; what becomes of the one it concerns is to be shown. -/
theorem Ledger.executed (h : (s.hold loop functor).Ledger)
    (hnext : s'.nextConnId = s.nextConnId) (haccepted : s'.accepted = s.accepted)
    (hexecuted : s'.executed = (loop, functor) :: s.executed)
    {new : List (Nat × Functor Addr)} (hpending : s'.pendingFunctors = s.pendingFunctors ++ new)
    (hnew : ∀ entry ∈ new, Placed s.accepted entry ∧ ∀ other, entry.2.conn = some other → functor.conn = some other)
    (hconns : ∀ other ∈ s.accepted, functor.conn ≠ some other → s'.conns other.connId = s.conns other.connId)
    (hsub : s'.connections.Sublist s.connections)
    (hreg : ∀ other ∈ s.accepted, functor.conn ≠ some other → (other ∈ s'.connections ↔ other ∈ s.connections))
    (hlife : ∀ conn, functor.conn = some conn → (s'.conns conn.connId).WaitsForOwner ∧ (s'.life conn).Valid) :
    s'.Ledger := by
  have hplaced := h.posted_pos.1
  constructor
  · rw [haccepted, hnext]
    exact h.accepted_lt
  · rw [haccepted]
    exact h.accepted_inj
  · intro other hother
    rw [haccepted]
    exact h.registered_accepted other (hsub.subset hother)
  · exact h.registered_nodup.sublist hsub
  · intro entry hentry
    rw [hpending, List.mem_append] at hentry
    rw [haccepted]
    rcases hentry with hentry | hentry
    · exact h.queued entry (List.mem_cons_of_mem _ hentry)
    · exact (hnew entry hentry).1
  · intro entry hentry
    rw [hexecuted, List.mem_cons] at hentry
    rw [haccepted]
    rcases hentry with rfl | hentry
    · exact hplaced
    · exact h.executedPlaced entry hentry
  · intro other hother
    rw [haccepted] at hother
    by_cases hconn : functor.conn = some other
    · exact (hlife other hconn).1
    · rw [hconns other hother hconn]
      exact h.waits other hother
  · intro other hother
    rw [haccepted] at hother
    by_cases hconn : functor.conn = some other
    · exact (hlife other hconn).2
    · have hne : ∀ loop' functor', functor'.conn = some other → (loop, functor) ≠ (loop', functor') := by
        rintro loop' functor' hother' ⟨rfl, rfl⟩
        exact hconn hother'
      refine valid_congr (h.lives other hother) ?_ ?_ (hconns other hother hconn) (hreg other hother hconn)
      · intro loop' functor' hother'
        have hzero : new.count (loop', functor') = 0 := by
          rw [List.count_eq_zero]
          intro hmem
          exact hconn ((hnew _ hmem).2 other hother')
        rw [posted, posted, hpending, List.count_append, hzero, hold,
          List.count_cons_of_ne (hne _ _ hother'), Nat.add_zero]
      · intro loop' functor' hother'
        rw [ran, ran, hexecuted, List.count_cons_of_ne (hne _ _ hother')]
        rfl
  · rw [hexecuted]
    apply ordered_cons h.ordered
    rintro loop' conn ⟨rfl, rfl⟩
    obtain ⟨rfl, hmem⟩ : loop = conn.loop ∧ conn ∈ s.accepted := hplaced
    obtain ⟨hestablished, hremoved⟩ := (h.lives conn hmem).before_destroyed (Nat.add_pos_left h.posted_pos.2 _)
    exact ⟨List.count_pos_iff.mp hestablished, List.count_pos_iff.mp hremoved⟩

/-- A functor that concerns no connection. -/
theorem Ledger.executed_other (h : (s.hold loop functor).Ledger) (hconn : functor.conn = none)
    (hnext : s'.nextConnId = s.nextConnId) (haccepted : s'.accepted = s.accepted)
    (hexecuted : s'.executed = (loop, functor) :: s.executed)
    {new : List (Nat × Functor Addr)} (hpending : s'.pendingFunctors = s.pendingFunctors ++ new)
    (hnew : ∀ entry ∈ new, entry.1 = 0 ∧ entry.2.conn = none)
    (hconns : s'.conns = s.conns) (hconnections : s'.connections = s.connections) : s'.Ledger := by
  refine h.executed hnext haccepted hexecuted hpending ?_ ?_ ?_ ?_ ?_
  · intro entry hmem
    obtain ⟨hzero, hnone⟩ := hnew entry hmem
    refine ⟨?_, fun other hother => absurd (hnone.symm.trans hother) (by simp)⟩
    obtain ⟨loop', functor'⟩ := entry
    cases functor' <;> first | exact hzero | simp [Functor.conn] at hnone
  · intro other _ _
    rw [hconns]
  · rw [hconnections]
  · intro other _ _
    rw [hconnections]
  · intro conn hsome
    exact absurd (hconn.symm.trans hsome) (by simp)

theorem Ledger.connId_ne (h : s.Ledger) (hconn : conn ∈ s.accepted) {other : ConnectionPtr Addr}
    (hother : other ∈ s.accepted) (hne : some conn ≠ some other) : other.connId ≠ conn.connId := by
  intro hid
  exact hne (congrArg some (h.accepted_inj conn hconn other hother hid.symm))

/-- What happens to one connection leaves the others alone. -/
theorem Ledger.update_conns (h : s.Ledger) (hconn : conn ∈ s.accepted) {other : ConnectionPtr Addr}
    (hother : other ∈ s.accepted) (hne : some conn ≠ some other) (c : UdpConnection) :
    Function.update s.conns conn.connId c other.connId = s.conns other.connId :=
  Function.update_of_ne (h.connId_ne hconn hother hne) _ _

theorem life_hold_connectEstablished :
    (s.hold conn.loop (.connectEstablished conn)).life conn =
      { s.life conn with establishQueued := (s.life conn).establishQueued + 1 } := by
  simp [life, posted, ran, closeCalls, hold]

theorem life_hold_connectDestroyed :
    (s.hold conn.loop (.connectDestroyed conn)).life conn =
      { s.life conn with destroyQueued := (s.life conn).destroyQueued + 1 } := by
  simp [life, posted, ran, closeCalls, hold]

theorem life_hold_removeConnectionInLoop :
    (s.hold 0 (.removeConnectionInLoop conn)).life conn =
      { s.life conn with removeQueued := (s.life conn).removeQueued + 1 } := by
  simp [life, posted, ran, closeCalls, hold]

theorem ledger_connectEstablished (h : (s.hold loop (.connectEstablished conn)).Ledger)
    (hrun : s.runFunctor loop (.connectEstablished conn) = .ok s') : s'.Ledger := by
  obtain ⟨rfl, hmem⟩ : loop = conn.loop ∧ conn ∈ s.accepted := h.posted_pos.1
  have hvalid := h.lives conn hmem
  rw [life_hold_connectEstablished] at hvalid
  obtain ⟨c, hstep, rfl⟩ := stepConnection_eq_ok hrun
  obtain ⟨-, hafter⟩ := UdpConnection.connecting_of_connectEstablished hstep
  have hcount := UdpConnection.step_closeCallback_count hstep
  refine h.executed rfl rfl rfl (List.append_nil _).symm (by simp) ?_ (List.Sublist.refl _) ?_ ?_
  · intro other hother hne
    exact h.update_conns hmem hother hne c
  · intro other _ _
    rfl
  · rintro other ⟨rfl⟩
    refine ⟨by simp [UdpConnection.WaitsForOwner, hafter], ?_⟩
    convert hvalid.established using 1
    simp [life, posted, ran, closeCalls, hcount, hafter, UdpConnection.callsClose]

theorem ledger_connectDestroyed (h : (s.hold loop (.connectDestroyed conn)).Ledger)
    (hrun : s.runFunctor loop (.connectDestroyed conn) = .ok s') : s'.Ledger := by
  obtain ⟨rfl, hmem⟩ : loop = conn.loop ∧ conn ∈ s.accepted := h.posted_pos.1
  have hvalid := h.lives conn hmem
  rw [life_hold_connectDestroyed] at hvalid
  obtain ⟨c, hstep, rfl⟩ := stepConnection_eq_ok hrun
  obtain ⟨hconnecting, hwaits⟩ := UdpConnection.step_connecting_iff (h.waits conn hmem) (by decide) hstep
  have hcount := UdpConnection.step_closeCallback_count hstep
  refine h.executed rfl rfl rfl (List.append_nil _).symm (by simp) ?_ (List.Sublist.refl _) ?_ ?_
  · intro other hother hne
    exact h.update_conns hmem hother hne c
  · intro other _ _
    rfl
  · rintro other ⟨rfl⟩
    refine ⟨by simpa using hwaits, ?_⟩
    convert hvalid.destroyed using 1
    have hconnecting' : c.state = .kConnecting ↔ (s.conns conn.connId).state = .kConnecting := hconnecting
    simp [life, posted, ran, closeCalls, hcount, hconnecting', UdpConnection.callsClose]

/-- The assert of `removeConnectionInLoop` holds exactly if the connection is registered. -/
theorem erasedOne_iff (haccepted : ∀ other ∈ s.connections, other ∈ s.accepted)
    (hinj : ∀ conn ∈ s.accepted, ∀ other ∈ s.accepted, conn.connId = other.connId → conn = other)
    (hnodup : s.connections.Nodup) (hmem : conn ∈ s.accepted) :
    (s.connections.countP fun c => c.connId = conn.connId) = 1 ↔ conn ∈ s.connections := by
  have hcount : (s.connections.countP fun c => c.connId = conn.connId) = s.connections.count conn := by
    apply List.countP_congr
    intro other hother
    simp only [decide_eq_true_eq, beq_iff_eq]
    exact ⟨hinj other (haccepted other hother) conn hmem, congrArg _⟩
  rw [hcount]
  constructor
  · intro hone
    exact List.count_pos_iff.mp (by omega)
  · intro hreg
    exact List.count_eq_one_of_mem hnodup hreg

/-- `erase` takes exactly the connection itself out of `connections_`. -/
theorem filter_connId_eq_erase (haccepted : ∀ other ∈ s.connections, other ∈ s.accepted)
    (hinj : ∀ conn ∈ s.accepted, ∀ other ∈ s.accepted, conn.connId = other.connId → conn = other)
    (hnodup : s.connections.Nodup) (hmem : conn ∈ s.accepted) :
    (s.connections.filter fun c => c.connId ≠ conn.connId) = s.connections.erase conn := by
  rw [hnodup.erase_eq_filter]
  apply List.filter_congr
  intro other hother
  have hiff : other.connId = conn.connId ↔ other = conn :=
    ⟨hinj other (haccepted other hother) conn hmem, congrArg _⟩
  simp [hiff, bne, beq_eq_decide]

theorem ledger_removeConnectionInLoop (h : (s.hold loop (.removeConnectionInLoop conn)).Ledger)
    (hrun : s.runFunctor loop (.removeConnectionInLoop conn) = .ok s') : s'.Ledger := by
  obtain ⟨rfl, hmem⟩ : loop = 0 ∧ conn ∈ s.accepted := h.posted_pos.1
  have hvalid := h.lives conn hmem
  rw [life_hold_removeConnectionInLoop] at hvalid
  simp only [runFunctor, removeConnectionInLoop] at hrun
  split_ifs at hrun with hone
  have hreg : conn ∈ s.connections :=
    (erasedOne_iff h.registered_accepted h.accepted_inj h.registered_nodup hmem).mp hone
  cases hrun
  have hpending : s.pendingFunctors ++ [(0, .removeConnector conn.peerAddr)] ++ [(conn.loop, .connectDestroyed conn)] =
      s.pendingFunctors ++ [(0, .removeConnector conn.peerAddr), (conn.loop, .connectDestroyed conn)] := by simp
  refine h.executed rfl rfl rfl hpending ?_ ?_ List.filter_sublist ?_ ?_
  · intro entry hentry
    rcases List.mem_pair.mp hentry with rfl | rfl
    · exact ⟨rfl, fun other hother => by simp [Functor.conn] at hother⟩
    · exact ⟨⟨rfl, hmem⟩, fun other hother => hother⟩
  · intro other _ _
    rfl
  · intro other hother hne
    simp [queueInLoop, h.connId_ne hmem hother hne]
  · rintro other ⟨rfl⟩
    refine ⟨h.waits conn hmem, ?_⟩
    convert hvalid.removed hreg using 1
    simp [life, posted, ran, closeCalls, queueInLoop, List.count_append]

theorem ledger_runFunctor (h : (s.hold loop functor).Ledger) (hrun : s.runFunctor loop functor = .ok s') :
    s'.Ledger := by
  cases functor with
  | connectEstablished conn => exact ledger_connectEstablished h hrun
  | removeConnectionInLoop conn => exact ledger_removeConnectionInLoop h hrun
  | connectDestroyed conn => exact ledger_connectDestroyed h hrun
  | removeConnector peerAddr =>
      simp only [runFunctor, removeConnector] at hrun
      split at hrun
      · rename_i connector hentry
        cases hrun
        exact h.executed_other rfl rfl rfl rfl rfl (by simp [Functor.conn]) rfl rfl
      · cases hrun
  | stopInLoop connector =>
      obtain ⟨c, new, timers, rfl, hnew⟩ := stopConnector_eq_ok hrun
      refine h.executed_other rfl rfl rfl rfl rfl ?_ rfl rfl
      intro entry hmem
      rw [hnew entry hmem]
      exact ⟨rfl, rfl⟩
  | resetChannel connector =>
      cases hrun
      exact h.executed_other rfl rfl rfl rfl (List.append_nil _).symm (by simp) rfl rfl

theorem ledger_runInLoop {caller : Nat} (h : (s.hold loop functor).Ledger)
    (hrun : s.runInLoop caller loop functor = .ok s') : s'.Ledger := by
  rw [runInLoop] at hrun
  split_ifs at hrun
  · exact ledger_runFunctor h hrun
  · cases hrun
    exact ledger_queueInLoop h

omit [DecidableEq Addr] in
theorem Placed.mono {accepted accepted' : List (ConnectionPtr Addr)} {entry : Nat × Functor Addr}
    (h : Placed accepted entry) (hsub : accepted ⊆ accepted') : Placed accepted' entry := by
  obtain ⟨loop, functor⟩ := entry
  cases functor with
  | connectEstablished conn => exact ⟨h.1, hsub h.2⟩
  | removeConnectionInLoop conn => exact ⟨h.1, hsub h.2⟩
  | connectDestroyed conn => exact ⟨h.1, hsub h.2⟩
  | removeConnector peerAddr => exact h
  | stopInLoop connector => exact h
  | resetChannel connector => exact h

omit [DecidableEq Addr] in
theorem Placed.conn_mem {accepted : List (ConnectionPtr Addr)} {entry : Nat × Functor Addr}
    (h : Placed accepted entry) (hconn : entry.2.conn = some conn) : conn ∈ accepted := by
  obtain ⟨loop, functor⟩ := entry
  cases functor with
  | connectEstablished other =>
      cases hconn
      exact h.2
  | removeConnectionInLoop other =>
      cases hconn
      exact h.2
  | connectDestroyed other =>
      cases hconn
      exact h.2
  | removeConnector peerAddr => simp [Functor.conn] at hconn
  | stopInLoop connector => simp [Functor.conn] at hconn
  | resetChannel connector => simp [Functor.conn] at hconn

/-- Nothing is in the books about a connection that has not been accepted. -/
theorem Ledger.absent (h : s.Ledger) (hnot : conn ∉ s.accepted) (hconn : functor.conn = some conn) :
    s.posted loop functor = 0 ∧ s.ran loop functor = 0 := by
  constructor
  · rw [posted, List.count_eq_zero]
    intro hmem
    exact hnot ((h.queued _ hmem).conn_mem hconn)
  · rw [ran, List.count_eq_zero]
    intro hmem
    exact hnot ((h.executedPlaced _ hmem).conn_mem hconn)

/-- The number of a new connection is not in use. -/
theorem filter_nextConnId (h : s.Ledger) (hid : conn.connId = s.nextConnId) :
    s.connections.filter (fun c => c.connId ≠ conn.connId) = s.connections := by
  rw [List.filter_eq_self]
  intro other hother
  have hlt := h.accepted_lt other (h.registered_accepted other hother)
  have hne : other.connId ≠ conn.connId := by omega
  simpa using hne

/-- A new connection starts its life with `connectEstablished` in the hands of loop 0. -/
theorem ledger_registerConnection (conn : ConnectionPtr Addr) (h : s.Ledger) (hid : conn.connId = s.nextConnId) :
    ((s.registerConnection conn).hold conn.loop (.connectEstablished conn)).Ledger := by
  have hfresh : ∀ other ∈ s.accepted, other.connId ≠ conn.connId := by
    intro other hother
    have hlt := h.accepted_lt other hother
    omega
  have hnot : conn ∉ s.accepted := fun hmem => hfresh _ hmem rfl
  simp only [registerConnection, filter_nextConnId h hid]
  constructor
  · intro other hmem
    rcases List.mem_cons.mp hmem with rfl | hmem
    · rw [hid]
      exact Nat.lt_succ_self _
    · exact Nat.lt_succ_of_lt (h.accepted_lt other hmem)
  · intro first hfirst second hsecond hsame
    rcases List.mem_cons.mp hfirst with rfl | hold <;> rcases List.mem_cons.mp hsecond with rfl | hold'
    · rfl
    · exact absurd hsame.symm (hfresh second hold')
    · exact absurd hsame (hfresh first hold)
    · exact h.accepted_inj first hold second hold' hsame
  · intro other hmem
    rcases List.mem_append.mp hmem with hmem | hmem
    · exact List.mem_cons_of_mem _ (h.registered_accepted other hmem)
    · rw [List.mem_singleton.mp hmem]
      exact List.mem_cons_self
  · rw [← List.concat_eq_append]
    exact h.registered_nodup.concat fun hmem => hnot (h.registered_accepted _ hmem)
  · intro entry hmem
    rcases List.mem_cons.mp hmem with rfl | hmem
    · exact ⟨rfl, List.mem_cons_self⟩
    · exact (h.queued entry hmem).mono (List.subset_cons_self _ _)
  · intro entry hmem
    exact (h.executedPlaced entry hmem).mono (List.subset_cons_self _ _)
  · intro other hmem
    rcases List.mem_cons.mp hmem with rfl | hmem
    · simp [hold, UdpConnection.WaitsForOwner, UdpConnection.new]
    · simpa [hold, Function.update_of_ne (hfresh other hmem)] using h.waits other hmem
  · intro other hmem
    rcases List.mem_cons.mp hmem with rfl | hmem
    · convert Life.valid_start using 1
      have hzero : ∀ loop functor, functor.conn = some other →
          s.pendingFunctors.count (loop, functor) = 0 ∧ s.executed.count (loop, functor) = 0 :=
        fun _ _ hconn => h.absent hnot hconn
      simp [life, posted, ran, closeCalls, hold, Life.start, UdpConnection.new]
      exact ⟨(hzero _ _ rfl).1, (hzero _ _ rfl).2, (hzero _ _ rfl).1, (hzero _ _ rfl).2, hzero _ _ rfl⟩
    · have hne : other ≠ conn := fun heq => hnot (heq ▸ hmem)
      refine valid_congr (h.lives other hmem) ?_ (fun _ _ _ => rfl) ?_ ?_
      · intro loop functor hother
        apply List.count_cons_of_ne
        rintro ⟨-, rfl⟩
        exact hne (Option.some.inj hother).symm
      · simp [hold, Function.update_of_ne (hfresh other hmem)]
      · simp [hold, hne]
  · exact h.ordered

theorem ledger_newConnection {peerAddr : Addr} (h : s.Ledger) (hrun : s.newConnection peerAddr = .ok s') :
    s'.Ledger := by
  have hnew := ledger_registerConnection ⟨s.nextConnId, s.threadPool.getNextLoop.1, peerAddr⟩ h rfl
  exact ledger_runInLoop hnew hrun

theorem ledger_perform {connector : ConnectorPtr Addr} {effect : ConnectorEffect} (h : s.Ledger)
    (hrun : s.perform connector effect = .ok s') : s'.Ledger := by
  cases effect with
  | newConnection => exact ledger_newConnection h hrun
  | socket =>
      cases hrun
      exact h
  | runAfter delayMs =>
      cases hrun
      exact h.congr (List.Perm.refl _) rfl
  | resetChannel =>
      cases hrun
      exact ledger_queueInLoop (h.hold_other rfl rfl)

theorem ledger_startConnector {connector : ConnectorPtr Addr} {c : UdpConnector} {errno : Errno}
    (h : s.Ledger) (hrun : s.startConnector connector c errno = .ok s') : s'.Ledger := by
  rw [startConnector] at hrun
  split at hrun
  · refine run_invariant (fun _ _ _ h1 h2 => ledger_perform h1 h2) ?_ hrun
    exact h.congr (List.Perm.refl _) rfl
  · cases hrun

/-- An input of a connection that does not close it changes nothing in the books. -/
theorem ledger_stepConnection {i : UdpConnection.Input} {c : UdpConnection} (h : s.Ledger) (hmem : conn ∈ s.accepted)
    (hi : i ≠ .connectEstablished) (hstep : (s.conns conn.connId).step i = .ok c)
    (hopen : (s.conns conn.connId).callsClose i = false) :
    ({ s with conns := Function.update s.conns conn.connId c } : UdpServer Addr).Ledger := by
  obtain ⟨hconnecting, hwaits⟩ := UdpConnection.step_connecting_iff (h.waits conn hmem) hi hstep
  have hcount := UdpConnection.step_closeCallback_count hstep
  refine h.frame rfl rfl rfl rfl h.queued ?_
  intro other hother
  by_cases heq : other = conn
  · subst heq
    refine ⟨by simpa using hwaits, ?_⟩
    convert h.lives other hother using 1
    simp [life, posted, ran, closeCalls, hcount, hconnecting, hopen]
  · have hsame := h.update_conns hmem hother (fun hsome => heq (Option.some.inj hsome).symm) c
    refine ⟨by simpa only [hsame] using h.waits other hother, ?_⟩
    exact valid_congr (h.lives other hother) (fun _ _ _ => rfl) (fun _ _ _ => rfl) hsame Iff.rfl

/-- A call of `closeCallback_` puts `removeConnectionInLoop` into the hands of the connection's thread. -/
theorem ledger_closeCallback {i : UdpConnection.Input} {c : UdpConnection} (h : s.Ledger) (hmem : conn ∈ s.accepted)
    (hi : i ≠ .connectEstablished) (hstep : (s.conns conn.connId).step i = .ok c)
    (hcalls : (s.conns conn.connId).callsClose i = true) :
    (hold 0 (.removeConnectionInLoop conn)
      { s with conns := Function.update s.conns conn.connId c }).Ledger := by
  obtain ⟨hconnecting, hwaits⟩ := UdpConnection.step_connecting_iff (h.waits conn hmem) hi hstep
  have hcount := UdpConnection.step_closeCallback_count hstep
  have hup : ¬(s.life conn).connecting := by
    intro hstate
    have hstack := h.waits conn hmem hstate
    simp [UdpConnection.callsClose, hstack] at hcalls
  refine h.frame rfl rfl rfl rfl ?_ ?_
  · intro entry hentry
    rcases List.mem_cons.mp hentry with rfl | hentry
    · exact ⟨rfl, hmem⟩
    · exact h.queued entry hentry
  · intro other hother
    by_cases heq : other = conn
    · subst heq
      refine ⟨by simpa [hold] using hwaits, ?_⟩
      convert (h.lives other hother).closed_once hup using 1
      rw [life_hold_removeConnectionInLoop]
      simp [life, posted, ran, closeCalls, hcount, hconnecting, hcalls]
    · have hsame := h.update_conns hmem hother (fun hsome => heq (Option.some.inj hsome).symm) c
      refine ⟨by simpa only [hold, hsame] using h.waits other hother, ?_⟩
      refine valid_congr (h.lives other hother) ?_ (fun _ _ _ => rfl) hsame Iff.rfl
      intro loop functor hconn
      apply List.count_cons_of_ne
      rintro ⟨-, rfl⟩
      exact heq (Option.some.inj hconn).symm

theorem ledger_connectionInput {i : UdpConnection.Input} (h : s.Ledger) (hmem : conn ∈ s.accepted)
    (hi : i ≠ .connectEstablished) (hrun : s.connectionInput conn i = .ok s') : s'.Ledger := by
  obtain ⟨c, hstep, ⟨hopen, rfl⟩ | ⟨hcalls, hremove⟩⟩ := connectionInput_cases hrun
  · exact ledger_stepConnection h hmem hi hstep hopen
  · exact ledger_runInLoop (ledger_closeCallback h hmem hi hstep hcalls) hremove

theorem ledger_step {i : Input Addr} (h : s.Ledger) (hstep : s.step i = .ok s') : s'.Ledger := by
  cases i with
  | handleRead peerAddr errno =>
      simp only [step, handleRead] at hstep
      split at hstep
      · cases hstep
        exact h
      · split at hstep
        · cases hstep
          exact h
        · refine ledger_startConnector ?_ hstep
          exact h.congr (List.Perm.refl _) rfl
  | timer index errno =>
      simp only [step] at hstep
      split at hstep
      · refine ledger_startConnector ?_ hstep
        exact h.congr (List.Perm.refl _) rfl
      · cases hstep
        exact h.congr (List.Perm.refl _) rfl
      · cases hstep
  | functor loop =>
      simp only [step] at hstep
      split at hstep
      · rename_i functor left htake
        refine ledger_runFunctor ?_ hstep
        exact h.congr (LoopQueues.takeOldest_perm htake) rfl
      · cases hstep
  | connection conn i =>
      simp only [step] at hstep
      split_ifs at hstep with henabled
      exact ledger_connectionInput h henabled.1 henabled.2.1 hstep

theorem ledger_new (numThreads : Nat) (writeComplete : Bool) :
    (new numThreads writeComplete : UdpServer Addr).Ledger := by
  constructor <;> simp [new, Ordered]

end Realtinet.UdpServer
