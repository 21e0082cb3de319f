import Realtinet.UdpServerClose

/-! Which peers a server has admitted. The entry of a peer in `peerAddrToUdpConnectors_` is made before
its connector runs and outlives its connection by a queued functor and a one-second timer. What keeps
it alive at any time is one of four things: a retry timer of the connector, a registered connection, a
queued `RemoveConnector`, an `EraseConnector` timer. They are counted together. -/

namespace Realtinet.UdpServer

open TransitionSystem

variable {Addr : Type} [DecidableEq Addr]

def Timer.retries (peerAddr : Addr) : Timer Addr → Bool
  | .startInLoop connector => connector.peerAddr = peerAddr
  | .eraseConnector _ => false

/-- The registered connections of a peer. -/
def registered (s : UdpServer Addr) (peerAddr : Addr) : Nat :=
  s.connections.countP fun conn => conn.peerAddr = peerAddr

/-- What keeps the entry of a peer alive. -/
def holders (s : UdpServer Addr) (peerAddr : Addr) : Nat :=
  s.registered peerAddr + s.posted 0 (.removeConnector peerAddr) + s.timers.count (.eraseConnector peerAddr) +
    s.timers.countP (Timer.retries peerAddr)

/-- At most one thing keeps an entry alive, and nothing is left of a peer without one. A connector with
a retry timer is the one of its peer's entry, wants to connect and is disconnected. -/
structure Admission (s : UdpServer Addr) : Prop where
  holders_le : ∀ peerAddr, s.holders peerAddr ≤ 1
  absent : ∀ peerAddr, s.peerAddrToUdpConnectors peerAddr = none → s.holders peerAddr = 0
  entry : ∀ peerAddr connector, s.peerAddrToUdpConnectors peerAddr = some connector →
    connector.peerAddr = peerAddr ∧ connector.id < s.nextConnector
  entry_inj : ∀ peerAddr connector other, s.peerAddrToUdpConnectors peerAddr = some connector →
    s.peerAddrToUdpConnectors other.peerAddr = some other → other.id = connector.id → other = connector
  retry : ∀ connector, .startInLoop connector ∈ s.timers →
    s.peerAddrToUdpConnectors connector.peerAddr = some connector ∧
      (s.connectors connector.id).connect_ = true ∧ (s.connectors connector.id).state = .kDisconnected
  neverConnecting : ∀ id, (s.connectors id).state ≠ .kConnecting

/-- Nothing changes as far as admission goes. -/
structure Kept (s s' : UdpServer Addr) : Prop where
  entries : s'.peerAddrToUdpConnectors = s.peerAddrToUdpConnectors
  nextConnector : s'.nextConnector = s.nextConnector
  holders : ∀ peerAddr, s'.holders peerAddr = s.holders peerAddr
  retry : ∀ connector, .startInLoop connector ∈ s'.timers →
    .startInLoop connector ∈ s.timers ∧
      (s'.connectors connector.id).connect_ = (s.connectors connector.id).connect_ ∧
      (s'.connectors connector.id).state = (s.connectors connector.id).state
  neverConnecting : (∀ id, (s.connectors id).state ≠ .kConnecting) → ∀ id, (s'.connectors id).state ≠ .kConnecting

variable {s s' s'' : UdpServer Addr} {conn : ConnectionPtr Addr} {connector : ConnectorPtr Addr}
  {functor : Functor Addr} {loop : Nat} {peerAddr : Addr}

theorem Kept.trans (h : s.Kept s') (h' : s'.Kept s'') : s.Kept s'' := by
  constructor
  · exact h'.entries.trans h.entries
  · exact h'.nextConnector.trans h.nextConnector
  · exact fun peerAddr => (h'.holders peerAddr).trans (h.holders peerAddr)
  · intro connector hmem
    obtain ⟨hmem', hconnect', hstate'⟩ := h'.retry connector hmem
    obtain ⟨hmem'', hconnect, hstate⟩ := h.retry connector hmem'
    exact ⟨hmem'', hconnect'.trans hconnect, hstate'.trans hstate⟩
  · exact fun hnever => h'.neverConnecting (h.neverConnecting hnever)

theorem Kept.admission (hkept : s.Kept s') (h : s.Admission) : s'.Admission := by
  constructor
  · intro peerAddr
    rw [hkept.holders]
    exact h.holders_le peerAddr
  · intro peerAddr
    rw [hkept.entries, hkept.holders]
    exact h.absent peerAddr
  · rw [hkept.entries, hkept.nextConnector]
    exact h.entry
  · rw [hkept.entries]
    exact h.entry_inj
  · intro connector hmem
    obtain ⟨hmem', hconnect, hstate⟩ := hkept.retry connector hmem
    rw [hkept.entries, hconnect, hstate]
    exact h.retry connector hmem'
  · exact hkept.neverConnecting h.neverConnecting

/-- What admission looks at, the queues apart. -/
def admitting (s : UdpServer Addr) :=
  (s.peerAddrToUdpConnectors, s.nextConnector, s.connections, s.timers, s.connectors)

/-- Admission does not look at the connections' own states, at what has been executed, or at the order
of the queues; of the queued functors only `RemoveConnector` counts. -/
theorem Kept.of_eq
    (hposted : ∀ peerAddr, s'.posted 0 (.removeConnector peerAddr) = s.posted 0 (.removeConnector peerAddr))
    (hadmitting : s'.admitting = s.admitting) : s.Kept s' := by
  simp only [admitting, Prod.mk.injEq] at hadmitting
  obtain ⟨hentries, hnext, hconnections, htimers, hconnectors⟩ := hadmitting
  refine ⟨hentries, hnext, ?_, ?_, ?_⟩
  · intro peerAddr
    rw [UdpServer.holders, UdpServer.holders, registered, registered, hconnections, hposted, htimers]
  · intro connector hmem
    rw [htimers] at hmem
    rw [hconnectors]
    exact ⟨hmem, rfl, rfl⟩
  · rw [hconnectors]
    exact id

/-- Only `RemoveConnector` in hand makes a difference. -/
theorem kept_hold (hne : ∀ peerAddr, functor ≠ .removeConnector peerAddr) :
    s.Kept (s.hold loop functor) ∧ (s.hold loop functor).Kept s := by
  have hposted : ∀ peerAddr, (s.hold loop functor).posted 0 (.removeConnector peerAddr) =
      s.posted 0 (.removeConnector peerAddr) := by
    intro peerAddr
    apply List.count_cons_of_ne
    rintro ⟨-, rfl⟩
    exact hne peerAddr rfl
  exact ⟨.of_eq hposted rfl, .of_eq (fun peerAddr => (hposted peerAddr).symm) rfl⟩

theorem kept_queueInLoop : (s.hold loop functor).Kept (s.queueInLoop loop functor) :=
  .of_eq (fun _ => (List.perm_append_singleton _ _).count_eq _) rfl

theorem kept_stepConnection {i : UdpConnection.Input} (hrun : s.stepConnection conn i = .ok s') : s.Kept s' := by
  obtain ⟨c, -, rfl⟩ := stepConnection_eq_ok hrun
  exact .of_eq (fun _ => rfl) rfl

/-! ### Functors -/

/-- Removing a connection turns it into a queued `RemoveConnector` of its peer. -/
theorem kept_removeConnectionInLoop (h : (s.hold loop (.removeConnectionInLoop conn)).Ledger)
    (hrun : s.runFunctor loop (.removeConnectionInLoop conn) = .ok s') :
    (s.hold loop (.removeConnectionInLoop conn)).Kept s' := by
  obtain ⟨rfl, hmem⟩ : loop = 0 ∧ conn ∈ s.accepted := h.posted_pos.1
  refine (kept_hold (by simp)).2.trans ?_
  simp only [runFunctor, removeConnectionInLoop] at hrun
  split_ifs at hrun with hone
  cases hrun
  have hreg : conn ∈ s.connections :=
    (erasedOne_iff h.registered_accepted h.accepted_inj h.registered_nodup hmem).mp hone
  have hperm : s.connections.Perm (conn :: s.connections.filter fun c => c.connId ≠ conn.connId) := by
    have herase : (s.connections.filter fun c => c.connId ≠ conn.connId) = s.connections.erase conn :=
      filter_connId_eq_erase h.registered_accepted h.accepted_inj h.registered_nodup hmem
    rw [herase]
    exact List.perm_cons_erase hreg
  refine ⟨rfl, rfl, ?_, fun _ hretry => ⟨hretry, rfl, rfl⟩, id⟩
  intro peerAddr
  have hcount := hperm.countP_eq fun other => other.peerAddr = peerAddr
  rw [List.countP_cons] at hcount
  simp only [holders, registered, posted, queueInLoop, List.count_append]
  by_cases hpeer : conn.peerAddr = peerAddr
  · simp [hpeer] at hcount ⊢
    omega
  · simp [hpeer] at hcount ⊢
    omega

/-- A peer whose `RemoveConnector` is in hand has an entry, and its connector no retry timer. -/
theorem Admission.removing (h : (s.hold 0 (.removeConnector peerAddr)).Admission) :
    ∃ connector, s.peerAddrToUdpConnectors peerAddr = some connector ∧
      ∀ other, .startInLoop other ∈ s.timers → other.id ≠ connector.id := by
  have hposted : (s.hold 0 (.removeConnector peerAddr)).posted 0 (.removeConnector peerAddr) =
      s.posted 0 (.removeConnector peerAddr) + 1 := List.count_cons_self
  have hle := h.holders_le peerAddr
  have habsent := h.absent peerAddr
  rw [holders, hposted] at hle habsent
  cases hentry : s.peerAddrToUdpConnectors peerAddr with
  | none => exact absurd (habsent hentry) (by omega)
  | some connector =>
      refine ⟨connector, rfl, ?_⟩
      intro other hmem hid
      have hother : other = connector := h.entry_inj peerAddr connector other hentry (h.retry other hmem).1 hid
      have hpeer : other.peerAddr = peerAddr := by
        rw [hother]
        exact (h.entry peerAddr connector hentry).1
      have hpos : 0 < s.timers.countP (Timer.retries peerAddr) :=
        List.countP_pos_iff.mpr ⟨_, hmem, by simp [Timer.retries, hpeer]⟩
      have htimers : (s.hold 0 (.removeConnector peerAddr)).timers = s.timers := rfl
      rw [htimers] at hle
      omega

/-- `RemoveConnector` turns into an `EraseConnector` timer. -/
theorem kept_removeConnector (hloop : loop = 0) (h : (s.hold loop (.removeConnector peerAddr)).Admission)
    (hrun : s.runFunctor loop (.removeConnector peerAddr) = .ok s') :
    (s.hold loop (.removeConnector peerAddr)).Kept s' := by
  subst hloop
  obtain ⟨connector, hentry, hother⟩ := h.removing
  simp only [runFunctor, removeConnector, hentry] at hrun
  cases hrun
  refine ⟨rfl, rfl, ?_, ?_, ?_⟩
  · intro other
    simp only [holders, registered, posted, queueInLoop, hold, List.count_append, List.countP_append]
    by_cases hpeer : peerAddr = other
    · simp [hpeer, Timer.retries]
      omega
    · simp [hpeer, Timer.retries]
  · intro other hmem
    have hmem' : .startInLoop other ∈ s.timers := by simpa [queueInLoop] using hmem
    exact ⟨hmem', by simp [queueInLoop, hold, hother other hmem']⟩
  · intro hnever
    apply (Function.forall_update_iff s.connectors fun _ c => c.state ≠ .kConnecting).mpr
    exact ⟨hnever connector.id, fun id _ => hnever id⟩

/-- `stopInLoop` finds nothing to do: a connector is never in `kConnecting`. -/
theorem kept_stopConnector (hnever : ∀ id, (s.connectors id).state ≠ .kConnecting)
    (hrun : s.stopConnector connector = .ok s') : s.Kept s' := by
  rw [stopConnector, UdpConnector.stopInLoop, if_neg (hnever _)] at hrun
  cases hrun
  exact .of_eq (fun _ => rfl) (by simp [admitting])

theorem kept_runFunctor (hledger : (s.hold loop functor).Ledger) (h : (s.hold loop functor).Admission)
    (hrun : s.runFunctor loop functor = .ok s') : (s.hold loop functor).Kept s' := by
  have hlogged : s.Kept { s with executed := (loop, functor) :: s.executed } :=
    .of_eq (fun _ => rfl) rfl
  cases functor with
  | connectEstablished conn => exact ((kept_hold (by simp)).2.trans hlogged).trans (kept_stepConnection hrun)
  | connectDestroyed conn => exact ((kept_hold (by simp)).2.trans hlogged).trans (kept_stepConnection hrun)
  | removeConnectionInLoop conn => exact kept_removeConnectionInLoop hledger hrun
  | removeConnector peerAddr => exact kept_removeConnector hledger.posted_pos.1 h hrun
  | stopInLoop connector =>
      exact ((kept_hold (by simp)).2.trans hlogged).trans (kept_stopConnector h.neverConnecting hrun)
  | resetChannel connector =>
      cases hrun
      refine ((kept_hold (by simp)).2.trans hlogged).trans ⟨rfl, rfl, fun _ => rfl, ?_, ?_⟩
      · intro other hmem
        refine ⟨hmem, ?_⟩
        by_cases hid : other.id = connector.id
        · simp [resetChannel, hid]
        · simp [resetChannel, hid]
      · intro hnever
        apply (Function.forall_update_iff s.connectors fun _ c => c.state ≠ .kConnecting).mpr
        exact ⟨hnever connector.id, fun id _ => hnever id⟩

theorem kept_runInLoop {caller : Nat} (hledger : (s.hold loop functor).Ledger)
    (h : (s.hold loop functor).Admission) (hrun : s.runInLoop caller loop functor = .ok s') :
    (s.hold loop functor).Kept s' := by
  rw [runInLoop] at hrun
  split_ifs at hrun
  · exact kept_runFunctor hledger h hrun
  · cases hrun
    exact kept_queueInLoop

theorem kept_functor (hledger : s.Ledger) (h : s.Admission) (hstep : s.step (.functor loop) = .ok s') :
    s.Kept s' := by
  simp only [step] at hstep
  split at hstep
  · rename_i functor left htake
    have hperm := LoopQueues.takeOldest_perm htake
    have hkept : s.Kept (hold loop functor { s with pendingFunctors := left }) :=
      .of_eq (fun _ => hperm.count_eq _) rfl
    exact hkept.trans (kept_runFunctor (hledger.congr hperm rfl) (hkept.admission h) hstep)
  · cases hstep

theorem kept_connection {i : UdpConnection.Input} (hledger : s.Ledger) (h : s.Admission)
    (hstep : s.step (.connection conn i) = .ok s') : s.Kept s' := by
  simp only [step] at hstep
  split_ifs at hstep with henabled
  obtain ⟨c, hc, hcases⟩ := connectionInput_cases hstep
  have hkept : s.Kept { s with conns := Function.update s.conns conn.connId c } :=
    .of_eq (fun _ => rfl) rfl
  rcases hcases with ⟨-, rfl⟩ | ⟨hcalls, hremove⟩
  · exact hkept
  · have hhold : s.Kept (hold 0 (.removeConnectionInLoop conn)
        { s with conns := Function.update s.conns conn.connId c }) := hkept.trans (kept_hold (by simp)).1
    exact hhold.trans (kept_runInLoop (ledger_closeCallback hledger henabled.1 henabled.2.1 hc hcalls)
      (hhold.admission h) hremove)

/-! ### Connectors -/

/-- Something new that keeps the entry of `peerAddr` alive. -/
theorem Admission.one_more (h : s.Admission) (hfree : s.holders peerAddr = 0)
    (hentry : s.peerAddrToUdpConnectors peerAddr ≠ none)
    (hentries : s'.peerAddrToUdpConnectors = s.peerAddrToUdpConnectors)
    (hnext : s'.nextConnector = s.nextConnector)
    (hholders : ∀ other, s'.holders other = s.holders other + if other = peerAddr then 1 else 0)
    (hretry : ∀ connector, .startInLoop connector ∈ s'.timers →
      s.peerAddrToUdpConnectors connector.peerAddr = some connector ∧
        (s'.connectors connector.id).connect_ = true ∧ (s'.connectors connector.id).state = .kDisconnected)
    (hnever : ∀ id, (s'.connectors id).state ≠ .kConnecting) : s'.Admission := by
  constructor
  · intro other
    have hle := h.holders_le other
    rw [hholders]
    split_ifs with heq
    · subst heq
      omega
    · exact hle
  · intro other hnone
    rw [hentries] at hnone
    have hne : other ≠ peerAddr := fun heq => hentry (heq ▸ hnone)
    rw [hholders, if_neg hne]
    exact h.absent other hnone
  · rw [hentries, hnext]
    exact h.entry
  · rw [hentries]
    exact h.entry_inj
  · rw [hentries]
    exact hretry
  · exact hnever

/-- A peer that nothing keeps alive has no retry timer. -/
theorem Admission.no_retry (h : s.Admission) (hfree : s.holders connector.peerAddr = 0)
    (hentry : s.peerAddrToUdpConnectors connector.peerAddr = some connector) {other : ConnectorPtr Addr}
    (hmem : .startInLoop other ∈ s.timers) : other.id ≠ connector.id := by
  intro hid
  have heq : other = connector := h.entry_inj _ connector other hentry (h.retry other hmem).1 hid
  subst heq
  have hpos : 0 < s.timers.countP (Timer.retries other.peerAddr) :=
    List.countP_pos_iff.mpr ⟨_, hmem, by simp [Timer.retries]⟩
  rw [holders] at hfree
  omega

/-- The connector of a peer that nothing keeps alive may change. -/
theorem kept_connector {c : UdpConnector} (h : s.Admission) (hfree : s.holders connector.peerAddr = 0)
    (hentry : s.peerAddrToUdpConnectors connector.peerAddr = some connector) (hc : c.state ≠ .kConnecting) :
    s.Kept { s with connectors := Function.update s.connectors connector.id c } := by
  refine ⟨rfl, rfl, fun _ => rfl, ?_, ?_⟩
  · intro other hmem
    have hne := h.no_retry hfree hentry hmem
    exact ⟨hmem, by simp [hne]⟩
  · intro hnever
    apply (Function.forall_update_iff s.connectors fun _ c => c.state ≠ .kConnecting).mpr
    exact ⟨hc, fun id _ => hnever id⟩

theorem holders_registerConnection (h : s.Ledger) (hid : conn.connId = s.nextConnId) (peerAddr : Addr) :
    (s.registerConnection conn).holders peerAddr =
      s.holders peerAddr + if peerAddr = conn.peerAddr then 1 else 0 := by
  simp only [holders, registered, posted, registerConnection, filter_nextConnId h hid, List.countP_append]
  by_cases hpeer : peerAddr = conn.peerAddr
  · simp [hpeer]
    omega
  · simp [hpeer, Ne.symm hpeer]

theorem admission_newConnection (hledger : s.Ledger) (h : s.Admission) (hfree : s.holders peerAddr = 0)
    (hentry : s.peerAddrToUdpConnectors peerAddr ≠ none) (hrun : s.newConnection peerAddr = .ok s') :
    s'.Admission ∧ s'.peerAddrToUdpConnectors = s.peerAddrToUdpConnectors ∧
      ∀ other, s'.holders other = s.holders other + if other = peerAddr then 1 else 0 := by
  have hnew := ledger_registerConnection ⟨s.nextConnId, s.threadPool.getNextLoop.1, peerAddr⟩ hledger rfl
  have hadmission : (s.registerConnection ⟨s.nextConnId, s.threadPool.getNextLoop.1, peerAddr⟩).Admission :=
    h.one_more hfree hentry rfl rfl (holders_registerConnection hledger rfl) h.retry h.neverConnecting
  have hhold : (s.registerConnection ⟨s.nextConnId, s.threadPool.getNextLoop.1, peerAddr⟩).Kept
      (hold s.threadPool.getNextLoop.1
        (.connectEstablished ⟨s.nextConnId, s.threadPool.getNextLoop.1, peerAddr⟩)
        (s.registerConnection ⟨s.nextConnId, s.threadPool.getNextLoop.1, peerAddr⟩)) := (kept_hold (by simp)).1
  have hkept := hhold.trans (kept_runInLoop hnew (hhold.admission hadmission) hrun)
  refine ⟨hkept.admission hadmission, hkept.entries, ?_⟩
  intro other
  rw [hkept.holders, holders_registerConnection hledger rfl]

/-- **Starting the connector of a peer** that nothing keeps alive: unless `connect(2)` fails for good,
something does afterwards. -/
theorem admission_startConnector (connector : ConnectorPtr Addr) {c : UdpConnector} {errno : Errno} (hledger : s.Ledger) (h : s.Admission)
    (hfree : s.holders connector.peerAddr = 0)
    (hentry : s.peerAddrToUdpConnectors connector.peerAddr = some connector) (hconnect : c.connect_ = true)
    (hrun : s.startConnector connector c errno = .ok s') :
    s'.Admission ∧ s'.peerAddrToUdpConnectors = s.peerAddrToUdpConnectors ∧
      ∀ other, s'.holders other =
        s.holders other + if other = connector.peerAddr ∧ errno.outcome ≠ .failed then 1 else 0 := by
  rw [startConnector] at hrun
  split at hrun
  · rename_i c' effects hstart
    obtain ⟨hstate, hcases⟩ := UdpConnector.startInLoop_cases hstart
    have hkept := kept_connector h hfree hentry (UdpConnector.startInLoop_not_connecting hstart)
    rcases hcases with ⟨hflag, -⟩ | ⟨-, hout, -, rfl⟩ | ⟨-, hout, hc', hstate', rfl⟩ | ⟨-, hout, -, rfl⟩
    · rw [hconnect] at hflag
      cases hflag
    · have hledger' : ({ s with
          connectors := Function.update s.connectors connector.id c' } : UdpServer Addr).Ledger :=
        hledger.congr (List.Perm.refl _) rfl
      obtain ⟨t, hsocket, hrun'⟩ := run_cons_eq_ok.mp hrun
      cases hsocket
      rw [run_singleton] at hrun'
      obtain ⟨hadmission, hentries, hholders⟩ :=
        admission_newConnection hledger' (hkept.admission h) hfree (by simp [hentry]) hrun'
      refine ⟨hadmission, hentries, ?_⟩
      intro other
      rw [hholders, hkept.holders]
      simp [hout]
    · cases hrun
      have hconnect' : c'.connect_ = true := by simp [hc', UdpConnector.retry, hconnect]
      have hholders : ∀ other, holders ({ s with
          connectors := Function.update s.connectors connector.id c'
          timers := s.timers ++ [.startInLoop connector] } : UdpServer Addr) other =
            s.holders other + if other = connector.peerAddr then 1 else 0 := by
        intro other
        simp only [holders, registered, posted, List.count_append, List.countP_append]
        by_cases hpeer : other = connector.peerAddr
        · simp [hpeer, Timer.retries]
          omega
        · simp [hpeer, Ne.symm hpeer, Timer.retries]
      refine ⟨(hkept.admission h).one_more hfree (by simp [hentry]) rfl rfl ?_ ?_ ?_, rfl, ?_⟩
      · exact fun other => (hholders other).trans (by rw [hkept.holders])
      · intro other hmem
        rcases List.mem_append.mp hmem with hmem | hmem
        · exact (hkept.admission h).retry other hmem
        · cases List.mem_singleton.mp hmem
          simpa [perform, post] using ⟨hentry, hconnect', hstate'⟩
      · exact (hkept.admission h).neverConnecting
      · intro other
        exact (hholders other).trans (by simp [hout])
    · cases hrun
      exact ⟨hkept.admission h, rfl, fun other => by simpa [hout, post] using hkept.holders other⟩
  · cases hrun

/-! ### Steps -/

/-- The result of `connect(2)`, for an input that reaches the call. -/
def attempt (s : UdpServer Addr) : Input Addr → Option Errno
  | .handleRead (some peerAddr) errno => if s.peerAddrToUdpConnectors peerAddr = none then some errno else none
  | .timer index errno =>
      match s.timers[index]? with
      | some (.startInLoop connector) => if (s.connectors connector.id).connect_ then some errno else none
      | _ => none
  | _ => none

/-- What an input does to the admitted peers: nothing; a new entry; another attempt of a connector whose
retry timer kept the entry alive; the end of an entry. -/
inductive AdmissionEffect (s s' : UdpServer Addr) (i : Input Addr) : Prop
  | kept (hattempt : s.attempt i = none) (hentries : s'.peerAddrToUdpConnectors = s.peerAddrToUdpConnectors)
      (hholders : ∀ other, s'.holders other = s.holders other)
  | admitted (peerAddr : Addr) (errno : Errno) (hattempt : s.attempt i = some errno)
      (hentry : s.peerAddrToUdpConnectors peerAddr = none) (hentry' : s'.peerAddrToUdpConnectors peerAddr ≠ none)
      (hentries : ∀ other ≠ peerAddr, s'.peerAddrToUdpConnectors other = s.peerAddrToUdpConnectors other)
      (hholders : ∀ other, s'.holders other =
        s.holders other + if other = peerAddr ∧ errno.outcome ≠ .failed then 1 else 0)
  | retried (peerAddr : Addr) (errno : Errno) (hattempt : s.attempt i = some errno)
      (hentry : s.peerAddrToUdpConnectors peerAddr ≠ none) (hheld : s.holders peerAddr = 1)
      (hentries : s'.peerAddrToUdpConnectors = s.peerAddrToUdpConnectors)
      (hholders : ∀ other, s'.holders other =
        if other = peerAddr then (if errno.outcome ≠ .failed then 1 else 0) else s.holders other)
  | erased (peerAddr : Addr) (hattempt : s.attempt i = none) (hheld : s.holders peerAddr = 1)
      (hentry' : s'.peerAddrToUdpConnectors peerAddr = none)
      (hentries : ∀ other ≠ peerAddr, s'.peerAddrToUdpConnectors other = s.peerAddrToUdpConnectors other)
      (hholders : ∀ other, s'.holders other = if other = peerAddr then 0 else s.holders other)

variable {i : Input Addr}

/-- The entry a datagram of a new peer makes, before its connector is started. -/
theorem admission_newEntry (h : s.Admission) (hentry : s.peerAddrToUdpConnectors peerAddr = none) :
    ({ s with
      nextConnector := s.nextConnector + 1
      peerAddrToUdpConnectors := Function.update s.peerAddrToUdpConnectors peerAddr
        (some ⟨s.nextConnector, peerAddr⟩) } : UdpServer Addr).Admission := by
  constructor
  · exact h.holders_le
  · intro other hnone
    by_cases heq : other = peerAddr
    · simp [heq] at hnone
    · exact h.absent other (by simpa [heq] using hnone)
  · intro other connector hsome
    by_cases heq : other = peerAddr
    · subst heq
      obtain rfl : ⟨s.nextConnector, other⟩ = connector := by simpa using hsome
      exact ⟨rfl, Nat.lt_succ_self _⟩
    · obtain ⟨hpeer, hlt⟩ := h.entry other connector (by simpa [heq] using hsome)
      exact ⟨hpeer, Nat.lt_succ_of_lt hlt⟩
  · intro first connector other hsome hother hid
    by_cases heq : first = peerAddr <;> by_cases heq' : other.peerAddr = peerAddr
    · obtain rfl : ⟨s.nextConnector, peerAddr⟩ = connector := by simpa [heq] using hsome
      obtain rfl : ⟨s.nextConnector, peerAddr⟩ = other := by simpa [heq'] using hother
      rfl
    · obtain rfl : ⟨s.nextConnector, peerAddr⟩ = connector := by simpa [heq] using hsome
      have hlt := (h.entry _ other (by simpa [heq'] using hother)).2
      exact absurd hid (Nat.ne_of_lt hlt)
    · obtain rfl : ⟨s.nextConnector, peerAddr⟩ = other := by simpa [heq'] using hother
      have hlt := (h.entry _ connector (by simpa [heq] using hsome)).2
      exact absurd hid.symm (Nat.ne_of_lt hlt)
    · exact h.entry_inj first connector other (by simpa [heq] using hsome) (by simpa [heq'] using hother) hid
  · intro connector hmem
    obtain ⟨hsome, hflags⟩ := h.retry connector hmem
    have hne : connector.peerAddr ≠ peerAddr := by
      intro heq
      rw [heq, hentry] at hsome
      cases hsome
    exact ⟨by simpa [hne] using hsome, hflags⟩
  · exact h.neverConnecting

theorem admission_handleRead {received : Option Addr} {errno : Errno} (hledger : s.Ledger) (h : s.Admission)
    (hstep : s.step (.handleRead received errno) = .ok s') :
    s'.Admission ∧ AdmissionEffect s s' (.handleRead received errno) := by
  simp only [step, handleRead] at hstep
  split at hstep
  · cases hstep
    exact ⟨h, .kept rfl rfl fun _ => rfl⟩
  · rename_i peerAddr
    split at hstep
    · rename_i connector hsome
      cases hstep
      exact ⟨h, .kept (by simp [attempt, hsome]) rfl fun _ => rfl⟩
    · rename_i hnone
      have hledger' : ({ s with
          nextConnector := s.nextConnector + 1
          peerAddrToUdpConnectors := Function.update s.peerAddrToUdpConnectors peerAddr
            (some ⟨s.nextConnector, peerAddr⟩) } : UdpServer Addr).Ledger :=
        hledger.congr (List.Perm.refl _) rfl
      obtain ⟨hadmission, hentries, hholders⟩ := admission_startConnector ⟨s.nextConnector, peerAddr⟩ hledger'
        (admission_newEntry h hnone) (h.absent peerAddr hnone) (by simp) rfl hstep
      refine ⟨hadmission, .admitted peerAddr errno (by simp [attempt, hnone]) hnone ?_ ?_ hholders⟩
      · simp [hentries]
      · intro other hne
        simp [hentries, hne]

omit [DecidableEq Addr] in
/-- A timer that expires is taken out of the timers. -/
theorem timers_perm {index : Nat} {timer : Timer Addr} (h : s.timers[index]? = some timer) :
    (timer :: s.timers.eraseIdx index).Perm s.timers := by
  obtain ⟨hlt, rfl⟩ := List.getElem?_eq_some_iff.mp h
  exact List.getElem_cons_eraseIdx_perm hlt

/-- Without one of its timers the rest of the server is still in order. -/
theorem admission_eraseTimer {index : Nat} {timer : Timer Addr} (h : s.Admission)
    (htimer : s.timers[index]? = some timer) :
    ({ s with timers := s.timers.eraseIdx index } : UdpServer Addr).Admission ∧
      ∀ other, s.holders other = holders ({ s with timers := s.timers.eraseIdx index } : UdpServer Addr) other +
        if timer = .eraseConnector other ∨ timer.retries other = true then 1 else 0 := by
  have hperm := timers_perm htimer
  have hholders : ∀ other, s.holders other =
      holders ({ s with timers := s.timers.eraseIdx index } : UdpServer Addr) other +
        if timer = .eraseConnector other ∨ timer.retries other = true then 1 else 0 := by
    intro other
    have hcount := hperm.count_eq (.eraseConnector other)
    have hcountP := hperm.countP_eq (Timer.retries other)
    rw [List.count_cons] at hcount
    rw [List.countP_cons] at hcountP
    simp only [holders, registered, posted]
    cases timer with
    | startInLoop connector =>
        simp [Timer.retries] at hcount hcountP ⊢
        omega
    | eraseConnector peerAddr =>
        simp [Timer.retries] at hcount hcountP ⊢
        omega
  refine ⟨⟨?_, ?_, h.entry, h.entry_inj, ?_, h.neverConnecting⟩, hholders⟩
  · intro other
    have hle := h.holders_le other
    rw [hholders] at hle
    omega
  · intro other hnone
    have hzero := h.absent other hnone
    rw [hholders] at hzero
    omega
  · intro connector hmem
    exact h.retry connector (hperm.mem_iff.mp (List.mem_cons_of_mem _ hmem))

/-- The entry of a peer that nothing keeps alive any more may go. -/
theorem admission_eraseEntry (h : s.Admission) (hfree : s.holders peerAddr = 0) :
    (s.eraseConnector peerAddr).Admission := by
  have hsome : ∀ {other connector}, (s.eraseConnector peerAddr).peerAddrToUdpConnectors other = some connector →
      s.peerAddrToUdpConnectors other = some connector := by
    intro other connector hsome
    by_cases heq : other = peerAddr
    · simp [eraseConnector, heq] at hsome
    · simpa [eraseConnector, heq] using hsome
  constructor
  · exact h.holders_le
  · intro other hnone
    by_cases heq : other = peerAddr
    · rw [heq]
      exact hfree
    · exact h.absent other (by simpa [eraseConnector, heq] using hnone)
  · exact fun other connector hentry => h.entry other connector (hsome hentry)
  · exact fun first connector other hentry hother => h.entry_inj first connector other (hsome hentry) (hsome hother)
  · intro connector hmem
    obtain ⟨hentry, hflags⟩ := h.retry connector hmem
    refine ⟨?_, hflags⟩
    have hne : connector.peerAddr ≠ peerAddr := by
      intro heq
      have hpos : 0 < s.timers.countP (Timer.retries peerAddr) :=
        List.countP_pos_iff.mpr ⟨_, hmem, by simp [Timer.retries, heq]⟩
      rw [holders] at hfree
      omega
    simpa [eraseConnector, hne] using hentry
  · exact h.neverConnecting

theorem admission_timer {index : Nat} {errno : Errno} (hledger : s.Ledger) (h : s.Admission)
    (hstep : s.step (.timer index errno) = .ok s') :
    s'.Admission ∧ AdmissionEffect s s' (.timer index errno) := by
  simp only [step] at hstep
  split at hstep
  · rename_i connector htimer
    have hmem : .startInLoop connector ∈ s.timers := List.mem_of_getElem? htimer
    obtain ⟨hentry, hconnect, -⟩ := h.retry connector hmem
    obtain ⟨h₁, hholders₁⟩ := admission_eraseTimer h htimer
    have hheld := hholders₁ connector.peerAddr
    have hle := h.holders_le connector.peerAddr
    simp [Timer.retries] at hheld
    have hledger₁ : ({ s with timers := s.timers.eraseIdx index } : UdpServer Addr).Ledger :=
      hledger.congr (List.Perm.refl _) rfl
    obtain ⟨hadmission, hentries, hholders⟩ :=
      admission_startConnector connector hledger₁ h₁ (by omega) hentry hconnect hstep
    refine ⟨hadmission, .retried connector.peerAddr errno (by simp [attempt, htimer, hconnect])
      (by simp [hentry]) (by omega) hentries ?_⟩
    intro other
    have hother := hholders₁ other
    rw [hholders]
    by_cases heq : other = connector.peerAddr
    · subst heq
      simp [Timer.retries] at hother ⊢
      omega
    · simp [Timer.retries, heq, Ne.symm heq] at hother ⊢
      omega
  · rename_i peerAddr htimer
    cases hstep
    obtain ⟨h₁, hholders₁⟩ := admission_eraseTimer h htimer
    have hheld := hholders₁ peerAddr
    have hle := h.holders_le peerAddr
    simp [Timer.retries] at hheld
    refine ⟨admission_eraseEntry h₁ (by omega), .erased peerAddr (by simp [attempt, htimer]) (by omega) ?_ ?_ ?_⟩
    · simp [eraseConnector]
    · intro other hne
      simp [eraseConnector, hne]
    · intro other
      have hother := hholders₁ other
      change holders ({ s with timers := s.timers.eraseIdx index } : UdpServer Addr) other = _
      by_cases heq : other = peerAddr
      · subst heq
        rw [if_pos rfl]
        omega
      · simp [Timer.retries, Ne.symm heq] at hother
        rw [if_neg heq]
        exact hother.symm
  · cases hstep

theorem admission_step (hledger : s.Ledger) (h : s.Admission) (hstep : s.step i = .ok s') :
    s'.Admission ∧ AdmissionEffect s s' i := by
  cases i with
  | handleRead received errno => exact admission_handleRead hledger h hstep
  | timer index errno => exact admission_timer hledger h hstep
  | functor loop =>
      have hkept := kept_functor hledger h hstep
      exact ⟨hkept.admission h, .kept rfl hkept.entries hkept.holders⟩
  | connection conn i =>
      have hkept := kept_connection hledger h hstep
      exact ⟨hkept.admission h, .kept rfl hkept.entries hkept.holders⟩

theorem admission_new (numThreads : Nat) (writeComplete : Bool) :
    (new numThreads writeComplete : UdpServer Addr).Admission := by
  constructor <;> simp [new, holders, registered, posted, UdpConnector.new]

theorem admission_run {numThreads : Nat} {writeComplete : Bool} {inputs : List (Input Addr)}
    (hrun : Run numThreads writeComplete inputs s) : s.Ledger ∧ s.Admission := by
  have hstep : ∀ (s : UdpServer Addr) i s', s.Ledger ∧ s.Admission → s.step i = .ok s' →
      s'.Ledger ∧ s'.Admission := by
    intro s i s' h hstep
    exact ⟨ledger_step h.1 hstep, (admission_step h.1 h.2 hstep).1⟩
  exact run_invariant hstep ⟨ledger_new numThreads writeComplete, admission_new numThreads writeComplete⟩ hrun

/-! ### Each peer at most once -/

/-- No peer has two registered connections, or a registered connection and a removal of its entry under
way, or two of these; a removal finds the entry; and the entry of a peer with a registered connection
is not about to be erased. -/
structure AdmittedOnce (s : UdpServer Addr) : Prop where
  oneConnection : ∀ conn ∈ s.connections, ∀ other ∈ s.connections, conn.peerAddr = other.peerAddr → conn = other
  oneHolder : ∀ peerAddr, s.registered peerAddr + s.posted 0 (.removeConnector peerAddr) +
    s.timers.count (.eraseConnector peerAddr) ≤ 1
  removing : ∀ loop peerAddr, (loop, .removeConnector peerAddr) ∈ s.pendingFunctors →
    loop = 0 ∧ s.peerAddrToUdpConnectors peerAddr ≠ none
  erasing : ∀ peerAddr, .eraseConnector peerAddr ∈ s.timers → ∀ conn ∈ s.connections, conn.peerAddr ≠ peerAddr

/-- Two elements of a kind of which a list has at most one are the same. -/
theorem eq_of_countP_le_one {α : Type} {l : List α} {p : α → Bool} (hle : l.countP p ≤ 1) {a b : α}
    (ha : a ∈ l) (hb : b ∈ l) (hpa : p a = true) (hpb : p b = true) : a = b := by
  rw [List.countP_eq_length_filter] at hle
  have ha' := List.mem_filter.mpr ⟨ha, hpa⟩
  have hb' := List.mem_filter.mpr ⟨hb, hpb⟩
  match hfilter : l.filter p with
  | [] => simp [hfilter] at ha'
  | [x] =>
      rw [hfilter, List.mem_singleton] at ha' hb'
      exact ha'.trans hb'.symm
  | x :: y :: rest =>
      rw [hfilter] at hle
      exact absurd hle (by simp)

theorem admittedOnce_of_admission (hledger : s.Ledger) (h : s.Admission) : s.AdmittedOnce := by
  constructor
  · intro conn hconn other hother hpeer
    have hle := h.holders_le conn.peerAddr
    rw [holders, registered] at hle
    exact eq_of_countP_le_one (p := fun c => c.peerAddr = conn.peerAddr) (by omega) hconn hother (by simp)
      (by simp [hpeer])
  · intro peerAddr
    have hle := h.holders_le peerAddr
    rw [holders] at hle
    omega
  · intro loop peerAddr hmem
    obtain rfl : loop = 0 := hledger.queued _ hmem
    refine ⟨rfl, fun hnone => ?_⟩
    have hpos : 0 < s.posted 0 (.removeConnector peerAddr) := List.count_pos_iff.mpr hmem
    have hzero := h.absent peerAddr hnone
    rw [holders] at hzero
    omega
  · intro peerAddr hmem conn hconn hpeer
    have hpos : 0 < s.timers.count (.eraseConnector peerAddr) := List.count_pos_iff.mpr hmem
    have hreg : 0 < s.registered peerAddr := List.countP_pos_iff.mpr ⟨conn, hconn, by simp [hpeer]⟩
    have hle := h.holders_le peerAddr
    rw [holders] at hle
    omega

theorem step_ne_connectorFound (hledger : s.Ledger) (h : s.Admission) :
    s.step i ≠ .error (.assertFailed .connectorFound) := by
  intro hstep
  rcases step_error hstep with hinner | ⟨loop, functor, left, -, htake, hrun⟩ | ⟨conn, j, c, -, -, -, -, -, hrun⟩
  · exact absurd hinner (by decide)
  · rcases runFunctor_error hrun with hinner | ⟨conn, -, heq, -⟩ | ⟨peerAddr, rfl, -, hnone⟩
    · exact absurd hinner (by decide)
    · cases heq
    · have hmem : (loop, .removeConnector peerAddr) ∈ s.pendingFunctors :=
        (LoopQueues.takeOldest_perm htake).mem_iff.mp List.mem_cons_self
      exact ((admittedOnce_of_admission hledger h).removing loop peerAddr hmem).2 hnone
  · rcases runFunctor_error hrun with hinner | ⟨conn, -, heq, -⟩ | ⟨peerAddr, heq, -⟩
    · exact absurd hinner (by decide)
    · cases heq
    · cases heq

/-- **Each peer is admitted at most once.** After every sequence of datagrams, `connect(2)` results,
timers, functors and closes, in any order. -/
theorem peers_admitted_once (numThreads : Nat) (writeComplete : Bool) (inputs : List (Input Addr)) :
    (∀ s, Run numThreads writeComplete inputs s → s.AdmittedOnce) ∧
      run step (new numThreads writeComplete) inputs ≠ .error (.assertFailed .connectorFound) := by
  constructor
  · intro s hrun
    obtain ⟨hledger, hadmission⟩ := admission_run hrun
    exact admittedOnce_of_admission hledger hadmission
  · refine run_ne_error_along (fun s => s.Ledger ∧ s.Admission) ?_ ?_ ?_
      (along_of_forall (fun _ _ => trivial) _ inputs)
    · intro s i s' hinv _ hstep
      exact ⟨ledger_step hinv.1 hstep, (admission_step hinv.1 hinv.2 hstep).1⟩
    · intro s i hinv _
      exact step_ne_connectorFound hinv.1 hinv.2
    · exact ⟨ledger_new numThreads writeComplete, admission_new numThreads writeComplete⟩

/-- In the acceptor's own loop: a connection that goes down while it is established, with datagrams of the
same peer before, between and after the removal of its entry. -/
def closedWhileEstablished : List (Input Nat) :=
  let conn : ConnectionPtr Nat := ⟨1, 0, 7⟩
  [.handleRead (some 7) .ok, .connection conn (.updateReturns (-1)), .connection conn .userReturns,
    .connection conn .proceed, .connection conn .userReturns, .handleRead (some 7) .ok, .functor 0,
    .handleRead (some 7) .ok, .functor 0, .connection conn .proceed, .timer 0 .ok, .handleRead (some 7) .ok]

theorem admitted_once_while_established :
    ∃ s : UdpServer Nat, Run 0 false closedWhileEstablished s ∧ s.connections = [⟨2, 0, 7⟩] ∧ s.AdmittedOnce :=
  ⟨_, rfl, by decide, (peers_admitted_once 0 false closedWhileEstablished).1 _ rfl⟩

end Realtinet.UdpServer
