import Realtinet.UdpClient
import Realtinet.UdpConnectionCallbacks
import Realtinet.UdpConnectionChannel

/-! A client has one live connection. While `connection_` is set the connector is in `kConnected`, and
`startInLoop` asserts `kDisconnected`; the state leaves `kConnected` only in `restart`, which
`removeConnection` calls after it has reset `connection_`. So a new connection is made only when every
earlier one has called its `closeCallback_`, which it does after it has gone down. -/

namespace Realtinet

open TransitionSystem

namespace UdpConnection

/-- A connection that has been closed is down, and stays so. -/
def ClosedDown (c : UdpConnection) : Prop := 0 < c.closes → c.state = .kDisconnected

theorem closedDown_step {c c' : UdpConnection} {i : Input} (hinv : c.ClosedDown) (h : step c i = .ok c') :
    c'.ClosedDown := by
  rcases step_closes h with ⟨hcloses, hstate | hup⟩ | ⟨-, hdown, -⟩
  · rw [ClosedDown, hcloses, hstate]
    exact hinv
  · intro hpos
    rw [hcloses] at hpos
    exact absurd (hinv hpos) hup
  · exact fun _ => hdown

theorem disconnected_of_closed {c : UdpConnection} (hinv : c.ClosedDown) (hmem : .closeCallback ∈ c.trace) :
    c.state = .kDisconnected :=
  hinv (Nat.lt_of_lt_of_le (List.count_pos_iff.mpr hmem) (Nat.le_add_right _ _))

theorem closeCallback_mem_step {c c' : UdpConnection} {i : Input} (h : step c i = .ok c')
    (hmem : .closeCallback ∈ c.trace ∨ c.callsClose i = true) : .closeCallback ∈ c'.trace := by
  apply List.count_pos_iff.mp
  rw [step_closeCallback_count h]
  rcases hmem with hmem | hcalls
  · exact Nat.add_pos_left (List.count_pos_iff.mpr hmem) _
  · rw [hcalls]
    exact Nat.succ_pos _

end UdpConnection

namespace UdpClient

variable {s s' : UdpClient} {id : Nat} {i : UdpConnection.Input} {errno : Errno}

theorem stepConnection_eq_ok (hrun : s.stepConnection id i = .ok s') :
    ∃ c, (s.conns id).step i = .ok c ∧ s' = { s with conns := Function.update s.conns id c } := by
  rw [stepConnection] at hrun
  cases hstep : (s.conns id).step i with
  | error e => simp [hstep] at hrun
  | ok c =>
      rw [hstep] at hrun
      cases hrun
      exact ⟨c, rfl, rfl⟩

/-- Only a call of `closeCallback_` brings an input of a connection to the client. -/
theorem connectionInput_cases (hrun : s.connectionInput id i errno = .ok s') :
    ∃ c, (s.conns id).step i = .ok c ∧
      ((s.conns id).callsClose i = false ∧ s' = { s with conns := Function.update s.conns id c } ∨
        (s.conns id).callsClose i = true ∧
          removeConnection id errno { s with conns := Function.update s.conns id c } = .ok s') := by
  rw [connectionInput] at hrun
  cases hstep : s.stepConnection id i with
  | error e => simp [hstep] at hrun
  | ok s₁ =>
      obtain ⟨c, hc, rfl⟩ := stepConnection_eq_ok hstep
      simp only [hstep] at hrun
      refine ⟨c, hc, ?_⟩
      split_ifs at hrun with hcalls
      · exact Or.inr ⟨hcalls, hrun⟩
      · cases hrun
        exact Or.inl ⟨by simpa using hcalls, rfl⟩

/-- `removeConnection` passes its assert only on `connection_`, and then restarts the connector or not. -/
theorem removeConnection_cases (hrun : s.removeConnection id errno = .ok s') :
    s.connection = some id ∧
      ((s.retry && s.connect_) = false ∧ s' = queueInLoop (.connectDestroyed id) { s with connection := none } ∨
        (s.retry && s.connect_) = true ∧
          finish (s.connector.restart errno) (queueInLoop (.connectDestroyed id) { s with connection := none }) = .ok s') := by
  rw [removeConnection] at hrun
  split_ifs at hrun with hcurrent
  refine ⟨hcurrent, ?_⟩
  simp only at hrun
  split_ifs at hrun with hagain
  · exact Or.inr ⟨hagain, hrun⟩
  · cases hrun
    exact Or.inl ⟨Bool.eq_false_iff.mpr hagain, rfl⟩

/-! ### The connections as machines of their own -/

/-- Every connection has the property `P`, and those to come start with the same callbacks. -/
structure EveryConnection (P : UdpConnection → Prop) (writeComplete : Bool) (s : UdpClient) : Prop where
  callback : s.writeCompleteCallback = writeComplete
  conns : ∀ id, P (s.conns id)

section EveryConnection

variable {P : UdpConnection → Prop} {writeComplete : Bool}

theorem EveryConnection.update {c : UdpConnection} (h : s.EveryConnection P writeComplete) (id : Nat) (hc : P c) :
    EveryConnection P writeComplete { s with conns := Function.update s.conns id c } := by
  refine ⟨h.callback, ?_⟩
  apply (Function.forall_update_iff s.conns fun _ c => P c).mpr
  exact ⟨hc, fun other _ => h.conns other⟩

variable (hnew : P (UdpConnection.new writeComplete))
  (howner : ∀ c i c', i = .connectEstablished ∨ i = .call (.other 0) .shutdown →
    P c → UdpConnection.step c i = .ok c' → P c')

include hnew howner

theorem every_perform {effect : ConnectorEffect} (h : s.EveryConnection P writeComplete)
    (hrun : s.perform effect = .ok s') : s'.EveryConnection P writeComplete := by
  cases effect with
  | newConnection =>
      obtain ⟨c, hstep, rfl⟩ := stepConnection_eq_ok hrun
      have h' : s.construct.EveryConnection P writeComplete := by
        have hconstruct := h.update s.nextConnId (h.callback ▸ hnew)
        exact ⟨hconstruct.callback, hconstruct.conns⟩
      exact h'.update s.nextConnId (howner _ _ c (Or.inl rfl) (h'.conns s.nextConnId) hstep)
  | socket =>
      cases hrun
      exact ⟨h.callback, h.conns⟩
  | runAfter delayMs =>
      cases hrun
      exact ⟨h.callback, h.conns⟩
  | resetChannel =>
      cases hrun
      exact ⟨h.callback, h.conns⟩

theorem every_finish {result : Except Halt (UdpConnector × List ConnectorEffect)}
    (h : s.EveryConnection P writeComplete) (hrun : s.finish result = .ok s') :
    s'.EveryConnection P writeComplete := by
  cases result with
  | error e => cases hrun
  | ok result =>
      refine run_invariant (fun _ _ _ h1 h2 => every_perform hnew howner h1 h2) ?_ hrun
      exact ⟨h.callback, h.conns⟩

theorem every_removeConnection (h : s.EveryConnection P writeComplete)
    (hrun : s.removeConnection id errno = .ok s') : s'.EveryConnection P writeComplete := by
  obtain ⟨-, ⟨-, rfl⟩ | ⟨-, hfinish⟩⟩ := removeConnection_cases hrun
  · exact ⟨h.callback, h.conns⟩
  · refine every_finish hnew howner ?_ hfinish
    exact ⟨h.callback, h.conns⟩

theorem every_runFunctor {functor : Functor} (h : s.EveryConnection P writeComplete)
    (hdestroy : ∀ id c', functor = .connectDestroyed id → (s.conns id).step .connectDestroyed = .ok c' → P c')
    (hrun : s.runFunctor functor errno = .ok s') : s'.EveryConnection P writeComplete := by
  cases functor with
  | startInLoop => exact every_finish hnew howner h hrun
  | stopInLoop => exact every_finish hnew howner h hrun
  | resetChannel =>
      cases hrun
      exact ⟨h.callback, h.conns⟩
  | connectDestroyed id =>
      obtain ⟨c, hstep, rfl⟩ := stepConnection_eq_ok hrun
      exact h.update id (hdestroy id c rfl hstep)

/-- **One input of the client**, as the connections see it: the property is kept if the owner's inputs
keep it and the input, should it be one of a connection, does too. -/
theorem every_step {input : Input} (h : s.EveryConnection P writeComplete)
    (hdestroy : ∀ id c', .connectDestroyed id ∈ s.pendingFunctors → (s.conns id).step .connectDestroyed = .ok c' → P c')
    (hinput : ∀ id i errno c', input = .connection id i errno → (s.conns id).step i = .ok c' → P c')
    (hstep : s.step input = .ok s') : s'.EveryConnection P writeComplete := by
  cases input with
  | connect inLoop errno =>
      cases inLoop with
      | true =>
          refine every_finish hnew howner ?_ hstep
          exact ⟨h.callback, h.conns⟩
      | false =>
          cases hstep
          exact ⟨h.callback, h.conns⟩
  | disconnect =>
      cases hstep
      rw [disconnect]
      split
      · rename_i id hid
        have h' := h.update id (howner (s.conns id) _ _ (Or.inr rfl) (h.conns id) rfl)
        exact ⟨h'.callback, h'.conns⟩
      · exact ⟨h.callback, h.conns⟩
  | stop =>
      cases hstep
      exact ⟨h.callback, h.conns⟩
  | enableRetry =>
      cases hstep
      exact ⟨h.callback, h.conns⟩
  | timer index errno =>
      simp only [step] at hstep
      split_ifs at hstep
      refine every_finish hnew howner ?_ hstep
      exact ⟨h.callback, h.conns⟩
  | functor errno =>
      simp only [step] at hstep
      split at hstep
      · rename_i functor rest hqueue
        have h' : EveryConnection P writeComplete { s with pendingFunctors := rest } := ⟨h.callback, h.conns⟩
        refine every_runFunctor hnew howner h' ?_ hstep
        rintro id c' rfl hc
        exact hdestroy id c' (by simp [hqueue]) hc
      · cases hstep
  | connection id i errno =>
      simp only [step] at hstep
      split_ifs at hstep
      obtain ⟨c, hc, ⟨-, rfl⟩ | ⟨-, hremove⟩⟩ := connectionInput_cases hstep
      · exact h.update id (hinput id i errno c rfl hc)
      · exact every_removeConnection hnew howner (h.update id (hinput id i errno c rfl hc)) hremove

end EveryConnection

/-! ### The live connection -/

/-- Every connection that has not yet called its `closeCallback_` is `connection_`, and while there is a
`connection_` the connector is connected. -/
structure Single (s : UdpClient) : Prop where
  positive : 0 < s.nextConnId
  current : ∀ id, s.connection = some id → s.Created id ∧ s.connector.state = .kConnected
  unclosed : ∀ id, s.Created id → .closeCallback ∉ (s.conns id).trace → s.connection = some id
  closedDown : ∀ id, s.Created id → (s.conns id).ClosedDown
  neverConnecting : s.connector.state ≠ .kConnecting

/-- What a single connection is about: `connection_`, the state of the connector, the connections. -/
def tied (s : UdpClient) := (s.nextConnId, s.connection, s.connector.state, s.conns)

/-- The queue, the timers, the flags and the count of attempts do not matter. -/
theorem Single.congr (h : s.Single) (htied : s'.tied = s.tied) : s'.Single := by
  simp only [tied, Prod.mk.injEq] at htied
  obtain ⟨hnext, hconnection, hstate, hconns⟩ := htied
  have hcreated : ∀ id, s'.Created id ↔ s.Created id := fun id => by rw [Created, Created, hnext]
  constructor
  · rw [hnext]
    exact h.positive
  · intro id hid
    rw [hconnection] at hid
    rw [hcreated, hstate]
    exact h.current id hid
  · intro id hid
    rw [hconns, hconnection]
    exact h.unclosed id ((hcreated id).mp hid)
  · intro id hid
    rw [hconns]
    exact h.closedDown id ((hcreated id).mp hid)
  · rw [hstate]
    exact h.neverConnecting

theorem single_update {c : UdpConnection} (h : s.Single)
    (hmem : .closeCallback ∈ (s.conns id).trace → .closeCallback ∈ c.trace)
    (hdown : (s.conns id).ClosedDown → c.ClosedDown) :
    ({ s with conns := Function.update s.conns id c } : UdpClient).Single := by
  refine ⟨h.positive, h.current, ?_, ?_, h.neverConnecting⟩
  · intro other hcreated hopen
    by_cases heq : other = id
    · subst heq
      refine h.unclosed other hcreated fun hclosed => hopen ?_
      simpa using hmem hclosed
    · exact h.unclosed other hcreated (by simpa [heq] using hopen)
  · intro other hcreated
    by_cases heq : other = id
    · subst heq
      simpa using hdown (h.closedDown other hcreated)
    · simpa [heq] using h.closedDown other hcreated

/-- Any input of a connection, its owner's included. -/
theorem single_input {c : UdpConnection} (h : s.Single) (hstep : (s.conns id).step i = .ok c) :
    ({ s with conns := Function.update s.conns id c } : UdpClient).Single :=
  single_update h (fun hmem => UdpConnection.closeCallback_mem_step hstep (Or.inl hmem))
    fun hdown => UdpConnection.closedDown_step hdown hstep

theorem single_stepConnection (h : s.Single) (hrun : s.stepConnection id i = .ok s') : s'.Single := by
  obtain ⟨c, hstep, rfl⟩ := stepConnection_eq_ok hrun
  exact single_input h hstep

/-- A connection is constructed when every earlier one is closed. -/
theorem single_construct (h : s.Single) (hnone : s.connection = none) (hstate : s.connector.state = .kConnected) :
    s.construct.Single := by
  have hold : ∀ id, s.construct.Created id → id ≠ s.nextConnId → s.Created id := by
    rintro id ⟨hpos, hlt⟩ hne
    have hlt' : id < s.nextConnId + 1 := hlt
    exact ⟨hpos, by omega⟩
  constructor
  · exact Nat.succ_pos _
  · intro id hid
    obtain rfl : s.nextConnId = id := Option.some.inj hid
    exact ⟨⟨h.positive, Nat.lt_succ_self _⟩, hstate⟩
  · intro id hid hopen
    by_cases heq : id = s.nextConnId
    · rw [heq]
      rfl
    · have hcurrent := h.unclosed id (hold id hid heq) (by simpa [construct, heq] using hopen)
      rw [hnone] at hcurrent
      cases hcurrent
  · intro id hid
    by_cases heq : id = s.nextConnId
    · simp [construct, heq, UdpConnection.ClosedDown, UdpConnection.new, UdpConnection.closes,
        UdpConnection.closesOwed]
    · simpa [construct, heq] using h.closedDown id (hold id hid heq)
  · simp [construct, hstate]

theorem single_newConnection (h : s.Single) (hnone : s.connection = none)
    (hstate : s.connector.state = .kConnected) (hrun : s.newConnection = .ok s') : s'.Single :=
  single_stepConnection (single_construct h hnone hstate) hrun

/-- **Starting the connector** when there is no `connection_`. -/
theorem single_startInLoop {c : UdpConnector} (h : s.Single) (hnone : s.connection = none)
    (hrun : s.finish (c.startInLoop errno) = .ok s') : s'.Single := by
  cases hstart : c.startInLoop errno with
  | error e => simp [finish, hstart] at hrun
  | ok result =>
      obtain ⟨c', effects⟩ := result
      rw [hstart] at hrun
      change run perform { s with connector := c' } effects = .ok s' at hrun
      have h' : ({ s with connector := c' } : UdpClient).Single :=
        ⟨h.positive, fun id hid => absurd (hnone.symm.trans hid) (by simp), h.unclosed, h.closedDown,
          UdpConnector.startInLoop_not_connecting hstart⟩
      obtain ⟨-, hcases⟩ := UdpConnector.startInLoop_cases hstart
      rcases hcases with ⟨-, -, rfl⟩ | ⟨-, -, hc', rfl⟩ | ⟨-, -, -, -, rfl⟩ | ⟨-, -, -, rfl⟩
      · cases hrun
        exact h'
      · obtain ⟨t, hsocket, hrun'⟩ := run_cons_eq_ok.mp hrun
        cases hsocket
        rw [run_singleton] at hrun'
        have hstate : c'.state = .kConnected := by rw [hc']
        have hopened : ({ s with connector := c', attempts := s.attempts + 1 } : UdpClient).Single :=
          h'.congr rfl
        exact single_newConnection hopened hnone hstate hrun'
      · cases hrun
        exact h'.congr rfl
      · cases hrun
        exact h'.congr rfl

/-- `startInLoop` passes its assert only when there is no `connection_`. -/
theorem connection_eq_none {c : UdpConnector} (h : s.Single) (hstate : c.state = s.connector.state)
    {t : UdpClient} (hrun : t.finish (c.startInLoop errno) = .ok s') : s.connection = none := by
  by_contra hsome
  obtain ⟨id, hid⟩ := Option.ne_none_iff_exists'.mp hsome
  rw [UdpConnector.startInLoop, hstate, (h.current id hid).2] at hrun
  cases hrun

theorem single_removeConnection (h : s.Single) (hclosed : .closeCallback ∈ (s.conns id).trace)
    (hrun : s.removeConnection id errno = .ok s') : s'.Single := by
  obtain ⟨hcurrent, hcases⟩ := removeConnection_cases hrun
  have h' : (queueInLoop (.connectDestroyed id) { s with connection := none }).Single := by
    refine ⟨h.positive, (fun other hother => nomatch hother), ?_, h.closedDown, h.neverConnecting⟩
    intro other hcreated hopen
    have hother := h.unclosed other hcreated hopen
    rw [hcurrent] at hother
    cases hother
    exact absurd hclosed hopen
  rcases hcases with ⟨-, rfl⟩ | ⟨-, hfinish⟩
  · exact h'
  · exact single_startInLoop h' rfl hfinish

theorem single_connectionInput (h : s.Single) (hrun : s.connectionInput id i errno = .ok s') : s'.Single := by
  obtain ⟨c, hc, ⟨-, rfl⟩ | ⟨hcalls, hremove⟩⟩ := connectionInput_cases hrun
  · exact single_input h hc
  · refine single_removeConnection (single_input h hc) ?_ hremove
    simpa using UdpConnection.closeCallback_mem_step hc (Or.inr hcalls)

theorem single_runFunctor {functor : Functor} (h : s.Single) (hrun : s.runFunctor functor errno = .ok s') :
    s'.Single := by
  cases functor with
  | startInLoop => exact single_startInLoop h (connection_eq_none h rfl hrun) hrun
  | stopInLoop =>
      rw [runFunctor, UdpConnector.stopInLoop, if_neg h.neverConnecting] at hrun
      cases hrun
      exact h
  | resetChannel =>
      cases hrun
      exact h.congr rfl
  | connectDestroyed id => exact single_stepConnection h hrun

theorem single_step {input : Input} (h : s.Single) (hstep : s.step input = .ok s') : s'.Single := by
  cases input with
  | connect inLoop errno =>
      have h' : ({ s with connect_ := true, connector := s.connector.start } : UdpClient).Single :=
        h.congr rfl
      cases inLoop with
      | true =>
          have hnone := connection_eq_none h' rfl hstep
          exact single_startInLoop h' hnone hstep
      | false =>
          cases hstep
          exact h'.congr rfl
  | disconnect =>
      cases hstep
      rw [disconnect]
      split
      · rename_i id hid
        have hcall : (s.conns id).step (.call (.other 0) .shutdown) = .ok (s.conns id).shutdown := rfl
        exact (single_input h hcall).congr rfl
      · exact h.congr rfl
  | stop =>
      cases hstep
      exact h.congr rfl
  | enableRetry =>
      cases hstep
      exact h.congr rfl
  | timer index errno =>
      simp only [step] at hstep
      split_ifs at hstep
      have h' : ({ s with timers := s.timers.eraseIdx index } : UdpClient).Single := h.congr rfl
      exact single_startInLoop h' (connection_eq_none h' rfl hstep) hstep
  | functor errno =>
      simp only [step] at hstep
      split at hstep
      · refine single_runFunctor ?_ hstep
        exact h.congr rfl
      · cases hstep
  | connection id i errno =>
      simp only [step] at hstep
      split_ifs at hstep
      exact single_connectionInput h hstep

theorem single_new (writeComplete : Bool) : (new writeComplete).Single := by
  have hnone : ∀ id, ¬(new writeComplete).Created id := by
    rintro id ⟨hpos, hlt⟩
    have hlt' : id < 1 := hlt
    omega
  constructor
  · exact Nat.one_pos
  · exact fun id hid => nomatch hid
  · exact fun id hid => absurd hid (hnone id)
  · exact fun id hid => absurd hid (hnone id)
  · simp [new, UdpConnector.new]

/-! ### Connections that are given up -/

/-- `s'` differs from `s` by nothing that concerns a connection made before, or one to be destroyed. -/
structure Untouched (s s' : UdpClient) : Prop where
  queue : ∀ id, .connectDestroyed id ∈ s'.pendingFunctors → .connectDestroyed id ∈ s.pendingFunctors
  conns : ∀ id, s.Created id → s'.Created id ∧ s'.conns id = s.conns id

theorem Untouched.trans {t : UdpClient} (h : Untouched s t) (h' : Untouched t s') : Untouched s s' := by
  refine ⟨fun id hmem => h.queue id (h'.queue id hmem), fun id hcreated => ?_⟩
  obtain ⟨hcreated', hsame⟩ := h.conns id hcreated
  obtain ⟨hcreated'', hsame'⟩ := h'.conns id hcreated'
  exact ⟨hcreated'', hsame'.trans hsame⟩

/-- `connectDestroyed` is queued only for connections that are down. -/
def DestroysDown (s : UdpClient) : Prop :=
  ∀ id, .connectDestroyed id ∈ s.pendingFunctors → s.Created id ∧ (s.conns id).state = .kDisconnected

theorem DestroysDown.untouched (h : s.DestroysDown) (hsame : Untouched s s') : s'.DestroysDown := by
  intro id hmem
  obtain ⟨hcreated, hdown⟩ := h id (hsame.queue id hmem)
  obtain ⟨hcreated', hconn⟩ := hsame.conns id hcreated
  exact ⟨hcreated', by rwa [hconn]⟩

theorem DestroysDown.update {c : UdpConnection} (h : s.DestroysDown) (hstep : (s.conns id).step i = .ok c) :
    DestroysDown { s with conns := Function.update s.conns id c } := by
  intro other hmem
  obtain ⟨hcreated, hdown⟩ := h other hmem
  refine ⟨hcreated, ?_⟩
  by_cases hother : other = id
  · subst hother
    simpa using UdpConnection.step_disconnected hstep hdown
  · simpa [hother] using hdown

/-- A connection calls its `closeCallback_` only if it has not done so before. -/
def ClosesOnce (s : UdpClient) : Input → Prop
  | .connection id i _ => (s.conns id).callsClose i = true → .closeCallback ∉ (s.conns id).trace
  | _ => True

instance closesOnceDecidable (s : UdpClient) : ∀ input : Input, Decidable (s.ClosesOnce input)
  | .connection id i _ =>
      inferInstanceAs (Decidable ((s.conns id).callsClose i = true → .closeCallback ∉ (s.conns id).trace))
  | .connect _ _ | .disconnect | .stop | .enableRetry | .timer _ _ | .functor _ => .isTrue trivial

theorem asserts_of_stepConnection {a : Assertion} (h : s.stepConnection id i = .error (.assertFailed a)) :
    UdpConnection.asserts a = true := by
  rw [stepConnection] at h
  split at h
  · cases h
  · rename_i e hstep
    cases h
    exact UdpConnection.asserts_of_step hstep

/-- What can go wrong when a connector's function is carried out: its own assert, or one inside the new
connection. -/
theorem finish_error {result : Except Halt (UdpConnector × List ConnectorEffect)} {a : Assertion}
    (h : s.finish result = .error (.assertFailed a)) :
    result = .error (.assertFailed a) ∨ UdpConnection.asserts a = true := by
  cases result with
  | error e =>
      cases h
      exact Or.inl rfl
  | ok result =>
      obtain ⟨t, effect, -, hperform⟩ := exists_of_run_eq_error h
      cases effect with
      | socket => cases hperform
      | newConnection => exact Or.inr (asserts_of_stepConnection hperform)
      | runAfter delayMs => cases hperform
      | resetChannel => cases hperform

/-- `startInLoop` has one assert of its own. -/
theorem startInLoop_error {c : UdpConnector} {a : Assertion}
    (h : s.finish (c.startInLoop errno) = .error (.assertFailed a)) :
    a = .connectorDisconnected ∧ c.state ≠ .kDisconnected ∨ UdpConnection.asserts a = true := by
  refine (finish_error h).imp_left fun hresult => ?_
  obtain ⟨hstate, heq⟩ := UdpConnector.startInLoop_eq_error_iff.mp hresult
  cases heq
  exact ⟨rfl, hstate⟩

theorem removeConnection_error {a : Assertion} (h : s.removeConnection id errno = .error (.assertFailed a)) :
    a = .connectionIsCurrent ∧ s.connection ≠ some id ∨ UdpConnection.asserts a = true := by
  rw [removeConnection] at h
  split_ifs at h with hcurrent
  · simp only at h
    split_ifs at h
    rcases startInLoop_error h with ⟨-, hstate⟩ | hinner
    · exact absurd rfl hstate
    · exact Or.inr hinner
  · cases h
    exact Or.inl ⟨rfl, hcurrent⟩

/-- The asserts an input can fail: one inside a connection; that of `startInLoop`, for an input that may
come to it; that of `removeConnection`, for an input that closes a connection. -/
theorem step_error {input : Input} {a : Assertion} (hnever : s.connector.state ≠ .kConnecting)
    (hstep : s.step input = .error (.assertFailed a)) :
    UdpConnection.asserts a = true ∨
      (a = .connectorDisconnected ∧ s.connector.state ≠ .kDisconnected ∧
        ((∃ errno, input = .connect true errno) ∨ s.timers ≠ [] ∨ .startInLoop ∈ s.pendingFunctors)) ∨
      ∃ id i errno, input = .connection id i errno ∧ a = .connectionIsCurrent ∧ s.Created id ∧
        (s.conns id).callsClose i = true ∧ s.connection ≠ some id := by
  cases input with
  | connect inLoop errno =>
      cases inLoop with
      | true =>
          rcases startInLoop_error hstep with ⟨rfl, hstate⟩ | hinner
          · exact Or.inr (Or.inl ⟨rfl, hstate, Or.inl ⟨errno, rfl⟩⟩)
          · exact Or.inl hinner
      | false => cases hstep
  | disconnect => cases hstep
  | stop => cases hstep
  | enableRetry => cases hstep
  | timer index errno =>
      simp only [step] at hstep
      split_ifs at hstep with hlt
      · have htimers : s.timers ≠ [] := List.ne_nil_of_length_pos (by omega)
        rcases startInLoop_error hstep with ⟨rfl, hstate⟩ | hinner
        · exact Or.inr (Or.inl ⟨rfl, hstate, Or.inr (Or.inl htimers)⟩)
        · exact Or.inl hinner
      · cases hstep
  | functor errno =>
      simp only [step] at hstep
      split at hstep
      · rename_i functor rest hqueue
        cases functor with
        | startInLoop =>
            have hmem : .startInLoop ∈ s.pendingFunctors := by simp [hqueue]
            rcases startInLoop_error hstep with ⟨rfl, hstate⟩ | hinner
            · exact Or.inr (Or.inl ⟨rfl, hstate, Or.inr (Or.inr hmem)⟩)
            · exact Or.inl hinner
        | stopInLoop =>
            rw [runFunctor, UdpConnector.stopInLoop, if_neg hnever] at hstep
            cases hstep
        | resetChannel => cases hstep
        | connectDestroyed id => exact Or.inl (asserts_of_stepConnection hstep)
      · cases hstep
  | connection id i errno =>
      simp only [step] at hstep
      split_ifs at hstep with henabled
      · rw [connectionInput] at hstep
        cases hrun : s.stepConnection id i with
        | error e =>
            rw [hrun] at hstep
            cases hstep
            exact Or.inl (asserts_of_stepConnection hrun)
        | ok s₁ =>
            obtain ⟨c, -, rfl⟩ := stepConnection_eq_ok hrun
            simp only [hrun] at hstep
            split_ifs at hstep with hcalls
            rcases removeConnection_error hstep with ⟨rfl, hne⟩ | hinner
            · exact Or.inr (Or.inr ⟨id, i, errno, rfl, rfl, henabled.1, hcalls, hne⟩)
            · exact Or.inl hinner
      · cases hstep

theorem step_ne_connectionIsCurrent {input : Input} (h : s.Single) (honce : s.ClosesOnce input) :
    s.step input ≠ .error (.assertFailed .connectionIsCurrent) := by
  intro hstep
  rcases step_error h.neverConnecting hstep with hinner | ⟨heq, -⟩ | ⟨id, i, errno, rfl, -, hcreated, hcalls, hne⟩
  · exact absurd hinner (by decide)
  · cases heq
  · exact hne (h.unclosed id hcreated (honce hcalls))

/-- **A client has a single live connection.** In every run, a connection of the client that is not in
`kDisconnected` is `connection_`, and so there are never two. If no connection calls its
`closeCallback_` a second time, the assert of `removeConnection` never fails. -/
theorem single_live_connection (writeComplete : Bool) (inputs : List Input) :
    (∀ s, Run writeComplete inputs s → ∀ id, s.Created id → (s.conns id).state ≠ .kDisconnected →
      s.connection = some id ∧
        ∀ other, s.Created other → (s.conns other).state ≠ .kDisconnected → other = id) ∧
      (Along step ClosesOnce (new writeComplete) inputs →
        run step (new writeComplete) inputs ≠ .error (.assertFailed .connectionIsCurrent)) := by
  constructor
  · intro s hrun id hcreated hup
    have h : s.Single := run_invariant (fun _ _ _ h1 h2 => single_step h1 h2) (single_new writeComplete) hrun
    have hcurrent : ∀ id, s.Created id → (s.conns id).state ≠ .kDisconnected → s.connection = some id := by
      intro id hcreated hup
      refine h.unclosed id hcreated fun hclosed => hup ?_
      exact UdpConnection.disconnected_of_closed (h.closedDown id hcreated) hclosed
    refine ⟨hcurrent id hcreated hup, ?_⟩
    intro other hother hup'
    have hsame := hcurrent id hcreated hup
    rw [hcurrent other hother hup'] at hsame
    exact Option.some.inj hsame
  · intro honce
    exact run_ne_error_along Single (fun _ _ _ h1 _ h2 => single_step h1 h2)
      (fun _ _ h1 h2 => step_ne_connectionIsCurrent h1 h2) (single_new writeComplete) honce

/-- With retry enabled: the session goes down inside the first `Update`, and the next connection is made
while the first one is still inside its `handleClose`. -/
def closedWhileEstablishing : List Input :=
  [.enableRetry, .connect true .ok, .connection 1 (.updateReturns (-1)) .ok, .connection 1 .userReturns .ok,
    .connection 1 .proceed .ok, .connection 2 (.updateReturns 10) .ok, .connection 1 .userReturns .ok,
    .functor .ok, .connection 1 .proceed .ok]

theorem single_live_after_reconnect :
    run step (new false) closedWhileEstablishing ≠ .error (.assertFailed .connectionIsCurrent) ∧
      ∃ s, Run false closedWhileEstablishing s ∧ s.connection = some 2 ∧ (s.conns 1).state = .kDisconnected := by
  obtain ⟨hlive, hassert⟩ := single_live_connection false closedWhileEstablishing
  obtain ⟨s, hrun, hcreated, hup, hdown⟩ : ∃ s, Run false closedWhileEstablishing s ∧ s.Created 2 ∧
      (s.conns 2).state ≠ .kDisconnected ∧ (s.conns 1).state = .kDisconnected :=
    ⟨_, rfl, by decide, by decide, by decide⟩
  exact ⟨hassert (by decide), s, hrun, (hlive s hrun 2 hcreated hup).1, hdown⟩

/-! ### Connections that are closed only while they are up -/

/-- No close cause reaches a connection of the client that is already disconnected. -/
def ClosedOnlyWhileUp (s : UdpClient) : Input → Prop
  | .connection id i _ => (s.conns id).ClosedOnlyWhileUp i
  | _ => True

theorem everyClosedOnce_step {input : Input} {writeComplete : Bool}
    (h : s.EveryConnection UdpConnection.ClosedOnce writeComplete) (hguard : s.ClosedOnlyWhileUp input)
    (hstep : s.step input = .ok s') : s'.EveryConnection UdpConnection.ClosedOnce writeComplete := by
  refine every_step (UdpConnection.closedOnce_new writeComplete) ?_ h ?_ ?_ hstep
  · -- what the owner runs is no close cause
    rintro c j c' (rfl | rfl) hinv hc
    · exact UdpConnection.closedOnce_step hinv (fun _ => rfl) hc
    · exact UdpConnection.closedOnce_step hinv (fun _ => rfl) hc
  · intro id c' _ hc
    exact UdpConnection.closedOnce_step (h.conns id) (fun _ => rfl) hc
  · rintro id j errno c' rfl hc
    exact UdpConnection.closedOnce_step (h.conns id) hguard hc

theorem closesOnce_of_everyClosedOnce {writeComplete : Bool} (input : Input)
    (h : s.EveryConnection UdpConnection.ClosedOnce writeComplete) : s.ClosesOnce input := by
  cases input with
  | connection id i errno =>
      intro hcalls
      exact List.count_eq_zero.mp ((h.conns id).count_of_callsClose hcalls)
  | connect inLoop errno => trivial
  | disconnect => trivial
  | stop => trivial
  | enableRetry => trivial
  | timer index errno => trivial
  | functor errno => trivial

/-- **The assert of `removeConnection`**, in terms of what happens to the connections: it never fails in
a run in which close causes reach only connections that are up. -/
theorem ne_connectionIsCurrent_of_closedOnlyWhileUp {writeComplete : Bool} {inputs : List Input}
    (hguard : Along step ClosedOnlyWhileUp (new writeComplete) inputs) :
    run step (new writeComplete) inputs ≠ .error (.assertFailed .connectionIsCurrent) := by
  refine run_ne_error_along (fun s => s.Single ∧ s.EveryConnection UdpConnection.ClosedOnce writeComplete)
    ?_ ?_ ?_ hguard
  · intro s input s' hinv hi hstep
    exact ⟨single_step hinv.1 hstep, everyClosedOnce_step hinv.2 hi hstep⟩
  · intro s input hinv _
    exact step_ne_connectionIsCurrent hinv.1 (closesOnce_of_everyClosedOnce input hinv.2)
  · exact ⟨single_new writeComplete, rfl, fun _ => UdpConnection.closedOnce_new writeComplete⟩

end UdpClient
end Realtinet
