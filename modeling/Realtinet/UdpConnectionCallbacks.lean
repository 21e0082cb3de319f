import Realtinet.UdpConnectionOutput

/-! The order of a connection's callbacks over whole runs: how often `closeCallback_` is called, and
whether data is delivered after the user has been told that the connection is down. `handleClose` does
not look at `state_`, and neither does the loop of `handleRead`, so both depend on what reaches a
connection that is already disconnected. -/

namespace Realtinet.UdpConnection

open TransitionSystem

variable {c c' : UdpConnection} {i : Input}

/-- A connection that is down stays down. -/
theorem step_disconnected (h : step c i = .ok c') (hdown : c.state = .kDisconnected) :
    c'.state = .kDisconnected := by
  cases step_effect h with
  | silent hstate => exact hstate.trans hdown
  | disconnecting hbefore =>
      rw [hdown] at hbefore
      exact absurd hbefore (by decide)
  | record e hneutral hstate => exact hstate.trans hdown
  | established hinput hbefore =>
      rw [hdown] at hbefore
      exact absurd hbefore (by decide)
  | message n buf hinput hn hstate => exact hstate.trans hdown
  | close hcause hstarted hstate => exact hstate
  | closed hstate => exact hstate.trans hdown
  | destroyed hinput hbefore hstate => exact hstate

/-! ### Calls of `closeCallback_` -/

/-- The calls of `closeCallback_` made so far and still owed: one for every `handleClose`. -/
def closes (c : UdpConnection) : Nat := c.trace.count .closeCallback + c.closesOwed

/-- No close cause reaches a connection that is already disconnected. -/
def ClosedOnlyWhileUp (c : UdpConnection) (i : Input) : Prop :=
  c.state = .kDisconnected → c.closeCause i = false

instance closedOnlyWhileUpDecidable (c : UdpConnection) (i : Input) : Decidable (c.ClosedOnlyWhileUp i) :=
  inferInstanceAs (Decidable (c.state = .kDisconnected → c.closeCause i = false))

theorem step_closes (h : step c i = .ok c') :
    c'.closes = c.closes ∧ (c'.state = c.state ∨ c.state ≠ .kDisconnected) ∨
      c'.closes = c.closes + 1 ∧ c'.state = .kDisconnected ∧
        (c.closeCause i = true ∨ c.state ≠ .kDisconnected) := by
  cases step_effect h with
  | silent hstate htrace howed => exact Or.inl ⟨by rw [closes, htrace, howed, closes], Or.inl hstate⟩
  | disconnecting hbefore hstate htrace howed =>
      refine Or.inl ⟨by rw [closes, htrace, howed, closes], Or.inr ?_⟩
      rcases hbefore with hbefore | hbefore <;> simp [hbefore]
  | record e hneutral hstate htrace howed =>
      refine Or.inl ⟨?_, Or.inl hstate⟩
      have hne : e ≠ .closeCallback := fun he => by simp [he, Neutral] at hneutral
      rw [closes, htrace, howed, List.count_cons_of_ne hne, closes]
  | established hinput hbefore hstate htrace howed =>
      refine Or.inl ⟨?_, Or.inr (by simp [hbefore])⟩
      rw [closes, htrace, howed, List.count_cons_of_ne (by decide), closes]
  | message n buf hinput hn hstate htrace howed =>
      refine Or.inl ⟨?_, Or.inl hstate⟩
      rw [closes, htrace, howed, List.count_cons_of_ne (by decide), closes]
  | close hcause hstarted hstate htrace howed =>
      refine Or.inr ⟨?_, hstate, hcause.imp_right fun hbefore => ?_⟩
      · rw [closes, htrace, howed, List.count_cons_of_ne (by decide), closes, Nat.add_assoc]
      · rcases hbefore with hbefore | hbefore <;> simp [hbefore]
  | closed hstate htrace howed =>
      refine Or.inl ⟨?_, Or.inl hstate⟩
      rw [closes, closes, htrace, howed, List.count_cons_self]
      omega
  | destroyed hinput hbefore hstate htrace howed =>
      refine Or.inl ⟨?_, Or.inr (by simp [hbefore])⟩
      rw [closes, htrace, howed, List.count_cons_of_ne (by decide), closes]

theorem closes_handleClose {base : UdpConnection} (h : base.handleClose = .ok c') : c'.closes = base.closes + 1 := by
  obtain ⟨channel, -, rfl⟩ := handleClose_eq_ok h
  simp only [callConnectionCallback, closes, closesOwed]
  rw [List.count_cons_of_ne (by decide), List.count_cons_of_ne (by decide), List.count_cons_self,
    Nat.add_assoc]

/-- A frame other than that of `handleClose` is left. -/
theorem closes_pop {frame : Frame} {rest : List Frame} (hstack : c.stack = frame :: rest)
    (hframe : frame ≠ .closeCallback) :
    closes { c with stack := rest } = c.closes := by
  simp only [closes, closesOwed]
  rw [hstack, List.count_cons_of_ne hframe]

/-- An accepted close cause always enters `handleClose`, with the calls as they were. -/
theorem handleClose_of_closeCause (hstep : step c i = .ok c') (hcause : c.closeCause i = true) :
    ∃ base : UdpConnection, base.handleClose = .ok c' ∧ base.closes = c.closes := by
  cases step_outcome hstep with
  | hangsUp hstack h => exact ⟨_, h, closes_pop hstack (by decide)⟩
  | errorCallback hstack h =>
      rw [handleError, if_pos (by simpa [closeCause] using hcause)] at h
      exact ⟨_, h, closes_pop hstack (by decide)⟩
  | @doSend len nwrote soError hturn h =>
      obtain ⟨hneg, hne⟩ : nwrote < 0 ∧ soError ≠ 0 := by simpa [closeCause] using hcause
      rw [doSend, if_neg (by omega), handleError, if_pos hne] at h
      exact ⟨c, h, rfl⟩
  | @doRecv n soError rest hstack h =>
      have hn : n = 0 ∨ n < 0 ∧ soError ≠ 0 := by simpa [closeCause] using hcause
      rw [doRecv] at h
      split_ifs at h with hzero hneg
      · exact ⟨c, h, rfl⟩
      · rw [handleError, if_pos (hn.resolve_left hzero).2] at h
        exact ⟨c, h, rfl⟩
      · omega
  | kcpConnection hturn h =>
      rw [onKcpsessConnection, if_neg (by simpa [closeCause] using hcause)] at h
      exact ⟨c, h, rfl⟩
  | updateReturns hstack h =>
      rw [kcpUpdated, if_pos (by simpa [closeCause] using hcause)] at h
      exact ⟨_, h, closes_pop hstack (by decide)⟩
  | eventReturns hstack | reads hstack | callsClose hstack | removes hstack => simp [closeCause, hstack] at hcause
  | _ => simp [closeCause] at hcause

theorem handleClose_of_entersClose (hstep : step c i = .ok c') (henters : c.entersClose i = true) :
    ∃ base : UdpConnection, base.handleClose = .ok c' ∧ base.closes = c.closes := by
  rcases Bool.or_eq_true_iff.mp henters with hcause | hforce
  · exact handleClose_of_closeCause hstep hcause
  · obtain ⟨⟨rfl, hhead⟩, hup⟩ : (i = .functor ∧ c.pendingFunctors.head? = some .forceCloseInLoop) ∧
        (c.state = .kConnected ∨ c.state = .kDisconnecting) := by
      simpa [forceClosing] using hforce
    cases step_outcome hstep with
    | functor hidle hinactive hqueue h =>
        rw [hqueue, List.head?_cons, Option.some.injEq] at hhead
        rw [hhead, runFunctor, forceCloseInLoop, if_pos hup] at h
        exact ⟨_, h, rfl⟩

theorem closes_of_entersClose (h : step c i = .ok c') (henters : c.entersClose i = true) :
    c'.closes = c.closes + 1 := by
  obtain ⟨base, hclose, hcloses⟩ := handleClose_of_entersClose h henters
  rw [closes_handleClose hclose, hcloses]

/-- `connectDestroyed` takes down a connection that is up, and calls nothing of a closed one. -/
theorem step_connectDestroyed (hstep : step c .connectDestroyed = .ok c') :
    (c.state = .kConnected → c'.state = .kDisconnected) ∧ (c.state ≠ .kConnected → c'.state = c.state) ∧
      c'.closesOwed = c.closesOwed := by
  cases step_outcome hstep with
  | destroyed hturn h =>
      rcases connectDestroyed_eq_ok h with ⟨hup, rfl⟩ | ⟨hup, channel, -, rfl⟩
      · exact ⟨fun hstate => absurd hstate hup, fun _ => rfl, by simp [closesOwed]⟩
      · exact ⟨fun _ => rfl, fun hstate => absurd hup hstate, by simp [closesOwed, callConnectionCallback]⟩

/-- What `handleClose` leaves behind. -/
theorem step_of_entersClose (h : step c i = .ok c') (henters : c.entersClose i = true) :
    c'.state = .kDisconnected ∧ c'.trace = .connectionCallback .kDisconnected :: c.trace ∧
      c'.closesOwed = c.closesOwed + 1 := by
  have hcloses := closes_of_entersClose h henters
  unfold closes at hcloses
  cases step_effect h with
  | silent hstate htrace howed =>
      rw [htrace, howed] at hcloses
      omega
  | disconnecting hbefore hstate htrace howed =>
      rw [htrace, howed] at hcloses
      omega
  | record e hneutral hstate htrace howed =>
      have hne : e ≠ .closeCallback := fun he => by simp [he, Neutral] at hneutral
      rw [htrace, howed, List.count_cons_of_ne hne] at hcloses
      omega
  | established hinput hbefore hstate htrace howed =>
      rw [htrace, howed, List.count_cons_of_ne (by decide)] at hcloses
      omega
  | message n buf hinput hn hstate htrace howed =>
      rw [htrace, howed, List.count_cons_of_ne (by decide)] at hcloses
      omega
  | close hcause hstarted hstate htrace howed => exact ⟨hstate, htrace, howed⟩
  | closed hstate htrace howed =>
      rw [htrace, List.count_cons_self] at hcloses
      omega
  | destroyed hinput hbefore hstate htrace howed =>
      rw [htrace, howed, List.count_cons_of_ne (by decide)] at hcloses
      omega

/-- `handleClose` and `connectDestroyed` are the only ways down. -/
theorem step_down_iff (h : step c i = .ok c') (hup : c.state ≠ .kDisconnected) :
    c'.state = .kDisconnected ↔ c.entersClose i = true ∨ i = .connectDestroyed ∧ c.state = .kConnected := by
  constructor
  · intro hdown
    by_contra hno
    obtain ⟨hno, hdestroyed⟩ := not_or.mp hno
    by_cases hi : i = .connectDestroyed
    · subst hi
      have hstate : c.state ≠ .kConnected := fun hstate => hdestroyed ⟨rfl, hstate⟩
      exact hup ((step_connectDestroyed h).2.1 hstate ▸ hdown)
    · exact step_up h hup (by simpa using hno) hi hdown
  · rintro (henters | ⟨rfl, hstate⟩)
    · exact (step_of_entersClose h henters).1
    · exact (step_connectDestroyed h).1 hstate

/-- No call of `closeCallback_` comes to be owed but by `handleClose`. -/
theorem closesOwed_le (h : step c i = .ok c') (hno : c.entersClose i = false) : c'.closesOwed ≤ c.closesOwed := by
  cases step_effect h with
  | close hcause hstarted hstate htrace howed =>
      exfalso
      by_cases hi : i = .connectDestroyed
      · subst hi
        rw [(step_connectDestroyed h).2.2] at howed
        omega
      · have hup : c.state ≠ .kDisconnected := by
          intro hdown
          have hnot : c.closeCause i = false := (Bool.or_eq_false_iff.mp hno).1
          simp [hnot, hdown] at hcause
        exact step_up h hup hno hi hstate
  | closed hstate htrace howed => omega
  | silent hstate htrace howed => exact Nat.le_of_eq howed
  | disconnecting hbefore hstate htrace howed => exact Nat.le_of_eq howed
  | record e hneutral hstate htrace howed => exact Nat.le_of_eq howed
  | established hinput hbefore hstate htrace howed => exact Nat.le_of_eq howed
  | message n buf hinput hn hstate htrace howed => exact Nat.le_of_eq howed
  | destroyed hinput hbefore hstate htrace howed => exact Nat.le_of_eq howed

/-- Under the guard `handleClose` is entered only by a connection that is up. -/
theorem ClosedOnlyWhileUp.up (hguard : c.ClosedOnlyWhileUp i)
    (hcause : c.closeCause i = true ∨ c.state ≠ .kDisconnected) : c.state ≠ .kDisconnected := by
  rcases hcause with hcause | hup
  · intro hdown
    rw [hguard hdown] at hcause
    exact absurd hcause (by decide)
  · exact hup

/-- At most one `handleClose`, and none while the connection is up. -/
def ClosedOnce (c : UdpConnection) : Prop :=
  c.closes ≤ 1 ∧ (c.state ≠ .kDisconnected → c.closes = 0)

theorem closedOnce_step (hinv : c.ClosedOnce) (hguard : c.ClosedOnlyWhileUp i) (h : step c i = .ok c') :
    c'.ClosedOnce := by
  rcases step_closes h with ⟨hcloses, hstate | hup⟩ | ⟨hcloses, hdown, hcause⟩
  · rw [ClosedOnce, hcloses, hstate]
    exact hinv
  · rw [ClosedOnce, hcloses, hinv.2 hup]
    exact ⟨Nat.zero_le 1, fun _ => rfl⟩
  · have hzero := hinv.2 (hguard.up hcause)
    exact ⟨by omega, fun hne => absurd hdown hne⟩

theorem ClosedOnce.count_le (hinv : c.ClosedOnce) : c.trace.count .closeCallback ≤ 1 :=
  Nat.le_trans (Nat.le_add_right _ _) hinv.1

/-- The one call is still owed when it is about to be made. -/
theorem ClosedOnce.count_of_callsClose (hinv : c.ClosedOnce) (hcalls : c.callsClose i = true) :
    c.trace.count .closeCallback = 0 := by
  obtain ⟨rest, hstack⟩ : ∃ rest, c.stack = .closeCallback :: rest := by
    simp only [callsClose, Bool.and_eq_true, beq_iff_eq] at hcalls
    exact List.head?_eq_some_iff.mp hcalls.2
  have hle := hinv.1
  rw [closes, closesOwed, hstack, List.count_cons_self] at hle
  omega

theorem closedOnce_new (writeComplete : Bool) : (new writeComplete).ClosedOnce := by
  simp [ClosedOnce, new, closes, closesOwed]

/-- Until the owner destroys the connection, it is down exactly when it has been closed. -/
def DownIffClosed (c : UdpConnection) : Prop := c.state = .kDisconnected ↔ 0 < c.closes

theorem downIffClosed_step (hinv : c.DownIffClosed) (hnot : i ≠ .connectDestroyed) (h : step c i = .ok c') :
    c'.DownIffClosed := by
  have hdisc : c.state ≠ .kDisconnected → c'.closes = c.closes → c'.state ≠ .kDisconnected := by
    intro hup hcloses
    cases step_effect h with
    | silent hstate => rwa [hstate]
    | disconnecting hbefore hstate => simp [hstate]
    | record e hneutral hstate => rwa [hstate]
    | established hinput hbefore hstate => simp [hstate]
    | message n buf hinput hn hstate => rwa [hstate]
    | close hcause hstarted hstate htrace howed =>
        rw [closes, htrace, howed, List.count_cons_of_ne (by decide), closes] at hcloses
        omega
    | closed hstate => rwa [hstate]
    | destroyed hinput => exact absurd hinput hnot
  rcases step_closes h with ⟨hcloses, hstate | hup⟩ | ⟨hcloses, hdown, -⟩
  · rw [DownIffClosed, hcloses, hstate]
    exact hinv
  · have hzero : ¬0 < c.closes := fun hpos => hup (hinv.mpr hpos)
    rw [DownIffClosed, hcloses]
    exact ⟨fun hdown => absurd hdown (hdisc hup hcloses), fun hpos => absurd hpos hzero⟩
  · rw [DownIffClosed, hcloses]
    exact ⟨fun _ => Nat.succ_pos _, fun _ => hdown⟩

theorem closes_le_one_iff (hinv : c.DownIffClosed) (hle : c.closes ≤ 1) (h : step c i = .ok c') :
    c'.closes ≤ 1 ↔ c.ClosedOnlyWhileUp i := by
  constructor
  · intro hle' hdown
    have hpos : 0 < c.closes := hinv.mp hdown
    by_contra hcause
    have henters : c.entersClose i = true := Bool.or_eq_true_iff.mpr (Or.inl (by simpa using hcause))
    have hcloses := closes_of_entersClose h henters
    omega
  · intro hguard
    rcases step_closes h with ⟨hcloses, -⟩ | ⟨hcloses, -, hcause⟩
    · omega
    · have hzero : ¬0 < c.closes := fun hpos => hguard.up hcause (hinv.mpr hpos)
      omega

/-- **How often `closeCallback_` is called.** In every run in which no close cause reaches the
connection while `state_` is already `kDisconnected`, it is called at most once. Conversely, until the
owner destroys the connection, a run that is back in the event loop and has called it at most once is
of this kind. -/
theorem closeCallback_at_most_once (writeComplete : Bool) (inputs : List Input) (c : UdpConnection)
    (hrun : Run writeComplete inputs c) :
    (Along step ClosedOnlyWhileUp (new writeComplete) inputs → c.trace.count .closeCallback ≤ 1) ∧
      (.connectDestroyed ∉ inputs → c.stack = [] → c.trace.count .closeCallback ≤ 1 →
        Along step ClosedOnlyWhileUp (new writeComplete) inputs) := by
  constructor
  · intro halong
    have hinv : c.ClosedOnce := run_invariant_along (fun _ _ _ h1 h2 h3 => closedOnce_step h1 h2 h3)
      (closedOnce_new writeComplete) halong hrun
    exact hinv.count_le
  · intro hnot hempty hle
    have hQ : Along step (fun _ i => i ≠ .connectDestroyed) (new writeComplete) inputs :=
      along_of_mem (fun i hi => ne_of_mem_of_not_mem hi hnot) _
    refine (good_iff_along DownIffClosed (fun c => c.closes ≤ 1)
      (fun _ _ _ h1 h2 h3 => downIffClosed_step h1 h2 h3) (fun _ _ _ h1 _ h2 h3 => closes_le_one_iff h1 h2 h3) ?_ ?_ ?_ hQ hrun).mp ?_
    · intro s j s' _ hbad hstep
      rcases step_closes hstep with ⟨hcloses, -⟩ | ⟨hcloses, -⟩ <;> omega
    · simp [DownIffClosed, new, closes, closesOwed]
    · simp [new, closes, closesOwed]
    · simpa [closes, closesOwed, hempty] using hle

/-- A connection is established; one poll reports an error and readable data together; the error
closes the connection, and the read that follows meets an empty datagram. -/
def errorThenEmptyRead : List Input :=
  [.connectEstablished, .updateReturns 10, .poll { pollIn := true, pollErr := true }, .handleEvent,
    .errorCallback 111, .userReturns, .proceed, .userReturns, .proceed, .doRecv 0 0, .userReturns, .proceed]

theorem closeCallback_twice :
    ¬∀ (writeComplete : Bool) (inputs : List Input) (c : UdpConnection), Run writeComplete inputs c →
      c.trace.count .closeCallback ≤ 1 := by
  intro h
  have hle := h false errorThenEmptyRead _ rfl
  exact absurd hle (by decide)

/-- The same connection when the error comes without data. -/
def errorAlone : List Input :=
  [.connectEstablished, .updateReturns 10, .poll { pollErr := true }, .handleEvent, .errorCallback 111,
    .userReturns, .proceed, .userReturns]

theorem closeCallback_errorAlone :
    ∃ c, Run false errorAlone c ∧ .closeCallback ∈ c.trace ∧ c.trace.count .closeCallback ≤ 1 :=
  ⟨_, rfl, by decide, (closeCallback_at_most_once false errorAlone _ rfl).1 (by decide)⟩

/-! ### Data after the connection is down -/

/-- Some data was delivered after the user had been told that the connection is down (the trace has
the newest call first). -/
def DataAfterDown (trace : List Event) : Prop :=
  ∃ later earlier, trace = later ++ .connectionCallback .kDisconnected :: earlier ∧ .messageCallback ∈ later

/-- A trace that has an entry newer than `x` with the property `P`, one entry later. -/
theorem newer_cons {P : Event → Prop} {x e : Event} {trace : List Event} :
    (∃ later earlier, e :: trace = later ++ x :: earlier ∧ ∃ a ∈ later, P a) ↔
      (∃ later earlier, trace = later ++ x :: earlier ∧ ∃ a ∈ later, P a) ∨ P e ∧ x ∈ trace := by
  constructor
  · rintro ⟨later, earlier, htrace, a, hmem, ha⟩
    cases later with
    | nil => simp at hmem
    | cons first later =>
        obtain ⟨rfl, rfl⟩ := List.cons_eq_cons.mp htrace
        rcases List.mem_cons.mp hmem with rfl | hmem
        · exact Or.inr ⟨ha, by simp⟩
        · exact Or.inl ⟨later, earlier, rfl, a, hmem, ha⟩
  · rintro (⟨later, earlier, rfl, a, hmem, ha⟩ | ⟨he, hmem⟩)
    · exact ⟨e :: later, earlier, rfl, a, List.mem_cons_of_mem _ hmem, ha⟩
    · obtain ⟨later, earlier, rfl⟩ := List.append_of_mem hmem
      exact ⟨e :: later, earlier, rfl, e, List.mem_cons_self, he⟩

theorem dataAfterDown_cons {e : Event} {trace : List Event} :
    DataAfterDown (e :: trace) ↔
      DataAfterDown trace ∨ e = .messageCallback ∧ .connectionCallback .kDisconnected ∈ trace := by
  have hnewer := @newer_cons (· = .messageCallback) (.connectionCallback .kDisconnected) e trace
  simp only [exists_eq_right] at hnewer
  exact hnewer

/-- `KcpSession::Recv` returns true with some data. -/
def deliversData : Input → Bool
  | .recvReturns ok n _ => ok && decide (0 < n)
  | _ => false

/-- `KcpSession::Recv` hands over no data while the connection is disconnected. -/
def DataOnlyWhileUp (c : UdpConnection) (i : Input) : Prop :=
  deliversData i = true → c.state ≠ .kDisconnected

instance dataOnlyWhileUpDecidable (c : UdpConnection) (i : Input) : Decidable (c.DataOnlyWhileUp i) :=
  inferInstanceAs (Decidable (deliversData i = true → c.state ≠ .kDisconnected))

/-- `state_` is `kDisconnected` exactly from the first connection callback made in that state on. -/
def DownIffTold (c : UdpConnection) : Prop :=
  c.state = .kDisconnected ↔ .connectionCallback .kDisconnected ∈ c.trace

theorem downIffTold_step (hinv : c.DownIffTold) (h : step c i = .ok c') : c'.DownIffTold := by
  rw [DownIffTold] at hinv ⊢
  cases step_effect h with
  | silent hstate htrace => rwa [hstate, htrace]
  | disconnecting hbefore hstate htrace =>
      have hup : c.state ≠ .kDisconnected := by rcases hbefore with hbefore | hbefore <;> simp [hbefore]
      rw [hstate, htrace, ← hinv]
      exact ⟨fun hdown => absurd hdown (by decide), fun hdown => absurd hdown hup⟩
  | record e hneutral hstate htrace =>
      rw [hstate, htrace, List.mem_cons, ← hinv]
      refine ⟨Or.inr, fun hor => hor.elim (fun he => ?_) id⟩
      rw [← he] at hneutral
      exact hneutral.symm
  | established hinput hbefore hstate htrace =>
      rw [hstate, htrace, List.mem_cons, ← hinv, hbefore]
      decide
  | message n buf hinput hn hstate htrace =>
      rw [hstate, htrace, List.mem_cons, hinv]
      exact ⟨Or.inr, fun hor => hor.resolve_left (by decide)⟩
  | close hcause hstarted hstate htrace =>
      rw [hstate, htrace]
      exact ⟨fun _ => List.mem_cons_self, fun _ => rfl⟩
  | closed hstate htrace =>
      rw [hstate, htrace, List.mem_cons, hinv]
      exact ⟨Or.inr, fun hor => hor.resolve_left (by decide)⟩
  | destroyed hinput hbefore hstate htrace =>
      rw [hstate, htrace]
      exact ⟨fun _ => List.mem_cons_self, fun _ => rfl⟩

theorem trace_of_deliversData (h : step c i = .ok c') (hdata : deliversData i = true) :
    c'.trace = .messageCallback :: c.trace := by
  cases i with
  | recvReturns ok n buf =>
      obtain ⟨rfl, hn⟩ : ok = true ∧ 0 < n := by simpa [deliversData] using hdata
      simp only [step] at h
      split_ifs at h
      cases h
      rw [kcpReceived, if_neg (by simp), if_neg (by omega), if_pos hn]
  | _ => simp [deliversData] at hdata

/-- Without data from `Recv` the trace is kept, or grows by something else than a message. -/
theorem trace_of_not_deliversData (h : step c i = .ok c') (hdata : deliversData i = false) :
    c'.trace = c.trace ∨ ∃ e, c'.trace = e :: c.trace ∧ e ≠ .messageCallback := by
  cases step_effect h with
  | silent hstate htrace => exact Or.inl htrace
  | disconnecting hbefore hstate htrace => exact Or.inl htrace
  | record e hneutral hstate htrace =>
      refine Or.inr ⟨e, htrace, fun he => ?_⟩
      rw [he] at hneutral
      exact hneutral
  | established hinput hbefore hstate htrace => exact Or.inr ⟨_, htrace, by decide⟩
  | message n buf hinput hn hstate htrace => simp [hinput, deliversData, hn] at hdata
  | close hcause hstarted hstate htrace => exact Or.inr ⟨_, htrace, by decide⟩
  | closed hstate htrace => exact Or.inr ⟨_, htrace, by decide⟩
  | destroyed hinput hbefore hstate htrace => exact Or.inr ⟨_, htrace, by decide⟩

theorem dataAfterDown_step (hinv : c.DownIffTold) (h : step c i = .ok c') :
    DataAfterDown c'.trace ↔ DataAfterDown c.trace ∨ ¬c.DataOnlyWhileUp i := by
  rw [DownIffTold] at hinv
  cases hdata : deliversData i with
  | true =>
      rw [trace_of_deliversData h hdata, dataAfterDown_cons, ← hinv]
      simp [DataOnlyWhileUp, hdata]
  | false =>
      have hguard : c.DataOnlyWhileUp i := fun htrue => by simp [hdata] at htrue
      rcases trace_of_not_deliversData h hdata with htrace | ⟨e, htrace, he⟩
      · simp [htrace, hguard]
      · simp [htrace, dataAfterDown_cons, he, hguard]

/-- **When no data follows DOWN.** Over every run, no message callback comes after a connection
callback made in `kDisconnected` if and only if `Recv` never hands over data while `state_` is
`kDisconnected`. -/
theorem no_data_after_down_iff (writeComplete : Bool) (inputs : List Input) (c : UdpConnection)
    (hrun : Run writeComplete inputs c) :
    ¬DataAfterDown c.trace ↔ Along step DataOnlyWhileUp (new writeComplete) inputs := by
  refine good_iff_along DownIffTold (fun c => ¬DataAfterDown c.trace)
    (fun _ _ _ h1 _ h2 => downIffTold_step h1 h2) ?_ ?_ ?_ ?_
    (along_of_forall (fun _ _ => trivial) _ _) hrun
  · intro s j s' hinv _ hgood hstep
    rw [dataAfterDown_step hinv hstep, not_or, not_not]
    exact and_iff_right hgood
  · intro s j s' hinv hbad hstep
    rw [dataAfterDown_step hinv hstep, not_not]
    exact Or.inl (not_not.mp hbad)
  · simp [DownIffTold, new]
  · rintro ⟨later, earlier, htrace, -⟩
    simp [new] at htrace

/-- The error closes the connection, and the read that belongs to the same event still delivers what
the session has received. -/
def errorThenData : List Input :=
  [.connectEstablished, .updateReturns 10, .poll { pollIn := true, pollErr := true }, .handleEvent,
    .errorCallback 111, .userReturns, .proceed, .userReturns, .proceed, .doRecv 5 0,
    .recvReturns true 5 [104, 101, 108, 108, 111]]

theorem data_after_down :
    ¬∀ (writeComplete : Bool) (inputs : List Input) (c : UdpConnection), Run writeComplete inputs c →
      ¬DataAfterDown c.trace := by
  intro h
  exact h false errorThenData _ rfl
    ⟨[.messageCallback, .closeCallback], [.runAt 0, .kcpUpdate], by decide, by decide⟩

/-- Data first, and the session going down in the next round of the same loop. -/
def dataThenDown : List Input :=
  [.connectEstablished, .updateReturns 10, .poll { pollIn := true }, .handleEvent, .proceed, .doRecv 5 0,
    .recvReturns true 5 [104, 101, 108, 108, 111], .userReturns, .kcpConnection false]

theorem no_data_after_down_dataThenDown :
    ∃ c, Run false dataThenDown c ∧ c.state = .kDisconnected ∧ ¬DataAfterDown c.trace :=
  ⟨_, rfl, rfl, (no_data_after_down_iff false dataThenDown _ rfl).mpr (by decide)⟩

end Realtinet.UdpConnection
