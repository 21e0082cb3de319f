import Realtinet.UdpConnectionCallbacks

/-! What user code sees of a connection's life: the calls of `connectionCallback_`, each labelled with
`connected()`. The first call is driven by the handshake of the session, the label by `state_`, which
`shutdown`, errors and the owner change on their own; `handleClose` and `connectDestroyed` call it whether or
not the handshake was ever completed. -/

namespace Realtinet.UdpConnection

open TransitionSystem

variable {c c' : UdpConnection} {i : Input}

def Event.callback? : Event → Option StateE
  | .connectionCallback state => some state
  | _ => none

/-- `state_` at each call of `connectionCallback_`, in their order. -/
def callbacks (c : UdpConnection) : List StateE := c.trace.reverse.filterMap Event.callback?

/-- `connected()` at each of these calls. -/
def labels (c : UdpConnection) : List Bool := c.callbacks.map (· == .kConnected)

/-- The state in which an input calls `connectionCallback_`, if it does. -/
def callsBack (c : UdpConnection) (i : Input) : Option StateE :=
  if c.entersClose i then some .kDisconnected
  else
    match i with
    | .kcpConnection _ => some c.state
    | .connectDestroyed => if c.state = .kConnected then some .kDisconnected else none
    | _ => none

theorem callbacks_cons {e : Event} (h : c'.trace = e :: c.trace) : c'.callbacks = c.callbacks ++ e.callback?.toList := by
  rw [callbacks, h, List.reverse_cons, List.filterMap_append, callbacks]
  cases e <;> simp [Event.callback?]

theorem callback?_emits (c : UdpConnection) (i : Input) : (c.emits i).bind Event.callback? = c.callsBack i := by
  unfold emits callsBack
  by_cases henters : c.entersClose i = true
  · rw [if_pos henters, if_pos henters]
    rfl
  · rw [if_neg henters, if_neg henters]
    cases i with
    | connectDestroyed =>
        dsimp only
        split_ifs <;> rfl
    | functor =>
        rcases c.pendingFunctors with _ | ⟨f, rest⟩
        · rfl
        · cases f with
          | sendInLoop caller message mode =>
              simp only [List.head?_cons, Option.bind_some, functorEmits]
              split_ifs <;> rfl
          | _ => rfl
    | call caller api =>
        cases caller with
        | loop =>
            cases api with
            | send message mode =>
                dsimp only
                split_ifs <;> rfl
            | _ => rfl
        | other id => rfl
    | proceed =>
        dsimp only
        split_ifs <;> rfl
    | recvReturns ok n buf =>
        dsimp only
        split_ifs <;> rfl
    | _ => rfl

theorem step_callbacks (h : step c i = .ok c') : c'.callbacks = c.callbacks ++ (c.callsBack i).toList := by
  rw [← callback?_emits]
  have htrace := (step_output h).trace
  cases hemits : c.emits i with
  | none =>
      rw [hemits] at htrace
      simp [callbacks, htrace]
  | some e =>
      rw [hemits] at htrace
      exact callbacks_cons htrace

/-! ### UP, then DOWN -/

/-- What the session reports through its connection callback. -/
def report? : Input → Option Bool
  | .kcpConnection isConnected => some isConnected
  | _ => none

/-- The session reports `connected` at most once, then `disconnected` at most once. -/
def SessionReports (inputs : List Input) : Prop := inputs.filterMap report? <+: [true, false]

instance sessionReportsDecidable (inputs : List Input) : Decidable (SessionReports inputs) :=
  inferInstanceAs (Decidable (_ <+: _))

/-- User code sees nothing, UP, or UP and then DOWN. -/
def UpThenDown (c : UdpConnection) : Prop := c.labels <+: [true, false]

/-- User code has been told UP. -/
def toldUp (c : UdpConnection) : Bool := c.callbacks.contains .kConnected

/-- The session reports `connected` only while `state_` is `kConnected`; the connection is closed or destroyed only
after that report, and not closed again. -/
def ClosedOnceUp (before : List Input) (c : UdpConnection) (i : Input) : Prop :=
  (i = .kcpConnection true → c.state = .kConnected) ∧
  (c.entersClose i = true → .kcpConnection true ∈ before ∧ c.state ≠ .kDisconnected) ∧
  (i = .connectDestroyed → c.state = .kConnected → .kcpConnection true ∈ before)

instance closedOnceUpDecidable (before : List Input) (c : UdpConnection) (i : Input) :
    Decidable (ClosedOnceUp before c i) :=
  inferInstanceAs (Decidable (_ ∧ _ ∧ _))

/-- The same, by what user code has been told. -/
def ClosedOnceTold (c : UdpConnection) (i : Input) : Prop :=
  (i = .kcpConnection true → c.state = .kConnected) ∧
  (c.entersClose i = true → c.toldUp = true ∧ c.state ≠ .kDisconnected) ∧
  (i = .connectDestroyed → c.state = .kConnected → c.toldUp = true)

theorem labels_step (h : step c i = .ok c') :
    c'.labels = c.labels ++ ((c.callsBack i).map (· == .kConnected)).toList := by
  rw [labels, step_callbacks h, List.map_append, labels]
  cases c.callsBack i <;> rfl

theorem toldUp_iff : c.toldUp = true ↔ true ∈ c.labels := by
  simp [toldUp, labels]

/-- The lists of labels that user code may see. -/
theorem upThenDown_iff : c.UpThenDown ↔ c.labels = [] ∨ c.labels = [true] ∨ c.labels = [true, false] := by
  unfold UpThenDown
  constructor
  · rintro ⟨rest, hrest⟩
    rcases hlabels : c.labels with _ | ⟨a, _ | ⟨b, _ | ⟨d, more⟩⟩⟩ <;> simp_all
  · rintro (h | h | h) <;> rw [h] <;> decide

/-- The session does not report `connected` to user code that has been told UP. -/
def ReportsOnce (c : UdpConnection) (i : Input) : Prop := i = .kcpConnection true → c.toldUp = false

/-- The ways to a call of `connectionCallback_`. -/
theorem callsBack_cases (h : step c i = .ok c') (hcalls : c.callsBack i ≠ none) :
    c.entersClose i = true ∧ c.callsBack i = some .kDisconnected ∧ c'.state = .kDisconnected ∨
      i = .kcpConnection true ∧ c.entersClose i = false ∧ c.callsBack i = some c.state ∨
      i = .connectDestroyed ∧ c.entersClose i = false ∧ c.state = .kConnected ∧
        c.callsBack i = some .kDisconnected ∧ c'.state = .kDisconnected := by
  by_cases henters : c.entersClose i = true
  · refine Or.inl ⟨henters, ?_, (step_of_entersClose h henters).1⟩
    unfold callsBack
    rw [if_pos henters]
  · have hno : c.entersClose i = false := by simpa using henters
    apply Or.inr
    unfold callsBack at hcalls ⊢
    rw [if_neg henters] at hcalls ⊢
    split at hcalls
    · rename_i isConnected
      have htrue : isConnected = true := by
        simpa [closeCause] using (Bool.or_eq_false_iff.mp hno).1
      subst htrue
      exact Or.inl ⟨rfl, hno, rfl⟩
    · split_ifs at hcalls with hstate
      · have hdown := (step_down_iff h (by simp [hstate])).mpr (Or.inr ⟨rfl, hstate⟩)
        exact Or.inr ⟨rfl, hno, hstate, by simp [hstate], hdown⟩
      · exact absurd rfl hcalls
    · exact absurd rfl hcalls

theorem toldUp_step (h : step c i = .ok c') (htold : c'.toldUp = true) : c.toldUp = true ∨ i = .kcpConnection true := by
  rw [toldUp_iff, labels_step h, List.mem_append] at htold
  rcases htold with htold | htold
  · exact Or.inl (toldUp_iff.mpr htold)
  · have hne : c.callsBack i ≠ none := by
      intro hnone
      simp [hnone] at htold
    rcases callsBack_cases h hne with ⟨-, hcalls, -⟩ | ⟨hi, -⟩ | ⟨-, -, -, hcalls, -⟩
    · simp [hcalls] at htold
    · exact Or.inr hi
    · simp [hcalls] at htold

/-- A second `connected` fits no list of reports that the session may make. -/
theorem not_prefix_of_mem {reports rest : List Bool} (hmem : true ∈ reports) :
    ¬reports ++ true :: rest <+: [true, false] := by
  rintro ⟨more, hmore⟩
  rcases reports with _ | ⟨a, _ | ⟨b, reports⟩⟩
  · simp at hmem
  · simp at hmore
  · have hlen := congrArg List.length hmore
    simp at hlen

theorem along_reportsOnce {s : UdpConnection} {before inputs : List Input}
    (htold : s.toldUp = true → true ∈ before.filterMap report?) (hreports : SessionReports (before ++ inputs)) :
    Along step ReportsOnce s inputs := by
  induction inputs generalizing s before with
  | nil => trivial
  | cons i inputs ih =>
      have hsplit : before ++ i :: inputs = (before ++ [i]) ++ inputs := by simp
      refine ⟨?_, fun s' hstep => ih ?_ (hsplit ▸ hreports)⟩
      · rintro rfl
        by_contra hup
        have hmem := htold (by simpa using hup)
        unfold SessionReports at hreports
        rw [List.filterMap_append, List.filterMap_cons_some (show report? (.kcpConnection true) = some true from rfl)] at hreports
        exact not_prefix_of_mem hmem hreports
      · intro htold'
        rw [List.filterMap_append, List.mem_append]
        rcases toldUp_step hstep htold' with hbefore | rfl
        · exact Or.inl (htold hbefore)
        · exact Or.inr (by decide)

/-- After UP and DOWN the connection is down, and before DOWN it is not. -/
structure LabelInv (c : UdpConnection) : Prop where
  downIffTold : c.DownIffTold
  downAfter : c.labels = [true, false] → c.state = .kDisconnected

theorem LabelInv.up (hinv : c.LabelInv) (hlabels : false ∉ c.labels) : c.state ≠ .kDisconnected := by
  intro hdown
  have hmem : .connectionCallback .kDisconnected ∈ c.trace := hinv.downIffTold.mp hdown
  have hcallback : StateE.kDisconnected ∈ c.callbacks :=
    List.mem_filterMap.mpr ⟨_, List.mem_reverse.mpr hmem, rfl⟩
  exact hlabels (List.mem_map.mpr ⟨_, hcallback, rfl⟩)

theorem labelInv_step (hinv : c.LabelInv) (honce : c.ReportsOnce i) (h : step c i = .ok c') : c'.LabelInv := by
  refine ⟨downIffTold_step hinv.downIffTold h, fun hlabels => ?_⟩
  rw [labels_step h] at hlabels
  cases hcalls : c.callsBack i with
  | none =>
      rw [hcalls] at hlabels
      exact step_disconnected h (hinv.downAfter (by simpa using hlabels))
  | some state =>
      have hbefore : c.labels = [true] := by
        rw [hcalls] at hlabels
        exact (List.append_inj' (show c.labels ++ _ = [true] ++ [false] from hlabels) rfl).1
      rcases callsBack_cases h (by simp [hcalls]) with ⟨-, -, hdown⟩ | ⟨hi, -⟩ | ⟨-, -, -, -, hdown⟩
      · exact hdown
      · have htold : c.toldUp = true := toldUp_iff.mpr (by simp [hbefore])
        rw [honce hi] at htold
        exact absurd htold (by decide)
      · exact hdown

/-- The condition, read off the way in which the callback is called. -/
theorem closedOnceTold_iff (h : step c i = .ok c') :
    c.ClosedOnceTold i ↔
      (c.callsBack i = none ∨ i = .kcpConnection true ∧ c.state = .kConnected ∨
        i ≠ .kcpConnection true ∧ c.toldUp = true ∧ c.state ≠ .kDisconnected) := by
  by_cases hcalls : c.callsBack i = none
  · refine iff_of_true ?_ (Or.inl hcalls)
    unfold callsBack at hcalls
    refine ⟨?_, ?_, ?_⟩
    · rintro rfl
      split_ifs at hcalls
    · intro henters
      rw [if_pos henters] at hcalls
      exact absurd hcalls (by simp)
    · rintro rfl hstate
      simp [hstate] at hcalls
  · unfold ClosedOnceTold
    rcases callsBack_cases h hcalls with ⟨henters, -⟩ | ⟨rfl, hno, -⟩ | ⟨rfl, hno, hstate, -⟩
    · have hi : i ≠ .kcpConnection true := by
        rintro rfl
        simp [entersClose, closeCause, forceClosing] at henters
      have hcb : c.callsBack i ≠ none := hcalls
      have hdestroyed : i ≠ .connectDestroyed := by
        rintro rfl
        simp [entersClose, closeCause, forceClosing] at henters
      simp [hi, henters, hcb, hdestroyed]
    · simp [hno, hcalls]
    · simp [hno, hcalls, hstate]

/-- DOWN is told in order exactly to user code that has been told UP and not yet DOWN. -/
theorem down_in_order (hinv : c.LabelInv) (hgood : c.UpThenDown) :
    c.labels ++ [false] <+: [true, false] ↔ c.toldUp = true ∧ c.state ≠ .kDisconnected := by
  rw [toldUp_iff]
  rcases upThenDown_iff.mp hgood with hlabels | hlabels | hlabels
  · rw [hlabels]
    apply iff_of_false (by decide)
    rintro ⟨hmem, -⟩
    exact absurd hmem (by decide)
  · have hup : c.state ≠ .kDisconnected := hinv.up (by simp [hlabels])
    rw [hlabels]
    exact iff_of_true (by decide) ⟨by decide, hup⟩
  · have hdown := hinv.downAfter hlabels
    rw [hlabels]
    exact iff_of_false (by decide) fun hup => hup.2 hdown

theorem upThenDown_step (hinv : c.LabelInv) (honce : c.ReportsOnce i) (hgood : c.UpThenDown) (h : step c i = .ok c') :
    c'.UpThenDown ↔ c.ClosedOnceTold i := by
  rw [closedOnceTold_iff h, UpThenDown, labels_step h]
  cases hcalls : c.callsBack i with
  | none =>
      rw [Option.map_none, Option.toList_none, List.append_nil]
      exact iff_of_true hgood (Or.inl rfl)
  | some state =>
      -- which list comes out depends on what has been told before and on the way to the callback
      rcases callsBack_cases h (by simp [hcalls]) with
        ⟨henters, hstate, -⟩ | ⟨rfl, hno, hstate⟩ | ⟨rfl, hno, hconnected, hstate, -⟩
      · have hi : i ≠ .kcpConnection true := by
          rintro rfl
          simp [entersClose, closeCause, forceClosing] at henters
        obtain rfl : state = .kDisconnected := Option.some.inj (hcalls.symm.trans hstate)
        apply Iff.trans (down_in_order hinv hgood)
        simp [hi]
      · obtain rfl : state = c.state := Option.some.inj (hcalls.symm.trans hstate)
        have hempty : c.labels = [] := by
          have hnot : true ∉ c.labels := fun hmem => by
            have htold := honce rfl
            rw [toldUp_iff.mpr hmem] at htold
            exact absurd htold (by decide)
          rcases upThenDown_iff.mp hgood with hlabels | hlabels | hlabels
          · exact hlabels
          · exact absurd (by simp [hlabels]) hnot
          · exact absurd (by simp [hlabels]) hnot
        rw [hempty]
        cases c.state <;> simp
      · obtain rfl : state = .kDisconnected := Option.some.inj (hcalls.symm.trans hstate)
        apply Iff.trans (down_in_order hinv hgood)
        simp [hconnected]

/-- A report of `connected` in `kConnected` tells user code UP. -/
theorem toldUp_connected (hstate : c.state = .kConnected) (h : step c (.kcpConnection true) = .ok c') :
    c'.toldUp = true := by
  have hcalls : c.callsBack (.kcpConnection true) = some .kConnected := by
    simp [callsBack, entersClose, closeCause, forceClosing, hstate]
  rw [toldUp_iff, labels_step h, hcalls]
  simp

/-- As long as the reports come in `kConnected`, user code has been told UP exactly after the report. -/
theorem alongAfter_closedOnceUp (inputs : List Input)
    (hnew : c.toldUp = true ↔ .kcpConnection true ∈ ([] : List Input)) :
    AlongAfter step ClosedOnceUp [] c inputs ↔ Along step ClosedOnceTold c inputs := by
  refine alongAfter_iff_along (fun before s => s.toldUp = true ↔ .kcpConnection true ∈ before) ?_ ?_ hnew
  · intro before s j htold
    rw [ClosedOnceUp, ClosedOnceTold, htold]
  · intro before s j s' htold hclosed hstep
    rw [List.mem_append, List.mem_singleton]
    constructor
    · intro htold'
      rcases toldUp_step hstep htold' with hbefore | rfl
      · exact Or.inl (htold.mp hbefore)
      · exact Or.inr rfl
    · rintro (hbefore | rfl)
      · have hkept : true ∈ s.labels := toldUp_iff.mp (htold.mpr hbefore)
        rw [toldUp_iff, labels_step hstep]
        exact List.mem_append_left _ hkept
      · exact toldUp_connected (hclosed.1 rfl) hstep

/-- **When user code sees UP and then DOWN.** In every run in which the session reports `connected` at most once
and `disconnected` at most once after it, the labels of the connection callbacks are a prefix of UP, DOWN if and
only if the session reports `connected` while `state_` is `kConnected`, the connection is closed or destroyed only
after that report, and it is not closed again. -/
theorem up_then_down_iff (writeComplete : Bool) (inputs : List Input) (c : UdpConnection)
    (hrun : Run writeComplete inputs c) (hreports : SessionReports inputs) :
    c.labels <+: [true, false] ↔ AlongAfter step ClosedOnceUp [] (new writeComplete) inputs := by
  rw [alongAfter_closedOnceUp inputs (by simp [toldUp, callbacks, new])]
  have hnew : (new writeComplete).LabelInv := ⟨by simp [DownIffTold, new], by simp [labels, callbacks, new]⟩
  have hgood : (new writeComplete).UpThenDown := by simp [UpThenDown, labels, callbacks, new]
  have honce : Along step ReportsOnce (new writeComplete) inputs := by
    refine @along_reportsOnce _ [] inputs ?_ hreports
    simp [toldUp, callbacks, new]
  refine good_iff_along LabelInv UpThenDown (fun _ _ _ h1 h2 h3 => labelInv_step h1 h2 h3)
    (fun _ _ _ h1 h2 h3 h4 => upThenDown_step h1 h2 h3 h4) ?_ hnew hgood honce hrun
  intro s j s' _ hbad hstep hgood'
  unfold UpThenDown at hbad hgood'
  rw [labels_step hstep] at hgood'
  exact hbad (List.IsPrefix.trans (List.prefix_append _ _) hgood')

/-- The handshake, then a close by the peer. -/
def handshakeThenClose : List Input :=
  [.connectEstablished, .kcpConnection true, .userReturns, .updateReturns 10, .timer 0, .kcpConnection false]

theorem up_then_down_handshakeThenClose :
    ∃ c, Run false handshakeThenClose c ∧ c.labels = [true, false] ∧ c.labels <+: [true, false] :=
  ⟨_, rfl, by decide, (up_then_down_iff false handshakeThenClose _ rfl (by decide)).mpr (by decide)⟩

/-- The socket fails before the handshake has completed: user code is told DOWN of a connection it never saw UP. -/
def errorBeforeHandshake : List Input :=
  [.connectEstablished, .updateReturns 10, .poll { pollErr := true }, .handleEvent, .errorCallback 111]

theorem down_without_up :
    ¬∀ (writeComplete : Bool) (inputs : List Input) (c : UdpConnection), Run writeComplete inputs c →
      SessionReports inputs → c.labels <+: [true, false] := by
  intro h
  have hprefix := h false errorBeforeHandshake _ rfl (by decide)
  exact absurd hprefix (by decide)

end Realtinet.UdpConnection
