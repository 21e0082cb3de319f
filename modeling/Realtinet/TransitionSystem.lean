import Mathlib.Tactic.Common

/-! Runs of a system given by an executable step function. `step s i` either accepts the input `i` in
the state `s` and returns the next state, or refuses it with a reason: the input cannot occur there,
or it ends the run. Nothing here depends on what the states and inputs are; the rules below turn a
fact about one step into a fact about every run. -/

namespace TransitionSystem

variable {σ ι ε : Type}

/-- The state after a list of inputs, or the reason of the first input that is refused. -/
def run (step : σ → ι → Except ε σ) : σ → List ι → Except ε σ
  | s, [] => .ok s
  | s, i :: is =>
      match step s i with
      | .ok s' => run step s' is
      | .error e => .error e

/-- Every input of the run satisfies `P` together with the state it is given in. -/
def Along (step : σ → ι → Except ε σ) (P : σ → ι → Prop) : σ → List ι → Prop
  | _, [] => True
  | s, i :: is => P s i ∧ ∀ s', step s i = .ok s' → Along step P s' is

/-- A decidable condition is decided along a run by running it. -/
instance alongDecidable (step : σ → ι → Except ε σ) (P : σ → ι → Prop) [∀ s i, Decidable (P s i)] :
    ∀ (s : σ) (is : List ι), Decidable (Along step P s is)
  | _, [] => .isTrue trivial
  | s, i :: is =>
      match h : step s i with
      | .ok s' =>
          have := alongDecidable step P s' is
          decidable_of_iff (P s i ∧ Along step P s' is) (by simp [Along, h])
      | .error _ => decidable_of_iff (P s i) (by simp [Along, h])

variable {step : σ → ι → Except ε σ} {P : σ → ι → Prop}

theorem bind_eq_ok {α β : Type} {x : Except ε α} {f : α → Except ε β} {b : β} :
    (x >>= f) = .ok b ↔ ∃ a, x = .ok a ∧ f a = .ok b := by
  cases x with
  | ok a =>
      constructor
      · intro h
        exact ⟨a, rfl, h⟩
      · rintro ⟨a', ⟨⟩, h⟩
        exact h
  | error e => exact ⟨(nomatch ·), fun ⟨_, ha, _⟩ => nomatch ha⟩

theorem bind_eq_error {α β : Type} {x : Except ε α} {f : α → Except ε β} {e : ε} :
    (x >>= f) = .error e ↔ x = .error e ∨ ∃ a, x = .ok a ∧ f a = .error e := by
  cases x with
  | ok a =>
      constructor
      · intro h
        exact .inr ⟨a, rfl, h⟩
      · rintro (⟨⟨⟩⟩ | ⟨a', ⟨⟩, h⟩)
        exact h
  | error e' =>
      constructor
      · intro h
        exact .inl (congrArg Except.error (Except.error.inj h))
      · rintro (⟨⟨⟩⟩ | ⟨a, ⟨⟩, -⟩)
        rfl

theorem run_cons_eq_ok {s t : σ} {i : ι} {is : List ι} :
    run step s (i :: is) = .ok t ↔ ∃ s', step s i = .ok s' ∧ run step s' is = .ok t := by
  rw [run]
  cases h : step s i with
  | ok s' => simp
  | error e => simp

theorem run_cons {s s' : σ} {i : ι} {is : List ι} (h : step s i = .ok s') :
    run step s (i :: is) = run step s' is := by
  rw [run, h]

theorem run_singleton (s : σ) (i : ι) : run step s [i] = step s i := by
  rw [run]
  cases step s i <;> rfl

theorem run_append {s t : σ} {is js : List ι} (h : run step s is = .ok t) :
    run step s (is ++ js) = run step t js := by
  induction is generalizing s with
  | nil =>
      cases h
      rfl
  | cons i is ih =>
      obtain ⟨s', hstep, hrun⟩ := run_cons_eq_ok.mp h
      rw [List.cons_append, run_cons hstep]
      exact ih hrun

/-- A run that is cut short is cut short by one of its inputs. -/
theorem exists_of_run_eq_error {s : σ} {is : List ι} {e : ε} (h : run step s is = .error e) :
    ∃ t, ∃ i ∈ is, step t i = .error e := by
  induction is generalizing s with
  | nil => simp [run] at h
  | cons i is ih =>
      rw [run] at h
      split at h
      · obtain ⟨t, j, hmem, hstep⟩ := ih h
        exact ⟨t, j, List.mem_cons_of_mem _ hmem, hstep⟩
      · rename_i e' hstep
        cases h
        exact ⟨s, i, List.mem_cons_self, hstep⟩

/-- A property that every accepted input meeting `P` keeps holds after every run all of whose inputs
meet `P`. -/
theorem run_invariant_along {Inv : σ → Prop}
    (hstep : ∀ s i s', Inv s → P s i → step s i = .ok s' → Inv s')
    {s t : σ} {is : List ι} (hs : Inv s) (halong : Along step P s is) (hrun : run step s is = .ok t) :
    Inv t := by
  induction is generalizing s with
  | nil =>
      cases hrun
      exact hs
  | cons i is ih =>
      obtain ⟨s', hstep', hrun'⟩ := run_cons_eq_ok.mp hrun
      exact ih (hstep s i s' hs halong.1 hstep') (halong.2 s' hstep') hrun'

/-- A property that every accepted input keeps holds after every run. -/
theorem run_invariant {Inv : σ → Prop} (hstep : ∀ s i s', Inv s → step s i = .ok s' → Inv s')
    {s t : σ} {is : List ι} (hs : Inv s) (hrun : run step s is = .ok t) : Inv t := by
  induction is generalizing s with
  | nil =>
      cases hrun
      exact hs
  | cons i is ih =>
      obtain ⟨s', hstep', hrun'⟩ := run_cons_eq_ok.mp hrun
      exact ih (hstep s i s' hs hstep') hrun'

/-- A system that keeps to another one, as far as `view` shows it, runs as that one does. -/
theorem run_view {τ δ : Type} {upper : τ → ι → Except δ τ} (view : τ → σ)
    (hstep : ∀ t i t', upper t i = .ok t' → step (view t) i = .ok (view t'))
    {t t' : τ} {is : List ι} (hrun : run upper t is = .ok t') : run step (view t) is = .ok (view t') := by
  induction is generalizing t with
  | nil =>
      cases hrun
      rfl
  | cons i is ih =>
      obtain ⟨s', hstep', hrun'⟩ := run_cons_eq_ok.mp hrun
      rw [run_cons (hstep t i s' hstep')]
      exact ih hrun'

/-- Both are accepted and lead to related states, or both are refused for the same reason. -/
inductive Matches {τ : Type} (R : σ → τ → Prop) : Except ε σ → Except ε τ → Prop where
  | ok {s : σ} {t : τ} (h : R s t) : Matches R (.ok s) (.ok t)
  | error (e : ε) : Matches R (.error e) (.error e)

/-- Two systems that match at every input meeting `P`, from related states, match over every run of such inputs. -/
theorem run_matches {τ : Type} {other : τ → ι → Except ε τ} {Q : τ → ι → Prop} (R : σ → τ → Prop)
    (hstep : ∀ s t i, R s t → Q t i → Matches R (step s i) (other t i))
    {s : σ} {t : τ} {is : List ι} (hR : R s t) (halong : Along other Q t is) :
    Matches R (run step s is) (run other t is) := by
  induction is generalizing s t with
  | nil => exact .ok hR
  | cons i is ih =>
      have hmatch := hstep s t i hR halong.1
      have hrest := halong.2
      rw [run, run]
      generalize step s i = x at hmatch ⊢
      generalize other t i = y at hmatch hrest ⊢
      cases hmatch with
      | ok hR' => exact ih hR' (hrest _ rfl)
      | error e => exact .error e

/-- If two systems match, a condition holds along a run of one exactly if what it says of the other holds along the
same run there. -/
theorem along_matches {τ : Type} {other : τ → ι → Except ε τ} {Q : τ → ι → Prop} (R : σ → τ → Prop)
    (hstep : ∀ s t i, R s t → Matches R (step s i) (other t i)) (hiff : ∀ s t i, R s t → (P s i ↔ Q t i))
    {s : σ} {t : τ} {is : List ι} (hR : R s t) : Along step P s is ↔ Along other Q t is := by
  induction is generalizing s t with
  | nil => exact Iff.rfl
  | cons i is ih =>
      have hmatch := hstep s t i hR
      rw [Along, Along]
      refine and_congr (hiff s t i hR) ?_
      generalize step s i = x at hmatch ⊢
      generalize other t i = y at hmatch ⊢
      cases hmatch with
      | ok hR' =>
          constructor
          · intro h t' ht'
            cases ht'
            exact (ih hR').mp (h _ rfl)
          · intro h s' hs'
            cases hs'
            exact (ih hR').mpr (h _ rfl)
      | error e => exact iff_of_true (fun _ h => (nomatch h)) fun _ h => (nomatch h)

/-- If no input that meets `P` is refused for the reason `e`, no run of such inputs ends for it. -/
theorem run_ne_error_along (Inv : σ → Prop) {e : ε}
    (hstep : ∀ s i s', Inv s → P s i → step s i = .ok s' → Inv s')
    (hne : ∀ s i, Inv s → P s i → step s i ≠ .error e)
    {s : σ} {is : List ι} (hs : Inv s) (halong : Along step P s is) : run step s is ≠ .error e := by
  induction is generalizing s with
  | nil => simp [run]
  | cons i is ih =>
      rw [run]
      cases h : step s i with
      | ok s' => exact ih (hstep s i s' hs halong.1 h) (halong.2 s' h)
      | error e' =>
          intro heq
          cases heq
          exact hne s i hs halong.1 h

/-- If, of the inputs that are not refused for the reason `e`, exactly those that meet `P` are accepted, then of the runs
that do not end for this reason exactly those are accepted whose inputs all meet `P`. -/
theorem run_accepted_iff_along (Inv : σ → Prop) {e : ε} (hinv : ∀ s i s', Inv s → step s i = .ok s' → Inv s')
    (hstep : ∀ s i, Inv s → step s i ≠ .error e → ((∃ s', step s i = .ok s') ↔ P s i))
    {s : σ} {is : List ι} (hs : Inv s) (hne : run step s is ≠ .error e) :
    (∃ t, run step s is = .ok t) ↔ Along step P s is := by
  induction is generalizing s with
  | nil => exact ⟨fun _ => trivial, fun _ => ⟨s, rfl⟩⟩
  | cons i is ih =>
      cases h : step s i with
      | error e' =>
          have hother : step s i ≠ .error e := by
            intro heq
            rw [run, heq] at hne
            exact hne rfl
          have hnot : ¬P s i := by
            intro hP
            obtain ⟨s', hs'⟩ := (hstep s i hs hother).mpr hP
            rw [h] at hs'
            cases hs'
          refine iff_of_false ?_ fun halong => hnot halong.1
          rintro ⟨t, ht⟩
          rw [run, h] at ht
          cases ht
      | ok s' =>
          have hP : P s i := (hstep s i hs (by rw [h]; exact nofun)).mp ⟨s', h⟩
          rw [run_cons h] at hne ⊢
          rw [ih (hinv s i s' hs h) hne]
          constructor
          · intro halong
            refine ⟨hP, fun s'' hs'' => ?_⟩
            rw [h] at hs''
            cases hs''
            exact halong
          · intro halong
            exact halong.2 s' h

/-- What holds of every input in every state holds along every run. -/
theorem along_of_forall (h : ∀ s i, P s i) (s : σ) (is : List ι) : Along step P s is := by
  induction is generalizing s with
  | nil => trivial
  | cons i is ih => exact ⟨h s i, fun s' _ => ih s'⟩

theorem along_mono {Q : σ → ι → Prop} (h : ∀ s i, P s i → Q s i) {s : σ} {is : List ι} (halong : Along step P s is) :
    Along step Q s is := by
  induction is generalizing s with
  | nil => trivial
  | cons i is ih => exact ⟨h s i halong.1, fun s' hstep => ih (halong.2 s' hstep)⟩

/-- A condition on the inputs alone holds along a run if all its inputs meet it. -/
theorem along_of_mem {Q : ι → Prop} {is : List ι} (h : ∀ i ∈ is, Q i) (s : σ) :
    Along step (fun _ i => Q i) s is := by
  induction is generalizing s with
  | nil => trivial
  | cons i is ih =>
      exact ⟨h i List.mem_cons_self, fun s' _ => ih (fun j hj => h j (List.mem_cons_of_mem _ hj)) s'⟩

/-- As `Along`, for a condition that also looks back at the inputs before. -/
def AlongAfter (step : σ → ι → Except ε σ) (P : List ι → σ → ι → Prop) : List ι → σ → List ι → Prop
  | _, _, [] => True
  | before, s, i :: is => P before s i ∧ ∀ s', step s i = .ok s' → AlongAfter step P (before ++ [i]) s' is

instance alongAfterDecidable (step : σ → ι → Except ε σ) (P : List ι → σ → ι → Prop)
    [∀ before s i, Decidable (P before s i)] :
    ∀ (before : List ι) (s : σ) (is : List ι), Decidable (AlongAfter step P before s is)
  | _, _, [] => .isTrue trivial
  | before, s, i :: is =>
      match h : step s i with
      | .ok s' =>
          have := alongAfterDecidable step P (before ++ [i]) s' is
          decidable_of_iff (P before s i ∧ AlongAfter step P (before ++ [i]) s' is) (by simp [AlongAfter, h])
      | .error _ => decidable_of_iff (P before s i) (by simp [AlongAfter, h])

/-- A condition on the inputs before and one on the state hold along the same runs if they agree as long as the inputs
before and the state are related, and the inputs that meet them keep the relation. -/
theorem alongAfter_iff_along {Q : List ι → σ → ι → Prop} (R : List ι → σ → Prop)
    (hiff : ∀ before s i, R before s → (Q before s i ↔ P s i))
    (hkeep : ∀ before s i s', R before s → P s i → step s i = .ok s' → R (before ++ [i]) s')
    {before : List ι} {s : σ} {is : List ι} (hR : R before s) :
    AlongAfter step Q before s is ↔ Along step P s is := by
  induction is generalizing before s with
  | nil => exact Iff.rfl
  | cons i is ih =>
      rw [AlongAfter, Along]
      constructor
      · rintro ⟨hQ, hrest⟩
        have hP : P s i := (hiff before s i hR).mp hQ
        exact ⟨hP, fun s' hstep => (ih (hkeep before s i s' hR hP hstep)).mp (hrest s' hstep)⟩
      · rintro ⟨hP, hrest⟩
        have hQ : Q before s i := (hiff before s i hR).mpr hP
        exact ⟨hQ, fun s' hstep => (ih (hkeep before s i s' hR hP hstep)).mpr (hrest s' hstep)⟩

section Throughout

/-- Every state of the run satisfies `Good`, the first one included. -/
def Throughout (step : σ → ι → Except ε σ) (Good : σ → Prop) : σ → List ι → Prop
  | s, [] => Good s
  | s, i :: is => Good s ∧ ∀ s', step s i = .ok s' → Throughout step Good s' is

variable (Inv Good : σ → Prop)

theorem Throughout.first {Good : σ → Prop} {s : σ} {is : List ι} (h : Throughout step Good s is) : Good s := by
  cases is with
  | nil => exact h
  | cons i is => exact h.1

theorem throughout_last {Good : σ → Prop} {s t : σ} {is : List ι} (h : Throughout step Good s is)
    (hrun : run step s is = .ok t) : Good t := by
  induction is generalizing s with
  | nil =>
      cases hrun
      exact h
  | cons i is ih =>
      obtain ⟨s', hstep, hrun'⟩ := run_cons_eq_ok.mp hrun
      exact ih (h.2 s' hstep) hrun'

/-- What every accepted input keeps holds throughout. -/
theorem throughout_of_step {Good : σ → Prop} (hstep : ∀ s i s', Good s → step s i = .ok s' → Good s') {s : σ}
    (hs : Good s) (is : List ι) : Throughout step Good s is := by
  induction is generalizing s with
  | nil => exact hs
  | cons i is ih => exact ⟨hs, fun s' h => ih (hstep s i s' hs h)⟩

theorem throughout_mono {Good Other : σ → Prop} (hmono : ∀ s, Good s → Other s) {s : σ} {is : List ι}
    (h : Throughout step Good s is) : Throughout step Other s is := by
  induction is generalizing s with
  | nil => exact hmono s h
  | cons i is ih => exact ⟨hmono s h.1, fun s' hstep => ih (h.2 s' hstep)⟩

/-- If an accepted input leaves a good state good exactly when `P` holds, a run from a good state stays good exactly
when all its inputs meet `P`. -/
theorem throughout_iff_along (hinv : ∀ s i s', Inv s → step s i = .ok s' → Inv s')
    (hgood : ∀ s i s', Inv s → Good s → step s i = .ok s' → (Good s' ↔ P s i))
    {s t : σ} {is : List ι} (hs : Inv s) (hg : Good s) (hrun : run step s is = .ok t) :
    Throughout step Good s is ↔ Along step P s is := by
  induction is generalizing s with
  | nil => exact ⟨fun _ => trivial, fun _ => hg⟩
  | cons i is ih =>
      obtain ⟨s', hstep, hrun'⟩ := run_cons_eq_ok.mp hrun
      have hs' := hinv s i s' hs hstep
      have hiff := hgood s i s' hs hg hstep
      constructor
      · intro h
        have hrest := h.2 s' hstep
        refine ⟨hiff.mp hrest.first, ?_⟩
        intro s'' hstep'
        rw [hstep] at hstep'
        cases hstep'
        exact (ih hs' hrest.first hrun').mp hrest
      · intro h
        refine ⟨hg, ?_⟩
        intro s'' hstep'
        rw [hstep] at hstep'
        cases hstep'
        exact (ih hs' (hiff.mpr h.1) hrun').mpr (h.2 s' hstep)

end Throughout

section Outputs

variable {κ β : Type}

/-- What the inputs of a run put out, in their order. -/
def outputs (step : σ → ι → Except ε σ) (f : σ → ι → List β) : σ → List ι → List β
  | _, [] => []
  | s, i :: is =>
      match step s i with
      | .ok s' => f s i ++ outputs step f s' is
      | .error _ => []

theorem outputs_cons {f : σ → ι → List β} {s s' : σ} {i : ι} {is : List ι} (h : step s i = .ok s') :
    outputs step f s (i :: is) = f s i ++ outputs step f s' is := by
  rw [outputs, h]

/-- A relation between the state and what has been put out so far, of several kinds, that every accepted
input keeps holds after every run. -/
theorem run_outputs_invariant (f : κ → σ → ι → List β) (Inv : σ → (κ → List β) → Prop)
    (hstep : ∀ s i s' out, Inv s out → step s i = .ok s' → Inv s' (fun k => out k ++ f k s i))
    {s t : σ} {is : List ι} {out : κ → List β} (hs : Inv s out) (hrun : run step s is = .ok t) :
    Inv t (fun k => out k ++ outputs step (f k) s is) := by
  induction is generalizing s out with
  | nil =>
      cases hrun
      simpa [outputs] using hs
  | cons i is ih =>
      obtain ⟨s', hstep', hrun'⟩ := run_cons_eq_ok.mp hrun
      have hnext := ih (hstep s i s' out hs hstep') hrun'
      simpa only [outputs_cons hstep', List.append_assoc] using hnext

end Outputs

section Defect

variable {Q : σ → ι → Prop} (Inv Good : σ → Prop)

theorem run_stays_bad (hinv : ∀ s i s', Inv s → Q s i → step s i = .ok s' → Inv s')
    (hbad : ∀ s i s', Inv s → ¬Good s → step s i = .ok s' → ¬Good s')
    {s t : σ} {is : List ι} (hs : Inv s) (hn : ¬Good s) (hQ : Along step Q s is)
    (hrun : run step s is = .ok t) : ¬Good t := by
  induction is generalizing s with
  | nil =>
      cases hrun
      exact hn
  | cons i is ih =>
      obtain ⟨s', hstep, hrun'⟩ := run_cons_eq_ok.mp hrun
      exact ih (hinv s i s' hs hQ.1 hstep) (hbad s i s' hs hn hstep) (hQ.2 s' hstep) hrun'

/-- A defect that no later input repairs. Over runs whose inputs meet `Q`: if, while the system is
good, an accepted input leaves it good exactly when `P` holds, and it never becomes good again, then a
run ends good exactly when all its inputs meet `P`. -/
theorem good_iff_along (hinv : ∀ s i s', Inv s → Q s i → step s i = .ok s' → Inv s')
    (hgood : ∀ s i s', Inv s → Q s i → Good s → step s i = .ok s' → (Good s' ↔ P s i))
    (hbad : ∀ s i s', Inv s → ¬Good s → step s i = .ok s' → ¬Good s')
    {s t : σ} {is : List ι} (hs : Inv s) (hg : Good s) (hQ : Along step Q s is)
    (hrun : run step s is = .ok t) : Good t ↔ Along step P s is := by
  induction is generalizing s with
  | nil =>
      cases hrun
      exact ⟨fun _ => trivial, fun _ => hg⟩
  | cons i is ih =>
      obtain ⟨s', hstep, hrun'⟩ := run_cons_eq_ok.mp hrun
      have hs' := hinv s i s' hs hQ.1 hstep
      have hiff := hgood s i s' hs hQ.1 hg hstep
      constructor
      · intro ht
        have hg' : Good s' := by
          by_contra hn
          exact run_stays_bad Inv Good hinv hbad hs' hn (hQ.2 s' hstep) hrun' ht
        refine ⟨hiff.mp hg', ?_⟩
        intro s'' hstep'
        rw [hstep] at hstep'
        cases hstep'
        exact (ih hs' hg' (hQ.2 s' hstep) hrun').mp ht
      · intro halong
        exact (ih hs' (hiff.mpr halong.1) (hQ.2 s' hstep) hrun').mpr (halong.2 s' hstep)

end Defect

end TransitionSystem
