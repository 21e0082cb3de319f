import Realtinet.AnyStorage

/-! What `any` is for: a container has a value of its own, or none. A program that never swaps a
container with itself is never undefined, its containers have the values that copies, moves,
assignments and swaps of values give them, and every object on the heap belongs to exactly one
container. A container swapped with itself, if it has its object in place, constructs an object from
one that it has destroyed. -/

namespace Realtinet.Any

open TransitionSystem

variable {T V : Type} {types : ValueTypes T V}

/-! ### The values -/

/-- The containers that exist, each with its object, if it has one. -/
abbrev Contents (T V : Type) := Nat → Option (Option (Object T V))

namespace Contents

def new : Contents T V := fun _ => none

/-- A new value, unless its construction throws. -/
def set (c : Contents T V) (this : Nat) (content : Option (Object T V)) (construction : Construction) : Contents T V :=
  match content, construction with
  | some _, .throws => c
  | _, _ => Function.update c this (some content)

/-- The value goes from `rhs` to `this`, whatever that had. -/
def shift (c : Contents T V) (this rhs : Nat) (content : Option (Object T V)) : Contents T V :=
  Function.update (Function.update c rhs (some none)) this (some content)

variable [DecidableEq T]

/-- An object changed in its container, if it is of the type. -/
def modify (c : Contents T V) (this : Nat) (type : T) (f : V → V) : Contents T V :=
  match c this with
  | some (some object) =>
      if object.type = type then Function.update c this (some (some ⟨type, f object.value⟩)) else c
  | _ => c

/-- The inputs of a program, as operations on values. -/
def step (types : ValueTypes T V) (c : Contents T V) : Input T V → Except Fault (Contents T V)
  | .construct this =>
      match c this with
      | none => .ok (Function.update c this (some none))
      | some _ => .error .notEnabled
  | .constructValue this object construction =>
      match c this with
      | none => .ok (c.set this (some object) construction)
      | some _ => .error .notEnabled
  | .copyConstruct this rhs construction =>
      match c this, c rhs with
      | none, some content => .ok (c.set this content construction)
      | _, _ => .error .notEnabled
  | .moveConstruct this rhs =>
      match c this, c rhs with
      | none, some content => .ok (c.shift this rhs content)
      | _, _ => .error .notEnabled
  | .destruct this =>
      match c this with
      | some _ => .ok (Function.update c this none)
      | none => .error .notEnabled
  | .copyAssign this rhs construction =>
      match c this, c rhs with
      | some _, some content => .ok (c.set this content construction)
      | _, _ => .error .notEnabled
  | .moveAssign this rhs =>
      match c this, c rhs with
      | some _, some content => .ok (c.shift this rhs content)
      | _, _ => .error .notEnabled
  | .assignValue this object construction =>
      match c this with
      | some _ => .ok (c.set this (some object) construction)
      | none => .error .notEnabled
  | .clear this =>
      match c this with
      | some _ => .ok (Function.update c this (some none))
      | none => .error .notEnabled
  | .swap this rhs =>
      match c this, c rhs with
      | some left, some right => .ok (Function.update (Function.update c this (some right)) rhs (some left))
      | _, _ => .error .notEnabled
  | .castMove type operand =>
      match c operand with
      | some _ => .ok (c.modify operand type (types.movedFrom type))
      | none => .error .notEnabled
  | .castWrite object operand =>
      match c operand with
      | some _ => .ok (c.modify operand object.type fun _ => object.value)
      | none => .error .notEnabled

end Contents

variable {m m' : Memory T V} {p : Place} {object : Object T V} {content : Option (Object T V)}

/-! ### Containers and their values -/

/-- The objects of the program's containers, none of them on its way. -/
def placed (c : Contents T V) : Place → Option (Object T V)
  | .any id => (c id).join
  | .temporary | .tmp | .tmpStorage => none

theorem placed_update (c : Contents T V) (id : Nat) (content : Option (Option (Object T V))) :
    placed (Function.update c id content) = Function.update (placed c) (.any id) content.join := by
  funext p
  cases p with
  | any other =>
      by_cases hother : other = id
      · simp [placed, hother]
      · have hne : Place.any other ≠ Place.any id := fun heq => hother (Place.any.inj heq)
        simp [placed, hother, hne]
  | temporary => simp [placed]
  | tmp => simp [placed]
  | tmpStorage => simp [placed]

/-- The memory has exactly the containers and objects of `c`, and nothing else on the heap. -/
structure Represents (types : ValueTypes T V) (c : Contents T V) (m : Memory T V) : Prop where
  rep : Rep types m (placed c)
  alive : ∀ id, m.alive id = (c id).isSome
  typed : ∀ id, c id ≠ none → Typed m (placed c) (.any id)

section Step

variable [DecidableEq T] {c : Contents T V} {this rhs : Nat}

/-- An object on its way in the unnamed container of an assignment. -/
structure InAssignment (types : ValueTypes T V) (c : Contents T V) (content : Option (Object T V)) (m : Memory T V) :
    Prop where
  rep : Rep types m (Function.update (placed c) .temporary content)
  temporary : m.vtable .temporary = content.map Object.type
  alive : ∀ id, m.alive id = (c id).isSome
  typed : ∀ id, c id ≠ none → m.vtable (.any id) = (c id).join.map Object.type

/-- The end of an assignment: the container has the new object, and the old one is gone. -/
theorem represents_swapTemporary (this : Nat) (h : InAssignment types c content m) (hthis : c this ≠ none) :
    ∃ m', swapTemporary types (.any this) m = .ok m' ∧ Represents types (Function.update c this (some content)) m' := by
  have hne : Place.temporary ≠ Place.any this := by simp
  have htyped : Typed m (Function.update (placed c) .temporary content) .temporary := by
    rw [Typed, Function.update_self]
    exact h.temporary
  have htypedThis : Typed m (Function.update (placed c) .temporary content) (.any this) := by
    rw [Typed, Function.update_of_ne hne.symm]
    exact h.typed this hthis
  obtain ⟨m₁, hswap, h₁, hvtable₁, halive₁⟩ :=
    leaves_swap h.rep hne htyped htypedThis (by simp [placed]) (by simp [placed]) (by simp) (by simp)
  have htyped₁ : Typed m₁ (Function.update (placed c) .temporary content ∘ Equiv.swap .temporary (.any this)) .temporary := by
    rw [Typed, hvtable₁ _ (by simp), Function.comp_apply]
    rw [Equiv.swap_apply_left]
    exact htypedThis
  obtain ⟨m₂, hclear, h₂, hvtable₂, halive₂⟩ := leaves_clear h₁ htyped₁
  refine ⟨m₂, by simp [swapTemporary, hswap, hclear, bind, Except.bind], ?_, ?_, ?_⟩
  · rw [placed_update, Option.join_some]
    convert h₂ using 1
    funext q
    by_cases hq : q = .temporary
    · rw [hq, Function.update_self, Function.update_of_ne hne]
      rfl
    · rw [Function.update_of_ne hq, Function.comp_apply]
      by_cases hqt : q = .any this
      · rw [hqt, Function.update_self, Equiv.swap_apply_right, Function.update_self]
      · rw [Function.update_of_ne hqt, Equiv.swap_apply_of_ne_of_ne hq hqt, Function.update_of_ne hq]
  · intro id
    rw [halive₂, halive₁, h.alive id]
    by_cases hid : id = this
    · subst hid
      simpa [Option.isSome_iff_ne_none] using hthis
    · rw [Function.update_of_ne hid]
  · intro id hid
    rw [Typed, hvtable₂, Function.update_of_ne (by simp), hvtable₁ _ (by simp), placed_update]
    by_cases hsame : id = this
    · rw [hsame, Equiv.swap_apply_right, h.temporary, Function.update_self]
      rfl
    · have hplace : Place.any id ≠ Place.any this := fun heq => hsame (Place.any.inj heq)
      rw [Equiv.swap_apply_of_ne_of_ne (by simp) hplace, Function.update_of_ne hplace]
      rw [Function.update_of_ne hsame] at hid
      exact h.typed id hid

omit [DecidableEq T] in
/-- The table of a container that does not exist is of no importance. -/
theorem Represents.setVtable (h : Represents types c m) (hp : ∀ id, c id ≠ none → Place.any id ≠ p) (vtable : Option T) :
    Represents types c (m.setVtable p vtable) := by
  refine ⟨h.rep.congr rfl rfl, h.alive, ?_⟩
  intro id hid
  rw [Typed, Memory.setVtable_vtable, Function.update_of_ne (hp id hid)]
  exact h.typed id hid

omit [DecidableEq T] in
/-- A container that has come, changed or gone; the others are as they were. -/
theorem Represents.update {content : Option (Option (Object T V))} (h : Represents types c m)
    (hrep : Rep types m' (Function.update (placed c) (.any this) content.join))
    (hvtable : ∀ id, id ≠ this → m'.vtable (.any id) = m.vtable (.any id))
    (hthis : content ≠ none → m'.vtable (.any this) = content.join.map Object.type)
    (halive : m'.alive = Function.update m.alive this content.isSome) :
    Represents types (Function.update c this content) m' := by
  refine ⟨by rwa [placed_update], ?_, ?_⟩
  · intro id
    rw [halive]
    by_cases hid : id = this
    · rw [hid, Function.update_self, Function.update_self]
    · rw [Function.update_of_ne hid, Function.update_of_ne hid, h.alive id]
  · intro id hid
    rw [Typed, placed_update]
    by_cases hsame : id = this
    · rw [hsame, Function.update_self] at hid
      rw [hsame, Function.update_self]
      exact hthis hid
    · have hplace : Place.any id ≠ Place.any this := fun heq => hsame (Place.any.inj heq)
      rw [Function.update_of_ne hplace, hvtable id hsame]
      rw [Function.update_of_ne hsame] at hid
      exact h.typed id hid

/-- The allocator gives memory that is not in use, should an object of the type need any. -/
def Fresh (types : ValueTypes T V) (m : Memory T V) (type : T) : Construction → Prop
  | .succeeds a => types.requiresAllocation type = true → m.heap a = none
  | .throws => True

instance (types : ValueTypes T V) (m : Memory T V) (type : T) : DecidablePred (Fresh types m type)
  | .succeeds a => inferInstanceAs (Decidable (types.requiresAllocation type = true → m.heap a = none))
  | .throws => inferInstanceAs (Decidable True)

def AllocatesFresh (types : ValueTypes T V) (m : Memory T V) : Input T V → Prop
  | .constructValue _ object construction | .assignValue _ object construction =>
      Fresh types m object.type construction
  | .copyConstruct _ rhs construction | .copyAssign _ rhs construction =>
      ∀ type ∈ m.vtable (.any rhs), Fresh types m type construction
  | _ => True

instance (types : ValueTypes T V) (m : Memory T V) : DecidablePred (AllocatesFresh types m)
  | .constructValue _ object construction | .assignValue _ object construction =>
      inferInstanceAs (Decidable (Fresh types m object.type construction))
  | .copyConstruct _ rhs construction | .copyAssign _ rhs construction =>
      inferInstanceAs (Decidable (∀ type ∈ m.vtable (.any rhs), Fresh types m type construction))
  | .construct _ | .moveConstruct _ _ | .destruct _ | .moveAssign _ _ | .clear _ | .swap _ _ | .castMove _ _ |
    .castWrite _ _ => inferInstanceAs (Decidable True)

/-- A container with an object in place is swapped with itself. -/
def SwapsSelf (types : ValueTypes T V) (m : Memory T V) : Input T V → Prop
  | .swap this rhs => this = rhs ∧ m.alive this = true ∧
      ∃ type, m.vtable (.any this) = some type ∧ types.requiresAllocation type = false
  | _ => False

omit [DecidableEq T] in
theorem placed_of_none (hnone : c this = none) : placed c (.any this) = none := by
  simp [placed, hnone]

omit [DecidableEq T] in
theorem placed_of_some (h : c this = some content) : placed c (.any this) = content := by
  simp [placed, h]

omit [DecidableEq T] in
theorem Represents.typed_of_some (h : Represents types c m) (hthis : c this = some content) :
    m.vtable (.any this) = content.map Object.type := by
  have htyped := h.typed this (by simp [hthis])
  rwa [Typed, placed_of_some hthis] at htyped

omit [DecidableEq T] in
theorem any_ne_any (h : this ≠ rhs) : Place.any this ≠ Place.any rhs := fun heq => h (Place.any.inj heq)

theorem matches_clear (h : Represents types c m) :
    Matches (Represents types) (c.step types (.clear this)) (step types m (.clear this)) := by
  simp only [Contents.step, step, h.alive]
  cases hthis : c this with
  | none => exact .error _
  | some content =>
      obtain ⟨m', hclear, hrep, hvtable, halive⟩ := leaves_clear h.rep (h.typed this (by simp [hthis]))
      simp only [Option.isSome_some, if_true, hclear]
      refine .ok (h.update (by simpa using hrep) ?_ ?_ ?_)
      · intro id hid
        rw [hvtable, Function.update_of_ne (any_ne_any hid)]
      · intro _
        rw [hvtable, Function.update_self]
        rfl
      · rw [halive, Option.isSome_some, eq_comm, Function.update_eq_self_iff, h.alive, hthis]
        rfl

theorem matches_destruct (h : Represents types c m) :
    Matches (Represents types) (c.step types (.destruct this)) (step types m (.destruct this)) := by
  simp only [Contents.step, step, h.alive]
  cases hthis : c this with
  | none => exact .error _
  | some content =>
      obtain ⟨m', hclear, hrep, hvtable, halive⟩ := leaves_clear h.rep (h.typed this (by simp [hthis]))
      simp only [Option.isSome_some, if_true, hclear, Except.map]
      refine .ok (h.update ?_ ?_ ?_ ?_)
      · exact hrep.congr rfl rfl
      · intro id hid
        rw [Memory.setAlive_vtable, hvtable, Function.update_of_ne (any_ne_any hid)]
      · exact fun hne => absurd rfl hne
      · rw [Memory.setAlive_alive, halive]
        rfl

omit [DecidableEq T] in
/-- A constructor that has constructed the object, if there is one. -/
theorem represents_born (h : Represents types c m) (hrep : Rep types m' (Function.update (placed c) (.any this) content))
    (hvtable : m'.vtable = Function.update m.vtable (.any this) (content.map Object.type)) (halive : m'.alive = m.alive) :
    Represents types (Function.update c this (some content)) (m'.setAlive this true) := by
  refine h.update (hrep.congr rfl rfl) ?_ ?_ ?_
  · intro id hid
    rw [Memory.setAlive_vtable, hvtable, Function.update_of_ne (any_ne_any hid)]
  · intro _
    rw [Memory.setAlive_vtable, hvtable, Function.update_self]
    rfl
  · rw [Memory.setAlive_alive, halive]
    rfl

theorem matches_construct (h : Represents types c m) :
    Matches (Represents types) (c.step types (.construct this)) (step types m (.construct this)) := by
  simp only [Contents.step, step, h.alive]
  cases hthis : c this with
  | some content => exact .error _
  | none =>
      refine .ok (represents_born h ?_ rfl rfl)
      have hfree := placed_of_none hthis
      rw [← hfree, Function.update_eq_self]
      exact h.rep.congr rfl rfl

theorem matches_constructValue {construction : Construction} (h : Represents types c m)
    (hfresh : AllocatesFresh types m (.constructValue this object construction)) :
    Matches (Represents types) (c.step types (.constructValue this object construction))
      (step types m (.constructValue this object construction)) := by
  simp only [Contents.step, step, h.alive]
  cases hthis : c this with
  | some content => exact .error _
  | none =>
      have hfree := placed_of_none hthis
      cases construction with
      | throws =>
          refine .ok (h.setVtable ?_ _)
          rintro id hid heq
          exact hid (Place.any.inj heq ▸ hthis)
      | succeeds a =>
          obtain ⟨m', hconstruct, hrep, hvtable, halive⟩ := constructValue_returns h.rep hfree hfresh
          simp only [Option.isSome_none, hconstruct]
          exact .ok (represents_born h hrep hvtable halive)

/-- A copy of a container is constructed at a place that has nothing, or its constructor throws: only the copy of an
object can. -/
theorem copyConstruct_cases {construction : Construction} (h : Represents types c m) (hp : placed c p = none)
    (hrhs : c rhs = some content) (hne : p ≠ .any rhs)
    (hfresh : ∀ type, m.vtable (.any rhs) = some type → Fresh types m type construction) :
    ((∀ this, c.set this content construction = c) ∧
        copyConstruct types p (.any rhs) construction m = .ok (.throws (m.setVtable p (m.vtable (.any rhs))))) ∨
      (∀ this, c.set this content construction = Function.update c this (some content)) ∧
        ∃ m', copyConstruct types p (.any rhs) construction m = .ok (.returns m') ∧
          Rep types m' (Function.update (placed c) p content) ∧
          m'.vtable = Function.update m.vtable p (content.map Object.type) ∧ m'.alive = m.alive := by
  have htyped := h.typed rhs (by simp [hrhs])
  have hvtable := h.typed_of_some hrhs
  have hplaced := placed_of_some hrhs
  cases content with
  | none =>
      refine Or.inr ⟨fun _ => rfl, ?_⟩
      have hsucceeds : ∀ other, placed c (.any rhs) = some other → ∃ b, construction = .succeeds b ∧
          (types.requiresAllocation other.type = true → m.heap b = none) := by simp [hplaced]
      have hreturns := copyConstruct_returns h.rep htyped hne hp hsucceeds
      rwa [hplaced, hvtable] at hreturns
  | some object =>
      cases construction with
      | throws => exact Or.inl ⟨fun _ => rfl, copyConstruct_throws h.rep htyped hne hplaced⟩
      | succeeds a =>
          refine Or.inr ⟨fun _ => rfl, ?_⟩
          have hsucceeds : ∀ other, placed c (.any rhs) = some other → ∃ b, Construction.succeeds a = .succeeds b ∧
              (types.requiresAllocation other.type = true → m.heap b = none) := by
            intro other hother
            refine ⟨a, rfl, hfresh other.type ?_⟩
            rw [hvtable, ← hplaced, hother]
            rfl
          have hreturns := copyConstruct_returns h.rep htyped hne hp hsucceeds
          rwa [hplaced, hvtable] at hreturns

theorem matches_copyConstruct {construction : Construction} (h : Represents types c m)
    (hfresh : AllocatesFresh types m (.copyConstruct this rhs construction)) :
    Matches (Represents types) (c.step types (.copyConstruct this rhs construction))
      (step types m (.copyConstruct this rhs construction)) := by
  simp only [Contents.step, step, h.alive]
  cases hthis : c this with
  | some content =>
      simp only [Option.isSome_some, true_or, if_true]
      exact .error _
  | none =>
      cases hrhs : c rhs with
      | none => exact .error _
      | some content =>
          have hne : Place.any this ≠ Place.any rhs := by
            apply any_ne_any
            rintro rfl
            simp [hthis] at hrhs
          simp only [Option.isSome_none, Option.isSome_some, Bool.not_true, or_self, Bool.false_eq_true, if_false]
          obtain ⟨hset, hcopy⟩ | ⟨hset, m', hcopy, hrep, hvtable, halive⟩ :=
            copyConstruct_cases h (placed_of_none hthis) hrhs hne hfresh
          · rw [hset, hcopy]
            refine .ok (h.setVtable ?_ _)
            rintro id hid heq
            exact hid (Place.any.inj heq ▸ hthis)
          · rw [hset, hcopy]
            exact .ok (represents_born h hrep hvtable halive)

theorem matches_moveConstruct (h : Represents types c m) :
    Matches (Represents types) (c.step types (.moveConstruct this rhs)) (step types m (.moveConstruct this rhs)) := by
  simp only [Contents.step, step, h.alive]
  cases hthis : c this with
  | some content =>
      simp only [Option.isSome_some, true_or, if_true]
      exact .error _
  | none =>
      cases hrhs : c rhs with
      | none => exact .error _
      | some content =>
          have hdiff : this ≠ rhs := by
            rintro rfl
            simp [hthis] at hrhs
          simp only [Option.isSome_none, Option.isSome_some, Bool.not_true, or_self, Bool.false_eq_true, if_false]
          obtain ⟨m', hmove, hrep, hvtable, halive⟩ := leaves_moveConstruct h.rep (any_ne_any hdiff)
            (h.typed rhs (by simp [hrhs])) (placed_of_none hthis)
          rw [hmove]
          refine .ok ⟨?_, ?_, ?_⟩
          · rw [Contents.shift, placed_update, placed_update]
            rw [comp_swap_of_none (placed_of_none hthis), placed_of_some hrhs] at hrep
            exact hrep.congr rfl rfl
          · intro id
            rw [Memory.setAlive_alive, halive, Contents.shift]
            by_cases hid : id = this
            · rw [hid, Function.update_self, Function.update_self]
              rfl
            · rw [Function.update_of_ne hid, Function.update_of_ne hid, h.alive id]
              by_cases hidr : id = rhs
              · rw [hidr, Function.update_self, hrhs]
                rfl
              · rw [Function.update_of_ne hidr]
          · intro id hid
            rw [Typed, Memory.setAlive_vtable, hvtable, Contents.shift, placed_update, placed_update]
            by_cases hidr : id = rhs
            · rw [hidr, Function.update_self, Function.update_of_ne (any_ne_any hdiff.symm), Function.update_self]
              rfl
            · rw [Function.update_of_ne (any_ne_any hidr)]
              by_cases hidt : id = this
              · rw [hidt, Function.update_self, Function.update_self, h.typed_of_some hrhs]
                rfl
              · rw [Function.update_of_ne (any_ne_any hidt), Function.update_of_ne (any_ne_any hidt),
                  Function.update_of_ne (any_ne_any hidr)]
                rw [Contents.shift, Function.update_of_ne hidt, Function.update_of_ne hidr] at hid
                exact h.typed id hid

omit [DecidableEq T] in
/-- The unnamed container of an assignment has what the constructor has given it. -/
theorem Represents.inAssignment (h : Represents types c m)
    (hrep : Rep types m' (Function.update (placed c) .temporary content))
    (hvtable : m'.vtable = Function.update m.vtable .temporary (content.map Object.type)) (halive : m'.alive = m.alive) :
    InAssignment types c content m' := by
  refine ⟨hrep, by rw [hvtable, Function.update_self], fun id => by rw [halive, h.alive id], ?_⟩
  intro id hid
  rw [hvtable, Function.update_of_ne (by simp)]
  exact h.typed id hid

theorem matches_copyAssign {construction : Construction} (h : Represents types c m)
    (hfresh : AllocatesFresh types m (.copyAssign this rhs construction)) :
    Matches (Represents types) (c.step types (.copyAssign this rhs construction))
      (step types m (.copyAssign this rhs construction)) := by
  simp only [Contents.step, step, h.alive]
  cases hthis : c this with
  | none => exact .error _
  | some old =>
      cases hrhs : c rhs with
      | none => exact .error _
      | some content =>
          simp only [Option.isSome_some, and_self, if_true]
          obtain ⟨hset, hcopy⟩ | ⟨hset, m', hcopy, hrep, hvtable, halive⟩ :=
            copyConstruct_cases (p := .temporary) h rfl hrhs (by simp) hfresh
          · rw [hset]
            simp only [copyAssign, hcopy, bind, Except.bind]
            exact .ok (h.setVtable (by simp) _)
          · obtain ⟨m'', hswap, hafter⟩ := represents_swapTemporary this
              (h.inAssignment hrep hvtable halive) (by simp [hthis])
            rw [hset]
            simp only [copyAssign, hcopy, bind, Except.bind, hswap]
            exact .ok hafter

theorem matches_assignValue {construction : Construction} (h : Represents types c m)
    (hfresh : AllocatesFresh types m (.assignValue this object construction)) :
    Matches (Represents types) (c.step types (.assignValue this object construction))
      (step types m (.assignValue this object construction)) := by
  simp only [Contents.step, step, h.alive]
  cases hthis : c this with
  | none => exact .error _
  | some old =>
      simp only [Option.isSome_some, if_true]
      cases construction with
      | throws => exact .ok (h.setVtable (by simp) _)
      | succeeds a =>
          have hfree : placed c .temporary = none := rfl
          obtain ⟨m', hconstruct, hrep, hvtable, halive⟩ := constructValue_returns h.rep hfree hfresh
          obtain ⟨m'', hswap, hafter⟩ := represents_swapTemporary this
            (h.inAssignment hrep hvtable halive) (by simp [hthis])
          simp only [assignValue, hconstruct, bind, Except.bind, hswap]
          exact .ok hafter

theorem matches_moveAssign (h : Represents types c m) :
    Matches (Represents types) (c.step types (.moveAssign this rhs)) (step types m (.moveAssign this rhs)) := by
  simp only [Contents.step, step, h.alive]
  cases hthis : c this with
  | none => exact .error _
  | some old =>
      cases hrhs : c rhs with
      | none => exact .error _
      | some content =>
          simp only [Option.isSome_some, and_self, if_true]
          have hfree : placed c .temporary = none := rfl
          obtain ⟨m', hmove, hrep, hvtable, halive⟩ := leaves_moveConstruct h.rep (by simp)
            (h.typed rhs (by simp [hrhs])) hfree
          have hbetween : InAssignment types (Function.update c rhs (some none)) content m' := by
            refine ⟨?_, ?_, ?_, ?_⟩
            · rw [comp_swap_of_none hfree, placed_of_some hrhs] at hrep
              rw [placed_update]
              exact hrep
            · rw [hvtable, Function.update_of_ne (by simp), Function.update_self, h.typed_of_some hrhs]
            · intro id
              rw [halive, h.alive id]
              by_cases hid : id = rhs
              · rw [hid, Function.update_self, hrhs]
                rfl
              · rw [Function.update_of_ne hid]
            · intro id hid
              rw [hvtable]
              by_cases hidr : id = rhs
              · rw [hidr, Function.update_self, Function.update_self]
                rfl
              · rw [Function.update_of_ne (any_ne_any hidr), Function.update_of_ne (by simp), Function.update_of_ne hidr]
                rw [Function.update_of_ne hidr] at hid
                exact h.typed id hid
          obtain ⟨m'', hswap, hafter⟩ := represents_swapTemporary this hbetween (by
            by_cases hid : this = rhs
            · simp [hid]
            · simp [Function.update_of_ne hid, hthis])
          simp only [moveAssign, hmove, bind, Except.bind, hswap]
          exact .ok hafter

omit [DecidableEq T] in
theorem placed_exchange {left right : Option (Object T V)} (hthis : c this = some left) (hrhs : c rhs = some right) :
    placed (Function.update (Function.update c this (some right)) rhs (some left)) =
      placed c ∘ Equiv.swap (.any this) (.any rhs) := by
  rw [placed_update, placed_update]
  funext q
  rw [Function.comp_apply]
  by_cases hqr : q = .any rhs
  · rw [hqr, Function.update_self, Equiv.swap_apply_right, placed_of_some hthis]
    rfl
  · rw [Function.update_of_ne hqr]
    by_cases hqt : q = .any this
    · rw [hqt, Function.update_self, Equiv.swap_apply_left, placed_of_some hrhs]
      rfl
    · rw [Function.update_of_ne hqt, Equiv.swap_apply_of_ne_of_ne hqt hqr]

theorem matches_swap (h : Represents types c m) (hself : ¬SwapsSelf types m (.swap this rhs)) :
    Matches (Represents types) (c.step types (.swap this rhs)) (step types m (.swap this rhs)) := by
  simp only [Contents.step, step, h.alive]
  cases hthis : c this with
  | none => exact .error _
  | some left =>
      cases hrhs : c rhs with
      | none => exact .error _
      | some right =>
          simp only [Option.isSome_some, and_self, if_true]
          have htypedThis := h.typed this (by simp [hthis])
          have htypedRhs := h.typed rhs (by simp [hrhs])
          by_cases hsame : this = rhs
          · subst hsame
            have hon : ∀ object, placed c (.any this) = some object → types.requiresAllocation object.type = true := by
              intro object hobject
              by_contra hin
              refine hself ⟨rfl, by simp [h.alive, hthis], object.type, ?_, by simpa using hin⟩
              rw [htypedThis, hobject]
              rfl
            obtain ⟨m', hswap, hrep, hvtable, halive⟩ := leaves_swap_self h.rep htypedThis hon
            have hleft : left = right := Option.some.inj (hthis.symm.trans hrhs)
            rw [hswap, hleft, Function.update_idem, ← hrhs, Function.update_eq_self]
            refine .ok ⟨hrep, fun id => by rw [halive, h.alive id], ?_⟩
            intro id hid
            rw [Typed, hvtable]
            exact h.typed id hid
          · obtain ⟨m', hswap, hrep, hvtable, halive⟩ :=
              leaves_swap h.rep (any_ne_any hsame) htypedThis htypedRhs rfl rfl (by simp) (by simp)
            have hplaced := placed_exchange hthis hrhs
            rw [hswap]
            refine .ok ⟨by rwa [hplaced], ?_, ?_⟩
            · intro id
              rw [halive, h.alive id]
              by_cases hidr : id = rhs
              · simp [hidr, hrhs]
              · by_cases hidt : id = this
                · simp [hidt, hthis, Function.update_of_ne hsame]
                · rw [Function.update_of_ne hidr, Function.update_of_ne hidt]
            · intro id hid
              rw [Typed, hplaced, hvtable _ (by simp), Function.comp_apply]
              by_cases hidr : id = rhs
              · rw [hidr, Equiv.swap_apply_right]
                exact htypedThis
              · by_cases hidt : id = this
                · rw [hidt, Equiv.swap_apply_left]
                  exact htypedRhs
                · rw [Equiv.swap_apply_of_ne_of_ne (any_ne_any hidt) (any_ne_any hidr)]
                  rw [Function.update_of_ne hidr, Function.update_of_ne hidt] at hid
                  exact h.typed id hid

/-- `any_cast` leads to the object of a container, to be read and to be written over, or is null. -/
theorem anyCast_cases (type : T) (h : Represents types c m) (hthis : c this = some content) :
    (anyCast types type (some (.any this)) m = .ok none ∧ (∀ object, content = some object → object.type ≠ type) ∧
        ∀ g, c.modify this type g = c) ∨
      ∃ pointer object, content = some object ∧ object.type = type ∧
        anyCast types type (some (.any this)) m = .ok (some pointer) ∧ load type pointer m = .ok object.value ∧
        ∀ g, ∃ m', store ⟨type, g object.value⟩ pointer m = .ok m' ∧ Represents types (c.modify this type g) m' := by
  have htyped := h.typed this (by simp [hthis])
  by_cases hobject : ∃ object, content = some object ∧ object.type = type
  · obtain ⟨object, rfl, rfl⟩ := hobject
    obtain ⟨pointer, hcast, hload, hstore⟩ := anyCast_eq_some h.rep htyped (placed_of_some hthis)
    refine Or.inr ⟨pointer, object, rfl, rfl, hcast, hload, ?_⟩
    intro g
    obtain ⟨m', hwrite, hrep, hvtable, halive⟩ := hstore (g object.value)
    refine ⟨m', hwrite, ?_⟩
    rw [Contents.modify, hthis]
    simp only [if_true]
    refine h.update hrep (fun id _ => by rw [hvtable]) ?_ ?_
    · intro _
      rw [hvtable, h.typed_of_some hthis]
      rfl
    · rw [halive, eq_comm, Function.update_eq_self_iff, h.alive, hthis]
      rfl
  · have hother : ∀ object, content = some object → object.type ≠ type :=
      fun object hcontent htype => hobject ⟨object, hcontent, htype⟩
    refine Or.inl ⟨anyCast_eq_none htyped (by rwa [placed_of_some hthis]), hother, ?_⟩
    intro g
    rw [Contents.modify, hthis]
    cases content with
    | none => rfl
    | some object => exact if_neg (hother object rfl)

theorem matches_castMove {type : T} (h : Represents types c m) :
    Matches (Represents types) (c.step types (.castMove type this)) (step types m (.castMove type this)) := by
  simp only [Contents.step, step, h.alive]
  cases hthis : c this with
  | none => exact .error _
  | some content =>
      simp only [Option.isSome_some, if_true, castMove]
      obtain ⟨hcast, -, hsame⟩ | ⟨pointer, object, -, -, hcast, hload, hstore⟩ := anyCast_cases type h hthis
      · rw [hsame]
        simp only [hcast, bind, Except.bind]
        exact .ok h
      · obtain ⟨m', hwrite, hafter⟩ := hstore (types.movedFrom type)
        simp only [hcast, hload, hwrite, bind, Except.bind]
        exact .ok hafter

theorem matches_castWrite (h : Represents types c m) :
    Matches (Represents types) (c.step types (.castWrite object this)) (step types m (.castWrite object this)) := by
  simp only [Contents.step, step, h.alive]
  cases hthis : c this with
  | none => exact .error _
  | some content =>
      simp only [Option.isSome_some, if_true, castWrite]
      obtain ⟨hcast, -, hsame⟩ | ⟨pointer, old, -, -, hcast, -, hstore⟩ := anyCast_cases object.type h hthis
      · rw [hsame]
        simp only [hcast, bind, Except.bind]
        exact .ok h
      · obtain ⟨m', hwrite, hafter⟩ := hstore fun _ => object.value
        simp only [hcast, hwrite, bind, Except.bind]
        exact .ok hafter

/-- **One input.** -/
theorem matches_step (h : Represents types c m) {i : Input T V} (hfresh : AllocatesFresh types m i)
    (hself : ¬SwapsSelf types m i) : Matches (Represents types) (c.step types i) (step types m i) := by
  cases i with
  | construct this => exact matches_construct h
  | constructValue this object construction => exact matches_constructValue h hfresh
  | copyConstruct this rhs construction => exact matches_copyConstruct h hfresh
  | moveConstruct this rhs => exact matches_moveConstruct h
  | destruct this => exact matches_destruct h
  | copyAssign this rhs construction => exact matches_copyAssign h hfresh
  | moveAssign this rhs => exact matches_moveAssign h
  | assignValue this object construction => exact matches_assignValue h hfresh
  | clear this => exact matches_clear h
  | swap this rhs => exact matches_swap h hself
  | castMove type this => exact matches_castMove h
  | castWrite object this => exact matches_castWrite h

end Step

theorem represents_new : Represents types Contents.new (Memory.new : Memory T V) := by
  refine ⟨⟨fun _ => none, ?_, ?_, ?_⟩, fun _ => rfl, fun id hid => absurd rfl hid⟩
  · intro p
    cases p <;> exact .free (by simp [Memory.new])
  · intro p q a hp
    cases hp
  · intro a object hmem
    cases hmem

variable [DecidableEq T] {inputs : List (Input T V)} {c : Contents T V}

/-- A container with an object in place, swapped with itself. -/
theorem step_of_swapsSelf {i : Input T V} (h : Represents types c m) (hself : SwapsSelf types m i) :
    step types m i = .error .noObject := by
  cases i with
  | swap this rhs =>
      obtain ⟨rfl, halive, type, hvtable, hin⟩ := hself
      have hsome : c this ≠ none := by
        rw [h.alive, Option.isSome_iff_ne_none] at halive
        exact halive
      have htyped := h.typed this hsome
      obtain ⟨object, hobject, rfl⟩ := Option.map_eq_some_iff.mp (htyped.symm.trans hvtable)
      simp only [step, halive, and_self, if_true]
      exact swap_self_of_stack h.rep htyped hobject hin rfl
  | _ => exact hself.elim

theorem represents_run (h : Represents types c m) (hfresh : Along (step types) (AllocatesFresh types) m inputs)
    (hrun : run (step types) m inputs = .ok m') :
    ∃ c', run (Contents.step types) c inputs = .ok c' ∧ Represents types c' m' := by
  induction inputs generalizing c m with
  | nil =>
      cases hrun
      exact ⟨c, rfl, h⟩
  | cons i inputs ih =>
      obtain ⟨m₁, hstep, hrun₁⟩ := run_cons_eq_ok.mp hrun
      -- an input that is accepted does not swap an object in place with itself
      have hself : ¬SwapsSelf types m i := by
        intro hself
        rw [step_of_swapsSelf h hself] at hstep
        cases hstep
      have hmatch := matches_step h hfresh.1 hself
      rw [hstep] at hmatch
      generalize hvalue : Contents.step types c i = x at hmatch
      cases hmatch with
      | ok h₁ =>
          rw [run_cons hvalue]
          exact ih h₁ (hfresh.2 m₁ hstep) hrun₁

/-- The value of an object as one of the type. -/
def Object.as (object : Object T V) (type : T) : Option V :=
  if object.type = type then some object.value else none

theorem castValue_of_represents (type : T) {id : Nat} (h : Represents types c m) (hid : c id = some content) :
    castValue types type (.any id) m = .ok (content.bind (Object.as · type)) := by
  obtain ⟨hcast, hother, -⟩ | ⟨pointer, object, rfl, rfl, hcast, hload, -⟩ := anyCast_cases type h hid
  · have hnone : content.bind (Object.as · type) = none := by
      cases content with
      | none => rfl
      | some object => exact if_neg (hother object rfl)
    simp [castValue, hcast, hnone, bind, Except.bind]
  · simp [castValue, hcast, hload, Object.as, bind, Except.bind]

/-- On values, an input is refused only because a container exists, or does not. -/
theorem Contents.step_error {i : Input T V} {fault : Fault} (h : Contents.step types c i = .error fault) :
    fault = .notEnabled := by
  cases i <;> simp only [Contents.step] at h <;> split at h <;> cases h <;> rfl

/-- **Containers have values.** After every run the containers are those that the operations on values give, each
with a value of its own: `any_cast` to the type of the value gives it, any other is null. An assignment whose copy
throws has changed nothing. -/
theorem value_semantics (hfresh : Along (step types) (AllocatesFresh types) Memory.new inputs)
    (hrun : run (step types) Memory.new inputs = .ok m) :
    ∃ c, run (Contents.step types) Contents.new inputs = .ok c ∧ (∀ id, m.alive id = (c id).isSome) ∧
      ∀ id content type, c id = some content →
        castValue types type (.any id) m = .ok (content.bind (Object.as · type)) := by
  obtain ⟨c, hvalues, h⟩ := represents_run represents_new hfresh hrun
  exact ⟨c, hvalues, h.alive, fun id content type hid => castValue_of_represents type h hid⟩

/-- Two types, `true` on the heap and `false` in place. -/
def mixedTypes : ValueTypes Bool Nat :=
  ⟨id, fun _ _ => 0⟩

/-- A program that swaps, copies, fails to copy, and moves a container to itself. -/
def mixedUses : List (Input Bool Nat) :=
  [.constructValue 0 ⟨true, 7⟩ (.succeeds 5), .constructValue 1 ⟨false, 3⟩ (.succeeds 0), .swap 0 1,
    .copyConstruct 2 1 (.succeeds 6), .copyAssign 0 2 .throws, .moveAssign 2 2, .destruct 1]

theorem mixedUses_fresh : Along (step mixedTypes) (AllocatesFresh mixedTypes) Memory.new mixedUses := by
  decide +kernel

theorem mixedUses_run : ∃ m, run (step mixedTypes) Memory.new mixedUses = .ok m ∧ m.heap 6 = some ⟨true, 7⟩ := by
  have hheap : (run (step mixedTypes) Memory.new mixedUses).toOption.bind (·.heap 6) = some ⟨true, 7⟩ := by
    decide +kernel
  cases hrun : run (step mixedTypes) Memory.new mixedUses with
  | error fault =>
      rw [hrun] at hheap
      cases hheap
  | ok m =>
      rw [hrun] at hheap
      exact ⟨m, rfl, hheap⟩

theorem value_semantics_mixedUses :
    ∃ m, run (step mixedTypes) Memory.new mixedUses = .ok m ∧ castValue mixedTypes false (.any 0) m = .ok (some 3) ∧
      castValue mixedTypes true (.any 0) m = .ok none := by
  obtain ⟨m, hrun, -⟩ := mixedUses_run
  obtain ⟨c, hvalues, -, hcast⟩ := value_semantics mixedUses_fresh hrun
  have hvalue : (run (Contents.step mixedTypes) Contents.new mixedUses).toOption.bind (· 0) = some (some ⟨false, 3⟩) := by
    decide +kernel
  rw [hvalues] at hvalue
  exact ⟨m, hrun, hcast 0 _ false hvalue, hcast 0 _ true hvalue⟩

/-- **Only a swap with itself is undefined.** After every run, the next input uses an object that does not exist, a
bad pointer, or memory with an object in it exactly if it swaps a container, its object in place, with itself. -/
theorem only_self_swap_undefined {i : Input T V} (hfresh : Along (step types) (AllocatesFresh types) Memory.new inputs)
    (hrun : run (step types) Memory.new inputs = .ok m) (hnext : AllocatesFresh types m i) :
    (∃ fault, fault ≠ .notEnabled ∧ step types m i = .error fault) ↔ SwapsSelf types m i := by
  obtain ⟨c, -, h⟩ := represents_run represents_new hfresh hrun
  constructor
  · rintro ⟨fault, hne, hstep⟩
    by_contra hself
    have hmatch := matches_step h hnext hself
    rw [hstep] at hmatch
    generalize hvalue : Contents.step types c i = x at hmatch
    cases hmatch with
    | error => exact hne (Contents.step_error hvalue)
  · intro hself
    exact ⟨.noObject, by decide, step_of_swapsSelf h hself⟩

theorem only_self_swap_undefined_mixedUses :
    ∃ m, run (step mixedTypes) Memory.new mixedUses = .ok m ∧
      ∃ fault, fault ≠ .notEnabled ∧ step mixedTypes m (.swap 0 0) = .error fault := by
  obtain ⟨m, hrun, -⟩ := mixedUses_run
  have hself : SwapsSelf mixedTypes m (.swap 0 0) := by
    have htest : (run (step mixedTypes) Memory.new mixedUses).toOption.map (fun m => (m.alive 0, m.vtable (.any 0))) =
        some (true, some false) := by
      decide +kernel
    rw [hrun] at htest
    obtain ⟨halive, hvtable⟩ := Prod.mk.inj (Option.some.inj htest)
    exact ⟨rfl, halive, false, hvtable, rfl⟩
  have hnext : AllocatesFresh mixedTypes m (.swap 0 0) := trivial
  exact ⟨m, hrun, (only_self_swap_undefined mixedUses_fresh hrun hnext).mpr hself⟩

/-- **Every object on the heap has its container.** None is forgotten, and no two containers share one; so nothing is
left on the heap when the containers are gone. -/
theorem heap_owned {a : Nat} (hfresh : Along (step types) (AllocatesFresh types) Memory.new inputs)
    (hrun : run (step types) Memory.new inputs = .ok m) (hmem : m.heap a = some object) :
    ∃! id, m.alive id = true ∧ m.vtable (.any id) = some object.type ∧ m.storage (.any id) = .dynamic (some a) := by
  obtain ⟨c, -, h⟩ := represents_run represents_new hfresh hrun
  obtain ⟨address, haddressed⟩ := h.rep
  obtain ⟨p, hp⟩ := haddressed.owned a object hmem
  obtain ⟨hstorage, hplaced⟩ := (hp ▸ haddressed.fits p).on_heap hmem
  -- the object is not on its way
  obtain ⟨id, rfl⟩ : ∃ id, p = .any id := by
    cases p with
    | any id => exact ⟨id, rfl⟩
    | temporary => cases hplaced
    | tmp => cases hplaced
    | tmpStorage => cases hplaced
  have hid : c id = some (some object) := Option.join_eq_some_iff.mp hplaced
  refine ⟨id, ⟨by rw [h.alive, hid]; rfl, by rw [h.typed_of_some hid]; rfl, hstorage⟩, ?_⟩
  rintro other ⟨halive, hvtable, hsame⟩
  have hother : c other ≠ none := by
    rw [h.alive, Option.isSome_iff_ne_none] at halive
    exact halive
  obtain ⟨object', hplaced', -⟩ := Option.map_eq_some_iff.mp ((h.typed other hother).symm.trans hvtable)
  have hfit := haddressed.fits (.any other)
  rw [hplaced'] at hfit
  have hat : address (.any other) = some a := hfit.address_of_dynamic hsame
  exact Place.any.inj (haddressed.one_owner _ _ a hat hp)

theorem heap_owned_mixedUses :
    ∃ m, run (step mixedTypes) Memory.new mixedUses = .ok m ∧
      ∃! id, m.alive id = true ∧ m.vtable (.any id) = some true ∧ m.storage (.any id) = .dynamic (some 6) := by
  obtain ⟨m, hrun, hheap⟩ := mixedUses_run
  exact ⟨m, hrun, heap_owned mixedUses_fresh hrun hheap⟩

end Realtinet.Any
