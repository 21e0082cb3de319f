import Mathlib.Logic.Equiv.Basic
import Realtinet.Any

/-! Where the objects of the containers are. `Rep` says which object each place has: in the storage itself, or on the
heap, where every object has exactly one place. Each function of a table, and each function of `any`, is described by
what it does to this map: it constructs or destroys one object, or exchanges what two places have. -/

namespace Realtinet.Any

variable {T V : Type} {types : ValueTypes T V}

/-! ### Which object is where -/

/-- The object of a place: none, one in the storage itself, or one on the heap at the address. -/
inductive Fits (types : ValueTypes T V) (m : Memory T V) (p : Place) : Option (Object T V) → Option Nat → Prop where
  | free (hfree : ∀ object, m.storage p ≠ .stack object) : Fits types m p none none
  | stack {object : Object T V} (hin : types.requiresAllocation object.type = false)
      (hstorage : m.storage p = .stack object) : Fits types m p (some object) none
  | dynamic {object : Object T V} {address : Nat} (hon : types.requiresAllocation object.type = true)
      (hstorage : m.storage p = .dynamic (some address)) (hheap : m.heap address = some object) :
      Fits types m p (some object) (some address)

/-- `f` says which object each place has, `address` where it is if it is on the heap: no two places
share one, and none is without its place. -/
structure Addressed (types : ValueTypes T V) (m : Memory T V) (f : Place → Option (Object T V))
    (address : Place → Option Nat) : Prop where
  fits : ∀ p, Fits types m p (f p) (address p)
  one_owner : ∀ p q a, address p = some a → address q = some a → p = q
  owned : ∀ a object, m.heap a = some object → ∃ p, address p = some a

def Rep (types : ValueTypes T V) (m : Memory T V) (f : Place → Option (Object T V)) : Prop :=
  ∃ address, Addressed types m f address

variable {m m' : Memory T V} {f : Place → Option (Object T V)} {address : Place → Option Nat} {p q src dest : Place}
  {object : Object T V} {content : Option (Object T V)} {storage : Storage T V}

theorem Fits.congr {a : Option Nat} (h : Fits types m p content a) (hstorage : m'.storage p = m.storage p)
    (hheap : ∀ b, a = some b → m'.heap b = m.heap b) : Fits types m' p content a := by
  cases h with
  | free hfree => exact .free (by rwa [hstorage])
  | stack hin hmem => exact .stack hin (by rwa [hstorage])
  | dynamic hon hmem hat => exact .dynamic hon (by rwa [hstorage]) (by rwa [hheap _ rfl])

theorem Fits.allocated {a : Nat} (h : Fits types m p content (some a)) : ∃ object, m.heap a = some object := by
  cases h with
  | dynamic hon hmem hat => exact ⟨_, hat⟩

theorem Fits.on_heap {a : Nat} (h : Fits types m p content (some a)) (hmem : m.heap a = some object) :
    m.storage p = .dynamic (some a) ∧ content = some object := by
  cases h with
  | dynamic hon hstorage hat => exact ⟨hstorage, hat.symm.trans hmem⟩

theorem Fits.address_of_dynamic {a : Nat} {b : Option Nat} (h : Fits types m p (some object) b)
    (hstorage : m.storage p = .dynamic (some a)) : b = some a := by
  cases h with
  | stack hin hstack =>
      rw [hstorage] at hstack
      cases hstack
  | dynamic hon hdynamic hat =>
      rw [hstorage] at hdynamic
      cases hdynamic
      rfl

theorem Rep.congr (h : Rep types m f) (hstorage : m'.storage = m.storage) (hheap : m'.heap = m.heap) :
    Rep types m' f := by
  obtain ⟨address, hfits, hone, howned⟩ := h
  refine ⟨address, ?_, hone, by rwa [hheap]⟩
  intro p
  exact (hfits p).congr (by rw [hstorage]) (fun b _ => by rw [hheap])

/-- A change at one place: its storage, and on the heap what only this place refers to. -/
theorem Addressed.at_place {a : Option Nat} (h : Addressed types m f address)
    (hstorage : ∀ q, q ≠ p → m'.storage q = m.storage q)
    (hheap : ∀ b, address p ≠ some b → a ≠ some b → m'.heap b = m.heap b)
    (hnew : ∀ b, a = some b → address p = some b ∨ m.heap b = none)
    (hold : ∀ b, address p = some b → a = some b ∨ m'.heap b = none) (hfits : Fits types m' p content a) :
    Addressed types m' (Function.update f p content) (Function.update address p a) := by
  -- no other place has the address that the place gets
  have hother : ∀ q b, q ≠ p → address q = some b → address p ≠ some b ∧ a ≠ some b := by
    intro q b hqp hq
    have hp : address p ≠ some b := fun hp => hqp (h.one_owner q p b hq hp)
    refine ⟨hp, fun ha => ?_⟩
    have hnone := (hnew b ha).resolve_left hp
    obtain ⟨object, hat⟩ := (hq ▸ h.fits q).allocated
    simp [hnone] at hat
  refine ⟨?_, ?_, ?_⟩
  · intro q
    by_cases hqp : q = p
    · subst hqp
      simpa using hfits
    · simp only [Function.update_of_ne hqp]
      refine (h.fits q).congr (hstorage q hqp) ?_
      intro b hb
      exact hheap b (hother q b hqp hb).1 (hother q b hqp hb).2
  · intro q r b hq hr
    by_cases hqp : q = p
    · by_cases hrp : r = p
      · rw [hqp, hrp]
      · rw [hqp, Function.update_self] at hq
        rw [Function.update_of_ne hrp] at hr
        exact absurd hq (hother r b hrp hr).2
    · rw [Function.update_of_ne hqp] at hq
      by_cases hrp : r = p
      · rw [hrp, Function.update_self] at hr
        exact absurd hr (hother q b hqp hq).2
      · rw [Function.update_of_ne hrp] at hr
        exact h.one_owner q r b hq hr
  · intro b object hmem
    by_cases ha : a = some b
    · exact ⟨p, by simpa using ha⟩
    · by_cases hp : address p = some b
      · simp [(hold b hp).resolve_left ha] at hmem
      · rw [hheap b hp ha] at hmem
        obtain ⟨q, hq⟩ := h.owned b object hmem
        have hqp : q ≠ p := by
          rintro rfl
          exact hp hq
        exact ⟨q, by rwa [Function.update_of_ne hqp]⟩

/-- Two places exchange what they have; an object on the heap stays there. -/
theorem Addressed.exchange (h : Addressed types m f address) (hheap : m'.heap = m.heap)
    (hother : ∀ r, r ≠ p → r ≠ q → m'.storage r = m.storage r)
    (hp : Fits types m' p (f q) (address q)) (hq : Fits types m' q (f p) (address p)) :
    Addressed types m' (f ∘ Equiv.swap p q) (address ∘ Equiv.swap p q) := by
  refine ⟨?_, ?_, ?_⟩
  · intro r
    by_cases hrp : r = p
    · subst hrp
      simpa using hp
    · by_cases hrq : r = q
      · subst hrq
        simpa using hq
      · simp only [Function.comp_apply, Equiv.swap_apply_of_ne_of_ne hrp hrq]
        exact (h.fits r).congr (hother r hrp hrq) (fun b _ => by rw [hheap])
  · intro r t a hr ht
    exact (Equiv.swap p q).injective (h.one_owner _ _ a hr ht)
  · intro a object hmem
    rw [hheap] at hmem
    obtain ⟨r, hr⟩ := h.owned a object hmem
    exact ⟨Equiv.swap p q r, by simpa using hr⟩

theorem Rep.free (h : Rep types m f) (hp : f p = none) (object : Object T V) : m.storage p ≠ .stack object := by
  obtain ⟨address, h⟩ := h
  have hfit := h.fits p
  rw [hp] at hfit
  generalize address p = a at hfit
  cases hfit with
  | free hfree => exact hfree object

/-- An object that needs no allocation comes, changes or goes in its storage; so does what is left in a
storage without an object. -/
theorem Addressed.in_place (h : Addressed types m f address) (hp : address p = none)
    (hfits : Fits types (m.setStorage p storage) p content none) :
    Addressed types (m.setStorage p storage) (Function.update f p content) (Function.update address p none) := by
  refine h.at_place ?_ ?_ ?_ ?_ hfits
  · intro q hqp
    exact Function.update_of_ne hqp _ _
  · intro b _ _
    rfl
  · intro b hb
    cases hb
  · intro b hb
    simp [hp] at hb

theorem Addressed.of_free (h : Addressed types m f address) (hp : f p = none) : address p = none := by
  have hfit := h.fits p
  rw [hp] at hfit
  generalize address p = a at hfit
  cases hfit with
  | free hfree => rfl

/-- An object is in its storage or on the heap, as its type requires. -/
theorem Addressed.of_some (h : Addressed types m f address) (hp : f p = some object) :
    (types.requiresAllocation object.type = false ∧ m.storage p = .stack object ∧ address p = none) ∨
      ∃ a, types.requiresAllocation object.type = true ∧ m.storage p = .dynamic (some a) ∧ m.heap a = some object ∧
        address p = some a := by
  have hfit := h.fits p
  rw [hp] at hfit
  generalize address p = a at hfit
  cases hfit with
  | stack hin hstorage => exact Or.inl ⟨hin, hstorage, rfl⟩
  | dynamic hon hstorage hheap => exact Or.inr ⟨_, hon, hstorage, hheap, rfl⟩

theorem Rep.construct_stack (h : Rep types m f) (hp : f p = none)
    (hin : types.requiresAllocation object.type = false) :
    Rep types (m.setStorage p (.stack object)) (Function.update f p (some object)) := by
  obtain ⟨address, h⟩ := h
  exact ⟨_, h.in_place (h.of_free hp) (.stack hin (Function.update_self _ _ _))⟩

theorem Rep.construct_dynamic {a : Nat} (h : Rep types m f) (hp : f p = none)
    (hon : types.requiresAllocation object.type = true) (hfresh : m.heap a = none) :
    Rep types ((m.setHeap a (some object)).setStorage p (.dynamic (some a))) (Function.update f p (some object)) := by
  obtain ⟨address, h⟩ := h
  refine ⟨_, h.at_place (p := p) (a := some a) ?_ ?_ ?_ ?_ ?_⟩
  · intro q hqp
    exact Function.update_of_ne hqp _ _
  · intro b _ hb
    exact Function.update_of_ne (fun hab => hb (congrArg some hab.symm)) _ _
  · rintro b ⟨⟩
    exact Or.inr hfresh
  · intro b hb
    simp [h.of_free hp] at hb
  · exact .dynamic hon (Function.update_self _ _ _) (Function.update_self _ _ _)

/-! ### The functions of the tables -/

/-- A call returns and has changed the objects and the tables, and no container has come or gone. -/
def Leaves (types : ValueTypes T V) (result : Except Fault (Memory T V)) (f : Place → Option (Object T V))
    (vtable : Place → Option T) (alive : Nat → Bool) : Prop :=
  ∃ m', result = .ok m' ∧ Rep types m' f ∧ m'.vtable = vtable ∧ m'.alive = alive

theorem constructStack_of_free (h : ∀ object, m.storage p ≠ .stack object) :
    constructStack object p m = .ok (m.setStorage p (.stack object)) := by
  rw [constructStack]
  split
  · rename_i other hother
    exact absurd hother (h other)
  · rfl

theorem setPointer_of_free {pointer : Option Nat} (h : ∀ object, m.storage p ≠ .stack object) :
    setPointer p pointer m = .ok (m.setStorage p (.dynamic pointer)) := by
  rw [setPointer]
  split
  · rename_i other hother
    exact absurd hother (h other)
  · rfl

theorem pointer_of_dynamic {q : Option Nat} (h : m.storage p = .dynamic q) : pointer p m = .ok q := by
  simp [pointer, h]

section Tables

variable [DecidableEq T]

theorem stackObject_of_stack (h : m.storage p = .stack object) :
    stackObject object.type p m = .ok object.value := by
  simp [stackObject, h]

theorem heapObject_of_heap {a : Nat} (h : m.heap a = some object) :
    heapObject object.type (some a) m = .ok (a, object.value) := by
  simp [heapObject, h]

theorem leaves_destroy (h : Rep types m f) (hp : f p = some object) :
    Leaves types (destroy types object.type p m) (Function.update f p none) m.vtable m.alive := by
  obtain ⟨address, h⟩ := h
  obtain ⟨hin, hstorage, hat⟩ | ⟨a, hon, hstorage, hheap, hat⟩ := h.of_some hp
  · refine ⟨m.setStorage p .unspecified, ?_, ⟨_, h.in_place hat (.free ?_)⟩, rfl, rfl⟩
    · simp [destroy, hin, VtableStack.destroy, stackObject_of_stack hstorage, bind, Except.bind]
    · simp [Memory.setStorage]
  · refine ⟨m.setHeap a none, ?_, ⟨_, h.at_place (p := p) (a := none) ?_ ?_ ?_ ?_ ?_⟩, rfl, rfl⟩
    · simp [destroy, hon, VtableDynamic.destroy, pointer_of_dynamic hstorage, deletePointer,
        heapObject_of_heap hheap, bind, Except.bind]
    · intro q hqp
      rfl
    · intro b hb _
      refine Function.update_of_ne ?_ _ _
      rintro rfl
      exact hb hat
    · intro b hb
      cases hb
    · intro b hb
      rw [hat] at hb
      cases hb
      exact Or.inr (Function.update_self _ _ _)
    · refine .free ?_
      simp [Memory.setHeap, hstorage]

theorem copy_throws (h : Rep types m f) (hsrc : f src = some object) :
    copy types object.type src dest .throws m = .ok (.throws m) := by
  obtain ⟨address, h⟩ := h
  obtain ⟨hin, hstorage, -⟩ | ⟨a, hon, hstorage, hheap, -⟩ := h.of_some hsrc
  · simp [copy, hin, VtableStack.copy, stackObject_of_stack hstorage, bind, Except.bind]
  · simp [copy, hon, VtableDynamic.copy, pointer_of_dynamic hstorage, heapObject_of_heap hheap, bind, Except.bind]

theorem copy_succeeds {a : Nat} (h : Rep types m f) (hsrc : f src = some object) (hdest : f dest = none)
    (hfresh : types.requiresAllocation object.type = true → m.heap a = none) :
    ∃ m', copy types object.type src dest (.succeeds a) m = .ok (.returns m') ∧
      Rep types m' (Function.update f dest (some object)) ∧ m'.vtable = m.vtable ∧ m'.alive = m.alive := by
  have hfree := h.free hdest
  have hrep := h
  obtain ⟨address, h⟩ := h
  obtain ⟨hin, hstorage, -⟩ | ⟨b, hon, hstorage, hheap, -⟩ := h.of_some hsrc
  · refine ⟨_, ?_, hrep.construct_stack hdest hin, rfl, rfl⟩
    simp [copy, hin, VtableStack.copy, stackObject_of_stack hstorage, constructStack_of_free hfree, bind, Except.bind]
  · have hnone := hfresh hon
    refine ⟨_, ?_, hrep.construct_dynamic hdest hon hnone, rfl, rfl⟩
    have hfree' : ∀ object', (m.setHeap a (some object)).storage dest ≠ .stack object' := hfree
    simp [copy, hon, VtableDynamic.copy, pointer_of_dynamic hstorage, heapObject_of_heap hheap, allocate, hnone,
      setPointer_of_free hfree', bind, Except.bind]

/-- The object that has been moved from is destroyed in its turn. -/
theorem destroy_moved (type : T) (value : V) (p : Place) (m : Memory T V) :
    VtableStack.destroy type p (m.setStorage p (.stack ⟨type, value⟩)) = .ok (m.setStorage p .unspecified) := by
  simp [VtableStack.destroy, stackObject, Memory.setStorage, bind, Except.bind]

/-- After a move the object is at the other place. -/
theorem leaves_move (h : Rep types m f) (hsrc : f src = some object) (hdest : f dest = none) :
    Leaves types (move types object.type src dest m) (f ∘ Equiv.swap src dest) m.vtable m.alive := by
  have hfree := h.free hdest
  have hne : src ≠ dest := by
    rintro rfl
    simp [hsrc] at hdest
  obtain ⟨address, h⟩ := h
  have haddress := h.of_free hdest
  obtain ⟨hin, hstorage, hat⟩ | ⟨a, hon, hstorage, hheap, hat⟩ := h.of_some hsrc
  · refine ⟨(m.setStorage dest (.stack object)).setStorage src .unspecified, ?_, ?_, rfl, rfl⟩
    · simp [move, hin, VtableStack.move, stackObject_of_stack hstorage, constructStack_of_free hfree,
        destroy_moved, bind, Except.bind]
    · refine ⟨_, h.exchange rfl ?_ ?_ ?_⟩
      · intro r hrs hrd
        simp [Memory.setStorage, hrs, hrd]
      · rw [hdest, haddress]
        exact .free (by simp [Memory.setStorage])
      · rw [hsrc, hat]
        exact .stack hin (by simp [Memory.setStorage, hne.symm])
  · refine ⟨(m.setStorage dest (.dynamic (some a))).setStorage src (.dynamic none), ?_, ?_, rfl, rfl⟩
    · have hfree' : ∀ other, (m.setStorage dest (.dynamic (some a))).storage src ≠ .stack other := by
        simp [Memory.setStorage, hne, hstorage]
      simp [move, hon, VtableDynamic.move, pointer_of_dynamic hstorage, setPointer_of_free hfree,
        setPointer_of_free hfree', bind, Except.bind]
    · refine ⟨_, h.exchange rfl ?_ ?_ ?_⟩
      · intro r hrs hrd
        simp [Memory.setStorage, hrs, hrd]
      · rw [hdest, haddress]
        exact .free (by simp [Memory.setStorage])
      · rw [hsrc, hat]
        exact .dynamic hon (by simp [Memory.setStorage, hne.symm]) hheap

omit [DecidableEq T] in
/-- Three moves by way of a place that has nothing. -/
theorem comp_swaps {lhs rhs mid : Place} (hne : lhs ≠ rhs) (hl : lhs ≠ mid) (hr : rhs ≠ mid) :
    ((f ∘ Equiv.swap rhs mid) ∘ Equiv.swap lhs rhs) ∘ Equiv.swap mid lhs = f ∘ Equiv.swap lhs rhs := by
  funext r
  simp only [Function.comp_apply]
  by_cases hrl : r = lhs
  · rw [hrl, Equiv.swap_apply_right, Equiv.swap_apply_of_ne_of_ne hl.symm hr.symm, Equiv.swap_apply_right,
      Equiv.swap_apply_left]
  · by_cases hrm : r = mid
    · rw [hrm, Equiv.swap_apply_left, Equiv.swap_apply_left, Equiv.swap_apply_left,
        Equiv.swap_apply_of_ne_of_ne hl.symm hr.symm]
    · rw [Equiv.swap_apply_of_ne_of_ne hrm hrl]
      by_cases hrr : r = rhs
      · rw [hrr, Equiv.swap_apply_right, Equiv.swap_apply_of_ne_of_ne hne hl]
      · rw [Equiv.swap_apply_of_ne_of_ne hrl hrr, Equiv.swap_apply_of_ne_of_ne hrr hrm]

/-- Two objects on the heap are swapped by their pointers. -/
theorem leaves_swap_dynamic {lhs rhs : Place} {left right : Object T V} (h : Rep types m f) (hne : lhs ≠ rhs)
    (hleft : f lhs = some left) (hright : f rhs = some right) (htype : left.type = right.type)
    (hrequires : types.requiresAllocation left.type = true) :
    Leaves types (swapStorage types left.type lhs rhs m) (f ∘ Equiv.swap lhs rhs) m.vtable m.alive := by
  have hrequires' : types.requiresAllocation right.type = true := htype ▸ hrequires
  obtain ⟨address, h⟩ := h
  obtain ⟨a, -, hstorageLeft, hheapLeft, hatLeft⟩ := (h.of_some hleft).resolve_left (by simp [hrequires])
  obtain ⟨b, -, hstorageRight, hheapRight, hatRight⟩ := (h.of_some hright).resolve_left (by simp [hrequires'])
  have hfree : ∀ other, m.storage lhs ≠ .stack other := by simp [hstorageLeft]
  have hfree' : ∀ other, (m.setStorage lhs (.dynamic (some b))).storage rhs ≠ .stack other := by
    simp [Memory.setStorage, hne.symm, hstorageRight]
  refine ⟨(m.setStorage lhs (.dynamic (some b))).setStorage rhs (.dynamic (some a)), ?_, ?_, rfl, rfl⟩
  · simp [swapStorage, hrequires, VtableDynamic.swap, pointer_of_dynamic hstorageLeft,
      pointer_of_dynamic hstorageRight, setPointer_of_free hfree, setPointer_of_free hfree', bind, Except.bind]
  · refine ⟨_, h.exchange rfl ?_ ?_ ?_⟩
    · intro r hrl hrr
      simp [Memory.setStorage, hrl, hrr]
    · rw [hright, hatRight]
      exact .dynamic hrequires' (by simp [Memory.setStorage, hne]) hheapRight
    · rw [hleft, hatLeft]
      exact .dynamic hrequires (by simp [Memory.setStorage]) hheapLeft

/-- Two objects in place are swapped by three moves. -/
theorem leaves_swap_stack {lhs rhs : Place} {left right : Object T V} (h : Rep types m f) (hne : lhs ≠ rhs)
    (hleft : f lhs = some left) (hright : f rhs = some right) (htype : left.type = right.type)
    (htmp : f .tmpStorage = none) (hrequires : types.requiresAllocation left.type = false) :
    Leaves types (swapStorage types left.type lhs rhs m) (f ∘ Equiv.swap lhs rhs) m.vtable m.alive := by
  have hl : lhs ≠ .tmpStorage := by
    rintro rfl
    simp [hleft] at htmp
  have hr : rhs ≠ .tmpStorage := by
    rintro rfl
    simp [hright] at htmp
  obtain ⟨m₁, hmove₁, h₁, hvtable₁, halive₁⟩ := leaves_move h hright htmp
  have hleft₁ : (f ∘ Equiv.swap rhs .tmpStorage) lhs = some left := by
    simp [Equiv.swap_apply_of_ne_of_ne hne hl, hleft]
  have hright₁ : (f ∘ Equiv.swap rhs .tmpStorage) rhs = none := by simp [htmp]
  obtain ⟨m₂, hmove₂, h₂, hvtable₂, halive₂⟩ := leaves_move h₁ hleft₁ hright₁
  have htmp₂ : ((f ∘ Equiv.swap rhs .tmpStorage) ∘ Equiv.swap lhs rhs) .tmpStorage = some right := by
    simp [Equiv.swap_apply_of_ne_of_ne hl.symm hr.symm, hright]
  have hleft₂ : ((f ∘ Equiv.swap rhs .tmpStorage) ∘ Equiv.swap lhs rhs) lhs = none := by simp [htmp]
  obtain ⟨m₃, hmove₃, h₃, hvtable₃, halive₃⟩ := leaves_move h₂ htmp₂ hleft₂
  simp only [move, hrequires, htype.symm] at hmove₁ hmove₂ hmove₃
  refine ⟨m₃, ?_, ?_, by rw [hvtable₃, hvtable₂, hvtable₁], by rw [halive₃, halive₂, halive₁]⟩
  · simp_all [swapStorage, VtableStack.swap, bind, Except.bind]
  · rwa [comp_swaps hne hl hr] at h₃

theorem leaves_swapStorage {lhs rhs : Place} {left right : Object T V} (h : Rep types m f) (hne : lhs ≠ rhs)
    (hleft : f lhs = some left) (hright : f rhs = some right) (htype : left.type = right.type)
    (htmp : f .tmpStorage = none) :
    Leaves types (swapStorage types left.type lhs rhs m) (f ∘ Equiv.swap lhs rhs) m.vtable m.alive := by
  cases hrequires : types.requiresAllocation left.type with
  | true => exact leaves_swap_dynamic h hne hleft hright htype hrequires
  | false => exact leaves_swap_stack h hne hleft hright htype htmp hrequires

/-! ### The functions of `any` -/

/-- The container has the table of its object. -/
def Typed (m : Memory T V) (f : Place → Option (Object T V)) (p : Place) : Prop :=
  m.vtable p = (f p).map Object.type

theorem leaves_clear (h : Rep types m f) (htyped : Typed m f p) :
    Leaves types (clear types p m) (Function.update f p none) (Function.update m.vtable p none) m.alive := by
  cases hp : f p with
  | none =>
      rw [Typed, hp] at htyped
      refine ⟨m, by simp [clear, htyped], ?_, ?_, rfl⟩
      · rw [← hp, Function.update_eq_self]
        exact h
      · exact (Function.update_eq_self_iff.mpr htyped.symm).symm
  | some object =>
      rw [Typed, hp] at htyped
      obtain ⟨m', hdestroy, hrep, hvtable, halive⟩ := leaves_destroy h hp
      refine ⟨m'.setVtable p none, by simp [clear, htyped, hdestroy, bind, Except.bind], hrep.congr rfl rfl, ?_, halive⟩
      rw [← hvtable]
      rfl

omit [DecidableEq T] in
theorem comp_swap_of_eq {β : Type} {g : Place → β} (h : g p = g q) : g ∘ Equiv.swap p q = g := by
  funext r
  by_cases hrp : r = p
  · simp [hrp, h]
  · by_cases hrq : r = q
    · simp [hrq, h]
    · simp [Equiv.swap_apply_of_ne_of_ne hrp hrq]

omit [DecidableEq T] in
theorem comp_swap_of_none (hq : f q = none) :
    f ∘ Equiv.swap p q = Function.update (Function.update f p none) q (f p) := by
  funext r
  rw [Function.comp_apply]
  by_cases hrq : r = q
  · rw [hrq, Function.update_self, Equiv.swap_apply_right]
  · rw [Function.update_of_ne hrq]
    by_cases hrp : r = p
    · rw [hrp, Function.update_self, Equiv.swap_apply_left, hq]
    · rw [Function.update_of_ne hrp, Equiv.swap_apply_of_ne_of_ne hrp hrq]

theorem leaves_moveUnlessEmpty {vtable : Option T} (h : Rep types m f) (htyped : vtable = (f src).map Object.type)
    (hdest : f dest = none) :
    Leaves types (moveUnlessEmpty types vtable src dest m) (f ∘ Equiv.swap src dest) m.vtable m.alive := by
  cases hsrc : f src with
  | none =>
      rw [hsrc] at htyped
      refine ⟨m, by simp [moveUnlessEmpty, htyped], ?_, rfl, rfl⟩
      rwa [comp_swap_of_eq (hsrc.trans hdest.symm)]
  | some object =>
      rw [hsrc] at htyped
      rw [htyped]
      exact leaves_move h hsrc hdest

theorem leaves_moveConstruct {this rhs : Place} (h : Rep types m f) (hne : this ≠ rhs) (htyped : Typed m f rhs)
    (hthis : f this = none) :
    Leaves types (moveConstruct types this rhs m) (f ∘ Equiv.swap rhs this)
      (Function.update (Function.update m.vtable this (m.vtable rhs)) rhs none) m.alive := by
  have hset : Rep types (m.setVtable this (m.vtable rhs)) f := h.congr rfl rfl
  have hread : (m.setVtable this (m.vtable rhs)).vtable rhs = m.vtable rhs := Function.update_of_ne hne.symm _ _
  cases hrhs : f rhs with
  | none =>
      rw [Typed, hrhs] at htyped
      refine ⟨m.setVtable this (m.vtable rhs), ?_, ?_, ?_, rfl⟩
      · simp only [moveConstruct, hread]
        simp [htyped]
      · rwa [comp_swap_of_eq (hrhs.trans hthis.symm)]
      · exact (Function.update_eq_self_iff.mpr (hread.trans htyped).symm).symm
  | some object =>
      rw [Typed, hrhs] at htyped
      obtain ⟨m', hmove, hrep, hvtable, halive⟩ := leaves_move hset hrhs hthis
      refine ⟨m'.setVtable rhs none, ?_, hrep.congr rfl rfl, ?_, halive⟩
      · simp only [moveConstruct, hread]
        rw [htyped] at hmove ⊢
        simp only [Option.map_some] at hmove ⊢
        simp [hmove, bind, Except.bind]
      · rw [Memory.setVtable_vtable, hvtable, Memory.setVtable_vtable]

/-- `swap` of two containers with one table. -/
theorem leaves_swap_same {this rhs : Place} (h : Rep types m f) (hne : this ≠ rhs) (hthis : Typed m f this)
    (hrhs : Typed m f rhs) (hstorage : f .tmpStorage = none) (hsame : m.vtable this = m.vtable rhs) :
    ∃ m', swap types this rhs m = .ok m' ∧ Rep types m' (f ∘ Equiv.swap this rhs) ∧
      (∀ q, q ≠ .tmp → m'.vtable q = m.vtable (Equiv.swap this rhs q)) ∧ m'.alive = m.alive := by
  have hunchanged : ∀ q, m.vtable q = m.vtable (Equiv.swap this rhs q) :=
    fun q => (congrFun (comp_swap_of_eq hsame) q).symm
  have htypes : (f this).map Object.type = (f rhs).map Object.type := hthis.symm.trans (hsame.trans hrhs)
  cases hleft : f this with
  | none =>
      have hright : f rhs = none := by
        rw [hleft] at htypes
        exact Option.map_eq_none_iff.mp htypes.symm
      rw [Typed, hleft] at hthis
      refine ⟨m, ?_, ?_, fun q _ => hunchanged q, rfl⟩
      · rw [swap, if_neg (not_not_intro hsame), hthis]
        rfl
      · rwa [comp_swap_of_eq (hleft.trans hright.symm)]
  | some left =>
      obtain ⟨right, hright, htype⟩ : ∃ right, f rhs = some right ∧ right.type = left.type := by
        rw [hleft] at htypes
        exact Option.map_eq_some_iff.mp htypes.symm
      obtain ⟨m', hswap, hrep, hvtable, halive⟩ := leaves_swapStorage h hne hleft hright htype.symm hstorage
      rw [Typed, hleft] at hthis
      refine ⟨m', ?_, hrep, ?_, halive⟩
      · rw [swap, if_neg (not_not_intro hsame), hthis]
        exact hswap
      · intro q _
        rw [hvtable]
        exact hunchanged q

/-- `swap` of two containers with different tables: three moves by way of `tmp`. -/
theorem leaves_swap_moves {this rhs : Place} (h : Rep types m f) (hne : this ≠ rhs) (hthis : Typed m f this)
    (hrhs : Typed m f rhs) (htmp : f .tmp = none) (ht : this ≠ .tmp) (hr : rhs ≠ .tmp)
    (hsame : m.vtable this ≠ m.vtable rhs) :
    ∃ m', swap types this rhs m = .ok m' ∧ Rep types m' (f ∘ Equiv.swap this rhs) ∧
      (∀ q, q ≠ .tmp → m'.vtable q = m.vtable (Equiv.swap this rhs q)) ∧ m'.alive = m.alive := by
  obtain ⟨m₁, hmove₁, h₁, hvtable₁, halive₁⟩ := leaves_moveConstruct h hr.symm hrhs htmp
  have hthis₁ : m₁.vtable this = m.vtable this := by
    rw [hvtable₁, Function.update_of_ne hne, Function.update_of_ne ht]
  have htmp₁ : m₁.vtable .tmp = m.vtable rhs := by
    rw [hvtable₁, Function.update_of_ne hr.symm, Function.update_self]
  -- from `this` to `rhs`
  have htyped₁ : m₁.vtable this = ((f ∘ Equiv.swap rhs .tmp) this).map Object.type := by
    rw [hthis₁, Function.comp_apply, Equiv.swap_apply_of_ne_of_ne hne ht]
    exact hthis
  have hset : Rep types (m₁.setVtable rhs (m₁.vtable this)) (f ∘ Equiv.swap rhs .tmp) := h₁.congr rfl rfl
  have hfree₁ : (f ∘ Equiv.swap rhs .tmp) rhs = none := by simp [htmp]
  obtain ⟨m₂, hmove₂, h₂, hvtable₂, halive₂⟩ := leaves_moveUnlessEmpty hset htyped₁ hfree₁
  have htmp₂ : m₂.vtable .tmp = m.vtable rhs := by
    rw [hvtable₂, Memory.setVtable_vtable, Function.update_of_ne hr.symm, htmp₁]
  -- from `tmp` to `this`
  have htyped₂ : Typed m₂ ((f ∘ Equiv.swap rhs .tmp) ∘ Equiv.swap this rhs) .tmp := by
    rw [Typed, htmp₂, Function.comp_apply, Equiv.swap_apply_of_ne_of_ne ht.symm hr.symm, Function.comp_apply,
      Equiv.swap_apply_right]
    exact hrhs
  have hfree₂ : ((f ∘ Equiv.swap rhs .tmp) ∘ Equiv.swap this rhs) this = none := by simp [htmp]
  obtain ⟨m₃, hmove₃, h₃, hvtable₃, halive₃⟩ := leaves_moveConstruct h₂ ht htyped₂ hfree₂
  have htmp₃ : m₃.vtable .tmp = none := by rw [hvtable₃, Function.update_self]
  refine ⟨m₃, ?_, ?_, ?_, by rw [halive₃, halive₂, Memory.setVtable_alive, halive₁]⟩
  · rw [swap, if_pos hsame]
    simp only [bind, Except.bind, hmove₁]
    have hself : (m₁.setVtable rhs (m₁.vtable this)).vtable this = m₁.vtable this := Function.update_of_ne hne _ _
    rw [hself, hmove₂]
    simp only [hmove₃]
    rw [clear, htmp₃]
  · rwa [comp_swaps hne ht hr] at h₃
  · intro q hq
    rw [hvtable₃, Function.update_of_ne hq]
    by_cases hqt : q = this
    · rw [hqt, Function.update_self, Equiv.swap_apply_left, htmp₂]
    · rw [Function.update_of_ne hqt, hvtable₂, Memory.setVtable_vtable]
      by_cases hqr : q = rhs
      · rw [hqr, Function.update_self, Equiv.swap_apply_right, hthis₁]
      · rw [Function.update_of_ne hqr, hvtable₁, Function.update_of_ne hqr, Function.update_of_ne hq,
          Equiv.swap_apply_of_ne_of_ne hqt hqr]

/-- `swap` of two containers exchanges their objects and their tables. -/
theorem leaves_swap {this rhs : Place} (h : Rep types m f) (hne : this ≠ rhs) (hthis : Typed m f this)
    (hrhs : Typed m f rhs) (htmp : f .tmp = none) (hstorage : f .tmpStorage = none) (ht : this ≠ .tmp) (hr : rhs ≠ .tmp) :
    ∃ m', swap types this rhs m = .ok m' ∧ Rep types m' (f ∘ Equiv.swap this rhs) ∧
      (∀ q, q ≠ .tmp → m'.vtable q = m.vtable (Equiv.swap this rhs q)) ∧ m'.alive = m.alive := by
  by_cases hsame : m.vtable this = m.vtable rhs
  · exact leaves_swap_same h hne hthis hrhs hstorage hsame
  · exact leaves_swap_moves h hne hthis hrhs htmp ht hr hsame

/-- A container swapped with itself, if it is empty or has its object on the heap. -/
theorem leaves_swap_self (h : Rep types m f) (hp : Typed m f p)
    (hon : ∀ object, f p = some object → types.requiresAllocation object.type = true) :
    Leaves types (swap types p p m) f m.vtable m.alive := by
  rw [swap, if_neg (not_not_intro rfl)]
  cases hobject : f p with
  | none =>
      rw [Typed, hobject] at hp
      rw [hp]
      exact ⟨m, rfl, h, rfl, rfl⟩
  | some object =>
      rw [Typed, hobject] at hp
      rw [hp]
      have hrep := h
      obtain ⟨address, h⟩ := h
      have hrequires := hon object hobject
      obtain ⟨a, -, hstorage, -, -⟩ := (h.of_some hobject).resolve_left (by simp [hrequires])
      have hfree : ∀ other, m.storage p ≠ .stack other := by simp [hstorage]
      have hsame : m.setStorage p (.dynamic (some a)) = m := by
        rw [Memory.setStorage, ← hstorage, Function.update_eq_self]
      refine ⟨m, ?_, hrep, rfl, rfl⟩
      simp [swapStorage, hrequires, VtableDynamic.swap, pointer_of_dynamic hstorage, setPointer_of_free hfree,
        hsame, bind, Except.bind]

/-- If the object is in place, it is destroyed, and then read again. -/
theorem swap_self_of_stack (h : Rep types m f) (hp : Typed m f p) (hobject : f p = some object)
    (hin : types.requiresAllocation object.type = false) (htmp : f .tmpStorage = none) :
    swap types p p m = .error .noObject := by
  obtain ⟨m', hmove, hrep, -⟩ := leaves_move h hobject htmp
  have hgone : ∀ other, m'.storage p ≠ .stack other := hrep.free (by simp [htmp])
  have hread : stackObject object.type p m' = .error .noObject := by
    rw [stackObject]
    split
    · rename_i other hother
      exact absurd hother (hgone other)
    · rfl
  rw [Typed, hobject] at hp
  rw [swap, if_neg (not_not_intro rfl), hp]
  simp only [move, hin] at hmove
  simp_all [swapStorage, VtableStack.swap, VtableStack.move, bind, Except.bind]

theorem copyConstruct_throws {this rhs : Place} (h : Rep types m f) (hrhs : Typed m f rhs) (hne : this ≠ rhs)
    (hobject : f rhs = some object) :
    copyConstruct types this rhs .throws m = .ok (.throws (m.setVtable this (m.vtable rhs))) := by
  have hread : (m.setVtable this (m.vtable rhs)).vtable rhs = m.vtable rhs := Function.update_of_ne hne.symm _ _
  have hset : Rep types (m.setVtable this (m.vtable rhs)) f := h.congr rfl rfl
  simp only [copyConstruct, hread]
  rw [Typed, hobject] at hrhs
  have hthrows : copy types object.type rhs this .throws (m.setVtable this (m.vtable rhs)) = .ok (.throws _) :=
    copy_throws hset hobject
  rw [hrhs] at hthrows ⊢
  exact hthrows

/-- The container that is constructed has what the other one has, which keeps it. -/
theorem copyConstruct_returns {this rhs : Place} {construction : Construction} (h : Rep types m f) (hrhs : Typed m f rhs)
    (hne : this ≠ rhs) (hthis : f this = none)
    (hsucceeds : ∀ object, f rhs = some object → ∃ a, construction = .succeeds a ∧
      (types.requiresAllocation object.type = true → m.heap a = none)) :
    ∃ m', copyConstruct types this rhs construction m = .ok (.returns m') ∧
      Rep types m' (Function.update f this (f rhs)) ∧
      m'.vtable = Function.update m.vtable this (m.vtable rhs) ∧ m'.alive = m.alive := by
  have hread : (m.setVtable this (m.vtable rhs)).vtable rhs = m.vtable rhs := Function.update_of_ne hne.symm _ _
  have hset : Rep types (m.setVtable this (m.vtable rhs)) f := h.congr rfl rfl
  simp only [copyConstruct, hread]
  cases hobject : f rhs with
  | none =>
      rw [Typed, hobject] at hrhs
      refine ⟨m.setVtable this (m.vtable rhs), by rw [hrhs]; rfl, ?_, rfl, rfl⟩
      rw [← hthis, Function.update_eq_self]
      exact h.congr rfl rfl
  | some object =>
      obtain ⟨a, rfl, hfresh⟩ := hsucceeds object hobject
      obtain ⟨m', hcopy, hrep, hvtable, halive⟩ := copy_succeeds (a := a) hset hobject hthis hfresh
      rw [Typed, hobject] at hrhs
      refine ⟨m', ?_, hrep, hvtable, halive⟩
      rw [hrhs] at hcopy ⊢
      exact hcopy

omit [DecidableEq T] in
theorem constructValue_returns {this : Place} {a : Nat} (h : Rep types m f) (hthis : f this = none)
    (hfresh : types.requiresAllocation object.type = true → m.heap a = none) :
    ∃ m', constructValue types this object (.succeeds a) m = .ok (.returns m') ∧
      Rep types m' (Function.update f this (some object)) ∧
      m'.vtable = Function.update m.vtable this (some object.type) ∧ m'.alive = m.alive := by
  have hset : Rep types (m.setVtable this (some object.type)) f := h.congr rfl rfl
  have hfree := hset.free hthis
  cases hrequires : types.requiresAllocation object.type with
  | false =>
      refine ⟨_, ?_, hset.construct_stack hthis hrequires, rfl, rfl⟩
      simp [constructValue, hrequires, constructStack_of_free hfree, bind, Except.bind]
  | true =>
      have hnone : (m.setVtable this (some object.type)).heap a = none := hfresh hrequires
      refine ⟨_, ?_, hset.construct_dynamic hthis hrequires hnone, rfl, rfl⟩
      have hfree' : ∀ other,
          ((m.setVtable this (some object.type)).setHeap a (some object)).storage this ≠ .stack other := hfree
      simp [constructValue, hrequires, allocate, hnone, setPointer_of_free hfree', bind, Except.bind]

/-- `any_cast` to the type of the object leads to it. -/
theorem anyCast_eq_some (h : Rep types m f) (hp : Typed m f p) (hobject : f p = some object) :
    ∃ pointer, anyCast types object.type (some p) m = .ok (some pointer) ∧ load object.type pointer m = .ok object.value ∧
      ∀ value, Leaves types (store ⟨object.type, value⟩ pointer m) (Function.update f p (some ⟨object.type, value⟩))
        m.vtable m.alive := by
  rw [Typed, hobject] at hp
  obtain ⟨address, h⟩ := h
  obtain ⟨hin, hstorage, hat⟩ | ⟨a, hon, hstorage, hheap, hat⟩ := h.of_some hobject
  · refine ⟨.stack p, by simp [anyCast, hp, hin], stackObject_of_stack hstorage, ?_⟩
    intro value
    refine ⟨m.setStorage p (.stack ⟨object.type, value⟩), ?_, ⟨_, h.in_place hat ?_⟩, rfl, rfl⟩
    · simp [store, stackObject_of_stack hstorage, bind, Except.bind]
    · exact .stack hin (Function.update_self _ _ _)
  · refine ⟨.dynamic (some a), ?_, ?_, ?_⟩
    · simp [anyCast, hp, hon, pointer_of_dynamic hstorage, bind, Except.bind]
    · simp [load, heapObject_of_heap hheap, bind, Except.bind]
    · intro value
      refine ⟨m.setHeap a (some ⟨object.type, value⟩), ?_, ⟨_, h.at_place (p := p) (a := some a) ?_ ?_ ?_ ?_ ?_⟩, rfl, rfl⟩
      · simp [store, heapObject_of_heap hheap, bind, Except.bind]
      · intro q _
        rfl
      · intro b _ hb
        exact Function.update_of_ne (fun hab => hb (congrArg some hab.symm)) _ _
      · intro b hb
        exact Or.inl (hat.trans hb)
      · intro b hb
        exact Or.inl (hat.symm.trans hb)
      · exact .dynamic hon hstorage (Function.update_self _ _ _)

theorem anyCast_eq_none {type : T} (hp : Typed m f p) (hother : ∀ object, f p = some object → object.type ≠ type) :
    anyCast types type (some p) m = .ok none := by
  have hne : m.vtable p ≠ some type := by
    rw [hp]
    intro heq
    obtain ⟨object, hobject, htype⟩ := Option.map_eq_some_iff.mp heq
    exact hother object hobject htype
  simp [anyCast, hne]

end Tables

end Realtinet.Any
