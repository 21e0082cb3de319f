import Mathlib.Logic.Function.Basic
import Realtinet.TransitionSystem

/-! The container `any` of `any.h`, which keeps the context of a `UdpConnection`. A contained object
lives in the two words of the container, if its type fits and cannot throw when it is moved, or on the
heap; a table of functions, one for each type, knows which. The containers of a program are numbered,
and the objects that the functions make on their own way have places of their own: the unnamed `any` of
an assignment, `tmp` of `any::swap`, `tmp_storage` of `vtable_stack::swap`.

Nothing is done to an object that is not there: its use, its second destruction, or the construction of
another object on top of it end the run. -/

namespace Realtinet.Any

variable {T V : Type}

/-- The types of contained objects, `V` being their values: whether an object needs an allocation, and
what it is like after it has been moved from. -/
structure ValueTypes (T V : Type) where
  requiresAllocation : T → Bool
  movedFrom : T → V → V

structure Object (T V : Type) where
  type : T
  value : V
  deriving DecidableEq

/-- `storage_union`. -/
inductive Storage (T V : Type) where
  | unspecified
  | dynamic (p : Option Nat)
  | stack (object : Object T V)
  deriving DecidableEq

inductive Place where
  | any (id : Nat)
  | temporary
  | tmp
  | tmpStorage
  deriving DecidableEq

/-- The containers and their storages, and the objects on the heap. `vtable` is the table of a type or
null; `alive` says which of the program's containers exist. -/
structure Memory (T V : Type) where
  storage : Place → Storage T V
  vtable : Place → Option T
  alive : Nat → Bool
  heap : Nat → Option (Object T V)

/-- An input that cannot occur, or undefined behaviour: an object is used that does not exist, a
pointer is used that points to none, an object is constructed where another one lives. -/
inductive Fault where
  | notEnabled
  | noObject
  | badPointer
  | overwritten
  deriving DecidableEq, Repr

/-- How the construction of a contained object ends: by an exception (of its constructor, or of the
allocation), or with the object, for which the allocator has `address`, should it need one. -/
inductive Construction where
  | throws
  | succeeds (address : Nat)
  deriving DecidableEq, Repr

/-- A call that returns, or that ends with an exception. -/
inductive Completion (σ : Type) where
  | returns (m : σ)
  | throws (m : σ)

namespace Memory

def new : Memory T V :=
  ⟨fun _ => .unspecified, fun _ => none, fun _ => false, fun _ => none⟩

def setStorage (m : Memory T V) (p : Place) (storage : Storage T V) : Memory T V :=
  { m with storage := Function.update m.storage p storage }

def setVtable (m : Memory T V) (p : Place) (vtable : Option T) : Memory T V :=
  { m with vtable := Function.update m.vtable p vtable }

def setAlive (m : Memory T V) (id : Nat) (alive : Bool) : Memory T V :=
  { m with alive := Function.update m.alive id alive }

def setHeap (m : Memory T V) (address : Nat) (object : Option (Object T V)) : Memory T V :=
  { m with heap := Function.update m.heap address object }

@[simp] theorem setVtable_vtable (m : Memory T V) (p : Place) (vtable : Option T) :
    (m.setVtable p vtable).vtable = Function.update m.vtable p vtable := rfl

@[simp] theorem setVtable_alive (m : Memory T V) (p : Place) (vtable : Option T) :
    (m.setVtable p vtable).alive = m.alive := rfl

@[simp] theorem setAlive_vtable (m : Memory T V) (id : Nat) (alive : Bool) : (m.setAlive id alive).vtable = m.vtable := rfl

@[simp] theorem setAlive_alive (m : Memory T V) (id : Nat) (alive : Bool) :
    (m.setAlive id alive).alive = Function.update m.alive id alive := rfl

end Memory

section Code

variable [DecidableEq T] (types : ValueTypes T V)

/-! ### Objects in place and on the heap -/

/-- The object of the given type in a storage. -/
def stackObject (type : T) (p : Place) (m : Memory T V) : Except Fault V :=
  match m.storage p with
  | .stack object => if object.type = type then .ok object.value else .error .noObject
  | _ => .error .noObject

/-- `new (&storage.stack) T( ... )`. -/
def constructStack (object : Object T V) (p : Place) (m : Memory T V) : Except Fault (Memory T V) :=
  match m.storage p with
  | .stack _ => .error .overwritten
  | _ => .ok (m.setStorage p (.stack object))

def pointer (p : Place) (m : Memory T V) : Except Fault (Option Nat) :=
  match m.storage p with
  | .dynamic pointer => .ok pointer
  | _ => .error .badPointer

/-- `storage.dynamic = ...`. -/
def setPointer (p : Place) (pointer : Option Nat) (m : Memory T V) : Except Fault (Memory T V) :=
  match m.storage p with
  | .stack _ => .error .overwritten
  | _ => .ok (m.setStorage p (.dynamic pointer))

/-- The object of the given type a pointer points to. -/
def heapObject (type : T) (pointer : Option Nat) (m : Memory T V) : Except Fault (Nat × V) :=
  match pointer with
  | some address =>
      match m.heap address with
      | some object => if object.type = type then .ok (address, object.value) else .error .badPointer
      | none => .error .badPointer
  | none => .error .badPointer

/-- The allocator gives memory that is not in use. -/
def allocate (address : Nat) (object : Object T V) (m : Memory T V) : Except Fault (Memory T V) :=
  match m.heap address with
  | none => .ok (m.setHeap address (some object))
  | some _ => .error .notEnabled

/-- `delete`, which does nothing to a null pointer. -/
def deletePointer (type : T) (pointer : Option Nat) (m : Memory T V) : Except Fault (Memory T V) :=
  match pointer with
  | some address => do
      let _ ← heapObject type (some address) m
      .ok (m.setHeap address none)
  | none => .ok m

/-! ### The tables -/

namespace VtableDynamic

def destroy (type : T) (storage : Place) (m : Memory T V) : Except Fault (Memory T V) := do
  let p ← pointer storage m
  deletePointer type p m

/-- If the copy constructor throws, the memory is given back. -/
def copy (type : T) (src dest : Place) (construction : Construction) (m : Memory T V) :
    Except Fault (Completion (Memory T V)) := do
  let p ← pointer src m
  let (_, value) ← heapObject type p m
  match construction with
  | .throws => .ok (.throws m)
  | .succeeds address =>
      let m ← allocate address ⟨type, value⟩ m
      let m ← setPointer dest (some address) m
      .ok (.returns m)

def move (src dest : Place) (m : Memory T V) : Except Fault (Memory T V) := do
  let p ← pointer src m
  let m ← setPointer dest p m
  setPointer src none m

def swap (lhs rhs : Place) (m : Memory T V) : Except Fault (Memory T V) := do
  let p ← pointer lhs m
  let q ← pointer rhs m
  let m ← setPointer lhs q m
  setPointer rhs p m

end VtableDynamic

namespace VtableStack

def destroy (type : T) (storage : Place) (m : Memory T V) : Except Fault (Memory T V) := do
  let _ ← stackObject type storage m
  .ok (m.setStorage storage .unspecified)

def copy (type : T) (src dest : Place) (construction : Construction) (m : Memory T V) :
    Except Fault (Completion (Memory T V)) := do
  let value ← stackObject type src m
  match construction with
  | .throws => .ok (.throws m)
  | .succeeds _ =>
      let m ← constructStack ⟨type, value⟩ dest m
      .ok (.returns m)

def move (type : T) (src dest : Place) (m : Memory T V) : Except Fault (Memory T V) := do
  let value ← stackObject type src m
  let m ← constructStack ⟨type, value⟩ dest m
  destroy type src (m.setStorage src (.stack ⟨type, types.movedFrom type value⟩))

def swap (type : T) (lhs rhs : Place) (m : Memory T V) : Except Fault (Memory T V) := do
  let m ← move types type rhs .tmpStorage m
  let m ← move types type lhs rhs m
  move types type .tmpStorage lhs m

end VtableStack

/-! The functions of the table of a type, as `vtable_for_type` chooses them. -/

def destroy (type : T) (storage : Place) (m : Memory T V) : Except Fault (Memory T V) :=
  if types.requiresAllocation type then VtableDynamic.destroy type storage m
  else VtableStack.destroy type storage m

def copy (type : T) (src dest : Place) (construction : Construction) (m : Memory T V) :
    Except Fault (Completion (Memory T V)) :=
  if types.requiresAllocation type then VtableDynamic.copy type src dest construction m
  else VtableStack.copy type src dest construction m

def move (type : T) (src dest : Place) (m : Memory T V) : Except Fault (Memory T V) :=
  if types.requiresAllocation type then VtableDynamic.move src dest m
  else VtableStack.move types type src dest m

def swapStorage (type : T) (lhs rhs : Place) (m : Memory T V) : Except Fault (Memory T V) :=
  if types.requiresAllocation type then VtableDynamic.swap lhs rhs m
  else VtableStack.swap types type lhs rhs m

/-! ### The functions of `any` -/

def clear (this : Place) (m : Memory T V) : Except Fault (Memory T V) :=
  match m.vtable this with
  | some type => do
      let m ← destroy types type this m
      .ok (m.setVtable this none)
  | none => .ok m

/-- `any( ValueType&& )` with `construct` and `do_construct`. -/
def constructValue (this : Place) (object : Object T V) (construction : Construction) (m : Memory T V) :
    Except Fault (Completion (Memory T V)) := do
  let m := m.setVtable this (some object.type)
  match construction with
  | .throws => .ok (.throws m)
  | .succeeds address =>
      if types.requiresAllocation object.type then
        let m ← allocate address object m
        let m ← setPointer this (some address) m
        .ok (.returns m)
      else
        let m ← constructStack object this m
        .ok (.returns m)

/-- `any( const any& )`. -/
def copyConstruct (this rhs : Place) (construction : Construction) (m : Memory T V) :
    Except Fault (Completion (Memory T V)) :=
  let m := m.setVtable this (m.vtable rhs)
  match m.vtable rhs with
  | some type => copy types type rhs this construction m
  | none => .ok (.returns m)

/-- `any( any&& )`. -/
def moveConstruct (this rhs : Place) (m : Memory T V) : Except Fault (Memory T V) :=
  let m := m.setVtable this (m.vtable rhs)
  match m.vtable rhs with
  | some type => do
      let m ← move types type rhs this m
      .ok (m.setVtable rhs none)
  | none => .ok m

def moveUnlessEmpty (vtable : Option T) (src dest : Place) (m : Memory T V) : Except Fault (Memory T V) :=
  match vtable with
  | some type => move types type src dest m
  | none => .ok m

/-- `any::swap`: by moves through `tmp`, or by the function of the table the two share. -/
def swap (this rhs : Place) (m : Memory T V) : Except Fault (Memory T V) :=
  if m.vtable this ≠ m.vtable rhs then do
    let m ← moveConstruct types .tmp rhs m
    let m := m.setVtable rhs (m.vtable this)
    let m ← moveUnlessEmpty types (m.vtable this) this rhs m
    -- the last move sets both tables as the constructor does
    let m ← moveConstruct types this .tmp m
    clear types .tmp m
  else
    match m.vtable this with
    | some type => swapStorage types type this rhs m
    | none => .ok m

/-- The end of an assignment: the unnamed container is swapped with the one assigned to, and destroyed. -/
def swapTemporary (this : Place) (m : Memory T V) : Except Fault (Memory T V) := do
  let m ← swap types .temporary this m
  clear types .temporary m

/-- `operator=( const any& )`; `operator=( ValueType&& )` is the same with a value. -/
def copyAssign (this rhs : Place) (construction : Construction) (m : Memory T V) :
    Except Fault (Memory T V) := do
  match ← copyConstruct types .temporary rhs construction m with
  | .returns m => swapTemporary types this m
  | .throws m => .ok m

def assignValue (this : Place) (object : Object T V) (construction : Construction) (m : Memory T V) :
    Except Fault (Memory T V) := do
  match ← constructValue types .temporary object construction m with
  | .returns m => swapTemporary types this m
  | .throws m => .ok m

def moveAssign (this rhs : Place) (m : Memory T V) : Except Fault (Memory T V) := do
  let m ← moveConstruct types .temporary rhs m
  swapTemporary types this m

/-- What `cast` points to: the storage, or what `storage.dynamic` points to. -/
inductive Pointer where
  | stack (p : Place)
  | dynamic (pointer : Option Nat)
  deriving DecidableEq

/-- `any_cast` of a pointer to a container, itself null or not. -/
def anyCast (type : T) (operand : Option Place) (m : Memory T V) : Except Fault (Option Pointer) :=
  match operand with
  | some p =>
      if m.vtable p = some type then
        if types.requiresAllocation type then do
          let q ← pointer p m
          .ok (some (.dynamic q))
        else .ok (some (.stack p))
      else .ok none
  | none => .ok none

def load (type : T) (p : Pointer) (m : Memory T V) : Except Fault V :=
  match p with
  | .stack place => stackObject type place m
  | .dynamic pointer => do
      let (_, value) ← heapObject type pointer m
      .ok value

def store (object : Object T V) (p : Pointer) (m : Memory T V) : Except Fault (Memory T V) :=
  match p with
  | .stack place => do
      let _ ← stackObject object.type place m
      .ok (m.setStorage place (.stack object))
  | .dynamic pointer => do
      let (address, _) ← heapObject object.type pointer m
      .ok (m.setHeap address (some object))

/-- `any_cast<T>( operand )` of a container: its value, or `bad_any_cast`, here `none`. -/
def castValue (type : T) (operand : Place) (m : Memory T V) : Except Fault (Option V) := do
  match ← anyCast types type (some operand) m with
  | some p =>
      let value ← load type p m
      .ok (some value)
  | none => .ok none

/-- `any_cast<T>( std::move( operand ) )`: the value is moved out of the contained object, which stays. -/
def castMove (type : T) (operand : Place) (m : Memory T V) : Except Fault (Memory T V) := do
  match ← anyCast types type (some operand) m with
  | some p =>
      let value ← load type p m
      store ⟨type, types.movedFrom type value⟩ p m
  | none => .ok m

/-- `if ( T* p = any_cast<T>( &operand ) ) *p = ...`. -/
def castWrite (object : Object T V) (operand : Place) (m : Memory T V) : Except Fault (Memory T V) := do
  match ← anyCast types object.type (some operand) m with
  | some p => store object p m
  | none => .ok m

/-- What a program does with its containers. -/
inductive Input (T V : Type) where
  | construct (this : Nat)
  | constructValue (this : Nat) (object : Object T V) (construction : Construction)
  | copyConstruct (this rhs : Nat) (construction : Construction)
  | moveConstruct (this rhs : Nat)
  | destruct (this : Nat)
  | copyAssign (this rhs : Nat) (construction : Construction)
  | moveAssign (this rhs : Nat)
  | assignValue (this : Nat) (object : Object T V) (construction : Construction)
  | clear (this : Nat)
  | swap (this rhs : Nat)
  | castMove (type : T) (operand : Nat)
  | castWrite (object : Object T V) (operand : Nat)

/-- The container of a constructor exists if the constructor returns. -/
def born (this : Nat) : Completion (Memory T V) → Memory T V
  | .returns m => m.setAlive this true
  | .throws m => m

/-- Constructors are called for containers that do not exist, all other functions for those that do. -/
def step (m : Memory T V) : Input T V → Except Fault (Memory T V)
  | .construct this =>
      if m.alive this then .error .notEnabled
      else .ok (born this (.returns (m.setVtable (.any this) none)))
  | .constructValue this object construction =>
      if m.alive this then .error .notEnabled
      else (constructValue types (.any this) object construction m).map (born this)
  | .copyConstruct this rhs construction =>
      if m.alive this ∨ !m.alive rhs then .error .notEnabled
      else (copyConstruct types (.any this) (.any rhs) construction m).map (born this)
  | .moveConstruct this rhs =>
      if m.alive this ∨ !m.alive rhs then .error .notEnabled
      else (moveConstruct types (.any this) (.any rhs) m).map (·.setAlive this true)
  | .destruct this =>
      if m.alive this then (clear types (.any this) m).map (·.setAlive this false) else .error .notEnabled
  | .copyAssign this rhs construction =>
      if m.alive this ∧ m.alive rhs then copyAssign types (.any this) (.any rhs) construction m
      else .error .notEnabled
  | .moveAssign this rhs =>
      if m.alive this ∧ m.alive rhs then moveAssign types (.any this) (.any rhs) m else .error .notEnabled
  | .assignValue this object construction =>
      if m.alive this then assignValue types (.any this) object construction m else .error .notEnabled
  | .clear this => if m.alive this then clear types (.any this) m else .error .notEnabled
  | .swap this rhs =>
      if m.alive this ∧ m.alive rhs then swap types (.any this) (.any rhs) m else .error .notEnabled
  | .castMove type operand =>
      if m.alive operand then castMove types type (.any operand) m else .error .notEnabled
  | .castWrite object operand =>
      if m.alive operand then castWrite types object (.any operand) m else .error .notEnabled

end Code
end Realtinet.Any
