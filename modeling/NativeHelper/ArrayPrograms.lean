import NativeHelper.ScopedArrayRW
import NativeHelper.Windows

/-! # Programs over primitive array wrappers

A program works with any number of `Scoped<T>ArrayRO` and `Scoped<T>ArrayRW` objects, of which
several may be for one array, and Java code works on the arrays beside them.

Beside it stands the same program over the arrays themselves (`spec`), with the order of accesses
in which nobody can see a copy (`Allowed`): the read-only wrapper has a copy of its own of an array
that fits into its buffer, and the VM copies the others if it likes. -/

namespace NativeHelper
namespace ArrayPrograms

open Windows (Mode View Window Plain Shows setCell)

variable {O A V : Type}

/-! ### Objects of both classes -/

inductive Wrapper (A V : Type) where
  | ro (obj : ScopedArrayRO A V)
  | rw (obj : ScopedArrayRW A)

namespace Wrapper

/-- How an object of the class accesses its array. -/
def mode : Wrapper A V → Mode
  | .ro _ => .shared
  | .rw _ => .exclusive

def mJavaArray : Wrapper A V → Option A
  | .ro obj => obj.mJavaArray
  | .rw obj => obj.mJavaArray

def mRawArray : Wrapper A V → RawArray
  | .ro obj => obj.mRawArray
  | .rw obj => obj.mRawArray

/-- The elements in the buffer of the object. -/
def buffered : Wrapper A V → List V
  | .ro obj => (obj.mBuffer.take obj.mSize).reduceOption
  | .rw _ => []

/-- The constructor of a class without an array. -/
def empty : Mode → Wrapper A V
  | .shared => .ro ScopedArrayRO.constructEmpty
  | .exclusive => .rw ScopedArrayRW.constructEmpty

def construct (mode : Mode) (javaArray : Option A) (answer : Option Bool) (vm : ArrayVm A V) :
    Wrapper A V × ArrayVm A V :=
  match mode with
  | .shared => (ScopedArrayRO.construct javaArray answer vm).map .ro id
  | .exclusive => (ScopedArrayRW.construct javaArray answer vm).map .rw id

def reset (w : Wrapper A V) (javaArray : A) (answer : Option Bool) (vm : ArrayVm A V) :
    Wrapper A V × ArrayVm A V :=
  match w with
  | .ro obj => (obj.reset javaArray answer vm).map .ro id
  | .rw _ => (ScopedArrayRW.reset javaArray answer vm).map .rw id

def index : Wrapper A V → ArrayVm A V → ℕ → Option V
  | .ro obj => obj.index
  | .rw obj => obj.index

/-- `size()` -/
def size : Wrapper A V → ArrayVm A V → Option ℕ
  | .ro obj, _ => some obj.size
  | .rw obj, vm => obj.mJavaArray.map vm.getArrayLength

variable [DecidableEq A]

def destructor : Wrapper A V → ArrayVm A V → ArrayVm A V
  | .ro obj => obj.destructor
  | .rw obj => obj.destructor

/-- Only the read-write wrapper can be written through. -/
def assign : Wrapper A V → ArrayVm A V → ℕ → V → Option (ArrayVm A V)
  | .ro _ => fun _ _ _ => none
  | .rw obj => obj.assign

end Wrapper

/-! ### Programs -/

/-- The VM and the live objects. -/
structure State (O A V : Type) where
  vm : ArrayVm A V
  object : O → Option (Wrapper A V)

/-- What a program does with its objects, and what Java code does with the arrays.  `answer` is what
`Get<T>ArrayElements` does if it is called. -/
inductive Action (O A V : Type) where
  | constructEmpty (this : O) (mode : Mode)
  | construct (this : O) (mode : Mode) (javaArray : Option A) (answer : Option Bool)
  | reset (this : O) (javaArray : A) (answer : Option Bool)
  | read (this : O) (n : ℕ)
  | write (this : O) (n : ℕ) (v : V)
  | destroy (this : O)
  | javaRead (array : A) (n : ℕ)
  | javaWrite (array : A) (n : ℕ) (v : V)
deriving DecidableEq, Repr

def initial (contents : A → List V) : State O A V :=
  ⟨.initial contents, fun _ => none⟩

section programs
variable [DecidableEq O] [DecidableEq A]

def State.set (s : State O A V) (this : O) (r : Option (Wrapper A V) × ArrayVm A V) :
    State O A V :=
  ⟨r.2, Function.update s.object this r.1⟩

/-- One action, with what was read; only a dead object is constructed and only live ones are
used. -/
def step (s : State O A V) : Action O A V → Option (Option V × State O A V)
  | .constructEmpty this mode =>
      if (s.object this).isNone then some (none, s.set this (some (.empty mode), s.vm)) else none
  | .construct this mode javaArray answer =>
      if (s.object this).isNone then
        some (none, s.set this ((Wrapper.construct mode javaArray answer s.vm).map some id))
      else none
  | .reset this javaArray answer => do
      let w ← s.object this
      some (none, s.set this ((w.reset javaArray answer s.vm).map some id))
  | .read this n => do
      let w ← s.object this
      let v ← w.index s.vm n
      some (some v, s)
  | .write this n v => do
      let w ← s.object this
      let vm ← w.assign s.vm n v
      some (none, { s with vm := vm })
  | .destroy this => do
      let w ← s.object this
      some (none, s.set this (none, w.destructor s.vm))
  | .javaRead array n => do
      let v ← (s.vm.contents array)[n]?
      some (some v, s)
  | .javaWrite array n v =>
      if n < s.vm.getArrayLength array then
        some (none, { s with vm := s.vm.javaWrite array n v })
      else none

/-! ### Programs over the arrays themselves -/

/-- The arrays; for each live object its class and the array it has the elements of, if any; and
how often it threw. -/
structure Spec (O A V : Type) where
  contents : A → List V
  object : O → Option (Mode × Option A)
  thrown : ℕ

/-- The object gets elements: from its buffer or from the VM. -/
def obtains (mode : Mode) (length : ℕ) (answer : Option Bool) : Bool :=
  mode = .shared && length ≤ ScopedArrayRO.bufferSize || answer.isSome

/-- Who accesses which arrays. -/
def Spec.plain (t : Spec O A V) : Plain O A V :=
  ⟨t.contents, fun o => (t.object o).bind fun x => x.2.map fun a => (a, x.1)⟩

def Spec.set (t : Spec O A V) (this : O) (x : Option (Mode × Option A)) : Spec O A V :=
  { t with object := Function.update t.object this x }

/-- The program without wrappers. -/
def spec (t : Spec O A V) : Action O A V → Option V × Spec O A V
  | .constructEmpty this mode => (none, t.set this (some (mode, none)))
  | .construct this mode none _ =>
      (none, { t.set this (some (mode, none)) with thrown := t.thrown + 1 })
  | .construct this mode (some a) answer =>
      (none, t.set this (some (mode,
        if obtains mode (t.contents a).length answer then some a else none)))
  | .reset this javaArray answer =>
      (none, match t.object this with
        | none => t
        | some (mode, _) => t.set this (some (mode,
            if obtains mode (t.contents javaArray).length answer then some javaArray else none)))
  | .read this n => ((t.plain.access this).bind fun a => (t.contents a.1)[n]?, t)
  | .write this n v =>
      (none, match t.plain.access this with
        | none => t
        | some a => { t with contents := setCell t.contents a.1 n v })
  | .destroy this => (none, t.set this none)
  | .javaRead array n => ((t.contents array)[n]?, t)
  | .javaWrite array n v => (none, { t with contents := setCell t.contents array n v })

def initialSpec (contents : A → List V) : Spec O A V := ⟨contents, fun _ => none, 0⟩

/-- No array is written beside an object that has its elements, or touched beside a read-write one;
no `reset` finds elements in a read-write object, which it would lose with what was written to a
copy; and only elements below `size()` are used, of an object that has them. -/
def Allowed (t : Spec O A V) : Action O A V → Prop
  | .constructEmpty this _ => t.object this = none
  | .construct this mode javaArray _ =>
      t.object this = none ∧ ∀ a, javaArray = some a → t.plain.Opens a mode
  | .reset this javaArray _ => ∃ x, t.object this = some x ∧
      (x.1 = .exclusive → x.2 = none) ∧ t.plain.Opens javaArray x.1
  | .read this n => ∃ a, t.plain.access this = some a ∧ n < (t.contents a.1).length
  | .write this n _ =>
      ∃ array, t.plain.access this = some (array, .exclusive) ∧ n < (t.contents array).length
  | .destroy this => ∃ x, t.object this = some x
  | .javaRead array n => t.plain.NotExclusive array ∧ n < (t.contents array).length
  | .javaWrite array n _ => t.plain.Free array ∧ n < (t.contents array).length

end programs

end ArrayPrograms
end NativeHelper
