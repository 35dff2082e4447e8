import NativeHelper.Interleaving
import NativeHelper.JniConstants

/-! # The getters of constants, one step at a time

The getters of `JniConstants` as threads run them: every load and store of the flag or of a global
and every operation on the mutex is one step.  A thread is the stack of the calls it is in.  While it
waits for `GetFieldID`, `GetMethodID` or `GetStaticMethodID`, the class may be initialized, and Java
code of the class may call getters again on the same thread.  `FindClass` and `NewGlobalRef` are
taken to run no code that calls getters (`mayCall`).

The steps are made of the operations of `JniConstants`, so a call that is not interrupted does what
its program there does: see `UninterruptedGetters`.  What a step can be is said once, by `ClassMove`
and `UninitializeMove`. -/

namespace NativeHelper
namespace JniConstants

/-! ### What the getters look up -/

/-- The classes in the order in which they are found. -/
def ClassGlobal.next : ClassGlobal → Option ClassGlobal
  | .fileDescriptorClass => some .nioAccessClass
  | .nioAccessClass => some .nioBufferClass
  | .nioBufferClass => some .referenceClass
  | .referenceClass => some .stringClass
  | .stringClass => none

namespace FieldGlobal

def clazz : FieldGlobal → ClassGlobal
  | fileDescriptorDescriptorField | fileDescriptorOwnerIdField => .fileDescriptorClass
  | nioBufferAddressField | nioBufferElementSizeShiftField => .nioBufferClass
  | nioBufferLimitField | nioBufferPositionField => .nioBufferClass

def fieldName : FieldGlobal → String
  | fileDescriptorDescriptorField => "descriptor"
  | fileDescriptorOwnerIdField => "ownerId"
  | nioBufferAddressField => "address"
  | nioBufferElementSizeShiftField => "_elementSizeShift"
  | nioBufferLimitField => "limit"
  | nioBufferPositionField => "position"

def desc : FieldGlobal → String
  | fileDescriptorDescriptorField => "I"
  | fileDescriptorOwnerIdField | nioBufferAddressField => "J"
  | nioBufferElementSizeShiftField | nioBufferLimitField | nioBufferPositionField => "I"

end FieldGlobal

namespace MethodGlobal

def clazz : MethodGlobal → ClassGlobal
  | fileDescriptorInitMethod => .fileDescriptorClass
  | nioAccessGetBaseArrayMethod | nioAccessGetBaseArrayOffsetMethod => .nioAccessClass
  | nioBufferArrayMethod | nioBufferArrayOffsetMethod => .nioBufferClass
  | referenceGetMethod => .referenceClass

def methodName : MethodGlobal → String
  | fileDescriptorInitMethod => "<init>"
  | nioAccessGetBaseArrayMethod => "getBaseArray"
  | nioAccessGetBaseArrayOffsetMethod => "getBaseArrayOffset"
  | nioBufferArrayMethod => "array"
  | nioBufferArrayOffsetMethod => "arrayOffset"
  | referenceGetMethod => "get"

def signature : MethodGlobal → String
  | fileDescriptorInitMethod => "()V"
  | nioAccessGetBaseArrayMethod => "(Ljava/nio/Buffer;)Ljava/lang/Object;"
  | nioAccessGetBaseArrayOffsetMethod => "(Ljava/nio/Buffer;)I"
  | nioBufferArrayMethod | referenceGetMethod => "()Ljava/lang/Object;"
  | nioBufferArrayOffsetMethod => "()I"

/-- The methods of `NIOAccess` are static. -/
def find (l : Lookups) : MethodGlobal → Option JClass → String → String → ConstM JMethodID
  | nioAccessGetBaseArrayMethod | nioAccessGetBaseArrayOffsetMethod => findStaticMethod l
  | fileDescriptorInitMethod | nioBufferArrayMethod => findMethod l
  | nioBufferArrayOffsetMethod | referenceGetMethod => findMethod l

end MethodGlobal

/-! ### Calls -/

inductive Getter where
  | clazz (g : ClassGlobal)
  | field (g : FieldGlobal)
  | method (g : MethodGlobal)
deriving DecidableEq, Repr

/-- What a call of a getter returned. -/
inductive Returned where
  | clazz (g : ClassGlobal) (value : Option JClass)
  | field (g : FieldGlobal) (value : Option JFieldID)
  | method (g : MethodGlobal) (value : Option JMethodID)
deriving DecidableEq, Repr

namespace Returned

def getter : Returned → Getter
  | clazz g _ => .clazz g
  | field g _ => .field g
  | method g _ => .method g

def isNull : Returned → Bool
  | clazz _ value => value.isNone
  | field _ value => value.isNone
  | method _ value => value.isNone

end Returned

/-- What all threads see. -/
structure Shared (T : Type) where
  globals : State
  /-- The thread that holds `g_class_refs_mutex`. -/
  owner : Option T
  /-- What the calls that have returned returned. -/
  returned : List Returned

namespace Shared
variable {T α : Type}

/-- An operation on the globals. -/
def exec (s : Shared T) (x : ConstM α) : Option (α × Shared T) :=
  match x s.globals with
  | .ok (a, globals) => some (a, { s with globals })
  | .error _ => none

def logReturn (s : Shared T) (r : Returned) : Shared T := { s with returned := s.returned ++ [r] }

end Shared

/-- What a call does next. -/
inductive Next (Pc V : Type) where
  | goto (pc : Pc)
  | returns (value : Option V)

/-! ### Classes -/

/-- Where a call of the getter of a class is, in `EnsureClassReferencesInitialized` except for
`loadClass`. -/
inductive ClassPc where
  | fastCheck
  /-- Waiting for the mutex. -/
  | lock
  | slowCheck
  | findClass (c : ClassGlobal)
  | storeClass (c : ClassGlobal) (klass : Option JClass)
  | storeInitialized
  | unlock
  | loadClass
deriving DecidableEq, Repr

section steps
variable {T : Type} (t : T) (l : Lookups) (s : Shared T)

/-- A step of the getter of the class in `g`. -/
def classStep (g : ClassGlobal) : ClassPc → Option (Shared T × Next ClassPc JClass)
  | .fastCheck => some (s, .goto (if s.globals.classRefsInitialized then .loadClass else .lock))
  | .lock => if s.owner = none then some ({ s with owner := some t }, .goto .slowCheck) else none
  | .slowCheck =>
      some (s, .goto (if s.globals.classRefsInitialized then .unlock
        else .findClass .fileDescriptorClass))
  | .findClass c => (s.exec (findClass l c.name)).map fun r => (r.2, .goto (.storeClass c r.1))
  | .storeClass c klass => (s.exec (setClass c klass)).map fun r =>
      (r.2, .goto (match c.next with
        | some c' => .findClass c'
        | none => .storeInitialized))
  | .storeInitialized => (s.exec (setInitialized true)).map fun r => (r.2, .goto .unlock)
  | .unlock => some ({ s with owner := none }, .goto .loadClass)
  | .loadClass => some (s, .returns (s.globals.classes g))

/-! ### Fields and methods -/

/-- Where a call of the getter of a field or a method is. -/
inductive IdPc (Id : Type) where
  | check
  /-- In the call of the getter of the class. -/
  | getClass (pc : ClassPc)
  /-- In the lookup, during which other getters can be called. -/
  | find (klass : Option JClass)
  | store (id : Id)
  | load
deriving DecidableEq, Repr

/-- What is particular to the getter of one field or method. -/
structure IdGetter (Id : Type) where
  clazz : ClassGlobal
  find : Lookups → Option JClass → ConstM Id
  load : State → Option Id
  store : Id → ConstM Unit
  returned : Option Id → Returned

/-- The getter of the field in `g`. -/
def FieldGlobal.code (g : FieldGlobal) : IdGetter JFieldID where
  clazz := g.clazz
  find l klass := findField l klass g.fieldName g.desc
  load s := s.fields g
  store id := setField g (some id)
  returned := .field g

/-- The getter of the method in `g`. -/
def MethodGlobal.code (g : MethodGlobal) : IdGetter JMethodID where
  clazz := g.clazz
  find l klass := g.find l klass g.methodName g.signature
  load s := s.methods g
  store id := setMethod g (some id)
  returned := .method g

/-- A step of the getter of a field or a method; nothing is left to do when it has returned. -/
def idStep {Id : Type} (getter : IdGetter Id) : IdPc Id → Option (Shared T × Option (IdPc Id))
  | .check =>
      some (s, some (if (getter.load s.globals).isNone then .getClass .fastCheck else .load))
  | .getClass pc => (classStep t l s getter.clazz pc).map fun r =>
      match r.2 with
      | .goto pc' => (r.1, some (.getClass pc'))
      | .returns klass => (r.1.logReturn (.clazz getter.clazz klass), some (.find klass))
  | .find klass => (s.exec (getter.find l klass)).map fun r => (r.2, some (.store r.1))
  | .store id => (s.exec (getter.store id)).map fun r => (r.2, some .load)
  | .load => some (s.logReturn (getter.returned (getter.load s.globals)), none)

/-! ### Uninitialize -/

/-- The stores of `Uninitialize`, which it makes while it holds the mutex. -/
def uninitializeStores : List (ConstM Unit) :=
  [setClass .fileDescriptorClass none,
   setField .fileDescriptorDescriptorField none,
   setField .fileDescriptorOwnerIdField none,
   setMethod .fileDescriptorInitMethod none,
   setClass .nioAccessClass none,
   setMethod .nioAccessGetBaseArrayMethod none,
   setMethod .nioAccessGetBaseArrayOffsetMethod none,
   setClass .nioBufferClass none,
   setField .nioBufferAddressField none,
   setField .nioBufferElementSizeShiftField none,
   setField .nioBufferLimitField none,
   setField .nioBufferPositionField none,
   setMethod .nioBufferArrayMethod none,
   setMethod .nioBufferArrayOffsetMethod none,
   setClass .referenceClass none,
   setMethod .referenceGetMethod none,
   setClass .stringClass none,
   setInitialized false]

/-- Where a call of `Uninitialize` is. -/
inductive UninitializePc where
  | lock
  /-- In front of the store with this number, or of the unlocking after the last one. -/
  | store (i : ℕ)
deriving DecidableEq, Repr

/-- A step of `Uninitialize`; nothing is left to do when it has returned. -/
def uninitializeStep : UninitializePc → Option (Shared T × Option UninitializePc)
  | .lock => if s.owner = none then some ({ s with owner := some t }, some (.store 0)) else none
  | .store i =>
      match uninitializeStores[i]? with
      | some x => (s.exec x).map fun r => (r.2, some (.store (i + 1)))
      | none => some ({ s with owner := none }, none)

/-! ### Threads -/

/-- A call on the stack of a thread. -/
inductive Frame where
  | classGetter (g : ClassGlobal) (pc : ClassPc)
  | fieldGetter (g : FieldGlobal) (pc : IdPc JFieldID)
  | methodGetter (g : MethodGlobal) (pc : IdPc JMethodID)
  | uninitializing (pc : UninitializePc)
deriving DecidableEq, Repr

def Getter.frame : Getter → Frame
  | .clazz g => .classGetter g .fastCheck
  | .field g => .fieldGetter g .check
  | .method g => .methodGetter g .check

/-- A step of a call, which is gone when it has returned. -/
def frameStep : Frame → Option (Shared T × Option Frame)
  | .classGetter g pc => (classStep t l s g pc).map fun r =>
      match r.2 with
      | .goto pc' => (r.1, some (.classGetter g pc'))
      | .returns klass => (r.1.logReturn (.clazz g klass), none)
  | .fieldGetter g pc => (idStep t l s g.code pc).map fun r => (r.1, r.2.map (.fieldGetter g))
  | .methodGetter g pc => (idStep t l s g.code pc).map fun r => (r.1, r.2.map (.methodGetter g))
  | .uninitializing pc => (uninitializeStep t s pc).map fun r => (r.1, r.2.map .uninitializing)

/-- What a thread can do. -/
inductive ThreadAction where
  | call (g : Getter)
  | uninitializeCall
  /-- One step of the innermost call, for which these lookups are answered. -/
  | advance (l : Lookups)

/-- Code that calls getters runs outside of all calls, and in a lookup of an id.  `FindClass` and
`NewGlobalRef`, which are called under the mutex, are taken to run no Java code that calls getters
or `Uninitialize`: such a call could lock the mutex a second time. -/
def mayCall : List Frame → Bool
  | [] => true
  | .fieldGetter _ (.find _) :: _ | .methodGetter _ (.find _) :: _ => true
  | _ => false

def threadStep : ThreadAction → Shared T → List Frame → Option (Shared T × List Frame)
  | .call g, s, stack => if mayCall stack then some (s, g.frame :: stack) else none
  | .uninitializeCall, s, stack =>
      if mayCall stack then some (s, .uninitializing .lock :: stack) else none
  | .advance _, _, [] => none
  | .advance l, s, frame :: rest =>
      (frameStep t l s frame).map fun r => (r.1, r.2.toList ++ rest)

end steps

/-! ### What a step can be -/

/-- What a step of the getter of the class in `g` can be. -/
inductive ClassMove {T : Type} (t : T) (l : Lookups) (s : Shared T) (g : ClassGlobal) :
    ClassPc → Shared T → Next ClassPc JClass → Prop
  | seenSet (hi : s.globals.classRefsInitialized = true) :
      ClassMove t l s g .fastCheck s (.goto .loadClass)
  | seenUnset (hi : s.globals.classRefsInitialized = false) :
      ClassMove t l s g .fastCheck s (.goto .lock)
  | lock (ho : s.owner = none) :
      ClassMove t l s g .lock { s with owner := some t } (.goto .slowCheck)
  | stillSet (hi : s.globals.classRefsInitialized = true) :
      ClassMove t l s g .slowCheck s (.goto .unlock)
  | stillUnset (hi : s.globals.classRefsInitialized = false) :
      ClassMove t l s g .slowCheck s (.goto (.findClass .fileDescriptorClass))
  | findClass {c : ClassGlobal} {r : Option JClass × Shared T}
      (hr : s.exec (findClass l c.name) = some r) :
      ClassMove t l s g (.findClass c) r.2 (.goto (.storeClass c r.1))
  | storeClass {c : ClassGlobal} {klass : Option JClass} {r : Unit × Shared T}
      (hr : s.exec (setClass c klass) = some r) :
      ClassMove t l s g (.storeClass c klass) r.2 (.goto (match c.next with
        | some c' => .findClass c'
        | none => .storeInitialized))
  | storeInitialized :
      ClassMove t l s g .storeInitialized
        { s with globals := { s.globals with classRefsInitialized := true } } (.goto .unlock)
  | unlock : ClassMove t l s g .unlock { s with owner := none } (.goto .loadClass)
  | loadClass : ClassMove t l s g .loadClass s (.returns (s.globals.classes g))

/-- What a step of `Uninitialize` can be. -/
inductive UninitializeMove {T : Type} (t : T) (s : Shared T) :
    UninitializePc → Shared T → Option UninitializePc → Prop
  | lock (ho : s.owner = none) :
      UninitializeMove t s .lock { s with owner := some t } (some (.store 0))
  | store {i : ℕ} {x : ConstM Unit} {r : Unit × Shared T} (hx : uninitializeStores[i]? = some x)
      (hr : s.exec x = some r) : UninitializeMove t s (.store i) r.2 (some (.store (i + 1)))
  | unlock {i : ℕ} (hi : uninitializeStores.length ≤ i) :
      UninitializeMove t s (.store i) { s with owner := none } none

/-- What comes of a step that continues with the outcome of another one. -/
theorem eq_some_of_map {α β γ : Type} {x : Option α} {f : α → β × γ} {b : β} {c : γ}
    (h : x.map f = some (b, c)) : ∃ a, x = some a ∧ (f a).1 = b ∧ (f a).2 = c := by
  obtain ⟨a, ha, e⟩ := Option.map_eq_some_iff.mp h
  exact ⟨a, ha, congrArg Prod.fst e, congrArg Prod.snd e⟩

section moves
variable {T : Type} {t : T} {l : Lookups} {s s' : Shared T}

theorem classStep_move {g : ClassGlobal} {pc : ClassPc} {next : Next ClassPc JClass}
    (h : classStep t l s g pc = some (s', next)) : ClassMove t l s g pc s' next := by
  cases pc with
  | fastCheck =>
      obtain ⟨rfl, rfl⟩ := Prod.mk.inj (Option.some.inj h)
      cases hi : s.globals.classRefsInitialized with
      | true => exact .seenSet hi
      | false => exact .seenUnset hi
  | lock =>
      rw [classStep] at h
      split_ifs at h with ho
      obtain ⟨rfl, rfl⟩ := Prod.mk.inj (Option.some.inj h)
      exact .lock ho
  | slowCheck =>
      obtain ⟨rfl, rfl⟩ := Prod.mk.inj (Option.some.inj h)
      cases hi : s.globals.classRefsInitialized with
      | true => exact .stillSet hi
      | false => exact .stillUnset hi
  | findClass c =>
      rw [classStep] at h
      obtain ⟨r, hr, rfl, rfl⟩ := eq_some_of_map h
      exact .findClass hr
  | storeClass c klass =>
      rw [classStep] at h
      obtain ⟨r, hr, rfl, rfl⟩ := eq_some_of_map h
      exact .storeClass hr
  | storeInitialized =>
      obtain ⟨rfl, rfl⟩ := Prod.mk.inj (Option.some.inj h)
      exact .storeInitialized
  | unlock =>
      obtain ⟨rfl, rfl⟩ := Prod.mk.inj (Option.some.inj h)
      exact .unlock
  | loadClass =>
      obtain ⟨rfl, rfl⟩ := Prod.mk.inj (Option.some.inj h)
      exact .loadClass

theorem uninitializeStep_move {pc : UninitializePc} {next : Option UninitializePc}
    (h : uninitializeStep t s pc = some (s', next)) : UninitializeMove t s pc s' next := by
  cases pc with
  | lock =>
      rw [uninitializeStep] at h
      split_ifs at h with ho
      obtain ⟨rfl, rfl⟩ := Prod.mk.inj (Option.some.inj h)
      exact .lock ho
  | store i =>
      rw [uninitializeStep] at h
      cases hx : uninitializeStores[i]? with
      | some x =>
          rw [hx] at h
          obtain ⟨r, hr, rfl, rfl⟩ := eq_some_of_map h
          exact .store hx hr
      | none =>
          rw [hx] at h
          obtain ⟨rfl, rfl⟩ := Prod.mk.inj (Option.some.inj h)
          exact .unlock (List.getElem?_eq_none_iff.mp hx)

end moves

/-! ### The process -/

/-- The state of the process: `T` are its threads. -/
abbrev Threads (T : Type) := Interleaving.Config T (Shared T) (List Frame)

/-- No thread has called a getter yet. -/
def Threads.start (T : Type) (vm : ℕ) : Threads T := ⟨⟨initial vm, none, []⟩, fun _ => []⟩

/-- The thread is about to lock the mutex that it holds. -/
def Threads.LocksTwice {T : Type} (c : Threads T) (t : T) : Prop :=
  c.shared.owner = some t ∧ ∃ rest,
    (∃ g, c.locals t = .classGetter g .lock :: rest) ∨
    (∃ g, c.locals t = .fieldGetter g (.getClass .lock) :: rest) ∨
    (∃ g, c.locals t = .methodGetter g (.getClass .lock) :: rest) ∨
    c.locals t = .uninitializing .lock :: rest

/-- `Uninitialize` makes its stores one after the other. -/
theorem uninitializeConstants_eq_stores :
    uninitializeConstants = uninitializeStores.foldr (fun x rest => do x; rest) (pure ()) := by
  funext s
  unfold uninitializeConstants uninitializeStores
  simp only [List.foldr_cons, List.foldr_nil, ConstM.bind_apply, ConstM.pure_apply, setClass,
    setField, setMethod, setInitialized]

end JniConstants
end NativeHelper
