import NativeHelper.JniEnv
import NativeHelper.NioBuffers
import NativeHelper.UninterruptedGetters

/-! # The Java heap behind the cached ids

The helpers that use `JniConstants` get at Java objects through cached classes and ids.  A
`HelperM` program has the globals, the environment of its thread and the heap, and every access to
the heap is recorded, with whether the VM could make sense of it: the id is one of the current VM,
of the right type and static-ness, and of a class of the object (`HelperState.accessOk`). -/

namespace NativeHelper
namespace JniHelp

open JniConstants

/-! ### Objects -/

/-- A Java object: its class and what that extends, and its fields by the class that declares
them. -/
structure HeapObject where
  classes : List String
  intField : String × String → BitVec 32
  longField : String × String → BitVec 64

/-- What is done to the heap with a class or an id. -/
inductive Access where
  | newObject (clazz : Option JClass) (method : Option JMethodID)
  /-- A field of the type with this descriptor. -/
  | field (object : JavaObject) (field : Option JFieldID) (desc : String)
  /-- A method that returns a value with this first letter. -/
  | callMethod (object : JavaObject) (method : Option JMethodID) (ret : Char)
  | callStaticMethod (clazz : Option JClass) (method : Option JMethodID) (ret : Char)
deriving DecidableEq

structure HelperState where
  env : JniEnv
  constants : State
  heap : JavaObject → Option HeapObject
  nextObject : JavaObject
  /-- What was done, and whether it made sense. -/
  accesses : List (Access × Bool)

namespace HelperState
variable (s : HelperState)

/-- The object is there and an instance of the class. -/
def instanceOf (o : JavaObject) (clazz : String) : Bool :=
  (s.heap o).any fun obj => obj.classes.contains clazz

/-- The reference to a class is alive, in the current VM. -/
def liveClass (r : JClass) : Bool := r ∈ s.constants.globalRefs ∧ r.vm = s.constants.vm

/-- The letter after the arguments. -/
def returnLetter (signature : String) : Option Char :=
  (signature.toList.dropWhile (· ≠ ')')).tail.head?

def accessOk : Access → Bool
  | .newObject (some r) (some m) =>
      s.liveClass r && decide (m.vm = s.constants.vm ∧ m.clazz = r.name ∧ m.name = "<init>" ∧
        m.isStatic = false)
  | .field o (some f) desc =>
      decide (f.vm = s.constants.vm ∧ f.desc = desc) && s.instanceOf o f.clazz
  | .callMethod o (some m) ret =>
      decide (m.vm = s.constants.vm ∧ m.isStatic = false ∧
        returnLetter m.signature = some ret) && s.instanceOf o m.clazz
  | .callStaticMethod (some r) (some m) ret =>
      s.liveClass r && decide (m.vm = s.constants.vm ∧ m.clazz = r.name ∧ m.isStatic = true ∧
        returnLetter m.signature = some ret)
  | _ => false

end HelperState

/-! ### Programs -/

/-- A program over the globals, the environment and the heap. -/
def HelperM (α : Type) := HelperState → Except Stop (α × HelperState)

namespace HelperM
variable {α β : Type}

instance : Monad HelperM where
  pure a := fun s => .ok (a, s)
  bind x f := fun s => match x s with
    | .error stop => .error stop
    | .ok (a, s') => f a s'

@[simp] theorem pure_apply (a : α) (s : HelperState) : (pure a : HelperM α) s = .ok (a, s) := rfl

theorem bind_apply (x : HelperM α) (f : α → HelperM β) (s : HelperState) :
    (x >>= f) s = match x s with
      | .error stop => .error stop
      | .ok (a, s') => f a s' := rfl

/-- A program goes on after a part that completes. -/
theorem bind_ok {x : HelperM α} {s s' : HelperState} {a : α} (h : x s = .ok (a, s'))
    (f : α → HelperM β) : (x >>= f) s = f a s' := by
  rw [bind_apply, h]

end HelperM

def withConstants {α : Type} (x : ConstM α) : HelperM α := fun s =>
  match x s.constants with
  | .error stop => .error stop
  | .ok (a, constants) => .ok (a, { s with constants })

def withEnv {α : Type} (x : JniM α) : HelperM α := fun s =>
  .ok ((x s.env).1, { s with env := (x s.env).2 })

def logAccess (a : Access) : HelperM Unit := fun s =>
  .ok ((), { s with accesses := s.accesses ++ [(a, s.accessOk a)] })

def readHeap (o : JavaObject) : HelperM (Option HeapObject) := fun s => .ok (s.heap o, s)

def writeHeap (o : JavaObject) (obj : Option HeapObject) : HelperM Unit := fun s =>
  .ok ((), { s with heap := Function.update s.heap o obj })

/-- A new object. -/
def allocate (obj : HeapObject) : HelperM JavaObject := fun s =>
  .ok (s.nextObject, { s with heap := Function.update s.heap s.nextObject (some obj)
                              nextObject := s.nextObject + 1 })

/-! ### The functions of `JNIEnv` -/

/-- `NewObject`: an instance of the class with the fields the constructor gave it, or null. -/
def newInstance (answer : Answer HeapObject) (clazz : Option JClass) (method : Option JMethodID) :
    HelperM (Option Ref) := do
  logAccess (.newObject clazz method)
  match answer with
  | .value obj => do
      let o ← allocate { obj with classes := (clazz.map JClass.name).toList }
      return some (← withEnv (newLocalRef o))
  | .null thrown => do
      withEnv (raise thrown)
      return none

def getIntField (object : Ref) (field : Option JFieldID) : HelperM (BitVec 32) := do
  logAccess (.field object.object field "I")
  match ← readHeap object.object, field with
  | some obj, some f => return obj.intField (f.clazz, f.name)
  | _, _ => return 0

def getLongField (object : Ref) (field : Option JFieldID) : HelperM (BitVec 64) := do
  logAccess (.field object.object field "J")
  match ← readHeap object.object, field with
  | some obj, some f => return obj.longField (f.clazz, f.name)
  | _, _ => return 0

def setIntField (object : Ref) (field : Option JFieldID) (value : BitVec 32) : HelperM Unit := do
  logAccess (.field object.object field "I")
  match ← readHeap object.object, field with
  | some obj, some f =>
      writeHeap object.object
        (some { obj with intField := Function.update obj.intField (f.clazz, f.name) value })
  | _, _ => return ()

/-- A reference that Java code returns, or the exception it throws. -/
def refOrNull (answer : Answer JavaObject) : JniM (Option Ref) :=
  match answer with
  | .value o => do return some (← newLocalRef o)
  | .null thrown => do
      raise thrown
      return none

def callStaticObjectMethod (answer : Answer JavaObject) (clazz : Option JClass)
    (method : Option JMethodID) : HelperM (Option Ref) := do
  logAccess (.callStaticMethod clazz method 'L')
  withEnv (refOrNull answer)

/-- `CallStaticIntMethod`, which returns something even when it throws. -/
def callStaticIntMethod (value : BitVec 32) (thrown : Option JavaObject) (clazz : Option JClass)
    (method : Option JMethodID) : HelperM (BitVec 32) := do
  logAccess (.callStaticMethod clazz method 'I')
  withEnv (raise thrown)
  return value

def callObjectMethod (answer : Answer JavaObject) (object : Ref) (method : Option JMethodID) :
    HelperM (Option Ref) := do
  logAccess (.callMethod object.object method 'L')
  withEnv (refOrNull answer)

/-! ### Global references stay alive -/

/-- No global reference is lost. -/
def KeepsRefs {α : Type} (x : ConstM α) : Prop :=
  ∀ s a s', x s = .ok (a, s') → s.globalRefs ⊆ s'.globalRefs

section refs
variable {α β : Type}

theorem keepsRefs_pure (a : α) : KeepsRefs (pure a) := by
  rintro s _ _ ⟨⟩
  exact List.Subset.refl _

theorem KeepsRefs.bind {x : ConstM α} {f : α → ConstM β} (hx : KeepsRefs x)
    (hf : ∀ a, KeepsRefs (f a)) : KeepsRefs (x >>= f) := by
  intro s b s'' h
  obtain ⟨a, s', h₁, h₂⟩ := ConstM.bind_eq_ok h
  exact List.Subset.trans (hx s a s' h₁) (hf a s' b s'' h₂)

theorem keepsRefs_getState : KeepsRefs getState := by
  rintro s _ _ ⟨⟩
  exact List.Subset.refl _

theorem keepsRefs_setClass (g : ClassGlobal) (value : Option JClass) :
    KeepsRefs (setClass g value) := by
  rintro s _ _ ⟨⟩
  exact List.Subset.refl _

theorem keepsRefs_setMethod (g : MethodGlobal) (value : Option JMethodID) :
    KeepsRefs (setMethod g value) := by
  rintro s _ _ ⟨⟩
  exact List.Subset.refl _

theorem keepsRefs_findClass (l : Lookups) (name : String) : KeepsRefs (JniConstants.findClass l name) := by
  intro s r s' h
  rw [JniConstants.findClass] at h
  split_ifs at h with hf
  · rw [newGlobalRef] at h
    split_ifs at h with hn
    · cases h
      exact List.subset_append_left _ _
    · cases h
      exact List.Subset.refl _
  · cases h

theorem keepsRefs_classGetter (l : Lookups) (g : ClassGlobal) : KeepsRefs (classGetter l g) := by
  rw [classGetter_eq]
  have hensure : KeepsRefs (JniConstants.ensureClassReferencesInitialized l) := by
    unfold JniConstants.ensureClassReferencesInitialized
    refine keepsRefs_getState.bind fun s => ?_
    split_ifs
    · exact keepsRefs_pure _
    refine keepsRefs_getState.bind fun s => ?_
    split_ifs
    · exact keepsRefs_pure _
    -- the five classes
    iterate 5
      refine (keepsRefs_findClass l _).bind fun r => (keepsRefs_setClass _ r).bind fun _ => ?_
    rintro s _ _ ⟨⟩
    exact List.Subset.refl _
  exact hensure.bind fun _ => keepsRefs_getState.bind fun s => keepsRefs_pure _

theorem keepsRefs_find (l : Lookups) (g : MethodGlobal) (klass : Option JClass)
    (name signature : String) : KeepsRefs (g.find l klass name signature) := by
  intro s id s' h
  cases klass with
  | none => cases g <;> cases h
  | some r =>
      have heq : s' = s := by
        cases g <;> simp only [MethodGlobal.find, findMethod, findStaticMethod] at h <;>
          split_ifs at h <;> cases h <;> rfl
      rw [heq]
      exact List.Subset.refl _

theorem keepsRefs_methodGetter (l : Lookups) (g : MethodGlobal) : KeepsRefs (methodGetter l g) := by
  rw [methodGetter_eq_program]
  refine keepsRefs_getState.bind fun s => ?_
  split_ifs
  · refine (keepsRefs_classGetter l _).bind fun klass => ?_
    refine (keepsRefs_find l g klass _ _).bind fun id => (keepsRefs_setMethod g _).bind fun _ => ?_
    exact keepsRefs_getState.bind fun s => keepsRefs_pure _
  · exact keepsRefs_getState.bind fun s => keepsRefs_pure _

end refs

/-! ### What is kept -/

/-- The globals are good, and every access made sense. -/
structure Good (s : HelperState) : Prop where
  cached : Cached s.constants
  accesses : ∀ a ∈ s.accesses, a.2 = true
  fresh : ∀ o, s.nextObject ≤ o → s.heap o = none

/-- Only the globals and the record of the accesses may differ. -/
structure Quiet (s s' : HelperState) : Prop where
  good : Good s'
  env : s'.env = s.env
  heap : s'.heap = s.heap
  nextObject : s'.nextObject = s.nextObject

theorem Quiet.refl {s : HelperState} (h : Good s) : Quiet s s := ⟨h, rfl, rfl, rfl⟩

theorem Quiet.trans {s s₁ s₂ : HelperState} (h : Quiet s s₁) (h' : Quiet s₁ s₂) : Quiet s s₂ :=
  ⟨h'.good, h'.env.trans h.env, h'.heap.trans h.heap, h'.nextObject.trans h.nextObject⟩

section kept
variable {s : HelperState}

/-- An access that makes sense. -/
theorem logAccess_ok (hs : Good s) {a : Access} (ha : s.accessOk a = true) :
    ∃ s', logAccess a s = .ok ((), s') ∧ Quiet s s' ∧ s'.constants = s.constants := by
  refine ⟨_, rfl, ⟨⟨hs.cached, ?_, hs.fresh⟩, rfl, rfl, rfl⟩, rfl⟩
  intro a' ha'
  rcases List.mem_append.mp ha' with h | h
  · exact hs.accesses a' h
  · obtain rfl := List.mem_singleton.mp h
    exact ha

/-- A getter of the constants. -/
theorem withConstants_ok (hs : Good s) {α : Type} {x : ConstM (Option α)} {P : State → α → Prop}
    (hx : Returns x P) : ∃ a s', withConstants x s = .ok (some a, s') ∧ Quiet s s' ∧
      s'.constants.vm = s.constants.vm ∧ P s'.constants a := by
  obtain ⟨a, c, h, hc, hvm, hP⟩ := hx s.constants hs.cached
  refine ⟨a, { s with constants := c }, ?_, ⟨⟨hc, hs.accesses, hs.fresh⟩, rfl, rfl, rfl⟩, hvm, hP⟩
  rw [withConstants, h]

theorem withConstants_field (hs : Good s) {l : Lookups} (hl : l.Succeed) (g : FieldGlobal) :
    ∃ s', withConstants (fieldGetter l g) s = .ok (some (g.idIn s'.constants.vm), s') ∧
      Quiet s s' := by
  obtain ⟨_, s', h, hq, _, rfl⟩ := withConstants_ok hs (fieldGetter_returns hl g)
  exact ⟨s', h, hq⟩

theorem withConstants_method (hs : Good s) {l : Lookups} (hl : l.Succeed) (g : MethodGlobal) :
    ∃ s', withConstants (methodGetter l g) s = .ok (some (g.idIn s'.constants.vm), s') ∧
      Quiet s s' := by
  obtain ⟨_, s', h, hq, _, rfl⟩ := withConstants_ok hs (methodGetter_returns hl g)
  exact ⟨s', h, hq⟩

/-- A class and then a method of it: the class is still alive when the method is there. -/
theorem withConstants_classMethod (hs : Good s) {l : Lookups} (hl : l.Succeed) (c : ClassGlobal)
    (g : MethodGlobal) :
    ∃ r s₁ s₂, withConstants (classGetter l c) s = .ok (some r, s₁) ∧
      withConstants (methodGetter l g) s₁ = .ok (some (g.idIn s₂.constants.vm), s₂) ∧
      Quiet s s₂ ∧ s₂.liveClass r = true ∧ r.name = c.name := by
  obtain ⟨r, s₁, h₁, hq₁, -, hmem, hvm, hname⟩ := withConstants_ok hs (classGetter_returns hl c)
  obtain ⟨_, c₂, h₂, hc₂, hvm₂, rfl⟩ := methodGetter_returns hl g s₁.constants hq₁.good.cached
  have hsub := keepsRefs_methodGetter l g _ _ _ h₂
  have hq₂ : Quiet s₁ { s₁ with constants := c₂ } :=
    ⟨⟨hc₂, hq₁.good.accesses, hq₁.good.fresh⟩, rfl, rfl, rfl⟩
  refine ⟨r, s₁, { s₁ with constants := c₂ }, h₁, ?_, hq₁.trans hq₂, ?_, hname⟩
  · rw [withConstants, h₂]
  · exact decide_eq_true ⟨hsub hmem, hvm.trans hvm₂.symm⟩

/-! ### Fields -/

theorem FieldGlobal.idIn_eq (g : FieldGlobal) (vm : ℕ) :
    g.idIn vm = ⟨vm, g.clazz.name, g.fieldName, g.desc⟩ := by
  cases g <;> rfl

/-- The object has the field that is cached in `g`. -/
def HasField (s : HelperState) (r : Ref) (g : FieldGlobal) (obj : HeapObject) : Prop :=
  s.heap r.object = some obj ∧ g.clazz.name ∈ obj.classes

theorem HasField.quiet {s' : HelperState} {r : Ref} {g : FieldGlobal} {obj : HeapObject}
    (h : HasField s r g obj) (hq : Quiet s s') : HasField s' r g obj :=
  ⟨by rw [hq.heap]; exact h.1, h.2⟩

/-- The id of a field that an object has, and an access with it. -/
theorem field_ok (hs : Good s) {l : Lookups} (hl : l.Succeed) {r : Ref} {g : FieldGlobal}
    {obj : HeapObject} (ho : HasField s r g obj) :
    ∃ s₁ s₂ id, withConstants (fieldGetter l g) s = .ok (some id, s₁) ∧
      logAccess (.field r.object (some id) g.desc) s₁ = .ok ((), s₂) ∧ Quiet s s₂ ∧
      (id.clazz, id.name) = (g.clazz.name, g.fieldName) := by
  obtain ⟨s₁, h₁, hq₁⟩ := withConstants_field hs hl g
  have ho₁ := ho.quiet hq₁
  have hok : s₁.accessOk (.field r.object (some (g.idIn s₁.constants.vm)) g.desc) = true := by
    rw [FieldGlobal.idIn_eq, HelperState.accessOk, HelperState.instanceOf, ho₁.1]
    simpa using ho₁.2
  obtain ⟨s₂, h₂, hq₂, _⟩ := logAccess_ok hq₁.good hok
  exact ⟨s₁, s₂, _, h₁, h₂, hq₁.trans hq₂, by rw [FieldGlobal.idIn_eq]⟩

section reads
variable {l : Lookups} {r : Ref} {g : FieldGlobal} {obj : HeapObject}

/-- Reading a field of type `int` gives what the object has there. -/
theorem readInt_ok (hs : Good s) (hl : l.Succeed) (hd : g.desc = "I") (ho : HasField s r g obj) :
    ∃ s₁ s₂ id, withConstants (fieldGetter l g) s = .ok (id, s₁) ∧
      getIntField r id s₁ = .ok (obj.intField (g.clazz.name, g.fieldName), s₂) ∧ Quiet s s₂ := by
  obtain ⟨s₁, s₂, id, h₁, h₂, hq, hid⟩ := field_ok hs hl ho
  rw [hd] at h₂
  refine ⟨s₁, s₂, _, h₁, ?_, hq⟩
  have hread : readHeap r.object s₂ = .ok (some obj, s₂) := by
    rw [readHeap, (ho.quiet hq).1]
  rw [getIntField, HelperM.bind_ok h₂, HelperM.bind_ok hread, ← hid]
  rfl

theorem readLong_ok (hs : Good s) (hl : l.Succeed) (hd : g.desc = "J") (ho : HasField s r g obj) :
    ∃ s₁ s₂ id, withConstants (fieldGetter l g) s = .ok (id, s₁) ∧
      getLongField r id s₁ = .ok (obj.longField (g.clazz.name, g.fieldName), s₂) ∧ Quiet s s₂ := by
  obtain ⟨s₁, s₂, id, h₁, h₂, hq, hid⟩ := field_ok hs hl ho
  rw [hd] at h₂
  refine ⟨s₁, s₂, _, h₁, ?_, hq⟩
  have hread : readHeap r.object s₂ = .ok (some obj, s₂) := by
    rw [readHeap, (ho.quiet hq).1]
  rw [getLongField, HelperM.bind_ok h₂, HelperM.bind_ok hread, ← hid]
  rfl

/-- The object with another value in a field of type `int`. -/
def HeapObject.setInt (obj : HeapObject) (g : FieldGlobal) (value : BitVec 32) : HeapObject :=
  { obj with intField := Function.update obj.intField (g.clazz.name, g.fieldName) value }

theorem HeapObject.setInt_self (obj : HeapObject) (g : FieldGlobal) (value : BitVec 32) :
    (obj.setInt g value).intField (g.clazz.name, g.fieldName) = value := by
  simp only [HeapObject.setInt, Function.update_self]

theorem HeapObject.setInt_of_ne (obj : HeapObject) {g : FieldGlobal} (value : BitVec 32)
    {key : String × String} (h : key ≠ (g.clazz.name, g.fieldName)) :
    (obj.setInt g value).intField key = obj.intField key := by
  simp only [HeapObject.setInt, Function.update_of_ne h]

/-- Writing a field changes this field of this object. -/
theorem writeInt_ok (hs : Good s) (hl : l.Succeed) (hd : g.desc = "I") (ho : HasField s r g obj)
    (value : BitVec 32) :
    ∃ s', (do
        let field ← withConstants (fieldGetter l g)
        setIntField r field value) s = .ok ((), s') ∧
      Good s' ∧ s'.env = s.env ∧ s'.nextObject = s.nextObject ∧
      s'.heap = Function.update s.heap r.object (some (obj.setInt g value)) := by
  obtain ⟨s₁, s₂, id, h₁, h₂, hq, hid⟩ := field_ok hs hl ho
  rw [hd] at h₂
  have ho₂ := ho.quiet hq
  have hread : readHeap r.object s₂ = .ok (some obj, s₂) := by rw [readHeap, ho₂.1]
  have hset : setIntField r (some id) value s₁ =
      .ok ((), { s₂ with heap := Function.update s₂.heap r.object (some (obj.setInt g value)) }) := by
    rw [setIntField, HelperM.bind_ok h₂, HelperM.bind_ok hread, HeapObject.setInt, ← hid]
    rfl
  refine ⟨_, (HelperM.bind_ok h₁ _).trans hset, ⟨hq.good.cached, hq.good.accesses, ?_⟩, hq.env,
    hq.nextObject, congrArg (Function.update · _ _) hq.heap⟩
  intro o hle
  have hne : o ≠ r.object := by
    rintro rfl
    have := hq.good.fresh _ hle
    rw [ho₂.1] at this
    cases this
  change Function.update s₂.heap r.object _ o = none
  rw [Function.update_of_ne hne]
  exact hq.good.fresh o hle

end reads

end kept

end JniHelp
end NativeHelper
