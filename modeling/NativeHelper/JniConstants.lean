import Mathlib.Data.Set.Function
import NativeHelper.Transition

/-! # Cached classes, fields and methods

`JniConstants`: seventeen globals that cache global references and ids, filled on first use.  The
classes are filled together behind one flag, every id behind its own null test, and
`uninitializeConstants` sets all of them back before a new VM is started.

A reference or an id belongs to the VM that handed it out.  `Cached` says that what the globals
hold belongs to the current VM and to their own class, name, signature and static-ness; every
step of a run keeps it (`step_cached`), so a getter returns what a lookup in the current VM
would (`getter_transparent`). -/

namespace NativeHelper
namespace JniConstants

/-! ### The VM -/

/-- A global reference to a class, and the VM that handed it out. -/
structure JClass where
  vm : ℕ
  id : ℕ
  name : String
deriving DecidableEq, Repr

/-- The id of a field of a class of a VM. -/
structure JFieldID where
  vm : ℕ
  clazz : String
  name : String
  desc : String
deriving DecidableEq, Repr

/-- The id of a method of a class of a VM. -/
structure JMethodID where
  vm : ℕ
  clazz : String
  name : String
  signature : String
  isStatic : Bool
deriving DecidableEq, Repr

/-- Which of the lookups of a call the VM answers. -/
structure Lookups where
  findClass : String → Bool
  newGlobalRef : String → Bool
  getFieldID : String → String → Bool
  getMethodID : String → String → Bool
  getStaticMethodID : String → String → Bool

/-- Every lookup is answered. -/
def Lookups.Succeed (l : Lookups) : Prop :=
  (∀ name, l.findClass name = true) ∧ (∀ name, l.newGlobalRef name = true) ∧
    (∀ name desc, l.getFieldID name desc = true) ∧ (∀ name sig, l.getMethodID name sig = true) ∧
    ∀ name sig, l.getStaticMethodID name sig = true

/-! ### The globals -/

inductive ClassGlobal where
  | fileDescriptorClass | nioAccessClass | nioBufferClass | referenceClass | stringClass
deriving DecidableEq, Repr

inductive FieldGlobal where
  | fileDescriptorDescriptorField | fileDescriptorOwnerIdField
  | nioBufferAddressField | nioBufferElementSizeShiftField
  | nioBufferLimitField | nioBufferPositionField
deriving DecidableEq, Repr

inductive MethodGlobal where
  | fileDescriptorInitMethod
  | nioAccessGetBaseArrayMethod | nioAccessGetBaseArrayOffsetMethod
  | nioBufferArrayMethod | nioBufferArrayOffsetMethod
  | referenceGetMethod
deriving DecidableEq, Repr

/-- The variables of `JniConstants.cpp`, with the current VM and its global references. -/
structure State where
  classes : ClassGlobal → Option JClass
  fields : FieldGlobal → Option JFieldID
  methods : MethodGlobal → Option JMethodID
  /-- `g_class_refs_initialized` -/
  classRefsInitialized : Bool
  vm : ℕ
  globalRefs : List JClass

/-- Why a call does not return. -/
inductive Stop where
  /-- `ALOG_ALWAYS_FATAL_IF` -/
  | abort
  /-- A lookup in a null class. -/
  | nullClass
deriving DecidableEq, Repr

/-- A program over the globals. -/
def ConstM (α : Type) := State → Except Stop (α × State)

namespace ConstM
variable {α β : Type}

instance : Monad ConstM where
  pure a := fun s => .ok (a, s)
  bind x f := fun s => match x s with
    | .error stop => .error stop
    | .ok (a, s') => f a s'

@[simp] theorem pure_apply (a : α) (s : State) : (pure a : ConstM α) s = .ok (a, s) := rfl

@[simp] theorem bind_apply (x : ConstM α) (f : α → ConstM β) (s : State) :
    (x >>= f) s = match x s with
      | .error stop => .error stop
      | .ok (a, s') => f a s' := rfl

/-- A sequence that completes completes in two parts. -/
theorem bind_eq_ok {x : ConstM α} {f : α → ConstM β} {s s'' : State} {b : β}
    (h : (x >>= f) s = .ok (b, s'')) : ∃ a s', x s = .ok (a, s') ∧ f a s' = .ok (b, s'') := by
  rw [bind_apply] at h
  cases hx : x s with
  | error stop =>
      rw [hx] at h
      cases h
  | ok r =>
      rw [hx] at h
      exact ⟨r.1, r.2, rfl, h⟩

end ConstM

def stop {α : Type} (why : Stop) : ConstM α := fun _ => .error why

def getState : ConstM State := fun s => .ok (s, s)

def setClass (g : ClassGlobal) (value : Option JClass) : ConstM Unit := fun s =>
  .ok ((), { s with classes := Function.update s.classes g value })

def setField (g : FieldGlobal) (value : Option JFieldID) : ConstM Unit := fun s =>
  .ok ((), { s with fields := Function.update s.fields g value })

def setMethod (g : MethodGlobal) (value : Option JMethodID) : ConstM Unit := fun s =>
  .ok ((), { s with methods := Function.update s.methods g value })

def setInitialized (value : Bool) : ConstM Unit := fun s =>
  .ok ((), { s with classRefsInitialized := value })

/-- `NewGlobalRef`, for a class of this name. -/
def newGlobalRef (l : Lookups) (name : String) : ConstM (Option JClass) := fun s =>
  if l.newGlobalRef name then
    let r : JClass := ⟨s.vm, s.globalRefs.length, name⟩
    .ok (some r, { s with globalRefs := s.globalRefs ++ [r] })
  else .ok (none, s)

/-! ### Lookups -/

section lookups
variable (l : Lookups)

def findClass (name : String) : ConstM (Option JClass) :=
  if l.findClass name then newGlobalRef l name else stop .abort

def findField (klass : Option JClass) (name desc : String) : ConstM JFieldID :=
  match klass with
  | none => stop .nullClass
  | some klass =>
      if l.getFieldID name desc then return ⟨klass.vm, klass.name, name, desc⟩ else stop .abort

def findMethod (klass : Option JClass) (name signature : String) : ConstM JMethodID :=
  match klass with
  | none => stop .nullClass
  | some klass =>
      if l.getMethodID name signature then return ⟨klass.vm, klass.name, name, signature, false⟩
      else stop .abort

def findStaticMethod (klass : Option JClass) (name signature : String) : ConstM JMethodID :=
  match klass with
  | none => stop .nullClass
  | some klass =>
      if l.getStaticMethodID name signature then
        return ⟨klass.vm, klass.name, name, signature, true⟩
      else stop .abort

/-! ### Getters -/

/-- `EnsureClassReferencesInitialized`; the lock between the two tests is free when calls do not
overlap. -/
def ensureClassReferencesInitialized : ConstM Unit := do
  if (← getState).classRefsInitialized then return ()
  else if (← getState).classRefsInitialized then return ()
  else do
    setClass .fileDescriptorClass (← findClass l "java/io/FileDescriptor")
    setClass .nioAccessClass (← findClass l "java/nio/NIOAccess")
    setClass .nioBufferClass (← findClass l "java/nio/Buffer")
    setClass .referenceClass (← findClass l "java/lang/ref/Reference")
    setClass .stringClass (← findClass l "java/lang/String")
    setInitialized true

/-- The getter of the class in `g`. -/
def cachedClass (g : ClassGlobal) : ConstM (Option JClass) := do
  ensureClassReferencesInitialized l
  return (← getState).classes g

/-- The getter of the field in `g`. -/
def cachedField (g : FieldGlobal) (getClass : ConstM (Option JClass)) (name desc : String) :
    ConstM (Option JFieldID) := do
  if ((← getState).fields g).isNone then do
    let klass ← getClass
    setField g (some (← findField l klass name desc))
  return (← getState).fields g

/-- The getter of the method in `g`, looked up with `find`. -/
def cachedMethod (find : Option JClass → String → String → ConstM JMethodID) (g : MethodGlobal)
    (getClass : ConstM (Option JClass)) (name signature : String) : ConstM (Option JMethodID) := do
  if ((← getState).methods g).isNone then do
    let klass ← getClass
    setMethod g (some (← find klass name signature))
  return (← getState).methods g

def getFileDescriptorClass := cachedClass l .fileDescriptorClass

def getNioAccessClass := cachedClass l .nioAccessClass

def getNioBufferClass := cachedClass l .nioBufferClass

def getReferenceClass := cachedClass l .referenceClass

def getStringClass := cachedClass l .stringClass

def getFileDescriptorDescriptorField :=
  cachedField l .fileDescriptorDescriptorField (getFileDescriptorClass l) "descriptor" "I"

def getFileDescriptorOwnerIdField :=
  cachedField l .fileDescriptorOwnerIdField (getFileDescriptorClass l) "ownerId" "J"

def getFileDescriptorInitMethod :=
  cachedMethod (findMethod l) .fileDescriptorInitMethod (getFileDescriptorClass l) "<init>" "()V"

def getNioAccessGetBaseArrayMethod :=
  cachedMethod (findStaticMethod l) .nioAccessGetBaseArrayMethod (getNioAccessClass l)
    "getBaseArray" "(Ljava/nio/Buffer;)Ljava/lang/Object;"

def getNioAccessGetBaseArrayOffsetMethod :=
  cachedMethod (findStaticMethod l) .nioAccessGetBaseArrayOffsetMethod (getNioAccessClass l)
    "getBaseArrayOffset" "(Ljava/nio/Buffer;)I"

def getNioBufferAddressField :=
  cachedField l .nioBufferAddressField (getNioBufferClass l) "address" "J"

def getNioBufferElementSizeShiftField :=
  cachedField l .nioBufferElementSizeShiftField (getNioBufferClass l) "_elementSizeShift" "I"

def getNioBufferLimitField :=
  cachedField l .nioBufferLimitField (getNioBufferClass l) "limit" "I"

def getNioBufferPositionField :=
  cachedField l .nioBufferPositionField (getNioBufferClass l) "position" "I"

def getNioBufferArrayMethod :=
  cachedMethod (findMethod l) .nioBufferArrayMethod (getNioBufferClass l)
    "array" "()Ljava/lang/Object;"

def getNioBufferArrayOffsetMethod :=
  cachedMethod (findMethod l) .nioBufferArrayOffsetMethod (getNioBufferClass l) "arrayOffset" "()I"

def getReferenceGetMethod :=
  cachedMethod (findMethod l) .referenceGetMethod (getReferenceClass l)
    "get" "()Ljava/lang/Object;"

end lookups

/-- `JniConstants::Uninitialize`. -/
def uninitializeConstants : ConstM Unit := do
  setClass .fileDescriptorClass none
  setField .fileDescriptorDescriptorField none
  setField .fileDescriptorOwnerIdField none
  setMethod .fileDescriptorInitMethod none
  setClass .nioAccessClass none
  setMethod .nioAccessGetBaseArrayMethod none
  setMethod .nioAccessGetBaseArrayOffsetMethod none
  setClass .nioBufferClass none
  setField .nioBufferAddressField none
  setField .nioBufferElementSizeShiftField none
  setField .nioBufferLimitField none
  setField .nioBufferPositionField none
  setMethod .nioBufferArrayMethod none
  setMethod .nioBufferArrayOffsetMethod none
  setClass .referenceClass none
  setMethod .referenceGetMethod none
  setClass .stringClass none
  setInitialized false

/-- The library starts a new VM. -/
def startJavaVM : ConstM Unit := fun s => .ok ((), { s with vm := s.vm + 1, globalRefs := [] })

/-- `JNI_CreateJavaVM` as far as the globals go. -/
def jniCreateJavaVM : ConstM Unit := do
  uninitializeConstants
  startJavaVM

/-! ### Runs -/

section getters
variable (l : Lookups)

def classGetter : ClassGlobal → ConstM (Option JClass)
  | .fileDescriptorClass => getFileDescriptorClass l
  | .nioAccessClass => getNioAccessClass l
  | .nioBufferClass => getNioBufferClass l
  | .referenceClass => getReferenceClass l
  | .stringClass => getStringClass l

def fieldGetter : FieldGlobal → ConstM (Option JFieldID)
  | .fileDescriptorDescriptorField => getFileDescriptorDescriptorField l
  | .fileDescriptorOwnerIdField => getFileDescriptorOwnerIdField l
  | .nioBufferAddressField => getNioBufferAddressField l
  | .nioBufferElementSizeShiftField => getNioBufferElementSizeShiftField l
  | .nioBufferLimitField => getNioBufferLimitField l
  | .nioBufferPositionField => getNioBufferPositionField l

def methodGetter : MethodGlobal → ConstM (Option JMethodID)
  | .fileDescriptorInitMethod => getFileDescriptorInitMethod l
  | .nioAccessGetBaseArrayMethod => getNioAccessGetBaseArrayMethod l
  | .nioAccessGetBaseArrayOffsetMethod => getNioAccessGetBaseArrayOffsetMethod l
  | .nioBufferArrayMethod => getNioBufferArrayMethod l
  | .nioBufferArrayOffsetMethod => getNioBufferArrayOffsetMethod l
  | .referenceGetMethod => getReferenceGetMethod l

end getters

/-- One call of a run. -/
inductive Action where
  | getClass (g : ClassGlobal) (l : Lookups)
  | getField (g : FieldGlobal) (l : Lookups)
  | getMethod (g : MethodGlobal) (l : Lookups)
  | uninitializeConstants
  | createJavaVM

/-- The lookups of the call are answered. -/
def Action.Succeeds : Action → Prop
  | .getClass _ l | .getField _ l | .getMethod _ l => l.Succeed
  | .uninitializeConstants | .createJavaVM => True

/-- The state a completed call leaves behind. -/
def after {α : Type} : Except Stop (α × State) → Option State
  | .ok (_, s) => some s
  | .error _ => none

def step (s : State) : Action → Option State
  | .getClass g l => after (classGetter l g s)
  | .getField g l => after (fieldGetter l g s)
  | .getMethod g l => after (methodGetter l g s)
  | .uninitializeConstants => after (uninitializeConstants s)
  | .createJavaVM => after (jniCreateJavaVM s)

/-- The globals when the process starts, in front of the VM `vm`. -/
def initial (vm : ℕ) : State := ⟨fun _ => none, fun _ => none, fun _ => none, false, vm, []⟩

/-! ### What a lookup in a VM gives -/

def ClassGlobal.name : ClassGlobal → String
  | .fileDescriptorClass => "java/io/FileDescriptor"
  | .nioAccessClass => "java/nio/NIOAccess"
  | .nioBufferClass => "java/nio/Buffer"
  | .referenceClass => "java/lang/ref/Reference"
  | .stringClass => "java/lang/String"

def FieldGlobal.idIn (vm : ℕ) : FieldGlobal → JFieldID
  | .fileDescriptorDescriptorField => ⟨vm, "java/io/FileDescriptor", "descriptor", "I"⟩
  | .fileDescriptorOwnerIdField => ⟨vm, "java/io/FileDescriptor", "ownerId", "J"⟩
  | .nioBufferAddressField => ⟨vm, "java/nio/Buffer", "address", "J"⟩
  | .nioBufferElementSizeShiftField => ⟨vm, "java/nio/Buffer", "_elementSizeShift", "I"⟩
  | .nioBufferLimitField => ⟨vm, "java/nio/Buffer", "limit", "I"⟩
  | .nioBufferPositionField => ⟨vm, "java/nio/Buffer", "position", "I"⟩

def MethodGlobal.idIn (vm : ℕ) : MethodGlobal → JMethodID
  | .fileDescriptorInitMethod => ⟨vm, "java/io/FileDescriptor", "<init>", "()V", false⟩
  | .nioAccessGetBaseArrayMethod =>
      ⟨vm, "java/nio/NIOAccess", "getBaseArray", "(Ljava/nio/Buffer;)Ljava/lang/Object;", true⟩
  | .nioAccessGetBaseArrayOffsetMethod =>
      ⟨vm, "java/nio/NIOAccess", "getBaseArrayOffset", "(Ljava/nio/Buffer;)I", true⟩
  | .nioBufferArrayMethod => ⟨vm, "java/nio/Buffer", "array", "()Ljava/lang/Object;", false⟩
  | .nioBufferArrayOffsetMethod => ⟨vm, "java/nio/Buffer", "arrayOffset", "()I", false⟩
  | .referenceGetMethod => ⟨vm, "java/lang/ref/Reference", "get", "()Ljava/lang/Object;", false⟩

/-- A live global reference of the current VM to the class of this name. -/
def RefersTo (s : State) (name : String) (r : JClass) : Prop :=
  r ∈ s.globalRefs ∧ r.vm = s.vm ∧ r.name = name

/-- Every slot is empty or holds its own id. -/
def Filled {G A : Type} (slots : G → Option A) (idOf : G → A) : Prop :=
  ∀ g, slots g = none ∨ slots g = some (idOf g)

theorem Filled.update {G A : Type} [DecidableEq G] {slots : G → Option A} {idOf : G → A}
    (h : Filled slots idOf) (g : G) : Filled (Function.update slots g (some (idOf g))) idOf := by
  intro g'
  by_cases hg : g' = g
  · subst hg
    exact .inr (Function.update_self _ _ _)
  · rw [Function.update_of_ne hg]
    exact h g'

/-- What the globals hold is what a lookup in the current VM gives. -/
structure Cached (s : State) : Prop where
  classes : s.classRefsInitialized = true → ∀ g : ClassGlobal, ∃ r, s.classes g = some r ∧
    RefersTo s g.name r
  fields : Filled s.fields (FieldGlobal.idIn s.vm)
  methods : Filled s.methods (MethodGlobal.idIn s.vm)

/-- From a good state the call returns something that is not null, in a good state of the same
VM. -/
def Returns {α : Type} (x : ConstM (Option α)) (P : State → α → Prop) : Prop :=
  ∀ s, Cached s → ∃ a s', x s = .ok (some a, s') ∧ Cached s' ∧ s'.vm = s.vm ∧ P s' a

section steps
variable {l : Lookups}

theorem findClass_eq (hl : l.Succeed) (name : String) (s : State) :
    findClass l name s = .ok (some ⟨s.vm, s.globalRefs.length, name⟩,
      { s with globalRefs := s.globalRefs ++ [⟨s.vm, s.globalRefs.length, name⟩] }) := by
  obtain ⟨hf, hn, _⟩ := hl
  simp [findClass, newGlobalRef, hf, hn]

/-- A class that is not found stops the process. -/
theorem findClass_abort {name : String} (h : l.findClass name = false) (s : State) :
    findClass l name s = .error .abort := by
  simp [findClass, h, stop]

/-- A class that is found may still be without a global reference. -/
theorem findClass_completes {name : String} (h : l.findClass name = true) (s : State) :
    ∃ r s', findClass l name s = .ok (r, s') ∧ r.isSome = l.newGlobalRef name := by
  by_cases hn : l.newGlobalRef name = true
  · exact ⟨some ⟨s.vm, s.globalRefs.length, name⟩, _, by simp [findClass, newGlobalRef, h, hn]; rfl,
      hn.symm⟩
  · exact ⟨none, s, by simp [findClass, newGlobalRef, h, hn], by simp [hn]⟩

theorem findClass_eq_ok {name : String} {s s' : State} {r : Option JClass}
    (h : findClass l name s = .ok (r, s')) :
    l.findClass name = true ∧ r.isSome = l.newGlobalRef name := by
  cases hf : l.findClass name with
  | false =>
      rw [findClass_abort hf] at h
      cases h
  | true =>
      obtain ⟨_, _, he, hr⟩ := findClass_completes hf s
      rw [he] at h
      cases h
      exact ⟨rfl, hr⟩

/-- The classes are filled in if all of them are found. -/
theorem ensureClassReferencesInitialized_completes
    (hf : ∀ g : ClassGlobal, l.findClass g.name = true) (s : State) :
    ∃ s', ensureClassReferencesInitialized l s = .ok ((), s') := by
  unfold ensureClassReferencesInitialized
  by_cases hi : s.classRefsInitialized = true
  · exact ⟨s, by simp [getState, hi]⟩
  · obtain ⟨r₁, s₁, h₁, _⟩ := findClass_completes (hf .fileDescriptorClass) s
    obtain ⟨r₂, s₂, h₂, _⟩ := findClass_completes (hf .nioAccessClass)
      { s₁ with classes := Function.update s₁.classes .fileDescriptorClass r₁ }
    obtain ⟨r₃, s₃, h₃, _⟩ := findClass_completes (hf .nioBufferClass)
      { s₂ with classes := Function.update s₂.classes .nioAccessClass r₂ }
    obtain ⟨r₄, s₄, h₄, _⟩ := findClass_completes (hf .referenceClass)
      { s₃ with classes := Function.update s₃.classes .nioBufferClass r₃ }
    obtain ⟨r₅, s₅, h₅, _⟩ := findClass_completes (hf .stringClass)
      { s₄ with classes := Function.update s₄.classes .referenceClass r₄ }
    simp only [ClassGlobal.name] at h₁ h₂ h₃ h₄ h₅
    exact ⟨_, by simp [getState, hi, h₁, h₂, h₃, h₄, h₅, setClass, setInitialized]; rfl⟩

/-- If they are filled in, all of them were found, and the class of strings is there if it got its
global reference. -/
theorem ensureClassReferencesInitialized_eq_ok {s s' : State}
    (hi : ¬ s.classRefsInitialized = true)
    (h : ensureClassReferencesInitialized l s = .ok ((), s')) :
    (∀ g : ClassGlobal, l.findClass g.name = true) ∧
      (s'.classes .stringClass).isSome = l.newGlobalRef "java/lang/String" := by
  unfold ensureClassReferencesInitialized at h
  obtain ⟨_, _, hg, h⟩ := ConstM.bind_eq_ok h
  cases hg
  rw [if_neg hi] at h
  obtain ⟨_, _, hg, h⟩ := ConstM.bind_eq_ok h
  cases hg
  rw [if_neg hi] at h
  -- the five classes in their order, each found and then stored
  obtain ⟨r₁, s₁, h₁, h⟩ := ConstM.bind_eq_ok h
  obtain ⟨_, _, _, h⟩ := ConstM.bind_eq_ok h
  obtain ⟨r₂, s₂, h₂, h⟩ := ConstM.bind_eq_ok h
  obtain ⟨_, _, _, h⟩ := ConstM.bind_eq_ok h
  obtain ⟨r₃, s₃, h₃, h⟩ := ConstM.bind_eq_ok h
  obtain ⟨_, _, _, h⟩ := ConstM.bind_eq_ok h
  obtain ⟨r₄, s₄, h₄, h⟩ := ConstM.bind_eq_ok h
  obtain ⟨_, _, _, h⟩ := ConstM.bind_eq_ok h
  obtain ⟨r₅, s₅, h₅, h⟩ := ConstM.bind_eq_ok h
  obtain ⟨_, _, hs, h⟩ := ConstM.bind_eq_ok h
  cases hs
  cases h
  refine ⟨fun g => ?_, (findClass_eq_ok h₅).2⟩
  cases g with
  | fileDescriptorClass => exact (findClass_eq_ok h₁).1
  | nioAccessClass => exact (findClass_eq_ok h₂).1
  | nioBufferClass => exact (findClass_eq_ok h₃).1
  | referenceClass => exact (findClass_eq_ok h₄).1
  | stringClass => exact (findClass_eq_ok h₅).1

theorem ensureClassReferencesInitialized_cached (hl : l.Succeed) {s : State} (hs : Cached s) :
    ∃ s', ensureClassReferencesInitialized l s = .ok ((), s') ∧ Cached s' ∧ s'.vm = s.vm ∧
      s'.classRefsInitialized = true := by
  unfold ensureClassReferencesInitialized
  by_cases hi : s.classRefsInitialized = true
  · exact ⟨s, by simp [getState, hi], hs, rfl, hi⟩
  · simp only [ConstM.bind_apply, getState, hi, Bool.false_eq_true, if_false, findClass_eq hl,
      setClass, setInitialized]
    refine ⟨_, rfl, ⟨?_, hs.fields, hs.methods⟩, rfl, rfl⟩
    intro _ g
    cases g <;> exact ⟨_, rfl, by simp, rfl, rfl⟩

theorem cachedClass_returns (hl : l.Succeed) (g : ClassGlobal) :
    Returns (cachedClass l g) fun s => RefersTo s g.name := by
  intro s hs
  obtain ⟨s', he, hs', hvm, hi⟩ := ensureClassReferencesInitialized_cached hl hs
  obtain ⟨r, hr, href⟩ := hs'.classes hi g
  exact ⟨r, s', by simp [cachedClass, he, getState, hr], hs', hvm, href⟩

theorem cachedField_returns (hl : l.Succeed) {g : FieldGlobal} {c : ClassGlobal}
    {getClass : ConstM (Option JClass)} (hc : Returns getClass fun s => RefersTo s c.name)
    {name desc : String} (hid : ∀ vm, g.idIn vm = ⟨vm, c.name, name, desc⟩) :
    Returns (cachedField l g getClass name desc) fun s id => id = g.idIn s.vm := by
  intro s hs
  obtain ⟨_, _, hf, _⟩ := hl
  unfold cachedField
  rcases hs.fields g with h | h
  · obtain ⟨r, s', hr, hs', hvm, _, hrvm, hrname⟩ := hc s hs
    have e : findField l (some r) name desc s' = .ok (g.idIn s'.vm, s') := by
      simp [findField, hf, hid, hrvm, hrname]
    have hs'' : Cached { s' with fields := Function.update s'.fields g (some (g.idIn s'.vm)) } :=
      ⟨hs'.classes, hs'.fields.update g, hs'.methods⟩
    exact ⟨g.idIn s'.vm, _, by simp [getState, h, hr, e, setField], hs'', hvm, rfl⟩
  · exact ⟨g.idIn s.vm, s, by simp [getState, h], hs, rfl, rfl⟩

theorem cachedMethod_returns {find : Option JClass → String → String → ConstM JMethodID}
    {isStatic : Bool} {g : MethodGlobal} {c : ClassGlobal}
    (hfind : ∀ (r : JClass) (name sig : String) (s : State),
      find (some r) name sig s = .ok (⟨r.vm, r.name, name, sig, isStatic⟩, s))
    {getClass : ConstM (Option JClass)} (hc : Returns getClass fun s => RefersTo s c.name)
    {name sig : String} (hid : ∀ vm, g.idIn vm = ⟨vm, c.name, name, sig, isStatic⟩) :
    Returns (cachedMethod find g getClass name sig) fun s id => id = g.idIn s.vm := by
  intro s hs
  unfold cachedMethod
  rcases hs.methods g with h | h
  · obtain ⟨r, s', hr, hs', hvm, _, hrvm, hrname⟩ := hc s hs
    have e : find (some r) name sig s' = .ok (g.idIn s'.vm, s') := by
      rw [hfind, hid, hrvm, hrname]
    have hs'' : Cached { s' with methods := Function.update s'.methods g (some (g.idIn s'.vm)) } :=
      ⟨hs'.classes, hs'.fields, hs'.methods.update g⟩
    exact ⟨g.idIn s'.vm, _, by simp [getState, h, hr, e, setMethod], hs'', hvm, rfl⟩
  · exact ⟨g.idIn s.vm, s, by simp [getState, h], hs, rfl, rfl⟩

theorem classGetter_returns (hl : l.Succeed) (g : ClassGlobal) :
    Returns (classGetter l g) fun s => RefersTo s g.name := by
  cases g <;> exact cachedClass_returns hl _

theorem fieldGetter_returns (hl : l.Succeed) (g : FieldGlobal) :
    Returns (fieldGetter l g) fun s id => id = g.idIn s.vm := by
  cases g with
  | fileDescriptorDescriptorField | fileDescriptorOwnerIdField =>
      exact cachedField_returns hl (cachedClass_returns hl .fileDescriptorClass) fun _ => rfl
  | nioBufferAddressField | nioBufferElementSizeShiftField | nioBufferLimitField
  | nioBufferPositionField =>
      exact cachedField_returns hl (cachedClass_returns hl .nioBufferClass) fun _ => rfl

theorem methodGetter_returns (hl : l.Succeed) (g : MethodGlobal) :
    Returns (methodGetter l g) fun s id => id = g.idIn s.vm := by
  obtain ⟨_, _, _, hm, hsm⟩ := id hl
  have find : ∀ (r : JClass) (name sig : String) (s : State),
      findMethod l (some r) name sig s = .ok (⟨r.vm, r.name, name, sig, false⟩, s) :=
    fun r name sig s => by simp [findMethod, hm]
  have findStatic : ∀ (r : JClass) (name sig : String) (s : State),
      findStaticMethod l (some r) name sig s = .ok (⟨r.vm, r.name, name, sig, true⟩, s) :=
    fun r name sig s => by simp [findStaticMethod, hsm]
  cases g with
  | fileDescriptorInitMethod =>
      exact cachedMethod_returns find (cachedClass_returns hl .fileDescriptorClass) fun _ => rfl
  | nioAccessGetBaseArrayMethod | nioAccessGetBaseArrayOffsetMethod =>
      exact cachedMethod_returns findStatic (cachedClass_returns hl .nioAccessClass) fun _ => rfl
  | nioBufferArrayMethod | nioBufferArrayOffsetMethod =>
      exact cachedMethod_returns find (cachedClass_returns hl .nioBufferClass) fun _ => rfl
  | referenceGetMethod =>
      exact cachedMethod_returns find (cachedClass_returns hl .referenceClass) fun _ => rfl

/-- `Uninitialize` empties every global. -/
theorem uninitializeConstants_eq (s : State) :
    uninitializeConstants s = .ok ((), { initial s.vm with globalRefs := s.globalRefs }) := by
  simp only [uninitializeConstants, ConstM.bind_apply, setClass, setField, setMethod,
    setInitialized, initial]
  congr 3
  · funext g
    cases g <;> rfl
  · funext g
    cases g <;> rfl
  · funext g
    cases g <;> rfl

theorem cached_initial (vm : ℕ) (globalRefs : List JClass) :
    Cached { initial vm with globalRefs } :=
  ⟨fun h => Bool.noConfusion h, fun _ => .inl rfl, fun _ => .inl rfl⟩

/-- **One step**: a call whose lookups are answered completes and keeps the state good. -/
theorem step_cached {s : State} (hs : Cached s) {a : Action} (ha : a.Succeeds) :
    ∃ s', step s a = some s' ∧ Cached s' := by
  cases a with
  | getClass g l =>
      obtain ⟨_, s', h, hs', _⟩ := classGetter_returns ha g s hs
      exact ⟨s', by rw [step, h]; rfl, hs'⟩
  | getField g l =>
      obtain ⟨_, s', h, hs', _⟩ := fieldGetter_returns ha g s hs
      exact ⟨s', by rw [step, h]; rfl, hs'⟩
  | getMethod g l =>
      obtain ⟨_, s', h, hs', _⟩ := methodGetter_returns ha g s hs
      exact ⟨s', by rw [step, h]; rfl, hs'⟩
  | uninitializeConstants =>
      refine ⟨_, ?_, cached_initial s.vm s.globalRefs⟩
      rw [step, uninitializeConstants_eq]
      rfl
  | createJavaVM =>
      refine ⟨initial (s.vm + 1), ?_, cached_initial _ []⟩
      rw [step, jniCreateJavaVM, ConstM.bind_apply, uninitializeConstants_eq]
      rfl

/-- A run whose lookups are answered completes in a good state. -/
theorem run_cached {s : State} (hs : Cached s) {as : List Action} (has : ∀ a ∈ as, a.Succeeds) :
    ∃ s', Transition.run step s as = some s' ∧ Cached s' := by
  apply Transition.run_completes step _ hs has
  intro s a hs ha
  exact step_cached hs ha

end steps

/-- **The cache is transparent**: after every run whose lookups are answered, each getter returns
what a lookup in the current VM gives. -/
theorem getter_transparent (vm : ℕ) (as : List Action) (has : ∀ a ∈ as, a.Succeeds)
    (l : Lookups) (hl : l.Succeed) :
    ∃ s, Transition.run step (initial vm) as = some s ∧
      (∀ g, ∃ r s', classGetter l g s = .ok (some r, s') ∧ s'.vm = s.vm ∧ RefersTo s' g.name r) ∧
      (∀ g, ∃ s', fieldGetter l g s = .ok (some (g.idIn s.vm), s')) ∧
      ∀ g, ∃ s', methodGetter l g s = .ok (some (g.idIn s.vm), s') := by
  obtain ⟨s, hr, hs⟩ := run_cached (cached_initial vm []) has
  refine ⟨s, hr, fun g => ?_, fun g => ?_, fun g => ?_⟩
  · obtain ⟨r, s', h, _, hvm, href⟩ := classGetter_returns hl g s hs
    exact ⟨r, s', h, hvm, href⟩
  · obtain ⟨_, s', h, _, hvm, rfl⟩ := fieldGetter_returns hl g s hs
    exact ⟨s', by rw [h, hvm]⟩
  · obtain ⟨_, s', h, _, hvm, rfl⟩ := methodGetter_returns hl g s hs
    exact ⟨s', by rw [h, hvm]⟩

/-- Lookups that are all answered. -/
def answered : Lookups :=
  ⟨fun _ => true, fun _ => true, fun _ _ => true, fun _ _ => true, fun _ _ => true⟩

theorem getter_transparent_restart :
    ∃ s, Transition.run step (initial 0) [.getField .nioBufferLimitField answered, .createJavaVM] =
        some s ∧ s.vm = 1 ∧
      ∃ s', fieldGetter answered .nioBufferLimitField s =
        .ok (some ⟨1, "java/nio/Buffer", "limit", "I"⟩, s') := by
  have hl : answered.Succeed := by simp [Lookups.Succeed, answered]
  obtain ⟨s, hr, _, hf, _⟩ := getter_transparent 0
    [.getField .nioBufferLimitField answered, .createJavaVM] (by simp [Action.Succeeds, hl])
    answered hl
  have hvm : (Transition.run step (initial 0)
      [.getField .nioBufferLimitField answered, .createJavaVM]).map State.vm = some 1 := rfl
  rw [hr] at hvm
  refine ⟨s, hr, Option.some.inj hvm, ?_⟩
  have := hf .nioBufferLimitField
  rw [Option.some.inj hvm] at this
  exact this

end JniConstants
end NativeHelper
