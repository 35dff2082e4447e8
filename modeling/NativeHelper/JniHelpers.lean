import NativeHelper.JavaHeap
import NativeHelper.ConstantGetters
import NativeHelper.Refinement
import NativeHelper.ThrowException

/-! # The helpers for file descriptors, buffers and references

What Java code does with the fields and methods of `FileDescriptor`, `Buffer` and `Reference`, native
code does with the helpers of `JNIHelp.cpp`, which go through `JniConstants`.  `JavaSide.spec` says
what each helper is for, on objects with fields and with nothing that is cached.

The helpers refine it (`helpers_refine`), so runs of them return what the fields say and all their
accesses make sense, across `jniUninitializeConstants` and new VMs (`helpers_run`).  In particular a
descriptor that is stored in an object stays there until it is changed (`descriptor_kept`). -/

namespace NativeHelper
namespace JniHelp

open JniConstants

/-! ### The helpers -/

/-- `jniThrowNullPointerException` -/
def jniThrowNullPointerException (answers : ThrowAnswers) (msg : Option String) : JniM ℤ :=
  jniThrowException answers "java/lang/NullPointerException" msg

section helpers
variable (l : Lookups)

/-- `jniSetFileDescriptorOfFD` -/
def jniSetFileDescriptorOfFD (answers : ThrowAnswers) (fileDescriptor : Option Ref)
    (value : BitVec 32) : HelperM Unit :=
  match fileDescriptor with
  | none => do
      let _ ← withEnv (jniThrowNullPointerException answers (some "null FileDescriptor"))
      return ()
  | some fileDescriptor => do
      let field ← withConstants (getFileDescriptorDescriptorField l)
      setIntField fileDescriptor field value

/-- `jniCreateFileDescriptor` -/
def jniCreateFileDescriptor (answer : Answer HeapObject) (answers : ThrowAnswers)
    (fd : BitVec 32) : HelperM (Option Ref) := do
  let clazz ← withConstants (getFileDescriptorClass l)
  let init ← withConstants (getFileDescriptorInitMethod l)
  let fileDescriptor ← newInstance answer clazz init
  if fileDescriptor.isSome then
    jniSetFileDescriptorOfFD l answers fileDescriptor fd
  return fileDescriptor

/-- `jniGetFDFromFileDescriptor` -/
def jniGetFDFromFileDescriptor (fileDescriptor : Option Ref) : HelperM (BitVec 32) :=
  match fileDescriptor with
  | some fileDescriptor => do
      let field ← withConstants (getFileDescriptorDescriptorField l)
      return (← getIntField fileDescriptor field)
  | none => return -1

/-- `jniGetOwnerIdFromFileDescriptor` -/
def jniGetOwnerIdFromFileDescriptor (fileDescriptor : Ref) : HelperM (BitVec 64) := do
  let field ← withConstants (getFileDescriptorOwnerIdField l)
  return (← getLongField fileDescriptor field)

/-- `jniGetNioBufferBaseArray` -/
def jniGetNioBufferBaseArray (answer : Answer JavaObject) : HelperM (Option Ref) := do
  let nioAccessClass ← withConstants (getNioAccessClass l)
  let getBaseArrayMethod ← withConstants (getNioAccessGetBaseArrayMethod l)
  callStaticObjectMethod answer nioAccessClass getBaseArrayMethod

/-- `jniGetNioBufferBaseArrayOffset` -/
def jniGetNioBufferBaseArrayOffset (value : BitVec 32) (thrown : Option JavaObject) :
    HelperM (BitVec 32) := do
  let nioAccessClass ← withConstants (getNioAccessClass l)
  let getBaseArrayOffsetMethod ← withConstants (getNioAccessGetBaseArrayOffsetMethod l)
  callStaticIntMethod value thrown nioAccessClass getBaseArrayOffsetMethod

/-- `jniGetNioBufferPointer`, on a buffer of the heap. -/
def jniGetNioBufferPointer (nioBuffer : Ref) : HelperM (BitVec 64) := do
  let addressField ← withConstants (getNioBufferAddressField l)
  let baseAddress ← getLongField nioBuffer addressField
  if baseAddress ≠ 0 then do
    let positionField ← withConstants (getNioBufferPositionField l)
    let position ← getIntField nioBuffer positionField
    let shiftField ← withConstants (getNioBufferElementSizeShiftField l)
    let shift ← getIntField nioBuffer shiftField
    return baseAddress + (position <<< shift).signExtend 64
  else return baseAddress

/-- `jniGetNioBufferFields`, on a buffer of the heap. -/
def jniGetNioBufferFields (nioBuffer : Ref) : HelperM NioBuffer := do
  let positionField ← withConstants (getNioBufferPositionField l)
  let position ← getIntField nioBuffer positionField
  let limitField ← withConstants (getNioBufferLimitField l)
  let limit ← getIntField nioBuffer limitField
  let shiftField ← withConstants (getNioBufferElementSizeShiftField l)
  let elementSizeShift ← getIntField nioBuffer shiftField
  let addressField ← withConstants (getNioBufferAddressField l)
  let address ← getLongField nioBuffer addressField
  return { address, position, limit, elementSizeShift }

/-- `jniGetReferent` -/
def jniGetReferent (answer : Answer JavaObject) (ref : Ref) : HelperM (Option Ref) := do
  let method ← withConstants (getReferenceGetMethod l)
  JniHelp.callObjectMethod answer ref method

end helpers

/-- `jniUninitializeConstants` -/
def jniUninitializeConstants : HelperM Unit := withConstants uninitializeConstants

/-- `JNI_CreateJavaVM`: a new VM with nothing on its heap, and the environment of its main thread. -/
def createJavaVM (env : JniEnv) : HelperM Unit := do
  withConstants jniCreateJavaVM
  fun s => .ok ((), { s with env, heap := fun _ => none })

/-! ### Runs -/

inductive HelperAction where
  | createFileDescriptor (l : Lookups) (answer : Answer HeapObject) (answers : ThrowAnswers)
      (fd : BitVec 32)
  | getFD (l : Lookups) (fileDescriptor : Option Ref)
  | setFD (l : Lookups) (answers : ThrowAnswers) (fileDescriptor : Option Ref) (value : BitVec 32)
  | getOwnerId (l : Lookups) (fileDescriptor : Ref)
  | getNioBufferBaseArray (l : Lookups) (answer : Answer JavaObject)
  | getNioBufferBaseArrayOffset (l : Lookups) (value : BitVec 32) (thrown : Option JavaObject)
  | getNioBufferPointer (l : Lookups) (nioBuffer : Ref)
  | getNioBufferFields (l : Lookups) (nioBuffer : Ref)
  | getReferent (l : Lookups) (answer : Answer JavaObject) (ref : Ref)
  | uninitializeConstants
  | createJavaVM (env : JniEnv)
  /-- Java code makes an object. -/
  | javaAllocates (obj : HeapObject)
  /-- Java code changes an object. -/
  | javaWrites (o : JavaObject) (obj : HeapObject)

/-- What a helper returns. -/
inductive Output where
  | unit
  | int (value : BitVec 32)
  | long (value : BitVec 64)
  | ref (value : Option Ref)
  | fields (value : NioBuffer)
deriving DecidableEq

def helper : HelperAction → HelperM Output
  | .createFileDescriptor l answer answers fd => do
      return .ref (← jniCreateFileDescriptor l answer answers fd)
  | .getFD l fileDescriptor => do return .int (← jniGetFDFromFileDescriptor l fileDescriptor)
  | .setFD l answers fileDescriptor value => do
      jniSetFileDescriptorOfFD l answers fileDescriptor value
      return .unit
  | .getOwnerId l fileDescriptor => do
      return .long (← jniGetOwnerIdFromFileDescriptor l fileDescriptor)
  | .getNioBufferBaseArray l answer => do return .ref (← jniGetNioBufferBaseArray l answer)
  | .getNioBufferBaseArrayOffset l value thrown => do
      return .int (← jniGetNioBufferBaseArrayOffset l value thrown)
  | .getNioBufferPointer l nioBuffer => do return .long (← jniGetNioBufferPointer l nioBuffer)
  | .getNioBufferFields l nioBuffer => do return .fields (← jniGetNioBufferFields l nioBuffer)
  | .getReferent l answer ref => do return .ref (← jniGetReferent l answer ref)
  | .uninitializeConstants => do
      jniUninitializeConstants
      return .unit
  | .createJavaVM env => do
      createJavaVM env
      return .unit
  | .javaAllocates obj => do
      let _ ← allocate obj
      return .unit
  | .javaWrites o obj => do
      writeHeap o (some obj)
      return .unit

def step (s : HelperState) (a : HelperAction) : Option (Output × HelperState) :=
  (helper a s).toOption

/-! ### What the helpers are for -/

/-- The fields that the helpers know. -/
def knownFields : List (String × String) :=
  [("java/io/FileDescriptor", "descriptor"), ("java/io/FileDescriptor", "ownerId"),
    ("java/nio/Buffer", "address"), ("java/nio/Buffer", "position"), ("java/nio/Buffer", "limit"),
    ("java/nio/Buffer", "_elementSizeShift")]

/-- An object: what the helpers know of it, which is the descriptor and the owner of a
`FileDescriptor` and the fields of a `Buffer`, and everything else, which they leave alone. -/
@[ext] structure ObjectView where
  descriptor : Option (BitVec 32)
  ownerId : Option (BitVec 64)
  buffer : Option NioBuffer
  classes : List String
  otherInt : String × String → Option (BitVec 32)
  otherLong : String × String → Option (BitVec 64)

def HeapObject.view (obj : HeapObject) : ObjectView where
  descriptor :=
    if obj.classes.contains "java/io/FileDescriptor" then
      some (obj.intField ("java/io/FileDescriptor", "descriptor")) else none
  ownerId :=
    if obj.classes.contains "java/io/FileDescriptor" then
      some (obj.longField ("java/io/FileDescriptor", "ownerId")) else none
  buffer :=
    if obj.classes.contains "java/nio/Buffer" then
      some ⟨obj.longField ("java/nio/Buffer", "address"), obj.intField ("java/nio/Buffer", "position"),
        obj.intField ("java/nio/Buffer", "limit"),
        obj.intField ("java/nio/Buffer", "_elementSizeShift")⟩ else none
  classes := obj.classes
  otherInt key := if key ∈ knownFields then none else some (obj.intField key)
  otherLong key := if key ∈ knownFields then none else some (obj.longField key)

/-- Objects with fields, and nothing that is cached. -/
structure JavaSide where
  env : JniEnv
  nextObject : JavaObject
  objects : JavaObject → Option ObjectView

namespace JavaSide
variable (t : JavaSide)

def put (o : JavaObject) (v : ObjectView) : JavaSide :=
  { t with objects := Function.update t.objects o (some v) }

/-- What `look` finds in an object. -/
def get {α : Type} (o : JavaObject) (look : ObjectView → Option α) (default : α) : α :=
  ((t.objects o).bind look).getD default

/-- The address of the position, in the arithmetic of the helper. -/
def pointer (b : NioBuffer) : BitVec 64 :=
  if b.address ≠ 0 then b.address + (b.position <<< b.elementSizeShift).signExtend 64 else b.address

/-- What each helper is for. -/
def spec : HelperAction → Output × JavaSide
  | .createFileDescriptor _ (.value obj) _ fd =>
      (.ref (some ⟨t.env.nextRef, t.nextObject⟩),
        { t.put t.nextObject
            { { obj with classes := ["java/io/FileDescriptor"] }.view with descriptor := some fd }
          with env := (newLocalRef t.nextObject t.env).2, nextObject := t.nextObject + 1 })
  | .createFileDescriptor _ (.null thrown) _ _ => (.ref none, { t with env := (raise thrown t.env).2 })
  | .getFD _ none => (.int (-1), t)
  | .getFD _ (some r) => (.int (t.get r.object (·.descriptor) 0), t)
  | .setFD _ answers none _ =>
      (.unit, { t with env :=
        (jniThrowNullPointerException answers (some "null FileDescriptor") t.env).2 })
  | .setFD _ _ (some r) value =>
      (.unit, match t.objects r.object with
        | none => t
        | some v => t.put r.object { v with descriptor := some value })
  | .getOwnerId _ r => (.long (t.get r.object (·.ownerId) 0), t)
  | .getNioBufferBaseArray _ answer | .getReferent _ answer _ =>
      (.ref (refOrNull answer t.env).1, { t with env := (refOrNull answer t.env).2 })
  | .getNioBufferBaseArrayOffset _ value thrown =>
      (.int value, { t with env := (raise thrown t.env).2 })
  | .getNioBufferPointer _ r => (.long (t.get r.object (·.buffer.map pointer) 0), t)
  | .getNioBufferFields _ r => (.fields (t.get r.object (·.buffer) ⟨0, 0, 0, 0⟩), t)
  | .uninitializeConstants => (.unit, t)
  | .createJavaVM env => (.unit, ⟨env, t.nextObject, fun _ => none⟩)
  | .javaAllocates obj =>
      (.unit, { t.put t.nextObject obj.view with nextObject := t.nextObject + 1 })
  | .javaWrites o obj => (.unit, t.put o obj.view)

end JavaSide

/-- The lookups of a call are answered, and it is given objects of its class. -/
def Allowed (s : HelperState) : HelperAction → Prop
  | .createFileDescriptor l _ _ _ | .getNioBufferBaseArray l _ |
    .getNioBufferBaseArrayOffset l _ _ => l.Succeed
  | .getFD _ none | .setFD _ _ none _ => True
  | .getFD l (some r) | .setFD l _ (some r) _ | .getOwnerId l r =>
      l.Succeed ∧ s.instanceOf r.object "java/io/FileDescriptor" = true
  | .getNioBufferPointer l r | .getNioBufferFields l r =>
      l.Succeed ∧ s.instanceOf r.object "java/nio/Buffer" = true
  | .getReferent l _ r => l.Succeed ∧ s.instanceOf r.object "java/lang/ref/Reference" = true
  | .uninitializeConstants | .createJavaVM _ | .javaAllocates _ => True
  | .javaWrites o obj => ∃ old, s.heap o = some old ∧ obj.classes = old.classes

/-- The states before and after agree, and every access so far made sense. -/
structure Represents (s : HelperState) (t : JavaSide) : Prop where
  good : Good s
  env : t.env = s.env
  nextObject : t.nextObject = s.nextObject
  objects : ∀ o, t.objects o = (s.heap o).map HeapObject.view

/-! ### One helper -/

section helpers
variable {s s' : HelperState} {t : JavaSide} {l : Lookups}

theorem Represents.quiet (h : Represents s t) (hq : Quiet s s') : Represents s' t where
  good := hq.good
  env := h.env.trans hq.env.symm
  nextObject := h.nextObject.trans hq.nextObject.symm
  objects := by rw [hq.heap]; exact h.objects

theorem hasField_of_instanceOf {r : Ref} {g : FieldGlobal}
    (h : s.instanceOf r.object g.clazz.name = true) : ∃ obj, HasField s r g obj := by
  obtain ⟨obj, ho, hc⟩ := (Option.any_eq_true ..).mp h
  exact ⟨obj, ho, by simpa using hc⟩

theorem Represents.get_eq (h : Represents s t) {o : JavaObject} {obj : HeapObject}
    (ho : s.heap o = some obj) {α : Type} {look : ObjectView → Option α} {a : α}
    (hlook : look obj.view = some a) (default : α) : t.get o look default = a := by
  rw [JavaSide.get, h.objects, ho, Option.map_some, Option.bind_some, hlook, Option.getD_some]

theorem view_descriptor {obj : HeapObject} (h : "java/io/FileDescriptor" ∈ obj.classes) :
    obj.view.descriptor = some (obj.intField ("java/io/FileDescriptor", "descriptor")) :=
  if_pos (by simpa using h)

theorem view_ownerId {obj : HeapObject} (h : "java/io/FileDescriptor" ∈ obj.classes) :
    obj.view.ownerId = some (obj.longField ("java/io/FileDescriptor", "ownerId")) :=
  if_pos (by simpa using h)

theorem jniGetFDFromFileDescriptor_ok (h : Represents s t) (hl : l.Succeed) {r : Ref}
    (hr : s.instanceOf r.object "java/io/FileDescriptor" = true) :
    ∃ s', jniGetFDFromFileDescriptor l (some r) s =
      .ok (t.get r.object (·.descriptor) 0, s') ∧ Represents s' t := by
  obtain ⟨obj, ho⟩ := hasField_of_instanceOf (g := .fileDescriptorDescriptorField) hr
  obtain ⟨s₁, s', id, h₁, h₂, hq⟩ := readInt_ok h.good hl rfl ho
  rw [h.get_eq ho.1 (view_descriptor ho.2)]
  exact ⟨s', (HelperM.bind_ok h₁ _).trans h₂, h.quiet hq⟩

theorem jniGetOwnerIdFromFileDescriptor_ok (h : Represents s t) (hl : l.Succeed) {r : Ref}
    (hr : s.instanceOf r.object "java/io/FileDescriptor" = true) :
    ∃ s', jniGetOwnerIdFromFileDescriptor l r s =
      .ok (t.get r.object (·.ownerId) 0, s') ∧ Represents s' t := by
  obtain ⟨obj, ho⟩ := hasField_of_instanceOf (g := .fileDescriptorOwnerIdField) hr
  obtain ⟨s₁, s', id, h₁, h₂, hq⟩ := readLong_ok h.good hl rfl ho
  rw [h.get_eq ho.1 (view_ownerId ho.2)]
  exact ⟨s', (HelperM.bind_ok h₁ _).trans h₂, h.quiet hq⟩

/-- A buffer of the heap. -/
def HeapObject.nioBuffer (obj : HeapObject) : NioBuffer :=
  ⟨obj.longField ("java/nio/Buffer", "address"), obj.intField ("java/nio/Buffer", "position"),
    obj.intField ("java/nio/Buffer", "limit"), obj.intField ("java/nio/Buffer", "_elementSizeShift")⟩

theorem view_buffer {obj : HeapObject} (h : "java/nio/Buffer" ∈ obj.classes) :
    obj.view.buffer = some obj.nioBuffer :=
  if_pos (by simpa using h)

theorem jniGetNioBufferPointer_ok (h : Represents s t) (hl : l.Succeed) {r : Ref}
    (hr : s.instanceOf r.object "java/nio/Buffer" = true) :
    ∃ s', jniGetNioBufferPointer l r s =
      .ok (t.get r.object (·.buffer.map JavaSide.pointer) 0, s') ∧ Represents s' t := by
  obtain ⟨obj, ho, hc⟩ := hasField_of_instanceOf (g := .nioBufferAddressField) hr
  have hview : obj.view.buffer.map JavaSide.pointer = some (JavaSide.pointer obj.nioBuffer) := by
    rw [view_buffer hc]
    rfl
  rw [h.get_eq ho hview, JavaSide.pointer]
  obtain ⟨s₁, s₂, id, h₁, h₂, hq₂⟩ :=
    readLong_ok h.good hl (g := .nioBufferAddressField) rfl ⟨ho, hc⟩
  by_cases haddress : obj.nioBuffer.address = 0
  · rw [if_neg (not_not.mpr haddress)]
    refine ⟨s₂, ?_, h.quiet hq₂⟩
    refine (HelperM.bind_ok h₁ _).trans ((HelperM.bind_ok h₂ _).trans ?_)
    exact congrFun (if_neg (not_not.mpr haddress)) s₂
  · obtain ⟨s₃, s₄, id', h₃, h₄, hq₄⟩ := readInt_ok hq₂.good hl (g := .nioBufferPositionField)
      (r := r) rfl ⟨hq₂.heap ▸ ho, hc⟩
    have hq₄' := hq₂.trans hq₄
    obtain ⟨s₅, s₆, id'', h₅, h₆, hq₆⟩ := readInt_ok hq₄.good hl
      (g := .nioBufferElementSizeShiftField) (r := r) rfl ⟨hq₄'.heap ▸ ho, hc⟩
    rw [if_pos haddress]
    refine ⟨s₆, ?_, h.quiet (hq₄'.trans hq₆)⟩
    refine (HelperM.bind_ok h₁ _).trans ((HelperM.bind_ok h₂ _).trans ?_)
    refine (congrFun (if_pos haddress) s₂).trans ?_
    refine (HelperM.bind_ok h₃ _).trans ((HelperM.bind_ok h₄ _).trans ?_)
    exact (HelperM.bind_ok h₅ _).trans (HelperM.bind_ok h₆ _)

theorem jniGetNioBufferFields_ok (h : Represents s t) (hl : l.Succeed) {r : Ref}
    (hr : s.instanceOf r.object "java/nio/Buffer" = true) :
    ∃ s', jniGetNioBufferFields l r s =
      .ok (t.get r.object (·.buffer) ⟨0, 0, 0, 0⟩, s') ∧ Represents s' t := by
  obtain ⟨obj, ho, hc⟩ := hasField_of_instanceOf (g := .nioBufferPositionField) hr
  rw [h.get_eq ho (view_buffer hc)]
  obtain ⟨s₁, s₂, _, h₁, h₂, hq₂⟩ := readInt_ok h.good hl (g := .nioBufferPositionField) (r := r)
    rfl ⟨ho, hc⟩
  obtain ⟨s₃, s₄, _, h₃, h₄, hq₄⟩ := readInt_ok hq₂.good hl (g := .nioBufferLimitField) (r := r)
    rfl ⟨hq₂.heap ▸ ho, hc⟩
  have hq₄ := hq₂.trans hq₄
  obtain ⟨s₅, s₆, _, h₅, h₆, hq₆⟩ := readInt_ok hq₄.good hl (g := .nioBufferElementSizeShiftField)
    (r := r) rfl ⟨hq₄.heap ▸ ho, hc⟩
  have hq₆ := hq₄.trans hq₆
  obtain ⟨s₇, s₈, _, h₇, h₈, hq₈⟩ := readLong_ok hq₆.good hl (g := .nioBufferAddressField) (r := r)
    rfl ⟨hq₆.heap ▸ ho, hc⟩
  refine ⟨s₈, ?_, h.quiet (hq₆.trans hq₈)⟩
  refine (HelperM.bind_ok h₁ _).trans ((HelperM.bind_ok h₂ _).trans ?_)
  refine (HelperM.bind_ok h₃ _).trans ((HelperM.bind_ok h₄ _).trans ?_)
  refine (HelperM.bind_ok h₅ _).trans ((HelperM.bind_ok h₆ _).trans ?_)
  exact (HelperM.bind_ok h₇ _).trans (HelperM.bind_ok h₈ _)

/-! ### Writing and making -/

/-- Setting the descriptor shows in the descriptor alone. -/
theorem view_setInt {obj : HeapObject} (hc : "java/io/FileDescriptor" ∈ obj.classes)
    (value : BitVec 32) :
    (obj.setInt .fileDescriptorDescriptorField value).view =
      { obj.view with descriptor := some value } := by
  have hd : (obj.setInt .fileDescriptorDescriptorField value).view.descriptor = some value := by
    rw [view_descriptor (by exact hc)]
    exact congrArg some (obj.setInt_self .fileDescriptorDescriptorField value)
  have hkey : ∀ name, (obj.setInt .fileDescriptorDescriptorField value).intField
      ("java/nio/Buffer", name) = obj.intField ("java/nio/Buffer", name) := by
    intro name
    refine obj.setInt_of_ne value fun h => ?_
    exact absurd (Prod.mk.inj h).1 (by decide)
  have hb : (obj.setInt .fileDescriptorDescriptorField value).view.buffer = obj.view.buffer := by
    simp only [HeapObject.view, hkey]
    rfl
  have ho : (obj.setInt .fileDescriptorDescriptorField value).view.otherInt = obj.view.otherInt := by
    funext key
    refine ite_congr rfl (fun _ => rfl) fun hk => congrArg some (obj.setInt_of_ne value ?_)
    rintro rfl
    exact hk (by decide)
  exact ObjectView.ext hd rfl hb rfl ho rfl

theorem Represents.put (h : Represents s t) (hs' : Good s') (henv : s'.env = s.env)
    (hnext : s'.nextObject = s.nextObject) {o : JavaObject} {obj : HeapObject}
    (hheap : s'.heap = Function.update s.heap o (some obj)) : Represents s' (t.put o obj.view) where
  good := hs'
  env := h.env.trans henv.symm
  nextObject := h.nextObject.trans hnext.symm
  objects o' := by
    rw [hheap]
    by_cases ho : o' = o
    · subst ho
      rw [Function.update_self]
      exact Function.update_self ..
    · rw [Function.update_of_ne ho, ← h.objects]
      exact Function.update_of_ne ho ..

theorem jniSetFileDescriptorOfFD_ok (h : Represents s t) (hl : l.Succeed) (answers : ThrowAnswers)
    {r : Ref} (hr : s.instanceOf r.object "java/io/FileDescriptor" = true) (value : BitVec 32) :
    ∃ s' v, jniSetFileDescriptorOfFD l answers (some r) value s = .ok ((), s') ∧
      t.objects r.object = some v ∧
      Represents s' (t.put r.object { v with descriptor := some value }) := by
  obtain ⟨obj, ho, hc⟩ := hasField_of_instanceOf (g := .fileDescriptorDescriptorField) hr
  obtain ⟨s', he, hs', henv, hnext, hheap⟩ := writeInt_ok h.good hl (r := r) rfl ⟨ho, hc⟩ value
  have hp := h.put hs' henv hnext hheap
  rw [view_setInt hc] at hp
  exact ⟨s', obj.view, he, by rw [h.objects, ho]; rfl, hp⟩

/-- A new object, whoever makes it. -/
theorem Represents.allocate (h : Represents s t) (obj : HeapObject) (env : JniEnv) :
    Represents { s with heap := Function.update s.heap s.nextObject (some obj)
                        nextObject := s.nextObject + 1, env }
      { t.put t.nextObject obj.view with env, nextObject := t.nextObject + 1 } where
  good := by
    refine ⟨h.good.cached, h.good.accesses, fun o ho => ?_⟩
    change Function.update s.heap s.nextObject _ o = none
    rw [Function.update_of_ne (Nat.ne_of_gt ho)]
    exact h.good.fresh o (Nat.le_of_succ_le ho)
  env := rfl
  nextObject := congrArg (· + 1) h.nextObject
  objects o := by
    change Function.update t.objects t.nextObject _ o = (Function.update s.heap s.nextObject _ o).map _
    rw [h.nextObject]
    by_cases ho : o = s.nextObject
    · subst ho
      rw [Function.update_self, Function.update_self, Option.map_some]
    · rw [Function.update_of_ne ho, Function.update_of_ne ho, h.objects]

/-- Only the environment changes. -/
theorem Represents.withEnv (h : Represents s t) {α : Type} (x : JniM α) :
    ∃ s', JniHelp.withEnv x s = .ok ((x t.env).1, s') ∧
      Represents s' { t with env := (x t.env).2 } := by
  obtain ⟨hgood, henv, hnext, hobjects⟩ := h
  rw [henv]
  exact ⟨_, rfl, ⟨⟨hgood.cached, hgood.accesses, hgood.fresh⟩, rfl, hnext, hobjects⟩⟩

/-- The new object is an instance of the class and has what the constructor gave it. -/
theorem newInstance_value (h : Represents s t) (obj : HeapObject) {r : JClass} {id : JMethodID}
    (hok : s.accessOk (.newObject (some r) (some id)) = true) :
    ∃ s', newInstance (.value obj) (some r) (some id) s =
        .ok (some ⟨t.env.nextRef, t.nextObject⟩, s') ∧
      s'.instanceOf t.nextObject r.name = true ∧
      Represents s' { t.put t.nextObject { obj with classes := [r.name] }.view with
        env := (newLocalRef t.nextObject t.env).2, nextObject := t.nextObject + 1 } := by
  obtain ⟨s₁, h₁, hq, -⟩ := logAccess_ok h.good hok
  have h' := h.quiet hq
  have hR := h'.allocate { obj with classes := [r.name] } (newLocalRef t.nextObject t.env).2
  refine ⟨_, ?_, ?_, hR⟩
  · rw [newInstance, HelperM.bind_ok h₁, h'.env, h'.nextObject]
    rfl
  · rw [HelperState.instanceOf, h'.nextObject]
    change (Function.update s₁.heap s₁.nextObject _ s₁.nextObject).any _ = true
    rw [Function.update_self]
    simp

theorem newInstance_null (h : Represents s t) (thrown : Option JavaObject) {r : JClass}
    {id : JMethodID} (hok : s.accessOk (.newObject (some r) (some id)) = true) :
    ∃ s', newInstance (.null thrown) (some r) (some id) s = .ok (none, s') ∧
      Represents s' { t with env := (raise thrown t.env).2 } := by
  obtain ⟨s₁, h₁, hq, -⟩ := logAccess_ok h.good hok
  obtain ⟨s₂, h₂, hR⟩ := (h.quiet hq).withEnv (raise thrown)
  refine ⟨s₂, ?_, hR⟩
  rw [newInstance, HelperM.bind_ok h₁]
  exact HelperM.bind_ok h₂ _

/-- What is put last counts. -/
theorem JavaSide.put_put (t : JavaSide) (o n : JavaObject) (env : JniEnv) (v w : ObjectView) :
    ({ t.put o v with env, nextObject := n } : JavaSide).put o w =
      { t.put o w with env, nextObject := n } := by
  simp only [JavaSide.put, Function.update_idem]

theorem jniCreateFileDescriptor_ok (h : Represents s t) (hl : l.Succeed) (answer : Answer HeapObject)
    (answers : ThrowAnswers) (fd : BitVec 32) :
    ∃ r s', jniCreateFileDescriptor l answer answers fd s = .ok (r, s') ∧
      .ref r = (t.spec (.createFileDescriptor l answer answers fd)).1 ∧
      Represents s' (t.spec (.createFileDescriptor l answer answers fd)).2 := by
  obtain ⟨r, s₁, s₂, h₁, h₂, hq₂, hlive, hname⟩ := withConstants_classMethod h.good hl
    .fileDescriptorClass .fileDescriptorInitMethod
  have hok : s₂.accessOk (.newObject (some r)
      (some (MethodGlobal.fileDescriptorInitMethod.idIn s₂.constants.vm))) = true := by
    rw [HelperState.accessOk, hlive, hname]
    simp [MethodGlobal.idIn, ClassGlobal.name]
  cases answer with
  | null thrown =>
      obtain ⟨s₃, h₃, hR⟩ := newInstance_null (h.quiet hq₂) thrown hok
      refine ⟨none, s₃, ?_, rfl, hR⟩
      refine (HelperM.bind_ok h₁ _).trans ((HelperM.bind_ok h₂ _).trans ?_)
      exact HelperM.bind_ok h₃ _
  | value obj =>
      obtain ⟨s₃, h₃, hinst, hR⟩ := newInstance_value (h.quiet hq₂) obj hok
      rw [hname] at hinst hR
      obtain ⟨s₄, v, h₄, hv, hR'⟩ := jniSetFileDescriptorOfFD_ok hR hl answers
        (r := ⟨t.env.nextRef, t.nextObject⟩) hinst fd
      refine ⟨_, s₄, ?_, rfl, ?_⟩
      · refine (HelperM.bind_ok h₁ _).trans ((HelperM.bind_ok h₂ _).trans ?_)
        exact (HelperM.bind_ok h₃ _).trans (HelperM.bind_ok h₄ _)
      · -- the descriptor is stored over what the constructor left
        have hv' : Function.update t.objects t.nextObject
            (some { obj with classes := ["java/io/FileDescriptor"] }.view) t.nextObject = some v := hv
        rw [Function.update_self] at hv'
        obtain rfl := Option.some.inj hv'
        rw [JavaSide.put_put] at hR'
        exact hR'

theorem jniGetNioBufferBaseArray_ok (h : Represents s t) (hl : l.Succeed)
    (answer : Answer JavaObject) :
    ∃ s', jniGetNioBufferBaseArray l answer s = .ok ((refOrNull answer t.env).1, s') ∧
      Represents s' { t with env := (refOrNull answer t.env).2 } := by
  obtain ⟨r, s₁, s₂, h₁, h₂, hq₂, hlive, hname⟩ := withConstants_classMethod h.good hl
    .nioAccessClass .nioAccessGetBaseArrayMethod
  have hok : s₂.accessOk (.callStaticMethod (some r)
      (some (MethodGlobal.nioAccessGetBaseArrayMethod.idIn s₂.constants.vm)) 'L') = true := by
    rw [HelperState.accessOk, hlive, hname]
    simp [MethodGlobal.idIn, ClassGlobal.name, HelperState.returnLetter]
  obtain ⟨s₃, h₃, hq₃, -⟩ := logAccess_ok hq₂.good hok
  obtain ⟨s₄, h₄, hR⟩ := (h.quiet (hq₂.trans hq₃)).withEnv (refOrNull answer)
  refine ⟨s₄, ?_, hR⟩
  refine (HelperM.bind_ok h₁ _).trans ((HelperM.bind_ok h₂ _).trans ?_)
  exact (HelperM.bind_ok h₃ _).trans h₄

theorem jniGetNioBufferBaseArrayOffset_ok (h : Represents s t) (hl : l.Succeed) (value : BitVec 32)
    (thrown : Option JavaObject) :
    ∃ s', jniGetNioBufferBaseArrayOffset l value thrown s = .ok (value, s') ∧
      Represents s' { t with env := (raise thrown t.env).2 } := by
  obtain ⟨r, s₁, s₂, h₁, h₂, hq₂, hlive, hname⟩ := withConstants_classMethod h.good hl
    .nioAccessClass .nioAccessGetBaseArrayOffsetMethod
  have hok : s₂.accessOk (.callStaticMethod (some r)
      (some (MethodGlobal.nioAccessGetBaseArrayOffsetMethod.idIn s₂.constants.vm)) 'I') = true := by
    rw [HelperState.accessOk, hlive, hname]
    simp [MethodGlobal.idIn, ClassGlobal.name, HelperState.returnLetter]
  obtain ⟨s₃, h₃, hq₃, -⟩ := logAccess_ok hq₂.good hok
  obtain ⟨s₄, h₄, hR⟩ := (h.quiet (hq₂.trans hq₃)).withEnv (raise thrown)
  refine ⟨s₄, ?_, hR⟩
  refine (HelperM.bind_ok h₁ _).trans ((HelperM.bind_ok h₂ _).trans ?_)
  exact (HelperM.bind_ok h₃ _).trans (HelperM.bind_ok h₄ _)

theorem jniGetReferent_ok (h : Represents s t) (hl : l.Succeed) (answer : Answer JavaObject)
    {r : Ref} (hr : s.instanceOf r.object "java/lang/ref/Reference" = true) :
    ∃ s', jniGetReferent l answer r s = .ok ((refOrNull answer t.env).1, s') ∧
      Represents s' { t with env := (refOrNull answer t.env).2 } := by
  obtain ⟨s₁, h₁, hq₁⟩ := withConstants_method h.good hl .referenceGetMethod
  have hok : s₁.accessOk (.callMethod r.object
      (some (MethodGlobal.referenceGetMethod.idIn s₁.constants.vm)) 'L') = true := by
    rw [HelperState.instanceOf, ← hq₁.heap] at hr
    rw [HelperState.accessOk, HelperState.instanceOf]
    simp only [MethodGlobal.idIn, hr]
    decide
  obtain ⟨s₂, h₂, hq₂, -⟩ := logAccess_ok hq₁.good hok
  obtain ⟨s₃, h₃, hR⟩ := (h.quiet (hq₁.trans hq₂)).withEnv (refOrNull answer)
  refine ⟨s₃, ?_, hR⟩
  exact (HelperM.bind_ok h₁ _).trans ((HelperM.bind_ok h₂ _).trans h₃)

end helpers

/-! ### All helpers -/

/-- What a program returns, as the answer of a step. -/
theorem step_of_ok {s s' : HelperState} {a : HelperAction} {out : Output}
    (h : helper a s = .ok (out, s')) : step s a = some (out, s') := by
  rw [step, h]
  rfl

/-- **One action**, case by case. -/
theorem helpers_refine : Refinement.Refines step JavaSide.spec Allowed Represents := by
  intro s t a h ha
  cases a with
  | createFileDescriptor l answer answers fd =>
      obtain ⟨r, s', he, hr, hR⟩ := jniCreateFileDescriptor_ok h ha answer answers fd
      rw [← hr]
      exact ⟨s', step_of_ok (HelperM.bind_ok he _), hR⟩
  | getFD l fileDescriptor => cases fileDescriptor with
    | none => exact ⟨s, rfl, h⟩
    | some r =>
        obtain ⟨s', he, hR⟩ := jniGetFDFromFileDescriptor_ok h ha.1 ha.2
        exact ⟨s', step_of_ok (HelperM.bind_ok he _), hR⟩
  | setFD l answers fileDescriptor value => cases fileDescriptor with
    | none =>
        obtain ⟨s', he, hR⟩ := h.withEnv
          (jniThrowNullPointerException answers (some "null FileDescriptor"))
        exact ⟨s', step_of_ok (HelperM.bind_ok (HelperM.bind_ok he _) _), hR⟩
    | some r =>
        obtain ⟨s', v, he, hv, hR⟩ := jniSetFileDescriptorOfFD_ok h ha.1 answers ha.2 value
        refine ⟨s', step_of_ok (HelperM.bind_ok he _), ?_⟩
        rw [JavaSide.spec, hv]
        exact hR
  | getOwnerId l r =>
      obtain ⟨s', he, hR⟩ := jniGetOwnerIdFromFileDescriptor_ok h ha.1 ha.2
      exact ⟨s', step_of_ok (HelperM.bind_ok he _), hR⟩
  | getNioBufferBaseArray l answer =>
      obtain ⟨s', he, hR⟩ := jniGetNioBufferBaseArray_ok h ha answer
      exact ⟨s', step_of_ok (HelperM.bind_ok he _), hR⟩
  | getNioBufferBaseArrayOffset l value thrown =>
      obtain ⟨s', he, hR⟩ := jniGetNioBufferBaseArrayOffset_ok h ha value thrown
      exact ⟨s', step_of_ok (HelperM.bind_ok he _), hR⟩
  | getNioBufferPointer l r =>
      obtain ⟨s', he, hR⟩ := jniGetNioBufferPointer_ok h ha.1 ha.2
      exact ⟨s', step_of_ok (HelperM.bind_ok he _), hR⟩
  | getNioBufferFields l r =>
      obtain ⟨s', he, hR⟩ := jniGetNioBufferFields_ok h ha.1 ha.2
      exact ⟨s', step_of_ok (HelperM.bind_ok he _), hR⟩
  | getReferent l answer r =>
      obtain ⟨s', he, hR⟩ := jniGetReferent_ok h ha.1 answer ha.2
      exact ⟨s', step_of_ok (HelperM.bind_ok he _), hR⟩
  | uninitializeConstants =>
      have he : jniUninitializeConstants s = .ok ((), { s with constants :=
          { initial s.constants.vm with globalRefs := s.constants.globalRefs } }) := by
        rw [jniUninitializeConstants, withConstants, uninitializeConstants_eq]
      refine ⟨_, step_of_ok (HelperM.bind_ok he _), ?_⟩
      exact h.quiet ⟨⟨cached_initial _ _, h.good.accesses, h.good.fresh⟩, rfl, rfl, rfl⟩
  | createJavaVM env =>
      have he : createJavaVM env s = .ok ((), { s with
          constants := initial (s.constants.vm + 1), env, heap := fun _ => none }) := by
        have hc : withConstants jniCreateJavaVM s =
            .ok ((), { s with constants := initial (s.constants.vm + 1) }) := by
          rw [withConstants, jniCreateJavaVM, ConstM.bind_apply, uninitializeConstants_eq]
          rfl
        exact HelperM.bind_ok hc _
      refine ⟨_, step_of_ok (HelperM.bind_ok he _), ?_⟩
      exact ⟨⟨cached_initial _ [], h.good.accesses, fun _ _ => rfl⟩, rfl, h.nextObject, fun _ => rfl⟩
  | javaAllocates obj =>
      have hR := h.allocate obj s.env
      exact ⟨_, rfl, ⟨hR.good, h.env, hR.nextObject, hR.objects⟩⟩
  | javaWrites o obj =>
      obtain ⟨old, ho, _⟩ := ha
      have hgood : Good { s with heap := Function.update s.heap o (some obj) } := by
        refine ⟨h.good.cached, h.good.accesses, fun o' hle => ?_⟩
        change Function.update s.heap o _ o' = none
        rw [Function.update_of_ne]
        · exact h.good.fresh o' hle
        · rintro rfl
          rw [h.good.fresh _ hle] at ho
          cases ho
      exact ⟨_, rfl, h.put hgood rfl rfl rfl⟩

/-- The process before anything is done, in front of a VM. -/
def start (vm : ℕ) (env : JniEnv) : HelperState := ⟨env, initial vm, fun _ => none, 0, []⟩

theorem represents_start (vm : ℕ) (env : JniEnv) :
    Represents (start vm env) ⟨env, 0, fun _ => none⟩ :=
  ⟨⟨cached_initial vm [], by rintro _ ⟨⟩, fun _ _ => rfl⟩, rfl, rfl, fun _ => rfl⟩

/-- **The helpers are what they are for**: in every run in which lookups are answered and every
call is given an object of its class of the current VM, the helpers return what the fields of the
objects say, change the fields and the environment they should and nothing else, and every access
they make with a cached class or id makes sense, whatever was called, cleared, made and restarted
before. -/
theorem helpers_run (vm : ℕ) (env : JniEnv) {as : List HelperAction}
    (has : Refinement.AllAllowed step Allowed (start vm env) as) :
    ∃ s, Refinement.play step (start vm env) as =
        some ((Refinement.playSpec JavaSide.spec ⟨env, 0, fun _ => none⟩ as).1, s) ∧
      Represents s (Refinement.playSpec JavaSide.spec ⟨env, 0, fun _ => none⟩ as).2 ∧
      ∀ a ∈ s.accesses, a.2 = true := by
  obtain ⟨s, he, hR⟩ := helpers_refine.play (represents_start vm env) has
  exact ⟨s, he, hR, hR.good.accesses⟩

theorem answered_succeed : answered.Succeed := by simp [Lookups.Succeed, answered]

/-- A `FileDescriptor` is made for 5, the cache cleared, and the descriptor read. -/
def createAndGet : List HelperAction :=
  [.createFileDescriptor answered (.value ⟨[], fun _ => -1, fun _ => 0⟩) ioException 5,
    .uninitializeConstants, .getFD answered (some ⟨1, 0⟩)]

theorem createAndGet_allowed :
    Refinement.AllAllowed step Allowed (start 0 quietEnv) createAndGet := by
  refine ⟨answered_succeed, ?_⟩
  rintro b s h
  obtain ⟨rfl, rfl⟩ := Prod.mk.inj (Option.some.inj h)
  refine ⟨trivial, ?_⟩
  rintro b s h
  obtain ⟨rfl, rfl⟩ := Prod.mk.inj (Option.some.inj h)
  refine ⟨⟨answered_succeed, by decide⟩, ?_⟩
  rintro b s h
  exact trivial

theorem helpers_run_createAndGet :
    ∃ s, Refinement.play step (start 0 quietEnv) createAndGet =
        some ([.ref (some ⟨1, 0⟩), .unit, .int 5], s) ∧ ∀ a ∈ s.accesses, a.2 = true := by
  obtain ⟨s, he, _, hok⟩ := helpers_run 0 quietEnv createAndGet_allowed
  exact ⟨s, he, hok⟩

/-! ### What is stored stays -/

/-- The action may change the object. -/
def HelperAction.Touches (o : JavaObject) : HelperAction → Prop
  | .setFD _ _ (some r) _ => r.object = o
  | .javaWrites o' _ => o' = o
  | .createJavaVM _ => True
  | _ => False

/-- The action, if it returns this, stores the descriptor in the object. -/
def HelperAction.Stores (o : JavaObject) (fd : BitVec 32) : HelperAction → Output → Prop
  | .setFD _ _ (some r) value, _ => r.object = o ∧ value = fd
  | .createFileDescriptor _ _ _ value, .ref (some r) => r.object = o ∧ value = fd
  | _, _ => False

section store
variable {t : JavaSide} {o : JavaObject}

theorem JavaSide.put_of_ne (t : JavaSide) {o o' : JavaObject} (v : ObjectView) (h : o' ≠ o) :
    (t.put o v).objects o' = t.objects o' :=
  Function.update_of_ne h ..

/-- Objects that are there already are left alone by everything that does not touch them. -/
theorem spec_untouched {a : HelperAction} (ha : ¬ a.Touches o) {v : Option ObjectView}
    (ht : o < t.nextObject ∧ t.objects o = v) :
    o < (t.spec a).2.nextObject ∧ (t.spec a).2.objects o = v := by
  obtain ⟨hlt, ho⟩ := ht
  have hnew : o ≠ t.nextObject := Nat.ne_of_lt hlt
  cases a with
  | createFileDescriptor l answer answers fd => cases answer with
    | value obj => exact ⟨Nat.lt_succ_of_lt hlt, (t.put_of_ne _ hnew).trans ho⟩
    | null thrown => exact ⟨hlt, ho⟩
  | getFD l fileDescriptor => cases fileDescriptor <;> exact ⟨hlt, ho⟩
  | setFD l answers fileDescriptor value => cases fileDescriptor with
    | none => exact ⟨hlt, ho⟩
    | some r =>
        rw [JavaSide.spec]
        cases t.objects r.object with
        | none => exact ⟨hlt, ho⟩
        | some w => exact ⟨hlt, (t.put_of_ne _ (Ne.symm ha)).trans ho⟩
  | createJavaVM env => exact absurd trivial ha
  | javaAllocates obj => exact ⟨Nat.lt_succ_of_lt hlt, (t.put_of_ne _ hnew).trans ho⟩
  | javaWrites o' obj => exact ⟨hlt, (t.put_of_ne _ (Ne.symm ha)).trans ho⟩
  | _ => exact ⟨hlt, ho⟩

/-- A descriptor that is stored can be read. -/
theorem spec_stores {s : HelperState} (h : Represents s t) {a : HelperAction} (ha : Allowed s a)
    {fd : BitVec 32} (hst : a.Stores o fd (t.spec a).1) :
    o < (t.spec a).2.nextObject ∧
      ∃ v, (t.spec a).2.objects o = some v ∧ v.descriptor = some fd := by
  cases a with
  | createFileDescriptor l answer answers value => cases answer with
    | value obj =>
        obtain ⟨rfl, rfl⟩ := hst
        exact ⟨Nat.lt_succ_self _, _, Function.update_self .., rfl⟩
    | null thrown => exact hst.elim
  | setFD l answers fileDescriptor value => cases fileDescriptor with
    | none => exact hst.elim
    | some r =>
        obtain ⟨rfl, rfl⟩ := hst
        obtain ⟨obj, ho, _⟩ := (Option.any_eq_true ..).mp ha.2
        have ht : t.objects r.object = some obj.view := by rw [h.objects, ho]; rfl
        have hlt : r.object < t.nextObject := by
          by_contra hge
          rw [h.nextObject] at hge
          rw [h.good.fresh _ (Nat.le_of_not_lt hge)] at ho
          cases ho
        rw [JavaSide.spec, ht]
        exact ⟨hlt, _, Function.update_self .., rfl⟩
  | getFD l fileDescriptor => cases fileDescriptor <;> exact hst.elim
  | createJavaVM env | javaAllocates obj | javaWrites o' obj | uninitializeConstants
  | getOwnerId l r | getNioBufferBaseArray l answer | getNioBufferBaseArrayOffset l value thrown
  | getNioBufferPointer l r | getNioBufferFields l r | getReferent l answer r => exact hst.elim

end store

/-- **A descriptor stays until it is changed**: what is stored in an object is read from it later,
whatever other helpers are called in between, with other objects, after `jniUninitializeConstants`
or not. -/
theorem descriptor_kept (vm : ℕ) (env : JniEnv) {as bs : List HelperAction} {a : HelperAction}
    {l : Lookups} {r : Ref} (hbs : ∀ b ∈ bs, ¬ b.Touches r.object)
    (has : Refinement.AllAllowed step Allowed (start vm env) (as ++ a :: bs ++ [.getFD l (some r)])) :
    ∃ outs s out, Refinement.play step (start vm env) (as ++ a :: bs ++ [.getFD l (some r)]) =
        some (outs, s) ∧ outs[as.length]? = some out ∧
      ∀ fd, a.Stores r.object fd out → outs.getLast? = some (.int fd) := by
  let t₀ : JavaSide := ⟨env, 0, fun _ => none⟩
  let t₁ := (Refinement.playSpec JavaSide.spec t₀ as).2
  let t₂ := (t₁.spec a).2
  let t₃ := (Refinement.playSpec JavaSide.spec t₂ bs).2
  obtain ⟨s, he, _⟩ := helpers_refine.play (represents_start vm env) has
  obtain ⟨s₁, he₁, hR₁⟩ := helpers_refine.play (represents_start vm env) has.left.left
  have ha : Allowed s₁ a := (has.left.right he₁).1
  have houts : (Refinement.playSpec JavaSide.spec t₀ (as ++ a :: bs ++ [.getFD l (some r)])).1 =
      (Refinement.playSpec JavaSide.spec t₀ as).1 ++
        (t₁.spec a).1 :: (Refinement.playSpec JavaSide.spec t₂ bs).1 ++
          [.int (t₃.get r.object (·.descriptor) 0)] := by
    rw [Refinement.playSpec_append, Refinement.playSpec_append]
    rfl
  refine ⟨_, s, (t₁.spec a).1, he, ?_, fun fd hst => ?_⟩
  · rw [houts, List.append_assoc, List.getElem?_append_right (by rw [Refinement.length_playSpec])]
    simp [Refinement.length_playSpec]
  · -- what is stored is there after the actions that do not touch the object
    obtain ⟨hlt, v, hv, hfd⟩ := spec_stores hR₁ ha hst
    have hkept : r.object < t₃.nextObject ∧ t₃.objects r.object = some v :=
      Refinement.playSpec_keeps
        (P := fun t : JavaSide => r.object < t.nextObject ∧ t.objects r.object = some v)
        (fun _ _ hb ht => spec_untouched hb ht) ⟨hlt, hv⟩ hbs
    rw [houts, List.getLast?_concat, JavaSide.get, hkept.2, Option.bind_some, hfd, Option.getD_some]

theorem descriptor_kept_createAndGet :
    ∃ outs s, Refinement.play step (start 0 quietEnv) createAndGet = some (outs, s) ∧
      outs.getLast? = some (.int 5) := by
  obtain ⟨outs, s, out, he, hout, hkept⟩ := @descriptor_kept 0 quietEnv []
    [.uninitializeConstants] _ _ ⟨1, 0⟩
    (fun b hb => by rw [List.mem_singleton.mp hb]; exact id) createAndGet_allowed
  refine ⟨outs, s, he, hkept 5 ?_⟩
  obtain ⟨rfl, rfl⟩ := Prod.mk.inj (Option.some.inj he)
  obtain rfl := Option.some.inj hout
  exact ⟨rfl, rfl⟩

end JniHelp
end NativeHelper
