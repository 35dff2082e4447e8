import Mathlib.Data.Int.Notation
import Mathlib.Data.List.Basic
import NativeHelper.Ledger

/-! # The JNI environment of a thread

What the helpers can see and change through a `JNIEnv`: the pending exception, the live local
references and the UTF-8 characters obtained from strings.  A helper is a `JniM` program, which
passes this state along.

What the VM and the Java code answer is not part of the state.  Every call that can fail takes
an `Answer`; the helpers take a record with one answer for each of their calls, so a statement
about all records is one about all behaviours.  `JniEnv.calls` is the history: every function
that was called, with whether an exception was pending and whether what it was given was live.
`JniEnv.ledger` lists the references and the characters as they are obtained and given back. -/

namespace NativeHelper

/-- An object of the Java heap, by its identity. -/
abbrev JavaObject := ℕ

/-- A local reference, and the object the VM knows it by. -/
structure Ref where
  id : ℕ
  object : JavaObject
deriving DecidableEq, Repr

/-- The answer to a call that may return null, and the exception it then left pending. -/
inductive Answer (α : Type) where
  | value (a : α)
  | null (thrown : Option JavaObject)
deriving DecidableEq, Repr

/-- The call returned something. -/
def Answer.isValue {α : Type} : Answer α → Bool
  | .value _ => true
  | .null _ => false

/-- The exception the call left pending. -/
def Answer.thrown {α : Type} : Answer α → Option JavaObject
  | .value _ => none
  | .null thrown => thrown

@[simp] theorem Answer.thrown_value {α : Type} (a : α) : (Answer.value a).thrown = none := rfl

@[simp] theorem Answer.thrown_null {α : Type} (thrown : Option JavaObject) :
    (Answer.null thrown : Answer α).thrown = thrown := rfl

/-- What `GetMethodID` looks up. -/
structure MethodId where
  clazz : JavaObject
  name : String
  sig : String
deriving DecidableEq, Repr

/-- The functions of `JNIEnv` the helpers call.  The id of a method that was not found is null. -/
inductive JniFunction where
  | exceptionCheck | exceptionOccurred | exceptionClear | throw
  | throwNew (message : Option String)
  | findClass (name : String)
  | getObjectClass
  | getMethodID (name sig : String)
  | newObject (method : Option MethodId)
  | callObjectMethod (method : Option MethodId)
  | callVoidMethod (method : Option MethodId)
  | getStringUTFChars | releaseStringUTFChars
  | deleteLocalRef
deriving DecidableEq, Repr

/-- One call in the history. -/
structure JniCall where
  function : JniFunction
  /-- An exception was pending. -/
  whilePending : Bool
  /-- Every reference it was given was live. -/
  refsLive : Bool
  /-- The characters it was given were not released yet, and are those of the string it was
  given. -/
  charsLive : Bool
deriving DecidableEq, Repr

/-- What `GetStringUTFChars` returned, and for which string. -/
structure UtfChars where
  id : ℕ
  string : Ref
  chars : String
deriving DecidableEq, Repr

/-- What is obtained from the VM and has to be given back. -/
inductive JniHandle where
  | localRef (r : Ref)
  | utfChars (utf : UtfChars)
deriving DecidableEq, Repr

/-- An exception that `ThrowNew` made. -/
structure NewThrowable where
  object : JavaObject
  clazz : JavaObject
  message : Option String
deriving DecidableEq, Repr

structure JniEnv where
  pending : Option JavaObject
  /-- The live local references. -/
  locals : List Ref
  nextRef : ℕ
  /-- The characters that are not released yet. -/
  utfChars : List UtfChars
  nextChars : ℕ
  calls : List JniCall
  /-- For every look at characters, whether they were not released yet. -/
  charReads : List Bool
  ledger : List (Ledger.Entry JniHandle)
  /-- The exceptions that were made. -/
  throwables : List NewThrowable
  /-- What was written to the Android log: priority, tag and text. -/
  androidLog : List (ℤ × String × String)
deriving DecidableEq, Repr

/-- A program that calls functions of a `JNIEnv`. -/
def JniM (α : Type) := JniEnv → α × JniEnv

namespace JniM
variable {α β : Type}

instance : Monad JniM where
  pure a := fun e => (a, e)
  bind x f := fun e => f (x e).1 (x e).2

@[simp] theorem pure_apply (a : α) (e : JniEnv) : (pure a : JniM α) e = (a, e) := rfl

@[simp] theorem bind_apply (x : JniM α) (f : α → JniM β) (e : JniEnv) :
    (x >>= f) e = f (x e).1 (x e).2 := rfl

end JniM

/-! ### What the functions are made of -/

/-- Record a call, with the references and the characters it is given. -/
def jniCall (function : JniFunction) (refs : List Ref) (chars : List UtfChars) : JniM Unit := fun e =>
  ((), { e with calls := e.calls ++ [⟨function, e.pending.isSome, refs.all (e.locals.contains ·),
    chars.all (e.utfChars.contains ·)⟩] })

def getPending : JniM (Option JavaObject) := fun e => (e.pending, e)

def setPending (exception : Option JavaObject) : JniM Unit := fun e =>
  ((), { e with pending := exception })

/-- Leave an exception pending, if one was thrown. -/
def raise : Option JavaObject → JniM Unit
  | none => return ()
  | some exception => setPending (some exception)

/-- A new local reference to an object. -/
def newLocalRef (object : JavaObject) : JniM Ref := fun e =>
  (⟨e.nextRef, object⟩,
    { e with locals := e.locals ++ [⟨e.nextRef, object⟩], nextRef := e.nextRef + 1
             ledger := e.ledger ++ [.acquire (.localRef ⟨e.nextRef, object⟩)] })

def dropLocalRef (localRef : Ref) : JniM Unit := fun e =>
  ((), { e with locals := e.locals.erase localRef
                ledger := e.ledger ++ [.release (.localRef localRef)] })

/-- A new copy of the characters of a string. -/
def newUtfChars (string : Ref) (chars : String) : JniM UtfChars := fun e =>
  (⟨e.nextChars, string, chars⟩,
    { e with utfChars := e.utfChars ++ [⟨e.nextChars, string, chars⟩], nextChars := e.nextChars + 1
             ledger := e.ledger ++ [.acquire (.utfChars ⟨e.nextChars, string, chars⟩)] })

def dropUtfChars (utf : UtfChars) : JniM Unit := fun e =>
  ((), { e with utfChars := e.utfChars.erase utf
                ledger := e.ledger ++ [.release (.utfChars utf)] })

/-- What a program reads from the characters. -/
def readUtfChars (utf : UtfChars) : JniM String := fun e =>
  (utf.chars, { e with charReads := e.charReads ++ [e.utfChars.contains utf] })

/-- A new exception, which becomes the pending one. -/
def throwNewObject (throwable : NewThrowable) : JniM Unit := fun e =>
  ((), { e with throwables := e.throwables ++ [throwable], pending := some throwable.object })

/-- A call that returns a local reference or null. -/
def callForRef (function : JniFunction) (refs : List Ref) (answer : Answer JavaObject) :
    JniM (Option Ref) := do
  jniCall function refs []
  match answer with
  | .value object => return some (← newLocalRef object)
  | .null thrown => do
      raise thrown
      return none

/-! ### The functions -/

def exceptionCheck : JniM Bool := do
  jniCall .exceptionCheck [] []
  return (← getPending).isSome

/-- `ExceptionOccurred`: a new local reference to the pending exception, null if there is none. -/
def exceptionOccurred : JniM (Option Ref) := do
  jniCall .exceptionOccurred [] []
  match ← getPending with
  | none => return none
  | some object => return some (← newLocalRef object)

def exceptionClear : JniM Unit := do
  jniCall .exceptionClear [] []
  setPending none

/-- `Throw`, which replaces the pending exception. -/
def throwRef (exception : Ref) : JniM Unit := do
  jniCall .throw [exception] []
  setPending (some exception.object)

/-- `ThrowNew` with the exception it makes: `JNI_OK` or `JNI_ERR`. -/
def throwNew (answer : Answer JavaObject) (clazz : Ref) (message : Option String) : JniM ℤ := do
  jniCall (.throwNew message) [clazz] []
  match answer with
  | .value object => do
      throwNewObject ⟨object, clazz.object, message⟩
      return 0
  | .null thrown => do
      raise thrown
      return -1

def findClass (answer : Answer JavaObject) (name : String) : JniM (Option Ref) :=
  callForRef (.findClass name) [] answer

/-- `GetObjectClass`, which cannot fail. -/
def getObjectClass (clazz : JavaObject) (object : Ref) : JniM Ref := do
  jniCall .getObjectClass [object] []
  newLocalRef clazz

/-- `GetMethodID`, which is null for a method that is not found. -/
def getMethodID (answer : Answer Unit) (clazz : Ref) (name sig : String) :
    JniM (Option MethodId) := do
  jniCall (.getMethodID name sig) [clazz] []
  match answer with
  | .value _ => return some ⟨clazz.object, name, sig⟩
  | .null thrown => do
      raise thrown
      return none

def newObject (answer : Answer JavaObject) (clazz : Ref) (method : Option MethodId)
    (args : List Ref) : JniM (Option Ref) :=
  callForRef (.newObject method) (clazz :: args) answer

def callObjectMethod (answer : Answer JavaObject) (object : Ref) (method : Option MethodId) :
    JniM (Option Ref) :=
  callForRef (.callObjectMethod method) [object] answer

def callVoidMethod (thrown : Option JavaObject) (object : Ref) (method : Option MethodId)
    (args : List Ref) : JniM Unit := do
  jniCall (.callVoidMethod method) (object :: args) []
  raise thrown

def getStringUTFChars (answer : Answer String) (string : Ref) : JniM (Option UtfChars) := do
  jniCall .getStringUTFChars [string] []
  match answer with
  | .value chars => return some (← newUtfChars string chars)
  | .null thrown => do
      raise thrown
      return none

def releaseStringUTFChars (string : Ref) (utf : UtfChars) : JniM Unit := do
  jniCall .releaseStringUTFChars [string] [{ utf with string }]
  dropUtfChars { utf with string }

def deleteLocalRef (localRef : Ref) : JniM Unit := do
  jniCall .deleteLocalRef [localRef] []
  dropLocalRef localRef

/-- The scope of a `ScopedLocalRef`: its destructor deletes the reference unless it is null. -/
def scopedLocalRef {α : Type} (localRef : Option Ref) (body : JniM α) : JniM α := do
  let a ← body
  match localRef with
  | none => return a
  | some r => do
      deleteLocalRef r
      return a

def androidLogWrite (priority : ℤ) (tag text : String) : JniM Unit := fun e =>
  ((), { e with androidLog := e.androidLog ++ [(priority, tag, text)] })

/-! ### What they do to the pending exception -/

section pending
variable {α : Type} (e : JniEnv)

@[simp] theorem callForRef_value_fst (function : JniFunction) (refs : List Ref)
    (object : JavaObject) :
    (callForRef function refs (.value object) e).1 = some ⟨e.nextRef, object⟩ := rfl

@[simp] theorem callForRef_value_pending (function : JniFunction) (refs : List Ref)
    (object : JavaObject) :
    (callForRef function refs (.value object) e).2.pending = e.pending := rfl

@[simp] theorem callForRef_null_fst (function : JniFunction) (refs : List Ref)
    (thrown : Option JavaObject) :
    (callForRef function refs (.null thrown) e).1 = none := rfl

@[simp] theorem callForRef_null_pending (function : JniFunction) (refs : List Ref)
    (thrown : Option JavaObject) :
    (callForRef function refs (.null thrown) e).2.pending = (thrown <|> e.pending) := by
  cases thrown <;> rfl

@[simp] theorem getStringUTFChars_value_fst (chars : String) (string : Ref) :
    (getStringUTFChars (.value chars) string e).1 = some ⟨e.nextChars, string, chars⟩ := rfl

@[simp] theorem getStringUTFChars_value_pending (chars : String) (string : Ref) :
    (getStringUTFChars (.value chars) string e).2.pending = e.pending := rfl

@[simp] theorem getStringUTFChars_null_fst (thrown : Option JavaObject) (string : Ref) :
    (getStringUTFChars (.null thrown) string e).1 = none := rfl

@[simp] theorem exceptionCheck_fst : (exceptionCheck e).1 = e.pending.isSome := rfl

@[simp] theorem exceptionCheck_pending : (exceptionCheck e).2.pending = e.pending := rfl

@[simp] theorem exceptionOccurred_fst :
    (exceptionOccurred e).1 = e.pending.map fun object => ⟨e.nextRef, object⟩ := by
  obtain ⟨_ | object⟩ := e <;> rfl

@[simp] theorem exceptionOccurred_pending : (exceptionOccurred e).2.pending = e.pending := by
  obtain ⟨_ | object⟩ := e <;> rfl

@[simp] theorem exceptionClear_pending : (exceptionClear e).2.pending = none := rfl

@[simp] theorem throwRef_pending (exception : Ref) :
    (throwRef exception e).2.pending = some exception.object := rfl

@[simp] theorem getObjectClass_pending (clazz : JavaObject) (object : Ref) :
    (getObjectClass clazz object e).2.pending = e.pending := rfl

@[simp] theorem getMethodID_pending (answer : Answer Unit) (clazz : Ref) (name sig : String) :
    (getMethodID answer clazz name sig e).2.pending = (answer.thrown <|> e.pending) := by
  rcases answer with _ | _ | _ <;> rfl

@[simp] theorem callVoidMethod_pending (thrown : Option JavaObject) (object : Ref)
    (method : Option MethodId) (args : List Ref) :
    (callVoidMethod thrown object method args e).2.pending = (thrown <|> e.pending) := by
  cases thrown <;> rfl

@[simp] theorem readUtfChars_fst (utf : UtfChars) : (readUtfChars utf e).1 = utf.chars := rfl

@[simp] theorem readUtfChars_pending (utf : UtfChars) :
    (readUtfChars utf e).2.pending = e.pending := rfl

@[simp] theorem releaseStringUTFChars_pending (string : Ref) (utf : UtfChars) :
    (releaseStringUTFChars string utf e).2.pending = e.pending := rfl

@[simp] theorem androidLogWrite_pending (priority : ℤ) (tag text : String) :
    (androidLogWrite priority tag text e).2.pending = e.pending := rfl

@[simp] theorem scopedLocalRef_fst (localRef : Option Ref) (body : JniM α) :
    (scopedLocalRef localRef body e).1 = (body e).1 := by
  cases localRef <;> rfl

/-- Leaving a scope does not touch the pending exception. -/
@[simp] theorem scopedLocalRef_pending (localRef : Option Ref) (body : JniM α) :
    (scopedLocalRef localRef body e).2.pending = (body e).2.pending := by
  cases localRef <;> rfl

end pending

/-! ### What they record

Whatever the answer is, a function is entered once in the history. -/

section calls
variable (e : JniEnv)

theorem callForRef_calls (function : JniFunction) (refs : List Ref) (answer : Answer JavaObject) :
    (callForRef function refs answer e).2.calls = (jniCall function refs [] e).2.calls := by
  rcases answer with _ | _ | _ <;> rfl

theorem getMethodID_calls (answer : Answer Unit) (clazz : Ref) (name sig : String) :
    (getMethodID answer clazz name sig e).2.calls =
      (jniCall (.getMethodID name sig) [clazz] [] e).2.calls := by
  rcases answer with _ | _ | _ <;> rfl

theorem getStringUTFChars_calls (answer : Answer String) (string : Ref) :
    (getStringUTFChars answer string e).2.calls =
      (jniCall .getStringUTFChars [string] [] e).2.calls := by
  rcases answer with _ | _ | _ <;> rfl

theorem throwNew_calls (answer : Answer JavaObject) (clazz : Ref) (message : Option String) :
    (throwNew answer clazz message e).2.calls =
      (jniCall (.throwNew message) [clazz] [] e).2.calls := by
  rcases answer with _ | _ | _ <;> rfl

theorem exceptionOccurred_calls :
    (exceptionOccurred e).2.calls = (jniCall .exceptionOccurred [] [] e).2.calls := by
  obtain ⟨_ | object⟩ := e <;> rfl

end calls

end NativeHelper
