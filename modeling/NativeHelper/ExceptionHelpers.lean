import NativeHelper.JniEnv

/-! # Exception helpers

The helpers of `JNIHelp.cpp` that turn an exception into text.  `jniGetStackTrace` sets a pending
exception aside, asks the exception for its stack trace, falls back to a summary if that fails,
and throws what it set aside.

`getExceptionSummary` does not clear what `getMessage` throws, and nobody else does if nothing
was pending at entry.  `pending_eq_iff` says exactly when the pending exception is kept. -/

namespace NativeHelper

/-- What the VM and the Java code answer to the calls of `getExceptionSummary`. -/
structure SummaryAnswers where
  exceptionClass : JavaObject
  classClass : JavaObject
  classGetNameMethod : Answer Unit
  /-- `exception.getClass().getName()` -/
  getName : Answer JavaObject
  classNameChars : Answer String
  getMessageMethod : Answer Unit
  /-- `exception.getMessage()` -/
  getMessage : Answer JavaObject
  messageChars : Answer String

/-- What the VM and the Java code answer to the calls of `getStackTrace`. -/
structure StackTraceAnswers where
  stringWriterClass : Answer JavaObject
  stringWriterCtor : Answer Unit
  stringWriterToStringMethod : Answer Unit
  printWriterClass : Answer JavaObject
  printWriterCtor : Answer Unit
  /-- `new StringWriter()` -/
  stringWriter : Answer JavaObject
  /-- `new PrintWriter(stringWriter)` -/
  printWriter : Answer JavaObject
  exceptionClass : JavaObject
  printStackTraceMethod : Answer Unit
  /-- What `exception.printStackTrace(printWriter)` throws. -/
  printStackTrace : Option JavaObject
  /-- `stringWriter.toString()` -/
  toString : Answer JavaObject
  utfChars : Answer String

def getExceptionSummary (answers : SummaryAnswers) (exception : Ref) (result : String) :
    JniM (Bool × String) := do
  let exceptionClass ← getObjectClass answers.exceptionClass exception
  scopedLocalRef exceptionClass do
  let classClass ← getObjectClass answers.classClass exceptionClass
  scopedLocalRef classClass do
  let classGetNameMethod ←
    getMethodID answers.classGetNameMethod classClass "getName" "()Ljava/lang/String;"
  let classNameStr ← callObjectMethod answers.getName exceptionClass classGetNameMethod
  scopedLocalRef classNameStr do
  match classNameStr with
  | none => do
      exceptionClear
      return (false, "<error getting class name>")
  | some classNameStr => do
      match ← getStringUTFChars answers.classNameChars classNameStr with
      | none => do
          exceptionClear
          return (false, "<error getting class name UTF-8>")
      | some classNameChars => do
          let result := result ++ (← readUtfChars classNameChars)
          releaseStringUTFChars classNameStr classNameChars
          let getMessage ←
            getMethodID answers.getMessageMethod exceptionClass "getMessage" "()Ljava/lang/String;"
          let messageStr ← callObjectMethod answers.getMessage exception getMessage
          scopedLocalRef messageStr do
          match messageStr with
          -- what `getMessage` threw stays pending
          | none => return (true, result)
          | some messageStr => do
              let result := result ++ ": "
              match ← getStringUTFChars answers.messageChars messageStr with
              | some messageChars => do
                  let result := result ++ (← readUtfChars messageChars)
                  releaseStringUTFChars messageStr messageChars
                  return (true, result)
              | none => do
                  exceptionClear
                  return (true, result ++ "<error getting message>")

/-! `getExceptionSummary` in parts: the calls up to that of `getName`, and what is done with its
result. -/

/-- The part of `getExceptionSummary` that appends the message to the name of the class. -/
def summaryOfMessage (answers : SummaryAnswers) (exception exceptionClass : Ref)
    (result : String) : JniM (Bool × String) := do
  let getMessage ←
    getMethodID answers.getMessageMethod exceptionClass "getMessage" "()Ljava/lang/String;"
  let messageStr ← callObjectMethod answers.getMessage exception getMessage
  scopedLocalRef messageStr do
  match messageStr with
  | none => return (true, result)
  | some messageStr => do
      let result := result ++ ": "
      match ← getStringUTFChars answers.messageChars messageStr with
      | some messageChars => do
          let result := result ++ (← readUtfChars messageChars)
          releaseStringUTFChars messageStr messageChars
          return (true, result)
      | none => do
          exceptionClear
          return (true, result ++ "<error getting message>")

/-- The part of `getExceptionSummary` after the call of `getName`. -/
def summaryOfName (answers : SummaryAnswers) (exception exceptionClass : Ref)
    (result : String) : Option Ref → JniM (Bool × String)
  | none => do
      exceptionClear
      return (false, "<error getting class name>")
  | some classNameStr => do
      match ← getStringUTFChars answers.classNameChars classNameStr with
      | none => do
          exceptionClear
          return (false, "<error getting class name UTF-8>")
      | some classNameChars => do
          let result := result ++ (← readUtfChars classNameChars)
          releaseStringUTFChars classNameStr classNameChars
          summaryOfMessage answers exception exceptionClass result

theorem getExceptionSummary_eq (answers : SummaryAnswers) (exception : Ref) (result : String) :
    getExceptionSummary answers exception result = (do
      let exceptionClass ← getObjectClass answers.exceptionClass exception
      scopedLocalRef exceptionClass do
      let classClass ← getObjectClass answers.classClass exceptionClass
      scopedLocalRef classClass do
      let classGetNameMethod ←
        getMethodID answers.classGetNameMethod classClass "getName" "()Ljava/lang/String;"
      let classNameStr ← callObjectMethod answers.getName exceptionClass classGetNameMethod
      scopedLocalRef classNameStr do
      summaryOfName answers exception exceptionClass result classNameStr) := by
  unfold getExceptionSummary summaryOfName
  rfl

def getStackTrace (answers : StackTraceAnswers) (exception : Ref) (result : String) :
    JniM (Bool × String) := do
  let stringWriterClass ← findClass answers.stringWriterClass "java/io/StringWriter"
  scopedLocalRef stringWriterClass do
  match stringWriterClass with
  | none => return (false, result)
  | some stringWriterClass => do
  let stringWriterCtor ← getMethodID answers.stringWriterCtor stringWriterClass "<init>" "()V"
  let stringWriterToStringMethod ← getMethodID answers.stringWriterToStringMethod
    stringWriterClass "toString" "()Ljava/lang/String;"
  let printWriterClass ← findClass answers.printWriterClass "java/io/PrintWriter"
  scopedLocalRef printWriterClass do
  match printWriterClass with
  | none => return (false, result)
  | some printWriterClass => do
  let printWriterCtor ←
    getMethodID answers.printWriterCtor printWriterClass "<init>" "(Ljava/io/Writer;)V"
  let stringWriter ← newObject answers.stringWriter stringWriterClass stringWriterCtor []
  scopedLocalRef stringWriter do
  match stringWriter with
  | none => return (false, result)
  | some stringWriter => do
  let printWriter ← newObject answers.printWriter printWriterClass printWriterCtor [stringWriter]
  scopedLocalRef printWriter do
  match printWriter with
  | none => return (false, result)
  | some printWriter => do
  let exceptionClass ← getObjectClass answers.exceptionClass exception
  scopedLocalRef exceptionClass do
  let printStackTraceMethod ← getMethodID answers.printStackTraceMethod exceptionClass
    "printStackTrace" "(Ljava/io/PrintWriter;)V"
  callVoidMethod answers.printStackTrace exception printStackTraceMethod [printWriter]
  if ← exceptionCheck then return (false, result)
  else do
  let messageStr ← callObjectMethod answers.toString stringWriter stringWriterToStringMethod
  scopedLocalRef messageStr do
  match messageStr with
  | none => return (false, result)
  | some messageStr => do
  match ← getStringUTFChars answers.utfChars messageStr with
  | none => return (false, result)
  | some utfChars => do
  let result ← readUtfChars utfChars
  releaseStringUTFChars messageStr utfChars
  return (true, result)

/-- `jniGetStackTrace`; a null `exception` stands for the pending one. -/
def jniGetStackTrace (stackTrace : StackTraceAnswers) (summary : SummaryAnswers)
    (exception : Option Ref) : JniM String := do
  let currentException ← exceptionOccurred
  scopedLocalRef currentException do
  match exception <|> currentException with
  | none => return "<no pending exception>"
  | some exception => do
      if currentException.isSome then exceptionClear
      let r ← getStackTrace stackTrace exception ""
      let trace ← if !r.1 then do
          exceptionClear
          let r ← getExceptionSummary summary exception r.2
          pure r.2
        else pure r.2
      match currentException with
      | none => return trace
      | some currentException => do
          throwRef currentException
          return trace

def jniLogException (stackTrace : StackTraceAnswers) (summary : SummaryAnswers) (priority : ℤ)
    (tag : String) (exception : Option Ref) : JniM Unit := do
  let trace ← jniGetStackTrace stackTrace summary exception
  androidLogWrite priority tag trace

/-! ### The pending exception -/

/-- Every call of `getStackTrace` returns something and `printStackTrace` throws nothing. -/
def StackTraceAnswers.succeeds (answers : StackTraceAnswers) : Bool :=
  answers.stringWriterClass.isValue && answers.printWriterClass.isValue &&
    answers.stringWriter.isValue && answers.printWriter.isValue &&
    answers.printStackTrace.isNone && answers.toString.isValue && answers.utfChars.isValue

/-- No lookup of a method leaves an exception. -/
def SummaryAnswers.QuietLookups (answers : SummaryAnswers) : Prop :=
  answers.classGetNameMethod.thrown = none ∧ answers.getMessageMethod.thrown = none

/-- No lookup of a method leaves an exception. -/
def StackTraceAnswers.QuietLookups (answers : StackTraceAnswers) : Prop :=
  answers.stringWriterCtor.thrown = none ∧ answers.stringWriterToStringMethod.thrown = none ∧
    answers.printWriterCtor.thrown = none ∧ answers.printStackTraceMethod.thrown = none

/-- What `getMessage` throws, if `getExceptionSummary` gets as far as calling it. -/
def SummaryAnswers.leaves (answers : SummaryAnswers) : Option JavaObject :=
  match answers.getName, answers.classNameChars, answers.getMessage with
  | .value _, .value _, .null thrown => thrown
  | _, _, _ => none

section pending
variable (e : JniEnv) (exception : Ref) (result : String)

/-- The summary clears every failure but that of `getMessage`. -/
theorem getExceptionSummary_pending (answers : SummaryAnswers) (hq : answers.QuietLookups)
    (h : e.pending = none) :
    (getExceptionSummary answers exception result e).2.pending = answers.leaves := by
  obtain ⟨exceptionClass, classClass, classGetNameMethod, getName, classNameChars,
    getMessageMethod, getMessage, messageChars⟩ := answers
  obtain ⟨h1, h2⟩ := hq
  dsimp only at h1 h2
  unfold getExceptionSummary SummaryAnswers.leaves callObjectMethod
  cases getName with
  | null thrown => simp
  | value name =>
      cases classNameChars with
      | null thrown => simp
      | value chars =>
          cases getMessage with
          | null thrown => simp [h, h1, h2]
          | value message =>
              cases messageChars with
              | null thrown => simp
              | value chars' => simp [h, h1, h2]

/-- The stack trace is returned if all of its calls succeed, and then nothing is pending. -/
theorem getStackTrace_pending (answers : StackTraceAnswers) (hq : answers.QuietLookups)
    (h : e.pending = none) :
    (getStackTrace answers exception result e).1.1 = answers.succeeds ∧
      (answers.succeeds = true →
        (getStackTrace answers exception result e).2.pending = none) := by
  obtain ⟨stringWriterClass, stringWriterCtor, stringWriterToStringMethod, printWriterClass,
    printWriterCtor, stringWriter, printWriter, exceptionClass, printStackTraceMethod,
    printStackTrace, toString, utfChars⟩ := answers
  obtain ⟨h1, h2, h3, h4⟩ := hq
  dsimp only at h1 h2 h3 h4
  unfold getStackTrace StackTraceAnswers.succeeds findClass newObject callObjectMethod
  cases stringWriterClass with
  | null thrown => simp [Answer.isValue]
  | value swClass =>
  cases printWriterClass with
  | null thrown => simp [Answer.isValue]
  | value pwClass =>
  cases stringWriter with
  | null thrown => simp [Answer.isValue]
  | value sw =>
  cases printWriter with
  | null thrown => simp [Answer.isValue]
  | value pw =>
  cases printStackTrace with
  | some thrown => simp [Answer.isValue]
  | none =>
  cases toString with
  | null thrown => simp [Answer.isValue, h, h1, h2, h3, h4]
  | value message =>
  cases utfChars with
  | null thrown => simp [Answer.isValue, h, h1, h2, h3, h4]
  | value chars => simp [Answer.isValue, h, h1, h2, h3, h4]

end pending

theorem SummaryAnswers.leaves_eq_none_iff {answers : SummaryAnswers} :
    answers.leaves = none ↔ ¬ ∃ name chars thrown, answers.getName = .value name ∧
      answers.classNameChars = .value chars ∧ answers.getMessage = .null (some thrown) := by
  obtain ⟨_, _, _, getName, classNameChars, _, getMessage, _⟩ := answers
  unfold leaves
  cases getName with
  | null thrown => simp
  | value name =>
      cases classNameChars with
      | null thrown => simp
      | value chars =>
          cases getMessage with
          | value message => simp
          | null thrown => cases thrown <;> simp

/-- Nothing is pending, there is an exception to describe, its stack trace cannot be had, its
class name can, and `getMessage` throws. -/
def MessageThrows (stackTrace : StackTraceAnswers) (summary : SummaryAnswers)
    (exception : Option Ref) (e : JniEnv) : Prop :=
  e.pending = none ∧ exception ≠ none ∧ stackTrace.succeeds = false ∧
    ∃ name chars thrown, summary.getName = .value name ∧
      summary.classNameChars = .value chars ∧ summary.getMessage = .null (some thrown)

section frame
variable (stackTrace : StackTraceAnswers) (summary : SummaryAnswers) (exception : Option Ref)
  (e : JniEnv)

/-- A pending exception is thrown again at the end. -/
theorem jniGetStackTrace_pending_some {object : JavaObject} (h : e.pending = some object) :
    (jniGetStackTrace stackTrace summary exception e).2.pending = some object := by
  have hx : ∃ x, (exception <|> some ⟨e.nextRef, object⟩) = some x := by
    cases exception <;> exact ⟨_, rfl⟩
  obtain ⟨x, hx⟩ := hx
  unfold jniGetStackTrace
  simp only [JniM.bind_apply, exceptionOccurred_fst, h, Option.map_some, scopedLocalRef_pending, hx,
    Option.isSome_some, if_true]
  split_ifs <;> simp

/-- With nothing pending, what the summary leaves is left. -/
theorem jniGetStackTrace_pending_none (hq : stackTrace.QuietLookups) (hq' : summary.QuietLookups)
    (h : e.pending = none) (exception : Ref) :
    (jniGetStackTrace stackTrace summary (some exception) e).2.pending =
      if stackTrace.succeeds then none else summary.leaves := by
  have h1 : (exceptionOccurred e).2.pending = none := by simp [h]
  obtain ⟨hok, hnone⟩ := getStackTrace_pending _ exception "" stackTrace hq h1
  unfold jniGetStackTrace
  by_cases hs : stackTrace.succeeds = true
  · rw [hs] at hok
    simp [h, hok, hs, hnone hs]
  · rw [Bool.not_eq_true] at hs
    rw [hs] at hok
    simp only [JniM.bind_apply, exceptionOccurred_fst, h, Option.map_none, scopedLocalRef_pending]
    simp [hok, hs]
    exact getExceptionSummary_pending _ _ _ summary hq' rfl

theorem jniGetStackTrace_pending_iff (hq : stackTrace.QuietLookups)
    (hq' : summary.QuietLookups) :
    (jniGetStackTrace stackTrace summary exception e).2.pending = e.pending ↔
      ¬ MessageThrows stackTrace summary exception e := by
  unfold MessageThrows
  cases h : e.pending with
  | some object => simp [jniGetStackTrace_pending_some stackTrace summary exception e h]
  | none =>
      cases exception with
      | none => simp [jniGetStackTrace, h]
      | some exception =>
          rw [jniGetStackTrace_pending_none stackTrace summary e hq hq' h, ← not_iff_not, not_not]
          by_cases hs : stackTrace.succeeds = true
          · simp [hs]
          · rw [if_neg hs, SummaryAnswers.leaves_eq_none_iff, not_not]
            simp [hs]

/-- **The pending exception is kept** by both helpers except when `getMessage` throws in the
fallback of a call made with nothing pending.  Looking up a method is assumed not to throw. -/
theorem pending_eq_iff (hq : stackTrace.QuietLookups) (hq' : summary.QuietLookups) (priority : ℤ)
    (tag : String) :
    ((jniGetStackTrace stackTrace summary exception e).2.pending = e.pending ↔
      ¬ MessageThrows stackTrace summary exception e) ∧
    ((jniLogException stackTrace summary priority tag exception e).2.pending = e.pending ↔
      ¬ MessageThrows stackTrace summary exception e) := by
  have h := jniGetStackTrace_pending_iff stackTrace summary exception e hq hq'
  refine ⟨h, ?_⟩
  simp [jniLogException, h]

end frame

/-- `java.io.StringWriter` cannot be found. -/
def noStringWriter : StackTraceAnswers :=
  { stringWriterClass := .null (some 1), stringWriterCtor := .value ()
    stringWriterToStringMethod := .value (), printWriterClass := .value 2
    printWriterCtor := .value (), stringWriter := .value 3, printWriter := .value 4
    exceptionClass := 5, printStackTraceMethod := .value (), printStackTrace := none
    toString := .value 6, utfChars := .value "" }

/-- `getMessage` throws the object 9. -/
def messageThrows : SummaryAnswers :=
  { exceptionClass := 5, classClass := 7, classGetNameMethod := .value (), getName := .value 8
    classNameChars := .value "E", getMessageMethod := .value (), getMessage := .null (some 9)
    messageChars := .value "" }

/-- A thread with nothing pending and one local reference, to the exception 10. -/
def quietEnv : JniEnv := ⟨none, [⟨0, 10⟩], 1, [], 0, [], [], [], [], []⟩

/-- If the object 11 is pending it stays so, whatever `getMessage` throws. -/
theorem quietEnv_rethrown :
    (jniGetStackTrace noStringWriter messageThrows (some ⟨0, 10⟩)
      { quietEnv with pending := some 11 }).2.pending = some 11 := by
  apply (pending_eq_iff noStringWriter messageThrows (some ⟨0, 10⟩)
    { quietEnv with pending := some 11 } ⟨rfl, rfl, rfl, rfl⟩ ⟨rfl, rfl⟩ 6 "T").1.mpr
  rintro ⟨h, _⟩
  cases h

/-- The object 9 is left pending. -/
theorem quietEnv_disturbed :
    (jniGetStackTrace noStringWriter messageThrows (some ⟨0, 10⟩) quietEnv).2.pending = some 9 ∧
    (jniLogException noStringWriter messageThrows 6 "T" (some ⟨0, 10⟩) quietEnv).2.pending =
      some 9 ∧
    some 9 ≠ quietEnv.pending := by
  decide

end NativeHelper
