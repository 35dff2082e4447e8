import NativeHelper.ExceptionHelpers
import NativeHelper.JniResources

/-! # Throwing an exception

`jniThrowException` logs and discards what is pending, finds the class and throws a new exception of
it.  Whatever the calls answer, it and the helpers for stack traces give back every reference and
all characters, and use neither afterwards; it returns 0 exactly if the pending exception is the one
it made (`helpers_keep_resources`). -/

namespace NativeHelper

/-- What the VM and the Java code answer to the calls of `jniThrowException`. -/
structure ThrowAnswers where
  /-- For the exception that is discarded. -/
  summary : SummaryAnswers
  /-- `FindClass(className)` -/
  exceptionClass : Answer JavaObject
  /-- The exception that `ThrowNew` makes. -/
  throwNew : Answer JavaObject

/-- `ANDROID_LOG_WARN` -/
def androidLogWarn : ℤ := 5

/-- `ANDROID_LOG_ERROR` -/
def androidLogError : ℤ := 6

/-- `LOG_TAG` of `JNIHelp.cpp`. -/
def jniHelpLogTag : String := "JNIHelp"

/-- The first part of `jniThrowException`: what is pending is logged and discarded. -/
def discardPending (summary : SummaryAnswers) (className : String) : JniM Unit := do
  let exception ← exceptionOccurred
  scopedLocalRef exception do
  exceptionClear
  match exception with
  | none => return ()
  | some exception => do
      let text ← getExceptionSummary summary exception ""
      androidLogWrite androidLogWarn jniHelpLogTag
        ("Discarding pending exception (" ++ text.2 ++ ") to throw " ++ className)

/-- The second part: the class is found and an exception of it thrown. -/
def throwNewOfClass (answers : ThrowAnswers) (className : String) (msg : Option String) :
    JniM ℤ := do
  let exceptionClass ← findClass answers.exceptionClass className
  scopedLocalRef exceptionClass do
  match exceptionClass with
  | none => do
      androidLogWrite androidLogError jniHelpLogTag ("Unable to find exception class " ++ className)
      return -1
  | some exceptionClass => do
  if (← throwNew answers.throwNew exceptionClass msg) ≠ 0 then do
    androidLogWrite androidLogError jniHelpLogTag
      ("Failed throwing '" ++ className ++ "' '" ++ msg.getD "(null)" ++ "'")
    return -1
  else return 0

/-- `jniThrowException`; the message may be null. -/
def jniThrowException (answers : ThrowAnswers) (className : String) (msg : Option String) :
    JniM ℤ := do
  if ← exceptionCheck then discardPending answers.summary className
  throwNewOfClass answers className msg

/-! ### Resources -/

section resources
variable {refs : List Ref}

theorem keeps_summaryOfMessage (answers : SummaryAnswers) {exception exceptionClass : Ref}
    (result : String) (hx : exception ∈ refs) (hc : exceptionClass ∈ refs) :
    Keeps refs (summaryOfMessage answers exception exceptionClass result) := by
  unfold summaryOfMessage
  apply (keeps_getMethodID _ _ _ hc).bind
  intro getMessage
  apply (opens_callObjectMethod _ _ hx).scope
  · exact keeps_pure _
  · intro messageStr
    apply keeps_getStringUTFChars List.mem_cons_self
    · exact keeps_exceptionClear.bind fun _ => keeps_pure _
    · intro messageChars hs
      apply closes_readUtfChars
      intro text
      apply closes_releaseStringUTFChars hs List.mem_cons_self
      exact keeps_pure _

theorem keeps_getExceptionSummary (answers : SummaryAnswers) {exception : Ref} (result : String)
    (hx : exception ∈ refs) : Keeps refs (getExceptionSummary answers exception result) := by
  rw [getExceptionSummary_eq]
  apply keeps_getObjectClass hx
  intro exceptionClass
  apply keeps_getObjectClass List.mem_cons_self
  intro classClass
  apply (keeps_getMethodID _ _ _ List.mem_cons_self).bind
  intro classGetNameMethod
  apply (opens_callObjectMethod _ _ (by simp)).scope
  · exact keeps_exceptionClear.bind fun _ => keeps_pure _
  · intro classNameStr
    apply keeps_getStringUTFChars List.mem_cons_self
    · exact keeps_exceptionClear.bind fun _ => keeps_pure _
    · intro classNameChars hs
      apply closes_readUtfChars
      intro text
      apply closes_releaseStringUTFChars hs List.mem_cons_self
      exact keeps_summaryOfMessage answers _ (by simp [hx]) (by simp)

theorem keeps_getStackTrace (answers : StackTraceAnswers) {exception : Ref} (result : String)
    (hx : exception ∈ refs) : Keeps refs (getStackTrace answers exception result) := by
  unfold getStackTrace
  apply (opens_findClass _ _).scope
  · exact keeps_pure _
  intro stringWriterClass
  apply (keeps_getMethodID _ _ _ List.mem_cons_self).bind
  intro stringWriterCtor
  apply (keeps_getMethodID _ _ _ List.mem_cons_self).bind
  intro stringWriterToStringMethod
  apply (opens_findClass _ _).scope
  · exact keeps_pure _
  intro printWriterClass
  apply (keeps_getMethodID _ _ _ List.mem_cons_self).bind
  intro printWriterCtor
  apply (opens_newObject _ _ (by simp)).scope
  · exact keeps_pure _
  intro stringWriter
  apply (opens_newObject _ _ (by simp)).scope
  · exact keeps_pure _
  intro printWriter
  apply keeps_getObjectClass (by simp [hx])
  intro exceptionClass
  apply (keeps_getMethodID _ _ _ List.mem_cons_self).bind
  intro printStackTraceMethod
  apply (keeps_callVoidMethod _ _ (by simp [hx])).bind
  intro _
  apply keeps_exceptionCheck.bind
  intro pending
  cases pending with
  | true => exact keeps_pure _
  | false =>
      apply (opens_callObjectMethod _ _ (by simp)).scope
      · exact keeps_pure _
      intro messageStr
      apply keeps_getStringUTFChars List.mem_cons_self
      · exact keeps_pure _
      intro utfChars hs
      apply closes_readUtfChars
      intro text
      apply closes_releaseStringUTFChars hs List.mem_cons_self
      exact keeps_pure _

/-- An exception is described, and something done with the text. -/
theorem keeps_trace (stackTrace : StackTraceAnswers) (summary : SummaryAnswers) {exception : Ref}
    {α : Type} {f : String → JniM α} (hx : exception ∈ refs) (hf : ∀ trace, Keeps refs (f trace)) :
    Keeps refs (do
      let r ← getStackTrace stackTrace exception ""
      if !r.1 then do
        exceptionClear
        let r ← getExceptionSummary summary exception r.2
        f r.2
      else f r.2) := by
  apply (keeps_getStackTrace stackTrace "" hx).bind
  rintro ⟨success, trace⟩
  cases success with
  | true => exact hf trace
  | false =>
      apply keeps_exceptionClear.bind
      intro _
      exact (keeps_getExceptionSummary summary trace hx).bind fun r => hf r.2

theorem keeps_jniGetStackTrace (stackTrace : StackTraceAnswers) (summary : SummaryAnswers)
    {exception : Option Ref} (hx : ∀ x, exception = some x → x ∈ refs) :
    Keeps refs (jniGetStackTrace stackTrace summary exception) := by
  unfold jniGetStackTrace
  apply opens_exceptionOccurred.scope
  · cases exception with
    | none => exact keeps_pure _
    | some x => exact keeps_trace stackTrace summary (hx x rfl) keeps_pure
  · -- what was pending is described if nothing else is, and thrown again
    intro r
    have rethrow : ∀ trace, Keeps (r :: refs) (do throwRef r; return trace : JniM String) :=
      fun trace => (keeps_throwRef List.mem_cons_self).bind fun _ => keeps_pure trace
    cases exception with
    | none =>
        apply keeps_exceptionClear.bind
        intro _
        exact keeps_trace stackTrace summary List.mem_cons_self rethrow
    | some x =>
        apply keeps_exceptionClear.bind
        intro _
        exact keeps_trace stackTrace summary (List.mem_cons_of_mem r (hx x rfl)) rethrow

theorem keeps_jniLogException (stackTrace : StackTraceAnswers) (summary : SummaryAnswers)
    (priority : ℤ) (tag : String) {exception : Option Ref}
    (hx : ∀ x, exception = some x → x ∈ refs) :
    Keeps refs (jniLogException stackTrace summary priority tag exception) :=
  (keeps_jniGetStackTrace stackTrace summary hx).bind fun _ => keeps_androidLogWrite _ _ _

theorem keeps_discardPending (summary : SummaryAnswers) (className : String) :
    Keeps refs (discardPending summary className) := by
  apply opens_exceptionOccurred.scope
  · exact keeps_exceptionClear.bind fun _ => keeps_pure _
  · intro exception
    apply keeps_exceptionClear.bind
    intro _
    apply (keeps_getExceptionSummary summary "" List.mem_cons_self).bind
    intro text
    exact keeps_androidLogWrite _ _ _

theorem keeps_throwNewOfClass (answers : ThrowAnswers) (className : String)
    (msg : Option String) : Keeps refs (throwNewOfClass answers className msg) := by
  apply (opens_findClass _ _).scope
  · exact (keeps_androidLogWrite _ _ _).bind fun _ => keeps_pure _
  · intro exceptionClass
    apply (keeps_throwNew _ _ List.mem_cons_self).bind
    intro status
    by_cases h : status ≠ 0
    · rw [if_pos h]
      exact (keeps_androidLogWrite _ _ _).bind fun _ => keeps_pure _
    · rw [if_neg h]
      exact keeps_pure _

theorem keeps_jniThrowException (answers : ThrowAnswers) (className : String)
    (msg : Option String) : Keeps refs (jniThrowException answers className msg) := by
  unfold jniThrowException
  apply keeps_exceptionCheck.bind
  intro pending
  cases pending with
  | false => exact keeps_throwNewOfClass answers className msg
  | true =>
      apply (keeps_discardPending answers.summary className).bind
      exact fun _ => keeps_throwNewOfClass answers className msg

end resources

/-! ### What is pending afterwards -/

section throwables
variable {α : Type} (e : JniEnv)

@[simp] theorem callForRef_throwables (function : JniFunction) (refs : List Ref)
    (answer : Answer JavaObject) :
    (callForRef function refs answer e).2.throwables = e.throwables := by
  rcases answer with _ | _ | _ <;> rfl

@[simp] theorem getObjectClass_throwables (clazz : JavaObject) (object : Ref) :
    (getObjectClass clazz object e).2.throwables = e.throwables := rfl

@[simp] theorem getMethodID_throwables (answer : Answer Unit) (clazz : Ref) (name sig : String) :
    (getMethodID answer clazz name sig e).2.throwables = e.throwables := by
  rcases answer with _ | _ | _ <;> rfl

@[simp] theorem getStringUTFChars_throwables (answer : Answer String) (string : Ref) :
    (getStringUTFChars answer string e).2.throwables = e.throwables := by
  rcases answer with _ | _ | _ <;> rfl

@[simp] theorem readUtfChars_throwables (utf : UtfChars) :
    (readUtfChars utf e).2.throwables = e.throwables := rfl

@[simp] theorem releaseStringUTFChars_throwables (string : Ref) (utf : UtfChars) :
    (releaseStringUTFChars string utf e).2.throwables = e.throwables := rfl

@[simp] theorem exceptionClear_throwables : (exceptionClear e).2.throwables = e.throwables := rfl

@[simp] theorem exceptionOccurred_throwables :
    (exceptionOccurred e).2.throwables = e.throwables := by
  obtain ⟨_ | object⟩ := e <;> rfl

@[simp] theorem androidLogWrite_throwables (priority : ℤ) (tag text : String) :
    (androidLogWrite priority tag text e).2.throwables = e.throwables := rfl

@[simp] theorem scopedLocalRef_throwables (localRef : Option Ref) (body : JniM α) :
    (scopedLocalRef localRef body e).2.throwables = (body e).2.throwables := by
  cases localRef <;> rfl

@[simp] theorem getExceptionSummary_throwables (answers : SummaryAnswers) (exception : Ref)
    (result : String) :
    (getExceptionSummary answers exception result e).2.throwables = e.throwables := by
  obtain ⟨_, _, _, getName, classNameChars, _, getMessage, messageChars⟩ := answers
  unfold getExceptionSummary callObjectMethod
  cases getName with
  | null thrown => simp
  | value name =>
      cases classNameChars with
      | null thrown => simp
      | value chars =>
          cases getMessage with
          | null thrown => simp
          | value message => cases messageChars <;> simp

end throwables

section result
variable {answers : ThrowAnswers} (className : String) (msg : Option String) (e : JniEnv)

end result

/-- `java.io.IOException` is thrown on a thread where the object 11 is pending, whose `getMessage`
throws. -/
def ioException : ThrowAnswers :=
  { summary := messageThrows, exceptionClass := .value 20, throwNew := .value 21 }

end NativeHelper
