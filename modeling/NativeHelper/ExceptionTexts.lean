import NativeHelper.PendingLogic

/-! # What the exception helpers say

The text of an exception is its stack trace, or else a summary of it, or else a complaint.  Here is
what each helper returns, logs and leaves pending, as a function of what the VM and the Java code
answer: `SummaryAnswers.text`, `StackTraceAnswers.trace?`, `traceText`, `traceLeaves`.  No assumption
is made about the answers.

The helpers check hardly any of their lookups, and `Clean` is decided by which of these throw. -/

namespace NativeHelper

/-! ### The summary -/

/-- The text with the message, if there is one. -/
def SummaryAnswers.messageText (answers : SummaryAnswers) (name : String) : String :=
  match answers.getMessage with
  | .null _ => name
  | .value _ =>
      match answers.messageChars with
      | .value chars => name ++ ": " ++ chars
      | .null _ => name ++ ": " ++ "<error getting message>"

/-- What `getExceptionSummary` returns and makes of `result`. -/
def SummaryAnswers.text (answers : SummaryAnswers) (result : String) : Bool × String :=
  match answers.getName with
  | .null _ => (false, "<error getting class name>")
  | .value _ =>
      match answers.classNameChars with
      | .null _ => (false, "<error getting class name UTF-8>")
      | .value chars => (true, answers.messageText (result ++ chars))

/-- What the lookups of `getExceptionSummary` leave pending. -/
def SummaryAnswers.lookupThrown (answers : SummaryAnswers) : Option JavaObject :=
  answers.getMessageMethod.thrown <|> answers.classGetNameMethod.thrown

/-- What `getExceptionSummary` leaves pending if nothing was pending before. -/
def SummaryAnswers.pendingAfter (answers : SummaryAnswers) : Option JavaObject :=
  match answers.getName, answers.classNameChars with
  | .value _, .value _ =>
      match answers.getMessage, answers.messageChars with
      | .null thrown, _ => thrown <|> answers.lookupThrown
      | .value _, .value _ => answers.lookupThrown
      | .value _, .null _ => none
  | _, _ => none

/-- No lookup that `getExceptionSummary` gets to throws. -/
def SummaryAnswers.ReachedQuiet (answers : SummaryAnswers) : Prop :=
  answers.classGetNameMethod.thrown = none ∧
    (answers.getName.isValue = true → answers.classNameChars.isValue = true →
      answers.getMessageMethod.thrown = none)

section summary
variable (answers : SummaryAnswers) (exception : Ref) (result : String) (e : JniEnv)

theorem getExceptionSummary_fst :
    (getExceptionSummary answers exception result e).1 = answers.text result := by
  obtain ⟨_, _, _, getName, classNameChars, _, getMessage, messageChars⟩ := answers
  unfold getExceptionSummary SummaryAnswers.text SummaryAnswers.messageText callObjectMethod
  cases getName with
  | null thrown => simp
  | value name =>
      cases classNameChars with
      | null thrown => simp
      | value chars =>
          cases getMessage with
          | null thrown => simp
          | value message => cases messageChars <;> simp

theorem getExceptionSummary_pendingAfter (h : e.pending = none) :
    (getExceptionSummary answers exception result e).2.pending = answers.pendingAfter := by
  obtain ⟨_, _, _, getName, classNameChars, _, getMessage, messageChars⟩ := answers
  unfold getExceptionSummary SummaryAnswers.pendingAfter SummaryAnswers.lookupThrown callObjectMethod
  cases getName with
  | null thrown => simp
  | value name =>
      cases classNameChars with
      | null thrown => simp
      | value chars =>
          cases getMessage with
          | null thrown => simp [h]
          | value message => cases messageChars <;> simp [h]

theorem discreet_summaryOfMessage (exceptionClass : Ref) :
    Discreet (summaryOfMessage answers exception exceptionClass result) := by
  unfold summaryOfMessage
  refine (discreet_getMethodID _ _ _ _).bind fun getMessage => ?_
  refine (discreet_callForRef _ _ _).bind fun messageStr => ?_
  refine Discreet.scope ?_ messageStr
  cases messageStr with
  | none => exact discreet_pure _
  | some messageStr =>
      refine (discreet_getStringUTFChars _ _).bind fun messageChars => ?_
      cases messageChars with
      | none => exact discreet_exceptionClear.bind fun _ => discreet_pure _
      | some messageChars =>
          refine (discreet_readUtfChars _).bind fun text => ?_
          exact (discreet_releaseStringUTFChars _ _).bind fun _ => discreet_pure _

theorem discreet_summaryOfName (exceptionClass : Ref) (classNameStr : Option Ref) :
    Discreet (summaryOfName answers exception exceptionClass result classNameStr) := by
  unfold summaryOfName
  cases classNameStr with
  | none => exact discreet_exceptionClear.bind fun _ => discreet_pure _
  | some classNameStr =>
      refine (discreet_getStringUTFChars _ _).bind fun classNameChars => ?_
      cases classNameChars with
      | none => exact discreet_exceptionClear.bind fun _ => discreet_pure _
      | some classNameChars =>
          refine (discreet_readUtfChars _).bind fun text => ?_
          refine (discreet_releaseStringUTFChars _ _).bind fun _ => ?_
          exact discreet_summaryOfMessage answers exception _ exceptionClass

theorem discreet_getExceptionSummary :
    Discreet (getExceptionSummary answers exception result) := by
  rw [getExceptionSummary_eq]
  refine (discreet_getObjectClass _ _).bind fun exceptionClass => Discreet.scope ?_ _
  refine (discreet_getObjectClass _ _).bind fun classClass => Discreet.scope ?_ _
  refine (discreet_getMethodID _ _ _ _).bind fun classGetNameMethod => ?_
  refine (discreet_callForRef _ _ _).bind fun classNameStr => Discreet.scope ?_ _
  exact discreet_summaryOfName answers exception result exceptionClass classNameStr

/-- What `getMessage` throws comes too late to do harm, but not what its lookup throws. -/
theorem clean_summaryOfMessage_iff (exceptionClass : Ref) {e : JniEnv} (h : e.pending = none) :
    Clean (summaryOfMessage answers exception exceptionClass result) e ↔
      answers.getMessageMethod.thrown = none := by
  unfold Clean summaryOfMessage callObjectMethod
  cases hm : answers.getMessageMethod.thrown with
  | some object =>
      cases answers.getMessage with
      | null thrown => simp [JniEnv.offence, JniFunction.allowedWhilePending, h, hm]
      | value message =>
          cases answers.messageChars <;>
            simp [JniEnv.offence, JniFunction.allowedWhilePending, h, hm] <;> omega
  | none =>
      cases answers.getMessage with
      | null thrown => simp [offence_of_none, h, hm]
      | value message => cases answers.messageChars <;> simp [offence_of_none, h, hm]

theorem clean_summaryOfName_iff (exceptionClass classNameStr : Ref) {e : JniEnv}
    (h : e.pending = none) :
    Clean (summaryOfName answers exception exceptionClass result (some classNameStr)) e ↔
      (answers.classNameChars.isValue = true → answers.getMessageMethod.thrown = none) := by
  unfold summaryOfName
  rw [(calls_getStringUTFChars _ _).clean_bind_iff rfl, and_iff_right h]
  · cases answers.classNameChars with
    | null thrown =>
        exact iff_of_true (harmless_exceptionClear.clean_bind_iff.mpr (clean_pure _))
          fun hv => by cases hv
    | value chars =>
        rw [getStringUTFChars_value_fst, (harmless_readUtfChars _).clean_bind_iff,
          (harmless_releaseStringUTFChars _ _).clean_bind_iff,
          clean_summaryOfMessage_iff _ _ _ _ (by simp [h])]
        simp [Answer.isValue]
  · intro classNameChars
    cases classNameChars with
    | none => exact harmless_exceptionClear.grows.bind fun _ => grows_pure _
    | some classNameChars =>
        refine (harmless_readUtfChars _).grows.bind fun text => ?_
        refine (harmless_releaseStringUTFChars _ _).grows.bind fun _ => ?_
        exact (discreet_summaryOfMessage answers exception _ exceptionClass).grows

/-- **The summary is clean** if nothing is pending and no lookup that it gets to throws. -/
theorem clean_getExceptionSummary_iff {e : JniEnv} (h : e.pending = none) :
    Clean (getExceptionSummary answers exception result) e ↔ answers.ReachedQuiet := by
  obtain ⟨exceptionClass, classClass, classGetNameMethod, getName, classNameChars,
    getMessageMethod, getMessage, messageChars⟩ := answers
  rw [getExceptionSummary_eq, (calls_getObjectClass _ _).clean_bind_of_none h, clean_scope_iff,
    (calls_getObjectClass _ _).clean_bind_of_none (by simp [h]), clean_scope_iff,
    (calls_getMethodID _ _ _ _).clean_bind_of_none (by simp [h]),
    (calls_callObjectMethod _ _ _).clean_bind_iff rfl fun classNameStr =>
      (discreet_summaryOfName _ exception result _ classNameStr).grows.scope _,
    clean_scope_iff]
  unfold SummaryAnswers.ReachedQuiet
  -- `getName` is called with what its lookup threw
  refine (and_congr_left' (by simp [h])).trans (and_congr_right fun hq => ?_)
  unfold callObjectMethod
  cases getName with
  | null thrown =>
      refine iff_of_true ?_ fun hv => by cases hv
      exact harmless_exceptionClear.clean_bind_iff.mpr (clean_pure _)
  | value name =>
      rw [callForRef_value_fst, clean_summaryOfName_iff]
      · simp [Answer.isValue]
      · simp [h, hq]

end summary

/-! ### The stack trace

`getStackTrace` in parts: the classes, the writers, the trace that is printed, and its text. -/

/-- The part of `getStackTrace` after the call of `printStackTrace`. -/
def stackTraceOfString (answers : StackTraceAnswers) (stringWriter : Ref)
    (stringWriterToStringMethod : Option MethodId) (result : String) : JniM (Bool × String) := do
  if ← exceptionCheck then return (false, result)
  else do
  let messageStr ← callObjectMethod answers.toString stringWriter stringWriterToStringMethod
  scopedLocalRef messageStr do
  match messageStr with
  | none => return (false, result)
  | some messageStr => do
  match ← getStringUTFChars answers.utfChars messageStr with
  | none => return (false, result)
  | some utfChars => do
  let result ← readUtfChars utfChars
  releaseStringUTFChars messageStr utfChars
  return (true, result)

/-- The part of `getStackTrace` after both writers were made. -/
def stackTraceOfWriters (answers : StackTraceAnswers) (exception stringWriter printWriter : Ref)
    (stringWriterToStringMethod : Option MethodId) (result : String) : JniM (Bool × String) := do
  let exceptionClass ← getObjectClass answers.exceptionClass exception
  scopedLocalRef exceptionClass do
  let printStackTraceMethod ← getMethodID answers.printStackTraceMethod exceptionClass
    "printStackTrace" "(Ljava/io/PrintWriter;)V"
  callVoidMethod answers.printStackTrace exception printStackTraceMethod [printWriter]
  stackTraceOfString answers stringWriter stringWriterToStringMethod result

/-- The part of `getStackTrace` after the first writer was made. -/
def stackTraceOfStringWriter (answers : StackTraceAnswers) (exception printWriterClass : Ref)
    (printWriterCtor stringWriterToStringMethod : Option MethodId) (result : String) :
    Option Ref → JniM (Bool × String)
  | none => return (false, result)
  | some stringWriter => do
      let printWriter ←
        newObject answers.printWriter printWriterClass printWriterCtor [stringWriter]
      scopedLocalRef printWriter do
      match printWriter with
      | none => return (false, result)
      | some printWriter =>
          stackTraceOfWriters answers exception stringWriter printWriter
            stringWriterToStringMethod result

/-- The part of `getStackTrace` after both classes were looked up. -/
def stackTraceOfClasses (answers : StackTraceAnswers) (exception stringWriterClass : Ref)
    (stringWriterCtor stringWriterToStringMethod : Option MethodId) (result : String) :
    Option Ref → JniM (Bool × String)
  | none => return (false, result)
  | some printWriterClass => do
      let printWriterCtor ←
        getMethodID answers.printWriterCtor printWriterClass "<init>" "(Ljava/io/Writer;)V"
      let stringWriter ← newObject answers.stringWriter stringWriterClass stringWriterCtor []
      scopedLocalRef stringWriter do
      stackTraceOfStringWriter answers exception printWriterClass printWriterCtor
        stringWriterToStringMethod result stringWriter

theorem getStackTrace_eq (answers : StackTraceAnswers) (exception : Ref) (result : String) :
    getStackTrace answers exception result = (do
      let stringWriterClass ← findClass answers.stringWriterClass "java/io/StringWriter"
      scopedLocalRef stringWriterClass do
      match stringWriterClass with
      | none => return (false, result)
      | some stringWriterClass => do
      let stringWriterCtor ← getMethodID answers.stringWriterCtor stringWriterClass "<init>" "()V"
      let stringWriterToStringMethod ← getMethodID answers.stringWriterToStringMethod
        stringWriterClass "toString" "()Ljava/lang/String;"
      let printWriterClass ← findClass answers.printWriterClass "java/io/PrintWriter"
      scopedLocalRef printWriterClass do
      stackTraceOfClasses answers exception stringWriterClass stringWriterCtor
        stringWriterToStringMethod result printWriterClass) := by
  unfold getStackTrace stackTraceOfClasses stackTraceOfStringWriter stackTraceOfWriters
    stackTraceOfString
  rfl

/-- The text, if there is one. -/
def Answer.value? {α : Type} : Answer α → Option α
  | .value a => some a
  | .null _ => none

instance (answers : StackTraceAnswers) : Decidable answers.QuietLookups :=
  inferInstanceAs (Decidable (_ ∧ _))

/-- The stack trace that `getStackTrace` returns, if nothing is pending before. -/
def StackTraceAnswers.trace? (answers : StackTraceAnswers) : Option String :=
  if answers.succeeds = true ∧ answers.QuietLookups then answers.utfChars.value? else none

/-- What `getStackTrace` returns and makes of `result`. -/
def traceResult (result : String) : Option String → Bool × String
  | some trace => (true, trace)
  | none => (false, result)

/-- No lookup that `getStackTrace` gets to throws. -/
def StackTraceAnswers.ReachedQuiet (answers : StackTraceAnswers) : Prop :=
  answers.stringWriterClass.isValue = true →
    answers.stringWriterCtor.thrown = none ∧ answers.stringWriterToStringMethod.thrown = none ∧
      (answers.printWriterClass.isValue = true → answers.printWriterCtor.thrown = none ∧
        (answers.stringWriter.isValue = true → answers.printWriter.isValue = true →
          answers.printStackTraceMethod.thrown = none))

section trace
variable (answers : StackTraceAnswers) (exception stringWriter printWriter : Ref)
  (stringWriterToStringMethod : Option MethodId) (result : String)

/-- Nothing is called after `printStackTrace` that may not be called. -/
theorem harmless_stackTraceOfString :
    Harmless (stackTraceOfString answers stringWriter stringWriterToStringMethod result) := by
  intro e
  unfold stackTraceOfString callObjectMethod
  cases h : e.pending with
  | some object => simp [h]
  | none =>
      cases answers.toString with
      | null thrown => simp [h, offence_of_none]
      | value message => cases answers.utfChars <;> simp [h, offence_of_none]

theorem stackTraceOfString_fst (e : JniEnv) :
    (stackTraceOfString answers stringWriter stringWriterToStringMethod result e).1 =
      traceResult result (if e.pending = none ∧ answers.toString.isValue = true then
        answers.utfChars.value? else none) := by
  unfold stackTraceOfString callObjectMethod
  cases h : e.pending with
  | some object => simp [h, traceResult]
  | none =>
      cases answers.toString with
      | null thrown => simp [h, Answer.isValue, traceResult]
      | value message =>
          cases answers.utfChars <;> simp [h, Answer.isValue, Answer.value?, traceResult]

/-- With the exception of this call, each step needs what the one before it returned. -/
theorem stackTraceOfWriters_fst {e : JniEnv} :
    (stackTraceOfWriters answers exception stringWriter printWriter stringWriterToStringMethod
        result e).1 =
      traceResult result (if (answers.printStackTrace <|>
        answers.printStackTraceMethod.thrown <|> e.pending) = none ∧ answers.toString.isValue = true then
        answers.utfChars.value? else none) := by
  unfold stackTraceOfWriters
  simp [stackTraceOfString_fst]

theorem getStackTrace_fst {e : JniEnv} (h : e.pending = none) :
    (getStackTrace answers exception result e).1 = traceResult result answers.trace? := by
  obtain ⟨stringWriterClass, stringWriterCtor, stringWriterToStringMethod, printWriterClass,
    printWriterCtor, stringWriter, printWriter, exceptionClass, printStackTraceMethod,
    printStackTrace, toString, utfChars⟩ := answers
  rw [getStackTrace_eq]
  unfold stackTraceOfClasses stackTraceOfStringWriter StackTraceAnswers.trace? StackTraceAnswers.succeeds
    StackTraceAnswers.QuietLookups findClass newObject
  cases stringWriterClass with
  | null thrown => simp [Answer.isValue, traceResult]
  | value swClass =>
  cases printWriterClass with
  | null thrown => simp [Answer.isValue, traceResult]
  | value pwClass =>
  cases stringWriter with
  | null thrown => simp [Answer.isValue, traceResult]
  | value sw =>
  cases printWriter with
  | null thrown => simp [Answer.isValue, traceResult]
  | value pw =>
  cases utfChars with
  | null thrown => simp [Answer.isValue, Answer.value?, stackTraceOfWriters_fst, h]
  | value chars =>
      simp [Answer.isValue, Answer.value?, stackTraceOfWriters_fst, h]
      congr 2
      grind

theorem pending_of_trace? {e : JniEnv} (h : e.pending = none)
    (ht : answers.trace? ≠ none) : (getStackTrace answers exception result e).2.pending = none := by
  unfold StackTraceAnswers.trace? at ht
  have hs : answers.succeeds = true ∧ answers.QuietLookups := by
    by_contra hn
    exact ht (if_neg hn)
  exact (getStackTrace_pending e exception result answers hs.2 h).2 hs.1

theorem discreet_stackTraceOfString :
    Discreet (stackTraceOfString answers stringWriter stringWriterToStringMethod result) := by
  unfold stackTraceOfString
  refine discreet_exceptionCheck.bind fun pending => ?_
  cases pending with
  | true => exact discreet_pure _
  | false =>
      refine (discreet_callForRef _ _ _).bind fun messageStr => Discreet.scope ?_ _
      cases messageStr with
      | none => exact discreet_pure _
      | some messageStr =>
          refine (discreet_getStringUTFChars _ _).bind fun utfChars => ?_
          cases utfChars with
          | none => exact discreet_pure _
          | some utfChars =>
              refine (discreet_readUtfChars _).bind fun text => ?_
              exact (discreet_releaseStringUTFChars _ _).bind fun _ => discreet_pure _

theorem discreet_stackTraceOfWriters :
    Discreet (stackTraceOfWriters answers exception stringWriter printWriter
      stringWriterToStringMethod result) := by
  refine (discreet_getObjectClass _ _).bind fun exceptionClass => Discreet.scope ?_ _
  refine (discreet_getMethodID _ _ _ _).bind fun printStackTraceMethod => ?_
  refine (discreet_callVoidMethod _ _ _ _).bind fun _ => ?_
  exact discreet_stackTraceOfString answers stringWriter stringWriterToStringMethod result

theorem discreet_stackTraceOfStringWriter (printWriterClass : Ref)
    (printWriterCtor : Option MethodId) (stringWriter : Option Ref) :
    Discreet (stackTraceOfStringWriter answers exception printWriterClass printWriterCtor
      stringWriterToStringMethod result stringWriter) := by
  cases stringWriter with
  | none => exact discreet_pure _
  | some stringWriter =>
      refine (discreet_callForRef _ _ _).bind fun printWriter => Discreet.scope ?_ _
      cases printWriter with
      | none => exact discreet_pure _
      | some printWriter => exact discreet_stackTraceOfWriters _ _ _ _ _ _

theorem discreet_stackTraceOfClasses (stringWriterClass : Ref)
    (stringWriterCtor : Option MethodId) (printWriterClass : Option Ref) :
    Discreet (stackTraceOfClasses answers exception stringWriterClass stringWriterCtor
      stringWriterToStringMethod result printWriterClass) := by
  cases printWriterClass with
  | none => exact discreet_pure _
  | some printWriterClass =>
      refine (discreet_getMethodID _ _ _ _).bind fun printWriterCtor => ?_
      refine (discreet_callForRef _ _ _).bind fun stringWriter => Discreet.scope ?_ _
      exact discreet_stackTraceOfStringWriter _ _ _ _ _ _ _

theorem discreet_getStackTrace : Discreet (getStackTrace answers exception result) := by
  rw [getStackTrace_eq]
  refine (discreet_callForRef _ _ _).bind fun stringWriterClass => Discreet.scope ?_ _
  cases stringWriterClass with
  | none => exact discreet_pure _
  | some stringWriterClass =>
      refine (discreet_getMethodID _ _ _ _).bind fun stringWriterCtor => ?_
      refine (discreet_getMethodID _ _ _ _).bind fun toStringMethod => ?_
      refine (discreet_callForRef _ _ _).bind fun printWriterClass => Discreet.scope ?_ _
      exact discreet_stackTraceOfClasses _ _ _ _ _ _ _

theorem clean_stackTraceOfWriters_iff {e : JniEnv} (h : e.pending = none) :
    Clean (stackTraceOfWriters answers exception stringWriter printWriter
        stringWriterToStringMethod result) e ↔
      answers.printStackTraceMethod.thrown = none := by
  unfold stackTraceOfWriters
  rw [(calls_getObjectClass _ _).clean_bind_of_none h, clean_scope_iff,
    (calls_getMethodID _ _ _ _).clean_bind_of_none (by simp [h]),
    (calls_callVoidMethod _ _ _ _).clean_bind_iff rfl fun _ =>
      (harmless_stackTraceOfString _ _ _ _).grows,
    and_iff_left (harmless_stackTraceOfString _ _ _ _).clean]
  simp [h]

theorem clean_stackTraceOfStringWriter_iff (printWriterClass stringWriter : Ref)
    (printWriterCtor : Option MethodId) {e : JniEnv} (h : e.pending = none) :
    Clean (stackTraceOfStringWriter answers exception printWriterClass printWriterCtor
        stringWriterToStringMethod result (some stringWriter)) e ↔
      (answers.printWriter.isValue = true → answers.printStackTraceMethod.thrown = none) := by
  unfold stackTraceOfStringWriter
  rw [(calls_newObject _ _ _ _).clean_bind_of_none h, clean_scope_iff]
  cases answers.printWriter with
  | null thrown => exact iff_of_true (clean_pure _) fun hv => by cases hv
  | value pw =>
      rw [newObject_value_fst, clean_stackTraceOfWriters_iff _ _ _ _ _ _ (by simp [h])]
      simp [Answer.isValue]

theorem clean_stackTraceOfClasses_iff (stringWriterClass printWriterClass : Ref)
    (stringWriterCtor : Option MethodId) {e : JniEnv} (h : e.pending = none) :
    Clean (stackTraceOfClasses answers exception stringWriterClass stringWriterCtor
        stringWriterToStringMethod result (some printWriterClass)) e ↔
      answers.printWriterCtor.thrown = none ∧
        (answers.stringWriter.isValue = true → answers.printWriter.isValue = true →
          answers.printStackTraceMethod.thrown = none) := by
  unfold stackTraceOfClasses
  rw [(calls_getMethodID _ _ _ _).clean_bind_of_none h,
    (calls_newObject _ _ _ _).clean_bind_iff rfl fun stringWriter =>
      (discreet_stackTraceOfStringWriter _ _ _ _ _ _ stringWriter).grows.scope _,
    clean_scope_iff]
  -- the first writer is made with what the lookup threw
  refine (and_congr_left' (by simp [h])).trans (and_congr_right fun hq => ?_)
  cases answers.stringWriter with
  | null thrown => exact iff_of_true (clean_pure _) fun hv => by cases hv
  | value sw =>
      rw [newObject_value_fst, clean_stackTraceOfStringWriter_iff _ _ _ _ _ _ _ (by simp [h, hq])]
      simp [Answer.isValue]

/-- **The stack trace is clean** if nothing is pending and no lookup that it gets to throws. -/
theorem clean_getStackTrace_iff {e : JniEnv} (h : e.pending = none) :
    Clean (getStackTrace answers exception result) e ↔ answers.ReachedQuiet := by
  rw [getStackTrace_eq, (calls_findClass _ _).clean_bind_of_none h, clean_scope_iff]
  unfold StackTraceAnswers.ReachedQuiet
  cases answers.stringWriterClass with
  | null thrown => exact iff_of_true (clean_pure _) fun hv => by cases hv
  | value swClass =>
      have hclasses := fun m c m' r =>
        (discreet_stackTraceOfClasses answers exception m' result c m r).grows
      rw [findClass_value_fst]
      show Clean (getMethodID _ _ _ _ >>= _) _ ↔ _
      rw [(calls_getMethodID _ _ _ _).clean_bind_of_none (by simp [h]),
        (calls_getMethodID _ _ _ _).clean_bind_iff rfl fun m =>
          (calls_findClass _ _).grows.bind fun r => (hclasses _ _ _ r).scope r,
        (calls_findClass _ _).clean_bind_iff rfl fun r => (hclasses _ _ _ r).scope r,
        clean_scope_iff]
      have htrue : (Answer.value swClass).isValue = true := rfl
      rw [forall_prop_of_true htrue]
      -- the second lookup and the second class are asked for with what the lookups before threw
      refine (and_congr_left' (by simp [h])).trans (and_congr_right fun hq => ?_)
      refine (and_congr_left' (by simp [h, hq])).trans (and_congr_right fun hq' => ?_)
      cases answers.printWriterClass with
      | null thrown => exact iff_of_true (clean_pure _) fun hv => by cases hv
      | value pwClass =>
          rw [findClass_value_fst, clean_stackTraceOfClasses_iff _ _ _ _ _ _ _ (by simp [h, hq, hq'])]
          simp [Answer.isValue]

end trace

/-! ### The trace, or else the summary -/

/-- The part of `jniGetStackTrace` that asks for the text. -/
def traceOrSummary (stackTrace : StackTraceAnswers) (summary : SummaryAnswers) (exception : Ref) :
    JniM String := do
  let r ← getStackTrace stackTrace exception ""
  if !r.1 then do
    exceptionClear
    let r ← getExceptionSummary summary exception r.2
    return r.2
  else return r.2

/-- The text of an exception. -/
def traceText (stackTrace : StackTraceAnswers) (summary : SummaryAnswers) : String :=
  stackTrace.trace?.getD (summary.text "").2

/-- What is left pending after the text was asked for with nothing pending. -/
def traceLeaves (stackTrace : StackTraceAnswers) (summary : SummaryAnswers) : Option JavaObject :=
  if stackTrace.trace? = none then summary.pendingAfter else none

/-- The calls for the text are clean. -/
def TraceQuiet (stackTrace : StackTraceAnswers) (summary : SummaryAnswers) : Prop :=
  stackTrace.ReachedQuiet ∧ (stackTrace.trace? = none → summary.ReachedQuiet)

section text
variable (stackTrace : StackTraceAnswers) (summary : SummaryAnswers) (exception : Ref)
  (e : JniEnv)

theorem discreet_traceOrSummary : Discreet (traceOrSummary stackTrace summary exception) := by
  refine (discreet_getStackTrace stackTrace exception "").bind fun r => ?_
  cases r.1 with
  | true => exact discreet_pure _
  | false =>
      refine discreet_exceptionClear.bind fun _ => ?_
      exact (discreet_getExceptionSummary _ _ _).bind fun _ => discreet_pure _

/-- With a trace, that is all. -/
theorem traceOrSummary_of_some (h : e.pending = none) {trace : String}
    (ht : stackTrace.trace? = some trace) :
    traceOrSummary stackTrace summary exception e =
      (trace, (getStackTrace stackTrace exception "" e).2) := by
  have hr := getStackTrace_fst stackTrace exception "" h
  rw [ht] at hr
  unfold traceOrSummary
  rw [JniM.bind_apply, hr]
  rfl

/-- Without a trace, what it left pending is cleared and the summary asked for. -/
theorem traceOrSummary_of_none (h : e.pending = none) (ht : stackTrace.trace? = none) :
    traceOrSummary stackTrace summary exception e =
      ((summary.text "").2, (getExceptionSummary summary exception ""
        (exceptionClear (getStackTrace stackTrace exception "" e).2).2).2) := by
  have hr := getStackTrace_fst stackTrace exception "" h
  rw [ht] at hr
  have hs := getExceptionSummary_fst summary exception ""
    (exceptionClear (getStackTrace stackTrace exception "" e).2).2
  unfold traceOrSummary
  rw [JniM.bind_apply, hr, ← hs]
  rfl

theorem traceOrSummary_fst (h : e.pending = none) :
    (traceOrSummary stackTrace summary exception e).1 = traceText stackTrace summary := by
  unfold traceText
  cases ht : stackTrace.trace? with
  | none => rw [traceOrSummary_of_none _ _ _ _ h ht, Option.getD_none]
  | some trace => rw [traceOrSummary_of_some _ _ _ _ h ht, Option.getD_some]

theorem traceOrSummary_pending (h : e.pending = none) :
    (traceOrSummary stackTrace summary exception e).2.pending =
      traceLeaves stackTrace summary := by
  unfold traceLeaves
  cases ht : stackTrace.trace? with
  | none =>
      rw [traceOrSummary_of_none _ _ _ _ h ht, if_pos rfl]
      exact getExceptionSummary_pendingAfter summary exception "" _ rfl
  | some trace =>
      rw [traceOrSummary_of_some _ _ _ _ h ht, if_neg (Option.some_ne_none trace)]
      exact pending_of_trace? stackTrace exception "" h (by simp [ht])

theorem clean_traceOrSummary_iff (h : e.pending = none) :
    Clean (traceOrSummary stackTrace summary exception) e ↔ TraceQuiet stackTrace summary := by
  have hg : ∀ r : Bool × String, Grows (if !r.1 then (do
      exceptionClear
      let r ← getExceptionSummary summary exception r.2
      return r.2 : JniM String) else return r.2) := by
    rintro ⟨_ | _, result⟩
    · refine harmless_exceptionClear.grows.bind fun _ => ?_
      exact (discreet_getExceptionSummary summary exception result).grows.bind fun _ => grows_pure _
    · exact grows_pure _
  unfold traceOrSummary TraceQuiet
  rw [clean_bind_iff (discreet_getStackTrace _ _ _).grows hg, clean_getStackTrace_iff _ _ _ h,
    getStackTrace_fst _ _ _ h]
  refine and_congr_right fun _ => ?_
  cases ht : stackTrace.trace? with
  | some trace => exact iff_of_true (clean_pure _) fun hn => by cases hn
  | none =>
      have hs := clean_getExceptionSummary_iff summary exception ""
        (e := (exceptionClear (getStackTrace stackTrace exception "" e).2).2) rfl
      rw [forall_prop_of_true rfl, ← hs]
      show Clean (exceptionClear >>= fun _ => _) _ ↔ _
      rw [harmless_exceptionClear.clean_bind_iff,
        clean_bind_iff (discreet_getExceptionSummary _ _ _).grows fun _ => grows_pure _]
      exact and_iff_left (clean_pure _)

end text

/-! ### `jniGetStackTrace` -/

section helpers
variable (stackTrace : StackTraceAnswers) (summary : SummaryAnswers) (exception : Option Ref)
  {e : JniEnv}

theorem jniGetStackTrace_nothing (h : e.pending = none) :
    jniGetStackTrace stackTrace summary none e =
      ("<no pending exception>", (exceptionOccurred e).2) := by
  unfold jniGetStackTrace
  rw [JniM.bind_apply, exceptionOccurred_fst, h]
  rfl

/-- With nothing pending there is nothing to throw again. -/
theorem jniGetStackTrace_of_none (h : e.pending = none) (exception : Ref) :
    jniGetStackTrace stackTrace summary (some exception) e =
      traceOrSummary stackTrace summary exception (exceptionOccurred e).2 := by
  unfold jniGetStackTrace traceOrSummary
  rw [JniM.bind_apply, exceptionOccurred_fst, h, Option.map_none, scopedLocalRef_none]
  show ((getStackTrace stackTrace exception "") >>= _) _ = (getStackTrace stackTrace exception "" >>= _) _
  simp only [JniM.bind_apply]
  cases (getStackTrace stackTrace exception "" (exceptionOccurred e).2).1.1 <;> rfl

/-- What is pending is set aside. -/
theorem jniGetStackTrace_of_some {object : JavaObject} (h : e.pending = some object) :
    jniGetStackTrace stackTrace summary exception e =
      scopedLocalRef (some ⟨e.nextRef, object⟩) (do
        exceptionClear
        let trace ← traceOrSummary stackTrace summary (exception.getD ⟨e.nextRef, object⟩)
        throwRef ⟨e.nextRef, object⟩
        return trace) (exceptionOccurred e).2 := by
  unfold jniGetStackTrace traceOrSummary
  rw [JniM.bind_apply, exceptionOccurred_fst, h, Option.map_some]
  have hx : (exception <|> some ⟨e.nextRef, object⟩) =
      some (exception.getD ⟨e.nextRef, object⟩) := by cases exception <;> rfl
  rw [hx]
  congr 2
  funext e'
  simp only [JniM.bind_apply, Option.isSome_some, if_true]
  cases (getStackTrace stackTrace (exception.getD ⟨e.nextRef, object⟩) ""
    (exceptionClear e').2).1.1 <;> rfl

theorem discreet_jniGetStackTrace :
    Discreet (jniGetStackTrace stackTrace summary exception) := by
  intro e
  have ho := discreet_exceptionOccurred e
  cases h : e.pending with
  | none =>
      cases exception with
      | none =>
          rw [jniGetStackTrace_nothing stackTrace summary h]
          exact ho
      | some x =>
          rw [jniGetStackTrace_of_none stackTrace summary h]
          exact ho.trans (discreet_traceOrSummary stackTrace summary x _)
  | some object =>
      rw [jniGetStackTrace_of_some stackTrace summary exception h]
      refine ho.trans (Discreet.scope ?_ _ _)
      refine discreet_exceptionClear.bind fun _ => ?_
      refine (discreet_traceOrSummary stackTrace summary _).bind fun trace => ?_
      exact (discreet_throwRef _).bind fun _ => discreet_pure _

/-- **The text that `jniGetStackTrace` returns.** -/
theorem jniGetStackTrace_fst :
    (jniGetStackTrace stackTrace summary exception e).1 =
      if e.pending = none ∧ exception = none then "<no pending exception>"
      else traceText stackTrace summary := by
  cases h : e.pending with
  | none =>
      have ho : (exceptionOccurred e).2.pending = none := by simp [h]
      cases exception with
      | none =>
          rw [jniGetStackTrace_nothing stackTrace summary h]
          simp
      | some x =>
          rw [jniGetStackTrace_of_none stackTrace summary h,
            traceOrSummary_fst stackTrace summary x _ ho]
          simp
  | some object =>
      rw [jniGetStackTrace_of_some stackTrace summary exception h, scopedLocalRef_fst]
      simp only [JniM.bind_apply, JniM.pure_apply, Option.some_ne_none, false_and, if_false]
      exact traceOrSummary_fst stackTrace summary _ _ rfl

theorem jniGetStackTrace_pending :
    (jniGetStackTrace stackTrace summary exception e).2.pending =
      (e.pending <|> exception.bind fun _ => traceLeaves stackTrace summary) := by
  cases h : e.pending with
  | none =>
      have ho : (exceptionOccurred e).2.pending = none := by simp [h]
      cases exception with
      | none =>
          rw [jniGetStackTrace_nothing stackTrace summary h]
          exact ho
      | some x =>
          rw [jniGetStackTrace_of_none stackTrace summary h]
          exact traceOrSummary_pending stackTrace summary x _ ho
  | some object =>
      exact jniGetStackTrace_pending_some stackTrace summary exception e h

/-- **When `jniGetStackTrace` is clean**: nothing is described, or no lookup throws on the way and,
if an exception is to be thrown again, nothing is left pending by then. -/
theorem clean_jniGetStackTrace_iff :
    Clean (jniGetStackTrace stackTrace summary exception) e ↔
      e.pending = none ∧ exception = none ∨ TraceQuiet stackTrace summary ∧
        (e.pending = none ∨ traceLeaves stackTrace summary = none) := by
  have ho : (exceptionOccurred e).2.offences = e.offences := exceptionOccurred_offences e
  unfold Clean
  cases h : e.pending with
  | none =>
      have hn : (exceptionOccurred e).2.pending = none := by simp [h]
      cases exception with
      | none =>
          rw [jniGetStackTrace_nothing stackTrace summary h]
          exact iff_of_true ho (.inl ⟨rfl, rfl⟩)
      | some x =>
          rw [jniGetStackTrace_of_none stackTrace summary h, ← ho]
          exact (clean_traceOrSummary_iff stackTrace summary x _ hn).trans (by simp)
  | some object =>
      rw [jniGetStackTrace_of_some stackTrace summary exception h, ← ho]
      refine (clean_scope_iff _).trans ?_
      rw [harmless_exceptionClear.clean_bind_iff, clean_bind_iff
        (discreet_traceOrSummary stackTrace summary _).grows fun _ =>
          (calls_throwRef _).grows.bind fun _ => grows_pure _,
        clean_traceOrSummary_iff _ _ _ _ rfl]
      simp only [Option.some_ne_none, false_and, false_or]
      refine and_congr_right fun _ => ?_
      rw [(calls_throwRef _).clean_bind_iff rfl fun _ => grows_pure _,
        traceOrSummary_pending _ _ _ _ rfl]
      exact and_iff_left (clean_pure _)

end helpers

end NativeHelper
