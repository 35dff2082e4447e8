import NativeHelper.ThrowException

/-! # The discipline of pending exceptions

While an exception is pending, only a few functions of `JNIEnv` may be called.  A call of another one
is an offence, and `JniEnv.offences` counts them.

`jniThrowException` clears what is pending at entry before it asks for a summary of it.  The summary
checks neither of its two lookups, and it does not clear what `getMessage` throws, so `FindClass` is
called with that exception pending.  `disciplined_iff` says that nothing else goes wrong. -/

namespace NativeHelper

/-- The functions that may be called while an exception is pending. -/
def JniFunction.allowedWhilePending : JniFunction → Bool
  | .exceptionCheck | .exceptionOccurred | .exceptionClear => true
  | .releaseStringUTFChars | .deleteLocalRef => true
  | .throw | .throwNew _ | .findClass _ | .getObjectClass | .getMethodID _ _ => false
  | .newObject _ | .callObjectMethod _ | .callVoidMethod _ | .getStringUTFChars => false

/-- The call was one that is not allowed. -/
def JniCall.offends (c : JniCall) : Bool := c.whilePending && !c.function.allowedWhilePending

def JniEnv.offences (e : JniEnv) : ℕ := e.calls.countP JniCall.offends

/-- The calls between two states. -/
def callsSince (e e' : JniEnv) : List JniCall := e'.calls.drop e.calls.length

/-- None of the calls between two states was an offence. -/
def Disciplined (e e' : JniEnv) : Prop :=
  ∀ c ∈ callsSince e e', c.whilePending = true → c.function.allowedWhilePending = true

instance (e e' : JniEnv) : Decidable (Disciplined e e') :=
  inferInstanceAs (Decidable (∀ c ∈ callsSince e e', _ → _))

theorem UsesLive.offences_le {e e' : JniEnv} (h : UsesLive e e') : e.offences ≤ e'.offences := by
  obtain ⟨calls, hc, _⟩ := h.calls
  unfold JniEnv.offences
  rw [hc, List.countP_append]
  exact Nat.le_add_right _ _

theorem UsesLive.disciplined_iff_offences {e e' : JniEnv} (h : UsesLive e e') :
    Disciplined e e' ↔ e'.offences = e.offences := by
  obtain ⟨calls, hc, _⟩ := h.calls
  have hs : callsSince e e' = calls := by rw [callsSince, hc, List.drop_left]
  unfold Disciplined JniEnv.offences
  rw [hs, hc, List.countP_append, Nat.add_eq_left, List.countP_eq_zero]
  simp [JniCall.offends]

/-! ### The offences of a call -/

/-- Whether a call of this function is an offence now. -/
def JniEnv.offence (e : JniEnv) (function : JniFunction) : ℕ :=
  if e.pending.isSome && !function.allowedWhilePending then 1 else 0

section offences
variable {α : Type} (e : JniEnv)

theorem offence_of_pending {function : JniFunction} (h : e.pending ≠ none)
    (hf : function.allowedWhilePending = false) : e.offence function = 1 := by
  simp [JniEnv.offence, hf, Option.isSome_iff_ne_none, h]

theorem offence_of_none (function : JniFunction) (h : e.pending = none) :
    e.offence function = 0 := by
  simp [JniEnv.offence, h]

theorem jniCall_offences (function : JniFunction) (refs : List Ref) (chars : List UtfChars) :
    (jniCall function refs chars e).2.offences = e.offences + e.offence function := by
  simp [JniEnv.offences, JniEnv.offence, jniCall, List.countP_append, List.countP_singleton,
    JniCall.offends]

@[simp] theorem callForRef_offences (function : JniFunction) (refs : List Ref)
    (answer : Answer JavaObject) :
    (callForRef function refs answer e).2.offences = e.offences + e.offence function := by
  rw [JniEnv.offences, callForRef_calls]
  exact jniCall_offences e function refs []

@[simp] theorem getObjectClass_offences (clazz : JavaObject) (object : Ref) :
    (getObjectClass clazz object e).2.offences = e.offences + e.offence .getObjectClass :=
  jniCall_offences e .getObjectClass [object] []

@[simp] theorem getMethodID_offences (answer : Answer Unit) (clazz : Ref) (name sig : String) :
    (getMethodID answer clazz name sig e).2.offences =
      e.offences + e.offence (.getMethodID name sig) := by
  rw [JniEnv.offences, getMethodID_calls]
  exact jniCall_offences e (.getMethodID name sig) [clazz] []

@[simp] theorem getStringUTFChars_offences (answer : Answer String) (string : Ref) :
    (getStringUTFChars answer string e).2.offences = e.offences + e.offence .getStringUTFChars := by
  rw [JniEnv.offences, getStringUTFChars_calls]
  exact jniCall_offences e .getStringUTFChars [string] []

@[simp] theorem throwNew_offences (answer : Answer JavaObject) (clazz : Ref)
    (message : Option String) :
    (throwNew answer clazz message e).2.offences = e.offences + e.offence (.throwNew message) := by
  rw [JniEnv.offences, throwNew_calls]
  exact jniCall_offences e (.throwNew message) [clazz] []

/-- A function that is allowed is never an offence. -/
theorem allowed_offences {function : JniFunction} (hf : function.allowedWhilePending = true)
    (refs : List Ref) (chars : List UtfChars) :
    (jniCall function refs chars e).2.offences = e.offences := by
  rw [jniCall_offences, JniEnv.offence, hf]
  simp

@[simp] theorem exceptionCheck_offences : (exceptionCheck e).2.offences = e.offences :=
  allowed_offences e rfl [] []

@[simp] theorem exceptionClear_offences : (exceptionClear e).2.offences = e.offences :=
  allowed_offences e rfl [] []

@[simp] theorem exceptionOccurred_offences : (exceptionOccurred e).2.offences = e.offences := by
  rw [JniEnv.offences, exceptionOccurred_calls]
  exact allowed_offences e rfl [] []

@[simp] theorem readUtfChars_offences (utf : UtfChars) :
    (readUtfChars utf e).2.offences = e.offences := rfl

@[simp] theorem releaseStringUTFChars_offences (string : Ref) (utf : UtfChars) :
    (releaseStringUTFChars string utf e).2.offences = e.offences :=
  allowed_offences e rfl [string] [{ utf with string }]

@[simp] theorem androidLogWrite_offences (priority : ℤ) (tag text : String) :
    (androidLogWrite priority tag text e).2.offences = e.offences := rfl

@[simp] theorem scopedLocalRef_offences (localRef : Option Ref) (body : JniM α) :
    (scopedLocalRef localRef body e).2.offences = (body e).2.offences := by
  cases localRef with
  | none => rfl
  | some r => exact allowed_offences _ rfl [r] []

end offences

/-! ### The summary -/

/-- One of the lookups of the summary throws, or `getMessage` does, if the summary gets that far. -/
def SummaryAnswers.StaysPending (answers : SummaryAnswers) : Prop :=
  answers.classGetNameMethod.thrown ≠ none ∨
    answers.getName.isValue = true ∧ answers.classNameChars.isValue = true ∧
      (answers.getMessageMethod.thrown ≠ none ∨ answers.getMessage.thrown ≠ none)

section summary
variable (answers : SummaryAnswers) (exception exceptionClass : Ref) (result : String) {e : JniEnv}

/-- No call takes an offence back. -/
theorem summaryOfMessage_offences_le :
    e.offences ≤ (summaryOfMessage answers exception exceptionClass result e).2.offences := by
  unfold summaryOfMessage callObjectMethod
  cases answers.getMessage with
  | null thrown =>
      simp
      omega
  | value message => cases answers.messageChars <;> simp <;> omega

theorem summaryOfName_offences_le (classNameStr : Option Ref) :
    e.offences ≤
      (summaryOfName answers exception exceptionClass result classNameStr e).2.offences := by
  unfold summaryOfName
  cases classNameStr with
  | none => simp
  | some classNameStr =>
      cases answers.classNameChars with
      | null thrown => simp
      | value chars =>
          simp only [JniM.bind_apply, getStringUTFChars_value_fst]
          refine Nat.le_trans ?_ (summaryOfMessage_offences_le answers exception exceptionClass _)
          simp

/-- `getMessage` must not be called with what its lookup threw, and must not throw itself. -/
theorem summaryOfMessage_disciplined (h : e.pending = none) :
    (summaryOfMessage answers exception exceptionClass result e).2.offences = e.offences ∧
        (summaryOfMessage answers exception exceptionClass result e).2.pending = none ↔
      answers.getMessageMethod.thrown = none ∧ answers.getMessage.thrown = none := by
  unfold summaryOfMessage callObjectMethod
  cases hm : answers.getMessageMethod.thrown with
  | some object =>
      cases answers.getMessage with
      | null thrown => simp [JniEnv.offence, JniFunction.allowedWhilePending, h, hm]
      | value message =>
          cases answers.messageChars with
          | null thrown =>
              simp [JniEnv.offence, JniFunction.allowedWhilePending, h, hm]
              omega
          | value chars => simp [hm]
  | none =>
      cases answers.getMessage with
      | null thrown => simp [offence_of_none, h, hm]
      | value message => cases answers.messageChars <;> simp [offence_of_none, h, hm]

theorem summaryOfName_disciplined (h : e.pending = none) (classNameStr : Ref) :
    (summaryOfName answers exception exceptionClass result (some classNameStr) e).2.offences =
          e.offences ∧
        (summaryOfName answers exception exceptionClass result (some classNameStr) e).2.pending =
          none ↔
      (answers.classNameChars.isValue = true →
        answers.getMessageMethod.thrown = none ∧ answers.getMessage.thrown = none) := by
  unfold summaryOfName
  cases answers.classNameChars with
  | null thrown => simp [offence_of_none, h, Answer.isValue]
  | value chars =>
      let utf : UtfChars := ⟨e.nextChars, classNameStr, chars⟩
      let e₁ := (getStringUTFChars (.value chars) classNameStr e).2
      let e₂ := (releaseStringUTFChars classNameStr utf (readUtfChars utf e₁).2).2
      have h₂ : e₂.pending = none := h
      have hm := summaryOfMessage_disciplined answers exception exceptionClass (result ++ chars) h₂
      simpa [e₂, e₁, utf, offence_of_none, h, Answer.isValue] using hm

/-- Called with nothing pending, the summary calls nothing it may not and leaves nothing pending,
unless one of these calls throws. -/
theorem getExceptionSummary_disciplined (h : e.pending = none) :
    (getExceptionSummary answers exception result e).2.offences = e.offences ∧
        (getExceptionSummary answers exception result e).2.pending = none ↔
      ¬ answers.StaysPending := by
  rw [getExceptionSummary_eq]
  unfold SummaryAnswers.StaysPending
  simp only [JniM.bind_apply, scopedLocalRef_offences, scopedLocalRef_pending]
  let e₁ := (getObjectClass answers.exceptionClass exception e).2
  let exceptionClass := (getObjectClass answers.exceptionClass exception e).1
  let e₂ := (getObjectClass answers.classClass exceptionClass e₁).2
  let classClass := (getObjectClass answers.classClass exceptionClass e₁).1
  let m := getMethodID answers.classGetNameMethod classClass "getName" "()Ljava/lang/String;" e₂
  have ho : m.2.offences = e.offences := by simp [m, e₂, e₁, offence_of_none, h]
  have hp : m.2.pending = answers.classGetNameMethod.thrown := by simp [m, e₂, e₁, h]
  let r := callObjectMethod answers.getName exceptionClass m.1 m.2
  show (summaryOfName answers exception exceptionClass result r.1 r.2).2.offences = e.offences ∧
    (summaryOfName answers exception exceptionClass result r.1 r.2).2.pending = none ↔ _
  have hr : r.2.offences = m.2.offences + m.2.offence (.callObjectMethod m.1) :=
    callForRef_offences _ _ _ _
  cases hn : answers.classGetNameMethod.thrown with
  | some object =>
      -- `getName` is called with that exception pending
      have hle := @summaryOfName_offences_le answers exception exceptionClass result r.2 r.1
      rw [offence_of_pending m.2 (by simp [hp, hn]) rfl] at hr
      constructor
      · rintro ⟨h', _⟩
        omega
      · exact fun hs => absurd (.inl (Option.some_ne_none object)) hs
  | none =>
      have ho' : r.2.offences = e.offences := by
        rw [hr, offence_of_none m.2 _ (hp.trans hn), ho]
        rfl
      cases hv : answers.getName with
      | null thrown =>
          have hr₁ : r.1 = none := by simp [r, callObjectMethod, hv]
          rw [hr₁]
          simp [summaryOfName, ho', Answer.isValue]
      | value name =>
          have hr₁ : r.1 = some ⟨m.2.nextRef, name⟩ := by simp [r, callObjectMethod, hv]
          have hr₂ : r.2.pending = none := by simp [r, callObjectMethod, hv, hp, hn]
          have hs := summaryOfName_disciplined answers exception exceptionClass result hr₂
            ⟨m.2.nextRef, name⟩
          rw [ho', ← hr₁] at hs
          exact hs.trans (by simp [Answer.isValue])

end summary

/-! ### Throwing -/

section throwing
variable (className : String) (msg : Option String)

/-- What is discarded was cleared before the summary is asked for. -/
theorem discardPending_disciplined (summary : SummaryAnswers) {e : JniEnv} {object : JavaObject}
    (h : e.pending = some object) :
    (discardPending summary className e).2.offences = e.offences ∧
        (discardPending summary className e).2.pending = none ↔ ¬ summary.StaysPending := by
  have hs := @getExceptionSummary_disciplined summary ⟨e.nextRef, object⟩ ""
    (exceptionClear (exceptionOccurred e).2).2 rfl
  rw [exceptionClear_offences, exceptionOccurred_offences] at hs
  rw [← hs]
  unfold discardPending
  simp [h]

/-- `FindClass` is called at once, and `ThrowNew` only after it succeeded. -/
theorem throwNewOfClass_disciplined (answers : ThrowAnswers) (e : JniEnv) :
    (throwNewOfClass answers className msg e).2.offences = e.offences ↔ e.pending = none := by
  obtain ⟨_, exceptionClass, throwNewAnswer⟩ := answers
  have status : ∀ e' : JniEnv, ∀ clazz, (throwNew throwNewAnswer clazz msg e').1 =
      if throwNewAnswer.isValue then 0 else -1 := by
    intro e' clazz
    rcases throwNewAnswer with _ | _ | _ <;> rfl
  unfold throwNewOfClass findClass
  cases exceptionClass with
  | null thrown => cases h : e.pending <;> simp [JniEnv.offence, JniFunction.allowedWhilePending, h]
  | value clazz =>
      cases hv : throwNewAnswer.isValue <;> cases h : e.pending <;>
        simp [JniEnv.offence, JniFunction.allowedWhilePending, h, status, hv] <;> omega

/-- **The discipline of pending exceptions** is kept by `jniThrowException` unless an exception is
pending at entry and, while it is summed up, one of the two lookups throws or `getMessage` does. -/
theorem disciplined_iff (answers : ThrowAnswers) (e : JniEnv) :
    Disciplined e (jniThrowException answers className msg e).2 ↔
      e.pending = none ∨ ¬ answers.summary.StaysPending := by
  have live : ∀ e, Live [] e := fun _ _ h => absurd h List.not_mem_nil
  have ht := keeps_jniThrowException answers className msg e (live e)
  rw [ht.disciplined_iff_offences]
  cases h : e.pending with
  | none =>
      have hn := (throwNewOfClass_disciplined className msg answers (exceptionCheck e).2).mpr h
      rw [exceptionCheck_offences] at hn
      simpa [jniThrowException, h] using hn
  | some object =>
      have hd := @discardPending_disciplined className answers.summary (exceptionCheck e).2 object h
      have ht := keeps_discardPending answers.summary className (exceptionCheck e).2 (live _)
      have hle := ht.offences_le
      have e' : jniThrowException answers className msg e = throwNewOfClass answers className msg
          (discardPending answers.summary className (exceptionCheck e).2).2 := by
        simp [jniThrowException, h]
      rw [exceptionCheck_offences] at hd hle
      rw [e', ← hd]
      generalize (discardPending answers.summary className (exceptionCheck e).2).2 = d at *
      have hle' := (keeps_throwNewOfClass answers className msg d (live d)).offences_le
      rw [← throwNewOfClass_disciplined className msg answers d]
      -- neither part takes an offence back, so both must be without
      constructor
      · intro hw
        exact .inr ⟨by omega, by omega⟩
      · rintro (hp | ⟨h1, h2⟩)
        · cases hp
        · omega

end throwing

/-- The exception 9 that `getMessage` threw is pending when `FindClass` is called. -/
theorem ioException_undisciplined :
    ¬ Disciplined { quietEnv with pending := some 11 }
      (jniThrowException ioException "java/io/IOException" (some "no space")
        { quietEnv with pending := some 11 }).2 ∧
    ⟨.findClass "java/io/IOException", true, true, true⟩ ∈
      callsSince { quietEnv with pending := some 11 }
        (jniThrowException ioException "java/io/IOException" (some "no space")
          { quietEnv with pending := some 11 }).2 := by
  decide +kernel

end NativeHelper
