import NativeHelper.ModifiedUtf8
import NativeHelper.ThrowException

/-! # Throwing with a formatted message

`jniThrowExceptionFmt` formats the message into a buffer of 512 bytes and hands what fits to
`jniThrowException`, which gives it to `ThrowNew` if the class is found
(`jniThrowException_thrownMessages`).  `ThrowNew` expects modified UTF-8; the buffer is filled byte
by byte.  `jniThrowExceptionFmt_wellFormed_iff` says that the message arrives well formed if and
only if it is not cut within a code unit. -/

namespace NativeHelper

open ModifiedUtf8 (Byte WellFormed IsContinuation)

/-- `vsnprintf(buffer, size, fmt, args)` where `fmt` and `args` format to `message`: as much of it
as fits and a zero byte are written. -/
def vsnprintf (buffer : List Byte) (size : ℕ) (message : List Byte) : List Byte :=
  if size = 0 then buffer
  else
    let written := message.take (size - 1) ++ [0]
    written ++ buffer.drop written.length

/-- The C string at the beginning of a buffer. -/
def cStringOf (buffer : List Byte) : List Byte := buffer.takeWhile (· ≠ 0)

/-- A C string as it is given to functions, with a character for each byte. -/
def textOf (bytes : List Byte) : String := .ofList (bytes.map fun b => Char.ofNat b.toNat)

/-- `jniThrowExceptionFmt`, where `fmt` and `args` format to `message`; `msgBuf` has not been
initialized. -/
def jniThrowExceptionFmt (answers : ThrowAnswers) (className : String)
    (message msgBuf : List Byte) : JniM ℤ :=
  let msgBuf := vsnprintf msgBuf 512 message
  jniThrowException answers className (some (textOf (cStringOf msgBuf)))

/-! ### What `ThrowNew` is given -/

/-- The message of a call of `ThrowNew`. -/
def JniFunction.thrownMessage? : JniFunction → Option (Option String)
  | .throwNew message => some message
  | _ => none

/-- The messages `ThrowNew` was called with. -/
def JniEnv.thrownMessages (e : JniEnv) : List (Option String) :=
  e.calls.filterMap fun c => c.function.thrownMessage?

section thrownMessages
variable {α : Type} (e : JniEnv)

theorem jniCall_thrownMessages (function : JniFunction) (refs : List Ref) (chars : List UtfChars) :
    (jniCall function refs chars e).2.thrownMessages =
      e.thrownMessages ++ function.thrownMessage?.toList := by
  simp only [JniEnv.thrownMessages, jniCall, List.filterMap_append]
  cases h : function.thrownMessage? <;> simp [h]

/-- Every function but `ThrowNew`. -/
theorem other_thrownMessages {function : JniFunction} (h : function.thrownMessage? = none)
    (refs : List Ref) (chars : List UtfChars) :
    (jniCall function refs chars e).2.thrownMessages = e.thrownMessages := by
  rw [jniCall_thrownMessages, h]
  exact List.append_nil _

@[simp] theorem callForRef_thrownMessages (function : JniFunction) (refs : List Ref)
    (answer : Answer JavaObject) :
    (callForRef function refs answer e).2.thrownMessages =
      e.thrownMessages ++ function.thrownMessage?.toList := by
  rw [JniEnv.thrownMessages, callForRef_calls]
  exact jniCall_thrownMessages e function refs []

@[simp] theorem getObjectClass_thrownMessages (clazz : JavaObject) (object : Ref) :
    (getObjectClass clazz object e).2.thrownMessages = e.thrownMessages :=
  other_thrownMessages e rfl [object] []

@[simp] theorem getMethodID_thrownMessages (answer : Answer Unit) (clazz : Ref)
    (name sig : String) :
    (getMethodID answer clazz name sig e).2.thrownMessages = e.thrownMessages := by
  rw [JniEnv.thrownMessages, getMethodID_calls]
  exact other_thrownMessages e rfl [clazz] []

@[simp] theorem getStringUTFChars_thrownMessages (answer : Answer String) (string : Ref) :
    (getStringUTFChars answer string e).2.thrownMessages = e.thrownMessages := by
  rw [JniEnv.thrownMessages, getStringUTFChars_calls]
  exact other_thrownMessages e rfl [string] []

@[simp] theorem readUtfChars_thrownMessages (utf : UtfChars) :
    (readUtfChars utf e).2.thrownMessages = e.thrownMessages := rfl

@[simp] theorem releaseStringUTFChars_thrownMessages (string : Ref) (utf : UtfChars) :
    (releaseStringUTFChars string utf e).2.thrownMessages = e.thrownMessages :=
  other_thrownMessages e rfl [string] [{ utf with string }]

@[simp] theorem exceptionCheck_thrownMessages :
    (exceptionCheck e).2.thrownMessages = e.thrownMessages :=
  other_thrownMessages e rfl [] []

@[simp] theorem exceptionClear_thrownMessages :
    (exceptionClear e).2.thrownMessages = e.thrownMessages :=
  other_thrownMessages e rfl [] []

@[simp] theorem exceptionOccurred_thrownMessages :
    (exceptionOccurred e).2.thrownMessages = e.thrownMessages := by
  rw [JniEnv.thrownMessages, exceptionOccurred_calls]
  exact other_thrownMessages e rfl [] []

@[simp] theorem androidLogWrite_thrownMessages (priority : ℤ) (tag text : String) :
    (androidLogWrite priority tag text e).2.thrownMessages = e.thrownMessages := rfl

@[simp] theorem scopedLocalRef_thrownMessages (localRef : Option Ref) (body : JniM α) :
    (scopedLocalRef localRef body e).2.thrownMessages = (body e).2.thrownMessages := by
  cases localRef with
  | none => rfl
  | some r => exact other_thrownMessages _ rfl [r] []

@[simp] theorem throwNew_thrownMessages (answer : Answer JavaObject) (clazz : Ref)
    (message : Option String) :
    (throwNew answer clazz message e).2.thrownMessages = e.thrownMessages ++ [message] := by
  rw [JniEnv.thrownMessages, throwNew_calls]
  exact jniCall_thrownMessages e (.throwNew message) [clazz] []

/-- The summary throws nothing. -/
@[simp] theorem getExceptionSummary_thrownMessages (answers : SummaryAnswers) (exception : Ref)
    (result : String) :
    (getExceptionSummary answers exception result e).2.thrownMessages = e.thrownMessages := by
  obtain ⟨_, _, _, getName, classNameChars, _, getMessage, messageChars⟩ := answers
  unfold getExceptionSummary callObjectMethod
  cases getName with
  | null thrown => simp [JniFunction.thrownMessage?]
  | value name =>
      cases classNameChars with
      | null thrown => simp [JniFunction.thrownMessage?]
      | value chars =>
          cases getMessage with
          | null thrown => simp [JniFunction.thrownMessage?]
          | value message => cases messageChars <;> simp [JniFunction.thrownMessage?]

@[simp] theorem discardPending_thrownMessages (summary : SummaryAnswers) (className : String) :
    (discardPending summary className e).2.thrownMessages = e.thrownMessages := by
  unfold discardPending
  cases h : e.pending with
  | none => simp [h]
  | some object => simp [h]

/-- `ThrowNew` is called if the class is found. -/
theorem throwNewOfClass_thrownMessages (answers : ThrowAnswers) (className : String)
    (msg : Option String) :
    (throwNewOfClass answers className msg e).2.thrownMessages =
      e.thrownMessages ++ if answers.exceptionClass.isValue then [msg] else [] := by
  unfold throwNewOfClass findClass
  cases answers.exceptionClass with
  | null thrown => simp [JniFunction.thrownMessage?, Answer.isValue]
  | value clazz =>
      have hfound : (Answer.value clazz).isValue = true := rfl
      rw [if_pos hfound]
      simp only [JniM.bind_apply, scopedLocalRef_thrownMessages, callForRef_value_fst]
      -- what `ThrowNew` returned is only logged
      split_ifs <;> simp [JniFunction.thrownMessage?]

/-- **`ThrowNew` is given the message of `jniThrowException`** once, if the class is found. -/
theorem jniThrowException_thrownMessages (answers : ThrowAnswers) (className : String)
    (msg : Option String) :
    (jniThrowException answers className msg e).2.thrownMessages =
      e.thrownMessages ++ if answers.exceptionClass.isValue then [msg] else [] := by
  unfold jniThrowException
  cases h : e.pending with
  | none => simp [h, throwNewOfClass_thrownMessages]
  | some object => simp [h, throwNewOfClass_thrownMessages]

end thrownMessages

/-! ### What is left of the message -/

/-- The text arrives well formed, and whole if it fits. -/
structure MessageKept (message text : List Byte) : Prop where
  wellFormed : WellFormed text
  isPrefix : text <+: message
  whole : message.length ≤ 511 → text = message

section message
variable {message : List Byte}

/-- The C string in the buffer is what fits into it. -/
theorem cStringOf_vsnprintf (h : (0 : Byte) ∉ message) (msgBuf : List Byte) :
    cStringOf (vsnprintf msgBuf 512 message) = message.take 511 := by
  have hne : ∀ b ∈ message.take 511, decide (b ≠ 0) = true := by
    intro b hb
    rw [decide_eq_true_iff]
    rintro rfl
    exact h (List.mem_of_mem_take hb)
  unfold cStringOf vsnprintf
  rw [if_neg (by decide)]
  dsimp only
  rw [List.append_assoc, List.takeWhile_append_of_pos hne]
  simp

theorem messageKept_take_iff (h : WellFormed message) :
    MessageKept message (message.take 511) ↔
      ∀ b, message[511]? = some b → ¬ IsContinuation b := by
  rw [← h.take_iff 511]
  constructor
  · exact fun hk => hk.wellFormed
  · exact fun hw => ⟨hw, List.take_prefix 511 message, List.take_of_length_le⟩

/-- **The message is handed on well formed**, and whole if it fits, if and only if no continuation
byte is at index 511, the first that does not fit; `ThrowNew` is given what is handed on. -/
theorem jniThrowExceptionFmt_wellFormed_iff (h : WellFormed message) (msgBuf : List Byte)
    (answers : ThrowAnswers) (className : String) (e : JniEnv) :
    let text := cStringOf (vsnprintf msgBuf 512 message)
    (jniThrowExceptionFmt answers className message msgBuf e).2.thrownMessages =
        e.thrownMessages ++
          (if answers.exceptionClass.isValue then [some (textOf text)] else []) ∧
      (MessageKept message text ↔ ∀ b, message[511]? = some b → ¬ IsContinuation b) := by
  intro text
  refine ⟨jniThrowException_thrownMessages e answers className (some (textOf text)), ?_⟩
  have htext : text = message.take 511 := cStringOf_vsnprintf h.zero_notMem msgBuf
  rw [htext]
  exact messageKept_take_iff h

end message

/-- 300 times the letter é, of two bytes. -/
def longMessage : List Byte := (List.replicate 300 0xE9).flatMap ModifiedUtf8.encode

/-- With a letter of one byte in front of it the message is cut between two letters. -/
theorem jniThrowExceptionFmt_between :
    MessageKept (0x61 :: longMessage)
      (cStringOf (vsnprintf (List.replicate 512 0) 512 (0x61 :: longMessage))) := by
  have hw : WellFormed (0x61 :: longMessage) := ⟨0x61 :: List.replicate 300 0xE9, rfl⟩
  have hcut : (0x61 :: longMessage)[511]? = some 0xC3 := by decide +kernel
  refine (jniThrowExceptionFmt_wellFormed_iff hw (List.replicate 512 0) ioException
    "java/io/IOException" quietEnv).2.mpr fun b hb => ?_
  rw [hcut] at hb
  obtain rfl := Option.some.inj hb
  decide

/-- Without it the last letter that is handed on is half there. -/
theorem jniThrowExceptionFmt_within :
    WellFormed longMessage ∧
    (cStringOf (vsnprintf (List.replicate 512 0) 512 longMessage)).getLast? = some 0xC3 ∧
    ¬ MessageKept longMessage (cStringOf (vsnprintf (List.replicate 512 0) 512 longMessage)) := by
  have hw : WellFormed longMessage := ⟨List.replicate 300 0xE9, rfl⟩
  have hcut : longMessage[511]? = some 0xA9 := by decide +kernel
  rw [cStringOf_vsnprintf hw.zero_notMem]
  refine ⟨hw, by decide +kernel, fun hk => ?_⟩
  exact (messageKept_take_iff hw).mp hk _ hcut (by decide)

end NativeHelper
