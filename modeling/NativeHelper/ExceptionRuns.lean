import NativeHelper.ExceptionTexts
import NativeHelper.JniHelpers
import NativeHelper.NullPointer
import NativeHelper.Refinement
import NativeHelper.ThrowFormatted

/-! # Runs of the exception helpers

A thread calls the helpers for exceptions in any order.  What others can see of it is the exception
that is pending, the exceptions that were made and the Android log (`Thread`).

* `observe_run`: a call returns and leaves behind what `ExceptionCall.spec` says, which is a function
  of what can be seen and of the answers of the VM and the Java code.
* `disciplined_run_iff`: it calls nothing that it may not exactly if it is allowed where it
  happens. -/

namespace NativeHelper

/-! ### The other functions that throw -/

/-- `jniThrowRuntimeException` -/
def jniThrowRuntimeException (answers : ThrowAnswers) (msg : Option String) : JniM ℤ :=
  jniThrowException answers "java/lang/RuntimeException" msg

/-- The bytes of a C string of ASCII characters. -/
def bytesOf (text : String) : List ModifiedUtf8.Byte := text.toList.map fun c => .ofNat 8 c.toNat

/-- The signatures of `strerror_r`, and `strerror_s`.  The first returns a string, the others change
the buffer. -/
inductive StrError where
  | gnu (func : ℤ → List ModifiedUtf8.Byte → ℕ → List ModifiedUtf8.Byte)
  | posix (func : ℤ → List ModifiedUtf8.Byte → ℕ → ℤ × List ModifiedUtf8.Byte)
  | windows (func : List ModifiedUtf8.Byte → ℕ → ℤ → List ModifiedUtf8.Byte)

/-- `realJniStrError(GNUStrError func, …)` -/
def realJniStrErrorGnu (func : ℤ → List ModifiedUtf8.Byte → ℕ → List ModifiedUtf8.Byte) (errnum : ℤ)
    (buf : List ModifiedUtf8.Byte) (buflen : ℕ) : List ModifiedUtf8.Byte :=
  func errnum buf buflen

/-- `realJniStrError(POSIXStrError func, …)` -/
def realJniStrErrorPosix (func : ℤ → List ModifiedUtf8.Byte → ℕ → ℤ × List ModifiedUtf8.Byte)
    (errnum : ℤ) (buf : List ModifiedUtf8.Byte) (buflen : ℕ) : List ModifiedUtf8.Byte :=
  let (rc, buf) := func errnum buf buflen
  let buf := if rc ≠ 0 then vsnprintf buf buflen (bytesOf ("errno " ++ toString errnum)) else buf
  cStringOf buf

/-- `platformStrError`, which returns a C string. -/
def platformStrError (strError : StrError) (errnum : ℤ) (buf : List ModifiedUtf8.Byte)
    (buflen : ℕ) : List ModifiedUtf8.Byte :=
  match strError with
  | .windows func => cStringOf (func buf buflen errnum)
  | .gnu func => realJniStrErrorGnu func errnum buf buflen
  | .posix func => realJniStrErrorPosix func errnum buf buflen

/-- `jniThrowIOException`; `buffer` has not been initialized. -/
def jniThrowIOException (answers : ThrowAnswers) (strError : StrError) (errnum : ℤ)
    (buffer : List ModifiedUtf8.Byte) : JniM ℤ :=
  let message := platformStrError strError errnum buffer 80
  jniThrowException answers "java/io/IOException" (some (textOf message))

section strError
open ModifiedUtf8 (Byte)

theorem textOf_bytesOf {text : String} (h : ∀ c ∈ text.toList, c.toNat < 256) :
    textOf (bytesOf text) = text := by
  have hchars : (bytesOf text).map (fun b => Char.ofNat b.toNat) = text.toList := by
    unfold bytesOf
    rw [List.map_map]
    refine (List.map_congr_left fun c hc => ?_).trans (List.map_id _)
    show Char.ofNat (BitVec.ofNat 8 c.toNat).toNat = c
    rw [BitVec.toNat_ofNat, Nat.mod_eq_of_lt (h c hc), Char.ofNat_toNat]
  unfold textOf
  rw [hchars, String.ofList_toList]

theorem zero_notMem_bytesOf {text : String}
    (h : ∀ c ∈ text.toList, 0 < c.toNat ∧ c.toNat < 256) : (0 : Byte) ∉ bytesOf text := by
  intro hmem
  obtain ⟨c, hc, hzero⟩ := List.mem_map.mp hmem
  have hnat : (BitVec.ofNat 8 c.toNat).toNat = 0 := congrArg BitVec.toNat hzero
  rw [BitVec.toNat_ofNat, Nat.mod_eq_of_lt (h c hc).2] at hnat
  exact absurd hnat (Nat.pos_iff_ne_zero.mp (h c hc).1)

/-- A message that fits into the buffer. -/
theorem cStringOf_vsnprintf_of_lt {message : List Byte} {size : ℕ} (h : message.length < size)
    (hzero : (0 : Byte) ∉ message) (buf : List Byte) :
    cStringOf (vsnprintf buf size message) = message := by
  have hne : ∀ b ∈ message, decide (b ≠ 0) = true := by
    intro b hb
    rw [decide_eq_true_iff]
    rintro rfl
    exact hzero hb
  unfold cStringOf vsnprintf
  rw [if_neg (by omega), List.take_of_length_le (by omega)]
  dsimp only
  rw [List.append_assoc, List.takeWhile_append_of_pos hne]
  simp

theorem digit_bounds {c : Char} {n : ℕ} (h : c ∈ n.repr.toList) : 0 < c.toNat ∧ c.toNat < 256 := by
  rw [Nat.toList_repr] at h
  have hd := Nat.isDigit_of_mem_toDigits (by decide) (by decide) h
  have hb : '0'.toNat ≤ c.toNat ∧ c.toNat ≤ '9'.toNat := by
    simpa [Char.isDigit, Char.le_def, UInt32.le_iff_toNat_le] using hd
  have h0 : '0'.toNat = 48 := rfl
  have h9 : '9'.toNat = 57 := rfl
  omega

/-- The number in decimal: 11 characters are enough for 32 bits. -/
theorem toString_errnum {errnum : ℤ} (h : -2 ^ 31 ≤ errnum ∧ errnum < 2 ^ 31) :
    (toString errnum).length ≤ 11 ∧
      ∀ c ∈ (toString errnum).toList, 0 < c.toNat ∧ c.toNat < 256 := by
  have hlen : ∀ n : ℕ, n ≤ 2 ^ 31 → n.repr.length ≤ 10 := by
    intro n hn
    rw [Nat.length_repr_le_iff (by decide)]
    omega
  rw [Int.toString_eq_repr, Int.repr_eq_if]
  split_ifs with h0
  · exact ⟨Nat.le_succ_of_le (hlen _ (by omega)), fun c hc => digit_bounds hc⟩
  · constructor
    · rw [String.length_append]
      have := hlen (-errnum).toNat (by omega)
      have : "-".length = 1 := rfl
      omega
    · intro c hc
      rw [String.toList_append] at hc
      rcases List.mem_append.mp hc with hc | hc
      · have hc' : c = '-' := by simpa using hc
        rw [hc']
        decide
      · exact digit_bounds hc

/-- The text for an unknown error number fits into the buffer. -/
theorem realJniStrErrorPosix_unknown {func : ℤ → List Byte → ℕ → ℤ × List Byte} {errnum : ℤ}
    (h : -2 ^ 31 ≤ errnum ∧ errnum < 2 ^ 31) (buf : List Byte) (hrc : (func errnum buf 80).1 ≠ 0) :
    textOf (realJniStrErrorPosix func errnum buf 80) = "errno " ++ toString errnum := by
  obtain ⟨hlen, hchars⟩ := toString_errnum h
  have herrno : "errno ".toList.all (fun c => 0 < c.toNat ∧ c.toNat < 256) = true := by decide
  have hall : ∀ c ∈ ("errno " ++ toString errnum).toList, 0 < c.toNat ∧ c.toNat < 256 := by
    intro c hc
    rw [String.toList_append] at hc
    rcases List.mem_append.mp hc with hc | hc
    · exact of_decide_eq_true (List.all_eq_true.mp herrno c hc)
    · exact hchars c hc
  have hsize : (bytesOf ("errno " ++ toString errnum)).length < 80 := by
    have : "errno ".length = 6 := rfl
    unfold bytesOf
    rw [List.length_map, String.length_toList, String.length_append]
    omega
  unfold realJniStrErrorPosix
  dsimp only
  rw [if_pos hrc, cStringOf_vsnprintf_of_lt hsize (zero_notMem_bytesOf hall),
    textOf_bytesOf fun c hc => (hall c hc).2]

/-- **An error number that `strerror_r` does not know is named in full**: whatever the 32 bits of the
number are and the buffer was, `ThrowNew` is given the text with all digits of it. -/
theorem jniThrowIOException_unknown {func : ℤ → List Byte → ℕ → ℤ × List Byte} {errnum : ℤ}
    (h : -2 ^ 31 ≤ errnum ∧ errnum < 2 ^ 31) {buffer : List Byte}
    (hrc : (func errnum buffer 80).1 ≠ 0) (answers : ThrowAnswers) (e : JniEnv) :
    (jniThrowIOException answers (.posix func) errnum buffer e).2.thrownMessages =
      e.thrownMessages ++
        if answers.exceptionClass.isValue then [some ("errno " ++ toString errnum)] else [] := by
  unfold jniThrowIOException platformStrError
  dsimp only
  rw [jniThrowException_thrownMessages, realJniStrErrorPosix_unknown h buffer hrc]

/-- The longest number. -/
theorem jniThrowIOException_unknown_least :
    (jniThrowIOException ioException (.posix fun _ buf _ => (22, buf)) (-2 ^ 31)
        (List.replicate 80 1) quietEnv).2.thrownMessages = [some "errno -2147483648"] :=
  jniThrowIOException_unknown (by decide) (by decide) ioException quietEnv

end strError

/-! ### What can be seen of a thread -/

/-- What can be seen of a thread. -/
@[ext] structure Thread where
  pending : Option JavaObject
  throwables : List NewThrowable
  androidLog : List (ℤ × String × String)
deriving DecidableEq, Repr

def JniEnv.observe (e : JniEnv) : Thread := ⟨e.pending, e.throwables, e.androidLog⟩

namespace Thread

/-- What is pending is discarded, for an exception of the class. -/
def discard (summary : SummaryAnswers) (className : String) (t : Thread) : Thread :=
  match t.pending with
  | none => t
  | some _ =>
      { t with
        pending := summary.pendingAfter
        androidLog := t.androidLog ++ [(androidLogWarn, jniHelpLogTag,
          "Discarding pending exception (" ++ (summary.text "").2 ++ ") to throw " ++ className)] }

/-- An exception of the class is thrown, or some other one by the VM. -/
def throwNewOfClass (answers : ThrowAnswers) (className : String) (msg : Option String)
    (t : Thread) : ℤ × Thread :=
  match answers.exceptionClass, answers.throwNew with
  | .value clazz, .value object =>
      (0, { t with pending := some object, throwables := t.throwables ++ [⟨object, clazz, msg⟩] })
  | .value _, .null thrown =>
      (-1, { t with
        pending := thrown <|> t.pending
        androidLog := t.androidLog ++ [(androidLogError, jniHelpLogTag,
          "Failed throwing '" ++ className ++ "' '" ++ msg.getD "(null)" ++ "'")] })
  | .null thrown, _ =>
      (-1, { t with
        pending := thrown <|> t.pending
        androidLog := t.androidLog ++
          [(androidLogError, jniHelpLogTag, "Unable to find exception class " ++ className)] })

/-- What `jniThrowException` does. -/
def throwException (answers : ThrowAnswers) (className : String) (msg : Option String)
    (t : Thread) : ℤ × Thread :=
  (t.discard answers.summary className).throwNewOfClass answers className msg

/-- What the version of the headers does for a null pointer: it logs nothing. -/
def throwNullPointer (answers : NativehelperUtils.NullPointerAnswers) (t : Thread) : ℤ × Thread :=
  match answers.eClass, answers.throwNew with
  | .value clazz, .value object =>
      (0, { t with pending := some object, throwables := t.throwables ++ [⟨object, clazz, none⟩] })
  | .value _, .null thrown | .null thrown, _ => (-1, { t with pending := thrown })

/-- The text that `jniGetStackTrace` returns. -/
def stackTrace (stackTrace : StackTraceAnswers) (summary : SummaryAnswers)
    (exception : Option Ref) (t : Thread) : String :=
  if t.pending = none ∧ exception = none then "<no pending exception>"
  else traceText stackTrace summary

/-- What is pending after `jniGetStackTrace`. -/
def afterStackTrace (stackTrace : StackTraceAnswers) (summary : SummaryAnswers)
    (exception : Option Ref) (t : Thread) : Thread :=
  { t with pending := t.pending <|> exception.bind fun _ => traceLeaves stackTrace summary }

end Thread

/-! ### The helpers, seen from outside -/

section observe
variable (answers : ThrowAnswers) (className : String) (msg : Option String) (e : JniEnv)

theorem observe_throwNewOfClass :
    ((throwNewOfClass answers className msg e).1,
        (throwNewOfClass answers className msg e).2.observe) =
      e.observe.throwNewOfClass answers className msg := by
  obtain ⟨_, exceptionClass, thrown⟩ := answers
  rcases exceptionClass with _ | _ | _
  · rcases thrown with _ | _ | _ <;> rfl
  · rfl
  · rfl

theorem observe_discardPending (summary : SummaryAnswers) {object : JavaObject}
    (h : e.pending = some object) :
    (discardPending summary className e).2.observe = e.observe.discard summary className := by
  let e₁ := (exceptionClear (exceptionOccurred e).2).2
  let r := getExceptionSummary summary ⟨e.nextRef, object⟩ "" e₁
  have hfst : r.1 = summary.text "" := getExceptionSummary_fst _ _ _ e₁
  have hpending : r.2.pending = summary.pendingAfter := getExceptionSummary_pendingAfter _ _ _ e₁ rfl
  have hseen := (discreet_exceptionOccurred.bind fun _ => discreet_exceptionClear.bind fun _ =>
    discreet_getExceptionSummary summary ⟨e.nextRef, object⟩ "") e
  have hrun : (discardPending summary className e).2.observe = ⟨r.2.pending, r.2.throwables,
      r.2.androidLog ++ [(androidLogWarn, jniHelpLogTag,
        "Discarding pending exception (" ++ r.1.2 ++ ") to throw " ++ className)]⟩ := by
    unfold discardPending
    rw [JniM.bind_apply, exceptionOccurred_fst, h]
    rfl
  rw [hrun, hpending, hfst, show r.2.throwables = e.throwables from hseen.throwables,
    show r.2.androidLog = e.androidLog from hseen.androidLog]
  unfold Thread.discard JniEnv.observe
  rw [h]

variable {e} in
theorem jniThrowException_of_none (h : e.pending = none) :
    jniThrowException answers className msg e =
      throwNewOfClass answers className msg (exceptionCheck e).2 := by
  simp [jniThrowException, h]

variable {e} in
theorem jniThrowException_of_some (h : e.pending ≠ none) :
    jniThrowException answers className msg e = (do
      discardPending answers.summary className
      throwNewOfClass answers className msg) (exceptionCheck e).2 := by
  obtain ⟨object, ho⟩ := Option.ne_none_iff_exists'.mp h
  simp [jniThrowException, ho]

theorem observe_jniThrowException :
    ((jniThrowException answers className msg e).1,
        (jniThrowException answers className msg e).2.observe) =
      e.observe.throwException answers className msg := by
  have hc : (exceptionCheck e).2.observe = e.observe := rfl
  unfold Thread.throwException
  cases h : e.pending with
  | none =>
      rw [jniThrowException_of_none answers className msg h, observe_throwNewOfClass, hc,
        Thread.discard, show e.observe.pending = none from h]
  | some object =>
      have hp : (exceptionCheck e).2.pending = some object := h
      rw [jniThrowException_of_some answers className msg (by simp [h]), JniM.bind_apply,
        observe_throwNewOfClass, observe_discardPending className _ _ hp, hc]

/-- What was pending does not matter to the version of the headers. -/
theorem observe_throwNullPointer (answers : NativehelperUtils.NullPointerAnswers) {e : JniEnv}
    (h : e.pending = none) (pending : Option JavaObject) :
    ((NativehelperUtils.throwNullPointer answers e).1,
        (NativehelperUtils.throwNullPointer answers e).2.observe) =
      Thread.throwNullPointer answers ⟨pending, e.throwables, e.androidLog⟩ := by
  obtain ⟨eClass, thrown⟩ := answers
  rcases eClass with _ | _ | _
  · rcases thrown with _ | _ | _
    · rfl
    · exact Prod.ext rfl (Thread.ext h rfl rfl)
    · rfl
  · exact Prod.ext rfl (Thread.ext h rfl rfl)
  · rfl

theorem observe_header (answers : NativehelperUtils.NullPointerAnswers) :
    ((NativehelperUtils.jniThrowNullPointerException answers e).1,
        (NativehelperUtils.jniThrowNullPointerException answers e).2.observe) =
      e.observe.throwNullPointer answers := by
  cases h : e.pending with
  | none =>
      have hrun : NativehelperUtils.jniThrowNullPointerException answers e =
          NativehelperUtils.throwNullPointer answers (exceptionCheck e).2 := by
        rw [NativehelperUtils.jniThrowNullPointerException_eq]
        simp [h]
      rw [hrun]
      exact @observe_throwNullPointer answers (exceptionCheck e).2 h e.pending
  | some object =>
      have hrun : NativehelperUtils.jniThrowNullPointerException answers e =
          NativehelperUtils.throwNullPointer answers (exceptionClear (exceptionCheck e).2).2 := by
        rw [NativehelperUtils.jniThrowNullPointerException_eq]
        simp [h]
      rw [hrun]
      exact @observe_throwNullPointer answers (exceptionClear (exceptionCheck e).2).2 rfl e.pending

theorem observe_jniGetStackTrace (stackTrace : StackTraceAnswers) (summary : SummaryAnswers)
    (exception : Option Ref) :
    ((jniGetStackTrace stackTrace summary exception e).1,
        (jniGetStackTrace stackTrace summary exception e).2.observe) =
      (e.observe.stackTrace stackTrace summary exception,
        e.observe.afterStackTrace stackTrace summary exception) := by
  have hseen := discreet_jniGetStackTrace stackTrace summary exception e
  refine Prod.ext (jniGetStackTrace_fst stackTrace summary exception) ?_
  exact Thread.ext (jniGetStackTrace_pending stackTrace summary exception) hseen.throwables
    hseen.androidLog

end observe

/-! ### Cleanness -/

section clean
variable (answers : ThrowAnswers) (className : String) (msg : Option String) {e : JniEnv}

theorem grows_throwNewOfClass : Grows (throwNewOfClass answers className msg) := by
  unfold throwNewOfClass
  refine (calls_findClass _ _).grows.bind fun exceptionClass => Grows.scope ?_ _
  cases exceptionClass with
  | none => exact (harmless_androidLogWrite _ _ _).grows.bind fun _ => grows_pure _
  | some exceptionClass =>
      refine (calls_throwNew _ _ _).grows.bind fun status => ?_
      split_ifs
      · exact (harmless_androidLogWrite _ _ _).grows.bind fun _ => grows_pure _
      · exact grows_pure _

theorem grows_discardPending (summary : SummaryAnswers) :
    Grows (discardPending summary className) := by
  unfold discardPending
  refine harmless_exceptionOccurred.grows.bind fun exception => Grows.scope ?_ _
  refine harmless_exceptionClear.grows.bind fun _ => ?_
  cases exception with
  | none => exact grows_pure _
  | some exception =>
      refine (discreet_getExceptionSummary summary exception "").grows.bind fun _ => ?_
      exact (harmless_androidLogWrite _ _ _).grows

theorem grows_jniThrowException : Grows (jniThrowException answers className msg) := by
  unfold jniThrowException
  refine harmless_exceptionCheck.grows.bind fun pending => ?_
  cases pending with
  | false => exact grows_throwNewOfClass answers className msg
  | true =>
      exact (grows_discardPending className answers.summary).bind fun _ =>
        grows_throwNewOfClass answers className msg

theorem clean_discardPending_iff (summary : SummaryAnswers) {object : JavaObject}
    (h : e.pending = some object) :
    Clean (discardPending summary className) e ↔ summary.ReachedQuiet := by
  unfold discardPending
  rw [harmless_exceptionOccurred.clean_bind_iff, clean_scope_iff,
    harmless_exceptionClear.clean_bind_iff, exceptionOccurred_fst, h]
  show Clean (getExceptionSummary summary ⟨e.nextRef, object⟩ "" >>= _) _ ↔ _
  rw [clean_bind_iff (discreet_getExceptionSummary _ _ _).grows fun _ =>
      (harmless_androidLogWrite _ _ _).grows,
    clean_getExceptionSummary_iff _ _ _ rfl]
  exact and_iff_left (harmless_androidLogWrite _ _ _).clean

/-- An exception that is pending is summed up, which must go well. -/
def ThrowAnswers.AllowedIn (answers : ThrowAnswers) (t : Thread) : Prop :=
  t.pending = none ∨ answers.summary.ReachedQuiet ∧ answers.summary.pendingAfter = none

theorem clean_jniThrowException_iff :
    Clean (jniThrowException answers className msg) e ↔ answers.AllowedIn e.observe := by
  have hn : ∀ e', Clean (throwNewOfClass answers className msg) e' ↔ e'.pending = none :=
    throwNewOfClass_disciplined className msg answers
  have hc : (exceptionCheck e).2.offences = e.offences := exceptionCheck_offences e
  unfold Clean ThrowAnswers.AllowedIn
  cases h : e.pending with
  | none =>
      rw [jniThrowException_of_none answers className msg h, ← hc]
      exact iff_of_true ((hn _).mpr h) (.inl h)
  | some object =>
      have hp : (exceptionCheck e).2.pending = some object := h
      have hd := observe_discardPending className (exceptionCheck e).2 answers.summary hp
      have hafter : (discardPending answers.summary className (exceptionCheck e).2).2.pending =
          answers.summary.pendingAfter := by
        have := congrArg Thread.pending hd
        rwa [Thread.discard, show (exceptionCheck e).2.observe.pending = some object from h] at this
      rw [jniThrowException_of_some answers className msg (by simp [h]), ← hc]
      refine (clean_bind_iff (grows_discardPending className answers.summary) fun _ =>
        grows_throwNewOfClass answers className msg).trans ?_
      rw [clean_discardPending_iff className _ hp, hn, hafter, show e.observe.pending = some object
        from h]
      simp

end clean

/-! ### Calls of the helpers -/

/-- A call of one of the helpers, with all that is answered to it. -/
inductive ExceptionCall where
  | throwException (answers : ThrowAnswers) (className : String) (msg : Option String)
  | throwExceptionFmt (answers : ThrowAnswers) (className : String)
      (message msgBuf : List ModifiedUtf8.Byte)
  | throwNullPointerException (answers : ThrowAnswers) (msg : Option String)
  | throwRuntimeException (answers : ThrowAnswers) (msg : Option String)
  | throwIOException (answers : ThrowAnswers) (strError : StrError) (errnum : ℤ)
      (buffer : List ModifiedUtf8.Byte)
  /-- `jniThrowNullPointerException` of `nativehelper_utils.h` -/
  | throwFromHeader (answers : NativehelperUtils.NullPointerAnswers)
  | getStackTrace (stackTrace : StackTraceAnswers) (summary : SummaryAnswers)
      (exception : Option Ref)
  | logException (stackTrace : StackTraceAnswers) (summary : SummaryAnswers) (priority : ℤ)
      (tag : String) (exception : Option Ref)

/-- What a helper returns. -/
inductive ExceptionResult where
  | int (r : ℤ)
  | string (text : String)
  | unit
deriving DecidableEq, Repr

namespace ExceptionCall

/-- The program of a call. -/
def program : ExceptionCall → JniM ExceptionResult
  | throwException answers className msg => do
      return .int (← jniThrowException answers className msg)
  | throwExceptionFmt answers className message msgBuf => do
      return .int (← jniThrowExceptionFmt answers className message msgBuf)
  | throwNullPointerException answers msg => do
      return .int (← JniHelp.jniThrowNullPointerException answers msg)
  | throwRuntimeException answers msg => do
      return .int (← jniThrowRuntimeException answers msg)
  | throwIOException answers strError errnum buffer => do
      return .int (← jniThrowIOException answers strError errnum buffer)
  | throwFromHeader answers => do
      return .int (← NativehelperUtils.jniThrowNullPointerException answers)
  | getStackTrace stackTrace summary exception => do
      return .string (← jniGetStackTrace stackTrace summary exception)
  | logException stackTrace summary priority tag exception => do
      jniLogException stackTrace summary priority tag exception
      return .unit

def run (e : JniEnv) (call : ExceptionCall) : ExceptionResult × JniEnv := call.program e

/-- What is seen of a call that throws an exception. -/
def throwing (answers : ThrowAnswers) (className : String) (msg : Option String) (t : Thread) :
    ExceptionResult × Thread :=
  (.int (t.throwException answers className msg).1, (t.throwException answers className msg).2)

/-- What a call does to what can be seen, and what it returns. -/
def spec (t : Thread) : ExceptionCall → ExceptionResult × Thread
  | throwException answers className msg => throwing answers className msg t
  | throwExceptionFmt answers className message _ =>
      throwing answers className (some (textOf ((message.take 511).takeWhile (· ≠ 0)))) t
  | throwNullPointerException answers msg =>
      throwing answers "java/lang/NullPointerException" msg t
  | throwRuntimeException answers msg => throwing answers "java/lang/RuntimeException" msg t
  | throwIOException answers strError errnum buffer =>
      throwing answers "java/io/IOException"
        (some (textOf (platformStrError strError errnum buffer 80))) t
  | throwFromHeader answers => (.int (t.throwNullPointer answers).1, (t.throwNullPointer answers).2)
  | getStackTrace stackTrace summary exception =>
      (.string (t.stackTrace stackTrace summary exception),
        t.afterStackTrace stackTrace summary exception)
  | logException stackTrace summary priority tag exception =>
      (.unit, { t.afterStackTrace stackTrace summary exception with
        androidLog :=
          t.androidLog ++ [(priority, tag, t.stackTrace stackTrace summary exception)] })

/-- Where a call may happen. -/
def Allowed (t : Thread) : ExceptionCall → Prop
  | throwException answers _ _ | throwExceptionFmt answers _ _ _
  | throwNullPointerException answers _ | throwRuntimeException answers _
  | throwIOException answers _ _ _ => answers.AllowedIn t
  | throwFromHeader _ => True
  | getStackTrace stackTrace summary exception | logException stackTrace summary _ _ exception =>
      t.pending = none ∧ exception = none ∨ TraceQuiet stackTrace summary ∧
        (t.pending = none ∨ traceLeaves stackTrace summary = none)

/-- The references a call is given. -/
def refs : ExceptionCall → List Ref
  | getStackTrace _ _ exception | logException _ _ _ _ exception => exception.toList
  | throwException _ _ _ | throwExceptionFmt _ _ _ _ | throwNullPointerException _ _
  | throwRuntimeException _ _ | throwIOException _ _ _ _ | throwFromHeader _ => []

/-! ### One call -/

section call
variable (e : JniEnv)

/-- What is seen of a call of `jniThrowException`. -/
theorem observe_throwing (answers : ThrowAnswers) (className : String) (msg : Option String) :
    (.int (jniThrowException answers className msg e).1,
      (jniThrowException answers className msg e).2.observe) =
      throwing answers className msg e.observe :=
  congrArg (fun r => (ExceptionResult.int r.1, r.2)) (observe_jniThrowException answers className msg e)

/-- What is left of a formatted message. -/
theorem cStringOf_vsnprintf_512 (message msgBuf : List ModifiedUtf8.Byte) :
    cStringOf (vsnprintf msgBuf 512 message) = (message.take 511).takeWhile (· ≠ 0) := by
  unfold cStringOf vsnprintf
  rw [if_neg (by decide)]
  dsimp only
  rw [List.append_assoc, List.takeWhile_append]
  split_ifs with h
  · -- nothing but the zero byte ends the text
    have hall := (List.takeWhile_prefix (fun b => decide (b ≠ 0))).eq_of_length h
    rw [hall]
    simp
  · rfl

/-- **What is seen of a call** is what the specification says. -/
theorem observe_run (call : ExceptionCall) :
    ((run e call).1, (run e call).2.observe) = spec e.observe call := by
  cases call with
  | throwException answers className msg => exact observe_throwing e answers className msg
  | throwExceptionFmt answers className message msgBuf =>
      have h := observe_throwing e answers className
        (some (textOf (cStringOf (vsnprintf msgBuf 512 message))))
      rw [cStringOf_vsnprintf_512] at h
      refine Eq.trans ?_ h
      rw [← cStringOf_vsnprintf_512 message msgBuf]
      rfl
  | throwNullPointerException answers msg => exact observe_throwing e answers _ msg
  | throwRuntimeException answers msg => exact observe_throwing e answers _ msg
  | throwIOException answers strError errnum buffer => exact observe_throwing e answers _ _
  | throwFromHeader answers =>
      exact congrArg (fun r => (ExceptionResult.int r.1, r.2)) (observe_header e answers)
  | getStackTrace stackTrace summary exception =>
      exact congrArg (fun r => (ExceptionResult.string r.1, r.2))
        (observe_jniGetStackTrace e stackTrace summary exception)
  | logException stackTrace summary priority tag exception =>
      exact congrArg (fun r => (ExceptionResult.unit, { r.2 with
          androidLog := r.2.androidLog ++ [(priority, tag, r.1)] }))
        (observe_jniGetStackTrace e stackTrace summary exception)

/-- **When a call is clean.** -/
theorem clean_program_iff (call : ExceptionCall) :
    Clean call.program e ↔ call.Allowed e.observe := by
  cases call with
  | throwException answers className msg => exact clean_jniThrowException_iff answers className msg
  | throwExceptionFmt answers className message msgBuf =>
      exact clean_jniThrowException_iff answers className _
  | throwNullPointerException answers msg => exact clean_jniThrowException_iff answers _ msg
  | throwRuntimeException answers msg => exact clean_jniThrowException_iff answers _ msg
  | throwIOException answers strError errnum buffer =>
      exact clean_jniThrowException_iff answers _ _
  | throwFromHeader answers =>
      exact iff_of_true (NativehelperUtils.jniThrowNullPointerException_offences answers e) trivial
  | getStackTrace stackTrace summary exception =>
      exact clean_jniGetStackTrace_iff stackTrace summary exception
  | logException stackTrace summary priority tag exception =>
      -- writing to the log does no harm
      exact clean_jniGetStackTrace_iff stackTrace summary exception

theorem grows_program (call : ExceptionCall) : Grows call.program := by
  cases call with
  | throwException answers className msg => exact grows_jniThrowException answers className msg
  | throwExceptionFmt answers className message msgBuf =>
      exact grows_jniThrowException answers className _
  | throwNullPointerException answers msg => exact grows_jniThrowException answers _ msg
  | throwRuntimeException answers msg => exact grows_jniThrowException answers _ msg
  | throwIOException answers strError errnum buffer => exact grows_jniThrowException answers _ _
  | throwFromHeader answers =>
      exact fun e => Nat.le_of_eq
        (NativehelperUtils.jniThrowNullPointerException_offences answers e).symm
  | getStackTrace stackTrace summary exception =>
      exact (discreet_jniGetStackTrace stackTrace summary exception).grows
  | logException stackTrace summary priority tag exception =>
      exact (discreet_jniGetStackTrace stackTrace summary exception).grows

theorem keeps_program {refs : List Ref} (call : ExceptionCall) (h : call.refs ⊆ refs) :
    Keeps refs call.program := by
  cases call with
  | throwException answers className msg =>
      exact (keeps_jniThrowException answers className msg).bind fun _ => keeps_pure _
  | throwExceptionFmt answers className message msgBuf =>
      exact (keeps_jniThrowException answers className _).bind fun _ => keeps_pure _
  | throwNullPointerException answers msg =>
      exact (keeps_jniThrowException answers _ msg).bind fun _ => keeps_pure _
  | throwRuntimeException answers msg =>
      exact (keeps_jniThrowException answers _ msg).bind fun _ => keeps_pure _
  | throwIOException answers strError errnum buffer =>
      exact (keeps_jniThrowException answers _ _).bind fun _ => keeps_pure _
  | throwFromHeader answers =>
      exact (NativehelperUtils.keeps_jniThrowNullPointerException answers).bind fun _ => keeps_pure _
  | getStackTrace stackTrace summary exception =>
      refine (keeps_jniGetStackTrace stackTrace summary fun x hx => ?_).bind fun _ => keeps_pure _
      exact h (Option.mem_toList.mpr hx)
  | logException stackTrace summary priority tag exception =>
      refine (keeps_jniLogException stackTrace summary priority tag fun x hx => ?_).bind fun _ =>
        keeps_pure _
      exact h (Option.mem_toList.mpr hx)

end call

/-! ### Runs -/

section runs
open Refinement
variable (e : JniEnv) (calls : List ExceptionCall)

/-- Between them the calls give back what they obtain. -/
theorem tidy_run {refs : List Ref} (hl : Live refs e) (h : ∀ call ∈ calls, call.refs ⊆ refs) :
    Tidy e (playSpec run e calls).2 := by
  induction calls generalizing e with
  | nil => exact .refl e
  | cons call calls ih =>
      have ht : Tidy e (run e call).2 :=
        keeps_program call (h call List.mem_cons_self) e hl
      exact ht.trans (ih (run e call).2 (hl.tidy ht) fun c hc => h c (List.mem_cons_of_mem _ hc))

theorem disciplined_run_iff (h : Tidy e (playSpec run e calls).2) :
    Disciplined e (playSpec run e calls).2 ↔
      EveryAction spec (fun t call => call.Allowed t) e.observe calls := by
  have hgrows : ∀ e call, JniEnv.offences e ≤ (run e call).2.offences :=
    fun e call => grows_program call e
  rw [h.disciplined_iff_offences, playSpec_measure_eq_iff hgrows,
    ← everyAction_map (f := JniEnv.observe) (fun e call => observe_run e call)]
  exact everyAction_congr (fun e call => clean_program_iff e call) e calls

/-- **Every run of the exception helpers does what can be foreseen.**  The calls return what the
specification says and leave the pending exception, the exceptions made and the log as it says.
They give back all references and characters, and use nothing that was given back.  And they call
nothing that may not be called exactly if each of them is allowed where it happens. -/
theorem exceptionHelpers_run (h : ∀ call ∈ calls, call.refs ⊆ e.locals) :
    ((playSpec run e calls).1, (playSpec run e calls).2.observe) =
      playSpec spec e.observe calls ∧
    ResourcesKept e (playSpec run e calls).2 ∧
    (Disciplined e (playSpec run e calls).2 ↔
      EveryAction spec (fun t call => call.Allowed t) e.observe calls) := by
  have ht := tidy_run e calls (fun _ hr => hr) h
  exact ⟨playSpec_map (fun e call => observe_run e call) e calls, ht.kept,
    disciplined_run_iff e calls ht⟩

/-- An error number that the system does not know, an exception whose message cannot be had, and a
null pointer, on a thread with the exception 10. -/
def troubledRun : List ExceptionCall :=
  [.throwIOException ioException (.posix fun _ buf _ => (22, buf)) (-7) (List.replicate 80 1),
    .logException noStringWriter messageThrows 6 "T" none,
    .throwFromHeader ⟨.value 30, .value 31⟩,
    .getStackTrace { noStringWriter with stringWriterClass := .value 1, utfChars := .value "at f" }
      messageThrows (some ⟨0, 10⟩)]

theorem exceptionHelpers_run_troubled :
    playSpec spec quietEnv.observe troubledRun =
      ([.int 0, .unit, .int 0, .string "at f"],
        ⟨some 31, [⟨21, 20, some "errno -7"⟩, ⟨31, 30, none⟩], [(6, "T", "E")]⟩) ∧
    ResourcesKept quietEnv (playSpec run quietEnv troubledRun).2 := by
  refine ⟨by decide +kernel, (exceptionHelpers_run quietEnv troubledRun ?_).2.1⟩
  decide

end runs

end ExceptionCall

end NativeHelper
