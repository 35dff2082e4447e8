import NativeHelper.PendingDiscipline

/-! # A logic for the discipline of pending exceptions

A program is clean in a state if it calls nothing that it may not (`Clean`).  What was called is not
taken back (`Grows`), so two programs in a row are clean exactly if the first is clean and the second
is clean in the state after it (`clean_bind_iff`).  With one fact for each function, which says what
it calls (`Calls`), the rules decide step by step whether a helper is clean.

A program that looks at an exception is `Discreet`: it also logs nothing and makes no exception. -/

namespace NativeHelper

variable {α β : Type}

/-- No call that the program makes is an offence. -/
def Clean (p : JniM α) (e : JniEnv) : Prop := (p e).2.offences = e.offences

/-- The program does not take offences back. -/
def Grows (p : JniM α) : Prop := ∀ e, e.offences ≤ (p e).2.offences

/-- The program is one call of a function. -/
def Calls (function : JniFunction) (p : JniM α) : Prop :=
  ∀ e, (p e).2.offences = e.offences + e.offence function

/-- The program calls nothing that may not be called. -/
def Harmless (p : JniM α) : Prop := ∀ e, (p e).2.offences = e.offences

/-! ### The rules -/

section rules
variable {p : JniM α} {f : α → JniM β} {e : JniEnv} {function : JniFunction}

theorem offence_eq_zero_iff (hf : function.allowedWhilePending = false) :
    e.offence function = 0 ↔ e.pending = none := by
  unfold JniEnv.offence
  rw [hf]
  cases e.pending <;> simp

theorem Calls.grows (hp : Calls function p) : Grows p := fun e => by
  rw [hp e]
  exact Nat.le_add_right _ _

theorem Calls.clean_iff (hp : Calls function p) (hf : function.allowedWhilePending = false) :
    Clean p e ↔ e.pending = none := by
  unfold Clean
  rw [hp e, Nat.add_eq_left, offence_eq_zero_iff hf]

theorem Harmless.grows (hp : Harmless p) : Grows p := fun e => Nat.le_of_eq (hp e).symm

theorem Harmless.clean (hp : Harmless p) : Clean p e := hp e

theorem grows_pure (a : α) : Grows (pure a : JniM α) := fun _ => Nat.le_refl _

theorem Grows.bind (hp : Grows p) (hf : ∀ a, Grows (f a)) : Grows (p >>= f) := fun e =>
  Nat.le_trans (hp e) (hf (p e).1 (p e).2)

theorem Grows.scope (hp : Grows p) (r : Option Ref) : Grows (scopedLocalRef r p) := fun e => by
  rw [scopedLocalRef_offences]
  exact hp e

theorem scopedLocalRef_none (p : JniM α) : scopedLocalRef none p = p := rfl

theorem clean_pure (a : α) : Clean (pure a : JniM α) e := rfl

theorem clean_scope_iff (r : Option Ref) : Clean (scopedLocalRef r p) e ↔ Clean p e := by
  unfold Clean
  rw [scopedLocalRef_offences]

/-- **The rule for two programs in a row.** -/
theorem clean_bind_iff (hp : Grows p) (hf : ∀ a, Grows (f a)) :
    Clean (p >>= f) e ↔ Clean p e ∧ Clean (f (p e).1) (p e).2 := by
  have h₁ := hp e
  have h₂ := hf (p e).1 (p e).2
  unfold Clean
  rw [JniM.bind_apply]
  constructor
  · intro h
    exact ⟨by omega, by omega⟩
  · rintro ⟨h, h'⟩
    rw [h', h]

/-- A call that is not allowed while something is pending, and what follows it. -/
theorem Calls.clean_bind_iff (hp : Calls function p) (hallowed : function.allowedWhilePending = false)
    (hf : ∀ a, Grows (f a)) :
    Clean (p >>= f) e ↔ e.pending = none ∧ Clean (f (p e).1) (p e).2 := by
  rw [NativeHelper.clean_bind_iff hp.grows hf, hp.clean_iff hallowed]

/-- A call with nothing pending. -/
theorem Calls.clean_bind_of_none (hp : Calls function p) (h : e.pending = none) :
    Clean (p >>= f) e ↔ Clean (f (p e).1) (p e).2 := by
  unfold Clean
  rw [JniM.bind_apply, hp e, offence_of_none e function h, Nat.add_zero]

theorem Harmless.clean_bind_iff (hp : Harmless p) :
    Clean (p >>= f) e ↔ Clean (f (p e).1) (p e).2 := by
  unfold Clean
  rw [JniM.bind_apply, hp e]

end rules

/-! ### The functions -/

section functions
variable (answer : Answer JavaObject)

theorem calls_findClass (name : String) : Calls (.findClass name) (findClass answer name) :=
  fun e => callForRef_offences e _ _ answer

theorem calls_newObject (clazz : Ref) (method : Option MethodId) (args : List Ref) :
    Calls (.newObject method) (newObject answer clazz method args) :=
  fun e => callForRef_offences e _ _ answer

@[simp] theorem newObject_value_fst (object : JavaObject) (clazz : Ref) (method : Option MethodId)
    (args : List Ref) (e : JniEnv) :
    (newObject (.value object) clazz method args e).1 = some ⟨e.nextRef, object⟩ := rfl

@[simp] theorem newObject_value_pending (object : JavaObject) (clazz : Ref)
    (method : Option MethodId) (args : List Ref) (e : JniEnv) :
    (newObject (.value object) clazz method args e).2.pending = e.pending := rfl

@[simp] theorem findClass_value_fst (object : JavaObject) (name : String) (e : JniEnv) :
    (findClass (.value object) name e).1 = some ⟨e.nextRef, object⟩ := rfl

@[simp] theorem findClass_value_pending (object : JavaObject) (name : String) (e : JniEnv) :
    (findClass (.value object) name e).2.pending = e.pending := rfl

theorem calls_callObjectMethod (object : Ref) (method : Option MethodId) :
    Calls (.callObjectMethod method) (callObjectMethod answer object method) :=
  fun e => callForRef_offences e _ _ answer

theorem calls_getObjectClass (clazz : JavaObject) (object : Ref) :
    Calls .getObjectClass (getObjectClass clazz object) :=
  fun e => getObjectClass_offences e clazz object

theorem calls_getMethodID (answer : Answer Unit) (clazz : Ref) (name sig : String) :
    Calls (.getMethodID name sig) (getMethodID answer clazz name sig) :=
  fun e => getMethodID_offences e answer clazz name sig

theorem calls_getStringUTFChars (answer : Answer String) (string : Ref) :
    Calls .getStringUTFChars (getStringUTFChars answer string) :=
  fun e => getStringUTFChars_offences e answer string

theorem calls_callVoidMethod (thrown : Option JavaObject) (object : Ref)
    (method : Option MethodId) (args : List Ref) :
    Calls (.callVoidMethod method) (callVoidMethod thrown object method args) := fun e => by
  have h := jniCall_offences e (.callVoidMethod method) (object :: args) []
  cases thrown <;> exact h

theorem calls_throwRef (exception : Ref) : Calls .throw (throwRef exception) :=
  fun e => jniCall_offences e .throw [exception] []

theorem calls_throwNew (clazz : Ref) (message : Option String) :
    Calls (.throwNew message) (throwNew answer clazz message) :=
  fun e => throwNew_offences e answer clazz message

theorem harmless_exceptionCheck : Harmless exceptionCheck := exceptionCheck_offences

theorem harmless_exceptionClear : Harmless exceptionClear := exceptionClear_offences

theorem harmless_exceptionOccurred : Harmless exceptionOccurred := exceptionOccurred_offences

theorem harmless_readUtfChars (utf : UtfChars) : Harmless (readUtfChars utf) :=
  fun e => readUtfChars_offences e utf

theorem harmless_releaseStringUTFChars (string : Ref) (utf : UtfChars) :
    Harmless (releaseStringUTFChars string utf) :=
  fun e => releaseStringUTFChars_offences e string utf

theorem harmless_androidLogWrite (priority : ℤ) (tag text : String) :
    Harmless (androidLogWrite priority tag text) :=
  fun e => androidLogWrite_offences e priority tag text

end functions

/-! ### Looking at an exception -/

/-- Nothing was logged, no exception was made and no offence taken back. -/
structure Unseen (e e' : JniEnv) : Prop where
  offences : e.offences ≤ e'.offences
  androidLog : e'.androidLog = e.androidLog
  throwables : e'.throwables = e.throwables

def Discreet (p : JniM α) : Prop := ∀ e, Unseen e (p e).2

section discreet
variable {p : JniM α} {f : α → JniM β}

theorem Unseen.trans {e e₁ e₂ : JniEnv} (h₁ : Unseen e e₁) (h₂ : Unseen e₁ e₂) : Unseen e e₂ :=
  ⟨Nat.le_trans h₁.offences h₂.offences, h₂.androidLog.trans h₁.androidLog,
    h₂.throwables.trans h₁.throwables⟩

theorem Discreet.grows (hp : Discreet p) : Grows p := fun e => (hp e).offences

theorem discreet_pure (a : α) : Discreet (pure a : JniM α) := fun _ => ⟨Nat.le_refl _, rfl, rfl⟩

theorem Discreet.bind (hp : Discreet p) (hf : ∀ a, Discreet (f a)) : Discreet (p >>= f) :=
  fun e => (hp e).trans (hf (p e).1 (p e).2)

theorem Discreet.scope (hp : Discreet p) (r : Option Ref) : Discreet (scopedLocalRef r p) := by
  intro e
  refine ⟨hp.grows.scope r e, ?_, ?_⟩
  · cases r <;> exact (hp e).androidLog
  · rw [scopedLocalRef_throwables]
    exact (hp e).throwables

theorem discreet_callForRef (function : JniFunction) (refs : List Ref)
    (answer : Answer JavaObject) : Discreet (callForRef function refs answer) := by
  intro e
  refine ⟨?_, ?_, callForRef_throwables e function refs answer⟩
  · rw [callForRef_offences]
    exact Nat.le_add_right _ _
  · rcases answer with _ | _ | _ <;> rfl

theorem discreet_getObjectClass (clazz : JavaObject) (object : Ref) :
    Discreet (getObjectClass clazz object) :=
  fun e => ⟨(calls_getObjectClass clazz object).grows e, rfl, rfl⟩

theorem discreet_getMethodID (answer : Answer Unit) (clazz : Ref) (name sig : String) :
    Discreet (getMethodID answer clazz name sig) := fun e => by
  refine ⟨(calls_getMethodID answer clazz name sig).grows e, ?_,
    getMethodID_throwables e answer clazz name sig⟩
  rcases answer with _ | _ | _ <;> rfl

theorem discreet_getStringUTFChars (answer : Answer String) (string : Ref) :
    Discreet (getStringUTFChars answer string) := fun e => by
  refine ⟨(calls_getStringUTFChars answer string).grows e, ?_,
    getStringUTFChars_throwables e answer string⟩
  rcases answer with _ | _ | _ <;> rfl

theorem discreet_callVoidMethod (thrown : Option JavaObject) (object : Ref)
    (method : Option MethodId) (args : List Ref) :
    Discreet (callVoidMethod thrown object method args) := fun e => by
  refine ⟨(calls_callVoidMethod thrown object method args).grows e, ?_, ?_⟩ <;>
    cases thrown <;> rfl

theorem discreet_throwRef (exception : Ref) : Discreet (throwRef exception) :=
  fun e => ⟨(calls_throwRef exception).grows e, rfl, rfl⟩

theorem discreet_exceptionCheck : Discreet exceptionCheck :=
  fun e => ⟨harmless_exceptionCheck.grows e, rfl, rfl⟩

theorem discreet_exceptionClear : Discreet exceptionClear :=
  fun e => ⟨harmless_exceptionClear.grows e, rfl, rfl⟩

theorem discreet_exceptionOccurred : Discreet exceptionOccurred := fun e => by
  refine ⟨harmless_exceptionOccurred.grows e, ?_, exceptionOccurred_throwables e⟩
  obtain ⟨_ | object⟩ := e <;> rfl

theorem discreet_readUtfChars (utf : UtfChars) : Discreet (readUtfChars utf) :=
  fun e => ⟨(harmless_readUtfChars utf).grows e, rfl, rfl⟩

theorem discreet_releaseStringUTFChars (string : Ref) (utf : UtfChars) :
    Discreet (releaseStringUTFChars string utf) :=
  fun e => ⟨(harmless_releaseStringUTFChars string utf).grows e, rfl, rfl⟩

end discreet

end NativeHelper
