import NativeHelper.TypeTraits

/-! # The shapes of native methods

What `isValidJniFunctionType` accepts, in the words of the JNI specification: the implementation of
a normal or a fast native takes the environment, the receiver and then primitives and references
(`FunctionType.InstanceShape`), that of a critical native takes and returns primitives only
(`FunctionType.CriticalShape`).

`parameter_table` is the check of one parameter in these words.  The recursion over the arguments
turns a position into an allowed position, which is the head, the second or some later argument
(`isValidJniFunctionType_shapes`). -/

namespace NativeHelper

/-! ### Primitives and references -/

/-- The JNI primitive types. -/
def primitiveTypes : List CppType :=
  [.jboolean, .jbyte, .jchar, .jshort, .jint, .jlong, .jfloat, .jdouble]

/-- The JNI reference types. -/
def referenceTypes : List CppType :=
  [.jobject, .jclass, .jstring, .jarray, .jobjectArray,
   .jbooleanArray, .jbyteArray, .jcharArray, .jshortArray, .jintArray, .jlongArray,
   .jfloatArray, .jdoubleArray,
   .jthrowable]

namespace CppType

def IsPrimitive (T : CppType) : Prop := T ∈ primitiveTypes

def IsReference (T : CppType) : Prop := T ∈ referenceTypes

instance (T : CppType) : Decidable T.IsPrimitive := inferInstanceAs (Decidable (_ ∈ _))

instance (T : CppType) : Decidable T.IsReference := inferInstanceAs (Decidable (_ ∈ _))

end CppType

namespace FunctionType

/-- `JNIEnv*`, a `jobject` or a `jclass`, and then primitives and references. -/
def InstanceArgs : List CppType → Prop
  | env :: receiver :: args =>
      env = .jniEnvPtr ∧ (receiver = .jobject ∨ receiver = .jclass) ∧
        ∀ T ∈ args, T.IsPrimitive ∨ T.IsReference
  | _ => False

instance : (args : List CppType) → Decidable (InstanceArgs args)
  | [] | [_] => .isFalse id
  | _ :: _ :: args => inferInstanceAs (Decidable (_ ∧ _ ∧ ∀ T ∈ args, _))

/-- `R(JNIEnv*, jobject, Args...)` or `R(JNIEnv*, jclass, Args...)` over primitives and
references, where `R` may be `void`. -/
def InstanceShape (F : FunctionType) : Prop :=
  (F.ret.type = .void ∨ F.ret.type.IsPrimitive ∨ F.ret.type.IsReference) ∧ InstanceArgs F.args

/-- `R(Args...)` over primitives, where `R` may be `void`. -/
def CriticalShape (F : FunctionType) : Prop :=
  (F.ret.type = .void ∨ F.ret.type.IsPrimitive) ∧ ∀ T ∈ F.args, T.IsPrimitive

instance (F : FunctionType) : Decidable F.CriticalShape :=
  inferInstanceAs (Decidable (_ ∧ ∀ T ∈ F.args, _))

instance (F : FunctionType) : Decidable F.InstanceShape := inferInstanceAs (Decidable (_ ∧ _))

end FunctionType

/-! ### One parameter -/

/-- The types that may stand in a position of a normal or a fast native. -/
def AllowedIn : NativePositionAllowed → CppType → Prop
  | .kNotAnyPosition, _ => False
  | .kZerothPosition, T => T = .jniEnvPtr
  | .kFirstOrLaterPosition, T => T = .jobject ∨ T = .jclass
  | .kSecondOrLaterPosition, T => T.IsPrimitive ∨ T.IsReference
  | .kReturnPosition, T => T = .void ∨ T.IsPrimitive ∨ T.IsReference

instance (T : CppType) : (position : NativePositionAllowed) → Decidable (AllowedIn position T)
  | .kNotAnyPosition => .isFalse id
  | .kZerothPosition => inferInstanceAs (Decidable (T = _))
  | .kFirstOrLaterPosition | .kSecondOrLaterPosition | .kReturnPosition =>
      inferInstanceAs (Decidable (_ ∨ _))

/-- The types that may stand in a position of a method of the kind. -/
def AllowedAt (nativeKind : NativeKind) (position : NativePositionAllowed) (T : CppType) : Prop :=
  if nativeKind = .kCriticalNative then T = .void ∨ T.IsPrimitive else AllowedIn position T

instance (nativeKind : NativeKind) (position : NativePositionAllowed) (T : CppType) :
    Decidable (AllowedAt nativeKind position T) :=
  inferInstanceAs (Decidable
    (if nativeKind = .kCriticalNative then T = .void ∨ T.IsPrimitive else AllowedIn position T))

/-- The positions a parameter is checked in. -/
def checkedPositions : List NativePositionAllowed :=
  [.kZerothPosition, .kFirstOrLaterPosition, .kSecondOrLaterPosition, .kReturnPosition]

/-- The kinds of native methods. -/
def methodKinds : List NativeKind := [.kNormalNative, .kFastNative, .kCriticalNative]

/-- The rows of the table, and a type without one. -/
theorem parameter_rows : ∀ nativeKind ∈ methodKinds, ∀ position ∈ checkedPositions,
    ∀ T ∈ CppType.other 0 :: jniTypes,
      (isValidJniParameter .fatal T.plain nativeKind position = .ok true ↔
        AllowedAt nativeKind position T) := by
  decide +kernel

section parameter
variable (cfg : BuildConfig) {nativeKind : NativeKind} {position : NativePositionAllowed}

/-- The check of a parameter never gets to a failing assertion, so it does not depend on the
configuration. -/
theorem isValidJniParameter_fatal (T : QualType) :
    isValidJniParameter cfg T nativeKind position =
      isValidJniParameter .fatal T nativeKind position := by
  unfold isValidJniParameter
  by_cases h : (jniTypeTrait T.removeCv).nativeKind = .kNotJni
  · rw [if_pos h, if_pos h]
  · have hp : (jniTypeTrait T.removeCv).positionAllowed ≠ .kNotAnyPosition := positionAllowed_ne h
    have e : isValidJniParameterPosition cfg nativeKind position
        (jniTypeTrait T.removeCv).positionAllowed =
        isValidJniParameterPosition .fatal nativeKind position
          (jniTypeTrait T.removeCv).positionAllowed := by
      unfold isValidJniParameterPosition
      simp only [ne_eq, hp, not_false_eq_true, decide_true, xAssert_true]
    simp only [if_neg h, e]

/-- **One parameter**, of a type with a row or without one. -/
theorem isValidJniParameter_iff (hk : nativeKind ∈ methodKinds) (hp : position ∈ checkedPositions)
    (T : QualType) :
    isValidJniParameter cfg T nativeKind position = .ok true ↔
      AllowedAt nativeKind position T.type := by
  have e : isValidJniParameter .fatal T nativeKind position =
      isValidJniParameter .fatal T.type.plain nativeKind position := rfl
  rw [isValidJniParameter_fatal, e]
  cases hT : T.type with
  | other n =>
      have h0 := parameter_rows nativeKind hk position hp (.other 0) List.mem_cons_self
      have e' : isValidJniParameter .fatal (CppType.other n).plain nativeKind position =
          isValidJniParameter .fatal (CppType.other 0).plain nativeKind position := rfl
      rw [e', h0]
      unfold AllowedAt
      cases position <;> simp [AllowedIn, CppType.IsPrimitive, CppType.IsReference, primitiveTypes,
        referenceTypes]
  | _ => exact parameter_rows nativeKind hk position hp _ (by decide)

end parameter

/-! ### All of them -/

section shapes
variable (cfg : BuildConfig)

/-- An evaluation that returns gives the truth value of what its success means. -/
theorem eval_eq_decide {x : Eval Bool} {P : Prop} [Decidable P] (hx : ∃ b, x = .ok b)
    (h : x = .ok true ↔ P) : x = .ok (decide P) := by
  obtain ⟨b, rfl⟩ := hx
  by_cases hP : P
  · rw [h.mpr hP, decide_eq_true hP]
  · cases b with
    | true => exact absurd (h.mp rfl) hP
    | false => rw [decide_eq_false hP]

theorem isValidJniArgumentType_returns (nativeKind : NativeKind) (position : ℕ)
    (args : List CppType) :
    ∃ b, isValidJniArgumentType cfg nativeKind position args = .ok b := by
  induction args generalizing position with
  | nil => exact ⟨true, rfl⟩
  | cons T args ih =>
      obtain ⟨b, hb⟩ :=
        isValidJniParameter_returns cfg nativeKind T.plain (convertPositionToAllowed position)
      cases args with
      | nil => exact ⟨b, hb⟩
      | cons T' args =>
          obtain ⟨b', hb'⟩ := ih (position + 1)
          simp only [isValidJniArgumentType, hb, hb', eval_bind_ok]
          cases b <;> exact ⟨_, rfl⟩

/-- For a kind of native methods the validity check returns. -/
theorem isValidJniFunctionType_returns {nativeKind : NativeKind} (hk : nativeKind ∈ methodKinds)
    (F : FunctionType) : ∃ b, isValidJniFunctionType cfg nativeKind F = .ok b := by
  have hc : ∃ b, isJniParameterCountValid cfg nativeKind F.args.length = .ok b := by
    simp only [methodKinds, List.mem_cons, List.not_mem_nil, or_false] at hk
    rcases hk with rfl | rfl | rfl <;> exact ⟨_, rfl⟩
  obtain ⟨c, hc⟩ := hc
  obtain ⟨r, hr⟩ := isValidJniParameter_returns cfg nativeKind F.ret .kReturnPosition
  obtain ⟨a, ha⟩ := isValidJniArgumentType_returns cfg nativeKind 0 F.args
  simp only [isValidJniFunctionType, hc, hr, ha, eval_bind_ok]
  cases c <;> cases r <;> exact ⟨_, rfl⟩

/-- The argument at a position is checked against one of the four allowed positions. -/
theorem convertPositionToAllowed_mem (i : ℕ) : convertPositionToAllowed i ∈ checkedPositions := by
  match i with
  | 0 => decide
  | 1 => decide
  | i + 2 =>
      have e : convertPositionToAllowed (i + 2) = .kSecondOrLaterPosition := rfl
      rw [e]
      decide

/-- Validity, one parameter at a time. -/
theorem isValidJniFunctionType_iff_allowed {nativeKind : NativeKind} (hk : nativeKind ∈ methodKinds)
    (F : FunctionType) :
    isValidJniFunctionType cfg nativeKind F = .ok true ↔
      isJniParameterCountValid cfg nativeKind F.args.length = .ok true ∧
      AllowedAt nativeKind .kReturnPosition F.ret.type ∧
      ∀ i T, F.args[i]? = some T → AllowedAt nativeKind (convertPositionToAllowed i) T := by
  rw [isValidJniFunctionType_iff, isValidJniParameter_iff cfg hk (by decide)]
  simp only [isValidJniParameter_iff cfg hk (convertPositionToAllowed_mem _)]
  rfl

/-- The head, the second and every later argument of a normal or a fast native. -/
theorem instanceShape_iff {nativeKind : NativeKind}
    (hk : nativeKind = .kNormalNative ∨ nativeKind = .kFastNative) (F : FunctionType) :
    isValidJniFunctionType cfg nativeKind F = .ok true ↔ F.InstanceShape := by
  have hm : nativeKind ∈ methodKinds := by rcases hk with rfl | rfl <;> decide
  have hn : nativeKind ≠ .kCriticalNative := by rcases hk with rfl | rfl <;> decide
  have hcount : isJniParameterCountValid cfg nativeKind F.args.length =
      .ok (decide (2 ≤ F.args.length)) := if_pos hk
  have allowed : ∀ position T, AllowedAt nativeKind position T = AllowedIn position T :=
    fun _ _ => if_neg hn
  rw [isValidJniFunctionType_iff_allowed cfg hm, hcount]
  simp only [allowed]
  unfold FunctionType.InstanceShape
  rcases F.args with _ | ⟨env, _ | ⟨receiver, args⟩⟩
  · simp [FunctionType.InstanceArgs]
  · simp [FunctionType.InstanceArgs]
  · constructor
    · rintro ⟨_, hret, hargs⟩
      refine ⟨hret, hargs 0 env rfl, hargs 1 receiver rfl, ?_⟩
      intro T hT
      obtain ⟨i, hi⟩ := List.getElem?_of_mem hT
      exact hargs (i + 2) T hi
    · rintro ⟨hret, henv, hrec, hargs⟩
      refine ⟨by simp, hret, ?_⟩
      intro i T hi
      match i with
      | 0 =>
          obtain rfl : env = T := Option.some.inj hi
          exact henv
      | 1 =>
          obtain rfl : receiver = T := Option.some.inj hi
          exact hrec
      | i + 2 => exact hargs T (List.mem_of_getElem? hi)

/-- The positions do not matter for a critical native. -/
theorem criticalShape_iff (F : FunctionType) :
    isValidJniFunctionType cfg .kCriticalNative F = .ok true ↔ F.CriticalShape := by
  have hcount : isJniParameterCountValid cfg .kCriticalNative F.args.length = .ok true := rfl
  rw [isValidJniFunctionType_iff_allowed cfg (by decide), hcount]
  constructor
  · rintro ⟨_, hret, hargs⟩
    refine ⟨hret, ?_⟩
    intro T hT
    obtain ⟨i, hi⟩ := List.getElem?_of_mem hT
    apply (hargs i T hi).resolve_left
    rintro rfl
    exact F.void_notMem hT
  · rintro ⟨hret, hargs⟩
    refine ⟨rfl, hret, ?_⟩
    intro i T hi
    exact .inr (hargs T (List.mem_of_getElem? hi))

theorem FunctionType.CriticalShape.not_instanceShape {F : FunctionType} (h : F.CriticalShape) :
    ¬ F.InstanceShape := by
  rintro ⟨_, hargs⟩
  obtain ⟨_, hprim⟩ := h
  rcases hF : F.args with _ | ⟨env, _ | ⟨receiver, args⟩⟩
  all_goals rw [hF] at hargs
  · exact hargs
  · exact hargs
  · obtain ⟨rfl, _⟩ := hargs
    have := hprim .jniEnvPtr (by rw [hF]; exact List.mem_cons_self)
    exact absurd this (by decide)

/-- The shape a valid function type has, by its kind. -/
def FunctionType.ValidShape (F : FunctionType) : NativeKind → Prop
  | .kNotJni | .kNormalJniCallingConventionParameter => False
  | .kNormalNative | .kFastNative => F.InstanceShape
  | .kCriticalNative => F.CriticalShape

instance (F : FunctionType) : (nativeKind : NativeKind) → Decidable (F.ValidShape nativeKind)
  | .kNotJni | .kNormalJniCallingConventionParameter => .isFalse id
  | .kNormalNative | .kFastNative => inferInstanceAs (Decidable F.InstanceShape)
  | .kCriticalNative => inferInstanceAs (Decidable F.CriticalShape)

/-- The validity check of a kind of native methods. -/
theorem isValidJniFunctionType_eq {nativeKind : NativeKind} (hk : nativeKind.IsMethod)
    (F : FunctionType) :
    isValidJniFunctionType cfg nativeKind F = .ok (decide (F.ValidShape nativeKind)) := by
  have hm : nativeKind ∈ methodKinds := by
    cases nativeKind <;> first | exact absurd hk (by decide) | decide
  apply eval_eq_decide (isValidJniFunctionType_returns cfg hm F)
  cases nativeKind with
  | kNotJni | kNormalJniCallingConventionParameter => exact absurd hk (by decide)
  | kNormalNative => exact instanceShape_iff cfg (.inl rfl) F
  | kFastNative => exact instanceShape_iff cfg (.inr rfl) F
  | kCriticalNative => exact criticalShape_iff cfg F

/-- Only the kinds of native methods have valid function types. -/
theorem isMethod_of_isValidJniFunctionType {nativeKind : NativeKind} {F : FunctionType}
    (h : isValidJniFunctionType cfg nativeKind F = .ok true) : nativeKind.IsMethod := by
  have hc := (isValidJniFunctionType_iff.mp h).1
  by_contra hk
  unfold isJniParameterCountValid at hc
  cases nativeKind with
  | kNotJni | kNormalJniCallingConventionParameter =>
      obtain ⟨_, _, hc⟩ := eval_bind_eq_ok.mp hc
      cases hc
  | kNormalNative | kFastNative | kCriticalNative => exact hk (by decide)

/-- Other kinds stop the check. -/
theorem isValidJniFunctionType_not_isMethod {cfg : BuildConfig} (h : cfg.disableAsserts = false)
    {nativeKind : NativeKind} (hk : ¬ nativeKind.IsMethod) (F : FunctionType) :
    isValidJniFunctionType cfg nativeKind F = .error .assertion := by
  have hc : isJniParameterCountValid cfg nativeKind F.args.length = .error .assertion := by
    cases nativeKind with
    | kNotJni | kNormalJniCallingConventionParameter =>
        simp [isJniParameterCountValid, xAssert, h]
    | kNormalNative | kFastNative | kCriticalNative => exact absurd (by decide) hk
  rw [isValidJniFunctionType, hc, eval_bind_error]

end shapes

/-- **The documented shapes**, for function types of any length over any types: the check returns
whether the function type has the shape of its kind, so none is valid both as a critical and as
a normal or fast native. -/
theorem isValidJniFunctionType_shapes (cfg : BuildConfig) (F : FunctionType) :
    isValidJniFunctionType cfg .kNormalNative F = .ok (decide F.InstanceShape) ∧
    isValidJniFunctionType cfg .kFastNative F = .ok (decide F.InstanceShape) ∧
    isValidJniFunctionType cfg .kCriticalNative F = .ok (decide F.CriticalShape) ∧
    ¬ (isValidJniFunctionType cfg .kCriticalNative F = .ok true ∧
      (isValidJniFunctionType cfg .kNormalNative F = .ok true ∨
        isValidJniFunctionType cfg .kFastNative F = .ok true)) := by
  refine ⟨?_, ?_, ?_, ?_⟩
  · exact isValidJniFunctionType_eq cfg (by decide) F
  · exact isValidJniFunctionType_eq cfg (by decide) F
  · exact isValidJniFunctionType_eq cfg (by decide) F
  · rintro ⟨h, h'⟩
    rw [instanceShape_iff cfg (.inl rfl), instanceShape_iff cfg (.inr rfl), or_self] at h'
    exact ((criticalShape_iff cfg F).mp h).not_instanceShape h'

end NativeHelper
