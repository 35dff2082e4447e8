import NativeHelper.Constexpr

/-! # JNI types and the validity of function types

The table `DEFINE_JNI_TYPE_TRAIT` of `signature_checker.h` and the check that a C++ function
type can be registered as a native method of a given kind.

`CppType` has a constructor for every type with a row in the table and `other` for the types
without one; `QualType` adds the qualifiers.  A row belongs to the unqualified type only, so
`jniTypeTrait` of a qualified type is the primary template, whose kind is `kNotJni`. -/

namespace NativeHelper

/-! ### Kinds, finality, positions -/

/-- What kind of JNI a type or a method belongs to. -/
inductive NativeKind where
  | kNotJni
  | kNormalJniCallingConventionParameter
  | kNormalNative
  | kFastNative
  | kCriticalNative
deriving DecidableEq, Repr

/-- The value of the enumerator, which `>=` compares. -/
def NativeKind.value : NativeKind → ℕ
  | .kNotJni => 0
  | .kNormalJniCallingConventionParameter => 1
  | .kNormalNative => 2
  | .kFastNative => 3
  | .kCriticalNative => 4

/-- The kinds a method can be registered with: normal, fast and critical. -/
def NativeKind.IsMethod (k : NativeKind) : Prop := NativeKind.kNormalNative.value ≤ k.value

instance (k : NativeKind) : Decidable k.IsMethod := inferInstanceAs (Decidable (_ ≤ _))

inductive TypeFinal where
  | kNotFinal
  | kFinal
deriving DecidableEq, Repr

inductive NativePositionAllowed where
  | kNotAnyPosition
  | kReturnPosition
  | kZerothPosition
  | kFirstOrLaterPosition
  | kSecondOrLaterPosition
deriving DecidableEq, Repr

def convertPositionToAllowed : ℕ → NativePositionAllowed
  | 0 => .kZerothPosition
  | 1 => .kFirstOrLaterPosition
  | _ => .kSecondOrLaterPosition

/-! ### C++ types -/

/-- The types with a row in the table, in the order of the table, and all other types. -/
inductive CppType where
  | jboolean | jbyte | jchar | jshort | jint | jlong | jfloat | jdouble
  | jobject | jclass | jstring | jarray | jobjectArray
  | jbooleanArray | jbyteArray | jcharArray | jshortArray | jintArray | jlongArray
  | jfloatArray | jdoubleArray
  | jthrowable
  | jniEnvPtr
  | void
  | other (n : ℕ)
deriving DecidableEq, Repr

/-- A type with its `const` and `volatile`. -/
structure QualType where
  type : CppType
  isConst : Bool
  isVolatile : Bool
deriving DecidableEq, Repr

namespace QualType

/-- `std::remove_cv`. -/
def removeCv (T : QualType) : QualType := { T with isConst := false, isVolatile := false }

/-- No qualifiers. -/
def Unqualified (T : QualType) : Prop := T.isConst = false ∧ T.isVolatile = false

instance (T : QualType) : Decidable T.Unqualified := inferInstanceAs (Decidable (_ ∧ _))

theorem ext_of_unqualified {T U : QualType} (hT : T.Unqualified) (hU : U.Unqualified)
    (h : T.type = U.type) : T = U := by
  obtain ⟨t, c, v⟩ := T
  obtain ⟨u, c', v'⟩ := U
  obtain ⟨rfl, rfl⟩ := hT
  obtain ⟨rfl, rfl⟩ := hU
  obtain rfl : t = u := h
  rfl

theorem removeCv_unqualified (T : QualType) : T.removeCv.Unqualified := ⟨rfl, rfl⟩

end QualType

/-- A type without qualifiers. -/
def CppType.plain (T : CppType) : QualType := ⟨T, false, false⟩

@[simp] theorem CppType.plain_removeCv (T : CppType) : T.plain.removeCv = T.plain := rfl

/-- A C++ function type `R(Args...)`.  The language drops the qualifiers of parameters and
reads a lone `void` as no parameter. -/
structure FunctionType where
  ret : QualType
  args : List CppType
  void_notMem : CppType.void ∉ args

namespace FunctionType

/-- `FunctionTypeMetafunction::count`: the arguments and the return type. -/
def count (F : FunctionType) : ℕ := F.args.length + 1

/-- The function type without qualifiers. -/
def removeCv (F : FunctionType) : FunctionType := { F with ret := F.ret.removeCv }

end FunctionType

/-! ### The table -/

/-- `ReifiedJniTypeTrait`, and what `Reify` returns. -/
structure ReifiedJniTypeTrait where
  nativeKind : NativeKind
  typeDescriptor : StringView
  positionAllowed : NativePositionAllowed
  typeFinality : TypeFinal
  typeName : StringView
deriving DecidableEq, Repr

/-- A row of the table. -/
def jniTypeTraitRow (name typeDescriptor : String) (nativeKind : NativeKind)
    (typeFinality : TypeFinal) (positionAllowed : NativePositionAllowed) : ReifiedJniTypeTrait :=
  { nativeKind, typeDescriptor := typeDescriptor.toList, positionAllowed, typeFinality
    typeName := name.toList }

/-- `jni_type_trait` of an unqualified type; `other` types get the primary template. -/
def jniTypeTraitOf : CppType → ReifiedJniTypeTrait
  | .jboolean => jniTypeTraitRow "jboolean" "Z" .kCriticalNative .kFinal .kSecondOrLaterPosition
  | .jbyte => jniTypeTraitRow "jbyte" "B" .kCriticalNative .kFinal .kSecondOrLaterPosition
  | .jchar => jniTypeTraitRow "jchar" "C" .kCriticalNative .kFinal .kSecondOrLaterPosition
  | .jshort => jniTypeTraitRow "jshort" "S" .kCriticalNative .kFinal .kSecondOrLaterPosition
  | .jint => jniTypeTraitRow "jint" "I" .kCriticalNative .kFinal .kSecondOrLaterPosition
  | .jlong => jniTypeTraitRow "jlong" "J" .kCriticalNative .kFinal .kSecondOrLaterPosition
  | .jfloat => jniTypeTraitRow "jfloat" "F" .kCriticalNative .kFinal .kSecondOrLaterPosition
  | .jdouble => jniTypeTraitRow "jdouble" "D" .kCriticalNative .kFinal .kSecondOrLaterPosition
  | .jobject => jniTypeTraitRow "jobject" "Ljava/lang/Object;" .kFastNative .kNotFinal
      .kFirstOrLaterPosition
  | .jclass => jniTypeTraitRow "jclass" "Ljava/lang/Class;" .kFastNative .kFinal
      .kFirstOrLaterPosition
  | .jstring => jniTypeTraitRow "jstring" "Ljava/lang/String;" .kFastNative .kFinal
      .kSecondOrLaterPosition
  | .jarray => jniTypeTraitRow "jarray" "Ljava/lang/Object;" .kFastNative .kNotFinal
      .kSecondOrLaterPosition
  | .jobjectArray => jniTypeTraitRow "jobjectArray" "[Ljava/lang/Object;" .kFastNative .kNotFinal
      .kSecondOrLaterPosition
  | .jbooleanArray => jniTypeTraitRow "jbooleanArray" "[Z" .kFastNative .kFinal
      .kSecondOrLaterPosition
  | .jbyteArray => jniTypeTraitRow "jbyteArray" "[B" .kFastNative .kFinal .kSecondOrLaterPosition
  | .jcharArray => jniTypeTraitRow "jcharArray" "[C" .kFastNative .kFinal .kSecondOrLaterPosition
  | .jshortArray => jniTypeTraitRow "jshortArray" "[S" .kFastNative .kFinal .kSecondOrLaterPosition
  | .jintArray => jniTypeTraitRow "jintArray" "[I" .kFastNative .kFinal .kSecondOrLaterPosition
  | .jlongArray => jniTypeTraitRow "jlongArray" "[J" .kFastNative .kFinal .kSecondOrLaterPosition
  | .jfloatArray => jniTypeTraitRow "jfloatArray" "[F" .kFastNative .kFinal .kSecondOrLaterPosition
  | .jdoubleArray => jniTypeTraitRow "jdoubleArray" "[D" .kFastNative .kFinal
      .kSecondOrLaterPosition
  | .jthrowable => jniTypeTraitRow "jthrowable" "Ljava/lang/Throwable;" .kFastNative .kNotFinal
      .kSecondOrLaterPosition
  | .jniEnvPtr => jniTypeTraitRow "JNIEnv*" "" .kNormalJniCallingConventionParameter .kFinal
      .kZerothPosition
  | .void => jniTypeTraitRow "void" "V" .kCriticalNative .kFinal .kReturnPosition
  | .other _ => jniTypeTraitRow "(illegal)" "(illegal)" .kNotJni .kNotFinal .kNotAnyPosition

/-- `jni_type_trait<T>`: the specializations are for unqualified types only. -/
def jniTypeTrait (T : QualType) : ReifiedJniTypeTrait :=
  if T.Unqualified then jniTypeTraitOf T.type
  else jniTypeTraitRow "(illegal)" "(illegal)" .kNotJni .kNotFinal .kNotAnyPosition

/-- The rows of `DEFINE_JNI_TYPE_TRAIT`, from the first to the last. -/
def jniTypes : List CppType :=
  [.jboolean, .jbyte, .jchar, .jshort, .jint, .jlong, .jfloat, .jdouble,
   .jobject, .jclass, .jstring, .jarray, .jobjectArray,
   .jbooleanArray, .jbyteArray, .jcharArray, .jshortArray, .jintArray, .jlongArray,
   .jfloatArray, .jdoubleArray,
   .jthrowable, .jniEnvPtr, .void]

@[simp] theorem jniTypeTrait_plain (T : CppType) : jniTypeTrait T.plain = jniTypeTraitOf T := rfl

theorem jniTypeTrait_removeCv (T : QualType) : jniTypeTrait T.removeCv = jniTypeTraitOf T.type :=
  rfl

/-- A qualified type is not a JNI type. -/
theorem jniTypeTrait_qualified {T : QualType} (h : ¬ T.Unqualified) :
    (jniTypeTrait T).nativeKind = .kNotJni := by
  rw [jniTypeTrait, if_neg h]
  rfl

/-! ### Validity of a parameter -/

section validity
variable (cfg : BuildConfig)

def isValidJniParameterPosition (nativeKind : NativeKind)
    (position expectedPosition : NativePositionAllowed) : Eval Bool := do
  xAssert cfg (expectedPosition ≠ .kNotAnyPosition)
  -- critical natives have no special parameters in front
  if nativeKind = .kCriticalNative then .ok true
  else if expectedPosition = .kReturnPosition then .ok (position = .kReturnPosition)
  else if position = .kZerothPosition ∧ expectedPosition ≠ .kZerothPosition then .ok false
  else if position = .kFirstOrLaterPosition ∧ expectedPosition ≠ .kFirstOrLaterPosition then
    .ok false
  else if position = .kSecondOrLaterPosition ∨ position = .kReturnPosition then
    if expectedPosition ≠ .kFirstOrLaterPosition ∧ expectedPosition ≠ .kSecondOrLaterPosition then
      .ok false
    else .ok true
  else .ok true

/-- `IsValidJniParameter<T>`, which looks at the type without its qualifiers. -/
def isValidJniParameter (T : QualType) (nativeKind : NativeKind)
    (position : NativePositionAllowed) : Eval Bool :=
  let expectedTrait := jniTypeTrait T.removeCv
  let expectedNativeKind := expectedTrait.nativeKind
  if expectedNativeKind = .kNotJni then .ok false
  else do
    let expectedPosition := expectedTrait.positionAllowed
    if !(← isValidJniParameterPosition cfg nativeKind position expectedPosition) then .ok false
    else if expectedNativeKind = .kNormalJniCallingConventionParameter then
      if nativeKind = .kCriticalNative then .ok false else .ok true
    else if expectedNativeKind = .kCriticalNative then .ok true
    else if nativeKind = .kCriticalNative then .ok false
    else .ok true

def isJniParameterCountValid (nativeKind : NativeKind) (count : ℕ) : Eval Bool :=
  if nativeKind = .kNormalNative ∨ nativeKind = .kFastNative then .ok (2 ≤ count)
  else if nativeKind = .kCriticalNative then .ok true
  else do
    xAssert cfg false
    .ok false

/-- `is_valid_jni_argument_type<native_kind, position, Args...>`. -/
def isValidJniArgumentType (nativeKind : NativeKind) : ℕ → List CppType → Eval Bool
  | _, [] => .ok true
  | position, [T] => isValidJniParameter cfg T.plain nativeKind (convertPositionToAllowed position)
  | position, T :: T' :: args => do
      if ← isValidJniParameter cfg T.plain nativeKind (convertPositionToAllowed position) then
        isValidJniArgumentType nativeKind (position + 1) (T' :: args)
      else .ok false

/-- `IsValidJniFunctionType`. -/
def isValidJniFunctionType (nativeKind : NativeKind) (F : FunctionType) : Eval Bool := do
  if ← isJniParameterCountValid cfg nativeKind F.args.length then
    if ← isValidJniParameter cfg F.ret nativeKind .kReturnPosition then
      isValidJniArgumentType cfg nativeKind 0 F.args
    else .ok false
  else .ok false

end validity

/-! ### What validity says -/

/-- Only `JNIEnv*` has the calling-convention kind, and it has the zeroth position. -/
theorem positionAllowed_of_callingConvention {T : CppType}
    (h : (jniTypeTraitOf T).nativeKind = .kNormalJniCallingConventionParameter) :
    (jniTypeTraitOf T).positionAllowed = .kZerothPosition := by
  cases T <;> first | rfl | cases h

/-- Only the primary template has no position. -/
theorem positionAllowed_ne {T : CppType} (h : (jniTypeTraitOf T).nativeKind ≠ .kNotJni) :
    (jniTypeTraitOf T).positionAllowed ≠ .kNotAnyPosition := by
  cases T with
  | other n => exact absurd rfl h
  | _ => decide

/-- A type of a method kind is a JNI type other than `JNIEnv*`. -/
theorem NativeKind.isMethod_iff {k : NativeKind} :
    k.IsMethod ↔ k ≠ .kNotJni ∧ k ≠ .kNormalJniCallingConventionParameter := by
  cases k <;> decide

theorem not_isMethod_other (n : ℕ) : ¬ (jniTypeTraitOf (.other n)).nativeKind.IsMethod :=
  show ¬ NativeKind.kNotJni.IsMethod by decide

section validity
variable (cfg : BuildConfig) (nativeKind : NativeKind)

/-- The position check asserts nothing about a JNI type. -/
theorem isValidJniParameterPosition_returns (position : NativePositionAllowed)
    {expectedPosition : NativePositionAllowed} (h : expectedPosition ≠ .kNotAnyPosition) :
    ∃ b, isValidJniParameterPosition cfg nativeKind position expectedPosition = .ok b := by
  unfold isValidJniParameterPosition
  simp only [ne_eq, h, not_false_eq_true, decide_true, xAssert_true, eval_bind_ok]
  split_ifs <;> exact ⟨_, rfl⟩

theorem isValidJniParameter_returns (T : QualType) (position : NativePositionAllowed) :
    ∃ b, isValidJniParameter cfg T nativeKind position = .ok b := by
  unfold isValidJniParameter
  by_cases h : (jniTypeTrait T.removeCv).nativeKind = .kNotJni
  · exact ⟨false, if_pos h⟩
  · have hp : (jniTypeTrait T.removeCv).positionAllowed ≠ .kNotAnyPosition := positionAllowed_ne h
    obtain ⟨b, hb⟩ := isValidJniParameterPosition_returns cfg nativeKind position hp
    simp only [if_neg h, hb, eval_bind_ok]
    split_ifs <;> exact ⟨_, rfl⟩

variable {cfg nativeKind}

/-- A valid parameter is of a JNI type, and of `JNIEnv*` only in the zeroth position. -/
theorem isMethod_of_isValidJniParameter {T : QualType} {position : NativePositionAllowed}
    (h : isValidJniParameter cfg T nativeKind position = .ok true)
    (hp : nativeKind = .kCriticalNative ∨ position = .kReturnPosition ∨
      position = .kSecondOrLaterPosition) :
    (jniTypeTraitOf T.type).nativeKind.IsMethod := by
  rw [NativeKind.isMethod_iff, ← jniTypeTrait_removeCv]
  unfold isValidJniParameter at h
  constructor
  · intro h0
    simp only [if_pos h0] at h
    cases h
  · intro h1
    have hz : (jniTypeTrait T.removeCv).positionAllowed = .kZerothPosition :=
      positionAllowed_of_callingConvention h1
    simp only [h1, hz] at h
    by_cases hc : nativeKind = .kCriticalNative
    · subst hc
      simp [isValidJniParameterPosition] at h
    · rcases hp with hp | rfl | rfl
      · exact hc hp
      all_goals simp [isValidJniParameterPosition, hc] at h

/-- Every argument is valid in its position. -/
theorem isValidJniArgumentType_iff (position : ℕ) (args : List CppType) :
    isValidJniArgumentType cfg nativeKind position args = .ok true ↔
      ∀ i T, args[i]? = some T →
        isValidJniParameter cfg T.plain nativeKind (convertPositionToAllowed (position + i)) =
          .ok true := by
  induction args generalizing position with
  | nil => simp [isValidJniArgumentType]
  | cons T args ih =>
      have split : (∀ i U, (T :: args)[i]? = some U →
          isValidJniParameter cfg U.plain nativeKind (convertPositionToAllowed (position + i)) =
            .ok true) ↔
          isValidJniParameter cfg T.plain nativeKind (convertPositionToAllowed position) = .ok true ∧
            ∀ i U, args[i]? = some U → isValidJniParameter cfg U.plain nativeKind
              (convertPositionToAllowed (position + 1 + i)) = .ok true := by
        constructor
        · intro h
          refine ⟨h 0 T rfl, fun i U hU => ?_⟩
          have := h (i + 1) U (by simpa using hU)
          rwa [← Nat.add_assoc, Nat.add_right_comm] at this
        · rintro ⟨h0, h⟩ i U hU
          cases i with
          | zero =>
              obtain rfl : T = U := by simpa using hU
              exact h0
          | succ i =>
              have := h i U (by simpa using hU)
              rwa [Nat.add_right_comm] at this
      rw [split, ← ih]
      cases args with
      | nil => simp [isValidJniArgumentType]
      | cons T' args =>
          obtain ⟨b, hb⟩ :=
            isValidJniParameter_returns cfg nativeKind T.plain (convertPositionToAllowed position)
          simp only [isValidJniArgumentType, hb, eval_bind_ok]
          cases b <;> simp

theorem isValidJniFunctionType_iff {F : FunctionType} :
    isValidJniFunctionType cfg nativeKind F = .ok true ↔
      isJniParameterCountValid cfg nativeKind F.args.length = .ok true ∧
      isValidJniParameter cfg F.ret nativeKind .kReturnPosition = .ok true ∧
      ∀ i T, F.args[i]? = some T →
        isValidJniParameter cfg T.plain nativeKind (convertPositionToAllowed i) = .ok true := by
  have ha := @isValidJniArgumentType_iff cfg nativeKind 0 F.args
  simp only [Nat.zero_add] at ha
  rw [← ha]
  obtain ⟨b, hb⟩ := isValidJniParameter_returns cfg nativeKind F.ret .kReturnPosition
  unfold isValidJniFunctionType
  rw [hb]
  cases hc : isJniParameterCountValid cfg nativeKind F.args.length with
  | error e => simp
  | ok c => cases c <;> cases b <;> simp

/-- Validity does not look at the qualifiers. -/
theorem isValidJniFunctionType_removeCv (F : FunctionType) :
    isValidJniFunctionType cfg nativeKind F.removeCv = isValidJniFunctionType cfg nativeKind F := rfl

end validity

/-- The arguments in front that are not part of the signature: `JNIEnv*` and the receiver. -/
def kSkipArgumentPrefix (nativeKind : NativeKind) : ℕ :=
  if nativeKind ≠ .kCriticalNative then 2 else 0

/-- The arguments that are part of the signature. -/
def FunctionType.javaArgs (F : FunctionType) (nativeKind : NativeKind) : List CppType :=
  F.args.drop (kSkipArgumentPrefix nativeKind)

/-- **The components of a valid function type** are JNI types, and apart from the prefix none of
them is `JNIEnv*`. -/
theorem isMethod_of_valid {cfg : BuildConfig} {nativeKind : NativeKind} {F : FunctionType}
    (h : isValidJniFunctionType cfg nativeKind F = .ok true) :
    (∀ T ∈ F.args, (jniTypeTraitOf T).nativeKind ≠ .kNotJni) ∧
    (jniTypeTraitOf F.ret.type).nativeKind.IsMethod ∧
    ∀ T ∈ F.javaArgs nativeKind, (jniTypeTraitOf T).nativeKind.IsMethod := by
  obtain ⟨_, hret, hargs⟩ := isValidJniFunctionType_iff.mp h
  refine ⟨fun T hT h0 => ?_, isMethod_of_isValidJniParameter hret (by simp), fun T hT => ?_⟩
  · obtain ⟨i, hi⟩ := List.getElem?_of_mem hT
    have := hargs i T hi
    unfold isValidJniParameter at this
    rw [CppType.plain_removeCv, jniTypeTrait_plain, if_pos h0] at this
    cases this
  · obtain ⟨i, hi⟩ := List.getElem?_of_mem hT
    rw [FunctionType.javaArgs, List.getElem?_drop] at hi
    apply isMethod_of_isValidJniParameter (hargs _ T hi)
    unfold kSkipArgumentPrefix
    by_cases hc : nativeKind = .kCriticalNative
    · exact .inl hc
    · rw [if_pos hc, Nat.add_comm]
      exact .inr (.inr rfl)

end NativeHelper
