import NativeHelper.InferredString

/-! # Calling conventions

A native method over primitives can be implemented as a critical native, which takes the arguments
only, or as a normal or a fast one, which takes the environment and the receiver in front of them.
What `maybeMakeReifiedJniSignature` makes of the five function types has the same components, and
neither the comparison nor inference looks at anything else, so they match the same signatures and
the same string is inferred for them (`calling_convention_irrelevant`). -/

namespace NativeHelper

/-- A Java method whose components are primitives, with `void` for no result. -/
structure PrimitiveMethod where
  R : CppType
  Args : List CppType
  ret_primitive : R = .void ∨ R.IsPrimitive
  args_primitive : ∀ T ∈ Args, T.IsPrimitive

/-- The type of the second argument of a normal or a fast native. -/
inductive Receiver
  | jobject
  | jclass
deriving DecidableEq, Repr

def Receiver.type : Receiver → CppType
  | .jobject => .jobject
  | .jclass => .jclass

/-- The ways to implement a method over primitives. -/
inductive CallingConvention
  | critical
  | normal (receiver : Receiver)
  | fast (receiver : Receiver)
deriving DecidableEq, Repr

namespace CallingConvention

def nativeKind : CallingConvention → NativeKind
  | critical => .kCriticalNative
  | normal _ => .kNormalNative
  | fast _ => .kFastNative

/-- The arguments in front. -/
def argumentPrefix : CallingConvention → List CppType
  | critical => []
  | normal receiver | fast receiver => [.jniEnvPtr, receiver.type]

theorem nativeKind_isMethod (c : CallingConvention) : c.nativeKind.IsMethod := by
  cases c with
  | critical => exact (by decide : NativeKind.kCriticalNative.IsMethod)
  | normal receiver => exact (by decide : NativeKind.kNormalNative.IsMethod)
  | fast receiver => exact (by decide : NativeKind.kFastNative.IsMethod)

theorem void_notMem_argumentPrefix (c : CallingConvention) : .void ∉ c.argumentPrefix := by
  rcases c with _ | ⟨_ | _⟩ | ⟨_ | _⟩ <;> decide

/-- The prefix is what the index test of the reification skips. -/
theorem length_argumentPrefix (c : CallingConvention) :
    c.argumentPrefix.length = kSkipArgumentPrefix c.nativeKind := by
  cases c <;> rfl

end CallingConvention

namespace PrimitiveMethod
variable (m : PrimitiveMethod)

theorem void_notMem_args : .void ∉ m.Args := by
  intro h
  exact absurd (m.args_primitive _ h) (by decide)

/-- The type of the implementation: `R(Args...)`, `R(JNIEnv*, jobject, Args...)` or
`R(JNIEnv*, jclass, Args...)`. -/
def under (c : CallingConvention) : FunctionType where
  ret := m.R.plain
  args := c.argumentPrefix ++ m.Args
  void_notMem := fun h =>
    (List.mem_append.mp h).elim c.void_notMem_argumentPrefix m.void_notMem_args

theorem under_unqualified (c : CallingConvention) : (m.under c).ret.Unqualified := ⟨rfl, rfl⟩

theorem javaArgs_under (c : CallingConvention) : (m.under c).javaArgs c.nativeKind = m.Args := by
  unfold FunctionType.javaArgs
  rw [← c.length_argumentPrefix]
  exact List.drop_left

/-- The position rules hold of the prefix, and a critical native has none to meet. -/
theorem under_validShape (c : CallingConvention) : (m.under c).ValidShape c.nativeKind := by
  have hinstance : ∀ receiver : Receiver,
      (m.R = .void ∨ m.R.IsPrimitive ∨ m.R.IsReference) ∧
        FunctionType.InstanceArgs (.jniEnvPtr :: receiver.type :: m.Args) := by
    intro receiver
    refine ⟨m.ret_primitive.imp_right .inl, rfl, ?_, fun T hT => .inl (m.args_primitive T hT)⟩
    cases receiver
    · exact .inl rfl
    · exact .inr rfl
  cases c with
  | critical => exact ⟨m.ret_primitive, m.args_primitive⟩
  | normal receiver => exact hinstance receiver
  | fast receiver => exact hinstance receiver

theorem under_valid (cfg : BuildConfig) (c : CallingConvention) :
    isValidJniFunctionType cfg c.nativeKind (m.under c) = .ok true := by
  rw [isValidJniFunctionType_eq cfg c.nativeKind_isMethod, decide_eq_true (m.under_validShape c)]

/-- Primitives and `void` are final. -/
theorem primitive_final : ∀ T ∈ CppType.void :: primitiveTypes,
    (jniTypeTraitOf T).typeFinality = .kFinal := by
  decide

theorem under_unambiguous (c : CallingConvention) : (m.under c).Unambiguous c.nativeKind := by
  constructor
  · apply primitive_final
    rcases m.ret_primitive with h | h
    · exact List.mem_cons.mpr (.inl h)
    · exact List.mem_cons_of_mem _ h
  · rw [m.javaArgs_under c]
    intro T hT
    exact primitive_final T (List.mem_cons_of_mem _ (m.args_primitive T hT))

/-- The descriptors do not depend on the convention. -/
theorem canonical_under (c c' : CallingConvention) :
    (m.under c).canonical c.nativeKind = (m.under c').canonical c'.nativeKind := by
  unfold FunctionType.canonical
  rw [m.javaArgs_under c, m.javaArgs_under c']
  rfl

end PrimitiveMethod

/-! ### The components are all that counts -/

section congruence
variable (cfg : BuildConfig) {kMaxSize k k' : ℕ}

/-- The capacity of a vector does not matter to who reads it. -/
theorem compareArgs_congr (user : ConstexprVector JniDescriptorNode kMaxSize)
    {reified : ConstexprVector ReifiedJniTypeTrait k}
    {reified' : ConstexprVector ReifiedJniTypeTrait k'} (h : reified.elems = reified'.elems)
    (n i : ℕ) : compareArgs cfg user reified n i = compareArgs cfg user reified' n i := by
  induction n generalizing i with
  | zero => rfl
  | succ n ih =>
      have e : reified.get i = reified'.get i := by
        unfold ConstexprVector.get
        rw [h]
      unfold compareArgs
      simp only [e, ih]

theorem compareSignature_congr {reified : ReifiedJniSignature k}
    {reified' : ReifiedJniSignature k'} (ha : reified.args.elems = reified'.args.elems)
    (hr : reified.ret = reified'.ret) (user : JniSignatureDescriptor kMaxSize) :
    compareSignature cfg reified user = compareSignature cfg reified' user := by
  unfold compareSignature ConstexprVector.size
  simp only [ha, hr, compareArgs_congr cfg user.args ha]

/-- Two valid function types with the same components match the same signatures, and fail in the
same way on what is none. -/
theorem match_congr {nativeKind nativeKind' : NativeKind} {F F' : FunctionType}
    (hv : isValidJniFunctionType cfg nativeKind F = .ok true)
    (hv' : isValidJniFunctionType cfg nativeKind' F' = .ok true)
    (hF : F.ret.Unqualified) (hF' : F'.ret.Unqualified)
    (ha : F.javaArgs nativeKind = F'.javaArgs nativeKind') (hr : F.ret.type = F'.ret.type)
    (s : StringView) :
    matchJniDescriptorWithFunctionType cfg nativeKind F kMaxSize s =
      matchJniDescriptorWithFunctionType cfg nativeKind' F' kMaxSize s := by
  have hc := @compareSignature_congr cfg kMaxSize _ _ (reifiedSignature nativeKind F)
    (reifiedSignature nativeKind' F') (congrArg _ ha)
    (congrArg jniTypeTraitOf hr)
  unfold matchJniDescriptorWithFunctionType
  rw [maybeMakeReifiedJniSignature_eq hv hF, maybeMakeReifiedJniSignature_eq hv' hF']
  simp only [eval_bind_ok, hc]

end congruence

/-- On final components `GetString` writes the canonical signature, in every build. -/
theorem getString_of_unambiguous {cfg : BuildConfig} {nativeKind : NativeKind} {F : FunctionType}
    (hv : isValidJniFunctionType cfg nativeKind F = .ok true) (hF : F.ret.Unqualified)
    (hu : F.Unambiguous nativeKind) {s : StringView}
    (hs : s = signatureString (F.canonical nativeKind)) :
    calculateStringSize cfg nativeKind F = .ok s.length ∧
      ∃ str, getString cfg nativeKind F s.length = .ok str ∧ str.elems = s ++ ['\x00'] := by
  obtain ⟨sig, htok, e⟩ := fromFunctionType_eq (.inr hu) hv hF
  rw [if_pos hu] at e
  rw [← htok] at hs
  subst hs
  exact ⟨calculateStringSize_eq e, getString_eq e⟩

/-- **The signature of a method over primitives does not depend on its calling convention**: in
every build its five implementations have the same verdict on every string, and the same array is
inferred for them, which ends in its only NUL. -/
theorem calling_convention_irrelevant (cfg : BuildConfig) (m : PrimitiveMethod) :
    (∀ (kMaxSize : ℕ) (s : StringView) (c c' : CallingConvention),
      matchJniDescriptorWithFunctionType cfg c.nativeKind (m.under c) kMaxSize s =
        matchJniDescriptorWithFunctionType cfg c'.nativeKind (m.under c') kMaxSize s) ∧
    ∃ (kMaxStringSize : ℕ) (str : ConstexprArray Char (kMaxStringSize + 1)),
      str.elems = cString str ++ ['\x00'] ∧
      ∀ c : CallingConvention,
        calculateStringSize cfg c.nativeKind (m.under c) = .ok kMaxStringSize ∧
        getString cfg c.nativeKind (m.under c) kMaxStringSize = .ok str := by
  constructor
  · intro kMaxSize s c c'
    apply match_congr cfg (m.under_valid cfg c) (m.under_valid cfg c') (m.under_unqualified c)
      (m.under_unqualified c')
    · rw [m.javaArgs_under c, m.javaArgs_under c']
    · rfl
  · have string := fun c => getString_of_unambiguous (m.under_valid cfg c) (m.under_unqualified c)
      (m.under_unambiguous c) (congrArg signatureString (m.canonical_under .critical c))
    obtain ⟨_, str, hstr, helems⟩ := string .critical
    have hnul := nul_notMem_canonical (m.under_valid cfg .critical)
    refine ⟨_, str, ?_, ?_⟩
    · rw [cString_of_elems helems hnul]
      exact helems
    · intro c
      obtain ⟨hsize, str', hstr', helems'⟩ := string c
      have e : str' = str := ConstexprArray.ext (helems'.trans helems.symm)
      rw [e] at hstr'
      exact ⟨hsize, hstr'⟩

end NativeHelper
