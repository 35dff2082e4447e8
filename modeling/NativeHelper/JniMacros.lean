import NativeHelper.InferredString

/-! # The macros for native methods

A macro of `jni_macros.h` stands for a `JNINativeMethod`, or it does not compile.  They differ in
the annotation of the method, in where the signature comes from (it is written, or inferred) and in
how the function is named.  From C++14 on a written signature is compared with the function; before,
everything compiles and nothing can be inferred.

Whatever macro it was made by, the signature of an entry goes with its function, for the kind of the
macro (`MacroUse.expand_fits`).  In the builds with nonfatal parse failures the inferred signature
may be empty instead. -/

namespace NativeHelper

/-- A function of the program. -/
structure CppFunction where
  address : ℕ
  type : FunctionType

/-- The signature is a C string.  The cast to `void*` is left out. -/
structure JNINativeMethod where
  name : String
  signature : StringView
  fnPtr : CppFunction

/-- How the headers are compiled. -/
structure Compiler where
  cfg : BuildConfig
  /-- `__cplusplus >= 201402L` -/
  cxx14 : Bool

/-- The C string that a literal is. -/
def literalString (literal : StringView) : StringView := literal.takeWhile (· ≠ '\x00')

/-! ### Checked and inferred entries -/

/-- `MAKE_CHECKED_JNI_NATIVE_METHOD`, which does not compile if the `static_assert` fails or its
condition cannot be evaluated. -/
def makeCheckedJniNativeMethod (cfg : BuildConfig) (nativeKind : NativeKind) (name : String)
    (signature : StringView) (fn : CppFunction) : Option JNINativeMethod :=
  match matchJniDescriptorWithFunctionType cfg nativeKind fn.type (signature.length + 1) signature with
  | .ok true => some ⟨name, literalString signature, fn⟩
  | _ => none

/-- `MAKE_INFERRED_JNI_NATIVE_METHOD` -/
def makeInferredJniNativeMethod (cfg : BuildConfig) (nativeKind : NativeKind) (name : String)
    (fn : CppFunction) : Option JNINativeMethod :=
  match getStringAtRuntime cfg nativeKind fn.type with
  | .ok signature => some ⟨name, signature, fn⟩
  | .error _ => none

/-- `_NATIVEHELPER_JNI_MAKE_METHOD_OLD` -/
def jniMakeMethodOld (name : String) (signature : StringView) (fn : CppFunction) :
    Option JNINativeMethod :=
  some ⟨name, literalString signature, fn⟩

section macros
variable (c : Compiler)

/-- `_NATIVEHELPER_JNI_MAKE_METHOD` -/
def jniMakeMethod (nativeKind : NativeKind) (name : String) (signature : StringView)
    (fn : CppFunction) : Option JNINativeMethod :=
  if c.cxx14 then makeCheckedJniNativeMethod c.cfg nativeKind name signature fn
  else jniMakeMethodOld name signature fn

/-- `_NATIVEHELPER_JNI_MAKE_METHOD_AUTOSIG`, a failing `static_assert` before C++14. -/
def jniMakeMethodAutosig (nativeKind : NativeKind) (name : String) (fn : CppFunction) :
    Option JNINativeMethod :=
  if c.cxx14 then makeInferredJniNativeMethod c.cfg nativeKind name fn else none

/-! ### The basic macros -/

/-- `MAKE_JNI_NATIVE_METHOD` -/
def makeJniNativeMethod := jniMakeMethod c .kNormalNative

/-- `MAKE_JNI_FAST_NATIVE_METHOD` -/
def makeJniFastNativeMethod := jniMakeMethod c .kFastNative

/-- `MAKE_JNI_CRITICAL_NATIVE_METHOD` -/
def makeJniCriticalNativeMethod := jniMakeMethod c .kCriticalNative

/-- `MAKE_JNI_NATIVE_METHOD_AUTOSIG` -/
def makeJniNativeMethodAutosig := jniMakeMethodAutosig c .kNormalNative

/-- `MAKE_JNI_FAST_NATIVE_METHOD_AUTOSIG` -/
def makeJniFastNativeMethodAutosig := jniMakeMethodAutosig c .kFastNative

/-- `MAKE_JNI_CRITICAL_NATIVE_METHOD_AUTOSIG` -/
def makeJniCriticalNativeMethodAutosig := jniMakeMethodAutosig c .kCriticalNative

/-! ### The convenience macros

The function is `className ## _ ## identifier`, looked up where the macro is used. -/

variable (scope : String → Option CppFunction)

/-- The name of a function after the convention. -/
def jniFunctionName (className identifier : String) : String := className ++ "_" ++ identifier

def overloadedOf (make : String → StringView → CppFunction → Option JNINativeMethod)
    (className functionName : String) (signature : StringView) (identifier : String) :
    Option JNINativeMethod :=
  (scope (jniFunctionName className identifier)).bind (make functionName signature)

def autosigOf (make : String → CppFunction → Option JNINativeMethod)
    (className functionName : String) : Option JNINativeMethod :=
  (scope (jniFunctionName className functionName)).bind (make functionName)

/-- `NATIVE_METHOD` -/
def nativeMethod (className functionName : String) (signature : StringView) :=
  overloadedOf scope (makeJniNativeMethod c) className functionName signature functionName

/-- `OVERLOADED_NATIVE_METHOD` -/
def overloadedNativeMethod := overloadedOf scope (makeJniNativeMethod c)

/-- `NATIVE_METHOD_AUTOSIG` -/
def nativeMethodAutosig := autosigOf scope (makeJniNativeMethodAutosig c)

/-- `FAST_NATIVE_METHOD` -/
def fastNativeMethod (className functionName : String) (signature : StringView) :=
  overloadedOf scope (makeJniFastNativeMethod c) className functionName signature functionName

/-- `OVERLOADED_FAST_NATIVE_METHOD` -/
def overloadedFastNativeMethod := overloadedOf scope (makeJniFastNativeMethod c)

/-- `FAST_NATIVE_METHOD_AUTOSIG` -/
def fastNativeMethodAutosig := autosigOf scope (makeJniFastNativeMethodAutosig c)

/-- `CRITICAL_NATIVE_METHOD` -/
def criticalNativeMethod (className functionName : String) (signature : StringView) :=
  overloadedOf scope (makeJniCriticalNativeMethod c) className functionName signature functionName

/-- `OVERLOADED_CRITICAL_NATIVE_METHOD` -/
def overloadedCriticalNativeMethod := overloadedOf scope (makeJniCriticalNativeMethod c)

/-- `CRITICAL_NATIVE_METHOD_AUTOSIG` -/
def criticalNativeMethodAutosig := autosigOf scope (makeJniCriticalNativeMethodAutosig c)

end macros

/-! ### The uses of a macro -/

/-- The annotation of the Java method, which the prefix of the macro has to match. -/
inductive Annotated where
  | unannotated | fastNative | criticalNative
deriving DecidableEq, Repr

def Annotated.nativeKind : Annotated → NativeKind
  | unannotated => .kNormalNative
  | fastNative => .kFastNative
  | criticalNative => .kCriticalNative

theorem Annotated.isMethod (a : Annotated) : a.nativeKind.IsMethod := by
  cases a <;> decide

/-- A use of one of the macros. -/
inductive MacroUse where
  | make (annotated : Annotated) (name : String) (signature : StringView) (function : CppFunction)
  | makeAutosig (annotated : Annotated) (name : String) (function : CppFunction)
  | method (annotated : Annotated) (className functionName : String) (signature : StringView)
  | overloaded (annotated : Annotated) (className functionName : String)
      (signature : StringView) (identifier : String)
  | methodAutosig (annotated : Annotated) (className functionName : String)

namespace MacroUse

def annotated : MacroUse → Annotated
  | make a .. | makeAutosig a .. | method a .. | overloaded a .. | methodAutosig a .. => a

/-- What the macro of this name stands for. -/
def expand (c : Compiler) (scope : String → Option CppFunction) :
    MacroUse → Option JNINativeMethod
  | make .unannotated name sig fn => makeJniNativeMethod c name sig fn
  | make .fastNative name sig fn => makeJniFastNativeMethod c name sig fn
  | make .criticalNative name sig fn => makeJniCriticalNativeMethod c name sig fn
  | makeAutosig .unannotated name fn => makeJniNativeMethodAutosig c name fn
  | makeAutosig .fastNative name fn => makeJniFastNativeMethodAutosig c name fn
  | makeAutosig .criticalNative name fn => makeJniCriticalNativeMethodAutosig c name fn
  | method .unannotated cls name sig => nativeMethod c scope cls name sig
  | method .fastNative cls name sig => fastNativeMethod c scope cls name sig
  | method .criticalNative cls name sig => criticalNativeMethod c scope cls name sig
  | overloaded .unannotated cls name sig id => overloadedNativeMethod c scope cls name sig id
  | overloaded .fastNative cls name sig id => overloadedFastNativeMethod c scope cls name sig id
  | overloaded .criticalNative cls name sig id =>
      overloadedCriticalNativeMethod c scope cls name sig id
  | methodAutosig .unannotated cls name => nativeMethodAutosig c scope cls name
  | methodAutosig .fastNative cls name => fastNativeMethodAutosig c scope cls name
  | methodAutosig .criticalNative cls name => criticalNativeMethodAutosig c scope cls name

end MacroUse

/-! ### What is made -/

/-- The signature of the entry goes with its function, at least up to where the C string ends. -/
def JNINativeMethod.Fits (cfg : BuildConfig) (nativeKind : NativeKind) (m : JNINativeMethod) : Prop :=
  ∃ signature, m.signature = literalString signature ∧
    matchJniDescriptorWithFunctionType cfg nativeKind m.fnPtr.type (signature.length + 1) signature =
      .ok true

section fits
variable {c : Compiler} {nativeKind : NativeKind} {name : String} {signature : StringView}
  {fn : CppFunction} {m : JNINativeMethod}

theorem literalString_of_nul_notMem (h : '\x00' ∉ signature) :
    literalString signature = signature := by
  rw [literalString, List.takeWhile_eq_self_iff]
  intro x hx
  apply decide_eq_true
  rintro rfl
  exact h hx

theorem jniMakeMethod_fits (h14 : c.cxx14 = true)
    (h : jniMakeMethod c nativeKind name signature fn = some m) : m.Fits c.cfg nativeKind := by
  rw [jniMakeMethod, if_pos h14, makeCheckedJniNativeMethod] at h
  split at h
  · rename_i hm
    obtain rfl := Option.some.inj h
    exact ⟨signature, rfl, hm⟩
  · cases h

/-- Without a signature the string is empty at run time too. -/
theorem getStringAtRuntime_none {cfg : BuildConfig} {F : FunctionType}
    (h : fromFunctionType cfg nativeKind F = .ok none) :
    getStringAtRuntime cfg nativeKind F = .ok [] := by
  obtain ⟨hsize, str, hstr, helems⟩ := getString_none h
  rw [getStringAtRuntime, hsize, eval_bind_ok, hstr, eval_bind_ok,
    cString_of_elems helems List.not_mem_nil]

theorem exists_of_getStringAtRuntime {cfg : BuildConfig} {F : FunctionType}
    (h : getStringAtRuntime cfg nativeKind F = .ok signature) :
    ∃ o, fromFunctionType cfg nativeKind F = .ok o := by
  obtain ⟨n, hn, _⟩ := eval_bind_eq_ok.mp h
  obtain ⟨o, ho, _⟩ := eval_bind_eq_ok.mp hn
  exact ⟨o, ho⟩

/-- What is inferred for a method goes with its function, or nothing is. -/
theorem getStringAtRuntime_fits {cfg : BuildConfig} (hd : cfg.disableAsserts = false)
    (hk : nativeKind.IsMethod) {F : FunctionType}
    (h : getStringAtRuntime cfg nativeKind F = .ok signature) :
    signature = [] ∨ literalString signature = signature ∧
      matchJniDescriptorWithFunctionType cfg nativeKind F (signature.length + 1) signature =
        .ok true := by
  have hc : cfg.Checks := .inr hd
  obtain ⟨o, ho⟩ := exists_of_getStringAtRuntime h
  have hF : F.ValidShape nativeKind → F.ret.Unqualified := by
    -- a qualified return type stops the evaluation
    by_contra hF
    rw [fromFunctionType_error hd (.inr (Classical.not_imp.mp hF))] at ho
    cases ho
  cases o with
  | none => exact .inl (Except.ok.inj ((getStringAtRuntime_none ho).symm.trans h)).symm
  | some sig =>
      obtain ⟨sig', _, e⟩ := fromFunctionType_parsed hc hk hF
      rw [ho] at e
      have he := parsed_eq_some e.symm
      split_ifs at he with hvu
      have hF' := hF hvu.1
      obtain ⟨hv, hu, htok⟩ := inferred_of_some hc hk hF' ho
      rw [getStringAtRuntime_eq hc hk hF' ho] at h
      obtain rfl := Except.ok.inj h
      refine .inr ⟨literalString_of_nul_notMem (nul_notMem_canonical hv), ?_⟩
      exact (match_iff_of_unambiguous hc hv hF' hu (Nat.le_succ _)).mpr rfl

theorem jniMakeMethodAutosig_fits (hd : c.cfg.disableAsserts = false) (hk : nativeKind.IsMethod)
    (h : jniMakeMethodAutosig c nativeKind name fn = some m) :
    m.signature = [] ∨ m.Fits c.cfg nativeKind := by
  rw [jniMakeMethodAutosig] at h
  split_ifs at h
  rw [makeInferredJniNativeMethod] at h
  split at h
  · rename_i signature hs
    obtain rfl := Option.some.inj h
    exact (getStringAtRuntime_fits hd hk hs).imp_right fun hm => ⟨_, hm.1.symm, hm.2⟩
  · cases h

/-- **What a macro makes fits its function**, for the kind the macro is named after. -/
theorem MacroUse.expand_fits (h14 : c.cxx14 = true) (hd : c.cfg.disableAsserts = false)
    {scope : String → Option CppFunction} {use : MacroUse} (h : use.expand c scope = some m) :
    m.signature = [] ∨ m.Fits c.cfg use.annotated.nativeKind := by
  cases use with
  | make a name sig fn =>
      right
      cases a <;> exact jniMakeMethod_fits h14 h
  | makeAutosig a name fn =>
      cases a <;> exact jniMakeMethodAutosig_fits hd (Annotated.isMethod _) h
  | method a cls name sig =>
      right
      cases a <;> obtain ⟨fn, _, hm⟩ := Option.bind_eq_some_iff.mp h <;>
        exact jniMakeMethod_fits h14 hm
  | overloaded a cls name sig id =>
      right
      cases a <;> obtain ⟨fn, _, hm⟩ := Option.bind_eq_some_iff.mp h <;>
        exact jniMakeMethod_fits h14 hm
  | methodAutosig a cls name =>
      cases a <;> obtain ⟨fn, _, hm⟩ := Option.bind_eq_some_iff.mp h <;>
        exact jniMakeMethodAutosig_fits hd (Annotated.isMethod _) hm

end fits

end NativeHelper
