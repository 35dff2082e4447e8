import Mathlib.Data.List.Sections
import NativeHelper.CallSafety
import NativeHelper.JniMacros

/-! # The functions that implement a method

A type of the Java language has one C++ type, or the most exact one and a general one: `jthrowable`
for a class, `jarray` for an array.  A function is accepted for a method exactly if each of its types
stands for that of the method, behind the environment and the receiver (`match_iff_implements`).

So every method has a function, the most exact one, except that a critical native has none unless all
its types are primitive.  Inference finds the signature again from that function if and only if all
the types of the method are primitive, arrays of primitives, `String` or `Class`
(`implementations`). -/

namespace NativeHelper

open JavaTypes

/-! ### One type -/

def primitiveNativeType : Primitive → CppType
  | .boolean => .jboolean
  | .byte => .jbyte
  | .char => .jchar
  | .short => .jshort
  | .int => .jint
  | .long => .jlong
  | .float => .jfloat
  | .double => .jdouble

def arrayNativeType : JavaType ClassName → CppType
  | .primitive .boolean => .jbooleanArray
  | .primitive .byte => .jbyteArray
  | .primitive .char => .jcharArray
  | .primitive .short => .jshortArray
  | .primitive .int => .jintArray
  | .primitive .long => .jlongArray
  | .primitive .float => .jfloatArray
  | .primitive .double => .jdoubleArray
  | .clazz _ | .array _ => .jobjectArray

/-- The most exact type of a class. -/
def classNativeType (c : ClassName) : CppType :=
  if c = javaLangThrowable then .jthrowable
  else if c = javaLangClass then .jclass
  else if c = javaLangString then .jstring
  else .jobject

/-- The most exact type. -/
def nativeTypeOf : JavaType ClassName → CppType
  | .primitive p => primitiveNativeType p
  | .clazz c => classNativeType c
  | .array t => arrayNativeType t

/-- The C++ types that stand for a type, the most exact one first. -/
def nativeTypes : JavaType ClassName → List CppType
  | .primitive p => [primitiveNativeType p]
  | .clazz c => [classNativeType c, .jthrowable]
  | .array t => [arrayNativeType t, .jarray]

theorem related_primitive_iff (p : Primitive) (T : CppType) :
    Related (typeDescriptorOf (.primitive p)) T ↔ T = primitiveNativeType p := by
  cases p <;> cases T <;>
    simp [Related, descriptorPattern, DescriptorPattern.Matches, typeDescriptorOf,
      primitiveNativeType, primitiveLetter]

theorem related_array_iff (t : JavaType ClassName) (T : CppType) :
    Related (typeDescriptorOf (.array t)) T ↔ T = arrayNativeType t ∨ T = .jarray := by
  cases t with
  | primitive p =>
      cases p <;> cases T <;>
        simp [Related, descriptorPattern, DescriptorPattern.Matches, typeDescriptorOf,
          arrayNativeType, primitiveLetter]
  | clazz c =>
      cases T <;>
        simp [Related, descriptorPattern, DescriptorPattern.Matches, typeDescriptorOf,
          arrayNativeType]
  | array t =>
      cases T <;>
        simp [Related, descriptorPattern, DescriptorPattern.Matches, typeDescriptorOf,
          arrayNativeType]

/-- A class is known by its descriptor. -/
theorem typeDescriptorOf_clazz_iff {c d : ClassName} {w : StringView}
    (hd : typeDescriptorOf (.clazz d) = w) : typeDescriptorOf (.clazz c) = w ↔ c = d := by
  subst hd
  exact ⟨fun h => JavaType.clazz.inj (typeDescriptorOf_injective h), fun h => by rw [h]⟩

/-- The types of the class that have a descriptor of their own. -/
theorem related_class_iff (c : ClassName) :
    (Related (typeDescriptorOf (.clazz c)) .jclass ↔ c = javaLangClass) ∧
    (Related (typeDescriptorOf (.clazz c)) .jstring ↔ c = javaLangString) ∧
    (Related (typeDescriptorOf (.clazz c)) .jobject ↔
      c ≠ javaLangClass ∧ c ≠ javaLangString ∧ c ≠ javaLangThrowable) ∧
    Related (typeDescriptorOf (.clazz c)) .jthrowable := by
  have hclass : typeDescriptorOf (.clazz c) = "Ljava/lang/Class;".toList ↔ c = javaLangClass :=
    typeDescriptorOf_clazz_iff rfl
  have hstring : typeDescriptorOf (.clazz c) = "Ljava/lang/String;".toList ↔ c = javaLangString :=
    typeDescriptorOf_clazz_iff rfl
  have hthrowable : typeDescriptorOf (.clazz c) = "Ljava/lang/Throwable;".toList ↔
      c = javaLangThrowable := typeDescriptorOf_clazz_iff rfl
  refine ⟨hclass, hstring, ?_, rfl, List.not_mem_nil⟩
  change _ ∧ _ ∉ _ ↔ _
  rw [List.mem_cons, List.mem_pair, hclass, hstring, hthrowable]
  constructor
  · rintro ⟨_, h⟩
    exact ⟨fun h' => h (.inl h'), fun h' => h (.inr (.inl h')), fun h' => h (.inr (.inr h'))⟩
  · rintro ⟨h₁, h₂, h₃⟩
    exact ⟨rfl, fun h => h.elim h₁ fun h => h.elim h₂ h₃⟩

theorem related_clazz_iff (c : ClassName) (T : CppType) :
    Related (typeDescriptorOf (.clazz c)) T ↔ T = classNativeType c ∨ T = .jthrowable := by
  obtain ⟨hclass, hstring, hobject, hthrowable⟩ := related_class_iff c
  have hne : javaLangThrowable ≠ javaLangClass ∧ javaLangThrowable ≠ javaLangString ∧
      javaLangClass ≠ javaLangString := by decide
  cases T with
  | jthrowable => exact iff_of_true hthrowable (.inr rfl)
  | jclass =>
      rw [hclass, classNativeType]
      split_ifs <;> simp_all
  | jstring =>
      rw [hstring, classNativeType]
      split_ifs <;> simp_all
  | jobject =>
      rw [hobject, classNativeType]
      split_ifs <;> simp_all
  | _ =>
      -- the other types have no descriptor that begins like that of a class
      simp only [Related, descriptorPattern, DescriptorPattern.Matches, typeDescriptorOf]
      rw [classNativeType]
      split_ifs <;> simp

theorem related_iff_mem_nativeTypes (t : JavaType ClassName) (T : CppType) :
    Related (typeDescriptorOf t) T ↔ T ∈ nativeTypes t := by
  cases t with
  | primitive p => rw [related_primitive_iff, nativeTypes, List.mem_singleton]
  | clazz c => rw [related_clazz_iff, nativeTypes, List.mem_pair]
  | array t => rw [related_array_iff, nativeTypes, List.mem_pair]

/-! ### A method type -/

def nativeReturnTypes : Option (JavaType ClassName) → List CppType
  | none => [.void]
  | some t => nativeTypes t

def IsPrimitiveType (t : JavaType ClassName) : Prop := ∃ p, t = .primitive p

/-- A method without references. -/
def MethodType.IsPrimitive (m : MethodType) : Prop :=
  (∀ t ∈ m.ret, IsPrimitiveType t) ∧ ∀ t ∈ m.args, IsPrimitiveType t

/-- What stands in front of the arguments of the method. -/
def Annotated.prefixes : Annotated → List (List CppType)
  | unannotated | fastNative => [[.jniEnvPtr, .jobject], [.jniEnvPtr, .jclass]]
  | criticalNative => [[]]

theorem related_iff_mem_nativeReturnTypes (r : Option (JavaType ClassName)) (T : CppType) :
    Related (returnDescriptorOf r) T ↔ T ∈ nativeReturnTypes r := by
  cases r with
  | some t => exact related_iff_mem_nativeTypes t T
  | none =>
      rw [nativeReturnTypes, List.mem_singleton]
      cases T <;> simp [Related, descriptorPattern, DescriptorPattern.Matches, returnDescriptorOf]

/-- The types of the arguments, one list of choices each. -/
theorem forall₂_related_iff_mem_sections (ts : List (JavaType ClassName)) (Ts : List CppType) :
    List.Forall₂ Related (ts.map typeDescriptorOf) Ts ↔ Ts ∈ (ts.map nativeTypes).sections := by
  rw [List.mem_sections, List.forall₂_map_left_iff, List.forall₂_map_right_iff]
  constructor
  · exact fun h => (h.imp fun _ _ => (related_iff_mem_nativeTypes _ _).mp).flip
  · exact fun h => h.flip.imp fun _ _ => (related_iff_mem_nativeTypes _ _).mpr

/-! ### Shapes -/

theorem isReference_arrayNativeType (t : JavaType ClassName) : (arrayNativeType t).IsReference := by
  cases t with
  | primitive p => cases p <;> decide
  | clazz c | array t =>
      change CppType.jobjectArray.IsReference
      decide

theorem isReference_classNativeType (c : ClassName) : (classNativeType c).IsReference := by
  rw [classNativeType]
  split_ifs <;> decide

theorem CppType.IsReference.not_isPrimitive {T : CppType} (h : T.IsReference) : ¬ T.IsPrimitive := by
  have rows : ∀ T ∈ referenceTypes, ¬ CppType.IsPrimitive T := by decide
  exact rows T h

/-- Primitives stand for primitives, references for references. -/
theorem nativeTypes_shape {t : JavaType ClassName} {T : CppType} (h : T ∈ nativeTypes t) :
    (IsPrimitiveType t ∧ T.IsPrimitive) ∨ (¬ IsPrimitiveType t ∧ T.IsReference) := by
  cases t with
  | primitive p =>
      obtain rfl := List.mem_singleton.mp h
      refine .inl ⟨⟨p, rfl⟩, ?_⟩
      cases p <;> decide
  | clazz c =>
      refine .inr ⟨by rintro ⟨p, ⟨⟩⟩, ?_⟩
      rcases List.mem_pair.mp h with rfl | rfl
      · exact isReference_classNativeType c
      · decide
  | array t =>
      refine .inr ⟨by rintro ⟨p, ⟨⟩⟩, ?_⟩
      rcases List.mem_pair.mp h with rfl | rfl
      · exact isReference_arrayNativeType t
      · decide

theorem isPrimitive_iff_of_mem {t : JavaType ClassName} {T : CppType} (h : T ∈ nativeTypes t) :
    T.IsPrimitive ↔ IsPrimitiveType t := by
  rcases nativeTypes_shape h with ⟨ht, hT⟩ | ⟨ht, hT⟩
  · exact iff_of_true hT ht
  · exact iff_of_false hT.not_isPrimitive ht

/-- The choices for the arguments have the shape of the arguments. -/
theorem shape_of_mem_sections {ts : List (JavaType ClassName)} {Ts : List CppType}
    (h : Ts ∈ (ts.map nativeTypes).sections) :
    (∀ T ∈ Ts, T.IsPrimitive ∨ T.IsReference) ∧
      ((∀ T ∈ Ts, T.IsPrimitive) ↔ ∀ t ∈ ts, IsPrimitiveType t) := by
  rw [List.mem_sections, List.forall₂_map_right_iff] at h
  induction h with
  | nil => simp
  | @cons T t Ts ts hT _ ih =>
      have hshape := (nativeTypes_shape hT).imp And.right And.right
      rw [List.forall_mem_cons, List.forall_mem_cons, List.forall_mem_cons, ih.2]
      exact ⟨⟨hshape, ih.1⟩, and_congr_left fun _ => isPrimitive_iff_of_mem hT⟩

/-- A function that may implement a method of the type. -/
structure Implements (a : Annotated) (m : MethodType) (F : FunctionType) : Prop where
  unqualified : F.ret.Unqualified
  ret : F.ret.type ∈ nativeReturnTypes m.ret
  args : ∃ pre ∈ a.prefixes, ∃ args ∈ (m.args.map nativeTypes).sections, F.args = pre ++ args
  critical : a = .criticalNative → m.IsPrimitive

theorem nativeReturnTypes_shape {r : Option (JavaType ClassName)} {T : CppType}
    (h : T ∈ nativeReturnTypes r) : (T = .void ∨ T.IsPrimitive ∨ T.IsReference) ∧
      ((T = .void ∨ T.IsPrimitive) ↔ ∀ t ∈ r, IsPrimitiveType t) := by
  cases r with
  | none =>
      obtain rfl := List.mem_singleton.mp h
      exact ⟨.inl rfl, iff_of_true (.inl rfl) (by rintro _ ⟨⟩)⟩
  | some t =>
      have hvoid : T ≠ .void := by
        rintro rfl
        exact typeDescriptorOf_ne_void t ((related_iff_mem_nativeTypes t _).mpr h)
      refine ⟨.inr ((nativeTypes_shape h).imp (·.2) (·.2)), ?_⟩
      rw [or_iff_right hvoid, isPrimitive_iff_of_mem h]
      simp

/-- A valid shape and the right types are what it takes, for each kind. -/
theorem implements_iff {a : Annotated} {m : MethodType} {F : FunctionType} :
    Implements a m F ↔ F.ValidShape a.nativeKind ∧ F.ret.Unqualified ∧
      F.ret.type ∈ nativeReturnTypes m.ret ∧
      F.javaArgs a.nativeKind ∈ (m.args.map nativeTypes).sections := by
  -- a normal and a fast native differ in nothing
  have hinstance : ∀ a : Annotated, a ≠ .criticalNative →
      (Implements a m F ↔ F.InstanceShape ∧ F.ret.Unqualified ∧
        F.ret.type ∈ nativeReturnTypes m.ret ∧ F.args.drop 2 ∈ (m.args.map nativeTypes).sections) := by
    intro a ha
    have hpre : a.prefixes = [[.jniEnvPtr, .jobject], [.jniEnvPtr, .jclass]] := by
      cases a <;> first | rfl | exact absurd rfl ha
    constructor
    · rintro ⟨hq, hret, ⟨pre, hp, args, hargs, hF⟩, _⟩
      rw [hpre] at hp
      have hshape := (shape_of_mem_sections hargs).1
      rcases List.mem_pair.mp hp with rfl | rfl
      · exact ⟨⟨(nativeReturnTypes_shape hret).1, hF ▸ ⟨rfl, .inl rfl, hshape⟩⟩, hq, hret, hF ▸ hargs⟩
      · exact ⟨⟨(nativeReturnTypes_shape hret).1, hF ▸ ⟨rfl, .inr rfl, hshape⟩⟩, hq, hret, hF ▸ hargs⟩
    · rintro ⟨⟨_, hshape⟩, hq, hret, hargs⟩
      obtain ⟨T, Ts, hF, hT⟩ := exists_of_instanceArgs hshape
      refine ⟨hq, hret, ⟨[.jniEnvPtr, T], ?_, Ts, ?_, hF⟩, fun h => absurd h ha⟩
      · rw [hpre]
        rcases hT with rfl | rfl <;> simp
      · rwa [hF] at hargs
  cases a with
  | unannotated => exact hinstance _ (by decide)
  | fastNative => exact hinstance _ (by decide)
  | criticalNative =>
      constructor
      · rintro ⟨hq, hret, ⟨pre, hp, args, hargs, hF⟩, hm⟩
        obtain rfl := List.mem_singleton.mp hp
        obtain ⟨hmr, hma⟩ := hm rfl
        obtain rfl : F.args = args := hF
        exact ⟨⟨(nativeReturnTypes_shape hret).2.mpr hmr, (shape_of_mem_sections hargs).2.mpr hma⟩,
          hq, hret, hargs⟩
      · rintro ⟨⟨hsr, hsa⟩, hq, hret, hargs⟩
        refine ⟨hq, hret, ⟨[], List.mem_singleton.mpr rfl, F.args, hargs, rfl⟩, fun _ => ?_⟩
        exact ⟨(nativeReturnTypes_shape hret).2.mp hsr, (shape_of_mem_sections hargs).2.mp hsa⟩

/-- **The functions that are accepted for a method.** -/
theorem match_iff_implements {cfg : BuildConfig} (hcfg : cfg.Checks) (a : Annotated)
    (m : MethodType) (F : FunctionType) :
    matchJniDescriptorWithFunctionType cfg a.nativeKind F (m.signature.length + 1) m.signature =
      .ok true ↔ Implements a m F := by
  rw [match_iff hcfg (Nat.le_succ _), implements_iff, isValidJniFunctionType_eq cfg a.isMethod]
  constructor
  · rintro ⟨hv, hq, args, ret, hs, hret, hargs⟩
    obtain ⟨rfl, rfl⟩ := m.signature_eq.unique hs
    rw [related_iff_mem_nativeReturnTypes] at hret
    rw [forall₂_related_iff_mem_sections] at hargs
    exact ⟨of_decide_eq_true (Except.ok.inj hv), hq, hret, hargs⟩
  · rintro ⟨hv, hq, hret, hargs⟩
    refine ⟨congrArg _ (decide_eq_true hv), hq, _, _, m.signature_eq, ?_, ?_⟩
    · exact (related_iff_mem_nativeReturnTypes _ _).mpr hret
    · exact (forall₂_related_iff_mem_sections _ _).mpr hargs

/-! ### The most exact function -/

theorem nativeTypeOf_mem (t : JavaType ClassName) : nativeTypeOf t ∈ nativeTypes t := by
  cases t <;> exact List.mem_cons_self

def nativeReturnTypeOf : Option (JavaType ClassName) → CppType
  | none => .void
  | some t => nativeTypeOf t

theorem nativeReturnTypeOf_mem (r : Option (JavaType ClassName)) :
    nativeReturnTypeOf r ∈ nativeReturnTypes r := by
  cases r with
  | none => exact List.mem_cons_self
  | some t => exact nativeTypeOf_mem t

/-- The environment and the receiver. -/
def Annotated.leading (isStatic : Bool) : Annotated → List CppType
  | unannotated | fastNative => [.jniEnvPtr, if isStatic then .jclass else .jobject]
  | criticalNative => []

theorem Annotated.leading_mem (a : Annotated) (isStatic : Bool) :
    a.leading isStatic ∈ a.prefixes := by
  cases a <;> cases isStatic <;> decide

theorem map_nativeTypeOf_mem (ts : List (JavaType ClassName)) :
    ts.map nativeTypeOf ∈ (ts.map nativeTypes).sections := by
  rw [List.mem_sections, List.forall₂_map_left_iff, List.forall₂_map_right_iff, List.forall₂_same]
  exact fun t _ => nativeTypeOf_mem t

/-- The most exact function for a method. -/
def MethodType.implementation (a : Annotated) (isStatic : Bool) (m : MethodType) :
    FunctionType where
  ret := (nativeReturnTypeOf m.ret).plain
  args := a.leading isStatic ++ m.args.map nativeTypeOf
  void_notMem := by
    intro h
    rcases List.mem_append.mp h with h | h
    · cases a <;> cases isStatic <;> revert h <;> decide
    · obtain ⟨t, _, ht⟩ := List.mem_map.mp h
      have hr := (related_iff_mem_nativeTypes t _).mpr (nativeTypeOf_mem t)
      rw [ht] at hr
      exact typeDescriptorOf_ne_void t hr

theorem implementation_implements {a : Annotated} {m : MethodType}
    (hm : a = .criticalNative → m.IsPrimitive) (isStatic : Bool) :
    Implements a m (m.implementation a isStatic) where
  unqualified := ⟨rfl, rfl⟩
  ret := nativeReturnTypeOf_mem m.ret
  args := ⟨_, a.leading_mem isStatic, _, map_nativeTypeOf_mem m.args, rfl⟩
  critical := hm

theorem implementation_javaArgs (a : Annotated) (isStatic : Bool) (m : MethodType) :
    (m.implementation a isStatic).javaArgs a.nativeKind = m.args.map nativeTypeOf := by
  cases a <;> rfl

/-! ### Its signature -/

/-- There is a C++ type for this type only. -/
def IsExactType : JavaType ClassName → Prop
  | .primitive _ | .array (.primitive _) => True
  | .clazz c => c = javaLangClass ∨ c = javaLangString
  | .array (.clazz _) | .array (.array _) => False

def MethodType.IsExact (m : MethodType) : Prop :=
  (∀ t ∈ m.ret, IsExactType t) ∧ ∀ t ∈ m.args, IsExactType t

/-- The class is one of the final ones or not. -/
theorem isFinal_classNativeType_iff (c : ClassName) :
    (jniTypeTraitOf (classNativeType c)).typeFinality = .kFinal ↔
      c = javaLangClass ∨ c = javaLangString := by
  rw [classNativeType]
  split_ifs with ht hc hs
  · subst ht
    decide
  · exact iff_of_true rfl (.inl hc)
  · exact iff_of_true rfl (.inr hs)
  · exact iff_of_false (by decide) (not_or.mpr ⟨hc, hs⟩)

theorem isFinal_nativeTypeOf_iff (t : JavaType ClassName) :
    (jniTypeTraitOf (nativeTypeOf t)).typeFinality = .kFinal ↔ IsExactType t := by
  cases t with
  | primitive p => cases p <;> exact iff_of_true rfl trivial
  | clazz c => exact isFinal_classNativeType_iff c
  | array t => cases t with
    | primitive p => cases p <;> exact iff_of_true rfl trivial
    | clazz c | array t => exact iff_of_false (by rintro ⟨⟩) id

theorem unambiguous_implementation_iff (a : Annotated) (isStatic : Bool) (m : MethodType) :
    (m.implementation a isStatic).Unambiguous a.nativeKind ↔ m.IsExact := by
  rw [FunctionType.Unambiguous, implementation_javaArgs, List.forall_mem_map, MethodType.IsExact]
  refine and_congr ?_ (forall₂_congr fun t _ => isFinal_nativeTypeOf_iff t)
  obtain ⟨args, _ | t⟩ := m
  · exact iff_of_true rfl (by rintro _ ⟨⟩)
  · refine (isFinal_nativeTypeOf_iff t).trans ⟨?_, fun h => h t rfl⟩
    rintro h _ ⟨⟩
    exact h

/-- **The signature of the most exact function** is inferred exactly if there is a C++ type for
every type of the method only. -/
theorem getStringAtRuntime_implementation_iff {cfg : BuildConfig} (hcfg : cfg.Checks)
    {a : Annotated} {m : MethodType} (hm : a = .criticalNative → m.IsPrimitive) (isStatic : Bool) :
    getStringAtRuntime cfg a.nativeKind (m.implementation a isStatic) = .ok m.signature ↔
      m.IsExact := by
  have himp := implementation_implements hm isStatic
  have hF := himp.unqualified
  have hshape := (implements_iff.mp himp).1
  obtain ⟨sig, htok, hfrom⟩ := fromFunctionType_parsed hcfg a.isMethod (F := m.implementation a isStatic)
    fun _ => hF
  rw [← unambiguous_implementation_iff a isStatic m]
  by_cases hu : (m.implementation a isStatic).Unambiguous a.nativeKind
  · rw [if_pos ⟨hshape, hu⟩, parsed_some] at hfrom
    refine iff_of_true ?_ hu
    -- the signature is accepted, so it is the canonical one
    have hv := isValidJniFunctionType_eq cfg a.isMethod (m.implementation a isStatic)
    rw [decide_eq_true hshape] at hv
    have hacc := (match_iff_implements hcfg a m _).mpr himp
    rw [getStringAtRuntime_eq hcfg a.isMethod hF hfrom,
      (match_iff_of_unambiguous hcfg hv hF hu (Nat.le_succ _)).mp hacc]
  · rw [if_neg fun h => hu h.2] at hfrom
    refine iff_of_false (fun h => ?_) hu
    obtain ⟨o, ho⟩ := exists_of_getStringAtRuntime h
    rw [ho] at hfrom
    cases o with
    | none =>
        have := Except.ok.inj ((getStringAtRuntime_none ho).symm.trans h)
        cases this
    | some sig' =>
        have := parsed_eq_some hfrom.symm
        cases this

/-- **Which functions implement a method**: those made of types for its types, of which the most
exact one gives its signature back if that can be done. -/
theorem implementations {cfg : BuildConfig} (hcfg : cfg.Checks) (a : Annotated) (m : MethodType) :
    (∀ F, matchJniDescriptorWithFunctionType cfg a.nativeKind F (m.signature.length + 1) m.signature =
      .ok true ↔ Implements a m F) ∧
    ((∃ F, matchJniDescriptorWithFunctionType cfg a.nativeKind F (m.signature.length + 1)
      m.signature = .ok true) ↔ (a = .criticalNative → m.IsPrimitive)) ∧
    ((a = .criticalNative → m.IsPrimitive) → ∀ isStatic,
      Implements a m (m.implementation a isStatic) ∧
      (getStringAtRuntime cfg a.nativeKind (m.implementation a isStatic) = .ok m.signature ↔
        m.IsExact)) := by
  refine ⟨match_iff_implements hcfg a m, ⟨?_, fun hm => ?_⟩, fun hm isStatic => ?_⟩
  · rintro ⟨F, hF⟩
    exact ((match_iff_implements hcfg a m F).mp hF).critical
  · exact ⟨_, (match_iff_implements hcfg a m _).mpr (implementation_implements hm true)⟩
  · exact ⟨implementation_implements hm isStatic, getStringAtRuntime_implementation_iff hcfg hm isStatic⟩

/-- `long f(String, int[])` is implemented by a function its signature is inferred from. -/
theorem implementations_long :
    getStringAtRuntime .fatal .kNormalNative
      (MethodType.implementation .unannotated false
        ⟨[.clazz javaLangString, .array (.primitive .int)], some (.primitive .long)⟩) =
      .ok "(Ljava/lang/String;[I)J".toList := by
  have h := (implementations BuildConfig.fatal_checks .unannotated
    ⟨[.clazz javaLangString, .array (.primitive .int)], some (.primitive .long)⟩).2.2
    (by rintro ⟨⟩) false
  refine h.2.mpr ⟨?_, ?_⟩
  · rintro _ ⟨⟩
    trivial
  · intro t ht
    rcases List.mem_pair.mp ht with rfl | rfl
    · exact .inr rfl
    · trivial

end NativeHelper
