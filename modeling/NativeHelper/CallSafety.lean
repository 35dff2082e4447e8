import NativeHelper.MethodTypes
import NativeHelper.Inference
import NativeHelper.Shapes

/-! # What a native method is called with

The VM calls the function that was registered for a native method with the environment, the receiver
and the arguments of the call, a critical native with the arguments alone.  A C++ type of the table
stands for the values of one Java type, except for `jobject`, `jarray` and `jobjectArray`, which
stand for all references, all arrays and all arrays of references (`CppType.Admits`).

A signature that the checker accepts for a function hands it values of its parameter types only
(`passed_admitted`).  Two things the checker does not know are left to its users: that a class given
as a `jthrowable` is one, and that a method whose receiver is a `jclass` is static.  What a function
of a final return type returns is of the type of the method (`returned_hasType`). -/

namespace NativeHelper

open JavaTypes

/-! ### C++ types with one descriptor -/

def javaLangClass : ClassName := ⟨"java/lang/Class".toList, by decide, List.all_eq_true.mp (by decide)⟩

def javaLangString : ClassName := ⟨"java/lang/String".toList, by decide, List.all_eq_true.mp (by decide)⟩

def javaLangThrowable : ClassName := ⟨"java/lang/Throwable".toList, by decide, List.all_eq_true.mp (by decide)⟩

/-- The Java type of a C++ type that has one descriptor. -/
def exactType : CppType → Option (JavaType ClassName)
  | .jboolean => some (.primitive .boolean)
  | .jbyte => some (.primitive .byte)
  | .jchar => some (.primitive .char)
  | .jshort => some (.primitive .short)
  | .jint => some (.primitive .int)
  | .jlong => some (.primitive .long)
  | .jfloat => some (.primitive .float)
  | .jdouble => some (.primitive .double)
  | .jclass => some (.clazz javaLangClass)
  | .jstring => some (.clazz javaLangString)
  | .jbooleanArray => some (.array (.primitive .boolean))
  | .jbyteArray => some (.array (.primitive .byte))
  | .jcharArray => some (.array (.primitive .char))
  | .jshortArray => some (.array (.primitive .short))
  | .jintArray => some (.array (.primitive .int))
  | .jlongArray => some (.array (.primitive .long))
  | .jfloatArray => some (.array (.primitive .float))
  | .jdoubleArray => some (.array (.primitive .double))
  | _ => none

/-! ### What a descriptor says about its type -/

theorem pattern_of_exactType {T : CppType} {t : JavaType ClassName} (h : exactType T = some t) :
    descriptorPattern T = .only (typeDescriptorOf t) := by
  cases T <;> cases h <;> rfl

/-- Such a C++ type goes with its Java type alone. -/
theorem eq_of_related_exact {T : CppType} {t u : JavaType ClassName} (h : exactType T = some t)
    (hr : Related (typeDescriptorOf u) T) : u = t := by
  rw [Related, pattern_of_exactType h] at hr
  exact typeDescriptorOf_injective hr

/-- A descriptor that begins like that of a class is one. -/
theorem exists_clazz {t : JavaType ClassName} (h : (typeDescriptorOf t).head? = some 'L') :
    ∃ c, t = .clazz c := by
  cases t with
  | primitive p => exact absurd (Option.some.inj h) (primitiveLetter_ne p).1
  | clazz c => exact ⟨c, rfl⟩
  | array t => exact absurd (Option.some.inj h) (by decide)

theorem exists_array {t : JavaType ClassName} {w : StringView}
    (h : '[' :: w <+: typeDescriptorOf t) : ∃ u, t = .array u ∧ w <+: typeDescriptorOf u := by
  cases t with
  | primitive p =>
      exact absurd (List.cons_prefix_cons.mp h).1.symm (primitiveLetter_ne p).2
  | clazz c => exact absurd (List.cons_prefix_cons.mp h).1 (by decide)
  | array u => exact ⟨u, rfl, (List.cons_prefix_cons.mp h).2⟩

/-- Only references have a descriptor of more than a letter. -/
theorem isReference_of_prefix {t : JavaType ClassName} {c : Char} (hc : c ∉ primitiveLetters)
    (h : [c] <+: typeDescriptorOf t) : t.IsReference := by
  cases t with
  | primitive p =>
      refine absurd ?_ hc
      rw [(List.cons_prefix_cons.mp h).1]
      exact primitiveLetter_mem p
  | clazz c => exact trivial
  | array u => exact trivial

section values
variable [ClassHierarchy ClassName]

/-! ### The values -/

/-- The value is one of the C++ type. -/
def CppType.Admits : CppType → Value ClassName → Prop
  | .jobject, v => v = .null ∨ ∃ made id, v = .object made id
  | .jthrowable, v => HasType v (.clazz javaLangThrowable)
  | .jarray, v => v = .null ∨ ∃ t id, v = .object (.array t) id
  | .jobjectArray, v => v = .null ∨ ∃ t id, t.IsReference ∧ v = .object (.array t) id
  | T, v => ∃ t, exactType T = some t ∧ HasType v t

theorem admits_of_exactType {T : CppType} {t : JavaType ClassName} (h : exactType T = some t)
    (v : Value ClassName) : T.Admits v ↔ HasType v t := by
  have hiff : (∃ u, exactType T = some u ∧ HasType v u) ↔ HasType v t := by
    constructor
    · rintro ⟨u, hu, hv⟩
      rw [h] at hu
      rwa [Option.some.inj hu]
    · exact fun hv => ⟨t, h, hv⟩
  cases T <;> first | exact hiff | cases h

/-! ### One component -/

/-- A value of an array type. -/
theorem eq_of_hasType_array {v : Value ClassName} {u : JavaType ClassName}
    (h : HasType v (.array u)) : v = .null ∨ ∃ w id, w.Sub u ∧ v = .object (.array w) id := by
  cases v with
  | primitive p bits => cases h
  | null => exact .inl rfl
  | object made id =>
      obtain ⟨w, rfl, hw⟩ := JavaType.sub_array_iff.mp h.2
      exact .inr ⟨w, id, hw, rfl⟩

/-- **One component**: the values of the descriptor are values of the C++ type, as long as what is
given as a `jthrowable` is one. -/
theorem admits_of_related {T : CppType} {t : JavaType ClassName}
    (hr : Related (typeDescriptorOf t) T)
    (ht : T = .jthrowable → t.Sub (.clazz javaLangThrowable)) {v : Value ClassName}
    (hv : HasType v t) : T.Admits v := by
  cases he : exactType T with
  | some u =>
      obtain rfl := eq_of_related_exact he hr
      exact (admits_of_exactType he v).mpr hv
  | none =>
      cases T with
      | jobject =>
          obtain ⟨c, rfl⟩ := exists_clazz hr.1
          cases v with
          | primitive p bits => cases hv
          | null => exact .inl rfl
          | object made id => exact .inr ⟨made, id, rfl⟩
      | jthrowable => exact hv.mono (ht rfl)
      | jarray =>
          obtain ⟨p, hp, hpre⟩ := hr
          obtain rfl := List.mem_singleton.mp hp
          obtain ⟨u, rfl, _⟩ := exists_array hpre
          rcases eq_of_hasType_array hv with rfl | ⟨w, id, _, rfl⟩
          · exact .inl rfl
          · exact .inr ⟨w, id, rfl⟩
      | jobjectArray =>
          obtain ⟨p, hp, hpre⟩ := hr
          have hcomp : ∃ u, t = .array u ∧ u.IsReference := by
            rcases List.mem_pair.mp hp with rfl | rfl
            · obtain ⟨u, rfl, hu⟩ := exists_array hpre
              exact ⟨u, rfl, isReference_of_prefix (by decide) hu⟩
            · obtain ⟨u, rfl, hu⟩ := exists_array hpre
              exact ⟨u, rfl, isReference_of_prefix (by decide) hu⟩
          obtain ⟨u, rfl, hu⟩ := hcomp
          rcases eq_of_hasType_array hv with rfl | ⟨w, id, hw, rfl⟩
          · exact .inl rfl
          · exact .inr ⟨w, id, hw.isReference_iff.mpr hu, rfl⟩
      | void =>
          refine absurd hr ?_
          exact typeDescriptorOf_ne_void t
      | jniEnvPtr | other n =>
          obtain ⟨p, hp, _⟩ := hr
          cases hp
      | _ => cases he

/-- The components of the arguments. -/
theorem forall₂_admits {ts : List (JavaType ClassName)} {Ts : List CppType}
    {args : List (Value ClassName)} (hr : List.Forall₂ Related (ts.map typeDescriptorOf) Ts)
    (ht : ∀ p ∈ ts.zip Ts, p.2 = .jthrowable → p.1.Sub (.clazz javaLangThrowable))
    (hargs : List.Forall₂ HasType args ts) : List.Forall₂ CppType.Admits Ts args := by
  induction hargs generalizing Ts with
  | nil =>
      cases hr
      exact .nil
  | @cons v t args ts hv _ ih =>
      cases hr with
      | cons hd hds =>
          refine .cons (admits_of_related hd (ht _ List.mem_cons_self) hv) ?_
          exact ih hds fun p hp => ht p (List.mem_cons_of_mem _ hp)

/-! ### A call -/

/-- A native method as it is declared: its annotation says how it is called. -/
structure NativeDeclaration where
  isStatic : Bool
  kind : NativeKind
  type : MethodType

/-- What a C++ function is given. -/
inductive Passed where
  | env
  | value (v : Value ClassName)

/-- What may be given for a parameter. -/
def CppType.Takes (T : CppType) : Passed → Prop
  | .env => T = .jniEnvPtr
  | .value v => T.Admits v

/-- What the VM calls a function with. -/
def passed (kind : NativeKind) (receiver : Value ClassName) (args : List (Value ClassName)) :
    List Passed :=
  if kind = .kCriticalNative then args.map .value
  else .env :: .value receiver :: args.map .value

/-- The object a method of this class is called on, or its class. -/
def IsReceiver (isStatic : Bool) (c : ClassName) (v : Value ClassName) : Prop :=
  v ≠ .null ∧ HasType v (.clazz (if isStatic then javaLangClass else c))

/-- What is left to the users of the checker. -/
structure UsedRight (decl : NativeDeclaration) (F : FunctionType) : Prop where
  /-- What is given as a `jthrowable` is one. -/
  throwables : ∀ p ∈ decl.type.args.zip (F.javaArgs decl.kind), p.2 = .jthrowable →
    p.1.Sub (.clazz javaLangThrowable)
  /-- A method with a class for its receiver is static. -/
  receiver : F.args[1]? = some .jclass → decl.isStatic = true

variable {cfg : BuildConfig} {decl : NativeDeclaration} {F : FunctionType} {kMaxSize : ℕ}

omit [ClassHierarchy ClassName] in
/-- What is known of an accepted function. -/
theorem related_of_match (hcfg : cfg.Checks) (hroom : decl.type.signature.length ≤ kMaxSize)
    (hm : matchJniDescriptorWithFunctionType cfg decl.kind F kMaxSize decl.type.signature =
      .ok true) :
    F.ValidShape decl.kind ∧ Related (returnDescriptorOf decl.type.ret) F.ret.type ∧
      List.Forall₂ Related (decl.type.args.map typeDescriptorOf) (F.javaArgs decl.kind) := by
  obtain ⟨hv, _, args, ret, hs, hret, hargs⟩ := (match_iff hcfg hroom).mp hm
  obtain ⟨rfl, rfl⟩ := decl.type.signature_eq.unique hs
  refine ⟨?_, hret, hargs⟩
  rw [isValidJniFunctionType_eq cfg (isMethod_of_isValidJniFunctionType cfg hv)] at hv
  exact of_decide_eq_true (Except.ok.inj hv)

/-- The receiver of a call is a value of a receiver type. -/
theorem admits_receiver {T : CppType} (hT : T = .jobject ∨ T = .jclass) {isStatic : Bool}
    (hs : T = .jclass → isStatic = true) {c : ClassName} {v : Value ClassName}
    (hv : IsReceiver isStatic c v) : T.Admits v := by
  obtain ⟨hne, hv⟩ := hv
  rcases hT with rfl | rfl
  · cases v with
    | primitive p bits => cases hv
    | null => exact absurd rfl hne
    | object made id => exact .inr ⟨made, id, rfl⟩
  · rw [if_pos (hs rfl)] at hv
    exact (admits_of_exactType rfl v).mpr hv

omit [ClassHierarchy ClassName] in
/-- What stands in front of the arguments of a normal or fast native. -/
theorem exists_of_instanceArgs {args : List CppType} (h : FunctionType.InstanceArgs args) :
    ∃ T Ts, args = .jniEnvPtr :: T :: Ts ∧ (T = .jobject ∨ T = .jclass) := by
  cases args with
  | nil => exact h.elim
  | cons env args => cases args with
    | nil => exact h.elim
    | cons T Ts =>
        obtain ⟨rfl, hT, _⟩ := h
        exact ⟨T, Ts, rfl, hT⟩

/-- **A call hands over values of the parameter types**, one for each. -/
theorem passed_admitted (hcfg : cfg.Checks) (hroom : decl.type.signature.length ≤ kMaxSize)
    (hm : matchJniDescriptorWithFunctionType cfg decl.kind F kMaxSize decl.type.signature =
      .ok true)
    (hu : UsedRight decl F) {c : ClassName} {receiver : Value ClassName}
    (hreceiver : IsReceiver decl.isStatic c receiver) {args : List (Value ClassName)}
    (hargs : List.Forall₂ HasType args decl.type.args) :
    List.Forall₂ CppType.Takes F.args (passed decl.kind receiver args) := by
  obtain ⟨hshape, _, hr⟩ := related_of_match hcfg hroom hm
  have hadmits := forall₂_admits hr hu.throwables hargs
  have htakes : List.Forall₂ CppType.Takes (F.javaArgs decl.kind) (args.map Passed.value) := by
    rw [List.forall₂_map_right_iff]
    exact hadmits
  -- in front of them a normal or fast native has the environment and the receiver
  have hinstance : ∀ kind, kind ≠ .kCriticalNative → F.InstanceShape →
      List.Forall₂ CppType.Takes (F.javaArgs kind) (args.map Passed.value) →
      List.Forall₂ CppType.Takes F.args (passed kind receiver args) := by
    intro kind hk hF htakes
    obtain ⟨T, Ts, hF, hT⟩ := exists_of_instanceArgs hF.2
    rw [FunctionType.javaArgs, kSkipArgumentPrefix, if_pos hk, hF] at htakes
    have hrecv := hu.receiver
    rw [hF] at hrecv ⊢
    rw [passed, if_neg hk]
    refine .cons rfl (.cons (admits_receiver hT (fun h => hrecv ?_) hreceiver) htakes)
    rw [h]
    rfl
  cases hkind : decl.kind with
  | kNotJni | kNormalJniCallingConventionParameter =>
      rw [hkind] at hshape
      exact hshape.elim
  | kNormalNative | kFastNative =>
      rw [hkind] at hshape htakes
      exact hinstance _ (by decide) hshape htakes
  | kCriticalNative =>
      rw [hkind] at htakes
      exact htakes

/-- A final type has the values of its descriptor. -/
theorem hasType_of_related_final {T : CppType} (hf : (jniTypeTraitOf T).typeFinality = .kFinal)
    {r : Option (JavaType ClassName)} (hr : Related (returnDescriptorOf r) T) {v : Value ClassName}
    (hv : T.Admits v) : ∃ t, r = some t ∧ HasType v t := by
  cases he : exactType T with
  | none => cases T with
    | jobject | jthrowable | jarray | jobjectArray => exact absurd hf (by decide)
    | void | jniEnvPtr | other n =>
        obtain ⟨t, ht, _⟩ := hv
        cases ht
    | _ => cases he
  | some t =>
      rw [Related, pattern_of_exactType he] at hr
      have hret : returnDescriptorOf r = returnDescriptorOf (some t) := hr
      exact ⟨t, returnDescriptorOf_injective hret, (admits_of_exactType he v).mp hv⟩

/-- **What a function of a final type returns is of the type of the method**; if it returns nothing,
neither does the method. -/
theorem returned_hasType (hcfg : cfg.Checks) (hroom : decl.type.signature.length ≤ kMaxSize)
    (hm : matchJniDescriptorWithFunctionType cfg decl.kind F kMaxSize decl.type.signature =
      .ok true) :
    (F.ret.type = .void ↔ decl.type.ret = none) ∧
    ((jniTypeTraitOf F.ret.type).typeFinality = .kFinal → ∀ v, F.ret.type.Admits v →
      ∃ t, decl.type.ret = some t ∧ HasType v t) := by
  obtain ⟨_, hr, _⟩ := related_of_match hcfg hroom hm
  refine ⟨⟨fun h => ?_, fun h => ?_⟩, fun hf v hv => hasType_of_related_final hf hr hv⟩
  · rw [h] at hr
    exact @returnDescriptorOf_injective decl.type.ret none hr
  · rw [h] at hr
    revert hr
    cases F.ret.type with
    | void => exact fun _ => rfl
    | jniEnvPtr | other n =>
        rintro ⟨p, hp, _⟩
        cases hp
    | _ => exact fun hr => absurd hr (by decide)

end values

end NativeHelper
