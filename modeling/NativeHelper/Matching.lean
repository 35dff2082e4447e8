import Mathlib.Data.List.Forall2
import NativeHelper.Compare
import NativeHelper.ParserExact
import NativeHelper.Reify

/-! # Matching a signature with a function type

`matchJniDescriptorWithFunctionType` reifies the function type, parses the signature and compares
the components from left to right.  In every configuration that notices parse failures it accepts
exactly the signatures whose descriptors go with the components of a valid function type
(`match_iff`); `matchJniDescriptorWithFunctionType_iff` is this in the terms of the header.

The rule for `jthrowable` is tried before the one for final types, so a match is strict exactly
if it pairs no `jthrowable` with `String` or `Class` (`strictMatch_iff`). -/

namespace NativeHelper

section matching
variable (cfg : BuildConfig)

/-- The loop over the arguments, `n` indices from `i` on. -/
def compareArgs {kMaxSize kReifiedMaxSize : ℕ} (user : ConstexprVector JniDescriptorNode kMaxSize)
    (reified : ConstexprVector ReifiedJniTypeTrait kReifiedMaxSize) : ℕ → ℕ → Eval Bool
  | 0, _ => .ok true
  | n + 1, i => do
      let u ← user.get i
      let r ← reified.get i
      if !(← compareJniDescriptorNodeErased cfg u r) then .ok false
      else compareArgs user reified n (i + 1)

/-- What `MatchJniDescriptorWithFunctionType` does with the two signatures. -/
def compareSignature {kMaxSize kReifiedMaxSize : ℕ}
    (reifiedSignature : ReifiedJniSignature kReifiedMaxSize)
    (userJniSigDesc : JniSignatureDescriptor kMaxSize) : Eval Bool := do
  if reifiedSignature.args.size ≠ userJniSigDesc.args.size then .ok false
  else if !(← compareJniDescriptorNodeErased cfg userJniSigDesc.ret reifiedSignature.ret) then
    .ok false
  else compareArgs cfg userJniSigDesc.args reifiedSignature.args userJniSigDesc.args.size 0

/-- `MatchJniDescriptorWithFunctionType`. -/
def matchJniDescriptorWithFunctionType (nativeKind : NativeKind) (F : FunctionType) (kMaxSize : ℕ)
    (userFunctionDescriptor : StringView) : Eval Bool := do
  match ← maybeMakeReifiedJniSignature cfg nativeKind F with
  | none => .ok false
  | some reifiedSignature =>
      match ← parseSignatureAsList cfg kMaxSize userFunctionDescriptor with
      | none => .ok false
      | some userJniSigDesc => compareSignature cfg reifiedSignature userJniSigDesc

/-! ### The comparison of the components -/

section components
variable {kMaxSize kReifiedMaxSize : ℕ}

/-- The loop compares what is left of both lists. -/
theorem compareArgs_eq {user : ConstexprVector JniDescriptorNode kMaxSize}
    {reified : ConstexprVector ReifiedJniTypeTrait kReifiedMaxSize} {types : List CppType}
    (hwf : ∀ u ∈ user.elems, TypeDescriptor u.longy) (ht : reified.elems = types.map jniTypeTraitOf)
    (hlen : user.elems.length = types.length) (n i : ℕ) (hi : i + n = user.elems.length) :
    compareArgs cfg user reified n i =
      .ok (decide (List.Forall₂ Related ((user.elems.drop i).map (·.longy)) (types.drop i))) := by
  induction n generalizing i with
  | zero =>
      have h1 : user.elems.drop i = [] := List.drop_eq_nil_of_le (by omega)
      have h2 : types.drop i = [] := List.drop_eq_nil_of_le (by omega)
      rw [h1, h2]
      rfl
  | succ n ih =>
      have hu : i < user.elems.length := by omega
      have hT : i < types.length := by omega
      have e1 : user.get i = .ok user.elems[i] :=
        user.get_of_getElem? (List.getElem?_eq_getElem hu)
      have e2 : reified.get i = .ok (jniTypeTraitOf types[i]) :=
        reified.get_of_getElem? (by rw [ht, List.getElem?_map, List.getElem?_eq_getElem hT]; rfl)
      have hd := hwf _ (List.getElem_mem hu)
      rw [List.drop_eq_getElem_cons hu, List.drop_eq_getElem_cons hT, List.map_cons]
      simp only [compareArgs, e1, e2, eval_bind_ok, ih (i + 1) (by omega),
        compareJniDescriptorNodeErased_eq cfg (.inl hd), List.forall₂_cons]
      by_cases h : Related user.elems[i].longy types[i] <;> simp [h]

/-- The number of components is compared first, so the loop never leaves the shorter list. -/
theorem compareSignature_eq {reified : ReifiedJniSignature kReifiedMaxSize}
    {user : JniSignatureDescriptor kMaxSize} {types : List CppType} {R : CppType}
    (hargs : ∀ d ∈ user.tokens.1, TypeDescriptor d) (hret : ReturnDescriptor user.tokens.2)
    (ht : reified.args.elems = types.map jniTypeTraitOf) (hR : reified.ret = jniTypeTraitOf R) :
    compareSignature cfg reified user =
      .ok (decide (Related user.tokens.2 R ∧ List.Forall₂ Related user.tokens.1 types)) := by
  unfold compareSignature ConstexprVector.size
  have hl : reified.args.elems.length = types.length := by rw [ht, List.length_map]
  by_cases hlen : user.args.elems.length = types.length
  · have hc := compareJniDescriptorNodeErased_eq cfg hret R
    have ha := compareArgs_eq cfg (fun u hu => hargs _ (List.mem_map_of_mem hu)) ht hlen
      user.args.elems.length 0 (Nat.zero_add _)
    rw [if_neg (by omega), hR, show user.ret = ⟨user.tokens.2⟩ from rfl, hc, eval_bind_ok, ha]
    rw [List.drop_zero, List.drop_zero]
    by_cases h : Related user.tokens.2 R
    · simp only [h, decide_true, Bool.not_true, Bool.false_eq_true, if_false, true_and]
      rfl
    · simp [h]
  · have hf : ¬ List.Forall₂ Related user.tokens.1 types := by
      intro h
      have := h.length_eq
      simp only [FunctionSignatureDescriptor.tokens, List.length_map] at this
      exact hlen this
    rw [if_pos (by omega)]
    simp [hf]

end components

end matching

/-! ### Acceptance -/

section acceptance
variable {cfg : BuildConfig} {nativeKind : NativeKind} {F : FunctionType} {kMaxSize : ℕ}
  {s : StringView} {args : List StringView} {ret : StringView}

/-- On a valid function type without qualifiers a signature is accepted or not according to its
descriptors. -/
theorem match_of_signature (hcfg : cfg.Checks)
    (hv : isValidJniFunctionType cfg nativeKind F = .ok true) (hF : F.ret.Unqualified)
    (hroom : s.length ≤ kMaxSize) (hs : Signature s args ret) :
    matchJniDescriptorWithFunctionType cfg nativeKind F kMaxSize s =
      .ok (decide (Related ret F.ret.type ∧ List.Forall₂ Related args (F.javaArgs nativeKind))) := by
  obtain ⟨user, hp, htok⟩ := parseSignatureAsList_of_signature hcfg hroom hs
  obtain ⟨_, hargs, hret⟩ := hs
  have e := @compareSignature_eq cfg _ _ (reifiedSignature nativeKind F) user
    (F.javaArgs nativeKind) F.ret.type (by rw [htok]; exact hargs) (by rw [htok]; exact hret) rfl rfl
  rw [htok] at e
  simp only [matchJniDescriptorWithFunctionType, maybeMakeReifiedJniSignature_eq hv hF, eval_bind_ok,
    hp, e]

/-- What is accepted is a signature, and the function type is valid. -/
theorem of_match (hcfg : cfg.Checks) (hroom : s.length ≤ kMaxSize)
    (h : matchJniDescriptorWithFunctionType cfg nativeKind F kMaxSize s = .ok true) :
    isValidJniFunctionType cfg nativeKind F = .ok true ∧ F.ret.Unqualified ∧
      ∃ args ret, Signature s args ret := by
  unfold matchJniDescriptorWithFunctionType at h
  obtain ⟨o, hm, h⟩ := eval_bind_eq_ok.mp h
  cases o with
  | none => cases h
  | some reified =>
      have hv : isValidJniFunctionType cfg nativeKind F = .ok true := by
        by_contra hv
        exact maybeMakeReifiedJniSignature_invalid hcfg hv reified hm
      obtain ⟨p, hp, h⟩ := eval_bind_eq_ok.mp h
      cases p with
      | none => cases h
      | some user =>
          have hs := signature_of_parseSignatureAsList hcfg hroom hp
          refine ⟨hv, ?_, _, _, hs⟩
          -- a qualified return type reifies to a row that goes with no descriptor
          by_contra hq
          obtain ⟨hargs, hret⟩ := reified_of_valid hv hm
          have hill : jniTypeTrait F.ret = jniTypeTraitOf (.other 0) := if_neg hq
          have he := compareSignature_eq cfg hs.2.1 hs.2.2 hargs (hret.trans hill)
          obtain ⟨⟨_, hp, _⟩, _⟩ := of_decide_eq_true (Except.ok.inj (he.symm.trans h))
          cases hp

/-- **Acceptance**, in every configuration that notices parse failures. -/
theorem match_iff (hcfg : cfg.Checks) (hroom : s.length ≤ kMaxSize) :
    matchJniDescriptorWithFunctionType cfg nativeKind F kMaxSize s = .ok true ↔
      isValidJniFunctionType cfg nativeKind F = .ok true ∧ F.ret.Unqualified ∧
      ∃ args ret, Signature s args ret ∧ Related ret F.ret.type ∧
        List.Forall₂ Related args (F.javaArgs nativeKind) := by
  constructor
  · intro h
    obtain ⟨hv, hF, args, ret, hs⟩ := of_match hcfg hroom h
    rw [match_of_signature hcfg hv hF hroom hs] at h
    exact ⟨hv, hF, args, ret, hs, of_decide_eq_true (Except.ok.inj h)⟩
  · rintro ⟨hv, hF, args, ret, hs, hrel⟩
    rw [match_of_signature hcfg hv hF hroom hs, decide_eq_true hrel]

end acceptance

/-- **Exact acceptance of the checker** for function types without qualifiers. -/
theorem matchJniDescriptorWithFunctionType_iff (nativeKind : NativeKind) (F : FunctionType)
    (hF : F.ret.Unqualified) (s : StringView) :
    matchJniDescriptorWithFunctionType .nonfatal nativeKind F (s.length + 1) s = .ok true ↔
      isValidJniFunctionType .nonfatal nativeKind F = .ok true ∧
      ∃ args ret, Signature s args ret ∧
        args.length = (F.args.drop (kSkipArgumentPrefix nativeKind)).length ∧
        Related ret F.ret.type ∧
        List.Forall₂ Related args (F.args.drop (kSkipArgumentPrefix nativeKind)) := by
  rw [match_iff BuildConfig.nonfatal_checks (Nat.le_succ _)]
  constructor
  · rintro ⟨hv, _, args, ret, hs, hret, hargs⟩
    exact ⟨hv, args, ret, hs, hargs.length_eq, hret, hargs⟩
  · rintro ⟨hv, args, ret, hs, _, hret, hargs⟩
    exact ⟨hv, hF, args, ret, hs, hret, hargs⟩

/-- `jint f(JNIEnv*, jobject, jthrowable)`. -/
def intOfThrowable : FunctionType :=
  ⟨CppType.jint.plain, [.jniEnvPtr, .jobject, .jthrowable], by decide⟩

theorem intOfThrowable_accepts :
    matchJniDescriptorWithFunctionType .nonfatal .kNormalNative intOfThrowable
      ("(LE;)I".toList.length + 1) "(LE;)I".toList = .ok true := by
  have hs : Signature "(LE;)I".toList ["LE;".toList] "I".toList := readSignature_iff.mp (by decide)
  apply (matchJniDescriptorWithFunctionType_iff .kNormalNative intOfThrowable (by decide) _).mpr
  exact ⟨by decide, _, _, hs, by decide, by decide, by decide⟩

/-! ### Strong matches -/

/-- The final JNI types that are not arrays. -/
def strongTypes : List CppType :=
  [.void, .jboolean, .jbyte, .jchar, .jshort, .jint, .jlong, .jfloat, .jdouble, .jstring, .jclass]

/-- If the token is the descriptor of a strong type, the component is of that type. -/
def StrictMatch (d : StringView) (T : CppType) : Prop :=
  ∀ U ∈ strongTypes, d = (jniTypeTraitOf U).typeDescriptor → T = U

instance (d : StringView) (T : CppType) : Decidable (StrictMatch d T) :=
  inferInstanceAs (Decidable (∀ U ∈ strongTypes, d = _ → T = U))

/-- A `jthrowable` with the descriptor of a final class. -/
def ThrowableOfFinalClass (d : StringView) (T : CppType) : Prop :=
  T = .jthrowable ∧ (d = "Ljava/lang/String;".toList ∨ d = "Ljava/lang/Class;".toList)

/-- The components of a signature with the types they are matched with. -/
def components (nativeKind : NativeKind) (F : FunctionType) (args : List StringView)
    (ret : StringView) : List (StringView × CppType) :=
  (ret, F.ret.type) :: args.zip (F.javaArgs nativeKind)

/-- Among the rows only `jthrowable` goes with the descriptor of another strong type. -/
theorem strong_related : ∀ U ∈ strongTypes, ∀ T ∈ CppType.other 0 :: jniTypes,
    Related (jniTypeTraitOf U).typeDescriptor T →
      T = U ∨ T = .jthrowable ∧ (U = .jstring ∨ U = .jclass) := by
  decide +kernel

theorem strictMatch_iff_of_related {d : StringView} {T : CppType} (h : Related d T) :
    StrictMatch d T ↔ ¬ ThrowableOfFinalClass d T := by
  constructor
  · rintro hs ⟨rfl, rfl | rfl⟩
    · exact absurd (hs .jstring (by decide) rfl) (by decide)
    · exact absurd (hs .jclass (by decide) rfl) (by decide)
  · rintro ht U hU rfl
    have hT : T ∈ CppType.other 0 :: jniTypes := by
      cases T with
      | other n =>
          obtain ⟨p, hp, _⟩ := h
          cases hp
      | _ => decide
    rcases strong_related U hU T hT h with rfl | ⟨rfl, rfl | rfl⟩
    · rfl
    · exact absurd ⟨rfl, .inl rfl⟩ ht
    · exact absurd ⟨rfl, .inr rfl⟩ ht

/-- **An accepted signature is matched strictly** exactly if it pairs no `jthrowable` with
`String` or `Class`. -/
theorem strictMatch_iff {cfg : BuildConfig} (hcfg : cfg.Checks) (nativeKind : NativeKind)
    (F : FunctionType) {kMaxSize : ℕ} {s : StringView} (hroom : s.length ≤ kMaxSize)
    (h : matchJniDescriptorWithFunctionType cfg nativeKind F kMaxSize s = .ok true)
    {args : List StringView} {ret : StringView} (hs : Signature s args ret) :
    (∀ c ∈ components nativeKind F args ret, StrictMatch c.1 c.2) ↔
      ∀ c ∈ components nativeKind F args ret, ¬ ThrowableOfFinalClass c.1 c.2 := by
  obtain ⟨_, _, args', ret', hs', hret, hargs⟩ := (match_iff hcfg hroom).mp h
  obtain ⟨rfl, rfl⟩ := hs.unique hs'
  have related : ∀ c ∈ components nativeKind F args ret, Related c.1 c.2 := by
    rintro ⟨d, T⟩ hc
    rcases List.mem_cons.mp hc with e | hc
    · cases e
      exact hret
    · exact List.forall₂_zip hargs hc
  constructor
  · exact fun hall c hc => (strictMatch_iff_of_related (related c hc)).mp (hall c hc)
  · exact fun hall c hc => (strictMatch_iff_of_related (related c hc)).mpr (hall c hc)

theorem intOfThrowable_strict :
    StrictMatch "I".toList .jint ∧ StrictMatch "LE;".toList .jthrowable := by
  have hs : Signature "(LE;)I".toList ["LE;".toList] "I".toList := readSignature_iff.mp (by decide)
  have hm : matchJniDescriptorWithFunctionType .fatal .kNormalNative intOfThrowable 6
      "(LE;)I".toList = .ok true := by decide +kernel
  have h := (strictMatch_iff BuildConfig.fatal_checks .kNormalNative intOfThrowable (by decide)
    hm hs).mpr (by
      simp [components, ThrowableOfFinalClass, FunctionType.javaArgs, kSkipArgumentPrefix,
        intOfThrowable])
  exact ⟨h ("I".toList, .jint) (by decide), h ("LE;".toList, .jthrowable) (by decide)⟩

/-- `(Ljava/lang/String;)I` is accepted for `jint f(JNIEnv*, jobject, jthrowable)`. -/
theorem intOfThrowable_accepts_string :
    matchJniDescriptorWithFunctionType .nonfatal .kNormalNative intOfThrowable
      ("(Ljava/lang/String;)I".toList.length + 1) "(Ljava/lang/String;)I".toList = .ok true ∧
    Signature "(Ljava/lang/String;)I".toList ["Ljava/lang/String;".toList] "I".toList ∧
    ¬ ∀ c ∈ components .kNormalNative intOfThrowable ["Ljava/lang/String;".toList] "I".toList,
      StrictMatch c.1 c.2 := by
  refine ⟨by decide +kernel, readSignature_iff.mp (by decide +kernel), ?_⟩
  decide +kernel

end NativeHelper
