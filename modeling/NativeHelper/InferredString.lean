import NativeHelper.BuildModes

/-! # The inferred string

`CalculateStringSize` adds up a size in one loop and `GetString` fills an array of that size in
others.  In the nonfatal build they agree whether or not inference succeeds: no write leaves the
array, and its first NUL is its last character (`getString_fills_buffer`).

The string determines what it was inferred from.  A signature has one decomposition, and the table
has one final type for a descriptor, so the return type and the arguments behind the prefix can be
read back from it (`getStringAtRuntime_injective`). -/

namespace NativeHelper

/-- `InferJniDescriptor::GetStringAtRuntime`, as the C string at the pointer it returns. -/
def getStringAtRuntime (cfg : BuildConfig) (nativeKind : NativeKind) (F : FunctionType) :
    Eval StringView := do
  let kMaxStringSize ← calculateStringSize cfg nativeKind F
  let str ← getString cfg nativeKind F kMaxStringSize
  .ok (cString str)

/-! ### The buffer -/

/-- An array that ends in its only NUL is a C string. -/
theorem cString_of_elems {N : ℕ} {str : ConstexprArray Char N} {s : StringView}
    (h : str.elems = s ++ ['\x00']) (hnul : '\x00' ∉ s) : cString str = s := by
  have hpos : ∀ c ∈ s, decide (c ≠ '\x00') = true := by
    intro c hc
    apply decide_eq_true
    rintro rfl
    exact hnul hc
  rw [cString, h, List.takeWhile_append_of_pos hpos]
  simp

section buffer
variable {cfg : BuildConfig} {nativeKind : NativeKind} {F : FunctionType}

/-- What is inferred is the canonical signature of a valid function type. -/
theorem inferred_of_some (hc : cfg.Checks) (hk : nativeKind.IsMethod)
    (hF : F.ret.Unqualified) {sig : JniSignatureDescriptor F.count}
    (h : fromFunctionType cfg nativeKind F = .ok (some sig)) :
    isValidJniFunctionType cfg nativeKind F = .ok true ∧ F.Unambiguous nativeKind ∧
      sig.tokens = F.canonical nativeKind := by
  obtain ⟨sig', htok, e⟩ := fromFunctionType_parsed hc hk (F := F) fun _ => hF
  rw [e] at h
  have h' := parsed_eq_some h
  split_ifs at h' with hvu
  obtain rfl := Option.some.inj h'
  refine ⟨?_, hvu.2, htok⟩
  rw [isValidJniFunctionType_eq cfg hk, decide_eq_true hvu.1]

theorem longy_ne_nil {kMaxSize : ℕ} {sig : JniSignatureDescriptor kMaxSize}
    (hv : isValidJniFunctionType cfg nativeKind F = .ok true)
    (htok : sig.tokens = F.canonical nativeKind) :
    ∀ node ∈ sig.ret :: sig.args.elems, node.longy ≠ [] := by
  obtain ⟨_, hret, hargs⟩ := isMethod_of_valid hv
  obtain ⟨ha, hr⟩ := Prod.mk.inj htok
  intro node hn
  rcases List.mem_cons.mp hn with rfl | hn
  · rw [hr]
    exact (typeDescriptor_of_isMethod hret).1
  · have hmem : node.longy ∈ (F.javaArgs nativeKind).map fun T => (jniTypeTraitOf T).typeDescriptor := by
      rw [← ha]
      exact List.mem_map_of_mem hn
    obtain ⟨T, hT, e⟩ := List.mem_map.mp hmem
    rw [← e]
    exact (typeDescriptor_of_isMethod (hargs T hT)).1

theorem nul_notMem_inferred {kMaxSize : ℕ} {sig : JniSignatureDescriptor kMaxSize}
    (hv : isValidJniFunctionType cfg nativeKind F = .ok true)
    (htok : sig.tokens = F.canonical nativeKind) : '\x00' ∉ signatureString sig.tokens := by
  rw [htok]
  exact nul_notMem_canonical hv

/-- Without a signature the string is empty. -/
theorem getString_none (h : fromFunctionType cfg nativeKind F = .ok none) :
    calculateStringSize cfg nativeKind F = .ok 0 ∧
      ∃ str, getString cfg nativeKind F 0 = .ok str ∧ str.elems = ['\x00'] := by
  constructor
  · rw [calculateStringSize, h]
    rfl
  · refine ⟨⟨['\x00'], rfl⟩, ?_, rfl⟩
    rw [getString, h]
    rfl

/-- With one its NUL is the last character. -/
theorem getString_some {sig : JniSignatureDescriptor F.count}
    (h : fromFunctionType cfg nativeKind F = .ok (some sig))
    (hnul : '\x00' ∉ signatureString sig.tokens) :
    ∃ str, getString cfg nativeKind F (signatureString sig.tokens).length = .ok str ∧
      str.elems[(signatureString sig.tokens).length]? = some '\x00' ∧
      (∀ i < (signatureString sig.tokens).length, str.elems[i]? ≠ some '\x00') ∧
      cString str = signatureString sig.tokens := by
  obtain ⟨str, hstr, helems⟩ := getString_eq h
  refine ⟨str, hstr, ?_, ?_, cString_of_elems helems hnul⟩
  · rw [helems]
    simp
  · intro i hi h0
    rw [helems, List.getElem?_append_left hi] at h0
    exact hnul (List.mem_of_getElem? h0)

/-- The characters are copied up to the end of the string. -/
theorem copySignature_pos (cfg : BuildConfig) {kMaxSize : ℕ}
    (sig : JniSignatureDescriptor kMaxSize) :
    ∃ c, copySignature cfg sig (.replicate ((signatureString sig.tokens).length + 1) '\x00') =
        .ok c ∧ c.pos = (signatureString sig.tokens).length := by
  obtain ⟨c, hcopy, w⟩ := @copySignature_written cfg _ _ sig
    (.replicate ((signatureString sig.tokens).length + 1) '\x00') (Nat.le_succ _)
  exact ⟨c, hcopy, w.1⟩

/-- A size is found for the kinds of native methods, and for no other. -/
theorem calculateStringSize_returns_iff (hF : F.ret.Unqualified) :
    (∃ n, calculateStringSize .nonfatal nativeKind F = .ok n) ↔ nativeKind.IsMethod := by
  constructor
  · rintro ⟨n, h⟩
    by_contra hk
    rw [calculateStringSize, fromFunctionType_error rfl (.inl hk)] at h
    cases h
  · intro hk
    obtain ⟨sig, _, e⟩ :=
      fromFunctionType_parsed BuildConfig.nonfatal_checks hk (F := F) fun _ => hF
    rw [parsed_nonfatal] at e
    split_ifs at e
    · exact ⟨_, calculateStringSize_eq e⟩
    · exact ⟨0, (getString_none e).1⟩

end buffer

/-- **The string fills its buffer exactly**, whether or not inference succeeds: a size is found for
the kinds of native methods, every write that `GetString` makes into an array of it returns, and so
is within the array, and the first NUL of the array is its last character. -/
theorem getString_fills_buffer (nativeKind : NativeKind) (F : FunctionType)
    (hF : F.ret.Unqualified) :
    ((∃ kMaxStringSize, calculateStringSize .nonfatal nativeKind F = .ok kMaxStringSize) ↔
      nativeKind.IsMethod) ∧
    (∀ {N : ℕ} (a : ConstexprArray Char N) (i : ℕ) (value : Char),
      (∃ a', a.set i value = .ok a') ↔ i < N) ∧
    (∀ longy, (∃ node, jniDescriptorNode .nonfatal longy = .ok node) ↔ longy ≠ []) ∧
    ∀ kMaxStringSize, calculateStringSize .nonfatal nativeKind F = .ok kMaxStringSize →
      ∃ str, getString .nonfatal nativeKind F kMaxStringSize = .ok str ∧
        str.elems[kMaxStringSize]? = some '\x00' ∧
        (∀ i < kMaxStringSize, str.elems[i]? ≠ some '\x00') ∧
        (∀ sig, fromFunctionType .nonfatal nativeKind F = .ok (some sig) →
          (∃ c, copySignature .nonfatal sig (.replicate (kMaxStringSize + 1) '\x00') = .ok c ∧
            c.pos = kMaxStringSize) ∧
          (∀ node ∈ sig.ret :: sig.args.elems, node.longy ≠ []) ∧
          cString str = signatureString sig.tokens) ∧
        (fromFunctionType .nonfatal nativeKind F = .ok none →
          kMaxStringSize = 0 ∧ str.elems = ['\x00'] ∧ cString str = []) := by
  refine ⟨calculateStringSize_returns_iff hF, fun a i value => a.set_returns_iff i value,
    fun longy => jniDescriptorNode_returns_iff rfl longy, ?_⟩
  intro n hn
  have hk := (calculateStringSize_returns_iff hF).mp ⟨n, hn⟩
  obtain ⟨o, ho, _⟩ := eval_bind_eq_ok.mp hn
  cases o with
  | none =>
      obtain ⟨hsize, str, hstr, helems⟩ := getString_none ho
      obtain rfl : n = 0 := Except.ok.inj (hn.symm.trans hsize)
      refine ⟨str, hstr, by rw [helems]; rfl, by simp, ?_, ?_⟩
      · intro sig hsig
        rw [ho] at hsig
        cases hsig
      · intro _
        exact ⟨rfl, helems, cString_of_elems helems List.not_mem_nil⟩
  | some sig =>
      obtain ⟨hv, _, htok⟩ := inferred_of_some BuildConfig.nonfatal_checks hk hF ho
      obtain rfl : n = (signatureString sig.tokens).length :=
        Except.ok.inj (hn.symm.trans (calculateStringSize_eq ho))
      obtain ⟨str, hstr, hend, hbefore, hcstr⟩ := getString_some ho (nul_notMem_inferred hv htok)
      refine ⟨str, hstr, hend, hbefore, ?_, ?_⟩
      · intro sig' hsig'
        obtain rfl : sig = sig' := Option.some.inj (Except.ok.inj (ho.symm.trans hsig'))
        exact ⟨copySignature_pos .nonfatal sig, longy_ne_nil hv htok, hcstr⟩
      · intro hnone
        rw [ho] at hnone
        cases hnone

/-- The array of `([I)I` ends at its fifth character. -/
theorem intOfIntArray_fills_buffer :
    ∃ str, getString .nonfatal .kFastNative intOfIntArray 5 = .ok str ∧
      str.elems[5]? = some '\x00' ∧ ∀ i < 5, str.elems[i]? ≠ some '\x00' := by
  obtain ⟨str, hstr, hend, hbefore, _⟩ :=
    (getString_fills_buffer .kFastNative intOfIntArray (by decide)).2.2.2 5 rfl
  exact ⟨str, hstr, hend, hbefore⟩

/-! ### What the string determines -/

/-- The lookup in the table finds a final type from its descriptor. -/
theorem exactTypeDescriptor_of_final {T : CppType} (hm : (jniTypeTraitOf T).nativeKind.IsMethod)
    (hf : (jniTypeTraitOf T).typeFinality = .kFinal) :
    exactTypeDescriptor (jniTypeTraitOf T).typeDescriptor = some T := by
  have rows : ∀ U ∈ jniTypes, (jniTypeTraitOf U).nativeKind.IsMethod →
      (jniTypeTraitOf U).typeFinality = .kFinal →
      exactTypeDescriptor (jniTypeTraitOf U).typeDescriptor = some U := by
    decide +kernel
  exact rows T (mem_jniTypes_of_isMethod hm) hm hf

section injective
variable {cfg : BuildConfig} {nativeKind : NativeKind} {F : FunctionType}

theorem signature_canonical (hc : cfg.Checks)
    (hv : isValidJniFunctionType cfg nativeKind F = .ok true) (hF : F.ret.Unqualified)
    (hu : F.Unambiguous nativeKind) :
    Signature (signatureString (F.canonical nativeKind)) (F.canonical nativeKind).1
      (F.canonical nativeKind).2 := by
  apply signature_of_match hc hu (Nat.le_refl _)
  exact (match_iff_of_unambiguous hc hv hF hu (Nat.le_refl _)).mpr rfl

/-- The components can be looked up from the canonical descriptors. -/
theorem lookup_canonical (hv : isValidJniFunctionType cfg nativeKind F = .ok true)
    (hu : F.Unambiguous nativeKind) :
    (F.canonical nativeKind).1.map exactTypeDescriptor = (F.javaArgs nativeKind).map some ∧
      exactTypeDescriptor (F.canonical nativeKind).2 = some F.ret.type := by
  obtain ⟨_, hret, hargs⟩ := isMethod_of_valid hv
  refine ⟨?_, exactTypeDescriptor_of_final hret hu.1⟩
  rw [FunctionType.canonical, List.map_map]
  apply List.map_congr_left
  intro T hT
  exact exactTypeDescriptor_of_final (hargs T hT) (hu.2 T hT)

/-- At run time the string is the canonical signature. -/
theorem getStringAtRuntime_eq (hc : cfg.Checks) (hk : nativeKind.IsMethod) (hF : F.ret.Unqualified)
    {sig : JniSignatureDescriptor F.count}
    (h : fromFunctionType cfg nativeKind F = .ok (some sig)) :
    getStringAtRuntime cfg nativeKind F = .ok (signatureString (F.canonical nativeKind)) := by
  obtain ⟨hv, _, htok⟩ := inferred_of_some hc hk hF h
  obtain ⟨str, hstr, _, _, hcstr⟩ := getString_some h (nul_notMem_inferred hv htok)
  rw [getStringAtRuntime, calculateStringSize_eq h, eval_bind_ok, hstr, eval_bind_ok, hcstr, htok]

end injective

/-- **The inferred signature determines the native types**: two valid function types without
qualifiers, of any kinds, for which the same string is inferred have the same return type and the
same arguments behind the prefix. -/
theorem getStringAtRuntime_injective {cfg : BuildConfig} (hc : cfg.Checks)
    {nativeKind nativeKind' : NativeKind} {F F' : FunctionType}
    (hv : isValidJniFunctionType cfg nativeKind F = .ok true)
    (hv' : isValidJniFunctionType cfg nativeKind' F' = .ok true)
    (hF : F.ret.Unqualified) (hF' : F'.ret.Unqualified)
    {sig : JniSignatureDescriptor F.count} {sig' : JniSignatureDescriptor F'.count}
    (hs : fromFunctionType cfg nativeKind F = .ok (some sig))
    (hs' : fromFunctionType cfg nativeKind' F' = .ok (some sig'))
    (h : getStringAtRuntime cfg nativeKind F = getStringAtRuntime cfg nativeKind' F') :
    F.ret = F'.ret ∧ F.javaArgs nativeKind = F'.javaArgs nativeKind' := by
  have hk := isMethod_of_isValidJniFunctionType cfg hv
  have hk' := isMethod_of_isValidJniFunctionType cfg hv'
  obtain ⟨_, hu, _⟩ := inferred_of_some hc hk hF hs
  obtain ⟨_, hu', _⟩ := inferred_of_some hc hk' hF' hs'
  rw [getStringAtRuntime_eq hc hk hF hs, getStringAtRuntime_eq hc hk' hF' hs'] at h
  have hsig := signature_canonical hc hv hF hu
  rw [Except.ok.inj h] at hsig
  -- one signature has one decomposition, which the table turns back into types
  obtain ⟨ea, er⟩ := hsig.unique (signature_canonical hc hv' hF' hu')
  obtain ⟨la, lr⟩ := lookup_canonical hv hu
  obtain ⟨la', lr'⟩ := lookup_canonical hv' hu'
  constructor
  · rw [er, lr'] at lr
    exact QualType.ext_of_unqualified hF hF' (Option.some.inj lr.symm)
  · rw [ea, la'] at la
    exact List.map_injective_iff.mpr (fun _ _ => Option.some.inj) la.symm

/-- `jint f(jint)`. -/
def intOfInt : FunctionType := ⟨CppType.jint.plain, [.jint], by decide⟩

/-- `jint f(JNIEnv*, jclass, jint)`. -/
def intOfClassInt : FunctionType := ⟨CppType.jint.plain, [.jniEnvPtr, .jclass, .jint], by decide⟩

/-- `(I)I` is inferred for both. -/
theorem intOfInt_determined :
    intOfInt.ret = intOfClassInt.ret ∧
      intOfInt.javaArgs .kCriticalNative = intOfClassInt.javaArgs .kFastNative := by
  have hs : fromFunctionType .fatal .kCriticalNative intOfInt =
      .ok (some ⟨⟨[⟨"I".toList⟩], by decide⟩, ⟨"I".toList⟩⟩) := rfl
  have hs' : fromFunctionType .fatal .kFastNative intOfClassInt =
      .ok (some ⟨⟨[⟨"I".toList⟩], by decide⟩, ⟨"I".toList⟩⟩) := rfl
  apply getStringAtRuntime_injective BuildConfig.fatal_checks _ _ _ _ hs hs' rfl
  all_goals decide

end NativeHelper
