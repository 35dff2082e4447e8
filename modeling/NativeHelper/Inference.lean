import NativeHelper.Matching

/-! # Inferring a signature

`InferJniDescriptor`: `fromFunctionType` takes the canonical descriptor of every component if all
of them are final, and `getString` writes these into a character array whose size
`calculateStringSize` has added up.

A final component goes with its canonical descriptor only and any other one with at least two,
so inference succeeds exactly if one signature is accepted, and the string is that signature
(`fromFunctionType_iff_unique`). -/

namespace NativeHelper

section infer
variable (cfg : BuildConfig)

/-- The loop over the arguments, `n` indices from `i` on. -/
def inferArgs {kReifiedMaxSize kMaxSize : ℕ}
    (reified : ConstexprVector ReifiedJniTypeTrait kReifiedMaxSize) : ℕ → ℕ →
    ConstexprVector JniDescriptorNode kMaxSize →
    Eval (Option (ConstexprVector JniDescriptorNode kMaxSize))
  | 0, _, args => .ok (some args)
  | n + 1, i, args => do
      let argTrait ← reified.get i
      let push := do
        let node ← jniDescriptorNode cfg argTrait.typeDescriptor
        let args ← args.pushBack cfg node
        inferArgs reified n (i + 1) args
      if argTrait.typeFinality ≠ .kFinal then parseFailure cfg push else push

/-- `InferJniDescriptor::FromFunctionType`. -/
def fromFunctionType (nativeKind : NativeKind) (F : FunctionType) :
    Eval (Option (JniSignatureDescriptor F.count)) := do
  match ← maybeMakeReifiedJniSignature cfg nativeKind F with
  | none => .ok none
  | some reifiedSignature =>
      let infer := do
        let ret ← jniDescriptorNode cfg reifiedSignature.ret.typeDescriptor
        match ← inferArgs cfg reifiedSignature.args reifiedSignature.args.size 0 .empty with
        | none => .ok none
        | some args => .ok (some ⟨args, ret⟩)
      if reifiedSignature.ret.typeFinality ≠ .kFinal then parseFailure cfg infer else infer

/-- The loop that adds up the sizes of the arguments, `n` indices from `j` on. -/
def addArgSizes {kMaxSize : ℕ} (args : ConstexprVector JniDescriptorNode kMaxSize) :
    ℕ → ℕ → ℕ → Eval ℕ
  | 0, _, accSize => .ok accSize
  | n + 1, j, accSize => do
      let argDescriptor ← args.get j
      addArgSizes args n (j + 1) (accSize + argDescriptor.longy.length)

/-- `InferJniDescriptor::CalculateStringSize`. -/
def calculateStringSize (nativeKind : NativeKind) (F : FunctionType) : Eval ℕ := do
  match ← fromFunctionType cfg nativeKind F with
  | none => .ok 0
  | some signatureDescriptor =>
      let accSize ← addArgSizes signatureDescriptor.args signatureDescriptor.args.size 0 1
      .ok (accSize + 1 + signatureDescriptor.ret.longy.length)

/-- `c_str` and `pos` of `GetString`. -/
structure StringCursor (N : ℕ) where
  cStr : ConstexprArray Char N
  pos : ℕ

/-- `c_str[pos++] = value`. -/
def StringCursor.put {N : ℕ} (c : StringCursor N) (value : Char) : Eval (StringCursor N) := do
  let cStr ← c.cStr.set c.pos value
  .ok ⟨cStr, c.pos + 1⟩

/-- The loop that copies `longy`, `n` indices from `i` on. -/
def copyDescriptor {N : ℕ} (longy : StringView) : ℕ → ℕ → StringCursor N → Eval (StringCursor N)
  | 0, _, c => .ok c
  | n + 1, i, c => do
      let value ← charAt cfg longy i
      let c ← c.put value
      copyDescriptor longy n (i + 1) c

/-- The loop that copies the parameter descriptors, `n` indices from `j` on. -/
def copyArgs {kMaxSize N : ℕ} (args : ConstexprVector JniDescriptorNode kMaxSize) :
    ℕ → ℕ → StringCursor N → Eval (StringCursor N)
  | 0, _, c => .ok c
  | n + 1, j, c => do
      let argDescriptor ← args.get j
      let c ← copyDescriptor cfg argDescriptor.longy argDescriptor.longy.length 0 c
      copyArgs args n (j + 1) c

/-- `InferJniDescriptor::GetString`, where `kMaxStringSize` is what `CalculateStringSize`
returned. -/
def getString (nativeKind : NativeKind) (F : FunctionType) (kMaxStringSize : ℕ) :
    Eval (ConstexprArray Char (kMaxStringSize + 1)) := do
  let cStr := ConstexprArray.replicate (kMaxStringSize + 1) '\x00'
  match ← fromFunctionType cfg nativeKind F with
  | none => cStr.set 0 '\x00'
  | some signatureDescriptor =>
      let c ← StringCursor.put ⟨cStr, 0⟩ '('
      let c ← copyArgs cfg signatureDescriptor.args signatureDescriptor.args.size 0 c
      let c ← c.put ')'
      let longy := signatureDescriptor.ret.longy
      let c ← copyDescriptor cfg longy longy.length 0 c
      xAssert cfg (c.pos = kMaxStringSize)
      c.cStr.set c.pos '\x00'

/-- What `GetString` does from `pos = 0` up to the assertion on the size. -/
def copySignature {kMaxSize N : ℕ} (signatureDescriptor : JniSignatureDescriptor kMaxSize)
    (cStr : ConstexprArray Char N) : Eval (StringCursor N) := do
  let c ← StringCursor.put ⟨cStr, 0⟩ '('
  let c ← copyArgs cfg signatureDescriptor.args signatureDescriptor.args.size 0 c
  let c ← c.put ')'
  let longy := signatureDescriptor.ret.longy
  copyDescriptor cfg longy longy.length 0 c

end infer

/-- The characters before the first NUL, which is where a C string ends. -/
def cString {N : ℕ} (str : ConstexprArray Char N) : StringView :=
  str.elems.takeWhile (· ≠ '\x00')

/-! ### What inference returns -/

/-- Every component that is part of the signature is final. -/
def FunctionType.Unambiguous (nativeKind : NativeKind) (F : FunctionType) : Prop :=
  (jniTypeTraitOf F.ret.type).typeFinality = .kFinal ∧
    ∀ T ∈ F.javaArgs nativeKind, (jniTypeTraitOf T).typeFinality = .kFinal

instance (nativeKind : NativeKind) (F : FunctionType) : Decidable (F.Unambiguous nativeKind) :=
  inferInstanceAs (Decidable (_ ∧ ∀ T ∈ F.javaArgs nativeKind, _))

/-- The canonical descriptors of the components. -/
def FunctionType.canonical (nativeKind : NativeKind) (F : FunctionType) :
    List StringView × StringView :=
  ((F.javaArgs nativeKind).map fun T => (jniTypeTraitOf T).typeDescriptor,
    (jniTypeTraitOf F.ret.type).typeDescriptor)

/-- A row of a method kind has a descriptor, and no character of it is NUL. -/
theorem typeDescriptor_of_isMethod {T : CppType} (h : (jniTypeTraitOf T).nativeKind.IsMethod) :
    (jniTypeTraitOf T).typeDescriptor ≠ [] ∧ '\x00' ∉ (jniTypeTraitOf T).typeDescriptor := by
  cases T with
  | other n => exact absurd h (not_isMethod_other n)
  | _ => first | exact absurd h (by decide) | decide

section returns
variable {cfg : BuildConfig} {kReifiedMaxSize kMaxSize : ℕ}

/-- The loop pushes the canonical descriptors unless one of the arguments is not final. -/
theorem inferArgs_eq {reified : ConstexprVector ReifiedJniTypeTrait kReifiedMaxSize}
    {types : List CppType} (ht : reified.elems = types.map jniTypeTraitOf)
    (hcfg : cfg.Checks ∨ ∀ T ∈ types, (jniTypeTraitOf T).typeFinality = .kFinal)
    (hm : ∀ T ∈ types, (jniTypeTraitOf T).nativeKind.IsMethod)
    (n i : ℕ) (hi : i + n = types.length) (args : ConstexprVector JniDescriptorNode kMaxSize)
    (hroom : args.elems.length + n ≤ kMaxSize) :
    ∃ v : ConstexprVector JniDescriptorNode kMaxSize,
      v.elems = args.elems ++ (types.drop i).map (fun T => ⟨(jniTypeTraitOf T).typeDescriptor⟩) ∧
      inferArgs cfg reified n i args =
        if ∀ T ∈ types.drop i, (jniTypeTraitOf T).typeFinality = .kFinal then .ok (some v)
        else parseFailed cfg := by
  induction n generalizing i args with
  | zero =>
      refine ⟨args, ?_, ?_⟩
      all_goals rw [List.drop_eq_nil_of_le (by omega)]
      · simp
      · simp [inferArgs]
  | succ n ih =>
      have hT : i < types.length := by omega
      have hpush : args.elems.length + 1 ≤ kMaxSize := by omega
      have e : reified.get i = .ok (jniTypeTraitOf types[i]) :=
        reified.get_of_getElem? (by rw [ht, List.getElem?_map, List.getElem?_eq_getElem hT]; rfl)
      have hnode := jniDescriptorNode_eq cfg
        (typeDescriptor_of_isMethod (hm _ (List.getElem_mem hT))).1
      obtain ⟨v, hv, hrest⟩ := ih (i + 1) (by omega)
        ⟨args.elems ++ [⟨(jniTypeTraitOf types[i]).typeDescriptor⟩], by simpa using hpush⟩
        (by simp only [List.length_append, List.length_singleton]; omega)
      rw [List.drop_eq_getElem_cons hT, List.map_cons]
      refine ⟨v, by rw [hv, List.append_assoc, List.singleton_append], ?_⟩
      simp only [inferArgs, e, eval_bind_ok, hnode, ConstexprVector.pushBack_eq cfg _ _ hpush, hrest]
      by_cases hfin : (jniTypeTraitOf types[i]).typeFinality = .kFinal
      · simp only [List.forall_mem_cons, hfin, ne_eq, not_true_eq_false, if_false, true_and]
      · have hc : cfg.Checks := hcfg.resolve_right fun hall => hfin (hall _ (List.getElem_mem hT))
        simp only [List.forall_mem_cons, hfin, ne_eq, not_false_eq_true, if_true, false_and,
          if_false, parseFailure_eq hc]

variable {nativeKind : NativeKind} {F : FunctionType}

/-- **Inference** on a valid function type without qualifiers returns the canonical descriptors
or fails. -/
theorem fromFunctionType_eq (hcfg : cfg.Checks ∨ F.Unambiguous nativeKind)
    (hv : isValidJniFunctionType cfg nativeKind F = .ok true) (hF : F.ret.Unqualified) :
    ∃ sig : JniSignatureDescriptor F.count, sig.tokens = F.canonical nativeKind ∧
      fromFunctionType cfg nativeKind F =
        if F.Unambiguous nativeKind then .ok (some sig) else parseFailed cfg := by
  obtain ⟨_, hret, hargs⟩ := isMethod_of_valid hv
  obtain ⟨v, hve, hv'⟩ := @inferArgs_eq cfg _ F.count (reifiedSignature nativeKind F).args
    (F.javaArgs nativeKind) rfl (hcfg.imp_right And.right) hargs (F.javaArgs nativeKind).length 0
    (Nat.zero_add _) .empty
    (by simp only [ConstexprVector.elems_empty, FunctionType.javaArgs, List.length_nil,
          List.length_drop, FunctionType.count]; omega)
  refine ⟨⟨v, ⟨(jniTypeTraitOf F.ret.type).typeDescriptor⟩⟩, ?_, ?_⟩
  · simp [FunctionSignatureDescriptor.tokens, FunctionType.canonical, hve]
  · have hsize : (reifiedSignature nativeKind F).args.size = (F.javaArgs nativeKind).length :=
      List.length_map _
    rw [← hsize, List.drop_zero] at hv'
    have hnode := jniDescriptorNode_eq cfg (typeDescriptor_of_isMethod hret).1
    have er : (reifiedSignature nativeKind F).ret = jniTypeTraitOf F.ret.type := rfl
    simp only [fromFunctionType, maybeMakeReifiedJniSignature_eq hv hF, eval_bind_ok, er, hnode]
    by_cases hr : (jniTypeTraitOf F.ret.type).typeFinality = .kFinal
    · rw [if_neg (not_not_intro hr), hv']
      by_cases ha : ∀ T ∈ F.javaArgs nativeKind, (jniTypeTraitOf T).typeFinality = .kFinal
      · rw [if_pos ha, if_pos ⟨hr, ha⟩]
        rfl
      · rw [if_neg ha, if_neg fun h => ha h.2]
        obtain ⟨n, d⟩ := cfg
        cases n <;> rfl
    · have hc : cfg.Checks := hcfg.resolve_right fun h => hr h.1
      rw [if_pos hr, if_neg fun h => hr h.1, parseFailure_eq hc]

end returns

/-! ### The string -/

/-- A signature from its descriptors. -/
def signatureString (tokens : List StringView × StringView) : StringView :=
  '(' :: tokens.1.flatten ++ ')' :: tokens.2

section string
variable (cfg : BuildConfig) {kMaxSize N : ℕ}

/-- The cursor has written `w` and stands behind it. -/
def StringCursor.Written (c : StringCursor N) (w : StringView) : Prop :=
  c.pos = w.length ∧ ∃ rest, c.cStr.elems = w ++ rest

theorem StringCursor.Written.set {c : StringCursor N} {w : StringView} (h : c.Written w)
    (hlt : w.length < N) (value : Char) :
    ∃ cStr, c.cStr.set c.pos value = .ok cStr ∧
      StringCursor.Written ⟨cStr, c.pos + 1⟩ (w ++ [value]) := by
  obtain ⟨hpos, rest, hrest⟩ := h
  have hlen := c.cStr.size_eq
  rw [hrest, List.length_append] at hlen
  cases rest with
  | nil =>
      rw [List.length_nil] at hlen
      omega
  | cons r rest =>
      rw [hpos, ConstexprArray.set, if_pos hlt]
      refine ⟨_, rfl, by simp, rest, ?_⟩
      simp [hrest]

theorem StringCursor.Written.put {c : StringCursor N} {w : StringView} (h : c.Written w)
    (hlt : w.length < N) (value : Char) :
    ∃ c', c.put value = .ok c' ∧ c'.Written (w ++ [value]) := by
  obtain ⟨cStr, hs, hw⟩ := h.set hlt value
  exact ⟨_, by rw [StringCursor.put, hs, eval_bind_ok], hw⟩

/-- Copying a descriptor appends what is left of it. -/
theorem copyDescriptor_written (longy : StringView) (n i : ℕ) (hi : i + n = longy.length)
    {c : StringCursor N} {w : StringView} (h : c.Written w) (hroom : w.length + n ≤ N) :
    ∃ c', copyDescriptor cfg longy n i c = .ok c' ∧ c'.Written (w ++ longy.drop i) := by
  induction n generalizing i c w with
  | zero =>
      refine ⟨c, rfl, ?_⟩
      rw [List.drop_eq_nil_of_le (by omega), List.append_nil]
      exact h
  | succ n ih =>
      have hlt : i < longy.length := by omega
      have e : charAt cfg longy i = .ok longy[i] :=
        charAt_of_getElem? cfg _ (List.getElem?_eq_getElem hlt)
      obtain ⟨c1, h1, w1⟩ := h.put (by omega) longy[i]
      obtain ⟨c2, h2, w2⟩ := ih (i + 1) (by omega) w1
        (by simp only [List.length_append, List.length_singleton]; omega)
      refine ⟨c2, by simp only [copyDescriptor, e, h1, eval_bind_ok, h2], ?_⟩
      rw [List.append_assoc, List.singleton_append] at w2
      rw [List.drop_eq_getElem_cons hlt]
      exact w2

/-- Copying the parameters appends what is left of them. -/
theorem copyArgs_written (args : ConstexprVector JniDescriptorNode kMaxSize) (n j : ℕ)
    (hj : j + n = args.elems.length) {c : StringCursor N} {w : StringView} (h : c.Written w)
    (hroom : w.length + ((args.elems.drop j).map (·.longy)).flatten.length ≤ N) :
    ∃ c', copyArgs cfg args n j c = .ok c' ∧
      c'.Written (w ++ ((args.elems.drop j).map (·.longy)).flatten) := by
  induction n generalizing j c w with
  | zero =>
      refine ⟨c, rfl, ?_⟩
      rw [List.drop_eq_nil_of_le (by omega)]
      simpa using h
  | succ n ih =>
      have hlt : j < args.elems.length := by omega
      have e : args.get j = .ok args.elems[j] := args.get_of_getElem? (List.getElem?_eq_getElem hlt)
      rw [List.drop_eq_getElem_cons hlt, List.map_cons, List.flatten_cons] at hroom ⊢
      rw [List.length_append] at hroom
      obtain ⟨c1, h1, w1⟩ := copyDescriptor_written cfg args.elems[j].longy _ 0 (Nat.zero_add _) h
        (by omega)
      rw [List.drop_zero] at w1
      obtain ⟨c2, h2, w2⟩ := ih (j + 1) (by omega) w1 (by rw [List.length_append]; omega)
      refine ⟨c2, by simp only [copyArgs, e, h1, eval_bind_ok, h2], ?_⟩
      rw [← List.append_assoc]
      exact w2

theorem addArgSizes_eq (args : ConstexprVector JniDescriptorNode kMaxSize) (n j : ℕ)
    (hj : j + n = args.elems.length) (accSize : ℕ) :
    addArgSizes args n j accSize =
      .ok (accSize + ((args.elems.drop j).map (·.longy)).flatten.length) := by
  induction n generalizing j accSize with
  | zero =>
      rw [List.drop_eq_nil_of_le (by omega)]
      rfl
  | succ n ih =>
      have hlt : j < args.elems.length := by omega
      have e : args.get j = .ok args.elems[j] := args.get_of_getElem? (List.getElem?_eq_getElem hlt)
      rw [List.drop_eq_getElem_cons hlt, List.map_cons, List.flatten_cons, List.length_append,
        ← Nat.add_assoc]
      simp only [addArgSizes, e, eval_bind_ok, ih (j + 1) (by omega)]

variable {cfg} {nativeKind : NativeKind} {F : FunctionType} {sig : JniSignatureDescriptor F.count}

/-- The size added up is that of the string. -/
theorem calculateStringSize_eq (h : fromFunctionType cfg nativeKind F = .ok (some sig)) :
    calculateStringSize cfg nativeKind F = .ok (signatureString sig.tokens).length := by
  have e := addArgSizes_eq sig.args sig.args.size 0 (Nat.zero_add _) 1
  simp only [calculateStringSize, h, eval_bind_ok, e]
  simp only [signatureString, FunctionSignatureDescriptor.tokens, List.drop_zero, List.length_append,
    List.length_cons]
  congr 1
  omega

/-- The cursor ends behind the signature. -/
theorem copySignature_written (sig : JniSignatureDescriptor kMaxSize) (cStr : ConstexprArray Char N)
    (hroom : (signatureString sig.tokens).length ≤ N) :
    ∃ c, copySignature cfg sig cStr = .ok c ∧ c.Written (signatureString sig.tokens) := by
  have hsize : (signatureString sig.tokens).length =
      1 + (sig.args.elems.map (·.longy)).flatten.length + (1 + sig.ret.longy.length) := by
    simp only [signatureString, FunctionSignatureDescriptor.tokens, List.length_append,
      List.length_cons]
    omega
  have h0 : (⟨cStr, 0⟩ : StringCursor N).Written [] := ⟨rfl, _, rfl⟩
  obtain ⟨c1, h1, w1⟩ := h0.put (by rw [List.length_nil]; omega) '('
  obtain ⟨c2, h2, w2⟩ := copyArgs_written cfg sig.args sig.args.size 0 (Nat.zero_add _) w1
    (by simp only [List.drop_zero, List.nil_append, List.length_singleton]; omega)
  obtain ⟨c3, h3, w3⟩ := w2.put
    (by simp only [List.drop_zero, List.nil_append, List.length_append, List.length_singleton]; omega)
    ')'
  obtain ⟨c4, h4, w4⟩ := copyDescriptor_written cfg sig.ret.longy _ 0 (Nat.zero_add _) w3
    (by simp only [List.drop_zero, List.nil_append, List.length_append, List.length_singleton]; omega)
  have e : [] ++ ['('] ++ ((sig.args.elems.drop 0).map (·.longy)).flatten ++ [')'] ++
      sig.ret.longy.drop 0 = signatureString sig.tokens := by
    simp [signatureString, FunctionSignatureDescriptor.tokens]
  rw [e] at w4
  exact ⟨c4, by simp only [copySignature, h1, h2, h3, h4, eval_bind_ok], w4⟩

/-- **The string** is the signature and a terminating NUL: no write leaves the array and the
assertion on the size holds. -/
theorem getString_eq (h : fromFunctionType cfg nativeKind F = .ok (some sig)) :
    ∃ str, getString cfg nativeKind F (signatureString sig.tokens).length = .ok str ∧
      str.elems = signatureString sig.tokens ++ ['\x00'] := by
  obtain ⟨c, hc, w⟩ := @copySignature_written cfg _ _ sig
    (.replicate ((signatureString sig.tokens).length + 1) '\x00') (Nat.le_succ _)
  have hpos : c.pos = (signatureString sig.tokens).length := w.1
  obtain ⟨cStr, hset, _, rest, hrest⟩ := w.set (Nat.lt_succ_self _) '\x00'
  refine ⟨cStr, ?_, ?_⟩
  · have e : getString cfg nativeKind F (signatureString sig.tokens).length = (do
        let c ← copySignature cfg sig (.replicate ((signatureString sig.tokens).length + 1) '\x00')
        xAssert cfg (c.pos = (signatureString sig.tokens).length)
        c.cStr.set c.pos '\x00') := by
      simp only [getString, copySignature, h, eval_bind_ok, bind_assoc]
    rw [e, hc, eval_bind_ok, decide_eq_true hpos, xAssert_true, eval_bind_ok, hset]
  · have hlen := cStr.size_eq
    rw [hrest, List.length_append, List.length_append, List.length_singleton] at hlen
    have hnil : rest = [] := List.length_eq_zero_iff.mp (by omega)
    rw [hrest, hnil, List.append_nil]

end string

/-! ### Unambiguous function types -/

/-- Two descriptors for a component, which differ if it is not final. -/
def sampleDescriptor (b : Bool) : CppType → StringView
  | .jobject | .jthrowable => if b then "LA;".toList else "LB;".toList
  | .jarray => if b then "[Z".toList else "[B".toList
  | .jobjectArray => if b then "[[Z".toList else "[[B".toList
  | T => (jniTypeTraitOf T).typeDescriptor

theorem sampleDescriptor_row : ∀ T ∈ jniTypes, (jniTypeTraitOf T).nativeKind.IsMethod →
    (∀ b, readDescriptor true (sampleDescriptor b T) = some (sampleDescriptor b T, []) ∧
      (T ≠ .void → readDescriptor false (sampleDescriptor b T) = some (sampleDescriptor b T, [])) ∧
      Related (sampleDescriptor b T) T) ∧
    (sampleDescriptor true T = sampleDescriptor false T →
      (jniTypeTraitOf T).typeFinality = .kFinal) := by
  decide +kernel

theorem mem_jniTypes_of_isMethod {T : CppType} (h : (jniTypeTraitOf T).nativeKind.IsMethod) :
    T ∈ jniTypes := by
  cases T with
  | other n => exact absurd h (not_isMethod_other n)
  | _ => decide

/-- A final type goes with its canonical descriptor only. -/
theorem related_iff_of_final {T : CppType} (hm : (jniTypeTraitOf T).nativeKind.IsMethod)
    (hf : (jniTypeTraitOf T).typeFinality = .kFinal) (d : StringView) :
    Related d T ↔ d = (jniTypeTraitOf T).typeDescriptor := by
  have hp : descriptorPattern T = .only (jniTypeTraitOf T).typeDescriptor := by
    cases T with
    | other n => exact absurd hm (not_isMethod_other n)
    | jniEnvPtr => exact absurd hm (by decide)
    | jobject | jarray | jobjectArray | jthrowable => exact absurd hf (by decide)
    | _ => rfl
  unfold Related
  rw [hp]
  rfl

theorem forall₂_related_iff_of_final {types : List CppType}
    (hm : ∀ T ∈ types, (jniTypeTraitOf T).nativeKind.IsMethod)
    (hf : ∀ T ∈ types, (jniTypeTraitOf T).typeFinality = .kFinal) (args : List StringView) :
    List.Forall₂ Related args types ↔
      args = types.map fun T => (jniTypeTraitOf T).typeDescriptor := by
  induction types generalizing args with
  | nil => simp
  | cons T types ih =>
      rw [List.forall_mem_cons] at hm hf
      rw [List.forall₂_cons_right_iff, List.map_cons]
      simp only [related_iff_of_final hm.1 hf.1, ih hm.2 hf.2]
      constructor
      · rintro ⟨d, args', rfl, rfl, rfl⟩
        rfl
      · rintro rfl
        exact ⟨_, _, rfl, rfl, rfl⟩

/-- The canonical signature ends at its terminating NUL. -/
theorem nul_notMem_canonical {cfg : BuildConfig} {nativeKind : NativeKind} {F : FunctionType}
    (hv : isValidJniFunctionType cfg nativeKind F = .ok true) :
    '\x00' ∉ signatureString (F.canonical nativeKind) := by
  obtain ⟨_, hret, hargs⟩ := isMethod_of_valid hv
  have hr := (typeDescriptor_of_isMethod hret).2
  have ha : ∀ T ∈ F.javaArgs nativeKind, '\x00' ∉ (jniTypeTraitOf T).typeDescriptor :=
    fun T hT => (typeDescriptor_of_isMethod (hargs T hT)).2
  simp only [signatureString, FunctionType.canonical, List.cons_append, List.mem_cons,
    List.mem_append, List.mem_flatten, List.mem_map, not_or]
  refine ⟨by decide, ?_, by decide, hr⟩
  rintro ⟨_, ⟨T, hT, rfl⟩, hmem⟩
  exact ha T hT hmem

section unique
variable {cfg : BuildConfig} {nativeKind : NativeKind} {F : FunctionType}

/-- A valid function type accepts the signature of its samples. -/
theorem match_sample (hcfg : cfg.Checks) (hv : isValidJniFunctionType cfg nativeKind F = .ok true)
    (hF : F.ret.Unqualified) (b : Bool) {kMaxSize : ℕ} {s : StringView} (hroom : s.length ≤ kMaxSize)
    (hs : s = signatureString
      ((F.javaArgs nativeKind).map (sampleDescriptor b), sampleDescriptor b F.ret.type)) :
    Signature s ((F.javaArgs nativeKind).map (sampleDescriptor b))
      (sampleDescriptor b F.ret.type) ∧
    matchJniDescriptorWithFunctionType cfg nativeKind F kMaxSize s = .ok true := by
  obtain ⟨_, hret, hargs⟩ := isMethod_of_valid hv
  have row := fun T hT => (sampleDescriptor_row T (mem_jniTypes_of_isMethod hT) hT).1 b
  have hsig : Signature s ((F.javaArgs nativeKind).map (sampleDescriptor b))
      (sampleDescriptor b F.ret.type) := by
    refine ⟨hs, fun d hd => ?_, ?_⟩
    · obtain ⟨T, hT, rfl⟩ := List.mem_map.mp hd
      have hvoid : T ≠ .void := by
        rintro rfl
        exact F.void_notMem (List.mem_of_mem_drop hT)
      exact ((typeDescriptor_reads _ _ _).mp ((row T (hargs T hT)).2.1 hvoid)).1
    · exact ((returnDescriptor_reads _ _ _).mp (row _ hret).1).1
  refine ⟨hsig, (match_iff hcfg hroom).mpr ⟨hv, hF, _, _, hsig, (row _ hret).2.2, ?_⟩⟩
  rw [List.forall₂_map_left_iff, List.forall₂_same]
  exact fun T hT => (row T (hargs T hT)).2.2

/-- What an unambiguous function type accepts is its canonical signature. -/
theorem signature_of_match (hcfg : cfg.Checks) (hu : F.Unambiguous nativeKind) {kMaxSize : ℕ}
    {s : StringView} (hroom : s.length ≤ kMaxSize)
    (h : matchJniDescriptorWithFunctionType cfg nativeKind F kMaxSize s = .ok true) :
    Signature s (F.canonical nativeKind).1 (F.canonical nativeKind).2 := by
  obtain ⟨hv, _, args, ret, hs, hr, ha⟩ := (match_iff hcfg hroom).mp h
  obtain ⟨_, hret, hargs⟩ := isMethod_of_valid hv
  rw [related_iff_of_final hret hu.1] at hr
  rw [forall₂_related_iff_of_final hargs hu.2] at ha
  rw [hr, ha] at hs
  exact hs

theorem match_iff_of_unambiguous (hcfg : cfg.Checks)
    (hv : isValidJniFunctionType cfg nativeKind F = .ok true) (hF : F.ret.Unqualified)
    (hu : F.Unambiguous nativeKind) {kMaxSize : ℕ} {s : StringView} (hroom : s.length ≤ kMaxSize) :
    matchJniDescriptorWithFunctionType cfg nativeKind F kMaxSize s = .ok true ↔
      s = signatureString (F.canonical nativeKind) := by
  constructor
  · exact fun h => (signature_of_match hcfg hu hroom h).1
  · rintro rfl
    -- the sample is accepted, so it is the canonical signature
    have h := (match_sample hcfg hv hF true (Nat.le_refl _) rfl).2
    exact (match_sample hcfg hv hF true hroom (signature_of_match hcfg hu (Nat.le_refl _) h).1.symm).2

/-- One accepted signature means final components: two samples of any other one differ. -/
theorem unambiguous_of_unique (hcfg : cfg.Checks)
    (hv : isValidJniFunctionType cfg nativeKind F = .ok true) (hF : F.ret.Unqualified)
    (h : ∀ s s' : StringView,
      matchJniDescriptorWithFunctionType cfg nativeKind F (s.length + 1) s = .ok true →
      matchJniDescriptorWithFunctionType cfg nativeKind F (s'.length + 1) s' = .ok true → s = s') :
    F.Unambiguous nativeKind := by
  obtain ⟨_, hret, hargs⟩ := isMethod_of_valid hv
  obtain ⟨h1, m1⟩ := match_sample hcfg hv hF true (Nat.le_succ _) rfl
  obtain ⟨h2, m2⟩ := match_sample hcfg hv hF false (Nat.le_succ _) rfl
  rw [h _ _ m1 m2] at h1
  obtain ⟨ea, er⟩ := h1.unique h2
  have row := fun T hT => (sampleDescriptor_row T (mem_jniTypes_of_isMethod hT) hT).2
  refine ⟨row _ hret er, fun T hT => row T (hargs T hT) ?_⟩
  exact List.map_inj_left.mp ea T hT

end unique

/-- **Inference succeeds exactly if one signature is accepted** for a valid function type without
qualifiers; the string is then that signature, and it parses to the descriptors inferred. -/
theorem fromFunctionType_iff_unique (nativeKind : NativeKind) (F : FunctionType)
    (hF : F.ret.Unqualified) (hv : isValidJniFunctionType .nonfatal nativeKind F = .ok true) :
    ((∃ sig, fromFunctionType .nonfatal nativeKind F = .ok (some sig)) ↔
      ∃! s : StringView,
        matchJniDescriptorWithFunctionType .nonfatal nativeKind F (s.length + 1) s = .ok true) ∧
    ∀ sig, fromFunctionType .nonfatal nativeKind F = .ok (some sig) → ∀ s : StringView,
      matchJniDescriptorWithFunctionType .nonfatal nativeKind F (s.length + 1) s = .ok true →
      (∃ size str, calculateStringSize .nonfatal nativeKind F = .ok size ∧
        getString .nonfatal nativeKind F size = .ok str ∧ cString str = s) ∧
      ∃ sig', parseSignatureAsList .nonfatal (s.length + 1) s = .ok (some sig') ∧
        sig'.tokens = sig.tokens := by
  have hc := BuildConfig.nonfatal_checks
  obtain ⟨sig₀, htok, e⟩ := fromFunctionType_eq (.inl hc) hv hF
  have hsome : (∃ sig, fromFunctionType .nonfatal nativeKind F = .ok (some sig)) ↔
      F.Unambiguous nativeKind := by
    rw [e]
    by_cases hu : F.Unambiguous nativeKind <;> simp [hu]
  constructor
  · rw [hsome]
    constructor
    · intro hu
      refine ⟨signatureString (F.canonical nativeKind), ?_, fun s hs => ?_⟩
      · exact (match_iff_of_unambiguous hc hv hF hu (Nat.le_succ _)).mpr rfl
      · exact (match_iff_of_unambiguous hc hv hF hu (Nat.le_succ _)).mp hs
    · rintro ⟨s, _, hs⟩
      exact unambiguous_of_unique hc hv hF fun s1 s2 h1 h2 => (hs s1 h1).trans (hs s2 h2).symm
  · intro sig hsig s hs
    have hu := hsome.mp ⟨sig, hsig⟩
    have hs' := signature_of_match hc hu (Nat.le_succ _) hs
    have hst : signatureString sig.tokens = s := by
      rw [e, if_pos hu] at hsig
      rw [← Option.some.inj (Except.ok.inj hsig), htok]
      exact hs'.1.symm
    have hnul : ∀ c ∈ s, decide (c ≠ '\x00') = true := by
      intro c hcs
      have := nul_notMem_canonical hv
      rw [show signatureString (F.canonical nativeKind) = s from hs'.1.symm] at this
      exact decide_eq_true fun h => this (h ▸ hcs)
    constructor
    · obtain ⟨str, hstr, helems⟩ := getString_eq hsig
      refine ⟨_, str, calculateStringSize_eq hsig, hstr, ?_⟩
      rw [cString, helems, hst, List.takeWhile_append_of_pos hnul]
      simp
    · obtain ⟨sig', hp, ht'⟩ := parseSignatureAsList_of_signature hc (Nat.le_succ _) hs'
      rw [e, if_pos hu] at hsig
      rw [← Option.some.inj (Except.ok.inj hsig), htok]
      exact ⟨sig', hp, ht'⟩

/-- `jint f(JNIEnv*, jclass, jintArray)`. -/
def intOfIntArray : FunctionType :=
  ⟨CppType.jint.plain, [.jniEnvPtr, .jclass, .jintArray], by decide⟩

theorem intOfIntArray_infers :
    ∃! s : StringView, matchJniDescriptorWithFunctionType .nonfatal .kFastNative intOfIntArray
      (s.length + 1) s = .ok true := by
  apply (fromFunctionType_iff_unique .kFastNative intOfIntArray (by decide) (by decide)).1.mp
  exact ⟨⟨⟨[⟨"[I".toList⟩], by decide⟩, ⟨"I".toList⟩⟩, rfl⟩

end NativeHelper
