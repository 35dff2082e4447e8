import NativeHelper.TypeTraits

/-! # Reified signatures

`maybeMakeReifiedJniSignature` turns a C++ function type into the traits of its components.
The validity check before it strips qualifiers, the reification after it does not.  On a valid
function type the result is `reifiedSignature` if the return type is unqualified
(`maybeMakeReifiedJniSignature_eq`); otherwise the return type reifies to the primary template
and the assertion of `ReifyJniTypeMetafunction` fails.
`maybeMakeReifiedJniSignature_agrees_iff` is the exact condition. -/

namespace NativeHelper

/-- `ReifiedJniSignature<kMaxSize>`. -/
abbrev ReifiedJniSignature (kMaxSize : ℕ) :=
  FunctionSignatureDescriptor ReifiedJniTypeTrait kMaxSize

section reify
variable (cfg : BuildConfig)

def reifyJniTypeMetafunction (T : QualType) : Eval ReifiedJniTypeTrait := do
  let res := jniTypeTrait T
  xAssert cfg (res.nativeKind ≠ .kNotJni)
  .ok res

/-- The loop over `args_list`, from the index `argsIndex` on. -/
def pushAfterPrefix {kMaxSize : ℕ} (skip : ℕ) : ℕ → List ReifiedJniTypeTrait →
    ConstexprVector ReifiedJniTypeTrait kMaxSize →
    Eval (ConstexprVector ReifiedJniTypeTrait kMaxSize)
  | _, [], args => .ok args
  | argsIndex, arg :: argsList, args => do
      let args ← if skip ≤ argsIndex then args.pushBack cfg arg else .ok args
      pushAfterPrefix skip (argsIndex + 1) argsList args

/-- `MaybeMakeReifiedJniSignature`. -/
def maybeMakeReifiedJniSignature (nativeKind : NativeKind) (F : FunctionType) :
    Eval (Option (ReifiedJniSignature F.count)) := do
  let make : Eval (Option (ReifiedJniSignature F.count)) := do
    let returnJniTrait ← reifyJniTypeMetafunction cfg F.ret
    let argsList ← F.args.mapM fun T => reifyJniTypeMetafunction cfg T.plain
    let args ← pushAfterPrefix cfg (kSkipArgumentPrefix nativeKind) 0 argsList .empty
    .ok (some ⟨args, returnJniTrait⟩)
  if !(← isValidJniFunctionType cfg nativeKind F) then parseFailure cfg make else make

theorem reifyJniTypeMetafunction_eq {T : QualType} (h : (jniTypeTrait T).nativeKind ≠ .kNotJni) :
    reifyJniTypeMetafunction cfg T = .ok (jniTypeTrait T) := by
  simp [reifyJniTypeMetafunction, h]

theorem reifyArgs_eq {args : List CppType}
    (h : ∀ T ∈ args, (jniTypeTraitOf T).nativeKind ≠ .kNotJni) :
    (args.mapM fun T => reifyJniTypeMetafunction cfg T.plain) = .ok (args.map jniTypeTraitOf) := by
  induction args with
  | nil => rfl
  | cons T args ih =>
      have hT : (jniTypeTrait T.plain).nativeKind ≠ .kNotJni := h T List.mem_cons_self
      rw [List.mapM_cons, reifyJniTypeMetafunction_eq cfg hT,
        ih fun U hU => h U (List.mem_cons_of_mem _ hU)]
      rfl

/-- The loop pushes the traits behind the prefix. -/
theorem pushAfterPrefix_eq {kMaxSize : ℕ} (skip argsIndex : ℕ)
    (argsList : List ReifiedJniTypeTrait) (args : ConstexprVector ReifiedJniTypeTrait kMaxSize)
    (hroom : args.elems.length + argsList.length ≤ kMaxSize) :
    ∃ v, pushAfterPrefix cfg skip argsIndex argsList args = .ok v ∧
      v.elems = args.elems ++ argsList.drop (skip - argsIndex) := by
  induction argsList generalizing argsIndex args with
  | nil => exact ⟨args, rfl, by simp⟩
  | cons arg argsList ih =>
      rw [List.length_cons] at hroom
      unfold pushAfterPrefix
      by_cases hs : skip ≤ argsIndex
      · have hpush : args.elems.length + 1 ≤ kMaxSize := by omega
        rw [if_pos hs, ConstexprVector.pushBack_eq cfg _ _ hpush, eval_bind_ok]
        obtain ⟨v, hv, e⟩ := ih (argsIndex + 1) ⟨args.elems ++ [arg], by simpa using hpush⟩
          (by simp only [List.length_append, List.length_singleton]; omega)
        refine ⟨v, hv, ?_⟩
        rw [e, Nat.sub_eq_zero_of_le hs, Nat.sub_eq_zero_of_le (Nat.le_succ_of_le hs)]
        simp
      · rw [if_neg hs, eval_bind_ok]
        have e : skip - argsIndex = skip - (argsIndex + 1) + 1 := by omega
        rw [e, List.drop_succ_cons]
        exact ih (argsIndex + 1) args (by omega)

end reify

/-- The traits of the components of a function type. -/
def reifiedSignature (nativeKind : NativeKind) (F : FunctionType) : ReifiedJniSignature F.count where
  args := ⟨(F.javaArgs nativeKind).map jniTypeTraitOf, by
    simp only [FunctionType.javaArgs, List.length_map, List.length_drop, FunctionType.count]; omega⟩
  ret := jniTypeTraitOf F.ret.type

section maybeMake
variable {cfg : BuildConfig} {nativeKind : NativeKind} {F : FunctionType}

theorem maybeMakeReifiedJniSignature_valid
    (h : isValidJniFunctionType cfg nativeKind F = .ok true) :
    maybeMakeReifiedJniSignature cfg nativeKind F =
      (fun ret => some { reifiedSignature nativeKind F with ret }) <$>
        reifyJniTypeMetafunction cfg F.ret := by
  obtain ⟨hargs, _, _⟩ := isMethod_of_valid h
  obtain ⟨v, hv, e⟩ := pushAfterPrefix_eq cfg (kSkipArgumentPrefix nativeKind) 0
    (F.args.map jniTypeTraitOf) (.empty : ConstexprVector _ F.count)
    (by simp [FunctionType.count])
  obtain rfl : v = (reifiedSignature nativeKind F).args := by
    apply ConstexprVector.ext
    rw [e, ConstexprVector.elems_empty, List.nil_append, Nat.sub_zero, ← List.map_drop]
    rfl
  unfold maybeMakeReifiedJniSignature
  rw [h, reifyArgs_eq cfg hargs]
  simp only [eval_bind_ok, hv]
  cases reifyJniTypeMetafunction cfg F.ret <;> rfl

theorem eq_of_reifyJniTypeMetafunction {T : QualType} {t : ReifiedJniTypeTrait}
    (h : reifyJniTypeMetafunction cfg T = .ok t) : t = jniTypeTrait T := by
  unfold reifyJniTypeMetafunction at h
  obtain ⟨_, _, h⟩ := eval_bind_eq_ok.mp h
  exact (Except.ok.inj h).symm

/-- The reified signature of a valid function type has the traits of the arguments behind the
prefix, and that of the return type with its qualifiers. -/
theorem reified_of_valid (h : isValidJniFunctionType cfg nativeKind F = .ok true)
    {sig : ReifiedJniSignature F.count}
    (hm : maybeMakeReifiedJniSignature cfg nativeKind F = .ok (some sig)) :
    sig.args.elems = (F.javaArgs nativeKind).map jniTypeTraitOf ∧ sig.ret = jniTypeTrait F.ret := by
  rw [maybeMakeReifiedJniSignature_valid h] at hm
  cases hr : reifyJniTypeMetafunction cfg F.ret with
  | error e =>
      rw [hr] at hm
      cases hm
  | ok t =>
      rw [hr, eval_map_ok] at hm
      rw [← Option.some.inj (Except.ok.inj hm)]
      exact ⟨rfl, eq_of_reifyJniTypeMetafunction hr⟩

/-- **Reification of a valid function type** without qualifiers. -/
theorem maybeMakeReifiedJniSignature_eq (h : isValidJniFunctionType cfg nativeKind F = .ok true)
    (hF : F.ret.Unqualified) :
    maybeMakeReifiedJniSignature cfg nativeKind F = .ok (some (reifiedSignature nativeKind F)) := by
  obtain ⟨_, hret, _⟩ := isMethod_of_valid h
  have e : jniTypeTrait F.ret = jniTypeTraitOf F.ret.type := if_pos hF
  rw [maybeMakeReifiedJniSignature_valid h, reifyJniTypeMetafunction_eq, e]
  · rfl
  · rw [e]
    exact (NativeKind.isMethod_iff.mp hret).1

/-- An invalid function type is a parse failure: there is no signature in a configuration that
notices it. -/
theorem maybeMakeReifiedJniSignature_invalid (hcfg : cfg.Checks)
    (h : isValidJniFunctionType cfg nativeKind F ≠ .ok true) (sig : ReifiedJniSignature F.count) :
    maybeMakeReifiedJniSignature cfg nativeKind F ≠ .ok (some sig) := by
  unfold maybeMakeReifiedJniSignature
  cases hv : isValidJniFunctionType cfg nativeKind F with
  | error e => simp
  | ok b =>
      cases b with
      | true => exact absurd hv h
      | false =>
          simp only [eval_bind_ok, Bool.not_false, if_true, parseFailure_eq hcfg]
          obtain ⟨n, d⟩ := cfg
          cases n <;> intro e <;> cases e

end maybeMake

/-- **Validation and reification agree exactly on unqualified return types**: on a valid
function type the reified signature exists and is that of the unqualified function type if and
only if there was nothing to strip. -/
theorem maybeMakeReifiedJniSignature_agrees_iff (cfg : BuildConfig) (nativeKind : NativeKind)
    (F : FunctionType) :
    (isValidJniFunctionType cfg nativeKind F = .ok true →
      ∃ sig : ReifiedJniSignature F.count,
        maybeMakeReifiedJniSignature cfg nativeKind F = .ok (some sig) ∧
        maybeMakeReifiedJniSignature cfg nativeKind F.removeCv = .ok (some sig)) ↔
    (isValidJniFunctionType cfg nativeKind F = .ok true → F.ret.Unqualified) := by
  constructor
  · intro h hv
    obtain ⟨sig, h1, h2⟩ := h hv
    have hv' := (isValidJniFunctionType_removeCv F).trans hv
    rw [maybeMakeReifiedJniSignature_eq hv' F.ret.removeCv_unqualified] at h2
    have hret : sig.ret = jniTypeTraitOf F.ret.type := by
      rw [← Option.some.inj (Except.ok.inj h2)]
      rfl
    by_contra hq
    -- the trait in `sig` is the primary template's, whose kind no component of `F.removeCv` has
    have hill := (reified_of_valid hv h1).2
    obtain ⟨_, hm, _⟩ := isMethod_of_valid hv
    rw [← hret, hill, jniTypeTrait_qualified hq] at hm
    exact absurd hm (by decide)
  · intro h hv
    refine ⟨reifiedSignature nativeKind F, maybeMakeReifiedJniSignature_eq hv (h hv), ?_⟩
    exact maybeMakeReifiedJniSignature_eq ((isValidJniFunctionType_removeCv F).trans hv)
      F.ret.removeCv_unqualified

/-- `const jint f()`. -/
def constIntFunction : FunctionType := ⟨⟨.jint, true, false⟩, [], by decide⟩

/-- As a critical native, `const jint f()` passes validation and fails the assertion. -/
theorem constIntFunction_disagrees :
    isValidJniFunctionType .fatal .kCriticalNative constIntFunction = .ok true ∧
    maybeMakeReifiedJniSignature .fatal .kCriticalNative constIntFunction = .error .assertion ∧
    ¬ (isValidJniFunctionType .fatal .kCriticalNative constIntFunction = .ok true →
      ∃ sig : ReifiedJniSignature constIntFunction.count,
        maybeMakeReifiedJniSignature .fatal .kCriticalNative constIntFunction = .ok (some sig) ∧
        maybeMakeReifiedJniSignature .fatal .kCriticalNative constIntFunction.removeCv =
          .ok (some sig)) := by
  have hv : isValidJniFunctionType .fatal .kCriticalNative constIntFunction = .ok true := by decide
  have he : maybeMakeReifiedJniSignature .fatal .kCriticalNative constIntFunction =
      .error .assertion := rfl
  refine ⟨hv, he, fun h => ?_⟩
  obtain ⟨sig, h1, _⟩ := h hv
  rw [he] at h1
  cases h1

end NativeHelper
