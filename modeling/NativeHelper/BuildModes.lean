import NativeHelper.Inference
import NativeHelper.Shapes

/-! # The two build modes

Users compile the checker with fatal parse failures, its tests run it with nonfatal ones.
`ModesAgree` is what a test in one mode says about the other: what stops the fatal build returns
`nullopt` in the nonfatal one, and everything else is the same in both.

The parser agrees on every input.  The functions that reify a function type agree exactly on the
kinds of native methods and, where the function type is valid, on unqualified return types
(`modes_agree_iff`): the assertion in `ReifyJniTypeMetafunction` is not a parse failure, and it
stops both builds.

In the nonfatal build neither the parser nor the comparison stops at all
(`nonfatal_never_faults`). -/

namespace NativeHelper

section agree
variable {α : Type}

/-- An `X_ASSERT` stopped the evaluation. -/
def Aborts (x : Eval α) : Prop := x = .error .assertion

/-- The fatal build stops where the nonfatal one returns `nullopt`, and both return the same
otherwise. -/
def ModesAgree (fatal nonfatal : Eval (Option α)) : Prop :=
  (Aborts fatal ↔ nonfatal = .ok none) ∧
    (¬ Aborts fatal → ∃ a, fatal = .ok (some a) ∧ nonfatal = .ok (some a))

theorem modesAgree_parsed (o : Option α) : ModesAgree (parsed .fatal o) (parsed .nonfatal o) := by
  cases o with
  | none => exact ⟨iff_of_true rfl rfl, fun h => absurd rfl h⟩
  | some a =>
      refine ⟨iff_of_false ?_ ?_, fun _ => ⟨a, rfl, rfl⟩⟩
      · intro h
        cases h
      · intro h
        cases h

/-- What stops both builds is no agreement. -/
theorem not_modesAgree_error (f : Fault) :
    ¬ ModesAgree (.error .assertion : Eval (Option α)) (.error f) := by
  rintro ⟨h, _⟩
  have := h.mp rfl
  cases this

/-- Outcomes that a function turns into those of a reader are those of a parse. -/
theorem eq_parsed_of_map {β : Type} {cfg : BuildConfig} {f : α → β} {x : Eval (Option α)}
    {o : Option β} (h : Option.map f <$> x = parsed cfg o) :
    ∃ o', x = parsed cfg o' ∧ o'.map f = o := by
  cases o with
  | some b =>
      cases x with
      | error e => cases h
      | ok o' =>
          have h' := Except.ok.inj h
          cases o' with
          | none => cases h'
          | some a => exact ⟨some a, rfl, h'⟩
  | none =>
      refine ⟨none, ?_, rfl⟩
      obtain ⟨n, d⟩ := cfg
      cases n with
      | false =>
          rcases x with e | _ | a
          · cases h
            rfl
          · cases h
          · cases h
      | true =>
          rcases x with e | _ | a
          · cases h
          · rfl
          · cases h

end agree

/-- The tokens determine the signature they are of. -/
theorem tokens_injective (kMaxSize : ℕ) :
    Function.Injective (@FunctionSignatureDescriptor.tokens kMaxSize) := by
  intro sig sig' h
  obtain ⟨hargs, hret⟩ := Prod.mk.inj h
  have longy : Function.Injective JniDescriptorNode.longy := fun _ _ => JniDescriptorNode.ext
  apply FunctionSignatureDescriptor.ext
  · exact ConstexprVector.ext (List.map_injective_iff.mpr longy hargs)
  · exact longy hret

/-! ### The parser -/

theorem parseSignatureAsList_agree (s : StringView) :
    ModesAgree (parseSignatureAsList .fatal (s.length + 1) s)
      (parseSignatureAsList .nonfatal (s.length + 1) s) := by
  obtain ⟨o, ho, ht⟩ :=
    eq_parsed_of_map (parseSignatureAsList_eq BuildConfig.fatal_checks s (Nat.le_succ _))
  obtain ⟨o', ho', ht'⟩ :=
    eq_parsed_of_map (parseSignatureAsList_eq BuildConfig.nonfatal_checks s (Nat.le_succ _))
  obtain rfl : o = o' := Option.map_injective (tokens_injective _) (ht.trans ht'.symm)
  rw [ho, ho']
  exact modesAgree_parsed o

/-! ### Reification and inference -/

section functionTypes
variable {cfg : BuildConfig} {nativeKind : NativeKind} {F : FunctionType}

/-- Whether a function type is valid, or why it is not, is a parse. -/
theorem maybeMakeReifiedJniSignature_parsed (hcfg : cfg.Checks) (hk : nativeKind.IsMethod)
    (hF : F.ValidShape nativeKind → F.ret.Unqualified) :
    maybeMakeReifiedJniSignature cfg nativeKind F =
      parsed cfg (if F.ValidShape nativeKind then some (reifiedSignature nativeKind F) else none) := by
  have hv := isValidJniFunctionType_eq cfg hk F
  by_cases h : F.ValidShape nativeKind
  · rw [decide_eq_true h] at hv
    rw [if_pos h]
    exact maybeMakeReifiedJniSignature_eq hv (hF h)
  · rw [decide_eq_false h] at hv
    rw [if_neg h, maybeMakeReifiedJniSignature, hv]
    simp [parseFailure_eq hcfg]

theorem fromFunctionType_parsed (hcfg : cfg.Checks) (hk : nativeKind.IsMethod)
    (hF : F.ValidShape nativeKind → F.ret.Unqualified) :
    ∃ sig : JniSignatureDescriptor F.count, sig.tokens = F.canonical nativeKind ∧
      fromFunctionType cfg nativeKind F =
        parsed cfg (if F.ValidShape nativeKind ∧ F.Unambiguous nativeKind then some sig
          else none) := by
  by_cases h : F.ValidShape nativeKind
  · have hv := isValidJniFunctionType_eq cfg hk F
    rw [decide_eq_true h] at hv
    obtain ⟨sig, htok, e⟩ := fromFunctionType_eq (.inl hcfg) hv (hF h)
    refine ⟨sig, htok, ?_⟩
    rw [e]
    by_cases hu : F.Unambiguous nativeKind
    · rw [if_pos hu, if_pos ⟨h, hu⟩, parsed_some]
    · rw [if_neg hu, if_neg fun h' => hu h'.2, parsed_none]
  · -- nothing is inferred, so any signature with these tokens will do
    have hroom : (F.javaArgs nativeKind).length ≤ F.count := by
      simp only [FunctionType.javaArgs, List.length_drop, FunctionType.count]
      omega
    refine ⟨⟨⟨(F.javaArgs nativeKind).map fun T => ⟨(jniTypeTraitOf T).typeDescriptor⟩, ?_⟩,
      ⟨(jniTypeTraitOf F.ret.type).typeDescriptor⟩⟩, ?_, ?_⟩
    · rw [List.length_map]
      exact hroom
    · simp [FunctionSignatureDescriptor.tokens, FunctionType.canonical]
    · rw [if_neg fun h' => h h'.1, fromFunctionType, maybeMakeReifiedJniSignature_parsed hcfg hk hF,
        if_neg h]
      obtain ⟨n, d⟩ := cfg
      cases n <;> rfl

/-- The assertion in the reification stops every build that has assertions. -/
theorem maybeMakeReifiedJniSignature_error (hd : cfg.disableAsserts = false)
    (h : ¬ nativeKind.IsMethod ∨ (F.ValidShape nativeKind ∧ ¬ F.ret.Unqualified)) :
    maybeMakeReifiedJniSignature cfg nativeKind F = .error .assertion := by
  by_cases hk : nativeKind.IsMethod
  · obtain ⟨hv, hq⟩ := h.resolve_left (not_not_intro hk)
    have hv' := isValidJniFunctionType_eq cfg hk F
    rw [decide_eq_true hv] at hv'
    have hr : reifyJniTypeMetafunction cfg F.ret = .error .assertion := by
      simp [reifyJniTypeMetafunction, jniTypeTrait_qualified hq, xAssert, hd]
    rw [maybeMakeReifiedJniSignature_valid hv', hr]
    rfl
  · rw [maybeMakeReifiedJniSignature, isValidJniFunctionType_not_isMethod hd hk, eval_bind_error]

theorem fromFunctionType_error (hd : cfg.disableAsserts = false)
    (h : ¬ nativeKind.IsMethod ∨ (F.ValidShape nativeKind ∧ ¬ F.ret.Unqualified)) :
    fromFunctionType cfg nativeKind F = .error .assertion := by
  rw [fromFunctionType, maybeMakeReifiedJniSignature_error hd h, eval_bind_error]

end functionTypes

section modes
variable (nativeKind : NativeKind) (F : FunctionType)

theorem maybeMakeReifiedJniSignature_agree (hk : nativeKind.IsMethod)
    (hF : F.ValidShape nativeKind → F.ret.Unqualified) :
    ModesAgree (maybeMakeReifiedJniSignature .fatal nativeKind F)
      (maybeMakeReifiedJniSignature .nonfatal nativeKind F) := by
  rw [maybeMakeReifiedJniSignature_parsed BuildConfig.fatal_checks hk hF,
    maybeMakeReifiedJniSignature_parsed BuildConfig.nonfatal_checks hk hF]
  exact modesAgree_parsed _

theorem fromFunctionType_agree (hk : nativeKind.IsMethod)
    (hF : F.ValidShape nativeKind → F.ret.Unqualified) :
    ModesAgree (fromFunctionType .fatal nativeKind F) (fromFunctionType .nonfatal nativeKind F) := by
  obtain ⟨sig, htok, e⟩ := fromFunctionType_parsed BuildConfig.fatal_checks hk hF
  obtain ⟨sig', htok', e'⟩ := fromFunctionType_parsed BuildConfig.nonfatal_checks hk hF
  obtain rfl : sig = sig' := tokens_injective _ (htok.trans htok'.symm)
  rw [e, e']
  exact modesAgree_parsed _

/-- A signature is accepted by both builds or by none, whatever the function type. -/
theorem match_fatal_iff_nonfatal (s : StringView) :
    matchJniDescriptorWithFunctionType .fatal nativeKind F (s.length + 1) s = .ok true ↔
      matchJniDescriptorWithFunctionType .nonfatal nativeKind F (s.length + 1) s = .ok true := by
  rw [match_iff BuildConfig.fatal_checks (Nat.le_succ _),
    match_iff BuildConfig.nonfatal_checks (Nat.le_succ _)]
  by_cases hk : nativeKind.IsMethod
  · rw [isValidJniFunctionType_eq .fatal hk, isValidJniFunctionType_eq .nonfatal hk]
  · rw [isValidJniFunctionType_not_isMethod rfl hk, isValidJniFunctionType_not_isMethod rfl hk]

/-- **The modes agree** on every signature, and on a function type exactly if the kind is one of a
native method and validity, if it holds, had no qualifier to strip. -/
theorem modes_agree_iff (s : StringView) :
    (ModesAgree (parseSignatureAsList .fatal (s.length + 1) s)
        (parseSignatureAsList .nonfatal (s.length + 1) s) ∧
      ModesAgree (maybeMakeReifiedJniSignature .fatal nativeKind F)
        (maybeMakeReifiedJniSignature .nonfatal nativeKind F) ∧
      ModesAgree (fromFunctionType .fatal nativeKind F) (fromFunctionType .nonfatal nativeKind F) ∧
      (matchJniDescriptorWithFunctionType .fatal nativeKind F (s.length + 1) s = .ok true ↔
        matchJniDescriptorWithFunctionType .nonfatal nativeKind F (s.length + 1) s = .ok true)) ↔
    nativeKind.IsMethod ∧
      (isValidJniFunctionType .fatal nativeKind F = .ok true → F.ret.Unqualified) := by
  constructor
  · rintro ⟨_, hm, _, _⟩
    have stops : ¬ (¬ nativeKind.IsMethod ∨ (F.ValidShape nativeKind ∧ ¬ F.ret.Unqualified)) := by
      intro h
      rw [maybeMakeReifiedJniSignature_error rfl h, maybeMakeReifiedJniSignature_error rfl h] at hm
      exact not_modesAgree_error _ hm
    have hk : nativeKind.IsMethod := by
      by_contra hk
      exact stops (.inl hk)
    refine ⟨hk, fun hv => ?_⟩
    rw [isValidJniFunctionType_eq .fatal hk] at hv
    by_contra hq
    exact stops (.inr ⟨of_decide_eq_true (Except.ok.inj hv), hq⟩)
  · rintro ⟨hk, hF⟩
    have hF' : F.ValidShape nativeKind → F.ret.Unqualified := by
      intro hv
      apply hF
      rw [isValidJniFunctionType_eq .fatal hk, decide_eq_true hv]
    refine ⟨parseSignatureAsList_agree s, maybeMakeReifiedJniSignature_agree nativeKind F hk hF',
      fromFunctionType_agree nativeKind F hk hF', ?_⟩
    exact match_fatal_iff_nonfatal nativeKind F s

end modes

/-- `const jint f()` as a critical native stops both builds. -/
theorem constIntFunction_stops_both :
    maybeMakeReifiedJniSignature .fatal .kCriticalNative constIntFunction = .error .assertion ∧
    maybeMakeReifiedJniSignature .nonfatal .kCriticalNative constIntFunction = .error .assertion ∧
    ¬ ModesAgree (maybeMakeReifiedJniSignature .fatal .kCriticalNative constIntFunction)
      (maybeMakeReifiedJniSignature .nonfatal .kCriticalNative constIntFunction) := by
  refine ⟨rfl, rfl, ?_⟩
  exact not_modesAgree_error .assertion

/-! ### The nonfatal build does not stop -/

/-- Every descriptor of a parsed signature is well formed. -/
theorem returnDescriptor_of_mem {kMaxSize : ℕ} {user : JniSignatureDescriptor kMaxSize}
    {s : StringView} (hs : Signature s user.tokens.1 user.tokens.2) :
    ∀ node ∈ user.ret :: user.args.elems, ReturnDescriptor node.longy := by
  obtain ⟨_, hargs, hret⟩ := hs
  intro node hn
  rcases List.mem_cons.mp hn with rfl | hn
  · exact hret
  · exact .inl (hargs _ (List.mem_map_of_mem hn))

/-- What an operation has to stay within to return in the nonfatal build: a read its view, a
`substr` its view, a `push_back` its storage; a node needs a token and `value()` a value. -/
structure ReturnsWithin (cfg : BuildConfig) : Prop where
  charAt : ∀ (s : StringView) (i : ℕ), (∃ c, charAt cfg s i = .ok c) ↔ i < s.length
  substr : ∀ (s : StringView) (start len : ℕ),
    (∃ t, substr cfg s start len = .ok t) ↔ start ≤ s.length ∧ len ≤ s.length - start
  pushBack : ∀ {T : Type} {kMaxSize : ℕ} (v : ConstexprVector T kMaxSize) (value : T),
    (∃ v', v.pushBack cfg value = .ok v') ↔ v.size + 1 ≤ kMaxSize
  jniDescriptorNode : ∀ longy : StringView,
    (∃ node, jniDescriptorNode cfg longy = .ok node) ↔ longy ≠ []
  asNode : ∀ res : ParseTypeDescriptorResult,
    (∃ node, res.asNode cfg = .ok node) ↔ res.token ≠ []
  optionalValue : ∀ {T : Type} (o : Option T),
    (∃ a, optionalValue cfg o = .ok a) ↔ o.isSome = true
  xAssert : ∀ check : Bool, (∃ u, xAssert cfg check = .ok u) ↔ check = true

theorem returnsWithin {cfg : BuildConfig} (hd : cfg.disableAsserts = false) : ReturnsWithin cfg where
  charAt s i := charAt_returns_iff cfg s i
  substr s start len := substr_returns_iff cfg s start len
  pushBack v value := v.pushBack_returns_iff cfg value
  jniDescriptorNode longy := jniDescriptorNode_returns_iff hd longy
  asNode res := res.asNode_returns_iff hd
  optionalValue o := optionalValue_returns_iff cfg o
  xAssert check := xAssert_returns_iff hd check

/-- **Nothing stops the nonfatal build**: parsing returns on every string, and so does every
comparison of what was parsed with the components of a valid function type.  As no operation
returns outside its object, none is used there. -/
theorem nonfatal_never_faults (s : StringView) :
    ReturnsWithin .nonfatal ∧
    ∃ o, parseSignatureAsList .nonfatal (s.length + 1) s = .ok o ∧
      ∀ user ∈ o, (∀ node ∈ user.ret :: user.args.elems, node.longy ≠ []) ∧
        ∀ (nativeKind : NativeKind) (F : FunctionType),
          isValidJniFunctionType .nonfatal nativeKind F = .ok true → F.ret.Unqualified →
          ∃ reified b, maybeMakeReifiedJniSignature .nonfatal nativeKind F = .ok (some reified) ∧
            (∀ node ∈ user.ret :: user.args.elems, ∀ derived ∈ reified.ret :: reified.args.elems,
              ∃ b, compareJniDescriptorNodeErased .nonfatal node derived = .ok b) ∧
            compareSignature .nonfatal reified user = .ok b ∧
            matchJniDescriptorWithFunctionType .nonfatal nativeKind F (s.length + 1) s = .ok b := by
  have hc := BuildConfig.nonfatal_checks
  refine ⟨returnsWithin rfl, ?_⟩
  obtain ⟨o, ho⟩ := parseSignatureAsList_returns s (Nat.le_succ _)
  refine ⟨o, ho, ?_⟩
  rintro user rfl
  have hs := signature_of_parseSignatureAsList hc (Nat.le_succ _) ho
  have hnodes := returnDescriptor_of_mem hs
  refine ⟨fun node hn => (hnodes node hn).ne_nil, ?_⟩
  intro nativeKind F hv hF
  have hm := maybeMakeReifiedJniSignature_eq hv hF
  have hcmp := @compareSignature_eq .nonfatal _ _ (reifiedSignature nativeKind F) user
    (F.javaArgs nativeKind) F.ret.type hs.2.1 hs.2.2 rfl rfl
  refine ⟨reifiedSignature nativeKind F, _, hm, ?_, hcmp, ?_⟩
  · intro node hn derived hd
    have row : ∃ T, derived = jniTypeTraitOf T := by
      rcases List.mem_cons.mp hd with rfl | hd
      · exact ⟨_, rfl⟩
      · obtain ⟨T, _, rfl⟩ := List.mem_map.mp hd
        exact ⟨T, rfl⟩
    obtain ⟨T, rfl⟩ := row
    exact ⟨_, compareJniDescriptorNodeErased_eq .nonfatal (hnodes node hn) T⟩
  · simp only [matchJniDescriptorWithFunctionType, hm, ho, eval_bind_ok, hcmp]

end NativeHelper
