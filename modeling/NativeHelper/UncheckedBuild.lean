import NativeHelper.Elision
import NativeHelper.JniMacros

/-! # Builds without assertions

With `JNI_SIGNATURE_CHECKER_DISABLE_ASSERTS` an `X_ASSERT` does nothing.  What the checker returns
with its assertions it returns without them, so a table of native methods that compiles is the same
one then (`MacroUse.expand_elided`).

The converse fails.  In the build of users the assertions are all that looks at whether the function
type is one of a native method and the string a signature.  What is left of a match without them is
the comparison of the descriptors with the types (`match_elided`), and nothing but these two checks
is lost (`match_fatal_iff`). -/

namespace NativeHelper

open Elision

/-- The same build without assertions. -/
def BuildConfig.elided (cfg : BuildConfig) : BuildConfig := { cfg with disableAsserts := true }

section assertions
variable (cfg : BuildConfig) {α : Type}

theorem xAssert_above (check : Bool) : Above (xAssert cfg check) (xAssert cfg.elided check) :=
  fun _ _ => rfl

theorem parseFailure_above {k k' : Eval (Option α)} (h : Above k k') :
    Above (parseFailure cfg k) (parseFailure cfg.elided k') :=
  .ite (.refl _) ((xAssert_above cfg false).bind fun _ => h)

theorem parseAssert_above (cond : Bool) {k k' : Eval (Option α)} (h : Above k k') :
    Above (parseAssert cfg cond k) (parseAssert cfg.elided cond k') :=
  .ite (.ite h (.refl _)) ((xAssert_above cfg cond).bind fun _ => h)

theorem charAt_above (s : StringView) (i : ℕ) : Above (charAt cfg s i) (charAt cfg.elided s i) :=
  (xAssert_above cfg _).bind fun _ => .refl _

theorem substr_above (s : StringView) (start len : ℕ) :
    Above (substr cfg s start len) (substr cfg.elided s start len) :=
  (xAssert_above cfg _).bind fun _ => (xAssert_above cfg _).bind fun _ => .refl _

theorem substrFrom_above (s : StringView) (start : ℕ) :
    Above (substrFrom cfg s start) (substrFrom cfg.elided s start) :=
  (xAssert_above cfg _).bind fun _ => substr_above cfg s start _

theorem optionalValue_above (o : Option α) :
    Above (optionalValue cfg o) (optionalValue cfg.elided o) :=
  (xAssert_above cfg _).bind fun _ => .refl _

theorem pushBack_above {kMaxSize : ℕ} (v : ConstexprVector α kMaxSize) (value : α) :
    Above (v.pushBack cfg value) (v.pushBack cfg.elided value) :=
  (xAssert_above cfg _).bind fun _ => .refl _

end assertions

/-! ### The parser -/

section parser
variable (cfg : BuildConfig)

theorem jniDescriptorNode_above (longy : StringView) :
    Above (jniDescriptorNode cfg longy) (jniDescriptorNode cfg.elided longy) :=
  (xAssert_above cfg _).bind fun _ => .refl _

theorem asNode_above (res : ParseTypeDescriptorResult) :
    Above (res.asNode cfg) (res.asNode cfg.elided) :=
  (xAssert_above cfg _).bind fun _ => jniDescriptorNode_above cfg res.token

theorem parseFirstCharacter_above (singleType : StringView) (c : Char) (allowVoid : Bool)
    {k k' : TypeDescriptorState → StringView → Eval (Option ParseTypeDescriptorResult)}
    (h : ∀ state token, Above (k state token) (k' state token)) :
    Above (parseFirstCharacter cfg singleType c allowVoid k)
      (parseFirstCharacter cfg.elided singleType c allowVoid k') := by
  have hsingle : Above (substr cfg singleType 0 1 >>= k .kSingleCharacter)
      (substr cfg.elided singleType 0 1 >>= k' .kSingleCharacter) :=
    (substr_above cfg singleType 0 1).bind fun token => h .kSingleCharacter token
  unfold parseFirstCharacter
  split
  · exact parseAssert_above cfg false (h .kSingleCharacter [])
  · exact .ite hsingle (parseAssert_above cfg false hsingle)
  iterate 8 exact hsingle
  · exact h .kObject []
  · exact h .kArray []
  · exact parseFailure_above cfg (.refl _)

theorem scanClassName_above (singleType : StringView)
    {k k' : Option ℕ → Eval (Option ParseTypeDescriptorResult)} (h : ∀ o, Above (k o) (k' o))
    (n i : ℕ) :
    Above (scanClassName cfg singleType k n i) (scanClassName cfg.elided singleType k' n i) := by
  induction n generalizing i with
  | zero => exact h none
  | succ n ih =>
      refine (charAt_above cfg singleType i).bind fun c => ?_
      have hnext := Above.ite (c := c = ';') (h (some (i + 1))) (ih (i + 1))
      exact .ite (parseFailure_above cfg hnext) hnext

theorem parseObject_above (singleType : StringView) :
    Above (parseObject cfg singleType) (parseObject cfg.elided singleType) := by
  refine scanClassName_above cfg singleType (fun foundSemicolon => ?_) _ _
  refine parseAssert_above cfg _ ((substr_above cfg singleType 0 _).bind fun token => ?_)
  exact (substrFrom_above cfg singleType _).bind fun remainder =>
    parseAssert_above cfg _ (.refl _)

theorem parseSingleTypeDescriptor_above (singleType : StringView) (allowVoid : Bool) :
    Above (parseSingleTypeDescriptor cfg singleType allowVoid)
      (parseSingleTypeDescriptor cfg.elided singleType allowVoid) := by
  induction singleType generalizing allowVoid with
  | nil => exact .refl _
  | cons c remainder ih =>
      refine parseAssert_above cfg _ (parseFirstCharacter_above cfg _ c allowVoid ?_)
      intro state token
      cases state with
      | kSingleCharacter => exact .refl _
      | kArray =>
          refine (ih false).bind fun maybeRes => parseAssert_above cfg _ ?_
          refine (optionalValue_above cfg maybeRes).bind fun res => parseAssert_above cfg _ ?_
          exact (substr_above cfg _ 0 _).bind fun _ => .refl _
      | kObject => exact parseObject_above cfg (c :: remainder)

variable {kMaxSize : ℕ}

theorem signatureStep_above (l : SignatureLoop kMaxSize) :
    Above (signatureStep cfg l) (signatureStep cfg.elided l) := by
  unfold signatureStep
  cases l.state with
  | kInitial =>
      refine (charAt_above cfg l.signature 0).bind fun c => parseAssert_above cfg _ ?_
      exact (substrFrom_above cfg l.signature 1).bind fun _ => .refl _
  | kParsingParameters =>
      refine (charAt_above cfg l.signature 0).bind fun c => .ite ?_ ?_
      · exact (substrFrom_above cfg l.signature 1).bind fun _ => .refl _
      · refine (parseSingleTypeDescriptor_above cfg l.signature false).bind fun res =>
          parseAssert_above cfg _ ?_
        have hvalue := optionalValue_above cfg res
        refine hvalue.bind fun r => (asNode_above cfg r).bind fun node => ?_
        exact (pushBack_above cfg l.jniDescNodeList node).bind fun _ => hvalue.bind fun _ => .refl _
  | kParsingReturnType =>
      refine (parseSingleTypeDescriptor_above cfg l.signature true).bind fun res =>
        parseAssert_above cfg _ ?_
      have hvalue := optionalValue_above cfg res
      exact hvalue.bind fun r => (asNode_above cfg r).bind fun _ => hvalue.bind fun _ => .refl _
  | kCompleted => exact parseFailure_above cfg (.refl _)

theorem signatureLoop_above (n : ℕ) (l : SignatureLoop kMaxSize) :
    Above (signatureLoop cfg n l) (signatureLoop cfg.elided n l) := by
  induction n generalizing l with
  | zero => exact .ite (.refl _) (.refl _)
  | succ n ih =>
      refine .ite (.refl _) ((signatureStep_above cfg l).bind fun o => ?_)
      cases o with
      | none => exact .refl _
      | some l' => exact ih l'

theorem signatureEnd_above (l : SignatureLoop kMaxSize) :
    Above (signatureEnd cfg l) (signatureEnd cfg.elided l) := by
  unfold signatureEnd
  cases l.state with
  | kInitial => exact parseFailure_above cfg ((xAssert_above cfg false).bind fun _ => .refl _)
  | kParsingParameters => exact parseFailure_above cfg (.refl _)
  | kParsingReturnType =>
      exact parseFailure_above cfg
        (parseFailure_above cfg ((xAssert_above cfg false).bind fun _ => .refl _))
  | kCompleted => exact .refl _

theorem parseSignatureAsList_above (kMaxSize : ℕ) (signature : StringView) :
    Above (parseSignatureAsList cfg kMaxSize signature)
      (parseSignatureAsList cfg.elided kMaxSize signature) := by
  refine (signatureLoop_above cfg _ _).bind fun o => ?_
  cases o with
  | none => exact .refl _
  | some l => exact signatureEnd_above cfg l

end parser

/-! ### The function type -/

section functionType
variable (cfg : BuildConfig)

theorem isValidJniParameterPosition_above (nativeKind : NativeKind)
    (position expectedPosition : NativePositionAllowed) :
    Above (isValidJniParameterPosition cfg nativeKind position expectedPosition)
      (isValidJniParameterPosition cfg.elided nativeKind position expectedPosition) :=
  (xAssert_above cfg _).bind fun _ => .refl _

theorem isValidJniParameter_above (T : QualType) (nativeKind : NativeKind)
    (position : NativePositionAllowed) :
    Above (isValidJniParameter cfg T nativeKind position)
      (isValidJniParameter cfg.elided T nativeKind position) :=
  .ite (.refl _) ((isValidJniParameterPosition_above cfg nativeKind position _).bind fun _ => .refl _)

theorem isJniParameterCountValid_above (nativeKind : NativeKind) (count : ℕ) :
    Above (isJniParameterCountValid cfg nativeKind count)
      (isJniParameterCountValid cfg.elided nativeKind count) :=
  .ite (.refl _) (.ite (.refl _) ((xAssert_above cfg false).bind fun _ => .refl _))

theorem isValidJniArgumentType_above (nativeKind : NativeKind) (position : ℕ)
    (args : List CppType) : Above (isValidJniArgumentType cfg nativeKind position args)
      (isValidJniArgumentType cfg.elided nativeKind position args) := by
  induction args generalizing position with
  | nil => exact .refl _
  | cons T args ih =>
      have hT := isValidJniParameter_above cfg T.plain nativeKind (convertPositionToAllowed position)
      cases args with
      | nil => exact hT
      | cons T' args => exact hT.bind fun b => .ite (ih (position + 1)) (.refl _)

theorem isValidJniFunctionType_above (nativeKind : NativeKind) (F : FunctionType) :
    Above (isValidJniFunctionType cfg nativeKind F)
      (isValidJniFunctionType cfg.elided nativeKind F) := by
  refine (isJniParameterCountValid_above cfg nativeKind _).bind fun _ => .ite ?_ (.refl _)
  refine (isValidJniParameter_above cfg F.ret nativeKind _).bind fun _ => .ite ?_ (.refl _)
  exact isValidJniArgumentType_above cfg nativeKind 0 F.args

theorem reifyJniTypeMetafunction_above (T : QualType) :
    Above (reifyJniTypeMetafunction cfg T) (reifyJniTypeMetafunction cfg.elided T) :=
  (xAssert_above cfg _).bind fun _ => .refl _

theorem pushAfterPrefix_above {kMaxSize : ℕ} (skip argsIndex : ℕ)
    (argsList : List ReifiedJniTypeTrait) (args : ConstexprVector ReifiedJniTypeTrait kMaxSize) :
    Above (pushAfterPrefix cfg skip argsIndex argsList args)
      (pushAfterPrefix cfg.elided skip argsIndex argsList args) := by
  induction argsList generalizing argsIndex args with
  | nil => exact .refl _
  | cons arg argsList ih =>
      refine .ite ((pushBack_above cfg args arg).bind fun args => ih _ args) ?_
      exact .bind_right _ fun args => ih _ args

theorem maybeMakeReifiedJniSignature_above (nativeKind : NativeKind) (F : FunctionType) :
    Above (maybeMakeReifiedJniSignature cfg nativeKind F)
      (maybeMakeReifiedJniSignature cfg.elided nativeKind F) := by
  refine (isValidJniFunctionType_above cfg nativeKind F).bind fun valid => ?_
  have hargs (l : List ReifiedJniTypeTrait) :=
    pushAfterPrefix_above cfg (kSkipArgumentPrefix nativeKind) 0 l
      (.empty : ConstexprVector ReifiedJniTypeTrait F.count)
  have hmake := (reifyJniTypeMetafunction_above cfg F.ret).bind fun ret =>
    (Above.mapM (fun T : CppType => reifyJniTypeMetafunction_above cfg T.plain) F.args).bind fun l =>
      (hargs l).bind fun args =>
        Above.refl (.ok (some (⟨args, ret⟩ : ReifiedJniSignature F.count)))
  exact .ite (parseFailure_above cfg hmake) hmake

end functionType

/-! ### Matching and inference -/

section matching
variable (cfg : BuildConfig) {kMaxSize kReifiedMaxSize : ℕ}

theorem mostSimilarTypeDescriptor_above (typeDescriptor : StringView) :
    Above (mostSimilarTypeDescriptor cfg typeDescriptor)
      (mostSimilarTypeDescriptor cfg.elided typeDescriptor) := by
  unfold mostSimilarTypeDescriptor
  cases exactTypeDescriptor typeDescriptor with
  | some T => exact .refl _
  | none =>
      refine .ite ((charAt_above cfg typeDescriptor 0).bind fun shorty => ?_)
        (.bind_right _ fun shorty => ?_)
      all_goals
        refine .ite (.refl _) (.ite ?_ (.refl _))
        exact (substr_above cfg typeDescriptor 0 2).bind fun _ => .refl _

theorem compareReified_above (userShorty : Char) (user derived : ReifiedJniTypeTrait) :
    Above (compareReified cfg userShorty user derived)
      (compareReified cfg.elided userShorty user derived) := by
  refine .ite (.refl _) (.ite (.refl _) (.ite (.refl _) (.ite (.refl _) (.ite (.refl _) ?_))))
  exact .ite (.refl _) ((xAssert_above cfg false).bind fun _ => .refl _)

theorem compareJniDescriptorNodeErased_above (userDefinedDescriptor : JniDescriptorNode)
    (derived : ReifiedJniTypeTrait) :
    Above (compareJniDescriptorNodeErased cfg userDefinedDescriptor derived)
      (compareJniDescriptorNodeErased cfg.elided userDefinedDescriptor derived) := by
  refine (mostSimilarTypeDescriptor_above cfg _).bind fun o => ?_
  cases o with
  | none => exact .refl _
  | some user =>
      exact .ite ((charAt_above cfg _ 0).bind fun c => compareReified_above cfg c user derived)
        (.bind_right _ fun c => compareReified_above cfg c user derived)

theorem compareArgs_above (user : ConstexprVector JniDescriptorNode kMaxSize)
    (reified : ConstexprVector ReifiedJniTypeTrait kReifiedMaxSize) (n i : ℕ) :
    Above (compareArgs cfg user reified n i) (compareArgs cfg.elided user reified n i) := by
  induction n generalizing i with
  | zero => exact .refl _
  | succ n ih =>
      refine .bind_right _ fun u => .bind_right _ fun r => ?_
      exact (compareJniDescriptorNodeErased_above cfg u r).bind fun _ => .ite (.refl _) (ih (i + 1))

theorem compareSignature_above (reified : ReifiedJniSignature kReifiedMaxSize)
    (user : JniSignatureDescriptor kMaxSize) :
    Above (compareSignature cfg reified user) (compareSignature cfg.elided reified user) := by
  refine .ite (.refl _) ((compareJniDescriptorNodeErased_above cfg _ _).bind fun _ => ?_)
  exact .ite (.refl _) (compareArgs_above cfg _ _ _ _)

variable (nativeKind : NativeKind) (F : FunctionType)

theorem matchJniDescriptorWithFunctionType_above (kMaxSize : ℕ) (s : StringView) :
    Above (matchJniDescriptorWithFunctionType cfg nativeKind F kMaxSize s)
      (matchJniDescriptorWithFunctionType cfg.elided nativeKind F kMaxSize s) := by
  refine (maybeMakeReifiedJniSignature_above cfg nativeKind F).bind fun o => ?_
  cases o with
  | none => exact .refl _
  | some reified =>
      refine (parseSignatureAsList_above cfg kMaxSize s).bind fun o => ?_
      cases o with
      | none => exact .refl _
      | some user => exact compareSignature_above cfg reified user

theorem inferArgs_above (reified : ConstexprVector ReifiedJniTypeTrait kReifiedMaxSize) (n i : ℕ)
    (args : ConstexprVector JniDescriptorNode kMaxSize) :
    Above (inferArgs cfg reified n i args) (inferArgs cfg.elided reified n i args) := by
  induction n generalizing i args with
  | zero => exact .refl _
  | succ n ih =>
      refine .bind_right _ fun argTrait => ?_
      have hpush := (jniDescriptorNode_above cfg argTrait.typeDescriptor).bind fun node =>
        (pushBack_above cfg args node).bind fun args => ih (i + 1) args
      exact .ite (parseFailure_above cfg hpush) hpush

theorem fromFunctionType_above :
    Above (fromFunctionType cfg nativeKind F) (fromFunctionType cfg.elided nativeKind F) := by
  refine (maybeMakeReifiedJniSignature_above cfg nativeKind F).bind fun o => ?_
  cases o with
  | none => exact .refl _
  | some reified =>
      refine .ite (parseFailure_above cfg ?_) ?_
      all_goals
        refine (jniDescriptorNode_above cfg reified.ret.typeDescriptor).bind fun ret => ?_
        exact (inferArgs_above cfg reified.args reified.args.size 0 .empty).bind fun _ => .refl _

theorem calculateStringSize_above :
    Above (calculateStringSize cfg nativeKind F) (calculateStringSize cfg.elided nativeKind F) :=
  (fromFunctionType_above cfg nativeKind F).bind fun _ => .refl _

theorem copyDescriptor_above {N : ℕ} (longy : StringView) (n i : ℕ) (c : StringCursor N) :
    Above (copyDescriptor cfg longy n i c) (copyDescriptor cfg.elided longy n i c) := by
  induction n generalizing i c with
  | zero => exact .refl _
  | succ n ih =>
      exact (charAt_above cfg longy i).bind fun value => .bind_right _ fun c => ih (i + 1) c

theorem copyArgs_above {N : ℕ} (args : ConstexprVector JniDescriptorNode kMaxSize) (n j : ℕ)
    (c : StringCursor N) : Above (copyArgs cfg args n j c) (copyArgs cfg.elided args n j c) := by
  induction n generalizing j c with
  | zero => exact .refl _
  | succ n ih =>
      refine .bind_right _ fun argDescriptor => ?_
      exact (copyDescriptor_above cfg argDescriptor.longy _ 0 c).bind fun c => ih (j + 1) c

theorem getString_above (kMaxStringSize : ℕ) :
    Above (getString cfg nativeKind F kMaxStringSize)
      (getString cfg.elided nativeKind F kMaxStringSize) := by
  refine (fromFunctionType_above cfg nativeKind F).bind fun o => ?_
  cases o with
  | none => exact .refl _
  | some sig =>
      refine .bind_right _ fun c => (copyArgs_above cfg sig.args _ 0 c).bind fun c => ?_
      refine .bind_right _ fun c => (copyDescriptor_above cfg sig.ret.longy _ 0 c).bind fun c => ?_
      exact (xAssert_above cfg _).bind fun _ => .refl _

theorem getStringAtRuntime_above :
    Above (getStringAtRuntime cfg nativeKind F) (getStringAtRuntime cfg.elided nativeKind F) :=
  (calculateStringSize_above cfg nativeKind F).bind fun n =>
    (getString_above cfg nativeKind F n).bind fun _ => .refl _

end matching

/-! ### Tables -/

/-- The same compiler with the assertions disabled. -/
def Compiler.elided (c : Compiler) : Compiler := { c with cfg := c.cfg.elided }

section macros
variable {c : Compiler} {nativeKind : NativeKind} {name : String} {signature : StringView}
  {fn : CppFunction} {m : JNINativeMethod}

theorem jniMakeMethod_elided (h : jniMakeMethod c nativeKind name signature fn = some m) :
    jniMakeMethod c.elided nativeKind name signature fn = some m := by
  rw [jniMakeMethod] at h ⊢
  show (if c.cxx14 then _ else _) = some m
  by_cases h14 : c.cxx14
  · rw [if_pos h14] at h ⊢
    rw [makeCheckedJniNativeMethod] at h ⊢
    split at h
    · rename_i hm
      have hm' : matchJniDescriptorWithFunctionType c.elided.cfg nativeKind fn.type
          (signature.length + 1) signature = .ok true :=
        matchJniDescriptorWithFunctionType_above c.cfg nativeKind fn.type _ signature true hm
      rw [hm']
      exact h
    · cases h
  · rw [if_neg h14] at h ⊢
    exact h

theorem jniMakeMethodAutosig_elided (h : jniMakeMethodAutosig c nativeKind name fn = some m) :
    jniMakeMethodAutosig c.elided nativeKind name fn = some m := by
  rw [jniMakeMethodAutosig] at h ⊢
  show (if c.cxx14 then _ else _) = some m
  by_cases h14 : c.cxx14
  · rw [if_pos h14] at h ⊢
    rw [makeInferredJniNativeMethod] at h ⊢
    split at h
    · rename_i signature hs
      have hs' : getStringAtRuntime c.elided.cfg nativeKind fn.type = .ok signature :=
        getStringAtRuntime_above c.cfg nativeKind fn.type signature hs
      rw [hs']
      exact h
    · cases h
  · rw [if_neg h14] at h
    cases h

/-- What compiles with assertions compiles to the same entry without. -/
theorem MacroUse.expand_elided {scope : String → Option CppFunction} {use : MacroUse}
    (h : use.expand c scope = some m) : use.expand c.elided scope = some m := by
  cases use with
  | make a name sig fn => cases a <;> exact jniMakeMethod_elided h
  | makeAutosig a name fn => cases a <;> exact jniMakeMethodAutosig_elided h
  | method a cls name sig =>
      cases a <;> obtain ⟨fn, hfn, hm⟩ := Option.bind_eq_some_iff.mp h <;>
        exact Option.bind_eq_some_iff.mpr ⟨fn, hfn, jniMakeMethod_elided hm⟩
  | overloaded a cls name sig id =>
      cases a <;> obtain ⟨fn, hfn, hm⟩ := Option.bind_eq_some_iff.mp h <;>
        exact Option.bind_eq_some_iff.mpr ⟨fn, hfn, jniMakeMethod_elided hm⟩
  | methodAutosig a cls name =>
      cases a <;> obtain ⟨fn, hfn, hm⟩ := Option.bind_eq_some_iff.mp h <;>
        exact Option.bind_eq_some_iff.mpr ⟨fn, hfn, jniMakeMethodAutosig_elided hm⟩

end macros

/-- `MAKE_JNI_NATIVE_METHOD("f", "(LE;)I", f)` -/
theorem MacroUse.expand_elided_make : ∃ m,
    (make .unannotated "f" "(LE;)I".toList ⟨5, intOfThrowable⟩).expand
      (Compiler.elided ⟨.fatal, true⟩) (fun _ => none) = some m ∧ m.signature = "(LE;)I".toList := by
  have hm : matchJniDescriptorWithFunctionType .fatal .kNormalNative intOfThrowable
      ("(LE;)I".toList.length + 1) "(LE;)I".toList = .ok true := by decide +kernel
  have hl : literalString "(LE;)I".toList = "(LE;)I".toList := by decide +kernel
  have h : jniMakeMethod ⟨.fatal, true⟩ .kNormalNative "f" "(LE;)I".toList ⟨5, intOfThrowable⟩ =
      some ⟨"f", "(LE;)I".toList, ⟨5, intOfThrowable⟩⟩ := by
    rw [jniMakeMethod, if_pos rfl, makeCheckedJniNativeMethod, hm, hl]
  have he : (make .unannotated "f" "(LE;)I".toList ⟨5, intOfThrowable⟩).expand ⟨.fatal, true⟩
      (fun _ => none) = some ⟨"f", "(LE;)I".toList, ⟨5, intOfThrowable⟩⟩ := h
  exact ⟨_, MacroUse.expand_elided he, rfl⟩

/-! ### What is lost -/

section lost
variable {nativeKind : NativeKind} {F : FunctionType}

theorem isValidJniFunctionType_elided_returns (cfg : BuildConfig) (nativeKind : NativeKind)
    (F : FunctionType) :
    ∃ valid, isValidJniFunctionType cfg.elided nativeKind F = .ok valid := by
  by_cases hk : nativeKind.IsMethod
  · exact ⟨_, isValidJniFunctionType_eq cfg.elided hk F⟩
  · -- the assertion on the kind would have failed
    have hcount : isJniParameterCountValid cfg.elided nativeKind F.args.length = .ok false := by
      cases nativeKind <;> first | rfl | exact absurd (by decide) hk
    refine ⟨false, ?_⟩
    rw [isValidJniFunctionType, hcount]
    rfl

theorem reifyJniTypeMetafunction_elided (cfg : BuildConfig) (T : QualType) :
    reifyJniTypeMetafunction cfg.elided T = .ok (jniTypeTrait T) := rfl

theorem reifyArgs_elided (cfg : BuildConfig) (args : List CppType) :
    (args.mapM fun T => reifyJniTypeMetafunction cfg.elided T.plain) =
      .ok (args.map jniTypeTraitOf) := by
  induction args with
  | nil => rfl
  | cons T args ih =>
      rw [List.mapM_cons, ih]
      rfl

/-- In the build of users, without its assertions, every function type has a reified signature. -/
theorem maybeMakeReifiedJniSignature_elided (nativeKind : NativeKind) (F : FunctionType) :
    maybeMakeReifiedJniSignature BuildConfig.fatal.elided nativeKind F =
      .ok (some { reifiedSignature nativeKind F with ret := jniTypeTrait F.ret }) := by
  obtain ⟨valid, hvalid⟩ := isValidJniFunctionType_elided_returns BuildConfig.fatal nativeKind F
  obtain ⟨v, hv, e⟩ := pushAfterPrefix_eq BuildConfig.fatal.elided (kSkipArgumentPrefix nativeKind) 0
    (F.args.map jniTypeTraitOf) (.empty : ConstexprVector _ F.count)
    (by simp [FunctionType.count])
  obtain rfl : v = (reifiedSignature nativeKind F).args := by
    apply ConstexprVector.ext
    rw [e, ConstexprVector.elems_empty, List.nil_append, Nat.sub_zero, ← List.map_drop]
    rfl
  unfold maybeMakeReifiedJniSignature
  rw [hvalid, reifyArgs_elided]
  simp only [eval_bind_ok, hv, reifyJniTypeMetafunction_elided]
  cases valid <;> rfl

variable {kMaxSize : ℕ} {s : StringView}

/-- **Without its assertions** the build of users accepts a signature if its descriptors go with the
types behind the prefix, whether or not they are those of a native method. -/
theorem match_elided (hroom : s.length ≤ kMaxSize) {args : List StringView} {ret : StringView}
    (hs : Signature s args ret) :
    matchJniDescriptorWithFunctionType BuildConfig.fatal.elided nativeKind F kMaxSize s =
      .ok (decide (F.ret.Unqualified ∧ Related ret F.ret.type ∧
        List.Forall₂ Related args (F.javaArgs nativeKind))) := by
  obtain ⟨user, hp, htok⟩ := parseSignatureAsList_of_signature BuildConfig.fatal_checks hroom hs
  have hp' := parseSignatureAsList_above BuildConfig.fatal kMaxSize s _ hp
  obtain ⟨-, hargs, hret⟩ := hs
  have hcompare {R : CppType} (hR : jniTypeTrait F.ret = jniTypeTraitOf R) :=
    @compareSignature_eq BuildConfig.fatal.elided _ _
      { reifiedSignature nativeKind F with ret := jniTypeTrait F.ret } user (F.javaArgs nativeKind) R
      (by rw [htok]; exact hargs) (by rw [htok]; exact hret) rfl hR
  simp only [matchJniDescriptorWithFunctionType, maybeMakeReifiedJniSignature_elided, eval_bind_ok,
    hp']
  by_cases hF : F.ret.Unqualified
  · rw [hcompare (if_pos hF), htok]
    simp [hF]
  · -- a qualified return type goes with no descriptor
    have hother : ¬ Related user.tokens.2 (.other 0) := by
      rintro ⟨p, hp, -⟩
      cases hp
    rw [hcompare (if_neg hF : _ = jniTypeTraitOf (.other 0))]
    simp [hF, hother]

/-- **The assertions are there for two checks**: the build of users accepts what it would accept
without them exactly if the function type is valid and the string is a signature. -/
theorem match_fatal_iff (nativeKind : NativeKind) (F : FunctionType) (hroom : s.length ≤ kMaxSize) :
    matchJniDescriptorWithFunctionType .fatal nativeKind F kMaxSize s = .ok true ↔
      isValidJniFunctionType .fatal nativeKind F = .ok true ∧
      (∃ sig, parseSignatureAsList .fatal kMaxSize s = .ok (some sig)) ∧
      matchJniDescriptorWithFunctionType BuildConfig.fatal.elided nativeKind F kMaxSize s =
        .ok true := by
  constructor
  · intro h
    obtain ⟨hv, -, args, ret, hs⟩ := of_match BuildConfig.fatal_checks hroom h
    obtain ⟨sig, hsig, -⟩ := parseSignatureAsList_of_signature BuildConfig.fatal_checks hroom hs
    exact ⟨hv, ⟨sig, hsig⟩, matchJniDescriptorWithFunctionType_above _ _ _ _ _ _ h⟩
  · rintro ⟨hv, ⟨sig, hsig⟩, h⟩
    have hs := signature_of_parseSignatureAsList BuildConfig.fatal_checks hroom hsig
    rw [match_elided hroom hs] at h
    obtain ⟨hF, hrel⟩ := of_decide_eq_true (Except.ok.inj h)
    rw [match_of_signature BuildConfig.fatal_checks hv hF hroom hs, decide_eq_true hrel]

end lost

theorem match_fatal_iff_throwable :
    matchJniDescriptorWithFunctionType .fatal .kNormalNative intOfThrowable 6 "(LE;)I".toList =
      .ok true := by
  have hs : Signature "(LE;)I".toList ["LE;".toList] "I".toList := readSignature_iff.mp (by decide)
  obtain ⟨sig, hsig, -⟩ :
      ∃ sig, parseSignatureAsList .fatal 6 "(LE;)I".toList = .ok (some sig) ∧ sig.tokens = _ :=
    parseSignatureAsList_of_signature BuildConfig.fatal_checks (by decide) hs
  refine (match_fatal_iff .kNormalNative intOfThrowable (by decide)).mpr ⟨by decide, ⟨sig, hsig⟩, ?_⟩
  decide +kernel

/-- `void f(jobject)` -/
def voidOfObject : FunctionType := ⟨CppType.void.plain, [.jobject], by decide⟩

/-- A critical native with a reference, which no critical native has. -/
example : matchJniDescriptorWithFunctionType BuildConfig.fatal.elided .kCriticalNative voidOfObject
    6 "(LE;)V".toList = .ok true := by decide +kernel

/-- A class without a name. -/
example : matchJniDescriptorWithFunctionType BuildConfig.fatal.elided .kCriticalNative voidOfObject
    5 "(L;)V".toList = .ok true := by decide +kernel

end NativeHelper
