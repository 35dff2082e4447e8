import NativeHelper.Inference

/-! # Comparing and printing

Views are compared character by character, and traits and optionals by their parts: this is
equality (`viewEq_eq`, `traitEq_eq`, `optionalEq_eq`).  The tests compare what `operator<<` writes.

Nothing is lost by that.  Class names may have commas and braces in them, but a descriptor is known
from what follows it, as a name of a type is from the comma or the brace behind it (`Ended`).

* `printed_iff`: two strings are parsed to the same text if both are rejected or they are the same.
* `printed_reified_iff`: two function types are reified to the same text if they agree but for
  what stands in front of the Java arguments. -/

namespace NativeHelper

open PrefixCode

/-! ### Comparing -/

section compare
variable (cfg : BuildConfig)

/-- The loop of `operator==`, with `n` characters left from the index `i` on. -/
def viewEqFrom (lhs rhs : StringView) : ℕ → ℕ → Eval Bool
  | 0, _ => .ok true
  | n + 1, i => do
      if (← charAt cfg lhs i) ≠ (← charAt cfg rhs i) then .ok false
      else viewEqFrom lhs rhs n (i + 1)

/-- `operator==` of `ConstexprStringView`. -/
def viewEq (lhs rhs : StringView) : Eval Bool :=
  if lhs.length ≠ rhs.length then .ok false else viewEqFrom cfg lhs rhs lhs.length 0

/-- `operator==` of `ReifiedJniTypeTrait`. -/
def traitEq (lhs rhs : ReifiedJniTypeTrait) : Eval Bool := do
  if lhs.nativeKind ≠ rhs.nativeKind then .ok false
  else if !(← viewEq cfg rhs.typeDescriptor lhs.typeDescriptor) then .ok false
  else if lhs.positionAllowed ≠ rhs.positionAllowed then .ok false
  else if rhs.typeFinality ≠ lhs.typeFinality then .ok false
  else viewEq cfg lhs.typeName rhs.typeName

/-- `operator==` of `ConstexprOptional<T>`. -/
def optionalEq {T : Type} (eq : T → T → Eval Bool) (lhs rhs : Option T) : Eval Bool :=
  if lhs.isSome ∧ rhs.isSome then do eq (← optionalValue cfg lhs) (← optionalValue cfg rhs)
  else .ok (lhs.isSome = rhs.isSome)

theorem viewEqFrom_eq {lhs rhs : StringView} (n i : ℕ) (hl : i + n = lhs.length)
    (hr : i + n = rhs.length) :
    viewEqFrom cfg lhs rhs n i = .ok (decide (lhs.drop i = rhs.drop i)) := by
  induction n generalizing i with
  | zero =>
      rw [List.drop_eq_nil_of_le (by omega), List.drop_eq_nil_of_le (by omega)]
      rfl
  | succ n ih =>
      have hil : i < lhs.length := by omega
      have hir : i < rhs.length := by omega
      have hdrop : lhs.drop i = rhs.drop i ↔
          lhs[i] = rhs[i] ∧ lhs.drop (i + 1) = rhs.drop (i + 1) := by
        rw [List.drop_eq_getElem_cons hil, List.drop_eq_getElem_cons hir, List.cons_eq_cons]
      rw [viewEqFrom, charAt_of_getElem? cfg lhs (List.getElem?_eq_getElem hil), eval_bind_ok,
        charAt_of_getElem? cfg rhs (List.getElem?_eq_getElem hir), eval_bind_ok,
        ih (i + 1) (by omega) (by omega)]
      by_cases hc : lhs[i] = rhs[i]
      · rw [if_neg (not_not.mpr hc)]
        exact congrArg Except.ok (decide_eq_decide.mpr (hdrop.trans (and_iff_right hc)).symm)
      · rw [if_pos hc]
        exact congrArg Except.ok (decide_eq_false fun h => hc (hdrop.mp h).1).symm

/-- **The comparison of views** never fails and is equality. -/
theorem viewEq_eq (lhs rhs : StringView) : viewEq cfg lhs rhs = .ok (decide (lhs = rhs)) := by
  unfold viewEq
  by_cases hlen : lhs.length = rhs.length
  · rw [if_neg (not_not.mpr hlen), viewEqFrom_eq cfg _ 0 (Nat.zero_add _) (by omega)]
    rfl
  · have hne : lhs ≠ rhs := fun h => hlen (congrArg List.length h)
    rw [if_pos hlen, decide_eq_false hne]

theorem traitEq_eq (lhs rhs : ReifiedJniTypeTrait) :
    traitEq cfg lhs rhs = .ok (decide (lhs = rhs)) := by
  obtain ⟨kind, desc, pos, final, name⟩ := lhs
  obtain ⟨kind', desc', pos', final', name'⟩ := rhs
  simp only [traitEq, viewEq_eq, eval_bind_ok, ReifiedJniTypeTrait.mk.injEq]
  by_cases hk : kind = kind'
  · by_cases hd : desc = desc'
    · by_cases hp : pos = pos'
      · by_cases hf : final = final'
        · simp [hk, hd, hp, hf]
        · simp [hk, hd, hp, hf, Ne.symm hf]
      · simp [hk, hd, hp]
    · simp [hk, hd, Ne.symm hd]
  · simp [hk]

theorem optionalEq_eq {T : Type} [DecidableEq T] {eq : T → T → Eval Bool}
    (heq : ∀ a b, eq a b = .ok (decide (a = b))) (lhs rhs : Option T) :
    optionalEq cfg eq lhs rhs = .ok (decide (lhs = rhs)) := by
  cases lhs <;> cases rhs <;> simp [optionalEq, heq]

end compare

/-! ### Printing -/

/-- What was written to a stream. -/
abbrev Written := List Char

def printView (os : Written) (str : StringView) : Written := str.foldl (fun os c => os ++ [c]) os

def printNode (os : Written) (node : JniDescriptorNode) : Written := printView os node.longy

def printTrait (os : Written) (rjtt : ReifiedJniTypeTrait) : Written := printView os rjtt.typeName

section print
variable {T : Type} (print : Written → T → Written)

def printOptional (os : Written) : Option T → Written
  | some value => print os value
  | none => os

/-- The loop over the arguments, from the one with the index `count` on. -/
def printArgs (size : ℕ) : ℕ → List T → Written → Written
  | _, [], os => os
  | count, arg :: args, os =>
      let os := print os arg
      let os := if count ≠ size - 1 then os ++ [','] else os
      printArgs size (count + 1) args os

/-- `operator<<` of `FunctionSignatureDescriptor<T, kMaxSize>`, which writes the arguments between
braces. -/
def printSignature {kMaxSize : ℕ} (os : Written)
    (signature : FunctionSignatureDescriptor T kMaxSize) : Written :=
  let os := os ++ "args=\x7b".toList
  let os := printArgs print signature.args.size 0 signature.args.elems os
  let os := os ++ "\x7d, ret=".toList
  print os signature.ret

end print

/-! ### The texts -/

/-- The text of a component, whatever was written before. -/
def Prints {T : Type} (print : Written → T → Written) (text : T → List Char) : Prop :=
  ∀ os value, print os value = os ++ text value

theorem printView_eq (os : Written) (str : StringView) : printView os str = os ++ str := by
  unfold printView
  induction str generalizing os with
  | nil => exact (List.append_nil os).symm
  | cons c str ih => rw [List.foldl_cons, ih, List.append_assoc, List.singleton_append]

theorem prints_node : Prints printNode JniDescriptorNode.longy := fun os node =>
  printView_eq os node.longy

theorem prints_trait : Prints printTrait ReifiedJniTypeTrait.typeName := fun os rjtt =>
  printView_eq os rjtt.typeName

/-- The text of a signature. -/
def signatureText (args : List (List Char)) (ret : List Char) : List Char :=
  "args=\x7b".toList ++ (List.intercalate [','] args ++ '}' :: (", ret=".toList ++ ret))

section texts
variable {T : Type} {print : Written → T → Written} {text : T → List Char}

/-- The arguments are separated by commas. -/
theorem printArgs_eq (h : Prints print text) {size : ℕ} (args : List T) (count : ℕ)
    (hsize : count + args.length = size) (os : Written) :
    printArgs print size count args os = os ++ List.intercalate [','] (args.map text) := by
  induction args generalizing count os with
  | nil => exact (List.append_nil os).symm
  | cons arg args ih =>
      rw [List.length_cons] at hsize
      rw [printArgs, ih (count + 1) (by omega), h os arg]
      cases args with
      | nil =>
          have hlast : ¬ count ≠ size - 1 := by
            rw [List.length_nil] at hsize
            omega
          rw [if_neg hlast, List.map_nil, List.intercalate_nil, List.append_nil, List.map_singleton,
            List.intercalate_singleton]
      | cons arg' args =>
          have hmore : count ≠ size - 1 := by
            rw [List.length_cons] at hsize
            omega
          rw [if_pos hmore, List.map_cons, List.map_cons, List.map_cons, List.intercalate_cons_cons,
            List.append_assoc, List.append_assoc, List.append_assoc]

theorem printSignature_eq (h : Prints print text) {kMaxSize : ℕ} (os : Written)
    (signature : FunctionSignatureDescriptor T kMaxSize) :
    printSignature print os signature =
      os ++ signatureText (signature.args.elems.map text) (text signature.ret) := by
  unfold printSignature signatureText
  have hargs := printArgs_eq h signature.args.elems 0 (Nat.zero_add signature.args.size)
  dsimp only
  rw [h, hargs]
  simp only [List.append_assoc]
  rfl

end texts

/-- A text says what the components are, where no argument is empty or begins with a brace and
every argument is known from the comma or the brace behind it. -/
theorem signatureText_injective {L : Set (List Char)} (hL : Ended L {',', '}'}) (hs : Avoids L '}')
    {args args' : List (List Char)} {ret ret' : List Char} (ha : ∀ d ∈ args, d ∈ L)
    (ha' : ∀ d ∈ args', d ∈ L) (h : signatureText args ret = signatureText args' ret') :
    args = args' ∧ ret = ret' := by
  obtain ⟨hargs, hret⟩ := hL.intercalate_inj hs (by decide) ha ha' (List.append_cancel_left h)
  exact ⟨hargs, List.append_cancel_left hret⟩

/-! ### Parsed signatures -/

theorem typeDescriptor_avoids_brace : Avoids {d | TypeDescriptor d} '}' := by
  intro d hd
  cases d with
  | nil => exact absurd rfl (TypeDescriptor.ne_nil hd)
  | cons c t =>
      refine ⟨c, t, rfl, ?_⟩
      rintro rfl
      exact absurd (TypeDescriptor.head_mem hd) (by decide)

theorem signatureText_ne_nil (args : List (List Char)) (ret : List Char) :
    signatureText args ret ≠ [] := by
  unfold signatureText
  rw [show "args=\x7b".toList = 'a' :: "rgs=\x7b".toList from rfl, List.cons_append]
  exact List.cons_ne_nil _ _

section parsed
variable {cfg : BuildConfig} {kMaxSize kMaxSize' : ℕ} {s s' : StringView}

theorem printed_eq (os : Written) (sig : JniSignatureDescriptor kMaxSize) :
    printOptional (printSignature printNode) os (some sig) =
      os ++ signatureText sig.tokens.1 sig.tokens.2 :=
  printSignature_eq prints_node os sig

/-- The string that was parsed is known from the text. -/
theorem eq_of_printed (hcfg : cfg.Checks) (hroom : s.length ≤ kMaxSize)
    (hroom' : s'.length ≤ kMaxSize') {sig : JniSignatureDescriptor kMaxSize}
    {sig' : JniSignatureDescriptor kMaxSize'}
    (h : parseSignatureAsList cfg kMaxSize s = .ok (some sig))
    (h' : parseSignatureAsList cfg kMaxSize' s' = .ok (some sig'))
    (htext : signatureText sig.tokens.1 sig.tokens.2 =
      signatureText sig'.tokens.1 sig'.tokens.2) : s = s' := by
  obtain ⟨hs, hargs, _⟩ := signature_of_parseSignatureAsList hcfg hroom h
  obtain ⟨hs', hargs', _⟩ := signature_of_parseSignatureAsList hcfg hroom' h'
  obtain ⟨ha, hr⟩ := signatureText_injective (typeDescriptor_reads.prefixFree.ended)
    typeDescriptor_avoids_brace hargs hargs' htext
  rw [hs, hs', ha, hr]

/-- A string is parsed to the same tokens whatever storage there is. -/
theorem parse_of_parse (hcfg : cfg.Checks) (hroom : s.length ≤ kMaxSize)
    (hroom' : s.length ≤ kMaxSize') {sig : JniSignatureDescriptor kMaxSize}
    (h : parseSignatureAsList cfg kMaxSize s = .ok (some sig))
    {o : Option (JniSignatureDescriptor kMaxSize')}
    (h' : parseSignatureAsList cfg kMaxSize' s = .ok o) :
    ∃ sig', o = some sig' ∧ sig'.tokens = sig.tokens := by
  have hs := signature_of_parseSignatureAsList hcfg hroom h
  obtain ⟨sig', hsig', htok⟩ := parseSignatureAsList_of_signature hcfg hroom' hs
  rw [hsig'] at h'
  exact ⟨sig', (Except.ok.inj h').symm, htok⟩

/-- **What is parsed is known from its text**: two strings are parsed to the same text if and only
if both are rejected, or they are one string, which is accepted. -/
theorem printed_iff (hcfg : cfg.Checks) (hroom : s.length ≤ kMaxSize)
    (hroom' : s'.length ≤ kMaxSize') {o : Option (JniSignatureDescriptor kMaxSize)}
    {o' : Option (JniSignatureDescriptor kMaxSize')}
    (h : parseSignatureAsList cfg kMaxSize s = .ok o)
    (h' : parseSignatureAsList cfg kMaxSize' s' = .ok o') :
    printOptional (printSignature printNode) [] o = printOptional (printSignature printNode) [] o' ↔
      (o = none ∧ o' = none) ∨ (o.isSome ∧ s = s') := by
  cases o with
  | none =>
      cases o' with
      | none => exact iff_of_true rfl (.inl ⟨rfl, rfl⟩)
      | some sig' =>
          refine iff_of_false ?_ (by rintro (⟨_, ⟨⟩⟩ | ⟨⟨⟩, _⟩))
          rw [printed_eq]
          exact (signatureText_ne_nil _ _).symm
  | some sig =>
      cases o' with
      | none =>
          refine iff_of_false ?_ ?_
          · rw [printed_eq]
            exact signatureText_ne_nil _ _
          · rintro (⟨⟨⟩, _⟩ | ⟨_, rfl⟩)
            obtain ⟨_, ⟨⟩, _⟩ := parse_of_parse hcfg hroom hroom' h h'
      | some sig' =>
          rw [printed_eq, printed_eq, List.nil_append, List.nil_append]
          constructor
          · exact fun htext => .inr ⟨rfl, eq_of_printed hcfg hroom hroom' h h' htext⟩
          · rintro (⟨⟨⟩, _⟩ | ⟨_, rfl⟩)
            obtain ⟨_, ⟨⟩, htok⟩ := parse_of_parse hcfg hroom hroom' h h'
            rw [htok]

end parsed

/-- A comma in a class name is not one between two arguments. -/
theorem printed_iff_comma :
    ∃ (sig : JniSignatureDescriptor 8) (sig' : JniSignatureDescriptor 9),
      parseSignatureAsList .nonfatal 8 "(La,b;)V".toList = .ok (some sig) ∧
      parseSignatureAsList .nonfatal 9 "(La;Lb;)V".toList = .ok (some sig') ∧
      printOptional (printSignature printNode) [] (some sig) ≠
        printOptional (printSignature printNode) [] (some sig') := by
  have hread : ∀ d ∈ ["La,b;".toList, "La;".toList, "Lb;".toList],
      readDescriptor false d = some (d, []) := by decide
  have hd : ∀ d ∈ ["La,b;".toList, "La;".toList, "Lb;".toList], TypeDescriptor d :=
    fun d hmem => ((typeDescriptor_reads d d []).mp (hread d hmem)).1
  obtain ⟨sig, h, _⟩ := parseSignatureAsList_of_signature BuildConfig.nonfatal_checks
    (show "(La,b;)V".toList.length ≤ 8 by decide)
    (show Signature "(La,b;)V".toList ["La,b;".toList] ['V'] from
      ⟨by decide, fun d hmem => hd d (by simp at hmem; simp [hmem]), .inr rfl⟩)
  obtain ⟨sig', h', _⟩ := parseSignatureAsList_of_signature BuildConfig.nonfatal_checks
    (show "(La;Lb;)V".toList.length ≤ 9 by decide)
    (show Signature "(La;Lb;)V".toList ["La;".toList, "Lb;".toList] ['V'] from
      ⟨by decide, fun d hmem => hd d (List.mem_cons_of_mem _ hmem), .inr rfl⟩)
  refine ⟨sig, sig', h, h', fun htext => ?_⟩
  rcases (printed_iff BuildConfig.nonfatal_checks (by decide) (by decide) h h').mp htext with
    ⟨⟨⟩, _⟩ | ⟨_, hs⟩
  exact absurd hs (by decide)

/-! ### Reified signatures -/

/-- The type with this name. -/
def typeNamed (name : StringView) : Option CppType :=
  jniTypes.find? fun T => (jniTypeTraitOf T).typeName = name

theorem typeNamed_typeName {T : CppType} (h : T ∈ jniTypes) :
    typeNamed (jniTypeTraitOf T).typeName = some T := by
  have rows : jniTypes.all (fun T => typeNamed (jniTypeTraitOf T).typeName = some T) = true := by
    decide +kernel
  exact of_decide_eq_true (List.all_eq_true.mp rows T h)

/-- No name is empty, and there are no commas and no braces in names. -/
theorem typeName_chars {T : CppType} (h : T ∈ jniTypes) :
    (jniTypeTraitOf T).typeName ≠ [] ∧ ',' ∉ (jniTypeTraitOf T).typeName ∧
      '}' ∉ (jniTypeTraitOf T).typeName := by
  have rows : jniTypes.all (fun T => (jniTypeTraitOf T).typeName ≠ [] ∧
      ',' ∉ (jniTypeTraitOf T).typeName ∧ '}' ∉ (jniTypeTraitOf T).typeName) = true := by
    decide +kernel
  exact of_decide_eq_true (List.all_eq_true.mp rows T h)

def typeNames : Set (List Char) := {name | ∃ T ∈ jniTypes, name = (jniTypeTraitOf T).typeName}

theorem typeNames_ended : Ended typeNames {',', '}'} := by
  refine ended_of_notMem ?_
  rintro _ ⟨T, hT, rfl⟩ c hc (rfl | rfl)
  · exact (typeName_chars hT).2.1 hc
  · exact (typeName_chars hT).2.2 hc

theorem typeNames_avoids : Avoids typeNames '}' := by
  rintro _ ⟨T, hT, rfl⟩
  obtain ⟨hne, _, hbrace⟩ := typeName_chars hT
  obtain ⟨c, t, hct⟩ := List.exists_cons_of_ne_nil hne
  refine ⟨c, t, hct, ?_⟩
  rintro rfl
  rw [hct] at hbrace
  exact hbrace List.mem_cons_self

/-- Types with the same names are the same. -/
theorem eq_of_typeNames {Ts Us : List CppType} (hT : ∀ T ∈ Ts, T ∈ jniTypes)
    (hU : ∀ U ∈ Us, U ∈ jniTypes)
    (h : Ts.map (fun T => (jniTypeTraitOf T).typeName) =
      Us.map fun U => (jniTypeTraitOf U).typeName) : Ts = Us := by
  have hmap : ∀ {l : List CppType}, (∀ T ∈ l, T ∈ jniTypes) →
      (l.map fun T => (jniTypeTraitOf T).typeName).map typeNamed = l.map some := by
    intro l hl
    rw [List.map_map]
    exact List.map_congr_left fun T hT => typeNamed_typeName (hl T hT)
  have := congrArg (List.map typeNamed) h
  rw [hmap hT, hmap hU] at this
  exact List.map_injective_iff.mpr (Option.some_injective _) this

/-- **A reified signature is known from its text**: two function types are reified to the same text
if and only if their return types and their Java arguments are the same. -/
theorem printed_reified_iff {cfg : BuildConfig} {nativeKind nativeKind' : NativeKind}
    {F F' : FunctionType} (hv : isValidJniFunctionType cfg nativeKind F = .ok true)
    (hv' : isValidJniFunctionType cfg nativeKind' F' = .ok true) (hF : F.ret.Unqualified)
    (hF' : F'.ret.Unqualified) {sig : ReifiedJniSignature F.count}
    {sig' : ReifiedJniSignature F'.count}
    (hm : maybeMakeReifiedJniSignature cfg nativeKind F = .ok (some sig))
    (hm' : maybeMakeReifiedJniSignature cfg nativeKind' F' = .ok (some sig')) :
    printSignature printTrait [] sig = printSignature printTrait [] sig' ↔
      F.ret.type = F'.ret.type ∧ F.javaArgs nativeKind = F'.javaArgs nativeKind' := by
  have hq : ∀ {T : QualType}, T.Unqualified → jniTypeTrait T = jniTypeTraitOf T.type :=
    fun h => if_pos h
  obtain ⟨hargs, hret⟩ := reified_of_valid hv hm
  obtain ⟨hargs', hret'⟩ := reified_of_valid hv' hm'
  obtain ⟨_, hretm, hargsm⟩ := isMethod_of_valid hv
  obtain ⟨_, hretm', hargsm'⟩ := isMethod_of_valid hv'
  have hmem : ∀ {Ts : List CppType}, (∀ T ∈ Ts, (jniTypeTraitOf T).nativeKind.IsMethod) →
      ∀ T ∈ Ts, T ∈ jniTypes := fun h T hT => mem_jniTypes_of_isMethod (h T hT)
  have hnames : ∀ {Ts : List CppType}, (∀ T ∈ Ts, T ∈ jniTypes) →
      ∀ name ∈ (Ts.map jniTypeTraitOf).map ReifiedJniTypeTrait.typeName, name ∈ typeNames := by
    intro Ts h name hn
    rw [List.map_map] at hn
    obtain ⟨T, hT, rfl⟩ := List.mem_map.mp hn
    exact ⟨T, h T hT, rfl⟩
  rw [printSignature_eq prints_trait, printSignature_eq prints_trait, hargs, hargs', hret, hret',
    hq hF, hq hF', List.nil_append, List.nil_append]
  constructor
  · intro htext
    obtain ⟨ha, hr⟩ := signatureText_injective typeNames_ended typeNames_avoids
      (hnames (hmem hargsm)) (hnames (hmem hargsm')) htext
    rw [List.map_map, List.map_map] at ha
    have hT := typeNamed_typeName (mem_jniTypes_of_isMethod hretm)
    have hT' := typeNamed_typeName (mem_jniTypes_of_isMethod hretm')
    rw [hr, hT'] at hT
    exact ⟨(Option.some.inj hT).symm, eq_of_typeNames (hmem hargsm) (hmem hargsm') ha⟩
  · rintro ⟨hr, ha⟩
    rw [hr, ha]

/-- The annotation of a method does not show. -/
theorem printed_reified_iff_fast :
    printSignature printTrait [] (reifiedSignature .kNormalNative intOfIntArray) =
      printSignature printTrait [] (reifiedSignature .kFastNative intOfIntArray) := by
  have hv : ∀ nativeKind ∈ [NativeKind.kNormalNative, .kFastNative],
      isValidJniFunctionType .fatal nativeKind intOfIntArray = .ok true := by decide
  have hv₁ := hv .kNormalNative (by decide)
  have hv₂ := hv .kFastNative (by decide)
  have hF : intOfIntArray.ret.Unqualified := by decide
  exact (printed_reified_iff hv₁ hv₂ hF hF (maybeMakeReifiedJniSignature_eq hv₁ hF)
    (maybeMakeReifiedJniSignature_eq hv₂ hF)).mpr ⟨rfl, rfl⟩

end NativeHelper
