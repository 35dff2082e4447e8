import NativeHelper.Descriptors
import NativeHelper.TypeTraits

/-! # Comparing a descriptor with a C++ type

`compareJniDescriptorNodeErased` looks up the row most similar to a descriptor and compares it
with the row of the C++ type, in ordered branches.  On well-formed descriptors it computes the
relation `Related`, stated by a table of patterns (`compareJniDescriptorNodeErased_eq`):
most types have one descriptor, `jobject`, `jthrowable`, `jarray` and `jobjectArray` have
many. -/

namespace NativeHelper

section compare
variable (cfg : BuildConfig)

/-- The first row whose descriptor is exactly this one. -/
def exactTypeDescriptor (typeDescriptor : StringView) : Option CppType :=
  jniTypes.find? fun T =>
    typeDescriptor = (jniTypeTraitOf T).typeDescriptor ∧
      NativeKind.kNormalNative.value ≤ (jniTypeTraitOf T).nativeKind.value

/-- `ReifiedJniTypeTrait::MostSimilarTypeDescriptor`. -/
def mostSimilarTypeDescriptor (typeDescriptor : StringView) :
    Eval (Option ReifiedJniTypeTrait) :=
  match exactTypeDescriptor typeDescriptor with
  | some T => .ok (some (jniTypeTraitOf T))
  | none => do
      let shorty ← if 1 ≤ typeDescriptor.length then charAt cfg typeDescriptor 0 else .ok '\x00'
      if shorty = 'L' then .ok (some (jniTypeTraitOf .jobject))
      else if 2 ≤ typeDescriptor.length then do
        let shortyShorty ← substr cfg typeDescriptor 0 2
        if shortyShorty = "[[".toList ∨ shortyShorty = "[L".toList then
          .ok (some (jniTypeTraitOf .jobjectArray))
        else .ok none
      else .ok none

/-- The branches of `CompareJniDescriptorNodeErased` once the similar row `user` is found. -/
def compareReified (userShorty : Char) (user derived : ReifiedJniTypeTrait) : Eval Bool :=
  if user = derived then .ok true
  else if derived.typeName = "jthrowable".toList then
    if userShorty = 'L' then .ok true else .ok false
  else if derived.typeName = "jarray".toList then
    if userShorty = '[' then .ok true else .ok false
  else if derived.typeFinality = .kFinal ∨ user.typeFinality = .kFinal then .ok false
  else if userShorty = '[' then .ok false
  else if userShorty = 'L' then .ok false
  else do
    xAssert cfg false
    .ok false

def compareJniDescriptorNodeErased (userDefinedDescriptor : JniDescriptorNode)
    (derived : ReifiedJniTypeTrait) : Eval Bool := do
  match ← mostSimilarTypeDescriptor cfg userDefinedDescriptor.longy with
  | none => .ok false
  | some user =>
      let userShorty ← if 0 < userDefinedDescriptor.longy.length
        then charAt cfg userDefinedDescriptor.longy 0 else .ok '\x00'
      compareReified cfg userShorty user derived

end compare

/-! ### The matching rules -/

/-- The descriptors a C++ type goes with. -/
inductive DescriptorPattern where
  /-- This one. -/
  | only (d : StringView)
  /-- `L*;`, but none of these. -/
  | objectsBut (ds : List StringView)
  /-- Anything that begins with one of these. -/
  | startingWith (ps : List StringView)

def DescriptorPattern.Matches (d : StringView) : DescriptorPattern → Prop
  | .only d' => d = d'
  | .objectsBut ds => d.head? = some 'L' ∧ d ∉ ds
  | .startingWith ps => ∃ p ∈ ps, p <+: d

instance (d : StringView) : (p : DescriptorPattern) → Decidable (p.Matches d)
  | .only d' => inferInstanceAs (Decidable (d = d'))
  | .objectsBut ds => inferInstanceAs (Decidable (d.head? = some 'L' ∧ d ∉ ds))
  | .startingWith ps => inferInstanceAs (Decidable (∃ p ∈ ps, p <+: d))

def descriptorPattern : CppType → DescriptorPattern
  | .void => .only "V".toList
  | .jboolean => .only "Z".toList
  | .jbyte => .only "B".toList
  | .jchar => .only "C".toList
  | .jshort => .only "S".toList
  | .jint => .only "I".toList
  | .jlong => .only "J".toList
  | .jfloat => .only "F".toList
  | .jdouble => .only "D".toList
  | .jclass => .only "Ljava/lang/Class;".toList
  | .jstring => .only "Ljava/lang/String;".toList
  | .jobject => .objectsBut ["Ljava/lang/Class;".toList, "Ljava/lang/String;".toList,
      "Ljava/lang/Throwable;".toList]
  | .jthrowable => .objectsBut []
  | .jbooleanArray => .only "[Z".toList
  | .jbyteArray => .only "[B".toList
  | .jcharArray => .only "[C".toList
  | .jshortArray => .only "[S".toList
  | .jintArray => .only "[I".toList
  | .jlongArray => .only "[J".toList
  | .jfloatArray => .only "[F".toList
  | .jdoubleArray => .only "[D".toList
  | .jobjectArray => .startingWith ["[[".toList, "[L".toList]
  | .jarray => .startingWith ["[".toList]
  | .jniEnvPtr | .other _ => .startingWith []

/-- A descriptor goes with a C++ type. -/
def Related (d : StringView) (T : CppType) : Prop := (descriptorPattern T).Matches d

instance (d : StringView) (T : CppType) : Decidable (Related d T) :=
  inferInstanceAs (Decidable ((descriptorPattern T).Matches d))

/-! ### The lookup -/

theorem exactTypeDescriptor_some {d : StringView} {T : CppType}
    (h : exactTypeDescriptor d = some T) :
    T ∈ jniTypes ∧ d = (jniTypeTraitOf T).typeDescriptor ∧ (jniTypeTraitOf T).nativeKind.IsMethod := by
  have hp := List.find?_some h
  exact ⟨List.mem_of_find?_eq_some h, of_decide_eq_true hp⟩

theorem exactTypeDescriptor_none {d : StringView} (h : exactTypeDescriptor d = none) {T : CppType}
    (hT : T ∈ jniTypes) (hk : (jniTypeTraitOf T).nativeKind.IsMethod) :
    d ≠ (jniTypeTraitOf T).typeDescriptor := by
  intro hd
  have := List.find?_eq_none.mp h T hT
  exact this (decide_eq_true ⟨hd, hk⟩)

/-- Without an exact row, an object descriptor is similar to `jobject`. -/
theorem mostSimilarTypeDescriptor_object (cfg : BuildConfig) {t : StringView}
    (h : exactTypeDescriptor ('L' :: t) = none) :
    mostSimilarTypeDescriptor cfg ('L' :: t) = .ok (some (jniTypeTraitOf .jobject)) := by
  simp [mostSimilarTypeDescriptor, h]

/-- Without an exact row, an array of references is similar to `jobjectArray`. -/
theorem mostSimilarTypeDescriptor_array (cfg : BuildConfig) {c : Char} {t : StringView}
    (hc : c = '[' ∨ c = 'L') (h : exactTypeDescriptor ('[' :: c :: t) = none) :
    mostSimilarTypeDescriptor cfg ('[' :: c :: t) = .ok (some (jniTypeTraitOf .jobjectArray)) := by
  have e : substr cfg ('[' :: c :: t) 0 2 = .ok ['[', c] := substr_append cfg ['[', c] t
  rcases hc with rfl | rfl <;> simp [mostSimilarTypeDescriptor, h, e]

/-! ### The comparison -/

/-- What the branches amount to: the rows agree, or one of the two weak rules applies. -/
def SimilarRows (userShorty : Char) (user derived : ReifiedJniTypeTrait) : Prop :=
  user = derived ∨ (derived.typeName = "jthrowable".toList ∧ userShorty = 'L') ∨
    (derived.typeName = "jarray".toList ∧ userShorty = '[')

instance (userShorty : Char) (user derived : ReifiedJniTypeTrait) :
    Decidable (SimilarRows userShorty user derived) := inferInstanceAs (Decidable (_ ∨ _ ∨ _))

/-- The assertion in the last branch does not fire: a row that is not final has an object or an
array descriptor. -/
theorem compareReified_eq (cfg : BuildConfig) {userShorty : Char}
    {user : ReifiedJniTypeTrait} (derived : ReifiedJniTypeTrait)
    (h : user.typeFinality = .kFinal ∨ userShorty = '[' ∨ userShorty = 'L') :
    compareReified cfg userShorty user derived =
      .ok (decide (SimilarRows userShorty user derived)) := by
  unfold compareReified SimilarRows
  by_cases h1 : user = derived
  · simp [h1]
  by_cases h2 : derived.typeName = "jthrowable".toList
  · by_cases hL : userShorty = 'L' <;> simp [h1, h2, hL]
  by_cases h3 : derived.typeName = "jarray".toList
  · by_cases hA : userShorty = '[' <;> simp [h1, h3, hA]
  · rw [if_neg h1, if_neg h2, if_neg h3]
    simp only [h1, h2, h3, false_and, or_false, decide_false]
    by_cases hf : derived.typeFinality = .kFinal ∨ user.typeFinality = .kFinal
    · rw [if_pos hf]
    · rw [if_neg hf]
      rcases h with h | rfl | rfl
      · exact absurd (.inr h) hf
      · rfl
      · rfl

theorem compareJniDescriptorNodeErased_of_similar {cfg : BuildConfig} {c : Char} {t : StringView}
    {user : ReifiedJniTypeTrait} (derived : ReifiedJniTypeTrait)
    (hs : mostSimilarTypeDescriptor cfg (c :: t) = .ok (some user))
    (h : user.typeFinality = .kFinal ∨ c = '[' ∨ c = 'L') :
    compareJniDescriptorNodeErased cfg ⟨c :: t⟩ derived = .ok (decide (SimilarRows c user derived)) := by
  simp [compareJniDescriptorNodeErased, hs, compareReified_eq cfg derived h]

/-! ### The comparison computes the rules -/

/-- Every type looks like a row of the table or like the primary template. -/
theorem exists_row (T : CppType) :
    ∃ U ∈ CppType.other 0 :: jniTypes, jniTypeTraitOf U = jniTypeTraitOf T ∧
      descriptorPattern U = descriptorPattern T := by
  cases T with
  | other n => exact ⟨.other 0, List.mem_cons_self, rfl, rfl⟩
  | _ => exact ⟨_, by decide, rfl, rfl⟩

/-- The exact rows follow the rules. -/
theorem exact_related : ∀ U ∈ jniTypes,
    exactTypeDescriptor (jniTypeTraitOf U).typeDescriptor = some U →
      ((jniTypeTraitOf U).typeFinality = .kFinal ∨
        (jniTypeTraitOf U).typeDescriptor.head? = some '[' ∨
        (jniTypeTraitOf U).typeDescriptor.head? = some 'L') ∧
      ∀ T ∈ CppType.other 0 :: jniTypes,
        (SimilarRows ((jniTypeTraitOf U).typeDescriptor.headD '\x00') (jniTypeTraitOf U)
          (jniTypeTraitOf T) ↔ Related (jniTypeTraitOf U).typeDescriptor T) := by
  decide +kernel

/-- A type with one descriptor does not go with a descriptor that has no exact row. -/
theorem not_related_of_exactTypeDescriptor_none {d : StringView}
    (h : exactTypeDescriptor d = none) (T : CppType) (hT : T ∈ jniTypes)
    (hk : (jniTypeTraitOf T).nativeKind.IsMethod)
    (hp : descriptorPattern T = .only (jniTypeTraitOf T).typeDescriptor) : ¬ Related d T := by
  unfold Related
  rw [hp]
  exact exactTypeDescriptor_none h hT hk

theorem similarRows_object {t : StringView} (h : exactTypeDescriptor ('L' :: t) = none)
    (T : CppType) :
    SimilarRows 'L' (jniTypeTraitOf .jobject) (jniTypeTraitOf T) ↔ Related ('L' :: t) T := by
  cases T with
  | jobject =>
      have h1 := @exactTypeDescriptor_none _ h .jclass (by decide) (by decide)
      have h2 := @exactTypeDescriptor_none _ h .jstring (by decide) (by decide)
      have h3 := @exactTypeDescriptor_none _ h .jthrowable (by decide) (by decide)
      refine iff_of_true (by decide) ⟨rfl, ?_⟩
      simp only [List.mem_cons, List.not_mem_nil, or_false, not_or]
      exact ⟨h1, h2, h3⟩
  | jthrowable => exact iff_of_true (by decide) ⟨rfl, List.not_mem_nil⟩
  | jobjectArray | jarray | jniEnvPtr =>
      exact iff_of_false (by decide) (by simp [Related, descriptorPattern, DescriptorPattern.Matches])
  | other n =>
      have h0 : ¬ SimilarRows 'L' (jniTypeTraitOf .jobject) (jniTypeTraitOf (.other 0)) := by decide
      exact iff_of_false h0 (by simp [Related, descriptorPattern, DescriptorPattern.Matches])
  | _ =>
      exact iff_of_false (by decide)
        (not_related_of_exactTypeDescriptor_none h _ (by decide) (by decide) rfl)

theorem similarRows_array {c : Char} {t : StringView} (hc : c = '[' ∨ c = 'L')
    (h : exactTypeDescriptor ('[' :: c :: t) = none) (T : CppType) :
    SimilarRows '[' (jniTypeTraitOf .jobjectArray) (jniTypeTraitOf T) ↔
      Related ('[' :: c :: t) T := by
  cases T with
  | jobjectArray =>
      refine iff_of_true (by decide) ?_
      rcases hc with rfl | rfl <;> simp [Related, descriptorPattern, DescriptorPattern.Matches]
  | jarray =>
      refine iff_of_true (by decide) ?_
      simp [Related, descriptorPattern, DescriptorPattern.Matches]
  | jobject | jthrowable | jniEnvPtr =>
      exact iff_of_false (by decide) (by simp [Related, descriptorPattern, DescriptorPattern.Matches])
  | other n =>
      have h0 : ¬ SimilarRows '[' (jniTypeTraitOf .jobjectArray) (jniTypeTraitOf (.other 0)) := by
        decide
      exact iff_of_false h0 (by simp [Related, descriptorPattern, DescriptorPattern.Matches])
  | _ =>
      exact iff_of_false (by decide)
        (not_related_of_exactTypeDescriptor_none h _ (by decide) (by decide) rfl)

/-- A well-formed descriptor without an exact row is of an object or of an array of
references. -/
theorem ReturnDescriptor.of_exactTypeDescriptor_none {d : StringView} (hd : ReturnDescriptor d)
    (h : exactTypeDescriptor d = none) :
    (∃ t, d = 'L' :: t) ∨ ∃ c t, d = '[' :: c :: t ∧ (c = '[' ∨ c = 'L') := by
  have primitive : ∀ c ∈ primitiveLetters, exactTypeDescriptor [c] ≠ none ∧
      exactTypeDescriptor ['[', c] ≠ none := by
    intro c hc
    simp only [primitiveLetters, List.mem_cons, List.not_mem_nil, or_false] at hc
    rcases hc with rfl | rfl | rfl | rfl | rfl | rfl | rfl | rfl <;> decide +kernel
  rcases hd with hd | rfl
  · cases hd with
    | primitive hc => exact absurd h (primitive _ hc).1
    | object _ _ => exact .inl ⟨_, rfl⟩
    | array hd =>
        cases hd with
        | primitive hc => exact absurd h (primitive _ hc).2
        | object _ _ => exact .inr ⟨_, _, rfl, .inr rfl⟩
        | array _ => exact .inr ⟨_, _, rfl, .inl rfl⟩
  · exact absurd h (by decide +kernel)

/-- **The comparison computes the rules**: on a well-formed descriptor the branches return
whether it goes with the type, and the assertion in the last one does not fire. -/
theorem compareJniDescriptorNodeErased_eq (cfg : BuildConfig) {d : StringView}
    (hd : ReturnDescriptor d) (T : CppType) :
    compareJniDescriptorNodeErased cfg ⟨d⟩ (jniTypeTraitOf T) = .ok (decide (Related d T)) := by
  cases he : exactTypeDescriptor d with
  | some U =>
      obtain ⟨hU, rfl, _⟩ := exactTypeDescriptor_some he
      obtain ⟨hfin, hrows⟩ := exact_related U hU he
      obtain ⟨T', hT', ht, hp⟩ := exists_row T
      have hr := hrows T' hT'
      have hrel : Related (jniTypeTraitOf U).typeDescriptor T' ↔
          Related (jniTypeTraitOf U).typeDescriptor T := by
        unfold Related
        rw [hp]
      rw [ht, hrel] at hr
      have hs : mostSimilarTypeDescriptor cfg (jniTypeTraitOf U).typeDescriptor =
          .ok (some (jniTypeTraitOf U)) := by simp only [mostSimilarTypeDescriptor, he]
      generalize (jniTypeTraitOf U).typeDescriptor = d at *
      cases d with
      | nil => exact absurd rfl hd.ne_nil
      | cons c t =>
          rw [compareJniDescriptorNodeErased_of_similar _ hs (by simpa using hfin)]
          exact congrArg _ (decide_eq_decide.mpr hr)
  | none =>
      rcases hd.of_exactTypeDescriptor_none he with ⟨t, rfl⟩ | ⟨c, t, rfl, hc⟩
      · rw [compareJniDescriptorNodeErased_of_similar _ (mostSimilarTypeDescriptor_object cfg he)
          (.inr (.inr rfl))]
        exact congrArg _ (decide_eq_decide.mpr (similarRows_object he T))
      · rw [compareJniDescriptorNodeErased_of_similar _
          (mostSimilarTypeDescriptor_array cfg hc he) (.inr (.inl rfl))]
        exact congrArg _ (decide_eq_decide.mpr (similarRows_array hc he T))

end NativeHelper
