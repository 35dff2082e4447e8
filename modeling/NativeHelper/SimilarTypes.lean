import NativeHelper.Compare
import NativeHelper.ParserExact

/-! # The most similar type

`similarType` says which row of the table `MostSimilarTypeDescriptor` finds: the one with exactly
this descriptor, else `jobject` for an object and `jobjectArray` for an array of references.

The function of the header finds that row for every string (`mostSimilarTypeDescriptor_eq`), the row
has the shape of the string (`similarType_shape`), and there is one for every descriptor the parser
returns (`similarType_of_descriptor`).  The empty view parses to the empty token, which is no
descriptor: the only row it could stand for is that of `JNIEnv*`, whose kind is excluded. -/

namespace NativeHelper

/-- The type of an array, by the descriptor of its components. -/
def arrayTypeOf : StringView → CppType
  | ['Z'] => .jbooleanArray
  | ['B'] => .jbyteArray
  | ['C'] => .jcharArray
  | ['S'] => .jshortArray
  | ['I'] => .jintArray
  | ['J'] => .jlongArray
  | ['F'] => .jfloatArray
  | ['D'] => .jdoubleArray
  | _ => .jobjectArray

/-- An object, or an array of references. -/
def IsReferenceLike (d : StringView) : Prop := ['L'] <+: d ∨ ['[', 'L'] <+: d ∨ ['[', '['] <+: d

instance (d : StringView) : Decidable (IsReferenceLike d) := inferInstanceAs (Decidable (_ ∨ _ ∨ _))

theorem isReferenceLike_iff {d : StringView} : IsReferenceLike d ↔
    (∃ t, d = 'L' :: t) ∨ ∃ c t, d = '[' :: c :: t ∧ (c = '[' ∨ c = 'L') := by
  constructor
  · rintro (⟨t, rfl⟩ | ⟨t, rfl⟩ | ⟨t, rfl⟩)
    · exact .inl ⟨t, rfl⟩
    · exact .inr ⟨_, t, rfl, .inr rfl⟩
    · exact .inr ⟨_, t, rfl, .inl rfl⟩
  · rintro (⟨t, rfl⟩ | ⟨c, t, rfl, rfl | rfl⟩)
    · exact .inl ⟨t, rfl⟩
    · exact .inr (.inr ⟨t, rfl⟩)
    · exact .inr (.inl ⟨t, rfl⟩)

/-- A descriptor of the table other than that of `JNIEnv*`. -/
def IsCanonical (d : StringView) : Prop :=
  ∃ T ∈ jniTypes, T ≠ .jniEnvPtr ∧ d = (jniTypeTraitOf T).typeDescriptor

/-- The type most similar to a descriptor. -/
def similarType (d : StringView) : Option CppType :=
  match exactTypeDescriptor d with
  | some T => some T
  | none => if IsReferenceLike d then some (if ['L'] <+: d then .jobject else .jobjectArray) else none

/-- What a type has in common with a descriptor it is similar to. -/
structure SameShape (d : StringView) (T : CppType) : Prop where
  row : T ∈ jniTypes
  head : (jniTypeTraitOf T).typeDescriptor.head? = d.head?
  array : ∀ t, d = '[' :: t → T = arrayTypeOf t
  ne_jarray : jniTypeTraitOf T ≠ jniTypeTraitOf .jarray
  ne_jniEnvPtr : jniTypeTraitOf T ≠ jniTypeTraitOf .jniEnvPtr

/-! ### The rows of the table -/

theorem isMethod_of_row {T : CppType} (hT : T ∈ jniTypes) (hne : T ≠ .jniEnvPtr) :
    (jniTypeTraitOf T).nativeKind.IsMethod := by
  revert T
  decide

/-- The rows that are found by their own descriptor have the shape of it. -/
theorem exactTypeDescriptor_shape {d : StringView} {T : CppType}
    (h : exactTypeDescriptor d = some T) : SameShape d T := by
  obtain ⟨hT, rfl, _⟩ := exactTypeDescriptor_some h
  have rows : ∀ T ∈ jniTypes, exactTypeDescriptor (jniTypeTraitOf T).typeDescriptor = some T →
      ((jniTypeTraitOf T).typeDescriptor.head? = some '[' →
        T = arrayTypeOf (jniTypeTraitOf T).typeDescriptor.tail) ∧
      jniTypeTraitOf T ≠ jniTypeTraitOf .jarray ∧ jniTypeTraitOf T ≠ jniTypeTraitOf .jniEnvPtr := by
    decide +kernel
  obtain ⟨harray, hj, he⟩ := rows T hT h
  refine ⟨hT, rfl, fun t ht => ?_, hj, he⟩
  rw [ht] at harray
  exact harray rfl

/-- A row that is not hidden behind another one is found by its own descriptor. -/
theorem exactTypeDescriptor_row {T : CppType} (hT : T ∈ jniTypes)
    (hj : jniTypeTraitOf T ≠ jniTypeTraitOf .jarray)
    (he : jniTypeTraitOf T ≠ jniTypeTraitOf .jniEnvPtr) :
    exactTypeDescriptor (jniTypeTraitOf T).typeDescriptor = some T := by
  revert T
  decide +kernel

theorem exactTypeDescriptor_eq_none_iff {d : StringView} :
    exactTypeDescriptor d = none ↔ ¬ IsCanonical d := by
  constructor
  · rintro h ⟨T, hT, hne, hd⟩
    exact exactTypeDescriptor_none h hT (isMethod_of_row hT hne) hd
  · intro h
    cases he : exactTypeDescriptor d with
    | none => rfl
    | some T =>
        obtain ⟨hT, hd, hk⟩ := exactTypeDescriptor_some he
        refine absurd ⟨T, hT, ?_, hd⟩ h
        rintro rfl
        exact absurd hk (by decide)

/-! ### The lookup -/

section lookup
variable {d : StringView} {T : CppType}

theorem similarType_of_none (h : exactTypeDescriptor d = none) : similarType d =
    if IsReferenceLike d then some (if ['L'] <+: d then .jobject else .jobjectArray) else none := by
  unfold similarType
  rw [h]

theorem similarType_of_some (h : exactTypeDescriptor d = some T) : similarType d = some T := by
  unfold similarType
  rw [h]

/-- A descriptor that is like no reference has only its exact row. -/
theorem mostSimilarTypeDescriptor_none (cfg : BuildConfig) (h : exactTypeDescriptor d = none)
    (hr : ¬ IsReferenceLike d) : mostSimilarTypeDescriptor cfg d = .ok none := by
  rw [isReferenceLike_iff, not_or] at hr
  obtain ⟨hobject, harray⟩ := hr
  simp only [mostSimilarTypeDescriptor, h]
  rcases d with _ | ⟨c, _ | ⟨c', t⟩⟩
  · rfl
  · have hL : c ≠ 'L' := fun hc => hobject ⟨[], by rw [hc]⟩
    simp [hL]
  · have hL : c ≠ 'L' := fun hc => hobject ⟨c' :: t, by rw [hc]⟩
    have hA : c = '[' → c' ≠ '[' ∧ c' ≠ 'L' := by
      rintro rfl
      exact ⟨fun hc => harray ⟨c', t, rfl, .inl hc⟩, fun hc => harray ⟨c', t, rfl, .inr hc⟩⟩
    have e : substr cfg (c :: c' :: t) 0 2 = .ok [c, c'] := substr_append cfg [c, c'] t
    simpa [hL, e] using ⟨fun hc => (hA hc).1, fun hc => (hA hc).2⟩

/-- **The function finds that row** for every string, and faults for none. -/
theorem mostSimilarTypeDescriptor_eq (cfg : BuildConfig) (d : StringView) :
    mostSimilarTypeDescriptor cfg d = .ok ((similarType d).map jniTypeTraitOf) := by
  cases he : exactTypeDescriptor d with
  | some T =>
      rw [similarType_of_some he]
      simp only [mostSimilarTypeDescriptor, he, Option.map_some]
  | none =>
      rw [similarType_of_none he]
      by_cases hr : IsReferenceLike d
      · rw [if_pos hr]
        rcases isReferenceLike_iff.mp hr with ⟨t, rfl⟩ | ⟨c, t, rfl, hc⟩
        · rw [mostSimilarTypeDescriptor_object cfg he]
          simp [List.cons_prefix_cons]
        · rw [mostSimilarTypeDescriptor_array cfg hc he]
          simp [List.cons_prefix_cons]
      · rw [if_neg hr]
        exact mostSimilarTypeDescriptor_none cfg he hr

/-- The row that is found has the shape of the descriptor. -/
theorem similarType_shape (h : similarType d = some T) : SameShape d T := by
  cases he : exactTypeDescriptor d with
  | some U =>
      rw [similarType_of_some he] at h
      obtain rfl := Option.some.inj h
      exact exactTypeDescriptor_shape he
  | none =>
      rw [similarType_of_none he] at h
      split_ifs at h with hr hL
      · obtain rfl := Option.some.inj h
        obtain ⟨t, rfl⟩ := hL
        exact ⟨by decide, rfl, by rintro _ ⟨⟩, by decide, by decide⟩
      · obtain rfl := Option.some.inj h
        rcases isReferenceLike_iff.mp hr with ⟨t, rfl⟩ | ⟨c, t, rfl, hc⟩
        · exact absurd ⟨t, rfl⟩ hL
        · refine ⟨by decide, rfl, ?_, by decide, by decide⟩
          rintro _ ⟨⟩
          rcases hc with rfl | rfl <;> cases t <;> rfl

/-- It is the row of its own descriptor. -/
theorem similarType_again (h : similarType d = some T) :
    similarType (jniTypeTraitOf T).typeDescriptor = some T := by
  have hs := similarType_shape h
  exact similarType_of_some (exactTypeDescriptor_row hs.row hs.ne_jarray hs.ne_jniEnvPtr)

theorem similarType_eq_none_iff : similarType d = none ↔ ¬ (IsCanonical d ∨ IsReferenceLike d) := by
  cases he : exactTypeDescriptor d with
  | some T =>
      have hc : IsCanonical d := by
        by_contra hc
        rw [exactTypeDescriptor_eq_none_iff.mpr hc] at he
        cases he
      rw [similarType_of_some he]
      exact iff_of_false (Option.some_ne_none T) fun h => h (.inl hc)
  | none =>
      have hc := exactTypeDescriptor_eq_none_iff.mp he
      rw [similarType_of_none he]
      by_cases hr : IsReferenceLike d
      · rw [if_pos hr]
        exact iff_of_false (Option.some_ne_none _) fun h => h (.inr hr)
      · rw [if_neg hr]
        refine iff_of_true rfl ?_
        rintro (h | h)
        · exact hc h
        · exact hr h

/-- Every descriptor has a row. -/
theorem similarType_of_descriptor (hd : ReturnDescriptor d) : ∃ T, similarType d = some T := by
  cases h : similarType d with
  | some T => exact ⟨T, rfl⟩
  | none =>
      obtain ⟨hc, hr⟩ := not_or.mp (similarType_eq_none_iff.mp h)
      have he := exactTypeDescriptor_eq_none_iff.mpr hc
      exact absurd (isReferenceLike_iff.mpr (hd.of_exactTypeDescriptor_none he)) hr

end lookup

/-! ### The tokens of the parser -/

/-- Where parse failures are noticed, a token that is not empty is a descriptor. -/
theorem returnDescriptor_of_token {cfg : BuildConfig} (h : cfg.Checks) {s : StringView} {v : Bool}
    {res : ParseTypeDescriptorResult}
    (hp : parseSingleTypeDescriptor cfg s v = .ok (some res)) (hne : res.token ≠ []) :
    ReturnDescriptor res.token := by
  cases s with
  | nil =>
      obtain rfl := Option.some.inj (Except.ok.inj hp)
      exact absurd rfl hne
  | cons c s =>
      rw [parseSingleTypeDescriptor_eq h _ v (List.cons_ne_nil c s)] at hp
      obtain ⟨⟨w, r⟩, hr, rfl⟩ := Option.map_eq_some_iff.mp (parsed_eq_some hp)
      rcases ((readDescriptor_reads v _ _ _).mp hr).1 with hw | ⟨hw, _⟩
      · exact .inl hw
      · exact .inr hw

/-- **The lookup of the most similar type** has a row for every token the parser returns that is not
empty.  For every string the row it finds has the shape of the string, is neither that of `jarray`
nor that of `JNIEnv*` and is found again by its own descriptor; there is none if and only if the
string is no descriptor of the table and not like a reference. -/
theorem mostSimilarTypeDescriptor_similar (cfg : BuildConfig) :
    (cfg.Checks → ∀ s v res, parseSingleTypeDescriptor cfg s v = .ok (some res) →
      res.token ≠ [] → ∃ r, mostSimilarTypeDescriptor cfg res.token = .ok (some r)) ∧
    ∀ d, ∃ o, mostSimilarTypeDescriptor cfg d = .ok o ∧
      (∀ r ∈ o, (∃ T, r = jniTypeTraitOf T ∧ SameShape d T) ∧
        mostSimilarTypeDescriptor cfg r.typeDescriptor = .ok (some r)) ∧
      (o = none ↔ ¬ (IsCanonical d ∨ IsReferenceLike d)) := by
  refine ⟨fun h s v res hp hne => ?_, fun d => ⟨_, mostSimilarTypeDescriptor_eq cfg d, ?_, ?_⟩⟩
  · obtain ⟨T, hT⟩ := similarType_of_descriptor (returnDescriptor_of_token h hp hne)
    exact ⟨jniTypeTraitOf T, by rw [mostSimilarTypeDescriptor_eq, hT]; rfl⟩
  · intro r hr
    obtain ⟨T, hT, rfl⟩ := Option.map_eq_some_iff.mp hr
    refine ⟨⟨T, rfl, similarType_shape hT⟩, ?_⟩
    rw [mostSimilarTypeDescriptor_eq, similarType_again hT]
    rfl
  · rw [Option.map_eq_none_iff]
    exact similarType_eq_none_iff

/-- In the configuration of the tests an array of arrays of `int` is parsed, and like an array of
objects. -/
theorem mostSimilarTypeDescriptor_similar_array :
    ∃ res r, parseSingleTypeDescriptor .nonfatal "[[I)V".toList false = .ok (some res) ∧
      mostSimilarTypeDescriptor .nonfatal res.token = .ok (some r) := by
  have hp : parseSingleTypeDescriptor .nonfatal "[[I)V".toList false =
      .ok (some ⟨"[[I".toList, ")V".toList⟩) := rfl
  obtain ⟨r, hr⟩ := (mostSimilarTypeDescriptor_similar .nonfatal).1 BuildConfig.nonfatal_checks
    _ _ _ hp (by decide)
  exact ⟨_, r, hp, hr⟩

/-- The empty token, which the empty view parses to, is similar to nothing; nor is the token `[V`
that the parser returns where parse failures are not noticed. -/
theorem mostSimilarTypeDescriptor_partial :
    parseSingleTypeDescriptor .nonfatal [] true = .ok (some ⟨[], []⟩) ∧
    mostSimilarTypeDescriptor .nonfatal [] = .ok none ∧
    parseSingleTypeDescriptor ⟨false, true⟩ "[V".toList false = .ok (some ⟨"[V".toList, []⟩) ∧
    mostSimilarTypeDescriptor ⟨false, true⟩ "[V".toList = .ok none ∧
    ¬ ∀ cfg s v res, parseSingleTypeDescriptor cfg s v = .ok (some res) →
      ∃ r, mostSimilarTypeDescriptor cfg res.token = .ok (some r) := by
  have hempty : mostSimilarTypeDescriptor .nonfatal [] = .ok none := by
    rw [mostSimilarTypeDescriptor_eq]
    decide +kernel
  have hvoid : mostSimilarTypeDescriptor ⟨false, true⟩ "[V".toList = .ok none := by
    rw [mostSimilarTypeDescriptor_eq]
    decide +kernel
  refine ⟨rfl, hempty, rfl, hvoid, fun h => ?_⟩
  obtain ⟨r, hr⟩ := h .nonfatal [] true ⟨[], []⟩ rfl
  rw [hempty] at hr
  cases hr

end NativeHelper
