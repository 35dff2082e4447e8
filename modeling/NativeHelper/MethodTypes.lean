import NativeHelper.JavaTypes
import NativeHelper.ParserExact

/-! # Method types and their signatures

The types of Java methods over class names, and how they are written as JNI signatures.  Every type
has a descriptor and every descriptor is that of one type (`typeDescriptor_iff`,
`typeDescriptorOf_injective`), so a signature says which method type it is of: the parser accepts
`s` with the descriptors of `m` if and only if `s` is the signature of `m`
(`parseSignatureAsList_methodType_iff`). -/

namespace NativeHelper

open JavaTypes PrefixCode

/-! ### Types -/

/-- The name of a class with slashes, as it stands in a descriptor. -/
structure ClassName where
  chars : StringView
  ne_nil : chars ≠ []
  valid : ∀ c ∈ chars, isClassNameChar c = true
deriving DecidableEq

def primitiveLetter : Primitive → Char
  | .boolean => 'Z'
  | .byte => 'B'
  | .char => 'C'
  | .short => 'S'
  | .int => 'I'
  | .long => 'J'
  | .float => 'F'
  | .double => 'D'

/-- The descriptor of a type. -/
def typeDescriptorOf : JavaType ClassName → StringView
  | .primitive p => [primitiveLetter p]
  | .clazz c => 'L' :: c.chars ++ [';']
  | .array t => '[' :: typeDescriptorOf t

theorem primitiveLetter_mem (p : Primitive) : primitiveLetter p ∈ primitiveLetters := by
  cases p <;> decide

theorem primitiveLetter_injective {p q : Primitive} (h : primitiveLetter p = primitiveLetter q) :
    p = q := by
  revert h
  cases p <;> cases q <;> decide

theorem exists_primitive {c : Char} (h : c ∈ primitiveLetters) : ∃ p, primitiveLetter p = c := by
  have hall : primitiveLetters.all (fun c => c ∈ [Primitive.boolean, .byte, .char, .short, .int,
      .long, .float, .double].map primitiveLetter) = true := by decide
  obtain ⟨p, _, hp⟩ := List.mem_map.mp (of_decide_eq_true (List.all_eq_true.mp hall c h))
  exact ⟨p, hp⟩

theorem typeDescriptor_typeDescriptorOf (t : JavaType ClassName) :
    TypeDescriptor (typeDescriptorOf t) := by
  induction t with
  | primitive p => exact .primitive (primitiveLetter_mem p)
  | clazz c => exact .object c.ne_nil fun x hx => isClassNameChar_iff.mp (c.valid x hx)
  | array t ih => exact .array ih

/-- **The well-formed descriptors are those of the types.** -/
theorem typeDescriptor_iff {d : StringView} :
    TypeDescriptor d ↔ ∃ t : JavaType ClassName, typeDescriptorOf t = d := by
  constructor
  · intro h
    induction h with
    | primitive hc =>
        obtain ⟨p, hp⟩ := exists_primitive hc
        exact ⟨.primitive p, by rw [typeDescriptorOf, hp]⟩
    | @object name hne hname =>
        exact ⟨.clazz ⟨name, hne, fun c hc => isClassNameChar_iff.mpr (hname c hc)⟩, rfl⟩
    | array _ ih =>
        obtain ⟨t, rfl⟩ := ih
        exact ⟨.array t, rfl⟩
  · rintro ⟨t, rfl⟩
    exact typeDescriptor_typeDescriptorOf t

theorem primitiveLetter_ne (p : Primitive) : primitiveLetter p ≠ 'L' ∧ primitiveLetter p ≠ '[' := by
  cases p <;> decide

/-- A type is known by its descriptor. -/
theorem typeDescriptorOf_injective {t u : JavaType ClassName}
    (h : typeDescriptorOf t = typeDescriptorOf u) : t = u := by
  induction t generalizing u with
  | primitive p =>
      cases u with
      | primitive q => rw [primitiveLetter_injective (List.cons.inj h).1]
      | clazz c => exact absurd (List.cons.inj h).1 (primitiveLetter_ne p).1
      | array u => exact absurd (List.cons.inj h).1 (primitiveLetter_ne p).2
  | clazz c =>
      cases u with
      | primitive q => exact absurd (List.cons.inj h).1.symm (primitiveLetter_ne q).1
      | clazz d =>
          obtain ⟨cs, _, _⟩ := c
          obtain ⟨ds, _, _⟩ := d
          obtain rfl : cs = ds := List.append_cancel_right (List.cons.inj h).2
          rfl
      | array u => exact absurd (List.cons.inj h).1 (by decide)
  | array t ih =>
      cases u with
      | primitive q => exact absurd (List.cons.inj h).1.symm (primitiveLetter_ne q).2
      | clazz d => exact absurd (List.cons.inj h).1 (by decide)
      | array u => rw [ih (List.cons.inj h).2]

/-! ### Method types -/

/-- The types of the arguments and of the result, which is none for `void`. -/
structure MethodType where
  args : List (JavaType ClassName)
  ret : Option (JavaType ClassName)
deriving DecidableEq

def returnDescriptorOf : Option (JavaType ClassName) → StringView
  | none => ['V']
  | some t => typeDescriptorOf t

/-- The JNI signature of a method of this type. -/
def MethodType.signature (m : MethodType) : StringView :=
  '(' :: (m.args.map typeDescriptorOf).flatten ++ ')' :: returnDescriptorOf m.ret

theorem returnDescriptor_iff {d : StringView} :
    ReturnDescriptor d ↔ ∃ r, returnDescriptorOf r = d := by
  constructor
  · rintro (h | rfl)
    · obtain ⟨t, rfl⟩ := typeDescriptor_iff.mp h
      exact ⟨some t, rfl⟩
    · exact ⟨none, rfl⟩
  · rintro ⟨r, rfl⟩
    cases r with
    | none => exact .inr rfl
    | some t => exact .inl (typeDescriptor_typeDescriptorOf t)

/-- No type has the descriptor of `void`. -/
theorem typeDescriptorOf_ne_void (t : JavaType ClassName) : typeDescriptorOf t ≠ ['V'] := by
  intro h
  have hd := typeDescriptor_typeDescriptorOf t
  rw [h] at hd
  exact absurd hd.head_mem (by decide)

theorem returnDescriptorOf_injective {r r' : Option (JavaType ClassName)}
    (h : returnDescriptorOf r = returnDescriptorOf r') : r = r' := by
  cases r with
  | none => cases r' with
    | none => rfl
    | some t => exact absurd h.symm (typeDescriptorOf_ne_void t)
  | some t => cases r' with
    | none => exact absurd h (typeDescriptorOf_ne_void t)
    | some u => rw [typeDescriptorOf_injective h]

theorem MethodType.signature_eq (m : MethodType) :
    Signature m.signature (m.args.map typeDescriptorOf) (returnDescriptorOf m.ret) := by
  refine ⟨rfl, fun d hd => ?_, returnDescriptor_iff.mpr ⟨m.ret, rfl⟩⟩
  obtain ⟨t, _, rfl⟩ := List.mem_map.mp hd
  exact typeDescriptor_typeDescriptorOf t

/-- Every signature is that of a method type. -/
theorem exists_methodType {s : StringView} {args : List StringView} {ret : StringView}
    (h : Signature s args ret) :
    ∃ m : MethodType, m.signature = s ∧ m.args.map typeDescriptorOf = args ∧
      returnDescriptorOf m.ret = ret := by
  obtain ⟨rfl, hargs, hret⟩ := h
  obtain ⟨r, rfl⟩ := returnDescriptor_iff.mp hret
  have hts : ∃ ts : List (JavaType ClassName), ts.map typeDescriptorOf = args := by
    induction args with
    | nil => exact ⟨[], rfl⟩
    | cons d args ih =>
        obtain ⟨t, rfl⟩ := typeDescriptor_iff.mp (hargs d List.mem_cons_self)
        obtain ⟨ts, rfl⟩ := ih fun d' hd' => hargs d' (List.mem_cons_of_mem _ hd')
        exact ⟨t :: ts, rfl⟩
  obtain ⟨ts, rfl⟩ := hts
  exact ⟨⟨ts, r⟩, rfl, rfl, rfl⟩

/-- A method type is known by the descriptors of its parts. -/
theorem MethodType.ext_of_descriptors {m m' : MethodType}
    (hargs : m.args.map typeDescriptorOf = m'.args.map typeDescriptorOf)
    (hret : returnDescriptorOf m.ret = returnDescriptorOf m'.ret) : m = m' := by
  obtain ⟨args, ret⟩ := m
  obtain ⟨args', ret'⟩ := m'
  obtain rfl : args = args' :=
    List.map_injective_iff.mpr (fun _ _ => typeDescriptorOf_injective) hargs
  obtain rfl : ret = ret' := returnDescriptorOf_injective hret
  rfl

/-- **A method type is known by its signature.** -/
theorem MethodType.signature_injective {m m' : MethodType} (h : m.signature = m'.signature) :
    m = m' := by
  have h' := m'.signature_eq
  rw [← h] at h'
  obtain ⟨hargs, hret⟩ := m.signature_eq.unique h'
  exact MethodType.ext_of_descriptors hargs hret

/-- **Parsing and writing are inverse to each other.** -/
theorem parseSignatureAsList_methodType_iff {cfg : BuildConfig} (hcfg : cfg.Checks) {kMaxSize : ℕ}
    {s : StringView} (hroom : s.length ≤ kMaxSize) (m : MethodType) :
    (∃ sig : JniSignatureDescriptor kMaxSize, parseSignatureAsList cfg kMaxSize s = .ok (some sig) ∧
      sig.tokens = (m.args.map typeDescriptorOf, returnDescriptorOf m.ret)) ↔ s = m.signature := by
  constructor
  · rintro ⟨sig, hp, htok⟩
    have hs := signature_of_parseSignatureAsList hcfg hroom hp
    rw [htok] at hs
    exact hs.1
  · rintro rfl
    exact parseSignatureAsList_of_signature hcfg hroom m.signature_eq

/-- No signature goes on after another one. -/
theorem signature_prefixFree : PrefixFree {s | ∃ m : MethodType, m.signature = s} := by
  rintro _ ⟨m, rfl⟩ _ ⟨m', rfl⟩ ⟨t, ht⟩
  have h := (signature_iff (s := _)).mp m'.signature_eq
  have h₀ := (signature_iff (s := _)).mp m.signature_eq
  have happ : Delimited {d | TypeDescriptor d} ')' ((m.args.map typeDescriptorOf).flatten ++
      ')' :: returnDescriptorOf m.ret ++ t) (m.args.map typeDescriptorOf)
      (returnDescriptorOf m.ret ++ t) := ⟨h₀.1.1, by simp⟩
  have ht' : (m.args.map typeDescriptorOf).flatten ++ ')' :: returnDescriptorOf m.ret ++ t =
      (m'.args.map typeDescriptorOf).flatten ++ ')' :: returnDescriptorOf m'.ret :=
    (List.cons.inj ht).2
  rw [ht'] at happ
  obtain ⟨_, hret⟩ := Delimited.unique typeDescriptor_reads.prefixFree typeDescriptor_avoids
    happ h.1
  have hnil : t = [] := by
    have := returnDescriptor_reads.prefixFree _ h₀.2 _ h.2 ⟨t, hret⟩
    rw [this] at hret
    exact List.append_right_eq_self.mp hret
  rw [← ht, hnil, List.append_nil]

end NativeHelper
