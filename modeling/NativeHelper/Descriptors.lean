import Mathlib.Data.List.TakeWhile
import NativeHelper.SignatureParser

/-! # The grammar of descriptors

The JNI specification's type signatures, as languages over characters: `TypeDescriptor` for a
non-void type, `ReturnDescriptor` for a type or `V`, and `Signature s args ret` for a method
signature `s` with these arguments and this return type.

The readers of `SignatureParser.lean` read exactly these languages.  With a reader the
descriptors are a prefix code, and none of them begins with `)`, so a signature has one
decomposition (`Signature.unique`) although its descriptors stand without separators. -/

namespace NativeHelper

open PrefixCode

/-- A well-formed descriptor of a type other than void. -/
inductive TypeDescriptor : StringView → Prop
  | primitive {c : Char} (hc : c ∈ primitiveLetters) : TypeDescriptor [c]
  | object {name : StringView} (hne : name ≠ [])
      (hname : ∀ c ∈ name, c ≠ '(' ∧ c ≠ ')' ∧ c ≠ '[' ∧ c ≠ ';') :
      TypeDescriptor ('L' :: name ++ [';'])
  | array {d : StringView} (hd : TypeDescriptor d) : TypeDescriptor ('[' :: d)

/-- A well-formed descriptor of a return type. -/
def ReturnDescriptor (d : StringView) : Prop := TypeDescriptor d ∨ d = ['V']

/-- The descriptors a parse may return: `V` is one of them only where void is allowed. -/
def Descriptor (allowVoid : Bool) (d : StringView) : Prop :=
  TypeDescriptor d ∨ (d = ['V'] ∧ allowVoid = true)

theorem descriptor_false {d : StringView} : Descriptor false d ↔ TypeDescriptor d := by
  simp [Descriptor]

theorem descriptor_true {d : StringView} : Descriptor true d ↔ ReturnDescriptor d := by
  simp [Descriptor, ReturnDescriptor]

/-- `s` is the signature with the argument descriptors `args` and the return descriptor `ret`. -/
def Signature (s : StringView) (args : List StringView) (ret : StringView) : Prop :=
  s = '(' :: args.flatten ++ ')' :: ret ∧ (∀ d ∈ args, TypeDescriptor d) ∧ ReturnDescriptor ret

theorem isClassNameChar_iff {c : Char} :
    isClassNameChar c = true ↔ c ≠ '(' ∧ c ≠ ')' ∧ c ≠ '[' ∧ c ≠ ';' := by
  simp [isClassNameChar]

/-! ### The shape of a descriptor -/

theorem TypeDescriptor.ne_nil {d : StringView} (h : TypeDescriptor d) : d ≠ [] := by
  cases h <;> simp

theorem TypeDescriptor.head_mem {c : Char} {d : StringView} (h : TypeDescriptor (c :: d)) :
    c ∈ 'L' :: '[' :: primitiveLetters := by
  cases h with
  | primitive hc => simp [hc]
  | object _ _ => simp
  | array _ => simp

theorem ReturnDescriptor.ne_nil {d : StringView} (h : ReturnDescriptor d) : d ≠ [] := by
  rcases h with h | rfl
  · exact h.ne_nil
  · simp

theorem Descriptor.ne_nil {v : Bool} {d : StringView} (h : Descriptor v d) : d ≠ [] := by
  rcases h with h | ⟨rfl, _⟩
  · exact h.ne_nil
  · simp

/-! ### The readers read the grammar -/

theorem readObject_iff {s w r : StringView} :
    readObject s = some (w, r) ↔
      ∃ name, name ≠ [] ∧ (∀ c ∈ name, isClassNameChar c = true) ∧
        w = 'L' :: name ++ [';'] ∧ s = name ++ ';' :: r := by
  constructor
  · intro h
    unfold readObject at h
    split at h
    · next c name r' ht hd =>
        obtain ⟨rfl, rfl⟩ := Prod.mk.inj (Option.some.inj h)
        refine ⟨c :: name, by simp, ?_, rfl, ?_⟩
        · rw [← ht]
          exact fun d hd => List.mem_takeWhile_imp hd
        · rw [← ht, ← hd, List.takeWhile_append_dropWhile]
    · cases h
  · rintro ⟨name, hne, hname, rfl, rfl⟩
    have hsemi : ¬ isClassNameChar ';' = true := by decide
    unfold readObject
    rw [List.takeWhile_append_of_pos hname, List.dropWhile_append_of_pos hname,
      List.takeWhile_cons_of_neg hsemi, List.dropWhile_cons_of_neg hsemi, List.append_nil]
    cases name with
    | nil => exact absurd rfl hne
    | cons c name => rfl

theorem typeDescriptor_of_readDescriptor : ∀ (v : Bool) (s w r : StringView),
    readDescriptor v s = some (w, r) → Descriptor v w ∧ s = w ++ r
  | v, [], w, r, h => by simp [readDescriptor] at h
  | v, c :: s, w, r, h => by
      unfold readDescriptor at h
      split_ifs at h with h1 hL hA
      · obtain ⟨rfl, rfl⟩ := Prod.mk.inj (Option.some.inj h)
        refine ⟨?_, rfl⟩
        rcases h1 with h1 | ⟨rfl, hv⟩
        · exact .inl (.primitive h1)
        · exact .inr ⟨rfl, hv⟩
      · subst hL
        obtain ⟨name, hne, hname, rfl, rfl⟩ := readObject_iff.mp h
        exact ⟨.inl (.object hne fun d hd => isClassNameChar_iff.mp (hname d hd)), by simp⟩
      · subst hA
        obtain ⟨⟨w', r'⟩, hr, e⟩ := Option.map_eq_some_iff.mp h
        obtain ⟨rfl, rfl⟩ := Prod.mk.inj e
        obtain ⟨hd, rfl⟩ := typeDescriptor_of_readDescriptor false s w' r' hr
        exact ⟨.inl (.array (descriptor_false.mp hd)), rfl⟩

theorem readDescriptor_append {d : StringView} (h : TypeDescriptor d) (v : Bool) (r : StringView) :
    readDescriptor v (d ++ r) = some (d, r) := by
  induction h generalizing v with
  | primitive hc => simp [readDescriptor, hc]
  | @object name hne hname =>
      have hr : readObject (name ++ ';' :: r) = some ('L' :: name ++ [';'], r) :=
        readObject_iff.mpr ⟨name, hne, fun c hc => isClassNameChar_iff.mpr (hname c hc), rfl, rfl⟩
      simp only [List.cons_append, List.append_assoc, List.nil_append] at hr ⊢
      simp [readDescriptor, primitiveLetters, hr]
  | array _ ih => simp [readDescriptor, primitiveLetters, ih false]

/-- **The reader reads the grammar**, with or without void. -/
theorem readDescriptor_reads (v : Bool) : Reads {d | Descriptor v d} (readDescriptor v) := by
  intro s w r
  constructor
  · exact typeDescriptor_of_readDescriptor v s w r
  · rintro ⟨h | ⟨rfl, rfl⟩, rfl⟩
    · exact readDescriptor_append h v r
    · rfl

theorem typeDescriptor_reads : Reads {d | TypeDescriptor d} (readDescriptor false) := by
  have := readDescriptor_reads false
  simpa only [descriptor_false] using this

theorem returnDescriptor_reads : Reads {d | ReturnDescriptor d} (readDescriptor true) := by
  have := readDescriptor_reads true
  simpa only [descriptor_true] using this

theorem typeDescriptor_avoids : Avoids {d | TypeDescriptor d} ')' := by
  intro d hd
  cases d with
  | nil => exact absurd rfl (TypeDescriptor.ne_nil hd)
  | cons c t =>
      refine ⟨c, t, rfl, ?_⟩
      rintro rfl
      exact absurd (TypeDescriptor.head_mem hd) (by decide)

/-! ### Signatures -/

theorem signature_iff {s : StringView} {args : List StringView} {ret : StringView} :
    Signature ('(' :: s) args ret ↔
      Delimited {d | TypeDescriptor d} ')' s args ret ∧ ReturnDescriptor ret := by
  simp only [Signature, Delimited, List.cons_append, List.cons.injEq, true_and]
  constructor
  · rintro ⟨hs, hargs, hret⟩
    exact ⟨⟨hargs, hs⟩, hret⟩
  · rintro ⟨⟨hargs, hs⟩, hret⟩
    exact ⟨hs, hargs, hret⟩

/-- A signature has one decomposition. -/
theorem Signature.unique {s : StringView} {args args' : List StringView} {ret ret' : StringView}
    (h : Signature s args ret) (h' : Signature s args' ret') : args = args' ∧ ret = ret' := by
  obtain ⟨rfl, _⟩ := id h
  exact Delimited.unique typeDescriptor_reads.prefixFree typeDescriptor_avoids
    (signature_iff.mp h).1 (signature_iff.mp h').1

/-- The reader of signatures reads the grammar. -/
theorem readSignature_iff {s : StringView} {args : List StringView} {ret : StringView} :
    readSignature s = some (args, ret) ↔ Signature s args ret := by
  constructor
  · intro h
    unfold readSignature at h
    split at h
    · next s' =>
        obtain ⟨⟨ts, r⟩, hu, hr⟩ := Option.bind_eq_some_iff.mp h
        rw [readUntil_iff typeDescriptor_reads typeDescriptor_avoids _ _ le_rfl] at hu
        dsimp only at hr
        split at hr
        · next ret' hret =>
            obtain ⟨rfl, rfl⟩ := Prod.mk.inj (Option.some.inj hr)
            obtain ⟨hd, rfl⟩ := (returnDescriptor_reads _ _ _).mp hret
            rw [List.append_nil] at hu
            exact signature_iff.mpr ⟨hu, hd⟩
        · cases hr
    · cases h
  · intro h
    obtain ⟨rfl, _, hret⟩ := id h
    rw [List.cons_append] at h ⊢
    have hu := (readUntil_iff typeDescriptor_reads typeDescriptor_avoids _ _ le_rfl _ _).mpr
      (signature_iff.mp h).1
    have hr := returnDescriptor_reads.append hret []
    rw [List.append_nil] at hr
    simp only [readSignature, hu, Option.bind_some, hr]

end NativeHelper
