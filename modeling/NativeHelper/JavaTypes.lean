import Mathlib.Order.UpperLower.Basic

/-! # Java types and their values

Primitive types, classes and arrays over any hierarchy of classes and interfaces.  `Sub` is the
subtyping of the language: along the hierarchy, covariant in the components of arrays, and every
array is an instance of some classes and interfaces, those above one of them included.  It is a
preorder, and references stay references.

A value is of a primitive type, null, or an object with the type it was made with.  A variable of a
type holds the values of its subtypes (`HasType.mono`). -/

namespace JavaTypes

inductive Primitive where
  | boolean | byte | char | short | int | long | float | double
deriving DecidableEq, Repr

/-- The types of values, over the classes and interfaces `C`. -/
inductive JavaType (C : Type*) where
  | primitive (p : Primitive)
  | clazz (c : C)
  | array (component : JavaType C)
deriving DecidableEq, Repr

/-- Classes and interfaces, each below those it extends or implements. -/
class ClassHierarchy (C : Type*) extends Preorder C where
  /-- What every array is an instance of. -/
  arraySupers : Set C
  isUpperSet_arraySupers : IsUpperSet arraySupers

namespace JavaType
variable {C : Type*}

def IsReference : JavaType C → Prop
  | primitive _ => False
  | clazz _ | array _ => True

variable [ClassHierarchy C]

/-- Subtyping. -/
inductive Sub : JavaType C → JavaType C → Prop
  | primitive (p : Primitive) : Sub (primitive p) (primitive p)
  | clazz {c d : C} (h : c ≤ d) : Sub (clazz c) (clazz d)
  | arrayClass {t : JavaType C} {c : C} (h : c ∈ ClassHierarchy.arraySupers) :
      Sub (array t) (clazz c)
  | array {t u : JavaType C} (h : Sub t u) : Sub (array t) (array u)

@[refl] theorem Sub.refl (t : JavaType C) : Sub t t := by
  induction t with
  | primitive p => exact .primitive p
  | clazz c => exact .clazz le_rfl
  | array t ih => exact .array ih

theorem Sub.trans {t u w : JavaType C} (h : Sub t u) (h' : Sub u w) : Sub t w := by
  induction h generalizing w with
  | primitive p => exact h'
  | clazz hc =>
      cases h' with
      | clazz hd => exact .clazz (hc.trans hd)
  | arrayClass hc =>
      cases h' with
      | clazz hd => exact .arrayClass (ClassHierarchy.isUpperSet_arraySupers hd hc)
  | array _ ih =>
      cases h' with
      | arrayClass hc => exact .arrayClass hc
      | array hu => exact .array (ih hu)

/-- References are below references only. -/
theorem Sub.isReference_iff {t u : JavaType C} (h : Sub t u) : t.IsReference ↔ u.IsReference := by
  cases h <;> exact Iff.rfl

theorem sub_primitive_iff {t : JavaType C} {p : Primitive} :
    Sub t (primitive p) ↔ t = primitive p := by
  constructor
  · rintro ⟨⟩
    rfl
  · rintro rfl
    exact .primitive p

/-- What is below an array is an array, with a component below the component. -/
theorem sub_array_iff {t u : JavaType C} : Sub t (array u) ↔ ∃ w, t = array w ∧ Sub w u := by
  constructor
  · rintro (_ | _ | _ | h)
    exact ⟨_, rfl, h⟩
  · rintro ⟨w, rfl, h⟩
    exact .array h

end JavaType

/-! ### Values -/

/-- A value of a program; an object knows the type it was made with. -/
inductive Value (C : Type*) where
  | primitive (p : Primitive) (bits : ℕ)
  | null
  | object (made : JavaType C) (id : ℕ)
deriving DecidableEq, Repr

section values
variable {C : Type*} [ClassHierarchy C]

/-- The value may be held by a variable of the type. -/
def HasType : Value C → JavaType C → Prop
  | .primitive p _, t => t = .primitive p
  | .null, t => t.IsReference
  | .object made _, t => t.IsReference ∧ made.Sub t

/-- **Subsumption.** -/
theorem HasType.mono {v : Value C} {t u : JavaType C} (h : HasType v t) (hs : t.Sub u) :
    HasType v u := by
  cases v with
  | primitive p bits =>
      obtain rfl : t = .primitive p := h
      cases hs
      rfl
  | null => exact hs.isReference_iff.mp h
  | object made id => exact ⟨hs.isReference_iff.mp h.1, h.2.trans hs⟩

theorem hasType_primitive_iff {v : Value C} {p : Primitive} :
    HasType v (.primitive p) ↔ ∃ bits, v = .primitive p bits := by
  cases v with
  | primitive q bits =>
      constructor
      · intro h
        obtain rfl : p = q := JavaType.primitive.inj h
        exact ⟨bits, rfl⟩
      · rintro ⟨bits', h⟩
        obtain ⟨rfl, _⟩ := Value.primitive.inj h
        rfl
  | null => simp [HasType, JavaType.IsReference]
  | object made id => simp [HasType, JavaType.IsReference]

end values

end JavaTypes
