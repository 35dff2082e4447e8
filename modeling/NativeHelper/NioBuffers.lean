import Mathlib.Algebra.Order.Ring.Int
import NativeHelper.JniConstants

/-! # Addresses of NIO buffers

`jniGetNioBufferPointer` computes the address of the current position of a direct buffer, and
`jniGetNioBufferFields` reports the fields from which its caller may compute it.  The first adds
`position << shift` to the address, a shift of an `int` whose result is widened only for the sum.

The two agree, and the shift does not overflow, if and only if the buffer has no address or the
offset of its position is below `2 ^ 31` bytes (`nioBufferPointer_iff`). -/

namespace NativeHelper
namespace JniConstants

/-- The fields of a `java.nio.Buffer`. -/
structure NioBuffer where
  address : BitVec 64
  position : BitVec 32
  limit : BitVec 32
  elementSizeShift : BitVec 32
deriving DecidableEq, Repr

namespace NioBuffer

/-- `GetLongField`; a buffer has nothing under other ids. -/
def getLongField (b : NioBuffer) (field : Option JFieldID) : BitVec 64 :=
  match field.map JFieldID.name with
  | some "address" => b.address
  | _ => 0

/-- `GetIntField`. -/
def getIntField (b : NioBuffer) (field : Option JFieldID) : BitVec 32 :=
  match field.map JFieldID.name with
  | some "position" => b.position
  | some "limit" => b.limit
  | some "_elementSizeShift" => b.elementSizeShift
  | _ => 0

end NioBuffer

section helpers
variable (l : Lookups)

/-- `jniGetNioBufferPointer`. -/
def jniGetNioBufferPointer (nioBuffer : NioBuffer) : ConstM (BitVec 64) := do
  let baseAddress := nioBuffer.getLongField (← getNioBufferAddressField l)
  if baseAddress ≠ 0 then do
    let position := nioBuffer.getIntField (← getNioBufferPositionField l)
    let shift := nioBuffer.getIntField (← getNioBufferElementSizeShiftField l)
    -- the shift is one of `int`, the sum one of `jlong`
    return baseAddress + (position <<< shift).signExtend 64
  else return baseAddress

/-- `jniGetNioBufferFields`: the three values stored through the pointers, and the address. -/
def jniGetNioBufferFields (nioBuffer : NioBuffer) : ConstM NioBuffer := do
  let position := nioBuffer.getIntField (← getNioBufferPositionField l)
  let limit := nioBuffer.getIntField (← getNioBufferLimitField l)
  let elementSizeShift := nioBuffer.getIntField (← getNioBufferElementSizeShiftField l)
  let address := nioBuffer.getLongField (← getNioBufferAddressField l)
  return { address, position, limit, elementSizeShift }

end helpers

/-! ### What the helpers return -/

section returns
variable {l : Lookups}

/-- A helper that reads a field goes on with the id of the field, in a good state. -/
theorem fieldGetter_bind {α : Type} (hl : l.Succeed) (g : FieldGlobal) {s : State} (hs : Cached s)
    {f : Option JFieldID → ConstM α} {a : α}
    (hf : ∀ s', Cached s' → s'.vm = s.vm → ∃ s'', f (some (g.idIn s.vm)) s' = .ok (a, s'')) :
    ∃ s'', (fieldGetter l g >>= f) s = .ok (a, s'') := by
  obtain ⟨_, s', h, hs', hvm, rfl⟩ := fieldGetter_returns hl g s hs
  obtain ⟨s'', h'⟩ := hf s' hs' hvm
  refine ⟨s'', ?_⟩
  rw [ConstM.bind_apply, h, hvm]
  exact h'

theorem jniGetNioBufferPointer_returns (hl : l.Succeed) {s : State} (hs : Cached s)
    (b : NioBuffer) : ∃ s', jniGetNioBufferPointer l b s =
      .ok (if b.address ≠ 0 then b.address + (b.position <<< b.elementSizeShift).signExtend 64
        else b.address, s') := by
  refine fieldGetter_bind hl .nioBufferAddressField hs fun s₁ hs₁ _ => ?_
  show ∃ s', (if b.address ≠ 0 then _ else _ : ConstM (BitVec 64)) s₁ = _
  by_cases h : b.address = 0
  · rw [if_neg (not_not.mpr h), if_neg (not_not.mpr h)]
    exact ⟨s₁, rfl⟩
  · rw [if_pos h, if_pos h]
    refine fieldGetter_bind hl .nioBufferPositionField hs₁ fun s₂ hs₂ _ => ?_
    refine fieldGetter_bind hl .nioBufferElementSizeShiftField hs₂ fun s₃ _ _ => ?_
    exact ⟨s₃, rfl⟩

theorem jniGetNioBufferFields_returns (hl : l.Succeed) {s : State} (hs : Cached s)
    (b : NioBuffer) : ∃ s', jniGetNioBufferFields l b s = .ok (b, s') := by
  refine fieldGetter_bind hl .nioBufferPositionField hs fun s₁ hs₁ _ => ?_
  refine fieldGetter_bind hl .nioBufferLimitField hs₁ fun s₂ hs₂ _ => ?_
  refine fieldGetter_bind hl .nioBufferElementSizeShiftField hs₂ fun s₃ hs₃ _ => ?_
  refine fieldGetter_bind hl .nioBufferAddressField hs₃ fun s₄ _ _ => ?_
  exact ⟨s₄, rfl⟩

end returns

/-! ### The offset of the position -/

/-- The address that a caller computes from the fields, in 64 bits. -/
def NioBuffer.pointer (b : NioBuffer) : BitVec 64 :=
  if b.address = 0 then 0
  else b.address + BitVec.ofInt 64 (b.position.toInt * 2 ^ b.elementSizeShift.toNat)

/-- What the shift gives is the number of bytes. -/
def NioBuffer.ShiftFits (b : NioBuffer) : Prop :=
  (b.position <<< b.elementSizeShift).toInt = b.position.toInt * 2 ^ b.elementSizeShift.toNat

instance (b : NioBuffer) : Decidable b.ShiftFits := inferInstanceAs (Decidable (_ = _))

/-- The fields are in the range that `java.nio.Buffer` keeps. -/
def NioBuffer.InRange (b : NioBuffer) : Prop :=
  0 ≤ b.position.toInt ∧ b.position.toInt ≤ b.limit.toInt ∧ 0 ≤ b.elementSizeShift.toInt ∧
    b.elementSizeShift.toInt ≤ 3

instance (b : NioBuffer) : Decidable b.InRange := inferInstanceAs (Decidable (_ ∧ _ ∧ _ ∧ _))

section offset

/-- A non-negative `int` is its bits. -/
theorem toInt_of_nonneg {x : BitVec 32} (h : 0 ≤ x.toInt) :
    x.toInt = x.toNat ∧ x.toNat < 2 ^ 31 := by
  have hx : x.toNat < 2 ^ 32 := x.isLt
  rw [BitVec.toInt_eq_toNat_cond] at h ⊢
  by_cases hc : 2 * x.toNat < 2 ^ 32
  · rw [if_pos hc]
    exact ⟨rfl, by omega⟩
  · rw [if_neg hc] at h
    omega

/-- The bytes before the position, as a number. -/
def NioBuffer.offset (b : NioBuffer) : ℕ := b.position.toNat * 2 ^ b.elementSizeShift.toNat

variable {b : NioBuffer}

theorem NioBuffer.toInt_offset (h : 0 ≤ b.position.toInt) :
    b.position.toInt * 2 ^ b.elementSizeShift.toNat = b.offset := by
  rw [(toInt_of_nonneg h).1, NioBuffer.offset]
  push_cast
  rfl

/-- The elements are of eight bytes at most, so the offset is one of 34 bits. -/
theorem NioBuffer.InRange.offset_lt (h : b.InRange) : b.offset < 2 ^ 34 := by
  obtain ⟨hp, -, hs, hs3⟩ := h
  have hlt := (toInt_of_nonneg hp).2
  have hshift : b.elementSizeShift.toNat ≤ 3 := by
    have := (toInt_of_nonneg hs).1
    omega
  calc b.offset ≤ b.position.toNat * 2 ^ 3 :=
        Nat.mul_le_mul_left _ (Nat.pow_le_pow_right (by decide) hshift)
    _ < 2 ^ 34 := by omega

/-- The shift keeps the low 32 bits of the offset. -/
theorem NioBuffer.toInt_shiftLeft (b : NioBuffer) :
    (b.position <<< b.elementSizeShift).toInt = Int.bmod b.offset (2 ^ 32) := by
  rw [BitVec.shiftLeft_eq', BitVec.toInt_shiftLeft, NioBuffer.offset, Nat.shiftLeft_eq]

/-- **The shift fits if and only if the offset does.** -/
theorem NioBuffer.InRange.shiftFits_iff (h : b.InRange) : b.ShiftFits ↔ b.offset < 2 ^ 31 := by
  unfold NioBuffer.ShiftFits
  rw [b.toInt_shiftLeft, NioBuffer.toInt_offset h.1, Int.bmod_eq_iff (by decide)]
  omega

/-- **The pointer is the one the caller computes if and only if the offset fits.** -/
theorem NioBuffer.InRange.pointer_eq_iff (h : b.InRange) (haddress : b.address ≠ 0) :
    b.address + (b.position <<< b.elementSizeShift).signExtend 64 = b.pointer ↔
      b.offset < 2 ^ 31 := by
  have hlt := h.offset_lt
  unfold NioBuffer.pointer
  rw [if_neg haddress, BitVec.add_right_inj, ← BitVec.toInt_inj,
    BitVec.toInt_signExtend_of_le (by decide), b.toInt_shiftLeft, NioBuffer.toInt_offset h.1,
    BitVec.toInt_ofInt]
  have h64 : Int.bmod b.offset (2 ^ 64) = b.offset := by
    rw [Int.bmod_eq_iff (by decide)]
    omega
  rw [h64, Int.bmod_eq_iff (by decide)]
  omega

/-- **The pointer is the address that the caller computes from the fields, without an overflow on
the way, if and only if there is no address or the offset is below `2 ^ 31`**: in every state of
the cache, the lookups being answered. -/
theorem nioBufferPointer_iff (vm : ℕ) (as : List Action) (has : ∀ a ∈ as, a.Succeeds)
    (l : Lookups) (hl : l.Succeed) (b : NioBuffer) (hb : b.InRange) :
    ∃ s, Transition.run step (initial vm) as = some s ∧
      ∃ pointer fields s₁ s₂, jniGetNioBufferPointer l b s = .ok (pointer, s₁) ∧
        jniGetNioBufferFields l b s = .ok (fields, s₂) ∧ fields = b ∧
        ((pointer = fields.pointer ∧ (b.address ≠ 0 → b.ShiftFits)) ↔
          b.address = 0 ∨ b.offset < 2 ^ 31) := by
  obtain ⟨s, hr, hs⟩ := run_cached (cached_initial vm []) has
  obtain ⟨s₁, h₁⟩ := jniGetNioBufferPointer_returns hl hs b
  obtain ⟨s₂, h₂⟩ := jniGetNioBufferFields_returns hl hs b
  refine ⟨s, hr, _, _, s₁, s₂, h₁, h₂, rfl, ?_⟩
  by_cases haddress : b.address = 0
  · refine iff_of_true ⟨?_, fun h => absurd haddress h⟩ (.inl haddress)
    rw [if_neg (not_not.mpr haddress), NioBuffer.pointer, if_pos haddress, haddress]
  · rw [if_pos haddress, hb.pointer_eq_iff haddress, hb.shiftFits_iff]
    constructor
    · exact fun h => .inr h.1
    · intro h
      have := h.resolve_left haddress
      exact ⟨this, fun _ => this⟩

/-- A buffer of 16 `long`s at its second element. -/
theorem nioBufferPointer_second :
    ∃ s, Transition.run step (initial 0) [] = some s ∧
      ∃ pointer fields s₁ s₂,
        jniGetNioBufferPointer answered ⟨0x1000, 1, 16, 3⟩ s = .ok (pointer, s₁) ∧
        jniGetNioBufferFields answered ⟨0x1000, 1, 16, 3⟩ s = .ok (fields, s₂) ∧
        pointer = fields.pointer ∧ fields.pointer = 0x1008 := by
  have hl : answered.Succeed := by simp [Lookups.Succeed, answered]
  obtain ⟨s, hr, pointer, fields, s₁, s₂, h₁, h₂, rfl, hiff⟩ := nioBufferPointer_iff 0 []
    (fun a ha => absurd ha List.not_mem_nil) answered hl ⟨0x1000, 1, 16, 3⟩ (by decide)
  exact ⟨s, hr, pointer, _, s₁, s₂, h₁, h₂, (hiff.mpr (.inr (by decide))).1, by decide⟩

/-- `2 ^ 28` elements of eight bytes: the offset `2 ^ 31` is taken for a negative one. -/
theorem nioBufferPointer_negative :
    ∃ s', jniGetNioBufferPointer answered ⟨0x100000000, 0x10000000, 0x10000000, 3⟩ (initial 0) =
        .ok (0x80000000, s') ∧
      NioBuffer.InRange ⟨0x100000000, 0x10000000, 0x10000000, 3⟩ ∧
      NioBuffer.pointer ⟨0x100000000, 0x10000000, 0x10000000, 3⟩ = 0x180000000 ∧
      ¬ NioBuffer.ShiftFits ⟨0x100000000, 0x10000000, 0x10000000, 3⟩ := by
  have hl : answered.Succeed := by simp [Lookups.Succeed, answered]
  obtain ⟨s', h⟩ := jniGetNioBufferPointer_returns hl (cached_initial 0 [])
    ⟨0x100000000, 0x10000000, 0x10000000, 3⟩
  exact ⟨s', h, by decide, by decide, by decide⟩

end offset

end JniConstants
end NativeHelper
