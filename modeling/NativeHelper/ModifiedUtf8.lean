import NativeHelper.PrefixCode

/-! # Modified UTF-8

The encoding of UTF-16 text in strings that end with a zero byte.  A code unit takes one to three
bytes; zero takes two of them, so that no byte of an encoded text is zero (`WellFormed.zero_notMem`).
The first byte of a code unit says how many there are, and the others are marked as continuation
bytes.  So an encoded text can be cut exactly where no continuation byte follows
(`WellFormed.take_iff`). -/

namespace ModifiedUtf8

abbrev Byte := BitVec 8

/-- The bytes of a UTF-16 code unit. -/
def encode (unit : BitVec 16) : List Byte :=
  let n := unit.toNat
  if 0 < n ∧ n < 0x80 then [.ofNat 8 n]
  else if n < 0x800 then [.ofNat 8 (0xC0 + n / 64), .ofNat 8 (0x80 + n % 64)]
  else [.ofNat 8 (0xE0 + n / 4096), .ofNat 8 (0x80 + n / 64 % 64), .ofNat 8 (0x80 + n % 64)]

/-- The bytes encode a text. -/
def WellFormed (bytes : List Byte) : Prop := ∃ text : List (BitVec 16), bytes = text.flatMap encode

/-- A byte that is not the first one of a code unit: `10xxxxxx`. -/
def IsContinuation (b : Byte) : Prop := 0x80 ≤ b.toNat ∧ b.toNat < 0xC0

instance (b : Byte) : Decidable (IsContinuation b) := inferInstanceAs (Decidable (_ ∧ _))

/-- The number of bytes of a code unit, by the first of them. -/
def sizeOfLead (b : Byte) : ℕ := if b.toNat < 0x80 then 1 else if b.toNat < 0xE0 then 2 else 3

/-! ### The code -/

section encode
variable (unit : BitVec 16)

theorem toNat_ofNat_byte {n : ℕ} (h : n < 256) : (BitVec.ofNat 8 n).toNat = n := by
  rw [BitVec.toNat_ofNat]
  exact Nat.mod_eq_of_lt h

/-- The first byte of a code unit says how many there are, and the others are marked. -/
theorem encode_shape : ∃ b bytes, encode unit = b :: bytes ∧ ¬ IsContinuation b ∧
    (∀ c ∈ bytes, IsContinuation c) ∧ (encode unit).length = sizeOfLead b := by
  have hn : unit.toNat < 65536 := unit.isLt
  unfold encode
  dsimp only
  split_ifs with h1 h2
  · have hb := @toNat_ofNat_byte unit.toNat (by omega)
    refine ⟨_, _, rfl, ?_, by simp, ?_⟩
    · unfold IsContinuation
      omega
    · unfold sizeOfLead
      rw [if_pos (by omega)]
      rfl
  · have hb := @toNat_ofNat_byte (0xC0 + unit.toNat / 64) (by omega)
    have hc := @toNat_ofNat_byte (0x80 + unit.toNat % 64) (by omega)
    refine ⟨_, _, rfl, ?_, ?_, ?_⟩
    · unfold IsContinuation
      omega
    · simp only [List.mem_singleton, forall_eq, IsContinuation]
      omega
    · unfold sizeOfLead
      rw [if_neg (by omega), if_pos (by omega)]
      rfl
  · have hb := @toNat_ofNat_byte (0xE0 + unit.toNat / 4096) (by omega)
    have hc := @toNat_ofNat_byte (0x80 + unit.toNat / 64 % 64) (by omega)
    have hd := @toNat_ofNat_byte (0x80 + unit.toNat % 64) (by omega)
    refine ⟨_, _, rfl, ?_, ?_, ?_⟩
    · unfold IsContinuation
      omega
    · simp only [List.mem_cons, List.not_mem_nil, or_false, forall_eq_or_imp, forall_eq,
        IsContinuation]
      omega
    · unfold sizeOfLead
      rw [if_neg (by omega), if_neg (by omega)]
      rfl

theorem encode_ne_nil : encode unit ≠ [] := by
  obtain ⟨b, bytes, h, _⟩ := encode_shape unit
  rw [h]
  exact List.cons_ne_nil b bytes

theorem zero_notMem_encode : (0 : Byte) ∉ encode unit := by
  have hn : unit.toNat < 65536 := unit.isLt
  have hne : ∀ {n : ℕ}, 0 < n → n < 256 → (0 : Byte) ≠ .ofNat 8 n := by
    intro n h0 h h'
    have := congrArg BitVec.toNat h'
    rw [toNat_ofNat_byte h] at this
    exact absurd this (Nat.ne_of_lt h0)
  unfold encode
  dsimp only
  split_ifs with h1 h2
  · rw [List.mem_singleton]
    exact hne h1.1 (by omega)
  · simp only [List.mem_cons, List.not_mem_nil, or_false, not_or]
    exact ⟨hne (by omega) (by omega), hne (by omega) (by omega)⟩
  · simp only [List.mem_cons, List.not_mem_nil, or_false, not_or]
    exact ⟨hne (by omega) (by omega), hne (by omega) (by omega), hne (by omega) (by omega)⟩

/-- A code unit is known from its bytes. -/
theorem encode_injective : Function.Injective encode := by
  intro u v h
  have hu : u.toNat < 65536 := u.isLt
  have hv : v.toNat < 65536 := v.isLt
  have hbyte : ∀ {m n : ℕ}, m < 256 → n < 256 → BitVec.ofNat 8 m = .ofNat 8 n → m = n := by
    intro m n hm hn he
    have he := congrArg BitVec.toNat he
    rwa [toNat_ofNat_byte hm, toNat_ofNat_byte hn] at he
  apply BitVec.eq_of_toNat_eq
  unfold encode at h
  dsimp only at h
  -- both have as many bytes, so both are in one range
  split_ifs at h with hu₁ hv₁ hv₂ hu₂ hv₁ hv₂ hv₁ hv₂ <;>
    simp only [List.cons.injEq, and_true, reduceCtorEq, and_false] at h
  · exact hbyte (by omega) (by omega) h
  · have h₁ := hbyte (by omega) (by omega) h.1
    have h₂ := hbyte (by omega) (by omega) h.2
    omega
  · have h₁ := hbyte (by omega) (by omega) h.1
    have h₂ := hbyte (by omega) (by omega) h.2.1
    have h₃ := hbyte (by omega) (by omega) h.2.2
    omega

end encode

/-! ### Encoded texts -/

open Computability PrefixCode

/-- The encoded code units. -/
def units : Language Byte := Set.range encode

theorem units_prefixFree : PrefixFree units := by
  have hlead : ∀ w ∈ units, ∃ b bytes, w = b :: bytes ∧ w.length = sizeOfLead b := by
    rintro _ ⟨unit, rfl⟩
    obtain ⟨b, bytes, h, _, _, hlen⟩ := encode_shape unit
    exact ⟨b, bytes, h, hlen⟩
  exact prefixFree_of_length hlead

theorem units_marks : Marks units IsContinuation := by
  rintro _ ⟨unit, rfl⟩
  obtain ⟨b, bytes, h, hb, hbytes, _⟩ := encode_shape unit
  exact ⟨b, bytes, h, hb, hbytes⟩

theorem wellFormed_iff_mem_kstar {bytes : List Byte} : WellFormed bytes ↔ bytes ∈ units∗ := by
  rw [Language.mem_kstar]
  constructor
  · rintro ⟨text, rfl⟩
    refine ⟨text.map encode, List.flatMap_def, fun w hw => ?_⟩
    obtain ⟨unit, _, rfl⟩ := List.mem_map.mp hw
    exact ⟨unit, rfl⟩
  · rintro ⟨ws, rfl, hws⟩
    induction ws with
    | nil => exact ⟨[], rfl⟩
    | cons w ws ih =>
        obtain ⟨⟨unit, rfl⟩, hrest⟩ := List.forall_mem_cons.mp hws
        obtain ⟨text, ht⟩ := ih hrest
        exact ⟨unit :: text, by rw [List.flatten_cons, ht, List.flatMap_cons]⟩

theorem WellFormed.zero_notMem {bytes : List Byte} (h : WellFormed bytes) : (0 : Byte) ∉ bytes := by
  obtain ⟨text, rfl⟩ := h
  intro h0
  obtain ⟨unit, _, hu⟩ := List.mem_flatMap.mp h0
  exact zero_notMem_encode unit hu

/-- A text is known from its bytes. -/
theorem flatMap_encode_injective :
    Function.Injective fun text : List (BitVec 16) => text.flatMap encode :=
  units_prefixFree.flatMap_injective encode_injective encode_ne_nil

/-- **A text can be cut** exactly where no continuation byte follows. -/
theorem WellFormed.take_iff {bytes : List Byte} (h : WellFormed bytes) (n : ℕ) :
    WellFormed (bytes.take n) ↔ ∀ b, bytes[n]? = some b → ¬ IsContinuation b := by
  rw [wellFormed_iff_mem_kstar] at h ⊢
  exact take_mem_kstar_iff units_prefixFree units_marks h n

end ModifiedUtf8
