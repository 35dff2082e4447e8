import Mathlib.Algebra.Order.Ring.Int
import NativeHelper.ToStringArray

/-! # What `toStringArray` returns

The body of the loop is described in every state (`fillElement_step`), the loop by induction on
what is left of it (`fillElements_run`): as long as no element fails the first `i` elements are
strings of the visitor (`HoldsStrings`).  An index at the end of the array raises an exception, so
a count that does not fit in a `jsize` never gives an array.

* `toStringArray_exact`: what is returned is the array that was asked for, and null comes with an
  exception; no more than two references are live at a time.
* `toStringArray_locals_iff`: the array is a plain local reference, so it is left behind whenever
  an element fails. -/

namespace NativeHelper

open JniConstants (Stop)
open Ledger (AtMost)

/-! ### An element -/

/-- One of the calls for the element `i` of an array of `n` elements fails. -/
def ArrayAnswers.ElementFails (jni : ArrayAnswers) (n : ℕ) (i : BitVec 64) : Prop :=
  (jni.newStringUTF i).isSome ∨ ¬ InBounds n i ∨ (jni.setObjectArrayElement i).isSome

section element
variable {jni : ArrayAnswers} {visitor : BitVec 64 → String} {result : Ref} {i : BitVec 64}
  {s : ArrayEnv} {n : ℕ}

theorem HoldsStrings.length_eq {heap : List HeapObject} {array : JavaObject} {k : ℕ}
    (h : HoldsStrings visitor heap array n k) : (elementsOf heap array).length = n := by
  obtain ⟨elements, he, hn, _⟩ := h
  unfold elementsOf
  rw [he]
  exact hn

/-- With an exception pending nothing is stored. -/
theorem storeString_pending (hp : s.jni.pending.isSome) (value : Option Ref) :
    storeString jni result i value s = (.ok true, { s with jni := (exceptionCheck s.jni).2 }) := by
  show (if s.jni.pending.isSome = true then _ else _ : ArrayM Bool) _ = _
  rw [if_pos hp]
  rfl

/-- Without one, what the store leaves pending decides. -/
theorem storeString_clear (hp : s.jni.pending = none) {value : Option Ref} {s₁ : ArrayEnv}
    (h : setObjectArrayElement jni result i value { s with jni := (exceptionCheck s.jni).2 } =
      (.ok (), s₁)) :
    storeString jni result i value s =
      (.ok s₁.jni.pending.isSome, { s₁ with jni := (exceptionCheck s₁.jni).2 }) := by
  show (if s.jni.pending.isSome = true then _ else _ : ArrayM Bool) _ = _
  rw [if_neg (by simp [hp]), ArrayM.bind_apply, h]
  rfl

/-- A failed store leaves an exception and nothing else. -/
theorem storeString_fails (hp : s.jni.pending = none) (value : Option Ref)
    (hf : ¬ InBounds (elementsOf s.heap result.object).length i ∨
      (jni.setObjectArrayElement i).isSome) :
    ∃ s', storeString jni result i value s = (.ok true, s') ∧ s'.jni.pending.isSome ∧
      s'.jni.locals = s.jni.locals ∧ s'.jni.ledger = s.jni.ledger ∧ s'.visited = s.visited := by
  have hset : ∃ exception, ∀ e, setObjectArrayElement jni result i value { s with jni := e } =
      (.ok (), { s with jni := { e with pending := some exception } }) := by
    unfold setObjectArrayElement
    by_cases hb : InBounds (elementsOf s.heap result.object).length i
    · obtain ⟨exception, he⟩ := Option.isSome_iff_exists.mp (hf.resolve_left (not_not.mpr hb))
      exact ⟨exception, fun e => by rw [if_neg (not_not.mpr hb), he]; rfl⟩
    · exact ⟨jni.outOfBounds i, fun e => by rw [if_pos hb]; rfl⟩
  obtain ⟨exception, he⟩ := hset
  exact ⟨_, storeString_clear hp (he _), rfl, rfl, rfl, rfl⟩

theorem storeString_stores (hp : s.jni.pending = none) (value : Option Ref)
    (hb : InBounds (elementsOf s.heap result.object).length i)
    (hs : jni.setObjectArrayElement i = none) :
    ∃ s', storeString jni result i value s = (.ok false, s') ∧ s'.jni.pending = none ∧
      s'.jni.locals = s.jni.locals ∧ s'.jni.ledger = s.jni.ledger ∧ s'.visited = s.visited ∧
      s'.heap = s.heap.set result.object (.array
        ((elementsOf s.heap result.object).set (jsize i).toNat (value.map Ref.object))) := by
  have hset : ∀ e, setObjectArrayElement jni result i value { s with jni := e } =
      storeElement result.object i (value.map Ref.object) { s with jni := e } := by
    intro e
    unfold setObjectArrayElement
    rw [if_neg (not_not.mpr hb), hs]
  have hclear := storeString_clear hp (hset (exceptionCheck s.jni).2)
  have hpend : (exceptionCheck s.jni).2.pending.isSome = false := by
    rw [exceptionCheck_pending, hp]
    rfl
  rw [hpend] at hclear
  exact ⟨_, hclear, hp, rfl, rfl, rfl, rfl⟩

/-- What the body of the loop does, and when it returns null. -/
structure ElementStep (jni : ArrayAnswers) (visitor : BitVec 64 → String) (result : Ref)
    (i : BitVec 64) (s s' : ArrayEnv) (failed : Bool) : Prop where
  kept : Kept s s'
  pending : s'.jni.pending.isSome = failed
  visited : s'.visited = s.visited ++ [i]
  failed_iff : failed = true ↔ s.jni.pending.isSome ∨
    jni.ElementFails (elementsOf s.heap result.object).length i
  heap : failed = false → s'.heap = (s.heap ++ [HeapObject.string (visitor i)]).set result.object
    (.array ((elementsOf s.heap result.object).set (jsize i).toNat (some s.heap.length)))

/-- A new string does not change an array. -/
theorem elementsOf_append_string (heap : List HeapObject) (chars : String) (array : JavaObject) :
    elementsOf (heap ++ [.string chars]) array = elementsOf heap array := by
  unfold elementsOf
  rcases Nat.lt_trichotomy array heap.length with h | h | h
  · rw [List.getElem?_append_left h]
  · rw [h, List.getElem?_concat_length, List.getElem?_eq_none (Nat.le_refl _)]
  · rw [List.getElem?_eq_none (by rw [List.length_append, List.length_singleton]; omega),
      List.getElem?_eq_none (Nat.le_of_lt h)]

/-- The reference to a new string lives as long as its scope. -/
theorem inScope_newLocalRef {body : ArrayM Bool} {object : JavaObject} {s₁ s' : ArrayEnv}
    {failed : Bool} (h₁ : s₁.jni = (newLocalRef object s.jni).2)
    (h : body s₁ = (.ok failed, s')) (hl : s'.jni.locals = s₁.jni.locals)
    (hg : s'.jni.ledger = s₁.jni.ledger) :
    ∃ s'', inScope (some ⟨s.jni.nextRef, object⟩) body s₁ = (.ok failed, s'') ∧ Kept s s'' ∧
      s''.jni.pending = s'.jni.pending ∧ s''.visited = s'.visited ∧ s''.heap = s'.heap := by
  refine ⟨_, inScope_some _ h, kept_scope ⟨s.jni.nextRef, object⟩ ?_ ?_, rfl, rfl, rfl⟩
  · show s'.jni.locals.erase _ = _
    rw [hl, h₁]
    rfl
  · show s'.jni.ledger ++ [_] = _
    rw [hg, h₁]
    rfl

/-- The state with a new string for the index and a reference to it. -/
def ArrayEnv.withString (s : ArrayEnv) (i : BitVec 64) (chars : String) : ArrayEnv :=
  { s with jni := (newLocalRef s.heap.length s.jni).2
           heap := s.heap ++ [.string chars]
           visited := s.visited ++ [i] }

theorem fillElement_eq (hn : jni.newStringUTF i = none) :
    fillElement jni visitor result i s = inScope (some ⟨s.jni.nextRef, s.heap.length⟩)
      (storeString jni result i (some ⟨s.jni.nextRef, s.heap.length⟩))
      (s.withString i (visitor i)) := by
  unfold fillElement newStringUTF
  rw [hn]
  rfl

/-- **The body of the loop**, in every state. -/
theorem fillElement_step (jni : ArrayAnswers) (visitor : BitVec 64 → String) (result : Ref)
    (i : BitVec 64) (s : ArrayEnv) :
    ∃ failed s', fillElement jni visitor result i s = (.ok failed, s') ∧
      ElementStep jni visitor result i s s' failed := by
  cases hn : jni.newStringUTF i with
  | some exception =>
      -- nothing to delete: the scope is that of a null reference
      have hp : ({ s.jni with pending := some exception } : JniEnv).pending.isSome := rfl
      unfold fillElement newStringUTF
      rw [hn]
      refine ⟨true, _, inScope_none (storeString_pending hp none), .of_eq rfl rfl, rfl, rfl, ?_,
        fun h => Bool.noConfusion h⟩
      exact iff_of_true rfl (.inr (.inl (by rw [hn]; rfl)))
  | none =>
      have hlen : elementsOf (s.withString i (visitor i)).heap result.object =
        elementsOf s.heap result.object := elementsOf_append_string _ _ _
      rw [fillElement_eq hn]
      cases hp : s.jni.pending with
      | some exception =>
          have hp₁ : (s.withString i (visitor i)).jni.pending.isSome := by
            show s.jni.pending.isSome = true
            rw [hp]
            rfl
          obtain ⟨s', he, hk, hp', hv, _⟩ :=
            inScope_newLocalRef (s := s) rfl (storeString_pending hp₁ _) rfl rfl
          refine ⟨true, s', he, hk, ?_, hv, ?_, fun h => Bool.noConfusion h⟩
          · rw [hp']
            exact hp₁
          · exact iff_of_true rfl (.inl (by rw [hp]; rfl))
      | none =>
          have hp₁ : (s.withString i (visitor i)).jni.pending = none := hp
          by_cases hf : ¬ InBounds (elementsOf s.heap result.object).length i ∨
              (jni.setObjectArrayElement i).isSome
          · obtain ⟨s₂, h₂, hp₂, hl, hg, hv₂⟩ :=
              storeString_fails hp₁ (some ⟨s.jni.nextRef, s.heap.length⟩) (by rwa [hlen])
            obtain ⟨s', he, hk, hp', hv, _⟩ := inScope_newLocalRef (s := s) rfl h₂ hl hg
            refine ⟨true, s', he, hk, by rwa [hp'], hv.trans hv₂, ?_, fun h => Bool.noConfusion h⟩
            exact iff_of_true rfl (.inr (.inr hf))
          · obtain ⟨hb, hs⟩ := not_or.mp hf
            rw [not_not] at hb
            rw [Option.not_isSome_iff_eq_none] at hs
            obtain ⟨s₂, h₂, hp₂, hl, hg, hv₂, hh₂⟩ :=
              storeString_stores hp₁ (some ⟨s.jni.nextRef, s.heap.length⟩) (by rwa [hlen]) hs
            obtain ⟨s', he, hk, hp', hv, hh⟩ := inScope_newLocalRef (s := s) rfl h₂ hl hg
            refine ⟨false, s', he, hk, by rw [hp', hp₂]; rfl, hv.trans hv₂, ?_, fun _ => ?_⟩
            · refine iff_of_false Bool.false_ne_true ?_
              rintro (h | h | h)
              · rw [hp] at h
                cases h
              · rw [hn] at h
                cases h
              · exact hf h
            · rw [hh, hh₂, hlen]
              rfl

end element

/-! ### The loop -/

section loop
variable {jni : ArrayAnswers} {visitor : BitVec 64 → String} {result : Ref} {count i : BitVec 64}
  {s s' : ArrayEnv} {n : ℕ}

theorem jsize_of_lt (h : i.toNat < 2 ^ 31) : jsize i = i.toNat := by
  unfold jsize
  rw [BitVec.toInt_eq_toNat_cond, BitVec.toNat_setWidth, Nat.mod_eq_of_lt (by omega),
    if_pos (by omega)]

theorem inBounds_iff (hi : i.toNat ≤ n) (hn : n < 2 ^ 31) : InBounds n i ↔ i.toNat < n := by
  unfold InBounds
  rw [jsize_of_lt (by omega)]
  omega

/-- A step that goes on fills in one element. -/
theorem ElementStep.holdsStrings (hs : ElementStep jni visitor result i s s' false)
    (h : HoldsStrings visitor s.heap result.object n i.toNat) (hi : i.toNat < n)
    (hn : n < 2 ^ 31) : HoldsStrings visitor s'.heap result.object n (i.toNat + 1) := by
  have hlen := h.length_eq
  obtain ⟨elements, he, hl, hstr⟩ := h
  have helem : elementsOf s.heap result.object = elements := by
    unfold elementsOf
    rw [he]
  have hlt : result.object < s.heap.length := (List.getElem?_eq_some_iff.mp he).1
  have hheap := hs.heap rfl
  rw [helem, jsize_of_lt (by omega), Int.toNat_natCast] at hheap
  rw [hheap]
  refine ⟨elements.set i.toNat (some s.heap.length), ?_, by rw [List.length_set, hl], ?_⟩
  · rw [List.getElem?_set_self (by rw [List.length_append]; exact Nat.lt_add_right _ hlt)]
  · intro j hj
    by_cases hji : j = i.toNat
    · -- the new string
      refine ⟨s.heap.length, ?_, ?_⟩
      · rw [hji, List.getElem?_set_self (by omega)]
      · rw [List.getElem?_set_ne (Nat.ne_of_lt hlt), List.getElem?_concat_length, hji,
          BitVec.ofNat_toNat, BitVec.setWidth_eq]
    · -- the strings before it are not the array
      obtain ⟨string, hs₁, hs₂⟩ := hstr j (by omega)
      have hne : result.object ≠ string := by
        rintro rfl
        rw [he] at hs₂
        cases hs₂
      have hlt' : string < s.heap.length := (List.getElem?_eq_some_iff.mp hs₂).1
      refine ⟨string, ?_, ?_⟩
      · rw [List.getElem?_set_ne (Ne.symm hji), hs₁]
      · rw [List.getElem?_set_ne hne, List.getElem?_append_left hlt', hs₂]

theorem fillElements_done (h : ¬ i < count) :
    fillElements jni visitor result count i s = (.ok false, s) := by
  rw [fillElements, dif_neg h]
  rfl

theorem fillElements_failed (h : i < count)
    (hs : fillElement jni visitor result i s = (.ok true, s')) :
    fillElements jni visitor result count i s = (.ok true, s') := by
  rw [fillElements, dif_pos h, ArrayM.bind_apply, hs]
  rfl

theorem fillElements_next (h : i < count)
    (hs : fillElement jni visitor result i s = (.ok false, s')) :
    fillElements jni visitor result count i s =
      fillElements jni visitor result count (i + 1) s' := by
  rw [fillElements, dif_pos h, ArrayM.bind_apply, hs]
  rfl

/-- What the loop does from the index `i` on, in an array of `n` elements. -/
structure LoopRun (jni : ArrayAnswers) (visitor : BitVec 64 → String) (result : Ref)
    (count i : BitVec 64) (n : ℕ) (s s' : ArrayEnv) (failed : Bool) : Prop where
  kept : Kept s s'
  pending : failed = true → s'.jni.pending.isSome
  clear : failed = false → s.jni.pending = none → s'.jni.pending = none
  failed_iff : failed = true ↔ (i < count ∧ s.jni.pending.isSome) ∨
    ∃ j : BitVec 64, i ≤ j ∧ j < count ∧ jni.ElementFails n j
  visited : failed = false → s'.visited =
    s.visited ++ (List.range' i.toNat (count.toNat - i.toNat)).map (BitVec.ofNat 64)
  strings : failed = false → HoldsStrings visitor s'.heap result.object n count.toNat

/-- **The loop**, once the array is there. -/
theorem fillElements_run (hn : n < 2 ^ 31) (hi : i.toNat ≤ n)
    (hc : i.toNat ≤ count.toNat) (h : HoldsStrings visitor s.heap result.object n i.toNat) :
    ∃ failed s', fillElements jni visitor result count i s = (.ok failed, s') ∧
      LoopRun jni visitor result count i n s s' failed := by
  obtain ⟨m, hm⟩ : ∃ m, count.toNat - i.toNat = m := ⟨_, rfl⟩
  induction m generalizing i s with
  | zero =>
      have hlt : ¬ i < count := by
        rw [BitVec.lt_def]
        omega
      refine ⟨false, s, fillElements_done hlt, .refl s, fun h => Bool.noConfusion h,
        fun _ hp => hp, ?_, fun _ => ?_, fun _ => ?_⟩
      · refine iff_of_false Bool.false_ne_true ?_
        rintro (⟨hi, _⟩ | ⟨j, hij, hj, _⟩)
        · exact hlt hi
        rw [BitVec.le_def] at hij
        rw [BitVec.lt_def] at hj hlt
        omega
      · rw [hm]
        exact (List.append_nil _).symm
      · rwa [show count.toNat = i.toNat by omega]
  | succ m ih =>
      have hlt : i < count := by
        rw [BitVec.lt_def]
        omega
      have hsucc := toNat_add_one hlt
      obtain ⟨failed, s₁, he, hs⟩ := fillElement_step jni visitor result i s
      have hfail := hs.failed_iff
      rw [h.length_eq] at hfail
      cases failed with
      | true =>
          refine ⟨true, s₁, fillElements_failed hlt he, hs.kept, fun _ => hs.pending,
            fun h => Bool.noConfusion h, ?_, fun h => Bool.noConfusion h,
            fun h => Bool.noConfusion h⟩
          refine iff_of_true rfl ?_
          rcases hfail.mp rfl with hp | hf
          · exact .inl ⟨hlt, hp⟩
          · exact .inr ⟨i, BitVec.le_refl i, hlt, hf⟩
      | false =>
          have hp : ¬ s.jni.pending.isSome := fun hp => Bool.false_ne_true (hfail.mpr (.inl hp))
          have hok : ¬ jni.ElementFails n i := fun hf => Bool.false_ne_true (hfail.mpr (.inr hf))
          have hin : i.toNat < n := (inBounds_iff hi hn).mp (by
            by_contra hb
            exact hok (.inr (.inl hb)))
          have hp₁ : s₁.jni.pending = none := Option.not_isSome_iff_eq_none.mp (by
            rw [hs.pending]
            exact Bool.false_ne_true)
          have h₁ := hs.holdsStrings h hin hn
          rw [← hsucc] at h₁
          have hle : i.toNat + 1 ≤ count.toNat := BitVec.lt_def.mp hlt
          obtain ⟨failed, s', he', hr⟩ :=
            ih (i := i + 1) (by omega) (by omega) h₁ (by omega)
          refine ⟨failed, s', (fillElements_next hlt he).trans he', hs.kept.trans hr.kept,
            hr.pending, fun hf _ => hr.clear hf hp₁, hr.failed_iff.trans ⟨?_, ?_⟩, fun hf => ?_,
            hr.strings⟩
          · rintro (⟨_, hp⟩ | ⟨j, hij, hj, hf⟩)
            · rw [hp₁] at hp
              cases hp
            · refine .inr ⟨j, ?_, hj, hf⟩
              rw [BitVec.le_def] at hij ⊢
              omega
          · rintro (⟨_, hp'⟩ | ⟨j, hij, hj, hf⟩)
            · exact absurd hp' hp
            refine .inr ⟨j, ?_, hj, hf⟩
            -- the element `i` did not fail
            have hne : i.toNat ≠ j.toNat := fun h => hok (by rwa [BitVec.eq_of_toNat_eq h])
            rw [BitVec.le_def] at hij ⊢
            omega
          · rw [hr.visited hf, hs.visited, hsucc, hm, List.range'_succ, List.map_cons,
              BitVec.ofNat_toNat, BitVec.setWidth_eq, List.append_assoc,
              show count.toNat - (i.toNat + 1) = m by omega]
            rfl

end loop

/-! ### The whole function -/

/-- What `toStringArray` comes to. -/
inductive StringArray (jni : ArrayAnswers) (count : BitVec 64) (visitor : BitVec 64 → String)
    (s : ArrayEnv) : Except Stop (Option Ref) × ArrayEnv → Prop
  | stopped {why : Stop} {s' : ArrayEnv} (hm : StringClassMissing jni s.constants)
      (hk : Kept s s') : StringArray jni count visitor s (.error why, s')
  | refused {s' : ArrayEnv} (hm : ¬ StringClassMissing jni s.constants) (hr : jni.Refuses count)
      (hk : Kept s s') (hp : s'.jni.pending.isSome) :
      StringArray jni count visitor s (.ok none, s')
  | failed {array : Ref} {s₁ s' : ArrayEnv} (hm : ¬ StringClassMissing jni s.constants)
      (hr : ¬ jni.Refuses count) (hc : Created count s s₁ array)
      (hl : LoopRun jni visitor array count 0 (jsize count).toNat s₁ s' true) :
      StringArray jni count visitor s (.ok none, s')
  | returned {array : Ref} {s₁ s' : ArrayEnv} (hm : ¬ StringClassMissing jni s.constants)
      (hr : ¬ jni.Refuses count) (hc : Created count s s₁ array)
      (hl : LoopRun jni visitor array count 0 (jsize count).toNat s₁ s' false) :
      StringArray jni count visitor s (.ok (some array), s')

section whole
variable {jni : ArrayAnswers} {visitor : BitVec 64 → String} {count : BitVec 64}
  {s s₁ s' : ArrayEnv} {array : Ref}

theorem jsize_lt (n : BitVec 64) : jsize n < 2 ^ 31 := BitVec.toInt_lt

/-- A length that is not negative is given by the low bits. -/
theorem jsize_toNat (h : 0 ≤ jsize count) : (jsize count).toNat = count.toNat % 2 ^ 32 := by
  unfold jsize at h ⊢
  rw [BitVec.toInt_eq_toNat_cond, BitVec.toNat_setWidth] at h ⊢
  by_cases hc : 2 * (count.toNat % 2 ^ 32) < 2 ^ 32
  · rw [if_pos hc]
    rfl
  · rw [if_neg hc] at h
    omega

theorem toStringArray_cases (jni : ArrayAnswers) (count : BitVec 64)
    (visitor : BitVec 64 → String) (s : ArrayEnv) :
    StringArray jni count visitor s (toStringArray jni count visitor s) := by
  have hc := jniCreateStringArray_creation jni count s
  unfold toStringArray
  rw [ArrayM.bind_apply]
  cases hx : jniCreateStringArray jni count s with
  | mk r s₁ =>
      rw [hx] at hc
      cases hc with
      | stopped hm hk => exact .stopped hm hk
      | refused hm hr hk hp => exact .refused hm hr hk hp
      | @created array _ hm hr hc =>
          have hlt := jsize_lt count
          have hpos := hc.length
          have hn : (jsize count).toNat < 2 ^ 31 := by omega
          obtain ⟨failed, s', he, hl⟩ := fillElements_run (i := 0) hn (Nat.zero_le _)
            (Nat.zero_le _) (hc.empty visitor)
          show StringArray jni count visitor s
            ((fillElements jni visitor array count 0 >>= _) s₁)
          rw [ArrayM.bind_apply, he]
          cases failed with
          | true => exact .failed hm hr hc hl
          | false => exact .returned hm hr hc hl

/-- Without a failure every index fits, so the array has the length that was asked for. -/
theorem LoopRun.length_eq (hc : Created count s s₁ array)
    (hl : LoopRun jni visitor array count 0 (jsize count).toNat s₁ s' false) :
    (jsize count).toNat = count.toNat := by
  have hmod := jsize_toNat hc.length
  obtain ⟨elements, _, hlen, hstr⟩ := hl.strings rfl
  rcases Nat.eq_zero_or_pos count.toNat with h0 | hpos
  · omega
  · -- the last element is there
    obtain ⟨_, hlast, _⟩ := hstr (count.toNat - 1) (by omega)
    have := (List.getElem?_eq_some_iff.mp hlast).1
    omega

/-- Every element of an array that was made is made and stored. -/
def ArrayAnswers.ElementsSucceed (jni : ArrayAnswers) (count : BitVec 64) : Prop :=
  count.toNat < 2 ^ 31 ∧
    ∀ i < count, jni.newStringUTF i = none ∧ jni.setObjectArrayElement i = none

/-- That no element fails is a condition on the number of elements and on the calls. -/
theorem elementsSucceed_iff (h : 0 ≤ jsize count) : jni.ElementsSucceed count ↔
    ∀ j : BitVec 64, 0 ≤ j → j < count → ¬ jni.ElementFails (jsize count).toNat j := by
  have hmod := jsize_toNat h
  have hlt := jsize_lt count
  constructor
  · rintro ⟨hc, hs⟩ j _ hj (hf | hf | hf)
    · rw [(hs j hj).1] at hf
      cases hf
    · rw [BitVec.lt_def] at hj
      exact hf ((inBounds_iff (by omega) (by omega)).mpr (by omega))
    · rw [(hs j hj).2] at hf
      cases hf
  · intro hs
    constructor
    · -- the first index outside of the array
      by_contra hc
      have hto : (BitVec.ofNat 64 (jsize count).toNat).toNat = (jsize count).toNat := by
        rw [BitVec.toNat_ofNat]
        omega
      refine hs (BitVec.ofNat 64 (jsize count).toNat) (BitVec.le_def.mpr (Nat.zero_le _)) ?_
        (.inr (.inl ?_))
      · rw [BitVec.lt_def, hto]
        omega
      · rw [inBounds_iff (by omega) (by omega), hto]
        omega
    · intro i hi
      obtain ⟨hn, hf⟩ := not_or.mp (hs i (BitVec.le_def.mpr (Nat.zero_le _)) hi)
      exact ⟨Option.not_isSome_iff_eq_none.mp hn,
        Option.not_isSome_iff_eq_none.mp (not_or.mp hf).2⟩

/-- The loop fails if it has something to do and an exception is pending, or an element fails. -/
theorem LoopRun.failed_iff_succeed {failed : Bool} (hc : Created count s s₁ array)
    (hl : LoopRun jni visitor array count 0 (jsize count).toNat s₁ s' failed) :
    failed = false ↔ count = 0 ∨ (s.jni.pending = none ∧ jni.ElementsSucceed count) := by
  have hf := hl.failed_iff
  rw [hc.pending] at hf
  rw [elementsSucceed_iff hc.length, ← Bool.not_eq_true, not_congr hf]
  by_cases h0 : count = 0
  · subst h0
    refine iff_of_true ?_ (.inl rfl)
    rintro (⟨h, _⟩ | ⟨j, _, h, _⟩) <;> exact absurd (BitVec.lt_def.mp h) (Nat.not_lt_zero _)
  · have hpos : 0 < count := by
      have : count.toNat ≠ 0 := fun h => h0 (BitVec.eq_of_toNat_eq h)
      rw [BitVec.lt_def]
      exact Nat.pos_of_ne_zero this
    rw [not_or]
    constructor
    · rintro ⟨hp, hs⟩
      refine .inr ⟨Option.not_isSome_iff_eq_none.mp fun h => hp ⟨hpos, h⟩, fun j hj hjc hf => ?_⟩
      exact hs ⟨j, hj, hjc, hf⟩
    · rintro (h | ⟨hp, hs⟩)
      · exact absurd h h0
      · refine ⟨fun h => ?_, fun ⟨j, hj, hjc, hf⟩ => hs j hj hjc hf⟩
        rw [hp] at h
        cases h.2

/-- An array of the strings of the visitor, one for each index below `count`. -/
def IsStringArray (visitor : BitVec 64 → String) (count : BitVec 64) (heap : List HeapObject)
    (array : JavaObject) : Prop :=
  ∃ elements, heap[array]? = some (.array elements) ∧ elements.length = count.toNat ∧
    ∀ i < count, ∃ string, elements[i.toNat]? = some (some string) ∧
      heap[string]? = some (.string (visitor i))

theorem HoldsStrings.isStringArray {heap : List HeapObject} {array : JavaObject}
    (h : HoldsStrings visitor heap array count.toNat count.toNat) :
    IsStringArray visitor count heap array := by
  obtain ⟨elements, he, hlen, hstr⟩ := h
  refine ⟨elements, he, hlen, fun i hi => ?_⟩
  have := hstr i.toNat (BitVec.lt_def.mp hi)
  rwa [BitVec.ofNat_toNat, BitVec.setWidth_eq] at this

/-- No more than two references at any time: one for the array, one in the scope. -/
theorem StringArray.atMost {r : Except Stop (Option Ref) × ArrayEnv}
    (h : StringArray jni count visitor s r) :
    ∃ l, r.2.jni.ledger = s.jni.ledger ++ l ∧ AtMost 2 l := by
  -- what is kept needs one reference, and what follows on a new one two
  have hkept : ∀ {s'}, Kept s s' → ∃ l, s'.jni.ledger = s.jni.ledger ++ l ∧ AtMost 2 l := by
    rintro s' ⟨_, l, hl, hn⟩
    exact ⟨l, hl, fun pre hpre => Nat.le_trans (hn.atMost pre hpre) (by omega)⟩
  have hcreated : ∀ {array s₁ s'}, Created count s s₁ array → Kept s₁ s' →
      ∃ l, s'.jni.ledger = s.jni.ledger ++ l ∧ AtMost 2 l := by
    intro array s₁ s' hc hk
    obtain ⟨l, hl, hn⟩ := hc.ledger
    obtain ⟨l', hl', hn'⟩ := hk.ledger
    refine ⟨l ++ .acquire (.localRef array) :: l', ?_, hn.atMost_acquire _ hn'⟩
    rw [hl', hl, List.append_assoc, List.append_assoc]
    rfl
  cases h with
  | stopped _ hk => exact hkept hk
  | refused _ _ hk _ => exact hkept hk
  | failed _ _ hc hl => exact hcreated hc hl.kept
  | returned _ _ hc hl => exact hcreated hc hl.kept

/-- **The array or an exception**: from a state without a pending exception, `toStringArray`
returns the array that was asked for, or null with an exception pending, unless the process stops
because there is no class of strings; at no time are more than two references live. -/
theorem toStringArray_exact (jni : ArrayAnswers) (count : BitVec 64) (visitor : BitVec 64 → String)
    (s : ArrayEnv) (hp : s.jni.pending = none) :
    (∀ array s', toStringArray jni count visitor s = (.ok (some array), s') →
      IsStringArray visitor count s'.heap array.object ∧
        s'.visited = s.visited ++ (List.range count.toNat).map (BitVec.ofNat 64) ∧
        s'.jni.pending = none ∧ s'.jni.locals.Perm (array :: s.jni.locals)) ∧
      (∀ s', toStringArray jni count visitor s = (.ok none, s') → s'.jni.pending.isSome) ∧
      (∀ why s', toStringArray jni count visitor s = (.error why, s') →
        StringClassMissing jni s.constants) ∧
      ∃ l, (toStringArray jni count visitor s).2.jni.ledger = s.jni.ledger ++ l ∧ AtMost 2 l := by
  have hrun := toStringArray_cases jni count visitor s
  refine ⟨fun array s' h => ?_, fun s' h => ?_, fun why s' h => ?_, hrun.atMost⟩
  · rw [h] at hrun
    cases hrun with
    | returned hm hr hc hl =>
        have hlen := hl.length_eq hc
        have hstr := hl.strings rfl
        rw [hlen] at hstr
        refine ⟨hstr.isStringArray, ?_, hl.clear rfl (hc.pending.trans hp),
          hl.kept.locals.trans hc.locals⟩
        rw [hl.visited rfl, hc.visited, List.range_eq_range']
        rfl
  · rw [h] at hrun
    cases hrun with
    | refused _ _ _ hp => exact hp
    | failed _ _ _ hl => exact hl.pending rfl
  · rw [h] at hrun
    cases hrun with
    | stopped hm _ => exact hm

/-- A thread without an exception, before any class was looked up. -/
def freshArrayEnv : ArrayEnv :=
  ⟨⟨none, [], 0, [], 0, [], [], [], [], []⟩, JniConstants.initial 0, [], []⟩

/-- A VM in which nothing but `NewStringUTF` fails. -/
def answersWith (newStringUTF : BitVec 64 → Option JavaObject) : ArrayAnswers where
  findClass _ := .value 7
  newGlobalRef _ := true
  negativeArraySize := 8
  newObjectArray := none
  newStringUTF := newStringUTF
  outOfBounds _ := 9
  setObjectArrayElement _ := none

theorem answersWith_found (newStringUTF : BitVec 64 → Option JavaObject) :
    ¬ StringClassMissing (answersWith newStringUTF) freshArrayEnv.constants := by
  rintro (⟨_, h⟩ | h) <;> cases h

theorem answersWith_accepts {count : BitVec 64} (hc : 0 ≤ jsize count)
    (newStringUTF : BitVec 64 → Option JavaObject) : ¬ (answersWith newStringUTF).Refuses count := by
  rintro (h | h)
  · omega
  · cases h

theorem toStringArray_exact_two : ∃ array s',
    toStringArray (answersWith fun _ => none) 2 (fun i => if i = 0 then "a" else "b")
      freshArrayEnv = (.ok (some array), s') ∧
    IsStringArray (fun i => if i = 0 then "a" else "b") 2 s'.heap array.object ∧
    s'.visited = [0, 1] := by
  have hrun := toStringArray_cases (answersWith fun _ => none) 2
    (fun i => if i = 0 then "a" else "b") freshArrayEnv
  have hexact := toStringArray_exact (answersWith fun _ => none) 2
    (fun i => if i = 0 then "a" else "b") freshArrayEnv rfl
  generalize toStringArray _ _ _ _ = r at hrun hexact ⊢
  cases hrun with
  | stopped hm _ => exact absurd hm (answersWith_found _)
  | refused _ hr _ _ => exact absurd hr (answersWith_accepts (by decide) _)
  | failed _ _ hc hl =>
      exact Bool.noConfusion ((hl.failed_iff_succeed hc).mpr
        (.inr ⟨rfl, by decide, fun _ _ => ⟨rfl, rfl⟩⟩))
  | returned _ _ hc hl =>
      obtain ⟨harray, hvisited, _⟩ := hexact.1 _ _ rfl
      exact ⟨_, _, rfl, harray, hvisited⟩

/-- Once the array is there, a failure leaves it behind. -/
theorem LoopRun.not_perm (hc : Created count s s₁ array)
    (hl : LoopRun jni visitor array count 0 (jsize count).toNat s₁ s' true) :
    ¬ s'.jni.locals.Perm s.jni.locals := by
  intro h
  have h₁ := (hl.kept.locals.trans hc.locals).length_eq
  have h₂ := h.length_eq
  rw [List.length_cons] at h₁
  omega

/-- **No reference is left behind** by a null result if and only if there is no class of strings,
or the array is not made, or no element fails. -/
theorem toStringArray_locals_iff (jni : ArrayAnswers) (count : BitVec 64)
    (visitor : BitVec 64 → String) (s : ArrayEnv) :
    (∀ s', toStringArray jni count visitor s = (.ok none, s') →
      s'.jni.locals.Perm s.jni.locals) ↔
    StringClassMissing jni s.constants ∨ jni.Refuses count ∨ count = 0 ∨
      (s.jni.pending = none ∧ jni.ElementsSucceed count) := by
  have hrun := toStringArray_cases jni count visitor s
  generalize toStringArray jni count visitor s = r at hrun
  cases hrun with
  | stopped hm hk => exact iff_of_true (by rintro _ ⟨⟩) (.inl hm)
  | refused hm hr hk hp =>
      refine iff_of_true ?_ (.inr (.inl hr))
      rintro _ ⟨⟩
      exact hk.locals
  | failed hm hr hc hl =>
      refine iff_of_false (fun h => hl.not_perm hc (h _ rfl)) ?_
      rintro (h | h | h)
      · exact hm h
      · exact hr h
      · exact Bool.noConfusion ((hl.failed_iff_succeed hc).mpr h)
  | returned hm hr hc hl =>
      refine iff_of_true (by rintro _ ⟨⟩) ?_
      exact .inr (.inr ((hl.failed_iff_succeed hc).mp rfl))

/-- With one string and no memory for it the empty array stays. -/
theorem toStringArray_leaks : ∃ s',
    toStringArray (answersWith fun _ => some 6) 1 (fun _ => "a") freshArrayEnv =
      (.ok none, s') ∧ ¬ s'.jni.locals.Perm freshArrayEnv.jni.locals := by
  have hrun := toStringArray_cases (answersWith fun _ => some 6) 1 (fun _ => "a") freshArrayEnv
  generalize toStringArray _ _ _ _ = r at hrun ⊢
  cases hrun with
  | stopped hm _ => exact absurd hm (answersWith_found _)
  | refused _ hr _ _ => exact absurd hr (answersWith_accepts (by decide) _)
  | failed _ _ hc hl => exact ⟨_, rfl, hl.not_perm hc⟩
  | returned _ _ hc hl =>
      rcases (hl.failed_iff_succeed hc).mp rfl with h | ⟨_, _, h⟩
      · exact absurd h (by decide)
      · cases (h 0 (by decide)).1

end whole

end NativeHelper
