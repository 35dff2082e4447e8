import Mathlib.Data.List.ReduceOption
import NativeHelper.Refinement
import NativeHelper.ToStringArrayRuns

/-! # The overloads of `toStringArray`

The strings of an array come from a `std::vector`, from pointers up to a null pointer, or from a
pair of functions.  Every overload counts them and leaves the rest to `toStringArray`.

A thread makes arrays one after the other (`ArrayAction`), and between the calls other code does
what it likes with the heap, but for Java strings, which cannot be changed (`OtherCode`).  A call
only ever adds to the heap (`KeepsHeap`), so an array that was returned still holds its strings when
all is done, unless other code stored something into it.

* `toStringArray_overloads`: how the overloads fit together, and when an array is returned.
* `stringArrays_run`: what the arrays of a run hold at its end. -/

namespace NativeHelper

open JniConstants (ConstM)

/-! ### The overloads -/

/-- A block of memory, whose size is a `size_t`. -/
structure Block (α : Type) where
  cells : List α
  fits : cells.length < 2 ^ 64

/-- `strings[i]`; nothing is there behind the block. -/
def Block.get? {α : Type} (strings : Block α) (i : BitVec 64) : Option α := strings.cells[i.toNat]?

/-- What a pointer to characters stands for: the text before the first NUL. -/
def cStr (chars : String) : String := .ofList (chars.toList.takeWhile (· ≠ .ofNat 0))

theorem Block.lt_of_get? {α : Type} {strings : Block α} {i : BitVec 64} {a : α}
    (h : strings.get? i = some a) : i.toNat < strings.cells.length :=
  (List.getElem?_eq_some_iff.mp h).1

/-- An index into a block does not wrap around. -/
theorem Block.toNat_succ {α : Type} {strings : Block α} {i : BitVec 64} {a : α}
    (h : strings.get? i = some a) : (i + 1).toNat = i.toNat + 1 := by
  have hi := lt_of_get? h
  have hfits := strings.fits
  rw [BitVec.toNat_add, show (1 : BitVec 64).toNat = 1 from rfl]
  omega

/-- `for (; strings[count] != nullptr; ++count)`; the loop may run off the block. -/
def countPointers (strings : Block (Option String)) (count : BitVec 64) : Option (BitVec 64) :=
  match h : strings.get? count with
  | none => none
  | some none => some count
  | some (some _) => countPointers strings (count + 1)
termination_by strings.cells.length - count.toNat
decreasing_by
  have := Block.lt_of_get? h
  have := Block.toNat_succ h
  omega

section overloads
variable (jni : ArrayAnswers)

/-- `toStringArray(env, const std::vector<std::string>&)` -/
def toStringArrayOfVector (strings : Block String) : ArrayM (Option Ref) :=
  toStringArray jni (.ofNat 64 strings.cells.length) fun i => cStr ((strings.get? i).getD "")

/-- `toStringArray(env, const char* const*)`, unless its loop runs off the block. -/
def toStringArrayOfPointers (strings : Block (Option String)) : Option (ArrayM (Option Ref)) :=
  (countPointers strings 0).map fun count =>
    toStringArray jni count fun i => cStr ((strings.get? i).join.getD "")

/-- `toStringArray(env, Counter*, Getter*)` -/
def toStringArrayOfCounter (counter : BitVec 64) (getter : BitVec 64 → String) :
    ArrayM (Option Ref) :=
  toStringArray jni counter fun i => cStr (getter i)

end overloads

/-! ### Counting -/

theorem countPointers_of_get? (strings : Block (Option String)) (count : BitVec 64) :
    countPointers strings count = match strings.get? count with
      | none => none
      | some none => some count
      | some (some _) => countPointers strings (count + 1) := by
  rw [countPointers]
  split <;> simp only [*]

/-- The strings in front of the first null pointer. -/
def untilNull : List (Option String) → List String
  | some chars :: cells => chars :: untilNull cells
  | _ => []

theorem untilNull_terminated (strings : List String) (rest : List (Option String)) :
    untilNull (strings.map some ++ none :: rest) = strings := by
  induction strings with
  | nil => rfl
  | cons chars strings ih => exact congrArg (chars :: ·) ih

theorem terminated_of_mem {cells : List (Option String)} (h : none ∈ cells) :
    ∃ rest, cells = (untilNull cells).map some ++ none :: rest := by
  induction cells with
  | nil => cases h
  | cons cell cells ih =>
      cases cell with
      | none => exact ⟨cells, rfl⟩
      | some chars =>
          have h := (List.mem_cons.mp h).resolve_left (Option.some_ne_none chars).symm
          obtain ⟨rest, hrest⟩ := ih h
          exact ⟨rest, congrArg (some chars :: ·) hrest⟩

/-- **The loop stops at the first null pointer**, if there is one. -/
theorem countPointers_eq {strings : Block (Option String)} {count : BitVec 64}
    {cells : List (Option String)} (h : strings.cells.drop count.toNat = cells) :
    countPointers strings count =
      if none ∈ cells then some (.ofNat 64 (count.toNat + (untilNull cells).length)) else none := by
  induction cells generalizing count with
  | nil =>
      have hget : strings.get? count = none := by
        rw [Block.get?, ← List.head?_drop, h, List.head?_nil]
      rw [countPointers_of_get?, hget, if_neg List.not_mem_nil]
  | cons cell cells ih =>
      have hget : strings.get? count = some cell := by
        rw [Block.get?, ← List.head?_drop, h, List.head?_cons]
      rw [countPointers_of_get?, hget]
      cases cell with
      | none =>
          show some count = _
          rw [if_pos List.mem_cons_self, show untilNull (none :: cells) = [] from rfl,
            List.length_nil, Nat.add_zero, BitVec.ofNat_toNat, BitVec.setWidth_eq]
      | some chars =>
          have hsucc := Block.toNat_succ hget
          have hdrop : strings.cells.drop (count + 1).toNat = cells := by
            rw [hsucc, ← List.drop_drop, h, List.drop_one, List.tail_cons]
          have hmem : none ∈ some chars :: cells ↔ none ∈ cells := by
            rw [List.mem_cons, or_iff_right (Option.some_ne_none chars).symm]
          rw [if_congr hmem rfl rfl, untilNull, List.length_cons, ← Nat.add_assoc,
            Nat.add_right_comm, ← hsucc]
          exact ih hdrop

/-- The loop runs off the block if there is no null pointer. -/
theorem countPointers_eq_none_iff (strings : Block (Option String)) :
    countPointers strings 0 = none ↔ none ∉ strings.cells := by
  rw [@countPointers_eq strings 0 strings.cells rfl]
  split_ifs with h
  · exact iff_of_false (by rintro ⟨⟩) (not_not.mpr h)
  · exact iff_of_true rfl h

theorem countPointers_terminated {strings : List String} {rest : List (Option String)}
    (fits : (strings.map some ++ none :: rest).length < 2 ^ 64) :
    countPointers ⟨strings.map some ++ none :: rest, fits⟩ 0 = some (.ofNat 64 strings.length) := by
  rw [@countPointers_eq ⟨_, fits⟩ 0 (strings.map some ++ none :: rest) rfl,
    if_pos (List.mem_append_right _ List.mem_cons_self), untilNull_terminated]
  exact congrArg (fun n => some (BitVec.ofNat 64 n)) (Nat.zero_add _)

/-! ### The strings that are visited -/

section congr
variable {jni : ArrayAnswers} {visitor visitor' : BitVec 64 → String} {result : Ref}
  {count i : BitVec 64}

theorem fillElements_eq (visitor : BitVec 64 → String) :
    fillElements jni visitor result count i = if i < count then do
        if ← fillElement jni visitor result i then return true
        else fillElements jni visitor result count (i + 1)
      else return false := by
  rw [fillElements]
  by_cases hi : i < count
  · rw [dif_pos hi, if_pos hi]
  · rw [dif_neg hi, if_neg hi]

theorem fillElement_congr (h : visitor i = visitor' i) :
    fillElement jni visitor result i = fillElement jni visitor' result i := by
  have hc : callVisitor visitor i = callVisitor visitor' i := by
    unfold callVisitor
    rw [h]
  unfold fillElement
  rw [hc]

theorem fillElements_congr (h : ∀ j < count, visitor j = visitor' j) :
    fillElements jni visitor result count i = fillElements jni visitor' result count i := by
  obtain ⟨m, hm⟩ : ∃ m, count.toNat - i.toNat = m := ⟨_, rfl⟩
  induction m using Nat.strong_induction_on generalizing i with
  | _ m ih =>
      rw [fillElements_eq visitor, fillElements_eq visitor']
      by_cases hi : i < count
      · have hsucc := toNat_add_one hi
        have hlt := BitVec.lt_def.mp hi
        rw [if_pos hi, if_pos hi, fillElement_congr (h i hi), ih _ (by omega) rfl]
      · rw [if_neg hi, if_neg hi]

/-- Only the strings below the count matter. -/
theorem toStringArray_congr (h : ∀ j < count, visitor j = visitor' j) :
    toStringArray jni count visitor = toStringArray jni count visitor' := by
  unfold toStringArray
  simp only [fillElements_congr h]

end congr

/-- What follows the null pointer does not matter. -/
theorem toStringArrayOfPointers_terminated (jni : ArrayAnswers) (strings : Block String)
    {rest : List (Option String)}
    (fits : (strings.cells.map some ++ none :: rest).length < 2 ^ 64) :
    toStringArrayOfPointers jni ⟨strings.cells.map some ++ none :: rest, fits⟩ =
      some (toStringArrayOfVector jni strings) := by
  rw [toStringArrayOfPointers, countPointers_terminated, Option.map_some]
  refine congrArg some (toStringArray_congr fun i hi => ?_)
  have hlt : i.toNat < strings.cells.length := by
    have := BitVec.lt_def.mp hi
    rwa [BitVec.toNat_ofNat, Nat.mod_eq_of_lt strings.fits] at this
  have hget : (strings.cells.map some ++ none :: rest)[i.toNat]? =
      some (some strings.cells[i.toNat]) := by
    rw [List.getElem?_append_left (by rwa [List.length_map]), List.getElem?_map,
      List.getElem?_eq_getElem hlt, Option.map_some]
  rw [Block.get?, Block.get?, hget, List.getElem?_eq_getElem hlt]
  rfl

/-! ### What a call adds to the heap -/

/-- The heap `h` is kept: whatever is made comes after it. -/
def KeepsHeap {α : Type} (h : List HeapObject) (x : ArrayM α) : Prop :=
  ∀ s, h <+: s.heap → h <+: (x s).2.heap

section keeps
variable {α β : Type} {h : List HeapObject}

theorem keepsHeap_of_eq {x : ArrayM α} (hx : ∀ s, (x s).2.heap = s.heap) : KeepsHeap h x := by
  intro s hs
  rwa [hx s]

theorem KeepsHeap.bind {x : ArrayM α} {f : α → ArrayM β} (hx : KeepsHeap h x)
    (hf : ∀ a, KeepsHeap h (f a)) : KeepsHeap h (x >>= f) := by
  intro s hs
  have h₁ := hx s hs
  rw [ArrayM.bind_apply]
  generalize x s = r at h₁ ⊢
  obtain ⟨why | a, s₁⟩ := r
  · exact h₁
  · exact hf a s₁ h₁

theorem keepsHeap_pure (a : α) : KeepsHeap h (pure a) := keepsHeap_of_eq fun _ => rfl

theorem keepsHeap_withJni (x : JniM α) : KeepsHeap h (withJni x) := keepsHeap_of_eq fun _ => rfl

theorem keepsHeap_allocate (object : HeapObject) : KeepsHeap h (allocate object) := fun _ hs =>
  hs.trans (List.prefix_append _ _)

theorem KeepsHeap.inScope {body : ArrayM α} (hb : KeepsHeap h body) (localRef : Option Ref) :
    KeepsHeap h (inScope localRef body) := by
  refine hb.bind fun a => ?_
  cases localRef with
  | none => exact keepsHeap_pure a
  | some r => exact (keepsHeap_withJni _).bind fun _ => keepsHeap_pure a

variable {jni : ArrayAnswers} {visitor : BitVec 64 → String} {result : Ref} {count : BitVec 64}

theorem keepsHeap_newStringUTF (i : BitVec 64) (bytes : String) :
    KeepsHeap h (newStringUTF jni i bytes) := by
  unfold newStringUTF
  cases jni.newStringUTF i with
  | some exception => exact (keepsHeap_withJni _).bind fun _ => keepsHeap_pure _
  | none =>
      refine (keepsHeap_allocate _).bind fun string => ?_
      exact (keepsHeap_withJni _).bind fun _ => keepsHeap_pure _

/-- A store into an array that is newer than `h`. -/
theorem keepsHeap_setObjectArrayElement (hr : h.length ≤ result.object) (i : BitVec 64)
    (value : Option Ref) : KeepsHeap h (setObjectArrayElement jni result i value) := by
  intro s hs
  unfold setObjectArrayElement
  split
  · exact hs
  · cases jni.setObjectArrayElement i with
    | some exception => exact hs
    | none =>
        obtain ⟨new, hnew⟩ := hs
        show h <+: s.heap.set result.object _
        rw [← hnew, List.set_append_right _ _ hr]
        exact List.prefix_append _ _

theorem keepsHeap_fillElement (hr : h.length ≤ result.object) (i : BitVec 64) :
    KeepsHeap h (fillElement jni visitor result i) := by
  refine .bind (keepsHeap_of_eq fun _ => rfl) fun chars => ?_
  refine .bind (keepsHeap_newStringUTF i chars) fun s => .inScope ?_ s
  refine .bind (keepsHeap_withJni _) fun pending => ?_
  cases pending with
  | true => exact keepsHeap_pure true
  | false =>
      exact .bind (keepsHeap_setObjectArrayElement hr i s) fun _ => keepsHeap_withJni _

theorem keepsHeap_fillElements (hr : h.length ≤ result.object) (i : BitVec 64) :
    KeepsHeap h (fillElements jni visitor result count i) := by
  obtain ⟨m, hm⟩ : ∃ m, count.toNat - i.toNat = m := ⟨_, rfl⟩
  induction m using Nat.strong_induction_on generalizing i with
  | _ m ih =>
      rw [fillElements_eq]
      by_cases hi : i < count
      · have hsucc := toNat_add_one hi
        have hlt := BitVec.lt_def.mp hi
        rw [if_pos hi]
        refine .bind (keepsHeap_fillElement hr i) fun failed => ?_
        cases failed with
        | true => exact keepsHeap_pure true
        | false => exact ih _ (by omega) _ rfl
      · rw [if_neg hi]
        exact keepsHeap_pure false

end keeps

/-- The heap grew, and an array that is returned is new. -/
def Fresh (s : ArrayEnv) (r : Except JniConstants.Stop (Option Ref) × ArrayEnv) : Prop :=
  s.heap <+: r.2.heap ∧ ∀ array, r.1 = .ok (some array) → s.heap.length ≤ array.object

theorem newObjectArray_fresh (jni : ArrayAnswers) (length : BitVec 64)
    (clazz : Option JniConstants.JClass) (s : ArrayEnv) :
    Fresh s (newObjectArray jni length clazz s) := by
  unfold newObjectArray
  cases clazz with
  | none => exact ⟨List.prefix_refl _, by rintro _ ⟨⟩⟩
  | some klass =>
      dsimp only
      split_ifs
      · exact ⟨List.prefix_refl _, by rintro _ ⟨⟩⟩
      · cases jni.newObjectArray with
        | some exception => exact ⟨List.prefix_refl _, by rintro _ ⟨⟩⟩
        | none => exact ⟨List.prefix_append _ _, by rintro _ ⟨⟩; exact Nat.le_refl _⟩

theorem jniCreateStringArray_fresh (jni : ArrayAnswers) (count : BitVec 64) (s : ArrayEnv) :
    Fresh s (jniCreateStringArray jni count s) := by
  have hheap := (getStringClass_looksUp jni s).1.heap
  unfold jniCreateStringArray
  rw [ArrayM.bind_apply]
  generalize getStringClass jni s = r at hheap ⊢
  obtain ⟨why | klass, s₁⟩ := r
  · exact ⟨hheap ▸ List.prefix_refl _, by rintro _ ⟨⟩⟩
  · have h := newObjectArray_fresh jni count klass s₁
    rwa [Fresh, hheap] at h

theorem toStringArray_fresh (jni : ArrayAnswers) (count : BitVec 64)
    (visitor : BitVec 64 → String) (s : ArrayEnv) :
    Fresh s (toStringArray jni count visitor s) := by
  have hc := jniCreateStringArray_fresh jni count s
  unfold toStringArray
  rw [ArrayM.bind_apply]
  generalize jniCreateStringArray jni count s = r at hc ⊢
  obtain ⟨why | result, s₁⟩ := r
  · exact ⟨hc.1, by rintro _ ⟨⟩⟩
  cases result with
  | none => exact ⟨hc.1, by rintro _ ⟨⟩⟩
  | some result =>
      have hr := hc.2 result rfl
      have hf := @keepsHeap_fillElements _ jni visitor result count hr 0 s₁ hc.1
      dsimp only
      rw [ArrayM.bind_apply]
      generalize fillElements jni visitor result count 0 s₁ = r at hf ⊢
      obtain ⟨why | failed, s₂⟩ := r
      · exact ⟨hf, by rintro _ ⟨⟩⟩
      · cases failed with
        | true => exact ⟨hf, by rintro _ ⟨⟩⟩
        | false => exact ⟨hf, by rintro _ ⟨⟩; exact hr⟩

/-! ### Reading an array back -/

/-- The characters of a string object. -/
def stringOf (heap : List HeapObject) (object : JavaObject) : Option String :=
  match heap[object]? with
  | some (.string chars) => some chars
  | _ => none

/-- What the elements of an array say. -/
def stringsOf (heap : List HeapObject) (array : JavaObject) : Option (List (Option String)) :=
  match heap[array]? with
  | some (.array elements) => some (elements.map fun element => element.bind (stringOf heap))
  | _ => none

section read
variable {visitor : BitVec 64 → String} {count : BitVec 64} {heap heap' : List HeapObject}
  {array : JavaObject}

/-- The strings of a visitor. -/
def visitorStrings (visitor : BitVec 64 → String) (count : BitVec 64) : List String :=
  (List.range count.toNat).map fun i => visitor (.ofNat 64 i)

theorem IsStringArray.stringsOf_eq (h : IsStringArray visitor count heap array) :
    stringsOf heap array = some ((visitorStrings visitor count).map some) := by
  obtain ⟨elements, he, hlen, hstr⟩ := h
  rw [stringsOf, he, visitorStrings, List.map_map]
  refine congrArg some (List.ext_getElem (by simp [hlen]) fun i h₁ h₂ => ?_)
  rw [List.length_map, hlen] at h₁
  have hto : (BitVec.ofNat 64 i).toNat = i := by
    rw [BitVec.toNat_ofNat]
    omega
  obtain ⟨string, hs₁, hs₂⟩ := hstr (.ofNat 64 i) (by rwa [BitVec.lt_def, hto])
  rw [hto] at hs₁
  obtain ⟨hi, hs₁⟩ := List.getElem?_eq_some_iff.mp hs₁
  rw [List.getElem_map, List.getElem_map, List.getElem_range, hs₁, Option.bind_some, stringOf, hs₂]
  rfl

theorem getElem?_mono (hh : heap <+: heap') {object : JavaObject} {value : HeapObject}
    (h : heap[object]? = some value) : heap'[object]? = some value := by
  obtain ⟨new, rfl⟩ := hh
  rwa [List.getElem?_append_left (List.getElem?_eq_some_iff.mp h).1]

/-- What Java code can do to a heap: no object goes, and strings do not change. -/
structure HeapGrows (heap heap' : List HeapObject) : Prop where
  length_le : heap.length ≤ heap'.length
  strings : ∀ (object : JavaObject) (chars : String), heap[object]? = some (.string chars) →
    heap'[object]? = some (.string chars)

theorem HeapGrows.refl (heap : List HeapObject) : HeapGrows heap heap :=
  ⟨Nat.le_refl _, fun _ _ h => h⟩

theorem HeapGrows.trans {heap'' : List HeapObject} (h : HeapGrows heap heap')
    (h' : HeapGrows heap' heap'') : HeapGrows heap heap'' :=
  ⟨h.length_le.trans h'.length_le, fun object chars hs => h'.strings _ _ (h.strings object chars hs)⟩

theorem heapGrows_of_kept (hh : heap <+: heap') : HeapGrows heap heap' :=
  ⟨hh.length_le, fun _ _ h => getElem?_mono hh h⟩

theorem HeapGrows.stringOf (hh : HeapGrows heap heap') {object : JavaObject} {chars : String}
    (h : NativeHelper.stringOf heap object = some chars) :
    NativeHelper.stringOf heap' object = some chars := by
  unfold NativeHelper.stringOf at h ⊢
  split at h
  · rename_i hs
    rw [hh.strings _ _ hs]
    exact h
  · cases h

/-- Only a store into the array matters. -/
theorem HeapGrows.stringsOf (hh : HeapGrows heap heap') (hsame : heap'[array]? = heap[array]?)
    {strings : List String} (h : NativeHelper.stringsOf heap array = some (strings.map some)) :
    NativeHelper.stringsOf heap' array = some (strings.map some) := by
  unfold NativeHelper.stringsOf at h ⊢
  rw [hsame]
  split at h
  · rename_i elements _
    have h := Option.some.inj h
    rw [← h]
    refine congrArg some (List.map_congr_left fun element hmem => ?_)
    obtain ⟨chars, _, hc⟩ := List.mem_map.mp (h ▸ List.mem_map_of_mem hmem)
    obtain ⟨object, rfl, ho⟩ := Option.bind_eq_some_iff.mp hc.symm
    exact (hh.stringOf ho).trans ho.symm
  · cases h

end read

/-- What `toStringArray` returns holds the strings of the visitor. -/
theorem toStringArray_holds {jni : ArrayAnswers} {count : BitVec 64} {visitor : BitVec 64 → String}
    {s s' : ArrayEnv} {array : Ref}
    (h : toStringArray jni count visitor s = (.ok (some array), s')) :
    stringsOf s'.heap array.object = some ((visitorStrings visitor count).map some) := by
  have hrun := toStringArray_cases jni count visitor s
  rw [h] at hrun
  cases hrun with
  | returned hm hr hc hl =>
      have hstr := hl.strings rfl
      rw [hl.length_eq hc] at hstr
      exact hstr.isStringArray.stringsOf_eq

/-- **When an array is returned.** -/
theorem toStringArray_returned_iff (jni : ArrayAnswers) (count : BitVec 64)
    (visitor : BitVec 64 → String) (s : ArrayEnv) :
    (∃ array s', toStringArray jni count visitor s = (.ok (some array), s')) ↔
      ¬ StringClassMissing jni s.constants ∧ ¬ jni.Refuses count ∧
        (count = 0 ∨ s.jni.pending = none ∧ jni.ElementsSucceed count) := by
  have hrun := toStringArray_cases jni count visitor s
  generalize toStringArray jni count visitor s = r at hrun ⊢
  cases hrun with
  | stopped hm _ => exact iff_of_false (by rintro ⟨_, _, ⟨⟩⟩) fun h => h.1 hm
  | refused _ hr _ _ => exact iff_of_false (by rintro ⟨_, _, ⟨⟩⟩) fun h => h.2.1 hr
  | failed _ _ hc hl =>
      refine iff_of_false (by rintro ⟨_, _, ⟨⟩⟩) fun h => ?_
      exact Bool.noConfusion ((hl.failed_iff_succeed hc).mpr h.2.2)
  | returned hm hr hc hl =>
      exact iff_of_true ⟨_, _, rfl⟩ ⟨hm, hr, (hl.failed_iff_succeed hc).mp rfl⟩

/-- **The overloads fit together**: a block of pointers whose first null pointer follows the strings
is turned into the same array as a vector of the strings, and without a null pointer the loop runs
off the block.  An array is returned if and only if there is a class of strings, the VM makes the
array, and nothing is pending while the elements are made; no element is looked at if there is
none. -/
theorem toStringArray_overloads (jni : ArrayAnswers) (strings : Block String) (s : ArrayEnv) :
    (∀ (rest : List (Option String)) fits,
      toStringArrayOfPointers jni ⟨strings.cells.map some ++ none :: rest, fits⟩ =
        some (toStringArrayOfVector jni strings)) ∧
      (∀ pointers : Block (Option String),
        toStringArrayOfPointers jni pointers = none ↔ none ∉ pointers.cells) ∧
      ((∃ array s', toStringArrayOfVector jni strings s = (.ok (some array), s')) ↔
        ¬ StringClassMissing jni s.constants ∧ ¬ jni.Refuses (.ofNat 64 strings.cells.length) ∧
          (strings.cells = [] ∨
            s.jni.pending = none ∧ jni.ElementsSucceed (.ofNat 64 strings.cells.length))) := by
  refine ⟨fun rest fits => toStringArrayOfPointers_terminated jni strings fits,
    fun pointers => ?_, ?_⟩
  · rw [toStringArrayOfPointers, Option.map_eq_none_iff, countPointers_eq_none_iff]
  · have hzero : BitVec.ofNat 64 strings.cells.length = 0 ↔ strings.cells = [] := by
      rw [← BitVec.toNat_inj, BitVec.toNat_ofNat, Nat.mod_eq_of_lt strings.fits]
      exact List.length_eq_zero_iff
    rw [← hzero]
    exact toStringArray_returned_iff _ _ _ _

/-! ### Runs -/

/-- What the strings of an array are taken from. -/
inductive StringSource where
  | vector (strings : Block String)
  | pointers (strings : Block (Option String))
  | counter (count : BitVec 64) (getter : BitVec 64 → String)

/-- The overload for the source. -/
def StringSource.toStringArray (jni : ArrayAnswers) : StringSource → Option (ArrayM (Option Ref))
  | .vector strings => some (toStringArrayOfVector jni strings)
  | .pointers strings => toStringArrayOfPointers jni strings
  | .counter count getter => some (toStringArrayOfCounter jni count getter)

/-- The strings that were meant. -/
def StringSource.strings : StringSource → List String
  | .vector strings => strings.cells.map cStr
  | .pointers strings => (untilNull strings.cells).map cStr
  | .counter count getter => visitorStrings (fun i => cStr (getter i)) count

/-- Code between the calls: it does what it likes with the environment, the cached classes and the
heap, as far as Java lets it. -/
structure OtherCode where
  run : ArrayEnv → ArrayEnv
  grows : ∀ s, HeapGrows s.heap (run s).heap

/-- Calls of the environment that do not touch the heap. -/
def OtherCode.ofJni (x : JniM Unit) : OtherCode where
  run s := (withJni x s).2
  grows s := .refl s.heap

/-- A new object. -/
def OtherCode.allocate (object : HeapObject) : OtherCode where
  run s := { s with heap := s.heap ++ [object] }
  grows _ := heapGrows_of_kept (List.prefix_append _ _)

/-- What a thread does. -/
inductive ArrayAction where
  | make (jni : ArrayAnswers) (source : StringSource)
  | other (code : OtherCode)

/-- The result, unless the thread reads what is behind a block or the process stops. -/
def ArrayAction.step (s : ArrayEnv) : ArrayAction → Option (Option Ref × ArrayEnv)
  | .make jni source =>
      match source.toStringArray jni with
      | none => none
      | some program => match program s with
        | (.error _, _) => none
        | (.ok result, s') => some (result, s')
  | .other code => some (none, code.run s)

/-- Other code does not change the object. -/
def ArrayAction.Leaves (object : JavaObject) (s : ArrayEnv) : ArrayAction → Prop
  | .make _ _ => True
  | .other code => (code.run s).heap[object]? = s.heap[object]?

/-- In the whole run other code does not change the object.  For an object that is made in the run
this is about the time afterwards: before, there is nothing to change. -/
def LeftAlone (s : ArrayEnv) (actions : List ArrayAction) (object : JavaObject) : Prop :=
  Refinement.AllAllowed ArrayAction.step (ArrayAction.Leaves object) s actions

theorem visitorStrings_vector (strings : Block String) :
    visitorStrings (fun i => cStr ((strings.get? i).getD "")) (.ofNat 64 strings.cells.length) =
      strings.cells.map cStr := by
  have hfits := strings.fits
  rw [visitorStrings, BitVec.toNat_ofNat, Nat.mod_eq_of_lt hfits]
  refine List.ext_getElem (by simp) fun i h₁ h₂ => ?_
  rw [List.length_map] at h₂
  rw [List.getElem_map, List.getElem_map, List.getElem_range, Block.get?, BitVec.toNat_ofNat,
    Nat.mod_eq_of_lt (h₂.trans hfits), List.getElem?_eq_getElem h₂, Option.getD_some]

/-- Every overload is `toStringArray` for the strings that were meant. -/
theorem StringSource.toStringArray_eq {jni : ArrayAnswers} {source : StringSource}
    {program : ArrayM (Option Ref)} (h : source.toStringArray jni = some program) :
    ∃ count visitor, program = NativeHelper.toStringArray jni count visitor ∧
      visitorStrings visitor count = source.strings := by
  cases source with
  | vector strings =>
      obtain rfl := Option.some.inj h
      exact ⟨_, _, rfl, visitorStrings_vector strings⟩
  | counter counter getter =>
      obtain rfl := Option.some.inj h
      exact ⟨_, _, rfl, rfl⟩
  | pointers strings =>
      have hmem : none ∈ strings.cells := by
        by_contra hn
        rw [toStringArray, toStringArrayOfPointers, (countPointers_eq_none_iff strings).mpr hn] at h
        cases h
      obtain ⟨rest, hrest⟩ := terminated_of_mem hmem
      obtain ⟨cells, fits⟩ := strings
      -- the same as for a vector of these strings
      have hlen : (untilNull cells).length < 2 ^ 64 := by
        have hle := congrArg List.length hrest
        rw [List.length_append, List.length_map] at hle
        exact Nat.lt_of_le_of_lt (hle ▸ Nat.le_add_right _ _) fits
      have heq := @toStringArrayOfPointers_terminated jni ⟨untilNull cells, hlen⟩ rest
        (by rwa [← hrest])
      simp only [← hrest] at heq
      obtain rfl := Option.some.inj (heq.symm.trans h)
      exact ⟨_, _, rfl, visitorStrings_vector ⟨untilNull cells, hlen⟩⟩

/-- What an action returned in a heap of `first` objects: an array that was not there; if it is
`kept`, it has the strings that were meant. -/
def ReadsBack (first : ℕ) (kept : JavaObject → Prop) (heap : List HeapObject) (action : ArrayAction)
    (result : Option Ref) : Prop :=
  ∀ array, result = some array → first ≤ array.object ∧ array.object < heap.length ∧
    ∃ jni source, action = .make jni source ∧
      (kept array.object → stringsOf heap array.object = some (source.strings.map some))

theorem ReadsBack.mono {first first' : ℕ} {kept kept' : JavaObject → Prop}
    {heap heap' : List HeapObject} {action : ArrayAction} {result : Option Ref}
    (h : ReadsBack first kept heap action result) (hf : first' ≤ first) (hh : HeapGrows heap heap')
    (hkept : ∀ object < heap.length, kept' object →
      kept object ∧ heap'[object]? = heap[object]?) :
    ReadsBack first' kept' heap' action result := by
  intro array ha
  obtain ⟨hle, hlt, jni, source, hact, hs⟩ := h array ha
  refine ⟨hf.trans hle, Nat.lt_of_lt_of_le hlt hh.length_le, jni, source, hact, fun hk => ?_⟩
  obtain ⟨hk, hsame⟩ := hkept array.object hlt hk
  exact hh.stringsOf hsame (hs hk)

theorem le_of_readsBack {first : ℕ} {kept : JavaObject → Prop} {heap : List HeapObject}
    {actions : List ArrayAction} {results : List (Option Ref)}
    (h : List.Forall₂ (ReadsBack first kept heap) actions results) {array : Ref}
    (ha : array ∈ results.reduceOption) : first ≤ array.object := by
  rw [List.reduceOption_mem_iff] at ha
  induction h with
  | nil => cases ha
  | cons hr _ ih =>
      rcases List.mem_cons.mp ha with rfl | ha
      · exact (hr array rfl).1
      · exact ih ha

theorem lt_length_of_stringsOf {heap : List HeapObject} {array : JavaObject}
    {strings : List (Option String)} (h : stringsOf heap array = some strings) :
    array < heap.length := by
  unfold stringsOf at h
  split at h
  · rename_i he
    exact (List.getElem?_eq_some_iff.mp he).1
  · cases h

/-- **One action**: a call changes nothing that was there, and what it returns is new and reads
back. -/
theorem ArrayAction.step_readsBack {s s' : ArrayEnv} {action : ArrayAction} {result : Option Ref}
    (h : action.step s = some (result, s')) :
    HeapGrows s.heap s'.heap ∧
      (∀ object < s.heap.length, action.Leaves object s →
        s'.heap[object]? = s.heap[object]?) ∧
      ReadsBack s.heap.length (fun _ => True) s'.heap action result := by
  cases action with
  | other code =>
      cases h
      exact ⟨code.grows s, fun _ _ hl => hl, by rintro _ ⟨⟩⟩
  | make jni source =>
      rw [step] at h
      cases hp : source.toStringArray jni with
      | none =>
          rw [hp] at h
          cases h
      | some program =>
          obtain ⟨count, visitor, rfl, hv⟩ := StringSource.toStringArray_eq hp
          have hfresh := toStringArray_fresh jni count visitor s
          have hholds := @toStringArray_holds jni count visitor s
          rw [hp] at h
          dsimp only at h
          generalize toStringArray jni count visitor s = r at h hfresh hholds
          obtain ⟨why | result', s₁⟩ := r
          · cases h
          · cases h
            refine ⟨heapGrows_of_kept hfresh.1, fun object hlt _ => ?_, ?_⟩
            · rw [List.getElem?_eq_getElem hlt]
              exact getElem?_mono hfresh.1 (List.getElem?_eq_getElem hlt)
            · rintro array rfl
              have hreads := hholds rfl
              rw [hv] at hreads
              exact ⟨hfresh.2 array rfl, lt_length_of_stringsOf hreads, jni, source, rfl,
                fun _ => hreads⟩

/-- A run, with what Java lets other code do. -/
theorem play_readsBack {s s' : ArrayEnv} {actions : List ArrayAction} {results : List (Option Ref)}
    (h : Refinement.play ArrayAction.step s actions = some (results, s')) :
    HeapGrows s.heap s'.heap ∧
      (∀ object < s.heap.length, LeftAlone s actions object →
        s'.heap[object]? = s.heap[object]?) ∧
      (results.reduceOption.map Ref.object).Pairwise (· < ·) ∧
      List.Forall₂ (ReadsBack s.heap.length (LeftAlone s actions) s'.heap) actions results := by
  induction actions generalizing s results with
  | nil =>
      cases h
      exact ⟨.refl _, fun _ _ _ => rfl, .nil, .nil⟩
  | cons action actions ih =>
      rw [Refinement.play] at h
      obtain ⟨⟨result, s₁⟩, hstep, h⟩ := Option.bind_eq_some_iff.mp h
      obtain ⟨⟨results, s₂⟩, hrest, h⟩ := Option.map_eq_some_iff.mp h
      cases h
      obtain ⟨hgrows, hsame, hread⟩ := ArrayAction.step_readsBack hstep
      obtain ⟨hgrows', hsame', hlt, hreads⟩ := ih hrest
      have hleft : ∀ object, LeftAlone s (action :: actions) object →
          LeftAlone s₁ actions object := fun object hl => hl.2 result s₁ hstep
      refine ⟨hgrows.trans hgrows', fun object ho hl => ?_, ?_, .cons ?_ ?_⟩
      · have ho₁ := Nat.lt_of_lt_of_le ho hgrows.length_le
        exact (hsame' object ho₁ (hleft object hl)).trans (hsame object ho hl.1)
      · cases result with
        | none => exact hlt
        | some array =>
            -- what is made later comes after the heap of this step
            refine List.pairwise_cons.mpr ⟨fun object ho => ?_, hlt⟩
            obtain ⟨later, hl, rfl⟩ := List.mem_map.mp ho
            exact Nat.lt_of_lt_of_le (hread array rfl).2.1 (le_of_readsBack hreads hl)
      · exact hread.mono (Nat.le_refl _) hgrows' fun object ho hl =>
          ⟨trivial, hsame' object ho (hleft object hl)⟩
      · exact hreads.imp fun _ _ hr =>
          hr.mono hgrows.length_le (.refl _) fun object _ hl => ⟨hleft object hl, rfl⟩

/-- **A run**: what was in the heap is changed by other code only, every array that a call returned
is an object of its own, and at the end it still holds the strings that were meant, unless other code
stored something into it. -/
theorem stringArrays_run {s s' : ArrayEnv} {actions : List ArrayAction}
    {results : List (Option Ref)}
    (h : Refinement.play ArrayAction.step s actions = some (results, s')) :
    (∀ object < s.heap.length, LeftAlone s actions object →
        s'.heap[object]? = s.heap[object]?) ∧
      (results.reduceOption.map Ref.object).Pairwise (· < ·) ∧
      List.Forall₂ (ReadsBack s.heap.length (LeftAlone s actions) s'.heap) actions results :=
  (play_readsBack h).2

/-- The second string has a NUL in it. -/
def twoStrings : Block String := ⟨["a", "b\x00c"], by decide⟩

/-- Other code clears a pending exception and makes an array of its own. -/
theorem stringArrays_run_two : ∃ array s',
    Refinement.play ArrayAction.step freshArrayEnv
      [.make (answersWith fun _ => none) (.vector twoStrings), .other (.ofJni exceptionClear),
        .other (.allocate (.array [none]))] = some ([some array, none, none], s') ∧
    stringsOf s'.heap array.object = some [some "a", some "b"] := by
  obtain ⟨array, s₁, h₁⟩ := (toStringArray_returned_iff (answersWith fun _ => none) 2
    (fun i => cStr ((twoStrings.get? i).getD "")) freshArrayEnv).mpr
      ⟨answersWith_found _, answersWith_accepts (by decide) _,
        .inr ⟨rfl, by decide, fun _ _ => ⟨rfl, rfl⟩⟩⟩
  have hstep : ArrayAction.step freshArrayEnv
      (.make (answersWith fun _ => none) (.vector twoStrings)) = some (some array, s₁) := by
    rw [ArrayAction.step, StringSource.toStringArray]
    dsimp only
    rw [toStringArrayOfVector, show BitVec.ofNat 64 twoStrings.cells.length = 2 from rfl, h₁]
  have hplay : Refinement.play ArrayAction.step freshArrayEnv
      [.make (answersWith fun _ => none) (.vector twoStrings), .other (.ofJni exceptionClear),
        .other (.allocate (.array [none]))] = some ([some array, none, none],
          (OtherCode.allocate (.array [none])).run ((OtherCode.ofJni exceptionClear).run s₁)) := by
    rw [Refinement.play, hstep]
    rfl
  have hlt := lt_length_of_stringsOf (toStringArray_holds h₁)
  have hleft : LeftAlone freshArrayEnv
      [.make (answersWith fun _ => none) (.vector twoStrings), .other (.ofJni exceptionClear),
        .other (.allocate (.array [none]))] array.object := by
    refine ⟨trivial, fun b s hs => ?_⟩
    cases hstep.symm.trans hs
    refine ⟨rfl, ?_⟩
    rintro _ _ ⟨⟩
    exact ⟨List.getElem?_append_left hlt, fun _ _ _ => trivial⟩
  obtain ⟨-, -, hreads⟩ := stringArrays_run hplay
  refine ⟨array, _, hplay, ?_⟩
  cases hreads with
  | cons hr _ =>
      obtain ⟨-, -, _, _, ⟨⟩, hs⟩ := hr array rfl
      exact (hs hleft).trans (by decide)

end NativeHelper
