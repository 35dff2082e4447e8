import NativeHelper.JavaArrays

/-! # Scoped bytes

`ScopedBytes` gives access to the bytes of an array, through `GetByteArrayElements`, or of a direct
buffer, through its address.  Its destructor gives the elements back if `mByteArray` is set, which
the constructor does before it has them.

`scopedBytes_release_iff`: over its life the object releases what it obtained, and leaves the
arrays as it should, whether the VM pins or copies them, unless the object is a byte array whose
elements the VM cannot hand out; then it releases the null pointer. -/

namespace NativeHelper

/-- The objects that are passed: a byte array, or a buffer, which may be direct. -/
inductive BytesObject (A : Type) where
  | byteArray (array : A)
  | buffer (direct : Bool)
deriving DecidableEq, Repr

/-- The fields. -/
structure ScopedBytes (A : Type) where
  mObject : Option (BytesObject A)
  mByteArray : Option A
  mPtr : RawArray
deriving DecidableEq, Repr

namespace ScopedBytes

variable {A V : Type}

/-! ### The calls -/

/-- How the VM answers: whether `IsInstanceOf` tells a byte array from other objects (it cannot
without the class), and what `GetByteArrayElements` returns: `NULL`, a copy, or the array itself. -/
structure Answers where
  isInstanceOf : Bool
  getByteArrayElements : Option Bool
deriving DecidableEq, Repr

/-- The byte array, if `IsInstanceOf` says that the object is one. -/
def isInstanceOf (answers : Answers) : BytesObject A → Option A
  | .byteArray array => if answers.isInstanceOf then some array else none
  | .buffer _ => none

/-- `GetDirectBufferAddress`. -/
def getDirectBufferAddress : BytesObject A → RawArray
  | .byteArray _ => .null
  | .buffer direct => if direct then .buffer else .null

theorem getDirectBufferAddress_cases (obj : BytesObject A) :
    getDirectBufferAddress obj = .null ∨ getDirectBufferAddress obj = .buffer := by
  cases obj with
  | byteArray array => exact .inl rfl
  | buffer direct =>
      cases direct with
      | false => exact .inl rfl
      | true => exact .inr rfl

/-! ### The methods -/

/-- The constructor. -/
def construct (object : Option (BytesObject A)) (answers : Answers) (vm : ArrayVm A V) :
    ScopedBytes A × ArrayVm A V :=
  match object with
  | none => (⟨object, none, .null⟩, vm.call .throwNullPointerException)
  | some obj =>
      let vm := (vm.call (.findClass "[B")).call .isInstanceOf
      match isInstanceOf answers obj with
      | some array =>
          let (mPtr, vm) := vm.getArrayElements array answers.getByteArrayElements
          (⟨object, some array, mPtr⟩, vm.call .deleteLocalRef)
      | none =>
          (⟨object, none, getDirectBufferAddress obj⟩,
            (vm.call .getDirectBufferAddress).call .deleteLocalRef)

/-- The mode in which `ScopedBytes<readOnly>` releases. -/
def releaseMode (readOnly : Bool) : ReleaseMode := if readOnly then .abort else .copyBack

/-- The destructor of `ScopedBytes<readOnly>`. -/
def destructor [DecidableEq A] (readOnly : Bool) (obj : ScopedBytes A) (vm : ArrayVm A V) :
    ArrayVm A V :=
  if obj.mByteArray.isSome then
    vm.releaseArrayElements obj.mByteArray obj.mPtr (releaseMode readOnly)
  else vm

/-- `get()[n] = v`, which the pointer to constants of the read-only class does not allow; the memory
of a direct buffer is not part of an array. -/
def put [DecidableEq A] (readOnly : Bool) (obj : ScopedBytes A) (vm : ArrayVm A V) (w : ℕ × V) :
    Option (ArrayVm A V) :=
  if readOnly then none
  else
    match obj.mPtr with
    | .buffer => some vm
    | .null | .elements _ => vm.store obj.mPtr w.1 w.2

/-- The life of an object through which `writes` are made. -/
def life [DecidableEq A] (readOnly : Bool) (object : Option (BytesObject A)) (answers : Answers)
    (writes : List (ℕ × V)) (vm : ArrayVm A V) : Option (ArrayVm A V) := do
  let (obj, vm) := construct object answers vm
  let vm ← writes.foldlM (obj.put readOnly) vm
  some (obj.destructor readOnly vm)

/-! ### Writing through the pointer -/

/-- The bytes after the writes. -/
def stored (writes : List (ℕ × V)) (bytes : List V) : List V :=
  writes.foldl (fun bytes w => bytes.set w.1 w.2) bytes

section put
variable [DecidableEq A] {readOnly : Bool} {obj : ScopedBytes A} {vm vm' : ArrayVm A V}
  {writes : List (ℕ × V)}

/-- Where nothing can be stored nothing was. -/
theorem puts_eq_nil (hno : ∀ w, obj.put readOnly vm w = none)
    (h : writes.foldlM (obj.put readOnly) vm = some vm') : writes = [] ∧ vm' = vm := by
  cases writes with
  | nil =>
      cases h
      exact ⟨rfl, rfl⟩
  | cons w writes =>
      rw [List.foldlM_cons, hno w] at h
      cases h

theorem puts_readOnly (h : writes.foldlM (obj.put true) vm = some vm') :
    writes = [] ∧ vm' = vm :=
  puts_eq_nil (fun _ => rfl) h

theorem puts_null (hp : obj.mPtr = .null) (h : writes.foldlM (obj.put readOnly) vm = some vm') :
    writes = [] ∧ vm' = vm := by
  refine puts_eq_nil (fun w => ?_) h
  rw [put, hp]
  exact ite_self none

theorem puts_other (hp : obj.mPtr = .null ∨ obj.mPtr = .buffer)
    (h : writes.foldlM (obj.put readOnly) vm = some vm') : vm' = vm := by
  cases readOnly with
  | true => exact (puts_readOnly h).2
  | false =>
      rcases hp with hp | hp
      · exact (puts_null hp h).2
      · induction writes with
        | nil =>
            cases h
            rfl
        | cons w writes ih =>
            have hw : obj.put false vm w = some vm := by simp only [put, hp]; rfl
            rw [List.foldlM_cons, hw] at h
            exact ih h

/-- What the writes do to the elements that the object has. -/
structure Puts (vm vm' : ArrayVm A V) (a : A) (p : ℕ) (writes : List (ℕ × V)) : Prop where
  calls : vm'.calls = vm.calls
  shown : vm'.shown a p = stored writes (vm.shown a p)
  others : ∀ b, b ≠ a → vm'.contents b = vm.contents b

theorem puts_elements {a : A} {p : ℕ} {view : Windows.View V} (hp : obj.mPtr = .elements p)
    (hview : vm.elements p = some (a, view))
    (h : writes.foldlM (obj.put false) vm = some vm') : Puts vm vm' a p writes := by
  induction writes generalizing vm view with
  | nil =>
      cases h
      exact ⟨rfl, rfl, fun _ _ => rfl⟩
  | cons w writes ih =>
      rw [List.foldlM_cons] at h
      obtain ⟨vm₁, h₁, h₂⟩ := Option.bind_eq_some_iff.mp h
      have hput : obj.put false vm w = vm.store (.elements p) w.1 w.2 := by
        simp only [put, hp]
        rfl
      rw [hput] at h₁
      have hstored := ArrayVm.stored_of_store hview h₁
      obtain ⟨view₁, hview₁⟩ := hstored.handedOut
      have hputs := ih hview₁ h₂
      refine ⟨hputs.calls.trans hstored.calls, ?_, fun b hb =>
        (hputs.others b hb).trans (hstored.others b hb)⟩
      rw [hputs.shown, hstored.shown]
      rfl

end put

/-! ### The life of an object -/

section life
variable [DecidableEq A]

/-- What an object is to do in its life: release what it obtained, and leave each array as it was
or, if it is read-write and the array is the object, with the bytes that were written. -/
def Proper (readOnly : Bool) (object : Option (BytesObject A)) (contents : A → List V)
    (writes : List (ℕ × V)) (vm : ArrayVm A V) : Prop :=
  ReleasedOnce (releaseMode readOnly) vm.calls ∧
    ∀ a, vm.contents a =
      if readOnly = false ∧ object = some (.byteArray a) then stored writes (contents a)
      else contents a

/-- The elements of a byte array cannot be handed out. -/
def Fails (object : Option (BytesObject A)) (answers : Answers) : Prop :=
  (∃ a, object = some (.byteArray a)) ∧ answers.isInstanceOf = true ∧
    answers.getByteArrayElements = none

variable {readOnly : Bool} {object : Option (BytesObject A)} {answers : Answers}
  {contents : A → List V} {writes : List (ℕ × V)} {vm : ArrayVm A V}

theorem life_eq_some {vm₀ : ArrayVm A V} (h : life readOnly object answers writes vm₀ = some vm) :
    ∃ vm₁, writes.foldlM ((construct object answers vm₀).1.put readOnly)
        (construct object answers vm₀).2 = some vm₁ ∧
      vm = (construct object answers vm₀).1.destructor readOnly vm₁ := by
  obtain ⟨vm₁, h₁, h₂⟩ := Option.bind_eq_some_iff.mp h
  exact ⟨vm₁, h₁, (Option.some.inj h₂).symm⟩

omit [DecidableEq A] in
/-- The constructor, when `IsInstanceOf` says no. -/
theorem construct_other {obj : BytesObject A} (hno : isInstanceOf answers obj = none)
    (vm₀ : ArrayVm A V) : construct (some obj) answers vm₀ =
      (⟨some obj, none, getDirectBufferAddress obj⟩, (((vm₀.call (.findClass "[B")).call
        .isInstanceOf).call .getDirectBufferAddress).call .deleteLocalRef) := by
  unfold construct
  simp only [hno]

/-- Calls among which none is about elements are in order. -/
theorem releasedOnce_other {mode : ReleaseMode} {calls : List (ArrayCall A)}
    (h : ∀ e ∈ calls, ∃ c, e = .other c) : ReleasedOnce mode calls := by
  constructor
  · intro a p he
    obtain ⟨c, hc⟩ := h _ he
    cases hc
  · intro array ptr mode' he
    obtain ⟨c, hc⟩ := h _ he
    cases hc

/-- An object that is not found to be a byte array: nothing can be written through its pointer, or
only to a direct buffer. -/
theorem life_other {obj : BytesObject A} (hno : isInstanceOf answers obj = none)
    (h : life readOnly (some obj) answers writes (.initial contents) = some vm) :
    Proper readOnly (some obj) contents writes vm := by
  obtain ⟨vm₁, h₁, rfl⟩ := life_eq_some h
  rw [construct_other hno] at h₁ ⊢
  -- the constructor has called for nothing but the class and the address
  have hcalls : ∀ e ∈ ((((ArrayVm.initial contents).call (.findClass "[B")).call
      .isInstanceOf).call .getDirectBufferAddress |>.call .deleteLocalRef).calls,
      ∃ c, e = .other c := by
    intro e he
    simp only [ArrayVm.call, ArrayVm.initial, List.nil_append, List.mem_append,
      List.mem_singleton] at he
    rcases he with ((he | he) | he) | he <;> exact ⟨_, he⟩
  cases obj with
  | byteArray array =>
      obtain ⟨rfl, rfl⟩ := puts_null rfl h₁
      refine ⟨releasedOnce_other hcalls, fun a => ?_⟩
      exact (ite_self _).symm
  | buffer direct =>
      rw [puts_other (getDirectBufferAddress_cases (A := A) (.buffer direct)) h₁]
      refine ⟨releasedOnce_other hcalls, fun a => (if_neg fun hc => ?_).symm⟩
      cases hc.2

theorem life_null (h : life readOnly none answers writes (.initial contents) = some vm) :
    Proper readOnly none contents writes vm := by
  obtain ⟨vm₁, h₁, rfl⟩ := life_eq_some h
  obtain ⟨rfl, rfl⟩ := puts_null rfl h₁
  refine ⟨releasedOnce_other ?_, fun a => (if_neg fun hc => ?_).symm⟩
  · intro e he
    exact ⟨_, List.mem_singleton.mp he⟩
  · cases hc.2

/-- The calls of an object whose elements come. -/
theorem releasedOnce_elements (mode : ReleaseMode) (a : A) :
    ReleasedOnce mode ([.other (.findClass "[B"), .other .isInstanceOf,
      .getArrayElements a (some 0), .other .deleteLocalRef,
      .releaseArrayElements (some a) (.elements 0) mode] : List (ArrayCall A)) := by
  constructor
  · intro b p he
    simp only [List.mem_cons, List.not_mem_nil, reduceCtorEq, false_or, or_false,
      ArrayCall.getArrayElements.injEq, Option.some.injEq] at he
    obtain ⟨rfl, rfl⟩ := he
    simp
  · intro array ptr mode' he
    simp only [List.mem_cons, List.not_mem_nil, reduceCtorEq, false_or, or_false,
      ArrayCall.releaseArrayElements.injEq] at he
    obtain ⟨rfl, rfl, rfl⟩ := he
    exact ⟨rfl, a, 0, rfl, rfl, by simp⟩

/-- The elements of the array come, copied or not, and go back at the end. -/
theorem life_with_elements {a : A} {isCopy : Bool}
    (h : life readOnly (some (.byteArray a)) ⟨true, some isCopy⟩ writes (.initial contents) =
      some vm) : Proper readOnly (some (.byteArray a)) contents writes vm := by
  obtain ⟨vm₁, h₁, rfl⟩ := life_eq_some h
  have hp : (construct (some (.byteArray a)) ⟨true, some isCopy⟩ (ArrayVm.initial contents)).1.mPtr =
      .elements 0 := rfl
  cases readOnly with
  | true =>
      obtain ⟨rfl, rfl⟩ := puts_readOnly h₁
      exact ⟨releasedOnce_elements .abort a, fun b => (if_neg fun hc => Bool.noConfusion hc.1).symm⟩
  | false =>
      have hview : (construct (some (.byteArray a)) ⟨true, some isCopy⟩
          (ArrayVm.initial contents)).2.elements 0 =
            some (a, if isCopy then .copy (contents a) else .direct) := rfl
      have hputs := puts_elements hp hview h₁
      have hshown : (construct (some (.byteArray a)) ⟨true, some isCopy⟩
          (ArrayVm.initial contents)).2.shown a 0 = contents a :=
        ((ArrayVm.initial contents).call (.findClass "[B") |>.call .isInstanceOf
          |>.shown_getArrayElements a isCopy)
      constructor
      · show ReleasedOnce .copyBack (vm₁.calls ++
          [.releaseArrayElements (some a) (.elements 0) .copyBack])
        rw [hputs.calls]
        exact releasedOnce_elements .copyBack a
      · intro b
        show Function.update vm₁.contents a (vm₁.shown a 0) b = _
        by_cases hb : b = a
        · rw [hb, Function.update_self, if_pos ⟨rfl, rfl⟩, hputs.shown, hshown]
        · rw [Function.update_of_ne hb, hputs.others b hb, if_neg]
          · rfl
          · rintro ⟨-, hc⟩
            cases hc
            exact hb rfl

/-- The null pointer is released. -/
theorem not_proper_of_fails {a : A}
    (h : life readOnly (some (.byteArray a)) ⟨true, none⟩ writes (.initial contents) = some vm) :
    ¬ Proper readOnly (some (.byteArray a)) contents writes vm := by
  obtain ⟨vm₁, h₁, rfl⟩ := life_eq_some h
  obtain ⟨rfl, rfl⟩ := puts_null rfl h₁
  rintro ⟨⟨-, hrelease⟩, -⟩
  obtain ⟨-, b, p, -, hp, -⟩ := hrelease (some a) .null (releaseMode readOnly)
    (List.mem_append_right _ List.mem_cons_self)
  cases hp

/-- **An object releases the elements it obtained, exactly once, and leaves the arrays as it is to,
if and only if it is not a byte array whose elements the VM fails to hand out.** -/
theorem scopedBytes_release_iff (readOnly : Bool) (object : Option (BytesObject A))
    (answers : Answers) (contents : A → List V) (writes : List (ℕ × V)) (vm : ArrayVm A V)
    (h : life readOnly object answers writes (.initial contents) = some vm) :
    Proper readOnly object contents writes vm ↔ ¬ Fails object answers := by
  cases object with
  | none =>
      refine iff_of_true (life_null h) ?_
      rintro ⟨⟨a, ha⟩, -⟩
      cases ha
  | some obj =>
      cases hobj : isInstanceOf answers obj with
      | none =>
          refine iff_of_true (life_other hobj h) ?_
          rintro ⟨⟨a, ha⟩, his, -⟩
          cases ha
          rw [isInstanceOf, if_pos his] at hobj
          cases hobj
      | some array =>
          obtain ⟨is, get⟩ := answers
          cases obj with
          | buffer direct => cases hobj
          | byteArray a =>
              cases is with
              | false => cases hobj
              | true =>
                  cases get with
                  | some isCopy =>
                      refine iff_of_true (life_with_elements h) ?_
                      rintro ⟨-, -, hget⟩
                      cases hget
                  | none =>
                      refine iff_of_false (not_proper_of_fails h) (not_not.mpr ?_)
                      exact ⟨⟨a, rfl⟩, rfl, rfl⟩

/-- The bytes of an array, one of them changed. -/
theorem scopedBytes_release_written :
    ∃ vm, life false (some (.byteArray ())) ⟨true, some true⟩ [(1, 9)] (.initial fun _ => [4, 5]) =
        some vm ∧ vm.contents () = [4, 9] ∧
      Proper false (some (.byteArray ())) (fun _ => [4, 5]) [(1, 9)] vm := by
  refine ⟨_, rfl, rfl, (scopedBytes_release_iff false (some (.byteArray ())) ⟨true, some true⟩
    (fun _ => [4, 5]) [(1, 9)] _ rfl).mpr ?_⟩
  rintro ⟨-, -, hget⟩
  cases hget

/-- The elements do not come, and null is released. -/
theorem scopedBytes_releases_null :
    ∃ vm, life true (some (.byteArray ())) ⟨true, none⟩ [] (.initial fun _ => [4, 5]) = some vm ∧
      vm.calls = [.other (.findClass "[B"), .other .isInstanceOf, .getArrayElements () none,
        .other .deleteLocalRef, .releaseArrayElements (some ()) .null .abort] ∧
      ¬ Proper true (some (.byteArray ())) (fun _ => [4, 5]) [] vm :=
  ⟨_, rfl, rfl, not_proper_of_fails rfl⟩

end life

end ScopedBytes
end NativeHelper
