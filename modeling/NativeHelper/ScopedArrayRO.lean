import NativeHelper.JavaArrays
import NativeHelper.OwnerRuns

/-! # The read-only primitive array wrappers

`Scoped<T>ArrayRO` copies an array of up to 1024 elements into its own buffer and has the VM hand
out the elements of a longer one.  `reset` changes to another array, and neither gives back the
elements it had nor looks whether the VM handed out any.

* `released_iff`: every pointer is given back exactly once if and only if no `reset` found one in
  the object.
* `readable_iff`: in every state of a run every index below `size()` reads the element that the
  array had when it was given to the object, if and only if the VM handed out the elements of each
  array that is longer than the buffer and Java code changed no array while the object had it
  pinned. -/

namespace NativeHelper

/-- The fields; elements of the buffer that were never written are `none`. -/
structure ScopedArrayRO (A V : Type) where
  mJavaArray : Option A
  mRawArray : RawArray
  mSize : ℕ
  mBuffer : List (Option V)
deriving DecidableEq, Repr

namespace ScopedArrayRO

open Transition

variable {A V : Type}

/-! ### The methods -/

/-- `buffer_size`. -/
def bufferSize : ℕ := 1024

/-- The constructor without an array. -/
def constructEmpty : ScopedArrayRO A V := ⟨none, .null, 0, List.replicate bufferSize none⟩

/-- `reset`; `answer` is that of `Get<T>ArrayElements`, if it is called. -/
def reset (obj : ScopedArrayRO A V) (javaArray : A) (answer : Option Bool) (vm : ArrayVm A V) :
    ScopedArrayRO A V × ArrayVm A V :=
  let mSize := vm.getArrayLength javaArray
  if mSize ≤ bufferSize then
    ({ mJavaArray := some javaArray
       mSize := mSize
       mBuffer := vm.getArrayRegion javaArray 0 mSize obj.mBuffer
       mRawArray := .buffer }, vm)
  else
    let (mRawArray, vm) := vm.getArrayElements javaArray answer
    ({ obj with mJavaArray := some javaArray, mSize := mSize, mRawArray := mRawArray }, vm)

/-- The constructor from an array, which sets all fields or resets them. -/
def construct (javaArray : Option A) (answer : Option Bool) (vm : ArrayVm A V) :
    ScopedArrayRO A V × ArrayVm A V :=
  match javaArray with
  | none => (constructEmpty, vm.call .throwNullPointerException)
  | some javaArray => reset constructEmpty javaArray answer vm

/-- The destructor. -/
def destructor [DecidableEq A] (obj : ScopedArrayRO A V) (vm : ArrayVm A V) : ArrayVm A V :=
  if obj.mRawArray ≠ .null ∧ obj.mRawArray ≠ .buffer then
    vm.releaseArrayElements obj.mJavaArray obj.mRawArray .abort
  else vm

/-- `operator[]`: `mRawArray[n]`, where there is such an element. -/
def index (obj : ScopedArrayRO A V) (vm : ArrayVm A V) (n : ℕ) : Option V :=
  match obj.mRawArray with
  | .buffer => (obj.mBuffer[n]?).join
  | .null | .elements _ => vm.load obj.mRawArray n

/-- `get()`. -/
def get (obj : ScopedArrayRO A V) : RawArray := obj.mRawArray

/-- `size()`. -/
def size (obj : ScopedArrayRO A V) : ℕ := obj.mSize

/-! ### The life of an object -/

/-- The VM, the object while it is alive, and the elements of the array last given to it, as they
were then. -/
structure State (A V : Type) where
  vm : ArrayVm A V
  object : Option (ScopedArrayRO A V)
  given : List V

/-- What is done with the object, and what Java code does with the arrays. -/
inductive Action (A V : Type) where
  | constructEmpty
  | construct (javaArray : Option A) (answer : Option Bool)
  | reset (javaArray : A) (answer : Option Bool)
  | read (n : ℕ)
  | javaWrite (array : A) (n : ℕ) (v : V)
  | destroy
deriving DecidableEq, Repr

def initial (contents : A → List V) : State A V := ⟨.initial contents, none, []⟩

variable [DecidableEq A]

/-- One action; only a live object is used. -/
def step (s : State A V) : Action A V → Option (State A V)
  | .constructEmpty =>
      if s.object.isNone then some { s with object := some constructEmpty, given := [] } else none
  | .construct javaArray answer =>
      if s.object.isNone then
        let (obj, vm) := construct javaArray answer s.vm
        some ⟨vm, some obj, (javaArray.map s.vm.contents).getD []⟩
      else none
  | .reset javaArray answer => do
      let obj ← s.object
      let (obj, vm) := obj.reset javaArray answer s.vm
      some ⟨vm, some obj, s.vm.contents javaArray⟩
  | .read n => do
      let obj ← s.object
      let _ ← obj.index s.vm n
      some s
  | .javaWrite array n v => some { s with vm := s.vm.javaWrite array n v }
  | .destroy => do
      let obj ← s.object
      some { s with vm := obj.destructor s.vm, object := none }

/-- What a completed action has done. -/
inductive Step (s : State A V) : Action A V → State A V → Prop
  | constructEmpty (h : s.object = none) :
      Step s .constructEmpty { s with object := some ScopedArrayRO.constructEmpty, given := [] }
  | constructNull (h : s.object = none) (answer : Option Bool) :
      Step s (.construct none answer)
        ⟨s.vm.call .throwNullPointerException, some ScopedArrayRO.constructEmpty, []⟩
  | construct (h : s.object = none) (javaArray : A) (answer : Option Bool) :
      Step s (.construct (some javaArray) answer)
        ⟨(ScopedArrayRO.constructEmpty.reset javaArray answer s.vm).2,
          some (ScopedArrayRO.constructEmpty.reset javaArray answer s.vm).1,
          s.vm.contents javaArray⟩
  | reset {obj : ScopedArrayRO A V} (h : s.object = some obj) (javaArray : A) (answer : Option Bool) :
      Step s (.reset javaArray answer)
        ⟨(obj.reset javaArray answer s.vm).2, some (obj.reset javaArray answer s.vm).1,
          s.vm.contents javaArray⟩
  | read (n : ℕ) : Step s (.read n) s
  | javaWrite (array : A) (n : ℕ) (v : V) :
      Step s (.javaWrite array n v) { s with vm := s.vm.javaWrite array n v }
  | destroy {obj : ScopedArrayRO A V} (h : s.object = some obj) :
      Step s .destroy { s with vm := obj.destructor s.vm, object := none }

theorem step_cases {s s' : State A V} {a : Action A V} (hst : step s a = some s') :
    Step s a s' := by
  cases a with
  | constructEmpty =>
      rw [step] at hst
      by_cases h : s.object = none
      · rw [h, Option.isNone_none, if_pos rfl, Option.some.injEq] at hst
        exact hst ▸ .constructEmpty h
      · rw [if_neg (by rwa [Option.isNone_iff_eq_none])] at hst
        cases hst
  | construct javaArray answer =>
      rw [step] at hst
      by_cases h : s.object = none
      · rw [h, Option.isNone_none, if_pos rfl, Option.some.injEq] at hst
        subst hst
        cases javaArray with
        | none => exact .constructNull h answer
        | some a => exact .construct h a answer
      · rw [if_neg (by rwa [Option.isNone_iff_eq_none])] at hst
        cases hst
  | reset javaArray answer =>
      rw [step] at hst
      obtain ⟨obj, hobj, hst⟩ := Option.bind_eq_some_iff.mp hst
      cases hst
      exact .reset hobj javaArray answer
  | read n =>
      rw [step] at hst
      obtain ⟨obj, hobj, hst⟩ := Option.bind_eq_some_iff.mp hst
      obtain ⟨v, -, hst⟩ := Option.bind_eq_some_iff.mp hst
      cases hst
      exact .read n
  | javaWrite array n v =>
      cases hst
      exact .javaWrite array n v
  | destroy =>
      rw [step] at hst
      obtain ⟨obj, hobj, hst⟩ := Option.bind_eq_some_iff.mp hst
      cases hst
      exact .destroy hobj

/-! ### The two ways of `reset` -/

section reset
variable {vm : ArrayVm A V} {javaArray : A}

omit [DecidableEq A] in
theorem reset_buffer (h : vm.getArrayLength javaArray ≤ bufferSize) (obj : ScopedArrayRO A V)
    (answer : Option Bool) : obj.reset javaArray answer vm =
      (⟨some javaArray, .buffer, vm.getArrayLength javaArray,
        vm.getArrayRegion javaArray 0 (vm.getArrayLength javaArray) obj.mBuffer⟩, vm) := by
  unfold reset
  exact if_pos h

omit [DecidableEq A] in
theorem reset_elements (h : ¬ vm.getArrayLength javaArray ≤ bufferSize)
    (obj : ScopedArrayRO A V) (answer : Option Bool) : obj.reset javaArray answer vm =
      (⟨some javaArray, (vm.getArrayElements javaArray answer).1, vm.getArrayLength javaArray,
        obj.mBuffer⟩, (vm.getArrayElements javaArray answer).2) := by
  unfold reset
  exact if_neg h

end reset

/-! ### The pointers -/

/-- What the object would give back. -/
def held (s : State A V) : Option (A × ℕ) :=
  s.object.bind fun obj => heldElements obj.mJavaArray obj.mRawArray

/-- A `reset` finds no elements from the VM in the object. -/
def FindsNone (s : State A V) : Action A V → Prop
  | .reset _ _ => ∀ obj, s.object = some obj → ∀ p, obj.mRawArray ≠ .elements p
  | .constructEmpty | .construct _ _ | .read _ | .javaWrite _ _ _ | .destroy => True

/-- The calls are orderly, and elements in the object were handed out for its array. -/
def InOrder (s : State A V) : Prop :=
  s.vm.Orderly .abort ∧
    ∀ obj, s.object = some obj → s.vm.HandedOut obj.mJavaArray obj.mRawArray

section pointers
variable {s s' : State A V} {vm : ArrayVm A V}

omit [DecidableEq A] in
theorem held_live {obj : ScopedArrayRO A V} (h : s.object = some obj) :
    held s = heldElements obj.mJavaArray obj.mRawArray := by
  unfold held
  rw [h, Option.bind_some]

omit [DecidableEq A] in
theorem held_dead (h : s.object = none) : held s = none := by
  unfold held
  rw [h, Option.bind_none]

omit [DecidableEq A] in
theorem reset_reopened (obj : ScopedArrayRO A V) (javaArray : A) (answer : Option Bool) :
    Ledger.Reopened vm.ledger (obj.reset javaArray answer vm).2.ledger
      (heldElements (obj.reset javaArray answer vm).1.mJavaArray
        (obj.reset javaArray answer vm).1.mRawArray) := by
  by_cases h : vm.getArrayLength javaArray ≤ bufferSize
  · rw [reset_buffer h]
    exact .nothing
  · rw [reset_elements h, vm.ledger_getArrayElements]
    cases answer with
    | none =>
        rw [Option.isSome_none, if_neg Bool.false_ne_true, List.append_nil]
        exact .nothing
    | some isCopy =>
        rw [Option.isSome_some, if_pos rfl]
        exact .kept _

theorem reset_inOrder (hvm : vm.Orderly .abort) (obj : ScopedArrayRO A V) (javaArray : A)
    (answer : Option Bool) (given : List V) :
    InOrder ⟨(obj.reset javaArray answer vm).2, some (obj.reset javaArray answer vm).1,
      given⟩ := by
  by_cases h : vm.getArrayLength javaArray ≤ bufferSize
  · rw [reset_buffer h]
    refine ⟨hvm, ?_⟩
    rintro _ ⟨⟩
    exact vm.handedOut_buffer _
  · rw [reset_elements h]
    refine ⟨hvm.getArrayElements answer, ?_⟩
    rintro _ ⟨⟩
    exact vm.handedOut_getArrayElements javaArray answer

/-- The destructor gives back what is held. -/
theorem destructor_spec (hvm : vm.Orderly .abort) {obj : ScopedArrayRO A V}
    (h : vm.HandedOut obj.mJavaArray obj.mRawArray) :
    (obj.destructor vm).Orderly .abort ∧ (obj.destructor vm).ledger =
      vm.ledger ++ ((heldElements obj.mJavaArray obj.mRawArray).map .release).toList := by
  unfold destructor
  cases hr : obj.mRawArray with
  | null => simpa using hvm
  | buffer => simpa using hvm
  | elements p =>
      rw [hr] at h
      rw [if_pos (by simp)]
      exact ⟨hvm.release_held h rfl, ArrayVm.ledger_release_held h rfl .abort⟩

/-- Each action keeps what is held, gives it back or, when it is a `reset`, overwrites it. -/
theorem disciplined : Ledger.Disciplined (step (A := A) (V := V)) InOrder
    (fun s => s.vm.ledger) held FindsNone := by
  intro s a s' hi hst
  cases step_cases hst with
  | constructEmpty h =>
      refine ⟨⟨hi.1, ?_⟩, .inl ⟨trivial, ?_⟩⟩
      · rintro _ ⟨⟩
        exact s.vm.handedOut_null _
      · rw [held_dead h]
        exact .kept none
  | constructNull h =>
      refine ⟨⟨hi.1.call .throwNullPointerException, ?_⟩, .inl ⟨trivial, ?_⟩⟩
      · rintro _ ⟨⟩
        exact ArrayVm.handedOut_null _ _
      · rw [held_dead h]
        show Ledger.Handled _ _ (s.vm.call .throwNullPointerException).ledger _
        rw [s.vm.ledger_call]
        exact .kept none
  | construct h javaArray answer =>
      refine ⟨reset_inOrder hi.1 _ javaArray answer _, .inr ⟨?_, reset_reopened _ _ _⟩⟩
      exact iff_of_true trivial (held_dead h)
  | @reset obj h javaArray answer =>
      refine ⟨reset_inOrder hi.1 obj javaArray answer _, .inr ⟨?_, reset_reopened _ _ _⟩⟩
      rw [held_live h, (hi.2 obj h).heldElements_eq_none_iff]
      constructor
      · exact fun hf => hf obj h
      · intro hp obj' h'
        obtain rfl : obj = obj' := Option.some.inj (h.symm.trans h')
        exact hp
  | read n => exact ⟨hi, .inl ⟨trivial, .kept _⟩⟩
  | javaWrite array n v =>
      exact ⟨⟨⟨hi.1.proper, hi.1.once, hi.1.old⟩, hi.2⟩, .inl ⟨trivial, .kept _⟩⟩
  | @destroy obj h =>
      obtain ⟨hvm, hl⟩ := destructor_spec hi.1 (hi.2 obj h)
      refine ⟨⟨hvm, ?_⟩, .inl ⟨trivial, ?_⟩⟩
      · rintro _ ⟨⟩
      · show Ledger.Handled _ _ (obj.destructor s.vm).ledger none
        rw [hl, held_live h]
        exact .released _

theorem tracked_initial (contents : A → List V) :
    Ledger.Tracked InOrder (fun s : State A V => s.vm.ledger) held (initial contents) := by
  refine ⟨⟨ArrayVm.orderly_initial contents .abort, ?_⟩, Ledger.safe_nil, Ledger.owns_nil.covers⟩
  rintro _ ⟨⟩

/-- **Every pointer is released exactly once, with its array, if and only if no `reset` found one.**
The run ends with the destructor. -/
theorem released_iff (contents : A → List V) (as : List (Action A V)) (s : State A V)
    (hr : run step (initial contents) as = some s) (hend : s.object = none) :
    ReleasedOnce .abort s.vm.calls ↔ EveryStep step FindsNone (initial contents) as := by
  have hi := tracked_initial contents
  rw [(disciplined.tracked hi hr).1.1.releasedOnce_iff,
    disciplined.balanced_iff hi Ledger.owns_nil hr (held_dead hend)]

/-- A `reset` of an object that holds the elements of a long array loses them. -/
theorem not_releasedOnce_of_reset {contents : A → List V} {array : A}
    (h : bufferSize < (contents array).length) (isCopy : Bool) (answer : Option Bool) :
    ∃ s, run step (initial contents)
        [.construct (some array) (some isCopy), .reset array answer, .destroy] = some s ∧
      s.object = none ∧ ¬ ReleasedOnce .abort s.vm.calls := by
  refine ⟨_, rfl, rfl, ?_⟩
  rw [released_iff contents [.construct (some array) (some isCopy), .reset array answer, .destroy]
    _ rfl rfl]
  intro he
  have hlong : ¬ (ArrayVm.initial contents).getArrayLength array ≤ bufferSize :=
    Nat.not_le_of_lt h
  refine ((he _ rfl).2 _ rfl).1 _ rfl 0 ?_
  show (reset constructEmpty array (some isCopy) (ArrayVm.initial contents)).1.mRawArray =
    .elements 0
  rw [reset_elements hlong]
  rfl

end pointers

/-! ### Reading below `size()` -/

/-- Every index below `size()` reads the element of the array that was given to the object, and
without elements the size is zero. -/
def Readable (s : State A V) : Prop :=
  ∀ obj, s.object = some obj →
    (∀ n < obj.size, ∃ v, obj.index s.vm n = some v ∧ s.given[n]? = some v) ∧
      (obj.get = .null → obj.size = 0)

/-- The array fits into the buffer, or the VM hands out its elements. -/
def Obtains (s : State A V) : Action A V → Prop
  | .construct (some javaArray) answer | .reset javaArray answer =>
      s.vm.getArrayLength javaArray ≤ bufferSize ∨ answer.isSome
  | .construct none _ | .constructEmpty | .read _ | .javaWrite _ _ _ | .destroy => True

/-- Java code does not change an array that the object has pinned. -/
def LeavesPinned (s : State A V) : Action A V → Prop
  | .javaWrite array n v => ∀ obj p, s.object = some obj → obj.mRawArray = .elements p →
      s.vm.elements p = some (array, .direct) →
        (s.vm.contents array).set n v = s.vm.contents array
  | .constructEmpty | .construct _ _ | .reset _ _ | .read _ | .destroy => True

/-- The object is of the size of the array that was given to it, which has the same length still if
it is pinned. -/
structure SizedObject (s : State A V) (obj : ScopedArrayRO A V) : Prop where
  size : obj.size = s.given.length
  pinned : ∀ p array, obj.mRawArray = .elements p → s.vm.elements p = some (array, .direct) →
    (s.vm.contents array).length = s.given.length

def Sized (s : State A V) : Prop := ∀ obj, s.object = some obj → SizedObject s obj

section readable
variable {s s' : State A V} {vm : ArrayVm A V}

omit [DecidableEq A] in
theorem sized_constructEmpty (vm : ArrayVm A V) : Sized ⟨vm, some constructEmpty, []⟩ := by
  rintro _ ⟨⟩
  exact ⟨rfl, by rintro p array ⟨⟩⟩

omit [DecidableEq A] in
theorem reset_sized (obj : ScopedArrayRO A V) (javaArray : A) (answer : Option Bool) :
    Sized ⟨(obj.reset javaArray answer vm).2, some (obj.reset javaArray answer vm).1,
      vm.contents javaArray⟩ := by
  rintro _ ⟨⟩
  by_cases h : vm.getArrayLength javaArray ≤ bufferSize
  · rw [reset_buffer h]
    exact ⟨rfl, by rintro p array ⟨⟩⟩
  · rw [reset_elements h]
    refine ⟨rfl, fun p array hp hpinned => ?_⟩
    cases answer with
    | none => cases hp
    | some isCopy =>
        cases hp
        have hnew : (vm.getArrayElements javaArray (some isCopy)).2.elements vm.next =
            some (javaArray, _) := Function.update_self ..
        obtain rfl : javaArray = array :=
          congrArg Prod.fst (Option.some.inj (hnew.symm.trans hpinned))
        rfl

theorem sized_step (hs : Sized s) {a : Action A V} (hst : step s a = some s') : Sized s' := by
  cases step_cases hst with
  | constructEmpty h => exact sized_constructEmpty s.vm
  | constructNull h => exact sized_constructEmpty _
  | construct h javaArray answer => exact reset_sized _ javaArray answer
  | reset h javaArray answer => exact reset_sized _ javaArray answer
  | read n => exact hs
  | javaWrite array n v =>
      intro obj hobj
      obtain ⟨hsize, hpinned⟩ := hs obj hobj
      refine ⟨hsize, fun p array' hp hdirect => ?_⟩
      have hlength : (Windows.setCell s.vm.contents array n v array').length =
          (s.vm.contents array').length := by
        unfold Windows.setCell
        by_cases e : array' = array
        · rw [e, Function.update_self, List.length_set]
        · rw [Function.update_of_ne e]
      exact hlength.trans (hpinned p array' hp hdirect)
  | destroy h => rintro _ ⟨⟩

omit [DecidableEq A] in
/-- A buffer that was filled from an array reads like it. -/
theorem getArrayRegion_getElem? {javaArray : A} {n : ℕ} (h : n < vm.getArrayLength javaArray)
    (buffer : List (Option V)) :
    ((vm.getArrayRegion javaArray 0 (vm.getArrayLength javaArray) buffer)[n]?).join =
      (vm.contents javaArray)[n]? := by
  have hn : n < (vm.contents javaArray).length := h
  unfold ArrayVm.getArrayRegion ArrayVm.getArrayLength
  rw [List.drop_zero, List.take_length, List.getElem?_append_left (by rwa [List.length_map]),
    List.getElem?_map]
  cases (vm.contents javaArray)[n]? <;> rfl

omit [DecidableEq A] in
/-- After a `reset` the array can be read if and only if it was obtained. -/
theorem reset_readable (obj : ScopedArrayRO A V) (javaArray : A) (answer : Option Bool) :
    Readable ⟨(obj.reset javaArray answer vm).2, some (obj.reset javaArray answer vm).1,
        vm.contents javaArray⟩ ↔
      vm.getArrayLength javaArray ≤ bufferSize ∨ answer.isSome := by
  by_cases h : vm.getArrayLength javaArray ≤ bufferSize
  · refine iff_of_true ?_ (.inl h)
    rw [reset_buffer h]
    rintro _ ⟨⟩
    refine ⟨fun n hn => ?_, fun hnull => by cases hnull⟩
    have hn : n < (vm.contents javaArray).length := hn
    refine ⟨(vm.contents javaArray)[n], ?_, List.getElem?_eq_getElem hn⟩
    rw [index, getArrayRegion_getElem? hn]
    exact List.getElem?_eq_getElem hn
  · rw [reset_elements h]
    cases answer with
    | some isCopy =>
        refine iff_of_true ?_ (.inr rfl)
        rintro _ ⟨⟩
        refine ⟨fun n hn => ?_, fun hnull => by cases hnull⟩
        have hn : n < (vm.contents javaArray).length := hn
        refine ⟨(vm.contents javaArray)[n], ?_, List.getElem?_eq_getElem hn⟩
        have hnew : (vm.getArrayElements javaArray (some isCopy)).2.elements vm.next =
            some (javaArray, _) := Function.update_self ..
        show (vm.getArrayElements javaArray (some isCopy)).2.load (.elements vm.next) n = _
        rw [ArrayVm.load_elements hnew, ArrayVm.shown_getArrayElements,
          List.getElem?_eq_getElem hn]
    | none =>
        refine iff_of_false (fun hread => ?_) (by simpa using h)
        -- the size was set before the elements failed to come
        have hzero : vm.getArrayLength javaArray = 0 := (hread _ rfl).2 rfl
        omega

omit [DecidableEq A] in
/-- What an object has pinned is what was given to it. -/
theorem Readable.contents_eq (hs : Readable s) (hsized : Sized s) {obj : ScopedArrayRO A V}
    (hobj : s.object = some obj) {p : ℕ} {array : A} (hp : obj.mRawArray = .elements p)
    (hpinned : s.vm.elements p = some (array, .direct)) : s.vm.contents array = s.given := by
  obtain ⟨hsize, hlength⟩ := hsized obj hobj
  have hlength := hlength p array hp hpinned
  refine List.ext_getElem? fun n => ?_
  by_cases hn : n < s.given.length
  · obtain ⟨v, hv, hgiven⟩ := (hs obj hobj).1 n (hsize ▸ hn)
    rw [hgiven, ← hv, index, hp]
    exact ((ArrayVm.load_elements hpinned n).trans
      (congrArg (·[n]?) (ArrayVm.shown_direct hpinned array))).symm
  · rw [List.getElem?_eq_none (hlength ▸ Nat.le_of_not_lt hn),
      List.getElem?_eq_none (Nat.le_of_not_lt hn)]

omit [DecidableEq A] in
/-- The object reads the same in another state of the VM. -/
theorem index_congr {obj : ScopedArrayRO A V} {vm' : ArrayVm A V} {n : ℕ}
    (h : vm'.load obj.mRawArray n = vm.load obj.mRawArray n) : obj.index vm' n = obj.index vm n := by
  unfold index
  cases hp : obj.mRawArray with
  | buffer => rfl
  | null => rfl
  | elements p => rwa [hp] at h

/-- Java code that writes an array changes what the object reads exactly if it changes an array that
the object has pinned. -/
theorem readable_javaWrite_iff (hs : Readable s) (hsized : Sized s) (array : A) (n : ℕ) (v : V) :
    Readable { s with vm := s.vm.javaWrite array n v } ↔ LeavesPinned s (.javaWrite array n v) := by
  by_cases hpinned : ∃ obj p, s.object = some obj ∧ obj.mRawArray = .elements p ∧
      s.vm.elements p = some (array, .direct)
  · obtain ⟨obj, p, hobj, hp, hdirect⟩ := hpinned
    have hgiven := hs.contents_eq hsized hobj hp hdirect
    have hdirect' : (s.vm.javaWrite array n v).elements p = some (array, .direct) := hdirect
    have hsame : (s.vm.javaWrite array n v).contents array = (s.vm.contents array).set n v :=
      Function.update_self ..
    constructor
    · intro hs' obj' p' _ _ _
      have hsized' : Sized { s with vm := s.vm.javaWrite array n v } :=
        sized_step hsized (a := .javaWrite array n v) rfl
      rw [← hsame, hgiven]
      exact hs'.contents_eq hsized' hobj hp hdirect'
    · intro hleaves
      have hset := hleaves obj p hobj hp hdirect
      have hvm : s.vm.javaWrite array n v = s.vm := by
        rw [ArrayVm.javaWrite, Windows.setCell, hset, Function.update_eq_self]
      rw [hvm]
      exact hs
  · refine iff_of_true (fun obj hobj => ⟨fun m hm => ?_, (hs obj hobj).2⟩) ?_
    · obtain ⟨w, hw, hgiven⟩ := (hs obj hobj).1 m hm
      refine ⟨w, ?_, hgiven⟩
      rw [← hw]
      exact index_congr (ArrayVm.load_javaWrite
        (fun p hp hdirect => hpinned ⟨obj, p, hobj, hp, hdirect⟩) n v m)
    · exact fun obj p hobj hp hdirect => absurd ⟨obj, p, hobj, hp, hdirect⟩ hpinned

theorem readable_step (hsized : Sized s) (hs : Readable s) {a : Action A V}
    (hst : step s a = some s') : Readable s' ↔ Obtains s a ∧ LeavesPinned s a := by
  cases step_cases hst with
  | constructEmpty h =>
      refine iff_of_true ?_ ⟨trivial, trivial⟩
      rintro _ ⟨⟩
      exact ⟨fun n hn => absurd hn (Nat.not_lt_zero n), fun _ => rfl⟩
  | constructNull h =>
      refine iff_of_true ?_ ⟨trivial, trivial⟩
      rintro _ ⟨⟩
      exact ⟨fun n hn => absurd hn (Nat.not_lt_zero n), fun _ => rfl⟩
  | construct h javaArray answer =>
      exact (reset_readable _ javaArray answer).trans (and_iff_left trivial).symm
  | reset h javaArray answer =>
      exact (reset_readable _ javaArray answer).trans (and_iff_left trivial).symm
  | read n => exact iff_of_true hs ⟨trivial, trivial⟩
  | javaWrite array n v =>
      exact (readable_javaWrite_iff hs hsized array n v).trans (and_iff_right trivial).symm
  | destroy h =>
      refine iff_of_true ?_ ⟨trivial, trivial⟩
      rintro _ ⟨⟩

/-- **In every state of a run every index below `size()` reads the element that the array had when
it was given, if and only if** the VM handed out the elements of every array that does not fit into
the buffer, and Java code changed no array while the object had it pinned. -/
theorem readable_iff (contents : A → List V) (as : List (Action A V)) :
    EveryState step Readable (initial contents) as ↔
      EveryStep step (fun s a => Obtains s a ∧ LeavesPinned s a) (initial contents) as := by
  refine everyState_iff_everyStep (I := Sized) (fun _ _ _ hs hst => sized_step hs hst)
    (fun _ _ _ hsized hs hst => readable_step hsized hs hst) ?_ ?_ as
  · rintro _ ⟨⟩
  · rintro _ ⟨⟩

/-- The size of an array is set although its elements could not be obtained. -/
theorem not_readable_of_failed {contents : A → List V} {array : A}
    (h : bufferSize < (contents array).length) :
    ¬ EveryState step Readable (initial contents) [.construct (some array) none] := by
  intro hs
  have hread := everyState_iff.mp hs _ List.prefix_rfl _ rfl
  rcases (reset_readable constructEmpty array none).mp hread with hshort | hfalse
  · exact absurd hshort (Nat.not_le_of_lt h)
  · cases hfalse

theorem size_without_elements :
    ¬ EveryState step Readable (initial fun _ : Unit => List.replicate 1025 7)
      [.construct (some ()) none] :=
  not_readable_of_failed (by rw [List.length_replicate]; decide)

end readable

end ScopedArrayRO
end NativeHelper
