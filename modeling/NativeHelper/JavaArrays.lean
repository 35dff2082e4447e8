import NativeHelper.Ledger
import NativeHelper.Windows

/-! # The primitive arrays of the VM

`Get<T>ArrayElements` hands out a pointer to the elements of an array: to the array itself, which
the VM pins, or to a copy, as it likes; the callers here do not ask which (`isCopy` is `NULL`).
`Release<T>ArrayElements` takes the elements back, with mode `0` after it has written a copy back.
What a store through such a pointer does is said once, by `Stored`.

`ReleasedOnce` says of a list of calls that each pointer was given back, once, with the array it was
obtained from, and that nothing else was; it is what a safe and balanced ledger of pointers comes to
(`releasedOnce_iff`). -/

namespace NativeHelper

open Windows (View setCell)

/-- What a pointer to elements points to: nothing, memory that is not the VM's to take back (the
`mBuffer` of the object, or that of a direct buffer), or elements from the VM. -/
inductive RawArray where
  | null
  | buffer
  | elements (p : ℕ)
deriving DecidableEq, Repr

/-- The modes of `Release<T>ArrayElements` that are used: `0` and `JNI_ABORT`. -/
inductive ReleaseMode where
  | copyBack
  | abort
deriving DecidableEq, Repr

/-- The calls to the VM that are not about the elements of an array. -/
inductive OtherCall where
  | throwNullPointerException
  | findClass (name : String)
  | isInstanceOf
  | getDirectBufferAddress
  | deleteLocalRef
deriving DecidableEq, Repr

/-- A call to the VM, with the result of `Get<T>ArrayElements` (`none` is `NULL`). -/
inductive ArrayCall (A : Type) where
  | other (call : OtherCall)
  | getArrayElements (array : A) (result : Option ℕ)
  | releaseArrayElements (array : Option A) (ptr : RawArray) (mode : ReleaseMode)
deriving DecidableEq, Repr

def ArrayCall.throwsNull {A : Type} : ArrayCall A → Bool
  | .other .throwNullPointerException => true
  | _ => false

/-- The arrays; the pointers handed out, each with the array it is of and whether it points to that
array or to a copy; the next pointer; and the calls. -/
structure ArrayVm (A V : Type) where
  contents : A → List V
  elements : ℕ → Option (A × View V)
  next : ℕ
  calls : List (ArrayCall A)

namespace ArrayVm

variable {A V : Type}

/-- A VM with these arrays, before any call. -/
def initial (contents : A → List V) : ArrayVm A V := ⟨contents, fun _ => none, 0, []⟩

/-- `GetArrayLength(array)`. -/
def getArrayLength (vm : ArrayVm A V) (array : A) : ℕ := (vm.contents array).length

/-- `Get<T>ArrayRegion(array, start, length, buffer)`: the buffer afterwards. -/
def getArrayRegion (vm : ArrayVm A V) (array : A) (start length : ℕ) (buffer : List (Option V)) :
    List (Option V) :=
  (((vm.contents array).drop start).take length).map some ++ buffer.drop length

/-- A call that leaves the arrays alone. -/
def call (vm : ArrayVm A V) (c : OtherCall) : ArrayVm A V :=
  { vm with calls := vm.calls ++ [.other c] }

/-- `Get<T>ArrayElements(array, NULL)`, which returns `NULL`, or a pointer to a copy of the elements
or to the array itself. -/
def getArrayElements (vm : ArrayVm A V) (array : A) : Option Bool → RawArray × ArrayVm A V
  | none => (.null, { vm with calls := vm.calls ++ [.getArrayElements array none] })
  | some isCopy =>
      (.elements vm.next,
        { vm with
          elements := Function.update vm.elements vm.next
            (some (array, if isCopy then .copy (vm.contents array) else .direct))
          next := vm.next + 1
          calls := vm.calls ++ [.getArrayElements array (some vm.next)] })

/-- What a pointer to elements of the array shows: its copy of them, or the array. -/
def shown (vm : ArrayVm A V) (array : A) (p : ℕ) : List V :=
  match vm.elements p with
  | some (_, .copy cells) => cells
  | some (_, .direct) | none => vm.contents array

/-- `ptr[n]`, where there is such an element. -/
def load (vm : ArrayVm A V) (ptr : RawArray) (n : ℕ) : Option V :=
  match ptr with
  | .null | .buffer => none
  | .elements p => (vm.elements p).bind fun e => (vm.shown e.1 p)[n]?

/-- How often a `NullPointerException` was thrown. -/
def thrown (vm : ArrayVm A V) : ℕ := vm.calls.countP ArrayCall.throwsNull

variable [DecidableEq A]

/-- `ptr[n] = v`: a copy is written, or the array. -/
def store (vm : ArrayVm A V) (ptr : RawArray) (n : ℕ) (v : V) : Option (ArrayVm A V) :=
  match ptr with
  | .null | .buffer => none
  | .elements p =>
      match vm.elements p with
      | none => none
      | some (array, .direct) =>
          if n < (vm.contents array).length then
            some { vm with contents := setCell vm.contents array n v }
          else none
      | some (array, .copy cells) =>
          if n < cells.length then
            some { vm with
              elements := Function.update vm.elements p (some (array, .copy (cells.set n v))) }
          else none

/-- `Release<T>ArrayElements(array, ptr, mode)`. -/
def releaseArrayElements (vm : ArrayVm A V) (array : Option A) (ptr : RawArray)
    (mode : ReleaseMode) : ArrayVm A V :=
  { vm with
    contents := match array, ptr, mode with
      | some a, .elements p, .copyBack => Function.update vm.contents a (vm.shown a p)
      | _, _, _ => vm.contents
    elements := match ptr with
      | .elements p => Function.update vm.elements p none
      | .null | .buffer => vm.elements
    calls := vm.calls ++ [.releaseArrayElements array ptr mode] }

/-- Java code writes to an array. -/
def javaWrite (vm : ArrayVm A V) (array : A) (n : ℕ) (v : V) : ArrayVm A V :=
  { vm with contents := setCell vm.contents array n v }

/-! ### Exceptions -/

omit [DecidableEq A] in
theorem thrown_getArrayElements (vm : ArrayVm A V) (a : A) (answer : Option Bool) :
    (vm.getArrayElements a answer).2.thrown = vm.thrown := by
  cases answer <;> exact List.countP_append.trans (Nat.add_zero _)

theorem thrown_releaseArrayElements (vm : ArrayVm A V) (array : Option A) (ptr : RawArray)
    (mode : ReleaseMode) : (vm.releaseArrayElements array ptr mode).thrown = vm.thrown :=
  List.countP_append.trans (Nat.add_zero _)

omit [DecidableEq A] in
theorem thrown_throw (vm : ArrayVm A V) :
    (vm.call .throwNullPointerException).thrown = vm.thrown + 1 :=
  List.countP_append

/-! ### What a pointer shows -/

section pointers
variable {vm vm' : ArrayVm A V} {a : A} {p n : ℕ} {v : V} {view : View V}

omit [DecidableEq A] in
theorem shown_direct (h : vm.elements p = some (a, .direct)) (b : A) :
    vm.shown b p = vm.contents b := by
  unfold shown
  rw [h]

omit [DecidableEq A] in
theorem shown_copy {cells : List V} (h : vm.elements p = some (a, .copy cells)) (b : A) :
    vm.shown b p = cells := by
  unfold shown
  rw [h]

omit [DecidableEq A] in
theorem load_elements (h : vm.elements p = some (a, view)) (n : ℕ) :
    vm.load (.elements p) n = (vm.shown a p)[n]? := by
  rw [load, h, Option.bind_some]

omit [DecidableEq A] in
/-- A new pointer shows the array, copied or not. -/
theorem shown_getArrayElements (vm : ArrayVm A V) (a : A) (isCopy : Bool) :
    (vm.getArrayElements a (some isCopy)).2.shown a vm.next = vm.contents a := by
  have h : (vm.getArrayElements a (some isCopy)).2.elements vm.next =
      some (a, if isCopy then .copy (vm.contents a) else .direct) := Function.update_self ..
  cases isCopy with
  | false => exact shown_direct h a
  | true => exact shown_copy h a

theorem store_direct (hp : vm.elements p = some (a, .direct)) (n : ℕ) (v : V) :
    vm.store (.elements p) n v = if n < (vm.contents a).length then
      some { vm with contents := setCell vm.contents a n v } else none := by
  simp only [store, hp]

theorem store_copy {cells : List V} (hp : vm.elements p = some (a, .copy cells)) (n : ℕ) (v : V) :
    vm.store (.elements p) n v = if n < cells.length then some { vm with
      elements := Function.update vm.elements p (some (a, .copy (cells.set n v))) } else none := by
  simp only [store, hp]

/-- What a store through a pointer to elements of an array does: it changes what the pointer shows,
and no other array. -/
structure Stored (vm vm' : ArrayVm A V) (a : A) (p n : ℕ) (v : V) : Prop where
  calls : vm'.calls = vm.calls
  next : vm'.next = vm.next
  handedOut : ∃ view, vm'.elements p = some (a, view)
  shown : vm'.shown a p = (vm.shown a p).set n v
  others : ∀ b, b ≠ a → vm'.contents b = vm.contents b

theorem stored_of_store (hp : vm.elements p = some (a, view))
    (h : vm.store (.elements p) n v = some vm') : Stored vm vm' a p n v := by
  cases view with
  | direct =>
      rw [store_direct hp] at h
      obtain ⟨-, h⟩ := Option.ite_none_right_eq_some.mp h
      cases h
      refine ⟨rfl, rfl, ⟨.direct, hp⟩, ?_, fun b hb => Function.update_of_ne hb _ _⟩
      have hp' : ArrayVm.elements { vm with contents := setCell vm.contents a n v } p =
          some (a, .direct) := hp
      rw [shown_direct hp, shown_direct hp']
      exact Function.update_self ..
  | copy cells =>
      rw [store_copy hp] at h
      obtain ⟨-, h⟩ := Option.ite_none_right_eq_some.mp h
      cases h
      have hp' : Function.update vm.elements p (some (a, .copy (cells.set n v))) p =
          some (a, .copy (cells.set n v)) := Function.update_self ..
      refine ⟨rfl, rfl, ⟨_, hp'⟩, ?_, fun _ _ => rfl⟩
      rw [shown_copy hp]
      exact shown_copy hp' a

/-- Only through a pointer that was handed out is something stored. -/
theorem store_eq_some {ptr : RawArray} (h : vm.store ptr n v = some vm') :
    ∃ p a view, ptr = .elements p ∧ vm.elements p = some (a, view) := by
  cases ptr with
  | null => cases h
  | buffer => cases h
  | elements p =>
      cases hp : vm.elements p with
      | none =>
          unfold store at h
          simp only [hp] at h
          cases h
      | some e => exact ⟨p, e.1, e.2, rfl, hp⟩

/-- What Java code writes is seen through a pointer only if that array is pinned for it. -/
theorem load_javaWrite {ptr : RawArray}
    (h : ∀ p, ptr = .elements p → vm.elements p ≠ some (a, .direct)) (n : ℕ) (v : V) (m : ℕ) :
    (vm.javaWrite a n v).load ptr m = vm.load ptr m := by
  cases ptr with
  | null => rfl
  | buffer => rfl
  | elements p =>
      have h := h p rfl
      cases hp : vm.elements p with
      | none =>
          have hp' : (vm.javaWrite a n v).elements p = none := hp
          rw [load, load, hp, hp']
          rfl
      | some e =>
          obtain ⟨b, view⟩ := e
          have hp' : (vm.javaWrite a n v).elements p = some (b, view) := hp
          rw [load_elements hp, load_elements hp']
          cases view with
          | copy cells => rw [shown_copy hp, shown_copy hp']
          | direct =>
              have hne : b ≠ a := fun e => h (by rw [hp, e])
              rw [shown_direct hp, shown_direct hp']
              exact congrArg (·[m]?) (Function.update_of_ne hne _ _)

end pointers

end ArrayVm

/-! ### The pointers as handles -/

section ledger
variable {A V : Type}

/-- The elements that an object has to give back: `mRawArray`, if it points to such. -/
def heldElements : Option A → RawArray → Option (A × ℕ)
  | some a, .elements p => some (a, p)
  | _, _ => none

/-- What a call is to the ledger of pointers. -/
def ArrayCall.entry : ArrayCall A → Option (Ledger.Entry (A × ℕ))
  | .getArrayElements a (some p) => some (.acquire (a, p))
  | .releaseArrayElements (some a) (.elements p) _ => some (.release (a, p))
  | .other _ | .getArrayElements _ none | .releaseArrayElements _ _ _ => none

def ArrayVm.ledger (vm : ArrayVm A V) : List (Ledger.Entry (A × ℕ)) :=
  vm.calls.filterMap ArrayCall.entry

/-- The elements that the pointer points to, if any, were handed out for the array. -/
def ArrayVm.HandedOut (vm : ArrayVm A V) (array : Option A) (ptr : RawArray) : Prop :=
  ∀ p, ptr = .elements p → ∃ a view, array = some a ∧ vm.elements p = some (a, view)

@[simp] theorem heldElements_null (array : Option A) : heldElements array .null = none := by
  cases array <;> rfl

@[simp] theorem heldElements_buffer (array : Option A) : heldElements array .buffer = none := by
  cases array <;> rfl

theorem ArrayVm.handedOut_null (vm : ArrayVm A V) (array : Option A) : vm.HandedOut array .null := by
  rintro p ⟨⟩

theorem ArrayVm.handedOut_buffer (vm : ArrayVm A V) (array : Option A) :
    vm.HandedOut array .buffer := by
  rintro p ⟨⟩

theorem ArrayVm.handedOut_getArrayElements (vm : ArrayVm A V) (a : A) (answer : Option Bool) :
    (vm.getArrayElements a answer).2.HandedOut (some a) (vm.getArrayElements a answer).1 := by
  cases answer with
  | none => exact ArrayVm.handedOut_null _ _
  | some isCopy =>
      rintro p ⟨⟩
      exact ⟨a, _, rfl, Function.update_self ..⟩

theorem ArrayVm.HandedOut.heldElements_eq_none_iff {vm : ArrayVm A V} {array : Option A}
    {ptr : RawArray} (h : vm.HandedOut array ptr) :
    heldElements array ptr = none ↔ ∀ p, ptr ≠ .elements p := by
  cases ptr with
  | null => simp
  | buffer => simp
  | elements p =>
      obtain ⟨a, _, rfl, -⟩ := h p rfl
      simp [heldElements]

/-- Each pointer that was handed out was given back, exactly once, with the array it was obtained
from; and nothing else was given back. -/
def ReleasedOnce [DecidableEq A] (mode : ReleaseMode) (calls : List (ArrayCall A)) : Prop :=
  (∀ a p, .getArrayElements a (some p) ∈ calls →
      calls.count (.releaseArrayElements (some a) (.elements p) mode) = 1) ∧
    ∀ array ptr mode', .releaseArrayElements array ptr mode' ∈ calls → mode' = mode ∧
      ∃ a p, array = some a ∧ ptr = .elements p ∧ .getArrayElements a (some p) ∈ calls

/-- A release is called for elements, with the given mode. -/
def ArrayCall.Proper (mode : ReleaseMode) : ArrayCall A → Prop
  | .releaseArrayElements array ptr mode' => mode' = mode ∧ array.isSome ∧ ∃ p, ptr = .elements p
  | .other _ | .getArrayElements _ _ => True

/-- What holds of the calls of an object that releases with `mode`: its releases are proper, and no
pointer has been handed out twice. -/
structure ArrayVm.Orderly [DecidableEq A] (mode : ReleaseMode) (vm : ArrayVm A V) : Prop where
  proper : ∀ e ∈ vm.calls, e.Proper mode
  once : ∀ h, Ledger.acquired vm.ledger h ≤ 1
  old : ∀ h, vm.next ≤ h.2 → Ledger.acquired vm.ledger h = 0

variable [DecidableEq A] {mode : ReleaseMode}

theorem acquired_calls (calls : List (ArrayCall A)) (a : A) (p : ℕ) :
    Ledger.acquired (calls.filterMap ArrayCall.entry) (a, p) =
      calls.count (.getArrayElements a (some p)) := by
  unfold Ledger.acquired
  induction calls with
  | nil => rfl
  | cons e calls ih =>
      rcases e with _ | ⟨_, _ | _⟩ | ⟨_ | _, _ | _ | _, _⟩ <;>
        simp [ArrayCall.entry, List.filterMap_cons, List.count_cons, ih]

theorem released_calls {calls : List (ArrayCall A)} (h : ∀ e ∈ calls, e.Proper mode) (a : A)
    (p : ℕ) : Ledger.released (calls.filterMap ArrayCall.entry) (a, p) =
      calls.count (.releaseArrayElements (some a) (.elements p) mode) := by
  unfold Ledger.released
  induction calls with
  | nil => rfl
  | cons e calls ih =>
      have ih := ih fun e he => h e (List.mem_cons_of_mem _ he)
      have he := h e List.mem_cons_self
      rcases e with _ | ⟨_, _ | _⟩ | ⟨array, ptr, mode'⟩
      · simp [ArrayCall.entry, List.filterMap_cons, ih]
      · simp [ArrayCall.entry, List.filterMap_cons, ih]
      · simp [ArrayCall.entry, ih]
      · obtain ⟨rfl, ha, q, rfl⟩ := he
        obtain ⟨b, rfl⟩ := Option.isSome_iff_exists.mp ha
        simp [ArrayCall.entry, List.count_cons, ih]

/-- **Calls that are orderly release each pointer once if and only if they are balanced.** -/
theorem ArrayVm.Orderly.releasedOnce_iff {vm : ArrayVm A V} (h : vm.Orderly mode) :
    ReleasedOnce mode vm.calls ↔ Ledger.Balanced vm.ledger := by
  constructor
  · rintro ⟨hget, hrelease⟩ ⟨a, p⟩
    unfold ArrayVm.ledger
    rw [released_calls h.proper, acquired_calls]
    by_cases hmem : .getArrayElements a (some p) ∈ vm.calls
    · have h1 := h.once (a, p)
      rw [ArrayVm.ledger, acquired_calls] at h1
      have := List.count_pos_iff.mpr hmem
      rw [hget a p hmem]
      omega
    · rw [List.count_eq_zero.mpr hmem, List.count_eq_zero]
      intro hr
      obtain ⟨-, a', p', ha, hp, hmem'⟩ := hrelease _ _ _ hr
      cases ha
      cases hp
      exact hmem hmem'
  · intro hb
    have hcount : ∀ a p, vm.calls.count (.releaseArrayElements (some a) (.elements p) mode) =
        vm.calls.count (.getArrayElements a (some p)) := by
      intro a p
      rw [← released_calls h.proper, ← acquired_calls]
      exact hb (a, p)
    refine ⟨fun a p hmem => ?_, fun array ptr mode' hmem => ?_⟩
    · have h1 := h.once (a, p)
      rw [ArrayVm.ledger, acquired_calls] at h1
      have := List.count_pos_iff.mpr hmem
      rw [hcount]
      omega
    · obtain ⟨rfl, ha, p, rfl⟩ := h.proper _ hmem
      obtain ⟨a, rfl⟩ := Option.isSome_iff_exists.mp ha
      refine ⟨rfl, a, p, rfl, rfl, List.count_pos_iff.mp ?_⟩
      rw [← hcount]
      exact List.count_pos_iff.mpr hmem

namespace ArrayVm

variable (vm : ArrayVm A V) (a : A) (p : ℕ)

omit [DecidableEq A] in
@[simp] theorem ledger_call (c : OtherCall) : (vm.call c).ledger = vm.ledger := by
  simp [ledger, call, ArrayCall.entry]

omit [DecidableEq A] in
@[simp] theorem ledger_getArrayElements (answer : Option Bool) :
    (vm.getArrayElements a answer).2.ledger =
      vm.ledger ++ if answer.isSome then [.acquire (a, vm.next)] else [] := by
  cases answer <;> simp [ledger, getArrayElements, ArrayCall.entry]

@[simp] theorem ledger_releaseArrayElements (mode : ReleaseMode) :
    (vm.releaseArrayElements (some a) (.elements p) mode).ledger =
      vm.ledger ++ [.release (a, p)] := by
  simp [ledger, releaseArrayElements, ArrayCall.entry]

theorem orderly_initial (contents : A → List V) (mode : ReleaseMode) :
    (initial contents).Orderly mode where
  proper := fun _ he => absurd he List.not_mem_nil
  once := fun _ => Nat.zero_le _
  old := fun _ _ => rfl

variable {vm a p}

theorem Orderly.call (h : vm.Orderly mode) (c : OtherCall) : (vm.call c).Orderly mode where
  proper := by
    intro e he
    rcases List.mem_append.mp he with he | he
    · exact h.proper e he
    · rw [List.mem_singleton.mp he]
      trivial
  once := by
    rw [ledger_call]
    exact h.once
  old := by
    rw [ledger_call]
    exact h.old

theorem Orderly.getArrayElements (h : vm.Orderly mode) (answer : Option Bool) :
    (vm.getArrayElements a answer).2.Orderly mode where
  proper := by
    intro e he
    cases answer <;>
    · rcases List.mem_append.mp he with he | he
      · exact h.proper e he
      · rw [List.mem_singleton.mp he]
        trivial
  once := by
    intro x
    rw [ledger_getArrayElements]
    cases answer with
    | none => simpa using h.once x
    | some isCopy =>
        rw [Option.isSome_some, if_pos rfl, Ledger.acquired_acquire]
        by_cases hx : (a, vm.next) = x
        · subst hx
          have := h.old (a, vm.next) (Nat.le_refl _)
          rw [if_pos rfl]
          omega
        · rw [if_neg hx]
          exact h.once x
  old := by
    intro x hx
    rw [ledger_getArrayElements]
    cases answer with
    | none => simpa using h.old x hx
    | some isCopy =>
        have hle : vm.next + 1 ≤ x.2 := hx
        have hne : (a, vm.next) ≠ x := by
          rintro rfl
          exact absurd hle (Nat.not_succ_le_self _)
        rw [Option.isSome_some, if_pos rfl, Ledger.acquired_acquire, if_neg hne,
          h.old x (by omega)]

theorem Orderly.releaseArrayElements (h : vm.Orderly mode) :
    (vm.releaseArrayElements (some a) (.elements p) mode).Orderly mode where
  proper := by
    intro e he
    rcases List.mem_append.mp he with he | he
    · exact h.proper e he
    · rw [List.mem_singleton.mp he]
      exact ⟨rfl, rfl, p, rfl⟩
  once := by
    intro x
    rw [ledger_releaseArrayElements, Ledger.acquired_release]
    exact h.once x
  old := by
    intro x hx
    rw [ledger_releaseArrayElements, Ledger.acquired_release]
    exact h.old x hx

/-- What a release of what is held, if anything, does to the ledger. -/
theorem ledger_release_held {array : Option A} {ptr : RawArray} (hw : vm.HandedOut array ptr)
    (hp : ptr = .elements p) (mode : ReleaseMode) :
    (vm.releaseArrayElements array ptr mode).ledger =
      vm.ledger ++ ((heldElements array ptr).map .release).toList := by
  obtain ⟨a, _, rfl, -⟩ := hw p hp
  subst hp
  exact vm.ledger_releaseArrayElements a p mode

theorem Orderly.release_held (h : vm.Orderly mode) {array : Option A} {ptr : RawArray}
    (hw : vm.HandedOut array ptr) (hp : ptr = .elements p) :
    (vm.releaseArrayElements array ptr mode).Orderly mode := by
  obtain ⟨a, _, rfl, -⟩ := hw p hp
  subst hp
  exact h.releaseArrayElements

end ArrayVm

end ledger
end NativeHelper
