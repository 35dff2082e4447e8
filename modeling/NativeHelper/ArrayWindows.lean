import NativeHelper.ArrayPrograms

/-! # Array wrappers as windows

An object that has elements is a window on its array, and a method is what it does to that window:
one that takes elements opens it (`reset_outcome`), the destructor closes it (`destructor_window`),
and a write goes to the array or to the copy (`assign_direct`, `assign_copy`). -/

namespace NativeHelper
namespace ArrayPrograms

open Windows (Mode View Window setCell)

variable {A V : Type}

namespace Wrapper

/-- What the pointer of the object shows. -/
def view (w : Wrapper A V) (vm : ArrayVm A V) : Option (View V) :=
  match w.mRawArray with
  | .null => none
  | .buffer => some (.copy w.buffered)
  | .elements p => (vm.elements p).map Prod.snd

def window (w : Wrapper A V) (vm : ArrayVm A V) : Option (Window A V) :=
  w.mJavaArray.bind fun a => (w.view vm).map fun view => ⟨a, w.mode, view⟩

/-- The object has no elements, or has them in its buffer, or points to memory that was handed out
for its array. -/
inductive Sound (vm : ArrayVm A V) : Wrapper A V → Prop
  | null {w : Wrapper A V} (h : w.mRawArray = .null) : Sound vm w
  | buffer (a : A) (cells : List V) (rest : List (Option V)) :
      Sound vm (.ro ⟨some a, .buffer, cells.length, cells.map some ++ rest⟩)
  | elements {w : Wrapper A V} {p : ℕ} {a : A} {view : View V} (hp : w.mRawArray = .elements p)
      (ha : w.mJavaArray = some a) (hv : vm.elements p = some (a, view)) (hlt : p < vm.next) :
      Sound vm w

variable {vm vm' : ArrayVm A V} {w : Wrapper A V}

theorem view_null (h : w.mRawArray = .null) : w.view vm = none := by
  unfold view
  rw [h]

theorem view_elements {p : ℕ} (h : w.mRawArray = .elements p) :
    w.view vm = (vm.elements p).map Prod.snd := by
  unfold view
  rw [h]

theorem window_null (h : w.mRawArray = .null) : w.window vm = none := by
  unfold window
  rw [view_null h]
  cases w.mJavaArray <;> rfl

theorem window_elements {p : ℕ} {a : A} {view : View V} (hp : w.mRawArray = .elements p)
    (ha : w.mJavaArray = some a) (hv : vm.elements p = some (a, view)) :
    w.window vm = some ⟨a, w.mode, view⟩ := by
  unfold window
  rw [ha, view_elements hp, hv]
  rfl

theorem window_buffer (a : A) (cells : List V) (rest : List (Option V)) :
    window (.ro ⟨some a, .buffer, cells.length, cells.map some ++ rest⟩) vm =
      some ⟨a, .shared, .copy cells⟩ := by
  have hlen : cells.length = (cells.map some).length := (List.length_map _).symm
  show some (Window.mk a .shared (.copy
    (((cells.map some ++ rest).take cells.length).reduceOption))) = _
  have hsome : (cells.map some).reduceOption = cells := by
    show (cells.map some).filterMap id = cells
    rw [List.filterMap_map]
    exact List.filterMap_some
  rw [hlen, List.take_left, hsome]

/-- Memory that is left alone is sound and shows what it showed. -/
theorem Sound.same (h : w.Sound vm) (hnext : vm.next ≤ vm'.next)
    (hp : ∀ p, w.mRawArray = .elements p → vm'.elements p = vm.elements p) :
    w.Sound vm' ∧ w.window vm' = w.window vm := by
  cases h with
  | null h => exact ⟨.null h, by rw [window_null h, window_null h]⟩
  | buffer a cells rest => exact ⟨.buffer a cells rest, by rw [window_buffer, window_buffer]⟩
  | @elements _ p a view hp' ha hv hlt =>
      have hv' : vm'.elements p = some (a, view) := (hp p hp').trans hv
      refine ⟨.elements hp' ha hv' (Nat.lt_of_lt_of_le hlt hnext), ?_⟩
      rw [window_elements hp' ha hv, window_elements hp' ha hv']

/-- Through a window the object reads the cells of the window. -/
theorem Sound.index (h : w.Sound vm) {u : Window A V} (hu : w.window vm = some u) {n : ℕ}
    (hn : n < (u.cells vm.contents).length) : w.index vm n = (u.cells vm.contents)[n]? := by
  cases h with
  | null h =>
      rw [window_null h] at hu
      cases hu
  | buffer a cells rest =>
      rw [window_buffer, Option.some.injEq] at hu
      subst hu
      replace hn : n < cells.length := hn
      show ((cells.map some ++ rest)[n]?).join = cells[n]?
      rw [List.getElem?_append_left (by rwa [List.length_map]), List.getElem?_map,
        List.getElem?_eq_getElem hn]
      rfl
  | @elements _ p a view hp ha hv hlt =>
      rw [window_elements hp ha hv, Option.some.injEq] at hu
      subst hu
      have hload : w.index vm n = vm.load (.elements p) n := by
        cases w with
        | ro obj =>
            replace hp : obj.mRawArray = .elements p := hp
            show obj.index vm n = _
            rw [ScopedArrayRO.index, hp]
        | rw obj =>
            replace hp : obj.mRawArray = .elements p := hp
            show obj.index vm n = _
            rw [ScopedArrayRW.index, hp]
      rw [hload, ArrayVm.load_elements hv]
      cases view with
      | direct => rw [ArrayVm.shown_direct hv, Window.cells]
      | copy cells => rw [ArrayVm.shown_copy hv, Window.cells]

/-- What a `reset` or a constructor comes to: the object has a window on its array or none. -/
structure Outcome (vm vm' : ArrayVm A V) (w : Wrapper A V) (a : A) (mode : Mode)
    (obtained : Bool) : Prop where
  sameMode : w.mode = mode
  array : w.mJavaArray = some a
  sound : w.Sound vm'
  contents : vm'.contents = vm.contents
  window : if obtained then ∃ copies, w.window vm' = some (.opened vm.contents a mode copies)
    else w.window vm' = none
  thrown : vm'.thrown = vm.thrown
  next : vm.next ≤ vm'.next
  keeps : ∀ p < vm.next, vm'.elements p = vm.elements p
  fresh : ∀ p, w.mRawArray = .elements p → vm.next ≤ p
  sized : ∀ obj, w = .ro obj → obj.mSize = (vm.contents a).length

theorem getArrayElements_outcome {w : Wrapper A V} {a : A} (answer : Option Bool)
    (ha : w.mJavaArray = some a) (hraw : w.mRawArray = (vm.getArrayElements a answer).1)
    (hsize : ∀ obj, w = .ro obj → obj.mSize = (vm.contents a).length) :
    Outcome vm (vm.getArrayElements a answer).2 w a w.mode answer.isSome := by
  cases answer with
  | none =>
      have hnull : w.mRawArray = .null := hraw
      refine ⟨rfl, ha, .null hnull, rfl, window_null hnull, vm.thrown_getArrayElements a none,
        Nat.le_refl _, fun p _ => rfl, ?_, hsize⟩
      intro p hp
      cases hnull.symm.trans hp
  | some isCopy =>
      have hp : w.mRawArray = .elements vm.next := hraw
      have hv : (vm.getArrayElements a (some isCopy)).2.elements vm.next =
          some (a, if isCopy then .copy (vm.contents a) else .direct) := Function.update_self ..
      refine ⟨rfl, ha, .elements hp ha hv (Nat.lt_succ_self _), rfl, ?_,
        vm.thrown_getArrayElements a (some isCopy), Nat.le_succ _, ?_, ?_, hsize⟩
      · rw [Option.isSome_some, if_pos rfl]
        exact ⟨isCopy, window_elements hp ha hv⟩
      · intro p hlt
        exact Function.update_of_ne (Nat.ne_of_lt hlt) _ _
      · intro p hp'
        cases hp.symm.trans hp'
        exact Nat.le_refl _

/-- **A `reset` opens a window** on the array, unless the VM does not hand out what is needed. -/
theorem reset_outcome (w : Wrapper A V) (a : A) (answer : Option Bool) (vm : ArrayVm A V) :
    Outcome vm (w.reset a answer vm).2 (w.reset a answer vm).1 a w.mode
      (obtains w.mode (vm.contents a).length answer) := by
  cases w with
  | rw obj =>
      exact getArrayElements_outcome (w := .rw ⟨some a, (vm.getArrayElements a answer).1⟩) answer
        rfl rfl (by rintro obj ⟨⟩)
  | ro obj =>
      by_cases hfits : (vm.contents a).length ≤ ScopedArrayRO.bufferSize
      · -- the array fits into the buffer
        have hreset : obj.reset a answer vm =
            (⟨some a, .buffer, (vm.contents a).length,
              (vm.contents a).map some ++ obj.mBuffer.drop (vm.contents a).length⟩, vm) := by
          rw [ScopedArrayRO.reset_buffer hfits, ArrayVm.getArrayLength, ArrayVm.getArrayRegion,
            List.drop_zero, List.take_length]
        show Outcome vm (id (obj.reset a answer vm).2) (.ro (obj.reset a answer vm).1) _ _ _
        rw [hreset]
        refine ⟨rfl, rfl, .buffer .., rfl, ?_, rfl, Nat.le_refl _, fun p _ => rfl, ?_, ?_⟩
        · have hob : obtains .shared (vm.contents a).length answer = true := by
            simp [obtains, hfits]
          show if obtains .shared (vm.contents a).length answer then _ else _
          rw [hob, if_pos rfl]
          exact ⟨true, window_buffer ..⟩
        · rintro p ⟨⟩
        · rintro _ ⟨⟩
          rfl
      · have hreset : obj.reset a answer vm =
            (⟨some a, (vm.getArrayElements a answer).1, (vm.contents a).length, obj.mBuffer⟩,
              (vm.getArrayElements a answer).2) := ScopedArrayRO.reset_elements hfits obj answer
        have hob : obtains .shared (vm.contents a).length answer = answer.isSome := by
          simp [obtains, hfits]
        show Outcome vm (id (obj.reset a answer vm).2) (.ro (obj.reset a answer vm).1) a .shared
          (obtains .shared (vm.contents a).length answer)
        rw [hreset, hob]
        refine getArrayElements_outcome (w := .ro ⟨some a, (vm.getArrayElements a answer).1,
          (vm.contents a).length, obj.mBuffer⟩) answer rfl rfl ?_
        rintro _ ⟨⟩
        rfl

/-- A constructor does what the one without an array and a `reset` do. -/
theorem construct_eq_reset (mode : Mode) (a : A) (answer : Option Bool) (vm : ArrayVm A V) :
    construct mode (some a) answer vm = (empty mode).reset a answer vm := by
  cases mode <;> rfl

theorem construct_none (mode : Mode) (answer : Option Bool) (vm : ArrayVm A V) :
    construct mode none answer vm = (empty mode, vm.call .throwNullPointerException) := by
  cases mode <;> rfl

theorem mode_empty (mode : Mode) : (empty mode : Wrapper A V).mode = mode := by
  cases mode <;> rfl

theorem empty_null (mode : Mode) : (empty mode : Wrapper A V).mRawArray = .null := by
  cases mode <;> rfl

/-- The mode in which a destructor releases. -/
def releaseMode : Mode → ReleaseMode
  | .shared => .abort
  | .exclusive => .copyBack

section destructor
variable [DecidableEq A]

theorem destructor_null (h : w.mRawArray = .null) : w.destructor vm = vm := by
  cases w with
  | ro obj =>
      replace h : obj.mRawArray = .null := h
      show obj.destructor vm = vm
      rw [ScopedArrayRO.destructor, if_neg (fun hne => hne.1 h)]
  | rw obj =>
      replace h : obj.mRawArray = .null := h
      show obj.destructor vm = vm
      rw [ScopedArrayRW.destructor, if_neg (not_not.mpr h)]

theorem destructor_elements {p : ℕ} {a : A} (hp : w.mRawArray = .elements p)
    (ha : w.mJavaArray = some a) :
    w.destructor vm = vm.releaseArrayElements (some a) (.elements p) (releaseMode w.mode) := by
  cases w with
  | ro obj =>
      replace hp : obj.mRawArray = .elements p := hp
      replace ha : obj.mJavaArray = some a := ha
      show obj.destructor vm = _
      rw [ScopedArrayRO.destructor, if_pos (by simp [hp]), hp, ha]
      rfl
  | rw obj =>
      replace hp : obj.mRawArray = .elements p := hp
      replace ha : obj.mJavaArray = some a := ha
      show obj.destructor vm = _
      rw [ScopedArrayRW.destructor, if_pos (by simp [hp]), hp, ha]
      rfl

/-- Only the copy of a read-write object is written back. -/
theorem contents_release {p : ℕ} {a : A} {view : View V} (hv : vm.elements p = some (a, view))
    (mode : Mode) :
    (vm.releaseArrayElements (some a) (.elements p) (releaseMode mode)).contents =
      Window.writtenBack ⟨a, mode, view⟩ vm.contents := by
  cases mode with
  | shared => rfl
  | exclusive =>
      show Function.update vm.contents a (vm.shown a p) = _
      cases view with
      | direct =>
          rw [ArrayVm.shown_direct hv, Function.update_eq_self]
          rfl
      | copy cells =>
          rw [ArrayVm.shown_copy hv]
          rfl

/-- **The destructor closes the window**: it writes back what a read-write object has a copy of,
and takes back the memory of the object, no other. -/
theorem destructor_window (h : w.Sound vm) :
    (∀ u, w.window vm = some u → (w.destructor vm).contents = u.writtenBack vm.contents) ∧
      (w.window vm = none → (w.destructor vm).contents = vm.contents) ∧
      (w.destructor vm).thrown = vm.thrown ∧ (w.destructor vm).next = vm.next ∧
      ∀ q, w.mRawArray ≠ .elements q → (w.destructor vm).elements q = vm.elements q := by
  cases h with
  | null h =>
      rw [destructor_null h]
      refine ⟨fun u hu => ?_, fun _ => rfl, rfl, rfl, fun _ _ => rfl⟩
      rw [window_null h] at hu
      cases hu
  | buffer a cells rest =>
      refine ⟨fun u hu => ?_, fun _ => rfl, rfl, rfl, fun _ _ => rfl⟩
      rw [window_buffer, Option.some.injEq] at hu
      subst hu
      rfl
  | @elements _ p a view hp ha hv hlt =>
      have hw := window_elements hp ha hv
      rw [destructor_elements hp ha]
      refine ⟨fun u hu => ?_, fun hnone => ?_, vm.thrown_releaseArrayElements .., rfl,
        fun q hq => ?_⟩
      · rw [hw, Option.some.injEq] at hu
        subst hu
        exact contents_release hv w.mode
      · rw [hw] at hnone
        cases hnone
      · exact Function.update_of_ne (fun e : q = p => hq (e ▸ hp)) _ _

section assign
variable {obj : ScopedArrayRW A} {p n : ℕ} {a : A}

/-- A write through a read-write object goes to the array, ... -/
theorem assign_direct (hp : obj.mRawArray = .elements p) (hv : vm.elements p = some (a, .direct))
    (hn : n < (vm.contents a).length) (v : V) :
    assign (.rw obj) vm n v = some { vm with contents := setCell vm.contents a n v } := by
  show obj.assign vm n v = _
  rw [ScopedArrayRW.assign, hp, ArrayVm.store_direct hv, if_pos hn]

/-- ... or to the copy in the memory of the object. -/
theorem assign_copy {cells : List V} (hp : obj.mRawArray = .elements p)
    (hv : vm.elements p = some (a, .copy cells)) (hn : n < cells.length) (v : V) :
    assign (.rw obj) vm n v = some { vm with
      elements := Function.update vm.elements p (some (a, .copy (cells.set n v))) } := by
  show obj.assign vm n v = _
  rw [ScopedArrayRW.assign, hp, ArrayVm.store_copy hv, if_pos hn]

end assign

end destructor

end Wrapper

end ArrayPrograms
end NativeHelper
