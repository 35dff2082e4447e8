import Mathlib.Data.List.Basic
import Mathlib.Logic.Function.Basic

/-! # Windows on regions of memory

Programs work on regions of cells directly or through windows, each of them on one region, to read
only (`shared`) or to read and write (`exclusive`).  A window shows the region itself or a copy, as
the system likes; an exclusive one with a copy writes it back when it is closed.

The program cannot tell the one from the other as long as nobody writes to a region beside a window
and nobody touches a region beside an exclusive window: every window then shows what would be in its
region if there were no copies (`Shows`).  There is one rule for each thing that can be done:
`Shows.enter`, `Shows.write`, `Shows.leave` and `Shows.store`, and `Shows.clear` for a window that is
dropped. -/

namespace Windows

inductive Mode where
  | shared
  | exclusive
deriving DecidableEq, Repr

/-- What a window shows. -/
inductive View (V : Type) where
  | direct
  | copy (cells : List V)
deriving DecidableEq, Repr

structure Window (A V : Type) where
  region : A
  mode : Mode
  view : View V
deriving DecidableEq, Repr

/-- The cells of the regions, and the open windows. -/
structure State (O A V : Type) where
  contents : A → List V
  window : O → Option (Window A V)

variable {O A V : Type}

/-- The cells that the window shows. -/
def Window.cells (w : Window A V) (contents : A → List V) : List V :=
  match w.view with
  | .direct => contents w.region
  | .copy cells => cells

/-- The window on a region that the system opens. -/
def Window.opened (contents : A → List V) (region : A) (mode : Mode) (copies : Bool) :
    Window A V :=
  ⟨region, mode, if copies then .copy (contents region) else .direct⟩

@[simp] theorem Window.cells_opened (contents : A → List V) (region : A) (mode : Mode)
    (copies : Bool) : (Window.opened contents region mode copies).cells contents =
      contents region := by
  cases copies <;> rfl

section system
variable [DecidableEq O] [DecidableEq A]

def setCell (contents : A → List V) (region : A) (n : ℕ) (v : V) : A → List V :=
  Function.update contents region ((contents region).set n v)

def State.enter (s : State O A V) (o : O) (region : A) (mode : Mode) (copies : Bool) :
    State O A V :=
  { s with window := Function.update s.window o (some (.opened s.contents region mode copies)) }

/-- `w` is the window at `o`. -/
def State.write (s : State O A V) (o : O) (w : Window A V) (n : ℕ) (v : V) : State O A V :=
  match w.view with
  | .direct => { s with contents := setCell s.contents w.region n v }
  | .copy cells =>
      { s with window := Function.update s.window o (some { w with view := .copy (cells.set n v) }) }

/-- The contents when the window is closed. -/
def Window.writtenBack (w : Window A V) (contents : A → List V) : A → List V :=
  match w.mode, w.view with
  | .exclusive, .copy cells => Function.update contents w.region cells
  | .exclusive, .direct | .shared, _ => contents

def State.leave (s : State O A V) (o : O) (w : Window A V) : State O A V :=
  ⟨w.writtenBack s.contents, Function.update s.window o none⟩

end system

/-! ### As if every window showed its region -/

/-- The regions, and who accesses which of them and how. -/
structure Plain (O A V : Type) where
  contents : A → List V
  access : O → Option (A × Mode)

/-- The region is accessed to read only, if it is. -/
def Plain.NotExclusive (p : Plain O A V) (region : A) : Prop :=
  ∀ o mode, p.access o = some (region, mode) → mode = .shared

/-- The region is not accessed. -/
def Plain.Free (p : Plain O A V) (region : A) : Prop :=
  ∀ o mode, p.access o ≠ some (region, mode)

/-- The region can be accessed in this mode. -/
def Plain.Opens (p : Plain O A V) (region : A) : Mode → Prop
  | .shared => p.NotExclusive region
  | .exclusive => p.Free region

theorem Plain.Free.notExclusive {p : Plain O A V} {region : A} (h : p.Free region) :
    p.NotExclusive region := fun o mode ho => absurd ho (h o mode)

theorem Plain.Opens.notExclusive {p : Plain O A V} {region : A} {mode : Mode}
    (h : p.Opens region mode) : p.NotExclusive region := by
  cases mode with
  | shared => exact h
  | exclusive => exact Free.notExclusive h

/-- Who accesses a region to write is alone. -/
def Plain.Sole (p : Plain O A V) : Prop :=
  ∀ o o' region mode, p.access o = some (region, .exclusive) → p.access o' = some (region, mode) →
    o = o'

/-- Every window shows what is to be in its region, and a region without an exclusive window has
it; beside an exclusive window there is no other one. -/
structure Shows (s : State O A V) (p : Plain O A V) : Prop where
  access : ∀ o, p.access o = (s.window o).map fun w => (w.region, w.mode)
  cells : ∀ o w, s.window o = some w → w.cells s.contents = p.contents w.region
  rest : ∀ region, p.NotExclusive region → s.contents region = p.contents region
  sole : p.Sole

theorem shows_initial (contents : A → List V) :
    Shows (⟨contents, fun _ => none⟩ : State O A V) ⟨contents, fun _ => none⟩ where
  access := fun _ => rfl
  cells := by rintro o w ⟨⟩
  rest := fun _ _ => rfl
  sole := by rintro o o' region mode ⟨⟩

section actions
variable {s : State O A V} {p : Plain O A V} {o : O} {w : Window A V}

theorem Shows.access_eq (h : Shows s p) (ho : s.window o = some w) :
    p.access o = some (w.region, w.mode) := by
  rw [h.access, ho, Option.map_some]

/-- What is accessed has a window. -/
theorem Shows.window_eq (h : Shows s p) {a : A × Mode} (ha : p.access o = some a) :
    ∃ w, s.window o = some w ∧ w.region = a.1 ∧ w.mode = a.2 := by
  rw [h.access] at ha
  obtain ⟨w, hw, rfl⟩ := Option.map_eq_some_iff.mp ha
  exact ⟨w, hw, rfl, rfl⟩

section windows
variable [DecidableEq O]

/-- What is found after an update is new, or was there before. -/
theorem update_cases {β : Type} {f : O → Option β} {new : Option β} {o' : O} {b : β}
    (h : Function.update f o new o' = some b) : o' = o ∧ new = some b ∨ o' ≠ o ∧ f o' = some b := by
  by_cases e : o' = o
  · rw [e, Function.update_self] at h
    exact .inl ⟨e, h⟩
  · rw [Function.update_of_ne e] at h
    exact .inr ⟨e, h⟩

theorem of_update_none {β : Type} {f : O → Option β} {o' : O} {b : β}
    (h : Function.update f o none o' = some b) : f o' = some b := by
  rcases update_cases h with ⟨-, hb⟩ | ⟨-, hb⟩
  · cases hb
  · exact hb

theorem Shows.access_update (h : Shows s p) (new : Option (Window A V)) (o' : O) :
    Function.update p.access o (new.map fun w => (w.region, w.mode)) o' =
      (Function.update s.window o new o').map fun w => (w.region, w.mode) := by
  by_cases e : o' = o
  · rw [e, Function.update_self, Function.update_self]
  · rw [Function.update_of_ne e, Function.update_of_ne e, h.access]

/-- A window is opened. -/
theorem Shows.enter (h : Shows s p) (hnone : p.access o = none) {region : A} {mode : Mode}
    (hopens : p.Opens region mode) (copies : Bool) : Shows (s.enter o region mode copies)
      { p with access := Function.update p.access o (some (region, mode)) } := by
  refine ⟨h.access_update (some (.opened s.contents region mode copies)), ?_, ?_, ?_⟩
  · intro o' w' ho'
    rcases update_cases ho' with ⟨-, hw⟩ | ⟨-, ho'⟩
    · cases hw
      exact (Window.cells_opened s.contents region mode copies).trans
        (h.rest region hopens.notExclusive)
    · exact h.cells o' w' ho'
  · intro region' hne
    refine h.rest region' fun o' mode' ho' => hne o' mode' ?_
    have e : o' ≠ o := by
      rintro rfl
      rw [hnone] at ho'
      cases ho'
    exact (Function.update_of_ne e _ _).trans ho'
  · intro o₁ o₂ region' mode' h₁ h₂
    rcases update_cases h₁ with ⟨e₁, hw₁⟩ | ⟨-, h₁'⟩ <;>
      rcases update_cases h₂ with ⟨e₂, hw₂⟩ | ⟨-, h₂'⟩
    · rw [e₁, e₂]
    · cases hw₁
      exact absurd h₂' (hopens o₂ mode')
    · cases hw₂
      -- an older exclusive window would have been in the way
      cases hopens.notExclusive o₁ .exclusive h₁'
    · exact h.sole o₁ o₂ region' mode' h₁' h₂'

/-- A window that is not exclusive goes without a trace. -/
theorem Shows.clear (h : Shows s p) (hshared : ∀ a, p.access o = some a → a.2 = .shared) :
    Shows { s with window := Function.update s.window o none }
      { p with access := Function.update p.access o none } := by
  refine ⟨h.access_update none, ?_, ?_, ?_⟩
  · exact fun o' w' ho' => h.cells o' w' (of_update_none ho')
  · intro region hnot
    refine h.rest region fun o' mode ho' => ?_
    by_cases e : o' = o
    · exact hshared _ (e ▸ ho')
    · exact hnot o' mode ((Function.update_of_ne e _ _).trans ho')
  · intro o₁ o₂ region mode h₁ h₂
    exact h.sole o₁ o₂ region mode (of_update_none h₁) (of_update_none h₂)

/-- What can be opened can be opened when a window has gone. -/
theorem Plain.Opens.clear {region : A} {mode : Mode} (h : p.Opens region mode) (o : O) :
    Plain.Opens { p with access := Function.update p.access o none } region mode := by
  cases mode with
  | shared => exact fun o' mode ho' => h o' mode (of_update_none ho')
  | exclusive => exact fun o' mode ho' => h o' mode (of_update_none ho')

end windows

variable [DecidableEq A]

/-- A cell of a region is written that all its windows show. -/
theorem Shows.setCell (h : Shows s p) {region : A}
    (hdirect : ∀ o w, s.window o = some w → w.region = region → w.view = .direct)
    (heq : s.contents region = p.contents region) (n : ℕ) (v : V) :
    Shows { s with contents := setCell s.contents region n v }
      { p with contents := setCell p.contents region n v } := by
  have hset : Windows.setCell s.contents region n v region =
      Windows.setCell p.contents region n v region := by
    rw [Windows.setCell, Windows.setCell, Function.update_self, Function.update_self, heq]
  have hne : ∀ r, r ≠ region → Windows.setCell s.contents region n v r = s.contents r ∧
      Windows.setCell p.contents region n v r = p.contents r :=
    fun r e => ⟨Function.update_of_ne e _ _, Function.update_of_ne e _ _⟩
  refine ⟨h.access, ?_, ?_, h.sole⟩
  · intro o' w' ho'
    replace ho' : s.window o' = some w' := ho'
    have hw' := h.cells o' w' ho'
    obtain ⟨region', mode', view'⟩ := w'
    show Window.cells _ (Windows.setCell s.contents region n v) =
      Windows.setCell p.contents region n v region'
    by_cases e : region' = region
    · obtain rfl : view' = .direct := hdirect o' _ ho' e
      subst e
      exact hset
    · rw [(hne region' e).2, ← hw']
      cases view' with
      | direct => exact (hne region' e).1
      | copy cells => rfl
  · intro region' hnot
    show Windows.setCell s.contents region n v region' = Windows.setCell p.contents region n v region'
    by_cases e : region' = region
    · rw [e]
      exact hset
    · rw [(hne region' e).1, (hne region' e).2]
      exact h.rest region' hnot

/-- A cell of a region without a window is written. -/
theorem Shows.store (h : Shows s p) {region : A} (hfree : p.Free region) (n : ℕ) (v : V) :
    Shows { s with contents := Windows.setCell s.contents region n v }
      { p with contents := Windows.setCell p.contents region n v } := by
  refine h.setCell (fun o w ho hr => ?_) (h.rest region hfree.notExclusive) n v
  subst hr
  exact absurd (h.access_eq ho) (hfree o w.mode)

variable [DecidableEq O]

/-- An exclusive window gets new cells to show. -/
theorem Shows.setCopy (h : Shows s p) {region : A} {view : View V}
    (ho : s.window o = some ⟨region, .exclusive, view⟩) (cells : List V) :
    Shows { s with window := Function.update s.window o (some ⟨region, .exclusive, .copy cells⟩) }
      { p with contents := Function.update p.contents region cells } := by
  have hacc := h.access_eq ho
  refine ⟨fun o' => ?_, ?_, ?_, h.sole⟩
  · show p.access o' = (Function.update s.window o _ o').map _
    rw [← h.access_update]
    by_cases e : o' = o
    · rw [e, Function.update_self, hacc]
      rfl
    · rw [Function.update_of_ne e]
  · intro o' w' ho'
    rcases update_cases ho' with ⟨-, hw⟩ | ⟨e, hold⟩
    · cases hw
      show cells = Function.update p.contents region cells region
      rw [Function.update_self]
    · have hr : w'.region ≠ region := fun hr =>
        e (h.sole o o' region w'.mode hacc (hr ▸ h.access_eq hold)).symm
      exact (h.cells o' w' hold).trans (Function.update_of_ne hr _ _).symm
  · intro region' hnot
    have e : region' ≠ region := by
      rintro rfl
      cases hnot o .exclusive hacc
    exact (h.rest region' hnot).trans (Function.update_of_ne e _ _).symm

/-- A cell is written through an exclusive window. -/
theorem Shows.write (h : Shows s p) (ho : s.window o = some w) (hmode : w.mode = .exclusive)
    (n : ℕ) (v : V) :
    Shows (s.write o w n v) { p with contents := Windows.setCell p.contents w.region n v } := by
  have hcells := h.cells o w ho
  have hacc := h.access_eq ho
  obtain ⟨region, mode, view⟩ := w
  cases hmode
  cases view with
  | direct =>
      refine h.setCell (fun o' w' ho' hr => ?_) hcells n v
      replace hr : w'.region = region := hr
      obtain rfl : o = o' := h.sole o o' region w'.mode hacc (hr ▸ h.access_eq ho')
      rw [← Option.some.inj (ho.symm.trans ho')]
  | copy cells =>
      replace hcells : cells = p.contents region := hcells
      have hset := h.setCopy ho (cells.set n v)
      rw [hcells] at hset
      rw [State.write, hcells]
      exact hset

/-- Only an exclusive window writes back, to its own region. -/
theorem State.contents_leave (s : State O A V) (o : O) (w : Window A V) (region : A) :
    (s.leave o w).contents region = s.contents region ∨
      w.mode = .exclusive ∧ region = w.region := by
  obtain ⟨region', mode, view⟩ := w
  cases mode with
  | shared => exact .inl rfl
  | exclusive =>
      cases view with
      | direct => exact .inl rfl
      | copy cells =>
          by_cases e : region = region'
          · exact .inr ⟨rfl, e⟩
          · exact .inl (Function.update_of_ne e _ _)

/-- The region of an exclusive window has what it is to contain when the window is closed. -/
theorem Shows.contents_leave_self (h : Shows s p) (ho : s.window o = some w)
    (hmode : w.mode = .exclusive) : (s.leave o w).contents w.region = p.contents w.region := by
  have hcells := h.cells o w ho
  obtain ⟨region, mode, view⟩ := w
  cases hmode
  cases view with
  | direct => exact hcells
  | copy cells => exact (Function.update_self ..).trans hcells

/-- A window is closed. -/
theorem Shows.leave (h : Shows s p) (ho : s.window o = some w) :
    Shows (s.leave o w) { p with access := Function.update p.access o none } := by
  have hacc := h.access_eq ho
  refine ⟨h.access_update none, ?_, ?_, ?_⟩
  · intro o' w' ho'
    rcases update_cases ho' with ⟨-, hw⟩ | ⟨e, ho'⟩
    · cases hw
    · show w'.cells (s.leave o w).contents = p.contents w'.region
      rw [← h.cells o' w' ho']
      have hk : (s.leave o w).contents w'.region = s.contents w'.region := by
        rcases s.contents_leave o w w'.region with hk | ⟨hmode, hr⟩
        · exact hk
        · rw [hmode, ← hr] at hacc
          exact absurd (h.sole o o' _ w'.mode hacc (h.access_eq ho')).symm e
      obtain ⟨region', mode', view'⟩ := w'
      cases view' with
      | direct => exact hk
      | copy cells => rfl
  · intro region' hnot
    show (s.leave o w).contents region' = p.contents region'
    by_cases e : w.mode = .exclusive ∧ region' = w.region
    · obtain ⟨hmode, rfl⟩ := e
      exact h.contents_leave_self ho hmode
    · have hk : (s.leave o w).contents region' = s.contents region' := by
        rcases s.contents_leave o w region' with hk | ⟨hmode, hr⟩
        · exact hk
        · exact absurd ⟨hmode, hr⟩ e
      rw [hk]
      refine h.rest region' fun o' mode' ho' => ?_
      by_cases e' : o' = o
      · subst e'
        rw [hacc] at ho'
        cases ho'
        cases hmode : w.mode with
        | shared => rfl
        | exclusive => exact absurd ⟨hmode, rfl⟩ e
      · exact hnot o' mode' ((Function.update_of_ne e' _ _).trans ho')
  · intro o₁ o₂ region' mode' h₁ h₂
    exact h.sole o₁ o₂ region' mode' (of_update_none h₁) (of_update_none h₂)

end actions
end Windows
