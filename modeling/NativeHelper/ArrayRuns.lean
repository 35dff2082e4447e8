import NativeHelper.ArrayWindows
import NativeHelper.Refinement

/-! # Programs with and without array wrappers

As long as no array is written beside an object for it, nor touched beside a read-write one, and no
`reset` finds elements in a read-write object, a program over wrappers reads what it would read from
the arrays themselves (`arrayPrograms_run`).  Otherwise what it reads shows whether the VM copied
(`read_beside_javaWrite`, `write_beside_other`, `write_before_reset`). -/

namespace NativeHelper
namespace ArrayPrograms

open Windows (Mode View Window Plain Shows setCell)

variable {O A V : Type}

/-- The windows of the live objects. -/
def State.windows (s : State O A V) : Windows.State O A V :=
  ⟨s.vm.contents, fun o => (s.object o).bind fun w => w.window s.vm⟩

/-- The objects are sound, no two have one pointer, they are of the class they are to be of, and
show what they are to show; the size of a read-only one is the length of its array, and all arrays
have the length they are to have. -/
structure Rel (s : State O A V) (t : Spec O A V) : Prop where
  thrown : s.vm.thrown = t.thrown
  length : ∀ a, (s.vm.contents a).length = (t.contents a).length
  sound : ∀ o w, s.object o = some w → w.Sound s.vm
  sole : ∀ o o' w w' p, s.object o = some w → s.object o' = some w' →
    w.mRawArray = .elements p → w'.mRawArray = .elements p → o = o'
  kind : ∀ o, (t.object o).map Prod.fst = (s.object o).map Wrapper.mode
  shows : Shows s.windows t.plain
  sized : ∀ o obj a, s.object o = some (.ro obj) → obj.mJavaArray = some a →
    obj.mSize = (t.contents a).length

theorem rel_initial (contents : A → List V) :
    Rel (initial contents : State O A V) (initialSpec contents) where
  thrown := rfl
  length := fun _ => rfl
  sound := by rintro o w ⟨⟩
  sole := by rintro o o' w w' p ⟨⟩
  kind := fun _ => rfl
  shows := Windows.shows_initial contents
  sized := by rintro o obj a ⟨⟩

section rel
variable {s : State O A V} {t : Spec O A V} {this : O}

/-- What is accessed has a live object with a window. -/
theorem Rel.window_eq (h : Rel s t) {a : A} {mode : Mode}
    (hacc : t.plain.access this = some (a, mode)) :
    ∃ w u, s.object this = some w ∧ w.window s.vm = some u ∧ u.region = a ∧ w.mode = mode := by
  obtain ⟨u, hu, hregion, hmode⟩ := h.shows.window_eq hacc
  obtain ⟨w, hw, hwu⟩ := Option.bind_eq_some_iff.mp hu
  refine ⟨w, u, hw, hwu, hregion, ?_⟩
  obtain ⟨b, -, hview⟩ := Option.bind_eq_some_iff.mp hwu
  obtain ⟨view, -, rfl⟩ := Option.map_eq_some_iff.mp hview
  exact hmode

theorem Rel.access_eq_none (h : Rel s t) (hobj : s.object this = none) :
    t.plain.access this = none := by
  rw [h.shows.access]
  show Option.map _ ((s.object this).bind _) = none
  rw [hobj]
  rfl

theorem Rel.object_eq_none (h : Rel s t) (hx : t.object this = none) : s.object this = none := by
  have hkind := h.kind this
  rw [hx] at hkind
  exact Option.map_eq_none_iff.mp hkind.symm

theorem Rel.object_eq (h : Rel s t) {x : Mode × Option A} (hx : t.object this = some x) :
    ∃ w, s.object this = some w ∧ w.mode = x.1 := by
  have hkind := h.kind this
  rw [hx] at hkind
  exact Option.map_eq_some_iff.mp hkind.symm

/-- An array that nobody accesses exclusively contains what it is to. -/
theorem Rel.contents_eq (h : Rel s t) {a : A} (hne : t.plain.NotExclusive a) :
    s.vm.contents a = t.contents a := h.shows.rest a hne

/-- A window shows what its array is to contain. -/
theorem Rel.cells_eq (h : Rel s t) {w : Wrapper A V} {u : Window A V}
    (hw : s.object this = some w) (hu : w.window s.vm = some u) :
    u.cells s.vm.contents = t.contents u.region :=
  h.shows.cells this u (Option.bind_eq_some_iff.mpr ⟨w, hw, hu⟩)

/-- No object points to memory that is yet to be handed out. -/
theorem Rel.pointer_lt (h : Rel s t) {o : O} {w : Wrapper A V} {p : ℕ} (ho : s.object o = some w)
    (hp : w.mRawArray = .elements p) : p < s.vm.next := by
  cases h.sound o w ho with
  | null hnull => cases hnull.symm.trans hp
  | buffer => cases hp
  | elements hp' ha hv hlt =>
      cases hp'.symm.trans hp
      exact hlt

/-- The arrays change, and the objects do not. -/
theorem Rel.setContents (h : Rel s t) {contents contents' : A → List V}
    (hlen : ∀ b, (contents b).length = (s.vm.contents b).length)
    (hlength : ∀ b, (contents' b).length = (t.contents b).length)
    (hshows : Shows ⟨contents, s.windows.window⟩ { t.plain with contents := contents' }) :
    Rel { s with vm := { s.vm with contents := contents } } { t with contents := contents' } where
  thrown := h.thrown
  length := fun b => (hlen b).trans ((h.length b).trans (hlength b).symm)
  sound := fun o w ho =>
    have hsame : w.Sound { s.vm with contents := contents } ∧ _ :=
      (h.sound o w ho).same (Nat.le_refl _) fun _ _ => rfl
    hsame.1
  sole := h.sole
  kind := h.kind
  shows := hshows
  sized := fun o obj a ho ha => (h.sized o obj a ho ha).trans (hlength a).symm

/-- An exception is thrown. -/
theorem Rel.throw (h : Rel s t) :
    Rel { s with vm := s.vm.call .throwNullPointerException }
      { t with thrown := t.thrown + 1 } where
  thrown := s.vm.thrown_throw.trans (congrArg (· + 1) h.thrown)
  length := h.length
  sound := fun o w ho =>
    have hsame : w.Sound (s.vm.call .throwNullPointerException) ∧ _ :=
      (h.sound o w ho).same (Nat.le_refl _) fun _ _ => rfl
    hsame.1
  sole := h.sole
  kind := h.kind
  shows := h.shows
  sized := h.sized

theorem Rel.length_writtenBack [DecidableEq A] (h : Rel s t) {w : Wrapper A V} {u : Window A V}
    (hw : s.object this = some w) (hu : w.window s.vm = some u) (b : A) :
    (u.writtenBack s.vm.contents b).length = (s.vm.contents b).length := by
  have hcells := h.cells_eq hw hu
  obtain ⟨a, mode, view⟩ := u
  cases mode with
  | shared => rfl
  | exclusive =>
      cases view with
      | direct => rfl
      | copy cells =>
          show (Function.update s.vm.contents a cells b).length = _
          by_cases e : b = a
          · rw [e, Function.update_self, h.length]
            exact congrArg List.length hcells
          · rw [Function.update_of_ne e]

variable [DecidableEq O]

theorem plain_set (t : Spec O A V) (this : O) (x : Option (Mode × Option A)) :
    (t.set this x).plain = ⟨t.contents, Function.update t.plain.access this
      (x.bind fun x => x.2.map fun a => (a, x.1))⟩ := by
  refine congrArg (Plain.mk t.contents) (funext fun o => ?_)
  show (Function.update t.object this x o).bind (fun x => x.2.map fun a => (a, x.1)) = _
  by_cases e : o = this
  · rw [e, Function.update_self, Function.update_self]
  · rw [Function.update_of_ne e, Function.update_of_ne e]
    rfl

/-- An object is what it was. -/
theorem State.set_same {w : Wrapper A V} (hw : s.object this = some w) (vm : ArrayVm A V) :
    s.set this (some w, vm) = { s with vm := vm } := by
  rw [State.set, ← hw, Function.update_eq_self]

theorem Spec.set_same {x : Mode × Option A} (hx : t.object this = some x) :
    t.set this (some x) = t := by
  rw [Spec.set, ← hx, Function.update_eq_self]

/-- An object changes, is constructed or destroyed, and the VM leaves the memory of the others
alone. -/
theorem Rel.set (h : Rel s t) {new : Option (Wrapper A V)} {vm' : ArrayVm A V}
    {x : Option (Mode × Option A)} (contents : A → List V) (hthrown : vm'.thrown = s.vm.thrown)
    (hlen : ∀ b, (vm'.contents b).length = (s.vm.contents b).length) (hnext : s.vm.next ≤ vm'.next)
    (hkeep : ∀ o w p, o ≠ this → s.object o = some w → w.mRawArray = .elements p →
      vm'.elements p = s.vm.elements p)
    (hsound : ∀ w, new = some w → w.Sound vm')
    (hsole : ∀ o w w' p, o ≠ this → s.object o = some w' → new = some w →
      w.mRawArray = .elements p → w'.mRawArray ≠ .elements p)
    (hkind : x.map Prod.fst = new.map Wrapper.mode)
    (hlength : ∀ b, (contents b).length = (t.contents b).length)
    (hsized : ∀ obj a, new = some (.ro obj) → obj.mJavaArray = some a →
      obj.mSize = (t.contents a).length)
    (hshows : Shows ⟨vm'.contents, Function.update s.windows.window this
      (new.bind fun w => w.window vm')⟩ { (t.set this x).plain with contents := contents }) :
    Rel (s.set this (new, vm')) { t.set this x with contents := contents } := by
  have hsame : ∀ o w, o ≠ this → s.object o = some w →
      w.Sound vm' ∧ w.window vm' = w.window s.vm :=
    fun o w e ho => (h.sound o w ho).same hnext fun p hp => hkeep o w p e ho hp
  constructor
  · exact hthrown.trans h.thrown
  · exact fun b => (hlen b).trans ((h.length b).trans (hlength b).symm)
  · intro o w ho
    rcases Windows.update_cases ho with ⟨-, hw⟩ | ⟨e, ho'⟩
    · exact hsound w hw
    · exact (hsame o w e ho').1
  · intro o₁ o₂ w₁ w₂ p h₁ h₂ hp₁ hp₂
    rcases Windows.update_cases h₁ with ⟨e₁, hw₁⟩ | ⟨e₁, h₁'⟩ <;>
      rcases Windows.update_cases h₂ with ⟨e₂, hw₂⟩ | ⟨e₂, h₂'⟩
    · rw [e₁, e₂]
    · exact absurd hp₂ (hsole o₂ w₁ w₂ p e₂ h₂' hw₁ hp₁)
    · exact absurd hp₁ (hsole o₁ w₂ w₁ p e₁ h₁' hw₂ hp₂)
    · exact h.sole o₁ o₂ w₁ w₂ p h₁' h₂' hp₁ hp₂
  · intro o
    show (Function.update t.object this x o).map _ = (Function.update s.object this new o).map _
    by_cases e : o = this
    · rw [e, Function.update_self, Function.update_self, hkind]
    · rw [Function.update_of_ne e, Function.update_of_ne e, h.kind]
  · have hw : (s.set this (new, vm')).windows = ⟨vm'.contents,
        Function.update s.windows.window this (new.bind fun w => w.window vm')⟩ := by
      refine congrArg (Windows.State.mk vm'.contents) (funext fun o => ?_)
      show (Function.update s.object this new o).bind (fun w => w.window vm') = _
      by_cases e : o = this
      · rw [e, Function.update_self, Function.update_self]
      · rw [Function.update_of_ne e, Function.update_of_ne e]
        show _ = (s.object o).bind fun w => w.window s.vm
        cases ho : s.object o with
        | none => rfl
        | some w => exact (hsame o w e ho).2
    rw [hw]
    exact hshows
  · intro o obj a ho ha
    show obj.mSize = (contents a).length
    rw [hlength]
    rcases Windows.update_cases ho with ⟨-, hw⟩ | ⟨-, ho'⟩
    · exact hsized obj a hw ha
    · exact h.sized o obj a ho' ha

/-- An object is constructed without an array. -/
theorem Rel.setNone (h : Rel s t) {mode : Mode} (hacc : t.plain.access this = none) :
    Rel (s.set this (some (.empty mode), s.vm)) (t.set this (some (mode, none))) := by
  have hnull := Wrapper.empty_null (A := A) (V := V) mode
  refine h.set t.contents rfl (fun _ => rfl) (Nat.le_refl _) (fun _ _ _ _ _ _ => rfl) ?_ ?_ ?_
    (fun _ => rfl) ?_ ?_
  · rintro _ ⟨⟩
    exact .null hnull
  · rintro o _ w' p _ _ ⟨⟩ hp
    cases hnull.symm.trans hp
  · rw [Option.map_some, Option.map_some, Wrapper.mode_empty]
  · intro obj a hobj ha
    cases mode with
    | shared =>
        cases hobj
        cases ha
    | exclusive => cases hobj
  · rw [plain_set, Option.bind_some, Wrapper.window_null hnull]
    exact h.shows.clear fun a ha => by rw [hacc] at ha; cases ha

/-- An object opens a window on an array, or tries to. -/
theorem Rel.setOpened (h : Rel s t) {vm' : ArrayVm A V} {w : Wrapper A V} {a : A} {mode : Mode}
    {obtained : Bool} (ho : Wrapper.Outcome s.vm vm' w a mode obtained)
    (hshared : ∀ acc, t.plain.access this = some acc → acc.2 = .shared)
    (hopens : t.plain.Opens a mode) :
    Rel (s.set this (some w, vm'))
      (t.set this (some (mode, if obtained then some a else none))) := by
  refine h.set t.contents ho.thrown (fun b => by rw [ho.contents]) ho.next ?_ ?_ ?_ ?_
    (fun _ => rfl) ?_ ?_
  · exact fun o' w' p _ ho' hp => ho.keeps p (h.pointer_lt ho' hp)
  · rintro _ ⟨⟩
    exact ho.sound
  · rintro o' _ w' p _ ho' ⟨⟩ hp hp'
    exact absurd (h.pointer_lt ho' hp') (Nat.not_lt.mpr (ho.fresh p hp))
  · rw [Option.map_some, Option.map_some, ho.sameMode]
  · rintro obj b ⟨⟩ hb
    obtain rfl : a = b := Option.some.inj (ho.array.symm.trans hb)
    rw [ho.sized obj rfl]
    exact congrArg List.length (h.shows.rest a hopens.notExclusive)
  · rw [plain_set, Option.bind_some, Option.bind_some, ho.contents]
    have hclear := h.shows.clear hshared
    have hwindow := ho.window
    cases obtained with
    | false =>
        rw [if_neg Bool.false_ne_true] at hwindow
        rw [hwindow]
        exact hclear
    | true =>
        rw [if_pos rfl] at hwindow
        obtain ⟨copies, hwindow⟩ := hwindow
        have henter := hclear.enter (Function.update_self this none t.plain.access)
          (hopens.clear this) copies
        rw [hwindow]
        unfold Windows.State.enter at henter
        rw [Function.update_idem, Function.update_idem] at henter
        exact henter

variable [DecidableEq A]

/-- An object is destroyed. -/
theorem Rel.destroy (h : Rel s t) {w : Wrapper A V} (hw : s.object this = some w) :
    Rel (s.set this (none, w.destructor s.vm)) (t.set this none) := by
  obtain ⟨hsome, hnone, hthrown, hnext, hkeep⟩ := w.destructor_window (h.sound this w hw)
  have hwindow : s.windows.window this = w.window s.vm := by
    show (s.object this).bind _ = _
    rw [hw, Option.bind_some]
  refine h.set t.contents hthrown (fun b => ?_) (Nat.le_of_eq hnext.symm) ?_ ?_ ?_ rfl
    (fun _ => rfl) ?_ ?_
  · cases hu : w.window s.vm with
    | none => rw [hnone hu]
    | some u => rw [hsome u hu, h.length_writtenBack hw hu]
  · intro o w' p e ho hp
    exact hkeep p fun hp' => e (h.sole o this w' w p ho hw hp hp')
  · rintro w' ⟨⟩
  · rintro o w' w'' p _ _ ⟨⟩
  · rintro obj a ⟨⟩
  · rw [plain_set, Option.bind_none, Option.bind_none]
    cases hu : w.window s.vm with
    | none =>
        rw [hnone hu]
        refine h.shows.clear fun acc hacc => ?_
        rw [h.shows.access, hwindow, hu] at hacc
        cases hacc
    | some u =>
        rw [hsome u hu]
        exact h.shows.leave (hwindow.trans hu)

theorem length_setCell (contents : A → List V) (a : A) (n : ℕ) (v : V) (b : A) :
    (setCell contents a n v b).length = (contents b).length := by
  unfold setCell
  by_cases e : b = a
  · rw [e, Function.update_self, List.length_set]
  · rw [Function.update_of_ne e]

/-- A read-write object is written through. -/
theorem Rel.write (h : Rel s t) {w : Wrapper A V} {u : Window A V} (hw : s.object this = some w)
    (hu : w.window s.vm = some u) (hmode : w.mode = .exclusive) {n : ℕ}
    (hn : n < (u.cells s.vm.contents).length) (v : V) :
    ∃ vm', w.assign s.vm n v = some vm' ∧
      Rel { s with vm := vm' } { t with contents := setCell t.contents u.region n v } := by
  have hwindow : s.windows.window this = some u := by
    show (s.object this).bind _ = _
    rw [hw, Option.bind_some, hu]
  have hlength := length_setCell t.contents u.region n v
  cases w with
  | ro obj => cases hmode
  | rw obj =>
      cases h.sound this _ hw with
      | null hnull =>
          rw [Wrapper.window_null hnull] at hu
          cases hu
      | @elements _ p a view hp ha hv hlt =>
          rw [Wrapper.window_elements hp ha hv, Option.some.injEq] at hu
          subst hu
          have hshows := h.shows.write hwindow rfl n v
          cases view with
          | direct =>
              exact ⟨_, Wrapper.assign_direct hp hv hn v, h.setContents
                (length_setCell s.vm.contents a n v) hlength hshows⟩
          | copy cells =>
              refine ⟨_, Wrapper.assign_copy hp hv hn v, ?_⟩
              -- the object stays, and the memory it points to changes
              obtain ⟨x, hx, hxmode⟩ := Option.map_eq_some_iff.mp
                ((h.kind this).trans (congrArg (Option.map Wrapper.mode) hw))
              have hset : Rel
                  (s.set this (some (.rw obj), { s.vm with
                    elements := Function.update s.vm.elements p
                      (some (a, .copy (cells.set n v))) }))
                  { t.set this (some x) with contents := setCell t.contents a n v } := by
                refine h.set _ rfl (fun _ => rfl) (Nat.le_refl _) ?_ ?_ ?_ (congrArg some hxmode)
                  hlength ?_ ?_
                · intro o w' q e ho hq
                  exact Function.update_of_ne
                    (fun eq : q = p => e (h.sole o this w' _ p ho hw (eq ▸ hq) hp)) _ _
                · rintro _ ⟨⟩
                  exact .elements hp ha (Function.update_self ..) hlt
                · rintro o _ w' q e ho ⟨⟩ hq hq'
                  exact e (h.sole o this w' _ q ho hw hq' hq)
                · rintro _ b ⟨⟩
                · rw [Spec.set_same hx, Option.bind_some,
                    Wrapper.window_elements hp ha (Function.update_self ..)]
                  exact hshows
              rwa [State.set_same hw, Spec.set_same hx] at hset

/-- **An action that is allowed** is completed, reads what it is to read, and keeps the states
related. -/
theorem Rel.step (h : Rel s t) {a : Action O A V} (ha : Allowed t a) :
    ∃ s', ArrayPrograms.step s a = some ((spec t a).1, s') ∧ Rel s' (spec t a).2 := by
  cases a with
  | constructEmpty this mode =>
      have hnone := h.object_eq_none ha
      refine ⟨_, ?_, h.setNone (h.access_eq_none hnone)⟩
      rw [ArrayPrograms.step, hnone]
      rfl
  | construct this mode javaArray answer =>
      obtain ⟨hnone, hopens⟩ := ha
      replace hnone := h.object_eq_none hnone
      have hacc := h.access_eq_none hnone
      refine ⟨s.set this ((Wrapper.construct mode javaArray answer s.vm).map some id), ?_, ?_⟩
      · rw [ArrayPrograms.step, hnone]
        cases javaArray <;> rfl
      · cases javaArray with
        | none =>
            rw [Wrapper.construct_none]
            exact h.throw.setNone hacc
        | some b =>
            have hb := hopens b rfl
            have ho := (Wrapper.empty mode).reset_outcome b answer s.vm
            rw [Wrapper.mode_empty, h.contents_eq hb.notExclusive] at ho
            rw [Wrapper.construct_eq_reset]
            exact h.setOpened ho (fun acc hacc' => by rw [hacc] at hacc'; cases hacc') hb
  | reset this b answer =>
      obtain ⟨x, hx, hlost, hopens⟩ := ha
      obtain ⟨w, hw, hmode⟩ := h.object_eq hx
      refine ⟨s.set this ((w.reset b answer s.vm).map some id), ?_, ?_⟩
      · rw [ArrayPrograms.step, hw]
        rfl
      · have ho := w.reset_outcome b answer s.vm
        rw [hmode, h.contents_eq hopens.notExclusive] at ho
        rw [spec, hx]
        refine h.setOpened ho (fun acc hacc => ?_) hopens
        obtain ⟨y, hy, hyacc⟩ := Option.bind_eq_some_iff.mp hacc
        obtain rfl : x = y := Option.some.inj (hx.symm.trans hy)
        obtain ⟨b', hb', rfl⟩ := Option.map_eq_some_iff.mp hyacc
        cases hx₁ : x.1 with
        | shared => rfl
        | exclusive =>
            rw [hlost hx₁] at hb'
            cases hb'
  | read this n =>
      obtain ⟨⟨array, mode⟩, hacc, hn⟩ := ha
      obtain ⟨w, u, hw, hu, rfl, -⟩ := h.window_eq hacc
      have hcells := h.cells_eq hw hu
      have hn' : n < (u.cells s.vm.contents).length := hcells ▸ hn
      refine ⟨s, ?_, h⟩
      rw [ArrayPrograms.step, hw, spec, hacc, Option.bind_eq_bind, Option.bind_some,
        (h.sound this w hw).index hu hn', hcells, Option.bind_some, List.getElem?_eq_getElem hn]
      rfl
  | write this n v =>
      obtain ⟨array, hacc, hn⟩ := ha
      obtain ⟨w, u, hw, hu, rfl, hmode⟩ := h.window_eq hacc
      rw [← h.cells_eq hw hu] at hn
      obtain ⟨vm', hassign, hrel⟩ := h.write hw hu hmode hn v
      refine ⟨{ s with vm := vm' }, ?_, ?_⟩
      · rw [ArrayPrograms.step, hw, Option.bind_eq_bind, Option.bind_some, hassign]
        rfl
      · rw [spec, hacc]
        exact hrel
  | destroy this =>
      obtain ⟨x, hx⟩ := ha
      obtain ⟨w, hw, -⟩ := h.object_eq hx
      refine ⟨_, ?_, h.destroy hw⟩
      rw [ArrayPrograms.step, hw]
      rfl
  | javaRead array n =>
      refine ⟨s, ?_, h⟩
      rw [ArrayPrograms.step, spec, h.contents_eq ha.1, List.getElem?_eq_getElem ha.2]
      rfl
  | javaWrite array n v =>
      refine ⟨_, ?_, h.setContents (length_setCell s.vm.contents array n v)
        (length_setCell t.contents array n v) (h.shows.store ha.1 n v)⟩
      have hn := ha.2
      rw [← h.contents_eq ha.1.notExclusive] at hn
      exact if_pos hn

end rel

/-! ### All programs -/

/-- The same action where the VM pins the arrays it would copy. -/
def Action.pinned : Action O A V → Action O A V
  | .construct this mode javaArray answer =>
      .construct this mode javaArray (answer.map fun _ => false)
  | .reset this javaArray answer => .reset this javaArray (answer.map fun _ => false)
  | a => a

theorem obtains_pinned (mode : Mode) (length : ℕ) (answer : Option Bool) :
    obtains mode length (answer.map fun _ => false) = obtains mode length answer := by
  rw [obtains, Option.isSome_map]
  rfl

theorem allowed_pinned (t : Spec O A V) (a : Action O A V) : Allowed t a.pinned ↔ Allowed t a := by
  cases a <;> exact Iff.rfl

/-- What can be seen of the arrays and the objects is what is to be seen: every array that is not
in a read-write object contains what was written to it, and every object that has elements has those
of its array, as many as `size()` says. -/
structure AsIfPlain (s : State O A V) (t : Spec O A V) : Prop where
  thrown : s.vm.thrown = t.thrown
  contents : ∀ a, t.plain.NotExclusive a → s.vm.contents a = t.contents a
  elements : ∀ o a mode, t.plain.access o = some (a, mode) → ∃ w, s.object o = some w ∧
    w.mode = mode ∧ w.mJavaArray = some a ∧ w.size s.vm = some (t.contents a).length ∧
    ∀ n < (t.contents a).length, w.index s.vm n = (t.contents a)[n]?

theorem Rel.asIfPlain {s : State O A V} {t : Spec O A V} (h : Rel s t) : AsIfPlain s t := by
  refine ⟨h.thrown, fun a hne => h.contents_eq hne, fun o a mode hacc => ?_⟩
  obtain ⟨w, u, hw, hu, rfl, hmode⟩ := h.window_eq hacc
  have hcells := h.cells_eq hw hu
  have harray : w.mJavaArray = some u.region := by
    obtain ⟨b, hb, hview⟩ := Option.bind_eq_some_iff.mp hu
    obtain ⟨view, -, rfl⟩ := Option.map_eq_some_iff.mp hview
    exact hb
  refine ⟨w, hw, hmode, harray, ?_, fun n hn => ?_⟩
  · cases w with
    | ro obj => exact congrArg some (h.sized o obj u.region hw harray)
    | rw obj =>
        replace harray : obj.mJavaArray = some u.region := harray
        show obj.mJavaArray.map s.vm.getArrayLength = _
        rw [harray, Option.map_some, ArrayVm.getArrayLength, h.length]
  · rw [(h.sound o w hw).index hu (hcells ▸ hn), hcells]

section runs
variable [DecidableEq O] [DecidableEq A]

/-- Without wrappers it makes no difference whether the VM copies. -/
theorem spec_pinned (t : Spec O A V) (a : Action O A V) : spec t a.pinned = spec t a := by
  cases a with
  | construct this mode javaArray answer =>
      cases javaArray with
      | none => rfl
      | some a =>
          show spec t (.construct this mode (some a) (answer.map fun _ => false)) = _
          rw [spec, obtains_pinned, spec]
  | reset this javaArray answer =>
      show spec t (.reset this javaArray (answer.map fun _ => false)) = _
      rw [spec, spec]
      simp only [obtains_pinned]
  | _ => rfl

/-- **A program over wrappers is a program over the arrays**, as long as no array is touched that is
being written and no read-write object loses elements to a `reset` (`Allowed`): it reads what it
would read from the arrays, with the same exceptions, and it would read the same if the VM never
copied. -/
theorem arrayPrograms_run (contents : A → List V) (as : List (Action O A V))
    (has : Refinement.EveryAction spec Allowed (initialSpec contents) as) :
    ∃ s s', Refinement.play step (initial contents) as =
        some ((Refinement.playSpec spec (initialSpec contents) as).1, s) ∧
      Refinement.play step (initial contents) (as.map Action.pinned) =
        some ((Refinement.playSpec spec (initialSpec contents) as).1, s') ∧
      AsIfPlain s (Refinement.playSpec spec (initialSpec contents) as).2 ∧
      AsIfPlain s' (Refinement.playSpec spec (initialSpec contents) as).2 := by
  have hstep : ∀ (s : State O A V) t a, Rel s t → Allowed t a →
      ∃ s', step s a = some ((spec t a).1, s') ∧ Rel s' (spec t a).2 :=
    fun s t a h ha => h.step ha
  have hrel := rel_initial (O := O) contents
  obtain ⟨s, hs, hRs⟩ := Refinement.play_of_everyAction hstep hrel has
  obtain ⟨s', hs', hRs'⟩ := Refinement.play_of_everyAction hstep hrel
    ((Refinement.everyAction_map_action spec_pinned allowed_pinned _ as).mpr has)
  rw [Refinement.playSpec_map_action spec_pinned] at hs' hRs'
  exact ⟨s, s', hs, hs', hRs.asIfPlain, hRs'.asIfPlain⟩

/-- An array is read through the buffer of an object and another one is written through a copy. -/
def twoObjects : List (Action Bool Bool ℕ) :=
  [.construct false .shared (some false) none, .construct true .exclusive (some true) (some true),
    .javaRead false 0, .write true 0 7, .read false 1, .read true 0, .destroy true,
    .javaRead true 0]

theorem arrayPrograms_run_twoObjects :
    ∃ s s', Refinement.play step (initial fun _ => [4, 5]) twoObjects =
        some ([none, none, some 4, none, some 5, some 7, none, some 7], s) ∧
      Refinement.play step (initial fun _ => [4, 5]) (twoObjects.map Action.pinned) =
        some ([none, none, some 4, none, some 5, some 7, none, some 7], s') ∧
      s.vm.contents true = [7, 5] ∧ s'.vm.contents true = [7, 5] := by
  have has : Refinement.EveryAction spec Allowed (initialSpec fun _ => [4, 5]) twoObjects := by
    simp [Refinement.EveryAction, twoObjects, spec, Allowed, initialSpec, Spec.set, Spec.plain,
      Windows.Plain.Opens, Windows.Plain.Free, Windows.Plain.NotExclusive, obtains,
      ScopedArrayRO.bufferSize, Function.update_apply, setCell]
  obtain ⟨s, s', hs, hs', h, h'⟩ := arrayPrograms_run (fun _ => [4, 5]) twoObjects has
  have hfree : Plain.NotExclusive
      (Refinement.playSpec spec (initialSpec fun _ => [4, 5]) twoObjects).2.plain true := by
    intro o mode ho
    cases o <;> cases ho
  exact ⟨s, s', hs, hs', h.contents true hfree, h'.contents true hfree⟩

/-! ### Arrays that are touched beside an object -/

section beside
variable {contents : A → List V} {o o' : O} {a : A} {n : ℕ} {v : V}

/-- What is written beside a read-only object is read through it exactly if the array does not fit
into the buffer and the VM pins it. -/
theorem read_beside_javaWrite (hn : n < (contents a).length) (isCopy : Bool) :
    (Refinement.play step (initial contents : State O A V)
      [.construct o .shared (some a) (some isCopy), .javaWrite a n v, .read o n]).map Prod.fst =
      some [none, none, some (if (contents a).length ≤ ScopedArrayRO.bufferSize ∨ isCopy then
        (contents a)[n] else v)] := by
  by_cases hfits : (contents a).length ≤ ScopedArrayRO.bufferSize
  · have hbuffer : ((contents a).map some ++
        (ScopedArrayRO.constructEmpty : ScopedArrayRO A V).mBuffer.drop (contents a).length)[n]? =
          some (some (contents a)[n]) := by
      rw [List.getElem?_append_left (by rwa [List.length_map]), List.getElem?_map,
        List.getElem?_eq_getElem hn, Option.map_some]
    simp [Refinement.play, step, initial, State.set, Wrapper.construct, ScopedArrayRO.construct,
      ScopedArrayRO.reset, ArrayVm.initial, ArrayVm.javaWrite, ArrayVm.getArrayLength,
      ArrayVm.getArrayRegion, Wrapper.index, ScopedArrayRO.index, hbuffer, hn, hfits]
  · cases isCopy <;>
      simp [Refinement.play, step, initial, State.set, Wrapper.construct, ScopedArrayRO.construct,
        ScopedArrayRO.reset, ArrayVm.initial, ArrayVm.javaWrite, ArrayVm.getArrayLength,
        ArrayVm.getArrayElements, Wrapper.index, ScopedArrayRO.index, ArrayVm.load, ArrayVm.shown,
        setCell, hn, hfits]

/-- Of what is written through one of two read-write objects for an array nothing is left if the VM
copies. -/
theorem write_beside_other (hne : o ≠ o') (hn : n < (contents a).length) (isCopy : Bool) :
    (Refinement.play step (initial contents : State O A V)
      [.construct o .exclusive (some a) (some isCopy),
        .construct o' .exclusive (some a) (some isCopy), .write o n v, .destroy o, .destroy o',
        .javaRead a n]).map Prod.fst =
      some [none, none, none, none, none, some (if isCopy then (contents a)[n] else v)] := by
  cases isCopy <;>
    simp [Refinement.play, step, initial, State.set, Wrapper.construct, ScopedArrayRW.construct,
      ArrayVm.initial, ArrayVm.getArrayElements, Wrapper.assign, ScopedArrayRW.assign,
      ArrayVm.store, ArrayVm.shown, Wrapper.destructor, ScopedArrayRW.destructor,
      ArrayVm.releaseArrayElements, setCell, hn, hne, hne.symm]

/-- Elements that are not written through are given back as they were handed out. -/
theorem contents_destructor_reset (b : A) (answer : Option Bool) (vm : ArrayVm A V) :
    ((ScopedArrayRW.reset b answer vm).1.destructor (ScopedArrayRW.reset b answer vm).2).contents =
      vm.contents := by
  cases answer with
  | none => rfl
  | some isCopy =>
      show Function.update vm.contents b
        ((vm.getArrayElements b (some isCopy)).2.shown b vm.next) = _
      rw [ArrayVm.shown_getArrayElements, Function.update_eq_self]

/-- Of what is written through a read-write object before a `reset` nothing is left if the VM
copies. -/
theorem write_before_reset (hn : n < (contents a).length) (isCopy : Bool) (b : A)
    (answer : Option Bool) :
    (Refinement.play step (initial contents : State O A V)
      [.construct o .exclusive (some a) (some isCopy), .write o n v, .reset o b answer, .destroy o,
        .javaRead a n]).map Prod.fst =
      some [none, none, none, none, some (if isCopy then (contents a)[n] else v)] := by
  cases isCopy <;>
    simp [Refinement.play, step, initial, State.set, Wrapper.construct, ScopedArrayRW.construct,
      Wrapper.reset, Wrapper.assign, ScopedArrayRW.assign, Wrapper.destructor, ArrayVm.initial,
      ArrayVm.getArrayElements, ArrayVm.store, contents_destructor_reset, setCell, hn]

end beside

end runs

end ArrayPrograms
end NativeHelper
