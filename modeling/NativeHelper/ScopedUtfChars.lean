import NativeHelper.Ledger
import NativeHelper.Objects
import NativeHelper.Transition

/-! # Programs over scoped UTF characters

`ScopedUtfChars` gets the characters of a Java string and releases them in its destructor.  A move
assignment runs that destructor on the live object and then assigns the three fields one by one,
on both sides.

Once it is known what an assignment comes to (`moveAssign_ne`), the objects are owners of the
characters like the references of `ScopedLocalRef` (`Owned`), and never call for a release with a
null argument (`Whole`, `Whole.step`). -/

namespace NativeHelper

/-- An object; `none` is `nullptr`. -/
structure ScopedUtfChars (E S P : Type) where
  env_ : Option E
  string_ : Option S
  utf_chars_ : Option P
deriving DecidableEq, Repr

namespace ScopedUtfChars

open Transition Objects

variable {O E S P : Type}

/-- The calls of the objects, with what `GetStringUTFChars` returned. -/
inductive CharsEvent (E S P : Type) where
  | throwNullPointerException (env : E)
  | getStringUTFChars (env : E) (string : S) (chars : Option P)
  | releaseStringUTFChars (env : Option E) (string : Option S) (chars : Option P)
deriving DecidableEq, Repr

/-- The live objects and their calls. -/
abbrev State (O E S P : Type) := Store O (ScopedUtfChars E S P) (CharsEvent E S P)

/-! ### The methods -/

section methods
variable [DecidableEq O]

/-- `ScopedUtfChars(env, s)`; `chars` is what `GetStringUTFChars` returns if it is called. -/
def construct (this : O) (env : E) (s : Option S) (chars : Option P) (st : State O E S P) :
    State O E S P :=
  match s with
  | none =>
      (st.record (some (.throwNullPointerException env))).set this (some ⟨some env, none, none⟩)
  | some string =>
      (st.record (some (.getStringUTFChars env string chars))).set this
        (some ⟨some env, some string, chars⟩)

/-- `ScopedUtfChars(ScopedUtfChars&& rhs)`. -/
def moveConstruct (this rhs : O) (st : State O E S P) : Option (State O E S P) := do
  let obj ← st.object rhs
  let st := st.set this (some ⟨obj.env_, obj.string_, obj.utf_chars_⟩)
  some (st.set rhs (some ⟨none, none, none⟩))

/-- The body of the destructor, which the move assignment runs as well. -/
def destructor (this : O) (st : State O E S P) : Option (State O E S P) := do
  let obj ← st.object this
  if obj.utf_chars_.isSome then
    some (st.record (some (.releaseStringUTFChars obj.env_ obj.string_ obj.utf_chars_)))
  else
    some st

/-- One assignment to a field of the object at `this`, from the fields of the one at `rhs`. -/
def assign (this rhs : O)
    (field : ScopedUtfChars E S P → ScopedUtfChars E S P → ScopedUtfChars E S P)
    (st : State O E S P) : Option (State O E S P) := do
  let source ← st.object rhs
  let obj ← st.object this
  some (st.set this (some (field source obj)))

/-- `operator=(ScopedUtfChars&& rhs)`. -/
def moveAssign (this rhs : O) (st : State O E S P) : Option (State O E S P) := do
  if this ≠ rhs then
    let st ← destructor this st
    let st ← assign this rhs (fun source obj => { obj with env_ := source.env_ }) st
    let st ← assign this rhs (fun source obj => { obj with string_ := source.string_ }) st
    let st ← assign this rhs (fun source obj => { obj with utf_chars_ := source.utf_chars_ }) st
    let st ← assign rhs rhs (fun _ obj => { obj with env_ := none }) st
    let st ← assign rhs rhs (fun _ obj => { obj with string_ := none }) st
    assign rhs rhs (fun _ obj => { obj with utf_chars_ := none }) st
  else
    some st

/-- The end of an object's life. -/
def destroy (this : O) (st : State O E S P) : Option (State O E S P) := do
  let st ← destructor this st
  some (st.set this none)

/-! ### Programs -/

/-- What a program does with its objects. -/
inductive Action (O E S P : Type) where
  | construct (this : O) (env : E) (s : Option S) (chars : Option P)
  | moveConstruct (this rhs : O)
  | moveAssign (this rhs : O)
  | destroy (this : O)
deriving DecidableEq, Repr

/-- One action; only a dead object is constructed and only live ones are used. -/
def step (st : State O E S P) : Action O E S P → Option (State O E S P)
  | .construct this env s chars =>
      if (st.object this).isNone then some (construct this env s chars st) else none
  | .moveConstruct this rhs =>
      if (st.object this).isNone then moveConstruct this rhs st else none
  | .moveAssign this rhs =>
      if (st.object this).isSome ∧ (st.object rhs).isSome then moveAssign this rhs st else none
  | .destroy this => destroy this st

end methods

/-- The characters that `GetStringUTFChars` returns are held by no live object. -/
def Fresh (st : State O E S P) : Action O E S P → Prop
  | .construct _ _ (some _) chars =>
      ∀ o obj p, st.object o = some obj → obj.utf_chars_ = some p → chars ≠ some p
  | .construct _ _ none _ | .moveConstruct _ _ | .moveAssign _ _ | .destroy _ => True

/-! ### What the methods do -/

section methods
variable [DecidableEq O] {st : State O E S P} {this rhs : O} {obj source : ScopedUtfChars E S P}

/-- The call of the destructor. -/
def releaseCall (obj : ScopedUtfChars E S P) : Option (CharsEvent E S P) :=
  if obj.utf_chars_.isSome then
    some (.releaseStringUTFChars obj.env_ obj.string_ obj.utf_chars_)
  else none

omit [DecidableEq O] in
theorem destructor_eq (hobj : st.object this = some obj) :
    destructor this st = some (st.record (releaseCall obj)) := by
  unfold destructor releaseCall
  rw [hobj, Option.bind_eq_bind, Option.bind_some]
  by_cases h : obj.utf_chars_.isSome
  · rw [if_pos h, if_pos h]
  · rw [if_neg h, if_neg h, Store.record_none]

theorem moveConstruct_eq (hobj : st.object rhs = some obj) :
    moveConstruct this rhs st =
      some ((st.set this (some obj)).set rhs (some ⟨none, none, none⟩)) := by
  unfold moveConstruct
  rw [hobj]
  rfl

theorem destroy_eq (hobj : st.object this = some obj) :
    destroy this st = some ((st.record (releaseCall obj)).set this none) := by
  unfold destroy
  rw [destructor_eq hobj]
  rfl

/-- The six assignments come to a move: the object becomes what `rhs` was. -/
theorem moveAssign_ne (hne : this ≠ rhs) (hobj : st.object this = some obj)
    (hsource : st.object rhs = some source) :
    moveAssign this rhs st =
      some (((st.record (releaseCall obj)).set this (some source)).set rhs
        (some ⟨none, none, none⟩)) := by
  unfold moveAssign
  rw [if_pos hne, destructor_eq hobj, Option.bind_eq_bind, Option.bind_some]
  have hobj' : (st.record (releaseCall obj)).object this = some obj := hobj
  have hsource' : (st.record (releaseCall obj)).object rhs = some source := hsource
  simp [assign, hobj', hsource', Store.object_set_ne, hne.symm]

end methods

/-! ### The characters as handles -/

/-- What a call is to the ledger of characters. -/
def CharsEvent.entry : CharsEvent E S P → Option (Ledger.Entry (E × S × P))
  | .throwNullPointerException _ => none
  | .getStringUTFChars env string chars => chars.map fun p => .acquire (env, string, p)
  | .releaseStringUTFChars (some env) (some string) (some p) => some (.release (env, string, p))
  | .releaseStringUTFChars _ _ _ => none

def ledger (trace : List (CharsEvent E S P)) : List (Ledger.Entry (E × S × P)) :=
  trace.filterMap CharsEvent.entry

/-- The characters an object holds, with the env and the string it would release them with. -/
def ownChars : ScopedUtfChars E S P → Option (E × S × P)
  | ⟨some env, some string, some p⟩ => some (env, string, p)
  | _ => none

/-- The pointer to the characters. -/
def pointer (h : E × S × P) : P := h.2.2

/-- An object that has characters has an env and a string. -/
def Whole (obj : ScopedUtfChars E S P) : Prop :=
  obj.utf_chars_.isSome → obj.env_.isSome ∧ obj.string_.isSome

theorem whole_iff {obj : ScopedUtfChars E S P} :
    Whole obj ↔ obj.utf_chars_ = none ∨ ∃ env string p, obj = ⟨some env, some string, some p⟩ := by
  obtain ⟨env, string, chars⟩ := obj
  unfold Whole
  cases chars <;> cases env <;> cases string <;> simp

theorem ownChars_eq_some_iff {obj : ScopedUtfChars E S P} {h : E × S × P} :
    ownChars obj = some h ↔ obj = ⟨some h.1, some h.2.1, some (pointer h)⟩ := by
  obtain ⟨env, string, chars⟩ := obj
  obtain ⟨e, t, p⟩ := h
  cases env <;> cases string <;> cases chars <;> simp [ownChars, pointer]

theorem ledger_record (st : State O E S P) (e : CharsEvent E S P) :
    ledger (st.record (some e)).trace = ledger st.trace ++ e.entry.toList := by
  unfold ledger Store.record
  rw [List.filterMap_append]
  cases h : e.entry <;> simp [h]

theorem ledger_releaseCall (st : State O E S P) {obj : ScopedUtfChars E S P} (h : Whole obj) :
    ledger (st.record (releaseCall obj)).trace =
      ledger st.trace ++ ((ownChars obj).map .release).toList := by
  obtain ⟨env, string, chars⟩ := obj
  rcases whole_iff.mp h with rfl | ⟨env, string, p, hobj⟩
  · cases env <;> cases string <;> simp [releaseCall, ownChars]
  · rw [hobj]
    exact ledger_record st _

section counts
variable [DecidableEq E] [DecidableEq S] [DecidableEq P]

/-- How often `GetStringUTFChars` returned `p` for `string` on `env`. -/
def obtained (st : State O E S P) (env : E) (string : S) (p : P) : ℕ :=
  st.trace.count (.getStringUTFChars env string (some p))

/-- How often `ReleaseStringUTFChars` was called with these arguments. -/
def released (st : State O E S P) (env : E) (string : S) (p : P) : ℕ :=
  st.trace.count (.releaseStringUTFChars (some env) (some string) (some p))

theorem acquired_ledger (st : State O E S P) (env : E) (string : S) (p : P) :
    Ledger.acquired (ledger st.trace) (env, string, p) = obtained st env string p := by
  unfold Ledger.acquired ledger obtained
  induction st.trace with
  | nil => rfl
  | cons e trace ih =>
      rcases e with _ | ⟨_, _, _ | q⟩ | ⟨_ | _, _ | _, _ | _⟩ <;>
        simp [CharsEvent.entry, List.filterMap_cons, List.count_cons, ih]

theorem released_ledger (st : State O E S P) (env : E) (string : S) (p : P) :
    Ledger.released (ledger st.trace) (env, string, p) = released st env string p := by
  unfold Ledger.released ledger released
  induction st.trace with
  | nil => rfl
  | cons e trace ih =>
      rcases e with _ | ⟨_, _, _ | q⟩ | ⟨_ | _, _ | _, _ | _⟩ <;>
        simp [CharsEvent.entry, List.filterMap_cons, List.count_cons, ih]

end counts

/-! ### One action -/

/-- The call, if it is one of `ReleaseStringUTFChars`, has no null argument. -/
def CharsEvent.NonNull : CharsEvent E S P → Prop
  | .releaseStringUTFChars env string chars => env.isSome ∧ string.isSome ∧ chars.isSome
  | .throwNullPointerException _ | .getStringUTFChars _ _ _ => True

section actions
variable [DecidableEq E] [DecidableEq S] [DecidableEq P]

/-- The live objects own the characters between them, each with what it needs to release them,
and no release was called with a null argument. -/
structure Owned (st : State O E S P) : Prop where
  owned : Ledger.OwnedBy pointer (ledger st.trace) (st.held ownChars)
  whole : ∀ o obj, st.object o = some obj → Whole obj
  nonNull : ∀ e ∈ st.trace, e.NonNull

theorem owned_empty : Owned (Store.empty : State O E S P) where
  owned := Ledger.ownedBy_nil
  whole := by intro o obj h; cases h
  nonNull := by intro e h; cases h

variable {st st' : State O E S P} {this rhs : O} {obj source : ScopedUtfChars E S P}

omit [DecidableEq E] [DecidableEq S] [DecidableEq P] in
theorem nonNull_record (h : ∀ e ∈ st.trace, e.NonNull) {event : Option (CharsEvent E S P)}
    (hevent : ∀ e, event = some e → e.NonNull) : ∀ e ∈ (st.record event).trace, e.NonNull := by
  intro e he
  rcases List.mem_append.mp he with he | he
  · exact h e he
  · exact hevent e (Option.mem_toList.mp he)

omit [DecidableEq E] [DecidableEq S] [DecidableEq P] in
theorem nonNull_releaseCall (h : Whole obj) (e : CharsEvent E S P)
    (he : releaseCall obj = some e) : e.NonNull := by
  unfold releaseCall at he
  by_cases hc : obj.utf_chars_.isSome
  · rw [if_pos hc, Option.some.injEq] at he
    subst he
    exact ⟨(h hc).1, (h hc).2, hc⟩
  · rw [if_neg hc] at he
    cases he

variable [DecidableEq O]

omit [DecidableEq E] [DecidableEq S] [DecidableEq P] in
theorem whole_set (h : ∀ o obj, st.object o = some obj → Whole obj)
    {obj' : Option (ScopedUtfChars E S P)} (hobj' : ∀ obj, obj' = some obj → Whole obj) :
    ∀ o obj, (st.set this obj').object o = some obj → Whole obj := by
  intro o obj ho
  by_cases e : o = this
  · rw [e, Store.object_set_self] at ho
    exact hobj' obj ho
  · rw [Store.object_set_ne _ _ e] at ho
    exact h o obj ho

/-- The ledger after the destructor has run. -/
theorem Owned.give (h : Owned st) (hobj : st.object this = some obj) :
    Ledger.OwnedBy pointer (ledger (st.record (releaseCall obj)).trace)
      (Function.update (st.held ownChars) this none) := by
  have hown : st.held ownChars this = ownChars obj := Store.held_eq hobj
  rw [ledger_releaseCall st (h.whole this obj hobj), ← hown]
  exact Ledger.OwnedBy.clear h.owned this

theorem Owned.construct (h : Owned st) (hdead : st.object this = none) (env : E) (s : Option S)
    {chars : Option P} (hfresh : Fresh st (.construct this env s chars)) :
    Owned (construct this env s chars st) := by
  have hnone : st.held ownChars this = none := Store.held_eq_none hdead
  cases s with
  | none =>
      refine ⟨?_, whole_set h.whole ?_, nonNull_record h.nonNull ?_⟩
      · show Ledger.OwnedBy pointer
          (ledger (st.record (some (.throwNullPointerException env))).trace)
          (Store.held ownChars (st.set this (some ⟨some env, none, none⟩)))
        rw [ledger_record, Store.held_set]
        exact h.owned.put hnone fun g (hg : (none : Option (E × S × P)) = some g) => by cases hg
      · rintro obj ⟨⟩ hc
        cases hc
      · rintro e ⟨⟩
        trivial
  | some string =>
      refine ⟨?_, whole_set h.whole ?_, nonNull_record h.nonNull ?_⟩
      · show Ledger.OwnedBy pointer
          (ledger (st.record (some (.getStringUTFChars env string chars))).trace)
          (Store.held ownChars (st.set this (some ⟨some env, some string, chars⟩)))
        have hown : (some (⟨some env, some string, chars⟩ : ScopedUtfChars E S P)).bind ownChars =
            chars.map fun p => (env, string, p) := by cases chars <;> rfl
        have hentry : (CharsEvent.getStringUTFChars env string chars).entry =
            (chars.map fun p => (env, string, p)).map .acquire := by cases chars <;> rfl
        rw [ledger_record, Store.held_set, hown, hentry]
        refine h.owned.put hnone fun g hg o x hx hk => ?_
        obtain ⟨obj, hobj, hx⟩ := Store.held_eq_some_iff.mp hx
        obtain ⟨p, hp, rfl⟩ := Option.map_eq_some_iff.mp hg
        refine hfresh o obj p hobj ?_ hp
        rw [ownChars_eq_some_iff.mp hx, ← show pointer x = p from hk]
      · rintro obj ⟨⟩ _
        exact ⟨rfl, rfl⟩
      · rintro e ⟨⟩
        trivial

theorem Owned.moveConstruct (h : Owned st) (hdead : st.object this = none)
    (hst : moveConstruct this rhs st = some st') : Owned st' := by
  cases hobj : st.object rhs with
  | none =>
      unfold ScopedUtfChars.moveConstruct at hst
      rw [hobj] at hst
      cases hst
  | some obj =>
      have hne : this ≠ rhs := by
        rintro rfl
        rw [hdead] at hobj
        cases hobj
      rw [moveConstruct_eq hobj, Option.some.injEq] at hst
      subst hst
      have hmove := Ledger.OwnedBy.move h.owned (Store.held_eq_none hdead) hne
      rw [Store.held_eq hobj, Function.update_comm hne.symm] at hmove
      refine ⟨?_, ?_, h.nonNull⟩
      · rw [Store.held_set, Store.held_set]
        exact hmove
      · refine whole_set (whole_set h.whole ?_) ?_
        · rintro obj' ⟨⟩
          exact h.whole rhs obj hobj
        · rintro obj' ⟨⟩ hc
          cases hc

theorem Owned.moveAssign (h : Owned st) (hobj : st.object this = some obj)
    (hsource : st.object rhs = some source) (hst : moveAssign this rhs st = some st') :
    Owned st' := by
  by_cases hne : this = rhs
  · rw [ScopedUtfChars.moveAssign, if_neg (not_not.mpr hne), Option.some.injEq] at hst
    exact hst ▸ h
  rw [moveAssign_ne hne hobj hsource, Option.some.injEq] at hst
  subst hst
  -- the object releases what it held, then the characters move
  have hmove := (h.give hobj).move (Function.update_self this none (st.held ownChars)) hne
  rw [Function.update_of_ne (Ne.symm hne), Store.held_eq hsource,
    Function.update_comm (Ne.symm hne), Function.update_idem] at hmove
  refine ⟨?_, ?_, nonNull_record h.nonNull (nonNull_releaseCall (h.whole this obj hobj))⟩
  · rw [Store.held_set, Store.held_set]
    exact hmove
  · refine whole_set (whole_set h.whole ?_) ?_
    · rintro obj' ⟨⟩
      exact h.whole rhs source hsource
    · rintro obj' ⟨⟩ hc
      cases hc

theorem Owned.destroy (h : Owned st) (hobj : st.object this = some obj)
    (hst : destroy this st = some st') : Owned st' := by
  rw [destroy_eq hobj, Option.some.injEq] at hst
  subst hst
  refine ⟨?_, whole_set h.whole (by simp), nonNull_record h.nonNull
    (nonNull_releaseCall (h.whole this obj hobj))⟩
  rw [Store.held_set]
  exact h.give hobj

theorem Owned.step (h : Owned st) {a : Action O E S P} (hfresh : Fresh st a)
    (hst : step st a = some st') : Owned st' := by
  cases a with
  | construct this env s chars =>
      rw [ScopedUtfChars.step] at hst
      by_cases hdead : st.object this = none
      · rw [hdead, Option.isNone_none, if_pos rfl, Option.some.injEq] at hst
        exact hst ▸ h.construct hdead env s hfresh
      · rw [if_neg (by rwa [Option.isNone_iff_eq_none])] at hst
        cases hst
  | moveConstruct this rhs =>
      rw [ScopedUtfChars.step] at hst
      by_cases hdead : st.object this = none
      · rw [hdead, Option.isNone_none, if_pos rfl] at hst
        exact h.moveConstruct hdead hst
      · rw [if_neg (by rwa [Option.isNone_iff_eq_none])] at hst
        cases hst
  | moveAssign this rhs =>
      rw [ScopedUtfChars.step] at hst
      by_cases hlive : (st.object this).isSome ∧ (st.object rhs).isSome
      · obtain ⟨obj, hobj⟩ := Option.isSome_iff_exists.mp hlive.1
        obtain ⟨source, hsource⟩ := Option.isSome_iff_exists.mp hlive.2
        rw [if_pos hlive] at hst
        exact h.moveAssign hobj hsource hst
      · rw [if_neg hlive] at hst
        cases hst
  | destroy this =>
      rw [ScopedUtfChars.step] at hst
      cases hobj : st.object this with
      | none =>
          rw [ScopedUtfChars.destroy, destructor, hobj] at hst
          cases hst
      | some obj => exact h.destroy hobj hst

end actions

/-! ### Whole programs -/

section programs
variable [DecidableEq E] [DecidableEq S] [DecidableEq P]

/-- Each pointer that was obtained is in at most one live object, which will release it with the
env and the string it was obtained with; it has been released as often as it was obtained, but for
the last time while an object has it; and no release had a null argument. -/
structure ExactlyOnce (st : State O E S P) : Prop where
  sole : ∀ o o' obj obj' p, st.object o = some obj → st.object o' = some obj' →
    obj.utf_chars_ = some p → obj'.utf_chars_ = some p → o = o'
  owned : ∀ o obj p, st.object o = some obj → obj.utf_chars_ = some p →
    ∃ env string, obj.env_ = some env ∧ obj.string_ = some string ∧
      obtained st env string p = released st env string p + 1
  settled : ∀ env string p, (∀ o, st.object o ≠ some ⟨some env, some string, some p⟩) →
    obtained st env string p = released st env string p
  nonNull : ∀ env string chars, .releaseStringUTFChars env string chars ∈ st.trace →
    env.isSome ∧ string.isSome ∧ chars.isSome

theorem Owned.exactlyOnce {st : State O E S P} (h : Owned st) : ExactlyOnce st := by
  have hhas : ∀ o obj p, st.object o = some obj → obj.utf_chars_ = some p →
      ∃ env string, obj = ⟨some env, some string, some p⟩ ∧
        st.held ownChars o = some (env, string, p) := by
    intro o obj p hobj hp
    rcases whole_iff.mp (h.whole o obj hobj) with hnone | ⟨env, string, q, rfl⟩
    · rw [hnone] at hp
      cases hp
    · cases hp
      exact ⟨env, string, rfl, Store.held_eq hobj⟩
  constructor
  · intro o o' obj obj' p hobj hobj' hp hp'
    obtain ⟨env, string, rfl, hheld⟩ := hhas o obj p hobj hp
    obtain ⟨env', string', rfl, hheld'⟩ := hhas o' obj' p hobj' hp'
    exact h.owned.sole o o' _ _ hheld hheld' rfl
  · intro o obj p hobj hp
    obtain ⟨env, string, rfl, hheld⟩ := hhas o obj p hobj hp
    refine ⟨env, string, rfl, rfl, ?_⟩
    rw [← acquired_ledger, ← released_ledger]
    exact h.owned.outstanding o _ hheld
  · intro env string p hno
    rw [← acquired_ledger, ← released_ledger]
    refine h.owned.settled _ fun o ho => ?_
    obtain ⟨obj, hobj, hown⟩ := Store.held_eq_some_iff.mp ho
    rw [ownChars_eq_some_iff] at hown
    exact hno o (hown ▸ hobj)
  · exact fun env string chars he => h.nonNull _ he

/-- **`ScopedUtfChars` releases the characters of each string exactly once**: no state of a program
is out of order, and once all objects are destroyed every pointer has been released as often as it
was obtained. -/
theorem scopedUtfChars_exactlyOnce [DecidableEq O] (as : List (Action O E S P))
    (hfresh : EveryStep step Fresh .empty as) :
    EveryState step ExactlyOnce .empty as ∧
      ∀ st, run step .empty as = some st → (∀ o, st.object o = none) →
        ∀ env string p, released st env string p = obtained st env string p := by
  have h : EveryState step ExactlyOnce .empty as :=
    (hfresh.everyState (fun _ _ _ hs hf hst => hs.step hf hst) owned_empty).imp
      fun _ hs => hs.exactlyOnce
  refine ⟨h, fun st hr hdead env string p => ?_⟩
  refine ((h.last hr).settled env string p fun o ho => ?_).symm
  rw [hdead o] at ho
  cases ho

/-- A null string, a failing `GetStringUTFChars`, a move assignment to an object that has
characters, one from and to moved-from objects and one of an object to itself. -/
def movingProgram : List (Action ℕ ℕ ℕ ℕ) :=
  [.construct 0 1 (some 2) (some 3), .construct 1 1 (some 4) (some 5), .construct 2 1 none none,
    .construct 3 1 (some 6) none, .moveAssign 0 1, .moveAssign 1 2, .moveAssign 0 0,
    .moveConstruct 4 0, .moveAssign 0 3, .destroy 0, .destroy 1, .destroy 2, .destroy 3, .destroy 4]

theorem scopedUtfChars_exactlyOnce_moving :
    ((run step .empty movingProgram).map fun st => st.trace) =
        some [.getStringUTFChars 1 2 (some 3), .getStringUTFChars 1 4 (some 5),
          .throwNullPointerException 1, .getStringUTFChars 1 6 none,
          .releaseStringUTFChars (some 1) (some 2) (some 3),
          .releaseStringUTFChars (some 1) (some 4) (some 5)] ∧
      EveryState step ExactlyOnce .empty movingProgram := by
  have hfresh : EveryStep step Fresh Store.empty movingProgram := by
    simp [EveryStep, movingProgram, step, Fresh, construct, moveConstruct, moveAssign, assign,
      destructor, destroy, Store.set, Store.record, Store.empty, Function.update_apply]
    rintro _ _ p rfl rfl hp rfl
    cases hp
  exact ⟨rfl, (scopedUtfChars_exactlyOnce movingProgram hfresh).1⟩

end programs

end ScopedUtfChars
end NativeHelper
