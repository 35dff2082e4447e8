import NativeHelper.Ledger
import NativeHelper.NullPointer
import NativeHelper.Objects
import NativeHelper.Transition

/-! # Programs over scoped string characters

`ScopedStringChars` gets the UTF-16 characters of a Java string and their number, and releases them
in its destructor; a null string makes it throw a `NullPointerException` instead.

The VM need not copy: it may hand out the same memory for a string as often as it is asked, and a
release only takes back one of these (`StringVm`).  So a program reads characters safely only if no
object releases more than it obtained.  `Owned` says so object by object, and
`Owned.mem_handedOut` that what an object holds is then still handed out. -/

namespace NativeHelper

/-- The strings of the VM, and the memory that native code may read, with the string it is of. -/
structure StringVm (S P : Type) where
  contents : S → List UInt16
  handedOut : List (S × P)

namespace StringVm

variable {S P : Type} [DecidableEq S] [DecidableEq P]

/-- `GetStringChars` that returns `chars`. -/
def getStringChars (vm : StringVm S P) (string : S) (chars : P) : StringVm S P :=
  { vm with handedOut := (string, chars) :: vm.handedOut }

def getStringLength (vm : StringVm S P) (string : S) : ℕ := (vm.contents string).length

def releaseStringChars (vm : StringVm S P) (string : S) (chars : P) : StringVm S P :=
  { vm with handedOut := vm.handedOut.erase (string, chars) }

/-- `chars[n]`, where there is such a character. -/
def read (vm : StringVm S P) (chars : P) (n : ℕ) : Option UInt16 :=
  (vm.handedOut.find? fun h => h.2 = chars).bind fun h => (vm.contents h.1)[n]?

/-- No memory is handed out for two strings. -/
def Apart (vm : StringVm S P) : Prop :=
  ∀ h ∈ vm.handedOut, ∀ h' ∈ vm.handedOut, h.2 = h'.2 → h.1 = h'.1

omit [DecidableEq S] in
/-- Memory that is handed out for a string reads like it. -/
theorem read_eq {vm : StringVm S P} (ha : vm.Apart) {string : S} {chars : P}
    (h : (string, chars) ∈ vm.handedOut) (n : ℕ) :
    vm.read chars n = (vm.contents string)[n]? := by
  unfold read
  cases hf : vm.handedOut.find? fun h => h.2 = chars with
  | none =>
      have hne := List.find?_eq_none.mp hf (string, chars) h
      simp at hne
  | some h' =>
      have hp : h'.2 = chars := by simpa using List.find?_some hf
      rw [Option.bind_some, ha h' (List.mem_of_find?_eq_some hf) (string, chars) h hp]

end StringVm

/-- An object; `none` is `NULL`. -/
structure ScopedStringChars (E S P : Type) where
  env_ : E
  string_ : Option S
  chars_ : Option P
  size_ : ℕ
deriving DecidableEq, Repr

namespace ScopedStringChars

open Transition Objects NativehelperUtils

variable {O E S P : Type}

/-- The calls about strings, with what `GetStringChars` returned. -/
inductive CharsEvent (E S P : Type) where
  | getStringChars (env : E) (string : S) (chars : Option P)
  | getStringLength (env : E) (string : S)
  | releaseStringChars (env : E) (string : Option S) (chars : Option P)
deriving DecidableEq, Repr

/-- The live objects and their calls, each with the object that makes it; the environments of the
threads; and the strings. -/
structure State (O E S P : Type) where
  store : Store O (ScopedStringChars E S P) (O × CharsEvent E S P)
  envs : E → JniEnv
  vm : StringVm S P

/-- What the VM answers to the calls of a constructor. -/
structure ConstructAnswers (P : Type) where
  /-- If the string is null. -/
  nullPointer : NullPointerAnswers
  /-- `GetStringChars(string, NULL)` -/
  chars : Answer P

/-! ### The methods -/

section methods
variable [DecidableEq O] [DecidableEq E] [DecidableEq S] [DecidableEq P]

/-- Run a program on an environment. -/
def onEnv {α : Type} (env : E) (p : JniM α) (st : State O E S P) : State O E S P :=
  { st with envs := Function.update st.envs env (p (st.envs env)).2 }

/-- A call of `this`. -/
def call (this : O) (event : CharsEvent E S P) (st : State O E S P) : State O E S P :=
  { st with store := st.store.record (some (this, event)) }

def setObject (this : O) (obj : Option (ScopedStringChars E S P)) (st : State O E S P) :
    State O E S P :=
  { st with store := st.store.set this obj }

/-- `env->GetStringChars(string, NULL)` -/
def getStringChars (this : O) (env : E) (string : S) (answer : Answer P) (st : State O E S P) :
    Option P × State O E S P :=
  match answer with
  | .value p =>
      (some p, call this (.getStringChars env string (some p))
        { st with vm := st.vm.getStringChars string p })
  | .null thrown =>
      (none, call this (.getStringChars env string none) (onEnv env (raise thrown) st))

/-- `ScopedStringChars(env, s)` -/
def construct (this : O) (env : E) (s : Option S) (answers : ConstructAnswers P)
    (st : State O E S P) : State O E S P :=
  match s with
  | none =>
      setObject this (some ⟨env, none, none, 0⟩)
        (onEnv env (jniThrowNullPointerException answers.nullPointer) st)
  | some string =>
      match getStringChars this env string answers.chars st with
      | (none, st) => setObject this (some ⟨env, some string, none, 0⟩) st
      | (some chars_, st) =>
          setObject this (some ⟨env, some string, some chars_, st.vm.getStringLength string⟩)
            (call this (.getStringLength env string) st)

/-- `env->ReleaseStringChars(string, chars)` -/
def releaseStringChars (this : O) (env : E) (string : Option S) (chars : Option P)
    (st : State O E S P) : State O E S P :=
  let st := call this (.releaseStringChars env string chars) st
  match string, chars with
  | some string, some chars => { st with vm := st.vm.releaseStringChars string chars }
  | _, _ => st

/-- `~ScopedStringChars()` -/
def destroy (this : O) (st : State O E S P) : Option (State O E S P) := do
  let obj ← st.store.object this
  let st := if obj.chars_.isSome then
      releaseStringChars this obj.env_ obj.string_ obj.chars_ st
    else st
  some (setObject this none st)

end methods

/-- `get()` -/
def get (obj : ScopedStringChars E S P) : Option P := obj.chars_

/-- `size()` -/
def size (obj : ScopedStringChars E S P) : ℕ := obj.size_

/-- `operator[]`: `chars_[n]`, where there is such a character. -/
def index [DecidableEq P] (obj : ScopedStringChars E S P) (vm : StringVm S P) (n : ℕ) :
    Option UInt16 :=
  obj.chars_.bind fun chars => vm.read chars n

/-! ### Programs -/

/-- What a program does with its objects. -/
inductive Action (O E S P : Type) where
  | construct (this : O) (env : E) (s : Option S) (answers : ConstructAnswers P)
  | read (this : O) (n : ℕ)
  | destroy (this : O)

section programs
variable [DecidableEq O] [DecidableEq E] [DecidableEq S] [DecidableEq P]

/-- One action; only a dead object is constructed and only live ones are used. -/
def step (st : State O E S P) : Action O E S P → Option (State O E S P)
  | .construct this env s answers =>
      if (st.store.object this).isNone then some (construct this env s answers st) else none
  | .read this n => do
      let obj ← st.store.object this
      let _ ← obj.index st.vm n
      some st
  | .destroy this => destroy this st

/-- No object, and nothing handed out. -/
def initial (contents : S → List UInt16) (envs : E → JniEnv) : State O E S P :=
  ⟨.empty, envs, ⟨contents, []⟩⟩

section outcomes
variable (this : O) (env : E) (string : S) {answers : ConstructAnswers P} (st : State O E S P)

omit [DecidableEq S] [DecidableEq P] in
theorem construct_failed {thrown : Option JavaObject} (ha : answers.chars = .null thrown) :
    construct this env (some string) answers st =
      setObject this (some ⟨env, some string, none, 0⟩)
        (call this (.getStringChars env string none) (onEnv env (raise thrown) st)) := by
  unfold construct getStringChars
  rw [ha]

omit [DecidableEq S] [DecidableEq P] in
theorem construct_obtained {p : P} (ha : answers.chars = .value p) :
    construct this env (some string) answers st =
      setObject this (some ⟨env, some string, some p, st.vm.getStringLength string⟩)
        (call this (.getStringLength env string)
          (call this (.getStringChars env string (some p))
            { st with vm := st.vm.getStringChars string p })) := by
  unfold construct getStringChars
  rw [ha]
  rfl

end outcomes

/-- What a completed action has done. -/
inductive Step (st : State O E S P) : Action O E S P → State O E S P → Prop
  | constructNull {this : O} (h : st.store.object this = none) (env : E)
      (answers : ConstructAnswers P) :
      Step st (.construct this env none answers)
        (setObject this (some ⟨env, none, none, 0⟩)
          (onEnv env (jniThrowNullPointerException answers.nullPointer) st))
  | constructFailed {this : O} (h : st.store.object this = none) (env : E) (string : S)
      {answers : ConstructAnswers P} {thrown : Option JavaObject}
      (ha : answers.chars = .null thrown) :
      Step st (.construct this env (some string) answers)
        (setObject this (some ⟨env, some string, none, 0⟩)
          (call this (.getStringChars env string none) (onEnv env (raise thrown) st)))
  | construct {this : O} (h : st.store.object this = none) (env : E) (string : S)
      {answers : ConstructAnswers P} {p : P} (ha : answers.chars = .value p) :
      Step st (.construct this env (some string) answers)
        (setObject this (some ⟨env, some string, some p, st.vm.getStringLength string⟩)
          (call this (.getStringLength env string)
            (call this (.getStringChars env string (some p))
              { st with vm := st.vm.getStringChars string p })))
  | read {this : O} {obj : ScopedStringChars E S P} (h : st.store.object this = some obj) (n : ℕ) :
      Step st (.read this n) st
  | destroy {this : O} {obj : ScopedStringChars E S P} (h : st.store.object this = some obj) :
      Step st (.destroy this)
        (setObject this none
          (if obj.chars_.isSome then releaseStringChars this obj.env_ obj.string_ obj.chars_ st
            else st))

theorem step_cases {st st' : State O E S P} {a : Action O E S P} (hst : step st a = some st') :
    Step st a st' := by
  cases a with
  | construct this env s answers =>
      rw [step] at hst
      by_cases h : st.store.object this = none
      · rw [h, Option.isNone_none, if_pos rfl, Option.some.injEq] at hst
        subst hst
        cases s with
        | none => exact .constructNull h env answers
        | some string =>
            cases ha : answers.chars with
            | null thrown =>
                rw [construct_failed this env string st ha]
                exact .constructFailed h env string ha
            | value p =>
                rw [construct_obtained this env string st ha]
                exact .construct h env string ha
      · rw [if_neg (by rwa [Option.isNone_iff_eq_none])] at hst
        cases hst
  | read this n =>
      obtain ⟨obj, hobj, hst⟩ := Option.bind_eq_some_iff.mp hst
      obtain ⟨c, _, hst⟩ := Option.bind_eq_some_iff.mp hst
      cases hst
      exact .read hobj n
  | destroy this =>
      obtain ⟨obj, hobj, hst⟩ := Option.bind_eq_some_iff.mp hst
      cases hst
      exact .destroy hobj

end programs

/-! ### The characters as handles -/

/-- What a call is to the ledger of characters, which are known by the object, the environment, the
string and the pointer. -/
def CharsEvent.entry : O × CharsEvent E S P → Option (Ledger.Entry (O × E × S × P))
  | (o, .getStringChars env string (some p)) => some (.acquire (o, env, string, p))
  | (o, .releaseStringChars env (some string) (some p)) => some (.release (o, env, string, p))
  | (_, .getStringChars _ _ none) | (_, .getStringLength _ _) => none
  | (_, .releaseStringChars _ _ _) => none

def State.ledger (st : State O E S P) : List (Ledger.Entry (O × E × S × P)) :=
  st.store.trace.filterMap CharsEvent.entry

/-- The ledger of the VM, which does not know about objects and threads. -/
def State.vmLedger (st : State O E S P) : List (Ledger.Entry (S × P)) :=
  st.ledger.map (Ledger.Entry.map fun h => h.2.2)

/-- The characters an object holds, with what it would release them with. -/
def ownChars : ScopedStringChars E S P → Option (E × S × P)
  | ⟨env, some string, some p, _⟩ => some (env, string, p)
  | ⟨_, none, _, _⟩ | ⟨_, _, none, _⟩ => none

/-- What each object holds. -/
def State.held (st : State O E S P) (o : O) : Option (O × E × S × P) :=
  (st.store.held ownChars o).map fun h => (o, h)

/-- An object has no characters, or it has those of its string, and their number. -/
inductive Whole (contents : S → List UInt16) : ScopedStringChars E S P → Prop
  | null (env : E) (string : Option S) : Whole contents ⟨env, string, none, 0⟩
  | chars (env : E) (string : S) (p : P) :
      Whole contents ⟨env, some string, some p, (contents string).length⟩

/-- The call, if it is one of `ReleaseStringChars`, has no null argument. -/
def CharsEvent.NonNull : CharsEvent E S P → Prop
  | .releaseStringChars _ string chars => string.isSome ∧ chars.isSome
  | .getStringChars _ _ _ | .getStringLength _ _ => True

section handles
variable {st : State O E S P} {this : O}

theorem held_eq_some_iff {o : O} {h : O × E × S × P} :
    st.held o = some h ↔ h.1 = o ∧ ∃ n, st.store.object o = some ⟨h.2.1, h.2.2.1, h.2.2.2, n⟩ := by
  obtain ⟨o', env, string, p⟩ := h
  unfold State.held Store.held
  cases hobj : st.store.object o with
  | none => simp
  | some obj =>
      obtain ⟨env', string', chars, n⟩ := obj
      cases string' <;> cases chars <;> simp [ownChars]
      grind

theorem ledger_call (event : CharsEvent E S P) :
    (call this event st).ledger = st.ledger ++ (CharsEvent.entry (this, event)).toList := by
  unfold State.ledger call Store.record
  rw [List.filterMap_append]
  cases h : CharsEvent.entry (this, event) <;> simp [h]

theorem vmLedger_call (event : CharsEvent E S P) :
    (call this event st).vmLedger =
      st.vmLedger ++ ((CharsEvent.entry (this, event)).map
        (Ledger.Entry.map fun h => h.2.2)).toList := by
  unfold State.vmLedger
  rw [ledger_call, List.map_append]
  cases CharsEvent.entry (this, event) <;> rfl

variable [DecidableEq O]

theorem held_setObject (obj : Option (ScopedStringChars E S P)) :
    (setObject this obj st).held =
      Function.update st.held this ((obj.bind ownChars).map fun h => (this, h)) := by
  funext o
  unfold State.held
  rw [setObject, Store.held_set]
  by_cases h : o = this
  · subst h
    rw [Function.update_self, Function.update_self]
  · rw [Function.update_of_ne h, Function.update_of_ne h]

end handles

/-! ### One action -/

section actions
variable [DecidableEq O] [DecidableEq E] [DecidableEq S] [DecidableEq P]

/-- The live objects own the characters between them, each with what it needs to release them; what
was obtained and not released is what the VM has handed out; and no release had a null argument. -/
structure Owned (st : State O E S P) : Prop where
  owned : Ledger.OwnedBy Prod.fst st.ledger st.held
  whole : ∀ o obj, st.store.object o = some obj → Whole st.vm.contents obj
  handedOut : ∀ h, Ledger.released st.vmLedger h + st.vm.handedOut.count h =
    Ledger.acquired st.vmLedger h
  apart : st.vm.Apart
  nonNull : ∀ e ∈ st.store.trace, e.2.NonNull

/-- The VM behaves: memory that it hands out is not handed out for another string, and a call that
fails throws. -/
def Proper (st : State O E S P) : Action O E S P → Prop
  | .construct _ _ none answers =>
      answers.nullPointer.eClass ≠ .null none ∧ answers.nullPointer.throwNew ≠ .null none
  | .construct _ _ (some string) answers =>
      (∀ p, answers.chars = .value p → ∀ h ∈ st.vm.handedOut, h.2 = p → h.1 = string) ∧
        answers.chars ≠ .null none
  | .read _ _ | .destroy _ => True

variable {st st' : State O E S P} {this : O} {obj : ScopedStringChars E S P}

theorem owned_initial (contents : S → List UInt16) (envs : E → JniEnv) :
    Owned (initial contents envs : State O E S P) where
  owned := Ledger.ownedBy_nil
  whole := by intro o obj h; cases h
  handedOut := fun _ => rfl
  apart := by intro h hh; cases hh
  nonNull := by intro e h; cases h

/-- **What an object holds is handed out**, also if other objects hold the same memory. -/
theorem Owned.mem_handedOut (h : Owned st) {env : E} {string : S} {p : P} {n : ℕ}
    (hobj : st.store.object this = some ⟨env, some string, some p, n⟩) :
    (string, p) ∈ st.vm.handedOut := by
  have hheld : st.held this = some (this, env, string, p) := held_eq_some_iff.mpr ⟨rfl, n, hobj⟩
  have hle : ∀ g, Ledger.released st.ledger g ≤ Ledger.acquired st.ledger g := by
    intro g
    by_cases hg : ∃ o, st.held o = some g
    · obtain ⟨o, ho⟩ := hg
      have := h.owned.outstanding o g ho
      omega
    · exact Nat.le_of_eq (h.owned.settled g fun o ho => hg ⟨o, ho⟩).symm
  have hlt : Ledger.released st.ledger (this, env, string, p) <
      Ledger.acquired st.ledger (this, env, string, p) := by
    have := h.owned.outstanding this _ hheld
    omega
  have hvm : Ledger.released st.vmLedger (string, p) < Ledger.acquired st.vmLedger (string, p) :=
    Ledger.released_lt_acquired_map hle (fun g => g.2.2) hlt
  have hcount := h.handedOut (string, p)
  rw [← List.count_pos_iff]
  omega

omit [DecidableEq E] [DecidableEq S] [DecidableEq P] in
theorem whole_setObject {contents : S → List UInt16}
    (h : ∀ o obj, st.store.object o = some obj → Whole contents obj)
    {obj' : Option (ScopedStringChars E S P)} (hobj' : ∀ obj, obj' = some obj → Whole contents obj) :
    ∀ o obj, (setObject this obj' st).store.object o = some obj → Whole contents obj := by
  intro o obj ho
  by_cases e : o = this
  · rw [e, setObject, Store.object_set_self] at ho
    exact hobj' obj ho
  · rw [setObject, Store.object_set_ne _ _ e] at ho
    exact h o obj ho

omit [DecidableEq O] [DecidableEq E] [DecidableEq S] [DecidableEq P] in
theorem nonNull_call (h : ∀ e ∈ st.store.trace, e.2.NonNull) {event : CharsEvent E S P}
    (hevent : event.NonNull) : ∀ e ∈ (call this event st).store.trace, e.2.NonNull := by
  intro e he
  rcases List.mem_append.mp he with he | he
  · exact h e he
  · rw [List.mem_singleton.mp he]
    exact hevent

/-- A call that is nothing to the ledger, and a new environment. -/
theorem Owned.call (h : Owned st) {event : CharsEvent E S P} (envs : E → JniEnv)
    (hentry : CharsEvent.entry (this, event) = none) (hevent : event.NonNull) :
    Owned (call this event { st with envs }) := by
  have hl : (ScopedStringChars.call this event { st with envs }).ledger = st.ledger := by
    rw [ledger_call, hentry]
    exact List.append_nil _
  refine ⟨?_, h.whole, ?_, h.apart, nonNull_call h.nonNull hevent⟩
  · rw [hl]
    exact h.owned
  · intro g
    rw [State.vmLedger, hl]
    exact h.handedOut g

/-- A new object without characters. -/
theorem Owned.setNull (h : Owned st) (hdead : st.store.object this = none) (env : E)
    (string : Option S) : Owned (setObject this (some ⟨env, string, none, 0⟩) st) := by
  have hheld : st.held this = none := by rw [State.held, Store.held_eq_none hdead]; rfl
  have hown : (some (⟨env, string, none, 0⟩ : ScopedStringChars E S P)).bind ownChars = none := by
    cases string <;> rfl
  refine ⟨?_, whole_setObject h.whole ?_, h.handedOut, h.apart, h.nonNull⟩
  · rw [held_setObject, hown, Option.map_none, ← hheld, Function.update_eq_self]
    exact h.owned
  · rintro obj ⟨⟩
    exact .null env string

/-- An object obtains characters. -/
theorem Owned.obtain (h : Owned st) (hdead : st.store.object this = none) (env : E) {string : S}
    {p : P} (hp : ∀ h ∈ st.vm.handedOut, h.2 = p → h.1 = string) :
    Owned (setObject this (some ⟨env, some string, some p, (st.vm.contents string).length⟩)
      (ScopedStringChars.call this (.getStringChars env string (some p))
        { st with vm := st.vm.getStringChars string p })) := by
  have hheld : st.held this = none := by rw [State.held, Store.held_eq_none hdead]; rfl
  refine ⟨?_, whole_setObject h.whole ?_, fun g => ?_, ?_, nonNull_call h.nonNull trivial⟩
  · have hput := h.owned.acquire (g := (this, env, string, p)) hheld fun o x hx hk => ?_
    · rw [held_setObject]
      show Ledger.OwnedBy Prod.fst
        (ScopedStringChars.call this (.getStringChars env string (some p)) _).ledger _
      rw [ledger_call]
      exact hput
    · obtain ⟨rfl, n, hobj⟩ := held_eq_some_iff.mp hx
      rw [hk, hdead] at hobj
      cases hobj
  · rintro obj ⟨⟩
    exact .chars env string p
  · have hcount := h.handedOut g
    have hv : (setObject this (some ⟨env, some string, some p, (st.vm.contents string).length⟩)
        (ScopedStringChars.call this (.getStringChars env string (some p))
          { st with vm := st.vm.getStringChars string p })).vmLedger =
        st.vmLedger ++ [.acquire (string, p)] := vmLedger_call _
    show _ + ((string, p) :: st.vm.handedOut).count g = _
    rw [hv, Ledger.released_acquire, Ledger.acquired_acquire, List.count_cons]
    by_cases e : (string, p) = g
    · simp only [e, beq_self_eq_true, if_true]
      omega
    · simp only [e, beq_iff_eq, if_false]
      omega
  · -- what was handed out at `p` before is of the same string
    have hnew : ∀ g ∈ (string, p) :: st.vm.handedOut, g.2 = p → g.1 = string := by
      intro g hg hgp
      rcases List.mem_cons.mp hg with rfl | hg
      · rfl
      · exact hp g hg hgp
    intro g hg g' hg' hk
    have hg₁ : g ∈ (string, p) :: st.vm.handedOut := hg
    have hg₁' : g' ∈ (string, p) :: st.vm.handedOut := hg'
    by_cases e : g.2 = p
    · rw [hnew g hg e, hnew g' hg' (hk ▸ e)]
    · have hne : ∀ x : S × P, x.2 ≠ p → x ≠ (string, p) := fun x hx hxp => hx (hxp ▸ rfl)
      exact h.apart g ((List.mem_cons.mp hg₁).resolve_left (hne g e)) g'
        ((List.mem_cons.mp hg₁').resolve_left (hne g' (hk ▸ e))) hk

/-- An object releases its characters. -/
theorem Owned.release (h : Owned st) {env : E} {string : S} {p : P} {n : ℕ}
    (hobj : st.store.object this = some ⟨env, some string, some p, n⟩) :
    Owned (setObject this none (releaseStringChars this env (some string) (some p) st)) := by
  have hheld : st.held this = some (this, env, string, p) := held_eq_some_iff.mpr ⟨rfl, n, hobj⟩
  have hmem := h.mem_handedOut hobj
  refine ⟨?_, whole_setObject h.whole ?_, fun g => ?_, ?_, nonNull_call h.nonNull ⟨rfl, rfl⟩⟩
  · have hrel := h.owned.release hheld
    rw [held_setObject]
    show Ledger.OwnedBy Prod.fst
      (ScopedStringChars.call this (.releaseStringChars env (some string) (some p)) st).ledger _
    rw [ledger_call]
    exact hrel
  · rintro obj ⟨⟩
  · have hcount := h.handedOut g
    have hv : (setObject this none
        (releaseStringChars this env (some string) (some p) st)).vmLedger =
        st.vmLedger ++ [.release (string, p)] := vmLedger_call _
    have hpos : 0 < st.vm.handedOut.count (string, p) := List.count_pos_iff.mpr hmem
    show _ + (st.vm.handedOut.erase (string, p)).count g = _
    rw [hv, Ledger.released_release, Ledger.acquired_release]
    by_cases e : (string, p) = g
    · rw [if_pos e, ← e, List.count_erase_self]
      rw [← e] at hcount
      omega
    · rw [if_neg e, List.count_erase_of_ne (Ne.symm e)]
      exact hcount
  · exact fun g hg g' hg' hk => h.apart g (List.mem_of_mem_erase hg) g' (List.mem_of_mem_erase hg') hk

/-- An object without characters is no more. -/
theorem Owned.setNone (h : Owned st) {env : E} {string : Option S} {n : ℕ}
    (hobj : st.store.object this = some ⟨env, string, none, n⟩) :
    Owned (setObject this none st) := by
  have hheld : st.held this = none := by
    rw [State.held, Store.held_eq hobj]
    cases string <;> rfl
  refine ⟨?_, whole_setObject h.whole ?_, h.handedOut, h.apart, h.nonNull⟩
  · rw [held_setObject, Option.bind_none, Option.map_none, ← hheld, Function.update_eq_self]
    exact h.owned
  · rintro obj ⟨⟩

theorem Owned.step (h : Owned st) {a : Action O E S P} (hproper : Proper st a)
    (hst : step st a = some st') : Owned st' := by
  cases step_cases hst with
  | @constructNull this hdead env answers =>
      have hk : Owned (onEnv env (jniThrowNullPointerException answers.nullPointer) st) :=
        ⟨h.owned, h.whole, h.handedOut, h.apart, h.nonNull⟩
      exact hk.setNull hdead env none
  | @constructFailed this hdead env string answers thrown ha =>
      have hk : Owned (ScopedStringChars.call this (.getStringChars env string none)
          (onEnv env (raise thrown) st)) := h.call _ rfl trivial
      exact hk.setNull hdead env (some string)
  | @construct this hdead env string answers p ha =>
      have ho := h.obtain hdead env (hproper.1 p ha)
      exact @Owned.call O E S P _ _ _ _ _ this ho (.getStringLength env string) st.envs rfl trivial
  | read hobj n => exact h
  | @destroy this obj hobj =>
      cases h.whole this obj hobj with
      | null env string => exact h.setNone hobj
      | chars env string p => exact h.release hobj

end actions

/-! ### Whole programs -/

section programs
variable [DecidableEq O] [DecidableEq E] [DecidableEq S] [DecidableEq P]

/-- How often `this` got `p` for `string` on `env`. -/
def obtained (st : State O E S P) (this : O) (env : E) (string : S) (p : P) : ℕ :=
  st.store.trace.count (this, .getStringChars env string (some p))

/-- How often `this` released `p` with these arguments. -/
def released (st : State O E S P) (this : O) (env : E) (string : S) (p : P) : ℕ :=
  st.store.trace.count (this, .releaseStringChars env (some string) (some p))

theorem acquired_ledger (st : State O E S P) (this : O) (env : E) (string : S) (p : P) :
    Ledger.acquired st.ledger (this, env, string, p) = obtained st this env string p := by
  unfold Ledger.acquired State.ledger obtained
  induction st.store.trace with
  | nil => rfl
  | cons e trace ih =>
      rcases e with ⟨_, ⟨_, _, _ | _⟩ | _ | ⟨_, _ | _, _ | _⟩⟩ <;>
        simp [CharsEvent.entry, List.filterMap_cons, List.count_cons, ih]

theorem released_ledger (st : State O E S P) (this : O) (env : E) (string : S) (p : P) :
    Ledger.released st.ledger (this, env, string, p) = released st this env string p := by
  unfold Ledger.released State.ledger released
  induction st.store.trace with
  | nil => rfl
  | cons e trace ih =>
      rcases e with ⟨_, ⟨_, _, _ | _⟩ | _ | ⟨_, _ | _, _ | _⟩⟩ <;>
        simp [CharsEvent.entry, List.filterMap_cons, List.count_cons, ih]

/-- The indexes below `size()` read the characters of the string, and no others read anything;
without characters the size is zero. -/
def Readable (vm : StringVm S P) (obj : ScopedStringChars E S P) : Prop :=
  (obj.get = none → obj.size = 0) ∧ ∀ n, (n < obj.size ↔ (obj.index vm n).isSome) ∧
    ∀ c, obj.index vm n = some c → ∃ string, obj.string_ = some string ∧ (vm.contents string)[n]? = some c

/-- Each object has released what it obtained, but for the last time while it has it; no release had
a null argument; and every object can be read. -/
structure InOrder (st : State O E S P) : Prop where
  owned : ∀ o obj p, st.store.object o = some obj → obj.get = some p →
    ∃ string, obj.string_ = some string ∧
      obtained st o obj.env_ string p = released st o obj.env_ string p + 1
  settled : ∀ o env string p, (∀ n, st.store.object o ≠ some ⟨env, some string, some p, n⟩) →
    obtained st o env string p = released st o env string p
  nonNull : ∀ o env string chars, (o, .releaseStringChars env string chars) ∈ st.store.trace →
    string.isSome ∧ chars.isSome
  readable : ∀ o obj, st.store.object o = some obj → Readable st.vm obj

theorem Owned.readable {st : State O E S P} (h : Owned st) {o : O}
    {obj : ScopedStringChars E S P} (hobj : st.store.object o = some obj) :
    Readable st.vm obj := by
  cases h.whole o obj hobj with
  | null env string =>
      refine ⟨fun _ => rfl, fun n => ⟨?_, ?_⟩⟩
      · simp [size, index]
      · rintro c ⟨⟩
  | chars env string p =>
      have hread := StringVm.read_eq h.apart (h.mem_handedOut hobj)
      refine ⟨fun hnull => (by cases hnull), fun n => ⟨?_, fun c hc => ⟨string, rfl, ?_⟩⟩⟩
      · show n < (st.vm.contents string).length ↔ (st.vm.read p n).isSome
        rw [hread n]
        simp
      · rw [← hread n]
        exact hc

theorem Owned.inOrder {st : State O E S P} (h : Owned st) : InOrder st where
  owned := by
    intro o obj p hobj hp
    cases h.whole o obj hobj with
    | null env string => cases hp
    | chars env string q =>
        cases hp
        refine ⟨string, rfl, ?_⟩
        rw [← acquired_ledger, ← released_ledger]
        exact h.owned.outstanding o _ (held_eq_some_iff.mpr ⟨rfl, _, hobj⟩)
  settled := by
    intro o env string p hno
    rw [← acquired_ledger, ← released_ledger]
    refine h.owned.settled _ fun o' ho' => ?_
    obtain ⟨rfl, n, hobj⟩ := held_eq_some_iff.mp ho'
    exact hno n hobj
  nonNull := fun o env string chars he => h.nonNull _ he
  readable := fun o obj hobj => h.readable hobj

/-- When no object is alive, nothing is handed out. -/
theorem Owned.handedOut_eq_nil {st : State O E S P} (h : Owned st)
    (hdead : ∀ o, st.store.object o = none) : st.vm.handedOut = [] := by
  have hbalanced : Ledger.Balanced st.ledger := by
    intro g
    refine (h.owned.settled g fun o ho => ?_).symm
    obtain ⟨-, n, hobj⟩ := held_eq_some_iff.mp ho
    rw [hdead o] at hobj
    cases hobj
  rw [List.eq_nil_iff_forall_not_mem]
  intro g hg
  have hcount := h.handedOut g
  have hvm : Ledger.released st.vmLedger g = Ledger.acquired st.vmLedger g :=
    hbalanced.map (fun x => x.2.2) g
  have hpos := List.count_pos_iff.mpr hg
  omega

/-- A constructor that returns without characters leaves an exception pending; one that returns with
characters does not touch it. -/
def Reports (st : State O E S P) : Action O E S P → Prop
  | .construct this env s answers => ∀ obj,
      (construct this env s answers st).store.object this = some obj →
        (obj.get = none → ((construct this env s answers st).envs env).pending ≠ none) ∧
        (obj.get ≠ none →
          ((construct this env s answers st).envs env).pending = (st.envs env).pending)
  | .read _ _ | .destroy _ => True

omit [DecidableEq S] [DecidableEq P] in
/-- An exception is pending after each way to fail. -/
theorem Proper.reports {st : State O E S P} {a : Action O E S P} (h : Proper st a) :
    Reports st a := by
  cases a with
  | construct this env s answers =>
      intro obj hobj
      cases s with
      | none =>
          rw [construct, setObject, Store.object_set_self] at hobj
          cases hobj
          refine ⟨fun _ => ?_, fun hne => absurd rfl hne⟩
          show (Function.update st.envs env _ env).pending ≠ none
          rw [Function.update_self]
          exact jniThrowNullPointerException_pending h _
      | some string =>
          rcases ha : answers.chars with p | _ | object
          · rw [construct_obtained this env string st ha] at hobj ⊢
            rw [setObject, Store.object_set_self] at hobj
            cases hobj
            exact ⟨fun hnull => (by cases hnull), fun _ => rfl⟩
          · exact absurd ha h.2
          · rw [construct_failed this env string st ha] at hobj ⊢
            rw [setObject, Store.object_set_self] at hobj
            cases hobj
            refine ⟨fun _ => ?_, fun hne => absurd rfl hne⟩
            show (Function.update st.envs env (raise (some object) (st.envs env)).2 env).pending ≠
              none
            rw [Function.update_self]
            exact Option.some_ne_none object
  | read this n => trivial
  | destroy this => trivial

/-- **A program never reads a character that is not there, and releases every character exactly
once**, as long as the VM behaves.  In each state of its run every object that is alive reads the
characters of its string at the indexes below `size()`, although others may hold the same memory and
release it before; a constructor that returns without characters leaves an exception pending; and
once no object is alive, nothing is handed out. -/
theorem scopedStringChars_run (contents : S → List UInt16) (envs : E → JniEnv)
    (as : List (Action O E S P)) (hproper : EveryStep step Proper (initial contents envs) as) :
    EveryState step InOrder (initial contents envs) as ∧
      EveryStep step Reports (initial contents envs) as ∧
      ∀ st, run step (initial contents envs) as = some st → (∀ o, st.store.object o = none) →
        st.vm.handedOut = [] ∧
          ∀ o env string p, released st o env string p = obtained st o env string p := by
  have h : EveryState step Owned (initial contents envs) as :=
    hproper.everyState (fun _ _ _ hs hp hst => hs.step hp hst) (owned_initial contents envs)
  refine ⟨h.imp fun _ hs => hs.inOrder, ?_, fun st hr hdead => ⟨?_, fun o env string p => ?_⟩⟩
  · exact hproper.imp fun _ _ hp => hp.reports
  · exact (h.last hr).handedOut_eq_nil hdead
  · refine ((h.last hr).inOrder.settled o env string p fun n hn => ?_).symm
    rw [hdead o] at hn
    cases hn

/-- `java.lang.NullPointerException` is found and thrown. -/
def nullPointerFound : NullPointerAnswers := ⟨.value 20, .value 21⟩

/-- Two objects with the same memory, of which one is destroyed before the other one is read; a null
string; and a `GetStringChars` that fails. -/
def sharingProgram : List (Action ℕ ℕ ℕ ℕ) :=
  [.construct 0 1 (some 2) ⟨nullPointerFound, .value 5⟩,
    .construct 1 1 (some 2) ⟨nullPointerFound, .value 5⟩, .destroy 0, .read 1 1,
    .construct 2 1 none ⟨nullPointerFound, .value 6⟩,
    .construct 3 7 (some 4) ⟨nullPointerFound, .null (some 9)⟩, .destroy 1, .destroy 2, .destroy 3]

theorem scopedStringChars_run_sharing :
    ((run step (initial (fun _ => [72, 105]) fun _ => quietEnv) sharingProgram).map fun st =>
        (st.vm.handedOut, (st.envs 1).pending, (st.envs 7).pending)) =
      some ([], some 21, some 9) ∧
    EveryState step InOrder (initial (fun _ => [72, 105]) fun _ => quietEnv) sharingProgram := by
  have hproper : EveryStep step Proper (initial (fun _ => [72, 105]) fun _ => quietEnv)
      sharingProgram := by
    simp [EveryStep, sharingProgram, step, Proper, construct, getStringChars, destroy,
      releaseStringChars, setObject, call, onEnv, nullPointerFound, initial, Store.set, Store.record,
      Store.empty, StringVm.getStringChars, StringVm.releaseStringChars]
  exact ⟨rfl, (scopedStringChars_run _ _ sharingProgram hproper).1⟩

end programs

end ScopedStringChars
end NativeHelper
