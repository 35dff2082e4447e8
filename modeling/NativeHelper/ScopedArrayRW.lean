import NativeHelper.ScopedArrayRO

/-! # The read-write primitive array wrappers

`Scoped<T>ArrayRW` always has the VM hand out the elements; its destructor releases them with mode
`0`, which writes a copy back.  Like the read-only wrapper it does not give back on a `reset` what it
had.

As long as no `reset` finds elements in the object, an array that is not in the object has what was
last written to it through the wrapper, and the elements of the one that is in it have
(`Synced`). -/

namespace NativeHelper

/-- The fields. -/
structure ScopedArrayRW (A : Type) where
  mJavaArray : Option A
  mRawArray : RawArray
deriving DecidableEq, Repr

namespace ScopedArrayRW

open Transition

variable {A V : Type}

/-! ### The methods -/

/-- The constructor without an array. -/
def constructEmpty : ScopedArrayRW A := ⟨none, .null⟩

/-- `reset`; `answer` is that of `Get<T>ArrayElements`. -/
def reset (javaArray : A) (answer : Option Bool) (vm : ArrayVm A V) : ScopedArrayRW A × ArrayVm A V :=
  let (mRawArray, vm) := vm.getArrayElements javaArray answer
  (⟨some javaArray, mRawArray⟩, vm)

/-- The constructor from an array. -/
def construct (javaArray : Option A) (answer : Option Bool) (vm : ArrayVm A V) :
    ScopedArrayRW A × ArrayVm A V :=
  match javaArray with
  | none => (⟨javaArray, .null⟩, vm.call .throwNullPointerException)
  | some a =>
      let (mRawArray, vm) := vm.getArrayElements a answer
      (⟨javaArray, mRawArray⟩, vm)

/-- The destructor. -/
def destructor [DecidableEq A] (obj : ScopedArrayRW A) (vm : ArrayVm A V) : ArrayVm A V :=
  if obj.mRawArray ≠ .null then
    vm.releaseArrayElements obj.mJavaArray obj.mRawArray .copyBack
  else vm

/-- `operator[]` to read: `mRawArray[n]`. -/
def index (obj : ScopedArrayRW A) (vm : ArrayVm A V) (n : ℕ) : Option V :=
  vm.load obj.mRawArray n

/-- `operator[]` to write: `mRawArray[n] = v`. -/
def assign [DecidableEq A] (obj : ScopedArrayRW A) (vm : ArrayVm A V) (n : ℕ) (v : V) :
    Option (ArrayVm A V) :=
  vm.store obj.mRawArray n v

/-! ### The life of an object -/

/-- The VM, the object while it is alive, and what each array is to contain: its elements at first,
then what was last written to it through the object. -/
structure State (A V : Type) where
  vm : ArrayVm A V
  object : Option (ScopedArrayRW A)
  written : A → List V

/-- What is done with the object. -/
inductive Action (A V : Type) where
  | constructEmpty
  | construct (javaArray : Option A) (answer : Option Bool)
  | reset (javaArray : A) (answer : Option Bool)
  | read (n : ℕ)
  | write (n : ℕ) (v : V)
  | destroy
deriving DecidableEq, Repr

def initial (contents : A → List V) : State A V := ⟨.initial contents, none, contents⟩

variable [DecidableEq A]

/-- `v` is written to element `n` of the array, if there is one. -/
def noteWrite (written : A → List V) (array : Option A) (n : ℕ) (v : V) : A → List V :=
  match array with
  | none => written
  | some a => Function.update written a ((written a).set n v)

/-- One action; only a live object is used. -/
def step (s : State A V) : Action A V → Option (State A V)
  | .constructEmpty =>
      if s.object.isNone then some { s with object := some constructEmpty } else none
  | .construct javaArray answer =>
      if s.object.isNone then
        let (obj, vm) := construct javaArray answer s.vm
        some { s with vm := vm, object := some obj }
      else none
  | .reset javaArray answer => do
      let _ ← s.object
      let (obj, vm) := reset javaArray answer s.vm
      some { s with vm := vm, object := some obj }
  | .read n => do
      let obj ← s.object
      let _ ← obj.index s.vm n
      some s
  | .write n v => do
      let obj ← s.object
      let vm ← obj.assign s.vm n v
      some { s with vm := vm, written := noteWrite s.written obj.mJavaArray n v }
  | .destroy => do
      let obj ← s.object
      some { s with vm := obj.destructor s.vm, object := none }

/-- What a completed action has done. -/
inductive Step (s : State A V) : Action A V → State A V → Prop
  | constructEmpty (h : s.object = none) :
      Step s .constructEmpty { s with object := some ScopedArrayRW.constructEmpty }
  | constructNull (h : s.object = none) (answer : Option Bool) :
      Step s (.construct none answer)
        { s with vm := s.vm.call .throwNullPointerException
                 object := some ScopedArrayRW.constructEmpty }
  | construct (h : s.object = none) (javaArray : A) (answer : Option Bool) :
      Step s (.construct (some javaArray) answer)
        { s with vm := (s.vm.getArrayElements javaArray answer).2
                 object := some ⟨some javaArray, (s.vm.getArrayElements javaArray answer).1⟩ }
  | reset {obj : ScopedArrayRW A} (h : s.object = some obj) (javaArray : A) (answer : Option Bool) :
      Step s (.reset javaArray answer)
        { s with vm := (s.vm.getArrayElements javaArray answer).2
                 object := some ⟨some javaArray, (s.vm.getArrayElements javaArray answer).1⟩ }
  | read (n : ℕ) : Step s (.read n) s
  | write {obj : ScopedArrayRW A} (h : s.object = some obj) {vm : ArrayVm A V} {n : ℕ} {v : V}
      (hvm : obj.assign s.vm n v = some vm) :
      Step s (.write n v) { s with vm := vm, written := noteWrite s.written obj.mJavaArray n v }
  | destroy {obj : ScopedArrayRW A} (h : s.object = some obj) :
      Step s .destroy { s with vm := obj.destructor s.vm, object := none }

theorem step_cases {s s' : State A V} {a : Action A V} (hst : step s a = some s') :
    Step s a s' := by
  cases a with
  | constructEmpty =>
      rw [step] at hst
      by_cases h : s.object = none
      · rw [h, Option.isNone_none, if_pos rfl, Option.some.injEq] at hst
        exact hst ▸ .constructEmpty h
      · rw [if_neg (by rwa [Option.isNone_iff_eq_none])] at hst
        cases hst
  | construct javaArray answer =>
      rw [step] at hst
      by_cases h : s.object = none
      · rw [h, Option.isNone_none, if_pos rfl, Option.some.injEq] at hst
        subst hst
        cases javaArray with
        | none => exact .constructNull h answer
        | some a => exact .construct h a answer
      · rw [if_neg (by rwa [Option.isNone_iff_eq_none])] at hst
        cases hst
  | reset javaArray answer =>
      rw [step] at hst
      obtain ⟨obj, hobj, hst⟩ := Option.bind_eq_some_iff.mp hst
      cases hst
      exact .reset hobj javaArray answer
  | read n =>
      rw [step] at hst
      obtain ⟨obj, hobj, hst⟩ := Option.bind_eq_some_iff.mp hst
      obtain ⟨v, -, hst⟩ := Option.bind_eq_some_iff.mp hst
      cases hst
      exact .read n
  | write n v =>
      rw [step] at hst
      obtain ⟨obj, hobj, hst⟩ := Option.bind_eq_some_iff.mp hst
      obtain ⟨vm, hvm, hst⟩ := Option.bind_eq_some_iff.mp hst
      cases hst
      exact .write hobj hvm
  | destroy =>
      rw [step] at hst
      obtain ⟨obj, hobj, hst⟩ := Option.bind_eq_some_iff.mp hst
      cases hst
      exact .destroy hobj

/-! ### The pointers -/

/-- What the object would give back. -/
def held (s : State A V) : Option (A × ℕ) :=
  s.object.bind fun obj => heldElements obj.mJavaArray obj.mRawArray

/-- A `reset` finds no elements in the object. -/
def FindsNone (s : State A V) : Action A V → Prop
  | .reset _ _ => ∀ obj, s.object = some obj → ∀ p, obj.mRawArray ≠ .elements p
  | .constructEmpty | .construct _ _ | .read _ | .write _ _ | .destroy => True

/-- The calls are orderly, and elements in the object were handed out for its array; it has no
buffer. -/
structure InOrder (s : State A V) : Prop where
  orderly : s.vm.Orderly .copyBack
  handedOut : ∀ obj, s.object = some obj → s.vm.HandedOut obj.mJavaArray obj.mRawArray
  noBuffer : ∀ obj, s.object = some obj → obj.mRawArray ≠ .buffer

section pointers
variable {s s' : State A V} {vm : ArrayVm A V}

omit [DecidableEq A] in
theorem held_live {obj : ScopedArrayRW A} (h : s.object = some obj) :
    held s = heldElements obj.mJavaArray obj.mRawArray := by
  unfold held
  rw [h, Option.bind_some]

omit [DecidableEq A] in
theorem held_dead (h : s.object = none) : held s = none := by
  unfold held
  rw [h, Option.bind_none]

omit [DecidableEq A] in
theorem getArrayElements_reopened (javaArray : A) (answer : Option Bool) :
    Ledger.Reopened vm.ledger (vm.getArrayElements javaArray answer).2.ledger
      (heldElements (some javaArray) (vm.getArrayElements javaArray answer).1) := by
  rw [vm.ledger_getArrayElements]
  cases answer with
  | none =>
      rw [Option.isSome_none, if_neg Bool.false_ne_true, List.append_nil]
      exact .nothing
  | some isCopy =>
      rw [Option.isSome_some, if_pos rfl]
      exact .kept _

theorem InOrder.getArrayElements (hi : InOrder s) (javaArray : A) (answer : Option Bool) :
    InOrder { s with
      vm := (s.vm.getArrayElements javaArray answer).2
      object := some ⟨some javaArray, (s.vm.getArrayElements javaArray answer).1⟩ } where
  orderly := hi.orderly.getArrayElements answer
  handedOut := by
    rintro _ ⟨⟩
    exact s.vm.handedOut_getArrayElements javaArray answer
  noBuffer := by
    rintro _ ⟨⟩
    cases answer <;> exact fun h => by cases h

/-- A store through the object changes its elements or its array. -/
theorem stored_of_assign (hi : InOrder s) {obj : ScopedArrayRW A} (h : s.object = some obj)
    {n : ℕ} {v : V} (hvm : obj.assign s.vm n v = some vm) : ∃ a p, obj.mJavaArray = some a ∧
      obj.mRawArray = .elements p ∧ ArrayVm.Stored s.vm vm a p n v := by
  obtain ⟨p, -, -, hp, -⟩ := ArrayVm.store_eq_some hvm
  obtain ⟨a, view, ha, hview⟩ := hi.handedOut obj h p hp
  rw [assign, hp] at hvm
  exact ⟨a, p, ha, hp, ArrayVm.stored_of_store hview hvm⟩

theorem InOrder.write (hi : InOrder s) {obj : ScopedArrayRW A} (h : s.object = some obj) {n : ℕ}
    {v : V} (hvm : obj.assign s.vm n v = some vm) :
    InOrder { s with vm := vm, written := noteWrite s.written obj.mJavaArray n v } := by
  obtain ⟨a, p, ha, hp, hstored⟩ := stored_of_assign hi h hvm
  have hledger : vm.ledger = s.vm.ledger := congrArg (List.filterMap _) hstored.calls
  refine ⟨⟨?_, ?_, ?_⟩, ?_, hi.noBuffer⟩
  · rw [hstored.calls]
    exact hi.orderly.proper
  · rw [hledger]
    exact hi.orderly.once
  · rw [hledger, hstored.next]
    exact hi.orderly.old
  · intro obj' h' q hq
    obtain rfl : obj = obj' := Option.some.inj (h.symm.trans h')
    cases hp.symm.trans hq
    obtain ⟨view, hview⟩ := hstored.handedOut
    exact ⟨a, view, ha, hview⟩

/-- The destructor gives back what is held. -/
theorem destructor_spec (hvm : vm.Orderly .copyBack) {obj : ScopedArrayRW A}
    (h : vm.HandedOut obj.mJavaArray obj.mRawArray) (hb : obj.mRawArray ≠ .buffer) :
    (obj.destructor vm).Orderly .copyBack ∧ (obj.destructor vm).ledger =
      vm.ledger ++ ((heldElements obj.mJavaArray obj.mRawArray).map .release).toList := by
  unfold destructor
  cases hr : obj.mRawArray with
  | null => simpa using hvm
  | buffer => exact absurd hr hb
  | elements p =>
      rw [hr] at h
      rw [if_pos (by simp)]
      exact ⟨hvm.release_held h rfl, ArrayVm.ledger_release_held h rfl .copyBack⟩

/-- Each action keeps what is held, gives it back or, when it is a `reset`, overwrites it. -/
theorem disciplined : Ledger.Disciplined (step (A := A) (V := V)) InOrder
    (fun s => s.vm.ledger) held FindsNone := by
  intro s a s' hi hst
  cases step_cases hst with
  | constructEmpty h =>
      refine ⟨⟨hi.orderly, ?_, ?_⟩, .inl ⟨trivial, ?_⟩⟩
      · rintro _ ⟨⟩
        exact s.vm.handedOut_null _
      · rintro _ ⟨⟩ hr
        cases hr
      · rw [held_dead h]
        exact .kept none
  | constructNull h =>
      refine ⟨⟨hi.orderly.call .throwNullPointerException, ?_, ?_⟩, .inl ⟨trivial, ?_⟩⟩
      · rintro _ ⟨⟩
        exact ArrayVm.handedOut_null _ _
      · rintro _ ⟨⟩ hr
        cases hr
      · rw [held_dead h]
        show Ledger.Handled _ _ (s.vm.call .throwNullPointerException).ledger _
        rw [s.vm.ledger_call]
        exact .kept none
  | construct h javaArray answer =>
      refine ⟨hi.getArrayElements javaArray answer, .inr ⟨?_, getArrayElements_reopened _ _⟩⟩
      exact iff_of_true trivial (held_dead h)
  | @reset obj h javaArray answer =>
      refine ⟨hi.getArrayElements javaArray answer, .inr ⟨?_, getArrayElements_reopened _ _⟩⟩
      rw [held_live h, (hi.handedOut obj h).heldElements_eq_none_iff]
      constructor
      · exact fun hf => hf obj h
      · intro hp obj' h'
        obtain rfl : obj = obj' := Option.some.inj (h.symm.trans h')
        exact hp
  | read n => exact ⟨hi, .inl ⟨trivial, .kept _⟩⟩
  | @write obj h vm n v hvm =>
      refine ⟨hi.write h hvm, .inl ⟨trivial, ?_⟩⟩
      obtain ⟨a, p, -, -, hstored⟩ := stored_of_assign hi h hvm
      have hledger : vm.ledger = s.vm.ledger := congrArg (List.filterMap _) hstored.calls
      show Ledger.Handled _ _ vm.ledger _
      rw [hledger]
      exact .kept _
  | @destroy obj h =>
      obtain ⟨hvm, hl⟩ := destructor_spec hi.orderly (hi.handedOut obj h) (hi.noBuffer obj h)
      refine ⟨⟨hvm, ?_, ?_⟩, .inl ⟨trivial, ?_⟩⟩
      · rintro _ ⟨⟩
      · rintro _ ⟨⟩
      · show Ledger.Handled _ _ (obj.destructor s.vm).ledger none
        rw [hl, held_live h]
        exact .released _

end pointers

/-! ### The contents of the arrays -/

/-- What an array would contain if the elements `o` were given back. -/
def writtenBack (vm : ArrayVm A V) (o : Option (A × ℕ)) (a : A) : List V :=
  match o with
  | none => vm.contents a
  | some (b, p) => if a = b then vm.shown b p else vm.contents a

/-- What was written to an array is in the array or, as long as the object has a copy of it, in the
copy. -/
def Synced (s : State A V) : Prop := ∀ a, s.written a = writtenBack s.vm (held s) a

section contents
variable {s s' : State A V}

theorem Synced.getArrayElements (hs : Synced s) (hnone : held s = none) (javaArray : A)
    (answer : Option Bool) :
    Synced { s with
      vm := (s.vm.getArrayElements javaArray answer).2
      object := some ⟨some javaArray, (s.vm.getArrayElements javaArray answer).1⟩ } := by
  intro a
  have ha : s.written a = s.vm.contents a := by
    have := hs a
    rwa [hnone] at this
  show s.written a = _
  rw [ha]
  cases answer with
  | none => rfl
  | some isCopy =>
      show s.vm.contents a = if a = javaArray then
        (s.vm.getArrayElements javaArray (some isCopy)).2.shown javaArray s.vm.next
          else s.vm.contents a
      by_cases h : a = javaArray
      · rw [if_pos h, ArrayVm.shown_getArrayElements, h]
      · rw [if_neg h]

theorem Synced.write (hi : InOrder s) (hs : Synced s) {obj : ScopedArrayRW A}
    (h : s.object = some obj) {vm : ArrayVm A V} {n : ℕ} {v : V}
    (hvm : obj.assign s.vm n v = some vm) :
    Synced { s with vm := vm, written := noteWrite s.written obj.mJavaArray n v } := by
  obtain ⟨b, p, hb, hp, hstored⟩ := stored_of_assign hi h hvm
  have hheld : held s = some (b, p) := by rw [held_live h, hb, hp]; rfl
  intro a
  have ha : s.written a = if a = b then s.vm.shown b p else s.vm.contents a := by
    have := hs a
    rwa [hheld] at this
  show noteWrite s.written obj.mJavaArray n v a = writtenBack vm (held s) a
  rw [hheld, hb]
  show Function.update s.written b ((s.written b).set n v) a =
    if a = b then vm.shown b p else vm.contents a
  by_cases hab : a = b
  · subst hab
    rw [if_pos rfl] at ha
    rw [Function.update_self, if_pos rfl, hstored.shown, ha]
  · rw [if_neg hab] at ha
    rw [Function.update_of_ne hab, if_neg hab, hstored.others a hab, ha]

theorem Synced.destroy (hi : InOrder s) (hs : Synced s) {obj : ScopedArrayRW A}
    (h : s.object = some obj) :
    Synced { s with vm := obj.destructor s.vm, object := none } := by
  intro a
  have ha := hs a
  rw [held_live h] at ha
  show s.written a = (obj.destructor s.vm).contents a
  unfold destructor
  cases hr : obj.mRawArray with
  | null =>
      rw [hr, heldElements_null] at ha
      exact ha
  | buffer => exact absurd hr (hi.noBuffer obj h)
  | elements p =>
      obtain ⟨b, _, hb, -⟩ := hi.handedOut obj h p hr
      rw [hr, hb] at ha
      rw [if_pos (by simp), hb]
      show _ = Function.update s.vm.contents b (s.vm.shown b p) a
      rw [Function.update_apply]
      exact ha

/-- An action that loses no elements keeps the arrays in step with what was written. -/
theorem synced_step (hi : InOrder s) (hs : Synced s) {a : Action A V} (hf : FindsNone s a)
    (hst : step s a = some s') : Synced s' := by
  cases step_cases hst with
  | constructEmpty h =>
      intro a
      have := hs a
      rwa [held_dead h] at this
  | constructNull h =>
      intro a
      have := hs a
      rwa [held_dead h] at this
  | construct h javaArray answer => exact hs.getArrayElements (held_dead h) javaArray answer
  | @reset obj h javaArray answer =>
      refine hs.getArrayElements ?_ javaArray answer
      rw [held_live h, (hi.handedOut obj h).heldElements_eq_none_iff]
      exact hf obj h
  | read n => exact hs
  | write h hvm => exact hs.write hi h hvm
  | destroy h => exact hs.destroy hi h

theorem tracked_initial (contents : A → List V) :
    Ledger.Tracked InOrder (fun s : State A V => s.vm.ledger) held (initial contents) := by
  refine ⟨⟨ArrayVm.orderly_initial contents .copyBack, ?_, ?_⟩, Ledger.safe_nil,
    Ledger.owns_nil.covers⟩
  · rintro _ ⟨⟩
  · rintro _ ⟨⟩

/-- **Every pointer is released exactly once, with its array, and every array has what was written to
it, if and only if no `reset` found elements in the object.**  The run ends with the destructor. -/
theorem released_iff (contents : A → List V) (as : List (Action A V)) (s : State A V)
    (hr : run step (initial contents) as = some s) (hend : s.object = none) :
    (ReleasedOnce .copyBack s.vm.calls ∧ ∀ a, s.vm.contents a = s.written a) ↔
      EveryStep step FindsNone (initial contents) as := by
  have hi := tracked_initial contents
  have hbal := disciplined.balanced_iff hi Ledger.owns_nil hr (held_dead hend)
  rw [(disciplined.tracked hi hr).1.orderly.releasedOnce_iff, hbal]
  refine and_iff_left_of_imp fun hsteps a => ?_
  have hsync : EveryState step (fun s => InOrder s ∧ Synced s) (initial contents) as :=
    hsteps.everyState (fun s a s' hs hf hst => ⟨(disciplined s a s' hs.1 hst).1,
      synced_step hs.1 hs.2 hf hst⟩) ⟨hi.1, fun _ => rfl⟩
  have := (hsync.last hr).2 a
  rw [held_dead hend] at this
  exact this.symm

end contents

end ScopedArrayRW

/-! ### Both wrappers -/

section wrappers
open Transition

/-- **The wrappers release what they acquire if and only if no `reset` finds elements from the VM
in the object**: each pointer exactly once, with its array, and nothing else; and the read-write
wrapper leaves in every array what was written to it. -/
theorem scopedArrays_release_iff {A V : Type} [DecidableEq A] (contents : A → List V) :
    (∀ as s, run ScopedArrayRO.step (ScopedArrayRO.initial contents) as = some s →
        s.object = none →
        (ReleasedOnce .abort s.vm.calls ↔
          EveryStep ScopedArrayRO.step ScopedArrayRO.FindsNone (ScopedArrayRO.initial contents)
            as)) ∧
      ∀ as s, run ScopedArrayRW.step (ScopedArrayRW.initial contents) as = some s →
        s.object = none →
        (ReleasedOnce .copyBack s.vm.calls ∧ (∀ a, s.vm.contents a = s.written a) ↔
          EveryStep ScopedArrayRW.step ScopedArrayRW.FindsNone (ScopedArrayRW.initial contents)
            as) :=
  ⟨ScopedArrayRO.released_iff contents, ScopedArrayRW.released_iff contents⟩

/-- What is written before the `reset` is lost with the elements. -/
theorem scopedArrays_reset_loses :
    (∃ s, run ScopedArrayRW.step (ScopedArrayRW.initial fun _ : Unit => [1, 2])
        [.construct (some ()) (some true), .write 0 5, .reset () (some true), .destroy] = some s ∧
      s.object = none ∧ s.vm.contents () = [1, 2] ∧ s.written () = [5, 2] ∧
      s.vm.calls = [.getArrayElements () (some 0), .getArrayElements () (some 1),
        .releaseArrayElements (some ()) (.elements 1) .copyBack] ∧
      ¬ ReleasedOnce .copyBack s.vm.calls) ∧
    ∃ s, run ScopedArrayRO.step (ScopedArrayRO.initial fun _ : Unit => List.replicate 1025 7)
        [.construct (some ()) (some true), .reset () (some true), .destroy] = some s ∧
      s.object = none ∧ ¬ ReleasedOnce .abort s.vm.calls := by
  constructor
  · refine ⟨_, rfl, rfl, rfl, rfl, rfl, fun h => ?_⟩
    exact absurd (h.1 () 0 (by decide)) (by decide)
  · exact ScopedArrayRO.not_releasedOnce_of_reset (by rw [List.length_replicate]; decide) true
      (some true)

/-- A short array and then another one go through the buffer; the read-write wrapper is given one
array and writes to it. -/
theorem scopedArrays_release_once :
    (∃ s, run ScopedArrayRO.step (ScopedArrayRO.initial fun _ : Unit => [1, 2])
        [.construct (some ()) (some true), .read 1, .reset () (some true), .destroy] = some s ∧
      ReleasedOnce .abort s.vm.calls) ∧
    ∃ s, run ScopedArrayRW.step (ScopedArrayRW.initial fun _ : Unit => [1, 2])
        [.construct (some ()) (some true), .write 0 5, .destroy] = some s ∧
      s.vm.contents () = [5, 2] ∧ ReleasedOnce .copyBack s.vm.calls := by
  have hiff := scopedArrays_release_iff fun _ : Unit => [1, 2]
  constructor
  · refine ⟨_, rfl, (hiff.1 [.construct (some ()) (some true), .read 1, .reset () (some true),
      .destroy] _ rfl rfl).mpr ?_⟩
    rintro s₁ ⟨⟩
    refine ⟨trivial, ?_⟩
    rintro s₂ ⟨⟩
    refine ⟨trivial, ?_⟩
    rintro s₃ ⟨⟩
    refine ⟨?_, ?_⟩
    · rintro obj ⟨⟩ p hp
      cases hp
    · rintro s₄ ⟨⟩
      exact ⟨trivial, trivial⟩
  · refine ⟨_, rfl, rfl, ((hiff.2 [.construct (some ()) (some true), .write 0 5, .destroy] _ rfl
      rfl).mpr ?_).1⟩
    rintro s₁ ⟨⟩
    refine ⟨trivial, ?_⟩
    rintro s₂ ⟨⟩
    refine ⟨trivial, ?_⟩
    rintro s₃ ⟨⟩
    exact ⟨trivial, trivial⟩

end wrappers
end NativeHelper
