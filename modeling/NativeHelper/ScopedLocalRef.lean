import NativeHelper.Ledger
import NativeHelper.Objects
import NativeHelper.Transition

/-! # Programs over scoped local references

`ScopedLocalRef` keeps an env and a local reference; moving from an object takes the reference out
of it, and the destructor deletes what is left.  A program works on any number of objects, which
are named by their addresses, since a move assignment may have one object on both sides.

A reference is a handle of one env, and on two envs there may be equal ones.  No two live objects
have one reference, and what is outstanding is what they have (`Owned`).  The methods keep it that
way one after the other, but for a move between objects that have equal references of two envs: then
`reset` takes the two for one, and the one that was there is lost.  Each reference is accounted for
at any time if and only if there is no such move (`scopedLocalRef_linear_iff`). -/

namespace NativeHelper

/-- An object: the env and the reference (`none` is `nullptr`). -/
structure ScopedLocalRef (E R : Type) where
  mEnv : E
  mLocalRef : Option R
deriving DecidableEq, Repr

namespace ScopedLocalRef

open Transition Objects

variable {O E R : Type}

/-- What happens to a reference: the program hands it to an object, gets it back from `release`,
or the object deletes it. -/
inductive RefEvent (E R : Type) where
  | handedIn (env : E) (ref : R)
  | released (env : E) (ref : R)
  | deleteLocalRef (env : E) (ref : R)
deriving DecidableEq, Repr

/-- The live objects and what has happened to their references. -/
abbrev State (O E R : Type) := Store O (ScopedLocalRef E R) (RefEvent E R)

/-! ### The methods -/

section methods
variable [DecidableEq O]

/-- `ScopedLocalRef(env, localRef)`; without a reference also `ScopedLocalRef(env)`. -/
def construct (this : O) (env : E) (localRef : Option R) (s : State O E R) : State O E R :=
  s.set this (some ⟨env, localRef⟩)

/-- `release`: the reference, which the object gives up. -/
def release (this : O) (s : State O E R) : Option (Option R × State O E R) := do
  let obj ← s.object this
  let localRef := obj.mLocalRef
  some (localRef, s.set this (some { obj with mLocalRef := none }))

/-- `ScopedLocalRef(ScopedLocalRef&& rhs)`: `mEnv(rhs.mEnv), mLocalRef(rhs.release())`. -/
def moveConstruct (this rhs : O) (s : State O E R) : Option (State O E R) := do
  let obj ← s.object rhs
  let (localRef, s) ← release rhs s
  some (s.set this (some ⟨obj.mEnv, localRef⟩))

variable [DecidableEq R]

/-- `reset`. -/
def reset (this : O) (ptr : Option R) (s : State O E R) : Option (State O E R) := do
  let obj ← s.object this
  if ptr ≠ obj.mLocalRef then
    let s := s.record (obj.mLocalRef.map (.deleteLocalRef obj.mEnv))
    some (s.set this (some { obj with mLocalRef := ptr }))
  else
    some s

/-- `operator=(ScopedLocalRef&& rhs)`: `reset(rhs.release()); mEnv = rhs.mEnv`, where `rhs` may be
the object itself. -/
def moveAssign (this rhs : O) (s : State O E R) : Option (State O E R) := do
  let (localRef, s) ← release rhs s
  let s ← reset this localRef s
  let source ← s.object rhs
  let obj ← s.object this
  some (s.set this (some { obj with mEnv := source.mEnv }))

/-- The destructor. -/
def destroy (this : O) (s : State O E R) : Option (State O E R) := do
  let s ← reset this none s
  some (s.set this none)

/-! ### Programs -/

/-- What a program does with its objects. -/
inductive Action (O E R : Type) where
  | construct (this : O) (env : E) (localRef : Option R)
  | moveConstruct (this rhs : O)
  | moveAssign (this rhs : O)
  | reset (this : O) (ptr : Option R)
  | release (this : O)
  | destroy (this : O)
deriving DecidableEq, Repr

/-- One action; only a dead object is constructed and only a live one is used.  A reference that
`reset` finds in its object already is not handed in again. -/
def step (s : State O E R) : Action O E R → Option (State O E R)
  | .construct this env localRef =>
      if (s.object this).isNone then
        some (construct this env localRef (s.record (localRef.map (.handedIn env))))
      else none
  | .moveConstruct this rhs =>
      if (s.object this).isNone then moveConstruct this rhs s else none
  | .moveAssign this rhs => moveAssign this rhs s
  | .reset this ptr => do
      let obj ← s.object this
      if ptr = obj.mLocalRef then reset this ptr s
      else reset this ptr (s.record (ptr.map (.handedIn obj.mEnv)))
  | .release this => do
      let obj ← s.object this
      let (localRef, s) ← release this s
      some (s.record (localRef.map (.released obj.mEnv)))
  | .destroy this => destroy this s

end methods

/-- The object at `o` is live and has the reference. -/
def Has (s : State O E R) (o : O) (env : E) (ref : R) : Prop := s.object o = some ⟨env, some ref⟩

/-- A reference handed to `this` is held by no other object: it is fresh, or the one that `this`
holds.  It is a reference of the env that it is handed in with, or of the env of `this`. -/
def Fresh (s : State O E R) : Action O E R → Prop
  | .construct this env ptr => ∀ r, ptr = some r → ∀ o, Has s o env r → o = this
  | .reset this ptr => ∀ obj r, s.object this = some obj → ptr = some r →
      ∀ o, Has s o obj.mEnv r → o = this
  | .moveConstruct _ _ | .moveAssign _ _ | .release _ | .destroy _ => True

/-- No object is moved into one that has an equal reference of another env. -/
def Apart (s : State O E R) : Action O E R → Prop
  | .moveAssign this rhs => ∀ obj source r, s.object this = some obj →
      s.object rhs = some source → obj.mLocalRef = some r → source.mLocalRef = some r →
        obj.mEnv = source.mEnv
  | .construct _ _ _ | .moveConstruct _ _ | .reset _ _ | .release _ | .destroy _ => True

/-! ### What the methods do -/

section methods
variable [DecidableEq O] {s : State O E R} {this rhs : O} {obj source : ScopedLocalRef E R}

theorem release_eq (hobj : s.object this = some obj) :
    release this s = some (obj.mLocalRef, s.set this (some ⟨obj.mEnv, none⟩)) := by
  unfold release
  rw [hobj]
  rfl

theorem moveConstruct_eq (hobj : s.object rhs = some obj) :
    moveConstruct this rhs s =
      some ((s.set rhs (some ⟨obj.mEnv, none⟩)).set this (some obj)) := by
  unfold moveConstruct
  rw [release_eq hobj, hobj]
  rfl

variable [DecidableEq R]

theorem reset_eq (hobj : s.object this = some obj) (ptr : Option R) :
    reset this ptr s = some (if ptr = obj.mLocalRef then s else
      (s.record (obj.mLocalRef.map (.deleteLocalRef obj.mEnv))).set this
        (some ⟨obj.mEnv, ptr⟩)) := by
  unfold reset
  rw [hobj]
  by_cases h : ptr = obj.mLocalRef <;> simp [h]

theorem destroy_eq (hobj : s.object this = some obj) :
    destroy this s =
      some ((s.record (obj.mLocalRef.map (.deleteLocalRef obj.mEnv))).set this none) := by
  unfold destroy
  rw [reset_eq hobj]
  by_cases h : none = obj.mLocalRef
  · simp [← h]
  · simp [h]

theorem moveAssign_eq (hsource : s.object rhs = some source) :
    moveAssign this rhs s =
      (reset this source.mLocalRef (s.set rhs (some ⟨source.mEnv, none⟩))).bind fun s =>
        (s.object rhs).bind fun source => (s.object this).bind fun obj =>
          some (s.set this (some { obj with mEnv := source.mEnv })) := by
  unfold moveAssign
  rw [release_eq hsource]
  rfl

/-- Moving an object into itself changes nothing: the reference it gives up comes back with the
`reset`. -/
theorem moveAssign_self (hobj : s.object this = some obj) : moveAssign this this s = some s := by
  rw [moveAssign_eq hobj, reset_eq (Store.object_set_self s this _), Option.bind_some]
  by_cases h : obj.mLocalRef = none
  · have hs : s.set this (some ⟨obj.mEnv, none⟩) = s := by
      rw [← h]
      exact Store.set_self hobj
    rw [if_pos h, hs, hobj]
    exact congrArg some (Store.set_self hobj)
  · rw [if_neg h, Option.map_none, Store.record_none, Store.set_set, Store.object_set_self]
    show some ((s.set this (some obj)).set this (some obj)) = some s
    rw [Store.set_set, Store.set_self hobj]

/-- Moving from an object with an equal reference deletes nothing. -/
theorem moveAssign_equal (hne : this ≠ rhs) (hobj : s.object this = some obj)
    (hsource : s.object rhs = some source) (heq : source.mLocalRef = obj.mLocalRef) :
    moveAssign this rhs s =
      some ((s.set rhs (some ⟨source.mEnv, none⟩)).set this (some source)) := by
  have hget : (s.set rhs (some ⟨source.mEnv, none⟩)).object this = some obj := by
    rw [Store.object_set_ne s _ hne, hobj]
  rw [moveAssign_eq hsource, reset_eq hget, Option.bind_some, if_pos heq, Store.object_set_self,
    Option.bind_some, hget, Option.bind_some, ← heq]

/-- Moving from another object deletes what was held, unless the two hold equal references. -/
theorem moveAssign_ne (hne : this ≠ rhs) (hobj : s.object this = some obj)
    (hsource : s.object rhs = some source)
    (hdiff : source.mLocalRef = obj.mLocalRef → obj.mLocalRef = none) :
    moveAssign this rhs s =
      some (((s.record (obj.mLocalRef.map (.deleteLocalRef obj.mEnv))).set rhs
        (some ⟨source.mEnv, none⟩)).set this (some source)) := by
  by_cases h : source.mLocalRef = obj.mLocalRef
  · rw [moveAssign_equal hne hobj hsource h, hdiff h, Option.map_none, Store.record_none]
  · have hget : (s.set rhs (some ⟨source.mEnv, none⟩)).object this = some obj := by
      rw [Store.object_set_ne s _ hne, hobj]
    rw [moveAssign_eq hsource, reset_eq hget, Option.bind_some, if_neg h,
      Store.object_set_ne _ _ hne.symm, Store.record_set, Store.object_set_self,
      Option.bind_some, Store.object_set_self, Option.bind_some, Store.set_set]

end methods

/-! ### The references as handles -/

/-- What an event is to the ledger of references. -/
def RefEvent.entry : RefEvent E R → Ledger.Entry (E × R)
  | .handedIn env ref => .acquire (env, ref)
  | .released env ref => .release (env, ref)
  | .deleteLocalRef env ref => .release (env, ref)

def ledger (trace : List (RefEvent E R)) : List (Ledger.Entry (E × R)) :=
  trace.map RefEvent.entry

/-- The reference an object holds, with its env. -/
def ownRef (obj : ScopedLocalRef E R) : Option (E × R) := obj.mLocalRef.map (Prod.mk obj.mEnv)

theorem held_eq_some_iff {s : State O E R} {o : O} {env : E} {ref : R} :
    s.held ownRef o = some (env, ref) ↔ Has s o env ref := by
  rw [Store.held_eq_some_iff]
  constructor
  · rintro ⟨⟨e, r⟩, hobj, hown⟩
    obtain ⟨r', rfl, hr⟩ := Option.map_eq_some_iff.mp hown
    cases hr
    exact hobj
  · intro h
    exact ⟨⟨env, some ref⟩, h, rfl⟩

theorem ledger_record {s : State O E R} {event : R → RefEvent E R} {env : E}
    (entry : E × R → Ledger.Entry (E × R)) (h : ∀ r, (event r).entry = entry (env, r))
    (ref : Option R) : ledger (s.record (ref.map event)).trace =
      ledger s.trace ++ ((ref.map (Prod.mk env)).map entry).toList := by
  unfold ledger Store.record
  rw [List.map_append]
  cases ref with
  | none => rfl
  | some r =>
      rw [Option.map_some, Option.toList_some, List.map_singleton, h]
      rfl

section counts
variable [DecidableEq E] [DecidableEq R]

theorem acquired_ledger (trace : List (RefEvent E R)) (env : E) (ref : R) :
    Ledger.acquired (ledger trace) (env, ref) = trace.count (.handedIn env ref) := by
  unfold Ledger.acquired ledger
  induction trace with
  | nil => rfl
  | cons e trace ih => cases e <;> simp [RefEvent.entry, List.count_cons, ih]

theorem released_ledger (trace : List (RefEvent E R)) (env : E) (ref : R) :
    Ledger.released (ledger trace) (env, ref) =
      trace.count (.released env ref) + trace.count (.deleteLocalRef env ref) := by
  unfold Ledger.released ledger
  induction trace with
  | nil => rfl
  | cons e trace ih =>
      cases e <;> simp [RefEvent.entry, List.count_cons, ih] <;> omega

end counts

/-! ### One action -/

section actions
variable [DecidableEq E] [DecidableEq R]

/-- The live objects own the references between them; no two hold the same one. -/
def Owned (s : State O E R) : Prop := Ledger.OwnedBy id (ledger s.trace) (s.held ownRef)

variable {s s' : State O E R} {this rhs : O} {obj source : ScopedLocalRef E R}

/-- Before anything was handed in, nothing is owned. -/
theorem owned_empty : Owned (Store.empty : State O E R) := Ledger.ownedBy_nil

theorem Owned.eq_of_has (h : Owned s) {o o' : O} {env : E} {r : R} (ho : Has s o env r)
    (ho' : Has s o' env r) : o = o' :=
  h.sole o o' _ _ (held_eq_some_iff.mpr ho) (held_eq_some_iff.mpr ho') rfl

/-- Two objects do not hold one reference, so the short-cut of `reset` is taken on a move between
them only if there is nothing to move, or they hold equal references of two envs. -/
theorem Owned.eq_none_of_eq (h : Owned s) (hne : this ≠ rhs) (hobj : s.object this = some obj)
    (hsource : s.object rhs = some source) (hapart : Apart s (.moveAssign this rhs))
    (heq : source.mLocalRef = obj.mLocalRef) : obj.mLocalRef = none := by
  cases hr : obj.mLocalRef with
  | none => rfl
  | some r =>
      have hr' : source.mLocalRef = some r := heq.trans hr
      have henv := hapart obj source r hobj hsource hr hr'
      obtain ⟨env, ref⟩ := obj
      obtain ⟨env', ref'⟩ := source
      obtain rfl : ref = some r := hr
      obtain rfl : ref' = some r := hr'
      obtain rfl : env = env' := henv
      exact absurd (h.eq_of_has hobj hsource) hne

variable [DecidableEq O]

/-- An object gives up its reference, to the caller or to `DeleteLocalRef`. -/
theorem Owned.give (h : Owned s) (hobj : s.object this = some obj) (event : R → RefEvent E R)
    (hevent : ∀ r, (event r).entry = .release (obj.mEnv, r)) :
    Ledger.OwnedBy id (ledger (s.record (obj.mLocalRef.map event)).trace)
      (Function.update (s.held ownRef) this none) := by
  have hown : s.held ownRef this = obj.mLocalRef.map (Prod.mk obj.mEnv) := Store.held_eq hobj
  rw [ledger_record .release hevent, ← hown]
  exact Ledger.OwnedBy.clear h this

theorem Owned.clear (h : Owned s) (hobj : s.object this = some obj) (event : R → RefEvent E R)
    (hevent : ∀ r, (event r).entry = .release (obj.mEnv, r))
    {obj' : Option (ScopedLocalRef E R)} (hobj' : obj'.bind ownRef = none) :
    Owned ((s.record (obj.mLocalRef.map event)).set this obj') := by
  unfold Owned
  rw [Store.held_set, hobj']
  exact h.give hobj event hevent

/-- An object without a reference is handed one that nobody holds. -/
theorem Owned.put (h : Owned s) (hnone : s.held ownRef this = none) (env : E) {ptr : Option R}
    (hfresh : ∀ r, ptr = some r → ∀ o, Has s o env r → o = this) :
    Owned ((s.record (ptr.map (.handedIn env))).set this (some ⟨env, ptr⟩)) := by
  unfold Owned
  rw [Store.held_set]
  show Ledger.OwnedBy id (ledger (s.record (ptr.map (.handedIn env))).trace) _
  rw [ledger_record .acquire fun _ => rfl]
  refine Ledger.OwnedBy.put h hnone fun g hg o x hx hk => ?_
  obtain ⟨r, hr, rfl⟩ := Option.map_eq_some_iff.mp hg
  obtain rfl : x = (env, r) := hk
  have ho := hfresh r hr o (held_eq_some_iff.mp hx)
  rw [ho, hnone] at hx
  cases hx

theorem Owned.moveConstruct (h : Owned s) (hdead : s.object this = none)
    (hst : moveConstruct this rhs s = some s') : Owned s' := by
  cases hobj : s.object rhs with
  | none =>
      unfold ScopedLocalRef.moveConstruct at hst
      rw [hobj] at hst
      cases hst
  | some obj =>
      have hne : this ≠ rhs := by
        rintro rfl
        rw [hdead] at hobj
        cases hobj
      rw [moveConstruct_eq hobj, Option.some.injEq] at hst
      subst hst
      have hmove := Ledger.OwnedBy.move h (Store.held_eq_none hdead) hne
      rw [Store.held_eq hobj] at hmove
      unfold Owned
      rw [Store.held_set, Store.held_set]
      exact hmove

theorem Owned.moveAssign (h : Owned s) (hapart : Apart s (.moveAssign this rhs))
    (hst : moveAssign this rhs s = some s') : Owned s' := by
  cases hsource : s.object rhs with
  | none =>
      unfold ScopedLocalRef.moveAssign release at hst
      rw [hsource] at hst
      cases hst
  | some source =>
      by_cases hne : this = rhs
      · subst hne
        rw [moveAssign_self hsource, Option.some.injEq] at hst
        exact hst ▸ h
      cases hobj : s.object this with
      | none =>
          rw [moveAssign_eq hsource, reset, Store.object_set_ne _ _ hne, hobj] at hst
          cases hst
      | some obj =>
          rw [moveAssign_ne hne hobj hsource (h.eq_none_of_eq hne hobj hsource hapart),
            Option.some.injEq] at hst
          subst hst
          -- the object deletes what it held, then the reference moves
          have hgive := h.give hobj (.deleteLocalRef obj.mEnv) fun _ => rfl
          have hmove := hgive.move (Function.update_self this none (s.held ownRef)) hne
          rw [Function.update_of_ne (Ne.symm hne), Function.update_comm hne,
            Function.update_idem, Store.held_eq hsource] at hmove
          unfold Owned
          rw [Store.held_set, Store.held_set]
          exact hmove

/-- A move between equal references of two envs loses the one that was there. -/
theorem Owned.not_of_clash (h : Owned s) (hclash : ¬ Apart s (.moveAssign this rhs))
    (hst : ScopedLocalRef.moveAssign this rhs s = some s') : ¬ Owned s' := by
  unfold Apart at hclash
  push Not at hclash
  obtain ⟨obj, source, r, hobj, hsource, hr, hr', henv⟩ := hclash
  have hne : this ≠ rhs := by
    rintro rfl
    exact henv (congrArg _ (Option.some.inj (hobj.symm.trans hsource)))
  rw [moveAssign_equal hne hobj hsource (hr'.trans hr.symm), Option.some.injEq] at hst
  subst hst
  have hthis : s.held ownRef this = some (obj.mEnv, r) := by
    rw [Store.held_eq hobj, ownRef, hr, Option.map_some]
  intro h'
  have hout := h.outstanding this _ hthis
  have hin : Ledger.acquired (ledger s.trace) (obj.mEnv, r) =
      Ledger.released (ledger s.trace) (obj.mEnv, r) := by
    refine h'.settled (obj.mEnv, r) fun o ho => ?_
    rw [Store.held_set, Store.held_set] at ho
    by_cases e : o = this
    · rw [e, Function.update_self] at ho
      obtain ⟨r', _, hr'⟩ := Option.map_eq_some_iff.mp ho
      exact henv (Prod.mk.inj hr').1.symm
    · rw [Function.update_of_ne e] at ho
      by_cases e' : o = rhs
      · rw [e', Function.update_self] at ho
        cases ho
      · rw [Function.update_of_ne e'] at ho
        exact e (h.sole o this _ _ ho hthis rfl)
  omega

theorem Owned.reset (h : Owned s) {ptr : Option R} (hfresh : Fresh s (.reset this ptr))
    (hobj : s.object this = some obj) (hptr : ptr ≠ obj.mLocalRef)
    (hst : reset this ptr (s.record (ptr.map (.handedIn obj.mEnv))) = some s') : Owned s' := by
  have hrec : (s.record (ptr.map (.handedIn obj.mEnv))).object this = some obj := hobj
  rw [reset_eq hrec, if_neg hptr, Option.some.injEq] at hst
  subst hst
  -- the counts are those of a program that clears the object before it hands in the reference
  have hclear : Owned ((s.record (obj.mLocalRef.map (.deleteLocalRef obj.mEnv))).set this
      (some ⟨obj.mEnv, none⟩)) := h.clear hobj (.deleteLocalRef obj.mEnv) (fun _ => rfl) rfl
  have hput := hclear.put (Store.held_eq (Store.object_set_self _ this _)) obj.mEnv
    fun r hr o ho => by
      by_contra hne
      rw [Has, Store.object_set_ne _ _ hne] at ho
      exact hne (hfresh obj r hobj hr o ho)
  unfold Owned at hput ⊢
  rw [Store.record_set, Store.set_set, Store.held_set] at hput
  rw [Store.held_set]
  exact Ledger.OwnedBy.perm hput ((s.record_comm _ _).map _)

/-- **What the objects own is kept by every action**, but for a move between equal references. -/
theorem Owned.step (h : Owned s) {a : Action O E R} (hfresh : Fresh s a) (hapart : Apart s a)
    (hst : step s a = some s') : Owned s' := by
  cases a with
  | construct this env localRef =>
      rw [ScopedLocalRef.step] at hst
      by_cases hdead : s.object this = none
      · rw [hdead, Option.isNone_none, if_pos rfl, Option.some.injEq] at hst
        subst hst
        exact h.put (Store.held_eq_none hdead) env hfresh
      · rw [if_neg (by rwa [Option.isNone_iff_eq_none])] at hst
        cases hst
  | moveConstruct this rhs =>
      rw [ScopedLocalRef.step] at hst
      by_cases hdead : s.object this = none
      · rw [hdead, Option.isNone_none, if_pos rfl] at hst
        exact h.moveConstruct hdead hst
      · rw [if_neg (by rwa [Option.isNone_iff_eq_none])] at hst
        cases hst
  | moveAssign this rhs => exact h.moveAssign hapart hst
  | reset this ptr =>
      rw [ScopedLocalRef.step] at hst
      obtain ⟨obj, hobj, hst⟩ := Option.bind_eq_some_iff.mp hst
      by_cases hptr : ptr = obj.mLocalRef
      · rw [if_pos hptr, reset_eq hobj, if_pos hptr, Option.some.injEq] at hst
        exact hst ▸ h
      · rw [if_neg hptr] at hst
        exact h.reset hfresh hobj hptr hst
  | release this =>
      rw [ScopedLocalRef.step] at hst
      obtain ⟨obj, hobj, hst⟩ := Option.bind_eq_some_iff.mp hst
      rw [release_eq hobj] at hst
      cases hst
      exact h.clear hobj (.released obj.mEnv) (fun _ => rfl) rfl
  | destroy this =>
      rw [ScopedLocalRef.step] at hst
      cases hobj : s.object this with
      | none =>
          rw [destroy, ScopedLocalRef.reset, hobj] at hst
          cases hst
      | some obj =>
          rw [destroy_eq hobj, Option.some.injEq] at hst
          subst hst
          exact h.clear hobj (.deleteLocalRef obj.mEnv) (fun _ => rfl) rfl

theorem owned_step_iff (h : Owned s) {a : Action O E R} (hfresh : Fresh s a)
    (hst : ScopedLocalRef.step s a = some s') : Owned s' ↔ Apart s a := by
  refine ⟨fun h' => ?_, fun hapart => h.step hfresh hapart hst⟩
  cases a with
  | moveAssign this rhs =>
      by_contra hclash
      exact h.not_of_clash hclash hst h'
  | construct this env ptr => trivial
  | moveConstruct this rhs => trivial
  | reset this ptr => trivial
  | release this => trivial
  | destroy this => trivial

end actions

/-! ### Whole programs -/

section programs
variable [DecidableEq E] [DecidableEq R]

/-- How often a reference was handed in on `env`. -/
def handedIn (s : State O E R) (env : E) (ref : R) : ℕ := s.trace.count (.handedIn env ref)

/-- How often it was released to the caller by an object with that env. -/
def released (s : State O E R) (env : E) (ref : R) : ℕ := s.trace.count (.released env ref)

/-- How often it was passed to `DeleteLocalRef` on that env. -/
def deleted (s : State O E R) (env : E) (ref : R) : ℕ := s.trace.count (.deleteLocalRef env ref)

/-- A reference is where its history says: each time it was handed in, but for the last one if an
object has it, it was released or deleted since, once and on the env it came with; and no two
objects have it. -/
def Accounted (s : State O E R) (env : E) (ref : R) : Prop :=
  ((∃! o, Has s o env ref) ∧ handedIn s env ref = released s env ref + deleted s env ref + 1) ∨
    ((∀ o, ¬ Has s o env ref) ∧ handedIn s env ref = released s env ref + deleted s env ref)

theorem Owned.accounted {s : State O E R} (h : Owned s) (env : E) (ref : R) :
    Accounted s env ref := by
  unfold Accounted handedIn released deleted
  rw [← acquired_ledger, ← released_ledger]
  by_cases ho : ∃ o, Has s o env ref
  · obtain ⟨o, ho⟩ := ho
    refine .inl ⟨⟨o, ho, fun o' ho' => ?_⟩, h.outstanding o _ (held_eq_some_iff.mpr ho)⟩
    exact h.eq_of_has ho' ho
  · have hno : ∀ o, ¬ Has s o env ref := not_exists.mp ho
    exact .inr ⟨hno, h.settled _ fun o ho' => hno o (held_eq_some_iff.mp ho')⟩

theorem owned_iff {s : State O E R} : Owned s ↔ ∀ env ref, Accounted s env ref := by
  refine ⟨fun h => h.accounted, fun h => ?_⟩
  constructor
  · rintro o o' ⟨env, ref⟩ ⟨env', ref'⟩ ho ho' hk
    cases hk
    have ho := held_eq_some_iff.mp ho
    rcases h env ref with ⟨hone, -⟩ | ⟨hno, -⟩
    · exact hone.unique ho (held_eq_some_iff.mp ho')
    · exact absurd ho (hno o)
  · rintro o ⟨env, ref⟩ ho
    rw [acquired_ledger, released_ledger]
    rcases h env ref with ⟨-, hcount⟩ | ⟨hno, -⟩
    · exact hcount
    · exact absurd (held_eq_some_iff.mp ho) (hno o)
  · rintro ⟨env, ref⟩ hno
    rw [acquired_ledger, released_ledger]
    rcases h env ref with ⟨⟨o, ho, -⟩, -⟩ | ⟨-, hcount⟩
    · exact absurd (held_eq_some_iff.mpr ho) (hno o)
    · exact hcount

/-- **`ScopedLocalRef` owns its references linearly if and only if** no object is moved into one
that has an equal reference of another env.  Linearly: in every state of a program that hands in
fresh references each reference is accounted for, and once all objects are destroyed those that were
not released to the caller have been deleted, once each, on their env. -/
theorem scopedLocalRef_linear_iff [DecidableEq O] (as : List (Action O E R))
    (hfresh : EveryStep step Fresh .empty as) :
    (EveryState step (fun s => ∀ env ref, Accounted s env ref) .empty as ∧
      ∀ s, run step .empty as = some s → (∀ o, s.object o = none) →
        ∀ env ref, deleted s env ref + released s env ref = handedIn s env ref) ↔
      EveryStep step Apart .empty as := by
  have hiff : EveryState step Owned .empty as ↔ EveryStep step Apart .empty as :=
    hfresh.everyState_iff (I := fun _ => True) (fun _ _ _ _ _ _ => trivial)
      (fun _ _ _ _ hs hf hst => owned_step_iff hs hf hst) trivial owned_empty
  rw [← hiff]
  constructor
  · exact fun h => h.1.imp fun _ hs => owned_iff.mpr hs
  · intro h
    refine ⟨h.imp fun _ hs => hs.accounted, fun s hr hdead env ref => ?_⟩
    rcases (h.last hr).accounted env ref with ⟨⟨o, ho, _⟩, _⟩ | ⟨_, hcount⟩
    · rw [Has, hdead o] at ho
      cases ho
    · omega

/-- Two envs, a move between them, a move of an object into itself and a reset of the object that
was moved from. -/
def sharedProgram : List (Action ℕ ℕ ℕ) :=
  [.construct 0 1 (some 5), .construct 1 2 (some 6), .moveAssign 0 1, .moveAssign 0 0,
    .reset 1 (some 7), .destroy 0, .destroy 1]

theorem scopedLocalRef_linear_iff_shared :
    ((run step .empty sharedProgram).map fun s => s.trace) =
        some [.handedIn 1 5, .handedIn 2 6, .deleteLocalRef 1 5, .handedIn 2 7,
          .deleteLocalRef 2 6, .deleteLocalRef 2 7] ∧
      EveryState step (fun s => ∀ env ref, Accounted s env ref) .empty sharedProgram := by
  have hfresh : EveryStep step Fresh Store.empty sharedProgram := by
    simp [EveryStep, sharedProgram, step, Fresh, Has, construct, moveAssign, reset, release, destroy,
      Store.set, Store.record, Store.empty, Function.update_apply]
    intro o ho
    split_ifs at ho <;> cases ho
  refine ⟨rfl, ((scopedLocalRef_linear_iff sharedProgram hfresh).mpr ?_).1⟩
  simp [EveryStep, sharedProgram, step, Apart, construct, moveAssign, reset, release, destroy,
    Store.set, Store.record, Store.empty]
  constructor
  · rintro _ _ r rfl rfl hr hr'
    cases hr.trans hr'.symm
  · rintro _ _ r rfl rfl _ _
    rfl

/-- On two envs there are equal references, and an object is moved into the other one. -/
def equalProgram : List (Action Bool ℕ ℕ) :=
  [.construct false 1 (some 5), .construct true 2 (some 5), .moveAssign false true,
    .destroy false, .destroy true]

/-- The reference of the first env is never deleted. -/
theorem scopedLocalRef_loses_equal :
    EveryStep step Fresh .empty equalProgram ∧
      ∃ s, run step .empty equalProgram = some s ∧ (∀ o, s.object o = none) ∧
        s.trace = [.handedIn 1 5, .handedIn 2 5, .deleteLocalRef 2 5] ∧
        ¬ ∀ env ref, deleted s env ref + released s env ref = handedIn s env ref := by
  constructor
  · simp [EveryStep, equalProgram, step, Fresh, Has, construct, Store.set, Store.record,
      Store.empty]
  · refine ⟨_, rfl, fun o => ?_, rfl, fun h => absurd (h 1 5) (by decide)⟩
    cases o <;> rfl

end programs

end ScopedLocalRef
end NativeHelper
