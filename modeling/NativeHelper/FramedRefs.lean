import NativeHelper.ScopedLocalFrame
import NativeHelper.ScopedLocalRef

/-! # Scoped references in scoped frames

Code that uses `ScopedLocalFrame` uses `ScopedLocalRef` as well, and the one frees what the other
is to free: when a frame is popped its references die, whether or not an object has them.  The
frames and the references are all of one env.

An object's reference is live in every state of a program if and only if the references that are
handed in are live and no frame is popped while an object has one of its references; then nothing
dead is deleted and nothing that was handed in is left behind (`framedRefs_live_iff`). -/

namespace NativeHelper

/-! ### References in frames -/

namespace FrameVm

variable {vm : FrameVm} {r : ℕ}

/-- `DeleteLocalRef(ref)`, whatever frame it is in. -/
def deleteLocalRef (ref : ℕ) (vm : FrameVm) : FrameVm :=
  { vm with
    frames := vm.frames.map fun frame => { frame with refs := frame.refs.filter (· ≠ ref) } }

instance (vm : FrameVm) (ref : ℕ) : Decidable (vm.Live ref) :=
  inferInstanceAs (Decidable (∃ frame ∈ vm.frames, ref ∈ frame.refs))

/-- The references of the frame on top. -/
def topRefs (vm : FrameVm) : List ℕ :=
  match vm.frames with
  | [] => []
  | frame :: _ => frame.refs

/-- The references are below the next one, and no reference is in two frames. -/
structure Numbered (vm : FrameVm) : Prop where
  lt : ∀ ref, vm.Live ref → ref < vm.nextRef
  apart : vm.frames.Pairwise fun frame frame' => ∀ ref ∈ frame.refs, ref ∉ frame'.refs

theorem live_deleteLocalRef {ref : ℕ} : (vm.deleteLocalRef ref).Live r ↔ vm.Live r ∧ r ≠ ref := by
  constructor
  · rintro ⟨frame, hframe, hr⟩
    obtain ⟨frame', hframe', rfl⟩ := List.mem_map.mp hframe
    obtain ⟨hr, hne⟩ := List.mem_filter.mp hr
    exact ⟨⟨frame', hframe', hr⟩, of_decide_eq_true hne⟩
  · rintro ⟨⟨frame, hframe, hr⟩, hne⟩
    exact ⟨_, List.mem_map_of_mem hframe, List.mem_filter.mpr ⟨hr, decide_eq_true hne⟩⟩

theorem live_construct (succeeds : Bool) :
    (ScopedLocalFrame.construct succeeds vm).Live r ↔ vm.Live r := by
  cases succeeds with
  | false => exact Iff.rfl
  | true =>
      constructor
      · rintro ⟨frame, hframe, hr⟩
        rcases List.mem_cons.mp hframe with rfl | hframe
        · cases hr
        · exact ⟨frame, hframe, hr⟩
      · rintro ⟨frame, hframe, hr⟩
        exact ⟨frame, List.mem_cons_of_mem _ hframe, hr⟩

theorem live_newLocalRef : vm.newLocalRef.Live r ↔ vm.Live r ∨ vm.frames ≠ [] ∧ r = vm.nextRef := by
  unfold newLocalRef Live
  cases h : vm.frames with
  | nil => simp [h]
  | cons frame frames =>
      simp only [List.mem_cons, exists_eq_or_imp, ne_eq, reduceCtorEq, not_false_eq_true, true_and]
      constructor
      · rintro ((hr | hr) | hr)
        · exact .inr hr
        · exact .inl (.inl hr)
        · exact .inl (.inr hr)
      · rintro ((hr | hr) | hr)
        · exact .inl (.inr hr)
        · exact .inr hr
        · exact .inl (.inl hr)

theorem le_nextRef_newLocalRef (vm : FrameVm) : vm.nextRef ≤ vm.newLocalRef.nextRef := by
  unfold newLocalRef
  cases vm.frames with
  | nil => exact Nat.le_refl _
  | cons frame frames => exact Nat.le_succ _

theorem Numbered.live_destructor (h : vm.Numbered) :
    (ScopedLocalFrame.destructor vm).Live r ↔ vm.Live r ∧ r ∉ vm.topRefs := by
  have hapart := h.apart
  unfold ScopedLocalFrame.destructor popLocalFrame Live topRefs
  cases hf : vm.frames with
  | nil => simp
  | cons frame frames =>
      rw [hf] at hapart
      obtain ⟨htop, -⟩ := List.pairwise_cons.mp hapart
      simp only [List.tail_cons, List.mem_cons, exists_eq_or_imp]
      constructor
      · rintro ⟨frame', hframe', hr⟩
        exact ⟨.inr ⟨frame', hframe', hr⟩, fun hr' => htop frame' hframe' r hr' hr⟩
      · rintro ⟨hr | hr, hnot⟩
        · exact absurd hr hnot
        · exact hr

theorem Numbered.deleteLocalRef (h : vm.Numbered) (ref : ℕ) : (vm.deleteLocalRef ref).Numbered where
  lt := fun r hr => h.lt r (live_deleteLocalRef.mp hr).1
  apart := List.pairwise_map.mpr (h.apart.imp fun hff r hr hr' =>
    hff r (List.mem_of_mem_filter hr) (List.mem_of_mem_filter hr'))

theorem Numbered.construct (h : vm.Numbered) (succeeds : Bool) :
    (ScopedLocalFrame.construct succeeds vm).Numbered where
  lt := fun r hr => by
    have hlt := h.lt r ((live_construct succeeds).mp hr)
    cases succeeds <;> exact hlt
  apart := by
    cases succeeds with
    | false => exact h.apart
    | true => exact List.pairwise_cons.mpr ⟨fun _ _ _ hr => absurd hr List.not_mem_nil, h.apart⟩

theorem Numbered.destructor (h : vm.Numbered) : (ScopedLocalFrame.destructor vm).Numbered where
  lt := fun r hr => h.lt r (h.live_destructor.mp hr).1
  apart := h.apart.tail

theorem Numbered.newLocalRef (h : vm.Numbered) : vm.newLocalRef.Numbered := by
  unfold FrameVm.newLocalRef
  cases hf : vm.frames with
  | nil => exact h
  | cons frame frames =>
      have hlt : ∀ r, (∃ frame' ∈ frame :: frames, r ∈ frame'.refs) → r < vm.nextRef := by
        rw [← hf]
        exact h.lt
      have hapart := h.apart
      rw [hf] at hapart
      obtain ⟨htop, hrest⟩ := List.pairwise_cons.mp hapart
      constructor
      · rintro r ⟨frame', hframe', hr⟩
        rcases List.mem_cons.mp hframe' with rfl | hframe'
        · rcases List.mem_cons.mp hr with rfl | hr
          · exact Nat.lt_succ_self _
          · exact Nat.lt_succ_of_lt (hlt r ⟨frame, List.mem_cons_self, hr⟩)
        · exact Nat.lt_succ_of_lt (hlt r ⟨frame', List.mem_cons_of_mem _ hframe', hr⟩)
      · refine List.pairwise_cons.mpr ⟨fun frame' hframe' r hr hr' => ?_, hrest⟩
        rcases List.mem_cons.mp hr with rfl | hr
        · -- the new reference was nowhere
          exact absurd (hlt _ ⟨frame', List.mem_cons_of_mem _ hframe', hr'⟩) (Nat.lt_irrefl _)
        · exact htop frame' hframe' r hr hr'

end FrameVm

namespace FramedRefs

/-! ### What an action does to references -/

open Transition Objects
open ScopedLocalRef (RefEvent Owned)

variable {O E R : Type}

/-- The object at `o` has the reference. -/
def Holds (s : ScopedLocalRef.State O E R) (o : O) (ref : R) : Prop :=
  ∃ obj, s.object o = some obj ∧ obj.mLocalRef = some ref

def deletedRef : RefEvent E R → Option R
  | .deleteLocalRef _ ref => some ref
  | .handedIn _ _ | .released _ _ => none

/-- The references that were deleted between two states. -/
def deletedSince (s s' : ScopedLocalRef.State O E R) : List R :=
  (s'.trace.drop s.trace.length).filterMap deletedRef

/-- The reference that the program hands in. -/
def handedIn : ScopedLocalRef.Action O E R → Option R
  | .construct _ _ ptr | .reset _ ptr => ptr
  | .moveConstruct _ _ | .moveAssign _ _ | .release _ | .destroy _ => none

/-- The object that may get a reference. -/
def target : ScopedLocalRef.Action O E R → Option O
  | .construct this _ _ | .moveConstruct this _ | .moveAssign this _ | .reset this _ => some this
  | .release _ | .destroy _ => none

/-- What an action does to references: what an object has afterwards one had before or was handed
in, and what is deleted one had before and none has afterwards. -/
structure Effect (s s' : ScopedLocalRef.State O E R) (a : ScopedLocalRef.Action O E R)
    (lost : Option R) : Prop where
  grows : s.trace <+: s'.trace
  deleted : deletedSince s s' = lost.toList
  held : ∀ o r, Holds s' o r → handedIn a = some r ∨ ∃ o', Holds s o' r
  kept : ∀ o r, Holds s' o r → target a = some o ∨ Holds s o r
  handed : ∀ r, handedIn a = some r → ∃ o, Holds s' o r
  lost_held : ∀ r, lost = some r → (∃ o, Holds s o r) ∧ ∀ o, ¬ Holds s' o r

section effect
variable {s s' : ScopedLocalRef.State O E R} {this rhs : O} {obj source : ScopedLocalRef E R}

theorem deletedSince_eq {l : List (RefEvent E R)} (h : s'.trace = s.trace ++ l) :
    deletedSince s s' = l.filterMap deletedRef := by
  rw [deletedSince, h, List.drop_left]

/-- Nothing happens when what is handed in is in the object. -/
theorem effect_same {a : ScopedLocalRef.Action O E R}
    (ha : ∀ r, handedIn a = some r → ∃ o, Holds s o r) : Effect s s a none where
  grows := List.prefix_rfl
  deleted := deletedSince_eq (l := []) (List.append_nil s.trace).symm
  held := fun o r ho => .inr ⟨o, ho⟩
  kept := fun o r ho => .inr ho
  handed := ha
  lost_held := by rintro r ⟨⟩

section objects
variable [DecidableEq O]

theorem holds_set {o : O} {r : R} {new : Option (ScopedLocalRef E R)} :
    Holds (s.set this new) o r ↔
      o = this ∧ (∃ obj, new = some obj ∧ obj.mLocalRef = some r) ∨ o ≠ this ∧ Holds s o r := by
  unfold Holds
  by_cases e : o = this
  · rw [e, Store.object_set_self]
    simp
  · rw [Store.object_set_ne _ _ e]
    simp [e]

theorem effect_construct (this : O) (env : E) (ptr : Option R) :
    Effect s ((s.record (ptr.map (.handedIn env))).set this (some ⟨env, ptr⟩))
      (.construct this env ptr) none where
  grows := ⟨_, rfl⟩
  deleted := by
    rw [deletedSince_eq (l := (ptr.map (.handedIn env)).toList) rfl]
    cases ptr <;> rfl
  held := by
    intro o r ho
    rcases holds_set.mp ho with ⟨-, obj, ⟨⟩, hr⟩ | ⟨-, ho⟩
    · exact .inl hr
    · exact .inr ⟨o, ho⟩
  kept := by
    intro o r ho
    rcases holds_set.mp ho with ⟨rfl, -⟩ | ⟨-, ho⟩
    · exact .inl rfl
    · exact .inr ho
  handed := fun r hr => ⟨this, holds_set.mpr (.inl ⟨rfl, _, rfl, hr⟩)⟩
  lost_held := by rintro r ⟨⟩

theorem effect_moveConstruct (hobj : s.object rhs = some obj) :
    Effect s ((s.set rhs (some ⟨obj.mEnv, none⟩)).set this (some obj)) (.moveConstruct this rhs)
      none where
  grows := List.prefix_rfl
  deleted := deletedSince_eq (l := []) (List.append_nil s.trace).symm
  held := by
    intro o r ho
    rcases holds_set.mp ho with ⟨-, obj', ⟨⟩, hr⟩ | ⟨-, ho⟩
    · exact .inr ⟨rhs, obj, hobj, hr⟩
    · rcases holds_set.mp ho with ⟨-, obj', ⟨⟩, hr⟩ | ⟨-, ho⟩
      · cases hr
      · exact .inr ⟨o, ho⟩
  kept := by
    intro o r ho
    rcases holds_set.mp ho with ⟨rfl, -⟩ | ⟨-, ho⟩
    · exact .inl rfl
    · rcases holds_set.mp ho with ⟨-, obj', ⟨⟩, hr⟩ | ⟨-, ho⟩
      · cases hr
      · exact .inr ho
  handed := by rintro r ⟨⟩
  lost_held := by rintro r ⟨⟩

theorem effect_release (this : O) (obj : ScopedLocalRef E R) :
    Effect s ((s.set this (some ⟨obj.mEnv, none⟩)).record
      (obj.mLocalRef.map (.released obj.mEnv))) (.release this) none := by
  have hcases : ∀ o r, Holds ((s.set this (some ⟨obj.mEnv, none⟩)).record
      (obj.mLocalRef.map (.released obj.mEnv))) o r → Holds s o r := by
    intro o r ho
    rcases holds_set.mp ho with ⟨-, obj', ⟨⟩, hr⟩ | ⟨-, ho⟩
    · cases hr
    · exact ho
  constructor
  · exact ⟨_, rfl⟩
  · rw [deletedSince_eq (l := (obj.mLocalRef.map (.released obj.mEnv)).toList) rfl]
    cases obj.mLocalRef <;> rfl
  · exact fun o r ho => .inr ⟨o, hcases o r ho⟩
  · exact fun o r ho => .inr (hcases o r ho)
  · rintro r ⟨⟩
  · rintro r ⟨⟩

end objects

variable [Subsingleton E]

/-- With one env there are no equal references of two. -/
theorem apart_of_subsingleton (s : ScopedLocalRef.State O E R)
    (a : ScopedLocalRef.Action O E R) : ScopedLocalRef.Apart s a := by
  cases a with
  | moveAssign this rhs => exact fun obj source _ _ _ _ _ => Subsingleton.elim _ _
  | construct this env localRef => trivial
  | moveConstruct this rhs => trivial
  | reset this ptr => trivial
  | release this => trivial
  | destroy this => trivial

variable [DecidableEq E] [DecidableEq R]

/-- No two objects have one reference. -/
theorem Owned.holds_unique (h : Owned s) {o o' : O} {r : R} (ho : Holds s o r)
    (ho' : Holds s o' r) : o = o' := by
  obtain ⟨⟨env, ref⟩, hobj, rfl⟩ := ho
  obtain ⟨⟨env', ref'⟩, hobj', rfl⟩ := ho'
  obtain rfl : env = env' := Subsingleton.elim env env'
  exact ScopedLocalRef.Owned.eq_of_has h hobj hobj'

/-- A reference that its object has given up nobody has. -/
theorem lost_of_owned (h : Owned s) (hobj : s.object this = some obj)
    (hgone : ∀ o r, obj.mLocalRef = some r → Holds s' o r → o ≠ this ∧ Holds s o r) :
    ∀ r, obj.mLocalRef = some r → (∃ o, Holds s o r) ∧ ∀ o, ¬ Holds s' o r := by
  intro r hr
  have hthis : Holds s this r := ⟨obj, hobj, hr⟩
  refine ⟨⟨this, hthis⟩, fun o ho => ?_⟩
  obtain ⟨hne, ho⟩ := hgone o r hr ho
  exact hne (Owned.holds_unique h ho hthis)

variable [DecidableEq O]

theorem effect_moveAssign (h : Owned s) (hne : this ≠ rhs) (hobj : s.object this = some obj)
    (hsource : s.object rhs = some source) :
    Effect s (((s.record (obj.mLocalRef.map (.deleteLocalRef obj.mEnv))).set rhs
      (some ⟨source.mEnv, none⟩)).set this (some source)) (.moveAssign this rhs)
      obj.mLocalRef := by
  have hcases : ∀ o r, Holds (((s.record (obj.mLocalRef.map (.deleteLocalRef obj.mEnv))).set rhs
      (some ⟨source.mEnv, none⟩)).set this (some source)) o r →
      o = this ∧ Holds s rhs r ∨ o ≠ this ∧ Holds s o r := by
    intro o r ho
    rcases holds_set.mp ho with ⟨rfl, obj', ⟨⟩, hr⟩ | ⟨e, ho⟩
    · exact .inl ⟨rfl, source, hsource, hr⟩
    · rcases holds_set.mp ho with ⟨-, obj', ⟨⟩, hr⟩ | ⟨-, ho⟩
      · cases hr
      · exact .inr ⟨e, ho⟩
  constructor
  · exact ⟨_, rfl⟩
  · rw [deletedSince_eq (l := (obj.mLocalRef.map (.deleteLocalRef obj.mEnv)).toList) rfl]
    cases obj.mLocalRef <;> rfl
  · intro o r ho
    rcases hcases o r ho with ⟨-, ho⟩ | ⟨-, ho⟩
    · exact .inr ⟨rhs, ho⟩
    · exact .inr ⟨o, ho⟩
  · intro o r ho
    rcases hcases o r ho with ⟨rfl, -⟩ | ⟨-, ho⟩
    · exact .inl rfl
    · exact .inr ho
  · rintro r ⟨⟩
  · refine lost_of_owned h hobj fun o r hr ho => ?_
    rcases hcases o r ho with ⟨-, ho⟩ | ho
    · exact absurd (Owned.holds_unique h ⟨obj, hobj, hr⟩ ho) hne
    · exact ho

theorem effect_reset (h : Owned s) (hobj : s.object this = some obj) {ptr : Option R}
    (hptr : ptr ≠ obj.mLocalRef) :
    Effect s (((s.record (ptr.map (.handedIn obj.mEnv))).record
      (obj.mLocalRef.map (.deleteLocalRef obj.mEnv))).set this (some ⟨obj.mEnv, ptr⟩))
      (.reset this ptr) obj.mLocalRef := by
  have hcases : ∀ o r, Holds (((s.record (ptr.map (.handedIn obj.mEnv))).record
      (obj.mLocalRef.map (.deleteLocalRef obj.mEnv))).set this (some ⟨obj.mEnv, ptr⟩)) o r →
      o = this ∧ ptr = some r ∨ o ≠ this ∧ Holds s o r := by
    intro o r ho
    rcases holds_set.mp ho with ⟨rfl, obj', ⟨⟩, hr⟩ | ho
    · exact .inl ⟨rfl, hr⟩
    · exact .inr ho
  constructor
  · exact ⟨_, (List.append_assoc ..).symm⟩
  · rw [deletedSince_eq (l := (ptr.map (.handedIn obj.mEnv)).toList ++
      (obj.mLocalRef.map (.deleteLocalRef obj.mEnv)).toList) (List.append_assoc ..)]
    cases ptr <;> cases obj.mLocalRef <;> rfl
  · intro o r ho
    rcases hcases o r ho with ⟨-, hr⟩ | ⟨-, ho⟩
    · exact .inl hr
    · exact .inr ⟨o, ho⟩
  · intro o r ho
    rcases hcases o r ho with ⟨rfl, -⟩ | ⟨-, ho⟩
    · exact .inl rfl
    · exact .inr ho
  · exact fun r hr => ⟨this, holds_set.mpr (.inl ⟨rfl, _, rfl, hr⟩)⟩
  · refine lost_of_owned h hobj fun o r hr ho => ?_
    rcases hcases o r ho with ⟨-, ho⟩ | ho
    · exact absurd (ho.trans hr.symm) hptr
    · exact ho

theorem effect_destroy (h : Owned s) (hobj : s.object this = some obj) :
    Effect s ((s.record (obj.mLocalRef.map (.deleteLocalRef obj.mEnv))).set this none)
      (.destroy this) obj.mLocalRef := by
  have hcases : ∀ o r, Holds ((s.record (obj.mLocalRef.map (.deleteLocalRef obj.mEnv))).set this
      none) o r → o ≠ this ∧ Holds s o r := by
    intro o r ho
    rcases holds_set.mp ho with ⟨-, obj', ⟨⟩, -⟩ | ho
    exact ho
  constructor
  · exact ⟨_, rfl⟩
  · rw [deletedSince_eq (l := (obj.mLocalRef.map (.deleteLocalRef obj.mEnv)).toList) rfl]
    cases obj.mLocalRef <;> rfl
  · exact fun o r ho => .inr ⟨o, (hcases o r ho).2⟩
  · exact fun o r ho => .inr (hcases o r ho).2
  · rintro r ⟨⟩
  · exact lost_of_owned h hobj fun o r _ ho => hcases o r ho

/-- **Every action has such an effect.** -/
theorem exists_effect (h : Owned s) {a : ScopedLocalRef.Action O E R}
    (hst : ScopedLocalRef.step s a = some s') : ∃ lost, Effect s s' a lost := by
  cases a with
  | construct this env ptr =>
      rw [ScopedLocalRef.step] at hst
      split_ifs at hst
      cases hst
      exact ⟨none, effect_construct this env ptr⟩
  | moveConstruct this rhs =>
      rw [ScopedLocalRef.step] at hst
      split_ifs at hst
      obtain ⟨obj, hobj, -⟩ := Option.bind_eq_some_iff.mp hst
      rw [ScopedLocalRef.moveConstruct_eq hobj] at hst
      cases hst
      exact ⟨none, effect_moveConstruct hobj⟩
  | moveAssign this rhs =>
      obtain ⟨⟨_, s₁⟩, hrel, hst₁⟩ := Option.bind_eq_some_iff.mp hst
      obtain ⟨source, hsource, hs₁⟩ := Option.bind_eq_some_iff.mp hrel
      cases hs₁
      by_cases hne : this = rhs
      · subst hne
        have hself := ScopedLocalRef.moveAssign_self hsource
        obtain rfl : s = s' := Option.some.inj (hself.symm.trans hst)
        exact ⟨none, effect_same (by rintro r ⟨⟩)⟩
      · obtain ⟨s₂, hreset, -⟩ := Option.bind_eq_some_iff.mp hst₁
        obtain ⟨obj, hobj, -⟩ := Option.bind_eq_some_iff.mp hreset
        rw [Store.object_set_ne _ _ hne] at hobj
        have hmove := ScopedLocalRef.moveAssign_ne hne hobj hsource
          (h.eq_none_of_eq hne hobj hsource (apart_of_subsingleton s (.moveAssign this rhs)))
        obtain rfl := Option.some.inj (hmove.symm.trans hst)
        exact ⟨_, effect_moveAssign h hne hobj hsource⟩
  | reset this ptr =>
      obtain ⟨obj, hobj, hst⟩ := Option.bind_eq_some_iff.mp hst
      by_cases hptr : ptr = obj.mLocalRef
      · rw [if_pos hptr, ScopedLocalRef.reset_eq hobj, if_pos hptr] at hst
        cases hst
        exact ⟨none, effect_same fun r hr => ⟨this, obj, hobj, hptr ▸ hr⟩⟩
      · have hrec : (s.record (ptr.map (.handedIn obj.mEnv))).object this = some obj := hobj
        rw [if_neg hptr, ScopedLocalRef.reset_eq hrec, if_neg hptr] at hst
        cases hst
        exact ⟨_, effect_reset h hobj hptr⟩
  | release this =>
      obtain ⟨obj, hobj, hst⟩ := Option.bind_eq_some_iff.mp hst
      rw [ScopedLocalRef.release_eq hobj] at hst
      cases hst
      exact ⟨none, effect_release this obj⟩
  | destroy this =>
      obtain ⟨s₁, hreset, -⟩ := Option.bind_eq_some_iff.mp hst
      obtain ⟨obj, hobj, -⟩ := Option.bind_eq_some_iff.mp hreset
      have hdestroy := ScopedLocalRef.destroy_eq hobj
      obtain rfl := Option.some.inj (hdestroy.symm.trans hst)
      exact ⟨_, effect_destroy h hobj⟩

end effect

/-! ### Programs -/

/-- The frames, the objects with what happened to their references, and how often a reference was
deleted that was not live. -/
structure State (O : Type) where
  vm : FrameVm
  refs : ScopedLocalRef.State O Unit ℕ
  dangling : ℕ

/-- What a program does: it enters and leaves the scope of a `ScopedLocalFrame`, calls something
that returns a reference, and works on its objects. -/
inductive Action (O : Type) where
  | enter (succeeds : Bool)
  | leave
  | newLocalRef
  | object (a : ScopedLocalRef.Action O Unit ℕ)
deriving DecidableEq, Repr

def initial (vm : FrameVm) : State O := ⟨vm, .empty, 0⟩

/-- `DeleteLocalRef(ref)` -/
def State.delete (s : State O) (ref : ℕ) : State O :=
  { s with
    vm := s.vm.deleteLocalRef ref
    dangling := if s.vm.Live ref then s.dangling else s.dangling + 1 }

/-- One action; the references that objects delete go from the frames. -/
def step [DecidableEq O] (s : State O) : Action O → Option (State O)
  | .enter succeeds => some { s with vm := ScopedLocalFrame.construct succeeds s.vm }
  | .leave => some { s with vm := ScopedLocalFrame.destructor s.vm }
  | .newLocalRef => some { s with vm := s.vm.newLocalRef }
  | .object a => do
      let refs ← ScopedLocalRef.step s.refs a
      some ((deletedSince s.refs refs).foldl State.delete { s with refs := refs })

/-- What is handed to an object no other one has. -/
def Fresh (s : State O) : Action O → Prop
  | .object a => ScopedLocalRef.Fresh s.refs a
  | .enter _ | .leave | .newLocalRef => True

/-- What is handed to an object is live. -/
def HandsInLive (s : State O) : Action O → Prop
  | .object a => ∀ r, handedIn a = some r → s.vm.Live r
  | .enter _ | .leave | .newLocalRef => True

/-- No object has a reference of the frame that is popped. -/
def LeavesNothing (s : State O) : Action O → Prop
  | .leave => ∀ o r, Holds s.refs o r → r ∉ s.vm.topRefs
  | .enter _ | .newLocalRef | .object _ => True

/-- The references of all objects are live. -/
def AllLive (s : State O) : Prop := ∀ o r, Holds s.refs o r → s.vm.Live r

/-- What is so whether or not the references of objects are live. -/
structure Sound (s : State O) : Prop where
  owned : Owned s.refs
  numbered : s.vm.Numbered

/-- Nothing dead was deleted, and what was deleted is dead for good. -/
structure Settled (s : State O) : Prop where
  dangling : s.dangling = 0
  gone : ∀ r, .deleteLocalRef () r ∈ s.refs.trace → ¬ s.vm.Live r ∧ r < s.vm.nextRef

/-- The state after an action of an object that deleted `lost`. -/
def State.after (s : State O) (refs : ScopedLocalRef.State O Unit ℕ) (lost : Option ℕ) : State O :=
  lost.toList.foldl State.delete { s with refs := refs }

section programs
variable {s s' : State O} {refs : ScopedLocalRef.State O Unit ℕ} {lost : Option ℕ}

theorem sound_initial {vm : FrameVm} (h : vm.Numbered) : Sound (initial vm : State O) :=
  ⟨ScopedLocalRef.owned_empty, h⟩

theorem allLive_initial (vm : FrameVm) : AllLive (initial vm : State O) := by
  rintro o r ⟨obj, ⟨⟩, -⟩

theorem settled_initial (vm : FrameVm) : Settled (initial vm : State O) where
  dangling := rfl
  gone := by rintro r ⟨⟩

theorem refs_after : (s.after refs lost).refs = refs := by
  cases lost <;> rfl

theorem live_after {r : ℕ} : (s.after refs lost).vm.Live r ↔ s.vm.Live r ∧ lost ≠ some r := by
  cases lost with
  | none => exact (and_iff_left (by simp)).symm
  | some ref =>
      refine FrameVm.live_deleteLocalRef.trans (and_congr_right fun _ => ?_)
      rw [ne_eq, ne_eq, Option.some.injEq, eq_comm]

theorem numbered_after (h : s.vm.Numbered) : (s.after refs lost).vm.Numbered := by
  cases lost with
  | none => exact h
  | some ref => exact h.deleteLocalRef ref

theorem Settled.after (h : Settled s) (hlive : AllLive s) (hnumbered : s.vm.Numbered)
    {a : ScopedLocalRef.Action O Unit ℕ} (heffect : Effect s.refs refs a lost) :
    Settled (s.after refs lost) := by
  have hlost : ∀ r, lost = some r → s.vm.Live r := fun r hr =>
    have ⟨o, ho⟩ := (heffect.lost_held r hr).1
    hlive o r ho
  constructor
  · cases lost with
    | none => exact h.dangling
    | some ref => exact (if_pos (hlost ref rfl)).trans h.dangling
  · intro r hr
    rw [refs_after] at hr
    have hnext : (s.after refs lost).vm.nextRef = s.vm.nextRef := by
      cases lost <;> rfl
    obtain ⟨l, hl⟩ := heffect.grows
    have hdeleted := heffect.deleted
    rw [deletedSince_eq hl.symm] at hdeleted
    rw [← hl] at hr
    rw [live_after, hnext]
    rcases List.mem_append.mp hr with hr | hr
    · obtain ⟨hdead, hlt⟩ := h.gone r hr
      exact ⟨fun hr' => hdead hr'.1, hlt⟩
    · have hr' : r ∈ lost.toList := hdeleted ▸ List.mem_filterMap.mpr ⟨_, hr, rfl⟩
      have hr'' := Option.mem_toList.mp hr'
      exact ⟨fun hr' => hr'.2 hr'', hnumbered.lt r (hlost r hr'')⟩

variable [DecidableEq O]

theorem object_cases (h : Owned s.refs) {a : ScopedLocalRef.Action O Unit ℕ}
    (hst : step s (.object a) = some s') : ∃ refs lost, ScopedLocalRef.step s.refs a = some refs ∧
      Effect s.refs refs a lost ∧ s' = s.after refs lost := by
  obtain ⟨refs, hrefs, hs'⟩ := Option.bind_eq_some_iff.mp hst
  obtain ⟨lost, heffect⟩ := exists_effect h hrefs
  rw [heffect.deleted] at hs'
  exact ⟨refs, lost, hrefs, heffect, (Option.some.inj hs').symm⟩

theorem Sound.step (h : Sound s) {a : Action O} (hfresh : Fresh s a) (hst : step s a = some s') :
    Sound s' := by
  cases a with
  | enter succeeds =>
      cases hst
      exact ⟨h.owned, h.numbered.construct succeeds⟩
  | leave =>
      cases hst
      exact ⟨h.owned, h.numbered.destructor⟩
  | newLocalRef =>
      cases hst
      exact ⟨h.owned, h.numbered.newLocalRef⟩
  | object a =>
      obtain ⟨refs, lost, hrefs, -, rfl⟩ := object_cases h.owned hst
      refine ⟨?_, numbered_after h.numbered⟩
      rw [refs_after]
      exact h.owned.step hfresh (apart_of_subsingleton s.refs a) hrefs

/-- **One action keeps the references of all objects live** exactly if it hands in live ones and
pops none of them. -/
theorem allLive_step_iff (h : Sound s) (hlive : AllLive s) {a : Action O}
    (hst : FramedRefs.step s a = some s') : AllLive s' ↔ HandsInLive s a ∧ LeavesNothing s a := by
  cases a with
  | enter succeeds =>
      cases hst
      exact iff_of_true (fun o r ho => (FrameVm.live_construct succeeds).mpr (hlive o r ho))
        ⟨trivial, trivial⟩
  | leave =>
      cases hst
      constructor
      · exact fun h' => ⟨trivial, fun o r ho => (h.numbered.live_destructor.mp (h' o r ho)).2⟩
      · exact fun h' o r ho => h.numbered.live_destructor.mpr ⟨hlive o r ho, h'.2 o r ho⟩
  | newLocalRef =>
      cases hst
      exact iff_of_true (fun o r ho => FrameVm.live_newLocalRef.mpr (.inl (hlive o r ho)))
        ⟨trivial, trivial⟩
  | object a =>
      obtain ⟨refs, lost, -, heffect, rfl⟩ := object_cases h.owned hst
      unfold AllLive
      rw [refs_after]
      constructor
      · intro h'
        refine ⟨fun r hr => ?_, trivial⟩
        obtain ⟨o, ho⟩ := heffect.handed r hr
        exact (live_after.mp (h' o r ho)).1
      · rintro ⟨hin, -⟩ o r ho
        refine live_after.mpr ⟨?_, fun hlost => (heffect.lost_held r hlost).2 o ho⟩
        rcases heffect.held o r ho with hr | ⟨o', ho'⟩
        · exact hin r hr
        · exact hlive o' r ho'

theorem Settled.step (h : Settled s) (hsound : Sound s) (hlive : AllLive s) {a : Action O}
    (hst : FramedRefs.step s a = some s') : Settled s' := by
  cases a with
  | enter succeeds =>
      cases hst
      refine ⟨h.dangling, fun r hr => ?_⟩
      obtain ⟨hdead, hlt⟩ := h.gone r hr
      refine ⟨fun hr' => hdead ((FrameVm.live_construct succeeds).mp hr'), ?_⟩
      cases succeeds <;> exact hlt
  | leave =>
      cases hst
      refine ⟨h.dangling, fun r hr => ?_⟩
      obtain ⟨hdead, hlt⟩ := h.gone r hr
      exact ⟨fun hr' => hdead (hsound.numbered.live_destructor.mp hr').1, hlt⟩
  | newLocalRef =>
      cases hst
      refine ⟨h.dangling, fun r hr => ?_⟩
      obtain ⟨hdead, hlt⟩ := h.gone r hr
      constructor
      · intro hr'
        rcases FrameVm.live_newLocalRef.mp hr' with hr' | ⟨-, rfl⟩
        · exact hdead hr'
        · exact Nat.lt_irrefl _ hlt
      · exact Nat.lt_of_lt_of_le hlt (FrameVm.le_nextRef_newLocalRef s.vm)
  | object a =>
      obtain ⟨refs, lost, -, heffect, rfl⟩ := object_cases hsound.owned hst
      exact h.after hlive hsound.numbered heffect

/-! ### All runs -/

theorem allLive_iff {vm : FrameVm} (hvm : vm.Numbered) {as : List (Action O)}
    (hfresh : EveryStep step Fresh (initial vm) as) :
    EveryState step AllLive (initial vm) as ↔
      EveryStep step (fun s a => HandsInLive s a ∧ LeavesNothing s a) (initial vm) as :=
  hfresh.everyState_iff (fun _ _ _ hs hf hst => hs.step hf hst)
    (fun _ _ _ hs hlive _ hst => allLive_step_iff hs hlive hst) (sound_initial hvm)
    (allLive_initial vm)

/-- What is deleted is dead for good, so a reference that is live is not among it. -/
theorem settled_run {vm : FrameVm} (hvm : vm.Numbered) {as : List (Action O)}
    (hfresh : EveryStep step Fresh (initial vm) as)
    (hlive : EveryState step AllLive (initial vm) as) {s : State O}
    (hr : run step (initial vm) as = some s) :
    s.dangling = 0 ∧ ∀ r, s.vm.Live r → 0 < ScopedLocalRef.handedIn s.refs () r →
      (∃! o, ScopedLocalRef.Has s.refs o () r) ∨ 0 < ScopedLocalRef.released s.refs () r := by
  have hsound : EveryState step Sound (initial vm) as :=
    hfresh.everyState (fun _ _ _ hs hf hst => hs.step hf hst) (sound_initial hvm)
  have hsettled : EveryState step Settled (initial vm) as :=
    (hsound.and hlive).preserves (fun _ _ _ hs h _ hst => hs.step h.1 h.2 hst)
      (settled_initial vm)
  have hs := hsettled.last hr
  refine ⟨hs.dangling, fun r hlive hin => ?_⟩
  rcases (hsound.last hr).owned.accounted () r with ⟨ho, -⟩ | ⟨-, hcount⟩
  · exact .inl ho
  · right
    by_contra hreleased
    have hdeleted : 0 < ScopedLocalRef.deleted s.refs () r := by omega
    exact (hs.gone r (List.count_pos_iff.mp hdeleted)).1 hlive

/-- **The references of all objects are live throughout a run if and only if** all that is handed
in is live and no frame is popped while an object has a reference of it.  Then no dead reference is
deleted, and a live one that was handed in is in an object or was released. -/
theorem framedRefs_live_iff (vm : FrameVm) (hvm : vm.Numbered) (as : List (Action O))
    (hfresh : EveryStep step Fresh (initial vm) as) :
    (EveryState step AllLive (initial vm) as ↔
      EveryStep step (fun s a => HandsInLive s a ∧ LeavesNothing s a) (initial vm) as) ∧
    (EveryState step AllLive (initial vm) as → ∀ s, run step (initial vm) as = some s →
      s.dangling = 0 ∧ ∀ r, s.vm.Live r → 0 < ScopedLocalRef.handedIn s.refs () r →
        (∃! o, ScopedLocalRef.Has s.refs o () r) ∨ 0 < ScopedLocalRef.released s.refs () r) :=
  ⟨allLive_iff hvm hfresh, fun hlive _ hr => settled_run hvm hfresh hlive hr⟩

/-- An object that is destroyed before its frame is popped. -/
theorem framedRefs_live_iff_destroyed :
    EveryState step AllLive (initial ⟨[⟨16, [0]⟩], 1, false⟩ : State Unit)
      [.enter true, .newLocalRef, .object (.construct () () (some 1)), .object (.destroy ()),
        .leave] := by
  have hvm : FrameVm.Numbered ⟨[⟨16, [0]⟩], 1, false⟩ :=
    ⟨by simp [FrameVm.Live], by simp⟩
  have hfresh : EveryStep step Fresh (initial ⟨[⟨16, [0]⟩], 1, false⟩ : State Unit)
      [.enter true, .newLocalRef, .object (.construct () () (some 1)), .object (.destroy ()),
        .leave] := by
    simp [EveryStep, step, Fresh, ScopedLocalRef.Fresh, ScopedLocalRef.step, initial, Store.empty]
  refine (framedRefs_live_iff _ hvm _ hfresh).1.mpr ?_
  simp [EveryStep, step, HandsInLive, LeavesNothing, handedIn, Holds, ScopedLocalRef.step, initial,
    Store.empty, ScopedLocalFrame.construct, FrameVm.pushLocalFrame, FrameVm.newLocalRef,
    FrameVm.Live, ScopedLocalRef.destroy, ScopedLocalRef.reset, ScopedLocalRef.construct,
    Store.set, Store.record, deletedSince, deletedRef, List.filterMap_cons, State.delete,
    FrameVm.deleteLocalRef]

end programs

end FramedRefs
end NativeHelper
