import Mathlib.Data.Set.Basic
import NativeHelper.FramedRefs

/-! # References in nested blocks

Scopes are nested in C++: the objects of a block are destroyed at its end, and a frame is popped at
the end of its block.  If inside a frame only the objects declared there take references, which
the text of a program shows, and every `PushLocalFrame` succeeds, then in no run does an object have
a dead reference.  A frame that could not be pushed is popped all the same, so that at the end there
are fewer than at the beginning (`scopedBlocks_run`). -/

namespace NativeHelper

/-! ### Frames of references -/

namespace FrameVm

/-- The frames are the same ones, and what is in them was there before or is new. -/
structure Grown (vm vm' : FrameVm) : Prop where
  nextRef : vm.nextRef ≤ vm'.nextRef
  frames : List.Forall₂ (fun frame frame' : LocalFrame =>
    ∀ ref ∈ frame'.refs, ref ∈ frame.refs ∨ vm.nextRef ≤ ref) vm.frames vm'.frames

theorem Grown.refl (vm : FrameVm) : vm.Grown vm where
  nextRef := Nat.le_refl _
  frames := List.forall₂_same.mpr fun _ _ _ href => .inl href

theorem frames_trans {R R' R'' : LocalFrame → LocalFrame → Prop}
    (h : ∀ frame frame' frame'', R frame frame' → R' frame' frame'' → R'' frame frame'')
    {frames frames' frames'' : List LocalFrame} (hR : List.Forall₂ R frames frames')
    (hR' : List.Forall₂ R' frames' frames'') : List.Forall₂ R'' frames frames'' := by
  induction hR generalizing frames'' with
  | nil =>
      cases hR'
      exact .nil
  | cons hframe _ ih =>
      cases hR' with
      | cons hframe' hframes => exact .cons (h _ _ _ hframe hframe') (ih hframes)

theorem Grown.trans {vm vm' vm'' : FrameVm} (h : vm.Grown vm') (h' : vm'.Grown vm'') :
    vm.Grown vm'' where
  nextRef := Nat.le_trans h.nextRef h'.nextRef
  frames := by
    refine frames_trans (fun frame frame' frame'' hframe hframe' ref href => ?_) h.frames h'.frames
    rcases hframe' ref href with href | hle
    · exact hframe ref href
    · exact .inr (Nat.le_trans h.nextRef hle)

theorem grown_newLocalRef (vm : FrameVm) : vm.Grown vm.newLocalRef where
  nextRef := le_nextRef_newLocalRef vm
  frames := by
    have hsame : ∀ frames : List LocalFrame, List.Forall₂ (fun frame frame' : LocalFrame =>
        ∀ ref ∈ frame'.refs, ref ∈ frame.refs ∨ vm.nextRef ≤ ref) frames frames :=
      fun _ => List.forall₂_same.mpr fun _ _ _ href => .inl href
    obtain ⟨frames, nextRef, pending⟩ := vm
    cases frames with
    | nil => exact .nil
    | cons frame frames =>
        refine .cons (fun ref href => ?_) (hsame frames)
        rcases List.mem_cons.mp href with rfl | href
        · exact .inr (Nat.le_refl _)
        · exact .inl href

theorem grown_deleteLocalRef (vm : FrameVm) (ref : ℕ) : vm.Grown (vm.deleteLocalRef ref) where
  nextRef := Nat.le_refl _
  frames := List.forall₂_map_right_iff.mpr
    (List.forall₂_same.mpr fun _ _ _ href => .inl (List.mem_of_mem_filter href))

/-- Of the frame that was pushed all references are new, and below it the frames are the same. -/
theorem Grown.pushed {vm vm' : FrameVm} (h : (ScopedLocalFrame.construct true vm).Grown vm') :
    (∀ ref ∈ vm'.topRefs, vm.nextRef ≤ ref) ∧ vm.Grown (ScopedLocalFrame.destructor vm') := by
  obtain ⟨frame, frames, hframe, hframes, hvm'⟩ := List.forall₂_cons_left_iff.mp h.frames
  constructor
  · intro ref href
    rw [topRefs, hvm'] at href
    exact (hframe ref href).resolve_left List.not_mem_nil
  · refine ⟨h.nextRef, ?_⟩
    rw [ScopedLocalFrame.destructor, popLocalFrame, hvm']
    exact hframes

end FrameVm

namespace FramedRefs

open Transition Objects

variable {O : Type}

/-! ### Programs in blocks -/

/-- Programs in nested blocks.  The objects of a block are those that its end destroys; a frame
stands before the objects of its block, so theirs is a block inside, and says whether its
`PushLocalFrame` succeeds. -/
inductive Program (O : Type) where
  | skip
  | newLocalRef
  | object (a : ScopedLocalRef.Action O Unit ℕ)
  | seq (p q : Program O)
  | block (locals : List O) (body : Program O)
  | frame (succeeds : Bool) (body : Program O)
deriving DecidableEq, Repr

/-- The end of a block. -/
def destroyAll (locals : List O) : List (Action O) := locals.map fun o => .object (.destroy o)

/-- The actions one after the other. -/
def Program.actions : Program O → List (Action O)
  | .skip => []
  | .newLocalRef => [.newLocalRef]
  | .object a => [.object a]
  | .seq p q => p.actions ++ q.actions
  | .block locals body => body.actions ++ destroyAll locals
  | .frame succeeds body => .enter succeeds :: (body.actions ++ [.leave])

/-- Only objects in `A` take references, and inside a frame only objects of the blocks there. -/
def Program.Confined : Program O → Set O → Prop
  | .skip, _ => True
  | .newLocalRef, _ => True
  | .object a, A => ∀ o, target a = some o → o ∈ A
  | .seq p q, A => p.Confined A ∧ q.Confined A
  | .block locals body, A => body.Confined ({o | o ∈ locals} ∪ A)
  | .frame _ body, _ => body.Confined ∅

/-- The scopes of a program, without its objects. -/
def Program.scopes : Program O → ScopedLocalFrame.Program
  | .skip => .skip
  | .newLocalRef => .create
  | .object _ => .skip
  | .seq p q => .seq p.scopes q.scopes
  | .block _ body => body.scopes
  | .frame succeeds body => .scope succeeds body.scopes

/-- The frames are the same, and objects that are not in `A` have got nothing. -/
structure Kept (A : Set O) (s s' : State O) : Prop where
  grown : s.vm.Grown s'.vm
  held : ∀ o r, Holds s'.refs o r → o ∈ A ∨ Holds s.refs o r

theorem Kept.refl (A : Set O) (s : State O) : Kept A s s where
  grown := FrameVm.Grown.refl s.vm
  held := fun _ _ ho => .inr ho

theorem Kept.trans {A : Set O} {s s' s'' : State O} (h : Kept A s s') (h' : Kept A s' s'') :
    Kept A s s'' where
  grown := h.grown.trans h'.grown
  held := fun o r ho => (h'.held o r ho).elim .inl (h.held o r)

theorem Kept.mono {A B : Set O} {s s' : State O} (hAB : A ⊆ B) (h : Kept A s s') : Kept B s s' where
  grown := h.grown
  held := fun o r ho => (h.held o r ho).imp_left fun ho => hAB ho

theorem length_foldl_delete (refs : List ℕ) (s : State O) :
    (refs.foldl State.delete s).vm.frames.length = s.vm.frames.length := by
  induction refs generalizing s with
  | nil => rfl
  | cons ref refs ih => exact (ih (s.delete ref)).trans (List.length_map _)

section blocks
variable [DecidableEq O]

/-- A frame, pushed or not, is popped after its body. -/
theorem frame_cases {s s' : State O} {succeeds : Bool} {as : List (Action O)}
    (hr : run step s (.enter succeeds :: (as ++ [.leave])) = some s') :
    ∃ s₁, run step { s with vm := ScopedLocalFrame.construct succeeds s.vm } as = some s₁ ∧
      s' = { s₁ with vm := ScopedLocalFrame.destructor s₁.vm } := by
  rw [run_cons, step, Option.bind_some, run_append] at hr
  obtain ⟨s₁, hr₁, hr₂⟩ := Option.bind_eq_some_iff.mp hr
  exact ⟨s₁, hr₁, (Option.some.inj hr₂).symm⟩

/-! ### The number of frames -/

theorem length_object {s s' : State O} {a : ScopedLocalRef.Action O Unit ℕ}
    (hst : step s (.object a) = some s') : s'.vm.frames.length = s.vm.frames.length := by
  obtain ⟨refs, -, hs'⟩ := Option.bind_eq_some_iff.mp hst
  cases hs'
  exact length_foldl_delete _ _

theorem length_destroyAll {locals : List O} {s s' : State O}
    (hr : run step s (destroyAll locals) = some s') :
    s'.vm.frames.length = s.vm.frames.length := by
  induction locals generalizing s with
  | nil =>
      cases hr
      rfl
  | cons o locals ih =>
      obtain ⟨s₁, hst, hr⟩ := Option.bind_eq_some_iff.mp hr
      exact (ih hr).trans (length_object hst)

/-- Objects do not change the number of frames. -/
theorem length_run (p : Program O) {s s' : State O} {vm : FrameVm}
    (hlen : s.vm.frames.length = vm.frames.length) (hr : run step s p.actions = some s') :
    s'.vm.frames.length = (ScopedLocalFrame.exec p.scopes vm).frames.length := by
  induction p generalizing s s' vm with
  | skip =>
      cases hr
      exact hlen
  | newLocalRef =>
      cases hr
      have hs := ScopedLocalFrame.length_newLocalRef s.vm
      exact hs.trans (hlen.trans (ScopedLocalFrame.length_newLocalRef vm).symm)
  | object a =>
      obtain ⟨s₁, hst, hr⟩ := Option.bind_eq_some_iff.mp hr
      cases hr
      exact (length_object hst).trans hlen
  | seq p q ihp ihq =>
      rw [Program.actions, run_append] at hr
      obtain ⟨s₁, hp, hq⟩ := Option.bind_eq_some_iff.mp hr
      exact ihq (ihp hlen hp) hq
  | block locals body ih =>
      rw [Program.actions, run_append] at hr
      obtain ⟨s₁, hbody, hend⟩ := Option.bind_eq_some_iff.mp hr
      exact (length_destroyAll hend).trans (ih hlen hbody)
  | frame succeeds body ih =>
      obtain ⟨s₁, hbody, rfl⟩ := frame_cases hr
      have hpush : (ScopedLocalFrame.construct succeeds s.vm).frames.length =
          (ScopedLocalFrame.construct succeeds vm).frames.length := by
        cases succeeds with
        | false => exact hlen
        | true => exact congrArg Nat.succ hlen
      have hs₁ := ih (s := { s with vm := ScopedLocalFrame.construct succeeds s.vm }) hpush hbody
      rw [Program.scopes, ScopedLocalFrame.exec, ScopedLocalFrame.length_destructor,
        ScopedLocalFrame.length_destructor, hs₁]

/-! ### Confined programs -/

/-- What is handed to an object is live, and no other object has it. -/
def HandsInOwn (s : State O) (a : Action O) : Prop := Fresh s a ∧ HandsInLive s a

/-- A part of a program pops no reference of an object, and relates the states before and after
it by `K`. -/
def Tidy (K : State O → State O → Prop) (as : List (Action O)) : Prop :=
  ∀ s, Sound s → AllLive s → EveryStep step HandsInOwn s as →
    EveryStep step LeavesNothing s as ∧
      ∀ s', run step s as = some s' → Sound s' ∧ AllLive s' ∧ K s s'

theorem Tidy.append {K K' K'' : State O → State O → Prop}
    (hK : ∀ s s' s'', K s s' → K' s' s'' → K'' s s'') {as bs : List (Action O)} (h : Tidy K as)
    (h' : Tidy K' bs) : Tidy K'' (as ++ bs) := by
  intro s hs hlive hin
  obtain ⟨hin₁, hin₂⟩ := everyStep_append.mp hin
  obtain ⟨has, hafter⟩ := h s hs hlive hin₁
  constructor
  · refine everyStep_append.mpr ⟨has, fun s₁ hr => ?_⟩
    obtain ⟨hs₁, hlive₁, -⟩ := hafter s₁ hr
    exact (h' s₁ hs₁ hlive₁ (hin₂ s₁ hr)).1
  · intro s₂ hr
    rw [run_append] at hr
    obtain ⟨s₁, hr₁, hr₂⟩ := Option.bind_eq_some_iff.mp hr
    obtain ⟨hs₁, hlive₁, hk⟩ := hafter s₁ hr₁
    obtain ⟨hs₂, hlive₂, hk'⟩ := (h' s₁ hs₁ hlive₁ (hin₂ s₁ hr₁)).2 s₂ hr₂
    exact ⟨hs₂, hlive₂, hK s s₁ s₂ hk hk'⟩

theorem tidy_nil {K : State O → State O → Prop} (hK : ∀ s, K s s) : Tidy K [] := by
  intro s hs hlive _
  refine ⟨trivial, fun s' hr => ?_⟩
  cases hr
  exact ⟨hs, hlive, hK s⟩

theorem tidy_action {K : State O → State O → Prop} {a : Action O}
    (hleaves : ∀ s, LeavesNothing s a) (hK : ∀ s s', Sound s → step s a = some s' → K s s') :
    Tidy K [a] := by
  intro s hs hlive hin
  refine ⟨fun _ _ => ⟨hleaves s, trivial⟩, fun s' hr => ?_⟩
  obtain ⟨s₁, hst, hr⟩ := Option.bind_eq_some_iff.mp hr
  cases hr
  obtain ⟨⟨hfresh, hin⟩, -⟩ := hin s' hst
  exact ⟨hs.step hfresh hst, (allLive_step_iff hs hlive hst).mpr ⟨hin, hleaves s⟩,
    hK s s' hs hst⟩

/-- An action of an object hands references to its target only. -/
theorem kept_object {s s' : State O} (hs : Sound s) {a : ScopedLocalRef.Action O Unit ℕ}
    (hst : step s (.object a) = some s') : Kept {o | target a = some o} s s' := by
  obtain ⟨refs, lost, -, heffect, rfl⟩ := object_cases hs.owned hst
  constructor
  · cases lost with
    | none => exact FrameVm.Grown.refl s.vm
    | some ref => exact FrameVm.grown_deleteLocalRef s.vm ref
  · intro o r ho
    rw [refs_after] at ho
    exact heffect.kept o r ho

/-- What the end of a block does: its objects have no reference afterwards, and nothing else gets
one. -/
theorem tidy_destroyAll (locals : List O) :
    Tidy (fun s s' => Kept ∅ s s' ∧ ∀ o ∈ locals, ∀ r, ¬ Holds s'.refs o r)
      (destroyAll locals) := by
  induction locals with
  | nil => exact tidy_nil fun s => ⟨Kept.refl ∅ s, by rintro o ⟨⟩⟩
  | cons o locals ih =>
      have hdestroy : Tidy (fun s s' => Kept ∅ s s' ∧ ∀ r, ¬ Holds s'.refs o r)
          [.object (.destroy o)] := by
        refine tidy_action (fun _ => trivial) fun s s' hs hst => ⟨?_, fun r ho => ?_⟩
        · exact (kept_object hs hst).mono (by rintro o' ⟨⟩)
        · obtain ⟨refs, lost, hrefs, -, rfl⟩ := object_cases hs.owned hst
          obtain ⟨refs', -, hset⟩ := Option.bind_eq_some_iff.mp hrefs
          cases hset
          rw [refs_after] at ho
          rcases holds_set.mp ho with ⟨-, obj, ⟨⟩, -⟩ | ⟨hne, -⟩
          exact hne rfl
      refine hdestroy.append (fun s s' s'' h h' => ⟨h.1.trans h'.1, fun o' ho' r ho => ?_⟩) ih
      rcases List.mem_cons.mp ho' with rfl | hmem
      · rcases h'.1.held o' r ho with hempty | ho
        · cases hempty
        · exact h.2 r ho
      · exact h'.2 o' hmem r ho

theorem tidy_block {A : Set O} {locals : List O} {as : List (Action O)}
    (h : Tidy (Kept ({o | o ∈ locals} ∪ A)) as) : Tidy (Kept A) (as ++ destroyAll locals) := by
  refine h.append (fun s s' s'' hkept hend => ?_) (tidy_destroyAll locals)
  refine ⟨hkept.grown.trans hend.1.grown, fun o r ho => ?_⟩
  have ho' : Holds s'.refs o r := (hend.1.held o r ho).resolve_left (Set.notMem_empty o)
  rcases hkept.held o r ho' with (hlocal | hA) | ho'
  · exact absurd ho (hend.2 o hlocal r)
  · exact .inl hA
  · exact .inr ho'

/-- When the frame is popped, objects have references only that are older than the frame. -/
theorem tidy_frame {A : Set O} {as : List (Action O)} (h : Tidy (Kept ∅) as) :
    Tidy (Kept A) (.enter true :: (as ++ [.leave])) := by
  intro s hs hlive hin
  obtain ⟨⟨hfresh, hin₁⟩, hin⟩ := hin _ rfl
  obtain ⟨hinside, -⟩ := everyStep_append.mp hin
  obtain ⟨hleaves, hafter⟩ := h _ (hs.step hfresh rfl)
    ((allLive_step_iff hs hlive rfl).mpr ⟨hin₁, trivial⟩) hinside
  have hend : ∀ s₂, Kept ∅ { s with vm := ScopedLocalFrame.construct true s.vm } s₂ →
      LeavesNothing s₂ .leave := by
    intro s₂ hk o r ho hr'
    have hlt := hs.numbered.lt r (hlive o r ((hk.held o r ho).resolve_left (Set.notMem_empty o)))
    exact Nat.not_le_of_lt hlt (hk.grown.pushed.1 r hr')
  constructor
  · rintro _ ⟨⟩
    refine ⟨trivial, everyStep_append.mpr ⟨hleaves, fun s₂ hr => ?_⟩⟩
    obtain ⟨-, -, hk⟩ := hafter s₂ hr
    exact fun s₃ _ => ⟨hend s₂ hk, trivial⟩
  · intro s₃ hr
    obtain ⟨s₂, hr₂, rfl⟩ := frame_cases hr
    obtain ⟨hs₂, hlive₂, hk⟩ := hafter s₂ hr₂
    refine ⟨hs₂.step (a := .leave) trivial rfl,
      (allLive_step_iff hs₂ hlive₂ (a := .leave) rfl).mpr ⟨trivial, hend s₂ hk⟩,
      hk.grown.pushed.2, fun o r ho => ?_⟩
    exact .inr ((hk.held o r ho).resolve_left (Set.notMem_empty o))

/-- **A confined program is tidy** if its frames are pushed. -/
theorem tidy_confined (p : Program O) {A : Set O} (hp : p.Confined A)
    (hpush : ScopedLocalFrame.PushesAll p.scopes) : Tidy (Kept A) p.actions := by
  induction p generalizing A with
  | skip => exact tidy_nil (Kept.refl A)
  | newLocalRef =>
      refine tidy_action (fun _ => trivial) fun s s' _ hst => ?_
      cases hst
      exact ⟨FrameVm.grown_newLocalRef s.vm, fun _ _ ho => .inr ho⟩
  | object a =>
      exact tidy_action (fun _ => trivial) fun s s' hs hst => (kept_object hs hst).mono hp
  | seq p q ihp ihq =>
      exact (ihp hp.1 hpush.1).append (fun _ _ _ h h' => h.trans h') (ihq hp.2 hpush.2)
  | block locals body ih => exact tidy_block (ih hp hpush)
  | frame succeeds body ih =>
      obtain ⟨rfl, hbody⟩ := hpush
      exact tidy_frame (ih hp hbody)

/-- **In a confined program no object has a dead reference at any time**, if every `PushLocalFrame`
succeeds and all that is handed in is live and no other object has it.  At the end there are as many
frames as at the beginning, no dead reference was deleted, only objects in `A` have references, and
a live one that was handed in is in an object or was released.  If a `PushLocalFrame` fails, there
are fewer frames at the end. -/
theorem scopedBlocks_run (vm : FrameVm) (hvm : vm.Numbered) (p : Program O) (A : Set O)
    (hp : p.Confined A) (hin : EveryStep step HandsInOwn (initial vm) p.actions) :
    (ScopedLocalFrame.PushesAll p.scopes → EveryState step AllLive (initial vm) p.actions ∧
      ∀ s, run step (initial vm) p.actions = some s →
        s.vm.frames.length = vm.frames.length ∧ s.dangling = 0 ∧
        (∀ o r, Holds s.refs o r → o ∈ A) ∧
        ∀ r, s.vm.Live r → 0 < ScopedLocalRef.handedIn s.refs () r →
          (∃! o, ScopedLocalRef.Has s.refs o () r) ∨ 0 < ScopedLocalRef.released s.refs () r) ∧
    (¬ ScopedLocalFrame.PushesAll p.scopes → vm.frames ≠ [] →
      ∀ s, run step (initial vm) p.actions = some s →
        s.vm.frames.length < vm.frames.length) := by
  constructor
  · intro hpush
    obtain ⟨hleaves, hkept⟩ :=
      tidy_confined p hp hpush (initial vm) (sound_initial hvm) (allLive_initial vm) hin
    have hfresh : EveryStep step Fresh (initial vm) p.actions := hin.imp fun _ _ h => h.1
    have hlive : EveryState step AllLive (initial vm) p.actions :=
      (allLive_iff hvm hfresh).mpr ((hin.imp fun _ _ h => h.2).and hleaves)
    refine ⟨hlive, fun s hr => ?_⟩
    obtain ⟨-, -, hk⟩ := hkept s hr
    obtain ⟨hdangling, haccounted⟩ := settled_run hvm hfresh hlive hr
    refine ⟨hk.grown.frames.length_eq.symm, hdangling, fun o r ho => ?_, haccounted⟩
    rcases hk.held o r ho with hA | ⟨obj, ⟨⟩, -⟩
    exact hA
  · intro hpush hne s hr
    rw [length_run p rfl hr]
    exact ScopedLocalFrame.length_exec_lt hpush (List.length_pos_of_ne_nil hne)

/-- An object of its own in a frame, inside the block of another. -/
theorem scopedBlocks_run_nested :
    ∃ s, run step (initial ⟨[⟨16, [0]⟩], 1, false⟩ : State Bool) (Program.actions
      (.block [false] (.seq (.seq .newLocalRef (.object (.construct false () (some 1))))
        (.frame true (.block [true] (.seq .newLocalRef (.object (.construct true () (some 2)))))))))
        = some s ∧ s.dangling = 0 ∧ ∀ o r, ¬ Holds s.refs o r := by
  have hvm : FrameVm.Numbered ⟨[⟨16, [0]⟩], 1, false⟩ := ⟨by simp [FrameVm.Live], by simp⟩
  obtain ⟨hpushed, -⟩ := scopedBlocks_run _ hvm
    (.block [false] (.seq (.seq .newLocalRef (.object (.construct false () (some 1))))
      (.frame true (.block [true] (.seq .newLocalRef (.object (.construct true () (some 2))))))))
    ∅ (by simp [Program.Confined, target]) (by
      simp [EveryStep, Program.actions, destroyAll, step, HandsInOwn, Fresh, HandsInLive, handedIn,
        ScopedLocalRef.Fresh, ScopedLocalRef.step, initial, Store.empty, Store.set, Store.record,
        ScopedLocalFrame.construct, FrameVm.pushLocalFrame, FrameVm.newLocalRef, FrameVm.Live,
        ScopedLocalRef.construct, deletedSince, deletedRef, List.filterMap_cons]
      exact ⟨by simp [ScopedLocalRef.Has], by simp [ScopedLocalRef.Has]⟩)
  obtain ⟨-, h⟩ := hpushed ⟨⟨trivial, trivial⟩, rfl, trivial, trivial⟩
  obtain ⟨-, hdangling, hnone, -⟩ := h _ rfl
  exact ⟨_, rfl, hdangling, fun o r ho => hnone o r ho⟩

end blocks

end FramedRefs
end NativeHelper
