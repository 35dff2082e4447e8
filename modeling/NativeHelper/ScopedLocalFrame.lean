import Mathlib.Data.List.Basic

/-! # Scoped local frames

The VM keeps the local references of a thread in a stack of frames; references are created in the
frame on top and die with it.  `ScopedLocalFrame` pushes a frame in its constructor and pops one in
its destructor, whether or not the push succeeded.

A program whose pushes all succeed changes nothing below the frame it starts in
(`exec_of_pushesAll`); each push that fails makes the stack shorter (`length_exec_lt`).  So the
stack is that at entry, and no reference of a caller is lost, if and only if all pushes succeed
(`scopedLocalFrame_balanced_iff`). -/

namespace NativeHelper

/-- A frame: what it was pushed with, and the references created in it. -/
structure LocalFrame where
  capacity : ℕ
  refs : List ℕ
deriving DecidableEq, Repr

/-- The frames of the thread, the one on top first; the next reference to be created; whether an
exception is pending. -/
structure FrameVm where
  frames : List LocalFrame
  nextRef : ℕ
  pending : Bool
deriving DecidableEq, Repr

namespace FrameVm

/-- `PushLocalFrame(capacity)`; when it fails an exception is pending. -/
def pushLocalFrame (capacity : ℕ) (succeeds : Bool) (vm : FrameVm) : FrameVm :=
  if succeeds then { vm with frames := ⟨capacity, []⟩ :: vm.frames }
  else { vm with pending := true }

/-- `PopLocalFrame(NULL)`. -/
def popLocalFrame (vm : FrameVm) : FrameVm := { vm with frames := vm.frames.tail }

/-- A local reference is created. -/
def newLocalRef (vm : FrameVm) : FrameVm :=
  match vm.frames with
  | [] => vm
  | frame :: frames =>
      { vm with
        frames := { frame with refs := vm.nextRef :: frame.refs } :: frames
        nextRef := vm.nextRef + 1 }

/-- The reference is in a frame. -/
def Live (vm : FrameVm) (ref : ℕ) : Prop := ∃ frame ∈ vm.frames, ref ∈ frame.refs

end FrameVm

namespace ScopedLocalFrame

/-- The constructor. -/
def construct (succeeds : Bool) (vm : FrameVm) : FrameVm := vm.pushLocalFrame 128 succeeds

/-- The destructor. -/
def destructor (vm : FrameVm) : FrameVm := vm.popLocalFrame

/-- Programs in which the scopes are properly nested; `scope` says whether its push succeeds. -/
inductive Program where
  | skip
  | create
  | seq (p q : Program)
  | scope (succeeds : Bool) (body : Program)
deriving DecidableEq, Repr

/-- The VM after the program. -/
def exec : Program → FrameVm → FrameVm
  | .skip, vm => vm
  | .create, vm => vm.newLocalRef
  | .seq p q, vm => exec q (exec p vm)
  | .scope succeeds body, vm => destructor (exec body (construct succeeds vm))

/-- Each scope, when it is left, has kept the references that were live when it was entered. -/
def KeepsLive : Program → FrameVm → Prop
  | .skip, _ => True
  | .create, _ => True
  | .seq p q, vm => KeepsLive p vm ∧ KeepsLive q (exec p vm)
  | .scope succeeds body, vm => KeepsLive body (construct succeeds vm) ∧
      ∀ ref, vm.Live ref → (exec (.scope succeeds body) vm).Live ref

/-- All pushes of the program succeed. -/
def PushesAll : Program → Prop
  | .skip => True
  | .create => True
  | .seq p q => PushesAll p ∧ PushesAll q
  | .scope succeeds body => succeeds = true ∧ PushesAll body

/-! ### When all pushes succeed -/

/-- A program changes nothing but the frame it starts in, and there it only adds references. -/
theorem exec_of_pushesAll {p : Program} (hp : PushesAll p) {vm : FrameVm} {frame : LocalFrame}
    {frames : List LocalFrame} (hvm : vm.frames = frame :: frames) :
    ∃ refs, (exec p vm).frames = { frame with refs := refs ++ frame.refs } :: frames := by
  induction p generalizing vm frame frames with
  | skip => exact ⟨[], hvm⟩
  | create =>
      refine ⟨[vm.nextRef], ?_⟩
      rw [exec, FrameVm.newLocalRef, hvm]
      rfl
  | seq p q ihp ihq =>
      obtain ⟨refs, h₁⟩ := ihp hp.1 hvm
      obtain ⟨refs', h₂⟩ := ihq hp.2 h₁
      refine ⟨refs' ++ refs, ?_⟩
      rw [exec, h₂, List.append_assoc]
  | scope succeeds body ih =>
      obtain ⟨rfl, hbody⟩ := hp
      have hpush : (construct true vm).frames = ⟨128, []⟩ :: vm.frames := rfl
      obtain ⟨refs, h⟩ := ih hbody hpush
      refine ⟨[], ?_⟩
      rw [exec, destructor, FrameVm.popLocalFrame, h, List.tail_cons, hvm]
      rfl

/-- A scope leaves the frames as they were. -/
theorem exec_scope {succeeds : Bool} {body : Program} (hp : PushesAll (.scope succeeds body))
    (vm : FrameVm) : (exec (.scope succeeds body) vm).frames = vm.frames := by
  obtain ⟨rfl, hbody⟩ := hp
  have hpush : (construct true vm).frames = ⟨128, []⟩ :: vm.frames := rfl
  obtain ⟨refs, h⟩ := exec_of_pushesAll hbody hpush
  rw [exec, destructor, FrameVm.popLocalFrame, h, List.tail_cons]

theorem keepsLive_of_pushesAll {p : Program} (hp : PushesAll p) (vm : FrameVm) :
    KeepsLive p vm := by
  induction p generalizing vm with
  | skip => trivial
  | create => trivial
  | seq p q ihp ihq => exact ⟨ihp hp.1 vm, ihq hp.2 (exec p vm)⟩
  | scope succeeds body ih =>
      refine ⟨ih hp.2 _, fun ref href => ?_⟩
      unfold FrameVm.Live at href ⊢
      rwa [exec_scope hp]

/-! ### When a push fails -/

theorem length_newLocalRef (vm : FrameVm) : vm.newLocalRef.frames.length = vm.frames.length := by
  unfold FrameVm.newLocalRef
  cases h : vm.frames with
  | nil => simp [h]
  | cons frame frames => simp

theorem length_destructor (vm : FrameVm) :
    (destructor vm).frames.length = vm.frames.length - 1 :=
  List.length_tail

theorem length_exec_le (p : Program) (vm : FrameVm) :
    (exec p vm).frames.length ≤ vm.frames.length := by
  induction p generalizing vm with
  | skip => exact Nat.le_refl _
  | create => exact Nat.le_of_eq (length_newLocalRef vm)
  | seq p q ihp ihq => exact Nat.le_trans (ihq (exec p vm)) (ihp vm)
  | scope succeeds body ih =>
      have hbody := ih (construct succeeds vm)
      rw [exec, length_destructor]
      cases succeeds with
      | false =>
          have hpush : (construct false vm).frames.length = vm.frames.length := rfl
          omega
      | true =>
          have hpush : (construct true vm).frames.length = vm.frames.length + 1 := rfl
          omega

/-- A program in which a push fails pops a frame that it has not pushed. -/
theorem length_exec_lt {p : Program} (hp : ¬ PushesAll p) {vm : FrameVm}
    (hvm : 0 < vm.frames.length) : (exec p vm).frames.length < vm.frames.length := by
  induction p generalizing vm with
  | skip => exact absurd trivial hp
  | create => exact absurd trivial hp
  | seq p q ihp ihq =>
      have hple := length_exec_le p vm
      have hqle := length_exec_le q (exec p vm)
      rw [exec]
      by_cases h : PushesAll p
      · have hq : ¬ PushesAll q := fun hq => hp ⟨h, hq⟩
        rcases Nat.eq_zero_or_pos (exec p vm).frames.length with h0 | hpos
        · omega
        · have := ihq hq hpos
          omega
      · have := ihp h hvm
        omega
  | scope succeeds body ih =>
      have hle := length_exec_le body (construct succeeds vm)
      rw [exec, length_destructor]
      cases succeeds with
      | false =>
          have hpush : (construct false vm).frames.length = vm.frames.length := rfl
          omega
      | true =>
          have hpush : (construct true vm).frames.length = vm.frames.length + 1 := rfl
          have hbody : ¬ PushesAll body := fun hbody => hp ⟨rfl, hbody⟩
          have := ih hbody (show 0 < (construct true vm).frames.length by omega)
          omega

/-- **The frames are those at entry, and each scope has kept what was live before it, if and only
if all pushes succeed.**  At entry there is a frame, that of the native method. -/
theorem scopedLocalFrame_balanced_iff (succeeds : Bool) (body : Program) (frame : LocalFrame)
    (frames : List LocalFrame) (nextRef : ℕ) (pending : Bool) :
    ((exec (.scope succeeds body) ⟨frame :: frames, nextRef, pending⟩).frames = frame :: frames ∧
        KeepsLive (.scope succeeds body) ⟨frame :: frames, nextRef, pending⟩) ↔
      PushesAll (.scope succeeds body) := by
  constructor
  · rintro ⟨hframes, -⟩
    by_contra hp
    have hpos : 0 < (⟨frame :: frames, nextRef, pending⟩ : FrameVm).frames.length :=
      Nat.succ_pos _
    have := length_exec_lt hp hpos
    rw [hframes] at this
    exact absurd this (Nat.lt_irrefl _)
  · exact fun hp => ⟨exec_scope hp _, keepsLive_of_pushesAll hp _⟩

/-- An outer scope in which a reference is created and an inner scope fails to push: the inner one
pops the frame of the outer one, which then pops that of the caller. -/
theorem scopedLocalFrame_pops_caller :
    (exec (.scope true (.seq .create (.scope false .skip))) ⟨[⟨16, [0]⟩], 1, false⟩) =
        ⟨[], 2, true⟩ ∧
      ¬ KeepsLive (.scope true (.seq .create (.scope false .skip))) ⟨[⟨16, [0]⟩], 1, false⟩ := by
  refine ⟨by decide, ?_⟩
  rintro ⟨-, hkeep⟩
  obtain ⟨frame, hframe, -⟩ :=
    hkeep 0 ⟨⟨16, [0]⟩, List.mem_singleton_self _, List.mem_singleton_self _⟩
  exact absurd hframe List.not_mem_nil

end ScopedLocalFrame
end NativeHelper
