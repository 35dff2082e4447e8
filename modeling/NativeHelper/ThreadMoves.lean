import NativeHelper.ConstantThreads

/-! # The moves of a thread

What one step of a thread can do to the classes of `JniConstants` and to the mutex in front of them,
whether the lookups are answered or not and with `Uninitialize` among the calls.  For the classes the
getters of fields and methods are getters of classes with something around them, so there are four
kinds of steps (`FrameMove`), which `Frame.place` tells apart. -/

namespace NativeHelper
namespace JniConstants

/-! ### Where a thread is -/

/-- The place of a thread in its innermost call. -/
inductive Place where
  /-- In the getter of a class. -/
  | getting (g : ClassGlobal) (pc : ClassPc)
  | clearing (pc : UninitializePc)
  /-- In no call, or in the part of a getter that does not touch the classes. -/
  | elsewhere
deriving DecidableEq, Repr

/-- The place of a getter of a field or a method of the class `g`. -/
def IdPc.place {Id : Type} (g : ClassGlobal) : IdPc Id → Place
  | .getClass pc => .getting g pc
  | _ => .elsewhere

def Frame.place : Frame → Place
  | .classGetter g pc => .getting g pc
  | .fieldGetter g pc => pc.place g.clazz
  | .methodGetter g pc => pc.place g.clazz
  | .uninitializing pc => .clearing pc

def placeOf : List Frame → Place
  | [] => .elsewhere
  | frame :: _ => frame.place

/-- The getter is about to look for its id in a null class. -/
def IdPc.AsksNull {Id : Type} : IdPc Id → Prop
  | .find klass => klass = none
  | _ => False

def Frame.AsksNull : Frame → Prop
  | .fieldGetter _ pc => pc.AsksNull
  | .methodGetter _ pc => pc.AsksNull
  | _ => False

/-- The mutex, the flag and the classes are as they were. -/
structure SameClasses {T : Type} (s s' : Shared T) : Prop where
  owner : s'.owner = s.owner
  classes : s'.globals.classes = s.globals.classes
  initialized : s'.globals.classRefsInitialized = s.globals.classRefsInitialized

/-! ### What a step of a thread can be -/

section moves
variable {T : Type} {t : T} {l : Lookups} {s s' : Shared T}

/-- What a step of a call can be. -/
inductive FrameMove (t : T) (l : Lookups) (s s' : Shared T) (frame : Frame) :
    Option Frame → Prop
  /-- A step within the getter of a class. -/
  | getting {g : ClassGlobal} {pc pc' : ClassPc} {frame' : Frame}
      (hp : frame.place = .getting g pc) (hc : classStep t l s g pc = some (s', .goto pc'))
      (hp' : frame'.place = .getting g pc') (hn : ¬ frame'.AsksNull) :
      FrameMove t l s s' frame (some frame')
  /-- The getter of a class returns. -/
  | got {g : ClassGlobal} {pc : ClassPc} {s₁ : Shared T} {klass : Option JClass}
      {next : Option Frame} (hp : frame.place = .getting g pc)
      (hc : classStep t l s g pc = some (s₁, .returns klass))
      (hs : s' = s₁.logReturn (.clazz g klass))
      (hn : ∀ frame' ∈ next, frame'.place = .elsewhere ∧ (frame'.AsksNull → klass = none)) :
      FrameMove t l s s' frame next
  | clearing {pc : UninitializePc} {next : Option UninitializePc}
      (hp : frame.place = .clearing pc) (hc : uninitializeStep t s pc = some (s', next)) :
      FrameMove t l s s' frame (next.map .uninitializing)
  /-- The classes are not touched. -/
  | elsewhere {next : Option Frame} (hp : frame.place = .elsewhere) (hs : SameClasses s s')
      (hr : ∀ g klass, .clazz g klass ∈ s'.returned → .clazz g klass ∈ s.returned)
      (hn : ∀ frame' ∈ next, (frame'.place = .elsewhere ∨
        ∃ g, frame'.place = .getting g .fastCheck) ∧ ¬ frame'.AsksNull) :
      FrameMove t l s s' frame next

theorem SameClasses.refl (s : Shared T) : SameClasses s s := ⟨rfl, rfl, rfl⟩

/-- An operation on the globals that completes changes nothing else. -/
theorem exec_eq_some {α : Type} {x : ConstM α} {r : α × Shared T} (h : s.exec x = some r) :
    ∃ r', x s.globals = .ok r' ∧ r = (r'.1, { s with globals := r'.2 }) := by
  unfold Shared.exec at h
  cases he : x s.globals with
  | error why =>
      rw [he] at h
      cases h
  | ok r' =>
      rw [he] at h
      exact ⟨r', rfl, (Option.some.inj h).symm⟩

/-- An operation on the globals that leaves the classes alone. -/
theorem sameClasses_of_exec {α : Type} {x : ConstM α} {r : α × Shared T}
    (hx : ∀ r, x s.globals = .ok r → r.2.classes = s.globals.classes ∧
      r.2.classRefsInitialized = s.globals.classRefsInitialized)
    (h : s.exec x = some r) : SameClasses s r.2 ∧ r.2.returned = s.returned := by
  obtain ⟨r', he, rfl⟩ := exec_eq_some h
  obtain ⟨hc, hi⟩ := hx r' he
  exact ⟨⟨rfl, hc, hi⟩, rfl⟩

/-- What is particular to the getter of a field or a method does not touch the classes. -/
structure IdGetter.LeavesClasses {Id : Type} (getter : IdGetter Id) : Prop where
  find : ∀ l klass s r, getter.find l klass s = .ok r → r.2.classes = s.classes ∧
    r.2.classRefsInitialized = s.classRefsInitialized
  store : ∀ id s r, getter.store id s = .ok r → r.2.classes = s.classes ∧
    r.2.classRefsInitialized = s.classRefsInitialized
  returned : ∀ id g klass, getter.returned id ≠ .clazz g klass

/-- The lookup of an id that completes has changed nothing. -/
theorem findField_state {klass : Option JClass} {name desc : String} {s : State}
    {r : JFieldID × State} (h : findField l klass name desc s = .ok r) : r.2 = s := by
  cases klass with
  | none => cases h
  | some klass =>
      unfold findField at h
      cases hl : l.getFieldID name desc <;> rw [hl] at h <;> cases h
      rfl

theorem findMethod_state {klass : Option JClass} {name sig : String} {s : State}
    {r : JMethodID × State} (h : findMethod l klass name sig s = .ok r) : r.2 = s := by
  cases klass with
  | none => cases h
  | some klass =>
      unfold findMethod at h
      cases hl : l.getMethodID name sig <;> rw [hl] at h <;> cases h
      rfl

theorem findStaticMethod_state {klass : Option JClass} {name sig : String} {s : State}
    {r : JMethodID × State} (h : findStaticMethod l klass name sig s = .ok r) : r.2 = s := by
  cases klass with
  | none => cases h
  | some klass =>
      unfold findStaticMethod at h
      cases hl : l.getStaticMethodID name sig <;> rw [hl] at h <;> cases h
      rfl

theorem FieldGlobal.leavesClasses (g : FieldGlobal) : g.code.LeavesClasses := by
  refine ⟨fun l klass s r h => ?_, fun id s r h => ?_, fun id g' klass h => ?_⟩
  · rw [findField_state h]
    exact ⟨rfl, rfl⟩
  · cases h
    exact ⟨rfl, rfl⟩
  · cases h

theorem MethodGlobal.leavesClasses (g : MethodGlobal) : g.code.LeavesClasses := by
  refine ⟨fun l klass s r h => ?_, fun id s r h => ?_, fun id g' klass h => ?_⟩
  · have : r.2 = s := by
      cases g with
      | nioAccessGetBaseArrayMethod | nioAccessGetBaseArrayOffsetMethod =>
          exact findStaticMethod_state h
      | fileDescriptorInitMethod | nioBufferArrayMethod => exact findMethod_state h
      | nioBufferArrayOffsetMethod | referenceGetMethod => exact findMethod_state h
    rw [this]
    exact ⟨rfl, rfl⟩
  · cases h
    exact ⟨rfl, rfl⟩
  · cases h

/-- A step of the getter of a field or a method is one of the moves. -/
theorem idStep_move {Id : Type} {getter : IdGetter Id} (hg : getter.LeavesClasses)
    {wrap : IdPc Id → Frame} (hplace : ∀ pc, (wrap pc).place = pc.place getter.clazz)
    (hnull : ∀ pc, (wrap pc).AsksNull ↔ pc.AsksNull) {pc : IdPc Id} {next : Option (IdPc Id)}
    (h : idStep t l s getter pc = some (s', next)) :
    FrameMove t l s s' (wrap pc) (next.map wrap) := by
  cases pc with
  | check =>
      obtain ⟨rfl, rfl⟩ := Prod.mk.inj (Option.some.inj h)
      refine .elsewhere (hplace _) (.refl s) (fun _ _ => id) ?_
      rintro frame' ⟨⟩
      rw [hplace, hnull]
      cases (getter.load s.globals).isNone with
      | true => exact ⟨.inr ⟨getter.clazz, rfl⟩, id⟩
      | false => exact ⟨.inl rfl, id⟩
  | getClass pc =>
      rw [idStep] at h
      obtain ⟨⟨s₁, next₁⟩, hc, e⟩ := Option.map_eq_some_iff.mp h
      cases next₁ with
      | goto pc' =>
          obtain ⟨rfl, rfl⟩ := Prod.mk.inj e
          exact .getting (hplace _) hc (hplace _) (by rw [hnull]; exact id)
      | returns klass =>
          obtain ⟨rfl, rfl⟩ := Prod.mk.inj e
          refine .got (hplace _) hc rfl ?_
          rintro frame' ⟨⟩
          rw [hplace, hnull]
          exact ⟨rfl, id⟩
  | find klass =>
      rw [idStep] at h
      obtain ⟨r, hr, rfl, rfl⟩ := eq_some_of_map h
      obtain ⟨hs, hret⟩ := sameClasses_of_exec (hg.find l klass _) hr
      refine .elsewhere (hplace _) hs (fun _ _ => by rw [hret]; exact id) ?_
      rintro frame' ⟨⟩
      rw [hplace, hnull]
      exact ⟨.inl rfl, id⟩
  | store id' =>
      rw [idStep] at h
      obtain ⟨r, hr, rfl, rfl⟩ := eq_some_of_map h
      obtain ⟨hs, hret⟩ := sameClasses_of_exec (hg.store id' _) hr
      refine .elsewhere (hplace _) hs (fun _ _ => by rw [hret]; exact id) ?_
      rintro frame' ⟨⟩
      rw [hplace, hnull]
      exact ⟨.inl rfl, id⟩
  | load =>
      obtain ⟨rfl, rfl⟩ := Prod.mk.inj (Option.some.inj h)
      refine .elsewhere (hplace _) ⟨rfl, rfl, rfl⟩ (fun g klass hmem => ?_) (by rintro _ ⟨⟩)
      rcases List.mem_append.mp hmem with hmem | hmem
      · exact hmem
      · exact absurd (List.mem_singleton.mp hmem).symm (hg.returned _ g klass)

/-- A step of a call is one of the moves. -/
theorem frameStep_move {frame : Frame} {next : Option Frame}
    (h : frameStep t l s frame = some (s', next)) : FrameMove t l s s' frame next := by
  cases frame with
  | classGetter g pc =>
      obtain ⟨⟨s₁, next₁⟩, hc, e⟩ := Option.map_eq_some_iff.mp h
      cases next₁ with
      | goto pc' =>
          obtain ⟨rfl, rfl⟩ := Prod.mk.inj e
          exact .getting rfl hc rfl id
      | returns klass =>
          obtain ⟨rfl, rfl⟩ := Prod.mk.inj e
          exact .got rfl hc rfl (by rintro _ ⟨⟩)
  | fieldGetter g pc =>
      obtain ⟨⟨s₁, next₁⟩, hc, rfl, rfl⟩ := eq_some_of_map h
      exact idStep_move g.leavesClasses (fun _ => rfl) (fun _ => Iff.rfl) hc
  | methodGetter g pc =>
      obtain ⟨⟨s₁, next₁⟩, hc, rfl, rfl⟩ := eq_some_of_map h
      exact idStep_move g.leavesClasses (fun _ => rfl) (fun _ => Iff.rfl) hc
  | uninitializing pc =>
      obtain ⟨⟨s₁, next₁⟩, hc, rfl, rfl⟩ := eq_some_of_map h
      exact .clearing rfl hc

/-- What a step of a thread can be: it calls something, or its innermost call moves. -/
inductive ThreadMove (t : T) (s s' : Shared T) (stack : List Frame) :
    ThreadAction → List Frame → Prop
  | calls {a : ThreadAction} {frame : Frame} (hs : s' = s) (hm : mayCall stack = true)
      (hp : frame.place = .elsewhere ∨ (∃ g, frame.place = .getting g .fastCheck) ∨
        frame.place = .clearing .lock) (hn : ¬ frame.AsksNull) :
      ThreadMove t s s' stack a (frame :: stack)
  | moves {l : Lookups} {frame : Frame} {rest : List Frame} {next : Option Frame}
      (he : stack = frame :: rest) (hm : FrameMove t l s s' frame next) :
      ThreadMove t s s' stack (.advance l) (next.toList ++ rest)

/-- A step of a thread is one of the moves. -/
theorem threadStep_move {a : ThreadAction} {stack stack' : List Frame}
    (h : threadStep t a s stack = some (s', stack')) : ThreadMove t s s' stack a stack' := by
  cases a with
  | call g =>
      rw [threadStep] at h
      split_ifs at h with hm
      obtain ⟨rfl, rfl⟩ := Prod.mk.inj (Option.some.inj h)
      cases g with
      | clazz g => exact .calls rfl hm (.inr (.inl ⟨g, rfl⟩)) id
      | field g => exact .calls rfl hm (.inl rfl) id
      | method g => exact .calls rfl hm (.inl rfl) id
  | uninitializeCall =>
      rw [threadStep] at h
      split_ifs at h with hm
      obtain ⟨rfl, rfl⟩ := Prod.mk.inj (Option.some.inj h)
      exact .calls rfl hm (.inr (.inr rfl)) id
  | advance l =>
      cases stack with
      | nil => cases h
      | cons frame rest =>
          obtain ⟨⟨s₁, next⟩, hf, rfl, rfl⟩ := eq_some_of_map h
          exact .moves rfl (frameStep_move hf)

/-- A thread that may call something is not in the getter of a class. -/
theorem placeOf_mayCall {stack : List Frame} (h : mayCall stack = true) :
    placeOf stack = .elsewhere := by
  cases stack with
  | nil => rfl
  | cons frame rest => cases frame with
    | classGetter g pc | uninitializing pc => cases h
    | fieldGetter g pc | methodGetter g pc => cases pc <;> first | rfl | cases h

end moves

end JniConstants
end NativeHelper
