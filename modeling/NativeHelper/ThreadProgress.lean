import NativeHelper.ThreadMoves

/-! # Progress of the getters

The threads of `ConstantGetters` share one mutex.  `EnsureClassReferencesInitialized` and
`Uninitialize` take it; the getters of ids do without while they look for their id, because such a
lookup may run Java code that calls getters again.  `FindClass` and `NewGlobalRef` are called under
the mutex, and the results here rest on their running no such code.

Whatever is called then and whatever the lookups answer, a thread holds the mutex if and only if it
is in the critical part of a call, no id is looked for there, and a thread that cannot go on waits
for one that can (`threads_progress`).  Every call is over after at most twenty steps, so a run that
goes on as long as some thread can move ends; if `Uninitialize` is not called and all lookups are
answered, it ends with all calls returned (`threads_terminate`). -/

namespace NativeHelper
namespace JniConstants

/-! ### The mutex -/

/-- Between taking the mutex and giving it back. -/
def ClassPc.Critical : ClassPc → Prop
  | .slowCheck | .findClass _ | .storeClass _ _ | .storeInitialized | .unlock => True
  | .fastCheck | .lock | .loadClass => False

def UninitializePc.Critical : UninitializePc → Prop
  | .lock => False
  | .store _ => True

def Place.Critical : Place → Prop
  | .getting _ pc => pc.Critical
  | .clearing pc => pc.Critical
  | .elsewhere => False

section mutex
variable {T : Type}

/-- The thread `t` holds the mutex exactly in the critical part of its innermost call; the calls
below that one wait for lookups. -/
def MutexKnown (t : T) (s : Shared T) (stack : List Frame) : Prop :=
  (s.owner = some t ↔ (placeOf stack).Critical) ∧ ∀ f ∈ stack.tail, f.place = .elsewhere

/-- The thread `u` neither gets nor loses the mutex. -/
def SameHolder (u : T) (s s' : Shared T) : Prop := s'.owner = some u ↔ s.owner = some u

/-- A step of the thread `t` after which it holds the mutex if and only if `P`. -/
structure MutexStep (t : T) (s s' : Shared T) (P : Prop) : Prop where
  holds : s'.owner = some t ↔ P
  others : ∀ u, u ≠ t → SameHolder u s s'

variable {t : T} {l : Lookups} {s s' : Shared T}

theorem MutexStep.of_eq {P Q : Prop} (ho : s'.owner = s.owner) (h : s.owner = some t ↔ P)
    (hPQ : P ↔ Q) : MutexStep t s s' Q :=
  ⟨by rw [ho, h, hPQ], fun u _ => by rw [SameHolder, ho]⟩

theorem MutexStep.locks (ho : s.owner = none) (ho' : s'.owner = some t) :
    MutexStep t s s' True :=
  ⟨iff_of_true ho' trivial, fun u hu => by simp [SameHolder, ho, ho', Ne.symm hu]⟩

theorem MutexStep.unlocks (ho : s.owner = some t) (ho' : s'.owner = none) :
    MutexStep t s s' False :=
  ⟨by simp [ho'], fun u hu => by simp [SameHolder, ho, ho', Ne.symm hu]⟩

/-- An operation on the globals leaves the mutex alone. -/
theorem exec_owner {α : Type} {x : ConstM α} {r : α × Shared T} (h : s.exec x = some r) :
    r.2.owner = s.owner := by
  obtain ⟨_, _, rfl⟩ := exec_eq_some h
  rfl

/-- Whether the getter of a class is in its critical part after the step. -/
def NextCritical : Next ClassPc JClass → Prop
  | .goto pc => pc.Critical
  | .returns _ => False

theorem classStep_mutex {g : ClassGlobal} {pc : ClassPc} {next : Next ClassPc JClass}
    (ho : s.owner = some t ↔ pc.Critical) (h : classStep t l s g pc = some (s', next)) :
    MutexStep t s s' (NextCritical next) := by
  cases classStep_move h with
  | seenSet | seenUnset | stillUnset | loadClass => exact .of_eq rfl ho Iff.rfl
  | stillSet => exact .of_eq rfl ho Iff.rfl
  | storeInitialized => exact .of_eq rfl ho Iff.rfl
  | findClass hr => exact .of_eq (exec_owner hr) ho Iff.rfl
  | @storeClass c _ _ hr =>
      refine .of_eq (exec_owner hr) ho (iff_of_true trivial ?_)
      cases c <;> trivial
  | lock hfree => exact .locks hfree rfl
  | unlock => exact .unlocks (ho.mpr trivial) rfl

theorem uninitializeStep_mutex {pc : UninitializePc} {next : Option UninitializePc}
    (ho : s.owner = some t ↔ pc.Critical) (h : uninitializeStep t s pc = some (s', next)) :
    MutexStep t s s' (∃ pc' ∈ next, pc'.Critical) := by
  cases uninitializeStep_move h with
  | lock hfree =>
      have hstep : MutexStep t s { s with owner := some t } True := .locks hfree rfl
      exact ⟨by simp [UninitializePc.Critical], hstep.others⟩
  | store _ hr => exact .of_eq (exec_owner hr) ho (by simp [UninitializePc.Critical])
  | unlock =>
      have hstep : MutexStep t s { s with owner := none } False := .unlocks (ho.mpr trivial) rfl
      exact ⟨by simp, hstep.others⟩

/-- A call that has moved on its thread's stack. -/
theorem MutexStep.known {next : Option Frame} {rest : List Frame}
    (h : MutexStep t s s' (∃ frame ∈ next, frame.place.Critical))
    (hrest : ∀ f ∈ rest, f.place = .elsewhere) :
    MutexKnown t s' (next.toList ++ rest) ∧ ∀ u, u ≠ t → SameHolder u s s' := by
  refine ⟨⟨?_, fun f hf => hrest f ?_⟩, h.others⟩
  · rw [h.holds]
    cases next with
    | some frame => simp [placeOf]
    | none => cases rest with
      | nil => simp [placeOf, Place.Critical]
      | cons f rest => simp [placeOf, hrest f List.mem_cons_self, Place.Critical]
  · cases next with
    | some frame => exact hf
    | none => exact List.mem_of_mem_tail hf

/-- **One step of a thread**, with any call and any answers. -/
theorem threadStep_mutex {a : ThreadAction} {stack stack' : List Frame}
    (hk : MutexKnown t s stack) (h : threadStep t a s stack = some (s', stack')) :
    MutexKnown t s' stack' ∧ ∀ u, u ≠ t → SameHolder u s s' := by
  obtain ⟨ho, hrest⟩ := hk
  cases threadStep_move h with
  | @calls _ frame hs hm hp hn =>
      subst hs
      have helse := placeOf_mayCall hm
      rw [helse] at ho
      have hnot : ¬ frame.place.Critical := by
        rcases hp with hp | ⟨g, hp⟩ | hp <;> rw [hp] <;> exact id
      refine ⟨⟨ho.trans (iff_of_false id hnot), fun f hf => ?_⟩, fun u _ => Iff.rfl⟩
      cases stack with
      | nil => cases hf
      | cons frame₀ rest =>
          rcases List.mem_cons.mp hf with rfl | hf
          · exact helse
          · exact hrest f hf
  | @moves l frame rest next he hm =>
      subst he
      refine MutexStep.known ?_ hrest
      cases hm with
      | getting hp hc hp' hn =>
          have hcrit : s.owner = some t ↔ _ := ho.trans (by rw [placeOf, hp])
          have hstep := classStep_mutex hcrit hc
          refine ⟨hstep.holds.trans ?_, hstep.others⟩
          simp [hp', NextCritical, Place.Critical]
      | got hp hc hs hn =>
          have hcrit : s.owner = some t ↔ _ := ho.trans (by rw [placeOf, hp])
          have hstep := classStep_mutex hcrit hc
          subst hs
          refine ⟨hstep.holds.trans (iff_of_false id ?_), hstep.others⟩
          rintro ⟨frame', hmem, hc'⟩
          rw [(hn frame' hmem).1] at hc'
          exact hc'
      | clearing hp hc =>
          have hcrit : s.owner = some t ↔ _ := ho.trans (by rw [placeOf, hp])
          have hstep := uninitializeStep_mutex hcrit hc
          refine ⟨hstep.holds.trans ?_, hstep.others⟩
          simp [Frame.place, Place.Critical]
      | elsewhere hp hs hr hn =>
          rw [placeOf, hp] at ho
          refine .of_eq hs.owner ho (iff_of_false id ?_)
          rintro ⟨frame', hmem, hc'⟩
          rcases (hn frame' hmem).1 with hp' | ⟨g, hp'⟩ <;> rw [hp'] at hc' <;> exact hc'

theorem mutex_outline : Interleaving.Outline (threadStep (T := T)) (fun _ _ => True) (fun _ => True)
    MutexKnown SameHolder where
  step _ _ _ _ _ _ _ _ hk h :=
    let ⟨hk', hr⟩ := threadStep_mutex hk h
    ⟨trivial, hk', hr⟩
  stable _ _ _ _ _ _ hr hk := ⟨Iff.trans hr hk.1, hk.2⟩

theorem start_mutex (vm : ℕ) :
    Interleaving.Outline.Holds (fun _ => True) MutexKnown (Threads.start T vm) := by
  refine ⟨trivial, fun t => ⟨iff_of_false ?_ id, fun f hf => ?_⟩⟩
  · rintro ⟨⟩
  · cases hf

end mutex

/-! ### Waiting -/

section waiting
variable {T : Type} {t : T} {s : Shared T}

/-- The call can go on if its lookups are answered. -/
def GoesOn (t : T) (s : Shared T) (frame : Frame) : Prop :=
  (frameStep t answered s frame).isSome = true

/-- The call is in front of the mutex. -/
def Place.AtLock : Place → Prop
  | .getting _ pc => pc = .lock
  | .clearing pc => pc = .lock
  | .elsewhere => False

theorem answered_succeed : answered.Succeed := by simp [Lookups.Succeed, answered]

/-- The getter of a class goes on unless it has to wait for the mutex. -/
theorem classStep_isSome (g : ClassGlobal) {pc : ClassPc} (h : pc = .lock → s.owner = none) :
    (classStep t answered s g pc).isSome = true := by
  cases pc with
  | lock => simp [classStep, h rfl]
  | findClass c => simp [classStep, exec_findClass answered_succeed]
  | storeClass c klass => simp [classStep, Shared.exec, setClass]
  | storeInitialized => simp [classStep, Shared.exec, setInitialized]
  | fastCheck | slowCheck | unlock | loadClass => rfl

/-- Every store completes. -/
theorem uninitializeStores_exec {x : ConstM Unit} (hx : x ∈ uninitializeStores) :
    (s.exec x).isSome = true := by
  simp only [uninitializeStores, List.mem_cons, List.not_mem_nil, or_false] at hx
  rcases hx with rfl | rfl | rfl | rfl | rfl | rfl | rfl | rfl | rfl | rfl | rfl | rfl | rfl | rfl |
    rfl | rfl | rfl | rfl <;> rfl

theorem uninitializeStep_isSome {pc : UninitializePc} (h : pc = .lock → s.owner = none) :
    (uninitializeStep t s pc).isSome = true := by
  cases pc with
  | lock => simp [uninitializeStep, h rfl]
  | store i =>
      cases hx : uninitializeStores[i]? with
      | none => simp [uninitializeStep, hx]
      | some x =>
          have hexec := uninitializeStores_exec (s := s) (List.mem_of_getElem? hx)
          simp [uninitializeStep, hx, hexec]

/-- What is particular to the getter of a field or a method completes in a class that is there. -/
structure IdGetter.Completes {Id : Type} (getter : IdGetter Id) : Prop where
  find : ∀ klass (s : Shared T), (s.exec (getter.find answered (some klass))).isSome = true
  store : ∀ id (s : Shared T), (s.exec (getter.store id)).isSome = true

theorem FieldGlobal.completes (g : FieldGlobal) : (FieldGlobal.code g).Completes (T := T) :=
  ⟨fun _ _ => rfl, fun _ _ => rfl⟩

theorem MethodGlobal.completes (g : MethodGlobal) : (MethodGlobal.code g).Completes (T := T) :=
  ⟨fun _ _ => by cases g <;> rfl, fun _ _ => rfl⟩

theorem idStep_isSome {Id : Type} {getter : IdGetter Id} (hg : getter.Completes (T := T))
    {pc : IdPc Id} (hlock : (pc.place getter.clazz).AtLock → s.owner = none)
    (hnull : ¬ pc.AsksNull) : (idStep t answered s getter pc).isSome = true := by
  cases pc with
  | check | load => rfl
  | getClass pc =>
      rw [idStep, Option.isSome_map]
      exact classStep_isSome _ hlock
  | find klass =>
      cases klass with
      | none => exact absurd rfl hnull
      | some klass =>
          rw [idStep, Option.isSome_map]
          exact hg.find klass s
  | store id =>
      rw [idStep, Option.isSome_map]
      exact hg.store id s

/-- **A call goes on** unless it has to wait for the mutex or asks in a null class. -/
theorem frame_goesOn {frame : Frame} (hlock : frame.place.AtLock → s.owner = none)
    (hnull : ¬ frame.AsksNull) : GoesOn t s frame := by
  cases frame with
  | classGetter g pc =>
      rw [GoesOn, frameStep, Option.isSome_map]
      exact classStep_isSome _ hlock
  | fieldGetter g pc =>
      rw [GoesOn, frameStep, Option.isSome_map]
      exact idStep_isSome g.completes hlock hnull
  | methodGetter g pc =>
      rw [GoesOn, frameStep, Option.isSome_map]
      exact idStep_isSome g.completes hlock hnull
  | uninitializing pc =>
      rw [GoesOn, frameStep, Option.isSome_map]
      exact uninitializeStep_isSome hlock

/-- A call in its critical part is not in front of the mutex, and asks for nothing. -/
theorem not_atLock_of_critical {place : Place} (h : place.Critical) : ¬ place.AtLock := by
  cases place with
  | elsewhere => exact h.elim
  | clearing pc =>
      rintro rfl
      exact h
  | getting g pc =>
      rintro rfl
      exact h

theorem not_asksNull_of_critical {frame : Frame} (h : frame.place.Critical) : ¬ frame.AsksNull := by
  cases frame with
  | classGetter g pc | uninitializing pc => exact id
  | fieldGetter g pc | methodGetter g pc => cases pc <;> first | exact id | exact h.elim

/-- No id is looked for in the critical part. -/
theorem mayCall_of_critical {stack : List Frame} (h : (placeOf stack).Critical) :
    mayCall stack = false := by
  cases hm : mayCall stack with
  | false => rfl
  | true =>
      rw [placeOf_mayCall hm] at h
      exact h.elim

end waiting

/-! ### All threads -/

section progress
variable {T : Type} [DecidableEq T]

/-- The thread can take a step in its innermost call. -/
def Threads.CanAdvance (c : Threads T) (t : T) : Prop :=
  ∃ l c', Interleaving.step threadStep c (t, .advance l) = some c'

/-- The thread is about to look for an id in a null class, which stops it. -/
def Threads.AsksNull (c : Threads T) (t : T) : Prop :=
  ∃ frame rest, c.locals t = frame :: rest ∧ frame.AsksNull

/-- The threads do not get in each other's way. -/
structure Threads.Live (c : Threads T) : Prop where
  holds : ∀ t, c.shared.owner = some t ↔ (placeOf (c.locals t)).Critical
  exclusive : ∀ t u, (placeOf (c.locals t)).Critical → (placeOf (c.locals u)).Critical → t = u
  /-- The holder of the mutex is in no lookup of an id, in which Java code may call getters. -/
  undisturbed : ∀ t, (placeOf (c.locals t)).Critical → mayCall (c.locals t) = false
  goesOn : ∀ t, c.locals t ≠ [] → c.AsksNull t ∨ c.CanAdvance t ∨
    ∃ u, u ≠ t ∧ (placeOf (c.locals u)).Critical ∧ c.CanAdvance u

variable {c : Threads T} {t : T}

theorem canAdvance_of_goesOn {frame : Frame} {rest : List Frame}
    (he : c.locals t = frame :: rest) (h : GoesOn t c.shared frame) : c.CanAdvance t := by
  obtain ⟨r, hr⟩ := Option.isSome_iff_exists.mp h
  have hstep : threadStep t (.advance answered) c.shared (c.locals t) =
      some (r.1, r.2.toList ++ rest) := by
    rw [he, threadStep, hr]
    rfl
  exact ⟨answered, _, by rw [Interleaving.step, hstep]; rfl⟩

/-- A thread that locks the mutex that it holds does not go on; a getter called from `FindClass`
could come to that. -/
theorem not_canAdvance_of_locksTwice (h : c.LocksTwice t) : ¬ c.CanAdvance t := by
  rintro ⟨l, c', hst⟩
  obtain ⟨ho, rest, hlock⟩ := h
  obtain ⟨r, hr, -⟩ := Option.map_eq_some_iff.mp hst
  rcases hlock with ⟨g, e⟩ | ⟨g, e⟩ | ⟨g, e⟩ | e
  all_goals
    rw [e] at hr
    simp [threadStep, frameStep, classStep, idStep, uninitializeStep, ho] at hr

/-- The holder of the mutex can always go on. -/
theorem canAdvance_of_critical (h : (placeOf (c.locals t)).Critical) : c.CanAdvance t := by
  cases he : c.locals t with
  | nil =>
      rw [he] at h
      exact h.elim
  | cons frame rest =>
      rw [he] at h
      exact canAdvance_of_goesOn he (frame_goesOn (fun hl => absurd hl (not_atLock_of_critical h))
        (not_asksNull_of_critical h))

theorem live_of_mutex (h : Interleaving.Outline.Holds (fun _ => True) MutexKnown c) : c.Live := by
  have hk := h.2
  refine ⟨fun t => (hk t).1, fun t u ht hu => ?_, fun t => mayCall_of_critical, fun t hne => ?_⟩
  · have hot := (hk t).1.mpr ht
    have hou := (hk u).1.mpr hu
    exact Option.some.inj (hot.symm.trans hou)
  · obtain ⟨frame, rest, he⟩ := List.exists_cons_of_ne_nil hne
    by_cases hnull : frame.AsksNull
    · exact .inl ⟨frame, rest, he, hnull⟩
    refine .inr ?_
    by_cases hlock : frame.place.AtLock → c.shared.owner = none
    · exact .inl (canAdvance_of_goesOn he (frame_goesOn hlock hnull))
    · -- the thread waits, so somebody else holds the mutex
      obtain ⟨hat, howned⟩ := Classical.not_imp.mp hlock
      obtain ⟨u, hu⟩ := Option.ne_none_iff_exists'.mp howned
      have hcrit := (hk u).1.mp hu
      refine .inr ⟨u, ?_, hcrit, canAdvance_of_critical hcrit⟩
      rintro rfl
      rw [he] at hcrit
      exact not_atLock_of_critical hcrit hat

/-- **No deadlock**: in every state of every interleaving, with `Uninitialize` and with lookups that
fail, the mutex excludes, its holder looks for no id, and who cannot go on waits for a thread that
can.  That `FindClass` and `NewGlobalRef` call no getters is in `mayCall`. -/
theorem threads_progress (vm : ℕ) (as : List (T × ThreadAction)) :
    Transition.EveryState (Interleaving.step threadStep) Threads.Live (Threads.start T vm) as :=
  (mutex_outline.everyState (start_mutex vm) (.of_forall fun _ _ => trivial)).imp fun _ =>
    live_of_mutex

end progress

/-! ### How long a call takes -/

/-- The steps that a getter of a class has in front of it, at most. -/
def ClassPc.work : ClassPc → ℕ
  | .fastCheck => 16
  | .lock => 15
  | .slowCheck => 14
  | .findClass c => 13 - 2 * c.index
  | .storeClass c _ => 12 - 2 * c.index
  | .storeInitialized => 3
  | .unlock => 2
  | .loadClass => 1

def IdPc.work {Id : Type} : IdPc Id → ℕ
  | .check => 20
  | .getClass pc => pc.work + 3
  | .find _ => 3
  | .store _ => 2
  | .load => 1

def UninitializePc.work : UninitializePc → ℕ
  | .lock => 20
  | .store i => 19 - min i 18

def Frame.work : Frame → ℕ
  | .classGetter _ pc => pc.work
  | .fieldGetter _ pc => pc.work
  | .methodGetter _ pc => pc.work
  | .uninitializing pc => pc.work

/-- The steps that the calls of a thread have in front of them. -/
def stackWork : List Frame → ℕ
  | [] => 0
  | frame :: rest => frame.work + stackWork rest

/-- A step within a call, and not the start of one. -/
def ThreadAction.isAdvance : ThreadAction → Bool
  | .advance _ => true
  | _ => false

section work
variable {T : Type} {t : T} {l : Lookups} {s s' : Shared T}

def NextWork : Next ClassPc JClass → ℕ
  | .goto pc => pc.work
  | .returns _ => 0

theorem classStep_work {g : ClassGlobal} {pc : ClassPc} {next : Next ClassPc JClass}
    (h : classStep t l s g pc = some (s', next)) : NextWork next + 1 ≤ pc.work := by
  cases classStep_move h with
  | seenSet | seenUnset | lock | stillSet | stillUnset => decide
  | storeInitialized | unlock | loadClass => exact Nat.le_refl _
  | @findClass c r hr =>
      have hlt := c.index_lt
      simp only [NextWork, ClassPc.work]
      omega
  | @storeClass c klass r hr => cases c <;> exact Nat.le_refl _

theorem idStep_work {Id : Type} {getter : IdGetter Id} {pc : IdPc Id} {next : Option (IdPc Id)}
    (h : idStep t l s getter pc = some (s', next)) : (next.elim 0 IdPc.work) + 1 ≤ pc.work := by
  cases pc with
  | check =>
      obtain ⟨rfl, rfl⟩ := Prod.mk.inj (Option.some.inj h)
      split_ifs <;> simp [IdPc.work, ClassPc.work]
  | getClass pc =>
      rw [idStep] at h
      obtain ⟨⟨s₁, next₁⟩, hc, e⟩ := Option.map_eq_some_iff.mp h
      have hw := classStep_work hc
      cases next₁ with
      | goto pc' =>
          obtain ⟨rfl, rfl⟩ := Prod.mk.inj e
          simp only [NextWork] at hw
          simp only [Option.elim, IdPc.work]
          omega
      | returns klass =>
          obtain ⟨rfl, rfl⟩ := Prod.mk.inj e
          simp only [Option.elim, IdPc.work]
          omega
  | find klass =>
      rw [idStep] at h
      obtain ⟨r, _, rfl, rfl⟩ := eq_some_of_map h
      exact Nat.le_refl _
  | store id =>
      rw [idStep] at h
      obtain ⟨r, _, rfl, rfl⟩ := eq_some_of_map h
      exact Nat.le_refl _
  | load =>
      obtain ⟨rfl, rfl⟩ := Prod.mk.inj (Option.some.inj h)
      exact Nat.le_refl _

theorem uninitializeStep_work {pc : UninitializePc} {next : Option UninitializePc}
    (h : uninitializeStep t s pc = some (s', next)) :
    (next.elim 0 UninitializePc.work) + 1 ≤ pc.work := by
  cases uninitializeStep_move h with
  | lock => decide
  | @store i x r hx hr =>
      have hlt : i < 18 := (List.getElem?_eq_some_iff.mp hx).1
      simp only [Option.elim, UninitializePc.work]
      omega
  | @unlock i hi =>
      simp only [Option.elim, UninitializePc.work]
      omega

theorem frameStep_work {frame : Frame} {next : Option Frame}
    (h : frameStep t l s frame = some (s', next)) : (next.elim 0 Frame.work) + 1 ≤ frame.work := by
  cases frame with
  | classGetter g pc =>
      obtain ⟨⟨s₁, next₁⟩, hc, e⟩ := Option.map_eq_some_iff.mp h
      have hw := classStep_work hc
      cases next₁ with
      | goto pc' =>
          obtain ⟨rfl, rfl⟩ := Prod.mk.inj e
          exact hw
      | returns klass =>
          obtain ⟨rfl, rfl⟩ := Prod.mk.inj e
          exact hw
  | fieldGetter g pc =>
      obtain ⟨⟨s₁, next₁⟩, hc, rfl, rfl⟩ := eq_some_of_map h
      cases next₁ <;> exact idStep_work hc
  | methodGetter g pc =>
      obtain ⟨⟨s₁, next₁⟩, hc, rfl, rfl⟩ := eq_some_of_map h
      cases next₁ <;> exact idStep_work hc
  | uninitializing pc =>
      obtain ⟨⟨s₁, next₁⟩, hc, rfl, rfl⟩ := eq_some_of_map h
      cases next₁ <;> exact uninitializeStep_work hc

/-- **One step** takes something of the work of its thread, and a call adds twenty steps at most. -/
theorem threadStep_work {a : ThreadAction} {stack stack' : List Frame}
    (h : threadStep t a s stack = some (s', stack')) :
    stackWork stack' + (if a.isAdvance = true then 1 else 0) ≤
      stackWork stack + if (!a.isAdvance) = true then 20 else 0 := by
  cases a with
  | call g =>
      rw [threadStep] at h
      split_ifs at h
      obtain ⟨rfl, rfl⟩ := Prod.mk.inj (Option.some.inj h)
      have hw : g.frame.work ≤ 20 := by cases g <;> exact Nat.le_of_ble_eq_true rfl
      simp only [stackWork, ThreadAction.isAdvance]
      simp
      omega
  | uninitializeCall =>
      rw [threadStep] at h
      split_ifs at h
      obtain ⟨rfl, rfl⟩ := Prod.mk.inj (Option.some.inj h)
      have hw : (Frame.uninitializing .lock).work = 20 := rfl
      simp only [stackWork, ThreadAction.isAdvance]
      simp
      omega
  | advance l =>
      cases stack with
      | nil => cases h
      | cons frame rest =>
          obtain ⟨⟨s₁, next⟩, hf, rfl, rfl⟩ := eq_some_of_map h
          have hw := frameStep_work hf
          cases next with
          | none =>
              simp [stackWork, ThreadAction.isAdvance] at hw ⊢
              omega
          | some frame' =>
              simp [stackWork, ThreadAction.isAdvance] at hw ⊢
              omega

end work

section terminate
variable {T : Type} [DecidableEq T]

/-- A thread that has calls left when nobody can go on asks in a null class. -/
theorem Threads.Live.stuck {c : Threads T} (h : c.Live) (hstop : ∀ t, ¬ c.CanAdvance t) (t : T) :
    c.locals t = [] ∨ c.AsksNull t := by
  by_cases he : c.locals t = []
  · exact .inl he
  rcases h.goesOn t he with hnull | hgo | ⟨u, _, _, hgo⟩
  · exact .inr hnull
  · exact absurd hgo (hstop t)
  · exact absurd hgo (hstop u)

theorem plain_of {a : ThreadAction} (hcall : a ≠ .uninitializeCall)
    (hlookups : ∀ l, a = .advance l → l.Succeed) : a.Plain := by
  cases a with
  | call g => trivial
  | uninitializeCall => exact hcall rfl
  | advance l => exact hlookups l rfl

omit [DecidableEq T] in
/-- With plain calls nobody does. -/
theorem not_asksNull_of_ok {vm : ℕ} {c : Threads T} {t : T}
    (h : StackOk vm t c.shared (c.locals t)) : ¬ c.AsksNull t := by
  rintro ⟨frame, rest, he, hnull⟩
  rw [he] at h
  have hok := h.1
  cases frame with
  | classGetter g pc | uninitializing pc => exact hnull
  | fieldGetter g pc | methodGetter g pc => cases pc with
    | find klass =>
        obtain rfl : klass = none := hnull
        exact absurd hok.2 (Option.some_ne_none _).symm
    | check | getClass pc | store id | load => exact hnull

/-- **Every call is over after at most twenty steps**, so a run goes on for at most twenty steps for
each call; when no thread can go on, each is done or is stopped in a null class, and all are done if
`Uninitialize` was not called and the lookups were answered. -/
theorem threads_terminate (vm : ℕ) (as : List (T × ThreadAction)) (c : Threads T)
    (hr : Transition.run (Interleaving.step threadStep) (Threads.start T vm) as = some c) :
    (∀ t, Interleaving.countOf t ThreadAction.isAdvance as ≤
      20 * Interleaving.countOf t (fun a => !a.isAdvance) as) ∧
    ((∀ t, ¬ c.CanAdvance t) → (∀ t, c.locals t = [] ∨ c.AsksNull t) ∧
      ((∀ a ∈ as, a.2 ≠ .uninitializeCall) → (∀ a ∈ as, ∀ l, a.2 = .advance l → l.Succeed) →
        ∀ t, c.locals t = [])) := by
  refine ⟨fun t => ?_, fun hstop => ?_⟩
  · have hle := Interleaving.countOf_le (μ := stackWork) (p := ThreadAction.isAdvance) (k := 20)
      (fun _ _ _ _ _ _ h => threadStep_work h) t hr
    have hzero : stackWork ((Threads.start T vm).locals t) = 0 := rfl
    omega
  · have hlive := (threads_progress vm as).last hr
    refine ⟨hlive.stuck hstop, fun hcalls hlookups t => ?_⟩
    have has : ∀ a ∈ as, a.2.Plain := fun a ha => plain_of (hcalls a ha) (hlookups a ha)
    have hok := ((threads_outline.everyState (start_holds vm) (.of_forall has)).last hr).2 t
    exact (hlive.stuck hstop t).resolve_right (not_asksNull_of_ok hok)

/-- Two calls, nineteen steps. -/
theorem threads_terminate_two :
    ∃ c, Transition.run (Interleaving.step threadStep) (Threads.start Bool 0) twoThreads = some c ∧
      Interleaving.countOf true ThreadAction.isAdvance twoThreads ≤ 20 := by
  have hrun : (Transition.run (Interleaving.step threadStep) (Threads.start Bool 0)
      twoThreads).isSome = true := by decide +kernel
  obtain ⟨c, hc⟩ := Option.isSome_iff_exists.mp hrun
  exact ⟨c, hc, (threads_terminate 0 twoThreads c hc).1 true⟩

end terminate

end JniConstants
end NativeHelper
