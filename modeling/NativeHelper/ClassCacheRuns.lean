import NativeHelper.ClassCache

/-! # What the getters of classes return

A class is loaded after the mutex was given back, under a flag that was seen before.  As long as no
thread is clearing the cache at that moment (`Threads.Overlap`), the flag still vouches for the
classes, with the mutex free or not (`whole_of_initialized`), and no getter returns null.

`class_cache_whole` is about every interleaving in which each call of `NewGlobalRef` makes its
reference, `class_cache_hole` is a run in which none does. -/

namespace NativeHelper
namespace JniConstants

/-! ### What is loaded -/

/-- A thread has the mutex and clears the cache, and another one is about to load a class. -/
def Threads.Overlap {T : Type} (c : Threads T) : Prop :=
  (∃ t i, placeOf (c.locals t) = .clearing (.store i)) ∧
    ∃ u g, placeOf (c.locals u) = .getting g .loadClass

/-- No getter of a class has returned null, and no id is looked for in a null class. -/
structure Threads.NullFree {T : Type} (c : Threads T) : Prop where
  returned : ∀ g, .clazz g none ∉ c.shared.returned
  asked : ∀ t, ∀ f ∈ c.locals t, ¬ f.AsksNull

/-- A class is loaded under the flag. -/
def Threads.LoadsSet {T : Type} (c : Threads T) : Prop :=
  ∀ t g, placeOf (c.locals t) = .getting g .loadClass →
    c.shared.globals.classRefsInitialized = true

section loads
variable {T : Type} {t : T} {l : Lookups} {s s' : Shared T}

/-- While nobody clears the cache the flag vouches for it, with the mutex free or not. -/
theorem whole_of_initialized {c : Threads T}
    (hc : Interleaving.Outline.Holds Vouched StackKnown c)
    (hi : c.shared.globals.classRefsInitialized = true)
    (hclear : ∀ t i, placeOf (c.locals t) ≠ .clearing (.store i)) : Whole c.shared := by
  obtain ⟨hv, hk⟩ := hc
  cases ho : c.shared.owner with
  | none => exact hv ho hi
  | some t =>
      have hfalse : c.shared.globals.classRefsInitialized ≠ false := by
        rw [hi]
        exact Bool.noConfusion
      have hkt := (hk t).1
      cases hp : placeOf (c.locals t) with
      | elsewhere =>
          rw [hp] at hkt
          exact absurd ho hkt
      | clearing pc =>
          rw [hp] at hkt
          cases pc with
          | lock => exact absurd ho hkt
          | store i => exact absurd hp (hclear t i)
      | getting g pc =>
          rw [hp] at hkt
          cases pc with
          | fastCheck | lock | loadClass => exact absurd ho hkt
          | slowCheck => exact hkt.2 hi
          | findClass c => exact absurd hkt.2.uninitialized hfalse
          | storeClass c klass => exact absurd hkt.2.1.uninitialized hfalse
          | storeInitialized => exact absurd hkt.2.uninitialized hfalse
          | unlock => exact hkt.2.2

/-- A step in the getter of a class does not take back the flag, and it goes on to load the class
only under the flag. -/
theorem classStep_initialized {g : ClassGlobal} {pc : ClassPc} {next : Next ClassPc JClass}
    (hk : ClassKnown t s pc) (h : classStep t l s g pc = some (s', next)) :
    (s.globals.classRefsInitialized = true → s'.globals.classRefsInitialized = true) ∧
      (next = .goto .loadClass → s'.globals.classRefsInitialized = true) ∧
      s'.returned = s.returned := by
  cases classStep_move h with
  | seenSet hi => exact ⟨id, fun _ => hi, rfl⟩
  | seenUnset | lock | stillSet | stillUnset => exact ⟨id, by rintro ⟨⟩, rfl⟩
  | findClass hr =>
      obtain ⟨hs, hret⟩ := findClass_same hr
      exact ⟨fun hi => hs.initialized.trans hi, by rintro ⟨⟩, hret⟩
  | @storeClass c klass r hr =>
      obtain rfl := Option.some.inj hr
      refine ⟨id, fun hn => ?_, rfl⟩
      cases hc : c.next <;> simp [hc] at hn
  | storeInitialized => exact ⟨fun _ => rfl, fun _ => rfl, rfl⟩
  | unlock => exact ⟨id, fun _ => hk.2.1, rfl⟩
  | loadClass => exact ⟨id, by rintro ⟨⟩, rfl⟩

/-- A class is returned as it is loaded. -/
theorem classStep_returns {g : ClassGlobal} {pc : ClassPc} {klass : Option JClass}
    (h : classStep t l s g pc = some (s', .returns klass)) :
    pc = .loadClass ∧ s' = s ∧ klass = s.globals.classes g := by
  cases classStep_move h with
  | loadClass => exact ⟨rfl, rfl, rfl⟩

theorem uninitializeStep_returned {pc : UninitializePc} {next : Option UninitializePc}
    (h : uninitializeStep t s pc = some (s', next)) :
    s'.returned = s.returned ∧
      ((∀ i, pc ≠ .store i) → s'.globals.classRefsInitialized = s.globals.classRefsInitialized) := by
  cases uninitializeStep_move h with
  | lock => exact ⟨rfl, fun _ => rfl⟩
  | @store i x r _ hr =>
      obtain ⟨r', _, rfl⟩ := exec_eq_some hr
      exact ⟨rfl, fun hne => absurd rfl (hne i)⟩
  | @unlock i _ => exact ⟨rfl, fun hne => absurd rfl (hne i)⟩

section frame
variable {frame : Frame} {next : Option Frame} (h : FrameMove t l s s' frame next)
include h

/-- A thread that does not clear the cache does not take back the flag. -/
theorem FrameMove.initialized (hk : PlaceKnown t s frame.place)
    (hclear : ∀ i, frame.place ≠ .clearing (.store i))
    (hi : s.globals.classRefsInitialized = true) : s'.globals.classRefsInitialized = true := by
  cases h with
  | getting hp hc _ _ =>
      rw [hp] at hk
      exact (classStep_initialized hk hc).1 hi
  | got hp hc hs _ =>
      rw [hp] at hk
      subst hs
      exact (classStep_initialized hk hc).1 hi
  | clearing hp hc =>
      rw [hp] at hclear
      rw [(uninitializeStep_returned hc).2 fun i hpc => hclear i (congrArg _ hpc)]
      exact hi
  | elsewhere hp hs _ _ => exact hs.initialized.trans hi

/-- A thread goes on to load a class only under the flag. -/
theorem FrameMove.loadsSet (hk : PlaceKnown t s frame.place) {frame' : Frame}
    (hf : frame' ∈ next) {g : ClassGlobal} (hp' : frame'.place = .getting g .loadClass) :
    s'.globals.classRefsInitialized = true := by
  cases h with
  | getting hp hc hpn _ =>
      obtain rfl := Option.some.inj hf
      rw [hp] at hk
      refine (classStep_initialized hk hc).2.1 ?_
      rw [hpn] at hp'
      cases hp'
      rfl
  | got _ _ _ hn =>
      rw [(hn frame' hf).1] at hp'
      cases hp'
  | @clearing _ next _ _ =>
      obtain ⟨pc, _, rfl⟩ := Option.map_eq_some_iff.mp hf
      cases hp'
  | elsewhere _ _ _ hn =>
      rcases (hn frame' hf).1 with hp | ⟨g', hp⟩ <;> rw [hp] at hp' <;> cases hp'

/-- What is returned and what is asked in a whole cache is not null. -/
theorem FrameMove.nullFree (hk : PlaceKnown t s frame.place)
    (hw : ∀ g, frame.place = .getting g .loadClass → Whole s) :
    (∀ g, .clazz g none ∈ s'.returned → .clazz g none ∈ s.returned) ∧
      ∀ frame' ∈ next, ¬ frame'.AsksNull := by
  cases h with
  | getting hp hc _ hn =>
      rw [hp] at hk
      refine ⟨fun g => by rw [(classStep_initialized hk hc).2.2]; exact id, ?_⟩
      rintro _ ⟨⟩
      exact hn
  | @got g pc s₁ klass next hp hc hs hn =>
      obtain ⟨rfl, rfl, rfl⟩ := classStep_returns hc
      subst hs
      have hne := hw g hp g
      refine ⟨fun g' hmem => ?_, fun frame' hf ha => hne ((hn frame' hf).2 ha)⟩
      rcases List.mem_append.mp hmem with hmem | hmem
      · exact hmem
      · obtain ⟨rfl, hnull⟩ := Returned.clazz.inj (List.mem_singleton.mp hmem)
        exact absurd hnull.symm hne
  | @clearing _ next _ hc =>
      refine ⟨fun g => by rw [(uninitializeStep_returned hc).1]; exact id, fun frame' hf => ?_⟩
      obtain ⟨pc, _, rfl⟩ := Option.map_eq_some_iff.mp hf
      exact id
  | elsewhere _ _ hr hn => exact ⟨fun g => hr g none, fun frame' hf => (hn frame' hf).2⟩

end frame

/-- The calls below the innermost one do not load a class. -/
theorem placeOf_rest {frame : Frame} {rest : List Frame} (hk : StackKnown t s (frame :: rest)) :
    placeOf rest = .elsewhere := by
  cases rest with
  | nil => rfl
  | cons below rest => exact hk.2 below List.mem_cons_self

variable [DecidableEq T]

/-- **One step** between states in which nobody clears what somebody loads. -/
theorem step_nullFree {c c' : Threads T} {a : T × ThreadAction}
    (hc : Interleaving.Outline.Holds Vouched StackKnown c) (ho : ¬ c.Overlap)
    (hl : c.LoadsSet) (hn : c.NullFree) (h : Interleaving.step threadStep c a = some c') :
    c'.LoadsSet ∧ c'.NullFree := by
  obtain ⟨hact, hother⟩ := Interleaving.step_eq_some h
  have hmove := threadStep_move hact
  have hka := hc.2 a.1
  generalize hst : c.locals a.1 = stack at hmove hka
  generalize hst' : c'.locals a.1 = stack' at hmove
  generalize a.2 = action at hmove
  cases hmove with
  | @calls _ frame hs _ hp hnull =>
      constructor
      · intro u g hu
        rw [hs]
        by_cases hua : u = a.1
        · subst hua
          rw [hst'] at hu
          have hu' : frame.place = .getting g .loadClass := hu
          rcases hp with hp | ⟨g', hp⟩ | hp <;> rw [hp] at hu' <;> cases hu'
        · rw [hother u hua] at hu
          exact hl u g hu
      · refine ⟨fun g => by rw [hs]; exact hn.returned g, fun u f hf => ?_⟩
        by_cases hua : u = a.1
        · subst hua
          rw [hst'] at hf
          rcases List.mem_cons.mp hf with rfl | hf
          · exact hnull
          · exact hn.asked a.1 f (by rw [hst]; exact hf)
        · rw [hother u hua] at hf
          exact hn.asked u f hf
  | @moves l frame rest next he hm =>
      subst he
      constructor
      · intro u g hu
        by_cases hua : u = a.1
        · subst hua
          rw [hst'] at hu
          cases next with
          | some frame' => exact hm.loadsSet hka.1 rfl hu
          | none =>
              have := placeOf_rest hka
              exact absurd (this.symm.trans hu) (by rintro ⟨⟩)
        · rw [hother u hua] at hu
          refine hm.initialized hka.1 (fun i hclear => ho ⟨⟨a.1, i, ?_⟩, u, g, hu⟩) (hl u g hu)
          rw [hst]
          exact hclear
      · have hload : ∀ g, frame.place = .getting g .loadClass → Whole c.shared := by
          intro g hg
          have hg' : placeOf (c.locals a.1) = .getting g .loadClass := by
            rw [hst]
            exact hg
          exact whole_of_initialized hc (hl a.1 g hg') fun t i hclear =>
            ho ⟨⟨t, i, hclear⟩, a.1, g, hg'⟩
        obtain ⟨hret, hnull⟩ := hm.nullFree hka.1 hload
        refine ⟨fun g hmem => hn.returned g (hret g hmem), fun u f hf => ?_⟩
        by_cases hua : u = a.1
        · subst hua
          rw [hst'] at hf
          rcases List.mem_append.mp hf with hf | hf
          · exact hnull f (Option.mem_toList.mp hf)
          · exact hn.asked a.1 f (by rw [hst]; exact List.mem_cons_of_mem _ hf)
        · rw [hother u hua] at hf
          exact hn.asked u f hf

/-- **The flag vouches for the classes**: if every call of `NewGlobalRef` makes its reference, then
in every state of every interleaving of getters and `Uninitialize` in which no thread holds the
mutex, the classes are there if the flag is set; and no getter of a class returns null and no id is
looked for in a null class, as long as no thread clears the cache while another one is about to load
a class. -/
theorem class_cache_whole {T : Type} [DecidableEq T] (vm : ℕ) (as : List (T × ThreadAction))
    (has : Transition.EveryStep (Interleaving.step threadStep)
      (fun c a => a.2.RefMade (c.locals a.1)) (Threads.start T vm) as) :
    Transition.EveryState (Interleaving.step threadStep) (fun c => Vouched c.shared)
        (Threads.start T vm) as ∧
      (Transition.EveryState (Interleaving.step threadStep) (fun c => ¬ Threads.Overlap c)
          (Threads.start T vm) as →
        Transition.EveryState (Interleaving.step threadStep) Threads.NullFree
          (Threads.start T vm) as) := by
  have hholds := classCache_outline.everyState (start_known vm) has
  refine ⟨hholds.imp fun c hc => hc.1, fun hover => ?_⟩
  have hstart : (Threads.start T vm).LoadsSet ∧ (Threads.start T vm).NullFree := by
    refine ⟨by rintro t g ⟨⟩, fun g hmem => absurd hmem List.not_mem_nil, ?_⟩
    exact fun t f hf => absurd hf List.not_mem_nil
  have hfree : Transition.EveryState (Interleaving.step threadStep)
      (fun c : Threads T => c.LoadsSet ∧ c.NullFree) (Threads.start T vm) as := by
    refine (hholds.and hover).preserves ?_ hstart
    intro c a c' hq hp _ hstep
    exact step_nullFree hp.1 hp.2 hq.1 hq.2 hstep
  exact hfree.imp fun c hc => hc.2

theorem refMade_answered (place : Place) : place.RefMade answered := by
  cases place with
  | getting g pc => cases pc <;> trivial
  | clearing _ | elsewhere => trivial

omit [DecidableEq T] in
/-- A single thread does not get in its own way. -/
theorem not_overlap [Subsingleton T] (c : Threads T) : ¬ c.Overlap := by
  rintro ⟨⟨t, i, ht⟩, u, g, hu⟩
  rw [Subsingleton.elim t u, hu] at ht
  cases ht

/-- A class is asked for, the cache is cleared, and the class is asked for again. -/
def askedAgain : List (Unit × ThreadAction) :=
  ((), .call (.clazz .stringClass)) :: List.replicate 16 ((), .advance answered) ++
    ((), .uninitializeCall) :: List.replicate 20 ((), .advance answered) ++
    ((), .call (.clazz .stringClass)) :: List.replicate 16 ((), .advance answered)

theorem class_cache_whole_again :
    ∃ c, Transition.run (Interleaving.step threadStep) (Threads.start Unit 0) askedAgain = some c ∧
      c.shared.returned.length = 2 ∧ Vouched c.shared ∧ Threads.NullFree c := by
  have has : ∀ a ∈ askedAgain, ∀ stack, a.2.RefMade stack := by
    simp [askedAgain, or_imp, forall_and, ThreadAction.RefMade, refMade_answered]
  have hmade : Transition.EveryStep (Interleaving.step threadStep)
      (fun _ a => ∀ stack, a.2.RefMade stack) (Threads.start Unit 0) askedAgain := .of_forall has
  obtain ⟨hv, hn⟩ := class_cache_whole 0 askedAgain (hmade.imp fun _ _ h => h _)
  have hfree := hn (Transition.everyState_iff.mpr fun _ _ c _ => not_overlap c)
  have hrun : (Transition.run (Interleaving.step threadStep) (Threads.start Unit 0)
      askedAgain).map (fun c => c.shared.returned.length) = some 2 := by decide +kernel
  obtain ⟨c, hc, hret⟩ := Option.map_eq_some_iff.mp hrun
  exact ⟨c, hc, hret, hv.last hc, hfree.last hc⟩

/-- Without memory for the global references the flag is set over five holes. -/
theorem class_cache_hole :
    ∃ c, Transition.run (Interleaving.step threadStep) (Threads.start Unit 0)
        (((), .call (.clazz .stringClass)) ::
          List.replicate 16 ((), .advance { answered with newGlobalRef := fun _ => false })) =
        some c ∧
      c.shared.owner = none ∧ c.shared.globals.classRefsInitialized = true ∧
      c.shared.globals.classes .stringClass = none ∧
      .clazz .stringClass none ∈ c.shared.returned := by
  have hrun : (Transition.run (Interleaving.step threadStep) (Threads.start Unit 0)
      (((), .call (.clazz .stringClass)) ::
        List.replicate 16 ((), .advance { answered with newGlobalRef := fun _ => false }))).map
        (fun c => (c.shared.owner, c.shared.globals.classRefsInitialized,
          c.shared.globals.classes .stringClass, c.shared.returned)) =
      some (none, true, none, [.clazz .stringClass none]) := by decide +kernel
  obtain ⟨c, hc, hend⟩ := Option.map_eq_some_iff.mp hrun
  simp only [Prod.mk.injEq] at hend
  obtain ⟨ho, hi, hs, hr⟩ := hend
  exact ⟨c, hc, ho, hi, hs, by rw [hr]; exact List.mem_singleton_self _⟩

/-- With every reference made: the cache is cleared after the flag was seen and before the class is
loaded. -/
example : (Transition.run (Interleaving.step threadStep) (Threads.start Bool 0)
    ((true, .call (.clazz .stringClass)) :: List.replicate 15 (true, .advance answered) ++
      (false, .uninitializeCall) :: List.replicate 20 (false, .advance answered) ++
      [(true, .advance answered)])).map (fun c => c.shared.returned) =
    some [.clazz .stringClass none] := by
  decide +kernel

end loads

end JniConstants
end NativeHelper
