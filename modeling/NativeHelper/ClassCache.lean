import NativeHelper.ThreadMoves

/-! # The flag of the class cache

`g_class_refs_initialized` vouches for the five classes: a getter that finds it set does not look
again.  `FindClass` stops the process when a class is not found, but does not look at what
`NewGlobalRef` returns, so the flag can be set over a hole, which nothing fills afterwards.

Here `NewGlobalRef` makes a reference wherever it is called.  Where a thread is says what it knows
(`PlaceKnown`): the holder of the mutex has stored the classes so far, or is about to take the flag
back; the others know that they do not hold it.  So the flag vouches for the classes whenever the
mutex is free (`Vouched`). -/

namespace NativeHelper
namespace JniConstants

/-! ### What the flag vouches for -/

section outline
variable {T : Type}

/-- All five classes are there. -/
def Whole (s : Shared T) : Prop := ∀ g, s.globals.classes g ≠ none

/-- With the mutex free, the flag vouches for the classes. -/
def Vouched (s : Shared T) : Prop :=
  s.owner = none → s.globals.classRefsInitialized = true → Whole s

/-- The flag is not set, and the first `m` classes are there. -/
structure Partly (m : ℕ) (s : Shared T) : Prop where
  uninitialized : s.globals.classRefsInitialized = false
  stored : ∀ g : ClassGlobal, g.index < m → s.globals.classes g ≠ none

/-- What the thread `t` knows in the getter of a class. -/
def ClassKnown (t : T) (s : Shared T) : ClassPc → Prop
  | .fastCheck | .lock | .loadClass => s.owner ≠ some t
  | .slowCheck => s.owner = some t ∧ (s.globals.classRefsInitialized = true → Whole s)
  | .findClass c => s.owner = some t ∧ Partly c.index s
  | .storeClass c klass => s.owner = some t ∧ Partly c.index s ∧ klass ≠ none
  | .storeInitialized => s.owner = some t ∧ Partly 5 s
  | .unlock => s.owner = some t ∧ s.globals.classRefsInitialized = true ∧ Whole s

/-- What it knows in `Uninitialize`: the last store takes the flag back. -/
def ClearingKnown (t : T) (s : Shared T) : UninitializePc → Prop
  | .lock => s.owner ≠ some t
  | .store i => s.owner = some t ∧
      (uninitializeStores.length ≤ i → s.globals.classRefsInitialized = false)

/-- What it knows in its innermost call. -/
def PlaceKnown (t : T) (s : Shared T) : Place → Prop
  | .getting _ pc => ClassKnown t s pc
  | .clearing pc => ClearingKnown t s pc
  | .elsewhere => s.owner ≠ some t

/-- What the thread `t` knows: the calls below the innermost one wait for lookups. -/
def StackKnown (t : T) (s : Shared T) (stack : List Frame) : Prop :=
  PlaceKnown t s (placeOf stack) ∧ ∀ f ∈ stack.tail, f.place = .elsewhere

/-- The holder of the mutex is not disturbed. -/
structure Undisturbed (u : T) (s s' : Shared T) : Prop where
  owner : s'.owner = some u ↔ s.owner = some u
  held : s.owner = some u → s'.globals.classes = s.globals.classes ∧
    s'.globals.classRefsInitialized = s.globals.classRefsInitialized

section stable
variable {u : T} {s s' : Shared T}

theorem Undisturbed.of_same (h : SameClasses s s') : Undisturbed u s s' :=
  ⟨by rw [h.owner], fun _ => ⟨h.classes, h.initialized⟩⟩

/-- What the holder of the mutex does disturbs nobody else. -/
theorem undisturbed_of_owner {t : T} (ho : s.owner = none ∨ s.owner = some t)
    (ho' : s'.owner = none ∨ s'.owner = some t) (u : T) (hu : u ≠ t) : Undisturbed u s s' :=
  ⟨iff_of_false (owner_ne ho' hu) (owner_ne ho hu), fun h => absurd h (owner_ne ho hu)⟩

theorem SameClasses.whole (h : SameClasses s s') (hw : Whole s) : Whole s' := by
  intro g
  rw [h.classes]
  exact hw g

theorem SameClasses.vouched (h : SameClasses s s') (hv : Vouched s) : Vouched s' := by
  intro ho hi
  rw [h.owner] at ho
  rw [h.initialized] at hi
  exact h.whole (hv ho hi)

variable (hr : Undisturbed u s s')
include hr

theorem Undisturbed.not_owner (h : s.owner ≠ some u) : s'.owner ≠ some u :=
  fun h' => h (hr.owner.mp h')

theorem Undisturbed.whole (ho : s.owner = some u) (h : Whole s) : Whole s' := by
  intro g
  rw [(hr.held ho).1]
  exact h g

theorem Undisturbed.partly {m : ℕ} (ho : s.owner = some u) (h : Partly m s) : Partly m s' := by
  obtain ⟨hc, hi⟩ := hr.held ho
  exact ⟨hi.trans h.uninitialized, fun g hlt => by rw [hc]; exact h.stored g hlt⟩

theorem PlaceKnown.stable {place : Place} (h : PlaceKnown u s place) : PlaceKnown u s' place := by
  cases place with
  | elsewhere => exact hr.not_owner h
  | clearing pc => cases pc with
    | lock => exact hr.not_owner h
    | store i =>
        refine ⟨hr.owner.mpr h.1, fun hi => ?_⟩
        rw [(hr.held h.1).2]
        exact h.2 hi
  | getting g pc => cases pc with
    | fastCheck | lock | loadClass => exact hr.not_owner h
    | slowCheck =>
        refine ⟨hr.owner.mpr h.1, fun hi => hr.whole h.1 (h.2 ?_)⟩
        rwa [(hr.held h.1).2] at hi
    | findClass c => exact ⟨hr.owner.mpr h.1, hr.partly h.1 h.2⟩
    | storeClass c klass => exact ⟨hr.owner.mpr h.1, hr.partly h.1 h.2.1, h.2.2⟩
    | storeInitialized => exact ⟨hr.owner.mpr h.1, hr.partly h.1 h.2⟩
    | unlock => exact ⟨hr.owner.mpr h.1, (hr.held h.1).2.trans h.2.1, hr.whole h.1 h.2.2⟩

end stable

/-! ### One step -/

/-- Where `NewGlobalRef` is called, the reference is made.  The class was found, or else the process
would have stopped. -/
def Place.RefMade (l : Lookups) : Place → Prop
  | .getting _ (.findClass c) => l.newGlobalRef c.name = true
  | _ => True

/-- A step of the thread `t` keeps what the flag vouches for, `t` knows `P` afterwards, and the
others are not disturbed. -/
structure MoveKeeps (t : T) (s s' : Shared T) (P : Prop) : Prop where
  vouched : Vouched s'
  known : P
  others : ∀ u, u ≠ t → Undisturbed u s s'

section keeps
variable {t : T} {l : Lookups} {s s' : Shared T} {P : Prop}

theorem MoveKeeps.of_same (h : SameClasses s s') (hv : Vouched s) (hk : P) : MoveKeeps t s s' P :=
  ⟨h.vouched hv, hk, fun _ _ => .of_same h⟩

/-- While `t` holds the mutex nobody asks what the flag vouches for. -/
theorem MoveKeeps.of_holder (ho : s.owner = some t) (ho' : s'.owner = some t) (hk : P) :
    MoveKeeps t s s' P := by
  refine ⟨fun hn => ?_, hk, undisturbed_of_owner (.inr ho) (.inr ho')⟩
  rw [ho'] at hn
  cases hn

/-- What the thread knows after a step in the getter of a class. -/
def NextKnown (t : T) (s : Shared T) : Next ClassPc JClass → Prop
  | .goto pc => ClassKnown t s pc
  | .returns _ => s.owner ≠ some t

/-- A class that is found is not stored yet. -/
theorem findClass_same {name : String} {r : Option JClass × Shared T}
    (h : s.exec (findClass l name) = some r) : SameClasses s r.2 ∧ r.2.returned = s.returned := by
  refine sameClasses_of_exec (fun r h => ?_) h
  unfold findClass newGlobalRef at h
  cases hc : l.findClass name <;> rw [hc] at h
  · cases h
  · cases hn : l.newGlobalRef name <;> rw [hn] at h <;> cases h <;> exact ⟨rfl, rfl⟩

/-- It has its reference. -/
theorem findClass_made {name : String} (hl : l.newGlobalRef name = true)
    {r : Option JClass × Shared T} (h : s.exec (findClass l name) = some r) : r.1 ≠ none := by
  obtain ⟨r', he, rfl⟩ := exec_eq_some h
  rw [← Option.isSome_iff_ne_none, (findClass_eq_ok he).2]
  exact hl

/-- One more class is there. -/
theorem storeClass_move {c : ClassGlobal} {klass : Option JClass} (ho : s.owner = some t)
    (hp : Partly c.index s) (hk : klass ≠ none) {r : Unit × Shared T}
    (h : s.exec (setClass c klass) = some r) :
    r.2.owner = some t ∧ Partly (c.index + 1) r.2 := by
  obtain rfl := Option.some.inj h
  refine ⟨ho, hp.uninitialized, fun g hlt => ?_⟩
  show Function.update s.globals.classes c klass g ≠ none
  by_cases hg : g = c
  · subst hg
    rwa [Function.update_self]
  · have hne : g.index ≠ c.index := fun h => hg (ClassGlobal.index_injective h)
    rw [Function.update_of_ne hg]
    exact hp.stored g (by omega)

/-- **One step of the getter of a class.** -/
theorem classStep_keeps {g : ClassGlobal} {pc : ClassPc} (hl : (Place.getting g pc).RefMade l)
    (hv : Vouched s) (hk : ClassKnown t s pc) {next : Next ClassPc JClass}
    (h : classStep t l s g pc = some (s', next)) : MoveKeeps t s s' (NextKnown t s' next) := by
  cases classStep_move h with
  | seenSet | seenUnset => exact .of_same (.refl s) hv hk
  | lock hn =>
      refine ⟨by rintro ⟨⟩, ⟨rfl, hv hn⟩, undisturbed_of_owner (.inl hn) (.inr rfl)⟩
  | stillSet hi => exact .of_holder hk.1 hk.1 ⟨hk.1, hi, hk.2 hi⟩
  | stillUnset hi =>
      refine .of_holder hk.1 hk.1 ⟨hk.1, hi, ?_⟩
      exact fun g hlt => absurd hlt (Nat.not_lt_zero _)
  | @findClass c r hr =>
      have hne := findClass_made hl hr
      have hs := (findClass_same hr).1
      obtain ⟨ho, hp⟩ := hk
      have ho' : r.2.owner = some t := hs.owner.trans ho
      refine .of_holder ho ho' ⟨ho', ⟨hs.initialized.trans hp.uninitialized, ?_⟩, hne⟩
      intro g hlt
      rw [hs.classes]
      exact hp.stored g hlt
  | @storeClass c klass r hr =>
      obtain ⟨ho', hp'⟩ := storeClass_move hk.1 hk.2.1 hk.2.2 hr
      refine .of_holder hk.1 ho' ?_
      cases hn : c.next with
      | some c' =>
          rw [← ClassGlobal.index_of_next hn] at hp'
          exact ⟨ho', hp'⟩
      | none =>
          rw [ClassGlobal.index_of_last hn] at hp'
          exact ⟨ho', hp'⟩
  | storeInitialized =>
      exact .of_holder hk.1 hk.1 ⟨hk.1, rfl, fun g => hk.2.stored g g.index_lt⟩
  | unlock =>
      refine ⟨fun _ _ => hk.2.2, by rintro ⟨⟩, ?_⟩
      exact undisturbed_of_owner (.inr hk.1) (.inl rfl)
  | loadClass => exact .of_same (.refl s) hv hk

/-- What the thread knows after a step in `Uninitialize`. -/
def ClearedKnown (t : T) (s : Shared T) : Option UninitializePc → Prop
  | some pc => ClearingKnown t s pc
  | none => s.owner ≠ some t

/-- After the last store the flag is not set. -/
theorem uninitializeStore_last {i : ℕ} {x : ConstM Unit} (hx : uninitializeStores[i]? = some x)
    (hi : uninitializeStores.length ≤ i + 1) {r : Unit × Shared T} (h : s.exec x = some r) :
    r.2.globals.classRefsInitialized = false := by
  have hlen : uninitializeStores.length = 18 := rfl
  have hlt := (List.getElem?_eq_some_iff.mp hx).1
  obtain rfl : i = 17 := by omega
  obtain rfl : setInitialized false = x := Option.some.inj hx
  obtain rfl := Option.some.inj h
  rfl

/-- **One step of `Uninitialize`.** -/
theorem uninitializeStep_keeps {pc : UninitializePc} (hk : ClearingKnown t s pc)
    {next : Option UninitializePc} (h : uninitializeStep t s pc = some (s', next)) :
    MoveKeeps t s s' (ClearedKnown t s' next) := by
  cases uninitializeStep_move h with
  | lock hn =>
      refine ⟨by rintro ⟨⟩, ⟨rfl, ?_⟩, undisturbed_of_owner (.inl hn) (.inr rfl)⟩
      exact fun hlen => absurd hlen (by decide)
  | store hx hr =>
      have hlast := fun hi => uninitializeStore_last hx hi hr
      obtain ⟨r', _, rfl⟩ := exec_eq_some hr
      exact .of_holder hk.1 hk.1 ⟨hk.1, hlast⟩
  | unlock hlen =>
      have hi := hk.2 hlen
      refine ⟨fun _ hi' => ?_, by rintro ⟨⟩, undisturbed_of_owner (.inr hk.1) (.inl rfl)⟩
      exact absurd (hi.symm.trans hi') Bool.false_ne_true

/-- What the thread knows after a step in its innermost call. -/
def NextPlaceKnown (t : T) (s : Shared T) : Option Frame → Prop
  | some frame => PlaceKnown t s frame.place
  | none => s.owner ≠ some t

/-- **One step of a call.** -/
theorem FrameMove.keeps {frame : Frame} (hl : frame.place.RefMade l) (hv : Vouched s)
    (hk : PlaceKnown t s frame.place) {next : Option Frame}
    (h : FrameMove t l s s' frame next) : MoveKeeps t s s' (NextPlaceKnown t s' next) := by
  cases h with
  | getting hp hc hp' _ =>
      rw [hp] at hk hl
      have hkeep := classStep_keeps hl hv hk hc
      refine ⟨hkeep.vouched, ?_, hkeep.others⟩
      show PlaceKnown t s' _
      rw [hp']
      exact hkeep.known
  | @got g pc s₁ klass next hp hc hs hn =>
      rw [hp] at hk hl
      subst hs
      obtain ⟨hv', hk', hr⟩ := classStep_keeps hl hv hk hc
      refine ⟨hv', ?_, fun u hu => ⟨(hr u hu).owner, (hr u hu).held⟩⟩
      cases next with
      | none => exact hk'
      | some frame' =>
          show PlaceKnown t _ frame'.place
          rw [(hn frame' rfl).1]
          exact hk'
  | @clearing pc next hp hc =>
      rw [hp] at hk
      have hkeep := uninitializeStep_keeps hk hc
      refine ⟨hkeep.vouched, ?_, hkeep.others⟩
      cases next <;> exact hkeep.known
  | elsewhere hp hs _ hn =>
      rw [hp] at hk
      refine .of_same hs hv ?_
      have hk' : s'.owner ≠ some t := by
        rw [hs.owner]
        exact hk
      cases next with
      | none => exact hk'
      | some frame' =>
          show PlaceKnown t s' frame'.place
          rcases (hn frame' rfl).1 with hp' | ⟨g, hp'⟩ <;> rw [hp'] <;> exact hk'

/-- Getters and `Uninitialize` may be called, and if the step is a call of `NewGlobalRef`, it makes
the reference. -/
def ThreadAction.RefMade (stack : List Frame) : ThreadAction → Prop
  | .call _ | .uninitializeCall => True
  | .advance l => (placeOf stack).RefMade l

/-- Below a new call everything waits. -/
theorem waiting_of_mayCall {stack : List Frame} (hk : StackKnown t s stack)
    (h : mayCall stack = true) : ∀ f ∈ stack, f.place = .elsewhere := by
  have hp := placeOf_mayCall h
  cases stack with
  | nil => exact fun f hf => absurd hf List.not_mem_nil
  | cons frame rest =>
      intro f hf
      rcases List.mem_cons.mp hf with rfl | hf
      · exact hp
      · exact hk.2 f hf

/-- **One step of a thread.** -/
theorem threadStep_keeps {a : ThreadAction} {stack stack' : List Frame} (ha : a.RefMade stack)
    (hv : Vouched s) (hk : StackKnown t s stack)
    (h : threadStep t a s stack = some (s', stack')) :
    MoveKeeps t s s' (StackKnown t s' stack') := by
  cases threadStep_move h with
  | @calls _ frame hs hm hp _ =>
      subst hs
      have ho := hk.1
      rw [placeOf_mayCall hm] at ho
      refine .of_same (.refl _) hv ⟨?_, waiting_of_mayCall hk hm⟩
      show PlaceKnown t _ frame.place
      rcases hp with hp | ⟨g, hp⟩ | hp <;> rw [hp] <;> exact ho
  | @moves l frame rest next he hm =>
      subst he
      obtain ⟨hv', hn, hr⟩ := hm.keeps ha hv hk.1
      refine ⟨hv', ?_, hr⟩
      cases next with
      | some frame' => exact ⟨hn, hk.2⟩
      | none =>
          -- the call below goes on
          cases rest with
          | nil => exact ⟨hn, hk.2⟩
          | cons below rest =>
              refine ⟨?_, fun f hf => hk.2 f (List.mem_cons_of_mem _ hf)⟩
              show PlaceKnown t _ below.place
              rw [hk.2 below List.mem_cons_self]
              exact hn

theorem classCache_outline :
    Interleaving.Outline (threadStep (T := T)) ThreadAction.RefMade Vouched StackKnown
      Undisturbed where
  step _ _ _ _ _ _ ha hv hk h :=
    let ⟨hv', hk', hr⟩ := threadStep_keeps ha hv hk h
    ⟨hv', hk', hr⟩
  stable _ _ _ _ _ _ hr hk := ⟨hk.1.stable hr, hk.2⟩

end keeps

theorem start_known (vm : ℕ) :
    Interleaving.Outline.Holds Vouched StackKnown (Threads.start T vm) := by
  refine ⟨by rintro _ ⟨⟩, fun t => ⟨by rintro ⟨⟩, ?_⟩⟩
  exact fun f hf => absurd hf List.not_mem_nil

end outline

end JniConstants
end NativeHelper
