import NativeHelper.ConstantGetters

/-! # Any number of threads

The getters of `JniConstants` may be called by any number of threads and from within lookups of ids,
but not from within `FindClass` and `NewGlobalRef`.  As long as the lookups are answered and
`Uninitialize` is not called, every class is made a global reference once, and all calls of a getter
return the same (`getters_agree`).

The thread that holds the mutex is the only one that writes the classes and the flag, so what it has
done so far stays done (`Building`); the others rely on the flag not being taken back.  An id may be
stored more than once, but what is stored is always the same id. -/

namespace NativeHelper
namespace JniConstants

/-! ### The references -/

namespace ClassGlobal

/-- The number of the classes that are found before this one. -/
def index : ClassGlobal → ℕ
  | fileDescriptorClass => 0
  | nioAccessClass => 1
  | nioBufferClass => 2
  | referenceClass => 3
  | stringClass => 4

/-- The only global reference to the class. -/
def refIn (vm : ℕ) (g : ClassGlobal) : JClass := ⟨vm, g.index, g.name⟩

theorem index_lt (g : ClassGlobal) : g.index < 5 := by cases g <;> decide

theorem index_injective {g g' : ClassGlobal} (h : g.index = g'.index) : g = g' := by
  cases g <;> cases g' <;> first | rfl | cases h

theorem index_of_next {g g' : ClassGlobal} (h : g.next = some g') : g'.index = g.index + 1 := by
  cases g <;> cases h <;> rfl

theorem index_of_last {g : ClassGlobal} (h : g.next = none) : g.index + 1 = 5 := by
  cases g <;> first | rfl | cases h

end ClassGlobal

/-- The global references in the order in which they are made. -/
def allRefs (vm : ℕ) : List JClass :=
  [ClassGlobal.fileDescriptorClass, .nioAccessClass, .nioBufferClass, .referenceClass,
    .stringClass].map (ClassGlobal.refIn vm)

theorem length_take_index (vm : ℕ) (g : ClassGlobal) :
    ((allRefs vm).take g.index).length = g.index := by
  cases g <;> rfl

theorem take_index_succ (vm : ℕ) (g : ClassGlobal) :
    (allRefs vm).take (g.index + 1) = (allRefs vm).take g.index ++ [g.refIn vm] := by
  cases g <;> rfl

/-- No two of them are to one class. -/
theorem countP_allRefs (vm : ℕ) (g : ClassGlobal) :
    (allRefs vm).countP (fun r => r.name = g.name) = 1 := by
  cases g <;> rfl

/-! ### The invariant -/

/-- The call returned what a lookup gives. -/
def Returned.Right (vm : ℕ) : Returned → Prop
  | .clazz g value => value = some (g.refIn vm)
  | .field g value => value = some (g.idIn vm)
  | .method g value => value = some (g.idIn vm)

section outline
variable {T : Type} (vm : ℕ)

/-- What holds of the shared state between any two steps. -/
structure Inv (s : Shared T) : Prop where
  vm_eq : s.globals.vm = vm
  fields : Filled s.globals.fields (FieldGlobal.idIn vm)
  methods : Filled s.globals.methods (MethodGlobal.idIn vm)
  refs : s.globals.globalRefs <+: allRefs vm
  initialized : s.globals.classRefsInitialized = true →
    ∀ g, s.globals.classes g = some (g.refIn vm)
  free : s.owner = none → s.globals.classRefsInitialized = false → s.globals.globalRefs = []
  returned : ∀ r ∈ s.returned, r.Right vm

/-- The holder of the mutex has made the first `n` references and stored the first `m`. -/
structure Building (n m : ℕ) (s : Shared T) : Prop where
  uninitialized : s.globals.classRefsInitialized = false
  refs : s.globals.globalRefs = (allRefs vm).take n
  stored : ∀ g : ClassGlobal, g.index < m → s.globals.classes g = some (g.refIn vm)

/-- What the thread `u` can rely on while others move. -/
structure Rely (u : T) (s s' : Shared T) : Prop where
  owner : s'.owner = some u ↔ s.owner = some u
  held : s.owner = some u → s'.globals.classes = s.globals.classes ∧
    s'.globals.classRefsInitialized = s.globals.classRefsInitialized ∧
    s'.globals.globalRefs = s.globals.globalRefs
  initialized : s.globals.classRefsInitialized = true → s'.globals.classRefsInitialized = true
  fields : ∀ g, s.globals.fields g ≠ none → s'.globals.fields g ≠ none
  methods : ∀ g, s.globals.methods g ≠ none → s'.globals.methods g ≠ none

/-- What the thread `t` knows in the getter of a class. -/
def ClassOk (t : T) (s : Shared T) : ClassPc → Prop
  | .fastCheck | .lock => s.owner ≠ some t
  | .slowCheck => s.owner = some t ∧
      (s.globals.classRefsInitialized = false → s.globals.globalRefs = [])
  | .findClass c => s.owner = some t ∧ Building vm c.index c.index s
  | .storeClass c klass => s.owner = some t ∧ Building vm (c.index + 1) c.index s ∧
      klass = some (c.refIn vm)
  | .storeInitialized => s.owner = some t ∧ Building vm 5 5 s
  | .unlock => s.owner = some t ∧ s.globals.classRefsInitialized = true
  | .loadClass => s.owner ≠ some t ∧ s.globals.classRefsInitialized = true

/-- What the thread `t` knows in the getter of a field or a method with this id. -/
def IdOk {Id : Type} (getter : IdGetter Id) (id : Id) (t : T) (s : Shared T) : IdPc Id → Prop
  | .check => s.owner ≠ some t
  | .getClass pc => ClassOk vm t s pc
  | .find klass => s.owner ≠ some t ∧ klass = some (getter.clazz.refIn vm)
  | .store id' => s.owner ≠ some t ∧ id' = id
  | .load => s.owner ≠ some t ∧ getter.load s.globals ≠ none

/-- What the thread `t` knows in its innermost call. -/
def FrameOk (t : T) (s : Shared T) : Frame → Prop
  | .classGetter _ pc => ClassOk vm t s pc
  | .fieldGetter g pc => IdOk vm g.code (g.idIn vm) t s pc
  | .methodGetter g pc => IdOk vm g.code (g.idIn vm) t s pc
  | .uninitializing _ => False

/-- The call waits for the end of a lookup. -/
def Suspended : Frame → Prop
  | .fieldGetter g (.find klass) => klass = some (g.clazz.refIn vm)
  | .methodGetter g (.find klass) => klass = some (g.clazz.refIn vm)
  | _ => False

/-- What the thread `t` knows. -/
def StackOk (t : T) (s : Shared T) : List Frame → Prop
  | [] => s.owner ≠ some t
  | frame :: rest => FrameOk vm t s frame ∧ ∀ f ∈ rest, Suspended vm f

variable {vm}

theorem Rely.refl (u : T) (s : Shared T) : Rely u s s :=
  ⟨Iff.rfl, fun _ => ⟨rfl, rfl, rfl⟩, id, fun _ => id, fun _ => id⟩

theorem Rely.logReturn (u : T) (s : Shared T) (r : Returned) : Rely u s (s.logReturn r) :=
  ⟨Iff.rfl, fun _ => ⟨rfl, rfl, rfl⟩, id, fun _ => id, fun _ => id⟩

theorem Rely.trans {u : T} {s s' s'' : Shared T} (h : Rely u s s') (h' : Rely u s' s'') :
    Rely u s s'' := by
  refine ⟨h'.owner.trans h.owner, fun ho => ?_, h'.initialized ∘ h.initialized,
    fun g => h'.fields g ∘ h.fields g, fun g => h'.methods g ∘ h.methods g⟩
  obtain ⟨c, f, r⟩ := h.held ho
  obtain ⟨c', f', r'⟩ := h'.held (h.owner.mpr ho)
  exact ⟨c'.trans c, f'.trans f, r'.trans r⟩

theorem Inv.logReturn {s : Shared T} (hi : Inv vm s) {r : Returned} (hr : r.Right vm) :
    Inv vm (s.logReturn r) := by
  refine ⟨hi.vm_eq, hi.fields, hi.methods, hi.refs, hi.initialized, hi.free, fun r' hr' => ?_⟩
  rcases List.mem_append.mp hr' with h | h
  · exact hi.returned r' h
  · rw [List.mem_singleton.mp h]
    exact hr

/-! ### What a thread knows is stable -/

section stable
variable {u : T} {s s' : Shared T} (hr : Rely u s s')
include hr

theorem Rely.not_owner (h : s.owner ≠ some u) : s'.owner ≠ some u := fun h' => h (hr.owner.mp h')

theorem Building.stable {n m : ℕ} (ho : s.owner = some u) (h : Building vm n m s) :
    Building vm n m s' := by
  obtain ⟨hc, hf, hg⟩ := hr.held ho
  exact ⟨hf.trans h.uninitialized, hg.trans h.refs, fun g hlt => by rw [hc, h.stored g hlt]⟩

theorem ClassOk.stable {pc : ClassPc} (h : ClassOk vm u s pc) : ClassOk vm u s' pc := by
  cases pc with
  | fastCheck | lock => exact hr.not_owner h
  | slowCheck =>
      obtain ⟨ho, h⟩ := h
      obtain ⟨_, hf, hg⟩ := hr.held ho
      refine ⟨hr.owner.mpr ho, ?_⟩
      rw [hf, hg]
      exact h
  | findClass c => exact ⟨hr.owner.mpr h.1, h.2.stable hr h.1⟩
  | storeClass c klass => exact ⟨hr.owner.mpr h.1, h.2.1.stable hr h.1, h.2.2⟩
  | storeInitialized => exact ⟨hr.owner.mpr h.1, h.2.stable hr h.1⟩
  | unlock => exact ⟨hr.owner.mpr h.1, hr.initialized h.2⟩
  | loadClass => exact ⟨hr.not_owner h.1, hr.initialized h.2⟩

theorem IdOk.stable {Id : Type} {getter : IdGetter Id} {id : Id}
    (hload : getter.load s.globals ≠ none → getter.load s'.globals ≠ none) {pc : IdPc Id}
    (h : IdOk vm getter id u s pc) : IdOk vm getter id u s' pc := by
  cases pc with
  | check => exact hr.not_owner h
  | getClass pc => exact ClassOk.stable hr h
  | find klass => exact ⟨hr.not_owner h.1, h.2⟩
  | store id' => exact ⟨hr.not_owner h.1, h.2⟩
  | load => exact ⟨hr.not_owner h.1, hload h.2⟩

theorem StackOk.stable {stack : List Frame} (h : StackOk vm u s stack) : StackOk vm u s' stack := by
  cases stack with
  | nil => exact hr.not_owner h
  | cons frame rest =>
      obtain ⟨hf, hrest⟩ := h
      refine ⟨?_, hrest⟩
      cases frame with
      | classGetter g pc => exact ClassOk.stable hr hf
      | fieldGetter g pc => exact IdOk.stable hr (hr.fields g) hf
      | methodGetter g pc => exact IdOk.stable hr (hr.methods g) hf
      | uninitializing pc => exact hf

end stable

/-! ### The getter of a class -/

/-- A step of the thread `t` keeps the invariant, what `t` knows afterwards is `P`, and the others
can rely on it. -/
structure StepOk (vm : ℕ) (t : T) (s s' : Shared T) (P : Prop) : Prop where
  inv : Inv vm s'
  ok : P
  rely : ∀ u, u ≠ t → Rely u s s'

/-- Nobody else is disturbed by what a getter returns. -/
theorem StepOk.logReturn {t : T} {s s' : Shared T} {P Q : Prop} (h : StepOk vm t s s' P)
    {r : Returned} (hr : r.Right vm) (hq : Q) : StepOk vm t s (s'.logReturn r) Q :=
  ⟨h.inv.logReturn hr, hq, fun u hu => (h.rely u hu).trans (.logReturn u s' r)⟩

/-- What the thread knows after a step in the getter of the class in `g`. -/
def NextOk (vm : ℕ) (t : T) (s : Shared T) (g : ClassGlobal) : Next ClassPc JClass → Prop
  | .goto pc => ClassOk vm t s pc
  | .returns value => s.owner ≠ some t ∧ value = some (g.refIn vm)

theorem owner_ne {t u : T} {s : Shared T} (ho : s.owner = none ∨ s.owner = some t) (hu : u ≠ t) :
    s.owner ≠ some u := by
  intro h
  rcases ho with ho | ho
  · cases ho.symm.trans h
  · exact hu (Option.some.inj (h.symm.trans ho))

/-- The thread `t` may take the mutex, give it back, and do with the classes what it likes while it
holds it, but not take back the flag. -/
theorem rely_of_owner {t : T} {s s' : Shared T} (ho : s.owner = none ∨ s.owner = some t)
    (ho' : s'.owner = none ∨ s'.owner = some t)
    (hinit : s.globals.classRefsInitialized = true → s'.globals.classRefsInitialized = true)
    (hf : s'.globals.fields = s.globals.fields) (hm : s'.globals.methods = s.globals.methods)
    (u : T) (hu : u ≠ t) : Rely u s s' := by
  have hne : s.owner ≠ some u := owner_ne ho hu
  have hne' : s'.owner ≠ some u := owner_ne ho' hu
  exact ⟨iff_of_false hne' hne, fun h => absurd h hne, hinit, fun g => by rw [hf]; exact id,
    fun g => by rw [hm]; exact id⟩

section steps
variable {t : T} {l : Lookups} {s s' : Shared T}

theorem exec_findClass (hl : l.Succeed) (name : String) :
    s.exec (findClass l name) =
      some (some ⟨s.globals.vm, s.globals.globalRefs.length, name⟩,
        { s with globals := { s.globals with globalRefs :=
          s.globals.globalRefs ++ [⟨s.globals.vm, s.globals.globalRefs.length, name⟩] } }) := by
  unfold Shared.exec
  rw [findClass_eq hl]

/-- The next reference is made. -/
theorem findClass_ok (hl : l.Succeed) (hi : Inv vm s) {c : ClassGlobal} (ho : s.owner = some t)
    (hb : Building vm c.index c.index s) {r : Option JClass × Shared T}
    (h : s.exec (findClass l c.name) = some r) :
    StepOk vm t s r.2 (ClassOk vm t r.2 (.storeClass c r.1)) := by
  rw [exec_findClass hl, hi.vm_eq, hb.refs, length_take_index] at h
  have hrefs : (allRefs vm).take c.index ++ [⟨vm, c.index, c.name⟩] =
      (allRefs vm).take (c.index + 1) := (take_index_succ vm c).symm
  rw [hrefs] at h
  obtain rfl := Option.some.inj h
  constructor
  · refine ⟨hi.vm_eq, hi.fields, hi.methods, List.take_prefix _ _, ?_, ?_, hi.returned⟩
    · intro hf
      exact absurd (hb.uninitialized.symm.trans hf) (by decide)
    · intro hn
      exact absurd (ho.symm.trans hn) (Option.some_ne_none t)
  · exact ⟨ho, ⟨hb.uninitialized, rfl, hb.stored⟩, rfl⟩
  · exact rely_of_owner (.inr ho) (.inr ho) id rfl rfl

/-- It is stored, and the next class is found or the flag set. -/
theorem storeClass_ok (hi : Inv vm s) {c : ClassGlobal} {klass : Option JClass}
    (ho : s.owner = some t) (hb : Building vm (c.index + 1) c.index s)
    (hk : klass = some (c.refIn vm)) {r : Unit × Shared T}
    (h : s.exec (setClass c klass) = some r) :
    StepOk vm t s r.2 (ClassOk vm t r.2 (match c.next with
      | some c' => .findClass c'
      | none => .storeInitialized)) := by
  obtain rfl := Option.some.inj h
  have hstored : ∀ g : ClassGlobal, g.index < c.index + 1 →
      Function.update s.globals.classes c klass g = some (g.refIn vm) := by
    intro g hlt
    by_cases hg : g = c
    · subst hg
      rw [Function.update_self, hk]
    · have hne : g.index ≠ c.index := fun h => hg (ClassGlobal.index_injective h)
      rw [Function.update_of_ne hg]
      exact hb.stored g (by omega)
  constructor
  · refine ⟨hi.vm_eq, hi.fields, hi.methods, hi.refs, ?_, hi.free, hi.returned⟩
    intro hf
    exact absurd (hb.uninitialized.symm.trans hf) (by decide)
  · cases hn : c.next with
    | some c' =>
        have hc' := ClassGlobal.index_of_next hn
        refine ⟨ho, ?_⟩
        rw [hc']
        exact ⟨hb.uninitialized, hb.refs, hstored⟩
    | none =>
        have hc := ClassGlobal.index_of_last hn
        rw [hc] at hstored hb
        exact ⟨ho, hb.uninitialized, hb.refs, hstored⟩
  · exact rely_of_owner (.inr ho) (.inr ho) id rfl rfl

/-- **One step of the getter of a class.** -/
theorem classStep_ok (hl : l.Succeed) (hi : Inv vm s) {g : ClassGlobal} {pc : ClassPc}
    (hok : ClassOk vm t s pc) {next : Next ClassPc JClass}
    (h : classStep t l s g pc = some (s', next)) : StepOk vm t s s' (NextOk vm t s' g next) := by
  cases classStep_move h with
  | seenSet hf => exact ⟨hi, ⟨hok, hf⟩, fun u _ => .refl u s⟩
  | seenUnset hf => exact ⟨hi, hok, fun u _ => .refl u s⟩
  | lock hn =>
      constructor
      · refine ⟨hi.vm_eq, hi.fields, hi.methods, hi.refs, hi.initialized, ?_, hi.returned⟩
        exact fun h => (nomatch h)
      · exact ⟨rfl, hi.free hn⟩
      · exact rely_of_owner (.inl hn) (.inr rfl) id rfl rfl
  | stillSet hf => exact ⟨hi, ⟨hok.1, hf⟩, fun u _ => .refl u s⟩
  | stillUnset hf =>
      refine ⟨hi, ⟨hok.1, hf, hok.2 hf, ?_⟩, fun u _ => .refl u s⟩
      exact fun g hlt => absurd hlt (Nat.not_lt_zero _)
  | findClass hr => exact findClass_ok hl hi hok.1 hok.2 hr
  | storeClass hr => exact storeClass_ok hi hok.1 hok.2.1 hok.2.2 hr
  | storeInitialized =>
      obtain ⟨ho, hb⟩ := hok
      refine ⟨⟨hi.vm_eq, hi.fields, hi.methods, hi.refs, ?_, ?_, hi.returned⟩, ⟨ho, rfl⟩, ?_⟩
      · exact fun _ g => hb.stored g g.index_lt
      · exact fun _ hf => (nomatch hf)
      · exact rely_of_owner (.inr ho) (.inr ho) (fun _ => rfl) rfl rfl
  | unlock =>
      obtain ⟨ho, hf⟩ := hok
      refine ⟨⟨hi.vm_eq, hi.fields, hi.methods, hi.refs, hi.initialized, ?_, hi.returned⟩,
        ⟨fun h => (nomatch h), hf⟩, rely_of_owner (.inr ho) (.inl rfl) id rfl rfl⟩
      exact fun _ h => absurd (hf.symm.trans h) (by decide)
  | loadClass => exact ⟨hi, ⟨hok.1, hi.initialized hok.2 g⟩, fun u _ => .refl u s⟩

/-! ### The getters of fields and methods -/

/-- What is known about the code of a getter that fills a slot with `id`. -/
structure Fills {Id : Type} (T : Type) (vm : ℕ) (getter : IdGetter Id) (id : Id) : Prop where
  find : ∀ l : Lookups, l.Succeed → ∀ s,
    getter.find l (some (getter.clazz.refIn vm)) s = .ok (id, s)
  store : ∀ (t : T) (s : Shared T) r, Inv vm s → s.owner ≠ some t →
    s.exec (getter.store id) = some r →
      StepOk vm t s r.2 (IdOk vm getter id t r.2 .load)
  load : ∀ s : Shared T, Inv vm s →
    getter.load s.globals = none ∨ getter.load s.globals = some id
  returned : (getter.returned (some id)).Right vm

theorem update_ne_none {G A : Type} [DecidableEq G] {slots : G → Option A} {g' : G}
    (h : slots g' ≠ none) (g : G) (a : A) : Function.update slots g (some a) g' ≠ none := by
  by_cases hg : g' = g
  · subst hg
    rw [Function.update_self]
    exact Option.some_ne_none a
  · rwa [Function.update_of_ne hg]

theorem FieldGlobal.code_fills (g : FieldGlobal) : Fills T vm g.code (g.idIn vm) := by
  refine ⟨?_, ?_, fun s hi => hi.fields g, rfl⟩
  · rintro l ⟨_, _, hf, _⟩ s
    cases g <;> simp [FieldGlobal.code, findField, hf] <;> rfl
  · intro t s r hi ho h
    obtain rfl := Option.some.inj h
    refine ⟨⟨hi.vm_eq, hi.fields.update g, hi.methods, hi.refs, hi.initialized, hi.free,
      hi.returned⟩, ⟨ho, ?_⟩, fun u _ => ⟨Iff.rfl, fun _ => ⟨rfl, rfl, rfl⟩, id, ?_, fun _ => id⟩⟩
    · simp [FieldGlobal.code]
    · exact fun g' hg' => update_ne_none hg' g _

theorem MethodGlobal.code_fills (g : MethodGlobal) : Fills T vm g.code (g.idIn vm) := by
  refine ⟨?_, ?_, fun s hi => hi.methods g, rfl⟩
  · rintro l ⟨_, _, _, hm, hsm⟩ s
    cases g <;> simp [MethodGlobal.code, MethodGlobal.find, findMethod, findStaticMethod, hm, hsm] <;>
      rfl
  · intro t s r hi ho h
    obtain rfl := Option.some.inj h
    refine ⟨⟨hi.vm_eq, hi.fields, hi.methods.update g, hi.refs, hi.initialized, hi.free,
      hi.returned⟩, ⟨ho, ?_⟩, fun u _ => ⟨Iff.rfl, fun _ => ⟨rfl, rfl, rfl⟩, id, fun _ => id, ?_⟩⟩
    · simp [MethodGlobal.code]
    · exact fun g' hg' => update_ne_none hg' g _

/-- What the thread knows after a step in a getter that fills a slot with `id`. -/
def IdNextOk {Id : Type} (vm : ℕ) (getter : IdGetter Id) (id : Id) (t : T) (s : Shared T) :
    Option (IdPc Id) → Prop
  | some pc => IdOk vm getter id t s pc
  | none => s.owner ≠ some t

/-- **One step of the getter of a field or a method.** -/
theorem idStep_ok {Id : Type} {getter : IdGetter Id} {id : Id} (hg : Fills T vm getter id)
    (hl : l.Succeed) (hi : Inv vm s) {pc : IdPc Id} (hok : IdOk vm getter id t s pc)
    {next : Option (IdPc Id)} (h : idStep t l s getter pc = some (s', next)) :
    StepOk vm t s s' (IdNextOk vm getter id t s' next) := by
  cases pc with
  | check =>
      obtain ⟨rfl, rfl⟩ := Prod.mk.inj (Option.some.inj h)
      refine ⟨hi, ?_, fun u _ => .refl u s⟩
      cases hload : getter.load s.globals with
      | none => exact hok
      | some id' => exact ⟨hok, by rw [hload]; exact Option.some_ne_none id'⟩
  | getClass pc =>
      rw [idStep] at h
      obtain ⟨⟨s₁, next₁⟩, hc, e⟩ := Option.map_eq_some_iff.mp h
      have hstep := classStep_ok hl hi hok hc
      cases next₁ with
      | goto pc' =>
          obtain ⟨rfl, rfl⟩ := Prod.mk.inj e
          exact hstep
      | returns klass =>
          obtain ⟨rfl, rfl⟩ := Prod.mk.inj e
          have hright : Returned.Right vm (.clazz getter.clazz klass) := hstep.ok.2
          exact hstep.logReturn hright hstep.ok
  | find klass =>
      obtain ⟨ho, rfl⟩ := hok
      rw [idStep, Shared.exec, hg.find l hl] at h
      obtain ⟨rfl, rfl⟩ := Prod.mk.inj (Option.some.inj h)
      exact ⟨hi, ⟨ho, rfl⟩, fun u _ => .refl u s⟩
  | store id' =>
      obtain ⟨ho, rfl⟩ := hok
      rw [idStep] at h
      obtain ⟨r, hr, rfl, rfl⟩ := eq_some_of_map h
      exact hg.store t s r hi ho hr
  | load =>
      obtain ⟨rfl, rfl⟩ := Prod.mk.inj (Option.some.inj h)
      obtain ⟨ho, hne⟩ := hok
      have hload := (hg.load s hi).resolve_left hne
      refine ⟨hi.logReturn ?_, ho, fun u _ => .logReturn u s _⟩
      rw [hload]
      exact hg.returned

/-! ### Threads -/

/-- What the thread knows after a step in its innermost call. -/
def FrameNextOk (vm : ℕ) (t : T) (s : Shared T) : Option Frame → Prop
  | some frame => FrameOk vm t s frame
  | none => s.owner ≠ some t

theorem frameStep_ok (hl : l.Succeed) (hi : Inv vm s) {frame : Frame} (hok : FrameOk vm t s frame)
    {next : Option Frame} (h : frameStep t l s frame = some (s', next)) :
    StepOk vm t s s' (FrameNextOk vm t s' next) := by
  cases frame with
  | classGetter g pc =>
      obtain ⟨⟨s₁, next₁⟩, hc, e⟩ := Option.map_eq_some_iff.mp h
      have hstep := classStep_ok hl hi hok hc
      cases next₁ with
      | goto pc' =>
          obtain ⟨rfl, rfl⟩ := Prod.mk.inj e
          exact hstep
      | returns klass =>
          obtain ⟨rfl, rfl⟩ := Prod.mk.inj e
          have hright : Returned.Right vm (.clazz g klass) := hstep.ok.2
          exact hstep.logReturn hright hstep.ok.1
  | fieldGetter g pc =>
      obtain ⟨⟨s₁, next₁⟩, hc, rfl, rfl⟩ := eq_some_of_map h
      have hstep := idStep_ok g.code_fills hl hi hok hc
      cases next₁ <;> exact hstep
  | methodGetter g pc =>
      obtain ⟨⟨s₁, next₁⟩, hc, rfl, rfl⟩ := eq_some_of_map h
      have hstep := idStep_ok g.code_fills hl hi hok hc
      cases next₁ <;> exact hstep
  | uninitializing pc => exact hok.elim

/-- A thread that may call a getter does not hold the mutex, and its calls wait for lookups. -/
theorem of_mayCall {stack : List Frame} (hok : StackOk vm t s stack) (h : mayCall stack = true) :
    s.owner ≠ some t ∧ ∀ f ∈ stack, Suspended vm f := by
  cases stack with
  | nil => exact ⟨hok, fun f hf => absurd hf List.not_mem_nil⟩
  | cons frame rest =>
      obtain ⟨hf, hrest⟩ := hok
      have htop : s.owner ≠ some t ∧ Suspended vm frame := by
        cases frame with
        | classGetter g pc | uninitializing pc => cases h
        | fieldGetter g pc | methodGetter g pc => cases pc <;> first | exact hf | cases h
      refine ⟨htop.1, fun f hmem => ?_⟩
      rcases List.mem_cons.mp hmem with rfl | hmem
      · exact htop.2
      · exact hrest f hmem

/-- When a call has returned the one below it goes on. -/
theorem stackOk_of_suspended {rest : List Frame} (ho : s.owner ≠ some t)
    (h : ∀ f ∈ rest, Suspended vm f) : StackOk vm t s rest := by
  cases rest with
  | nil => exact ho
  | cons frame rest =>
      refine ⟨?_, fun f hf => h f (List.mem_cons_of_mem _ hf)⟩
      have hs := h frame List.mem_cons_self
      cases frame with
      | classGetter g pc | uninitializing pc => exact hs.elim
      | fieldGetter g pc | methodGetter g pc => cases pc <;> first | exact ⟨ho, hs⟩ | exact hs.elim

/-- Getters may be called, and lookups are answered. -/
def ThreadAction.Plain : ThreadAction → Prop
  | .call _ => True
  | .uninitializeCall => False
  | .advance l => l.Succeed

/-- **One step of a thread.** -/
theorem threadStep_ok {a : ThreadAction} (ha : a.Plain) (hi : Inv vm s) {stack stack' : List Frame}
    (hok : StackOk vm t s stack) (h : threadStep t a s stack = some (s', stack')) :
    StepOk vm t s s' (StackOk vm t s' stack') := by
  cases a with
  | call g =>
      rw [threadStep] at h
      split_ifs at h with hm
      obtain ⟨rfl, rfl⟩ := Prod.mk.inj (Option.some.inj h)
      obtain ⟨ho, hs⟩ := of_mayCall hok hm
      refine ⟨hi, ⟨?_, hs⟩, fun u _ => .refl u s⟩
      cases g <;> exact ho
  | uninitializeCall => exact ha.elim
  | advance l =>
      cases stack with
      | nil => cases h
      | cons frame rest =>
          obtain ⟨⟨s₁, next⟩, hf, rfl, rfl⟩ := eq_some_of_map h
          obtain ⟨hi', hn, hr⟩ := frameStep_ok ha hi hok.1 hf
          refine ⟨hi', ?_, hr⟩
          cases next with
          | some frame' => exact ⟨hn, hok.2⟩
          | none => exact stackOk_of_suspended hn hok.2

theorem threads_outline :
    Interleaving.Outline (threadStep (T := T)) (fun _ => ThreadAction.Plain) (Inv vm) (StackOk vm)
      Rely where
  step _ _ _ _ _ _ ha hi hok h :=
    let ⟨hi', hok', hr⟩ := threadStep_ok ha hi hok h
    ⟨hi', hok', hr⟩
  stable _ _ _ _ _ _ hr hok := hok.stable hr

end steps

/-! ### The start -/

theorem start_holds (vm : ℕ) :
    Interleaving.Outline.Holds (Inv vm) (StackOk vm) (Threads.start T vm) := by
  refine ⟨⟨rfl, fun _ => .inl rfl, fun _ => .inl rfl, List.nil_prefix, ?_, fun _ _ => rfl, ?_⟩, ?_⟩
  · exact fun h => (nomatch h)
  · exact fun r hr => absurd hr List.not_mem_nil
  · exact fun t h => (nomatch h)

/-- No thread that waits for the mutex holds it. -/
theorem not_locksTwice {c : Threads T} {t : T} (h : StackOk vm t c.shared (c.locals t)) :
    ¬ c.LocksTwice t := by
  rintro ⟨ho, rest, ⟨g, e⟩ | ⟨g, e⟩ | ⟨g, e⟩ | e⟩
  all_goals rw [e] at h
  · exact h.1 ho
  · exact h.1 ho
  · exact h.1 ho
  · exact h.1

theorem Returned.Right.not_isNull {r : Returned} (h : r.Right vm) : r.isNull = false := by
  cases r <;> simp_all [Returned.Right, Returned.isNull]

theorem Returned.Right.unique {r r' : Returned} (h : r.Right vm) (h' : r'.Right vm)
    (hg : r.getter = r'.getter) : r = r' := by
  cases r <;> cases r' <;> cases hg <;> exact congrArg _ (h.trans h'.symm)

end outline

/-- What the getters promise in a state of the process. -/
structure Promised {T : Type} (c : Threads T) : Prop where
  /-- `NewGlobalRef` was called at most once for each class. -/
  once : ∀ g : ClassGlobal, c.shared.globals.globalRefs.countP (fun r => r.name = g.name) ≤ 1
  notTwice : ∀ t, ¬ c.LocksTwice t
  notNull : ∀ r ∈ c.shared.returned, r.isNull = false
  /-- All calls of one getter returned the same. -/
  same : ∀ r ∈ c.shared.returned, ∀ r' ∈ c.shared.returned, r.getter = r'.getter → r = r'

theorem Inv.promised {T : Type} {vm : ℕ} {c : Threads T}
    (h : Interleaving.Outline.Holds (Inv vm) (StackOk vm) c) : Promised c := by
  obtain ⟨hi, hok⟩ := h
  refine ⟨fun g => ?_, fun t => not_locksTwice (hok t), ?_, ?_⟩
  · have hle := hi.refs.sublist.countP_le (p := fun r => decide (r.name = g.name))
    have hone := countP_allRefs vm g
    omega
  · exact fun r hr => (hi.returned r hr).not_isNull
  · exact fun r hr r' hr' hg => (hi.returned r hr).unique (hi.returned r' hr') hg

/-- **The getters agree** in every state of every interleaving of any number of threads, with calls
of getters from lookups nested to any depth. -/
theorem getters_agree {T : Type} [DecidableEq T] (vm : ℕ) (as : List (T × ThreadAction))
    (has : ∀ a ∈ as, a.2.Plain) :
    Transition.EveryState (Interleaving.step threadStep) Promised (Threads.start T vm) as := by
  have h := threads_outline.everyState (start_holds vm) (.of_forall has)
  rw [Transition.everyState_iff] at h ⊢
  exact fun pre hpre c hr => Inv.promised (h pre hpre c hr)

/-- Two threads ask for a class at the same time, and the second one waits for the mutex. -/
def twoThreads : List (Bool × ThreadAction) :=
  [(true, .call (.clazz .stringClass)), (false, .call (.clazz .stringClass)),
    (true, .advance answered), (false, .advance answered)] ++
  List.replicate 15 (true, .advance answered) ++ List.replicate 4 (false, .advance answered)

theorem twoThreads_agree :
    ∃ c, Transition.run (Interleaving.step threadStep) (Threads.start Bool 0) twoThreads = some c ∧
      c.shared.returned.map Returned.getter = [.clazz .stringClass, .clazz .stringClass] ∧
      Promised c := by
  have hl : answered.Succeed := by simp [Lookups.Succeed, answered]
  have hplain : ∀ a ∈ twoThreads, a.2.Plain := by
    simp [twoThreads, or_imp, forall_and, ThreadAction.Plain, hl]
  have hp := Transition.everyState_iff.mp (getters_agree 0 twoThreads hplain)
  have hrun : (Transition.run (Interleaving.step threadStep) (Threads.start Bool 0)
      twoThreads).map (fun c => c.shared.returned.map Returned.getter) =
      some [.clazz .stringClass, .clazz .stringClass] := by decide +kernel
  obtain ⟨c, hc, hret⟩ := Option.map_eq_some_iff.mp hrun
  exact ⟨c, hc, hret, hp twoThreads List.prefix_rfl c hc⟩

end JniConstants
end NativeHelper
