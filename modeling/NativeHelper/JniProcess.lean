import NativeHelper.JniInvocation

/-! # A process that uses the invocation API

The C functions over the state of a process: the instances on the heap, `jni_invocation_`, the
calls the loader was asked for, and the cached constants.  A call that aborts, or that goes
through a dangling or a null pointer, has no result.

`OneInstance` is the same process with room for one instance only, so that nothing else can be
built.  The steps of the process from such a state are the steps of `OneInstance`
(`OneInstance.Step.sound` and `OneInstance.step_cases`), so that a process never has a second
instance (`run_initial`).

`runs_dispatch` puts together what a run does with the libraries: which ones it tries, what
`Init` returns, and which symbols the three calls reach afterwards. -/

namespace NativeHelper
namespace JniInvocation

open Transition

/-- The state of a process. -/
structure Process where
  /-- The instances that have been created and not destroyed, by their addresses. -/
  heap : List (ℕ × JniInvocationImpl)
  /-- `jni_invocation_` -/
  jniInvocation : Option ℕ
  loader : List LoaderCall
  /-- How often the property of the library name was read. -/
  propertyReads : ℕ
  constants : JniConstants.State

/-- The process before its first call, in front of the VM `vm`. -/
def initial (vm : ℕ) : Process := ⟨[], none, [], 0, JniConstants.initial vm⟩

/-! ### The C functions -/

/-- `JniInvocationCreate`, when the allocator returns `address`. -/
def jniInvocationCreate (address : ℕ) (s : Process) : Option Process :=
  if s.jniInvocation.isSome then none
  else some { s with heap := s.heap ++ [(address, .new)], jniInvocation := some address }

/-- `JniInvocationInit`. -/
def jniInvocationInit (android : Bool) (address : ℕ) (library : Option String) (os : Os)
    (s : Process) : Option (ℤ × Process) :=
  match s.heap.lookup address with
  | none => none
  | some impl =>
      let (ok, m, reads) := init android library os ⟨impl, s.loader⟩
      some (if ok then 1 else 0,
        { s with
          heap := s.heap.map fun e => if e.1 = address then (address, m.impl) else e
          loader := m.loader
          propertyReads := s.propertyReads + reads })

/-- `JniInvocationDestroy`; deleting a null pointer does nothing. -/
def jniInvocationDestroy (address : Option ℕ) (s : Process) : Option Process :=
  match address with
  | none => some s
  | some address =>
      match s.heap.lookup address with
      | none => none
      | some impl => some
          { s with
            heap := s.heap.filter fun e => e.1 ≠ address
            jniInvocation := none
            loader := s.loader ++ (impl.handle.map LoaderCall.closeLibrary).toList }

def getJniInvocation (s : Process) : Option JniInvocationImpl :=
  match s.jniInvocation with
  | none => none
  | some address => s.heap.lookup address

/-- The call goes to the symbol that is returned with the new state. -/
def jniGetDefaultJavaVMInitArgs (s : Process) : Option (Symbol × Process) :=
  match getJniInvocation s with
  | none => none
  | some impl => impl.getDefaultJavaVMInitArgs.map fun f => (f, s)

/-- `starts` says whether the library starts a VM. -/
def jniCreateJavaVM (starts : Bool) (s : Process) : Option (Symbol × Process) :=
  match JniConstants.after (JniConstants.uninitializeConstants s.constants) with
  | none => none
  | some constants =>
      match getJniInvocation { s with constants } with
      | none => none
      | some impl => impl.createJavaVM.bind fun f =>
          if starts then
            (JniConstants.after (JniConstants.startJavaVM constants)).map fun constants =>
              (f, { s with constants })
          else some (f, { s with constants })

def jniGetCreatedJavaVMs (s : Process) : Option (Symbol × Process) :=
  match getJniInvocation s with
  | none => none
  | some impl => impl.getCreatedJavaVMs.map fun f => (f, s)

/-- The call of one of the three functions. -/
def jniCall (starts : Bool) (s : Process) : ApiFunction → Option (Symbol × Process)
  | .getDefaultJavaVMInitArgs => jniGetDefaultJavaVMInitArgs s
  | .createJavaVM => jniCreateJavaVM starts s
  | .getCreatedJavaVMs => jniGetCreatedJavaVMs s

/-! ### Runs -/

/-- One call of a run. -/
inductive Action where
  | create (address : ℕ)
  | init (address : ℕ) (library : Option String) (os : Os)
  | destroy (address : Option ℕ)
  | call (f : ApiFunction) (starts : Bool)

def step (android : Bool) (s : Process) : Action → Option Process
  | .create address => jniInvocationCreate address s
  | .init address library os => (jniInvocationInit android address library os s).map (·.2)
  | .destroy address => jniInvocationDestroy address s
  | .call f starts => (jniCall starts s f).map (·.2)

/-! ### One instance -/

/-- A process with at most one instance. -/
structure OneInstance where
  live : Option (ℕ × JniInvocationImpl)
  loader : List LoaderCall
  propertyReads : ℕ
  constants : JniConstants.State

namespace OneInstance

/-- The instance is the one `jni_invocation_` points to. -/
def toProcess (t : OneInstance) : Process where
  heap := t.live.toList
  jniInvocation := t.live.map (·.1)
  loader := t.loader
  propertyReads := t.propertyReads
  constants := t.constants

/-- The constants after a call of `f`. -/
def constantsAfter (starts : Bool) (c : JniConstants.State) : ApiFunction → JniConstants.State
  | .createJavaVM =>
      if starts then JniConstants.initial (c.vm + 1)
      else { JniConstants.initial c.vm with globalRefs := c.globalRefs }
  | .getDefaultJavaVMInitArgs | .getCreatedJavaVMs => c

/-- `Init` of the instance. -/
def reinit (android : Bool) (t : OneInstance) (address : ℕ) (impl : JniInvocationImpl)
    (library : Option String) (os : Os) : OneInstance :=
  let (_, m, reads) := init android library os ⟨impl, t.loader⟩
  { t with
    live := some (address, m.impl)
    loader := m.loader
    propertyReads := t.propertyReads + reads }

theorem reinit_cases (android : Bool) (t : OneInstance) (address : ℕ) (impl : JniInvocationImpl)
    (library : Option String) (os : Os) :
    ∃ ok m, (init android library os ⟨impl, t.loader⟩).1 = ok ∧
      Outcome os (libraryName android library os) ⟨impl, t.loader⟩ (ok, m) ∧
      t.reinit android address impl library os =
        { t with
          live := some (address, m.impl)
          loader := m.loader
          propertyReads := t.propertyReads + (getLibrary android library android os).2 } := by
  obtain ⟨ok, m, reads, hi⟩ : ∃ ok m reads,
    init android library os ⟨impl, t.loader⟩ = (ok, m, reads) := ⟨_, _, _, rfl⟩
  obtain ⟨ho, hreads⟩ := init_outcome hi
  exact ⟨ok, m, by rw [hi], ho, by rw [reinit, hi, hreads]⟩

/-- `Destroy` of the instance. -/
def destroyed (t : OneInstance) (impl : JniInvocationImpl) : OneInstance :=
  { t with
    live := none
    loader := t.loader ++ (impl.handle.map LoaderCall.closeLibrary).toList }

/-- What an action does to the one instance. -/
inductive Step (android : Bool) : OneInstance → Action → OneInstance → Prop
  | create {t : OneInstance} (ht : t.live = none) (address : ℕ) :
      Step android t (.create address) { t with live := some (address, .new) }
  | init {t : OneInstance} {address : ℕ} {impl : JniInvocationImpl}
      (ht : t.live = some (address, impl)) (library : Option String) (os : Os) :
      Step android t (.init address library os) (t.reinit android address impl library os)
  | destroyNull (t : OneInstance) : Step android t (.destroy none) t
  | destroy {t : OneInstance} {address : ℕ} {impl : JniInvocationImpl}
      (ht : t.live = some (address, impl)) :
      Step android t (.destroy (some address)) (t.destroyed impl)
  | call {t : OneInstance} {address : ℕ} {impl : JniInvocationImpl}
      (ht : t.live = some (address, impl)) {f : ApiFunction} (hf : impl.pointer f ≠ none)
      (starts : Bool) :
      Step android t (.call f starts) { t with constants := constantsAfter starts t.constants f }

@[simp] theorem getJniInvocation_toProcess (t : OneInstance) :
    getJniInvocation t.toProcess = t.live.map (·.2) := by
  unfold getJniInvocation toProcess
  cases h : t.live with
  | none => rfl
  | some e =>
      obtain ⟨p, impl⟩ := e
      simp

/-- A call reaches the symbol its own pointer of the one instance holds. -/
theorem jniCall_toProcess (t : OneInstance) (f : ApiFunction) (starts : Bool) :
    jniCall starts t.toProcess f = (t.live.bind fun e => e.2.pointer f).map fun target =>
      (target, { t with constants := constantsAfter starts t.constants f }.toProcess) := by
  obtain ⟨live, loader, reads, c⟩ := t
  cases f with
  | getDefaultJavaVMInitArgs =>
      show jniGetDefaultJavaVMInitArgs _ = _
      unfold jniGetDefaultJavaVMInitArgs
      rw [getJniInvocation_toProcess]
      cases live <;> rfl
  | createJavaVM =>
      show jniCreateJavaVM starts _ = _
      have hu : JniConstants.after (JniConstants.uninitializeConstants c) =
          some { JniConstants.initial c.vm with globalRefs := c.globalRefs } := by
        rw [JniConstants.uninitializeConstants_eq]
        rfl
      unfold jniCreateJavaVM
      simp only [toProcess, hu]
      cases live with
      | none => rfl
      | some e =>
          obtain ⟨p, impl⟩ := e
          cases hp : impl.createJavaVM <;> cases starts <;>
            simp [getJniInvocation, hp, JniInvocationImpl.pointer, constantsAfter,
              JniConstants.after, JniConstants.startJavaVM, JniConstants.initial]
  | getCreatedJavaVMs =>
      show jniGetCreatedJavaVMs _ = _
      unfold jniGetCreatedJavaVMs
      rw [getJniInvocation_toProcess]
      cases live <;> rfl

theorem jniInvocationInit_toProcess (android : Bool) (t : OneInstance) (address : ℕ)
    (library : Option String) (os : Os) :
    jniInvocationInit android address library os t.toProcess =
      (t.live.filter fun e => address = e.1).map fun e =>
        (if (init android library os ⟨e.2, t.loader⟩).1 then 1 else 0,
          (t.reinit android address e.2 library os).toProcess) := by
  obtain ⟨live, loader, reads, c⟩ := t
  unfold jniInvocationInit
  cases live with
  | none => rfl
  | some e =>
      obtain ⟨p, impl⟩ := e
      by_cases hp : address = p
      · subst hp
        simp [toProcess, reinit]
        rfl
      · have hb : (address == p) = false := by simpa using hp
        simp [toProcess, List.lookup_cons, hb, hp]

theorem jniInvocationDestroy_toProcess (t : OneInstance) (address : ℕ) :
    jniInvocationDestroy (some address) t.toProcess =
      (t.live.filter fun e => address = e.1).map fun e => (t.destroyed e.2).toProcess := by
  obtain ⟨live, loader, reads, c⟩ := t
  unfold jniInvocationDestroy
  cases live with
  | none => rfl
  | some e =>
      obtain ⟨p, impl⟩ := e
      by_cases hp : address = p
      · subst hp
        simp [toProcess, destroyed]
      · have hb : (address == p) = false := by simpa using hp
        simp [toProcess, List.lookup_cons, hb, hp]

/-- The instance at an address is the one instance. -/
theorem map_filter_eq_some {β : Type} {t : OneInstance} {address : ℕ}
    {f : ℕ × JniInvocationImpl → β} {b : β}
    (h : (t.live.filter fun e => address = e.1).map f = some b) :
    ∃ impl, t.live = some (address, impl) ∧ f (address, impl) = b := by
  obtain ⟨⟨p, impl⟩, hfilter, hb⟩ := Option.map_eq_some_iff.mp h
  obtain ⟨ht, hp⟩ := Option.filter_eq_some_iff.mp hfilter
  obtain rfl : address = p := of_decide_eq_true hp
  exact ⟨impl, ht, hb⟩

/-- The process makes every step of the one instance. -/
theorem Step.sound {android : Bool} {t t' : OneInstance} {a : Action} (h : Step android t a t') :
    step android t.toProcess a = some t'.toProcess := by
  cases h with
  | create ht address =>
      show jniInvocationCreate address t.toProcess = _
      simp [jniInvocationCreate, toProcess, ht]
  | init ht library os =>
      show (jniInvocationInit android _ library os t.toProcess).map _ = _
      rw [jniInvocationInit_toProcess, ht]
      simp
  | destroyNull => rfl
  | destroy ht =>
      show jniInvocationDestroy (some _) t.toProcess = _
      rw [jniInvocationDestroy_toProcess, ht]
      simp
  | @call _ _ ht f hf starts =>
      show (jniCall starts t.toProcess f).map _ = _
      obtain ⟨target, htarget⟩ := Option.ne_none_iff_exists'.mp hf
      rw [jniCall_toProcess]
      simp [ht, htarget]

/-- The process makes no other steps. -/
theorem step_cases {android : Bool} {t : OneInstance} {a : Action} {s' : Process}
    (h : step android t.toProcess a = some s') : ∃ t', Step android t a t' ∧ s' = t'.toProcess := by
  cases a with
  | create address =>
      change jniInvocationCreate address t.toProcess = some s' at h
      cases ht : t.live with
      | none =>
          obtain rfl : _ = s' := by simpa [jniInvocationCreate, toProcess, ht] using h
          exact ⟨_, .create ht address, rfl⟩
      | some e => simp [jniInvocationCreate, toProcess, ht] at h
  | init address library os =>
      change (jniInvocationInit android address library os t.toProcess).map _ = some s' at h
      rw [jniInvocationInit_toProcess] at h
      rw [Option.map_map] at h
      obtain ⟨impl, ht, rfl⟩ := map_filter_eq_some h
      exact ⟨_, .init ht library os, rfl⟩
  | destroy address =>
      change jniInvocationDestroy address t.toProcess = some s' at h
      cases address with
      | none =>
          obtain rfl : _ = s' := Option.some.inj h
          exact ⟨t, .destroyNull t, rfl⟩
      | some address =>
          rw [jniInvocationDestroy_toProcess] at h
          obtain ⟨impl, ht, rfl⟩ := map_filter_eq_some h
          exact ⟨_, .destroy ht, rfl⟩
  | call f starts =>
      change (jniCall starts t.toProcess f).map _ = some s' at h
      rw [jniCall_toProcess] at h
      cases ht : t.live with
      | none => simp [ht] at h
      | some e =>
          obtain ⟨p, impl⟩ := e
          cases hf : impl.pointer f with
          | none => simp [ht, hf] at h
          | some target =>
              have hs : { t with constants := constantsAfter starts t.constants f }.toProcess =
                  s' := by simpa [ht, hf] using h
              exact ⟨_, .call ht (by simp [hf]) starts, hs.symm⟩

/-- A run from a process with at most one instance keeps it that way. -/
theorem run_toProcess {android : Bool} {t : OneInstance} {as : List Action} {s : Process}
    (hr : run (JniInvocation.step android) t.toProcess as = some s) :
    ∃ t' : OneInstance, s = t'.toProcess := by
  apply run_preserves _ _ ⟨t, rfl⟩ hr
  rintro s a s' ⟨t, rfl⟩ h
  obtain ⟨t', -, rfl⟩ := step_cases h
  exact ⟨t', rfl⟩

end OneInstance

theorem run_initial {android : Bool} {vm : ℕ} {as : List Action} {s : Process}
    (hr : run (step android) (initial vm) as = some s) : ∃ t : OneInstance, s = t.toProcess :=
  OneInstance.run_toProcess (t := ⟨none, [], 0, JniConstants.initial vm⟩) hr

/-! ### Dispatch -/

/-- The call neither loads a library nor closes one. -/
def Action.KeepsLibrary : Action → Prop
  | .create _ | .call _ _ => True
  | .init _ _ _ | .destroy _ => False

theorem run_keepsLibrary {android : Bool} {t : OneInstance} {e : ℕ × JniInvocationImpl}
    (ht : t.live = some e) {calls : List Action} {s : Process} (hk : ∀ a ∈ calls, a.KeepsLibrary)
    (hr : run (step android) t.toProcess calls = some s) :
    ∃ t' : OneInstance, s = t'.toProcess ∧ t'.live = some e := by
  refine run_invariant _ (P := fun s => ∃ t' : OneInstance, s = t'.toProcess ∧ t'.live = some e)
    ?_ ⟨t, rfl, ht⟩ hk hr
  rintro s a s' ⟨t, rfl, ht⟩ ha h
  obtain ⟨t', h', rfl⟩ := OneInstance.step_cases h
  refine ⟨t', rfl, ?_⟩
  cases h' with
  | create hn address => rw [hn] at ht; cases ht
  | call _ _ _ => exact ht
  | init _ _ _ | destroyNull | destroy _ => exact ha.elim

/-- A build that is not debuggable reads no property and ignores the argument. -/
theorem getLibrary_nonDebuggable {os : Os} (ho : os.isDebuggable = false)
    (library : Option String) (hasBuffer : Bool) :
    getLibrary true library hasBuffer os = (kLibraryFallback, 0) := by
  simp [getLibrary, ho]

theorem attempts_fallback (os : Os) :
    attempts os kLibraryFallback = [(kLibraryFallback, os.dlopen kLibraryFallback)] := by
  simp [attempts]

/-- What `JniInvocationInit` does to the one instance. -/
theorem OneInstance.init_cases {android : Bool} {t : OneInstance} {address : ℕ}
    {library : Option String} {os : Os} {r : ℤ} {s : Process}
    (h : jniInvocationInit android address library os t.toProcess = some (r, s)) :
    ∃ impl ok m, Outcome os (libraryName android library os) ⟨impl, t.loader⟩ (ok, m) ∧
      (r ≠ 0 ↔ ok = true) ∧
      s = OneInstance.toProcess
        { t with
          live := some (address, m.impl)
          loader := m.loader
          propertyReads := t.propertyReads + (getLibrary android library android os).2 } := by
  rw [jniInvocationInit_toProcess] at h
  obtain ⟨impl, -, he⟩ := map_filter_eq_some h
  obtain ⟨ok, m, hok, ho, hm⟩ := t.reinit_cases android address impl library os
  rw [hok, hm, Prod.mk.injEq] at he
  refine ⟨impl, ok, m, ho, ?_, he.2.symm⟩
  rw [← he.1]
  cases ok <;> simp

/-- **Dispatch and library choice.**  After every run there is at most one instance, which
`jni_invocation_` points to; and `Init` tries the libraries it should, succeeds if and only if
the first one that opens exports the three symbols, and makes the three calls reach them. -/
theorem runs_dispatch (android : Bool) (vm : ℕ) (as : List Action) (s : Process)
    (hr : run (step android) (initial vm) as = some s) :
    (s.heap = [] ∧ s.jniInvocation = none ∨
      ∃ address impl, s.heap = [(address, impl)] ∧ s.jniInvocation = some address) ∧
    ∀ address library os r s₁, jniInvocationInit android address library os s = some (r, s₁) →
      openCalls s₁.loader = openCalls s.loader ++ attempts os (libraryName android library os) ∧
      (r ≠ 0 ↔ ∃ h, firstOpened os (libraryName android library os) = some h ∧ Exports os h) ∧
      (r ≠ 0 → ∀ h, firstOpened os (libraryName android library os) = some h →
        ∀ calls s₂, (∀ a ∈ calls, a.KeepsLibrary) → run (step android) s₁ calls = some s₂ →
          ∀ f starts, ∃ s₃, jniCall starts s₂ f = some (⟨h, f.symbol⟩, s₃)) ∧
      (android = true → os.isDebuggable = false →
        attempts os (libraryName android library os) =
          [("libart.so", os.dlopen "libart.so")] ∧ s₁.propertyReads = s.propertyReads) := by
  obtain ⟨t, rfl⟩ := run_initial hr
  constructor
  · cases ht : t.live with
    | none => exact .inl ⟨by simp [OneInstance.toProcess, ht], by simp [OneInstance.toProcess, ht]⟩
    | some e =>
        exact .inr ⟨e.1, e.2, by simp [OneInstance.toProcess, ht],
          by simp [OneInstance.toProcess, ht]⟩
  · intro address library os r s₁ h
    obtain ⟨impl, ok, m, ho, hok, rfl⟩ := OneInstance.init_cases h
    refine ⟨ho.openCalls, hok.trans ho.result_iff, ?_, ?_⟩
    · intro hr' g hg calls s₂ hk hr₂ f starts
      obtain ⟨t₂, rfl, ht₂⟩ := run_keepsLibrary rfl hk hr₂
      have hm := ho.impl_of_loaded (hok.mp hr') hg
      rw [OneInstance.jniCall_toProcess, ht₂, Option.bind_some, hm,
        JniInvocationImpl.ofLibrary_pointer]
      exact ⟨_, rfl⟩
    · rintro rfl hd
      have hl := getLibrary_nonDebuggable hd library true
      constructor
      · rw [libraryName, hl]
        exact attempts_fallback os
      · simp [OneInstance.toProcess, hl]

/-- Only `libart.so` can be opened. -/
def onlyFallback : Os where
  isDebuggable := true
  librarySystemProperty := (0, "")
  dlopen name := if name = kLibraryFallback then some 1 else none
  dlsym _ _ := true

theorem runs_dispatch_fallback :
    ∃ s r s₁, run (step true) (initial 0) [.create 7] = some s ∧
      jniInvocationInit true 7 (some "libartd.so") onlyFallback s = some (r, s₁) ∧
      openCalls s₁.loader = [("libartd.so", none), ("libart.so", some 1)] ∧
      ∃ s₂, jniCall true s₁ .createJavaVM = some (⟨1, "JNI_CreateJavaVM"⟩, s₂) := by
  obtain ⟨s, hs⟩ : ∃ s, run (step true) (initial 0) [.create 7] = some s := ⟨_, rfl⟩
  have hi : (jniInvocationInit true 7 (some "libartd.so") onlyFallback s).isSome = true := by
    obtain rfl := Option.some.inj hs
    rfl
  obtain ⟨⟨r, s₁⟩, hi⟩ := Option.isSome_iff_exists.mp hi
  obtain ⟨-, hd⟩ := runs_dispatch true 0 [.create 7] s hs
  obtain ⟨ho, hr, hc, -⟩ := hd 7 (some "libartd.so") onlyFallback r s₁ hi
  have hn : firstOpened onlyFallback "libartd.so" = some 1 := by decide
  have hl : openCalls s.loader = [] := by
    obtain rfl := Option.some.inj hs
    rfl
  refine ⟨s, r, s₁, hs, hi, ?_, ?_⟩
  · rw [ho, hl]
    decide
  · exact hc (hr.mpr ⟨1, hn, fun _ => rfl⟩) 1 hn [] s₁ (by simp) rfl .createJavaVM true
end JniInvocation
end NativeHelper
