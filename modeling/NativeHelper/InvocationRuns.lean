import NativeHelper.JniProcess

/-! # The function table and the library handles over whole runs

Two properties that `JniInvocationImpl` keeps only if `Init` is not called on an instance that
has a library.

* `consistent_iff`: the instance has no library and no pointers, or an open library and three
  pointers into it, in every state of a run if and only if every `Init` of the run either loads
  a library or fails, before it has found a symbol, on an instance without one.
* `lifetime_balanced_iff`: what an instance opened has been closed exactly once when it is
  destroyed if and only if every `Init` of its life found `handle_` null.

A failed lookup closes the library and clears `handle_`, but not the pointers that were found
before it; and `Init` overwrites `handle_` without closing what it held. -/

namespace NativeHelper
namespace JniInvocation

open Transition

/-! ### What a step does with the handles -/

/-- The handle of the instance. -/
def held (s : Process) : Option Handle := (getJniInvocation s).bind fun impl => impl.handle

/-- `Init` is called on an instance without a library. -/
def FindsUnloaded (s : Process) : Action → Prop
  | .init address _ _ => ∀ e ∈ s.heap, e.1 = address → e.2.handle = none
  | .create _ | .destroy _ | .call _ _ => True

@[simp] theorem held_toProcess (t : OneInstance) :
    held t.toProcess = t.live.bind fun e => e.2.handle := by
  unfold held
  rw [OneInstance.getJniInvocation_toProcess]
  cases t.live <;> rfl

theorem findsUnloaded_toProcess {t : OneInstance} {address : ℕ} {impl : JniInvocationImpl}
    (ht : t.live = some (address, impl)) (library : Option String) (os : Os) :
    FindsUnloaded t.toProcess (.init address library os) ↔ impl.handle = none := by
  simp [FindsUnloaded, OneInstance.toProcess, ht]

/-- An action leaves the handle alone or closes it, except for `Init`, which opens another one
whatever it is. -/
theorem OneInstance.Step.handles {android : Bool} {t t' : OneInstance} {a : Action}
    (h : Step android t a t') :
    ∃ calls, t'.loader = t.loader ++ calls ∧
      (FindsUnloaded t.toProcess a ∧
          (∀ l, Ledger.Handled l (held t.toProcess) (l ++ ledger calls) (held t'.toProcess)) ∨
        (FindsUnloaded t.toProcess a ↔ held t.toProcess = none) ∧
          ∀ l, Ledger.Reopened l (l ++ ledger calls) (held t'.toProcess)) := by
  cases h with
  | create ht address =>
      refine ⟨[], (List.append_nil _).symm, .inl ⟨trivial, fun l => ?_⟩⟩
      simpa [ledger, ht] using Ledger.Handled.kept none
  | @init address impl ht library os =>
      obtain ⟨ok, m, -, ho, hm⟩ := t.reinit_cases android address impl library os
      obtain ⟨calls, hc, hr⟩ := ho.reopened
      rw [hm]
      refine ⟨calls, hc, .inr ⟨?_, fun l => ?_⟩⟩
      · rw [findsUnloaded_toProcess ht, held_toProcess, ht]
        rfl
      · rw [held_toProcess]
        exact hr l
  | destroyNull =>
      refine ⟨[], (List.append_nil _).symm, .inl ⟨trivial, fun l => ?_⟩⟩
      simpa [ledger] using Ledger.Handled.kept _
  | @destroy address impl ht =>
      refine ⟨_, rfl, .inl ⟨trivial, fun l => ?_⟩⟩
      have hl : ledger (impl.handle.map LoaderCall.closeLibrary).toList =
          (impl.handle.map Ledger.Entry.release).toList := by cases impl.handle <;> rfl
      simpa [hl, ht, destroyed] using Ledger.Handled.released impl.handle
  | call ht hf starts =>
      refine ⟨[], (List.append_nil _).symm, .inl ⟨trivial, fun l => ?_⟩⟩
      simpa [ledger] using Ledger.Handled.kept _

/-- There is at most one instance, and since the calls `base` no handle has been closed that was
not open, nor the one that is held. -/
def Tracked (base : List LoaderCall) (s : Process) : Prop :=
  ∃ (t : OneInstance) (life : List LoaderCall), s = t.toProcess ∧ t.loader = base ++ life ∧
    Ledger.Safe (ledger life) ∧ Ledger.Covers (ledger life) (held s)

theorem tracked_unloaded {t : OneInstance} (ht : t.live = none) : Tracked t.loader t.toProcess := by
  refine ⟨t, [], rfl, (List.append_nil _).symm, Ledger.safe_nil, ?_⟩
  rw [held_toProcess, ht]
  exact Ledger.owns_nil.covers

theorem tracked_step {android : Bool} {base : List LoaderCall} {s s' : Process} {a : Action}
    (hs : Tracked base s) (h : step android s a = some s') : Tracked base s' := by
  obtain ⟨t, life, rfl, hl, hsafe, hcov⟩ := hs
  obtain ⟨t', ht, rfl⟩ := OneInstance.step_cases h
  obtain ⟨calls, hc, hh⟩ := ht.handles
  refine ⟨t', life ++ calls, rfl, by rw [hc, hl, List.append_assoc], ?_⟩
  rw [ledger_append]
  rcases hh with ⟨-, hd⟩ | ⟨-, ho⟩
  · exact ⟨(hd _).safe hsafe hcov, (hd _).covers hcov⟩
  · exact ⟨(ho _).safe hsafe hcov, (ho _).covers hcov⟩

/-! ### The function table -/

/-- Something has been opened as `h` that has not been closed. -/
def IsOpen (calls : List LoaderCall) (h : Handle) : Prop :=
  Ledger.released (ledger calls) h < Ledger.acquired (ledger calls) h

/-- No library and no pointer, or an open library and three pointers into it. -/
def TableOk (calls : List LoaderCall) (impl : JniInvocationImpl) : Prop :=
  impl.handle = none ∧ (∀ f, impl.pointer f = none) ∨
    ∃ h, impl.handle = some h ∧ IsOpen calls h ∧
      ∀ f, ∃ target, impl.pointer f = some target ∧ target.handle = h

/-- The table of every live instance is in order. -/
def Consistent (s : Process) : Prop := ∀ e ∈ s.heap, TableOk s.loader e.2

/-- The calls of `Init` that leave the table in order: those that load a library, and those on an
instance without one that fail before the first symbol is found. -/
def KeepsTable (android : Bool) (s : Process) : Action → Prop
  | .init address library os =>
      (∃ h, firstOpened os (libraryName android library os) = some h ∧ Exports os h) ∨
        FindsUnloaded s (.init address library os) ∧
          ∀ h, firstOpened os (libraryName android library os) = some h →
            os.dlsym h "JNI_GetDefaultJavaVMInitArgs" = false
  | .create _ | .destroy _ | .call _ _ => True

theorem tableOk_unloaded_iff {calls : List LoaderCall} {impl : JniInvocationImpl}
    (h : impl.handle = none) : TableOk calls impl ↔ ∀ f, impl.pointer f = none := by
  constructor
  · rintro (⟨-, hp⟩ | ⟨g, hg, -⟩)
    · exact hp
    · rw [h] at hg
      cases hg
  · exact fun hp => .inl ⟨h, hp⟩

theorem TableOk.pointer_eq_none_iff {calls : List LoaderCall} {impl : JniInvocationImpl}
    (h : TableOk calls impl) (f : ApiFunction) : impl.pointer f = none ↔ impl.handle = none := by
  rcases h with ⟨hh, hp⟩ | ⟨g, hg, -, hp⟩
  · simp [hh, hp f]
  · obtain ⟨target, ht, -⟩ := hp f
    simp [hg, ht]

/-- What is left after a failed lookup points nowhere only if it failed at the first symbol and
there was nothing before. -/
theorem TableOk.abandoned_iff {calls : List LoaderCall} {impl : JniInvocationImpl}
    (hm : TableOk calls impl) (h : Handle) (f : ApiFunction) :
    (∀ g, (impl.abandoned h f).pointer g = none) ↔
      f = .getDefaultJavaVMInitArgs ∧ impl.handle = none := by
  cases f with
  | getDefaultJavaVMInitArgs =>
      constructor
      · intro hp
        have hcreate : impl.pointer .createJavaVM = none := hp .createJavaVM
        exact ⟨rfl, (hm.pointer_eq_none_iff _).mp hcreate⟩
      · rintro ⟨-, hh⟩ g
        have hp := (hm.pointer_eq_none_iff g).mpr hh
        cases g with
        | getDefaultJavaVMInitArgs => rfl
        | createJavaVM | getCreatedJavaVMs => exact hp
  | createJavaVM | getCreatedJavaVMs =>
      -- the first pointer has been found, and stays
      refine iff_of_false (fun hp => ?_) (fun hf => ?_)
      · exact Option.some_ne_none _ (hp .getDefaultJavaVMInitArgs)
      · cases hf.1

section outcome
variable {os : Os} {name : String} {m m' : Loading} {ok : Bool}

/-- `Init` leaves the table in order in two cases only. -/
theorem Outcome.tableOk_iff (ho : Outcome os name m (ok, m')) (hm : TableOk m.loader m.impl)
    (hc : Ledger.Covers (ledger m'.loader) m'.impl.handle) :
    TableOk m'.loader m'.impl ↔
      (∃ h, firstOpened os name = some h ∧ Exports os h) ∨
        m.impl.handle = none ∧ ∀ h, firstOpened os name = some h →
          os.dlsym h "JNI_GetDefaultJavaVMInitArgs" = false := by
  cases ho with
  | unopened hn =>
      rw [tableOk_unloaded_iff rfl]
      have hp : ∀ f, ({ m.impl with handle := none } : JniInvocationImpl).pointer f = none ↔
          m.impl.handle = none := fun f => by rw [← hm.pointer_eq_none_iff f]; cases f <;> rfl
      simp [hn, hp]
  | @abandoned h ho f hf =>
      rw [tableOk_unloaded_iff (JniInvocationImpl.abandoned_handle _ _ _)]
      have he : ¬ Exports os h := by
        rw [← firstMissing_eq_none_iff, hf]
        exact Option.some_ne_none f
      rw [hm.abandoned_iff h f, ← dlsym_first_of_firstMissing hf]
      simp [ho, he, and_comm]
  | @loaded h ho he =>
      have hopen := hc h
      simp only [JniInvocationImpl.ofLibrary_handle, Ledger.use_some, if_true] at hopen
      have ht : TableOk (m.loader ++ opens (attempts os name) ++ lookups h ApiFunction.all)
          (.ofLibrary h) :=
        .inr ⟨h, rfl, hopen, fun f => ⟨_, JniInvocationImpl.ofLibrary_pointer h f, rfl⟩⟩
      exact iff_of_true ht (.inl ⟨h, ho, he⟩)

end outcome

theorem consistent_unloaded {t : OneInstance} (ht : t.live = none) : Consistent t.toProcess := by
  simp [Consistent, OneInstance.toProcess, ht]

theorem consistent_live {t : OneInstance} {e : ℕ × JniInvocationImpl} (ht : t.live = some e) :
    Consistent t.toProcess ↔ TableOk t.loader e.2 := by
  simp [Consistent, OneInstance.toProcess, ht]

/-- One step from a state in order. -/
theorem consistent_step {android : Bool} {s s' : Process} {a : Action} (hs : Tracked [] s)
    (hok : Consistent s) (h : step android s a = some s') :
    Consistent s' ↔ KeepsTable android s a := by
  have hs' := tracked_step hs h
  obtain ⟨t, -, rfl, -⟩ := hs
  obtain ⟨t', ht', rfl⟩ := OneInstance.step_cases h
  cases ht' with
  | create ht address =>
      refine iff_of_true ?_ trivial
      rw [consistent_live rfl]
      exact .inl ⟨rfl, JniInvocationImpl.new_pointer⟩
  | @init address impl ht library os =>
      obtain ⟨ok, m, -, ho, hm⟩ := t.reinit_cases android address impl library os
      rw [hm] at hs' ⊢
      obtain ⟨t', life, ht', hl, -, hcov⟩ := hs'
      have hlife : m.loader = life := by
        have := congrArg Process.loader ht'
        exact this.trans hl
      rw [consistent_live ht] at hok
      rw [held_toProcess, ← hlife] at hcov
      rw [consistent_live rfl, ho.tableOk_iff hok hcov]
      show _ ↔ _ ∨ FindsUnloaded _ _ ∧ _
      rw [findsUnloaded_toProcess ht]
  | destroyNull => exact iff_of_true hok trivial
  | destroy ht => exact iff_of_true (consistent_unloaded rfl) trivial
  | @call address impl ht f hf starts =>
      refine iff_of_true ?_ trivial
      rw [consistent_live ht] at hok
      exact (consistent_live ht).mpr hok

/-- A library that opens as `h` and exports the symbols of `fs`. -/
def exporting (h : Handle) (fs : List ApiFunction) : Os where
  isDebuggable := false
  librarySystemProperty := (0, "")
  dlopen _ := some h
  dlsym _ symbol := fs.any fun f => f.symbol = symbol

/-- **The function table is in order in every state of a run if and only if every `Init` of the
run keeps it so.** -/
theorem consistent_iff (android : Bool) (vm : ℕ) (as : List Action) :
    EveryState (step android) Consistent (initial vm) as ↔
      EveryStep (step android) (KeepsTable android) (initial vm) as := by
  apply everyState_iff_everyStep (I := Tracked []) (fun _ _ _ => tracked_step)
    (fun _ _ _ => consistent_step)
  · exact tracked_unloaded (t := ⟨none, [], 0, JniConstants.initial vm⟩) rfl
  · exact fun e he => absurd he List.not_mem_nil

/-- The first symbol is found, the second is not: the pointer to the first stays. -/
theorem table_half_changed :
    ¬ EveryState (step false) Consistent (initial 0)
      [.create 1, .init 1 none (exporting 5 [.getDefaultJavaVMInitArgs])] := by
  intro h
  have hend := everyState_iff.mp h _ List.prefix_rfl _ rfl
  rcases hend _ (List.mem_singleton.mpr rfl) with ⟨-, hp⟩ | ⟨_, hh, -⟩
  · exact absurd (hp .getDefaultJavaVMInitArgs) (by decide)
  · cases hh

/-! ### The handles -/

/-- All that is open since the calls `base` is the handle of the instance. -/
def OwnsSince (base : List LoaderCall) (s : Process) : Prop :=
  ∀ life, s.loader = base ++ life → Ledger.Owns (ledger life) (held s)

theorem ownsSince_iff {t : OneInstance} {base life : List LoaderCall}
    (h : t.loader = base ++ life) :
    OwnsSince base t.toProcess ↔ Ledger.Owns (ledger life) (held t.toProcess) := by
  constructor
  · exact fun ho => ho life h
  · intro ho life' h'
    obtain rfl : life = life' := List.append_cancel_left (h.symm.trans h')
    exact ho

/-- One step of an instance that owns all that is open: `Init` must find nothing. -/
theorem ownsSince_step {android : Bool} {base : List LoaderCall} {s s' : Process} {a : Action}
    (hs : Tracked base s) (ho : OwnsSince base s) (h : step android s a = some s') :
    OwnsSince base s' ↔ FindsUnloaded s a := by
  obtain ⟨t, life, rfl, hl, -, -⟩ := hs
  obtain ⟨t', ht, rfl⟩ := OneInstance.step_cases h
  obtain ⟨calls, hc, hh⟩ := ht.handles
  have hl' : t'.loader = base ++ (life ++ calls) := by rw [hc, hl, List.append_assoc]
  rw [ownsSince_iff hl] at ho
  rw [ownsSince_iff hl', ledger_append]
  rcases hh with ⟨hf, hd⟩ | ⟨hf, hr⟩
  · exact iff_of_true ((hd _).owns ho) hf
  · rw [(hr _).owns_iff ho, hf]

/-- A handle that is lost stays lost. -/
theorem not_ownsSince_step {android : Bool} {base : List LoaderCall} {s s' : Process} {a : Action}
    (hs : Tracked base s) (ho : ¬ OwnsSince base s) (h : step android s a = some s') :
    ¬ OwnsSince base s' := by
  obtain ⟨t, life, rfl, hl, -, hcov⟩ := hs
  obtain ⟨t', ht, rfl⟩ := OneInstance.step_cases h
  obtain ⟨calls, hc, hh⟩ := ht.handles
  have hl' : t'.loader = base ++ (life ++ calls) := by rw [hc, hl, List.append_assoc]
  rw [ownsSince_iff hl] at ho
  have hleak := hcov.owns_or_leaks.resolve_left ho
  rw [ownsSince_iff hl', ledger_append]
  intro ho'
  apply ho'.not_leaks
  rcases hh with ⟨-, hd⟩ | ⟨-, hr⟩
  · exact (hd _).leaks hleak
  · exact (hr _).leaks hleak

/-- **The handles are balanced over the lives of the instances of a run if and only if every
`Init` found `handle_` null.**  The run starts and ends without an instance. -/
theorem handles_balanced_iff (android : Bool) (s s' : Process) (as : List Action)
    (hs : s.heap = [] ∧ s.jniInvocation = none) (hr : run (step android) s as = some s')
    (hs' : s'.heap = []) :
    ∃ life, s'.loader = s.loader ++ life ∧
      (Ledger.Safe (ledger life) ∧ Ledger.Balanced (ledger life) ↔
        EveryStep (step android) FindsUnloaded s as) := by
  obtain ⟨t, rfl, ht⟩ : ∃ t : OneInstance, s = t.toProcess ∧ t.live = none := by
    obtain ⟨heap, jni, loader, reads, c⟩ := s
    obtain ⟨rfl, rfl⟩ : heap = [] ∧ jni = none := hs
    exact ⟨⟨none, loader, reads, c⟩, rfl, rfl⟩
  have hi := tracked_unloaded ht
  have h0 : OwnsSince t.loader t.toProcess := by
    rw [ownsSince_iff (List.append_nil _).symm, held_toProcess, ht]
    exact Ledger.owns_nil
  have hend := run_iff_everyStep (fun _ _ _ => tracked_step) (fun _ _ _ => ownsSince_step)
    (fun _ _ _ => not_ownsSince_step) hi h0 hr
  obtain ⟨t', life, rfl, hl, hsafe, -⟩ : Tracked t.loader s' :=
    run_preserves _ (fun _ _ _ => tracked_step) hi hr
  have ht' : t'.live = none := Option.toList_eq_nil_iff.mp hs'
  refine ⟨life, hl, ?_⟩
  rw [← hend, ownsSince_iff hl, held_toProcess, ht', Option.bind_none, Ledger.owns_none_iff]
  exact and_iff_right hsafe

theorem one_library_balanced :
    ∃ s', run (step false) (initial 0)
        [.create 1, .init 1 none (exporting 5 ApiFunction.all), .destroy (some 1)] = some s' ∧
      Ledger.Safe (ledger s'.loader) ∧ Ledger.Balanced (ledger s'.loader) := by
  obtain ⟨life, hl, hb⟩ := handles_balanced_iff false (initial 0) _
    [.create 1, .init 1 none (exporting 5 ApiFunction.all), .destroy (some 1)] ⟨rfl, rfl⟩ rfl rfl
  refine ⟨_, rfl, ?_⟩
  rw [hl]
  apply hb.mpr
  rintro s₁ ⟨rfl⟩
  refine ⟨trivial, fun s₂ _ => ⟨?_, fun s₃ _ => ⟨trivial, trivial⟩⟩⟩
  intro e he _
  obtain rfl := List.mem_singleton.mp he
  rfl

/-- The library that was opened first is never closed. -/
theorem first_library_leaks :
    ∃ s', run (step false) (initial 0) [.create 1, .init 1 none (exporting 5 ApiFunction.all),
        .init 1 none (exporting 6 ApiFunction.all), .destroy (some 1)] = some s' ∧
      s'.heap = [] ∧ ledger s'.loader = [.acquire 5, .acquire 6, .release 6] ∧
      ¬ Ledger.Balanced (ledger s'.loader) := by
  refine ⟨_, rfl, rfl, rfl, fun hb => ?_⟩
  exact absurd (hb 5) (by decide)

end JniInvocation
end NativeHelper
