import Mathlib.Data.List.Basic

/-! # Runs of a partial transition system

`step s a` is the state after action `a` in state `s`, or `none` when the action stops the
system.  `run` iterates it over a list of actions.

* What every completed step preserves holds after every run (`run_preserves`, and
  `run_invariant` for runs made of some actions only); `run_completes` is for systems that
  cannot stop.
* `EveryState P` says that `P` holds in every state a run passes through, `EveryStep c` that
  every completed step of the run met the condition `c` on the state before it and the
  action.  When `c` is exactly what makes a step preserve `P`, a run stays inside `P` if and
  only if all its steps meet `c` (`everyState_iff_everyStep`).  When a run that has left `P`
  never comes back, the same is decided by its last state (`run_iff_everyStep`). -/

namespace Transition

variable {σ α : Type*} (step : σ → α → Option σ)

/-- The state after the actions `as`; `none` when one of them stops the system. -/
def run : σ → List α → Option σ
  | s, [] => some s
  | s, a :: as => (step s a).bind fun s' => run s' as

@[simp] theorem run_nil (s : σ) : run step s [] = some s := rfl

@[simp] theorem run_cons (s : σ) (a : α) (as : List α) :
    run step s (a :: as) = (step s a).bind fun s' => run step s' as := rfl

/-- A property preserved by the steps of a class of actions holds after every run made of
such actions. -/
theorem run_invariant {P : σ → Prop} {A : α → Prop}
    (h : ∀ s a s', P s → A a → step s a = some s' → P s') {s s' : σ} {as : List α} (hs : P s)
    (hA : ∀ a ∈ as, A a) (hr : run step s as = some s') : P s' := by
  induction as generalizing s with
  | nil => cases hr; exact hs
  | cons a as ih =>
      obtain ⟨s₁, h₁, h₂⟩ := Option.bind_eq_some_iff.mp hr
      exact ih (h s a s₁ hs (hA a List.mem_cons_self) h₁)
        (fun b hb => hA b (List.mem_cons_of_mem _ hb)) h₂

/-- A property preserved by every step holds after every run. -/
theorem run_preserves {P : σ → Prop} (h : ∀ s a s', P s → step s a = some s' → P s') {s s' : σ}
    {as : List α} (hs : P s) (hr : run step s as = some s') : P s' :=
  run_invariant step (A := fun _ => True) (fun s a s' hp _ => h s a s' hp) hs
    (fun _ _ => trivial) hr

/-- If from `P` the actions of a class always complete, back in `P`, then so do the runs made of
such actions. -/
theorem run_completes {P : σ → Prop} {A : α → Prop}
    (h : ∀ s a, P s → A a → ∃ s', step s a = some s' ∧ P s') {s : σ} {as : List α} (hs : P s)
    (hA : ∀ a ∈ as, A a) : ∃ s', run step s as = some s' ∧ P s' := by
  induction as generalizing s with
  | nil => exact ⟨s, rfl, hs⟩
  | cons a as ih =>
      obtain ⟨s₁, h₁, hs₁⟩ := h s a hs (hA a List.mem_cons_self)
      obtain ⟨s₂, h₂, hs₂⟩ := ih hs₁ fun b hb => hA b (List.mem_cons_of_mem _ hb)
      exact ⟨s₂, by rw [run_cons, h₁, Option.bind_some, h₂], hs₂⟩

/-- `P` holds in every state the run passes through, the first one included. -/
def EveryState (P : σ → Prop) : σ → List α → Prop
  | s, [] => P s
  | s, a :: as => P s ∧ ∀ s', step s a = some s' → EveryState P s' as

/-- Every completed step of the run meets `c` on its first state and its action. -/
def EveryStep (c : σ → α → Prop) : σ → List α → Prop
  | _, [] => True
  | s, a :: as => ∀ s', step s a = some s' → c s a ∧ EveryStep c s' as

variable {step}

theorem EveryState.head {P : σ → Prop} {s : σ} {as : List α} (h : EveryState step P s as) :
    P s := by
  cases as with
  | nil => exact h
  | cons a as => exact h.1

/-- `EveryState` in terms of the prefixes of the run. -/
theorem everyState_iff {P : σ → Prop} {s : σ} {as : List α} :
    EveryState step P s as ↔ ∀ pre, pre <+: as → ∀ s', run step s pre = some s' → P s' := by
  induction as generalizing s with
  | nil =>
      constructor
      · rintro h pre hpre s' hr
        obtain rfl := List.prefix_nil.mp hpre
        cases hr
        exact h
      · exact fun h => h [] List.prefix_rfl s rfl
  | cons a as ih =>
      constructor
      · rintro ⟨h0, h⟩ pre hpre s' hr
        cases pre with
        | nil => cases hr; exact h0
        | cons b pre =>
            obtain ⟨rfl, hpre'⟩ := List.cons_prefix_cons.mp hpre
            obtain ⟨s₁, h₁, h₂⟩ := Option.bind_eq_some_iff.mp hr
            exact ih.mp (h s₁ h₁) pre hpre' s' h₂
      · intro h
        refine ⟨h [] (List.nil_prefix) s rfl, fun s₁ h₁ => ih.mpr fun pre hpre s' hr => ?_⟩
        exact h (a :: pre) (List.cons_prefix_cons.mpr ⟨rfl, hpre⟩) s' (by simp [h₁, hr])

/-- What holds in every state of a run holds in its last state. -/
theorem EveryState.last {P : σ → Prop} {s s' : σ} {as : List α} (h : EveryState step P s as)
    (hr : run step s as = some s') : P s' :=
  everyState_iff.mp h as List.prefix_rfl s' hr

theorem EveryState.imp {P Q : σ → Prop} (hPQ : ∀ s, P s → Q s) {s : σ} {as : List α}
    (h : EveryState step P s as) : EveryState step Q s as :=
  everyState_iff.mpr fun pre hpre s' hr => hPQ s' (everyState_iff.mp h pre hpre s' hr)

theorem EveryState.and {P Q : σ → Prop} {s : σ} {as : List α} (hP : EveryState step P s as)
    (hQ : EveryState step Q s as) : EveryState step (fun s => P s ∧ Q s) s as :=
  everyState_iff.mpr fun pre hpre s' hr =>
    ⟨everyState_iff.mp hP pre hpre s' hr, everyState_iff.mp hQ pre hpre s' hr⟩

/-- What the steps between states with `P` preserve holds in every state of a run that stays
inside `P`. -/
theorem EveryState.preserves {P Q : σ → Prop}
    (h : ∀ s a s', Q s → P s → P s' → step s a = some s' → Q s') {s : σ} {as : List α}
    (hP : EveryState step P s as) (hs : Q s) : EveryState step Q s as := by
  induction as generalizing s with
  | nil => exact hs
  | cons a as ih =>
      refine ⟨hs, fun s' hst => ?_⟩
      have hP' := hP.2 s' hst
      exact ih hP' (h s a s' hs hP.1 hP'.head hst)

/-- What the steps that meet a condition preserve holds in every state of a run of such steps. -/
theorem EveryStep.everyState {P : σ → Prop} {c : σ → α → Prop}
    (h : ∀ s a s', P s → c s a → step s a = some s' → P s') {s : σ} {as : List α}
    (hc : EveryStep step c s as) (hs : P s) : EveryState step P s as := by
  induction as generalizing s with
  | nil => exact hs
  | cons a as ih =>
      refine ⟨hs, fun s' hst => ?_⟩
      obtain ⟨hca, hrest⟩ := hc s' hst
      exact ih hrest (h s a s' hs hca hst)

/-- A condition on the actions alone. -/
theorem EveryStep.of_forall {p : α → Prop} {s : σ} {as : List α} (h : ∀ a ∈ as, p a) :
    EveryStep step (fun _ a => p a) s as := by
  induction as generalizing s with
  | nil => trivial
  | cons a as ih =>
      rw [List.forall_mem_cons] at h
      exact fun s' _ => ⟨h.1, ih h.2⟩

theorem EveryStep.imp {c d : σ → α → Prop} (hcd : ∀ s a, c s a → d s a) {s : σ} {as : List α}
    (h : EveryStep step c s as) : EveryStep step d s as := by
  induction as generalizing s with
  | nil => trivial
  | cons a as ih =>
      intro s' hst
      obtain ⟨hca, hrest⟩ := h s' hst
      exact ⟨hcd s a hca, ih hrest⟩

/-- A run in two parts. -/
theorem run_append (s : σ) (as bs : List α) :
    run step s (as ++ bs) = (run step s as).bind fun s' => run step s' bs := by
  induction as generalizing s with
  | nil => rfl
  | cons a as ih =>
      rw [List.cons_append, run_cons, run_cons, Option.bind_assoc]
      exact congrArg (Option.bind (step s a)) (funext fun s' => ih s')

theorem everyStep_append {c : σ → α → Prop} {s : σ} {as bs : List α} :
    EveryStep step c s (as ++ bs) ↔
      EveryStep step c s as ∧ ∀ s', run step s as = some s' → EveryStep step c s' bs := by
  induction as generalizing s with
  | nil => simp [EveryStep]
  | cons a as ih =>
      constructor
      · intro h
        refine ⟨fun s' hst => ⟨(h s' hst).1, (ih.mp (h s' hst).2).1⟩, fun s' hr => ?_⟩
        obtain ⟨s₁, h₁, h₂⟩ := Option.bind_eq_some_iff.mp hr
        exact (ih.mp (h s₁ h₁).2).2 s' h₂
      · rintro ⟨h, h'⟩ s₁ h₁
        refine ⟨(h s₁ h₁).1, ih.mpr ⟨(h s₁ h₁).2, fun s' hr => h' s' ?_⟩⟩
        rw [run_cons, h₁, Option.bind_some, hr]

theorem EveryStep.and {c d : σ → α → Prop} {s : σ} {as : List α} (hc : EveryStep step c s as)
    (hd : EveryStep step d s as) : EveryStep step (fun s a => c s a ∧ d s a) s as := by
  induction as generalizing s with
  | nil => trivial
  | cons a as ih =>
      intro s' hst
      exact ⟨⟨(hc s' hst).1, (hd s' hst).1⟩, ih (hc s' hst).2 (hd s' hst).2⟩

/-- The same as `everyState_iff_everyStep` for runs whose steps all meet another condition. -/
theorem EveryStep.everyState_iff {I P : σ → Prop} {c d : σ → α → Prop}
    (hI : ∀ s a s', I s → d s a → step s a = some s' → I s')
    (h : ∀ s a s', I s → P s → d s a → step s a = some s' → (P s' ↔ c s a)) {s : σ} (hi : I s)
    (hs : P s) {as : List α} (hd : EveryStep step d s as) :
    EveryState step P s as ↔ EveryStep step c s as := by
  induction as generalizing s with
  | nil => exact iff_of_true hs trivial
  | cons a as ih =>
      constructor
      · rintro ⟨-, hP⟩ s' hst
        obtain ⟨hda, hrest⟩ := hd s' hst
        have hi' := hI s a s' hi hda hst
        have hP' := (hP s' hst).head
        exact ⟨(h s a s' hi hs hda hst).mp hP', (ih hi' hP' hrest).mp (hP s' hst)⟩
      · intro hc
        refine ⟨hs, fun s' hst => ?_⟩
        obtain ⟨hda, hrest⟩ := hd s' hst
        obtain ⟨hca, hrest'⟩ := hc s' hst
        have hP' := (h s a s' hi hs hda hst).mpr hca
        exact (ih (hI s a s' hi hda hst) hP' hrest).mpr hrest'

/-- **A run stays inside `P` if and only if all its steps meet the condition** that decides, for
a step from a state in `P`, whether it stays there.  `I` is what holds in every state anyway. -/
theorem everyState_iff_everyStep {I P : σ → Prop} {c : σ → α → Prop}
    (hI : ∀ s a s', I s → step s a = some s' → I s')
    (h : ∀ s a s', I s → P s → step s a = some s' → (P s' ↔ c s a)) {s : σ} (hi : I s) (hs : P s)
    (as : List α) : EveryState step P s as ↔ EveryStep step c s as := by
  induction as generalizing s with
  | nil => simp [EveryState, EveryStep, hs]
  | cons a as ih =>
      constructor
      · rintro ⟨_, hP⟩ s' hst
        have hi' := hI s a s' hi hst
        have hP' := (hP s' hst).head
        exact ⟨(h s a s' hi hs hst).mp hP', (ih hi' hP').mp (hP s' hst)⟩
      · intro hc
        refine ⟨hs, fun s' hst => ?_⟩
        obtain ⟨hca, hrest⟩ := hc s' hst
        have hP' := (h s a s' hi hs hst).mpr hca
        exact (ih (hI s a s' hi hst) hP').mpr hrest

/-- **A run ends inside `P` if and only if all its steps meet the condition**, when a run that has
left `P` never comes back. -/
theorem run_iff_everyStep {I P : σ → Prop} {c : σ → α → Prop}
    (hI : ∀ s a s', I s → step s a = some s' → I s')
    (h : ∀ s a s', I s → P s → step s a = some s' → (P s' ↔ c s a))
    (hlost : ∀ s a s', I s → ¬ P s → step s a = some s' → ¬ P s') {s s' : σ} (hi : I s) (hs : P s)
    {as : List α} (hr : run step s as = some s') : P s' ↔ EveryStep step c s as := by
  induction as generalizing s with
  | nil =>
      cases hr
      exact iff_of_true hs trivial
  | cons a as ih =>
      obtain ⟨s₁, h₁, hr₁⟩ := Option.bind_eq_some_iff.mp hr
      have hi₁ := hI s a s₁ hi h₁
      by_cases hP : P s₁
      · rw [ih hi₁ hP hr₁]
        constructor
        · intro he s₂ h₂
          obtain rfl : s₁ = s₂ := Option.some.inj (h₁.symm.trans h₂)
          exact ⟨(h s a s₁ hi hs h₁).mp hP, he⟩
        · exact fun he => (he s₁ h₁).2
      · have hend : I s' ∧ ¬ P s' :=
          run_preserves step (P := fun s => I s ∧ ¬ P s)
            (fun s a s' hs hst => ⟨hI s a s' hs.1 hst, hlost s a s' hs.1 hs.2 hst⟩) ⟨hi₁, hP⟩ hr₁
        exact iff_of_false hend.2 fun he => hP ((h s a s₁ hi hs h₁).mpr (he s₁ h₁).1)

end Transition
