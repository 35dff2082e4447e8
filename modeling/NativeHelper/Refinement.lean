import Mathlib.Data.List.Basic

/-! # Refinement of a specification

A system takes actions, answers each of them and may stop; a specification answers every action.
The system refines the specification under a relation between their states if every action that is
allowed is completed with the answer of the specification (`Refines`).  Then so is every run of
actions that are allowed where they happen (`Refines.play`).

A system that always answers is compared with what can be seen of it: if that is enough to answer
every action, it is enough to answer every run (`playSpec_map`). -/

namespace Refinement

variable {σ τ α β : Type*}

/-- The answers to a list of actions, and the state after them. -/
def play (step : σ → α → Option (β × σ)) : σ → List α → Option (List β × σ)
  | s, [] => some ([], s)
  | s, a :: as => (step s a).bind fun r => (play step r.2 as).map fun r' => (r.1 :: r'.1, r'.2)

/-- The same for a specification. -/
def playSpec (spec : τ → α → β × τ) : τ → List α → List β × τ
  | t, [] => ([], t)
  | t, a :: as => ((spec t a).1 :: (playSpec spec (spec t a).2 as).1,
      (playSpec spec (spec t a).2 as).2)

/-- Every action is allowed in the state it happens in. -/
def AllAllowed (step : σ → α → Option (β × σ)) (allowed : σ → α → Prop) : σ → List α → Prop
  | _, [] => True
  | s, a :: as => allowed s a ∧ ∀ b s', step s a = some (b, s') → AllAllowed step allowed s' as

/-- Allowed actions are answered as specified, and the states stay related. -/
def Refines (step : σ → α → Option (β × σ)) (spec : τ → α → β × τ) (allowed : σ → α → Prop)
    (R : σ → τ → Prop) : Prop :=
  ∀ s t a, R s t → allowed s a → ∃ s', step s a = some ((spec t a).1, s') ∧ R s' (spec t a).2

section runs
variable {step : σ → α → Option (β × σ)} {spec : τ → α → β × τ} {allowed : σ → α → Prop}
  {R : σ → τ → Prop}

/-- A run in two parts. -/
theorem playSpec_append (t : τ) (as bs : List α) : playSpec spec t (as ++ bs) =
    ((playSpec spec t as).1 ++ (playSpec spec (playSpec spec t as).2 bs).1,
      (playSpec spec (playSpec spec t as).2 bs).2) := by
  induction as generalizing t with
  | nil => rfl
  | cons a as ih =>
      rw [List.cons_append, playSpec, ih]
      rfl

theorem length_playSpec (t : τ) (as : List α) : (playSpec spec t as).1.length = as.length := by
  induction as generalizing t with
  | nil => rfl
  | cons a as ih => exact congrArg (· + 1) (ih _)

/-- What actions of a kind keep is kept by runs of them. -/
theorem playSpec_keeps {A : α → Prop} {P : τ → Prop} (h : ∀ t a, A a → P t → P (spec t a).2) {t : τ}
    (ht : P t) {as : List α} (has : ∀ a ∈ as, A a) : P (playSpec spec t as).2 := by
  induction as generalizing t with
  | nil => exact ht
  | cons a as ih =>
      exact ih (h t a (has a List.mem_cons_self) ht) fun b hb => has b (List.mem_cons_of_mem _ hb)

theorem AllAllowed.left {s : σ} {as bs : List α} (h : AllAllowed step allowed s (as ++ bs)) :
    AllAllowed step allowed s as := by
  induction as generalizing s with
  | nil => exact trivial
  | cons a as ih => exact ⟨h.1, fun b s' hs => ih (h.2 b s' hs)⟩

/-- The second part of a run is allowed after the first. -/
theorem AllAllowed.right {s s' : σ} {as bs : List α} {outs : List β}
    (h : AllAllowed step allowed s (as ++ bs)) (hp : play step s as = some (outs, s')) :
    AllAllowed step allowed s' bs := by
  induction as generalizing s outs with
  | nil =>
      cases hp
      exact h
  | cons a as ih =>
      obtain ⟨⟨b, s₁⟩, h₁, h₂⟩ := Option.bind_eq_some_iff.mp hp
      obtain ⟨⟨outs', s₂⟩, h₃, h₄⟩ := Option.map_eq_some_iff.mp h₂
      cases h₄
      exact ih (h.2 _ _ h₁) h₃

/-- **Runs of allowed actions are answered as specified.** -/
theorem Refines.play (h : Refines step spec allowed R) {s : σ} {t : τ} (hR : R s t) {as : List α}
    (has : AllAllowed step allowed s as) :
    ∃ s', play step s as = some ((playSpec spec t as).1, s') ∧ R s' (playSpec spec t as).2 := by
  induction as generalizing s t with
  | nil => exact ⟨s, rfl, hR⟩
  | cons a as ih =>
      obtain ⟨s₁, h₁, hR₁⟩ := h s t a hR has.1
      obtain ⟨s₂, h₂, hR₂⟩ := ih hR₁ (has.2 _ _ h₁)
      exact ⟨s₂, by rw [Refinement.play, h₁, Option.bind_some, h₂]; rfl, hR₂⟩

/-! ### Two specifications

A specification that answers like another one after a part of the state has been forgotten. -/

/-- Every action meets the condition where it happens. -/
def EveryAction (spec : τ → α → β × τ) (c : τ → α → Prop) : τ → List α → Prop
  | _, [] => True
  | t, a :: as => c t a ∧ EveryAction spec c (spec t a).2 as

/-- **Runs are answered as specified** if each action is that meets a condition on the specified
state. -/
theorem play_of_everyAction {step : σ → α → Option (β × σ)} {c : τ → α → Prop} {R : σ → τ → Prop}
    (h : ∀ s t a, R s t → c t a → ∃ s', step s a = some ((spec t a).1, s') ∧ R s' (spec t a).2)
    {s : σ} {t : τ} (hR : R s t) {as : List α} (has : EveryAction spec c t as) :
    ∃ s', Refinement.play step s as = some ((playSpec spec t as).1, s') ∧
      R s' (playSpec spec t as).2 := by
  induction as generalizing s t with
  | nil => exact ⟨s, rfl, hR⟩
  | cons a as ih =>
      obtain ⟨s₁, h₁, hR₁⟩ := h s t a hR has.1
      obtain ⟨s₂, h₂, hR₂⟩ := ih hR₁ has.2
      exact ⟨s₂, by rw [Refinement.play, h₁, Option.bind_some, h₂]; rfl, hR₂⟩

section actions
variable {spec : τ → α → β × τ} {f : α → α} (h : ∀ t a, spec t (f a) = spec t a)
include h

/-- Actions that come to the same make runs that come to the same. -/
theorem playSpec_map_action (t : τ) (as : List α) :
    playSpec spec t (as.map f) = playSpec spec t as := by
  induction as generalizing t with
  | nil => rfl
  | cons a as ih => rw [List.map_cons, playSpec, h, ih, playSpec]

theorem everyAction_map_action {c : τ → α → Prop} (hc : ∀ t a, c t (f a) ↔ c t a) (t : τ)
    (as : List α) : EveryAction spec c t (as.map f) ↔ EveryAction spec c t as := by
  induction as generalizing t with
  | nil => exact Iff.rfl
  | cons a as ih =>
      rw [List.map_cons, EveryAction, EveryAction, h, ih]
      exact and_congr_left fun _ => hc t a

end actions

section forget
variable {run : σ → α → β × σ} {f : σ → τ}

/-- **What one action does to what is seen, a run does.** -/
theorem playSpec_map (h : ∀ s a, ((run s a).1, f (run s a).2) = spec (f s) a) (s : σ) (as : List α) :
    ((playSpec run s as).1, f (playSpec run s as).2) = playSpec spec (f s) as := by
  induction as generalizing s with
  | nil => rfl
  | cons a as ih =>
      have ha := h s a
      have hrest := ih (run s a).2
      unfold playSpec
      rw [← ha, ← hrest]

theorem everyAction_map (h : ∀ s a, ((run s a).1, f (run s a).2) = spec (f s) a)
    {c : τ → α → Prop} (s : σ) (as : List α) :
    EveryAction run (fun s a => c (f s) a) s as ↔ EveryAction spec c (f s) as := by
  induction as generalizing s with
  | nil => exact Iff.rfl
  | cons a as ih =>
      refine and_congr_right fun _ => (ih _).trans ?_
      rw [← h s a]

theorem everyAction_congr {c d : σ → α → Prop} (hcd : ∀ s a, c s a ↔ d s a) (s : σ) (as : List α) :
    EveryAction run c s as ↔ EveryAction run d s as := by
  induction as generalizing s with
  | nil => exact Iff.rfl
  | cons a as ih => exact and_congr (hcd s a) (ih _)

/-- What never decreases is where it was after a run exactly if each action left it there. -/
theorem playSpec_measure_eq_iff {μ : σ → ℕ} (h : ∀ s a, μ s ≤ μ (run s a).2) (s : σ) (as : List α) :
    μ (playSpec run s as).2 = μ s ↔ EveryAction run (fun s a => μ (run s a).2 = μ s) s as := by
  have hmono : ∀ s (as : List α), μ s ≤ μ (playSpec run s as).2 := by
    intro s as
    induction as generalizing s with
    | nil => exact Nat.le_refl _
    | cons a as ih => exact Nat.le_trans (h s a) (ih _)
  induction as generalizing s with
  | nil => exact iff_of_true rfl trivial
  | cons a as ih =>
      have h₁ := h s a
      have h₂ := hmono (run s a).2 as
      refine Iff.trans ?_ (and_congr_right fun _ => ih (run s a).2)
      show μ (playSpec run (run s a).2 as).2 = μ s ↔ _
      constructor
      · intro he
        exact ⟨by omega, by omega⟩
      · rintro ⟨he, he'⟩
        rw [he', he]

end forget

end runs

end Refinement
