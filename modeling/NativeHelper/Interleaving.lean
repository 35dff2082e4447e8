import Mathlib.Logic.Function.Basic
import NativeHelper.Transition

/-! # Interleavings of threads over a shared state

Any number of threads take turns.  `act t a s l` is what action `a` of the thread `t` makes of the
shared state `s` and of the thread's own state `l`; it is `none` where the thread cannot take the
action, for instance because it waits.

An `Outline` is what one has to know of a thread to reason about all of them: an invariant `Inv` of
the shared state, what the thread knows about its own place (`Ok`), and what it can rely on from the
others (`Rely`).  A step keeps the first two and is no surprise to anybody else, and what a thread
knows is stable.  Then both hold in every state of every interleaving (`Outline.run`). -/

namespace Interleaving

variable {T S L A : Type*}

/-- The shared state, and every thread's own. -/
structure Config (T S L : Type*) where
  shared : S
  locals : T → L

section step
variable [DecidableEq T] (act : T → A → S → L → Option (S × L))

/-- One thread takes one action. -/
def step (c : Config T S L) (a : T × A) : Option (Config T S L) :=
  (act a.1 a.2 c.shared (c.locals a.1)).map fun r =>
    ⟨r.1, Function.update c.locals a.1 r.2⟩

/-- The thread whose action it is moves and the others stand still. -/
theorem step_eq_some {act : T → A → S → L → Option (S × L)} {c c' : Config T S L} {a : T × A}
    (h : step act c a = some c') :
    act a.1 a.2 c.shared (c.locals a.1) = some (c'.shared, c'.locals a.1) ∧
      ∀ u, u ≠ a.1 → c'.locals u = c.locals u := by
  obtain ⟨⟨s, l⟩, hact, rfl⟩ := Option.map_eq_some_iff.mp h
  refine ⟨?_, fun u hu => Function.update_of_ne hu _ _⟩
  show _ = some (s, Function.update c.locals a.1 l a.1)
  rw [hact, Function.update_self]

end step

/-- A proof outline for the threads of an interleaving, for actions that are `Allowed` where the
thread is. -/
structure Outline (act : T → A → S → L → Option (S × L)) (Allowed : L → A → Prop) (Inv : S → Prop)
    (Ok : T → S → L → Prop) (Rely : T → S → S → Prop) : Prop where
  step : ∀ t a s l s' l', Allowed l a → Inv s → Ok t s l → act t a s l = some (s', l') →
    Inv s' ∧ Ok t s' l' ∧ ∀ u, u ≠ t → Rely u s s'
  stable : ∀ u s s' l, Inv s → Inv s' → Rely u s s' → Ok u s l → Ok u s' l

namespace Outline
variable {act : T → A → S → L → Option (S × L)} {Allowed : L → A → Prop} {Inv : S → Prop}
  {Ok : T → S → L → Prop} {Rely : T → S → S → Prop}

/-- The outline holds of all threads. -/
def Holds (Inv : S → Prop) (Ok : T → S → L → Prop) (c : Config T S L) : Prop :=
  Inv c.shared ∧ ∀ t, Ok t c.shared (c.locals t)

variable [DecidableEq T]

/-- **One step**: the thread that moves keeps its outline, and the others keep theirs. -/
theorem holds_step (o : Outline act Allowed Inv Ok Rely) {c c' : Config T S L} {a : T × A}
    (hc : Holds Inv Ok c) (ha : Allowed (c.locals a.1) a.2)
    (h : Interleaving.step act c a = some c') : Holds Inv Ok c' := by
  obtain ⟨hinv, hok⟩ := hc
  obtain ⟨hact, hother⟩ := step_eq_some h
  obtain ⟨hinv', hok', hrely⟩ := o.step _ _ _ _ _ _ ha hinv (hok a.1) hact
  refine ⟨hinv', fun u => ?_⟩
  by_cases hu : u = a.1
  · subst hu
    exact hok'
  · rw [hother u hu]
    exact o.stable u _ _ _ hinv hinv' (hrely u hu) (hok u)

/-- **Every interleaving** of allowed actions stays inside the outline. -/
theorem everyState (o : Outline act Allowed Inv Ok Rely) {c : Config T S L} (hc : Holds Inv Ok c)
    {as : List (T × A)}
    (has : Transition.EveryStep (Interleaving.step act) (fun c a => Allowed (c.locals a.1) a.2)
      c as) :
    Transition.EveryState (Interleaving.step act) (Holds Inv Ok) c as :=
  has.everyState (fun _ _ _ hc ha h => o.holds_step hc ha h) hc

end Outline

/-! ### How long a thread runs -/

section count
variable [DecidableEq T]

/-- How many of the actions are actions of the thread `t` of this kind. -/
def countOf (t : T) (p : A → Bool) (as : List (T × A)) : ℕ :=
  as.countP fun a => a.1 = t && p a.2

theorem countOf_cons (t : T) (p : A → Bool) (a : T × A) (as : List (T × A)) :
    countOf t p (a :: as) = countOf t p as + if a.1 = t ∧ p a.2 = true then 1 else 0 := by
  simp [countOf, List.countP_cons]

/-- **The potential of a thread**: when its actions of the kind `p` use it up, and only those of the
kind `q` add to it, at most `k` each, then it takes at most `k` actions of the kind `p` for each one
of the kind `q`. -/
theorem countOf_le {act : T → A → S → L → Option (S × L)} {μ : L → ℕ} {p q : A → Bool} {k : ℕ}
    (h : ∀ t a s l s' l', act t a s l = some (s', l') →
      μ l' + (if p a = true then 1 else 0) ≤ μ l + if q a = true then k else 0)
    {c c' : Config T S L} {as : List (T × A)} (t : T)
    (hr : Transition.run (step act) c as = some c') :
    μ (c'.locals t) + countOf t p as ≤ μ (c.locals t) + k * countOf t q as := by
  induction as generalizing c with
  | nil =>
      cases hr
      exact Nat.le_refl _
  | cons a as ih =>
      obtain ⟨c₁, h₁, h₂⟩ := Option.bind_eq_some_iff.mp hr
      obtain ⟨hact, hother⟩ := step_eq_some h₁
      have hrest := ih h₂
      rw [countOf_cons, countOf_cons]
      by_cases ht : a.1 = t
      · subst ht
        have hstep := h _ _ _ _ _ _ hact
        simp only [true_and]
        split_ifs at hstep ⊢ <;> simp only [Nat.mul_add] <;> omega
      · rw [hother t (Ne.symm ht)] at hrest
        simpa [ht] using hrest

end count

end Interleaving
