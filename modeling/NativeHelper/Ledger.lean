import Mathlib.Data.List.Basic
import Mathlib.Data.List.Count
import Mathlib.Data.Multiset.MapFold
import Mathlib.Logic.Function.Basic

/-! # Ledgers of acquired and released handles

A ledger lists, oldest entry first, the handles a program acquired and released.  A handle may
be acquired again while it is held (as `dlopen` hands out one handle per library and counts its
uses), so ownership is counted.

* `Safe l`: at no time was a handle released more often than acquired.
* `Balanced l`: every acquisition has been matched by exactly one release.

A program that keeps at most one handle, in a variable `o`, keeps its ledger safe as long as
`Covers l o` holds: what `o` holds has not been released yet.  It `Owns` its ledger when
nothing but the handle in `o` is outstanding, and it `Leaks` when some handle is outstanding
that `o` does not account for.  A leak is never repaired by further acquisitions and releases
through `o` (`Leaks.acquire`, `Leaks.release`).  What the owner does is `Handled` or `Reopened`,
and only the second can lose a handle (`Reopened.owns_iff`).

A program with any number of owners, each with at most one handle, keeps its ledger in order as
long as it is `OwnedBy` them: no two hold handles with one key, and what is outstanding is what
they hold.  Handles may pass from one owner to another (`OwnedBy.move`).

A program that releases at the end of a scope what it acquired at the beginning writes a `Nested`
ledger, which is safe and balanced whatever happens inside (`Nested.safe`, `Nested.balanced`).
With at most `n` scopes inside one another it is `NestedIn n`, and at no time more than `n`
handles are outstanding (`NestedIn.atMost`).

Handles may be known by more than what they are given back with, such as who obtained them.  A
ledger of these is one of the others with `Entry.map`, and what is outstanding in it is outstanding
there (`released_lt_acquired_map`, `Balanced.map`). -/

namespace Ledger

/-- One line of a ledger. -/
inductive Entry (H : Type*) where
  | acquire (h : H)
  | release (h : H)
deriving DecidableEq, Repr

variable {H : Type*} [DecidableEq H]

/-- How often `h` was acquired. -/
def acquired (l : List (Entry H)) (h : H) : ℕ := l.count (.acquire h)

/-- How often `h` was released. -/
def released (l : List (Entry H)) (h : H) : ℕ := l.count (.release h)

/-- No handle is ever released while it is not held. -/
def Safe (l : List (Entry H)) : Prop := ∀ pre, pre <+: l → ∀ h, released pre h ≤ acquired pre h

/-- Every acquisition has been matched by exactly one release. -/
def Balanced (l : List (Entry H)) : Prop := ∀ h, released l h = acquired l h

section entries
variable (l : List (Entry H)) (h g : H)

@[simp] theorem acquired_acquire :
    acquired (l ++ [.acquire g]) h = acquired l h + if g = h then 1 else 0 := by
  simp [acquired, List.count_append, List.count_singleton]

@[simp] theorem released_acquire : released (l ++ [.acquire g]) h = released l h := by
  simp [released, List.count_append]

@[simp] theorem acquired_release : acquired (l ++ [.release g]) h = acquired l h := by
  simp [acquired, List.count_append]

@[simp] theorem released_release :
    released (l ++ [.release g]) h = released l h + if g = h then 1 else 0 := by
  simp [released, List.count_append, List.count_singleton]

end entries

theorem safe_nil : Safe ([] : List (Entry H)) := by
  intro pre hpre h
  rw [List.prefix_nil.mp hpre]
  exact Nat.zero_le _

/-- Appending one entry keeps a ledger safe if the counts are in order after it. -/
theorem Safe.concat {l : List (Entry H)} (hl : Safe l) {e : Entry H}
    (he : ∀ h, released (l ++ [e]) h ≤ acquired (l ++ [e]) h) : Safe (l ++ [e]) := by
  intro pre hpre
  rcases List.prefix_concat_iff.mp hpre with rfl | hpre'
  · exact he
  · exact hl pre hpre'

/-! ### A single owner -/

/-- The use of `h` by the owner `o`. -/
def use (o : Option H) (h : H) : ℕ := if o = some h then 1 else 0

@[simp] theorem use_none (h : H) : use none h = 0 := rfl

@[simp] theorem use_some (g h : H) : use (some g) h = if g = h then 1 else 0 := by
  simp [use]

/-- What the owner `o` holds is outstanding. -/
def Covers (l : List (Entry H)) (o : Option H) : Prop := ∀ h, released l h + use o h ≤ acquired l h

/-- What the owner `o` holds, and nothing else, is outstanding. -/
def Owns (l : List (Entry H)) (o : Option H) : Prop := ∀ h, released l h + use o h = acquired l h

/-- Something is outstanding that the owner `o` does not account for. -/
def Leaks (l : List (Entry H)) (o : Option H) : Prop := ∃ h, released l h + use o h < acquired l h

section owner
variable {l : List (Entry H)} {o : Option H} {g : H}

theorem owns_nil : Owns ([] : List (Entry H)) none := fun _ => rfl

theorem Owns.covers (h : Owns l o) : Covers l o := fun x => Nat.le_of_eq (h x)

theorem Covers.acquire (h : Covers l o) (g : H) : Covers (l ++ [.acquire g]) (some g) := by
  intro x
  have := h x
  simp only [released_acquire, acquired_acquire, use_some]
  omega

theorem Covers.release (h : Covers l (some g)) : Covers (l ++ [.release g]) none := by
  intro x
  have := h x
  simp only [released_release, acquired_release, use_some, use_none] at this ⊢
  omega

theorem Covers.drop (h : Covers l o) : Covers l none := fun x => by
  have := h x
  simp only [use_none]
  omega

theorem Safe.acquire (hl : Safe l) (h : Covers l o) (g : H) : Safe (l ++ [.acquire g]) :=
  hl.concat fun x => by have := h.acquire g x; omega

theorem Safe.release (hl : Safe l) (h : Covers l (some g)) : Safe (l ++ [.release g]) :=
  hl.concat fun x => by have := h.release x; omega

theorem Owns.acquire (h : Owns l none) (g : H) : Owns (l ++ [.acquire g]) (some g) := by
  intro x
  have := h x
  simp only [released_acquire, acquired_acquire, use_some, use_none] at this ⊢
  omega

theorem Owns.release (h : Owns l (some g)) : Owns (l ++ [.release g]) none := by
  intro x
  have := h x
  simp only [released_release, acquired_release, use_some, use_none] at this ⊢
  omega

/-- Dropping a held handle without releasing it leaks it. -/
theorem Covers.leaks (h : Covers l (some g)) : Leaks l none := by
  refine ⟨g, ?_⟩
  have := h g
  simp only [use_some, if_true, use_none] at this ⊢
  omega

theorem Leaks.acquire (h : Leaks l none) (g : H) : Leaks (l ++ [.acquire g]) (some g) := by
  obtain ⟨x, hx⟩ := h
  refine ⟨x, ?_⟩
  simp only [released_acquire, acquired_acquire, use_some, use_none] at hx ⊢
  omega

theorem Leaks.release (h : Leaks l (some g)) : Leaks (l ++ [.release g]) none := by
  obtain ⟨x, hx⟩ := h
  refine ⟨x, ?_⟩
  simp only [released_release, acquired_release, use_some, use_none] at hx ⊢
  omega

theorem Leaks.drop (h : Leaks l o) : Leaks l none := by
  obtain ⟨x, hx⟩ := h
  refine ⟨x, ?_⟩
  simp only [use_none]
  omega

theorem Covers.owns_or_leaks (h : Covers l o) : Owns l o ∨ Leaks l o := by
  by_cases ho : Owns l o
  · exact .inl ho
  · obtain ⟨x, hx⟩ := not_forall.mp ho
    exact .inr ⟨x, Nat.lt_of_le_of_ne (h x) hx⟩

theorem Owns.not_leaks (h : Owns l o) : ¬ Leaks l o := by
  rintro ⟨x, hx⟩
  have := h x
  omega

theorem owns_none_iff : Owns l none ↔ Balanced l := Iff.rfl

end owner

/-! ### What an owner does -/

/-- The owner keeps what it holds, or releases it. -/
inductive Handled (l : List (Entry H)) : Option H → List (Entry H) → Option H → Prop
  | kept (o : Option H) : Handled l o l o
  | released (o : Option H) : Handled l o (l ++ (o.map .release).toList) none

/-- The owner, without a look at what it holds, opens a handle: nothing is opened, or the handle
is kept, or it is given back at once. -/
inductive Reopened (l : List (Entry H)) : List (Entry H) → Option H → Prop
  | nothing : Reopened l l none
  | kept (g : H) : Reopened l (l ++ [.acquire g]) (some g)
  | givenBack (g : H) : Reopened l (l ++ [.acquire g] ++ [.release g]) none

section steps
variable {l l' : List (Entry H)} {o o' : Option H}

theorem Handled.covers (hd : Handled l o l' o') (h : Covers l o) : Covers l' o' := by
  cases hd with
  | kept => exact h
  | released => cases o with
    | none => rw [Option.map_none, Option.toList_none, List.append_nil]; exact h
    | some g => exact h.release

theorem Handled.safe (hd : Handled l o l' o') (hl : Safe l) (h : Covers l o) : Safe l' := by
  cases hd with
  | kept => exact hl
  | released => cases o with
    | none => rw [Option.map_none, Option.toList_none, List.append_nil]; exact hl
    | some g => exact hl.release h

theorem Handled.owns (hd : Handled l o l' o') (h : Owns l o) : Owns l' o' := by
  cases hd with
  | kept => exact h
  | released => cases o with
    | none => rw [Option.map_none, Option.toList_none, List.append_nil]; exact h
    | some g => exact h.release

theorem Handled.leaks (hd : Handled l o l' o') (h : Leaks l o) : Leaks l' o' := by
  cases hd with
  | kept => exact h
  | released => cases o with
    | none => rw [Option.map_none, Option.toList_none, List.append_nil]; exact h
    | some g => exact h.release

theorem Reopened.covers (hr : Reopened l l' o') (h : Covers l o) : Covers l' o' := by
  cases hr with
  | nothing => exact h.drop
  | kept g => exact h.acquire g
  | givenBack g => exact (h.acquire g).release

theorem Reopened.safe (hr : Reopened l l' o') (hl : Safe l) (h : Covers l o) : Safe l' := by
  cases hr with
  | nothing => exact hl
  | kept g => exact hl.acquire h g
  | givenBack g => exact (hl.acquire h g).release (h.acquire g)

theorem Reopened.leaks (hr : Reopened l l' o') (h : Leaks l o) : Leaks l' o' := by
  cases hr with
  | nothing => exact h.drop
  | kept g => exact h.drop.acquire g
  | givenBack g => exact (h.drop.acquire g).release

/-- What was held when a handle is opened is lost. -/
theorem Reopened.owns_iff (hr : Reopened l l' o') (h : Owns l o) : Owns l' o' ↔ o = none := by
  cases o with
  | none =>
      refine iff_of_true ?_ rfl
      cases hr with
      | nothing => exact h
      | kept g => exact h.acquire g
      | givenBack g => exact (h.acquire g).release
  | some g =>
      refine iff_of_false (fun ho => ho.not_leaks ?_) (Option.some_ne_none g)
      have hl : Leaks l none := h.covers.leaks
      cases hr with
      | nothing => exact hl
      | kept g => exact hl.acquire g
      | givenBack g => exact (hl.acquire g).release

end steps

/-! ### Any number of owners -/

/-- What the owners hold, and nothing else, is outstanding, once for each; no two of them hold
handles with the same key. -/
structure OwnedBy {O K : Type*} (key : H → K) (l : List (Entry H)) (held : O → Option H) :
    Prop where
  sole : ∀ o o' h h', held o = some h → held o' = some h' → key h = key h' → o = o'
  outstanding : ∀ o h, held o = some h → acquired l h = released l h + 1
  settled : ∀ h, (∀ o, held o ≠ some h) → acquired l h = released l h

section owners
variable {O K : Type*} {key : H → K} {l l' : List (Entry H)} {held : O → Option H} {o o' : O}
  {g : H}

theorem ownedBy_nil : OwnedBy key ([] : List (Entry H)) (fun _ : O => none) where
  sole := by intro o o' h h' ho; cases ho
  outstanding := by intro o h ho; cases ho
  settled := fun _ _ => rfl

/-- A ledger with the same counts is owned by the same owners. -/
theorem OwnedBy.perm (h : OwnedBy key l held) (hp : l.Perm l') : OwnedBy key l' held where
  sole := h.sole
  outstanding := by
    intro o x ho
    have := h.outstanding o x ho
    unfold acquired released at this ⊢
    rwa [← hp.count_eq, ← hp.count_eq]
  settled := by
    intro x hx
    have := h.settled x hx
    unfold acquired released at this ⊢
    rwa [← hp.count_eq, ← hp.count_eq]

variable [DecidableEq O]

/-- An owner without a handle takes one whose key nobody holds. -/
theorem OwnedBy.acquire (h : OwnedBy key l held) (ho : held o = none)
    (hfresh : ∀ o' x, held o' = some x → key x ≠ key g) :
    OwnedBy key (l ++ [.acquire g]) (Function.update held o (some g)) := by
  constructor
  · intro o₁ o₂ x y h₁ h₂ hk
    by_cases e₁ : o₁ = o <;> by_cases e₂ : o₂ = o
    · rw [e₁, e₂]
    · rw [e₁, Function.update_self, Option.some.injEq] at h₁
      rw [Function.update_of_ne e₂] at h₂
      exact absurd (h₁ ▸ hk.symm) (hfresh o₂ y h₂)
    · rw [e₂, Function.update_self, Option.some.injEq] at h₂
      rw [Function.update_of_ne e₁] at h₁
      exact absurd (h₂ ▸ hk) (hfresh o₁ x h₁)
    · rw [Function.update_of_ne e₁] at h₁
      rw [Function.update_of_ne e₂] at h₂
      exact h.sole o₁ o₂ x y h₁ h₂ hk
  · intro o₁ x h₁
    rw [acquired_acquire, released_acquire]
    by_cases e₁ : o₁ = o
    · rw [e₁, Function.update_self, Option.some.injEq] at h₁
      subst h₁
      rw [if_pos rfl, h.settled g fun o' ho' => hfresh o' g ho' rfl]
    · rw [Function.update_of_ne e₁] at h₁
      rw [if_neg fun hg : g = x => hfresh o₁ x h₁ (by rw [hg]), h.outstanding o₁ x h₁]
  · intro x hx
    have hg : g ≠ x := by
      rintro rfl
      exact hx o (Function.update_self o (some g) held)
    rw [acquired_acquire, released_acquire, if_neg hg]
    refine h.settled x fun o' ho' => ?_
    have hne : o' ≠ o := by
      rintro rfl
      rw [ho] at ho'
      cases ho'
    exact hx o' (by rw [Function.update_of_ne hne, ho'])

/-- An owner gives back what it holds. -/
theorem OwnedBy.release (h : OwnedBy key l held) (ho : held o = some g) :
    OwnedBy key (l ++ [.release g]) (Function.update held o none) := by
  -- what another owner holds after the step it held before, and it is not `g`
  have hother : ∀ o' x, Function.update held o none o' = some x → held o' = some x ∧ g ≠ x := by
    intro o' x ho'
    by_cases e : o' = o
    · rw [e, Function.update_self] at ho'
      cases ho'
    · rw [Function.update_of_ne e] at ho'
      exact ⟨ho', fun hg => e (h.sole o' o x g ho' ho (by rw [hg]))⟩
  constructor
  · intro o₁ o₂ x y h₁ h₂ hk
    exact h.sole o₁ o₂ x y (hother o₁ x h₁).1 (hother o₂ y h₂).1 hk
  · intro o₁ x h₁
    obtain ⟨h₁, hg⟩ := hother o₁ x h₁
    rw [acquired_release, released_release, if_neg hg, h.outstanding o₁ x h₁]
  · intro x hx
    rw [acquired_release, released_release]
    by_cases hg : g = x
    · rw [if_pos hg, ← hg, h.outstanding o g ho]
    · rw [if_neg hg]
      refine h.settled x fun o' ho' => ?_
      have hne : o' ≠ o := by
        rintro rfl
        rw [ho, Option.some.injEq] at ho'
        exact hg ho'
      exact hx o' (by rw [Function.update_of_ne hne, ho'])

/-- An owner without a handle takes what another one holds. -/
theorem OwnedBy.move (h : OwnedBy key l held) (ho : held o = none) (hne : o ≠ o') :
    OwnedBy key l (Function.update (Function.update held o' none) o (held o')) := by
  cases hx : held o' with
  | none =>
      have : Function.update (Function.update held o' none) o none = held := by
        rw [← hx, Function.update_eq_self, hx, ← ho, Function.update_eq_self]
      rwa [this]
  | some x =>
      -- the ledger of a step back and a step forth has the same counts
      have hr := h.release hx
      have ha := hr.acquire (o := o) (g := x) (by rw [Function.update_of_ne hne, ho]) ?_
      · constructor
        · exact ha.sole
        · intro o₁ y h₁
          have := ha.outstanding o₁ y h₁
          simp only [acquired_acquire, released_acquire, acquired_release, released_release] at this
          omega
        · intro y hy
          have := ha.settled y hy
          simp only [acquired_acquire, released_acquire, acquired_release, released_release] at this
          omega
      · intro o₁ y h₁ hk
        by_cases e : o₁ = o'
        · rw [e, Function.update_self] at h₁
          cases h₁
        · rw [Function.update_of_ne e] at h₁
          exact e (h.sole o₁ o' y x h₁ hx hk)

/-- An owner gives back what it holds, if anything. -/
theorem OwnedBy.clear (h : OwnedBy key l held) (o : O) :
    OwnedBy key (l ++ ((held o).map .release).toList) (Function.update held o none) := by
  cases ho : held o with
  | none =>
      rw [Option.map_none, Option.toList_none, List.append_nil, ← ho, Function.update_eq_self]
      exact h
  | some g => exact h.release ho

/-- An owner without a handle takes one whose key nobody holds, or none. -/
theorem OwnedBy.put (h : OwnedBy key l held) (ho : held o = none) {new : Option H}
    (hfresh : ∀ g, new = some g → ∀ o' x, held o' = some x → key x ≠ key g) :
    OwnedBy key (l ++ (new.map .acquire).toList) (Function.update held o new) := by
  cases new with
  | none =>
      rw [Option.map_none, Option.toList_none, List.append_nil, ← ho, Function.update_eq_self]
      exact h
  | some g => exact h.acquire ho (hfresh g rfl)

end owners

/-! ### Scopes -/

/-- Every handle is released at the end of the scope it was acquired for. -/
inductive Nested : List (Entry H) → Prop
  | nil : Nested []
  | append {l l' : List (Entry H)} (hl : Nested l) (hl' : Nested l') : Nested (l ++ l')
  | scope (h : H) {l : List (Entry H)} (hl : Nested l) :
      Nested (.acquire h :: (l ++ [.release h]))

section scopes
variable {l l' : List (Entry H)}

theorem acquired_append (h : H) : acquired (l ++ l') h = acquired l h + acquired l' h :=
  List.count_append

theorem released_append (h : H) : released (l ++ l') h = released l h + released l' h :=
  List.count_append

theorem acquired_cons (g h : H) :
    acquired (.acquire g :: l) h = acquired l h + if g = h then 1 else 0 := by
  simp [acquired, List.count_cons]

theorem released_cons (g h : H) : released (.acquire g :: l) h = released l h := by
  simp [released]

theorem Balanced.append (hl : Balanced l) (hl' : Balanced l') : Balanced (l ++ l') := by
  intro h
  rw [acquired_append, released_append, hl h, hl' h]

theorem Safe.append (hl : Safe l) (hb : Balanced l) (hl' : Safe l') : Safe (l ++ l') := by
  rintro pre ⟨t, ht⟩ h
  rcases List.append_eq_append_iff.mp ht with ⟨m, hm, _⟩ | ⟨pre', rfl, ht'⟩
  · exact hl pre ⟨m, hm.symm⟩ h
  · have := hb h
    have := hl' pre' ⟨t, ht'.symm⟩ h
    rw [acquired_append, released_append]
    omega

theorem Nested.balanced (hn : Nested l) : Balanced l := by
  induction hn with
  | nil => exact fun _ => rfl
  | append _ _ ih ih' => exact ih.append ih'
  | scope g _ ih =>
      intro h
      rw [acquired_cons, released_cons, acquired_release, released_release, ih h]

theorem Nested.safe (hn : Nested l) : Safe l := by
  induction hn with
  | nil => exact safe_nil
  | append hl _ ih ih' => exact ih.append hl.balanced ih'
  | @scope g l hl ih =>
      intro pre hpre h
      -- inside the scope `g` is held, and the last entry gives it back
      rcases List.prefix_cons_iff.mp hpre with rfl | ⟨pre', rfl, hpre'⟩
      · exact Nat.zero_le _
      · rw [acquired_cons, released_cons]
        rcases List.prefix_concat_iff.mp hpre' with rfl | hpre'
        · have := hl.balanced h
          rw [acquired_release, released_release]
          omega
        · have := ih pre' hpre' h
          omega

end scopes

/-! ### How much is outstanding -/

/-- What is outstanding after the ledger, if `held` was outstanding before it. -/
def outstanding (held : List H) : List (Entry H) → List H
  | [] => held
  | .acquire h :: l => outstanding (h :: held) l
  | .release h :: l => outstanding (held.erase h) l

/-- At no time are more than `n` handles outstanding. -/
def AtMost (n : ℕ) (l : List (Entry H)) : Prop :=
  ∀ pre, pre <+: l → (outstanding [] pre).length ≤ n

/-- A nested ledger, with at most `n` scopes inside one another. -/
inductive NestedIn : ℕ → List (Entry H) → Prop
  | nil (n : ℕ) : NestedIn n []
  | append {n : ℕ} {l l' : List (Entry H)} (hl : NestedIn n l) (hl' : NestedIn n l') :
      NestedIn n (l ++ l')
  | scope (h : H) {n : ℕ} {l : List (Entry H)} (hl : NestedIn n l) :
      NestedIn (n + 1) (.acquire h :: (l ++ [.release h]))

section depth
variable {n : ℕ} {held : List H} {l l' pre : List (Entry H)}

theorem outstanding_append :
    outstanding held (l ++ l') = outstanding (outstanding held l) l' := by
  induction l generalizing held with
  | nil => rfl
  | cons e l ih => cases e with
    | acquire h => exact ih
    | release h => exact ih

/-- A nested ledger leaves what was held before it. -/
theorem NestedIn.outstanding_eq (hn : NestedIn n l) (held : List H) :
    Ledger.outstanding held l = held := by
  induction hn generalizing held with
  | nil => rfl
  | append _ _ ih ih' => rw [outstanding_append, ih, ih']
  | @scope h n l _ ih =>
      show Ledger.outstanding (h :: held) (l ++ [.release h]) = held
      rw [outstanding_append, ih]
      exact List.erase_cons_head h held

/-- Within a nested ledger, what is held on top of what was held before is bounded. -/
theorem NestedIn.length_le (hn : NestedIn n l) (held : List H) (hpre : pre <+: l) :
    (Ledger.outstanding held pre).length ≤ held.length + n := by
  induction hn generalizing held pre with
  | nil n =>
      rw [List.prefix_nil.mp hpre]
      exact Nat.le_add_right _ n
  | @append n l l' hl _ ih ih' =>
      obtain ⟨t, ht⟩ := hpre
      rcases List.append_eq_append_iff.mp ht with ⟨m, hm, _⟩ | ⟨pre', rfl, ht'⟩
      · exact ih held ⟨m, hm.symm⟩
      · rw [outstanding_append, hl.outstanding_eq]
        exact ih' held ⟨t, ht'.symm⟩
  | @scope h n l hl ih =>
      rcases List.prefix_cons_iff.mp hpre with rfl | ⟨pre', rfl, hpre'⟩
      · exact Nat.le_add_right _ _
      · show (Ledger.outstanding (h :: held) pre').length ≤ held.length + (n + 1)
        rcases List.prefix_concat_iff.mp hpre' with rfl | hpre'
        · -- the end of the scope: `h` is given back
          rw [outstanding_append, hl.outstanding_eq]
          show ((h :: held).erase h).length ≤ _
          rw [List.erase_cons_head]
          omega
        · have := ih (h :: held) hpre'
          rw [List.length_cons] at this
          omega

theorem NestedIn.atMost (hn : NestedIn n l) : AtMost n l := fun _ hpre => by
  have := hn.length_le [] hpre
  rw [List.length_nil] at this
  omega

/-- A handle that is kept costs one. -/
theorem NestedIn.atMost_acquire (hl : NestedIn n l) (h : H) (hl' : NestedIn n l') :
    AtMost (n + 1) (l ++ .acquire h :: l') := by
  rintro pre ⟨t, ht⟩
  rcases List.append_eq_append_iff.mp ht with ⟨m, hm, _⟩ | ⟨pre', rfl, ht'⟩
  · have := hl.atMost pre ⟨m, hm.symm⟩
    omega
  · rw [outstanding_append, hl.outstanding_eq]
    rcases List.prefix_cons_iff.mp ⟨t, ht'.symm⟩ with rfl | ⟨pre'', rfl, hpre''⟩
    · exact Nat.zero_le _
    · have := hl'.length_le [h] hpre''
      rw [List.length_singleton] at this
      show (Ledger.outstanding [h] pre'').length ≤ n + 1
      omega

end depth

/-! ### Other names for the handles -/

/-- An entry about `f h` instead of `h`. -/
def Entry.map {K : Type*} (f : H → K) : Entry H → Entry K
  | .acquire h => .acquire (f h)
  | .release h => .release (f h)

/-- The handle that the entry acquires. -/
def Entry.acquired? : Entry H → Option H
  | .acquire h => some h
  | .release _ => none

/-- The handle that the entry releases. -/
def Entry.released? : Entry H → Option H
  | .acquire _ => none
  | .release h => some h

section names
variable {K : Type*} {l : List (Entry H)}

theorem acquired_eq_count (l : List (Entry H)) (h : H) :
    acquired l h = (l.filterMap Entry.acquired?).count h := by
  unfold acquired
  induction l with
  | nil => rfl
  | cons e l ih => cases e <;> simp [List.count_cons, List.filterMap_cons, Entry.acquired?, ih]

theorem released_eq_count (l : List (Entry H)) (h : H) :
    released l h = (l.filterMap Entry.released?).count h := by
  unfold released
  induction l with
  | nil => rfl
  | cons e l ih => cases e <;> simp [List.count_cons, List.filterMap_cons, Entry.released?, ih]

omit [DecidableEq H] in
theorem filterMap_map_entry (f : H → K) (l : List (Entry H)) :
    (l.map (Entry.map f)).filterMap Entry.acquired? = (l.filterMap Entry.acquired?).map f ∧
      (l.map (Entry.map f)).filterMap Entry.released? = (l.filterMap Entry.released?).map f := by
  rw [List.filterMap_map, List.map_filterMap, List.filterMap_map, List.map_filterMap]
  constructor <;>
    · congr 1
      funext e
      cases e <;> rfl

variable [DecidableEq K]

/-- What is outstanding is outstanding under its other name, even where handles share a name. -/
theorem released_lt_acquired_map (hl : ∀ h, released l h ≤ acquired l h) (f : H → K) {g : H}
    (hg : released l g < acquired l g) :
    released (l.map (Entry.map f)) (f g) < acquired (l.map (Entry.map f)) (f g) := by
  obtain ⟨ha, hr⟩ := filterMap_map_entry f l
  simp only [acquired_eq_count, released_eq_count] at hl hg ⊢
  rw [ha, hr]
  -- `g` and all that was released was acquired, each as often
  have hsub : g ::ₘ (l.filterMap Entry.released? : Multiset H) ≤
      (l.filterMap Entry.acquired? : Multiset H) := by
    rw [Multiset.le_iff_count]
    intro h
    have := hl h
    rw [Multiset.count_cons, Multiset.coe_count, Multiset.coe_count]
    by_cases e : h = g
    · subst e
      rw [if_pos rfl]
      exact hg
    · rw [if_neg e]
      exact this
  have hcount := Multiset.le_iff_count.mp (Multiset.map_le_map (f := f) hsub) (f g)
  rw [Multiset.map_cons, Multiset.count_cons_self, Multiset.map_coe, Multiset.map_coe,
    Multiset.coe_count, Multiset.coe_count] at hcount
  exact hcount

/-- A balanced ledger is balanced under other names. -/
theorem Balanced.map (hl : Balanced l) (f : H → K) : Balanced (l.map (Entry.map f)) := by
  obtain ⟨ha, hr⟩ := filterMap_map_entry f l
  have hperm : (l.filterMap Entry.released?).Perm (l.filterMap Entry.acquired?) := by
    rw [List.perm_iff_count]
    intro h
    rw [← acquired_eq_count, ← released_eq_count]
    exact hl h
  intro k
  rw [acquired_eq_count, released_eq_count, ha, hr]
  exact (hperm.map f).count_eq k

end names

end Ledger
