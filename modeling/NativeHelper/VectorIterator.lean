import NativeHelper.Constexpr

/-! # Iterating over a vector

`VectorIterator` is a pointer into the storage of a `ConstexprVector`.  Its `operator++()` moves it.
Its `operator++(int)` is `const`: it moves a copy and returns that copy, so `*it++` reads the element
behind the current one and leaves `it` where it was.

A traversal reads and advances until it is at `end()`, in one of the two ways at each step.
`faithful_iff` says that it gives the elements that were pushed, in order and in as many steps, if
and only if none of these steps is `*it++`. -/

namespace NativeHelper

/-- `ConstexprVector::VectorIterator`: the index its `ptr` points to. -/
structure VectorIterator where
  ptr : ℕ
deriving DecidableEq, Repr

namespace VectorIterator

/-- `operator++()`, which returns the iterator itself. -/
def preIncrement (it : VectorIterator) : VectorIterator := ⟨it.ptr + 1⟩

/-- `operator++(int) const`: what it returns, and the iterator after the call. -/
def postIncrement (it : VectorIterator) : VectorIterator × VectorIterator :=
  let tmp := it
  let tmp := tmp.preIncrement
  (tmp, it)

end VectorIterator

/-- How a step of a traversal reads and advances. -/
inductive Advance where
  /-- `*it`, and `++it` after it. -/
  | preIncrement
  /-- `*it++` -/
  | postIncrement
deriving DecidableEq, Repr

/-- How far the iterator is moved. -/
def Advance.distance : Advance → ℕ
  | .preIncrement => 1
  | .postIncrement => 0

/-- A traversal under way. -/
structure Traversal (T : Type) where
  it : VectorIterator
  steps : ℕ
  yielded : List T
deriving DecidableEq, Repr

namespace ConstexprVector
variable {T : Type} {kMaxSize : ℕ}

/-- The vector after a `push_back` of each of these values. -/
def pushAll (cfg : BuildConfig) (values : List T) : Eval (ConstexprVector T kMaxSize) :=
  values.foldlM (fun v value => v.pushBack cfg value) .empty

section traversal
variable (v : ConstexprVector T kMaxSize)

/-- `begin()` -/
def beginIterator : VectorIterator := ⟨0⟩

/-- `end()` -/
def endIterator : VectorIterator := ⟨v.size⟩

/-- `operator*`: the value in the storage at `ptr`, where one was pushed. -/
def deref (it : VectorIterator) : Eval T := v.get it.ptr

def traversalStep (a : Advance) (t : Traversal T) : Eval (Traversal T) :=
  match a with
  | .preIncrement => do
      let value ← v.deref t.it
      .ok ⟨t.it.preIncrement, t.steps + 1, t.yielded ++ [value]⟩
  | .postIncrement => do
      let (copy, it) := t.it.postIncrement
      let value ← v.deref copy
      .ok ⟨it, t.steps + 1, t.yielded ++ [value]⟩

/-- `while (it != end())`, for at most the given number of rounds: `advance i` is the way of the
step `i`. -/
def traverse (advance : ℕ → Advance) : ℕ → Traversal T → Eval (Traversal T)
  | n, t =>
      if t.it = v.endIterator then .ok t else
        match n with
        | 0 => .error .rounds
        | n + 1 => do
            let t' ← v.traversalStep (advance t.steps) t
            traverse advance n t'

end traversal

/-- What vector and iterator are for: the elements pushed are there by their indices, and a traversal
that advances this way gives them in order and then ends. -/
def Faithful (cfg : BuildConfig) (kMaxSize : ℕ) (values : List T) (advance : ℕ → Advance) : Prop :=
  ∃ v : ConstexprVector T kMaxSize, pushAll cfg values = .ok v ∧ v.size = values.length ∧
    (∀ (i : ℕ) (hi : i < values.length), v.get i = .ok values[i]) ∧
    ∃ n t, v.traverse advance n ⟨beginIterator, 0, []⟩ = .ok t ∧
      t.steps = v.size ∧ t.yielded = values

/-! ### Pushing -/

theorem foldlM_pushBack (cfg : BuildConfig) (values : List T) (v : ConstexprVector T kMaxSize)
    (h : v.elems.length + values.length ≤ kMaxSize) :
    values.foldlM (fun v value => v.pushBack cfg value) v =
      .ok ⟨v.elems ++ values, by rwa [List.length_append]⟩ := by
  induction values generalizing v with
  | nil => simp [pure, Except.pure]
  | cons value values ih =>
      rw [List.length_cons] at h
      rw [List.foldlM_cons, pushBack_eq cfg v value (by omega), eval_bind_ok, ih]
      · simp
      · simp only [List.length_append, List.length_singleton]
        omega

theorem pushAll_eq (cfg : BuildConfig) {values : List T} (h : values.length ≤ kMaxSize) :
    pushAll cfg values = .ok (⟨values, h⟩ : ConstexprVector T kMaxSize) :=
  foldlM_pushBack cfg values .empty (by simpa using h)

/-! ### Traversing -/

section traversal
variable {v : ConstexprVector T kMaxSize} {advance : ℕ → Advance} {t t' : Traversal T}

/-- **One step** reads something and moves the iterator as far as its way does. -/
theorem traversalStep_ok {a : Advance} (h : v.traversalStep a t = .ok t') :
    t'.steps = t.steps + 1 ∧ t'.it.ptr = t.it.ptr + a.distance := by
  cases a with
  | preIncrement =>
      obtain ⟨value, _, h⟩ := eval_bind_eq_ok.mp h
      obtain rfl := Except.ok.inj h
      exact ⟨rfl, rfl⟩
  | postIncrement =>
      obtain ⟨value, _, h⟩ := eval_bind_eq_ok.mp h
      obtain rfl := Except.ok.inj h
      exact ⟨rfl, rfl⟩

/-- The iterator is never ahead of the steps, and has kept up with them only if each was `++it`. -/
structure KeepsUp (advance : ℕ → Advance) (t : Traversal T) : Prop where
  le : t.it.ptr ≤ t.steps
  all : t.it.ptr = t.steps → ∀ i < t.steps, advance i = .preIncrement

theorem KeepsUp.step (hk : KeepsUp advance t)
    (h : v.traversalStep (advance t.steps) t = .ok t') : KeepsUp advance t' := by
  obtain ⟨hs, hp⟩ := traversalStep_ok h
  have hle := hk.le
  cases ha : advance t.steps with
  | preIncrement =>
      rw [ha] at hp
      have hp' : t'.it.ptr = t.it.ptr + 1 := hp
      refine ⟨by omega, fun heq i hi => ?_⟩
      rcases Nat.lt_succ_iff_lt_or_eq.mp (by omega : i < t.steps + 1) with hi | rfl
      · exact hk.all (by omega) i hi
      · exact ha
  | postIncrement =>
      rw [ha] at hp
      have hp' : t'.it.ptr = t.it.ptr := hp
      exact ⟨by omega, fun heq => by omega⟩

/-- **The whole traversal**, by induction on the rounds. -/
theorem KeepsUp.traverse (n : ℕ) (hk : KeepsUp advance t)
    (h : v.traverse advance n t = .ok t') : KeepsUp advance t' ∧ t'.it = v.endIterator := by
  induction n generalizing t with
  | zero =>
      unfold ConstexprVector.traverse at h
      split_ifs at h with hend
      obtain rfl := Except.ok.inj h
      exact ⟨hk, hend⟩
  | succ n ih =>
      unfold ConstexprVector.traverse at h
      split_ifs at h with hend
      · obtain rfl := Except.ok.inj h
        exact ⟨hk, hend⟩
      · obtain ⟨t₁, hstep, h⟩ := eval_bind_eq_ok.mp h
        exact ih (hk.step hstep) h

/-- A traversal that has read the first elements reads the others with `++it`. -/
theorem traverse_preIncrement (hall : ∀ i < v.size, advance i = .preIncrement) (n k : ℕ)
    (hk : k + n = v.size) :
    v.traverse advance n ⟨⟨k⟩, k, v.elems.take k⟩ = .ok ⟨v.endIterator, v.size, v.elems⟩ := by
  induction n generalizing k with
  | zero =>
      obtain rfl : k = v.size := hk
      have htake : v.elems.take v.size = v.elems := List.take_length
      simp [traverse, endIterator, htake]
  | succ n ih =>
      have hlt : k < v.elems.length := by
        show k < v.size
        omega
      have hne : (⟨k⟩ : VectorIterator) ≠ v.endIterator := by
        intro h
        have : k = v.size := congrArg VectorIterator.ptr h
        omega
      have hread : v.deref ⟨k⟩ = .ok v.elems[k] := v.get_of_getElem? (List.getElem?_eq_getElem hlt)
      have htake : v.elems.take k ++ [v.elems[k]] = v.elems.take (k + 1) := by
        rw [List.take_add_one, List.getElem?_eq_getElem hlt]
        rfl
      unfold traverse
      rw [if_neg hne]
      dsimp only
      rw [hall k hlt]
      simp only [traversalStep, hread, eval_bind_ok, htake]
      exact ih (k + 1) (by omega)

/-- A traversal ends after as many steps as there are elements if and only if each is `++it`. -/
theorem traverse_iff : (∃ n t, v.traverse advance n ⟨beginIterator, 0, []⟩ = .ok t ∧
      t.steps = v.size ∧ t.yielded = v.elems) ↔ ∀ i < v.size, advance i = .preIncrement := by
  constructor
  · rintro ⟨n, t, ht, hsteps, _⟩
    have hstart : KeepsUp advance (⟨beginIterator, 0, []⟩ : Traversal T) :=
      ⟨Nat.le_refl 0, fun _ i hi => absurd hi (Nat.not_lt_zero i)⟩
    obtain ⟨hk, hend⟩ := hstart.traverse n ht
    have hptr : t.it.ptr = t.steps := by rw [hend, hsteps]; rfl
    rw [← hsteps]
    exact hk.all hptr
  · intro hall
    exact ⟨v.size, _, traverse_preIncrement hall v.size 0 (Nat.zero_add _), rfl, rfl⟩

/-- **The traversal is faithful** if and only if no step of it is `*it++`. -/
theorem faithful_iff (cfg : BuildConfig) {values : List T} (h : values.length ≤ kMaxSize)
    (advance : ℕ → Advance) :
    Faithful cfg kMaxSize values advance ↔
      ∀ i < values.length, advance i = .preIncrement := by
  have hpush := pushAll_eq cfg h
  have hiff := @traverse_iff _ _ (⟨values, h⟩ : ConstexprVector T kMaxSize) advance
  constructor
  · rintro ⟨v, hv, _, _, ht⟩
    obtain rfl := Except.ok.inj (hpush.symm.trans hv)
    exact hiff.mp ht
  · intro hall
    refine ⟨_, hpush, rfl, fun i hi => ?_, hiff.mpr hall⟩
    exact get_of_getElem? _ (List.getElem?_eq_getElem hi)

theorem faithful_iff_preIncrement :
    Faithful .nonfatal 5 [1, 2, 3, 4, 5] (fun _ => .preIncrement) :=
  (faithful_iff .nonfatal (by decide) _).mpr fun _ _ => rfl

/-- The first `*it++` reads the second element and leaves the iterator at the first, so the traversal
never ends. -/
theorem not_faithful_postIncrement :
    traversalStep (⟨[1, 2], by decide⟩ : ConstexprVector ℕ 2) .postIncrement
      ⟨beginIterator, 0, []⟩ = .ok ⟨beginIterator, 1, [2]⟩ ∧
    ¬ Faithful .nonfatal 2 [1, 2] (fun _ => .postIncrement) := by
  refine ⟨rfl, ?_⟩
  rintro ⟨v, hv, _, _, ht⟩
  obtain rfl := Except.ok.inj ((pushAll_eq .nonfatal (by decide)).symm.trans hv)
  exact absurd (traverse_iff.mp ht 0 (by decide)) (by decide)

end traversal

end ConstexprVector

end NativeHelper
