import Mathlib.Data.List.Basic

/-! # The constexpr building blocks of the signature checker

The checker is C++ evaluated by the compiler.  An evaluation either returns or stops at a
*fault*: an `X_ASSERT` that fails, an access that leaves the object it goes to, or (in this
model only) a loop that is not done after the rounds it was given.

Two macros configure the header, and `BuildConfig` records both:

* with `PARSE_FAILURES_NONFATAL` a parse failure makes the function return `nullopt`, without
  it the failure is an `X_ASSERT`;
* with `JNI_SIGNATURE_CHECKER_DISABLE_ASSERTS` an `X_ASSERT` does nothing.

`BuildConfig.Checks` holds of the configurations in which a parse failure is noticed, and
`parseFailed` is what it then amounts to.  String views and vectors are lists; a vector carries
the bound of its storage.  Characters are only ever compared, so `Char` stands for `char`. -/

namespace NativeHelper

/-- The two macros the header looks at. -/
structure BuildConfig where
  /-- `PARSE_FAILURES_NONFATAL` is defined. -/
  parseFailuresNonfatal : Bool
  /-- `JNI_SIGNATURE_CHECKER_DISABLE_ASSERTS` is defined. -/
  disableAsserts : Bool
deriving DecidableEq, Repr

namespace BuildConfig

/-- The configuration of users: parse failures are assertions, assertions stop. -/
def fatal : BuildConfig := ⟨false, false⟩

/-- The configuration of the tests. -/
def nonfatal : BuildConfig := ⟨true, false⟩

/-- A parse failure is noticed, by returning `nullopt` or by stopping. -/
def Checks (cfg : BuildConfig) : Prop :=
  cfg.parseFailuresNonfatal = true ∨ cfg.disableAsserts = false

instance (cfg : BuildConfig) : Decidable cfg.Checks := inferInstanceAs (Decidable (_ ∨ _))

theorem fatal_checks : fatal.Checks := .inr rfl

theorem nonfatal_checks : nonfatal.Checks := .inl rfl

end BuildConfig

/-- Why an evaluation stops without returning. -/
inductive Fault where
  /-- An `X_ASSERT` failed. -/
  | assertion
  /-- An access outside a view, a vector or an array, or to the value of an empty optional. -/
  | stray
  /-- A loop was not done after the rounds it was given. -/
  | rounds
deriving DecidableEq, Repr

/-- A constexpr evaluation. -/
abbrev Eval (α : Type) := Except Fault α

@[simp] theorem eval_bind_ok {α β : Type} (a : α) (f : α → Eval β) :
    ((Except.ok a : Eval α) >>= f) = f a := rfl

@[simp] theorem eval_bind_error {α β : Type} (e : Fault) (f : α → Eval β) :
    ((Except.error e : Eval α) >>= f) = .error e := rfl

/-- An evaluation that returned went through all of its steps. -/
theorem eval_bind_eq_ok {α β : Type} {x : Eval α} {f : α → Eval β} {b : β} :
    (x >>= f) = .ok b ↔ ∃ a, x = .ok a ∧ f a = .ok b := by
  cases x with
  | error e =>
      rw [eval_bind_error]
      simp
  | ok a =>
      rw [eval_bind_ok]
      simp

@[simp] theorem eval_map_ok {α β : Type} (f : α → β) (a : α) :
    f <$> (Except.ok a : Eval α) = .ok (f a) := rfl

/-! ### Assertions and parse failures -/

section assertions
variable (cfg : BuildConfig) {α : Type}

/-- `X_ASSERT(check)`. -/
def xAssert (check : Bool) : Eval Unit :=
  if cfg.disableAsserts || check then .ok () else .error .assertion

/-- `PARSE_FAILURE(msg)` followed by the statements `k`. -/
def parseFailure (k : Eval (Option α)) : Eval (Option α) :=
  if cfg.parseFailuresNonfatal then .ok none else do
    xAssert cfg false
    k

/-- `PARSE_ASSERT(cond)` followed by the statements `k`. -/
def parseAssert (cond : Bool) (k : Eval (Option α)) : Eval (Option α) :=
  if cfg.parseFailuresNonfatal then
    if cond then k else .ok none
  else do
    xAssert cfg cond
    k

/-- What a noticed parse failure amounts to. -/
def parseFailed : Eval (Option α) :=
  if cfg.parseFailuresNonfatal then .ok none else .error .assertion

@[simp] theorem xAssert_true : xAssert cfg true = .ok () := by simp [xAssert]

@[simp] theorem parseAssert_true (k : Eval (Option α)) : parseAssert cfg true k = k := by
  simp [parseAssert]

variable {cfg}

theorem xAssert_returns_iff (hd : cfg.disableAsserts = false) (check : Bool) :
    (∃ u, xAssert cfg check = .ok u) ↔ check = true := by
  cases check <;> simp [xAssert, hd]

theorem parseFailure_eq (h : cfg.Checks) (k : Eval (Option α)) :
    parseFailure cfg k = parseFailed cfg := by
  obtain ⟨n, d⟩ := cfg
  rcases h with h | h
  · obtain rfl : n = true := h
    rfl
  · obtain rfl : d = false := h
    cases n <;> rfl

theorem parseAssert_false (h : cfg.Checks) (k : Eval (Option α)) :
    parseAssert cfg false k = parseFailed cfg := by
  rw [← parseFailure_eq h k]
  rfl

@[simp] theorem parseFailed_nonfatal : (parseFailed .nonfatal : Eval (Option α)) = .ok none := rfl

end assertions

/-! ### String views -/

/-- `ConstexprStringView`: the characters from its pointer on, as many as its size. -/
abbrev StringView := List Char

section views
variable (cfg : BuildConfig) (s : StringView)

/-- `operator[]`.  The assertion lets the index `size()` pass, one past the view. -/
def charAt (i : ℕ) : Eval Char := do
  xAssert cfg (i ≤ s.length)
  match s[i]? with
  | some c => .ok c
  | none => .error .stray

/-- `substr(start, len)`. -/
def substr (start len : ℕ) : Eval StringView := do
  xAssert cfg (start ≤ s.length)
  xAssert cfg (len ≤ s.length - start)
  if start + len ≤ s.length then .ok ((s.drop start).take len) else .error .stray

/-- `substr(start)`. -/
def substrFrom (start : ℕ) : Eval StringView := do
  xAssert cfg (start ≤ s.length)
  substr cfg s start (s.length - start)

theorem charAt_of_getElem? {i : ℕ} {c : Char} (h : s[i]? = some c) : charAt cfg s i = .ok c := by
  obtain ⟨hi, _⟩ := List.getElem?_eq_some_iff.mp h
  simp [charAt, h, Nat.le_of_lt hi]

@[simp] theorem charAt_cons_zero (c : Char) (t : StringView) : charAt cfg (c :: t) 0 = .ok c :=
  charAt_of_getElem? cfg _ rfl

/-- Only a read of one of the characters returns. -/
theorem charAt_returns_iff (i : ℕ) : (∃ c, charAt cfg s i = .ok c) ↔ i < s.length := by
  constructor
  · rintro ⟨c, h⟩
    obtain ⟨_, _, h⟩ := eval_bind_eq_ok.mp h
    by_contra hi
    rw [List.getElem?_eq_none (Nat.le_of_not_lt hi)] at h
    cases h
  · intro hi
    exact ⟨s[i], charAt_of_getElem? cfg s (List.getElem?_eq_getElem hi)⟩

/-- Only a view within the view returns. -/
theorem substr_returns_iff (start len : ℕ) :
    (∃ t, substr cfg s start len = .ok t) ↔ start ≤ s.length ∧ len ≤ s.length - start := by
  constructor
  · rintro ⟨t, h⟩
    obtain ⟨_, _, h⟩ := eval_bind_eq_ok.mp h
    obtain ⟨_, _, h⟩ := eval_bind_eq_ok.mp h
    split_ifs at h with hlen
    omega
  · rintro ⟨hs, hl⟩
    have hlen : start + len ≤ s.length := by omega
    refine ⟨(s.drop start).take len, ?_⟩
    simp [substr, hs, hl, hlen]

theorem substr_append (t r : StringView) :
    substr cfg (t ++ r) 0 t.length = .ok t := by
  simp [substr]

theorem substrFrom_append (t r : StringView) :
    substrFrom cfg (t ++ r) t.length = .ok r := by
  simp [substrFrom, substr]

@[simp] theorem substrFrom_one (c : Char) (t : StringView) : substrFrom cfg (c :: t) 1 = .ok t :=
  substrFrom_append cfg [c] t

@[simp] theorem substr_zero_one (c : Char) (t : StringView) : substr cfg (c :: t) 0 1 = .ok [c] :=
  substr_append cfg [c] t

end views

/-! ### Optionals, vectors and arrays -/

/-- `ConstexprOptional::value()`. -/
def optionalValue {α : Type} (cfg : BuildConfig) (o : Option α) : Eval α := do
  xAssert cfg o.isSome
  match o with
  | some a => .ok a
  | none => .error .stray

@[simp] theorem optionalValue_some {α : Type} (cfg : BuildConfig) (a : α) :
    optionalValue cfg (some a) = .ok a := by simp [optionalValue]

theorem optionalValue_returns_iff {α : Type} (cfg : BuildConfig) (o : Option α) :
    (∃ a, optionalValue cfg o = .ok a) ↔ o.isSome = true := by
  cases o with
  | some a => simp
  | none =>
      refine iff_of_false ?_ (by simp)
      rintro ⟨a, h⟩
      obtain ⟨_, _, h⟩ := eval_bind_eq_ok.mp h
      cases h

/-- `ConstexprVector<T, kMaxSize>`: what was pushed, within the storage. -/
@[ext] structure ConstexprVector (T : Type) (kMaxSize : ℕ) where
  elems : List T
  size_le : elems.length ≤ kMaxSize

namespace ConstexprVector
variable {T : Type} {kMaxSize : ℕ}

/-- The empty vector of the default constructor. -/
def empty : ConstexprVector T kMaxSize := ⟨[], Nat.zero_le _⟩

def size (v : ConstexprVector T kMaxSize) : ℕ := v.elems.length

/-- `push_back(value)`. -/
def pushBack (cfg : BuildConfig) (v : ConstexprVector T kMaxSize) (value : T) :
    Eval (ConstexprVector T kMaxSize) := do
  xAssert cfg (v.size + 1 ≤ kMaxSize)
  if h : v.elems.length + 1 ≤ kMaxSize then .ok ⟨v.elems ++ [value], by simpa using h⟩
  else .error .stray

/-- `operator[]`, which asserts nothing. -/
def get (v : ConstexprVector T kMaxSize) (i : ℕ) : Eval T :=
  match v.elems[i]? with
  | some a => .ok a
  | none => .error .stray

@[simp] theorem elems_empty : (empty : ConstexprVector T kMaxSize).elems = [] := rfl

theorem pushBack_eq (cfg : BuildConfig) (v : ConstexprVector T kMaxSize) (value : T)
    (h : v.elems.length + 1 ≤ kMaxSize) :
    v.pushBack cfg value = .ok ⟨v.elems ++ [value], by rw [List.length_append]; exact h⟩ := by
  simp [pushBack, size, h]

theorem pushBack_returns_iff (cfg : BuildConfig) (v : ConstexprVector T kMaxSize) (value : T) :
    (∃ v', v.pushBack cfg value = .ok v') ↔ v.size + 1 ≤ kMaxSize := by
  constructor
  · rintro ⟨v', h⟩
    obtain ⟨_, _, h⟩ := eval_bind_eq_ok.mp h
    split_ifs at h with hroom
    exact hroom
  · intro hroom
    exact ⟨_, v.pushBack_eq cfg value hroom⟩

theorem get_of_getElem? (v : ConstexprVector T kMaxSize) {i : ℕ} {a : T}
    (h : v.elems[i]? = some a) : v.get i = .ok a := by simp [get, h]

end ConstexprVector

/-- `ConstexprArray<T, N>`. -/
@[ext] structure ConstexprArray (T : Type) (N : ℕ) where
  elems : List T
  size_eq : elems.length = N

namespace ConstexprArray
variable {T : Type} {N : ℕ}

/-- The array whose elements are all `a`, as value-initialization makes it. -/
def replicate (N : ℕ) (a : T) : ConstexprArray T N := ⟨List.replicate N a, List.length_replicate⟩

/-- An assignment to `operator[](i)`. -/
def set (a : ConstexprArray T N) (i : ℕ) (value : T) : Eval (ConstexprArray T N) :=
  if i < N then .ok ⟨a.elems.set i value, by rw [List.length_set, a.size_eq]⟩ else .error .stray

theorem set_returns_iff (a : ConstexprArray T N) (i : ℕ) (value : T) :
    (∃ a', a.set i value = .ok a') ↔ i < N := by
  unfold set
  split_ifs with hi <;> simp [hi]

end ConstexprArray

/-- `FunctionSignatureDescriptor<T, kMaxSize>`: `Ret(Args...)` over components `T`. -/
@[ext] structure FunctionSignatureDescriptor (T : Type) (kMaxSize : ℕ) where
  args : ConstexprVector T kMaxSize
  ret : T

end NativeHelper
