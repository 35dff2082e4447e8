import Mathlib.Data.List.Perm.Basic
import NativeHelper.JniConstants
import NativeHelper.JniEnv

/-! # Arrays of strings

`toStringArray` makes a Java array of `count` strings, one visit after the other.  `count` and the
index are of type `size_t`; where the VM takes a `jsize` their low 32 bits are read as a signed
number (`jsize`).

Next to the environment of the thread the helper sees the class cache and the heap.  A call that
fails leaves an exception pending; `ArrayAnswers` says which calls fail.  The class of strings is
looked up as by the getters (`getStringClass_looksUp`), with the local references of `FindClass`;
what comes of making the array is `jniCreateStringArray_creation`.  The calls that only arrays and
strings need are not entered in `JniEnv.calls`, which nothing here reads. -/

namespace NativeHelper

open JniConstants (ConstM JClass Lookups Stop)
open Ledger (NestedIn AtMost)

/-! ### The state -/

/-- An object that can be looked into. -/
inductive HeapObject where
  | string (chars : String)
  | array (elements : List (Option JavaObject))
deriving DecidableEq, Repr

structure ArrayEnv where
  jni : JniEnv
  constants : JniConstants.State
  /-- The strings and the arrays, by their identity. -/
  heap : List HeapObject
  /-- The indices the visitor was called with. -/
  visited : List (BitVec 64)

/-- What the VM answers.  The calls for an element may fail at any index. -/
structure ArrayAnswers where
  findClass : String → Answer JavaObject
  newGlobalRef : String → Bool
  /-- What `NewObjectArray` throws for a negative length. -/
  negativeArraySize : JavaObject
  /-- What it throws otherwise, if it fails. -/
  newObjectArray : Option JavaObject
  newStringUTF : BitVec 64 → Option JavaObject
  /-- What `SetObjectArrayElement` throws for an index outside of the array. -/
  outOfBounds : BitVec 64 → JavaObject
  setObjectArrayElement : BitVec 64 → Option JavaObject

/-- The lookups of the class cache. -/
def ArrayAnswers.lookups (jni : ArrayAnswers) : Lookups :=
  ⟨fun name => (jni.findClass name).isValue, jni.newGlobalRef, fun _ _ => true, fun _ _ => true,
    fun _ _ => true⟩

/-- A program that may stop for good; the state it stopped in is kept. -/
def ArrayM (α : Type) := ArrayEnv → Except Stop α × ArrayEnv

namespace ArrayM
variable {α β : Type}

instance : Monad ArrayM where
  pure a := fun s => (.ok a, s)
  bind x f := fun s => match x s with
    | (.error why, s') => (.error why, s')
    | (.ok a, s') => f a s'

@[simp] theorem pure_apply (a : α) (s : ArrayEnv) : (pure a : ArrayM α) s = (.ok a, s) := rfl

@[simp] theorem bind_apply (x : ArrayM α) (f : α → ArrayM β) (s : ArrayEnv) :
    (x >>= f) s = match x s with
      | (.error why, s') => (.error why, s')
      | (.ok a, s') => f a s' := rfl

end ArrayM

/-- A call of the environment. -/
def withJni {α : Type} (x : JniM α) : ArrayM α := fun s =>
  (.ok (x s.jni).1, { s with jni := (x s.jni).2 })

/-- A step on the globals of the class cache. -/
def withConstants {α : Type} (x : ConstM α) : ArrayM α := fun s =>
  match x s.constants with
  | .error why => (.error why, s)
  | .ok (a, constants) => (.ok a, { s with constants })

def getConstants : ArrayM JniConstants.State := fun s => (.ok s.constants, s)

/-- A new object of the heap. -/
def allocate (object : HeapObject) : ArrayM JavaObject := fun s =>
  (.ok s.heap.length, { s with heap := s.heap ++ [object] })

/-- The scope of a `ScopedLocalRef`; a process that was stopped leaves nothing. -/
def inScope {α : Type} (localRef : Option Ref) (body : ArrayM α) : ArrayM α := do
  let a ← body
  match localRef with
  | none => return a
  | some r => do
      withJni (deleteLocalRef r)
      return a

section apply
variable {α : Type} {s s' : ArrayEnv}

theorem withConstants_ok {x : ConstM α} {a : α} {constants : JniConstants.State}
    (h : x s.constants = .ok (a, constants)) :
    withConstants x s = (.ok a, { s with constants }) := by
  unfold withConstants
  rw [h]

theorem withConstants_error {x : ConstM α} {why : Stop} (h : x s.constants = .error why) :
    withConstants x s = (.error why, s) := by
  unfold withConstants
  rw [h]

variable {body : ArrayM α} {a : α}

theorem inScope_error {localRef : Option Ref} {why : Stop} (h : body s = (.error why, s')) :
    inScope localRef body s = (.error why, s') := by
  rw [inScope, ArrayM.bind_apply, h]

theorem inScope_none (h : body s = (.ok a, s')) : inScope none body s = (.ok a, s') := by
  rw [inScope, ArrayM.bind_apply, h]
  rfl

theorem inScope_some (r : Ref) (h : body s = (.ok a, s')) :
    inScope (some r) body s = (.ok a, { s' with jni := (deleteLocalRef r s'.jni).2 }) := by
  rw [inScope, ArrayM.bind_apply, h]
  rfl

end apply

/-- A `size_t` where a `jsize` is expected. -/
def jsize (n : BitVec 64) : ℤ := (n.setWidth 32).toInt

/-- The index of a loop does not wrap around. -/
theorem toNat_add_one {i count : BitVec 64} (h : i < count) : (i + 1).toNat = i.toNat + 1 := by
  have hi : i.toNat < count.toNat := BitVec.lt_def.mp h
  have hc : count.toNat < 2 ^ 64 := count.isLt
  rw [BitVec.toNat_add, show (1 : BitVec 64).toNat = 1 from rfl]
  omega

section functions
variable (jni : ArrayAnswers)

/-! ### The class of strings -/

/-- `FindClass` of `JniConstants.cpp`, with its local reference. -/
def findConstantClass (name : String) : ArrayM (Option JClass) := do
  let klass ← withJni (findClass (jni.findClass name) name)
  inScope klass (withConstants (JniConstants.findClass jni.lookups name))

/-- `EnsureClassReferencesInitialized` -/
def ensureClassReferencesInitialized : ArrayM Unit := do
  if (← getConstants).classRefsInitialized then return ()
  else if (← getConstants).classRefsInitialized then return ()
  else do
    let fileDescriptorClass ← findConstantClass jni "java/io/FileDescriptor"
    withConstants (JniConstants.setClass .fileDescriptorClass fileDescriptorClass)
    let nioAccessClass ← findConstantClass jni "java/nio/NIOAccess"
    withConstants (JniConstants.setClass .nioAccessClass nioAccessClass)
    let nioBufferClass ← findConstantClass jni "java/nio/Buffer"
    withConstants (JniConstants.setClass .nioBufferClass nioBufferClass)
    let referenceClass ← findConstantClass jni "java/lang/ref/Reference"
    withConstants (JniConstants.setClass .referenceClass referenceClass)
    let stringClass ← findConstantClass jni "java/lang/String"
    withConstants (JniConstants.setClass .stringClass stringClass)
    withConstants (JniConstants.setInitialized true)

/-- `GetStringClass` -/
def getStringClass : ArrayM (Option JClass) := do
  ensureClassReferencesInitialized jni
  return (← getConstants).classes .stringClass

/-! ### The calls for arrays and strings -/

/-- `NewObjectArray(length, clazz, nullptr)` -/
def newObjectArray (length : BitVec 64) (clazz : Option JClass) : ArrayM (Option Ref) :=
  match clazz with
  -- the VM is not allowed to go on without a class
  | none => fun s => (.error .nullClass, s)
  | some _ =>
      if jsize length < 0 then do
        withJni (raise (some jni.negativeArraySize))
        return none
      else match jni.newObjectArray with
        | some exception => do
            withJni (raise (some exception))
            return none
        | none => do
            let array ← allocate (.array (List.replicate (jsize length).toNat none))
            return some (← withJni (newLocalRef array))

/-- `NewStringUTF` for the element `i`. -/
def newStringUTF (i : BitVec 64) (bytes : String) : ArrayM (Option Ref) :=
  match jni.newStringUTF i with
  | some exception => do
      withJni (raise (some exception))
      return none
  | none => do
      let string ← allocate (.string bytes)
      return some (← withJni (newLocalRef string))

/-- The elements of an array; what is not one has none. -/
def elementsOf (heap : List HeapObject) (array : JavaObject) : List (Option JavaObject) :=
  match heap[array]? with
  | some (.array elements) => elements
  | _ => []

/-- Whether the array has an element with this index. -/
def InBounds (length : ℕ) (i : BitVec 64) : Prop := 0 ≤ jsize i ∧ jsize i < length

instance (length : ℕ) (i : BitVec 64) : Decidable (InBounds length i) :=
  inferInstanceAs (Decidable (_ ∧ _))

/-- `array[i] = value` in the heap. -/
def storeElement (array : JavaObject) (i : BitVec 64) (value : Option JavaObject) :
    ArrayM Unit := fun s =>
  (.ok (), { s with
    heap := s.heap.set array (.array ((elementsOf s.heap array).set (jsize i).toNat value)) })

/-- `SetObjectArrayElement(array, i, value)` -/
def setObjectArrayElement (array : Ref) (i : BitVec 64) (value : Option Ref) : ArrayM Unit :=
  fun s =>
    if ¬ InBounds (elementsOf s.heap array.object).length i then
      withJni (raise (some (jni.outOfBounds i))) s
    else match jni.setObjectArrayElement i with
      | some exception => withJni (raise (some exception)) s
      | none => storeElement array.object i (value.map Ref.object) s

/-- `visitor(i)` -/
def callVisitor (visitor : BitVec 64 → String) (i : BitVec 64) : ArrayM String := fun s =>
  (.ok (visitor i), { s with visited := s.visited ++ [i] })

/-! ### `toStringArray` -/

def jniCreateStringArray (count : BitVec 64) : ArrayM (Option Ref) := do
  newObjectArray jni count (← getStringClass jni)

section loop
variable (visitor : BitVec 64 → String) (result : Ref)

/-- The body of the loop within the scope of `s`, which returns null from `toStringArray` or goes
on. -/
def storeString (i : BitVec 64) (s : Option Ref) : ArrayM Bool := do
  if ← withJni exceptionCheck then return true
  else do
    setObjectArrayElement jni result i s
    withJni exceptionCheck

/-- The body of the loop. -/
def fillElement (i : BitVec 64) : ArrayM Bool := do
  let s ← newStringUTF jni i (← callVisitor visitor i)
  inScope s (storeString jni result i s)

/-- The loop from the index `i` on: whether it returned null. -/
def fillElements (count i : BitVec 64) : ArrayM Bool :=
  if h : i < count then do
    if ← fillElement jni visitor result i then return true
    else fillElements count (i + 1)
  else return false
termination_by count.toNat - i.toNat
decreasing_by
  have := toNat_add_one h
  have := BitVec.lt_def.mp h
  omega

end loop

def toStringArray (count : BitVec 64) (visitor : BitVec 64 → String) : ArrayM (Option Ref) := do
  match ← jniCreateStringArray jni count with
  | none => return none
  | some result => do
      if ← fillElements jni visitor result count 0 then return none
      else return some result

end functions

/-! ### References across a step -/

/-- What was live is live, and no two references were obtained at a time in between. -/
structure Kept (s s' : ArrayEnv) : Prop where
  locals : s'.jni.locals.Perm s.jni.locals
  ledger : ∃ l, s'.jni.ledger = s.jni.ledger ++ l ∧ NestedIn 1 l

theorem Kept.of_eq {s s' : ArrayEnv} (hl : s'.jni.locals = s.jni.locals)
    (hg : s'.jni.ledger = s.jni.ledger) : Kept s s' :=
  ⟨by rw [hl], [], by rw [hg, List.append_nil], .nil 1⟩

theorem Kept.refl (s : ArrayEnv) : Kept s s := .of_eq rfl rfl

theorem Kept.trans {s s₁ s₂ : ArrayEnv} (h₁ : Kept s s₁) (h₂ : Kept s₁ s₂) : Kept s s₂ := by
  obtain ⟨p₁, l₁, e₁, n₁⟩ := h₁
  obtain ⟨p₂, l₂, e₂, n₂⟩ := h₂
  exact ⟨p₂.trans p₁, l₁ ++ l₂, by rw [e₂, e₁, List.append_assoc], n₁.append n₂⟩

/-- A reference that is deleted at the end of its scope is kept. -/
theorem kept_scope {s s' : ArrayEnv} (r : Ref)
    (hl : s'.jni.locals = (s.jni.locals ++ [r]).erase r)
    (hg : s'.jni.ledger =
      s.jni.ledger ++ [.acquire (.localRef r)] ++ [.release (.localRef r)]) : Kept s s' := by
  constructor
  · have := (List.perm_append_singleton r s.jni.locals).erase r
    rwa [List.erase_cons_head, ← hl] at this
  · refine ⟨_, ?_, (NestedIn.nil 0).scope (.localRef r)⟩
    rw [hg, List.append_assoc]
    rfl

/-! ### Looking up the class of strings -/

/-- Nothing was made and nobody was called. -/
structure Quiet (s s' : ArrayEnv) : Prop extends Kept s s' where
  heap : s'.heap = s.heap
  visited : s'.visited = s.visited

theorem Quiet.trans {s s₁ s₂ : ArrayEnv} (h₁ : Quiet s s₁) (h₂ : Quiet s₁ s₂) : Quiet s s₂ :=
  ⟨h₁.toKept.trans h₂.toKept, h₂.heap.trans h₁.heap, h₂.visited.trans h₁.visited⟩

/-- What the program does to the globals is what `y` does, and when it completes no exception was
left pending. -/
def LooksUp {α : Type} (x : ArrayM α) (y : ConstM α) : Prop :=
  ∀ s, Quiet s (x s).2 ∧ match y s.constants with
    | .error why => (x s).1 = .error why
    | .ok (a, constants) => (x s).1 = .ok a ∧ (x s).2.constants = constants ∧
        (x s).2.jni.pending = s.jni.pending

section lookup
variable {α β : Type} {jni : ArrayAnswers}

theorem LooksUp.pure (a : α) : LooksUp (Pure.pure a) (Pure.pure a) := fun s =>
  ⟨⟨.refl s, rfl, rfl⟩, rfl, rfl, rfl⟩

theorem LooksUp.bind {x : ArrayM α} {y : ConstM α} {f : α → ArrayM β} {g : α → ConstM β}
    (hx : LooksUp x y) (hf : ∀ a, LooksUp (f a) (g a)) : LooksUp (x >>= f) (y >>= g) := by
  intro s
  obtain ⟨hq, hr⟩ := hx s
  rw [ConstM.bind_apply, ArrayM.bind_apply]
  rcases hxs : x s with ⟨r, s'⟩
  rw [hxs] at hq hr
  rcases hys : y s.constants with why | ⟨a, c⟩
  · rw [hys] at hr
    obtain rfl : r = .error why := hr
    exact ⟨hq, rfl⟩
  · rw [hys] at hr
    obtain ⟨hr, hc, hp⟩ := hr
    obtain rfl : r = .ok a := hr
    obtain rfl : s'.constants = c := hc
    obtain ⟨hq', hr'⟩ := hf a s'
    refine ⟨hq.trans hq', ?_⟩
    show match g a s'.constants with
      | .error why => (f a s').1 = .error why
      | .ok (b, c) => (f a s').1 = .ok b ∧ (f a s').2.constants = c ∧
          (f a s').2.jni.pending = s.jni.pending
    rw [← hp]
    exact hr'

theorem LooksUp.withConstants (y : ConstM α) : LooksUp (withConstants y) y := by
  intro s
  unfold NativeHelper.withConstants
  rcases y s.constants with why | ⟨a, c⟩
  · exact ⟨⟨.refl s, rfl, rfl⟩, rfl⟩
  · exact ⟨⟨.of_eq rfl rfl, rfl, rfl⟩, rfl, rfl, rfl⟩

theorem LooksUp.getConstants : LooksUp getConstants JniConstants.getState := fun s =>
  ⟨⟨.refl s, rfl, rfl⟩, rfl, rfl, rfl⟩

theorem LooksUp.ite {c : Prop} [Decidable c] {x x' : ArrayM α} {y y' : ConstM α}
    (h : LooksUp x y) (h' : LooksUp x' y') :
    LooksUp (if c then x else x') (if c then y else y') := by
  by_cases hc : c
  · rwa [if_pos hc, if_pos hc]
  · rwa [if_neg hc, if_neg hc]

theorem findConstantClass_looksUp (name : String) :
    LooksUp (findConstantClass jni name) (JniConstants.findClass jni.lookups name) := by
  intro s
  cases ha : jni.findClass name with
  | null thrown =>
      have hf : JniConstants.findClass jni.lookups name s.constants = .error .abort :=
        JniConstants.findClass_abort (congrArg Answer.isValue ha) s.constants
      have he : findConstantClass jni name s = (.error .abort, { s with
          jni := (callForRef (.findClass name) [] (.null thrown) s.jni).2 }) := by
        unfold findConstantClass findClass
        rw [ha]
        exact inScope_error (withConstants_error hf)
      rw [he, hf]
      cases thrown <;> exact ⟨⟨.of_eq rfl rfl, rfl, rfl⟩, rfl⟩
  | value object =>
      obtain ⟨r, constants, hf, _⟩ :=
        JniConstants.findClass_completes (l := jni.lookups) (congrArg Answer.isValue ha) s.constants
      have he : findConstantClass jni name s = (.ok r, { s with
          jni := (deleteLocalRef ⟨s.jni.nextRef, object⟩
            (callForRef (.findClass name) [] (.value object) s.jni).2).2
          constants }) := by
        unfold findConstantClass findClass
        rw [ha]
        refine inScope_some _ (withConstants_ok ?_)
        exact hf
      rw [he, hf]
      exact ⟨⟨kept_scope _ rfl rfl, rfl, rfl⟩, rfl, rfl, rfl⟩

theorem getStringClass_looksUp (jni : ArrayAnswers) :
    LooksUp (getStringClass jni) (JniConstants.getStringClass jni.lookups) := by
  refine .bind ?_ fun _ => .bind .getConstants fun _ => .pure _
  refine .bind .getConstants fun _ => .ite (.pure _) ?_
  refine .bind .getConstants fun _ => .ite (.pure _) ?_
  refine .bind (findConstantClass_looksUp _) fun _ => .bind (.withConstants _) fun _ => ?_
  refine .bind (findConstantClass_looksUp _) fun _ => .bind (.withConstants _) fun _ => ?_
  refine .bind (findConstantClass_looksUp _) fun _ => .bind (.withConstants _) fun _ => ?_
  refine .bind (findConstantClass_looksUp _) fun _ => .bind (.withConstants _) fun _ => ?_
  refine .bind (findConstantClass_looksUp _) fun _ => .bind (.withConstants _) fun _ => ?_
  exact .withConstants _

/-- There is no class of strings: the cache holds none, or one of the classes is not found, or the
class of strings gets no global reference. -/
def StringClassMissing (jni : ArrayAnswers) (s : JniConstants.State) : Prop :=
  if s.classRefsInitialized then s.classes .stringClass = none
  else (∃ g : JniConstants.ClassGlobal, (jni.findClass g.name).isValue = false) ∨
    jni.newGlobalRef "java/lang/String" = false

/-- The getter stops or returns null if and only if the class is missing. -/
theorem getStringClass_cases (jni : ArrayAnswers) (s : JniConstants.State) :
    match JniConstants.getStringClass jni.lookups s with
    | .error _ => StringClassMissing jni s
    | .ok (klass, _) => klass = none ↔ StringClassMissing jni s := by
  unfold JniConstants.getStringClass JniConstants.cachedClass StringClassMissing
  rw [ConstM.bind_apply]
  by_cases hi : s.classRefsInitialized = true
  · have he : JniConstants.ensureClassReferencesInitialized jni.lookups s = .ok ((), s) := by
      unfold JniConstants.ensureClassReferencesInitialized
      rw [ConstM.bind_apply]
      show (if s.classRefsInitialized = true then _ else _ : ConstM Unit) s = _
      rw [if_pos hi]
      rfl
    rw [he, if_pos hi]
    exact Iff.rfl
  · rw [if_neg hi]
    cases he : JniConstants.ensureClassReferencesInitialized jni.lookups s with
    | error why =>
        refine .inl (not_forall_not.mp fun hf => ?_)
        obtain ⟨_, he'⟩ := JniConstants.ensureClassReferencesInitialized_completes
          (l := jni.lookups) (fun g => Bool.not_eq_false _ |>.mp (hf g)) s
        rw [he] at he'
        cases he'
    | ok r =>
        obtain ⟨hf, hs⟩ := JniConstants.ensureClassReferencesInitialized_eq_ok hi he
        show r.2.classes .stringClass = none ↔ _
        rw [← Option.isNone_iff_eq_none, ← Option.not_isSome, hs]
        constructor
        · intro h
          exact .inr (by simpa [ArrayAnswers.lookups] using h)
        · rintro (⟨g, hg⟩ | h)
          · exact absurd (hf g) (by simp [ArrayAnswers.lookups, hg])
          · simp [ArrayAnswers.lookups, h]

end lookup

/-! ### Making the array -/

/-- An array of `n` elements whose first `i` are the strings of the visitor. -/
def HoldsStrings (visitor : BitVec 64 → String) (heap : List HeapObject) (array : JavaObject)
    (n i : ℕ) : Prop :=
  ∃ elements, heap[array]? = some (.array elements) ∧ elements.length = n ∧
    ∀ j < i, ∃ string, elements[j]? = some (some string) ∧
      heap[string]? = some (.string (visitor (BitVec.ofNat 64 j)))

/-- The VM does not make the array. -/
def ArrayAnswers.Refuses (jni : ArrayAnswers) (count : BitVec 64) : Prop :=
  jsize count < 0 ∨ jni.newObjectArray.isSome

/-- The array is there, and one more local reference. -/
structure Created (count : BitVec 64) (s s' : ArrayEnv) (array : Ref) : Prop where
  pending : s'.jni.pending = s.jni.pending
  visited : s'.visited = s.visited
  length : 0 ≤ jsize count
  empty : ∀ visitor, HoldsStrings visitor s'.heap array.object (jsize count).toNat 0
  locals : s'.jni.locals.Perm (array :: s.jni.locals)
  ledger : ∃ l, s'.jni.ledger = s.jni.ledger ++ l ++ [.acquire (.localRef array)] ∧ NestedIn 1 l

/-- What `jniCreateStringArray` comes to. -/
inductive Creation (jni : ArrayAnswers) (count : BitVec 64) (s : ArrayEnv) :
    Except Stop (Option Ref) × ArrayEnv → Prop
  | stopped {why : Stop} {s' : ArrayEnv} (hm : StringClassMissing jni s.constants)
      (hk : Kept s s') : Creation jni count s (.error why, s')
  | refused {s' : ArrayEnv} (hm : ¬ StringClassMissing jni s.constants) (hr : jni.Refuses count)
      (hk : Kept s s') (hp : s'.jni.pending.isSome) : Creation jni count s (.ok none, s')
  | created {array : Ref} {s' : ArrayEnv} (hm : ¬ StringClassMissing jni s.constants)
      (hr : ¬ jni.Refuses count) (hc : Created count s s' array) :
      Creation jni count s (.ok (some array), s')

section creation
variable {jni : ArrayAnswers} {count : BitVec 64} {s : ArrayEnv}

theorem newObjectArray_creation {s₁ : ArrayEnv} (hm : ¬ StringClassMissing jni s.constants)
    (hq : Quiet s s₁) (hp : s₁.jni.pending = s.jni.pending) (klass : JClass) :
    Creation jni count s (newObjectArray jni count (some klass) s₁) := by
  unfold newObjectArray
  by_cases hn : jsize count < 0
  · show Creation jni count s ((if _ then _ else _ : ArrayM (Option Ref)) s₁)
    rw [if_pos hn]
    exact .refused hm (.inl hn) (hq.toKept.trans (.of_eq rfl rfl)) rfl
  · show Creation jni count s ((if _ then _ else _ : ArrayM (Option Ref)) s₁)
    rw [if_neg hn]
    cases ha : jni.newObjectArray with
    | some exception =>
        exact .refused hm (.inr (by rw [ha]; rfl)) (hq.toKept.trans (.of_eq rfl rfl)) rfl
    | none =>
        obtain ⟨l, hl, hnest⟩ := hq.ledger
        have hlen : 0 ≤ jsize count := by omega
        refine .created hm ?_ ⟨hp, hq.visited, hlen, ?_, ?_, l, ?_, hnest⟩
        · rintro (h | h)
          · exact hn h
          · rw [ha] at h
            cases h
        · intro visitor
          refine ⟨_, List.getElem?_concat_length, List.length_replicate, ?_⟩
          intro j hj
          omega
        · exact (List.perm_append_singleton _ _).trans (hq.locals.cons _)
        · rw [← hl]
          rfl

theorem jniCreateStringArray_creation (jni : ArrayAnswers) (count : BitVec 64) (s : ArrayEnv) :
    Creation jni count s (jniCreateStringArray jni count s) := by
  obtain ⟨hq, hr⟩ := getStringClass_looksUp jni s
  have hc := getStringClass_cases jni s.constants
  unfold jniCreateStringArray
  rw [ArrayM.bind_apply]
  rcases hx : getStringClass jni s with ⟨r, s₁⟩
  rw [hx] at hq hr
  rcases hy : JniConstants.getStringClass jni.lookups s.constants with why | ⟨klass, constants⟩
  · rw [hy] at hr hc
    obtain rfl : r = .error why := hr
    exact .stopped hc hq.toKept
  · rw [hy] at hr hc
    obtain ⟨hr, _, hp⟩ := hr
    obtain rfl : r = .ok klass := hr
    cases klass with
    | none => exact .stopped (hc.mp rfl) hq.toKept
    | some klass =>
        have hm : ¬ StringClassMissing jni s.constants := fun h => Option.some_ne_none _ (hc.mpr h)
        exact newObjectArray_creation hm hq hp klass

end creation

end NativeHelper
