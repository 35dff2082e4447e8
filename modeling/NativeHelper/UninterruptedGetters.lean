import Mathlib.Logic.Relation
import NativeHelper.ConstantGetters

/-! # Calls that are not interrupted

When no other thread moves and no lookup calls back, the steps of a call do to the globals what its
program in `JniConstants` does, and the call returns what the program returns
(`getter_uninterrupted`, `uninitialize_uninterrupted`).  So what is known of the programs is known
of the getters of a process with one thread. -/

namespace NativeHelper
namespace JniConstants

/-! ### The programs of the getters -/

/-- The getter of a field or a method as a program. -/
def IdGetter.program {Id : Type} (getter : IdGetter Id) (l : Lookups) : ConstM (Option Id) := do
  if (getter.load (← getState)).isNone then do
    let klass ← classGetter l getter.clazz
    getter.store (← getter.find l klass)
  return getter.load (← getState)

theorem fieldGetter_eq_program (l : Lookups) (g : FieldGlobal) :
    fieldGetter l g = g.code.program l := by
  cases g <;> rfl

theorem methodGetter_eq_program (l : Lookups) (g : MethodGlobal) :
    methodGetter l g = g.code.program l := by
  cases g <;> rfl

theorem classGetter_eq (l : Lookups) (g : ClassGlobal) : classGetter l g = cachedClass l g := by
  cases g <;> rfl

/-- The getter `g` as a program. -/
def Getter.program (l : Lookups) : Getter → ConstM Returned
  | .clazz g => do return .clazz g (← classGetter l g)
  | .field g => do return .field g (← fieldGetter l g)
  | .method g => do return .method g (← methodGetter l g)

/-! ### Classes -/

section uninterrupted
variable {T : Type} (t : T) (l : Lookups) {σ σ' : State} (log : List Returned)

/-- Steps of `t` inside the getter of the class in `g`. -/
def ClassSteps (g : ClassGlobal) : Shared T × ClassPc → Shared T × ClassPc → Prop :=
  Relation.ReflTransGen fun c c' => classStep t l c.1 g c.2 = some (c'.1, .goto c'.2)

variable {t l}

/-- One of the classes is found and stored, while the mutex is held. -/
theorem storeClass_steps (g : ClassGlobal) {c : ClassGlobal} {rest : ConstM Unit}
    (h : (do setClass c (← findClass l c.name); rest) σ = .ok ((), σ')) :
    ∃ σ₂, rest σ₂ = .ok ((), σ') ∧
      ClassSteps t l g (⟨σ, some t, log⟩, .findClass c) (⟨σ₂, some t, log⟩, match c.next with
        | some c' => .findClass c'
        | none => .storeInitialized) := by
  obtain ⟨klass, σ₁, hf, h⟩ := ConstM.bind_eq_ok h
  obtain ⟨_, σ₂, hs, h⟩ := ConstM.bind_eq_ok h
  refine ⟨σ₂, h, .head (b := (⟨σ₁, some t, log⟩, .storeClass c klass)) ?_ (.single ?_)⟩
  · rw [classStep, Shared.exec, hf]
    rfl
  · rw [classStep, Shared.exec, hs]
    rfl

/-- `EnsureClassReferencesInitialized` takes the mutex and gives it back. -/
theorem ensure_steps (g : ClassGlobal)
    (h : ensureClassReferencesInitialized l σ = .ok ((), σ')) :
    ClassSteps t l g (⟨σ, none, log⟩, .fastCheck) (⟨σ', none, log⟩, .loadClass) := by
  unfold ensureClassReferencesInitialized at h
  by_cases hi : σ.classRefsInitialized = true
  · rw [ConstM.bind_apply, getState] at h
    dsimp only at h
    rw [if_pos hi] at h
    cases h
    exact .single (by simp [classStep, hi])
  · have hlock : ClassSteps t l g (⟨σ, none, log⟩, .fastCheck)
        (⟨σ, some t, log⟩, .findClass .fileDescriptorClass) := by
      refine .head (b := (⟨σ, none, log⟩, .lock)) ?_ (.head (b := (⟨σ, some t, log⟩, .slowCheck))
        ?_ (.single ?_)) <;> simp [classStep, hi]
    rw [ConstM.bind_apply, getState] at h
    dsimp only at h
    rw [if_neg hi, ConstM.bind_apply, getState] at h
    dsimp only at h
    rw [if_neg hi] at h
    obtain ⟨_, h, h₁⟩ := storeClass_steps log g (c := .fileDescriptorClass) h
    obtain ⟨_, h, h₂⟩ := storeClass_steps log g (c := .nioAccessClass) h
    obtain ⟨_, h, h₃⟩ := storeClass_steps log g (c := .nioBufferClass) h
    obtain ⟨_, h, h₄⟩ := storeClass_steps log g (c := .referenceClass) h
    obtain ⟨σ₅, h, h₅⟩ := storeClass_steps log g (c := .stringClass) h
    have hstored := hlock.trans (h₁.trans (h₂.trans (h₃.trans (h₄.trans h₅))))
    refine hstored.trans (.head (b := (⟨σ', some t, log⟩, .unlock)) ?_ (.single rfl))
    show classStep t l ⟨σ₅, some t, log⟩ g .storeInitialized = _
    rw [classStep, Shared.exec, h]
    rfl

/-! ### Fields and methods -/

/-- Steps of `t` inside the getter of a field or a method. -/
def IdSteps {Id : Type} (t : T) (l : Lookups) (getter : IdGetter Id) :
    Shared T × IdPc Id → Shared T × IdPc Id → Prop :=
  Relation.ReflTransGen fun c c' => idStep t l c.1 getter c.2 = some (c'.1, some c'.2)

theorem ClassSteps.getClass {Id : Type} {getter : IdGetter Id} {c c' : Shared T × ClassPc}
    (h : ClassSteps t l getter.clazz c c') :
    IdSteps t l getter (c.1, .getClass c.2) (c'.1, .getClass c'.2) := by
  induction h with
  | refl => exact .refl
  | tail _ hs ih =>
      refine ih.tail ?_
      show idStep t l _ getter (.getClass _) = _
      rw [idStep, hs]
      rfl

/-- The call of the getter of the class returns to the getter of the id. -/
theorem getClass_steps {Id : Type} {getter : IdGetter Id} {klass : Option JClass}
    (h : classGetter l getter.clazz σ = .ok (klass, σ')) :
    IdSteps t l getter (⟨σ, none, log⟩, .getClass .fastCheck)
      (⟨σ', none, log ++ [.clazz getter.clazz klass]⟩, .find klass) := by
  rw [classGetter_eq] at h
  obtain ⟨_, σ₁, he, h⟩ := ConstM.bind_eq_ok h
  cases h
  exact (ensure_steps log getter.clazz he).getClass.tail rfl

/-- The getter of a field or a method comes to the load in front of its end. -/
theorem program_steps {Id : Type} {getter : IdGetter Id} {value : Option Id}
    (h : getter.program l σ = .ok (value, σ')) :
    ∃ log', log <+: log' ∧
      IdSteps t l getter (⟨σ, none, log⟩, .check) (⟨σ', none, log'⟩, .load) ∧
      getter.load σ' = value := by
  unfold IdGetter.program at h
  rw [ConstM.bind_apply, getState] at h
  dsimp only at h
  cases hload : getter.load σ with
  | some id =>
      rw [hload] at h
      cases h
      refine ⟨log, List.prefix_rfl, .single ?_, ?_⟩
      · simp [idStep, hload]
      · rfl
  | none =>
      rw [hload] at h
      obtain ⟨klass, σ₁, hc, h⟩ := ConstM.bind_eq_ok h
      obtain ⟨id, σ₂, hf, h⟩ := ConstM.bind_eq_ok h
      obtain ⟨_, σ₃, hs, h⟩ := ConstM.bind_eq_ok h
      cases h
      refine ⟨log ++ [.clazz getter.clazz klass], List.prefix_append _ _, ?_, rfl⟩
      have hcheck : IdSteps t l getter (⟨σ, none, log⟩, .check)
          (⟨σ, none, log⟩, .getClass .fastCheck) := .single (by simp [idStep, hload])
      refine (hcheck.trans (getClass_steps log hc)).trans
        (.head (b := (⟨σ₂, none, log ++ [.clazz getter.clazz klass]⟩, .store id)) ?_ (.single ?_))
      · rw [idStep, Shared.exec, hf]
        rfl
      · rw [idStep, Shared.exec, hs]
        rfl

/-! ### Threads -/

/-- Steps of the innermost call of `t`. -/
def CallSteps (t : T) (l : Lookups) : Shared T × List Frame → Shared T × List Frame → Prop :=
  Relation.ReflTransGen fun c c' => threadStep t (.advance l) c.1 c.2 = some c'

variable (rest : List Frame)

theorem ClassSteps.call {g : ClassGlobal} {c c' : Shared T × ClassPc}
    (h : ClassSteps t l g c c') :
    CallSteps t l (c.1, .classGetter g c.2 :: rest) (c'.1, .classGetter g c'.2 :: rest) := by
  induction h with
  | refl => exact .refl
  | tail _ hs ih =>
      refine ih.tail ?_
      rw [threadStep, frameStep, hs]
      rfl

/-- A call whose steps are those of the getter. -/
theorem IdSteps.call {Id : Type} {getter : IdGetter Id} {frame : IdPc Id → Frame}
    (hframe : ∀ s pc, frameStep t l s (frame pc) =
      (idStep t l s getter pc).map fun r => (r.1, r.2.map frame))
    {c c' : Shared T × IdPc Id} (h : IdSteps t l getter c c') :
    CallSteps t l (c.1, frame c.2 :: rest) (c'.1, frame c'.2 :: rest) := by
  induction h with
  | refl => exact .refl
  | tail _ hs ih =>
      refine ih.tail ?_
      rw [threadStep, hframe, hs]
      rfl

theorem program_calls {Id : Type} {getter : IdGetter Id} {frame : IdPc Id → Frame}
    (hframe : ∀ s pc, frameStep t l s (frame pc) =
      (idStep t l s getter pc).map fun r => (r.1, r.2.map frame))
    {value : Option Id} (h : getter.program l σ = .ok (value, σ')) :
    ∃ log', log <+: log' ∧ CallSteps t l (⟨σ, none, log⟩, frame .check :: rest)
      (⟨σ', none, log' ++ [getter.returned value]⟩, rest) := by
  obtain ⟨log', hlog, hsteps, rfl⟩ := program_steps log h
  refine ⟨log', hlog, (hsteps.call rest hframe).tail ?_⟩
  show threadStep t (.advance l) _ (frame .load :: rest) = _
  rw [threadStep, hframe, idStep]
  rfl

/-- **A call that is not interrupted** comes to its end if its program does, with the globals the
program leaves and with what it returns. -/
theorem getter_uninterrupted {g : Getter} {r : Returned} (h : g.program l σ = .ok (r, σ')) :
    ∃ log', log <+: log' ∧
      CallSteps t l (⟨σ, none, log⟩, g.frame :: rest) (⟨σ', none, log' ++ [r]⟩, rest) := by
  cases g with
  | clazz g =>
      obtain ⟨klass, σ₁, hc, h⟩ := ConstM.bind_eq_ok h
      rw [classGetter_eq] at hc
      obtain ⟨_, σ₂, he, hc⟩ := ConstM.bind_eq_ok hc
      cases hc
      cases h
      exact ⟨log, List.prefix_rfl, ((ensure_steps log g he).call rest).tail rfl⟩
  | field g =>
      obtain ⟨value, σ₁, hp, h⟩ := ConstM.bind_eq_ok h
      rw [fieldGetter_eq_program] at hp
      cases h
      exact program_calls log rest (fun _ _ => rfl) hp
  | method g =>
      obtain ⟨value, σ₁, hp, h⟩ := ConstM.bind_eq_ok h
      rw [methodGetter_eq_program] at hp
      cases h
      exact program_calls log rest (fun _ _ => rfl) hp

/-- The stores that `Uninitialize` still has to make are made, and the mutex is given back. -/
theorem uninitialize_steps (l : Lookups) {i : ℕ} {stores : List (ConstM Unit)}
    (hi : uninitializeStores.drop i = stores)
    (h : (stores.foldr (fun x rest => do x; rest) (pure ()) : ConstM Unit) σ = .ok ((), σ')) :
    CallSteps t l (⟨σ, some t, log⟩, .uninitializing (.store i) :: rest)
      (⟨σ', none, log⟩, rest) := by
  induction stores generalizing i σ with
  | nil =>
      cases h
      have hnone : uninitializeStores[i]? = none :=
        List.getElem?_eq_none (List.drop_eq_nil_iff.mp hi)
      refine .single ?_
      show threadStep t (.advance l) _ (.uninitializing (.store i) :: rest) = _
      rw [threadStep, frameStep, uninitializeStep, hnone]
      rfl
  | cons x stores ih =>
      obtain ⟨_, σ₁, hx, h⟩ := ConstM.bind_eq_ok h
      have hsome : uninitializeStores[i]? = some x := by
        rw [← List.head?_drop, hi, List.head?_cons]
      have hnext : uninitializeStores.drop (i + 1) = stores := by
        rw [← List.tail_drop, hi, List.tail_cons]
      refine .head ?_ (ih hnext h)
      show threadStep t (.advance l) _ (.uninitializing (.store i) :: rest) = _
      rw [threadStep, frameStep, uninitializeStep, hsome]
      show ((Option.map _ (Shared.exec _ x)).map _).map _ = _
      rw [Shared.exec, hx]
      rfl

theorem uninitialize_uninterrupted (l : Lookups)
    (h : uninitializeConstants σ = .ok ((), σ')) :
    CallSteps t l (⟨σ, none, log⟩, .uninitializing .lock :: rest) (⟨σ', none, log⟩, rest) := by
  rw [uninitializeConstants_eq_stores] at h
  exact .head rfl (uninitialize_steps log rest l List.drop_zero h)

end uninterrupted

end JniConstants
end NativeHelper
