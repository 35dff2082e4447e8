import NativeHelper.CallSafety
import NativeHelper.ExceptionHelpers
import NativeHelper.JniMacros
import NativeHelper.Transition

/-! # The registration of native methods

`jniRegisterNativeMethods` binds the native methods of a class to the functions of a table, or it
aborts the process: it returns exactly if the class is found and declares every entry, and then the
last entry of a method counts (`jniRegisterNativeMethods_eq`).

A table is made of macros, and a macro is used for a method with its annotation.  Then in every run
of registrations every method that is bound goes with its function (`registered_calls_safe`), and
what the function returns is of the type of the method.  The checker leaves two things to its users
(`UsedRight`): a `jthrowable` is written for throwables only, and a class for the receiver of static
methods only.  Then the function is given the number and the kind of arguments it has parameters
for, each one a value of its parameter type. -/

namespace NativeHelper

open JavaTypes

/-! ### Registration -/

/-- What the VM knows of the classes. -/
structure NativeClasses where
  name : JavaObject → ClassName
  /-- The native method of a class with this name and signature. -/
  declared : JavaObject → String → StringView → Option NativeDeclaration
  signature_of_declared : ∀ {clazz name sig decl}, declared clazz name sig = some decl →
    decl.type.signature = sig
  noSuchMethodError : JavaObject

/-- The functions of the native methods that have one. -/
abbrev Bindings := JavaObject → String → StringView → Option CppFunction

def Bindings.bind (b : Bindings) (clazz : JavaObject) (m : JNINativeMethod) : Bindings :=
  fun clazz' name sig =>
    if clazz' = clazz ∧ name = m.name ∧ sig = m.signature then some m.fnPtr else b clazz' name sig

/-- The state of the VM, as far as registration goes. -/
structure Registry where
  env : JniEnv
  bound : Bindings

/-- A program that registers methods, and that may abort. -/
abbrev RegisterM := StateT Registry Option

def onEnv {α : Type} (x : JniM α) : RegisterM α := fun s =>
  some ((x s.env).1, { s with env := (x s.env).2 })

/-- `ALOG_ALWAYS_FATAL_IF` -/
def alogAlwaysFatalIf (cond : Prop) [Decidable cond] : RegisterM Unit :=
  if cond then failure else return ()

def bindMethod (clazz : Ref) (m : JNINativeMethod) : RegisterM Unit := fun s =>
  some ((), { s with bound := s.bound.bind clazz.object m })

/-- `RegisterNatives`, which stops at the first method that is not declared. -/
def registerNatives (vm : NativeClasses) (clazz : Ref) : List JNINativeMethod → RegisterM ℤ
  | [] => return 0
  | m :: methods => do
      if (vm.declared clazz.object m.name m.signature).isNone then
        onEnv (raise (some vm.noSuchMethodError))
        return -1
      else
        bindMethod clazz m
        registerNatives vm clazz methods

/-- `jniRegisterNativeMethods`, with what `FindClass` answers. -/
def jniRegisterNativeMethods (vm : NativeClasses) (answer : Answer JavaObject) (className : String)
    (gMethods : List JNINativeMethod) (numMethods : ℕ) : RegisterM ℤ := do
  let c ← onEnv (findClass answer className)
  match c with
  | none => do
      alogAlwaysFatalIf True
      return 0
  | some clazz => do
      let result ← registerNatives vm clazz (gMethods.take numMethods)
      alogAlwaysFatalIf (result < 0)
      onEnv (deleteLocalRef clazz)
      return 0

/-! ### What a registration does -/

section registration
variable (vm : NativeClasses)

/-- The class declares every method. -/
def NativeClasses.Declares (clazz : JavaObject) (methods : List JNINativeMethod) : Prop :=
  ∀ m ∈ methods, (vm.declared clazz m.name m.signature).isSome

instance (clazz : JavaObject) (methods : List JNINativeMethod) :
    Decidable (vm.Declares clazz methods) :=
  inferInstanceAs (Decidable (∀ m ∈ methods, _))

/-- The bindings after a list of methods, each one over those before. -/
def Bindings.bindAll (b : Bindings) (clazz : JavaObject) (methods : List JNINativeMethod) :
    Bindings :=
  methods.foldl (fun b m => b.bind clazz m) b

/-- The last entry of a method. -/
def lastEntry (methods : List JNINativeMethod) (name : String) (sig : StringView) :
    Option CppFunction :=
  ((methods.filter fun m => m.name = name ∧ m.signature = sig).map (·.fnPtr)).getLast?

theorem lastEntry_append (methods methods' : List JNINativeMethod) (name : String)
    (sig : StringView) : lastEntry (methods ++ methods') name sig =
      (lastEntry methods' name sig).or (lastEntry methods name sig) := by
  rw [lastEntry, List.filter_append, List.map_append, List.getLast?_append, lastEntry, lastEntry]

theorem lastEntry_singleton (m : JNINativeMethod) (name : String) (sig : StringView) :
    lastEntry [m] name sig =
      if name = m.name ∧ sig = m.signature then some m.fnPtr else none := by
  by_cases hm : name = m.name ∧ sig = m.signature
  · obtain ⟨rfl, rfl⟩ := hm
    simp [lastEntry]
  · rw [if_neg hm, lastEntry, List.filter_singleton,
      decide_eq_false fun h => hm ⟨h.1.symm, h.2.symm⟩]
    rfl

theorem mem_of_lastEntry {methods : List JNINativeMethod} {name : String} {sig : StringView}
    {fn : CppFunction} (h : lastEntry methods name sig = some fn) :
    ⟨name, sig, fn⟩ ∈ methods := by
  obtain ⟨⟨name', sig', fn'⟩, hmem, rfl⟩ := List.mem_map.mp (List.mem_of_getLast? h)
  obtain ⟨hm, hkey⟩ := List.mem_filter.mp hmem
  obtain ⟨rfl, rfl⟩ := of_decide_eq_true hkey
  exact hm

theorem bindAll_apply (b : Bindings) (clazz : JavaObject) (methods : List JNINativeMethod)
    (clazz' : JavaObject) (name : String) (sig : StringView) :
    b.bindAll clazz methods clazz' name sig =
      if clazz' = clazz then (lastEntry methods name sig).or (b clazz' name sig)
      else b clazz' name sig := by
  induction methods using List.reverseRecOn with
  | nil => exact (ite_self _).symm
  | append_singleton methods m ih =>
      rw [Bindings.bindAll, List.foldl_append]
      change Bindings.bind (b.bindAll clazz methods) clazz m clazz' name sig = _
      rw [Bindings.bind, ih, lastEntry_append, lastEntry_singleton]
      by_cases hc : clazz' = clazz
      · by_cases hm : name = m.name ∧ sig = m.signature
        · rw [if_pos ⟨hc, hm⟩, if_pos hc, if_pos hm]
          rfl
        · rw [if_neg fun h => hm h.2, if_pos hc, if_pos hc, if_neg hm]
          rfl
      · rw [if_neg fun h => hc h.1, if_neg hc, if_neg hc]

theorem registerNatives_declared {clazz : Ref} {methods : List JNINativeMethod} (s : Registry)
    (h : vm.Declares clazz.object methods) :
    registerNatives vm clazz methods s =
      some (0, { s with bound := s.bound.bindAll clazz.object methods }) := by
  induction methods generalizing s with
  | nil => rfl
  | cons m methods ih =>
      have hm : (vm.declared clazz.object m.name m.signature).isNone = false := by
        have := h m List.mem_cons_self
        cases hd : vm.declared clazz.object m.name m.signature with
        | none => rw [hd] at this; cases this
        | some d => rfl
      rw [registerNatives, hm]
      exact ih _ fun m' hm' => h m' (List.mem_cons_of_mem _ hm')

/-- A method that is not declared makes the result negative. -/
theorem registerNatives_undeclared {clazz : Ref} {methods : List JNINativeMethod} (s : Registry)
    (h : ¬ vm.Declares clazz.object methods) :
    ∃ s', registerNatives vm clazz methods s = some (-1, s') := by
  induction methods generalizing s with
  | nil => exact absurd (fun m hm => absurd hm List.not_mem_nil) h
  | cons m methods ih =>
      cases hd : vm.declared clazz.object m.name m.signature with
      | none =>
          refine ⟨{ s with env := (raise (some vm.noSuchMethodError) s.env).2 }, ?_⟩
          rw [registerNatives, hd]
          rfl
      | some d =>
          rw [registerNatives, hd]
          refine ih _ fun hall => h fun m' hm' => ?_
          rcases List.mem_cons.mp hm' with rfl | hm'
          · rw [hd]
            rfl
          · exact hall m' hm'

/-- What is left of finding the class. -/
def classFound (className : String) (clazz : JavaObject) (e : JniEnv) : JniEnv :=
  (deleteLocalRef ⟨e.nextRef, clazz⟩ (findClass (.value clazz) className e).2).2

/-- **A registration is complete or aborts.** -/
theorem jniRegisterNativeMethods_eq (answer : Answer JavaObject) (className : String)
    (gMethods : List JNINativeMethod) (numMethods : ℕ) (s : Registry) :
    jniRegisterNativeMethods vm answer className gMethods numMethods s =
      match answer with
      | .null _ => none
      | .value clazz =>
          if vm.Declares clazz (gMethods.take numMethods) then
            some (0, ⟨classFound className clazz s.env,
              s.bound.bindAll clazz (gMethods.take numMethods)⟩)
          else none := by
  cases answer with
  | null thrown => rfl
  | value clazz =>
      have hfound : jniRegisterNativeMethods vm (.value clazz) className gMethods numMethods s =
          (registerNatives vm ⟨s.env.nextRef, clazz⟩ (gMethods.take numMethods)
            { s with env := (findClass (.value clazz) className s.env).2 }).bind fun r =>
              (alogAlwaysFatalIf (r.1 < 0) r.2).bind fun r' =>
                some (0, { r'.2 with
                  env := (deleteLocalRef ⟨s.env.nextRef, clazz⟩ r'.2.env).2 }) := rfl
      rw [hfound]
      by_cases h : vm.Declares clazz (gMethods.take numMethods)
      · rw [registerNatives_declared vm _ h]
        simp only [if_pos h]
        rfl
      · obtain ⟨s', hs'⟩ := @registerNatives_undeclared vm ⟨s.env.nextRef, clazz⟩
          (gMethods.take numMethods) { s with env := (findClass (.value clazz) className s.env).2 } h
        rw [hs']
        simp only [if_neg h]
        rfl

end registration

/-! ### Runs -/

/-- A call of `jniRegisterNativeMethods`. -/
structure Registration where
  className : String
  /-- What `FindClass` answers. -/
  answer : Answer JavaObject
  gMethods : List JNINativeMethod
  numMethods : ℕ

/-- The part of the table that is read. -/
def Registration.methods (r : Registration) : List JNINativeMethod := r.gMethods.take r.numMethods

/-- The entries for a class. -/
def Registration.entriesFor (clazz : JavaObject) (r : Registration) : List JNINativeMethod :=
  if r.answer = .value clazz then r.methods else []

section runs
variable (vm : NativeClasses)

def NativeClasses.register (s : Registry) (r : Registration) : Option Registry :=
  (jniRegisterNativeMethods vm r.answer r.className r.gMethods r.numMethods s).map (·.2)

/-- The class is there and declares what is registered. -/
def Registration.Completes (r : Registration) : Prop :=
  ∃ clazz, r.answer = .value clazz ∧ vm.Declares clazz r.methods

theorem classFound_locals (className : String) (clazz : JavaObject) (e : JniEnv) :
    (classFound className clazz e).locals.Perm e.locals := by
  let r : Ref := ⟨e.nextRef, clazz⟩
  have h := (List.perm_append_singleton r e.locals).erase r
  rwa [List.erase_cons_head] at h

/-- One registration. -/
theorem register_eq_some_iff {s s' : Registry} {r : Registration} :
    vm.register s r = some s' ↔ ∃ clazz, r.answer = .value clazz ∧ vm.Declares clazz r.methods ∧
      s' = ⟨classFound r.className clazz s.env, s.bound.bindAll clazz r.methods⟩ := by
  obtain ⟨className, answer, gMethods, numMethods⟩ := r
  rw [NativeClasses.register, jniRegisterNativeMethods_eq]
  cases answer with
  | null thrown => simp
  | value clazz =>
      by_cases h : vm.Declares clazz (gMethods.take numMethods)
      · simp [h, Registration.methods, eq_comm]
      · simp [h, Registration.methods]

/-- **What a run of registrations does.**  It goes through if and only if every class is there and
declares the entries of its table; then the last entry of a method counts, methods without one keep
their function, no reference is left and the pending exception is the same. -/
theorem registrations_run (s : Registry) (as : List Registration) :
    ((∃ s', Transition.run vm.register s as = some s') ↔ ∀ r ∈ as, r.Completes vm) ∧
    ∀ s', Transition.run vm.register s as = some s' →
      (∀ clazz name sig, s'.bound clazz name sig =
        (lastEntry (as.flatMap (Registration.entriesFor clazz)) name sig).or
          (s.bound clazz name sig)) ∧
      s'.env.locals.Perm s.env.locals ∧ s'.env.pending = s.env.pending := by
  induction as generalizing s with
  | nil =>
      refine ⟨iff_of_true ⟨s, rfl⟩ fun r hr => absurd hr List.not_mem_nil, ?_⟩
      rintro _ ⟨⟩
      exact ⟨fun _ _ _ => rfl, .refl _, rfl⟩
  | cons r as ih =>
      constructor
      · constructor
        · rintro ⟨s', hr⟩
          obtain ⟨s₁, h₁, h₂⟩ := Option.bind_eq_some_iff.mp hr
          obtain ⟨clazz, ha, hd, _⟩ := (register_eq_some_iff vm).mp h₁
          intro r' hr'
          rcases List.mem_cons.mp hr' with rfl | hr'
          · exact ⟨clazz, ha, hd⟩
          · exact (ih s₁).1.mp ⟨s', h₂⟩ r' hr'
        · intro hall
          obtain ⟨clazz, ha, hd⟩ := hall r List.mem_cons_self
          have h₁ := (register_eq_some_iff vm (s := s)).mpr ⟨clazz, ha, hd, rfl⟩
          obtain ⟨s', h₂⟩ := (ih _).1.mpr fun r' hr' => hall r' (List.mem_cons_of_mem _ hr')
          exact ⟨s', by rw [Transition.run_cons, h₁, Option.bind_some, h₂]⟩
      · intro s' hr
        obtain ⟨s₁, h₁, h₂⟩ := Option.bind_eq_some_iff.mp hr
        obtain ⟨clazz, ha, hd, rfl⟩ := (register_eq_some_iff vm).mp h₁
        obtain ⟨hbound, hlocals, hpending⟩ := (ih _).2 s' h₂
        refine ⟨fun clazz' name sig => ?_, hlocals.trans (classFound_locals _ _ _), hpending⟩
        rw [hbound]
        change (lastEntry _ name sig).or (s.bound.bindAll clazz r.methods clazz' name sig) = _
        rw [bindAll_apply, List.flatMap_cons, lastEntry_append, Registration.entriesFor, ha]
        by_cases hc : clazz' = clazz
        · subst hc
          rw [if_pos rfl, if_pos rfl]
          exact (Option.or_assoc ..).symm
        · rw [if_neg hc, if_neg fun h => hc (Answer.value.inj h).symm]
          rw [show lastEntry [] name sig = none from rfl, Option.or_none]

/-! ### Functions that go with their methods -/

/-- Every function that is bound goes with the method. -/
def Bindings.Safe (cfg : BuildConfig) (b : Bindings) : Prop :=
  ∀ clazz name sig fn, b clazz name sig = some fn → ∃ decl, vm.declared clazz name sig = some decl ∧
    matchJniDescriptorWithFunctionType cfg decl.kind fn.type (sig.length + 1) sig = .ok true

/-- The table is made of macros, each one used for a method with its annotation. -/
def Registration.Made (c : Compiler) (scope : String → Option CppFunction) (r : Registration) :
    Prop :=
  ∀ clazz, r.answer = .value clazz → ∀ m ∈ r.methods, ∃ use : MacroUse,
    use.expand c scope = some m ∧
      ∀ decl, vm.declared clazz m.name m.signature = some decl →
        decl.kind = use.annotated.nativeKind

variable {vm}

/-- The C string of an entry that is declared is the whole signature. -/
theorem JNINativeMethod.Fits.declared {cfg : BuildConfig} (hcfg : cfg.Checks) {m : JNINativeMethod}
    {decl : NativeDeclaration} (h : m.Fits cfg decl.kind) {clazz : JavaObject}
    (hd : vm.declared clazz m.name m.signature = some decl) :
    matchJniDescriptorWithFunctionType cfg decl.kind m.fnPtr.type (m.signature.length + 1)
      m.signature = .ok true := by
  obtain ⟨literal, hl, hm⟩ := h
  obtain ⟨_, _, args, ret, hs⟩ := of_match hcfg (Nat.le_succ _) hm
  obtain ⟨t, ht, _⟩ := exists_methodType hs
  have hprefix : m.signature <+: literal := hl ▸ List.takeWhile_prefix _
  have heq := signature_prefixFree _ ⟨decl.type, vm.signature_of_declared hd⟩ _ ⟨t, ht⟩ hprefix
  rwa [← heq] at hm

theorem signature_ne_nil (m : MethodType) : m.signature ≠ [] := List.cons_ne_nil _ _

theorem Registration.Made.safe {c : Compiler} {scope : String → Option CppFunction}
    (h14 : c.cxx14 = true) (hd : c.cfg.disableAsserts = false) {r : Registration}
    (hr : r.Made vm c scope) {s s' : Registry} (hs : s.bound.Safe vm c.cfg)
    (h : vm.register s r = some s') : s'.bound.Safe vm c.cfg := by
  obtain ⟨clazz, ha, hdecl, rfl⟩ := (register_eq_some_iff vm).mp h
  intro clazz' name sig fn hb
  change s.bound.bindAll clazz r.methods clazz' name sig = some fn at hb
  rw [bindAll_apply] at hb
  split_ifs at hb with hc
  · subst hc
    rcases Option.or_eq_some_iff.mp hb with hlast | ⟨_, hold⟩
    · have hm := mem_of_lastEntry hlast
      obtain ⟨use, huse, hkind⟩ := hr _ ha _ hm
      obtain ⟨decl, hdecl⟩ := Option.isSome_iff_exists.mp (hdecl _ hm)
      refine ⟨decl, hdecl, ?_⟩
      rcases MacroUse.expand_fits h14 hd huse with hnil | hfits
      · -- no method is declared with an empty signature
        exact absurd ((vm.signature_of_declared hdecl).trans hnil) (signature_ne_nil _)
      · rw [← hkind decl hdecl] at hfits
        exact hfits.declared (.inr hd) hdecl
    · exact hs _ _ _ _ hold
  · exact hs _ _ _ _ hb

end runs

/-- **In every run of registrations the functions are called with what they have parameters for**:
when every table is made of macros, used for methods with their annotation, every method that is
bound is declared and its function has the shape of its kind.  A call hands over values of the
parameter types, as long as every `jthrowable` of the function stands for a class of throwables and
a receiver that is a class for a static method (`UsedRight`).  The function returns nothing exactly
if the method does, and what one with a final return type returns is of the type of the method. -/
theorem registered_calls_safe [ClassHierarchy ClassName] (vm : NativeClasses) {c : Compiler}
    {scope : String → Option CppFunction} (h14 : c.cxx14 = true)
    (hd : c.cfg.disableAsserts = false) {s s' : Registry} (hs : s.bound = fun _ _ _ => none)
    {as : List Registration} (has : ∀ r ∈ as, r.Made vm c scope)
    (hr : Transition.run vm.register s as = some s') {clazz : JavaObject} {name : String}
    {sig : StringView} {fn : CppFunction} (hb : s'.bound clazz name sig = some fn) :
    ∃ decl, vm.declared clazz name sig = some decl ∧ fn.type.ValidShape decl.kind ∧
      (UsedRight decl fn.type → ∀ receiver args,
        IsReceiver decl.isStatic (vm.name clazz) receiver →
        List.Forall₂ HasType args decl.type.args →
        List.Forall₂ CppType.Takes fn.type.args (passed decl.kind receiver args)) ∧
      (fn.type.ret.type = .void ↔ decl.type.ret = none) ∧
      ((jniTypeTraitOf fn.type.ret.type).typeFinality = .kFinal → ∀ v, fn.type.ret.type.Admits v →
        ∃ t, decl.type.ret = some t ∧ HasType v t) := by
  have hc : c.cfg.Checks := .inr hd
  have hsafe : s'.bound.Safe vm c.cfg := by
    refine Transition.run_invariant vm.register (P := fun s => s.bound.Safe vm c.cfg)
      (A := fun r => r.Made vm c scope) (fun s r s' hs hr h => hr.safe h14 hd hs h) ?_ has hr
    rw [hs]
    rintro _ _ _ _ ⟨⟩
  obtain ⟨decl, hdecl, hm⟩ := hsafe _ _ _ _ hb
  obtain rfl := vm.signature_of_declared hdecl
  have hroom := Nat.le_succ decl.type.signature.length
  refine ⟨decl, hdecl, (related_of_match hc hroom hm).1, ?_, returned_hasType hc hroom hm⟩
  intro hu receiver args hreceiver hargs
  exact passed_admitted hc hroom hm hu hreceiver hargs

/-! ### An example -/

/-- Classes alone, and arrays of no class. -/
@[reducible] def flatHierarchy : ClassHierarchy ClassName where
  toPreorder :=
    { le := fun c d => c = d
      le_refl := fun _ => rfl
      le_trans := fun _ _ _ => Eq.trans }
  arraySupers := ∅
  isUpperSet_arraySupers := fun _ _ _ h => h.elim

/-- `@FastNative static native int f(int[])` -/
def intOfIntArrayDeclaration : NativeDeclaration :=
  ⟨true, .kFastNative, [.array (.primitive .int)], some (.primitive .int)⟩

/-- Class 7 declares it. -/
def oneMethodClasses : NativeClasses where
  name _ := ⟨['E'], by decide, List.all_eq_true.mp (by decide)⟩
  declared clazz name sig :=
    if clazz = 7 ∧ name = "f" ∧ intOfIntArrayDeclaration.type.signature = sig then
      some intOfIntArrayDeclaration else none
  signature_of_declared h := by
    split_ifs at h with hk
    obtain rfl := Option.some.inj h
    exact hk.2.2
  noSuchMethodError := 9

def oneMethodTable : Registration :=
  ⟨"E", .value 7, [⟨"f", "([I)I".toList, ⟨5, intOfIntArray⟩⟩], 1⟩

/-- `FAST_NATIVE_METHOD_AUTOSIG(E, f)` is registered, and the function is given an environment, the
class and an array. -/
theorem registered_calls_safe_fast :
    List.Forall₂ (@CppType.Takes flatHierarchy) intOfIntArray.args
      (passed .kFastNative (.object (.clazz javaLangClass) 1)
        [.object (.array (.primitive .int)) 2]) := by
  let h := flatHierarchy
  have hmade : ∀ r ∈ [oneMethodTable], r.Made oneMethodClasses ⟨.fatal, true⟩
      fun f => if f = "E_f" then some ⟨5, intOfIntArray⟩ else none := by
    rintro r hr clazz - m hm
    obtain rfl := List.mem_singleton.mp hr
    obtain rfl := List.mem_singleton.mp hm
    refine ⟨.methodAutosig .fastNative "E" "f", rfl, fun decl hdecl => ?_⟩
    change (if _ then some intOfIntArrayDeclaration else none) = some decl at hdecl
    split_ifs at hdecl
    obtain rfl := Option.some.inj hdecl
    rfl
  obtain ⟨decl, hdecl, _, hcall, _⟩ := @registered_calls_safe flatHierarchy oneMethodClasses _ _
    rfl rfl ⟨quietEnv, fun _ _ _ => none⟩ _ rfl _ hmade rfl 7 "f" "([I)I".toList
    ⟨5, intOfIntArray⟩ rfl
  obtain rfl := Option.some.inj hdecl
  refine hcall ⟨?_, fun _ => rfl⟩ _ _ ⟨by rintro ⟨⟩, trivial, .refl _⟩
    (.cons ⟨trivial, .refl _⟩ .nil)
  rintro p hp ht
  obtain rfl := List.mem_singleton.mp hp
  cases ht

end NativeHelper
