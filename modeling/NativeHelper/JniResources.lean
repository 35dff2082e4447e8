import NativeHelper.JniEnv

/-! # References and characters across a helper

A helper gives back what it obtained: references at the end of the scope of a `ScopedLocalRef`,
characters by an explicit call.  `Tidy e e'` says that this was done between two states, that all
that was used on the way was live, and that the ledger is nested.

`Keeps refs p` says that the program `p` is tidy in every state in which `refs` are live.  There is
one rule for each way to compose programs; the rule for a scope adds its reference to those that are
live in the body, and characters are owed from `GetStringUTFChars` on (`Closes`) until they are
released. -/

namespace NativeHelper

open Ledger (Nested)

/-! ### Two states -/

/-- What a thread has to give back. -/
def JniEnv.held (e : JniEnv) : List JniHandle :=
  e.locals.map .localRef ++ e.utfChars.map .utfChars

theorem JniEnv.localRef_mem_held {e : JniEnv} {r : Ref} : .localRef r ∈ e.held ↔ r ∈ e.locals := by
  simp [held]

theorem JniEnv.utfChars_mem_held {e : JniEnv} {utf : UtfChars} :
    .utfChars utf ∈ e.held ↔ utf ∈ e.utfChars := by
  simp [held]

/-- Everything that was used between two states was live. -/
structure UsesLive (e e' : JniEnv) : Prop where
  calls : ∃ calls, e'.calls = e.calls ++ calls ∧
    ∀ c ∈ calls, c.refsLive = true ∧ c.charsLive = true
  charReads : ∃ reads, e'.charReads = e.charReads ++ reads ∧ ∀ live ∈ reads, live = true

/-- The state is left with what was held before. -/
structure Tidy (e e' : JniEnv) : Prop extends UsesLive e e' where
  held : e'.held.Perm e.held
  ledger : ∃ l, e'.ledger = e.ledger ++ l ∧ Nested l

/-- The state is left with one handle more. -/
structure Opened (h : JniHandle) (e e' : JniEnv) : Prop extends UsesLive e e' where
  held : e'.held.Perm (h :: e.held)
  ledger : ∃ l, e'.ledger = e.ledger ++ l ++ [.acquire h] ∧ Nested l

/-- The state is left with one handle less. -/
structure Closed (h : JniHandle) (e e' : JniEnv) : Prop extends UsesLive e e' where
  held : (h :: e'.held).Perm e.held
  ledger : ∃ l l', e'.ledger = e.ledger ++ l ++ .release h :: l' ∧ Nested l ∧ Nested l'

section states
variable {e e₁ e₂ : JniEnv} {h : JniHandle}

theorem UsesLive.of_eq (hc : e₁.calls = e.calls) (hr : e₁.charReads = e.charReads) :
    UsesLive e e₁ :=
  ⟨⟨[], by rw [hc, List.append_nil], by simp⟩, ⟨[], by rw [hr, List.append_nil], by simp⟩⟩

theorem UsesLive.trans (h₁ : UsesLive e e₁) (h₂ : UsesLive e₁ e₂) : UsesLive e e₂ := by
  obtain ⟨⟨c₁, hc₁, l₁⟩, ⟨r₁, hr₁, m₁⟩⟩ := h₁
  obtain ⟨⟨c₂, hc₂, l₂⟩, ⟨r₂, hr₂, m₂⟩⟩ := h₂
  refine ⟨⟨c₁ ++ c₂, by rw [hc₂, hc₁, List.append_assoc], ?_⟩,
    ⟨r₁ ++ r₂, by rw [hr₂, hr₁, List.append_assoc], ?_⟩⟩
  · intro c hc
    exact (List.mem_append.mp hc).elim (l₁ c) (l₂ c)
  · intro live hl
    exact (List.mem_append.mp hl).elim (m₁ live) (m₂ live)

theorem Tidy.refl (e : JniEnv) : Tidy e e :=
  ⟨.of_eq rfl rfl, .refl _, [], (List.append_nil _).symm, .nil⟩

theorem Tidy.trans (h₁ : Tidy e e₁) (h₂ : Tidy e₁ e₂) : Tidy e e₂ := by
  obtain ⟨u₁, p₁, l₁, hl₁, n₁⟩ := h₁
  obtain ⟨u₂, p₂, l₂, hl₂, n₂⟩ := h₂
  exact ⟨u₁.trans u₂, p₂.trans p₁, l₁ ++ l₂, by rw [hl₂, hl₁, List.append_assoc], n₁.append n₂⟩

theorem Tidy.opened (h₁ : Tidy e e₁) (h₂ : Opened h e₁ e₂) : Opened h e e₂ := by
  obtain ⟨u₁, p₁, l₁, hl₁, n₁⟩ := h₁
  obtain ⟨u₂, p₂, l₂, hl₂, n₂⟩ := h₂
  refine ⟨u₁.trans u₂, p₂.trans (p₁.cons h), l₁ ++ l₂, ?_, n₁.append n₂⟩
  rw [hl₂, hl₁, List.append_assoc e.ledger]

theorem Tidy.closed (h₁ : Tidy e e₁) (h₂ : Closed h e₁ e₂) : Closed h e e₂ := by
  obtain ⟨u₁, p₁, l₁, hl₁, n₁⟩ := h₁
  obtain ⟨u₂, p₂, l₂, l₃, hl₂, n₂, n₃⟩ := h₂
  refine ⟨u₁.trans u₂, p₂.trans p₁, l₁ ++ l₂, l₃, ?_, n₁.append n₂, n₃⟩
  rw [hl₂, hl₁, List.append_assoc e.ledger]

theorem Closed.tidy (h₁ : Closed h e e₁) (h₂ : Tidy e₁ e₂) : Closed h e e₂ := by
  obtain ⟨u₁, p₁, l₁, l₂, hl₁, n₁, n₂⟩ := h₁
  obtain ⟨u₂, p₂, l₃, hl₂, n₃⟩ := h₂
  refine ⟨u₁.trans u₂, (p₂.cons h).trans p₁, l₁, l₂ ++ l₃, ?_, n₁, n₂.append n₃⟩
  rw [hl₂, hl₁, List.append_assoc, List.cons_append]

/-- What is opened and then closed is a scope. -/
theorem Opened.closed (h₁ : Opened h e e₁) (h₂ : Closed h e₁ e₂) : Tidy e e₂ := by
  obtain ⟨u₁, p₁, l₁, hl₁, n₁⟩ := h₁
  obtain ⟨u₂, p₂, l₂, l₃, hl₂, n₂, n₃⟩ := h₂
  refine ⟨u₁.trans u₂, (p₂.trans p₁).cons_inv, l₁ ++ (.acquire h :: (l₂ ++ [.release h]) ++ l₃), ?_,
    n₁.append ((n₂.scope h).append n₃)⟩
  rw [hl₂, hl₁]
  simp

end states

/-- Between two states nothing was leaked, given back twice or used after it was given back. -/
structure ResourcesKept (e e' : JniEnv) : Prop extends UsesLive e e' where
  /-- The local references that were live are live. -/
  locals : e'.locals.Perm e.locals
  utfChars : e'.utfChars.Perm e.utfChars
  /-- Everything obtained was given back exactly once: characters with the string they came from. -/
  ledger : ∃ l, e'.ledger = e.ledger ++ l ∧ Ledger.Safe l ∧ Ledger.Balanced l

/-- The reference in a handle. -/
def JniHandle.localRef? : JniHandle → Option Ref
  | .localRef r => some r
  | .utfChars _ => none

/-- The characters in a handle. -/
def JniHandle.utfChars? : JniHandle → Option UtfChars
  | .localRef _ => none
  | .utfChars utf => some utf

theorem JniEnv.held_filterMap_localRef (e : JniEnv) :
    e.held.filterMap JniHandle.localRef? = e.locals := by
  simp [held, List.filterMap_map, Function.comp_def, JniHandle.localRef?]

theorem JniEnv.held_filterMap_utfChars (e : JniEnv) :
    e.held.filterMap JniHandle.utfChars? = e.utfChars := by
  simp [held, List.filterMap_map, Function.comp_def, JniHandle.utfChars?]

theorem Tidy.kept {e e' : JniEnv} (h : Tidy e e') : ResourcesKept e e' := by
  obtain ⟨l, hl, hn⟩ := h.ledger
  refine ⟨h.toUsesLive, ?_, ?_, l, hl, hn.safe, hn.balanced⟩
  · rw [← e.held_filterMap_localRef, ← e'.held_filterMap_localRef]
    exact h.held.filterMap _
  · rw [← e.held_filterMap_utfChars, ← e'.held_filterMap_utfChars]
    exact h.held.filterMap _

/-! ### What the operations do -/

/-- These references are live. -/
def Live (refs : List Ref) (e : JniEnv) : Prop := ∀ r ∈ refs, r ∈ e.locals

section operations
variable {refs : List Ref} {e e' : JniEnv} {r : Ref}

theorem Live.tidy (hl : Live refs e) (h : Tidy e e') : Live refs e' := by
  intro r hr
  rw [← JniEnv.localRef_mem_held, h.held.mem_iff, JniEnv.localRef_mem_held]
  exact hl r hr

theorem Live.opened (hl : Live refs e) (h : Opened (.localRef r) e e') : Live (r :: refs) e' := by
  intro r' hr'
  rw [← JniEnv.localRef_mem_held, h.held.mem_iff]
  rcases List.mem_cons.mp hr' with rfl | hr'
  · exact List.mem_cons_self
  · exact List.mem_cons_of_mem _ (JniEnv.localRef_mem_held.mpr (hl r' hr'))

theorem Live.opened_utfChars {utf : UtfChars} (hl : Live refs e)
    (h : Opened (.utfChars utf) e e') : Live refs e' := by
  intro r' hr'
  rw [← JniEnv.localRef_mem_held, h.held.mem_iff]
  exact List.mem_cons_of_mem _ (JniEnv.localRef_mem_held.mpr (hl r' hr'))

/-- A call with live arguments. -/
theorem tidy_jniCall (function : JniFunction) {args : List Ref} {chars : List UtfChars}
    (hargs : Live args e) (hchars : ∀ utf ∈ chars, utf ∈ e.utfChars) :
    Tidy e (jniCall function args chars e).2 := by
  refine ⟨⟨⟨_, rfl, ?_⟩, ⟨[], (List.append_nil _).symm, by simp⟩⟩, .refl _, [],
    (List.append_nil _).symm, .nil⟩
  intro c hc
  obtain rfl := List.mem_singleton.mp hc
  simpa using ⟨hargs, hchars⟩

theorem tidy_setPending (exception : Option JavaObject) : Tidy e (setPending exception e).2 :=
  ⟨.of_eq rfl rfl, .refl _, [], (List.append_nil _).symm, .nil⟩

theorem tidy_raise (thrown : Option JavaObject) : Tidy e (raise thrown e).2 := by
  cases thrown with
  | none => exact .refl e
  | some exception => exact tidy_setPending _

theorem tidy_readUtfChars {utf : UtfChars} (h : utf ∈ e.utfChars) :
    Tidy e (readUtfChars utf e).2 := by
  refine ⟨⟨⟨[], (List.append_nil _).symm, by simp⟩, ⟨_, rfl, ?_⟩⟩, .refl _, [],
    (List.append_nil _).symm, .nil⟩
  simpa using h

theorem opened_newLocalRef (object : JavaObject) :
    Opened (.localRef (newLocalRef object e).1) e (newLocalRef object e).2 := by
  refine ⟨.of_eq rfl rfl, ?_, [], by simp [newLocalRef], .nil⟩
  simp [newLocalRef, JniEnv.held, List.perm_middle]

theorem closed_dropLocalRef (h : r ∈ e.locals) :
    Closed (.localRef r) e (dropLocalRef r e).2 := by
  refine ⟨.of_eq rfl rfl, ?_, [], [], by simp [dropLocalRef], .nil, .nil⟩
  exact ((List.perm_cons_erase h).symm.map JniHandle.localRef).append_right _

theorem opened_newUtfChars (string : Ref) (chars : String) :
    Opened (.utfChars (newUtfChars string chars e).1) e (newUtfChars string chars e).2 := by
  refine ⟨.of_eq rfl rfl, ?_, [], by simp [newUtfChars], .nil⟩
  simp only [newUtfChars, JniEnv.held, List.map_append, List.map_cons, List.map_nil,
    ← List.append_assoc]
  exact List.perm_append_singleton _ _

theorem closed_dropUtfChars {utf : UtfChars} (h : utf ∈ e.utfChars) :
    Closed (.utfChars utf) e (dropUtfChars utf e).2 := by
  refine ⟨.of_eq rfl rfl, ?_, [], [], by simp [dropUtfChars], .nil, .nil⟩
  have hp := ((List.perm_cons_erase h).symm.map JniHandle.utfChars).append_left
    (e.locals.map .localRef)
  exact List.perm_middle.symm.trans hp

end operations

/-! ### Programs -/

section programs
variable {α β : Type}

/-- The program is tidy where `refs` are live. -/
def Keeps (refs : List Ref) (p : JniM α) : Prop := ∀ e, Live refs e → Tidy e (p e).2

/-- What the program returns, unless it is null, is a new reference. -/
def Opens (refs : List Ref) (p : JniM (Option Ref)) : Prop :=
  ∀ e, Live refs e →
    ((p e).1 = none → Tidy e (p e).2) ∧ ∀ r, (p e).1 = some r → Opened (.localRef r) e (p e).2

/-- The program gives back the characters `utf`. -/
def Closes (refs : List Ref) (utf : UtfChars) (p : JniM α) : Prop :=
  ∀ e, Live refs e → utf ∈ e.utfChars → Closed (.utfChars utf) e (p e).2

variable {refs : List Ref} {p : JniM α} {f : α → JniM β}

theorem keeps_pure (a : α) : Keeps refs (pure a : JniM α) := fun e _ => .refl e

theorem Keeps.bind (hp : Keeps refs p) (hf : ∀ a, Keeps refs (f a)) : Keeps refs (p >>= f) := by
  intro e hl
  have h := hp e hl
  exact h.trans (hf _ _ (hl.tidy h))

theorem keeps_call {function : JniFunction} {args : List Ref} (h : args ⊆ refs) :
    Keeps refs (jniCall function args []) := by
  intro e hl
  apply tidy_jniCall function (fun r hr => hl r (h hr))
  simp

theorem keeps_setPending (exception : Option JavaObject) : Keeps refs (setPending exception) :=
  fun _ _ => tidy_setPending exception

theorem keeps_raise (thrown : Option JavaObject) : Keeps refs (raise thrown) :=
  fun _ _ => tidy_raise thrown

/-- At the end of a scope its reference is deleted, which is live whatever the body did. -/
theorem Opened.scope {e e' : JniEnv} {r : Ref} (ho : Opened (.localRef r) e e') (hl : Live refs e)
    (hp : Keeps (r :: refs) p) : Tidy e (scopedLocalRef (some r) p e').2 := by
  have hl' := hl.opened ho
  have hb := hp e' hl'
  have hr := (hl'.tidy hb) r List.mem_cons_self
  have hc : Tidy (p e').2 (jniCall .deleteLocalRef [r] [] (p e').2).2 :=
    keeps_call (List.Subset.refl [r]) _ (by simpa [Live] using hr)
  exact ho.closed ((hb.trans hc).closed (closed_dropLocalRef hr))

/-- The rule for a `ScopedLocalRef`: in its scope the reference is live as well. -/
theorem Opens.scope {p : JniM (Option Ref)} {body : Option Ref → JniM α} (hp : Opens refs p)
    (hnone : Keeps refs (body none)) (hsome : ∀ r, Keeps (r :: refs) (body (some r))) :
    Keeps refs (p >>= fun r => scopedLocalRef r (body r)) := by
  intro e hl
  obtain ⟨h0, h1⟩ := hp e hl
  rw [JniM.bind_apply]
  cases hr : (p e).1 with
  | none =>
      have ht := h0 hr
      exact ht.trans (hnone _ (hl.tidy ht))
  | some r => exact (h1 r hr).scope hl (hsome r)

/-- The rule for characters. -/
theorem keeps_getStringUTFChars {answer : Answer String} {string : Ref}
    {f : Option UtfChars → JniM α} (hs : string ∈ refs) (hnone : Keeps refs (f none))
    (hsome : ∀ utf, utf.string = string → Closes refs utf (f (some utf))) :
    Keeps refs (getStringUTFChars answer string >>= f) := by
  intro e hl
  have hc : Tidy e (jniCall .getStringUTFChars [string] [] e).2 :=
    keeps_call (by simpa using hs) e hl
  rw [JniM.bind_apply]
  cases answer with
  | value chars =>
      have ho := hc.opened (opened_newUtfChars string chars)
      apply ho.closed
      apply hsome _ rfl _ (hl.opened_utfChars ho)
      rw [← JniEnv.utfChars_mem_held, ho.held.mem_iff]
      exact List.mem_cons_self
  | null thrown =>
      have ht := hc.trans (tidy_raise thrown)
      exact ht.trans (hnone _ (hl.tidy ht))

theorem closes_readUtfChars {utf : UtfChars} {f : String → JniM α}
    (h : ∀ text, Closes refs utf (f text)) : Closes refs utf (readUtfChars utf >>= f) := by
  intro e hl hu
  have ht : Tidy e (readUtfChars utf e).2 := tidy_readUtfChars hu
  exact ht.closed (h _ _ (hl.tidy ht) hu)

/-- Characters are released with the string they came from. -/
theorem closes_releaseStringUTFChars {utf : UtfChars} {string : Ref} {f : Unit → JniM α}
    (hs : utf.string = string) (hmem : string ∈ refs) (h : Keeps refs (f ())) :
    Closes refs utf (releaseStringUTFChars string utf >>= f) := by
  subst hs
  intro e hl hu
  have hc : Tidy e (jniCall .releaseStringUTFChars [utf.string] [utf] e).2 := by
    apply tidy_jniCall
    · intro r hr
      rw [List.mem_singleton.mp hr]
      exact hl _ hmem
    · intro u hu'
      rw [List.mem_singleton.mp hu']
      exact hu
  have hd := hc.closed (closed_dropUtfChars hu)
  exact hd.tidy (h _ hl)

/-! ### The functions -/

section functions
variable {args : List Ref} {r : Ref}

theorem opens_callForRef {function : JniFunction} (answer : Answer JavaObject) (h : args ⊆ refs) :
    Opens refs (callForRef function args answer) := by
  intro e hl
  have hc : Tidy e (jniCall function args [] e).2 := keeps_call h e hl
  cases answer with
  | value object =>
      refine ⟨fun h0 => (nomatch h0), fun r hr => ?_⟩
      rw [← Option.some.inj hr]
      exact hc.opened (opened_newLocalRef object)
  | null thrown => exact ⟨fun _ => hc.trans (tidy_raise thrown), fun r hr => (nomatch hr)⟩

theorem opens_findClass (answer : Answer JavaObject) (name : String) :
    Opens refs (findClass answer name) :=
  opens_callForRef answer (List.nil_subset refs)

theorem opens_newObject (answer : Answer JavaObject) (method : Option MethodId)
    (h : r :: args ⊆ refs) : Opens refs (newObject answer r method args) :=
  opens_callForRef answer h

theorem opens_callObjectMethod (answer : Answer JavaObject) (method : Option MethodId)
    (h : r ∈ refs) : Opens refs (callObjectMethod answer r method) :=
  opens_callForRef answer (by simpa using h)

theorem keeps_exceptionCheck : Keeps refs exceptionCheck :=
  (keeps_call (List.nil_subset refs)).bind fun _ e _ => .refl e

theorem keeps_exceptionClear : Keeps refs exceptionClear :=
  (keeps_call (List.nil_subset refs)).bind fun _ => keeps_setPending none

theorem opens_exceptionOccurred : Opens refs exceptionOccurred := by
  intro e hl
  have hc : Tidy e (jniCall .exceptionOccurred [] [] e).2 := keeps_call (List.nil_subset refs) e hl
  obtain ⟨_ | object⟩ := e
  · exact ⟨fun _ => hc, fun r hr => (nomatch hr)⟩
  · refine ⟨fun h0 => (nomatch h0), fun r hr => ?_⟩
    rw [← Option.some.inj hr]
    exact hc.opened (opened_newLocalRef object)

theorem keeps_throwRef (h : r ∈ refs) : Keeps refs (throwRef r) :=
  (keeps_call (by simpa using h)).bind fun _ => keeps_setPending _

theorem keeps_throwNew (answer : Answer JavaObject) (message : Option String) (h : r ∈ refs) :
    Keeps refs (throwNew answer r message) := by
  apply (keeps_call (by simpa using h)).bind
  intro _
  cases answer with
  | value object => exact fun _ _ => ⟨.of_eq rfl rfl, .refl _, [], (List.append_nil _).symm, .nil⟩
  | null thrown => exact (keeps_raise thrown).bind fun _ => keeps_pure _

theorem keeps_getMethodID (answer : Answer Unit) (name sig : String) (h : r ∈ refs) :
    Keeps refs (getMethodID answer r name sig) := by
  apply (keeps_call (by simpa using h)).bind
  intro _
  cases answer with
  | value _ => exact keeps_pure _
  | null thrown => exact (keeps_raise thrown).bind fun _ => keeps_pure _

theorem keeps_callVoidMethod (thrown : Option JavaObject) (method : Option MethodId)
    (h : r :: args ⊆ refs) : Keeps refs (callVoidMethod thrown r method args) :=
  (keeps_call h).bind fun _ => keeps_raise thrown

theorem keeps_androidLogWrite (priority : ℤ) (tag text : String) :
    Keeps refs (androidLogWrite priority tag text) :=
  fun _ _ => ⟨.of_eq rfl rfl, .refl _, [], (List.append_nil _).symm, .nil⟩

/-- `GetObjectClass` is never null, so its scope always has a reference. -/
theorem keeps_getObjectClass {clazz : JavaObject} {body : Ref → JniM α} (h : r ∈ refs)
    (hb : ∀ r', Keeps (r' :: refs) (body r')) :
    Keeps refs (getObjectClass clazz r >>= fun r' => scopedLocalRef (some r') (body r')) := by
  intro e hl
  have hc : Tidy e (jniCall .getObjectClass [r] [] e).2 := keeps_call (by simpa using h) e hl
  exact (hc.opened (opened_newLocalRef clazz)).scope hl (hb _)

end functions

end programs

end NativeHelper
