import NativeHelper.ModifiedUtf8
import NativeHelper.ScopedUtfChars

/-! # Scoped UTF characters as values

`GetStringUTFChars` hands out the bytes of a string in modified UTF-8 with a zero byte behind them,
and `ReleaseStringUTFChars` makes them unreadable (`memory`).  `c_str()`, `size()` and `operator[]`
read this memory through the pointer of the object; a null pointer reads nothing.

A program need not know about pointers: it works on strings that are taken from one object to
another (`valueStep`).  As no two objects have one pointer, what an object reads is the string it
has in this sense (`scopedUtfChars_values`), and two of them read alike if and only if their
strings are equal. -/

namespace NativeHelper
namespace ScopedUtfChars

open Transition Objects ModifiedUtf8

variable {O E S P : Type}

/-! ### The memory of the characters -/

/-- A C string: the encoded text and a zero byte. -/
def characters (text : List (BitVec 16)) : List Byte := text.flatMap encode ++ [0]

/-- `strlen`: the number of bytes in front of the first zero byte, if there is one. -/
def strlen (bytes : List Byte) : Option ℕ := bytes.findIdx? (· == 0)

theorem strlen_characters (text : List (BitVec 16)) :
    strlen (characters text) = some (text.flatMap encode).length := by
  have hnone : (text.flatMap encode).findIdx? (· == 0) = none := by
    rw [List.findIdx?_eq_none_iff]
    rintro b hb
    rw [beq_eq_false_iff_ne]
    rintro rfl
    exact WellFormed.zero_notMem ⟨text, rfl⟩ hb
  unfold strlen characters
  rw [List.findIdx?_append, hnone]
  simp

/-- Texts are equal if their characters are. -/
theorem characters_injective : Function.Injective characters := by
  intro text text' h
  exact flatMap_encode_injective (List.append_cancel_right h)

section memory
variable [DecidableEq P] (strings : S → List (BitVec 16))

/-- What a call does to the memory that can be read. -/
def memoryAfter (memory : P → Option (List Byte)) : CharsEvent E S P → P → Option (List Byte)
  | .getStringUTFChars _ string (some p) =>
      Function.update memory p (some (characters (strings string)))
  | .releaseStringUTFChars _ _ (some p) => Function.update memory p none
  | .throwNullPointerException _ | .getStringUTFChars _ _ none | .releaseStringUTFChars _ _ none =>
      memory

/-- The memory after some calls; at first nothing can be read. -/
def memory (trace : List (CharsEvent E S P)) : P → Option (List Byte) :=
  trace.foldl (memoryAfter strings) fun _ => none

theorem memory_record (st : State O E S P) (e : CharsEvent E S P) :
    memory strings (st.record (some e)).trace = memoryAfter strings (memory strings st.trace) e := by
  unfold memory Store.record
  rw [Option.toList_some, List.foldl_append]
  rfl

/-- The destructor makes the characters of the object unreadable. -/
theorem memory_releaseCall (st : State O E S P) (obj : ScopedUtfChars E S P) {q : P}
    (hq : obj.utf_chars_ ≠ some q) :
    memory strings (st.record (releaseCall obj)).trace q = memory strings st.trace q := by
  obtain ⟨env, string, _ | p⟩ := obj
  · rw [releaseCall, if_neg (by simp), Store.record_none]
  · have hcall : releaseCall (⟨env, string, some p⟩ : ScopedUtfChars E S P) =
        some (.releaseStringUTFChars env string (some p)) := rfl
    rw [hcall, memory_record]
    exact Function.update_of_ne (fun h => hq (congrArg some h.symm)) _ _

end memory

/-! ### What an object reads -/

/-- `c_str()` -/
def cStr (obj : ScopedUtfChars E S P) : Option P := obj.utf_chars_

/-- `size()`: `strlen(utf_chars_)`, where that can be read. -/
def size (obj : ScopedUtfChars E S P) (memory : P → Option (List Byte)) : Option ℕ :=
  (obj.utf_chars_.bind memory).bind strlen

/-- `operator[]`: `utf_chars_[n]`, where there is such a byte. -/
def index (obj : ScopedUtfChars E S P) (memory : P → Option (List Byte)) (n : ℕ) : Option Byte :=
  (obj.utf_chars_.bind memory).bind fun bytes => bytes[n]?

/-- The object reads like the string, or has nothing to read. -/
def ReadsLike (strings : S → List (BitVec 16)) (memory : P → Option (List Byte))
    (obj : ScopedUtfChars E S P) : Option S → Prop
  | none => obj.cStr = none ∧ obj.size memory = none ∧ ∀ n, obj.index memory n = none
  | some string => obj.cStr ≠ none ∧
      obj.size memory = some ((strings string).flatMap encode).length ∧
      ∀ n, obj.index memory n = (characters (strings string))[n]?

/-! ### Programs over strings -/

section values
variable [DecidableEq O]

/-- The string of each object that is alive, if it has one. -/
abbrev Values (O S : Type) := O → Option (Option S)

/-- What an action does with the strings.  A string is obtained by a constructor, goes from one
object to another, and is given up by the object. -/
def valueStep (values : Values O S) : Action O E S P → Option (Values O S)
  | .construct this _ s chars =>
      if (values this).isNone then
        some (Function.update values this (some (chars.bind fun _ => s)))
      else none
  | .moveConstruct this rhs =>
      if (values this).isNone then
        (values rhs).map fun v =>
          Function.update (Function.update values this (some v)) rhs (some none)
      else none
  | .moveAssign this rhs =>
      if (values this).isSome ∧ (values rhs).isSome then
        if this = rhs then some values
        else some (Function.update (Function.update values this (values rhs)) rhs (some none))
      else none
  | .destroy this => (values this).map fun _ => Function.update values this none

end values

/-- The string of an object. -/
def ownString (obj : ScopedUtfChars E S P) : Option S := obj.utf_chars_.bind fun _ => obj.string_

/-- The strings of the objects. -/
def values (st : State O E S P) : Values O S := fun o => (st.object o).map ownString

section step
variable [DecidableEq O] {st st' : State O E S P}

theorem values_set (this : O) (obj : Option (ScopedUtfChars E S P)) :
    values (st.set this obj) = Function.update (values st) this (obj.map ownString) := by
  funext o
  unfold values
  by_cases h : o = this
  · rw [h, Store.object_set_self, Function.update_self]
  · rw [Store.object_set_ne _ _ h, Function.update_of_ne h]

/-- What a completed action has done. -/
inductive Step (st : State O E S P) : Action O E S P → State O E S P → Prop
  | constructNull {this : O} (hdead : st.object this = none) (env : E) (chars : Option P) :
      Step st (.construct this env none chars)
        ((st.record (some (.throwNullPointerException env))).set this (some ⟨some env, none, none⟩))
  | construct {this : O} (hdead : st.object this = none) (env : E) (string : S) (chars : Option P) :
      Step st (.construct this env (some string) chars)
        ((st.record (some (.getStringUTFChars env string chars))).set this
          (some ⟨some env, some string, chars⟩))
  | moveConstruct {this rhs : O} {obj : ScopedUtfChars E S P} (hdead : st.object this = none)
      (hobj : st.object rhs = some obj) :
      Step st (.moveConstruct this rhs)
        ((st.set this (some obj)).set rhs (some ⟨none, none, none⟩))
  | moveSelf {this : O} {obj : ScopedUtfChars E S P} (hobj : st.object this = some obj) :
      Step st (.moveAssign this this) st
  | moveAssign {this rhs : O} {obj source : ScopedUtfChars E S P} (hne : this ≠ rhs)
      (hobj : st.object this = some obj) (hsource : st.object rhs = some source) :
      Step st (.moveAssign this rhs)
        (((st.record (releaseCall obj)).set this (some source)).set rhs (some ⟨none, none, none⟩))
  | destroy {this : O} {obj : ScopedUtfChars E S P} (hobj : st.object this = some obj) :
      Step st (.destroy this) ((st.record (releaseCall obj)).set this none)

theorem step_cases {a : Action O E S P} (hst : step st a = some st') : Step st a st' := by
  cases a with
  | construct this env s chars =>
      rw [step] at hst
      by_cases hdead : st.object this = none
      · rw [hdead, Option.isNone_none, if_pos rfl, Option.some.injEq] at hst
        subst hst
        cases s with
        | none => exact .constructNull hdead env chars
        | some string => exact .construct hdead env string chars
      · rw [if_neg (by rwa [Option.isNone_iff_eq_none])] at hst
        cases hst
  | moveConstruct this rhs =>
      rw [step] at hst
      by_cases hdead : st.object this = none
      · rw [hdead, Option.isNone_none, if_pos rfl] at hst
        cases hobj : st.object rhs with
        | none =>
            rw [moveConstruct, hobj] at hst
            cases hst
        | some obj =>
            rw [moveConstruct_eq hobj, Option.some.injEq] at hst
            exact hst ▸ .moveConstruct hdead hobj
      · rw [if_neg (by rwa [Option.isNone_iff_eq_none])] at hst
        cases hst
  | moveAssign this rhs =>
      rw [step] at hst
      by_cases hlive : (st.object this).isSome ∧ (st.object rhs).isSome
      · obtain ⟨obj, hobj⟩ := Option.isSome_iff_exists.mp hlive.1
        obtain ⟨source, hsource⟩ := Option.isSome_iff_exists.mp hlive.2
        rw [if_pos hlive] at hst
        by_cases hne : this = rhs
        · subst hne
          rw [moveAssign, if_neg (not_not.mpr rfl), Option.some.injEq] at hst
          exact hst ▸ .moveSelf hobj
        · rw [moveAssign_ne hne hobj hsource, Option.some.injEq] at hst
          exact hst ▸ .moveAssign hne hobj hsource
      · rw [if_neg hlive] at hst
        cases hst
  | destroy this =>
      rw [step] at hst
      cases hobj : st.object this with
      | none =>
          rw [destroy, destructor, hobj] at hst
          cases hst
      | some obj =>
          rw [destroy_eq hobj, Option.some.injEq] at hst
          exact hst ▸ .destroy hobj

/-- **The strings follow the objects**: an action does to the strings of the objects what it does
without pointers. -/
theorem valueStep_values {a : Action O E S P} (hst : step st a = some st') :
    valueStep (values st) a = some (values st') := by
  cases step_cases hst with
  | @constructNull this hdead env chars =>
      rw [valueStep, if_pos (by simp [values, hdead]), values_set]
      cases chars <;> rfl
  | @construct this hdead env string chars =>
      rw [valueStep, if_pos (by simp [values, hdead]), values_set]
      cases chars <;> rfl
  | @moveConstruct this rhs obj hdead hobj =>
      have hv : values st rhs = some obj.ownString := by simp [values, hobj]
      rw [valueStep, if_pos (by simp [values, hdead]), hv, values_set, values_set]
      rfl
  | @moveSelf this obj hobj =>
      rw [valueStep, if_pos (by simp [values, hobj]), if_pos rfl]
  | @moveAssign this rhs obj source hne hobj hsource =>
      have hv : values st rhs = some source.ownString := by simp [values, hsource]
      rw [valueStep, if_pos (by simp [values, hobj, hsource]), if_neg hne, hv, values_set,
        values_set]
      rfl
  | @destroy this obj hobj =>
      have hv : values st this = some obj.ownString := by simp [values, hobj]
      rw [valueStep, hv, values_set]
      rfl

/-- An action that no object can carry out cannot be carried out on the strings. -/
theorem valueStep_eq_none {a : Action O E S P} (hst : step st a = none) :
    valueStep (values st) a = none := by
  cases a with
  | construct this env s chars =>
      rw [step] at hst
      cases h : st.object this with
      | none => simp [h] at hst
      | some obj => simp [valueStep, values, h]
  | moveConstruct this rhs =>
      rw [step] at hst
      cases h : st.object this with
      | none =>
          cases hobj : st.object rhs with
          | none => simp [valueStep, values, h, hobj]
          | some obj => simp [h, moveConstruct_eq hobj] at hst
      | some obj => simp [valueStep, values, h]
  | moveAssign this rhs =>
      rw [step] at hst
      by_cases hlive : (st.object this).isSome ∧ (st.object rhs).isSome
      · obtain ⟨obj, hobj⟩ := Option.isSome_iff_exists.mp hlive.1
        obtain ⟨source, hsource⟩ := Option.isSome_iff_exists.mp hlive.2
        rw [if_pos hlive] at hst
        by_cases hne : this = rhs
        · rw [moveAssign, if_neg (not_not.mpr hne)] at hst
          cases hst
        · rw [moveAssign_ne hne hobj hsource] at hst
          cases hst
      · rw [valueStep, if_neg]
        simpa [values] using hlive
  | destroy this =>
      rw [step] at hst
      cases h : st.object this with
      | none => simp [valueStep, values, h]
      | some obj =>
          rw [destroy_eq h] at hst
          cases hst

end step

/-! ### The characters are there as long as an object has them -/

section reads
variable [DecidableEq O] [DecidableEq E] [DecidableEq S] [DecidableEq P]
  {strings : S → List (BitVec 16)} {st st' : State O E S P}

/-- The characters of an object can be read, and are those of its string. -/
def Backed (memory : P → Option (List Byte)) (strings : S → List (BitVec 16))
    (obj : ScopedUtfChars E S P) : Prop :=
  ∀ p, obj.utf_chars_ = some p →
    ∃ string, obj.string_ = some string ∧ memory p = some (characters (strings string))

/-- Every object has characters that are there. -/
def AllBacked (strings : S → List (BitVec 16)) (st : State O E S P) : Prop :=
  ∀ o obj, st.object o = some obj → Backed (memory strings st.trace) strings obj

omit [DecidableEq O] [DecidableEq E] [DecidableEq S] [DecidableEq P] in
theorem backed_null (memory : P → Option (List Byte)) (env : Option E) (string : Option S) :
    Backed memory strings ⟨env, string, none⟩ := by
  rintro p ⟨⟩

omit [DecidableEq O] [DecidableEq E] [DecidableEq S] [DecidableEq P] in
/-- The string of an object with characters that are there is what it reads. -/
theorem Backed.readsLike {memory : P → Option (List Byte)} {obj : ScopedUtfChars E S P}
    (h : Backed memory strings obj) : ReadsLike strings memory obj obj.ownString := by
  cases hc : obj.utf_chars_ with
  | none =>
      have hs : obj.ownString = none := by rw [ownString, hc, Option.bind_none]
      rw [hs]
      refine ⟨hc, ?_, fun n => ?_⟩
      · rw [size, hc]
        rfl
      · rw [index, hc]
        rfl
  | some p =>
      obtain ⟨string, hstring, hmem⟩ := h p hc
      have hs : obj.ownString = some string := by rw [ownString, hc, Option.bind_some, hstring]
      rw [hs]
      refine ⟨?_, ?_, fun n => ?_⟩
      · rw [cStr, hc]
        exact Option.some_ne_none p
      · rw [size, hc, Option.bind_some, hmem, Option.bind_some, strlen_characters]
      · rw [index, hc, Option.bind_some, hmem, Option.bind_some]

omit [DecidableEq E] [DecidableEq S] in
theorem AllBacked.set (st : State O E S P) (this : O) {obj' : Option (ScopedUtfChars E S P)}
    (h : ∀ o obj, o ≠ this → st.object o = some obj → Backed (memory strings st.trace) strings obj)
    (hobj : ∀ obj, obj' = some obj → Backed (memory strings st.trace) strings obj) :
    AllBacked strings (st.set this obj') := by
  intro o obj ho
  by_cases e : o = this
  · rw [e, Store.object_set_self] at ho
    exact hobj obj ho
  · rw [Store.object_set_ne _ _ e] at ho
    exact h o obj e ho

omit [DecidableEq O] in
/-- When an object releases its characters, the others keep theirs. -/
theorem backed_of_ne (hown : Owned st) (h : AllBacked strings st) {this o : O}
    {obj obj' : ScopedUtfChars E S P} (hobj : st.object this = some obj)
    (ho : st.object o = some obj') (hne : o ≠ this) :
    Backed (memory strings (st.record (releaseCall obj)).trace) strings obj' := by
  intro p hp
  obtain ⟨string, hs, hmem⟩ := h o obj' ho p hp
  refine ⟨string, hs, ?_⟩
  rw [memory_releaseCall strings st obj, hmem]
  intro hq
  exact hne (hown.exactlyOnce.sole o this obj' obj p ho hobj hp hq)

theorem AllBacked.step (hown : Owned st) (h : AllBacked strings st) {a : Action O E S P}
    (hfresh : Fresh st a) (hst : step st a = some st') : AllBacked strings st' := by
  cases step_cases hst with
  | @constructNull this hdead env chars =>
      have hmem : memory strings (st.record (some (.throwNullPointerException env))).trace =
          memory strings st.trace := memory_record strings st _
      refine AllBacked.set _ this (fun o obj _ ho => ?_) ?_
      · rw [hmem]
        exact h o obj ho
      · rintro _ ⟨⟩
        exact backed_null _ _ _
  | @construct this hdead env string chars =>
      refine AllBacked.set _ this (fun o obj _ ho p hp => ?_) ?_
      · obtain ⟨string', hs, hmem⟩ := h o obj ho p hp
        refine ⟨string', hs, ?_⟩
        rw [memory_record, ← hmem]
        cases chars with
        | none => rfl
        | some q =>
            -- the new characters are nobody else's
            exact Function.update_of_ne
              (fun e => hfresh o obj p ho hp (congrArg some e.symm)) _ _
      · rintro _ ⟨⟩ p ⟨⟩
        refine ⟨string, rfl, ?_⟩
        rw [memory_record]
        exact Function.update_self ..
  | @moveConstruct this rhs obj hdead hobj =>
      refine AllBacked.set _ rhs (fun o obj' _ ho => ?_) ?_
      · exact AllBacked.set _ this (fun o obj _ ho => h o obj ho)
          (by rintro _ ⟨⟩; exact h rhs obj hobj) o obj' ho
      · rintro _ ⟨⟩
        exact backed_null _ _ _
  | moveSelf hobj => exact h
  | @moveAssign this rhs obj source hne hobj hsource =>
      refine AllBacked.set _ rhs (fun o obj' _ ho => ?_) ?_
      · exact AllBacked.set (st.record (releaseCall obj)) this
          (fun o obj' e ho => backed_of_ne hown h hobj ho e)
          (by rintro _ ⟨⟩; exact backed_of_ne hown h hobj hsource hne.symm) o obj' ho
      · rintro _ ⟨⟩
        exact backed_null _ _ _
  | @destroy this obj hobj =>
      refine AllBacked.set (st.record (releaseCall obj)) this
        (fun o obj' e ho => backed_of_ne hown h hobj ho e) ?_
      rintro _ ⟨⟩

end reads

/-! ### Whole programs -/

section programs
variable [DecidableEq O] [DecidableEq E] [DecidableEq S] [DecidableEq P]

omit [DecidableEq E] [DecidableEq S] [DecidableEq P] in
theorem values_run {st : State O E S P} {as : List (Action O E S P)} :
    run valueStep (values st) as = (run step st as).map values := by
  induction as generalizing st with
  | nil => rfl
  | cons a as ih =>
      rw [run_cons, run_cons]
      cases hst : step st a with
      | none => rw [valueStep_eq_none hst, Option.bind_none, Option.bind_none, Option.map_none]
      | some st' => rw [valueStep_values hst, Option.bind_some, Option.bind_some, ih]

/-- **Programs over `ScopedUtfChars` are programs over strings.**  A program goes through exactly if
it does without pointers, and then each object that is alive reads like the string it has there, up
to the zero byte behind it, and reads nothing if it has none; the memory is never read after its
release.  Two objects read alike if and only if their strings are equal. -/
theorem scopedUtfChars_values (strings : S → List (BitVec 16)) (as : List (Action O E S P))
    (hfresh : EveryStep step Fresh Store.empty as) :
    run valueStep (fun _ => none) as = (run step Store.empty as).map values ∧
    ∀ st, run step Store.empty as = some st →
      (∀ o obj, st.object o = some obj → ∃ s, values st o = some s ∧
        ReadsLike strings (memory strings st.trace) obj s) ∧
      ∀ o o' obj obj' s s', st.object o = some obj → st.object o' = some obj' →
        values st o = some (some s) → values st o' = some (some s') →
        ((∀ n, obj.index (memory strings st.trace) n = obj'.index (memory strings st.trace) n) ↔
          strings s = strings s') := by
  have hrun : run valueStep (values (Store.empty : State O E S P)) as =
      (run step Store.empty as).map values := values_run
  refine ⟨hrun, fun st hr => ?_⟩
  have hinv : EveryState step (fun st => Owned st ∧ AllBacked strings st) Store.empty as :=
    hfresh.everyState
      (fun _ _ _ hs hf hst => ⟨hs.1.step hf hst, hs.2.step hs.1 hf hst⟩)
      ⟨owned_empty, by intro o obj ho; cases ho⟩
  have hback : AllBacked strings st := (hinv.last hr).2
  have hreads : ∀ o obj s, st.object o = some obj → values st o = some s →
      ReadsLike strings (memory strings st.trace) obj s := by
    intro o obj s ho hs
    rw [values, ho, Option.map_some, Option.some.injEq] at hs
    exact hs ▸ (hback o obj ho).readsLike
  refine ⟨fun o obj ho => ⟨obj.ownString, ?_, hreads o obj _ ho ?_⟩, ?_⟩
  · rw [values, ho, Option.map_some]
  · rw [values, ho, Option.map_some]
  · intro o o' obj obj' s s' ho ho' hs hs'
    obtain ⟨_, _, hn⟩ := hreads o obj _ ho hs
    obtain ⟨_, _, hn'⟩ := hreads o' obj' _ ho' hs'
    constructor
    · intro h
      apply characters_injective
      apply List.ext_getElem?
      intro n
      rw [← hn n, ← hn' n, h n]
    · intro h n
      rw [hn n, hn' n, h]

/-- A string that is moved over another one. -/
def takingProgram : List (Action ℕ ℕ ℕ ℕ) :=
  [.construct 0 1 (some 2) (some 3), .construct 1 1 (some 4) (some 5), .moveAssign 0 1]

/-- The strings of `takingProgram`; one has a zero in it, which takes two bytes. -/
def twoStrings (string : ℕ) : List (BitVec 16) := if string = 4 then [0x48, 0] else [0x69]

theorem scopedUtfChars_values_taking :
    ∃ st, run step Store.empty takingProgram = some st ∧
      values st 0 = some (some 4) ∧ values st 1 = some none ∧
      ∀ obj, st.object 0 = some obj →
        obj.size (memory twoStrings st.trace) = some 3 ∧
        (List.range 5).map (obj.index (memory twoStrings st.trace)) =
          [some 0x48, some 0xC0, some 0x80, some 0, none] := by
  have hfresh : EveryStep step Fresh Store.empty takingProgram := by
    simp [EveryStep, takingProgram, step, Fresh, construct, Store.set, Store.record, Store.empty,
      Function.update_apply]
    rintro _ _ p rfl rfl hp rfl
    cases hp
  obtain ⟨st, hr⟩ : ∃ st, run step Store.empty takingProgram = some st := ⟨_, rfl⟩
  obtain ⟨hvalues, hreads⟩ := scopedUtfChars_values twoStrings takingProgram hfresh
  rw [hr, Option.map_some] at hvalues
  have h0 : values st 0 = some (some 4) :=
    congrFun (Option.some.inj hvalues.symm) 0
  have h1 : values st 1 = some none := congrFun (Option.some.inj hvalues.symm) 1
  refine ⟨st, hr, h0, h1, fun obj hobj => ?_⟩
  obtain ⟨s, hs, hlike⟩ := (hreads st hr).1 0 obj hobj
  obtain rfl : some 4 = s := Option.some.inj (h0.symm.trans hs)
  obtain ⟨-, hsize, hindex⟩ := hlike
  refine ⟨hsize, ?_⟩
  rw [List.map_congr_left fun n _ => hindex n]
  decide

end programs

end ScopedUtfChars
end NativeHelper
