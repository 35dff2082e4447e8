import Mathlib.Data.Int.Notation
import NativeHelper.JniConstants
import NativeHelper.Ledger

/-! # The invocation API

`JniInvocationImpl` loads the library that implements a VM and holds pointers to the three
functions it exports.  `init` opens a library, perhaps another one after that, and looks up the
symbols from the first to the last; what the loader answers is given by an `Os`, a new one for
every call.

The loader keeps a log of what it was asked.  `Outcome` lists what `init` can do, with the calls
it makes and what it leaves of the instance: no library opens, or the one that opens lacks a
symbol, or it exports all three.  There is nothing else (`initLibrary_outcome`). -/

namespace NativeHelper
namespace JniInvocation

/-- A library handle, as `dlopen` returns it. -/
abbrev Handle := ℕ

/-- The address of a symbol of an open library. -/
structure Symbol where
  handle : Handle
  name : String
deriving DecidableEq, Repr

/-- What the system answers during one call. -/
structure Os where
  isDebuggable : Bool
  /-- What `__system_property_get` returns and what it leaves in the buffer. -/
  librarySystemProperty : ℤ × String
  dlopen : String → Option Handle
  /-- Whether the library exports the symbol. -/
  dlsym : Handle → String → Bool

/-- One call of the dynamic loader. -/
inductive LoaderCall where
  | openLibrary (name : String) (result : Option Handle)
  | getSymbol (handle : Option Handle) (name : String)
  | closeLibrary (handle : Handle)
deriving DecidableEq, Repr

/-- The three functions a library exports. -/
inductive ApiFunction where
  | getDefaultJavaVMInitArgs | createJavaVM | getCreatedJavaVMs
deriving DecidableEq, Repr, Inhabited

/-- The symbol of the function. -/
def ApiFunction.symbol : ApiFunction → String
  | .getDefaultJavaVMInitArgs => "JNI_GetDefaultJavaVMInitArgs"
  | .createJavaVM => "JNI_CreateJavaVM"
  | .getCreatedJavaVMs => "JNI_GetCreatedJavaVMs"

/-- The fields of `JniInvocationImpl`. -/
structure JniInvocationImpl where
  handle : Option Handle
  getDefaultJavaVMInitArgs : Option Symbol
  createJavaVM : Option Symbol
  getCreatedJavaVMs : Option Symbol
deriving DecidableEq, Repr

namespace JniInvocationImpl

/-- The constructor's initializers. -/
def new : JniInvocationImpl := ⟨none, none, none, none⟩

/-- The pointer to a function. -/
def pointer (impl : JniInvocationImpl) : ApiFunction → Option Symbol
  | .getDefaultJavaVMInitArgs => impl.getDefaultJavaVMInitArgs
  | .createJavaVM => impl.createJavaVM
  | .getCreatedJavaVMs => impl.getCreatedJavaVMs

def setPointer (impl : JniInvocationImpl) (value : Option Symbol) : ApiFunction → JniInvocationImpl
  | .getDefaultJavaVMInitArgs => { impl with getDefaultJavaVMInitArgs := value }
  | .createJavaVM => { impl with createJavaVM := value }
  | .getCreatedJavaVMs => { impl with getCreatedJavaVMs := value }

end JniInvocationImpl

/-- An instance and the loader it calls. -/
structure Loading where
  impl : JniInvocationImpl
  loader : List LoaderCall
deriving DecidableEq, Repr

/-! ### Library names -/

def kLibraryFallback : String := "libart.so"

/-- `GetLibrary`, and how often it calls `get_library_system_property`. -/
def getLibrary (android : Bool) (library : Option String) (hasBuffer : Bool) (os : Os) :
    String × ℕ :=
  if android then
    if !os.isDebuggable then (kLibraryFallback, 0)
    else
      let (defaultLibrary, reads) :=
        if hasBuffer then
          if os.librarySystemProperty.1 > 0 then (os.librarySystemProperty.2, 1)
          else (kLibraryFallback, 1)
        else (kLibraryFallback, 0)
      (library.getD defaultLibrary, reads)
  else (library.getD kLibraryFallback, 0)

/-! ### Loading -/

section loading
variable (os : Os)

/-- `handle_ = OpenLibrary(name)`. -/
def openLibrary (name : String) (m : Loading) : Loading :=
  { impl := { m.impl with handle := os.dlopen name }
    loader := m.loader ++ [.openLibrary name (os.dlopen name)] }

/-- `GetSymbol(handle_, symbol)`. -/
def getSymbol (handle : Option Handle) (symbol : String) : Option Symbol :=
  match handle with
  | some h => if os.dlsym h symbol then some ⟨h, symbol⟩ else none
  | none => none

/-- `CloseLibrary(handle_)` and `handle_ = NULL`. -/
def closeLibrary (m : Loading) : Loading :=
  { impl := { m.impl with handle := none }
    loader := m.loader ++ (m.impl.handle.map LoaderCall.closeLibrary).toList }

/-- `FindSymbol(pointer, symbol)`; `pointer` is one of the three fields. -/
def findSymbol (pointer : ApiFunction) (symbol : String) (m : Loading) : Bool × Loading :=
  let found := getSymbol os m.impl.handle symbol
  let m : Loading :=
    { impl := m.impl.setPointer found pointer
      loader := m.loader ++ [.getSymbol m.impl.handle symbol] }
  if found = none then (false, closeLibrary m) else (true, m)

/-- The second half of `Init`: the three symbols. -/
def findSymbols (m : Loading) : Bool × Loading :=
  match findSymbol os .getDefaultJavaVMInitArgs "JNI_GetDefaultJavaVMInitArgs" m with
  | (false, m) => (false, m)
  | (true, m) =>
      match findSymbol os .createJavaVM "JNI_CreateJavaVM" m with
      | (false, m) => (false, m)
      | (true, m) =>
          match findSymbol os .getCreatedJavaVMs "JNI_GetCreatedJavaVMs" m with
          | (false, m) => (false, m)
          | (true, m) => (true, m)

/-- `Init`, for the name `GetLibrary` returned. -/
def initLibrary (library : String) (m : Loading) : Bool × Loading :=
  let m := openLibrary os library m
  if m.impl.handle = none then
    if library = kLibraryFallback then (false, m)
    else
      let m := openLibrary os kLibraryFallback m
      if m.impl.handle = none then (false, m) else findSymbols os m
  else findSymbols os m

end loading

/-- `JniInvocationImpl::Init`; only on Android there is a buffer for the property. -/
def init (android : Bool) (library : Option String) (os : Os) (m : Loading) : Bool × Loading × ℕ :=
  let (library, reads) := getLibrary android library android os
  let (ok, m) := initLibrary os library m
  (ok, m, reads)

/-! ### What `init` does -/

/-- The libraries that are opened for a name, and what opening them gave. -/
def attempts (os : Os) (name : String) : List (String × Option Handle) :=
  (name, os.dlopen name) ::
    if os.dlopen name = none ∧ name ≠ kLibraryFallback then
      [(kLibraryFallback, os.dlopen kLibraryFallback)]
    else []

/-- The first library that opens. -/
def firstOpened (os : Os) (name : String) : Option Handle := (attempts os name).findSome? (·.2)

/-- The library exports all three symbols. -/
def Exports (os : Os) (h : Handle) : Prop := ∀ f : ApiFunction, os.dlsym h f.symbol = true

/-- The functions in the order in which `init` looks them up. -/
def ApiFunction.all : List ApiFunction :=
  [.getDefaultJavaVMInitArgs, .createJavaVM, .getCreatedJavaVMs]

/-- The functions up to `f`, which comes last. -/
def ApiFunction.upTo : ApiFunction → List ApiFunction
  | .getDefaultJavaVMInitArgs => [.getDefaultJavaVMInitArgs]
  | .createJavaVM => [.getDefaultJavaVMInitArgs, .createJavaVM]
  | .getCreatedJavaVMs => ApiFunction.all

/-- The first function whose symbol the library lacks. -/
def firstMissing (os : Os) (h : Handle) : Option ApiFunction :=
  ApiFunction.all.find? fun f => !os.dlsym h f.symbol

theorem firstMissing_eq_none_iff {os : Os} {h : Handle} :
    firstMissing os h = none ↔ Exports os h := by
  unfold firstMissing
  rw [List.find?_eq_none]
  constructor
  · intro he f
    have := he f (by cases f <;> simp [ApiFunction.all])
    simpa using this
  · intro he f _
    simp [he f]

theorem firstMissing_eq (os : Os) (h : Handle) :
    firstMissing os h =
      if os.dlsym h "JNI_GetDefaultJavaVMInitArgs" = false then some .getDefaultJavaVMInitArgs
      else if os.dlsym h "JNI_CreateJavaVM" = false then some .createJavaVM
      else if os.dlsym h "JNI_GetCreatedJavaVMs" = false then some .getCreatedJavaVMs
      else none := by
  unfold firstMissing
  simp only [ApiFunction.all, List.find?_cons, ApiFunction.symbol, List.find?_nil]
  cases os.dlsym h "JNI_GetDefaultJavaVMInitArgs" <;> cases os.dlsym h "JNI_CreateJavaVM" <;>
    cases os.dlsym h "JNI_GetCreatedJavaVMs" <;> rfl

theorem dlsym_first_of_firstMissing {os : Os} {h : Handle} {f : ApiFunction}
    (hf : firstMissing os h = some f) :
    os.dlsym h "JNI_GetDefaultJavaVMInitArgs" = false ↔ f = .getDefaultJavaVMInitArgs := by
  rw [firstMissing_eq] at hf
  by_cases h1 : os.dlsym h "JNI_GetDefaultJavaVMInitArgs" = false
  · rw [if_pos h1] at hf
    exact iff_of_true h1 (Option.some.inj hf).symm
  · rw [if_neg h1] at hf
    refine iff_of_false h1 ?_
    rintro rfl
    split_ifs at hf <;> cases hf

instance (os : Os) (h : Handle) : Decidable (Exports os h) :=
  decidable_of_iff _ firstMissing_eq_none_iff

/-- The calls that open libraries. -/
def openCalls (calls : List LoaderCall) : List (String × Option Handle) :=
  calls.filterMap fun
    | .openLibrary name result => some (name, result)
    | _ => none

/-- What the calls acquire and release. -/
def ledger (calls : List LoaderCall) : List (Ledger.Entry Handle) :=
  calls.filterMap fun
    | .openLibrary _ (some h) => some (.acquire h)
    | .closeLibrary h => some (.release h)
    | _ => none

@[simp] theorem openCalls_append (l l' : List LoaderCall) :
    openCalls (l ++ l') = openCalls l ++ openCalls l' := List.filterMap_append

@[simp] theorem ledger_append (l l' : List LoaderCall) :
    ledger (l ++ l') = ledger l ++ ledger l' := List.filterMap_append

/-- The calls that look up the symbols of the functions in `h`. -/
def lookups (h : Handle) (fs : List ApiFunction) : List LoaderCall :=
  fs.map fun f => .getSymbol (some h) f.symbol

/-- The calls that make the attempts to open a library. -/
def opens (tried : List (String × Option Handle)) : List LoaderCall :=
  tried.map fun e => .openLibrary e.1 e.2

@[simp] theorem openCalls_lookups (h : Handle) (fs : List ApiFunction) :
    openCalls (lookups h fs) = [] := by
  simp [openCalls, lookups, List.filterMap_map]

@[simp] theorem ledger_lookups (h : Handle) (fs : List ApiFunction) :
    ledger (lookups h fs) = [] := by
  simp [ledger, lookups, List.filterMap_map]

@[simp] theorem openCalls_opens (tried : List (String × Option Handle)) :
    openCalls (opens tried) = tried := by
  simp [openCalls, opens, List.filterMap_map]

@[simp] theorem openCalls_close (h : Handle) : openCalls [.closeLibrary h] = [] := rfl

@[simp] theorem ledger_close (h : Handle) : ledger [.closeLibrary h] = [.release h] := rfl

/-- Only the first library that opens is acquired. -/
theorem ledger_opens_attempts (os : Os) (name : String) :
    ledger (opens (attempts os name)) =
      ((firstOpened os name).map Ledger.Entry.acquire).toList := by
  unfold firstOpened attempts
  cases h : os.dlopen name with
  | some g => simp [opens, ledger]
  | none =>
      by_cases hn : name = kLibraryFallback
      · simp [opens, ledger, hn]
      · cases os.dlopen kLibraryFallback with
        | none => simp [opens, ledger, hn]
        | some g => simp [opens, ledger, hn]

namespace JniInvocationImpl

/-- The instance after the library `h` was loaded. -/
def ofLibrary (h : Handle) : JniInvocationImpl where
  handle := some h
  getDefaultJavaVMInitArgs := some ⟨h, "JNI_GetDefaultJavaVMInitArgs"⟩
  createJavaVM := some ⟨h, "JNI_CreateJavaVM"⟩
  getCreatedJavaVMs := some ⟨h, "JNI_GetCreatedJavaVMs"⟩

/-- What is left of the instance when the library `h` has been given up at the symbol of `f`. -/
def abandoned (impl : JniInvocationImpl) (h : Handle) : ApiFunction → JniInvocationImpl
  | .getDefaultJavaVMInitArgs => { impl with handle := none, getDefaultJavaVMInitArgs := none }
  | .createJavaVM =>
      { impl with
        handle := none
        getDefaultJavaVMInitArgs := some ⟨h, "JNI_GetDefaultJavaVMInitArgs"⟩
        createJavaVM := none }
  | .getCreatedJavaVMs =>
      { handle := none
        getDefaultJavaVMInitArgs := some ⟨h, "JNI_GetDefaultJavaVMInitArgs"⟩
        createJavaVM := some ⟨h, "JNI_CreateJavaVM"⟩
        getCreatedJavaVMs := none }

@[simp] theorem new_handle : new.handle = none := rfl

@[simp] theorem new_pointer (f : ApiFunction) : new.pointer f = none := by cases f <;> rfl

@[simp] theorem ofLibrary_handle (h : Handle) : (ofLibrary h).handle = some h := rfl

@[simp] theorem ofLibrary_pointer (h : Handle) (f : ApiFunction) :
    (ofLibrary h).pointer f = some ⟨h, f.symbol⟩ := by cases f <;> rfl

@[simp] theorem abandoned_handle (impl : JniInvocationImpl) (h : Handle) (f : ApiFunction) :
    (impl.abandoned h f).handle = none := by cases f <;> rfl

end JniInvocationImpl

section lookup
variable {os : Os} {m : Loading} {h : Handle}

theorem findSymbol_found (hm : m.impl.handle = some h) {f : ApiFunction} {symbol : String}
    (hs : os.dlsym h symbol = true) :
    findSymbol os f symbol m = (true, ⟨m.impl.setPointer (some ⟨h, symbol⟩) f,
      m.loader ++ [.getSymbol (some h) symbol]⟩) := by
  simp [findSymbol, getSymbol, hm, hs]

theorem findSymbol_missing (hm : m.impl.handle = some h) {f : ApiFunction} {symbol : String}
    (hs : os.dlsym h symbol = false) :
    findSymbol os f symbol m = (false, ⟨{ m.impl.setPointer none f with handle := none },
      m.loader ++ [.getSymbol (some h) symbol] ++ [.closeLibrary h]⟩) := by
  have hp : (m.impl.setPointer none f).handle = some h := by cases f <;> exact hm
  simp [findSymbol, getSymbol, closeLibrary, hm, hs, hp]

/-- The lookups end at the first symbol that is missing, where the library is closed. -/
theorem findSymbols_eq (hm : m.impl.handle = some h) :
    findSymbols os m = match firstMissing os h with
      | none => (true, ⟨.ofLibrary h, m.loader ++ lookups h ApiFunction.all⟩)
      | some f => (false, ⟨m.impl.abandoned h f, m.loader ++ lookups h f.upTo ++ [.closeLibrary h]⟩)
    := by
  obtain ⟨⟨handle, initArgs, create, created⟩, loader⟩ := m
  obtain rfl : handle = some h := hm
  unfold findSymbols
  rw [firstMissing_eq]
  cases h1 : os.dlsym h "JNI_GetDefaultJavaVMInitArgs" with
  | false => rw [findSymbol_missing rfl h1]; rfl
  | true =>
      rw [findSymbol_found rfl h1]
      dsimp only
      cases h2 : os.dlsym h "JNI_CreateJavaVM" with
      | false =>
          rw [findSymbol_missing rfl h2]
          simp [lookups, ApiFunction.upTo, ApiFunction.symbol, JniInvocationImpl.abandoned,
            JniInvocationImpl.setPointer]
      | true =>
          rw [findSymbol_found rfl h2]
          dsimp only
          cases h3 : os.dlsym h "JNI_GetCreatedJavaVMs" with
          | false =>
              rw [findSymbol_missing rfl h3]
              simp [lookups, ApiFunction.upTo, ApiFunction.all, ApiFunction.symbol,
                JniInvocationImpl.abandoned, JniInvocationImpl.setPointer]
          | true =>
              rw [findSymbol_found rfl h3]
              simp [lookups, ApiFunction.all, ApiFunction.symbol, JniInvocationImpl.ofLibrary,
                JniInvocationImpl.setPointer]

end lookup

/-! ### The three outcomes of `init` -/

/-- What `init` can do to an instance: nothing opens, or the library that opens lacks a symbol and
is closed, or it is kept. -/
inductive Outcome (os : Os) (name : String) (m : Loading) : Bool × Loading → Prop
  | unopened (hn : firstOpened os name = none) :
      Outcome os name m
        (false, ⟨{ m.impl with handle := none }, m.loader ++ opens (attempts os name)⟩)
  | abandoned {h : Handle} (ho : firstOpened os name = some h) {f : ApiFunction}
      (hf : firstMissing os h = some f) :
      Outcome os name m (false, ⟨m.impl.abandoned h f,
        m.loader ++ opens (attempts os name) ++ lookups h f.upTo ++ [.closeLibrary h]⟩)
  | loaded {h : Handle} (ho : firstOpened os name = some h) (he : Exports os h) :
      Outcome os name m
        (true, ⟨.ofLibrary h, m.loader ++ opens (attempts os name) ++ lookups h ApiFunction.all⟩)

/-- The first half of `Init` leaves the first library that opens in `handle_`. -/
theorem initLibrary_eq (os : Os) (name : String) (m : Loading) :
    initLibrary os name m =
      let m' : Loading := ⟨{ m.impl with handle := firstOpened os name },
        m.loader ++ opens (attempts os name)⟩
      if firstOpened os name = none then (false, m') else findSymbols os m' := by
  unfold initLibrary firstOpened attempts
  cases h : os.dlopen name with
  | some g => simp [openLibrary, opens, h]
  | none =>
      by_cases hn : name = kLibraryFallback
      · simp [openLibrary, opens, hn, hn ▸ h]
      · cases hf : os.dlopen kLibraryFallback with
        | none => simp [openLibrary, opens, h, hn, hf]
        | some g => simp [openLibrary, opens, h, hn, hf]

theorem initLibrary_outcome (os : Os) (name : String) (m : Loading) :
    Outcome os name m (initLibrary os name m) := by
  rw [initLibrary_eq]
  cases ho : firstOpened os name with
  | none => exact .unopened ho
  | some h =>
      simp only [reduceCtorEq, if_false]
      rw [findSymbols_eq rfl]
      cases hf : firstMissing os h with
      | none => exact .loaded ho (firstMissing_eq_none_iff.mp hf)
      | some f => exact .abandoned ho hf

/-- The name `Init` starts from. -/
def libraryName (android : Bool) (library : Option String) (os : Os) : String :=
  (getLibrary android library android os).1

theorem init_outcome {android : Bool} {library : Option String} {os : Os} {m m' : Loading}
    {ok : Bool} {reads : ℕ} (h : init android library os m = (ok, m', reads)) :
    Outcome os (libraryName android library os) m (ok, m') ∧
      reads = (getLibrary android library android os).2 := by
  have ho := initLibrary_outcome os (libraryName android library os) m
  obtain ⟨h1, h2, h3⟩ : (initLibrary os (libraryName android library os) m).1 = ok ∧
      (initLibrary os (libraryName android library os) m).2 = m' ∧
      (getLibrary android library android os).2 = reads := by
    simpa only [init, libraryName, Prod.mk.injEq] using h
  rw [← h1, ← h2]
  exact ⟨ho, h3.symm⟩

section outcome
variable {os : Os} {name : String} {m m' : Loading} {ok : Bool}

/-- `Init` returns true exactly when the first library that opens exports all three symbols. -/
theorem Outcome.result_iff (ho : Outcome os name m (ok, m')) :
    ok = true ↔ ∃ h, firstOpened os name = some h ∧ Exports os h := by
  cases ho with
  | unopened hn => simp [hn]
  | abandoned ho hf => simp [ho, ← firstMissing_eq_none_iff, hf]
  | loaded ho he => simp [ho, he]

theorem Outcome.openCalls (ho : Outcome os name m (ok, m')) :
    openCalls m'.loader = openCalls m.loader ++ attempts os name := by
  cases ho <;> simp

/-- After an `Init` that returned true the instance is that of the library it opened. -/
theorem Outcome.impl_of_loaded (ho : Outcome os name m (ok, m')) (hok : ok = true) {h : Handle}
    (hh : firstOpened os name = some h) : m'.impl = .ofLibrary h := by
  cases ho with
  | unopened _ => cases hok
  | abandoned _ _ => cases hok
  | loaded ho _ => rw [Option.some.inj (hh.symm.trans ho)]

/-- What `Init` does to the handles. -/
theorem Outcome.reopened (ho : Outcome os name m (ok, m')) :
    ∃ calls, m'.loader = m.loader ++ calls ∧
      ∀ l, Ledger.Reopened l (l ++ ledger calls) m'.impl.handle := by
  cases ho with
  | unopened hn =>
      refine ⟨_, rfl, fun l => ?_⟩
      rw [ledger_opens_attempts, hn, Option.map_none, Option.toList_none, List.append_nil]
      exact .nothing
  | @abandoned h ho f hf =>
      refine ⟨opens (attempts os name) ++ (lookups h f.upTo ++ [.closeLibrary h]),
        by simp only [List.append_assoc], fun l => ?_⟩
      have : l ++ ledger (opens (attempts os name) ++ (lookups h f.upTo ++ [.closeLibrary h])) =
          l ++ [.acquire h] ++ [.release h] := by
        simp [ledger_opens_attempts, ho]
      rw [this, JniInvocationImpl.abandoned_handle]
      exact .givenBack h
  | @loaded h ho he =>
      refine ⟨opens (attempts os name) ++ lookups h ApiFunction.all,
        by simp only [List.append_assoc], fun l => ?_⟩
      simp only [ledger_append, ledger_opens_attempts, ho, ledger_lookups, List.append_nil]
      exact .kept _

end outcome

end JniInvocation
end NativeHelper
