import Mathlib.Data.List.Basic
import Mathlib.Logic.Function.Basic

/-! # Stores of objects

The live objects of a program by their addresses, and a trace of what the program did with the
world outside, oldest event first.  `own` says which handle an object has, and `held` what is
found at each address (`held_set`: a store changes it at one address only). -/

namespace Objects

/-- The objects and the trace. -/
structure Store (O Obj Ev : Type*) where
  object : O → Option Obj
  trace : List Ev

namespace Store

variable {O Obj Ev H : Type*}

/-- No objects, and nothing has happened. -/
def empty : Store O Obj Ev := ⟨fun _ => none, []⟩

/-- Something happens, or nothing. -/
def record (s : Store O Obj Ev) (event : Option Ev) : Store O Obj Ev :=
  { s with trace := s.trace ++ event.toList }

/-- What the object at an address holds. -/
def held (own : Obj → Option H) (s : Store O Obj Ev) (o : O) : Option H := (s.object o).bind own

theorem held_eq {own : Obj → Option H} {s : Store O Obj Ev} {o : O} {obj : Obj}
    (h : s.object o = some obj) : s.held own o = own obj := by
  unfold held
  rw [h, Option.bind_some]

theorem held_eq_none {own : Obj → Option H} {s : Store O Obj Ev} {o : O} (h : s.object o = none) :
    s.held own o = none := by
  unfold held
  rw [h, Option.bind_none]

theorem held_eq_some_iff {own : Obj → Option H} {s : Store O Obj Ev} {o : O} {h : H} :
    s.held own o = some h ↔ ∃ obj, s.object o = some obj ∧ own obj = some h :=
  Option.bind_eq_some_iff

@[simp] theorem record_none (s : Store O Obj Ev) : s.record none = s := by
  simp [record]

/-- The order of two events does not matter for their counts. -/
theorem record_comm (s : Store O Obj Ev) (e e' : Option Ev) :
    ((s.record e).record e').trace.Perm ((s.record e').record e).trace := by
  unfold record
  rw [List.append_assoc, List.append_assoc]
  exact List.perm_append_comm.append_left _

variable [DecidableEq O]

/-- The object at `o` becomes `obj`, or is no more. -/
def set (s : Store O Obj Ev) (o : O) (obj : Option Obj) : Store O Obj Ev :=
  { s with object := Function.update s.object o obj }

@[simp] theorem object_set_self (s : Store O Obj Ev) (o : O) (obj : Option Obj) :
    (s.set o obj).object o = obj :=
  Function.update_self ..

theorem object_set_ne (s : Store O Obj Ev) {o o' : O} (obj : Option Obj) (hne : o ≠ o') :
    (s.set o' obj).object o = s.object o :=
  Function.update_of_ne hne ..

@[simp] theorem set_set (s : Store O Obj Ev) (o : O) (obj obj' : Option Obj) :
    (s.set o obj).set o obj' = s.set o obj' := by
  simp [set]

theorem set_self {s : Store O Obj Ev} {o : O} {obj : Option Obj} (h : s.object o = obj) :
    s.set o obj = s := by
  rw [set, ← h, Function.update_eq_self]

@[simp] theorem record_set (s : Store O Obj Ev) (o : O) (obj : Option Obj) (event : Option Ev) :
    (s.set o obj).record event = (s.record event).set o obj := rfl

@[simp] theorem held_set (own : Obj → Option H) (s : Store O Obj Ev) (o : O) (obj : Option Obj) :
    (s.set o obj).held own = Function.update (s.held own) o (obj.bind own) := by
  funext o'
  unfold held
  by_cases h : o' = o
  · rw [h, Function.update_self, object_set_self]
  · rw [Function.update_of_ne h, object_set_ne s obj h]

end Store
end Objects
