import Mathlib.Logic.Function.Basic

/-!
# Environments: finite maps from names to texts
-/

namespace Kworker.Lib

/-- `none` is a variable that is not set. -/
abbrev Env := String → Option String

namespace Env

def empty : Env := fun _ => none

def set (e : Env) (name value : String) : Env := fun n => if n = name then some value else e n

/-- The value of a variable that is set and not empty. -/
def given (e : Env) (name : String) : Option String := (e name).filter (· ≠ "")

variable (e : Env) (name value : String)

@[simp] theorem set_self : (e.set name value) name = some value := by simp [set]

@[simp] theorem set_of_ne {n : String} (h : n ≠ name) : (e.set name value) n = e n := by
  simp [set, h]

theorem given_set_self (h : value ≠ "") : (e.set name value).given name = some value := by
  simp [given, h]

end Env

end Kworker.Lib
