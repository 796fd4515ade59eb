import Mathlib.Data.List.Sort
import Mathlib.Data.String.Basic
import Std.Data.TreeMap.Lemmas

/-! The database interface of the backend (`DB.h`, `Conf.h`): what a call of `execute` is given and
what it does to its caller. A call may leave by a fault instead of returning, and a database that is
backed by the SQLite library also records what it handed to the library. -/

namespace Brainslug

/-- `std::map<std::string,std::string>`, iterated in the order of its keys. -/
abbrev SanitizedParams := Std.TreeMap String String

/-- What reaches the SQLite library: a text to execute, a text to prepare, a value bound by position. -/
inductive SqlCall where
  | exec (text : String)
  | prepare (text : String)
  | bind (index : Nat) (value : String)
  deriving DecidableEq

/-- How a call can fail to return: a failed `assert` ends the process, calling an empty
`boost::function` throws. -/
inductive Fault where
  | assertion
  | badFunctionCall
  deriving DecidableEq

/-- A computation of the backend: what it handed to the SQLite library, then its value or fault. -/
structure Effect (α : Type) where
  sql : List SqlCall
  result : Except Fault α

namespace Effect

variable {α β : Type}

protected def pure (a : α) : Effect α := ⟨[], .ok a⟩

protected def bind (e : Effect α) (next : α → Effect β) : Effect β :=
  match e.result with
  | .ok a => ⟨e.sql ++ (next a).sql, (next a).result⟩
  | .error fault => ⟨e.sql, .error fault⟩

instance : Monad Effect where
  pure := Effect.pure
  bind := Effect.bind

theorem bind_of_ok {e : Effect α} {a : α} (h : e.result = .ok a) (next : α → Effect β) :
    e >>= next = ⟨e.sql ++ (next a).sql, (next a).result⟩ := by
  change Effect.bind e next = _
  rw [Effect.bind, h]

@[simp] theorem pure_sql (a : α) : (Pure.pure a : Effect α).sql = [] := rfl

@[simp] theorem pure_result (a : α) : (Pure.pure a : Effect α).result = .ok a := rfl

end Effect

/-- `ExecuteCallback`, a `boost::function`: empty, as by default, or bound to a function. -/
inductive ExecuteCallback where
  | empty
  | bound
  deriving DecidableEq

/-- What one invocation of the callback receives: for each column index below the column count, the
column name and the value, `none` being a null pointer. -/
abbrev RowCall := List (String × Option String)

def ExecuteCallback.invoke : ExecuteCallback → RowCall → Except Fault RowCall
  | .empty, _ => .error .badFunctionCall
  | .bound, call => .ok call

/-- What a returned `execute` did: the invocations of the callback in order, the value returned, and
the caller's `errorMessage` afterwards. -/
structure Executed where
  calls : List RowCall
  ok : Bool
  errorMessage : String
  deriving DecidableEq

/-- The part of `DB` that the resource handlers use. -/
structure DB where
  execute : (query errorMessage : String) → ExecuteCallback → SanitizedParams → Effect Executed

def DB.ofOutcomes (outcome : String → SanitizedParams → Executed) : DB where
  execute query _ _ params := Effect.pure (outcome query params)

/-! ### Parameter maps

A map is iterated in strictly increasing order of its keys, so the sequence of the keys is determined
by which keys there are. -/

namespace SanitizedParams

theorem keys_pairwise (sp : SanitizedParams) : sp.keys.Pairwise (· < ·) := by
  have h := Std.TreeMap.ordered_keys (t := sp)
  simpa only [compare_lt_iff_lt] using h

theorem keys_eq_of_mem_iff {sp sp' : SanitizedParams} (h : ∀ c, c ∈ sp ↔ c ∈ sp') : sp.keys = sp'.keys := by
  apply (keys_pairwise sp).eq_of_mem_iff (keys_pairwise sp')
  intro c
  rw [Std.TreeMap.mem_keys, Std.TreeMap.mem_keys, h]

end SanitizedParams

end Brainslug
