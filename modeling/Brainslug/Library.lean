import Brainslug.SQLiteOutcome
import Brainslug.ViewStatement

/-! The library on the file of the cache. It is a parameter: it has a state, of which the tables in the file are a
part, and in a state it answers the calls of the backend and moves on to another one. What is asked of it are the
contracts below, about the statements of the resource handlers and no others. -/

namespace Brainslug

open Sql

/-- The library with the file that it has open. `file` shows the tables that were created by statements; what the
library keeps for itself, such as `sqlite_sequence`, is part of the state only. -/
structure Library where
  State : Type
  file : State → Database
  on : State → SQLite
  after : State → SqlCall → State

/-- The state after all that a computation handed to the library. -/
def Effect.leaves {α : Type} (lib : Library) (s : lib.State) (e : Effect α) : lib.State := e.sql.foldl lib.after s

namespace Library

/-- The statements that a handler executes when it starts. Creating the table succeeds and does nothing if it is
there; an insert that breaks a constraint changes nothing and any other adds its row. No statement reports rows. -/
structure Stores (lib : Library) (h : ResourceHandler) : Prop where
  exec_create : ∀ s, (lib.on s).exec h.createStatement = ⟨[], none⟩
  after_create : ∀ s, lib.file (lib.after s (.exec h.createStatement)) = (lib.file s).create h.schema
  exec_insert : ∀ s, ∀ entry ∈ h.testData.zip h.inserts, ((lib.on s).exec entry.1).rows = []
  after_insert : ∀ s, ∀ entry ∈ h.testData.zip h.inserts,
    lib.file (lib.after s (.exec entry.1)) = (lib.file s).afterInsert entry.2

/-- The statements that requests make a handler execute, on a file with its table. A run of which no failure is
reported yields the rows that meet the conditions, in some order, and no run changes the file. -/
structure Reads (lib : Library) (cells : Cells) (h : ResourceHandler) : Prop where
  list : ∀ s rows, lib.file s h.schema.name = some ⟨h.schema, rows⟩ →
    ((lib.on s).exec h.listStatement).failure = none →
      ∃ order : List Row, order.Perm rows ∧
        ((lib.on s).exec h.listStatement).rows = order.map (h.schema.project cells h.select)
  view : ∀ s rows conditions stmt, lib.file s h.schema.name = some ⟨h.schema, rows⟩ →
    (∀ c ∈ conditions.map Prod.fst, c ∈ h.keys.map Prod.snd) →
    (lib.on s).prepare (h.viewText (conditions.map Prod.fst)) = .ok stmt →
    (stmt.run (SQLiteDB.numbered conditions)).failure = none →
      ∃ order : List Row, order.Perm (rows.filter (h.schema.Holds cells conditions)) ∧
        (stmt.run (SQLiteDB.numbered conditions)).rowCalls = order.map (h.schema.project cells h.select)
  after_list : ∀ s, lib.file (lib.after s (.exec h.listStatement)) = lib.file s
  after_view : ∀ s columns, (∀ c ∈ columns, c ∈ h.keys.map Prod.snd) →
    lib.file (lib.after s (.prepare (h.viewText columns))) = lib.file s
  after_bind : ∀ s i value, lib.file (lib.after s (.bind i value)) = lib.file s

end Library

/-- The columns of a select are named by its `as` clauses. -/
structure SQLite.Labels (lib : SQLite) (h : ResourceHandler) : Prop where
  list : ∀ row ∈ (lib.exec h.listStatement).rows, row.map Prod.fst = h.select.items.map Prod.snd
  view : ∀ columns stmt bound, (∀ c ∈ columns, c ∈ h.keys.map Prod.snd) →
    lib.prepare (h.viewText columns) = .ok stmt → (stmt.run bound).colNames = h.select.items.map Prod.snd

/-- A text that is read through a pointer ends in front of the first zero. -/
structure SQLite.Terminates (lib : SQLite) : Prop where
  exec : ∀ text, ∀ row ∈ (lib.exec text).rows, ∀ column ∈ row, ∀ value ∈ column.2, '\x00' ∉ value.toList
  run : ∀ text stmt bound k ptr, lib.prepare text = .ok stmt → '\x00' ∉ ((stmt.run bound).textAt k ptr).toList

end Brainslug
