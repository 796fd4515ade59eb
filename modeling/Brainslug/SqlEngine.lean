import Brainslug.Library
import Brainslug.ViewFilter

/-! A library that executes the SQL fragment, and meets what is asked of the parameter. It reports the rows of a
table in the order they were stored, and puts the texts of a column in one place. -/

namespace Brainslug

open Sql

def ExecFailure.ofMessage (message : String) : ExecFailure :=
  if h : message = "" then ⟨1, "unknown error", by decide⟩ else ⟨1, message, h⟩

section

variable (cells : Cells) (d : Database)

/-- The rows of a select under the values bound to its conditions. -/
def boundRows (sel : Select) (conditions : List String) (bound : List (Nat × String)) : List RowCall :=
  match conditions.zipIdx.mapM fun c => (bound.lookup (c.2 + 1)).map fun value => (c.1, value) with
  -- a parameter that was not bound is NULL, and no value equals NULL
  | none => []
  | some conditions => (d.select cells sel conditions).toOption.getD []

theorem names_of_select {sel : Select} {conditions : List (String × String)} {rows : List RowCall}
    (h : d.select cells sel conditions = .ok rows) : ∀ row ∈ rows, row.map Prod.fst = sel.items.map Prod.snd := by
  unfold Database.select at h
  split at h
  · cases h
  · split_ifs at h
    obtain rfl := Except.ok.inj h
    intro row hrow
    obtain ⟨stored, -, rfl⟩ := List.mem_map.mp hrow
    simp [Schema.project, Function.comp_def]

theorem texts_of_select {sel : Select} {conditions : List (String × String)} {rows : List RowCall}
    (h : d.select cells sel conditions = .ok rows) :
    ∀ row ∈ rows, ∀ column ∈ row, ∃ value, column.2 = cells.text value := by
  unfold Database.select at h
  split at h
  · cases h
  · split_ifs at h
    obtain rfl := Except.ok.inj h
    intro row hrow column hcolumn
    obtain ⟨stored, -, rfl⟩ := List.mem_map.mp hrow
    obtain ⟨item, -, rfl⟩ := List.mem_map.mp hcolumn
    exact ⟨_, rfl⟩

theorem select_of_mem_boundRows {sel : Select} {conditions : List String} {bound : List (Nat × String)} {row : RowCall}
    (hrow : row ∈ boundRows cells d sel conditions bound) :
    ∃ conditions rows, d.select cells sel conditions = .ok rows ∧ row ∈ rows := by
  unfold boundRows at hrow
  split at hrow
  · cases hrow
  · next conditions _ =>
    cases hselect : d.select cells sel conditions with
    | error message => simp [hselect, Except.toOption] at hrow
    | ok rows =>
        rw [hselect] at hrow
        exact ⟨conditions, rows, hselect, hrow⟩

theorem names_of_mem_boundRows {sel : Select} {conditions : List String} {bound : List (Nat × String)} {row : RowCall}
    (hrow : row ∈ boundRows cells d sel conditions bound) : row.map Prod.fst = sel.items.map Prod.snd := by
  obtain ⟨conditions, rows, hselect, hmem⟩ := select_of_mem_boundRows cells d hrow
  exact names_of_select cells d hselect row hmem

def boundRun (sel : Select) (conditions : List String) (bound : List (Nat × String)) : Stepping :=
  if hitems : sel.items = [] then .reusing [] [] (by simp) (by simp)
  else .reusing (sel.items.map Prod.snd) ((boundRows cells d sel conditions bound).map fun row => row.map Prod.snd)
    (by
      intro row hrow
      obtain ⟨row, hmem, rfl⟩ := List.mem_map.mp hrow
      have hnames := congrArg List.length (names_of_mem_boundRows cells d hmem)
      simpa using hnames)
    (fun _ => by simpa using hitems)

/-- The answers on a file with the given tables. -/
def SQLite.executing : SQLite where
  exec text :=
    match d.exec cells text with
    | .ok r => ⟨r.2, none⟩
    | .error message => ⟨[], some (.ofMessage message)⟩
  prepare text :=
    match parse text with
    | some (.select sel conditions) =>
        match d.select cells sel (conditions.map fun c => (c, "")) with
        | .ok _ => .ok ⟨fun i _ => if 0 < i ∧ i ≤ conditions.length then none else some 25,
            boundRun cells d sel conditions⟩
        | .error _ => .error 1
    | some _ => .ok ⟨fun _ _ => some 25, fun _ => .reusing [] [] (by simp) (by simp)⟩
    | none => .error 1

end

/-- The library whose state is the file. -/
def sqlEngine (cells : Cells) : Library where
  State := Database
  file := id
  on := SQLite.executing cells
  after d
    | .exec text => d.after cells text
    | .prepare _ => d
    | .bind _ _ => d

section

variable {cells : Cells} {d : Database}

theorem exec_create {text : String} {schema : Schema} (h : parse text = some (.create schema)) (d : Database) :
    (SQLite.executing cells d).exec text = ⟨[], none⟩ := by
  simp only [SQLite.executing, Database.exec, h]

theorem rows_insert {text : String} {ins : Insert} (h : parse text = some (.insert ins)) (d : Database) :
    ((SQLite.executing cells d).exec text).rows = [] := by
  simp only [SQLite.executing, Database.exec, h]
  cases d.insert ins <;> rfl

theorem parse_of_mem_zip (h : ResourceHandler) : ∀ entry ∈ h.testData.zip h.inserts,
    parse entry.1 = some (.insert entry.2) := by
  intro entry hentry
  obtain ⟨i, hi⟩ := List.mem_iff_getElem?.mp hentry
  obtain ⟨htext, hins⟩ := List.getElem?_zip_eq_some.mp hi
  have hparse := congrArg (·[i]?) h.parse_testData
  simpa [htext, hins] using hparse

theorem stores_sqlEngine (cells : Cells) (h : ResourceHandler) : (sqlEngine cells).Stores h where
  exec_create := exec_create h.parse_createStatement
  after_create _ := Database.after_create h.parse_createStatement
  exec_insert d entry hentry := rows_insert (parse_of_mem_zip h entry hentry) d
  after_insert _ entry hentry := Database.after_insert (parse_of_mem_zip h entry hentry)

/-! ### The values bound -/

theorem prepare_select {text : String} {sel : Select} {conditions : List String} {stmt : Stmt}
    (hparse : parse text = some (.select sel conditions)) (hprepare : (SQLite.executing cells d).prepare text = .ok stmt) :
    stmt.run = boundRun cells d sel conditions := by
  simp only [SQLite.executing, hparse] at hprepare
  split at hprepare
  · exact congrArg Stmt.run (Except.ok.inj hprepare).symm
  · cases hprepare

theorem items_ne_nil (r : Resource) : r.handler.select.items ≠ [] := by
  cases r <;> exact List.cons_ne_nil _ _

theorem rows_exec {text : String} {row : RowCall} (hrow : row ∈ ((SQLite.executing cells d).exec text).rows) :
    ∃ sel conditions rows, d.select cells sel conditions = .ok rows ∧ row ∈ rows := by
  simp only [SQLite.executing, Database.exec] at hrow
  split at hrow
  · next result hresult =>
    split at hresult
    · obtain rfl := Except.ok.inj hresult
      cases hrow
    · next ins _ =>
      cases hinsert : d.insert ins with
      | error message => simp [hinsert, Except.map] at hresult
      | ok d' =>
          simp only [hinsert, Except.map] at hresult
          obtain rfl := Except.ok.inj hresult
          cases hrow
    · next sel _ =>
      cases hselect : d.select cells sel [] with
      | error message => simp [hselect, Except.map] at hresult
      | ok rows =>
          simp only [hselect, Except.map] at hresult
          obtain rfl := Except.ok.inj hresult
          exact ⟨sel, [], rows, hselect, hrow⟩
    · next sel _ _ _ =>
      cases hselect : d.select cells sel [] with
      | error message => simp [hselect, Except.map] at hresult
      | ok rows =>
          simp only [hselect, Except.map] at hresult
          obtain rfl := Except.ok.inj hresult
          cases hrow
    · cases hresult
  · cases hrow

theorem textAt_boundRun {sel : Select} {conditions : List String} {bound : List (Nat × String)} (k ptr : Nat) :
    (boundRun cells d sel conditions bound).textAt k ptr = "" ∨
      ∃ value, cells.text value = some ((boundRun cells d sel conditions bound).textAt k ptr) := by
  unfold boundRun
  split_ifs
  · left
    simp [Stepping.reusing, Stepping.lastText]
  · simp only [Stepping.reusing]
    cases hlast : Stepping.lastText _ k ptr with
    | none => exact Or.inl rfl
    | some text =>
        right
        obtain ⟨cells', hcells, htext⟩ := Stepping.exists_of_lastText hlast
        obtain ⟨row, hrow, rfl⟩ := List.mem_map.mp hcells
        obtain ⟨column, hcolumn, hvalue⟩ := List.mem_map.mp htext
        obtain ⟨conditions, rows, hselect, hmem⟩ := select_of_mem_boundRows cells d hrow
        obtain ⟨value, heq⟩ := texts_of_select cells d hselect row hmem column hcolumn
        exact ⟨value, heq.symm.trans hvalue⟩

theorem terminates_executing (hcells : ∀ value, ∀ text ∈ cells.text value, '\x00' ∉ text.toList) (d : Database) :
    (SQLite.executing cells d).Terminates where
  exec text row hrow column hcolumn value hvalue := by
    obtain ⟨sel, conditions, rows, hselect, hmem⟩ := rows_exec hrow
    obtain ⟨stored, heq⟩ := texts_of_select cells d hselect row hmem column hcolumn
    exact hcells stored value (heq ▸ hvalue)
  run text stmt bound k ptr hprepare := by
    have hempty : '\x00' ∉ "".toList := by decide
    simp only [SQLite.executing] at hprepare
    split at hprepare
    · next sel conditions _ =>
      split at hprepare
      · obtain rfl := Except.ok.inj hprepare
        obtain heq | ⟨value, hvalue⟩ := @textAt_boundRun cells d sel conditions bound k ptr
        · exact heq ▸ hempty
        · exact hcells value _ hvalue
      · cases hprepare
    · obtain rfl := Except.ok.inj hprepare
      simp [Stepping.reusing, Stepping.lastText]
    · cases hprepare

theorem labels_executing (cells : Cells) (d : Database) (r : Resource) :
    (SQLite.executing cells d).Labels r.handler where
  list row hrow := by
    simp only [SQLite.executing, Database.exec, r.handler.parse_list] at hrow
    cases hselect : d.select cells r.handler.select [] with
    | error message => simp [hselect, Except.map] at hrow
    | ok rows =>
        simp only [hselect, Except.map] at hrow
        exact names_of_select cells d hselect row hrow
  view columns stmt bound hcolumns hprepare := by
    rw [prepare_select (ResourceHandler.parse_viewText r hcolumns) hprepare, boundRun, dif_neg (items_ne_nil r)]
    rfl

end

end Brainslug
