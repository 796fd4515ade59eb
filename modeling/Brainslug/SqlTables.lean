import Brainslug.OfferStore
import Brainslug.SqlText
import Mathlib.Data.List.Pairwise
import Mathlib.Data.List.TakeWhile
import Mathlib.Logic.Function.Basic

/-! What the statements of the SQL fragment do to a database. A row is a tuple in the order of the
declared columns, a table keeps its rows in the order they were stored, and a scan reports them in
that order, SQL fixing none. A statement that fails leaves the database as it was. Foreign keys are
declared and not enforced, which is the library's default. -/

namespace Sql

abbrev Row := List Value

/-- How stored values are shown as text and compared with a bound text under a column affinity.
Both read NULL as nothing. -/
structure Cells where
  text : Value → Option String
  eq : Affinity → Value → String → Bool
  text_null : text .null = none
  eq_null : ∀ a s, eq a .null s = false

/-- A text as it is read through a pointer, up to the first zero. -/
def cString (s : String) : String := String.ofList (s.toList.takeWhile (· ≠ '\x00'))

def Cells.decimal : Cells where
  text
    | .integer i => some (cString (toString i))
    | .text s => some (cString s)
    | _ => none
  eq
    | _, .integer i, s => toString i == s
    | _, .text t, s => t == s
    | _, _, _ => false
  text_null := rfl
  eq_null _ _ := rfl

theorem Cells.noZero_decimal (value : Value) : ∀ text ∈ Cells.decimal.text value, '\x00' ∉ text.toList := by
  have hcString : ∀ s, '\x00' ∉ (cString s).toList := by
    intro s hmem
    rw [cString, String.toList_ofList] at hmem
    simpa using List.mem_takeWhile_imp hmem
  intro text htext
  cases value with
  | integer i =>
      obtain rfl := Option.some.inj htext
      exact hcString _
  | text s =>
      obtain rfl := Option.some.inj htext
      exact hcString s
  | _ => cases htext

def Value.isInteger : Value → Bool
  | .integer _ => true
  | _ => false

namespace Schema

variable (s : Schema)

def names : List String := s.columns.map Column.name

def cell (row : Row) (column : String) : Value := ((s.names.zip row).lookup column).getD .null

def affinityOf (column : String) : Affinity :=
  ((s.columns.find? fun c => c.name == column).map Column.affinity).getD .text

/-- The columns of each declared key: the primary key, then the `unique` lists. -/
def keys : List (List String) := s.primaryKey.toList.map (fun c => [c]) ++ s.uniques

/-- A row has a value for each column, none missing where NULL is excluded, and an integer key. -/
def Fits (row : Row) : Prop :=
  row.length = s.columns.length ∧ (∀ c ∈ s.columns, c.notNull = true → s.cell row c.name ≠ .null) ∧
    ∀ c ∈ s.primaryKey.toList, (s.cell row c).isInteger = true

/-- Two rows agree, without NULL, on all columns of some key. -/
def Clash (old new : Row) : Prop :=
  ∃ key ∈ s.keys, ∀ c ∈ key, s.cell old c ≠ .null ∧ s.cell old c = s.cell new c

instance (row : Row) : Decidable (s.Fits row) := by unfold Fits; infer_instance

instance : DecidableRel s.Clash := fun old new => by unfold Clash; infer_instance

/-- The row an `insert` describes: its values in the named columns, NULL in the others. -/
def rowOf (ins : Insert) : Row :=
  s.columns.map fun c => ((ins.columns.zip ins.values).lookup c.name).getD .null

/-- The `insert` names columns of the table, one value each, and describes a row that fits. -/
def Accepts (ins : Insert) : Prop :=
  (∀ c ∈ ins.columns, c ∈ s.names) ∧ ins.columns.length = ins.values.length ∧ s.Fits (s.rowOf ins)

instance (ins : Insert) : Decidable (s.Accepts ins) := by unfold Accepts; infer_instance

variable (cells : Cells)

/-- All the `column = value` conditions hold of a row. -/
def Holds (conditions : List (String × String)) (row : Row) : Prop :=
  ∀ c ∈ conditions, cells.eq (s.affinityOf c.1) (s.cell row c.1) c.2 = true

instance (conditions : List (String × String)) : DecidablePred (s.Holds cells conditions) :=
  fun row => by unfold Holds; infer_instance

def project (sel : Select) (row : Row) : List (String × Option String) :=
  sel.items.map fun item => (item.2, cells.text (s.cell row item.1))

theorem clash_symm {old new : Row} (h : s.Clash old new) : s.Clash new old := by
  obtain ⟨key, hkey, hagree⟩ := h
  refine ⟨key, hkey, fun c hc => ?_⟩
  obtain ⟨hnull, heq⟩ := hagree c hc
  exact ⟨fun hnew => hnull (heq.trans hnew), heq.symm⟩

theorem clash_self {row : Row} (hkey : s.primaryKey.isSome = true) (hfits : s.Fits row) :
    s.Clash row row := by
  obtain ⟨key, hkey⟩ := Option.isSome_iff_exists.mp hkey
  refine ⟨[key], by simp [keys, hkey], fun c hc => ⟨fun hnull => ?_, rfl⟩⟩
  rw [List.mem_singleton] at hc
  have hint := hfits.2.2 c (by simp [hkey, hc])
  rw [hnull] at hint
  cases hint

end Schema

structure Table where
  schema : Schema
  rows : List Row

namespace Table

/-- The declared not-null, primary-key and unique constraints hold of the rows. -/
structure Consistent (t : Table) : Prop where
  fits : ∀ row ∈ t.rows, t.schema.Fits row
  distinct : t.rows.Pairwise fun old new => ¬t.schema.Clash old new

instance (t : Table) : Decidable t.Consistent :=
  decidable_of_iff
    ((∀ row ∈ t.rows, t.schema.Fits row) ∧ t.rows.Pairwise fun old new => ¬t.schema.Clash old new)
    ⟨fun h => ⟨h.1, h.2⟩, fun h => ⟨h.fits, h.distinct⟩⟩

def offer (t : Table) (rows : List Row) : Table := { t with rows := Offer.offerAll t.schema.Clash t.rows rows }

theorem offer_offer (t : Table) (rows rows' : List Row) : (t.offer rows).offer rows' = t.offer (rows ++ rows') := by
  unfold offer Offer.offerAll
  rw [List.foldl_append]

theorem Consistent.eq_of_primaryKey {t : Table} (h : t.Consistent) {column : String}
    (hkey : t.schema.primaryKey = some column) {row row' : Row} (hrow : row ∈ t.rows) (hrow' : row' ∈ t.rows)
    (heq : t.schema.cell row column = t.schema.cell row' column) : row = row' := by
  have hnull : t.schema.cell row column ≠ .null := by
    intro hnull
    have hint := (h.fits row hrow).2.2 column (by simp [hkey])
    rw [hnull] at hint
    cases hint
  have hclash : t.schema.Clash row row' := by
    refine ⟨[column], by simp [Schema.keys, hkey], fun c hc => ?_⟩
    rw [List.mem_singleton] at hc
    subst hc
    exact ⟨hnull, heq⟩
  have hsymm : Std.Symm fun old new => ¬t.schema.Clash old new := ⟨fun _ _ hab hba => hab (t.schema.clash_symm hba)⟩
  by_contra hne
  exact h.distinct.forall hrow hrow' hne hclash

theorem Consistent.offer {t : Table} (h : t.Consistent) {rows : List Row} (hfits : ∀ row ∈ rows, t.schema.Fits row) :
    (t.offer rows).Consistent where
  fits := Offer.forall_mem_offerAll t.schema.Clash h.fits hfits
  distinct := Offer.pairwise_offerAll t.schema.Clash h.distinct

end Table

/-- The tables of a file that statements created, by their names. -/
abbrev Database := String → Option Table

namespace Database

/-- `create table if not exists`. -/
def create (d : Database) (schema : Schema) : Database :=
  match d schema.name with
  | some _ => d
  | none => Function.update d schema.name (some ⟨schema, []⟩)

/-- `insert into`. The texts of the failures are the library's. -/
def insert (d : Database) (ins : Insert) : Except String Database :=
  match d ins.table with
  | none => .error ("no such table: " ++ ins.table)
  | some t =>
      if t.schema.Accepts ins then
        if Offer.Blocked t.schema.Clash t.rows (t.schema.rowOf ins) then
          .error "column is not unique"
        else .ok (Function.update d ins.table (some { t with rows := t.rows ++ [t.schema.rowOf ins] }))
      else .error "constraint failed"

/-- `select … from … where …`: the reported fields of the rows that meet the conditions. -/
def select (cells : Cells) (d : Database) (sel : Select) (conditions : List (String × String)) :
    Except String (List (List (String × Option String))) :=
  match d sel.table with
  | none => .error ("no such table: " ++ sel.table)
  | some t =>
      if ∀ c ∈ sel.items.map Prod.fst ++ conditions.map Prod.fst, c ∈ t.schema.names then
        .ok ((t.rows.filter (t.schema.Holds cells conditions)).map (t.schema.project cells sel))
      else .error "no such column"

/-- Execute a text without bound values: the database afterwards and the rows reported. -/
def exec (cells : Cells) (d : Database) (text : String) :
    Except String (Database × List (List (String × Option String))) :=
  match parse text with
  | some (.create schema) => .ok (d.create schema, [])
  | some (.insert ins) => (d.insert ins).map fun d' => (d', [])
  | some (.select sel []) => (d.select cells sel []).map fun rows => (d, rows)
  -- an unbound parameter is NULL, and no value equals NULL
  | some (.select sel (_ :: _)) => (d.select cells sel []).map fun _ => (d, [])
  | none => .error "syntax error"

def after (cells : Cells) (d : Database) (text : String) : Database :=
  match d.exec cells text with
  | .ok r => r.1
  | .error _ => d

def afterInsert (d : Database) (ins : Insert) : Database :=
  match d.insert ins with
  | .ok d' => d'
  | .error _ => d

theorem after_create {cells : Cells} {d : Database} {text : String} {schema : Schema}
    (h : parse text = some (.create schema)) : d.after cells text = d.create schema := by
  simp only [after, exec, h]

theorem after_insert {cells : Cells} {d : Database} {text : String} {ins : Insert}
    (h : parse text = some (.insert ins)) : d.after cells text = d.afterInsert ins := by
  simp only [after, exec, h, afterInsert]
  cases d.insert ins <;> rfl

theorem create_self (d : Database) (schema : Schema) :
    d.create schema schema.name = some ((d schema.name).getD ⟨schema, []⟩) := by
  cases h : d schema.name with
  | some t => simp only [create, h, Option.getD_some]
  | none => simp only [create, h, Function.update_self, Option.getD_none]

theorem create_of_ne {d : Database} {schema : Schema} {n : String} (hn : n ≠ schema.name) :
    d.create schema n = d n := by
  cases h : d schema.name with
  | some t => simp only [create, h]
  | none => simp only [create, h, Function.update_of_ne hn]

/-- **One insert.** A table that accepts the insert is offered its row, any other table is unchanged. -/
theorem afterInsert_self {d : Database} {ins : Insert} {t : Table} (ht : d ins.table = some t)
    (haccepts : t.schema.Accepts ins) : d.afterInsert ins ins.table = some (t.offer [t.schema.rowOf ins]) := by
  by_cases hb : Offer.Blocked t.schema.Clash t.rows (t.schema.rowOf ins)
  · simp only [afterInsert, insert, ht, if_pos haccepts, if_pos hb, Table.offer, Offer.offerAll_cons,
      Offer.offerAll_nil, Offer.offer_of_blocked _ hb]
  · simp only [afterInsert, insert, ht, if_pos haccepts, if_neg hb, Table.offer, Offer.offerAll_cons,
      Offer.offerAll_nil, Offer.offer_of_free _ hb, Function.update_self]

theorem afterInsert_of_ne {d : Database} {ins : Insert} {n : String} (hn : n ≠ ins.table) :
    d.afterInsert ins n = d n := by
  simp only [afterInsert, insert]
  cases d ins.table with
  | none => rfl
  | some t =>
      dsimp only
      split_ifs
      · rfl
      · exact Function.update_of_ne hn _ _
      · rfl

/-- **Many inserts.** Each table is offered the rows addressed to it, in order. -/
theorem foldl_afterInsert {d : Database} {inserts : List Insert} {n : String} {t : Table} (ht : d n = some t)
    (haccepts : ∀ ins ∈ inserts, ins.table = n → t.schema.Accepts ins) :
    inserts.foldl afterInsert d n =
      some (t.offer ((inserts.filter (·.table = n)).map t.schema.rowOf)) := by
  induction inserts generalizing d t with
  | nil => exact ht
  | cons ins inserts ih =>
      rw [List.foldl_cons]
      by_cases hn : ins.table = n
      · subst hn
        rw [ih (afterInsert_self ht (haccepts ins List.mem_cons_self rfl))
          (fun ins' hins' => haccepts ins' (List.mem_cons_of_mem _ hins')), Table.offer_offer]
        simp [Table.offer]
      · rw [ih (by rw [afterInsert_of_ne (Ne.symm hn), ht])
          (fun ins' hins' => haccepts ins' (List.mem_cons_of_mem _ hins'))]
        simp [hn]

theorem foldl_afterInsert_of_ne {d : Database} {inserts : List Insert} {n : String}
    (hn : ∀ ins ∈ inserts, n ≠ ins.table) : inserts.foldl afterInsert d n = d n := by
  induction inserts generalizing d with
  | nil => rfl
  | cons ins inserts ih =>
      rw [List.foldl_cons, ih fun ins' hins' => hn ins' (List.mem_cons_of_mem _ hins'),
        afterInsert_of_ne (hn ins List.mem_cons_self)]

end Database

end Sql
