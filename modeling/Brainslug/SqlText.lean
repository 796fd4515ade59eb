import Mathlib.Data.List.Basic

/-! The fragment of SQL text made of `create table if not exists`, `insert into … values` and
`select … as … from …`, with an optional conjunction of `column = ?` conditions. Text is cut into
tokens character by character, the tokens are read into a statement. Words are case sensitive and
keywords are not; a literal ends at the first quote that is not doubled. -/

namespace Sql

inductive Affinity where
  | integer
  | text
  deriving DecidableEq

/-- A stored value. A real is kept as the bits of its double. -/
inductive Value where
  | null
  | integer (i : Int)
  | real (bits : UInt64)
  | text (s : String)
  | blob (bytes : List UInt8)
  deriving DecidableEq

structure Column where
  name : String
  affinity : Affinity
  notNull : Bool
  deriving DecidableEq

structure ForeignKey where
  column : String
  parent : String
  parentColumn : String
  deriving DecidableEq

/-- What a `create table` declares: the columns, the integer primary key, the further unique keys and
the foreign keys. -/
structure Schema where
  name : String
  columns : List Column
  primaryKey : Option String
  uniques : List (List String)
  foreignKeys : List ForeignKey
  deriving DecidableEq

structure Insert where
  table : String
  columns : List String
  values : List Value
  deriving DecidableEq

structure Select where
  items : List (String × String)
  table : String
  deriving DecidableEq

inductive Statement where
  | create (schema : Schema)
  | insert (ins : Insert)
  | select (sel : Select) (conditions : List String)
  deriving DecidableEq

/-! ### Tokens -/

inductive Keyword where
  | create | table | ifWord | not | exists | integer | text | primary | key | asc | autoincrement | null
  | foreign | references | unique | insert | into | values | select | as | from | whereWord | and
  deriving DecidableEq

inductive Token where
  | kw (k : Keyword)
  | name (s : String)
  | int (n : Nat)
  | quoted (s : String)
  | sym (c : Char)
  deriving DecidableEq

def keyword : List Char → Option Keyword
  | ['c', 'r', 'e', 'a', 't', 'e'] => some .create
  | ['t', 'a', 'b', 'l', 'e'] => some .table
  | ['i', 'f'] => some .ifWord
  | ['n', 'o', 't'] => some .not
  | ['e', 'x', 'i', 's', 't', 's'] => some .exists
  | ['i', 'n', 't', 'e', 'g', 'e', 'r'] => some .integer
  | ['t', 'e', 'x', 't'] => some .text
  | ['p', 'r', 'i', 'm', 'a', 'r', 'y'] => some .primary
  | ['k', 'e', 'y'] => some .key
  | ['a', 's', 'c'] => some .asc
  | ['a', 'u', 't', 'o', 'i', 'n', 'c', 'r', 'e', 'm', 'e', 'n', 't'] => some .autoincrement
  | ['n', 'u', 'l', 'l'] => some .null
  | ['f', 'o', 'r', 'e', 'i', 'g', 'n'] => some .foreign
  | ['r', 'e', 'f', 'e', 'r', 'e', 'n', 'c', 'e', 's'] => some .references
  | ['u', 'n', 'i', 'q', 'u', 'e'] => some .unique
  | ['i', 'n', 's', 'e', 'r', 't'] => some .insert
  | ['i', 'n', 't', 'o'] => some .into
  | ['v', 'a', 'l', 'u', 'e', 's'] => some .values
  | ['s', 'e', 'l', 'e', 'c', 't'] => some .select
  | ['a', 's'] => some .as
  | ['f', 'r', 'o', 'm'] => some .from
  | ['w', 'h', 'e', 'r', 'e'] => some .whereWord
  | ['a', 'n', 'd'] => some .and
  | _ => none

/-- What the reader is inside of; the characters read so far are kept in reverse. -/
inductive LexState where
  | blank
  | word (read : List Char)
  | literal (read : List Char)
  | closing (read : List Char)

def quote : Char := Char.ofNat 39

def isWordChar (c : Char) : Bool := c.isAlphanum || c == '_'

def wordToken (read : List Char) : Token :=
  if read.all Char.isDigit then
    .int (read.reverse.foldl (fun n c => 10 * n + (c.toNat - 48)) 0)
  else
    match keyword (read.reverse.map Char.toLower) with
    | some k => .kw k
    | none => .name (String.ofList read.reverse)

/-- The token a character is by itself, and what it opens. -/
def startChar (c : Char) : List Token × LexState :=
  if c.isWhitespace then ([], .blank)
  else if isWordChar c then ([], .word [c])
  else if c == quote then ([], .literal [])
  else ([.sym c], .blank)

def lex : LexState → List Char → Option (List Token)
  | .blank, [] => some []
  | .word read, [] => some [wordToken read]
  | .literal _, [] => none
  | .closing read, [] => some [.quoted (String.ofList read.reverse)]
  | .blank, c :: cs => ((startChar c).1 ++ ·) <$> lex (startChar c).2 cs
  | .word read, c :: cs =>
      if isWordChar c then lex (.word (c :: read)) cs
      else (wordToken read :: (startChar c).1 ++ ·) <$> lex (startChar c).2 cs
  | .literal read, c :: cs =>
      if c == quote then lex (.closing read) cs else lex (.literal (c :: read)) cs
  | .closing read, c :: cs =>
      -- a doubled quote is a quote of the literal
      if c == quote then lex (.literal (c :: read)) cs
      else (.quoted (String.ofList read.reverse) :: (startChar c).1 ++ ·) <$> lex (startChar c).2 cs

/-! ### Statements -/

def parseNames : List Token → Option (List String × List Token)
  | .name c :: .sym ',' :: ts => (parseNames ts).map fun r => (c :: r.1, r.2)
  | .name c :: .sym ')' :: ts => some ([c], ts)
  | _ => none

def parseValue : Token → Option Value
  | .int n => some (.integer n)
  | .quoted s => some (.text s)
  | .kw .null => some .null
  | _ => none

def parseValues : List Token → Option (List Value × List Token)
  | t :: .sym ',' :: ts => do
      let v ← parseValue t
      let r ← parseValues ts
      return (v :: r.1, r.2)
  | t :: .sym ')' :: ts => (parseValue t).map fun v => ([v], ts)
  | _ => none

def parseItems : List Token → Option (List (String × String) × List Token)
  | .name c :: .kw .as :: .name f :: .sym ',' :: ts => (parseItems ts).map fun r => ((c, f) :: r.1, r.2)
  | .name c :: .kw .as :: .name f :: ts => some ([(c, f)], ts)
  | _ => none

def parseConditions : List Token → Option (List String)
  | .name c :: .sym '=' :: .sym '?' :: .kw .and :: ts => (parseConditions ts).map (c :: ·)
  | [.name c, .sym '=', .sym '?'] => some [c]
  | [.name c, .sym '=', .sym '?', .sym ';'] => some [c]
  | _ => none

/-- The parts of a parenthesised list, cut at the commas outside inner parentheses, and the tokens
after its end. -/
def splitList : Nat → List Token → List Token → Option (List (List Token) × List Token)
  | _, _, [] => none
  | 0, part, .sym ',' :: ts => (splitList 0 [] ts).map fun r => (part.reverse :: r.1, r.2)
  | 0, part, .sym ')' :: ts => some ([part.reverse], ts)
  | depth, part, .sym '(' :: ts => splitList (depth + 1) (.sym '(' :: part) ts
  | depth + 1, part, .sym ')' :: ts => splitList depth (.sym ')' :: part) ts
  | depth, part, t :: ts => splitList depth (t :: part) ts

def affinity : Keyword → Option Affinity
  | .integer => some .integer
  | .text => some .text
  | _ => none

/-- Add one part of a `create table` list to the schema read so far. -/
def addPart (schema : Schema) : List Token → Option Schema
  | [.name c, .kw .integer, .kw .primary, .kw .key, .kw .asc, .kw .autoincrement] =>
      some { schema with columns := schema.columns ++ [⟨c, .integer, false⟩], primaryKey := some c }
  | [.name c, .kw k, .kw .not, .kw .null] =>
      (affinity k).map fun a => { schema with columns := schema.columns ++ [⟨c, a, true⟩] }
  | [.name c, .kw k] => (affinity k).map fun a => { schema with columns := schema.columns ++ [⟨c, a, false⟩] }
  | [.kw .foreign, .kw .key, .sym '(', .name c, .sym ')', .kw .references, .name t, .sym '(', .name p, .sym ')'] =>
      some { schema with foreignKeys := schema.foreignKeys ++ [⟨c, t, p⟩] }
  | .kw .unique :: .sym '(' :: ts =>
      (parseNames ts).map fun r => { schema with uniques := schema.uniques ++ [r.1] }
  | _ => none

def parseCreate (ts : List Token) : Option Statement :=
  match ts with
  | .name t :: .sym '(' :: ts => do
      let (parts, rest) ← splitList 0 [] ts
      if rest = [.sym ';'] then
        let schema ← parts.foldlM addPart ⟨t, [], none, [], []⟩
        return .create schema
      else none
  | _ => none

def parseInsert (ts : List Token) : Option Statement :=
  match ts with
  | .name t :: .sym '(' :: ts => do
      let (columns, rest) ← parseNames ts
      match rest with
      | .kw .values :: .sym '(' :: ts =>
          let (values, rest) ← parseValues ts
          if rest = [.sym ';'] then return .insert ⟨t, columns, values⟩ else none
      | _ => none
  | _ => none

def parseSelect (ts : List Token) : Option Statement := do
  let (items, rest) ← parseItems ts
  match rest with
  | [.kw .from, .name t] => return .select ⟨items, t⟩ []
  | [.kw .from, .name t, .sym ';'] => return .select ⟨items, t⟩ []
  | .kw .from :: .name t :: .kw .whereWord :: ts =>
      let conditions ← parseConditions ts
      return .select ⟨items, t⟩ conditions
  | _ => none

def parseChars (cs : List Char) : Option Statement := do
  let ts ← lex .blank cs
  match ts with
  | .kw .create :: .kw .table :: .kw .ifWord :: .kw .not :: .kw .exists :: ts => parseCreate ts
  | .kw .insert :: .kw .into :: ts => parseInsert ts
  | .kw .select :: ts => parseSelect ts
  | _ => none

def parse (text : String) : Option Statement := parseChars text.toList

/-- A text given by its characters is read without decoding it. -/
theorem parse_ofList (cs : List Char) : parse (String.ofList cs) = parseChars cs := by
  rw [parse, String.toList_ofList]

theorem ne_of_parse {text : String} {statement : Statement} (h : parse text = some statement) : text ≠ "" := by
  intro hempty
  rw [hempty] at h
  cases h

theorem parse_append (cs cs' : List Char) :
    parse (String.ofList cs ++ String.ofList cs') = parseChars (cs ++ cs') := by
  rw [← String.ofList_append, parse_ofList]

end Sql
