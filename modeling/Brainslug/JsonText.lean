import Brainslug.Cursor
import Brainslug.Elements

/-! JSON documents as the cajun library prints and reads them. A character of a text stands for a byte of the
source's strings. How a number is printed and read is left to the C++ library. -/

namespace Brainslug.Json

/-- How a stream prints a double to 20 digits, and what it reads from a text: nothing, if characters remain. -/
structure NumberFormat where
  print : UInt64 → String
  read : String → Option UInt64

def wholeNumberTexts : List (UInt64 × String) :=
  [(0x0000000000000000, "0"), (0x3ff0000000000000, "1"), (0x4000000000000000, "2")]

/-- As far as the doubles 0, 1 and 2 go. -/
def NumberFormat.wholeNumbers : NumberFormat where
  print bits := ((wholeNumberTexts.find? fun entry => entry.1 == bits).map Prod.snd).getD "nan"
  read text := (wholeNumberTexts.find? fun entry => entry.2 == text).map Prod.fst

/-! ### `Writer` -/

namespace Writer

/-- One character of a string. -/
def escape : Char → List Char
  | '"' => ['\\', '"']
  | '\\' => ['\\', '\\']
  | '\x08' => ['\\', 'b']
  | '\x0c' => ['\\', 'f']
  | '\n' => ['\\', 'n']
  | '\r' => ['\\', 'r']
  | '\t' => ['\\', 't']
  | c => [c]

def writeString (s : String) : List Char := '"' :: s.toList.flatMap escape ++ ['"']

def writeBoolean (b : Bool) : List Char := (if b then "true" else "false").toList

def writeNull : List Char := "null".toList

def tabs (depth : Nat) : List Char := List.replicate depth '\t'

variable (format : NumberFormat)

mutual

def writeElement (depth : Nat) : UnknownElement → List Char
  | .object [] => "{}".toList
  | .object (member :: members) =>
      '{' :: '\n' :: writeMembers (depth + 1) (member :: members) ++ tabs depth ++ ['}']
  | .array [] => "[]".toList
  | .array (element :: elements) =>
      '[' :: '\n' :: writeElements (depth + 1) (element :: elements) ++ tabs depth ++ [']']
  | .number bits => (format.print bits).toList
  | .boolean b => writeBoolean b
  | .string s => writeString s
  | .null => writeNull

/-- The loop over the members; a name is printed as it is. -/
def writeMembers (depth : Nat) : List (String × UnknownElement) → List Char
  | [] => []
  | (name, element) :: members =>
      tabs depth ++ '"' :: name.toList ++ "\" : ".toList ++ writeElement depth element ++
        (if members.isEmpty then [] else [',']) ++ '\n' :: writeMembers depth members

def writeElements (depth : Nat) : List UnknownElement → List Char
  | [] => []
  | element :: elements =>
      tabs depth ++ writeElement depth element ++ (if elements.isEmpty then [] else [',']) ++
        '\n' :: writeElements depth elements

end

/-- `Write`. -/
def write (element : UnknownElement) : List Char := writeElement format 0 element

end Writer

/-! ### `Reader` -/

namespace Reader

/-- The counters are of type `unsigned int`. -/
structure Location where
  line : UInt32
  lineOffset : UInt32
  docOffset : UInt32
  deriving DecidableEq

/-- What `Get` does to the location. -/
def Location.advance (loc : Location) (c : Char) : Location :=
  if c = '\n' then ⟨loc.line + 1, 0, loc.docOffset + 1⟩ else ⟨loc.line, loc.lineOffset + 1, loc.docOffset + 1⟩

def Location.start : Location := ⟨0, 0, 0⟩

abbrev InputStream := Cursor Char Location

inductive TokenType where
  | objectBegin
  | objectEnd
  | arrayBegin
  | arrayEnd
  | nextElement
  | memberAssign
  | string
  | number
  | boolean
  | null
  deriving DecidableEq

structure Token where
  nType : TokenType
  sValue : String
  locBegin : Location
  locEnd : Location
  deriving DecidableEq

/-- How reading can fail. The messages of two exceptions are a literal from whose start a character code too
many is counted, so they are not known; `Peek` on no token is a failed assertion. -/
inductive Failure where
  | scan (message : String) (locError : Location)
  | escape (locError : Location)
  | parse (message : String) (locTokenBegin locTokenEnd : Location)
  | number (locTokenBegin locTokenEnd : Location)
  | assertion
  | outOfFuel
  deriving DecidableEq

def get (s : InputStream) : Option (Char × InputStream) := s.next Location.advance

/-- `::isspace`. -/
def isspace (c : Char) : Bool := c ∈ [' ', '\t', '\n', '\x0b', '\x0c', '\r']

def eatWhiteSpace (s : InputStream) : InputStream := (s.takeWhile Location.advance isspace).2

/-- The loop of `MatchExpectedString`. -/
def matchChars (sExpected : String) : List Char → InputStream → Except Failure InputStream
  | [], s => .ok s
  | c :: expected, s =>
      match get s with
      | none => .error (.scan ("Expected string: " ++ sExpected) s.position)
      | some (c', s') =>
          if c' = c then matchChars sExpected expected s'
          else .error (.scan ("Expected string: " ++ sExpected) s'.position)

def matchExpectedString (sExpected : String) (s : InputStream) : Except Failure InputStream :=
  matchChars sExpected sExpected.toList s

/-- The character after a backslash. -/
def unescape : Char → Option Char
  | '/' => some '/'
  | '"' => some '"'
  | '\\' => some '\\'
  | 'b' => some '\x08'
  | 'f' => some '\x0c'
  | 'n' => some '\n'
  | 'r' => some '\r'
  | 't' => some '\t'
  | _ => none

/-- The loop of `MatchString`: up to a quote, which stays. -/
def stringChars : List Char → Location → Except Failure (List Char × InputStream)
  | [], loc => .ok ([], ⟨[], loc⟩)
  | '"' :: rest, loc => .ok ([], ⟨'"' :: rest, loc⟩)
  | '\\' :: c :: rest, loc =>
      match unescape c with
      | some c' => do
          let (chars, s) ← stringChars rest ((loc.advance '\\').advance c)
          return (c' :: chars, s)
      | none => .error (.escape ((loc.advance '\\').advance c))
  | c :: rest, loc => do
      let (chars, s) ← stringChars rest (loc.advance c)
      return (c :: chars, s)

def matchString (s : InputStream) : Except Failure (String × InputStream) := do
  let s ← matchExpectedString "\"" s
  let (chars, s) ← stringChars s.rest s.position
  let s ← matchExpectedString "\"" s
  return (String.ofList chars, s)

/-- The set is built from the array with its terminating zero. -/
def numericChars : List Char := "0123456789.eE-+".toList ++ ['\x00']

def matchNumber (s : InputStream) : String × InputStream :=
  let (chars, s) := s.takeWhile Location.advance fun c => c ∈ numericChars
  (String.ofList chars, s)

/-- A token with a fixed text. -/
def fixedToken (nType : TokenType) (sValue : String) (s : InputStream) :
    Except Failure (TokenType × String × InputStream) := do
  let s ← matchExpectedString sValue s
  return (nType, sValue, s)

def stringToken (s : InputStream) : Except Failure (TokenType × String × InputStream) := do
  let (sValue, s) ← matchString s
  return (.string, sValue, s)

def numberToken (s : InputStream) : Except Failure (TokenType × String × InputStream) := .ok (.number, matchNumber s)

/-- One turn of the loop of `Scan`, on a stream whose next character is `c`. -/
def scanToken (c : Char) (s : InputStream) : Except Failure (TokenType × String × InputStream) :=
  match c with
  | '{' => fixedToken .objectBegin "\x7b" s
  | '}' => fixedToken .objectEnd "\x7d" s
  | '[' => fixedToken .arrayBegin "[" s
  | ']' => fixedToken .arrayEnd "]" s
  | ',' => fixedToken .nextElement "," s
  | ':' => fixedToken .memberAssign ":" s
  | '"' => stringToken s
  | '-' | '0' | '1' | '2' | '3' | '4' | '5' | '6' | '7' | '8' | '9' => numberToken s
  | 't' => fixedToken .boolean "true" s
  | 'f' => fixedToken .boolean "false" s
  | 'n' => fixedToken .null "null" s
  | c => .error (.scan ("Unexpected character in stream: " ++ c.toString) s.position)

end Reader

end Brainslug.Json
