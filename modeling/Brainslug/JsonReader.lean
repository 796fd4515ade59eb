import Brainslug.JsonScan

/-! `Reader::Parse`, by recursive descent over the tokens, and the grammar that it decides: it returns exactly
the elements that a front part of the tokens spells and whose objects have no name twice. -/

namespace Brainslug.Json

/-- `Object::Insert`. -/
def Object.insert (o : Object) (name : String) (element : UnknownElement) : Except Exception Object :=
  if name ∈ o.map Prod.fst then .error ⟨"Object member already exists: " ++ name⟩ else .ok (o ++ [(name, element)])

mutual

/-- No object has a name twice. -/
def UnknownElement.WellFormed : UnknownElement → Prop
  | .object members => (members.map Prod.fst).Nodup ∧ membersWellFormed members
  | .array elements => elementsWellFormed elements
  | _ => True

def membersWellFormed : List (String × UnknownElement) → Prop
  | [] => True
  | (_, element) :: members => element.WellFormed ∧ membersWellFormed members

def elementsWellFormed : List UnknownElement → Prop
  | [] => True
  | element :: elements => element.WellFormed ∧ elementsWellFormed elements

end

namespace Reader

abbrev TokenStream := List Token

def matchExpectedToken (nExpected : TokenType) : TokenStream → Except Failure (String × TokenStream)
  | [] => .error (.parse "Unexpected End of token stream" .start .start)
  | token :: rest =>
      if token.nType = nExpected then .ok (token.sValue, rest)
      else .error (.parse ("Unexpected token: " ++ token.sValue) token.locBegin token.locEnd)

/-- `tokenStream.EOS() == false && tokenStream.Peek().nType == nType`. -/
def nextIs (nType : TokenType) (tokens : TokenStream) : Bool := tokens.head?.any fun token => token.nType = nType

/-- `tokenStream.EOS() == false && tokenStream.Peek().nType != nType`. -/
def nextIsNot (nType : TokenType) (tokens : TokenStream) : Bool := tokens.head?.any fun token => token.nType ≠ nType

variable (format : NumberFormat)

def parseNumber : TokenStream → Except Failure (UInt64 × TokenStream)
  | [] => .error .assertion
  | currentToken :: rest => do
      let (sValue, tokens) ← matchExpectedToken .number (currentToken :: rest)
      match format.read sValue with
      | some bits => return (bits, tokens)
      | none => .error (.number currentToken.locBegin currentToken.locEnd)

mutual

def parseElement : Nat → TokenStream → Except Failure (UnknownElement × TokenStream)
  | 0, _ => .error .outOfFuel
  | _ + 1, [] => .error (.parse "Unexpected end of token stream" .start .start)
  | fuel + 1, token :: rest =>
      match token.nType with
      | .objectBegin => do
          let (object, tokens) ← parseObject fuel [] (token :: rest)
          return (.object object, tokens)
      | .arrayBegin => do
          let (array, tokens) ← parseArray fuel (token :: rest)
          return (.array array, tokens)
      | .string => do
          let (sValue, tokens) ← matchExpectedToken .string (token :: rest)
          return (.string sValue, tokens)
      | .number => do
          let (bits, tokens) ← parseNumber format (token :: rest)
          return (.number bits, tokens)
      | .boolean => do
          let (sValue, tokens) ← matchExpectedToken .boolean (token :: rest)
          return (.boolean (sValue == "true"), tokens)
      | .null => do
          let (_, tokens) ← matchExpectedToken .null (token :: rest)
          return (.null, tokens)
      | _ => .error (.parse ("Unexpected token: " ++ token.sValue) token.locBegin token.locEnd)

def parseObject : Nat → Object → TokenStream → Except Failure (Object × TokenStream)
  | 0, _, _ => .error .outOfFuel
  | fuel + 1, object, tokens => do
      let (_, tokens) ← matchExpectedToken .objectBegin tokens
      let (object, tokens) ←
        (if nextIsNot .objectEnd tokens then parseMembers fuel object tokens else .ok (object, tokens))
      let (_, tokens) ← matchExpectedToken .objectEnd tokens
      return (object, tokens)

/-- The loop over the members. It peeks at the token of the name before it looks whether there is one. -/
def parseMembers : Nat → Object → TokenStream → Except Failure (Object × TokenStream)
  | 0, _, _ => .error .outOfFuel
  | _ + 1, _, [] => .error .assertion
  | fuel + 1, object, tokenName :: rest => do
      let (name, tokens) ← matchExpectedToken .string (tokenName :: rest)
      let (_, tokens) ← matchExpectedToken .memberAssign tokens
      let (element, tokens) ← parseElement fuel tokens
      match Object.insert object name element with
      | .error _ =>
          .error (.parse ("Duplicate object member token: " ++ name) tokenName.locBegin tokenName.locEnd)
      | .ok object =>
          if nextIs .nextElement tokens then do
            let (_, tokens) ← matchExpectedToken .nextElement tokens
            parseMembers fuel object tokens
          else return (object, tokens)

def parseArray : Nat → TokenStream → Except Failure (List UnknownElement × TokenStream)
  | 0, _ => .error .outOfFuel
  | fuel + 1, tokens => do
      let (_, tokens) ← matchExpectedToken .arrayBegin tokens
      let (array, tokens) ← (if nextIsNot .arrayEnd tokens then parseElements fuel [] tokens else .ok ([], tokens))
      let (_, tokens) ← matchExpectedToken .arrayEnd tokens
      return (array, tokens)

/-- The loop over the elements. -/
def parseElements : Nat → List UnknownElement → TokenStream → Except Failure (List UnknownElement × TokenStream)
  | 0, _, _ => .error .outOfFuel
  | fuel + 1, array, tokens => do
      let (element, tokens) ← parseElement fuel tokens
      let array := array ++ [element]
      if nextIs .nextElement tokens then do
        let (_, tokens) ← matchExpectedToken .nextElement tokens
        parseElements fuel array tokens
      else return (array, tokens)

end

/-- Enough for any stream of this many tokens. -/
def fuelFor (tokens : TokenStream) : Nat := 3 * tokens.length + 1

/-- What follows the parsing in `Read_i`. -/
def expectEnd {α : Type} (parsed : α × TokenStream) : Except Failure α :=
  match parsed.2 with
  | [] => .ok parsed.1
  | token :: _ =>
      .error (.parse ("Expected End of token stream; found " ++ token.sValue) token.locBegin token.locEnd)

def read (text : List Char) : Except Failure UnknownElement := do
  let tokens ← scan ⟨text, .start⟩
  let parsed ← parseElement format (fuelFor tokens) tokens
  expectEnd parsed

/-- `Read(Object&, std::istream&)`. -/
def readObject (object : Object) (text : List Char) : Except Failure Object := do
  let tokens ← scan ⟨text, .start⟩
  let parsed ← parseObject format (fuelFor tokens) object tokens
  expectEnd parsed

/-! ### The grammar -/

mutual

/-- The tokens spell the element. -/
inductive Spells : UnknownElement → List Token → Prop where
  | emptyObject {first last : Token} (hfirst : first.nType = .objectBegin) (hlast : last.nType = .objectEnd) :
      Spells (.object []) [first, last]
  | object {first last : Token} {members : List (String × UnknownElement)} {tokens : List Token}
      (hfirst : first.nType = .objectBegin) (h : SpellsMembers members tokens) (hlast : last.nType = .objectEnd) :
      Spells (.object members) (first :: (tokens ++ [last]))
  | emptyArray {first last : Token} (hfirst : first.nType = .arrayBegin) (hlast : last.nType = .arrayEnd) :
      Spells (.array []) [first, last]
  | array {first last : Token} {elements : List UnknownElement} {tokens : List Token}
      (hfirst : first.nType = .arrayBegin) (h : SpellsElements elements tokens) (hlast : last.nType = .arrayEnd) :
      Spells (.array elements) (first :: (tokens ++ [last]))
  | string {token : Token} (htoken : token.nType = .string) : Spells (.string token.sValue) [token]
  | number {token : Token} {bits : UInt64} (htoken : token.nType = .number)
      (hread : format.read token.sValue = some bits) : Spells (.number bits) [token]
  | boolean {token : Token} (htoken : token.nType = .boolean) : Spells (.boolean (token.sValue == "true")) [token]
  | null {token : Token} (htoken : token.nType = .null) : Spells .null [token]

/-- One member or several, with commas in between. -/
inductive SpellsMembers : List (String × UnknownElement) → List Token → Prop where
  | last {name assign : Token} {element : UnknownElement} {tokens : List Token} (hname : name.nType = .string)
      (hassign : assign.nType = .memberAssign) (h : Spells element tokens) :
      SpellsMembers [(name.sValue, element)] (name :: assign :: tokens)
  | cons {name assign comma : Token} {element : UnknownElement} {members : List (String × UnknownElement)}
      {tokens tokens' : List Token} (hname : name.nType = .string) (hassign : assign.nType = .memberAssign)
      (h : Spells element tokens) (hcomma : comma.nType = .nextElement) (hmembers : SpellsMembers members tokens') :
      SpellsMembers ((name.sValue, element) :: members) (name :: assign :: (tokens ++ comma :: tokens'))

inductive SpellsElements : List UnknownElement → List Token → Prop where
  | last {element : UnknownElement} {tokens : List Token} (h : Spells element tokens) :
      SpellsElements [element] tokens
  | cons {comma : Token} {element : UnknownElement} {elements : List UnknownElement} {tokens tokens' : List Token}
      (h : Spells element tokens) (hcomma : comma.nType = .nextElement) (helements : SpellsElements elements tokens') :
      SpellsElements (element :: elements) (tokens ++ comma :: tokens')

end

end Reader

end Brainslug.Json
