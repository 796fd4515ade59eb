import Brainslug.AssocUpdate

/-! The JSON elements of the cajun library, as far as the backend uses them: heterogeneous elements,
objects that keep their members in insertion order, and the casts between an element and its type.
The const operators throw on a miss; the non-const ones insert or convert instead. -/

namespace Brainslug.Json

/-- `UnknownElement`. A number is kept as the bits of its double. -/
inductive UnknownElement where
  | object (members : List (String × UnknownElement))
  | array (elements : List UnknownElement)
  | number (bits : UInt64)
  | boolean (b : Bool)
  | string (s : String)
  | null

abbrev Object := List (String × UnknownElement)

structure Exception where
  message : String
  deriving DecidableEq

namespace Object

/-- `UnknownElement& operator[]`: a missing member is inserted at the end, as null. -/
def ensure (o : Object) (name : String) : Object := Assoc.ensure name .null o

/-- `object[name] = element`. -/
def set (o : Object) (name : String) (element : UnknownElement) : Object :=
  Assoc.overwrite name element (ensure o name)

/-- `const UnknownElement& operator[] const`. -/
def get (o : Object) (name : String) : Except Exception UnknownElement :=
  match o.lookup name with
  | some element => .ok element
  | none => .error ⟨"Object member not found: " ++ name⟩

theorem set_eq_assign (o : Object) (name : String) (element : UnknownElement) :
    set o name element = Assoc.assign o name element :=
  Assoc.overwrite_ensure name element .null o

end Object

namespace UnknownElement

/-- `operator const Object& () const`. -/
def castToObject : UnknownElement → Except Exception Object
  | .object members => .ok members
  | _ => .error ⟨"Bad cast"⟩

/-- `operator const String& () const`. -/
def castToString : UnknownElement → Except Exception String
  | .string s => .ok s
  | _ => .error ⟨"Bad cast"⟩

/-- `operator Array& ()`: an element of another type becomes an empty array. -/
def convertToArray : UnknownElement → List UnknownElement
  | .array elements => elements
  | _ => []

end UnknownElement

end Brainslug.Json
