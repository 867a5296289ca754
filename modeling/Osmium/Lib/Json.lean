import Osmium.Lib.Order

/-! JSON values as a parser hands them on. Of a number only its reading as an unsigned integer is
kept. -/

open Machine Bytes

inductive Json
  | null
  | bool (value : Bool)
  | number (unsigned : Option U64)
  | string (value : Text)
  | array (items : List Json)
  | object (fields : List (Text × Json))

namespace Json

def asObject : Json → Option (List (Text × Json))
  | .object fields => some fields
  | _ => none

def asArray : Json → Option (List Json)
  | .array items => some items
  | _ => none

def asString : Json → Option Text
  | .string value => some value
  | _ => none

def asUnsigned : Json → Option U64
  | .number unsigned => unsigned
  | _ => none

def asBool : Json → Option Bool
  | .bool value => some value
  | _ => none

/-- The value of a field, if this is an object that has it. -/
def get? (self : Json) (field : Text) : Option Json :=
  self.asObject.bind fun fields => fields.lookup field

@[simp] theorem asArray_array (items : List Json) : (array items).asArray = some items := rfl

@[simp] theorem asString_string (value : Text) : (string value).asString = some value := rfl

@[simp] theorem asUnsigned_number (unsigned : Option U64) :
    (number unsigned).asUnsigned = unsigned := rfl

@[simp] theorem asBool_bool (value : Bool) : (bool value).asBool = some value := rfl

end Json
