import Mathlib.Tactic

/-!
JSON documents as they are after parsing, and the accessors a reader picks them
apart with. An accessor asked of the wrong kind of value finds nothing.
-/

namespace HerdrWebui

/-- `serde_json::Value`. A number is kept as it is printed. -/
inductive Json where
  | null
  | bool (b : Bool)
  | number (repr : String)
  | string (s : String)
  | array (items : List Json)
  | object (fields : List (String × Json))

/-- `serde_json::Map`. -/
abbrev JsonMap := List (String × Json)

namespace Json

def asStr : Json → Option String
  | .string s => some s
  | _ => none

def asArray : Json → Option (List Json)
  | .array items => some items
  | _ => none

def asObject : Json → Option JsonMap
  | .object fields => some fields
  | _ => none

/-- `Value::get` with a key. -/
def get (v : Json) (key : String) : Option Json := v.asObject.bind (List.lookup key)

def getStr (v : Json) (key : String) : Option String := (v.get key).bind asStr

end Json

def JsonMap.getStr (fields : JsonMap) (key : String) : Option String :=
  (List.lookup key fields).bind Json.asStr

end HerdrWebui
