import Mathlib.Data.List.Basic

/-!
# JSON values

What a JSON reader returns. A number keeps the text `str` gives it and whether
it is zero; an object is a dictionary in the order of its keys.
-/

namespace RadiusModule.Library

inductive Json
  | null
  | bool (b : Bool)
  | number (text : String) (zero : Bool)
  | str (s : String)
  | arr (items : List Json)
  | obj (fields : List (String × Json))

namespace Json

def truthy : Json → Bool
  | null => false
  | bool b => b
  | number _ zero => !zero
  | str s => s ≠ ""
  | arr items => !items.isEmpty
  | obj fields => !fields.isEmpty

/-- `str(v)`. The text of an array or an object begins with its bracket; the rest of it is
left out. -/
def text : Json → String
  | null => "None"
  | bool true => "True"
  | bool false => "False"
  | number text _ => text
  | str s => s
  | arr _ => "["
  | obj _ => "\x7b"

def get (fields : List (String × Json)) (name : String) : Json := (fields.lookup name).getD null

end Json
end RadiusModule.Library
