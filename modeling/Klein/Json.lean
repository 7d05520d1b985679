import Klein.Dict

/-! JSON values as `json.loads` gives them. A number that is not an integer keeps its
text, and an object the items that its text lists. -/
namespace Klein

inductive Json where
  | null
  | bool (value : Bool)
  | int (value : Int)
  | float (literal : String)
  | text (value : String)
  | list (items : List Json)
  | object (entries : List (String × Json))

namespace Json

def mapping? : Json → Option (Dict String Json)
  | .object entries => some (Dict.ofList entries)
  | _ => none

def isText : Json → Bool
  | .text _ => true
  | _ => false

end Json
end Klein
