import RunBoard.Number.Binary64

namespace RunBoard

inductive Json where
  | null
  | bool (value : Bool)
  | int (value : Int)
  | num (value : Binary64)
  | str (value : String)
  | arr (items : List Json)
  | obj (fields : List (String × Json))
  deriving Inhabited

namespace Json

def field? (name : String) : Json → Option Json
  | obj fields => fields.lookup name
  | _ => none

/-- Sets a field: in its place when the name is known, at the end otherwise. -/
def setField (fields : List (String × Json)) (name : String) (value : Json) :
    List (String × Json) :=
  if fields.any (·.1 == name) then
    fields.map fun entry => if entry.1 == name then (name, value) else entry
  else fields ++ [(name, value)]

def ofMembers (members : List (String × Json)) : Json :=
  obj (members.foldl (fun fields entry => setField fields entry.1 entry.2) [])

mutual

def mapNumbers (change : Binary64 → Json) : Json → Json
  | num x => change x
  | arr items => arr (mapItems change items)
  | obj fields => obj (mapFields change fields)
  | null => null
  | bool b => bool b
  | int n => int n
  | str s => str s

def mapItems (change : Binary64 → Json) : List Json → List Json
  | [] => []
  | item :: rest => item.mapNumbers change :: mapItems change rest

def mapFields (change : Binary64 → Json) : List (String × Json) → List (String × Json)
  | [] => []
  | (name, value) :: rest => (name, value.mapNumbers change) :: mapFields change rest

end

/-- JSON has no infinities and no NaN; they become `null`. -/
def withoutNonFinite : Json → Json :=
  mapNumbers fun x => if x.isFinite then num x else null

end Json

end RunBoard
