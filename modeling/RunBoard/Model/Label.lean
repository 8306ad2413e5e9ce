import RunBoard.Json.Record

namespace RunBoard

structure Label where
  key : String
  value : String
  deriving DecidableEq, Inhabited

instance : JsonForm Label where
  encode label := .obj [("key", encode label.key), ("value", encode label.value)]
  decode? j := do
    let [key, value] ← j.record? ["key", "value"] | none
    return { key := ← Json.required? key, value := ← Json.required? value }

inductive TagOwner where
  | run (uuid : String)
  | experiment (id : String)
  deriving DecidableEq, Inhabited

def TagOwner.kind? (owner : Json) (kind : Json) : Option String :=
  match owner, kind with
  | .arr _, .str word => some word
  | .arr _, _ => none
  | _, kind => kind.alternative?

instance : JsonForm TagOwner where
  encode
    | .run uuid => .obj [("kind", .str "run"), ("id", encode uuid)]
    | .experiment id => .obj [("kind", .str "experiment"), ("id", encode id)]
  decode? j := do
    let [kind, id] ← j.record? ["kind", "id"] | none
    let id ← Json.required? id
    match (← TagOwner.kind? j (← kind)) with
    | "run" => some (.run id)
    | "experiment" => some (.experiment id)
    | _ => none

end RunBoard
