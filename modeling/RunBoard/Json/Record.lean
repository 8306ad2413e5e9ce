import RunBoard.Json.Value

namespace RunBoard

class JsonForm (α : Type) where
  encode : α → Json
  decode? : Json → Option α

export JsonForm (encode decode?)

namespace JsonForm

instance : JsonForm Unit where
  encode _ := .null
  decode?
    | .null => some ()
    | _ => none

instance : JsonForm String where
  encode := .str
  decode?
    | .str s => some s
    | _ => none

instance : JsonForm Bool where
  encode := .bool
  decode?
    | .bool b => some b
    | _ => none

instance : JsonForm Int64 where
  encode n := .int n.toInt
  decode?
    | .int n => if Int64.minValue.toInt ≤ n ∧ n ≤ Int64.maxValue.toInt then some (.ofInt n) else none
    | _ => none

instance : JsonForm UInt64 where
  encode n := .int n.toNat
  decode?
    | .int n => if 0 ≤ n ∧ n < UInt64.size then some (.ofNat n.toNat) else none
    | _ => none

instance : JsonForm UInt16 where
  encode n := .int n.toNat
  decode?
    | .int n => if 0 ≤ n ∧ n < UInt16.size then some (.ofNat n.toNat) else none
    | _ => none

instance : JsonForm Binary64 where
  encode := .num
  decode?
    | .num x => some x
    | .int n => some (.ofInt n)
    | _ => none

instance {α : Type} [JsonForm α] : JsonForm (Option α) where
  encode
    | some a => encode a
    | none => .null
  decode?
    | .null => some none
    | j => (decode? j).map some

instance {α : Type} [JsonForm α] : JsonForm (List α) where
  encode items := .arr (items.map encode)
  decode?
    | .arr items => items.mapM decode?
    | _ => none

end JsonForm

namespace Json

/-- The fields of a record under these names, absent where they are not given. An array may end
early and must not be longer than the record. -/
def record? (names : List String) : Json → Option (List (Option Json))
  | obj fields => some (names.map (fields.lookup ·))
  | arr items =>
    if items.length ≤ names.length then
      some (items.map some ++ List.replicate (names.length - items.length) none)
    else none
  | _ => none

variable {α : Type} [JsonForm α]

def required? (field : Option Json) : Option α := field.bind decode?

/-- A field that takes a fixed value when it is missing; `null` is no way to leave it out. -/
def defaulted? (missing : α) : Option Json → Option α
  | none => some missing
  | some j => decode? j

def optional? (field : Option Json) : Option (Option α) := defaulted? none field

def alternative? : Json → Option String
  | str name => some name
  | obj [(name, null)] => some name
  | _ => none

end Json

end RunBoard
