import RunBoard.Settings.Basic
import RunBoard.Text.Quoted
import RunBoard.Yaml.Node

namespace RunBoard.Settings

inductive Field where
  | pollInterval
  | hangingThreshold
  | doubleClick
  | pageSize
  deriving DecidableEq, Inhabited

namespace Field

def all : List Field := [pollInterval, hangingThreshold, doubleClick, pageSize]

def name : Field → String
  | pollInterval => "poll_interval_ms"
  | hangingThreshold => "hanging_threshold_secs"
  | doubleClick => "legend_double_click_ms"
  | pageSize => "runs_page_size"

def ofName? (name : String) : Option Field := all.find? (·.name == name)

end Field

def get (s : Settings) : Field → UInt64
  | .pollInterval => s.pollIntervalMs
  | .hangingThreshold => s.hangingThresholdSecs
  | .doubleClick => s.doubleClickMs
  | .pageSize => s.runsPageSize

def set (s : Settings) (value : UInt64) : Field → Settings
  | .pollInterval => { s with pollIntervalMs := value }
  | .hangingThreshold => { s with hangingThresholdSecs := value }
  | .doubleClick => { s with doubleClickMs := value }
  | .pageSize => { s with runsPageSize := value }

def digits? (base : Nat) (digits : List Char) : Option UInt64 := do
  if digits.isEmpty then none
  else
    let values ← digits.mapM Text.hexValue?
    let n := values.foldl (fun n d => base * n + d) 0
    if values.all (· < base) && n < UInt64.size then some (.ofNat n) else none

def decimal? (digits : List Char) : Option UInt64 :=
  if 1 < digits.length && digits.head? == some '0' then none else digits? 10 digits

/-- An unsigned number: decimal, or with a mark of its base; a plus sign may come first. -/
def number? (text : String) : Option UInt64 :=
  let unsigned := match text.toList with
    | '+' :: rest => rest
    | chars => chars
  match unsigned with
  | '0' :: 'x' :: rest => digits? 16 rest
  | '0' :: 'o' :: rest => digits? 8 rest
  | '0' :: 'b' :: rest => digits? 2 rest
  | decimal => decimal? decimal

/-- A plain scalar is read as a number whatever its tag, a literal one only with the integer tag. -/
def value? : Yaml.Node → Option UInt64
  | .scalar text .plain _ => number? text
  | .scalar text .literal tag => if tag = some Yaml.Tag.integer then number? text else none
  | _ => none

def key? : Yaml.Node → Option String
  | .scalar name _ _ => some name
  | _ => none

/-- Takes in one entry. Unknown names are passed over with their values; the second part of the
state holds the known ones so far, which must not repeat. -/
def takeIn? (d : Yaml.Document) (state : Settings × List Field) (entry : Yaml.Node × Yaml.Node) :
    Option (Settings × List Field) := do
  let name ← (d.target? entry.1).bind key?
  match Field.ofName? name with
  | none => return state
  | some field =>
    if state.2.contains field then none
    else
      let value ← (d.target? entry.2).bind value?
      return (state.1.set value field, field :: state.2)

def ofDocument? (d : Yaml.Document) : Option Settings :=
  match d.root with
  | .scalar "" .plain _ => some default
  | .mapping entries => (entries.foldlM (takeIn? d) (default, [])).map (·.1)
  | _ => none

def ofText? (text : String) : Option Settings := do
  match ← Yaml.Document.ofText? text with
  | none => return default
  | some d => ofDocument? d

def line (field : Field) (value : UInt64) : String :=
  field.name ++ ": " ++ toString value.toNat ++ "\n"

def toText (s : Settings) : String :=
  String.join (Field.all.map fun field => line field (s.get field))

end RunBoard.Settings
