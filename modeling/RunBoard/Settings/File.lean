import RunBoard.Settings.Document

namespace RunBoard

inductive FilePlace where
  | absent
  | directory
  | file (bytes : ByteArray)
  deriving Inhabited

inductive LoadError where
  | unreadable
  | malformed
  | invalid (fault : SettingsFault)
  deriving DecidableEq, Inhabited

namespace Settings

def ofFileText (text : String) : Except LoadError Settings :=
  match ofText? text with
  | none => .error .malformed
  | some s =>
    match s.fault? with
    | some fault => .error (.invalid fault)
    | none => .ok s

def load : FilePlace → Except LoadError Settings
  | .absent => .ok default
  | .directory => .error .unreadable
  | .file bytes =>
    match String.fromUTF8? bytes with
    | some text => ofFileText text
    | none => .error .unreadable

def save (s : Settings) : FilePlace → Except LoadError FilePlace
  | .directory => .error .unreadable
  | .absent | .file _ => .ok (.file s.toText.toUTF8)

end Settings

end RunBoard
