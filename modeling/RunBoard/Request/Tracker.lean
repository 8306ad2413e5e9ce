import RunBoard.Request.Action
import RunBoard.Table

namespace RunBoard

inductive RequestView where
  | loading
  | notFound (message : String)
  | failed (message : String)
  | ready
  deriving DecidableEq, Inhabited

structure RequestState where
  id : RequestId
  active : Bool
  data : Option Json
  error : Option ApiError
  deriving Inhabited

def RequestState.of (id : RequestId) : Phase Json → RequestState
  | .pending => { id, active := true, data := none, error := none }
  | .fulfilled data => { id, active := false, data := some data, error := none }
  | .rejected e => { id, active := false, data := none, error := some e }

abbrev Tracker := Table RequestState

namespace Tracker

def record (t : Tracker) (a : Action) : Tracker :=
  match a.id with
  | some id => t.insert id (.of id a.progress)
  | none => t

def forget (t : Tracker) (ids : List RequestId) : Tracker := ids.foldl (·.erase ·) t

def retain (t : Tracker) (keep : RequestState → Bool) : Tracker := t.filter fun _ state => keep state

def allComplete (t : Tracker) (ids : List RequestId) : Bool :=
  ids.all fun id => t[id]?.any (!·.active)

def firstError (t : Tracker) (ids : List RequestId) : Option ApiError :=
  ids.findSome? fun id => t[id]?.bind (·.error)

/-- An error wins over requests in flight, so that it shows at once. -/
def view (t : Tracker) (ids : List RequestId) : RequestView :=
  match t.firstError ids with
  | some e => if e.isNotFound then .notFound e.message else .failed e.message
  | none => if t.allComplete ids then .ready else .loading

theorem getElem?_record (t : Tracker) (a : Action) (id : RequestId) :
    (t.record a)[id]? = if a.id = some id then some (.of id a.progress) else t[id]? := by
  cases given : a.id with
  | none => simp [record, given]
  | some own =>
    simp only [record, given, Option.some.injEq]
    by_cases same : own = id
    · simp [same]
    · simp [same, Std.ExtTreeMap.getElem?_insert]

theorem getElem?_forget (t : Tracker) (ids : List RequestId) (id : RequestId) :
    (t.forget ids)[id]? = if id ∈ ids then none else t[id]? := by
  induction ids generalizing t with
  | nil => simp [forget]
  | cons own rest ih =>
    have dropped : (t.forget (own :: rest))[id]? =
        if id ∈ rest then none else (t.erase own)[id]? := ih (t.erase own)
    rw [dropped, Std.ExtTreeMap.getElem?_erase]
    by_cases same : id = own
    · simp [same]
    · simp [same, Ne.symm same]

end Tracker

end RunBoard
