import RunBoard.Client.Traffic
import RunBoard.Settings.Basic

namespace RunBoard

structure Session where
  settings : Settings
  traffic : Traffic
  issued : Nat
  deriving Inhabited

def numberedId (n : Nat) : RequestId := "request-" ++ toString n

namespace Session

def new (settings : Settings) : Session :=
  { settings, traffic := { store := .empty, flights := [] }, issued := 0 }

def store (s : Session) : Store := s.traffic.store

/-- A search takes the page size of the settings unless it has a limit of its own. -/
def paged (s : Session) (search : RunSearch) : RunSearch :=
  { search with maxResults := search.maxResults.or (some s.settings.runsPageSize) }

structure Made where
  request : Nat
  query : Query
  deriving DecidableEq, Inhabited

def perform (s : Session) (command : Command) (server : Query → Answer) : Option Made × Session :=
  match command.call? s.store.entities.nextPageToken with
  | none => (none, s)
  | some call =>
    let id := numberedId s.issued
    let traffic := (s.traffic.start id call.operation).settle id (server call.query)
    (some { request := s.issued, query := call.query }, { s with traffic, issued := s.issued + 1 })

def searchRuns (s : Session) (search : RunSearch) (server : Query → Answer) :
    Option Made × Session :=
  s.perform (.searchRuns (s.paged search)) server

def loadMoreRuns (s : Session) (search : RunSearch) (server : Query → Answer) :
    Option Made × Session :=
  s.perform (.loadMoreRuns (s.paged search)) server

def withStore (s : Session) (store : Store) : Session := { s with traffic := { s.traffic with store } }

def reset (s : Session) : Session := s.withStore .empty

end Session

end RunBoard
