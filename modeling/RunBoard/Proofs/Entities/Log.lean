import Mathlib.Data.List.Induction
import RunBoard.Proofs.Entities.Change

namespace RunBoard

namespace Action

def runs : Action → List Run
  | ⟨_, _, .pending⟩ | ⟨_, _, .rejected _⟩ => []
  | ⟨_, .getRun _, .fulfilled run⟩ => [run]
  | ⟨_, .searchRuns, .fulfilled page⟩ => page.runs
  | ⟨_, .loadMoreRuns, .fulfilled page⟩ => page.runs
  | _ => []

def page? : Action → Option RunPage
  | ⟨_, _, .pending⟩ | ⟨_, _, .rejected _⟩ => none
  | ⟨_, .searchRuns, .fulfilled page⟩ => some page
  | ⟨_, .loadMoreRuns, .fulfilled page⟩ => some page
  | _ => none

def isSearch : Action → Bool
  | ⟨_, _, .pending⟩ | ⟨_, _, .rejected _⟩ => false
  | ⟨_, .searchRuns, .fulfilled _⟩ => true
  | _ => false

def listing? (uuid : String) : Action → Option ArtifactListing
  | ⟨_, _, .pending⟩ | ⟨_, _, .rejected _⟩ => none
  | ⟨_, .listArtifacts run _, .fulfilled listing⟩ => if run = uuid then some listing else none
  | _ => none

end Action

theorem getLast?_filterMap_snoc {α β : Type} (f : α → Option β) (items : List α) (item : α) :
    ((items ++ [item]).filterMap f).getLast? = (f item).or (items.filterMap f).getLast? := by
  rw [List.filterMap_append, List.getLast?_append]
  cases value : f item with
  | none => rw [List.filterMap_cons_none value]; rfl
  | some _ => rw [List.filterMap_cons_some value]; rfl

/-- Where a run occurs in the payloads of a log, in their order. -/
def occurrences (uuid : String) (log : List Action) : List Run :=
  (log.flatMap Action.runs).filter (·.info.uuid == uuid)

theorem occurrences_append (uuid : String) (log rest : List Action) :
    occurrences uuid (log ++ rest) = occurrences uuid log ++ occurrences uuid rest := by
  simp only [occurrences, List.flatMap_append, List.filter_append]

/-- A log from its last search on, all of it when there is none. -/
def sinceSearch : List Action → List Action
  | [] => []
  | a :: rest => if rest.any (·.isSearch) then sinceSearch rest else a :: rest

theorem sinceSearch_snoc (log : List Action) (a : Action) :
    sinceSearch (log ++ [a]) = if a.isSearch then [a] else sinceSearch log ++ [a] := by
  induction log with
  | nil => cases search : a.isSearch <;> rfl
  | cons first rest ih =>
    simp only [List.cons_append, sinceSearch, List.any_append, List.any_cons, List.any_nil,
      Bool.or_false, ih]
    cases a.isSearch <;> cases rest.any (·.isSearch) <;> rfl

namespace Entities

theorem replay_snoc (s : Entities) (log : List Action) (a : Action) :
    s.replay (log ++ [a]) = (s.replay log).step a := by
  rw [replay, replay, List.foldl_append]
  rfl

abbrev after (log : List Action) : Entities := empty.replay log

theorem after_snoc (log : List Action) (a : Action) : after (log ++ [a]) = (after log).step a :=
  replay_snoc empty log a

theorem replay_induction {P : List Action → Entities → Prop} (start : P [] .empty)
    (next : ∀ log a s, P log s → P (log ++ [a]) (s.step a)) (log : List Action) :
    P log (after log) := by
  induction log using List.reverseRecOn with
  | nil => exact start
  | append_singleton log a ih =>
    rw [after_snoc]
    exact next log a _ ih

end Entities

end RunBoard
