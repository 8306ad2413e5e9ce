import RunBoard.Entities.State

namespace RunBoard

inductive Query where
  | listExperiments
  | getExperiment (id : String)
  | getRun (uuid : String)
  | searchRuns (search : RunSearch)
  | getMetricHistory (run key : String)
  | listArtifacts (run : String) (path : Option String)
  | setTag (owner : TagOwner) (key value : String)
  | deleteTag (owner : TagOwner) (key : String)
  | searchModelVersions (filter : String)
  deriving DecidableEq, Inhabited

namespace Query

def name : Query → String
  | listExperiments => "list_experiments"
  | getExperiment _ => "get_experiment"
  | getRun _ => "get_run"
  | searchRuns _ => "search_runs"
  | getMetricHistory _ _ => "get_metric_history"
  | listArtifacts _ _ => "list_artifacts"
  | setTag _ _ _ => "set_tag"
  | deleteTag _ _ => "delete_tag"
  | searchModelVersions _ => "search_model_versions"

end Query

inductive Command where
  | listExperiments
  | getExperiment (id : String)
  | getRun (uuid : String)
  | searchRuns (search : RunSearch)
  | loadMoreRuns (search : RunSearch)
  | getMetricHistory (run key : String)
  | listArtifacts (run : String) (path : Option String)
  | setTag (owner : TagOwner) (key value : String)
  | deleteTag (owner : TagOwner) (key : String)
  | searchModelVersions (filter : String)
  deriving DecidableEq, Inhabited

structure Call where
  query : Query
  operation : Operation
  deriving DecidableEq, Inhabited

namespace Command

/-- The call of a command. A search starts at the first page whatever its token; more runs are those
of the page after the last one, if there is one. -/
def call? (nextPageToken : Option String) : Command → Option Call
  | listExperiments => some ⟨.listExperiments, .listExperiments⟩
  | getExperiment id => some ⟨.getExperiment id, .getExperiment id⟩
  | getRun uuid => some ⟨.getRun uuid, .getRun uuid⟩
  | searchRuns search => some ⟨.searchRuns { search with pageToken := none }, .searchRuns⟩
  | loadMoreRuns search =>
    nextPageToken.map fun token =>
      ⟨.searchRuns { search with pageToken := some token }, .loadMoreRuns⟩
  | getMetricHistory run key => some ⟨.getMetricHistory run key, .getMetricHistory run key⟩
  | listArtifacts run path => some ⟨.listArtifacts run path, .listArtifacts run path⟩
  | setTag owner key value => some ⟨.setTag owner key value, .setTag owner key value⟩
  | deleteTag owner key => some ⟨.deleteTag owner key, .deleteTag owner key⟩
  | searchModelVersions filter => some ⟨.searchModelVersions filter, .searchModelVersions⟩

end Command

/-- Text as a literal of the filter language: in single quotes, those inside after a backslash. -/
def filterLiteral (text : List Char) : List Char :=
  '\'' :: text.flatMap (fun c => if c = '\'' then ['\\', '\''] else [c]) ++ ['\'']

def runFilter (runs : List String) : String :=
  "run_id IN (" ++
    String.intercalate ", " (runs.map fun run => String.ofList (filterLiteral run.toList)) ++ ")"

end RunBoard
