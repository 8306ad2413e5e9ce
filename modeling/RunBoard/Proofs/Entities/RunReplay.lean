import RunBoard.Proofs.Entities.Log

namespace RunBoard.Entities

/-- The artifact roots of a run that an action names, in order. A listing names one when it has a
place in the tree. -/
def rootsNamed (uuid : String) (s : Entities) (a : Action) : List String :=
  (occurrences uuid [a]).filterMap (·.info.artifactUri) ++
    (if (s.outcome a).isOk then (a.listing? uuid).bind (·.rootUri) else none).toList

/-- The artifact roots of a run that a log names when it is applied from a state on. -/
def rootsOver (uuid : String) : Entities → List Action → List String
  | _, [] => []
  | s, a :: rest => rootsNamed uuid s a ++ rootsOver uuid (s.step a) rest

theorem rootsOver_snoc (uuid : String) (s : Entities) (log : List Action) (a : Action) :
    rootsOver uuid s (log ++ [a]) = rootsOver uuid s log ++ rootsNamed uuid (s.replay log) a := by
  induction log generalizing s with
  | nil => simp only [List.nil_append, rootsOver, List.append_nil, replay, List.foldl_nil]
  | cons first rest ih =>
    rw [List.cons_append, rootsOver, rootsOver, ih, List.append_assoc]
    rfl

def opened (s : Entities) (a : Action) : Entities := if a.isSearch then { s with runs := ∅ } else s

theorem Change.runs_eq {s next : Entities} {a : Action} (change : s.Change a next) :
    next.runs = (a.runs.foldl putRun (s.opened a)).runs := by
  cases change <;> rfl

theorem Change.params_eq {s next : Entities} {a : Action} (change : s.Change a next) :
    next.params = (a.runs.foldl putRun (s.opened a)).params := by
  cases change <;> rfl

theorem Change.nextPageToken_eq {s next : Entities} {a : Action} (change : s.Change a next) :
    next.nextPageToken = (a.page?.map (·.nextPageToken)).getD s.nextPageToken := by
  cases change <;> rfl

theorem getElem?_runs_foldl (uuid : String) (runs : List Run) (s : Entities) :
    (runs.foldl putRun s).runs[uuid]? =
      ((runs.filter (·.info.uuid == uuid)).map (·.info)).getLast?.or s.runs[uuid]? := by
  have writes (s : Entities) (run : Run) : (s.putRun run).runs[uuid]? =
      if run.info.uuid == uuid then (some run.info).or s.runs[uuid]? else s.runs[uuid]? := by
    by_cases same : run.info.uuid = uuid <;>
      simp [putRun, putRunInfo, putRunData, nameRoot, Std.ExtTreeMap.getElem?_insert, same]
  rw [← List.filterMap_eq_map']
  exact Table.view_foldl (·.runs[uuid]?) (·.info.uuid == uuid) (fun run => some run.info) writes runs s

theorem getElem?_params_foldl (uuid : String) (runs : List Run) (s : Entities) :
    (runs.foldl putRun s).params[uuid]? =
      ((runs.filter (·.info.uuid == uuid)).map (labelTable ·.data.params)).getLast?.or
        s.params[uuid]? := by
  have writes (s : Entities) (run : Run) : (s.putRun run).params[uuid]? =
      if run.info.uuid == uuid then (some (labelTable run.data.params)).or s.params[uuid]?
      else s.params[uuid]? := by
    by_cases same : run.info.uuid = uuid <;>
      simp [putRun, putRunInfo, putRunData, Std.ExtTreeMap.getElem?_insert, same]
  rw [← List.filterMap_eq_map']
  exact Table.view_foldl (·.params[uuid]?) (·.info.uuid == uuid)
    (fun run => some (labelTable run.data.params)) writes runs s

theorem getElem?_artifactRoots_foldl (uuid : String) (runs : List Run) (s : Entities) :
    (runs.foldl putRun s).artifactRoots[uuid]? =
      ((runs.filter (·.info.uuid == uuid)).filterMap (·.info.artifactUri)).getLast?.or
        s.artifactRoots[uuid]? := by
  have writes (s : Entities) (run : Run) : (s.putRun run).artifactRoots[uuid]? =
      if run.info.uuid == uuid then run.info.artifactUri.or s.artifactRoots[uuid]?
      else s.artifactRoots[uuid]? := by
    by_cases same : run.info.uuid = uuid <;> cases uri : run.info.artifactUri <;>
      simp [putRun, putRunInfo, putRunData, nameRoot, Std.ExtTreeMap.getElem?_insert, same, uri]
  exact Table.view_foldl (·.artifactRoots[uuid]?) (·.info.uuid == uuid) (·.info.artifactUri)
    writes runs s

theorem occurrences_singleton (uuid : String) (a : Action) :
    occurrences uuid [a] = a.runs.filter (·.info.uuid == uuid) := by
  rw [occurrences, List.flatMap_singleton]

theorem artifactRoots_opened (s : Entities) (a : Action) :
    (s.opened a).artifactRoots = s.artifactRoots := by
  unfold opened
  split <;> rfl

theorem Change.getElem?_artifactRoots {s next : Entities} {a : Action} (change : s.Change a next)
    (uuid : String) :
    next.artifactRoots[uuid]? = (rootsNamed uuid s a).getLast?.or s.artifactRoots[uuid]? := by
  have brought (unlisted : a.listing? uuid = none)
      (roots : next.artifactRoots = (a.runs.foldl putRun (s.opened a)).artifactRoots) :
      next.artifactRoots[uuid]? = (rootsNamed uuid s a).getLast?.or s.artifactRoots[uuid]? := by
    rw [roots, getElem?_artifactRoots_foldl, artifactRoots_opened, rootsNamed,
      occurrences_singleton, unlisted, Option.bind_none, ite_self, Option.toList_none,
      List.append_nil]
  cases change with
  | listed id run path listing tree fits =>
    have applied : s.outcome ⟨id, .listArtifacts run path, .fulfilled listing⟩ = .ok () := by
      rw [outcome_listArtifacts, fits]
      rfl
    rw [rootsNamed, occurrences_singleton, applied]
    by_cases own : run = uuid <;> cases uri : listing.rootUri <;>
      simp [putTree, nameRoot, Except.isOk, Except.toBool, Action.runs, Action.listing?, Std.ExtTreeMap.getElem?_insert, own, uri]
  | refused id run path listing e fails =>
    have kept : s.outcome ⟨id, .listArtifacts run path, .fulfilled listing⟩ = .error e := by
      rw [outcome_listArtifacts, fails]
      rfl
    rw [rootsNamed, occurrences_singleton, kept]
    rfl
  | _ => exact brought rfl rfl

structure RunReplay (log : List Action) (s : Entities) : Prop where
  reached : s = after log
  info (uuid : String) :
    s.runs[uuid]? = ((occurrences uuid (sinceSearch log)).map (·.info)).getLast?
  params (uuid : String) :
    s.params[uuid]? = ((occurrences uuid log).map (labelTable ·.data.params)).getLast?
  root (uuid : String) : s.artifactRoots[uuid]? = (rootsOver uuid .empty log).getLast?
  token : s.nextPageToken = (log.filterMap Action.page?).getLast?.bind (·.nextPageToken)

theorem runReplay_start : RunReplay [] .empty where
  reached := rfl
  info _ := Std.ExtTreeMap.getElem?_empty
  params _ := Std.ExtTreeMap.getElem?_empty
  root _ := Std.ExtTreeMap.getElem?_empty
  token := rfl

theorem RunReplay.info_next {log : List Action} {s next : Entities} {a : Action}
    (held : RunReplay log s) (change : s.Change a next) (uuid : String) :
    next.runs[uuid]? =
      ((occurrences uuid (sinceSearch (log ++ [a]))).map (·.info)).getLast? := by
  rw [change.runs_eq, getElem?_runs_foldl, sinceSearch_snoc, opened]
  cases a.isSearch with
  | true =>
    rw [if_pos rfl, if_pos rfl, occurrences_singleton, Std.ExtTreeMap.getElem?_empty,
      Option.or_none]
  | false =>
    rw [if_neg Bool.false_ne_true, if_neg Bool.false_ne_true, held.info, occurrences_append,
      occurrences_singleton, List.map_append, List.getLast?_append]

theorem RunReplay.params_next {log : List Action} {s next : Entities} {a : Action}
    (held : RunReplay log s) (change : s.Change a next) (uuid : String) :
    next.params[uuid]? =
      ((occurrences uuid (log ++ [a])).map (labelTable ·.data.params)).getLast? := by
  have opened : (s.opened a).params = s.params := by
    unfold opened
    split <;> rfl
  rw [change.params_eq, getElem?_params_foldl, opened, held.params, occurrences_append,
    occurrences_singleton, List.map_append, List.getLast?_append]

theorem RunReplay.token_next {log : List Action} {s next : Entities} {a : Action}
    (held : RunReplay log s) (change : s.Change a next) :
    next.nextPageToken = ((log ++ [a]).filterMap Action.page?).getLast?.bind (·.nextPageToken) := by
  rw [change.nextPageToken_eq, held.token, getLast?_filterMap_snoc]
  cases a.page? <;> rfl

theorem RunReplay.root_next {log : List Action} {s next : Entities} {a : Action}
    (held : RunReplay log s) (change : s.Change a next) (uuid : String) :
    next.artifactRoots[uuid]? = (rootsOver uuid .empty (log ++ [a])).getLast? := by
  have reached : Entities.empty.replay log = s := held.reached.symm
  rw [change.getElem?_artifactRoots, held.root, rootsOver_snoc, reached, List.getLast?_append]

theorem runReplay_replay (log : List Action) : RunReplay log (after log) := by
  apply replay_induction runReplay_start
  intro log a s held
  have change := s.change_step a
  exact {
    reached := by rw [after_snoc, ← held.reached]
    info := held.info_next change
    params := held.params_next change
    root := held.root_next change
    token := held.token_next change }

/-- After every log, a run is what its last occurrence since the last search said, its params are
those of its last occurrence at all, its artifact root is the last that was named for it, and the
page token is that of the last page. -/
theorem replay_run_tables (log : List Action) (uuid : String) :
    (after log).runs[uuid]? =
        (occurrences uuid (sinceSearch log)).getLast?.map (·.info) ∧
      ((after log).paramsOf uuid).map (fun table key => table[key]?) =
        (occurrences uuid log).getLast?.map
          (fun run key => (run.data.params.filter (·.key == key)).getLast?) ∧
      (after log).artifactRoots[uuid]? = (rootsOver uuid .empty log).getLast? ∧
      (after log).nextPageToken =
        (log.filterMap Action.page?).getLast?.bind (·.nextPageToken) := by
  have held := runReplay_replay log
  refine ⟨?_, ?_, held.root uuid, held.token⟩
  · rw [held.info, List.getLast?_map]
  · rw [paramsOf, held.params, List.getLast?_map, Option.map_map]
    apply congrArg (Option.map · _)
    funext run key
    exact getElem?_labelTable run.data.params key

end RunBoard.Entities
