import RunBoard.Client.Session
import RunBoard.Proofs.Entities.RunReplay
import RunBoard.Proofs.Store.Notices

namespace RunBoard

def Action.loadsRuns : Action → Bool
  | ⟨_, _, .pending⟩ | ⟨_, _, .rejected _⟩ => false
  | ⟨_, .getRun _, .fulfilled _⟩ | ⟨_, .searchRuns, .fulfilled _⟩
  | ⟨_, .loadMoreRuns, .fulfilled _⟩ => true
  | _ => false

def Store.Change.leavesRuns : Store.Change → Bool
  | dispatch a => !a.loadsRuns
  | forget _ | drain => true
  | reset => false

def RunPage.union (pages : List RunPage) : Table RunInfo :=
  Table.ofPairs ((pages.flatMap (·.runs)).map fun run => (run.info.uuid, run.info))

structure Fetch where
  search : Bool
  query : Query
  answer : Except ApiError RunPage

namespace Fetch

def page? (f : Fetch) : Option RunPage := f.answer.toOption

def nextToken (fetches : List Fetch) : Option String :=
  (fetches.filterMap page?).getLast?.bind (·.nextPageToken)

/-- The pages that arrived since the last search that was answered with one, its own the first. -/
def browsed (fetches : List Fetch) : List RunPage :=
  fetches.foldl
    (fun pages f =>
      match f.page? with
      | some page => if f.search then [page] else pages ++ [page]
      | none => pages)
    []

def applied (f : Fetch) (s : Entities) : Entities :=
  match f.page? with
  | some page => if f.search then s.replacePage page else s.appendPage page
  | none => s

theorem nextToken_snoc (fetches : List Fetch) (f : Fetch) :
    nextToken (fetches ++ [f]) =
      match f.page? with
      | some page => page.nextPageToken
      | none => nextToken fetches := by
  rw [nextToken, getLast?_filterMap_snoc]
  cases f.page? <;> rfl

theorem browsed_snoc (fetches : List Fetch) (f : Fetch) :
    browsed (fetches ++ [f]) =
      match f.page? with
      | some page => if f.search then [page] else browsed fetches ++ [page]
      | none => browsed fetches :=
  List.foldl_append

end Fetch

namespace Entities

theorem runs_foldl_putRun (runs : List Run) (s : Entities) :
    (runs.foldl putRun s).runs =
      (runs.map fun run => (run.info.uuid, run.info)).foldl
        (fun table pair => table.insert pair.1 pair.2) s.runs := by
  induction runs generalizing s with
  | nil => rfl
  | cons run rest ih => exact ih (s.putRun run)

theorem runs_appendPage {s : Entities} {pages : List RunPage} (known : s.runs = RunPage.union pages)
    (page : RunPage) : (s.appendPage page).runs = RunPage.union (pages ++ [page]) := by
  have appended : (s.appendPage page).runs = (page.runs.foldl putRun s).runs := rfl
  rw [appended, runs_foldl_putRun, known, RunPage.union, RunPage.union, Table.ofPairs, Table.ofPairs,
    List.flatMap_append, List.map_append, List.foldl_append, List.flatMap_singleton]

theorem runs_replacePage (s : Entities) (page : RunPage) :
    (s.replacePage page).runs = RunPage.union [page] := by
  have none : ({ s with runs := ∅ } : Entities).runs = RunPage.union [] := rfl
  exact runs_appendPage none page

theorem step_searchRuns (s : Entities) (id : Option RequestId) (query : Query)
    (answer : Except ApiError RunPage) :
    s.step ⟨id, .searchRuns, .ofAnswer answer⟩ = Fetch.applied ⟨true, query, answer⟩ s := by
  cases answer <;> rfl

theorem step_loadMoreRuns (s : Entities) (id : Option RequestId) (query : Query)
    (answer : Except ApiError RunPage) :
    s.step ⟨id, .loadMoreRuns, .ofAnswer answer⟩ = Fetch.applied ⟨false, query, answer⟩ s := by
  cases answer <;> rfl

structure SameRuns (s next : Entities) : Prop where
  runs : next.runs = s.runs
  token : next.nextPageToken = s.nextPageToken

theorem Change.sameRuns {s next : Entities} {a : Action} (change : s.Change a next)
    (apart : a.loadsRuns = false) : SameRuns s next := by
  cases change <;> first | exact ⟨rfl, rfl⟩ | contradiction

end Entities

theorem Store.sameRuns_apply (s : Store) {c : Store.Change} (apart : c.leavesRuns = true) :
    s.entities.SameRuns (s.apply c).entities := by
  cases c with
  | dispatch a =>
    have kept := s.entities.change_step a
    rw [← s.entities_dispatch a] at kept
    exact kept.sameRuns (by simpa [Change.leavesRuns] using apart)
  | forget ids | drain => exact ⟨rfl, rfl⟩
  | reset => contradiction

namespace Session

inductive Turn where
  | search (request : RunSearch) (server : Query → Answer)
  | more (request : RunSearch) (server : Query → Answer)
  | others (change : Store.Change)

def take (s : Session) : Turn → Option Made × Session
  | .search request server => s.searchRuns request server
  | .more request server => s.loadMoreRuns request server
  | .others change => (none, s.withStore (s.store.apply change))

def after (s : Session) (turns : List Turn) : Session :=
  turns.foldl (fun state turn => (state.take turn).2) s

def fetch? (s : Session) : Turn → Option Fetch
  | .search request server =>
    (s.searchRuns request server).1.map fun made =>
      ⟨true, made.query, server made.query .searchRuns⟩
  | .more request server =>
    (s.loadMoreRuns request server).1.map fun made =>
      ⟨false, made.query, server made.query .loadMoreRuns⟩
  | .others _ => none

def fetches (s : Session) : List Turn → List Fetch
  | [] => []
  | turn :: rest => (s.fetch? turn).toList ++ (s.take turn).2.fetches rest

theorem after_snoc (s : Session) (turns : List Turn) (turn : Turn) :
    s.after (turns ++ [turn]) = ((s.after turns).take turn).2 := List.foldl_append

theorem fetches_snoc (s : Session) (turns : List Turn) (turn : Turn) :
    s.fetches (turns ++ [turn]) = s.fetches turns ++ ((s.after turns).fetch? turn).toList := by
  induction turns generalizing s with
  | nil => exact List.append_nil _
  | cons first rest ih =>
    rw [List.cons_append, fetches, fetches, ih, List.append_assoc]
    rfl

/-- The search that a session sends for a request: all but token and limit as requested. -/
def pageOf (settings : Settings) (request : RunSearch) (token : Option String) : Query :=
  .searchRuns {
    experimentIds := request.experimentIds
    filter := request.filter
    pageToken := token
    maxResults := some (request.maxResults.getD settings.runsPageSize) }

theorem settle_start {t : Traffic} (idle : t.flights = []) (id : RequestId) (op : Operation)
    (answer : Answer) :
    (t.start id op).settle id answer =
      { store := (t.store.dispatch ⟨some id, op, .pending⟩).dispatch
          ⟨some id, op, .ofAnswer (answer op)⟩
        flights := [] } := by
  simp [Traffic.start, Traffic.settle, idle]

theorem perform_of_call {s : Session} {command : Command} {call : Call}
    (idle : s.traffic.flights = [])
    (known : command.call? s.store.entities.nextPageToken = some call) (server : Query → Answer) :
    (s.perform command server).1 = some { request := s.issued, query := call.query } ∧
      (s.perform command server).2.traffic.flights = [] ∧
      (s.perform command server).2.settings = s.settings ∧
      (s.perform command server).2.store.entities = s.store.entities.step
        ⟨some (numberedId s.issued), call.operation,
          .ofAnswer (server call.query call.operation)⟩ := by
  rw [perform, known]
  refine ⟨rfl, ?_, rfl, ?_⟩
  · simp only [settle_start idle]
  · simp only [store, settle_start idle, Store.entities_dispatch]
    rfl

/-- What the turns of a session come to: no call is left on its way, and the runs and the token are
those of the pages that arrived. -/
structure Browsing (settings : Settings) (s : Session) (seen : List Fetch) : Prop where
  settled : s.traffic.flights = []
  sized : s.settings = settings
  token : s.store.entities.nextPageToken = Fetch.nextToken seen
  runs : s.store.entities.runs = RunPage.union (Fetch.browsed seen)

namespace Browsing

variable {settings : Settings} {s : Session} {seen : List Fetch}

theorem start (settings : Settings) : Browsing settings (new settings) [] where
  settled := rfl
  sized := rfl
  token := rfl
  runs := rfl

theorem call?_search (held : Browsing settings s seen) (request : RunSearch)
    (token : Option String) :
    (Command.searchRuns (s.paged request)).call? token =
      some ⟨pageOf settings request none, .searchRuns⟩ := by
  rw [Command.call?, paged, pageOf, held.sized]
  cases request.maxResults <;> rfl

theorem call?_more (held : Browsing settings s seen) (request : RunSearch) :
    (Command.loadMoreRuns (s.paged request)).call? s.store.entities.nextPageToken =
      (Fetch.nextToken seen).map fun token =>
        ⟨pageOf settings request (some token), .loadMoreRuns⟩ := by
  rw [Command.call?, paged, held.token, held.sized]
  simp only [pageOf]
  cases request.maxResults <;> rfl

theorem query_search (held : Browsing settings s seen) (request : RunSearch)
    (server : Query → Answer) :
    (s.searchRuns request server).1.map (·.query) = some (pageOf settings request none) := by
  rw [searchRuns, (perform_of_call held.settled (held.call?_search request _) server).1]
  rfl

theorem more_without (held : Browsing settings s seen) (last : Fetch.nextToken seen = none)
    (request : RunSearch) (server : Query → Answer) :
    s.loadMoreRuns request server = (none, s) := by
  have without := held.call?_more request
  rw [last, Option.map_none] at without
  simp only [loadMoreRuns, perform, without]

theorem more_after (held : Browsing settings s seen) {token : String}
    (more : Fetch.nextToken seen = some token) (request : RunSearch) :
    (Command.loadMoreRuns (s.paged request)).call? s.store.entities.nextPageToken =
      some ⟨pageOf settings request (some token), .loadMoreRuns⟩ := by
  rw [held.call?_more, more, Option.map_some]

theorem query_more (held : Browsing settings s seen) (request : RunSearch)
    (server : Query → Answer) :
    (s.loadMoreRuns request server).1.map (·.query) =
      (Fetch.nextToken seen).map fun token => pageOf settings request (some token) := by
  cases more : Fetch.nextToken seen with
  | none =>
    rw [held.more_without more]
    rfl
  | some token =>
    rw [loadMoreRuns, (perform_of_call held.settled (held.more_after more request) server).1]
    rfl

inductive Took (settings : Settings) (s : Session) : Turn → Option Fetch → Session → Prop where
  | fetched (turn : Turn) (f : Fetch) (next : Session) (settled : next.traffic.flights = [])
      (sized : next.settings = settings)
      (entities : next.store.entities = f.applied s.store.entities) :
      Took settings s turn (some f) next
  | ended (turn : Turn) : Took settings s turn none s
  | others (change : Store.Change) :
      Took settings s (.others change) none (s.withStore (s.store.apply change))

theorem took (held : Browsing settings s seen) (turn : Turn) :
    Took settings s turn (s.fetch? turn) (s.take turn).2 := by
  cases turn with
  | search request server =>
    obtain ⟨made, settled, sized, entities⟩ :=
      perform_of_call held.settled (held.call?_search request _) server
    rw [fetch?, take, searchRuns, made, Option.map_some]
    refine .fetched _ _ _ settled (sized.trans held.sized) ?_
    rw [entities, Entities.step_searchRuns]
  | more request server =>
    cases more : Fetch.nextToken seen with
    | none =>
      rw [fetch?, take, held.more_without more]
      exact .ended _
    | some token =>
      obtain ⟨made, settled, sized, entities⟩ :=
        perform_of_call held.settled (held.more_after more request) server
      rw [fetch?, take, loadMoreRuns, made, Option.map_some]
      refine .fetched _ _ _ settled (sized.trans held.sized) ?_
      rw [entities, Entities.step_loadMoreRuns]
  | others change => exact .others change

theorem fetched (held : Browsing settings s seen) {next : Session} {f : Fetch}
    (settled : next.traffic.flights = []) (sized : next.settings = settings)
    (entities : next.store.entities = f.applied s.store.entities) :
    Browsing settings next (seen ++ [f]) where
  settled := settled
  sized := sized
  token := by
    rw [entities, Fetch.nextToken_snoc, Fetch.applied]
    cases f.page? with
    | none => exact held.token
    | some page => cases f.search <;> rfl
  runs := by
    rw [entities, Fetch.browsed_snoc, Fetch.applied]
    cases f.page? with
    | none => exact held.runs
    | some page =>
      cases f.search with
      | true => exact Entities.runs_replacePage _ page
      | false => exact Entities.runs_appendPage held.runs page

theorem next (held : Browsing settings s seen) {turn : Turn}
    (apart : ∀ change, turn = .others change → change.leavesRuns = true) :
    Browsing settings (s.take turn).2 (seen ++ (s.fetch? turn).toList) := by
  have took := held.took turn
  generalize s.fetch? turn = fetch at took ⊢
  generalize (s.take turn).2 = next at took ⊢
  cases took with
  | fetched _ f _ settled sized entities => exact held.fetched settled sized entities
  | ended => simpa using held
  | others change =>
    have same := s.store.sameRuns_apply (apart change rfl)
    rw [Option.toList_none, List.append_nil]
    exact {
      settled := held.settled
      sized := held.sized
      token := same.token.trans held.token
      runs := same.runs.trans held.runs }

theorem after (settings : Settings) {turns : List Turn}
    (apart : ∀ change, .others change ∈ turns → change.leavesRuns = true) :
    Browsing settings ((new settings).after turns) ((new settings).fetches turns) := by
  induction turns using List.reverseRecOn with
  | nil => exact .start settings
  | append_singleton turns turn ih =>
    rw [after_snoc, fetches_snoc]
    apply (ih fun change member => apart change (List.mem_append_left _ member)).next
    rintro change rfl
    exact apart change (List.mem_append_right _ List.mem_cons_self)

theorem entities_of_failed (held : Browsing settings s seen) {turn : Turn} {f : Fetch}
    (fetched : s.fetch? turn = some f) (failed : f.page? = none) :
    (s.take turn).2.store.entities = s.store.entities := by
  have took := held.took turn
  rw [fetched] at took
  cases took with
  | fetched _ _ _ _ _ entities => rw [entities, Fetch.applied, failed]

end Browsing

/-- Whatever calls for pages a session has made, the next search starts at the first page, and more
runs are those of the page after the last one that arrived, if there is one. A call that fails leaves
the entities as they were, so that the same page is asked for again. The known runs are those of the
pages since the last search that succeeded. -/
theorem pages_follow_answers (settings : Settings) (turns : List Turn)
    (apart : ∀ change, .others change ∈ turns → change.leavesRuns = true) :
    let s := (new settings).after turns
    let seen := (new settings).fetches turns
    (∀ request server,
      (s.searchRuns request server).1.map (·.query) = some (pageOf settings request none)) ∧
    (∀ request server,
      (s.loadMoreRuns request server).1.map (·.query) =
        (Fetch.nextToken seen).map fun token => pageOf settings request (some token)) ∧
    (Fetch.nextToken seen = none → ∀ request server, s.loadMoreRuns request server = (none, s)) ∧
    (∀ turn f, s.fetch? turn = some f → f.page? = none →
      (s.take turn).2.store.entities = s.store.entities ∧
        ∀ request server, ((s.take turn).2.loadMoreRuns request server).1.map (·.query) =
          (s.loadMoreRuns request server).1.map (·.query)) ∧
    s.store.entities.nextPageToken = Fetch.nextToken seen ∧
    s.store.entities.runs = RunPage.union (Fetch.browsed seen) := by
  intro s seen
  have held : Browsing settings s seen := .after settings apart
  refine ⟨held.query_search, held.query_more, held.more_without, ?_, held.token, held.runs⟩
  intro turn f fetched failed
  refine ⟨held.entities_of_failed fetched failed, fun request server => ?_⟩
  have own : ∀ change, turn = .others change → change.leavesRuns = true := by
    rintro change rfl
    contradiction
  have still := held.next own
  rw [fetched, Option.toList_some] at still
  rw [still.query_more, held.query_more, Fetch.nextToken_snoc, failed]

theorem second_page_is_last :
    let request : RunSearch :=
      { experimentIds := ["0"], filter := some "done", pageToken := some "9", maxResults := none }
    let run (status : RunStatus) (uuid : String) : Run :=
      { info := .new uuid "0" status, data := .none }
    let serve (page : RunPage) : Query → Answer := fun _ op =>
      match op with
      | .searchRuns | .loadMoreRuns => .ok page
      | _ => .error default
    let fail : Query → Answer := fun _ _ => .error default
    let first : RunPage := { runs := [run .running "a", run .running "b"], nextPageToken := some "2" }
    let second : RunPage := { runs := [run .finished "b"], nextPageToken := none }
    let turns : List Turn := [.search request (serve first), .more request fail,
      .others (.dispatch (.untracked (.deleteTag (.run "a") "tag") (.fulfilled ()))),
      .more request (serve second)]
    let s := (new .default).after turns
    let seen := (new .default).fetches turns
    seen.map (·.query) = [pageOf .default request none, pageOf .default request (some "2"),
        pageOf .default request (some "2")] ∧
      (s.searchRuns request fail).1.map (·.query) = some (pageOf .default request none) ∧
      s.loadMoreRuns request fail = (none, s) ∧
      (s.take (.search request fail)).2.store.entities = s.store.entities ∧
      s.store.entities.runs = RunPage.union [first, second] := by
  intro request run serve fail first second turns s seen
  have apart : ∀ change, Turn.others change ∈ turns → change.leavesRuns = true := by
    intro change member
    simp only [turns, List.mem_cons, Turn.others.injEq, reduceCtorEq, List.not_mem_nil, false_or,
      or_false] at member
    rw [member]
    rfl
  obtain ⟨searches, -, ends, fails, -, runs⟩ := pages_follow_answers .default turns apart
  have pages : Fetch.browsed seen = [first, second] := by decide +kernel
  rw [pages] at runs
  refine ⟨by decide +kernel, searches request fail, ends (by decide +kernel) request fail, ?_, runs⟩
  exact (fails (.search request fail) _ rfl rfl).1

end Session

end RunBoard
