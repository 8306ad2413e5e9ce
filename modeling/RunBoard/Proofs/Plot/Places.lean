import Mathlib.Data.List.Induction
import RunBoard.Plot.Data

namespace RunBoard.Plot

section

variable {α β ε : Type}

theorem entryAt_eq_ok {items : List α} {place : Nat} {item : α} (found : items[place]? = some item) :
    entryAt items place = .ok item := by
  rw [entryAt, found]

theorem mapM_eq_ok {step : α → Except ε β} (result : α → β) {items : List α}
    (returns : ∀ item ∈ items, step item = .ok (result item)) :
    items.mapM step = .ok (items.map result) := by
  induction items with
  | nil => rfl
  | cons item rest ih =>
    obtain ⟨first, later⟩ := List.forall_mem_cons.mp returns
    rw [List.mapM_cons, first, ih later]
    rfl

theorem allM_eq_ok {step : α → Except ε Bool} (result : α → Bool) {items : List α}
    (returns : ∀ item ∈ items, step item = .ok (result item)) :
    items.allM step = .ok (items.all result) := by
  induction items with
  | nil => rfl
  | cons item rest ih =>
    obtain ⟨first, later⟩ := List.forall_mem_cons.mp returns
    rw [List.allM, first, List.all_cons]
    cases result item with
    | false => rfl
    | true => exact ih later

theorem filterM_eq_ok {step : α → Except ε Bool} (result : α → Bool) {items : List α}
    (returns : ∀ item ∈ items, step item = .ok (result item)) :
    items.filterM step = .ok (items.filter result) := by
  -- The loop gathers backwards, in front of what it has kept already.
  have gathered (kept : List α) :
      items.filterAuxM step kept = .ok ((items.filter result).reverse ++ kept) := by
    induction items generalizing kept with
    | nil => rfl
    | cons item rest ih =>
      obtain ⟨first, later⟩ := List.forall_mem_cons.mp returns
      rw [List.filterAuxM, first]
      cases keep : result item with
      | false =>
        rw [List.filter_cons_of_neg (by simp [keep])]
        exact ih later kept
      | true =>
        rw [List.filter_cons_of_pos keep, List.reverse_cons, List.append_assoc]
        exact ih later (item :: kept)
  rw [List.filterM, gathered]
  simp [bind, Except.bind, pure, Except.pure]

theorem map_filterMap_eq {γ : Type} {items : List α} {pick : α → Option β} {shown : β → γ}
    {keep : Nat → Bool} {value : Nat → γ}
    (told : ∀ i item, items[i]? = some item →
      (pick item).map shown = if keep i then some (value i) else none) :
    (items.filterMap pick).map shown = ((List.range items.length).filter keep).map value := by
  induction items using List.reverseRecOn with
  | nil => rfl
  | append_singleton earlier item ih =>
    have before := ih fun i other found => by
      have bound := (List.getElem?_eq_some_iff.mp found).1
      exact told i other (by rw [List.getElem?_append_left bound]; exact found)
    have last := told earlier.length item List.getElem?_concat_length
    rw [List.filterMap_append, List.map_append, before, List.length_append, List.length_singleton,
      List.range_succ, List.filter_append, List.map_append]
    congr 1
    cases kept : keep earlier.length with
    | false =>
      rw [kept] at last
      simp [kept, Option.map_eq_none_iff.mp last]
    | true =>
      rw [kept, if_pos rfl] at last
      obtain ⟨picked, found, same⟩ := Option.map_eq_some_iff.mp last
      simp [kept, found, same]

end

namespace PlotData

/-- Every column has one entry for each run. -/
structure Aligned (d : PlotData) : Prop where
  params {key : String} {column : List (Option String)} :
    d.params[key]? = some column → column.length = d.runs.length
  metrics {key : String} {column : List (Option Binary64)} :
    d.metrics[key]? = some column → column.length = d.runs.length

theorem aligned_iff (d : PlotData) :
    d.Aligned ↔ (∀ column ∈ d.params.values, column.length = d.runs.length) ∧
      ∀ column ∈ d.metrics.values, column.length = d.runs.length := by
  constructor
  · intro aligned
    constructor <;> intro column listed
    · obtain ⟨key, held⟩ := (Table.mem_values_iff ..).mp listed
      exact aligned.params held
    · obtain ⟨key, held⟩ := (Table.mem_values_iff ..).mp listed
      exact aligned.metrics held
  · rintro ⟨params, metrics⟩
    constructor <;> intro key column held
    · exact params column ((Table.mem_values_iff ..).mpr ⟨key, held⟩)
    · exact metrics column ((Table.mem_values_iff ..).mpr ⟨key, held⟩)

instance (d : PlotData) : Decidable d.Aligned := decidable_of_iff _ d.aligned_iff.symm

def valueAt {β : Type} (columns : Table (List (Option β))) (key : String) (place : Nat) : Option β :=
  (columns[key]?.bind (·[place]?)).join

def textAt (d : PlotData) (place : Nat) : AxisKey → Option String
  | .param key => valueAt d.params key place
  | .metric key => (valueAt d.metrics key place).map Binary64.toText

def numberAt (d : PlotData) (place : Nat) : AxisKey → Option Binary64
  | .param key => (valueAt d.params key place).bind Compare.numberOf?
  | .metric key => valueAt d.metrics key place

/-- The places of the runs that have a value under each of the keys. -/
def placesWith {β : Type} (d : PlotData) (value : Nat → AxisKey → Option β) (keys : List AxisKey) :
    List Nat :=
  (List.range d.runs.length).filter fun place => keys.all fun key => (value place key).isSome

theorem mem_placesWith {β : Type} {d : PlotData} {value : Nat → AxisKey → Option β}
    {keys : List AxisKey} {place : Nat} :
    place ∈ d.placesWith value keys ↔
      place < d.runs.length ∧ ∀ key ∈ keys, (value place key).isSome = true := by
  rw [placesWith, List.mem_filter, List.mem_range, List.all_eq_true]

theorem numeric_param (d : PlotData) (key : String) :
    d.numeric (.param key) =
      (d.params[key]?.getD d.blankColumn).map fun entry => entry.bind Compare.numberOf? := by
  cases held : d.params[key]? <;> simp [numeric, blankColumn, held]

theorem raw_metric (d : PlotData) (key : String) :
    d.raw (.metric key) =
      (d.metrics[key]?.getD d.blankColumn).map fun entry => entry.map Binary64.toText := by
  cases held : d.metrics[key]? <;> simp [raw, blankColumn, held]

theorem length_getD_blankColumn {β : Type} (d : PlotData) {columns : Table (List (Option β))}
    {key : String} (fits : ∀ {column}, columns[key]? = some column → column.length = d.runs.length) :
    (columns[key]?.getD d.blankColumn).length = d.runs.length := by
  cases held : columns[key]? with
  | none => exact List.length_map _
  | some column => exact fits held

theorem getElem?_getD_blankColumn {β : Type} (d : PlotData) {columns : Table (List (Option β))}
    {key : String} (fits : ∀ {column}, columns[key]? = some column → column.length = d.runs.length)
    {place : Nat} (bound : place < d.runs.length) :
    (columns[key]?.getD d.blankColumn)[place]? = some (valueAt columns key place) := by
  cases held : columns[key]? with
  | none => simp [valueAt, blankColumn, held, bound]
  | some column =>
    have inside : place < column.length := by
      rw [fits held]
      exact bound
    simp [valueAt, held, inside]

theorem Aligned.getElem?_numeric {d : PlotData} (aligned : d.Aligned) {place : Nat}
    (bound : place < d.runs.length) (key : AxisKey) :
    (d.numeric key)[place]? = some (d.numberAt place key) := by
  cases key with
  | param key =>
    rw [numeric_param, List.getElem?_map, d.getElem?_getD_blankColumn aligned.params bound]
    rfl
  | metric key => exact d.getElem?_getD_blankColumn aligned.metrics bound

theorem Aligned.length_numeric {d : PlotData} (aligned : d.Aligned) (key : AxisKey) :
    (d.numeric key).length = d.runs.length := by
  cases key with
  | param key =>
    rw [numeric_param, List.length_map, length_getD_blankColumn d aligned.params]
  | metric key => exact length_getD_blankColumn d aligned.metrics

theorem Aligned.getElem?_raw {d : PlotData} (aligned : d.Aligned) {place : Nat}
    (bound : place < d.runs.length) (key : AxisKey) :
    (d.raw key)[place]? = some (d.textAt place key) := by
  cases key with
  | param key => exact d.getElem?_getD_blankColumn aligned.params bound
  | metric key =>
    rw [raw_metric, List.getElem?_map, d.getElem?_getD_blankColumn aligned.metrics bound]
    rfl

end PlotData

end RunBoard.Plot
