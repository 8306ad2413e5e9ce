import Mathlib.Data.List.Forall2
import RunBoard.Proofs.Compare.Rows
import RunBoard.Proofs.Plot.Dimension
import RunBoard.Proofs.Plot.Samples

namespace RunBoard.Plot

open PlotData

theorem completePlaces_eq {d : PlotData} (aligned : d.Aligned) (keys : List AxisKey) :
    completePlaces (keys.map d.raw) d.runs.length = .ok (d.placesWith d.textAt keys) := by
  apply filterM_eq_ok
  intro place listed
  have cell := aligned.getElem?_raw (List.mem_range.mp listed)
  rw [allM_eq_ok fun column => column[place]?.join.isSome, List.all_map]
  · simp only [Function.comp_def, cell, Option.join_some]
  · rw [List.forall_mem_map]
    intro key _
    rw [entryAt_eq_ok (cell key), cell]
    rfl

def textsOf (d : PlotData) (keys : List AxisKey) (key : AxisKey) : List String :=
  (d.placesWith d.textAt keys).filterMap (d.textAt · key)

theorem readAt_textsOf (d : PlotData) {keys : List AxisKey} {key : AxisKey} (listed : key ∈ keys) :
    ReadAt (d.placesWith d.textAt keys) (d.textAt · key) (textsOf d keys key) := by
  rw [ReadAt, textsOf, List.map_filterMap_some_eq_filter_map_isSome, List.filter_eq_self,
    List.forall_mem_map]
  exact fun place complete => (mem_placesWith.mp complete).2 key listed

def selected (params metrics : List String) : List AxisKey :=
  params.map .param ++ metrics.map .metric

theorem readColumn_eq {d : PlotData} (aligned : d.Aligned) (keys : List AxisKey) (key : AxisKey) :
    (d.placesWith d.textAt keys).mapM (entryAt (d.raw key)) =
      .ok ((d.placesWith d.textAt keys).map (d.textAt · key)) := by
  apply mapM_eq_ok
  intro place complete
  exact entryAt_eq_ok (aligned.getElem?_raw (mem_placesWith.mp complete).1 key)

theorem parallelCoordinates_eq {d : PlotData} (aligned : d.Aligned) (params metrics : List String) :
    parallelCoordinates d params metrics =
      .ok ((selected params metrics).map fun key =>
        ⟨key.name, dimensionValues (textsOf d (selected params metrics) key)⟩) := by
  unfold parallelCoordinates
  change (completePlaces ((selected params metrics).map d.raw) d.runs.length >>= fun places => _) = _
  rw [completePlaces_eq aligned, ← List.map_prod_left_eq_zip]
  change List.mapM _ _ = _
  rw [List.mapM_map]
  apply mapM_eq_ok
  intro key _
  change (List.mapM (entryAt (d.raw key)) _ >>= fun texts => _) = _
  rw [readColumn_eq aligned, textsOf, ← Function.id_comp (d.textAt · key), ← List.filterMap_map]
  rfl

theorem isSome_valueAt {β : Type} (d : PlotData) {columns : Table (List (Option β))} {key : String}
    (fits : ∀ {column}, columns[key]? = some column → column.length = d.runs.length)
    (held : key ∈ columns) (shared : isShared columns key = true) {place : Nat}
    (bound : place < d.runs.length) : (valueAt columns key place).isSome = true := by
  have found := Std.ExtTreeMap.getElem?_eq_some_getElem held
  have inside : place < columns[key].length := by
    rw [fits found]
    exact bound
  rw [isShared, found, Option.getD_some, List.all_eq_true] at shared
  rw [valueAt, found, Option.bind_some, List.getElem?_eq_getElem inside, Option.join_some]
  exact shared _ (List.getElem_mem inside)

theorem sharedKeys_complete {d : PlotData} (aligned : d.Aligned) {key : AxisKey} {place : Nat}
    (bound : place < d.runs.length)
    (listed : key ∈ selected d.sharedParamKeys d.sharedMetricKeys) :
    (d.textAt place key).isSome = true := by
  rcases List.mem_append.mp listed with param | metric
  · obtain ⟨name, member, rfl⟩ := List.mem_map.mp param
    obtain ⟨held, shared⟩ := List.mem_filter.mp member
    have key := Std.ExtTreeMap.mem_keys.mp ((Compare.sortKeys_perm _).mem_iff.mp held)
    exact isSome_valueAt d aligned.params key shared bound
  · obtain ⟨name, member, rfl⟩ := List.mem_map.mp metric
    obtain ⟨held, shared⟩ := List.mem_filter.mp member
    have key := Std.ExtTreeMap.mem_keys.mp ((Compare.sortKeys_perm _).mem_iff.mp held)
    rw [textAt, Option.isSome_map]
    exact isSome_valueAt d aligned.metrics key shared bound

theorem selected_subset {params metrics params' metrics' : List String} (fewer : params ⊆ params')
    (also : metrics ⊆ metrics') : selected params metrics ⊆ selected params' metrics' :=
  List.append_subset.mpr ⟨
    List.subset_append_of_subset_left _ (List.map_subset _ fewer),
    List.subset_append_of_subset_right _ (List.map_subset _ also)⟩

theorem placesWith_defaultSelection {d : PlotData} (aligned : d.Aligned) :
    d.placesWith d.textAt (selected (defaultSelection d).1 (defaultSelection d).2) =
      List.range d.runs.length := by
  have chosen : selected (defaultSelection d).1 (defaultSelection d).2 ⊆
      selected d.sharedParamKeys d.sharedMetricKeys :=
    selected_subset (List.take_subset 3 _) (List.take_subset 1 _)
  rw [placesWith, List.filter_eq_self]
  intro place listed
  rw [List.all_eq_true]
  exact fun key member => sharedKeys_complete aligned (List.mem_range.mp listed) (chosen member)

/-- A dimension has the name of its key and tells the texts of the runs at some places. -/
structure Tells (d : PlotData) (places : List Nat) (key : AxisKey) (dimension : Dimension) :
    Prop where
  label : dimension.label = key.name
  size : dimension.values.size = places.length
  texts : ∃ texts, ReadAt places (d.textAt · key) texts ∧ Shows texts dimension.values

/-- Parallel coordinates of aligned columns read no column past its end and have, key by key, a
dimension of the runs that have a value for every key. The default keys leave no run out. -/
theorem parallel_dimensions_tell_runs (d : PlotData) (aligned : d.Aligned)
    (params metrics : List String) :
    (∃ dimensions, parallelCoordinates d params metrics = .ok dimensions ∧
      List.Forall₂ (Tells d (d.placesWith d.textAt (selected params metrics)))
        (selected params metrics) dimensions) ∧
    d.placesWith d.textAt (selected (defaultSelection d).1 (defaultSelection d).2) =
      List.range d.runs.length := by
  refine ⟨⟨_, parallelCoordinates_eq aligned params metrics, ?_⟩, placesWith_defaultSelection aligned⟩
  rw [List.forall₂_map_right_iff, List.forall₂_same]
  intro key listed
  have read := readAt_textsOf d listed
  have shown := shows_dimensionValues (textsOf d (selected params metrics) key)
  have size : (textsOf d (selected params metrics) key).length =
      (d.placesWith d.textAt (selected params metrics)).length := by
    simpa using congrArg List.length read
  exact ⟨rfl, shown.size_eq.trans size, _, read, shown⟩

theorem parallel_dimensions_tell_mixed :
    let d : PlotData := {
      runs := ["a", "b", "c", "d"]
      params := .ofPairs [
        ("opt", [some "sgd", some "7", some "adam", some "sgd"]),
        ("rate", [some "nan", some "2", none, some " 1"])]
      metrics := ∅ }
    d.Aligned ∧ ∃ opt rate, parallelCoordinates d ["opt", "rate"] [] = .ok [opt, rate] ∧
      Shows ["sgd", "7", "sgd"] opt.values ∧ Shows ["nan", "2", " 1"] rate.values := by
  intro d
  have aligned : d.Aligned := by decide +kernel
  obtain ⟨⟨dimensions, shown, told⟩, -⟩ :=
    parallel_dimensions_tell_runs d aligned ["opt", "rate"] []
  refine ⟨aligned, ?_⟩
  cases told with | cons first later =>
  cases later with | cons second none =>
  cases none
  obtain ⟨texts, read, opt⟩ := first.texts
  obtain rfl : texts = ["sgd", "7", "sgd"] := read.unique (by decide +kernel)
  obtain ⟨texts, read, rate⟩ := second.texts
  obtain rfl : texts = ["nan", "2", " 1"] := read.unique (by decide +kernel)
  exact ⟨_, _, shown, opt, rate⟩

end RunBoard.Plot
