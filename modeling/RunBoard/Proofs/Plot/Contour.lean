import RunBoard.Proofs.Compare.Rows
import RunBoard.Proofs.Plot.DefaultAxes
import RunBoard.Proofs.Plot.Samples
import RunBoard.Proofs.Plot.Variation

namespace RunBoard.Plot

open PlotData

theorem defaultContourAxes_eq_ok (params metrics : List String) :
    ∃ axes, defaultContourAxes params metrics = .ok axes ∧
      (axes = none ↔ params.length + metrics.length < 3) := by
  rcases defaultContourAxes_cases params metrics with ⟨few, found⟩ | ⟨enough, axes, found, -⟩
  · exact ⟨none, found, iff_of_true rfl few⟩
  · exact ⟨some axes, found, iff_of_false (Option.some_ne_none axes) (Nat.not_lt_of_le enough)⟩

theorem length_paramKeys (d : PlotData) : d.paramKeys.length = d.params.size :=
  (Compare.sortKeys_perm _).length_eq.trans Std.ExtTreeMap.length_keys

theorem length_metricKeys (d : PlotData) : d.metricKeys.length = d.metrics.size :=
  (Compare.sortKeys_perm _).length_eq.trans Std.ExtTreeMap.length_keys

def Uses (d : PlotData) (chosen : Option ContourAxes) (axes : ContourAxes) : Prop :=
  chosen = some axes ∨
    chosen = none ∧ defaultContourAxes d.paramKeys d.metricKeys = .ok (some axes)

theorem Uses.eq_of_some {d : PlotData} {chosen axes : ContourAxes} (uses : Uses d (some chosen) axes) :
    axes = chosen := by
  rcases uses with same | ⟨absent, -⟩
  · exact (Option.some.inj same).symm
  · contradiction

theorem contourPlot_cases {d : PlotData} (aligned : d.Aligned) (chosen : Option ContourAxes) :
    d.params.size + d.metrics.size < 3 ∧ contourPlot d chosen = .ok .disabled ∨
      3 ≤ d.params.size + d.metrics.size ∧ ∃ axes found, Uses d chosen axes ∧
        Sampled d axes (found.map (·.run)) (found.map (·.x)) (found.map (·.y)) (found.map (·.z)) ∧
        contourPlot d chosen = .ok (.ofSamples found) := by
  obtain ⟨default, read, few⟩ := defaultContourAxes_eq_ok d.paramKeys d.metricKeys
  rw [length_paramKeys, length_metricKeys] at few
  cases default with
  | none =>
    refine .inl ⟨few.mp rfl, ?_⟩
    rw [contourPlot, read]
    rfl
  | some axes =>
    have enough : ¬d.params.size + d.metrics.size < 3 := fun lacking => by
      have absent := few.mpr lacking
      contradiction
    obtain ⟨found, listed, sampled⟩ := sampled aligned (chosen.getD axes)
    refine .inr ⟨Nat.le_of_not_lt enough, chosen.getD axes, found, ?_, sampled, ?_⟩
    · cases chosen with
      | none => exact .inr ⟨rfl, read⟩
      | some other => exact .inl rfl
    · rw [contourPlot, read]
      show (samples d (chosen.getD axes) >>= fun found => _) = _
      rw [listed]
      rfl

theorem ofSamples_cases (found : List Sample) :
    ContourPlot.ofSamples found = .insufficient .x ∧ distinctCount (found.map (·.x)) < 2 ∨
      ContourPlot.ofSamples found = .insufficient .y ∧ 2 ≤ distinctCount (found.map (·.x)) ∧
        distinctCount (found.map (·.y)) < 2 ∨
      ContourPlot.ofSamples found =
          .ready (found.map (·.run)) (found.map (·.x)) (found.map (·.y)) (found.map (·.z)) ∧
        2 ≤ distinctCount (found.map (·.x)) ∧ 2 ≤ distinctCount (found.map (·.y)) := by
  unfold ContourPlot.ofSamples
  by_cases x : distinctCount (found.map (·.x)) < 2
  · exact .inl ⟨if_pos x, x⟩
  · by_cases y : distinctCount (found.map (·.y)) < 2
    · exact .inr (.inl ⟨(if_neg x).trans (if_pos y), Nat.le_of_not_lt x, y⟩)
    · exact .inr (.inr ⟨(if_neg x).trans (if_neg y), Nat.le_of_not_lt x, Nat.le_of_not_lt y⟩)

/-- No plot of aligned columns reads past their end. A contour plot needs three keys, also with axes
of its own, and tells the runs with a number on all its axes; a scatter plot tells those with a number
on both. -/
theorem plots_take_complete_runs (d : PlotData) (aligned : d.Aligned) (chosen : Option ContourAxes)
    (x y : AxisKey) :
    (∃ plot, contourPlot d chosen = .ok plot ∧
      (plot = .disabled ↔ d.params.size + d.metrics.size < 3) ∧
      (plot ≠ .disabled → ∃ axes runs xs ys zs, Uses d chosen axes ∧ Sampled d axes runs xs ys zs ∧
        (plot = .ready runs xs ys zs ∨ plot = .insufficient .x ∧ distinctCount xs < 2 ∨
          plot = .insufficient .y ∧ distinctCount ys < 2))) ∧
    let places := d.placesWith d.numberAt [x, y]
    ReadAt places (d.runs[·]?) ((scatterPoints d x y).map (·.run)) ∧
      ReadAt places (d.numberAt · x) ((scatterPoints d x y).map (·.x)) ∧
      ReadAt places (d.numberAt · y) ((scatterPoints d x y).map (·.y)) := by
  constructor
  · rcases contourPlot_cases aligned chosen with ⟨few, plot⟩ | ⟨enough, axes, found, uses, sampled, plot⟩
    · exact ⟨.disabled, plot, iff_of_true rfl few, fun other => absurd rfl other⟩
    · have outcome := ofSamples_cases found
      generalize ContourPlot.ofSamples found = shown at plot outcome
      refine ⟨shown, plot, ?_, fun _ => ⟨axes, _, _, _, _, uses, sampled, ?_⟩⟩
      · apply iff_of_false _ (Nat.not_lt.mpr enough)
        rcases outcome with ⟨rfl, -⟩ | ⟨rfl, -⟩ | ⟨rfl, -⟩ <;> exact ContourPlot.noConfusion
      · rcases outcome with ⟨same, few⟩ | ⟨same, -, few⟩ | ⟨same, -⟩
        · exact .inr (.inl ⟨same, few⟩)
        · exact .inr (.inr ⟨same, few⟩)
        · exact .inl same
  · refine ⟨?_, ?_, ?_⟩ <;> rw [ReadAt, List.map_map] <;> apply map_points aligned <;>
      intro i run v w listed hv hw
    · exact listed.symm
    · exact hv.symm
    · exact hw.symm

theorem plots_leave_gaps_out :
    let one := Binary64.ofInt 1
    let two := Binary64.ofInt 2
    let d : PlotData := {
      runs := ["a", "b", "c", "d"]
      params := .ofPairs [
        ("rate", [some " 1", some "fast", some "2", some "2"]),
        ("depth", [some "2", some "1", some "1", none])]
      metrics := .ofPairs [("loss", [some two, some two, some one, some one])] }
    let axes : ContourAxes := ⟨.param "rate", .param "depth", .metric "loss"⟩
    d.Aligned ∧
      contourPlot d (some axes) = .ok (.ready ["a", "c"] [one, two] [two, one] [two, one]) ∧
      (scatterPoints d (.param "rate") (.param "gone")).map (·.run) = [] := by
  intro one two d axes
  have aligned : d.Aligned := by decide +kernel
  obtain ⟨⟨plot, shown, disabled, told⟩, runs, -⟩ :=
    plots_take_complete_runs d aligned (some axes) (.param "rate") (.param "gone")
  refine ⟨aligned, ?_, runs.unique (by decide +kernel)⟩
  have enough : ¬d.params.size + d.metrics.size < 3 := by decide +kernel
  obtain ⟨used, runs, xs, ys, zs, uses, sampled, outcome⟩ := told fun same => enough (disabled.mp same)
  obtain rfl : used = axes := uses.eq_of_some
  obtain rfl : runs = ["a", "c"] := sampled.runs.unique (by decide +kernel)
  obtain rfl : xs = [one, two] := sampled.x.unique (by decide +kernel)
  obtain rfl : ys = [two, one] := sampled.y.unique (by decide +kernel)
  obtain rfl : zs = [two, one] := sampled.z.unique (by decide +kernel)
  simp only [distinctCount_lt_two_iff] at outcome
  rcases outcome with rfl | ⟨-, alike⟩ | ⟨-, alike⟩
  · exact shown
  · exact absurd alike (by decide +kernel)
  · exact absurd alike (by decide +kernel)

/-- A contour plot of aligned columns is there exactly when both axes vary; of two axes that do not,
the first is reported. -/
theorem contour_axes_vary (d : PlotData) (aligned : d.Aligned) (chosen : Option ContourAxes) :
    d.params.size + d.metrics.size < 3 ∧ contourPlot d chosen = .ok .disabled ∨
      ∃ axes runs x y z, Uses d chosen axes ∧ Sampled d axes runs x y z ∧
        (contourPlot d chosen = .ok (.insufficient .x) ↔ ¬Varied x) ∧
        (contourPlot d chosen = .ok (.insufficient .y) ↔ Varied x ∧ ¬Varied y) ∧
        (contourPlot d chosen = .ok (.ready runs x y z) ↔ Varied x ∧ Varied y) := by
  rcases contourPlot_cases aligned chosen with disabled | ⟨-, axes, found, uses, sampled, plot⟩
  · exact .inl disabled
  refine .inr ⟨axes, _, _, _, _, uses, sampled, ?_⟩
  have outcome := ofSamples_cases found
  simp only [← Nat.not_le, ← varied_iff] at outcome
  rw [plot]
  rcases outcome with ⟨shown, x⟩ | ⟨shown, x, y⟩ | ⟨shown, x, y⟩ <;> rw [shown] <;> simp [*]

theorem contour_axes_vary_zeros :
    let d : PlotData := {
      runs := ["a", "b", "c"]
      params := .ofPairs [
        ("rate", [some "0", some "-0", some "7"]), ("depth", [some "1", some "2", some "deep"])]
      metrics := .ofPairs [("loss", [some default, some default, some default])] }
    let axes : ContourAxes := ⟨.param "rate", .param "depth", .metric "loss"⟩
    d.Aligned ∧ contourPlot d (some axes) = .ok (.insufficient .x) := by
  intro d axes
  have aligned : d.Aligned := by decide +kernel
  refine ⟨aligned, ?_⟩
  rcases contour_axes_vary d aligned (some axes) with
    ⟨few, -⟩ | ⟨used, runs, x, y, z, uses, sampled, insufficient, -⟩
  · exact absurd few (by decide +kernel)
  · obtain rfl : used = axes := uses.eq_of_some
    obtain rfl : x = [.ofMagnitude false 0, .ofMagnitude true 0] := sampled.x.unique (by decide +kernel)
    exact insufficient.mpr (by decide +kernel)

/-- Runs whose params are both NaN make a plot, though the axis has no number at all. -/
theorem nan_axis_is_ready :
    let nan := Binary64.nan false
    let one := Binary64.ofInt 1
    let two := Binary64.ofInt 2
    let d : PlotData := {
      runs := ["a", "b"]
      params := .ofPairs [("x", [some "nan", some "nan"]), ("y", [some "1", some "2"])]
      metrics := .ofPairs [("z", [some one, some two])] }
    let axes : ContourAxes := ⟨.param "x", .param "y", .metric "z"⟩
    d.Aligned ∧ contourPlot d (some axes) = .ok (.ready ["a", "b"] [nan, nan] [one, two] [one, two]) ∧
      ¬∃ v ∈ [nan, nan], ∃ w ∈ [nan, nan], v.isNaN = false ∧ w.isNaN = false ∧ v.same w = false := by
  intro nan one two d axes
  have aligned : d.Aligned := by decide +kernel
  refine ⟨aligned, ?_, by decide +kernel⟩
  rcases contourPlot_cases aligned (some axes) with ⟨few, -⟩ | ⟨-, used, found, uses, sampled, plot⟩
  · exact absurd few (by decide +kernel)
  · obtain rfl : used = axes := uses.eq_of_some
    rw [plot]
    have runs : found.map (·.run) = ["a", "b"] := sampled.runs.unique (by decide +kernel)
    have x : found.map (·.x) = [nan, nan] := sampled.x.unique (by decide +kernel)
    have y : found.map (·.y) = [one, two] := sampled.y.unique (by decide +kernel)
    have z : found.map (·.z) = [one, two] := sampled.z.unique (by decide +kernel)
    have outcome := ofSamples_cases found
    simp only [runs, x, y, z, ← Nat.not_le, ← varied_iff] at outcome
    rcases outcome with ⟨-, bare⟩ | ⟨-, -, bare⟩ | ⟨shown, -⟩
    · exact absurd (by decide +kernel) bare
    · exact absurd (by decide +kernel) bare
    · rw [shown]

end RunBoard.Plot
