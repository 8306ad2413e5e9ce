import RunBoard.Plot.Numeric
import RunBoard.Proofs.Plot.Places

namespace RunBoard.Plot

open PlotData

def ReadAt {γ : Type} (places : List Nat) (value : Nat → Option γ) (values : List γ) : Prop :=
  values.map some = places.map value

theorem ReadAt.unique {γ : Type} {places : List Nat} {value : Nat → Option γ} {values other : List γ}
    (read : ReadAt places value values) (again : places.map value = other.map some) :
    values = other :=
  (List.map_inj_right fun _ _ => Option.some.inj).mp (Eq.trans read again)

def ContourAxes.keys (axes : ContourAxes) : List AxisKey := [axes.x, axes.y, axes.z]

/-- The lists of a contour plot tell the runs that have a number on all three axes. -/
structure Sampled (d : PlotData) (axes : ContourAxes) (runs : List String) (x y z : List Binary64) :
    Prop where
  runs : ReadAt (d.placesWith d.numberAt axes.keys) (d.runs[·]?) runs
  x : ReadAt (d.placesWith d.numberAt axes.keys) (d.numberAt · axes.x) x
  y : ReadAt (d.placesWith d.numberAt axes.keys) (d.numberAt · axes.y) y
  z : ReadAt (d.placesWith d.numberAt axes.keys) (d.numberAt · axes.z) z

def sampleAt (d : PlotData) (axes : ContourAxes) (entry : String × Nat) : Option Sample :=
  sample? entry.1 (d.numberAt entry.2 axes.x) (d.numberAt entry.2 axes.y) (d.numberAt entry.2 axes.z)

theorem samples_eq {d : PlotData} (aligned : d.Aligned) (axes : ContourAxes) :
    samples d axes = .ok (d.runs.zipIdx.filterMap (sampleAt d axes)) := by
  rw [samples, mapM_eq_ok (sampleAt d axes)]
  · show Except.ok (((d.runs.zipIdx).map (sampleAt d axes)).filterMap id) = _
    rw [List.filterMap_map]
    rfl
  · intro entry member
    have bound : entry.2 < d.runs.length := by
      obtain ⟨-, inside, -⟩ := List.mem_zipIdx member
      omega
    rw [entryAt_eq_ok (aligned.getElem?_numeric bound axes.x),
      entryAt_eq_ok (aligned.getElem?_numeric bound axes.y),
      entryAt_eq_ok (aligned.getElem?_numeric bound axes.z)]
    rfl

theorem map_samples {γ : Type} {d : PlotData} {axes : ContourAxes} {shown : Sample → γ}
    {value : Nat → γ}
    (told : ∀ i run x y z, d.runs[i]? = some run → d.numberAt i axes.x = some x →
      d.numberAt i axes.y = some y → d.numberAt i axes.z = some z → shown ⟨run, x, y, z⟩ = value i) :
    (d.runs.zipIdx.filterMap (sampleAt d axes)).map shown =
      (d.placesWith d.numberAt axes.keys).map value := by
  rw [placesWith, ← List.length_zipIdx]
  apply map_filterMap_eq
  intro i entry found
  rw [List.getElem?_zipIdx, Option.map_eq_some_iff] at found
  obtain ⟨run, listed, rfl⟩ := found
  simp only [ContourAxes.keys, List.all_cons, List.all_nil, Bool.and_true, sampleAt, Nat.zero_add]
  cases x : d.numberAt i axes.x <;> cases y : d.numberAt i axes.y <;>
    cases z : d.numberAt i axes.z <;> simp [sample?]
  exact told i run _ _ _ listed x y z

theorem sampled {d : PlotData} (aligned : d.Aligned) (axes : ContourAxes) :
    ∃ found, samples d axes = .ok found ∧
      Sampled d axes (found.map (·.run)) (found.map (·.x)) (found.map (·.y)) (found.map (·.z)) := by
  refine ⟨_, samples_eq aligned axes, ?_, ?_, ?_, ?_⟩ <;> rw [ReadAt, List.map_map] <;>
    apply map_samples <;> intro i run x y z listed hx hy hz
  · exact listed.symm
  · exact hx.symm
  · exact hy.symm
  · exact hz.symm

theorem map_points {γ : Type} {d : PlotData} (aligned : d.Aligned) {x y : AxisKey}
    {shown : Point → γ} {value : Nat → γ}
    (told : ∀ i run v w, d.runs[i]? = some run → d.numberAt i x = some v →
      d.numberAt i y = some w → shown ⟨run, v, w⟩ = value i) :
    (scatterPoints d x y).map shown = (d.placesWith d.numberAt [x, y]).map value := by
  have width : (d.runs.zip ((d.numeric x).zip (d.numeric y))).length = d.runs.length := by
    simp [aligned.length_numeric]
  rw [placesWith, ← width]
  apply map_filterMap_eq
  rintro i ⟨run, v, w⟩ found
  obtain ⟨listed, numbers⟩ := List.getElem?_zip_eq_some.mp found
  obtain ⟨left, right⟩ := List.getElem?_zip_eq_some.mp numbers
  have bound := (List.getElem?_eq_some_iff.mp listed).1
  rw [aligned.getElem?_numeric bound] at left right
  simp only [List.all_cons, List.all_nil, Bool.and_true, Option.some.inj left, Option.some.inj right]
  cases v <;> cases w <;> simp
  exact told i run _ _ listed (Option.some.inj left) (Option.some.inj right)

end RunBoard.Plot
