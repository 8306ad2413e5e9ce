import RunBoard.Plot.Numeric

namespace RunBoard.Plot

def axisKeys (params metrics : List String) : List AxisKey :=
  params.map .param ++ metrics.map .metric

theorem nodup_axisKeys {params metrics : List String} (paramsOnce : params.Nodup)
    (metricsOnce : metrics.Nodup) : (axisKeys params metrics).Nodup := by
  have paramKeys : (params.map AxisKey.param).Nodup :=
    List.pairwise_map.mpr (paramsOnce.imp fun apart same => apart (AxisKey.param.inj same))
  have metricKeys : (metrics.map AxisKey.metric).Nodup :=
    List.pairwise_map.mpr (metricsOnce.imp fun apart same => apart (AxisKey.metric.inj same))
  apply List.nodup_append.mpr
  refine ⟨paramKeys, metricKeys, ?_⟩
  intro a param b metric same
  obtain ⟨_, -, rfl⟩ := List.mem_map.mp param
  obtain ⟨_, -, rfl⟩ := List.mem_map.mp metric
  contradiction

/-- Different keys of the plot, the first of them a param if it has one, and one of them a metric if
it has one. -/
structure Chosen (params metrics : List String) (axes : List AxisKey) : Prop where
  apart : axes.Nodup
  known : ∀ axis ∈ axes,
    (∃ key ∈ params, axis = .param key) ∨ ∃ key ∈ metrics, axis = .metric key
  param : params ≠ [] → ∃ key ∈ params, axes.head? = some (.param key)
  metric : metrics ≠ [] → ∃ key ∈ metrics, AxisKey.metric key ∈ axes

/-- The first params and then the first metrics, at least one of either if there is one. -/
def Leads (params metrics : List String) (axes : List AxisKey) : Prop :=
  ∃ i j, axes = axisKeys (params.take i) (metrics.take j) ∧ (params ≠ [] → 0 < i) ∧
    (metrics ≠ [] → 0 < j)

theorem Leads.chosen {params metrics : List String} {axes : List AxisKey}
    (leads : Leads params metrics axes) (paramsOnce : params.Nodup) (metricsOnce : metrics.Nodup) :
    Chosen params metrics axes := by
  obtain ⟨i, j, rfl, someParam, someMetric⟩ := leads
  constructor
  · exact nodup_axisKeys (paramsOnce.sublist (List.take_sublist i params))
      (metricsOnce.sublist (List.take_sublist j metrics))
  · intro axis member
    rcases List.mem_append.mp member with param | metric
    · obtain ⟨key, taken, rfl⟩ := List.mem_map.mp param
      exact .inl ⟨key, List.mem_of_mem_take taken, rfl⟩
    · obtain ⟨key, taken, rfl⟩ := List.mem_map.mp metric
      exact .inr ⟨key, List.mem_of_mem_take taken, rfl⟩
  · intro some_key
    obtain ⟨first, rest, rfl⟩ := List.exists_cons_of_ne_nil some_key
    obtain ⟨more, rfl⟩ := Nat.exists_eq_add_of_lt (someParam some_key)
    exact ⟨first, List.mem_cons_self, by simp [axisKeys]⟩
  · intro some_key
    obtain ⟨first, rest, rfl⟩ := List.exists_cons_of_ne_nil some_key
    obtain ⟨more, rfl⟩ := Nat.exists_eq_add_of_lt (someMetric some_key)
    exact ⟨first, List.mem_cons_self, by simp [axisKeys]⟩

theorem ne_of_nodup {a b : String} {rest : List String} (once : (a :: b :: rest).Nodup) : b ≠ a := by
  rintro rfl
  exact (List.nodup_cons.mp once).1 List.mem_cons_self

theorem defaultScatterAxes_cases {params metrics : List String} (paramsOnce : params.Nodup)
    (metricsOnce : metrics.Nodup) :
    (params.length + metrics.length < 2 ∧ defaultScatterAxes params metrics = none) ∨
      2 ≤ params.length + metrics.length ∧
      ∃ x y, defaultScatterAxes params metrics = some (x, y) ∧ Leads params metrics [x, y] := by
  match params, metrics with
  | [], [] => exact .inl ⟨by decide, rfl⟩
  | [p], [] => exact .inl ⟨by simp, by simp [defaultScatterAxes]⟩
  | [], [m] => exact .inl ⟨by simp, by simp [defaultScatterAxes]⟩
  | p :: q :: rest, [] =>
    have apart := ne_of_nodup paramsOnce
    have found : defaultScatterAxes (p :: q :: rest) [] = some (.param p, .param q) := by
      simp [defaultScatterAxes, apart]
    exact .inr ⟨by simp, _, _, found, 2, 0, rfl, by simp, by simp⟩
  | [], m :: n :: rest =>
    have apart := ne_of_nodup metricsOnce
    have found : defaultScatterAxes [] (m :: n :: rest) = some (.metric m, .metric n) := by
      simp [defaultScatterAxes, apart]
    exact .inr ⟨by simp, _, _, found, 0, 2, rfl, by simp, by simp⟩
  | p :: rest, m :: more =>
    have found : defaultScatterAxes (p :: rest) (m :: more) = some (.param p, .metric m) := by
      simp [defaultScatterAxes]
    exact .inr ⟨by simp; omega, _, _, found, 1, 1, rfl, by simp, by simp⟩

theorem exists_three {keys : List String} (enough : 3 ≤ keys.length) :
    ∃ a b c rest, keys = a :: b :: c :: rest := by
  match keys with
  | a :: b :: c :: rest => exact ⟨a, b, c, rest, rfl⟩
  | [] | [_] | [_, _] => simp at enough

theorem defaultContourAxes_cases (params metrics : List String) :
    (params.length + metrics.length < 3 ∧ defaultContourAxes params metrics = .ok none) ∨
      3 ≤ params.length + metrics.length ∧
      ∃ axes, defaultContourAxes params metrics = .ok (some axes) ∧
        Leads params metrics [axes.x, axes.y, axes.z] := by
  by_cases few : params.length + metrics.length < 3
  · exact .inl ⟨few, if_pos few⟩
  have enough := Nat.le_of_not_lt few
  refine .inr ⟨enough, ?_⟩
  rw [defaultContourAxes, if_neg few]
  cases params with
  | nil =>
    obtain ⟨a, b, c, rest, rfl⟩ := exists_three (by simpa using enough)
    exact ⟨⟨.metric a, .metric b, .metric c⟩, rfl, 0, 3, rfl, by simp, by simp⟩
  | cons p others =>
    cases metrics with
    | nil =>
      have long : 3 ≤ (p :: others).length := enough
      obtain ⟨a, b, c, rest, same⟩ := exists_three long
      rw [same]
      exact ⟨⟨.param a, .param b, .param c⟩, rfl, 3, 0, rfl, by simp, by simp⟩
    | cons m more =>
      cases others with
      | nil =>
        obtain ⟨n, rest, rfl⟩ := List.exists_cons_of_length_pos (l := more) (by simp at enough; omega)
        exact ⟨⟨.param p, .metric m, .metric n⟩, rfl, 1, 2, rfl, by simp, by simp⟩
      | cons q rest =>
        have several : (p :: q :: rest).length ≠ 1 := by simp
        refine ⟨⟨.param p, .param q, .metric m⟩, ?_, 2, 1, rfl, by simp, by simp⟩
        simp only [if_neg several]
        rfl

/-- As many axes are chosen as a scatter plot or a contour plot needs exactly when there are as many
keys, and no key is read that is not there. The axes are different keys, the first is a param if
there is one, and there is a metric among them if there is one. -/
theorem default_axes_of_distinct_keys {params metrics : List String} (paramsOnce : params.Nodup)
    (metricsOnce : metrics.Nodup) :
    ((defaultScatterAxes params metrics).isSome = true ↔ 2 ≤ params.length + metrics.length) ∧
    (∀ x y, defaultScatterAxes params metrics = some (x, y) → Chosen params metrics [x, y]) ∧
    ∃ chosen, defaultContourAxes params metrics = .ok chosen ∧
      (chosen.isSome = true ↔ 3 ≤ params.length + metrics.length) ∧
      ∀ axes, chosen = some axes → Chosen params metrics [axes.x, axes.y, axes.z] := by
  refine ⟨?_, ?_, ?_⟩
  · rcases defaultScatterAxes_cases paramsOnce metricsOnce with ⟨few, found⟩ | ⟨enough, x, y, found, -⟩
    · rw [found]
      exact iff_of_false Bool.false_ne_true (Nat.not_le_of_lt few)
    · rw [found]
      exact iff_of_true rfl enough
  · intro x y same
    rcases defaultScatterAxes_cases paramsOnce metricsOnce with ⟨-, found⟩ | ⟨-, _, _, found, leads⟩
    · rw [found] at same
      contradiction
    · rw [found] at same
      obtain ⟨rfl, rfl⟩ := Prod.mk.inj (Option.some.inj same)
      exact leads.chosen paramsOnce metricsOnce
  · rcases defaultContourAxes_cases params metrics with ⟨few, found⟩ | ⟨enough, own, found, leads⟩
    · exact ⟨none, found, iff_of_false Bool.false_ne_true (Nat.not_le_of_lt few), nofun⟩
    · refine ⟨some own, found, iff_of_true rfl enough, ?_⟩
      rintro axes same
      obtain rfl := Option.some.inj same
      exact leads.chosen paramsOnce metricsOnce

theorem default_axes_of_shared_name :
    let params := ["lr"]
    let metrics := ["lr", "loss"]
    (params.Nodup ∧ metrics.Nodup) ∧
      Chosen params metrics [.param "lr", .metric "lr"] ∧
      ∃ axes, defaultContourAxes params metrics = .ok (some axes) ∧
        axes = ⟨.param "lr", .metric "lr", .metric "loss"⟩ ∧
        Chosen params metrics [axes.x, axes.y, axes.z] := by
  intro params metrics
  have paramsOnce : params.Nodup := by decide
  have metricsOnce : metrics.Nodup := by decide
  obtain ⟨-, scatter, chosen, found, -, contour⟩ :=
    default_axes_of_distinct_keys paramsOnce metricsOnce
  have read : defaultContourAxes params metrics =
      .ok (some ⟨.param "lr", .metric "lr", .metric "loss"⟩) := rfl
  obtain rfl := Except.ok.inj (found.symm.trans read)
  exact ⟨⟨paramsOnce, metricsOnce⟩, scatter _ _ (by decide), _, read, rfl, contour _ rfl⟩

end RunBoard.Plot
