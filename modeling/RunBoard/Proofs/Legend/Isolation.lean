import RunBoard.Legend.Visibility

namespace RunBoard.Legend.Visibility

def IsOnlyVisible (v : Visibility) (plotted : List String) (series : String) : Prop :=
  ∀ key, key ∈ plotted ∧ v.isVisible key = true ↔ key = series

def alone (plotted : List String) (series : String) : Visibility :=
  hide (plotted.filter (· != series))

theorem eq_of_isVisible {v w : Visibility} (same : ∀ key, v.isVisible key = w.isVisible key) :
    v = w := by
  obtain ⟨hidden⟩ := v
  obtain ⟨others⟩ := w
  congr
  apply Std.ExtTreeMap.ext_contains_unit
  intro key
  exact Bool.not_inj (same key)

theorem isVisible_all (key : String) : all.isVisible key = true := by
  simp [all, isVisible]

theorem isVisible_hide (series : List String) (key : String) :
    (hide series).isVisible key = true ↔ key ∉ series := by
  rw [isVisible, Bool.not_eq_true', ← Bool.not_eq_true, Std.ExtTreeMap.contains_iff_mem, hide,
    Table.mem_ofPairs_iff]
  simp

theorem isVisible_toggle (v : Visibility) (plotted : List String) (series key : String) :
    (v.apply plotted (.toggle series)).isVisible key =
      if key = series then !v.isVisible key else v.isVisible key := by
  by_cases own : key = series
  · subst own
    rw [if_pos rfl, apply]
    split
    · rename_i visible
      rw [visible]
      simp [isVisible]
    · rename_i hidden
      rw [Bool.not_eq_true] at hidden
      rw [hidden]
      simp [isVisible]
  · have other : series ≠ key := Ne.symm own
    rw [if_neg own, apply]
    split <;> simp [isVisible, Std.ExtTreeMap.contains_insert, Std.ExtTreeMap.contains_erase, other]

theorem toggle_toggle (v : Visibility) (plotted other : List String) (series : String) :
    (v.apply plotted (.toggle series)).apply other (.toggle series) = v := by
  apply eq_of_isVisible
  intro key
  rw [isVisible_toggle, isVisible_toggle]
  by_cases own : key = series
  · rw [if_pos own, if_pos own, Bool.not_not]
  · rw [if_neg own, if_neg own]

section Isolate

variable {plotted : List String} {series : String}

theorem isVisible_alone (plotted : List String) (series key : String) :
    (alone plotted series).isVisible key = true ↔ key ∉ plotted ∨ key = series := by
  rw [alone, isVisible_hide, List.mem_filter, bne_iff_ne, ne_eq,
    Decidable.not_and_iff_not_or_not, Decidable.not_not]

theorem isOnlyVisible_alone (listed : series ∈ plotted) :
    (alone plotted series).IsOnlyVisible plotted series := by
  intro key
  rw [isVisible_alone]
  constructor
  · rintro ⟨member, stale | own⟩
    · exact absurd member stale
    · exact own
  · rintro rfl
    exact ⟨listed, .inr rfl⟩

theorem isOnlyVisible_iff (v : Visibility) (listed : series ∈ plotted) :
    v.IsOnlyVisible plotted series ↔
      plotted.all (fun key => (key == series) == v.isVisible key) = true := by
  rw [List.all_eq_true]
  constructor
  · intro only key member
    rw [beq_iff_eq, Bool.eq_iff_iff, beq_iff_eq, ← only key]
    exact and_iff_right member
  · intro tested key
    have own (member : key ∈ plotted) : key = series ↔ v.isVisible key = true := by
      have test := tested key member
      rwa [beq_iff_eq, Bool.eq_iff_iff, beq_iff_eq] at test
    constructor
    · rintro ⟨member, visible⟩
      exact (own member).mpr visible
    · rintro rfl
      exact ⟨listed, (own listed).mp rfl⟩

theorem isolate_of_only {v : Visibility} (listed : series ∈ plotted)
    (only : v.IsOnlyVisible plotted series) : v.apply plotted (.isolate series) = all :=
  if_pos ((v.isOnlyVisible_iff listed).mp only)

theorem isolate_of_not_only {v : Visibility} (listed : series ∈ plotted)
    (among : ¬v.IsOnlyVisible plotted series) :
    v.apply plotted (.isolate series) = alone plotted series :=
  if_neg fun tested => among ((v.isOnlyVisible_iff listed).mpr tested)

theorem isolate_alone (listed : series ∈ plotted) :
    (alone plotted series).apply plotted (.isolate series) = all :=
  isolate_of_only listed (isOnlyVisible_alone listed)

theorem isolate_all (listed : series ∈ plotted) :
    all.apply plotted (.isolate series) = alone plotted series := by
  by_cases only : all.IsOnlyVisible plotted series
  · rw [isolate_of_only listed only]
    apply eq_of_isVisible
    intro key
    have shown : key ∉ plotted ∨ key = series := by
      by_cases member : key ∈ plotted
      · exact .inr ((only key).mp ⟨member, isVisible_all key⟩)
      · exact .inl member
    rw [isVisible_all, (isVisible_alone plotted series key).mpr shown]
  · exact isolate_of_not_only listed only

theorem isolate_isolate_isolate (v : Visibility) (listed : series ∈ plotted) :
    ((v.apply plotted (.isolate series)).apply plotted (.isolate series)).apply plotted
      (.isolate series) = v.apply plotted (.isolate series) := by
  by_cases only : v.IsOnlyVisible plotted series
  · rw [isolate_of_only listed only, isolate_all listed, isolate_alone listed]
  · rw [isolate_of_not_only listed only, isolate_alone listed, isolate_all listed]

end Isolate

/-- Whatever is hidden, be it plotted or not. A plotted series stays visible when it is isolated: with
all the others if it was the only visible one of them, and alone otherwise; the third time does what the
first did. A toggle turns one series over, and the next one turns it back. -/
theorem isolate_alternates_toggle_restores (v : Visibility) (plotted : List String) :
    (∀ series ∈ plotted,
      let isolated := v.apply plotted (.isolate series)
      isolated.isVisible series = true ∧
        (v.IsOnlyVisible plotted series → ∀ key ∈ plotted, isolated.isVisible key = true) ∧
        (¬v.IsOnlyVisible plotted series → isolated.IsOnlyVisible plotted series) ∧
        (isolated.apply plotted (.isolate series)).apply plotted (.isolate series) = isolated) ∧
      ∀ series,
        let toggled := v.apply plotted (.toggle series)
        toggled.apply plotted (.toggle series) = v ∧
          ∀ key, toggled.isVisible key = if key = series then !v.isVisible key else v.isVisible key := by
  constructor
  · intro series listed isolated
    have shows (only : v.IsOnlyVisible plotted series) (key : String) :
        isolated.isVisible key = true := by
      simp only [isolated, isolate_of_only listed only, isVisible_all]
    have left (among : ¬v.IsOnlyVisible plotted series) : isolated.IsOnlyVisible plotted series := by
      simp only [isolated, isolate_of_not_only listed among]
      exact isOnlyVisible_alone listed
    refine ⟨?_, fun only key _ => shows only key, left, isolate_isolate_isolate v listed⟩
    by_cases only : v.IsOnlyVisible plotted series
    · exact shows only series
    · exact ((left only series).mpr rfl).2
  · intro series toggled
    exact ⟨toggle_toggle v plotted plotted series, isVisible_toggle v plotted series⟩

theorem isolate_alternates_beside_stale :
    let v := hide ["old", "loss"]
    let plotted := ["loss", "step", "step"]
    ("step" ∈ plotted ∧ v.IsOnlyVisible plotted "step" ∧ ¬all.IsOnlyVisible plotted "step") ∧
      (v.apply plotted (.isolate "step")).isVisible "loss" = true ∧
      (all.apply plotted (.isolate "step")).IsOnlyVisible plotted "step" := by
  intro v plotted
  have listed : "step" ∈ plotted := by decide
  have only : v.IsOnlyVisible plotted "step" := (v.isOnlyVisible_iff listed).mpr (by decide)
  have among : ¬all.IsOnlyVisible plotted "step" := by
    rw [all.isOnlyVisible_iff listed]
    decide
  obtain ⟨-, shows, -, -⟩ := (isolate_alternates_toggle_restores v plotted).1 "step" listed
  obtain ⟨-, -, left, -⟩ := (isolate_alternates_toggle_restores all plotted).1 "step" listed
  exact ⟨⟨listed, only, among⟩, shows only "loss" (by decide), left among⟩

end RunBoard.Legend.Visibility
