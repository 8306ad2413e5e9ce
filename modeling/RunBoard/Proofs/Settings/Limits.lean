import RunBoard.Poll.Poller
import RunBoard.Proofs.Settings.Loading

namespace RunBoard

namespace Duration

def totalNanos (d : Duration) : Nat := d.secs * 1000000000 + d.nanos

theorem wholeMillis_eq (d : Duration) : d.wholeMillis = d.totalNanos / 1000000 := by
  unfold wholeMillis totalNanos
  omega

theorem wholeSecs_eq (d : Duration) : d.wholeSecs = d.totalNanos / 1000000000 := by
  unfold wholeSecs totalNanos
  omega

end Duration

namespace Settings

inductive Adjustment where
  | pollInterval (d : Duration)
  | hangingThreshold (d : Duration)

def adjust (s : Settings) : Adjustment → Settings
  | .pollInterval d => s.withPollInterval d
  | .hangingThreshold d => s.withHangingThreshold d

def adjustAll (s : Settings) (adjustments : List Adjustment) : Settings := adjustments.foldl adjust s

theorem maxHangingThresholdSecs_eq :
    (maxHangingThresholdSecs.toNat : Int) = Int64.maxValue.toInt / 1000 := rfl

theorem fault?_eq_none_iff (s : Settings) :
    s.fault? = none ↔
      s.pollIntervalMs.toNat ≠ 0 ∧ s.hangingThresholdSecs.toNat ≤ maxHangingThresholdSecs.toNat := by
  have poll : s.pollIntervalMs = 0 ↔ s.pollIntervalMs.toNat = 0 := UInt64.toNat_inj.symm
  rw [fault?, ← UInt64.le_iff_toNat_le, ne_eq, ← poll]
  by_cases zero : s.pollIntervalMs = 0
  · simp [zero]
  · by_cases long : maxHangingThresholdSecs < s.hangingThresholdSecs
    · simp [zero, long]
    · simp [zero, long, UInt64.not_lt.mp long]

theorem fault?_of_ofFileText {text : String} {s : Settings} (read : ofFileText text = .ok s) :
    s.fault? = none := by
  rw [ofFileText] at read
  split at read
  · contradiction
  · split at read
    · contradiction
    · rename_i sound
      cases read
      exact sound

theorem fault?_of_load {place : FilePlace} {s : Settings} (loaded : load place = .ok s) :
    s.fault? = none := by
  cases place with
  | absent =>
    cases loaded
    decide
  | directory => contradiction
  | file bytes =>
    rw [load] at loaded
    split at loaded
    · exact fault?_of_ofFileText loaded
    · contradiction

theorem toNat_getD_word? (n : Nat) :
    ((word? n).getD (.ofNat (UInt64.size - 1))).toNat = min n (UInt64.size - 1) := by
  rw [word?]
  split
  · rename_i fits
    rw [Option.getD_some, UInt64.toNat_ofNat_of_lt' fits]
    omega
  · rw [Option.getD_none, UInt64.toNat_ofNat_of_lt' (by decide)]
    omega

theorem toNat_pollIntervalMs (s : Settings) (d : Duration) :
    (s.withPollInterval d).pollIntervalMs.toNat = max 1 (min d.wholeMillis (UInt64.size - 1)) := by
  have millis := toNat_getD_word? d.wholeMillis
  rw [withPollInterval]
  generalize (word? d.wholeMillis).getD (.ofNat (UInt64.size - 1)) = stored at millis
  rw [← millis]
  by_cases zero : stored = 0
  · rw [zero]
    rfl
  · have positive : stored.toNat ≠ 0 := fun same => zero (UInt64.toNat_inj.mp same)
    simp only [if_neg zero]
    omega

theorem toNat_hangingThresholdSecs (s : Settings) (d : Duration) :
    (s.withHangingThreshold d).hangingThresholdSecs.toNat =
      min d.wholeSecs maxHangingThresholdSecs.toNat := by
  have longest : maxHangingThresholdSecs.toNat < UInt64.size := by decide
  have fits : min d.wholeSecs maxHangingThresholdSecs.toNat < UInt64.size := by omega
  exact UInt64.toNat_ofNat_of_lt' fits

theorem fault?_adjust {s : Settings} (sound : s.fault? = none) (a : Adjustment) :
    (s.adjust a).fault? = none := by
  obtain ⟨poll, threshold⟩ := (fault?_eq_none_iff s).mp sound
  rw [fault?_eq_none_iff]
  cases a with
  | pollInterval d =>
    refine ⟨?_, threshold⟩
    rw [adjust, toNat_pollIntervalMs]
    omega
  | hangingThreshold d =>
    refine ⟨poll, ?_⟩
    rw [adjust, toNat_hangingThresholdSecs]
    omega

theorem fault?_adjustAll {s : Settings} (sound : s.fault? = none) (adjustments : List Adjustment) :
    (s.adjustAll adjustments).fault? = none := by
  induction adjustments generalizing s with
  | nil => exact sound
  | cons a rest ih => exact ih (fault?_adjust sound a)

theorem signed?_eq_some_iff (n : UInt64) (m : Int64) : signed? n = some m ↔ m.toInt = n.toNat := by
  have largest := Int64.toInt_maxValue
  have below := m.toInt_lt
  rw [signed?]
  split
  · rename_i fits
    have value : (Int64.ofNat n.toNat).toInt = n.toNat := Int64.toInt_ofNat_of_lt (by omega)
    rw [Option.some.injEq, ← Int64.toInt_inj, value, eq_comm]
  · rename_i large
    constructor
    · intro nothing
      contradiction
    · omega

theorem millisOfSecs?_eq_some_iff (secs millis : Int64) :
    millisOfSecs? secs = some millis ↔ millis.toInt = secs.toInt * 1000 := by
  have largest := Int64.toInt_maxValue
  have below := millis.toInt_lt
  have above := millis.le_toInt
  rw [millisOfSecs?]
  split
  · rename_i fits
    have thousand : (1000 : Int64).toInt = 1000 := rfl
    have value : (secs * 1000).toInt = secs.toInt * 1000 := by
      rw [Int64.toInt_mul, thousand]
      exact Int.bmod_eq_of_le (by omega) (by omega)
    rw [Option.some.injEq, ← Int64.toInt_inj, value, eq_comm]
  · rename_i large
    constructor
    · intro nothing
      contradiction
    · omega

/-- Nothing overflows on the way, and the longest threshold is the last one that is told exactly. -/
theorem hangingThreshold_eq_min (s : Settings) :
    s.hangingThreshold = min (1000 * (s.hangingThresholdSecs.toNat : Int)) Int64.maxValue.toInt := by
  have largest := Int64.toInt_maxValue
  rw [hangingThreshold]
  cases told : signed? s.hangingThresholdSecs with
  | none =>
    have large : ¬s.hangingThresholdSecs.toNat ≤ Int64.maxValue.toInt := by
      intro fits
      rw [signed?, if_pos fits] at told
      contradiction
    rw [Option.bind_none, Option.getD_none]
    omega
  | some secs =>
    have value := (signed?_eq_some_iff ..).mp told
    rw [Option.bind_some]
    cases exactly : millisOfSecs? secs with
    | some millis =>
      have product := (millisOfSecs?_eq_some_iff ..).mp exactly
      have below := millis.toInt_lt
      rw [Option.getD_some]
      omega
    | none =>
      have large : ¬(secs.toInt * 1000).natAbs ≤ Int64.maxValue.toInt := by
        intro fits
        rw [millisOfSecs?, if_pos fits] at exactly
        contradiction
      rw [Option.getD_none]
      omega

theorem hangingThreshold_eq_of_sound {s : Settings} (sound : s.fault? = none) :
    s.hangingThreshold = 1000 * (s.hangingThresholdSecs.toNat : Int) := by
  obtain ⟨-, short⟩ := (fault?_eq_none_iff s).mp sound
  have longest := maxHangingThresholdSecs_eq
  have largest := Int64.toInt_maxValue
  rw [hangingThreshold_eq_min]
  omega

theorem not_isHanging_of_long {s : Settings} (long : maxHangingThresholdSecs < s.hangingThresholdSecs)
    {latest : Option Int64} {now : Int}
    (bounded : ∀ time ∈ latest, now - time.toInt ≤ Int64.maxValue.toInt) :
    Poll.isHanging latest now s.hangingThreshold = false := by
  have longer := UInt64.lt_iff_toNat_lt.mp long
  have longest := maxHangingThresholdSecs_eq
  have largest := Int64.toInt_maxValue
  cases latest with
  | none => rfl
  | some time =>
    have within := bounded time rfl
    rw [Poll.isHanging, Option.any_some, decide_eq_false_iff_not, hangingThreshold_eq_min]
    omega

/-- Settings that are loaded have no fault, and those without one keep to that however they are
adjusted: with durations of any length, each cut to whole units and to the limits of its field. The
threshold in milliseconds is exact up to the longest one and the largest number of 63 bits beyond it,
where no run hangs; two polls are at least a millisecond apart. -/
theorem durations_keep_to_limits :
    (∀ place s, load place = .ok s → s.fault? = none) ∧
      (∀ (s : Settings) (adjustments : List Adjustment), s.fault? = none →
        (s.adjustAll adjustments).fault? = none) ∧
      (∀ (s : Settings) (d : Duration),
        (∃ millis : UInt64, s.withPollInterval d = { s with pollIntervalMs := millis } ∧
          millis.toNat = max 1 (min (d.totalNanos / 1000000) (UInt64.size - 1))) ∧
        ∃ secs : UInt64, s.withHangingThreshold d = { s with hangingThresholdSecs := secs } ∧
          secs.toNat = min (d.totalNanos / 1000000000) maxHangingThresholdSecs.toNat) ∧
      (∀ s : Settings,
        s.hangingThreshold =
          min (1000 * (s.hangingThresholdSecs.toNat : Int)) Int64.maxValue.toInt ∧
        (s.fault? = none → s.hangingThreshold = 1000 * (s.hangingThresholdSecs.toNat : Int)) ∧
        1 ≤ s.pollInterval) ∧
      ∀ (s : Settings) (latest : Option Int64) (now : Int),
        maxHangingThresholdSecs < s.hangingThresholdSecs →
          (∀ time ∈ latest, now - time.toInt ≤ Int64.maxValue.toInt) →
            Poll.isHanging latest now s.hangingThreshold = false := by
  refine ⟨fun _ _ => fault?_of_load, ?_, ?_, ?_, ?_⟩
  · intro s adjustments sound
    exact fault?_adjustAll sound adjustments
  · intro s d
    rw [← d.wholeMillis_eq, ← d.wholeSecs_eq]
    exact ⟨⟨_, rfl, s.toNat_pollIntervalMs d⟩, ⟨_, rfl, s.toNat_hangingThresholdSecs d⟩⟩
  · intro s
    exact ⟨s.hangingThreshold_eq_min, hangingThreshold_eq_of_sound, Nat.le_max_left 1 _⟩
  · intro s latest now long bounded
    exact not_isHanging_of_long long bounded

theorem durations_keep_to_limits_at_bounds :
    let longest : List (Field × UInt64) := [(.hangingThreshold, 9223372036854775)]
    let place := FilePlace.file (Assignment.text longest).toUTF8
    let adjustments : List Adjustment := [.pollInterval ⟨0, 999999⟩,
      .hangingThreshold ⟨18446744073709551615, 999999999⟩]
    let longer := { default with hangingThresholdSecs := 9223372036854776 }
    (∃ s, load place = .ok s ∧ s.fault? = none ∧ s.hangingThreshold = 9223372036854775000 ∧
      (s.adjustAll adjustments).fault? = none) ∧
      maxHangingThresholdSecs < longer.hangingThresholdSecs ∧
      (∀ time ∈ some Int64.minValue, -1 - time.toInt ≤ Int64.maxValue.toInt) ∧
      Poll.isHanging (some Int64.minValue) (-1) longer.hangingThreshold = false := by
  intro longest place adjustments longer
  obtain ⟨loads, adjusts, -, thresholds, hangs⟩ := durations_keep_to_limits
  have distinct : (longest.map (·.1)).Nodup := by decide
  have loaded : load place = .ok { default with hangingThresholdSecs := 9223372036854775 } :=
    load_assignments distinct
  have sound := loads place _ loaded
  have long : maxHangingThresholdSecs < longer.hangingThresholdSecs := by decide
  have bounded : ∀ time ∈ some Int64.minValue, -1 - time.toInt ≤ Int64.maxValue.toInt := by
    rintro time ⟨⟩
    decide
  refine ⟨⟨_, loaded, sound, (thresholds _).2.1 sound, adjusts _ adjustments sound⟩, long, bounded, ?_⟩
  exact hangs longer (some Int64.minValue) (-1) long bounded

end Settings

end RunBoard
