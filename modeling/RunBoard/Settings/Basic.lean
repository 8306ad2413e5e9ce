import RunBoard.Json.Record

namespace RunBoard

/-- Durations are whole numbers of the unit in their names. -/
structure Settings where
  pollIntervalMs : UInt64
  hangingThresholdSecs : UInt64
  doubleClickMs : UInt64
  runsPageSize : UInt64
  deriving DecidableEq

inductive SettingsFault where
  | noPollInterval
  | thresholdTooLong
  deriving DecidableEq, Inhabited

structure Duration where
  secs : Nat
  nanos : Nat
  deriving DecidableEq, Inhabited

namespace Duration

def wholeMillis (d : Duration) : Nat := d.secs * 1000 + d.nanos / 1000000

def wholeSecs (d : Duration) : Nat := d.secs + d.nanos / 1000000000

end Duration

namespace Settings

def default : Settings :=
  { pollIntervalMs := 10000, hangingThresholdSecs := 604800, doubleClickMs := 300,
    runsPageSize := 100 }

instance : Inhabited Settings := ⟨default⟩

/-- The longest threshold whose milliseconds fit 63 bits. -/
def maxHangingThresholdSecs : UInt64 := 9223372036854775

def word? (n : Nat) : Option UInt64 := if n < UInt64.size then some (.ofNat n) else none

def signed? (n : UInt64) : Option Int64 :=
  if n.toNat ≤ Int64.maxValue.toInt then some (.ofNat n.toNat) else none

def millisOfSecs? (secs : Int64) : Option Int64 :=
  if (secs.toInt * 1000).natAbs ≤ Int64.maxValue.toInt then some (secs * 1000) else none

def withPollInterval (s : Settings) (d : Duration) : Settings :=
  let millis := (word? d.wholeMillis).getD (.ofNat (UInt64.size - 1))
  { s with pollIntervalMs := if millis = 0 then 1 else millis }

def withHangingThreshold (s : Settings) (d : Duration) : Settings :=
  { s with hangingThresholdSecs := .ofNat (min d.wholeSecs maxHangingThresholdSecs.toNat) }

def pollInterval (s : Settings) : Nat := max 1 s.pollIntervalMs.toNat

/-- Milliseconds after which a run hangs; a threshold that is too long never ends. -/
def hangingThreshold (s : Settings) : Int :=
  (((signed? s.hangingThresholdSecs).bind millisOfSecs?).getD Int64.maxValue).toInt

def doubleClickWindow (s : Settings) : Nat := s.doubleClickMs.toNat

def fault? (s : Settings) : Option SettingsFault :=
  if s.pollIntervalMs = 0 then some .noPollInterval
  else if maxHangingThresholdSecs < s.hangingThresholdSecs then some .thresholdTooLong
  else none

instance : JsonForm Settings where
  encode s := .obj [
    ("poll_interval_ms", encode s.pollIntervalMs),
    ("hanging_threshold_secs", encode s.hangingThresholdSecs),
    ("legend_double_click_ms", encode s.doubleClickMs),
    ("runs_page_size", encode s.runsPageSize)]
  decode? j := do
    let [poll, threshold, click, pageSize] ← j.record?
      ["poll_interval_ms", "hanging_threshold_secs", "legend_double_click_ms",
        "runs_page_size"] | none
    return {
      pollIntervalMs := ← Json.defaulted? default.pollIntervalMs poll
      hangingThresholdSecs := ← Json.defaulted? default.hangingThresholdSecs threshold
      doubleClickMs := ← Json.defaulted? default.doubleClickMs click
      runsPageSize := ← Json.defaulted? default.runsPageSize pageSize }

end Settings

namespace SettingsFault

def reason : SettingsFault → String
  | noPollInterval => "poll_interval_ms must be greater than zero"
  | thresholdTooLong =>
    "hanging_threshold_secs must be at most " ++ toString Settings.maxHangingThresholdSecs

def message (f : SettingsFault) : String := "Invalid configuration: " ++ f.reason

end SettingsFault

end RunBoard
