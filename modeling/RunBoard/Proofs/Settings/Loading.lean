import RunBoard.Proofs.Settings.Decimal
import RunBoard.Proofs.Yaml.Mapping
import RunBoard.Settings.File

namespace RunBoard.Settings

open Yaml

abbrev Assignment := Field × UInt64

namespace Assignment

def entry (a : Assignment) : List Char × List Char :=
  (a.1.name.toList, (toString a.2.toNat).toList)

def text (assignments : List Assignment) : String :=
  String.join (assignments.map fun a => line a.1 a.2)

def override (assignments : List Assignment) (s : Settings) : Settings :=
  assignments.foldl (fun s a => s.set a.2 a.1) s

theorem isWord_name (field : Field) : IsWord field.name.toList where
  ne_nil := by cases field <;> decide
  wordy := List.all_eq_true.mp (by cases field <;> decide)

theorem isEntry (a : Assignment) : IsEntry a.entry where
  key := isWord_name a.1
  short := by
    show octetCount a.1.name.toList ≤ 1024
    cases a.1 <;> decide
  value := by
    have digits : a.entry.2 = Nat.toDigits 10 a.2.toNat := by
      rw [entry, Nat.toString_eq_repr, Nat.toList_repr]
    rw [digits]
    refine ⟨Nat.toDigits_ne_nil, fun c member => ?_⟩
    simp [isWordy, Char.isAlphanum, isDigit_of_mem_toDigits member]

theorem text_eq (assignments : List Assignment) :
    text assignments = String.ofList (linesOf (assignments.map entry)) := by
  apply String.toList_injective
  rw [text, String.toList_join, String.toList_ofList, linesOf, List.flatMap_map, List.flatMap_map]
  congr
  funext a
  simp [line, entry]

end Assignment

theorem ofName?_name (field : Field) : Field.ofName? field.name = some field := by
  cases field <;> rfl

theorem get_set (s : Settings) (value : UInt64) (field other : Field) :
    (s.set value field).get other = if field = other then value else s.get other := by
  cases field <;> cases other <;> rfl

theorem eq_of_get {a b : Settings} (same : ∀ field, a.get field = b.get field) : a = b := by
  cases a
  cases b
  exact congr (congr (congr (congrArg mk (same .pollInterval)) (same .hangingThreshold))
    (same .doubleClick)) (same .pageSize)

theorem takeIn?_entry (d : Document) (s : Settings) {seen : List Field} {a : Assignment}
    (fresh : a.1 ∉ seen) :
    takeIn? d (s, seen) (entryNodes a.entry) = some (s.set a.2 a.1, a.1 :: seen) := by
  have unseen : seen.contains a.1 = false := by simpa using fresh
  simp only [takeIn?, entryNodes, Assignment.entry, Document.target?, key?, value?,
    String.ofList_toList, ofName?_name, unseen, number?_toString, Option.bind_eq_bind, Option.bind_some]
  rfl

theorem foldlM_takeIn? (d : Document) {assignments : List Assignment}
    (distinct : (assignments.map (·.1)).Nodup) (s : Settings) {seen : List Field}
    (fresh : ∀ a ∈ assignments, a.1 ∉ seen) :
    ((assignments.map Assignment.entry).map entryNodes).foldlM (takeIn? d) (s, seen) =
      some (Assignment.override assignments s, (assignments.map (·.1)).reverse ++ seen) := by
  induction assignments generalizing s seen with
  | nil => rfl
  | cons a rest ih =>
    obtain ⟨first, others⟩ := List.nodup_cons.mp distinct
    have later : ∀ b ∈ rest, b.1 ∉ a.1 :: seen := by
      intro b member
      rw [List.mem_cons, not_or]
      refine ⟨fun same => first ?_, fresh b (List.mem_cons_of_mem _ member)⟩
      exact List.mem_map.mpr ⟨b, member, same⟩
    rw [List.map_cons, List.map_cons, List.foldlM_cons, takeIn?_entry d s (fresh a List.mem_cons_self)]
    simp only [Option.bind_eq_bind, Option.bind_some, ih others _ later]
    simp [Assignment.override]

theorem get_override {assignments : List Assignment} (distinct : (assignments.map (·.1)).Nodup)
    (s : Settings) (field : Field) :
    (Assignment.override assignments s).get field =
      (assignments.lookup field).getD (s.get field) := by
  induction assignments generalizing s with
  | nil => rfl
  | cons a rest ih =>
    obtain ⟨first, others⟩ := List.nodup_cons.mp distinct
    have step : Assignment.override (a :: rest) s = Assignment.override rest (s.set a.2 a.1) := rfl
    rw [step, ih others, get_set, List.lookup_cons]
    by_cases own : field = a.1
    · subst own
      have absent : rest.lookup a.1 = none := by
        rw [List.lookup_eq_none_iff]
        intro b member
        exact bne_iff_ne.mpr fun same => first (List.mem_map.mpr ⟨b, member, same.symm⟩)
      simp [absent]
    · have other : (field == a.1) = false := beq_eq_false_iff_ne.mpr own
      rw [if_neg (Ne.symm own), other]

theorem ofText?_text {assignments : List Assignment} (distinct : (assignments.map (·.1)).Nodup) :
    ofText? (Assignment.text assignments) = some (Assignment.override assignments default) := by
  have each : ∀ entry ∈ assignments.map Assignment.entry, IsEntry entry := by
    intro entry member
    obtain ⟨a, -, rfl⟩ := List.mem_map.mp member
    exact a.isEntry
  rw [ofText?, Assignment.text_eq, Document.ofText?_linesOf each]
  cases assignments with
  | nil => rfl
  | cons a rest =>
    have read := foldlM_takeIn? ⟨.mapping (((a :: rest).map Assignment.entry).map entryNodes), []⟩
      distinct default fun _ _ => List.not_mem_nil
    simp only [List.map_cons, List.isEmpty_cons, Bool.false_eq_true, if_false, Option.bind_eq_bind,
      Option.bind_some, ofDocument?] at read ⊢
    rw [read]
    rfl

theorem load_text (text : String) : load (.file text.toUTF8) = ofFileText text := by
  have read : String.fromUTF8? text.toUTF8 = some text := dif_pos text.isValidUTF8
  rw [load, read]

theorem ofFileText_of_some {text : String} {s : Settings} (read : ofText? text = some s) :
    ofFileText text = match s.fault? with
      | some fault => .error (.invalid fault)
      | none => .ok s := by
  cases fault : s.fault? <;> simp only [ofFileText, read, fault]

theorem load_assignments {assignments : List Assignment}
    (distinct : (assignments.map (·.1)).Nodup) :
    load (.file (Assignment.text assignments).toUTF8) =
      match (Assignment.override assignments default).fault? with
      | some fault => .error (.invalid fault)
      | none => .ok (Assignment.override assignments default) :=
  (load_text _).trans (ofFileText_of_some (ofText?_text distinct))

theorem fault?_cases (s : Settings) :
    (match s.fault? with
      | some fault => .error (.invalid fault)
      | none => .ok s : Except LoadError Settings) =
      if s.pollIntervalMs = 0 then .error (.invalid .noPollInterval)
      else if maxHangingThresholdSecs < s.hangingThresholdSecs then
        .error (.invalid .thresholdTooLong)
      else .ok s := by
  rw [fault?]
  by_cases poll : s.pollIntervalMs = 0
  · simp only [if_pos poll]
  · simp only [if_neg poll]
    by_cases long : maxHangingThresholdSecs < s.hangingThresholdSecs
    · simp only [if_pos long]
    · simp only [if_neg long]

def assignments (s : Settings) : List Assignment := Field.all.map fun field => (field, s.get field)

theorem toText_eq (s : Settings) : s.toText = Assignment.text s.assignments := by
  rw [toText, Assignment.text, assignments, List.map_map]
  rfl

theorem override_assignments (s : Settings) : Assignment.override s.assignments default = s :=
  eq_of_get fun field => by cases field <;> rfl

/-- A text of one line for each of some fields stands for the defaults with these values, and settings
are loaded as they were saved, unless they have a fault. -/
theorem load_follows_text :
    (∀ assignments : List (Field × UInt64), (assignments.map (·.1)).Nodup →
      ∃ s : Settings,
        (∀ field, s.get field = (assignments.lookup field).getD (default.get field)) ∧
        load (.file (String.join (assignments.map fun a => line a.1 a.2)).toUTF8) =
          if s.pollIntervalMs = 0 then .error (.invalid .noPollInterval)
          else if maxHangingThresholdSecs < s.hangingThresholdSecs then
            .error (.invalid .thresholdTooLong)
          else .ok s) ∧
    ∀ (s : Settings) (place : FilePlace), place ≠ .directory →
      ∃ saved, s.save place = .ok saved ∧
        load saved = match s.fault? with
          | some fault => .error (.invalid fault)
          | none => .ok s := by
  constructor
  · intro assignments distinct
    refine ⟨_, get_override distinct default, ?_⟩
    exact (load_assignments distinct).trans (fault?_cases _)
  · intro s place writable
    refine ⟨.file s.toText.toUTF8, ?_, ?_⟩
    · cases place with
      | directory => contradiction
      | absent | file => rfl
    · have distinct : (s.assignments.map (·.1)).Nodup := by
        show Field.all.Nodup
        decide
      rw [toText_eq, load_assignments distinct, override_assignments]

theorem load_follows_two_lines :
    let largest : List (Field × UInt64) :=
      [(.pageSize, 18446744073709551615), (.pollInterval, 250)]
    let faulty : List (Field × UInt64) := [(.hangingThreshold, 9223372036854776), (.pollInterval, 0)]
    (largest.map (·.1)).Nodup ∧ (faulty.map (·.1)).Nodup ∧
      load (.file (String.join (largest.map fun a => line a.1 a.2)).toUTF8) =
        .ok { default with pollIntervalMs := 250, runsPageSize := 18446744073709551615 } ∧
      load (.file (String.join (faulty.map fun a => line a.1 a.2)).toUTF8) =
        .error (.invalid .noPollInterval) ∧
      ∃ saved, default.save .absent = .ok saved ∧ load saved = .ok default := by
  intro largest faulty
  have distinctLargest : (largest.map (·.1)).Nodup := by decide
  have distinctFaulty : (faulty.map (·.1)).Nodup := by decide
  obtain ⟨s, values, loaded⟩ := load_follows_text.1 largest distinctLargest
  obtain ⟨t, others, refused⟩ := load_follows_text.1 faulty distinctFaulty
  have same : s = { default with pollIntervalMs := 250, runsPageSize := 18446744073709551615 } :=
    eq_of_get fun field => by rw [values]; cases field <;> decide
  have poll : t.pollIntervalMs = 0 := others .pollInterval
  rw [if_pos poll] at refused
  rw [same] at loaded
  exact ⟨distinctLargest, distinctFaulty, loaded, refused, load_follows_text.2 default .absent nofun⟩

end RunBoard.Settings
