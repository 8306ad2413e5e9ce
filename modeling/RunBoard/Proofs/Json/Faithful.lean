import RunBoard.Json.Record
import RunBoard.Proofs.Json.Document

namespace RunBoard

class Faithful (α : Type) [JsonForm α] : Prop where
  decode?_encode (a : α) : decode? (encode a) = some a

attribute [simp] Faithful.decode?_encode

/-- No value of the type holds a number that a text could not hold. -/
class Plain (α : Type) [JsonForm α] : Prop where
  isDocument_encode (a : α) : (encode a).IsDocument

attribute [simp] Plain.isDocument_encode

/-- No value of the type is written as `null`, which would read as an absent one. -/
class NeverNull (α : Type) [JsonForm α] : Prop where
  encode_ne_null (a : α) : encode a ≠ Json.null

namespace Json

variable {α : Type} [JsonForm α]

@[simp]
theorem required?_encode [Faithful α] (a : α) : required? (some (encode a)) = some a :=
  Faithful.decode?_encode a

@[simp]
theorem defaulted?_encode [Faithful α] (missing a : α) :
    defaulted? missing (some (encode a)) = some a :=
  Faithful.decode?_encode a

@[simp]
theorem optional?_encode [Faithful (Option α)] (a : Option α) : optional? (some (encode a)) = some a :=
  defaulted?_encode none a

@[simp]
theorem optional?_none : optional? none = some (none : Option α) := rfl

theorem required?_eq_some_iff {field : Option Json} {a : α} :
    required? field = some a ↔ ∃ value, field = some value ∧ decode? value = some a :=
  Option.bind_eq_some_iff

theorem defaulted?_eq_some_iff {missing a : α} {field : Option Json} :
    defaulted? missing field = some a ↔
      field = none ∧ missing = a ∨ ∃ value, field = some value ∧ decode? value = some a := by
  cases field <;> simp [defaulted?]

theorem lookup_of_nodup {fields : List (String × Json)} (distinct : (fields.map (·.1)).Nodup)
    {name : String} {value : Json} (held : (name, value) ∈ fields) :
    fields.lookup name = some value := by
  obtain ⟨early, late, rfl⟩ := List.append_of_mem held
  refine List.lookup_eq_some_iff.mpr ⟨early, late, rfl, fun field before => ?_⟩
  rw [List.map_append, List.nodup_append] at distinct
  have other := distinct.2.2 field.1 (List.mem_map_of_mem before) name (by simp)
  simpa using other.symm

theorem record?_obj {fields : List (String × Json)} (distinct : (fields.map (·.1)).Nodup) :
    (obj fields).record? (fields.map (·.1)) = some (fields.map fun field => some field.2) := by
  rw [record?, List.map_map]
  exact congrArg some (List.map_congr_left fun field held => lookup_of_nodup distinct held)

theorem decode?_record {fields : List (String × Json)} {names : List String} {α : Type}
    {build : List (Option Json) → Option α} {a : α} (same : names = fields.map (·.1))
    (distinct : names.Nodup) (read : build (fields.map fun field => some field.2) = some a) :
    ((obj fields).record? names >>= build) = some a := by
  subst same
  rw [record?_obj distinct]
  exact read

theorem isDocument_of_record? {j : Json} {names : List String} {fields : List (Option Json)}
    (document : j.IsDocument) (taken : j.record? names = some fields) {value : Json}
    (given : some value ∈ fields) : value.IsDocument := by
  cases document with
  | null | bool | int | num | str => contradiction
  | arr items each =>
    rw [record?] at taken
    split at taken
    · cases taken
      rcases List.mem_append.mp given with held | missing
      · obtain ⟨item, member, same⟩ := List.mem_map.mp held
        cases same
        exact each _ member
      · have absent := List.eq_of_mem_replicate missing
        contradiction
    · contradiction
  | obj fields each =>
    cases taken
    obtain ⟨name, -, found⟩ := List.mem_map.mp given
    obtain ⟨before, after, same, -⟩ := List.lookup_eq_some_iff.mp found
    refine each (name, value) ?_
    rw [same]
    exact List.mem_append_right _ List.mem_cons_self

end Json

instance : Faithful Unit where
  decode?_encode _ := rfl

instance : Faithful String where
  decode?_encode _ := rfl

instance : Faithful Bool where
  decode?_encode _ := rfl

instance : Faithful Int64 where
  decode?_encode n := by
    have range : Int64.minValue.toInt ≤ n.toInt ∧ n.toInt ≤ Int64.maxValue.toInt :=
      ⟨n.minValue_le_toInt, n.toInt_le⟩
    exact (if_pos range).trans (congrArg some n.ofInt_toInt)

instance : Faithful UInt64 where
  decode?_encode n := by
    have range : (0 : Int) ≤ n.toNat ∧ (n.toNat : Int) < UInt64.size :=
      ⟨Int.natCast_nonneg _, Int.ofNat_lt.mpr n.toNat_lt⟩
    exact (if_pos range).trans (congrArg some n.ofNat_toNat)

instance : Faithful UInt16 where
  decode?_encode n := by
    have range : (0 : Int) ≤ n.toNat ∧ (n.toNat : Int) < UInt16.size :=
      ⟨Int.natCast_nonneg _, Int.ofNat_lt.mpr n.toNat_lt⟩
    exact (if_pos range).trans (congrArg some n.ofNat_toNat)

instance : Faithful Binary64 where
  decode?_encode _ := rfl

instance : NeverNull String where
  encode_ne_null := nofun

instance : NeverNull Int64 where
  encode_ne_null := nofun

instance : NeverNull UInt64 where
  encode_ne_null := nofun

instance : NeverNull UInt16 where
  encode_ne_null := nofun

instance : Plain Unit where
  isDocument_encode _ := .null

instance : Plain String where
  isDocument_encode := .str

instance : Plain Bool where
  isDocument_encode := .bool

instance : Plain Int64 where
  isDocument_encode n := .int _ n.le_toInt (n.toInt_lt.trans (by decide))

instance : Plain UInt64 where
  isDocument_encode n := .int _ (by omega) (by have := n.toNat_lt; omega)

instance : Plain UInt16 where
  isDocument_encode n := .int _ (by omega) (by have := n.toNat_lt; omega)

section Composed

variable {α : Type} [JsonForm α]

theorem JsonForm.decode?_some {j : Json} (given : j ≠ .null) :
    (decode? j : Option (Option α)) = (decode? j : Option α).map some := by
  cases j with
  | null => contradiction
  | bool | int | num | str | arr | obj => rfl

theorem JsonForm.mapM_encode [Faithful α] (items : List α) :
    (items.map encode).mapM decode? = some items := by
  induction items with
  | nil => rfl
  | cons item rest ih =>
    rw [List.map_cons, List.mapM_cons, ih, Faithful.decode?_encode]
    rfl

instance [Faithful α] [NeverNull α] : Faithful (Option α) where
  decode?_encode
    | none => rfl
    | some a => by
      have given : (encode (some a) : Json) = encode a := rfl
      rw [given, JsonForm.decode?_some (NeverNull.encode_ne_null a), Faithful.decode?_encode]
      rfl

instance [Faithful α] : Faithful (List α) where
  decode?_encode := JsonForm.mapM_encode

instance : NeverNull (List α) where
  encode_ne_null := nofun

instance [Plain α] : Plain (Option α) where
  isDocument_encode
    | none => .null
    | some a => Plain.isDocument_encode a

theorem isDocument_encode_list {items : List α} (each : ∀ item ∈ items, (encode item).IsDocument) :
    (encode items).IsDocument :=
  .arr _ (List.forall_mem_map.mpr each)

instance [Plain α] : Plain (List α) where
  isDocument_encode _ := isDocument_encode_list fun item _ => Plain.isDocument_encode item

end Composed

end RunBoard
