import RunBoard.Proofs.Json.Faithful
import RunBoard.Request.Tracker
import RunBoard.Settings.Basic

namespace RunBoard

instance : Faithful Label where
  decode?_encode _ := Json.decode?_record rfl (by decide) (by simp)

instance : Plain Label where
  isDocument_encode _ := .obj _ (by simp)

instance : Faithful TagOwner where
  decode?_encode owner := by cases owner <;> exact Json.decode?_record rfl (by decide) rfl

instance : Plain TagOwner where
  isDocument_encode owner := by cases owner <;> exact .obj _ (by simp [Json.IsDocument.str])

instance : Faithful LifecycleStage where
  decode?_encode stage := by cases stage <;> rfl

instance : Plain LifecycleStage where
  isDocument_encode _ := .str _

instance : NeverNull LifecycleStage where
  encode_ne_null := nofun

instance : Faithful Experiment where
  decode?_encode _ := Json.decode?_record rfl (by decide) (by simp)

instance : Plain Experiment where
  isDocument_encode _ := .obj _ (by simp)

instance : Faithful RunStatus where
  decode?_encode status := by cases status <;> rfl

instance : Plain RunStatus where
  isDocument_encode _ := .str _

instance : Faithful RunInfo where
  decode?_encode _ := Json.decode?_record rfl (by decide) (by simp)

instance : Plain RunInfo where
  isDocument_encode _ := .obj _ (by simp)

instance : Faithful Metric where
  decode?_encode _ := Json.decode?_record rfl (by decide) (by simp)

instance : Faithful RunData where
  decode?_encode _ := Json.decode?_record rfl (by decide) (by simp)

instance : Faithful Run where
  decode?_encode _ := Json.decode?_record rfl (by decide) (by simp)

instance : Faithful RunPage where
  decode?_encode _ := Json.decode?_record rfl (by decide) (by simp)

instance : Faithful RunSearch where
  decode?_encode _ := Json.decode?_record rfl (by decide) (by simp)

instance : Plain RunSearch where
  isDocument_encode _ := .obj _ (by simp)

instance : Faithful ArtifactFile where
  decode?_encode _ := Json.decode?_record rfl (by decide) (by simp)

instance : Plain ArtifactFile where
  isDocument_encode _ := .obj _ (by simp)

instance : Faithful ArtifactListing where
  decode?_encode _ := Json.decode?_record rfl (by decide) (by simp)

instance : Plain ArtifactListing where
  isDocument_encode _ := .obj _ (by simp)

instance : Faithful ModelVersion where
  decode?_encode _ := Json.decode?_record rfl (by decide) (by simp)

instance : Plain ModelVersion where
  isDocument_encode _ := .obj _ (by simp)

instance : Faithful ErrorCode where
  decode?_encode code := by cases code <;> rfl

instance : Plain ErrorCode where
  isDocument_encode _ := .str _

instance : Faithful ApiError where
  decode?_encode e := by
    obtain ⟨code, message, status⟩ := e
    cases status with
    | some status =>
      have fields : (encode (⟨code, message, some status⟩ : ApiError) : Json) = .obj
          [("error_code", encode code), ("message", encode message),
            ("status", encode (some status))] := rfl
      rw [fields]
      exact Json.decode?_record rfl (by decide) (by simp)
    | none =>
      have fields : (encode (⟨code, message, none⟩ : ApiError) : Json) = .obj
          [("error_code", encode code), ("message", encode message)] := rfl
      have taken : (Json.obj [("error_code", encode code), ("message", encode message)]).record?
          ["error_code", "message", "status"] =
            some [some (encode code), some (encode message), none] := by
        simp [Json.record?, List.lookup_cons]
      rw [fields]
      simp [decode?, taken]

instance : Plain ApiError where
  isDocument_encode e := by
    obtain ⟨code, message, status⟩ := e
    cases status <;> exact .obj _ (by simp)

instance : Faithful Settings where
  decode?_encode _ := Json.decode?_record rfl (by decide) (by simp)

instance : Plain Settings where
  isDocument_encode _ := .obj _ (by simp)

def Metric.IsFinite (m : Metric) : Prop := m.value.isFinite = true

def RunData.IsFinite (d : RunData) : Prop := ∀ m ∈ d.metrics, m.IsFinite

def Run.IsFinite (r : Run) : Prop := r.data.IsFinite

def RunPage.IsFinite (p : RunPage) : Prop := ∀ r ∈ p.runs, r.IsFinite

section Written

theorem Metric.IsFinite.isDocument {m : Metric} (finite : m.IsFinite) : (encode m).IsDocument := by
  have value : (encode m.value).IsDocument := .num _ finite
  exact .obj _ (by simp [value])

theorem Metric.isDocument_list {metrics : List Metric} (finite : ∀ m ∈ metrics, m.IsFinite) :
    (encode metrics).IsDocument :=
  isDocument_encode_list fun m held => (finite m held).isDocument

theorem RunData.IsFinite.isDocument {d : RunData} (finite : d.IsFinite) :
    (encode d).IsDocument :=
  .obj _ (by simp [Metric.isDocument_list finite])

theorem Run.IsFinite.isDocument {r : Run} (finite : r.IsFinite) : (encode r).IsDocument := by
  have data : (encode r.data).IsDocument := RunData.IsFinite.isDocument finite
  exact .obj _ (by simp [data])

theorem RunPage.IsFinite.isDocument {p : RunPage} (finite : p.IsFinite) :
    (encode p).IsDocument := by
  have runs := isDocument_encode_list fun r held => (finite r held).isDocument
  exact .obj _ (by simp [runs])

end Written

section Read

variable {j : Json}

theorem Binary64.isFinite_of_decode? {x : Binary64} (document : j.IsDocument)
    (read : decode? j = some x) : x.isFinite = true := by
  cases document with
  | null | bool | str | arr | obj => contradiction
  | num y finite =>
    cases read
    exact finite
  | int n low high =>
    cases read
    exact isFinite_ofInt (by unfold UInt64.size; omega)

theorem Metric.isFinite_of_decode? {m : Metric} (document : j.IsDocument)
    (read : decode? j = some m) : m.IsFinite := by
  obtain ⟨fields, taken, read⟩ := Option.bind_eq_some_iff.mp read
  split at read
  · simp only [Option.bind_eq_bind, Option.bind_eq_some_iff, Option.pure_def, Option.some.injEq] at read
    obtain ⟨key, -, value, held, time, -, step, -, rfl⟩ := read
    obtain ⟨number, rfl, held⟩ := Json.required?_eq_some_iff.mp held
    exact Binary64.isFinite_of_decode? (Json.isDocument_of_record? document taken (by simp)) held
  · contradiction

theorem forall_of_decode?_list {α : Type} [JsonForm α] {P : α → Prop}
    (each : ∀ {j : Json} {a : α}, j.IsDocument → decode? j = some a → P a) {items : List α}
    (document : j.IsDocument) (read : decode? j = some items) : ∀ a ∈ items, P a := by
  cases document with
  | null | bool | int | num | str | obj => contradiction
  | arr documents documented =>
    replace read : documents.mapM decode? = some items := read
    induction documents generalizing items with
    | nil =>
      cases read
      nofun
    | cons first rest ih =>
      rw [List.mapM_cons] at read
      simp only [Option.bind_eq_bind, Option.bind_eq_some_iff, Option.pure_def, Option.some.injEq] at read
      obtain ⟨a, own, others, found, rfl⟩ := read
      obtain ⟨firstDocument, restDocuments⟩ := List.forall_mem_cons.mp documented
      exact List.forall_mem_cons.mpr ⟨each firstDocument own, ih restDocuments found⟩

theorem forall_of_defaulted?_list {α : Type} [JsonForm α] {P : α → Prop}
    (each : ∀ {j : Json} {a : α}, j.IsDocument → decode? j = some a → P a) {field : Option Json}
    {items : List α} (documents : ∀ value, field = some value → value.IsDocument)
    (read : Json.defaulted? [] field = some items) : ∀ a ∈ items, P a := by
  rcases Json.defaulted?_eq_some_iff.mp read with ⟨-, rfl⟩ | ⟨value, given, read⟩
  · nofun
  · exact forall_of_decode?_list each (documents value given) read

theorem RunData.isFinite_of_decode? {d : RunData} (document : j.IsDocument)
    (read : decode? j = some d) : d.IsFinite := by
  obtain ⟨fields, taken, read⟩ := Option.bind_eq_some_iff.mp read
  split at read
  · simp only [Option.bind_eq_bind, Option.bind_eq_some_iff, Option.pure_def, Option.some.injEq] at read
    obtain ⟨params, -, tags, -, metrics, held, rfl⟩ := read
    refine forall_of_defaulted?_list Metric.isFinite_of_decode? (fun value given => ?_) held
    exact Json.isDocument_of_record? document taken (by simp [given])
  · contradiction

theorem Run.isFinite_of_decode? {r : Run} (document : j.IsDocument)
    (read : decode? j = some r) : r.IsFinite := by
  obtain ⟨fields, taken, read⟩ := Option.bind_eq_some_iff.mp read
  split at read
  · simp only [Option.bind_eq_bind, Option.bind_eq_some_iff, Option.pure_def, Option.some.injEq] at read
    obtain ⟨info, -, data, held, rfl⟩ := read
    rcases Json.defaulted?_eq_some_iff.mp held with ⟨-, rfl⟩ | ⟨value, rfl, held⟩
    · nofun
    · exact RunData.isFinite_of_decode? (Json.isDocument_of_record? document taken (by simp)) held
  · contradiction

theorem RunPage.isFinite_of_decode? {p : RunPage} (document : j.IsDocument)
    (read : decode? j = some p) : p.IsFinite := by
  obtain ⟨fields, taken, read⟩ := Option.bind_eq_some_iff.mp read
  split at read
  · simp only [Option.bind_eq_bind, Option.bind_eq_some_iff, Option.pure_def, Option.some.injEq] at read
    obtain ⟨runs, held, token, -, rfl⟩ := read
    refine forall_of_defaulted?_list Run.isFinite_of_decode? (fun value given => ?_) held
    exact Json.isDocument_of_record? document taken (by simp [given])
  · contradiction

end Read

inductive EntityKind where
  | experiment
  | runInfo
  | label
  | metric
  | runData
  | run
  | runPage
  | runSearch
  | artifactFile
  | artifactListing
  | modelVersion
  | tagOwner
  | apiError
  | errorCode
  | runStatus
  | lifecycleStage
  | settings

namespace EntityKind

abbrev Value : EntityKind → Type
  | experiment => Experiment
  | runInfo => RunInfo
  | label => Label
  | metric => Metric
  | runData => RunData
  | run => Run
  | runPage => RunPage
  | runSearch => RunSearch
  | artifactFile => ArtifactFile
  | artifactListing => ArtifactListing
  | modelVersion => ModelVersion
  | tagOwner => TagOwner
  | apiError => ApiError
  | errorCode => ErrorCode
  | runStatus => RunStatus
  | lifecycleStage => LifecycleStage
  | settings => Settings

instance : (kind : EntityKind) → JsonForm kind.Value
  | experiment => inferInstanceAs (JsonForm Experiment)
  | runInfo => inferInstanceAs (JsonForm RunInfo)
  | label => inferInstanceAs (JsonForm Label)
  | metric => inferInstanceAs (JsonForm Metric)
  | runData => inferInstanceAs (JsonForm RunData)
  | run => inferInstanceAs (JsonForm Run)
  | runPage => inferInstanceAs (JsonForm RunPage)
  | runSearch => inferInstanceAs (JsonForm RunSearch)
  | artifactFile => inferInstanceAs (JsonForm ArtifactFile)
  | artifactListing => inferInstanceAs (JsonForm ArtifactListing)
  | modelVersion => inferInstanceAs (JsonForm ModelVersion)
  | tagOwner => inferInstanceAs (JsonForm TagOwner)
  | apiError => inferInstanceAs (JsonForm ApiError)
  | errorCode => inferInstanceAs (JsonForm ErrorCode)
  | runStatus => inferInstanceAs (JsonForm RunStatus)
  | lifecycleStage => inferInstanceAs (JsonForm LifecycleStage)
  | settings => inferInstanceAs (JsonForm Settings)

def IsFinite : (kind : EntityKind) → kind.Value → Prop
  | metric => Metric.IsFinite
  | runData => RunData.IsFinite
  | run => Run.IsFinite
  | runPage => RunPage.IsFinite
  | _ => fun _ => True

theorem decode?_encode (kind : EntityKind) (v : kind.Value) : decode? (encode v) = some v := by
  cases kind <;> exact Faithful.decode?_encode _

theorem isDocument_encode (kind : EntityKind) (v : kind.Value) (finite : kind.IsFinite v) :
    (encode v).IsDocument := by
  cases kind with
  | metric => exact Metric.IsFinite.isDocument finite
  | runData => exact RunData.IsFinite.isDocument finite
  | run => exact Run.IsFinite.isDocument finite
  | runPage => exact RunPage.IsFinite.isDocument finite
  | experiment | runInfo | label | runSearch | artifactFile | artifactListing | modelVersion
  | tagOwner | apiError | errorCode | runStatus | lifecycleStage | settings =>
    exact Plain.isDocument_encode _

theorem isFinite_of_decode? (kind : EntityKind) {j : Json} {v : kind.Value}
    (document : j.IsDocument) (read : decode? j = some v) : kind.IsFinite v := by
  cases kind with
  | metric => exact Metric.isFinite_of_decode? document read
  | runData => exact RunData.isFinite_of_decode? document read
  | run => exact Run.isFinite_of_decode? document read
  | runPage => exact RunPage.isFinite_of_decode? document read
  | experiment | runInfo | label | runSearch | artifactFile | artifactListing | modelVersion
  | tagOwner | apiError | errorCode | runStatus | lifecycleStage | settings => trivial

end EntityKind

namespace Operation

def IsFinite : (op : Operation) → op.Payload → Prop
  | getRun _ => Run.IsFinite
  | searchRuns | loadMoreRuns => RunPage.IsFinite
  | getMetricHistory _ _ => fun metrics => ∀ m ∈ metrics, Metric.IsFinite m
  | _ => fun _ => True

end Operation

example :
    let point : Metric := { key := "loss", value := .infinity, timestamp := 5, step := 0 }
    (decode? (encode point).withoutNonFinite : Option Metric) = none := by
  decide

end RunBoard
