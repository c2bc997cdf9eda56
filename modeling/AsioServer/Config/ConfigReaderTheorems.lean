/-
AsioServer.Config.ConfigReaderTheorems — what a reader answers after a series of loads.

A load of a path under a file system brings in a JSON value or fails
(`loadable`), and `LoadConfig` keeps what it brought in. The history of a reader
adds the value of the last load that succeeded to the reader, and the file system
may be another one at every `ReloadConfig`.

`_configJson` always is that value (`History.Sound`). `_isLoaded` is written by the
constructor only, so that it tells whether the first load succeeded: a reader whose
first load failed answers nothing for ever, also after a reload that succeeded.
The answers reflect the last successful load through a whole run exactly when the
first load succeeds or no reload does (`answers_reflect_iff`).
-/
import AsioServer.Config.ConfigReader
import AsioServer.Lib.Transition

namespace AsioServer.Config

open AsioServer.Core AsioServer.Infra AsioServer.Lib

/-! ## One load -/

/-- The JSON that a load of the path brings in; `none` is a load that fails. -/
def loadable (fs : FileSystem) (path : Bytes) : Option Json :=
  if validateConfigPath path then
    ((fs.resolve path).bind fs.read).filter fun j => !isEmpty j
  else none

namespace ConfigReader

theorem loadConfig_of_loadable {fs : FileSystem} {reader : ConfigReader} {j : Json}
    (h : loadable fs reader.configFilePath = some j) :
    ∃ configPath, reader.loadConfig fs =
      ({ reader with configFilePath := configPath, configJson := some j }, true) := by
  unfold loadable at h
  split at h
  · next hvalid =>
      obtain ⟨hread, hfull⟩ := Option.filter_eq_some_iff.mp h
      obtain ⟨configPath, hresolve, hread⟩ := Option.bind_eq_some_iff.mp hread
      have hempty : isEmpty j = false := by simpa using hfull
      refine ⟨configPath, ?_⟩
      simp [loadConfig, hvalid, hresolve, hread, hempty]
  · cases h

theorem loadConfig_of_not_loadable {fs : FileSystem} {reader : ConfigReader}
    (h : loadable fs reader.configFilePath = none) : reader.loadConfig fs = (reader, false) := by
  unfold loadConfig
  split
  · next hvalid =>
      cases hresolve : fs.resolve reader.configFilePath with
      | none => rfl
      | some configPath =>
          cases hread : fs.read configPath with
          | none => simp [hread]
          | some j =>
              have hempty : isEmpty j = true := by
                simpa [loadable, hvalid, hresolve, hread, Option.filter] using h
              simp [hread, hempty]
  · rfl

/-- The result of a load says whether it brought in a value. -/
theorem loadConfig_succeeds (fs : FileSystem) (reader : ConfigReader) :
    (reader.loadConfig fs).2 = (loadable fs reader.configFilePath).isSome := by
  cases h : loadable fs reader.configFilePath with
  | none => rw [loadConfig_of_not_loadable h]; rfl
  | some j =>
      obtain ⟨configPath, hload⟩ := loadConfig_of_loadable h
      rw [hload]; rfl

@[simp] theorem isLoaded_loadConfig (fs : FileSystem) (reader : ConfigReader) :
    (reader.loadConfig fs).1.isLoaded = reader.isLoaded := by
  cases h : loadable fs reader.configFilePath with
  | none => rw [loadConfig_of_not_loadable h]
  | some j =>
      obtain ⟨configPath, hload⟩ := loadConfig_of_loadable h
      rw [hload]

@[simp] theorem configJson_loadConfig (fs : FileSystem) (reader : ConfigReader) :
    (reader.loadConfig fs).1.configJson =
      (loadable fs reader.configFilePath).or reader.configJson := by
  cases h : loadable fs reader.configFilePath with
  | none => rw [loadConfig_of_not_loadable h]; rfl
  | some j =>
      obtain ⟨configPath, hload⟩ := loadConfig_of_loadable h
      rw [hload]; rfl

@[simp] theorem isLoaded_new (fs : FileSystem) (path : Bytes) :
    (new fs path).isLoaded = (loadable fs path).isSome :=
  loadConfig_succeeds fs ⟨none, path, false⟩

@[simp] theorem configJson_new (fs : FileSystem) (path : Bytes) :
    (new fs path).configJson = loadable fs path :=
  (configJson_loadConfig fs ⟨none, path, false⟩).trans (Option.or_none)

@[simp] theorem isLoaded_setConfigPath (newPath : Bytes) (reader : ConfigReader) :
    (reader.setConfigPath newPath).isLoaded = reader.isLoaded := by
  unfold setConfigPath
  split <;> rfl

@[simp] theorem configJson_setConfigPath (newPath : Bytes) (reader : ConfigReader) :
    (reader.setConfigPath newPath).configJson = reader.configJson := by
  unfold setConfigPath
  split <;> rfl

end ConfigReader

/-! ## The answers -/

/-- The value at a key of a JSON value. -/
def valueAt (j : Json) (key : Bytes) : Option Json := (tokens key).bind (pointed j)

theorem tokens_ne_nil {key : Bytes} {parts : List Bytes} (h : tokens key = some parts) :
    parts ≠ [] := by
  rintro rfl
  unfold tokens at h
  cases hparts : key.splitOn 0x2F with
  | nil => exact List.splitOn_ne_nil 0x2F key hparts
  | cons part rest => simp [hparts, Option.bind_eq_some_iff] at h

/-- The JSON `null` has no keys. -/
@[simp] theorem valueAt_null (key : Bytes) : valueAt .null key = none := by
  unfold valueAt
  cases h : tokens key with
  | none => rfl
  | some parts =>
      cases parts with
      | nil => exact absurd rfl (tokens_ne_nil h)
      | cons part rest => rfl

/-- The reader answers from the JSON `latest`, and everything it answers agrees
with `GetRawConfig`. -/
structure Reflects (latest : Option Json) (reader : ConfigReader) : Prop where
  isLoaded : reader.isLoaded = latest.isSome
  rawConfig : reader.getRawConfig = latest.getD .null
  hasKey : ∀ key, reader.hasKey key = (valueAt reader.getRawConfig key).isSome
  get : ∀ {α : Type} (convert : Json → Option α) (key : Bytes),
    reader.get convert key = (valueAt reader.getRawConfig key).bind convert

/-- Two readers give the same answers. -/
structure SameAnswers (before after : ConfigReader) : Prop where
  isLoaded : after.isLoaded = before.isLoaded
  rawConfig : after.getRawConfig = before.getRawConfig
  hasKey : ∀ key, after.hasKey key = before.hasKey key
  get : ∀ {α : Type} (convert : Json → Option α) (key : Bytes),
    after.get convert key = before.get convert key

/-- A reader that holds the JSON of the last load reflects it exactly if its flag is right. -/
theorem reflects_iff {latest : Option Json} {reader : ConfigReader}
    (hjson : reader.configJson = latest) :
    Reflects latest reader ↔ reader.isLoaded = latest.isSome := by
  constructor
  · exact Reflects.isLoaded
  · intro hloaded
    cases latest with
    | none =>
        have hraw : reader.getRawConfig = .null := by simp [ConfigReader.getRawConfig, hjson]
        have hflag : reader.isLoaded = false := hloaded
        refine ⟨hloaded, hraw, fun key => ?_, fun convert key => ?_⟩
        · simp [hraw, ConfigReader.hasKey, hflag]
        · simp [hraw, ConfigReader.get, hflag]
    | some j =>
        have hraw : reader.getRawConfig = j := by simp [ConfigReader.getRawConfig, hjson]
        have hflag : reader.isLoaded = true := hloaded
        refine ⟨hloaded, hraw, fun key => ?_, fun convert key => ?_⟩
        · simp [hraw, ConfigReader.hasKey, hflag, hjson, valueAt]
        · simp [hraw, ConfigReader.get, hflag, hjson, valueAt]

/-- A new reader answers from the file, or nothing. -/
theorem reflects_new (fs : FileSystem) (path : Bytes) :
    Reflects (loadable fs path) (ConfigReader.new fs path) :=
  (reflects_iff (ConfigReader.configJson_new fs path)).mpr (ConfigReader.isLoaded_new fs path)

/-! ## Histories -/

/-- A reader and the JSON of the last load that succeeded. -/
structure History where
  reader : ConfigReader
  latest : Option Json

/-- What is asked of the reader; a reload finds the file system as it then is. -/
inductive Request where
  | setConfigPath (newPath : Bytes)
  | reloadConfig (fs : FileSystem)

namespace History

/-- The reader is constructed. -/
def new (fs : FileSystem) (path : Bytes) : History :=
  { reader := ConfigReader.new fs path, latest := loadable fs path }

/-- One request. -/
def step (history : History) : Request → Option History
  | .setConfigPath newPath =>
      some { history with reader := history.reader.setConfigPath newPath }
  | .reloadConfig fs =>
      some { reader := (history.reader.reloadConfig fs).1
             latest := (loadable fs history.reader.configFilePath).or history.latest }

/-- The request is no reload, or one that fails. -/
def NoneLoaded (history : History) : Request → Prop
  | .setConfigPath _ => True
  | .reloadConfig fs => loadable fs history.reader.configFilePath = none

/-- The answers reflect the last successful load. -/
def Consistent (history : History) : Prop := Reflects history.latest history.reader

/-- A request that loads nothing leaves the answers as they are. -/
def FailureKeeps (before : History) (request : Request) (after : History) : Prop :=
  before.NoneLoaded request → SameAnswers before.reader after.reader

/-- The reader holds the JSON of the last successful load. -/
def Sound (history : History) : Prop := history.reader.configJson = history.latest

theorem sound_new (fs : FileSystem) (path : Bytes) : (new fs path).Sound :=
  ConfigReader.configJson_new fs path

theorem Sound.step {before after : History} {request : Request} (h : before.Sound)
    (hstep : before.step request = some after) : after.Sound := by
  cases request with
  | setConfigPath newPath =>
      obtain rfl := Option.some.inj hstep
      exact (ConfigReader.configJson_setConfigPath _ _).trans h
  | reloadConfig fs =>
      obtain rfl := Option.some.inj hstep
      unfold Sound at h ⊢
      rw [← h]
      exact ConfigReader.configJson_loadConfig fs before.reader

/-- No request writes the flag. -/
theorem isLoaded_step {before after : History} {request : Request}
    (hstep : before.step request = some after) :
    after.reader.isLoaded = before.reader.isLoaded := by
  cases request with
  | setConfigPath newPath =>
      obtain rfl := Option.some.inj hstep
      exact ConfigReader.isLoaded_setConfigPath newPath before.reader
  | reloadConfig fs =>
      obtain rfl := Option.some.inj hstep
      exact ConfigReader.isLoaded_loadConfig fs before.reader

theorem failureKeeps_step {before after : History} {request : Request}
    (hstep : before.step request = some after) : FailureKeeps before request after := by
  intro hfails
  have hjson : after.reader.configJson = before.reader.configJson := by
    cases request with
    | setConfigPath newPath =>
        obtain rfl := Option.some.inj hstep
        exact ConfigReader.configJson_setConfigPath newPath before.reader
    | reloadConfig fs =>
        obtain rfl := Option.some.inj hstep
        have hfails : loadable fs before.reader.configFilePath = none := hfails
        exact (ConfigReader.configJson_loadConfig fs before.reader).trans (by rw [hfails]; rfl)
  have hloaded := isLoaded_step hstep
  refine ⟨hloaded, ?_, fun key => ?_, fun convert key => ?_⟩
  · rw [ConfigReader.getRawConfig, ConfigReader.getRawConfig, hjson]
  · rw [ConfigReader.hasKey, ConfigReader.hasKey, hjson, hloaded]
  · rw [ConfigReader.get, ConfigReader.get, hjson, hloaded]

/-! ## Runs -/

/-- One request keeps the answers right exactly if the flag is set or nothing is loaded. -/
theorem consistent_step_iff {before after : History} {request : Request} (h : before.Sound)
    (hc : before.Consistent) (hstep : before.step request = some after) :
    after.Consistent ↔ before.reader.isLoaded = true ∨ before.NoneLoaded request := by
  rw [Consistent, reflects_iff (h.step hstep), isLoaded_step hstep]
  have hflag : before.reader.isLoaded = before.latest.isSome := hc.isLoaded
  cases request with
  | setConfigPath newPath =>
      obtain rfl := Option.some.inj hstep
      exact ⟨fun _ => .inr trivial, fun _ => hflag⟩
  | reloadConfig fs =>
      obtain rfl := Option.some.inj hstep
      cases hload : loadable fs before.reader.configFilePath with
      | none => simp [NoneLoaded, hload, hflag]
      | some j => simp [NoneLoaded, hload]

/-- The flag does not change in a run, so the condition on the steps is one on the run. -/
theorem allSteps_isLoaded_or (requests : List Request) (history : History) :
    AllSteps step (fun before request _ => before.reader.isLoaded = true ∨
        before.NoneLoaded request) history requests ↔
      history.reader.isLoaded = true ∨
        AllSteps step (fun before request _ => before.NoneLoaded request) history requests := by
  induction requests generalizing history with
  | nil => exact ⟨fun _ => .inr trivial, fun _ => trivial⟩
  | cons request rest ih =>
      constructor
      · intro h
        cases hflag : history.reader.isLoaded with
        | true => exact .inl rfl
        | false =>
            refine .inr fun after hstep => ?_
            obtain ⟨hnow, hrest⟩ := h after hstep
            have hlater : after.reader.isLoaded = false := (isLoaded_step hstep).trans hflag
            exact ⟨hnow.resolve_left (by simp [hflag]),
              ((ih after).mp hrest).resolve_left (by simp [hlater])⟩
      · rintro (hflag | h) after hstep
        · have hlater : after.reader.isLoaded = true := (isLoaded_step hstep).trans hflag
          exact ⟨.inl hflag, (ih after).mpr (.inl hlater)⟩
        · obtain ⟨hnow, hrest⟩ := h after hstep
          exact ⟨.inr hnow, (ih after).mpr (.inr hrest)⟩

/-- **In a run of path changes and reloads over any file systems, the answers reflect
the last successful load all along, and failed loads change no answer, exactly when
the first load succeeds or no reload does.** -/
theorem answers_reflect_iff (fs : FileSystem) (path : Bytes) (requests : List Request) :
    (AllStates step Consistent (new fs path) requests ∧
        AllSteps step FailureKeeps (new fs path) requests) ↔
      (loadable fs path).isSome ∨
        AllSteps step (fun before request _ => before.NoneLoaded request) (new fs path)
          requests := by
  have hkeeps : AllSteps step FailureKeeps (new fs path) requests :=
    AllSteps.of_step (fun before request after (hstep : before.step request = some after) =>
      failureKeeps_step hstep) requests (new fs path)
  have hall : AllStates step Consistent (new fs path) requests ↔
      AllSteps step (fun before request _ => before.reader.isLoaded = true ∨
        before.NoneLoaded request) (new fs path) requests :=
    @allStates_iff_allSteps _ _ step Sound Consistent _ (fun _ _ _ h hstep => h.step hstep)
      (fun _ _ _ h hc hstep => consistent_step_iff h hc hstep) requests (new fs path)
      (sound_new fs path) (reflects_new fs path)
  have hflag : (new fs path).reader.isLoaded = (loadable fs path).isSome :=
    ConfigReader.isLoaded_new fs path
  rw [and_iff_left hkeeps, hall, allSteps_isLoaded_or, hflag]

end History

/-- Every path leads to the same content. -/
def oneFile (content : Option Json) : FileSystem := { resolve := some, read := fun _ => content }

/-- The file is missing at first and there when it is reloaded: the reload succeeds and
`GetRawConfig` has the port, and the reader says that nothing is loaded and has no port. -/
theorem reload_after_missing_file :
    (∃ after, run History.step (History.new (oneFile none) (ascii "a.json"))
        [.reloadConfig (oneFile (some (.object [(ascii "port", .integer 8080)])))] = some after ∧
      after.reader.isLoaded = false ∧ after.reader.hasKey (ascii "port") = false ∧
      after.reader.getInt (ascii "port") = none ∧
      (valueAt after.reader.getRawConfig (ascii "port")).isSome = true) ∧
    ¬ AllStates History.step History.Consistent (History.new (oneFile none) (ascii "a.json"))
      [.reloadConfig (oneFile (some (.object [(ascii "port", .integer 8080)])))] := by
  refine ⟨⟨_, rfl, by decide +kernel, by decide +kernel, by decide +kernel, by decide +kernel⟩, ?_⟩
  intro h
  have hlast : History.Consistent _ := (h.2 _ rfl).head
  exact absurd hlast.isLoaded (by decide +kernel)

end AsioServer.Config
