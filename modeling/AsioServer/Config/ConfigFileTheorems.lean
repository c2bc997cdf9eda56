/-
AsioServer.Config.ConfigFileTheorems — the bytes of a configuration file and its answers.

`file >> j` reads one value from the front of the file and leaves what is behind it.
So a configuration that was written by `dump` is read back, in any indentation and
with a line end or anything else behind it (`written_config_is_read_iff`).

A file may be read while it is written. The front of a file that holds an object is
read as this object or not at all, and a load that fails leaves the answers as they
were, so that every answer comes from a version of the file that was written to its
end (`no_torn_answer`).
-/
import AsioServer.Config.ConfigPathTheorems
import AsioServer.Infra.JsonPrefixTheorems

namespace AsioServer.Config

open AsioServer.Core AsioServer.Infra AsioServer.Lib

variable {strtod : Bytes → Option Rat}

/-! ## Files -/

/-- The files while one of them is loaded, as bytes. -/
structure Disk where
  /-- As in `FileSystem`. -/
  resolve : Bytes → Option Bytes
  /-- The bytes of a file that exists and can be opened. -/
  content : Bytes → Option Bytes

/-- What `LoadConfig` finds on the disk. -/
def Disk.files (strtod : Bytes → Option Rat) (disk : Disk) : FileSystem :=
  { resolve := disk.resolve, read := fun path => (disk.content path).bind (parse strtod false) }

theorem loadable_files_iff {disk : Disk} {path : Bytes} {j : Json} :
    loadable (disk.files strtod) path = some j ↔ validateConfigPath path = true ∧
      ∃ configPath text, disk.resolve path = some configPath ∧
        disk.content configPath = some text ∧ parse strtod false text = some j ∧
        isEmpty j = false := by
  unfold loadable
  split
  · next hvalid =>
    simp only [Disk.files, Option.filter_eq_some_iff, Option.bind_eq_some_iff, hvalid, true_and,
      Bool.not_eq_true']
    constructor
    · rintro ⟨⟨configPath, hresolve, text, hcontent, hparse⟩, hfull⟩
      exact ⟨configPath, text, hresolve, hcontent, hparse, hfull⟩
    · rintro ⟨configPath, text, hresolve, hcontent, hparse, hfull⟩
      exact ⟨⟨configPath, hresolve, text, hcontent, hparse⟩, hfull⟩
  · next hvalid => simp [hvalid]

/-! ## Files that were written -/

/-- A text is read with anything behind it that does not go on a number. -/
theorem parse_of_text_behind {lib : JsonLib} {j : Json}
    (hj : j.Valid (ReadsBack strtod lib.floatText)) (step : Option Nat) (cur : Nat) {text : Bytes}
    (htext : j.text lib step cur = some text) {behind : Bytes} (hends : Lexer.Ends behind) :
    parse strtod false (text ++ behind) = some j := by
  obtain ⟨text', ts, htext', hvalue, hspells⟩ := spells_text step cur hj
  obtain rfl := Option.some.inj (htext'.symm.trans htext)
  have hlexes := hspells.lexes behind hends
  obtain ⟨t, ts, rfl⟩ := List.exists_cons_of_ne_nil hspells.ne_nil
  exact parse_eq_some_iff.mpr ⟨_, _, _, skipBom_of_lexes hlexes, hlexes, hvalue, nofun⟩

/-- **A configuration that was written by `dump` answers a key with a value exactly when
the key is that of a path in the configuration and the value at its end converts to it.** -/
theorem written_config_is_read_iff {lib : JsonLib} {disk : Disk} {path configPath : Bytes}
    {j : Json} {step : Option Nat} {text behind : Bytes} (hpath : validateConfigPath path = true)
    (hresolve : disk.resolve path = some configPath)
    (hj : j.Valid (ReadsBack strtod lib.floatText)) (hfull : isEmpty j = false)
    (htext : j.text lib step 0 = some text) (hends : Lexer.Ends behind)
    (hcontent : disk.content configPath = some (text ++ behind)) {α : Type}
    (convert : Json → Option α) (key : Bytes) (v : α) :
    (ConfigReader.new (disk.files strtod) path).get convert key = some v ↔
      ∃ steps w, steps ≠ [] ∧ key = keyOf steps ∧ At j steps w ∧ convert w = some v := by
  have hparse := parse_of_text_behind hj step 0 htext hends
  have hload : loadable (disk.files strtod) path = some j :=
    loadable_files_iff.mpr ⟨hpath, configPath, _, hresolve, hcontent, hparse, hfull⟩
  rw [ConfigReader.get_eq_some_iff, ConfigReader.isLoaded_new, ConfigReader.configJson_new, hload]
  simp

/-- A configuration in lines of its own, with a line end behind it. -/
theorem written_config_is_read_iff_lines :
    (ConfigReader.new (({ resolve := some, content := fun _ =>
        ((Json.object [(ascii "db", .object [(ascii "port", .integer 5432)])]).text
          (.nlohmann (fun _ => none) fun _ => []) (some 4) 0).map (· ++ [0x0A]) } : Disk).files
            fun _ => none) (ascii "a.json")).get Json.getInt (ascii "db/port") = some 5432 ↔
      ∃ steps w, steps ≠ [] ∧ ascii "db/port" = keyOf steps ∧
        At (.object [(ascii "db", .object [(ascii "port", .integer 5432)])]) steps w ∧
        Json.getInt w = some 5432 := by
  have hj : (Json.object [(ascii "db", .object [(ascii "port", .integer 5432)])]).Valid
      (ReadsBack (fun _ => none) fun _ => []) := by
    simp only [Json.Valid, ValidFields, OrderedMap.Sorted]
    decide +kernel
  exact @written_config_is_read_iff _ (.nlohmann (fun _ => none) fun _ => []) _ _ _ _ (some 4) _
    [0x0A] (by decide +kernel) rfl hj rfl rfl (ends_cons (by decide) []) rfl _ Json.getInt
    (ascii "db/port") 5432

/-! ## Files that are being written -/

/-- Every file of the disk is the front of a version. -/
def Disk.Shows (versions : Bytes → Prop) (disk : Disk) : Prop :=
  ∀ path text, disk.content path = some text → ∃ behind, versions (text ++ behind)

/-- A reload finds such a disk. -/
def ReadsVersions (strtod : Bytes → Option Rat) (versions : Bytes → Prop) : Request → Prop
  | .setConfigPath _ => True
  | .reloadConfig fs => ∃ disk : Disk, fs = disk.files strtod ∧ disk.Shows versions

/-- The value of a version. -/
def IsVersion (strtod : Bytes → Option Rat) (versions : Bytes → Prop) (j : Json) : Prop :=
  ∃ whole, versions whole ∧ parse strtod false whole = some j

theorem isVersion_of_loadable {versions : Bytes → Prop}
    (hversions : ∀ whole, versions whole → ∃ j, parse strtod false whole = some j ∧
      j.isStructured = true) {disk : Disk} (hdisk : disk.Shows versions) {path : Bytes} {j : Json}
    (h : loadable (disk.files strtod) path = some j) : IsVersion strtod versions j := by
  obtain ⟨-, configPath, text, -, hcontent, hparse, -⟩ := loadable_files_iff.mp h
  obtain ⟨behind, hversion⟩ := hdisk configPath text hcontent
  obtain ⟨i, hwhole, hstructured⟩ := hversions _ hversion
  rcases parse_cut hstructured hwhole with hnone | hsame
  · exact absurd (hnone.symm.trans hparse) (by simp)
  · obtain rfl := Option.some.inj (hsame.symm.trans hparse)
    exact ⟨_, hversion, hwhole⟩

/-- The JSON of the last load is that of a version. -/
def HoldsVersion (strtod : Bytes → Option Rat) (versions : Bytes → Prop) (history : History) :
    Prop :=
  ∀ j, history.latest = some j → IsVersion strtod versions j

theorem HoldsVersion.step {versions : Bytes → Prop}
    (hversions : ∀ whole, versions whole → ∃ j, parse strtod false whole = some j ∧
      j.isStructured = true) {before after : History} {request : Request}
    (h : HoldsVersion strtod versions before) (hrequest : ReadsVersions strtod versions request)
    (hstep : before.step request = some after) : HoldsVersion strtod versions after := by
  cases request with
  | setConfigPath newPath =>
      obtain rfl := Option.some.inj hstep
      exact h
  | reloadConfig fs =>
      obtain rfl := Option.some.inj hstep
      obtain ⟨disk, rfl, hdisk⟩ := hrequest
      intro j hj
      rcases Option.or_eq_some_iff.mp hj with hload | ⟨-, hlatest⟩
      · exact isVersion_of_loadable hversions hdisk hload
      · exact h j hlatest

/-- **When every version of the files holds an array or an object, every answer after any
run of path changes and reloads comes from one of them, wherever the files were cut
short when they were read.** -/
theorem no_torn_answer {versions : Bytes → Prop}
    (hversions : ∀ whole, versions whole → ∃ j, parse strtod false whole = some j ∧
      j.isStructured = true) {disk : Disk} (hdisk : disk.Shows versions) {path : Bytes}
    {requests : List Request} (hrequests : ∀ r ∈ requests, ReadsVersions strtod versions r)
    {after : History}
    (hrun : run History.step (History.new (disk.files strtod) path) requests = some after)
    {α : Type} {convert : Json → Option α} {key : Bytes} {v : α}
    (hget : after.reader.get convert key = some v) :
    ∃ whole j, versions whole ∧ parse strtod false whole = some j ∧
      (valueAt j key).bind convert = some v := by
  have hstep : ∀ s r t, HoldsVersion strtod versions s ∧ s.Sound →
      ReadsVersions strtod versions r → s.step r = some t →
        HoldsVersion strtod versions t ∧ t.Sound :=
    fun s r t hs hr ht => ⟨hs.1.step hversions hr ht, hs.2.step ht⟩
  have hfirst : HoldsVersion strtod versions (History.new (disk.files strtod) path) :=
    fun j hj => isVersion_of_loadable hversions hdisk hj
  obtain ⟨hholds, hsound⟩ := run_invariant hstep ⟨hfirst, History.sound_new _ _⟩
    (AllSteps.of_labels hrequests) hrun
  obtain ⟨-, j, steps, w, hjson, hne, hkey, hat, hw⟩ :=
    (ConfigReader.get_eq_some_iff after.reader key).mp hget
  have hlatest : after.latest = some j := (Eq.symm hsound).trans hjson
  obtain ⟨whole, hversion, hparse⟩ := hholds j hlatest
  have hvalue : valueAt j key = some w := valueAt_eq_some_iff.mpr ⟨steps, hne, hkey, hat⟩
  exact ⟨whole, j, hversion, hparse, by rw [hvalue]; exact hw⟩

/-- A file with one setting. -/
def portText : Bytes := ascii "\x7b\"port\":80\x7d"

/-- The file is cut short behind its first bytes when it is reloaded. -/
theorem no_torn_answer_port :
    ∃ whole j, whole = portText ∧ parse (fun _ => none) false whole = some j ∧
      (valueAt j (ascii "port")).bind Json.getInt = some 80 := by
  have hversions : ∀ whole, whole = portText →
      ∃ j, parse (fun _ => none) false whole = some j ∧ j.isStructured = true := by
    rintro whole rfl
    exact ⟨_, rfl, rfl⟩
  have hshows : ∀ n, (⟨some, fun _ => some (portText.take n)⟩ : Disk).Shows
      fun whole => whole = portText := by
    intro n path text htext
    obtain rfl := Option.some.inj htext
    exact ⟨_, List.take_append_drop n _⟩
  have hrequests : ∀ r ∈ [Request.reloadConfig
      ((⟨some, fun _ => some (portText.take 5)⟩ : Disk).files fun _ => none)],
      ReadsVersions (fun _ => none) (fun whole => whole = portText) r := by
    intro r hr
    obtain rfl := List.mem_singleton.mp hr
    exact ⟨_, rfl, hshows 5⟩
  obtain ⟨after, hrun⟩ : ∃ after, run History.step
      (History.new ((⟨some, fun _ => some (portText.take 100)⟩ : Disk).files fun _ => none)
        (ascii "a.json"))
      [Request.reloadConfig
        ((⟨some, fun _ => some (portText.take 5)⟩ : Disk).files fun _ => none)] = some after :=
    ⟨_, rfl⟩
  have hget : after.reader.get Json.getInt (ascii "port") = some 80 := by
    obtain rfl := Option.some.inj hrun
    decide +kernel
  exact no_torn_answer hversions (hshows 100) hrequests hrun hget

end AsioServer.Config
