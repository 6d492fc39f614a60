import Bulletin.ConfigFile
import Bulletin.Proofs.Convert.Parse
import Bulletin.Proofs.Store
import Bulletin.Proofs.Text.Utf8
import Mathlib.Logic.Basic

/-! # What the bytes of a file come to

The bytes of a file are a configuration, or they are refused, which is one kind of failure. There is a
third way: bytes that are no text derail the reading, and so does a reader that fails without refusing
them, and in the file of a project something that stands where the table of tools should. These are
all, whatever the readers of the formats do; and a file that cannot be read is refused, but one that
cannot even be looked at is not.

* `strays_read_iff`: when the reading of bytes goes astray.
* `strays_load_iff`: when the loading of a file does. -/

namespace Bulletin.Proofs.ConfigFile.Reading

open Bulletin.ConfigFile
open Convert.Parse Runs

/-! ### Results that are neither -/

/-- **A result that is neither a value nor a refusal.** -/
def Strays {α : Type} (r : Except Failure α) : Prop := ∃ f, r = .error f ∧ f.kind ≠ .argument

section Strays
variable {α β : Type} {f : Failure} {x : Except Failure α} {g : α → Except Failure β}

theorem not_strays_ok (a : α) : ¬ Strays (.ok a : Except Failure α) := by
  rintro ⟨f, ⟨⟩, -⟩

theorem strays_error_iff : Strays (.error f : Except Failure α) ↔ f.kind ≠ .argument := by
  constructor
  · rintro ⟨f, ⟨⟩, h⟩
    exact h
  · exact fun h => ⟨f, rfl, h⟩

theorem not_strays_fault (why : Fault) : ¬ Strays (.error why.failure : Except Failure α) := fun h =>
  strays_error_iff.1 h rfl

theorem not_strays_iff :
    ¬ Strays x ↔ (∃ a, x = .ok a) ∨ ∃ f, x = .error f ∧ f.kind = .argument := by
  cases x with
  | ok a => exact iff_of_true (not_strays_ok a) (.inl ⟨a, rfl⟩)
  | error f =>
    rw [strays_error_iff, not_not]
    constructor
    · exact fun h => .inr ⟨f, rfl, h⟩
    · rintro (⟨_, ⟨⟩⟩ | ⟨_, ⟨⟩, h⟩)
      exact h

theorem strays_bind_iff : Strays (x >>= g) ↔ Strays x ∨ ∃ a, x = .ok a ∧ Strays (g a) := by
  cases x with
  | error f =>
    constructor
    · exact fun h => .inl (strays_error_iff.2 (strays_error_iff.1 h))
    · rintro (h | ⟨_, ⟨⟩, -⟩)
      exact strays_error_iff.2 (strays_error_iff.1 h)
  | ok a =>
    rw [except_ok_bind]
    constructor
    · exact fun h => .inr ⟨a, rfl, h⟩
    · rintro (h | ⟨_, ⟨⟩, h⟩)
      · exact absurd h (not_strays_ok a)
      · exact h

end Strays

/-- **A reader that breaks on a text**: it fails in another way than by refusing it. -/
def Broken {ε α : Type} (r : Except (Trouble ε) α) : Prop :=
  ∃ f, r = .error (.broken f) ∧ f.kind ≠ .argument

theorem strays_failure_iff {ε α β : Type} {fault : ε → Fault} {trouble : Trouble ε} :
    Strays (.error (trouble.failure fault) : Except Failure α) ↔
      Broken (.error trouble : Except (Trouble ε) β) := by
  rw [strays_error_iff]
  cases trouble with
  | refused why =>
    refine ⟨fun h => absurd rfl h, ?_⟩
    rintro ⟨_, ⟨⟩, -⟩
  | broken f =>
    constructor
    · exact fun h => ⟨f, rfl, h⟩
    · rintro ⟨_, ⟨⟩, h⟩
      exact h

theorem strays_mapError_iff {ε α : Type} {fault : ε → Fault} {r : Except (Trouble ε) α} :
    Strays (r.mapError (Trouble.failure fault)) ↔ Broken r := by
  cases r with
  | ok a =>
    refine ⟨fun h => absurd h (not_strays_ok a), ?_⟩
    rintro ⟨_, ⟨⟩, -⟩
  | error trouble => exact strays_failure_iff

/-! ### Texts -/

/-- **A text that derails its reading in a format** that is for texts. -/
inductive Derailing (readers : Readers) : ConfigFile.Format → List Char → Prop
  | project {text : List Char} : Broken (readers.toml (.ofList text)) →
      Derailing readers .project text
  | tools {text : List Char} {fields : Fields} {v : Value} :
      readers.toml (.ofList text) = .ok fields → fields.get? "tool" = some v → v.fields? = none →
        Derailing readers .project text
  | toml {text : List Char} : Broken (readers.toml (.ofList text)) → Derailing readers .toml text
  | json {text : List Char} : Broken (readers.json (.ofList (Text.normalizeBreaks text))) →
      Derailing readers .json text

/-- **Bytes that derail their reading in a format**: they are no text, or one that does. The reader of
YAML has the bytes themselves. -/
def Derails (readers : Readers) : ConfigFile.Format → List UInt8 → Prop
  | .yaml, bytes => Broken (readers.yaml bytes)
  | format, bytes => (∃ stop, Text.decodeAll bytes = .error stop) ∨
      ∃ text, Text.decodeAll bytes = .ok text ∧ Derailing readers format text

section Formats
variable {readers : Readers} {path : Path} {bytes : List UInt8}

theorem strays_decoded_iff {α : Type} {wrap : Text.Utf8Stop → Failure}
    (hwrap : ∀ stop, (wrap stop).kind ≠ .argument) {g : List Char → Except Failure α}
    {P : List Char → Prop} (hg : ∀ text, Strays (g text) ↔ P text) :
    Strays ((Text.decodeAll bytes).mapError wrap >>= g) ↔
      (∃ stop, Text.decodeAll bytes = .error stop) ∨
        ∃ text, Text.decodeAll bytes = .ok text ∧ P text := by
  cases Text.decodeAll bytes with
  | error stop => exact iff_of_true ⟨_, rfl, hwrap stop⟩ (.inl ⟨stop, rfl⟩)
  | ok text =>
    refine (hg text).trans ⟨fun h => .inr ⟨text, rfl, h⟩, ?_⟩
    rintro (⟨_, ⟨⟩⟩ | ⟨_, ⟨⟩, h⟩)
    exact h

theorem strays_ofToml_iff :
    Strays (ofToml readers path bytes) ↔ Derails readers .toml bytes := by
  refine strays_decoded_iff (fun stop => by simp [Failure.kind]) fun text => ?_
  rw [strays_mapError_iff]
  exact ⟨.toml, fun | .toml h => h⟩

theorem strays_ofYaml_iff :
    Strays (ofYaml readers path bytes) ↔ Derails readers .yaml bytes := by
  have hyaml : Derails readers .yaml bytes ↔ Broken (readers.yaml bytes) := Iff.rfl
  rw [hyaml, ofYaml]
  cases readers.yaml bytes with
  | error trouble => exact strays_failure_iff
  | ok v =>
    refine iff_of_false ?_ (by rintro ⟨_, ⟨⟩, -⟩)
    cases v with
    | null => exact not_strays_ok _
    | dict config => exact not_strays_ok _
    | _ => exact not_strays_fault _

theorem strays_ofJson_iff :
    Strays (ofJson readers path bytes) ↔ Derails readers .json bytes := by
  refine strays_decoded_iff (fun stop => by simp [Failure.kind]) fun text => ?_
  have hjson : Derailing readers .json text ↔
      Broken (readers.json (.ofList (Text.normalizeBreaks text))) := ⟨fun | .json h => h, .json⟩
  rw [hjson]
  cases readers.json (.ofList (Text.normalizeBreaks text)) with
  | error trouble => exact strays_failure_iff
  | ok v =>
    refine iff_of_false ?_ (by rintro ⟨_, ⟨⟩, -⟩)
    cases v with
    | dict config => exact not_strays_ok _
    | _ => exact not_strays_fault _

/-- The configuration among the tools of a project. -/
def toolConfig (path : Path) (tools : Fields) : Except Failure Fields :=
  match (Fields.get? tools "md2nexus").getD .null with
  | .null => .ok []
  | .dict config => .ok config
  | v => .error (Fault.notTable path v.typeName).failure

/-- The configuration among the fields of the file of a project. -/
def projectConfig (path : Path) (fields : Fields) : Except Failure Fields :=
  match (fields.get? "tool").getD (.dict []) with
  | .dict tools => toolConfig path tools
  | v => .error (.noLookup v.typeName)

theorem ofProject_eq (readers : Readers) (path : Path) (bytes : List UInt8) :
    ofProject readers path bytes = decode bytes >>= fun text =>
      (readers.toml (.ofList text)).mapError (Trouble.failure (.project path)) >>=
        projectConfig path := rfl

theorem ofProject_encodeText (readers : Readers) (path : Path) (s : String) :
    ofProject readers path (encodeText s) =
      (readers.toml s).mapError (Trouble.failure (.project path)) >>= projectConfig path := by
  have hdecode : decode (encodeText s) = .ok s.toList := by
    rw [decode, encodeText, Text.decodeAll_encode]
    rfl
  rw [ofProject_eq, hdecode, except_ok_bind, String.ofList_toList]

theorem ofProject_own (path : Path) (s : String) : ofProject {} path (encodeText s) =
    ((Toml.read s).mapError fun why => (Fault.project path why).failure) >>= projectConfig path := by
  have hown : ({} : Readers).toml s = (Toml.read s).mapError .refused := rfl
  rw [ofProject_encodeText, hown]
  cases Toml.read s <;> rfl

theorem not_strays_toolConfig (tools : Fields) : ¬ Strays (toolConfig path tools) := by
  unfold toolConfig
  split
  · exact not_strays_ok _
  · exact not_strays_ok _
  · exact not_strays_fault _

/-- Only what is no table of tools leads astray, not what is no table of this program. -/
theorem strays_projectConfig_iff {fields : Fields} : Strays (projectConfig path fields) ↔
    ∃ v, fields.get? "tool" = some v ∧ v.fields? = none := by
  unfold projectConfig
  cases fields.get? "tool" with
  | none => exact iff_of_false (not_strays_toolConfig []) (by rintro ⟨_, ⟨⟩, -⟩)
  | some v =>
    cases v with
    | dict tools => exact iff_of_false (not_strays_toolConfig tools) (by rintro ⟨_, ⟨⟩, ⟨⟩⟩)
    | _ => exact iff_of_true (strays_error_iff.2 (by simp [Failure.kind])) ⟨_, rfl, rfl⟩

theorem strays_ofProject_iff :
    Strays (ofProject readers path bytes) ↔ Derails readers .project bytes := by
  rw [ofProject_eq]
  refine strays_decoded_iff (fun stop => by simp [Failure.kind]) fun text => ?_
  rw [strays_bind_iff, strays_mapError_iff]
  constructor
  · rintro (h | ⟨fields, hfields, h⟩)
    · exact .project h
    · obtain ⟨v, hv, hnone⟩ := strays_projectConfig_iff.1 h
      exact .tools (except_mapError_eq_ok.1 hfields) hv hnone
  · rintro (h | ⟨hfields, hv, hnone⟩)
    · exact .inl h
    · exact .inr ⟨_, except_mapError_eq_ok.2 hfields, strays_projectConfig_iff.2 ⟨_, hv, hnone⟩⟩

/-- **When the reading of bytes goes astray.** -/
theorem strays_read_iff (format : ConfigFile.Format) :
    Strays (format.read readers path bytes) ↔ Derails readers format bytes := by
  cases format with
  | project => exact strays_ofProject_iff
  | toml => exact strays_ofToml_iff
  | yaml => exact strays_ofYaml_iff
  | json => exact strays_ofJson_iff

section Nonempty
variable {config : Fields}

theorem toolConfig_eq_ok_iff (hne : config ≠ []) {tools : Fields} :
    toolConfig path tools = .ok config ↔ Fields.get? tools "md2nexus" = some (.dict config) := by
  have hnil : (.ok [] : Except Failure Fields) ≠ .ok config := fun h => hne (Except.ok.inj h).symm
  unfold toolConfig
  cases Fields.get? tools "md2nexus" with
  | none => exact iff_of_false hnil nofun
  | some v =>
    cases v with
    | null => exact iff_of_false hnil nofun
    | dict own => exact ⟨by rintro ⟨⟩; rfl, by rintro ⟨⟩; rfl⟩
    | _ => exact iff_of_false nofun nofun

theorem projectConfig_eq_ok_iff (hne : config ≠ []) {fields : Fields} :
    projectConfig path fields = .ok config ↔ ∃ tools, fields.get? "tool" = some (.dict tools) ∧
      Fields.get? tools "md2nexus" = some (.dict config) := by
  unfold projectConfig
  cases fields.get? "tool" with
  | none => exact iff_of_false (fun h => nomatch (toolConfig_eq_ok_iff hne).1 h) nofun
  | some v =>
    cases v with
    | dict tools =>
      refine (toolConfig_eq_ok_iff hne).trans ⟨fun h => ⟨tools, rfl, h⟩, ?_⟩
      rintro ⟨_, ⟨⟩, h⟩
      exact h
    | _ => exact iff_of_false nofun nofun

/-- **The file of a project has a configuration** if there is something in the table of this program
among the tools. -/
theorem ofProject_eq_ok_iff (hne : config ≠ []) :
    ofProject readers path bytes = .ok config ↔ ∃ text fields tools,
      Text.decodeAll bytes = .ok text ∧ readers.toml (.ofList text) = .ok fields ∧
        fields.get? "tool" = some (.dict tools) ∧
          Fields.get? tools "md2nexus" = some (.dict config) := by
  have hdecode : ∀ text, decode bytes = .ok text ↔ Text.decodeAll bytes = .ok text := fun text =>
    except_mapError_eq_ok
  rw [ofProject_eq]
  simp only [except_bind_eq_ok, hdecode, except_mapError_eq_ok, projectConfig_eq_ok_iff hne]
  constructor
  · rintro ⟨text, ht, fields, hf, tools, htool, hown⟩
    exact ⟨text, fields, tools, ht, hf, htool, hown⟩
  · rintro ⟨text, fields, tools, ht, hf, htool, hown⟩
    exact ⟨text, ht, fields, hf, tools, htool, hown⟩

end Nonempty

end Formats

/-! ### Files -/

section Files
variable {readers : Readers} {w : Workspace} {p : Path} {format : ConfigFile.Format}

theorem readFile_of_read {bytes : List UInt8} (h : w.store.read w.here p = .ok bytes) :
    format.readFile readers w p = format.read readers p bytes := by
  rw [Format.readFile, h]
  rfl

/-- A file that cannot be read is refused. -/
theorem strays_readFile_iff : Strays (format.readFile readers w p) ↔
    ∃ bytes, w.store.read w.here p = .ok bytes ∧ Derails readers format bytes := by
  cases hread : w.store.read w.here p with
  | error why =>
    refine iff_of_false ?_ (by rintro ⟨_, ⟨⟩, -⟩)
    rw [Format.readFile, hread]
    exact not_strays_fault _
  | ok bytes =>
    rw [readFile_of_read hread, strays_read_iff]
    constructor
    · exact fun h => ⟨bytes, rfl, h⟩
    · rintro ⟨_, ⟨⟩, h⟩
      exact h

/-- What the loading of a file comes to. -/
def loaded (readers : Readers) (w : Workspace) (p : Path) : Except Failure Fields := do
  match ← seen w p, format? p with
  | none, _ => .error (Fault.missing p).failure
  | some .directory, _ => .error (Fault.notFile p).failure
  | some (.file _), none => .error (Fault.unknownSuffix (Text.lower p.suffix)).failure
  | some (.file _), some format => format.readFile readers w p

theorem gives_loaded (readers : Readers) (w : Workspace) (p : Path) :
    Gives (load p readers) w (loaded readers w p) := by
  refine (gives_look p w).bind fun e log _ => ?_
  rcases e with _ | ⟨bytes | _⟩
  · exact gives_throw _ _
  · cases format? p with
    | none => exact gives_throw _ _
    | some format =>
      have h := (gives_lift (format.readFile readers w p) { w with log := log }).bind
        fun config log _ => (gives_report .debug .configuration s!"Loaded configuration from {p}"
          { w with log := log }).bind fun _ log _ => gives_pure config { w with log := log }
      have hread : (format.readFile readers w p >>= fun config =>
          (.ok () : Except Failure Unit) >>= fun _ => .ok config) = format.readFile readers w p := by
        cases format.readFile readers w p <;> rfl
      rw [hread] at h
      exact gives_get h
  · exact gives_throw _ _

/-- **When the loading of a file goes astray**: it cannot be looked at, or its name is that of a format
and its bytes derail their reading in it. -/
theorem strays_load_iff : Strays (load p readers w).1 ↔
    (∃ fault, w.store.look? w.here p = .error fault) ∨ ∃ bytes format,
      w.store.read w.here p = .ok bytes ∧ format? p = some format ∧ Derails readers format bytes := by
  rw [(gives_loaded readers w p).fst]
  cases hlook : w.store.look? w.here p with
  | error fault =>
    rw [loaded, seen_of_fault hlook]
    exact iff_of_true (strays_error_iff.2 (by simp [Failure.kind])) (.inl ⟨fault, rfl⟩)
  | ok e =>
    have hnone : (∀ bytes, e ≠ some (.file bytes)) ∨ format? p = none →
        ¬ ((∃ fault, .ok e = (.error fault : Except FileFault (Option Entry))) ∨ ∃ bytes format,
          w.store.read w.here p = .ok bytes ∧ format? p = some format ∧
            Derails readers format bytes) := by
      rintro hnone (⟨_, ⟨⟩⟩ | ⟨bytes, format, hread, hformat, -⟩)
      rcases hnone with hfile | hunknown
      · have hholds : w.store.look? w.here p = _ := Store.holds_of_read hread
        exact hfile bytes (Except.ok.inj (hlook.symm.trans hholds))
      · rw [hunknown] at hformat
        cases hformat
    rw [loaded, seen_eq_ok.2 hlook, except_ok_bind]
    cases e with
    | none => exact iff_of_false (not_strays_fault _) (hnone (.inl nofun))
    | some entry =>
      cases entry with
      | directory => exact iff_of_false (not_strays_fault _) (hnone (.inl nofun))
      | file bytes =>
        cases hformat : format? p with
        | none => exact iff_of_false (not_strays_fault _) (hformat ▸ hnone (.inr hformat))
        | some format =>
          refine strays_readFile_iff.trans ?_
          constructor
          · rintro ⟨bytes, hread, h⟩
            exact .inr ⟨bytes, format, hread, rfl, h⟩
          · rintro (⟨_, ⟨⟩⟩ | ⟨bytes, _, hread, ⟨⟩, h⟩)
            exact ⟨bytes, hread, h⟩

end Files

end Bulletin.Proofs.ConfigFile.Reading
