import TreeQuery.Settings.Basic
import TreeQuery.Toml.Decode
import TreeQuery.Toml.Parser

/-!
# Reading settings

Settings are read from a TOML document. All of them may be left out, and there may be no others.
-/

namespace TreeQuery.Settings

/-- The keys of a settings document. -/
def keys : List String :=
  ["code_file_path", "verbose", "answer_dir", "proof_dir"]

/-- The settings that a table gives. -/
def ofTable (t : Toml.Table) : Except Toml.Error Settings :=
  match t.entries.find? fun e => !keys.contains e.1 with
  | some (key, _) => .error (.unknownKey key)
  | none => do
    let code? ← Toml.optional (·.text?) t.entries "code_file_path"
    let verbose? ← Toml.optional (·.bool?) t.entries "verbose"
    let answers? ← Toml.optional (·.text?) t.entries "answer_dir"
    let proofs? ← Toml.optional (·.text?) t.entries "proof_dir"
    return {
      codePath := code?.getD standard.codePath
      verbose := verbose?.getD standard.verbose
      answerDir := answers?.getD standard.answerDir
      proofDir := proofs?.getD standard.proofDir
      isDefault := false
    }

/-- The settings of a document (`load_settings_from_str`). -/
def parse (text : String) : Except Toml.Error Settings := do
  ofTable (← Toml.parse text)

/-- The settings in force (`Settings::load_for`). A settings document, if there is one, counts in
    local mode only. -/
def resolve (isLocal : Bool) (document? : Option String) : Except Toml.Error Settings :=
  match isLocal, document? with
  | true, some text => parse text
  | _, _ => .ok standard

end TreeQuery.Settings
