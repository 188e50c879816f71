import RandomTables.Lint
import RandomTables.Table.Load
import RandomTables.Tool.Outcome

/-! # The linter

Checks the tables in a file or folder, and further templates against them.
-/

namespace RandomTables.Tool.Linter

def usage : Text :=
  line ["Usage: template_linter <tables_path> [--template <text>]... [--debug]"]

/-- The templates among the arguments behind the path, or the first argument that is unknown. -/
def templates : List Text → Except Text (List Text)
  | [] => .ok []
  | [argument] => if argument = "--debug".toList then .ok [] else .error argument
  | argument :: next :: rest =>
    if argument = "--template".toList then (templates rest).map (next :: ·)
    else if argument = "--debug".toList then templates (next :: rest)
    else .error argument

/-- The findings in the tables, then those in the further templates. -/
def findings (tables : Store) (templates : List Text) : Lint.Findings :=
  Lint.ofTables tables ++ Lint.Findings.concat (templates.map fun template =>
    Lint.ofTemplate tables (.template template) template)

def report (findings : Lint.Findings) : Text :=
  line [] ++ line ["=== Template Lint Report ==="] ++ line [] ++
    (if findings.errors.isEmpty && findings.warnings.isEmpty then line ["All checks passed!"]
      else []) ++
    findings.warnings.flatMap (fun warning => line ["WARNING: ", warning.message]) ++
    findings.errors.flatMap (fun error => line ["ERROR: ", error.message]) ++
    line [] ++
    line ["Summary: ", Text.ofNat findings.errors.length, " errors, ",
      Text.ofNat findings.warnings.length, " warnings"]

/-- Lints loaded tables. Errors fail the run, warnings do not. -/
def lint (tables : Store) (templates : List Text) : Outcome :=
  let findings := findings tables templates
  { exit := if findings.errors.isEmpty then 0 else 1
    output :=
      line ["Loaded ", Text.ofNat tables.names.length, " top-level tables (",
        Text.ofNat tables.lists.length, " lists)"] ++ report findings }

def run (arguments : List Text) (files : FileTree) : Outcome :=
  match arguments with
  | [] => .success usage
  | path :: rest =>
    if path = "--help".toList ∨ path = "-h".toList then .success usage
    else
      match templates rest with
      | .error argument => .failure (line ["Unknown argument: ", argument])
      | .ok templates =>
        match files.find path with
        | .error _ => .failure (line ["ERROR: Path '", path, "' does not exist"])
        | .ok _ =>
          match Loaded.ofPath files path with
          | .error error => .failure (line ["ERROR: Failed to load tables: ", error.message])
          | .ok loaded => lint loaded.store templates

end RandomTables.Tool.Linter
