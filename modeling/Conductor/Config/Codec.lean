import Conductor.Config.Basic
import Conductor.Process.Path

/-!
# Configurations as records

A configuration is a record of six fields. A field that is absent has its standard
value, a field of another name is ignored.
-/

namespace Conductor.Config

/-- The names of the fields, in the order in which they are written. -/
def fieldNames : List String :=
  ["grace_period_secs", "failure_policy", "write_policy", "allow_redeclare", "handle_signals",
    "default_output"]

/-- The fields with their values, in order. -/
def fields (c : Config) : List (String × Json) :=
  [("grace_period_secs", .float c.graceSeconds), ("failure_policy", .str c.failurePolicy.name),
    ("write_policy", .str c.writePolicy.name), ("allow_redeclare", .bool c.allowRedeclare),
    ("handle_signals", .bool c.handleSignals), ("default_output", .str c.defaultOutput.name)]

/-- A field that may be absent. -/
def fieldOr {α : Type} (j : Json) (name : String) (read : Json → Option α) (standard : α) :
    Option α :=
  match j.field? name with
  | none => some standard
  | some v => read v

/-- A configuration given by its fields or, in their order, by bare values. -/
def ofJson? (j : Json) : Option Config := do
  let r ← match j with
    | .arr items => (Json.arr items).asRecord? (fieldNames.take items.length)
    | j => j.asRecord? fieldNames
  return {
    graceSeconds := ← fieldOr r "grace_period_secs" Json.asFloat? standard.graceSeconds
    failurePolicy :=
      ← fieldOr r "failure_policy" (·.asWord?.bind FailurePolicy.ofName?) standard.failurePolicy
    writePolicy :=
      ← fieldOr r "write_policy" (·.asWord?.bind WritePolicy.ofName?) standard.writePolicy
    allowRedeclare := ← fieldOr r "allow_redeclare" Json.asBool? standard.allowRedeclare
    handleSignals := ← fieldOr r "handle_signals" Json.asBool? standard.handleSignals
    defaultOutput :=
      ← fieldOr r "default_output" (·.asWord?.bind OutputMode.ofName?) standard.defaultOutput }

/-- The directory of a project that holds what is kept for launches. -/
def directory : String := ".launchpad"

/-- The configuration file of a project. -/
def pathIn (root : String) : String :=
  Path.join root ".launchpad/config.yaml"

end Conductor.Config
