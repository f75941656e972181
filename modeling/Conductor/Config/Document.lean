import Conductor.Config.Codec
import Conductor.Document.Library

/-!
# Configurations as documents

A configuration is written as a record with all of its fields. Read back, a document may
give the fields in any order and leave some out, and holds each of them at most once;
entries of other names are ignored. What documents look like is up to the library.
-/

namespace Conductor

namespace Config

/-- The fields as they are written, in order. -/
def record (c : Config) : List (String × Scalar) :=
  [("grace_period_secs", .number c.graceSeconds), ("failure_policy", .word c.failurePolicy.name),
    ("write_policy", .word c.writePolicy.name), ("allow_redeclare", .truth c.allowRedeclare),
    ("handle_signals", .truth c.handleSignals), ("default_output", .word c.defaultOutput.name)]

/-- The value of a field that may be absent and is given at most once. -/
def entryOr {Node α : Type} (entries : List (String × Node)) (name : String)
    (read : Node → Option α) (standard : α) : Option α :=
  match entries.filter (·.1 = name) with
  | [] => some standard
  | [(_, v)] => read v
  | _ => none

end Config

namespace DocumentLibrary

variable (lib : DocumentLibrary)

/-- The alternative that a value names. -/
def named? {α : Type} (ofName? : String → Option α) (v : lib.Node) : Option α :=
  (lib.word? v).bind ofName?

/-- The configuration that entries give. -/
def configOf? (entries : List (String × lib.Node)) : Option Config := do
  let standard := Config.standard
  return {
    graceSeconds := ← Config.entryOr entries "grace_period_secs" lib.number? standard.graceSeconds
    failurePolicy :=
      ← Config.entryOr entries "failure_policy" (lib.named? FailurePolicy.ofName?)
        standard.failurePolicy
    writePolicy :=
      ← Config.entryOr entries "write_policy" (lib.named? WritePolicy.ofName?) standard.writePolicy
    allowRedeclare := ← Config.entryOr entries "allow_redeclare" lib.truth? standard.allowRedeclare
    handleSignals := ← Config.entryOr entries "handle_signals" lib.truth? standard.handleSignals
    defaultOutput :=
      ← Config.entryOr entries "default_output" (lib.named? OutputMode.ofName?)
        standard.defaultOutput }

/-- The configuration that a document gives. -/
def config? (text : String) : Option Config :=
  (lib.entries? text).bind lib.configOf?

end DocumentLibrary

end Conductor
