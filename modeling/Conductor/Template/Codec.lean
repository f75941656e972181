import Conductor.Template.Basic
import Conductor.Json.Basic

/-!
# Templates as JSON

A template is an array of fragments, a fragment an object whose field `type` names
its kind. Reading what was written gives the same template back.
-/

namespace Conductor

mutual

/-- The JSON form of a fragment. -/
def Fragment.toJson : Fragment → Json
  | .text t => .obj [("type", .str "text"), ("text", .str t)]
  | .var n => .obj [("type", .str "variable"), ("name", .str n)]
  | .varOr n d =>
      .obj [("type", .str "variable_or"), ("name", .str n), ("default", .arr (Template.toItems d))]
  | .env n => .obj [("type", .str "env"), ("name", .str n), ("default", .null)]
  | .envOr n d =>
      .obj [("type", .str "env"), ("name", .str n), ("default", .arr (Template.toItems d))]
  | .command line => .obj [("type", .str "command"), ("command", .arr (Template.toItems line))]
  | .concat parts => .obj [("type", .str "concat"), ("parts", .arr (Template.toItems parts))]

def Template.toItems : List Fragment → List Json
  | [] => []
  | f :: r => Fragment.toJson f :: Template.toItems r

end

/-- The JSON form of a template. -/
def Template.toJson (t : Template) : Json :=
  .arr (Template.toItems t)

namespace Fragment

/-- The fields of each kind of fragment, in order. -/
def fieldNames : String → List String
  | "text" => ["text"]
  | "variable" => ["name"]
  | "variable_or" => ["name", "default"]
  | "env" => ["name", "default"]
  | "command" => ["command"]
  | "concat" => ["parts"]
  | _ => []

end Fragment

/-- The fragment that a JSON value stands for; the first argument bounds the nesting. -/
def Fragment.ofJson? : Nat → Json → Option Fragment
  | 0, _ => none
  | n + 1, j => do
      let (tag, record) ← j.tagged? Fragment.fieldNames
      let name? : Option String := (record.field? "name").bind Json.asString?
      let items? (field : String) : Option Template :=
        (record.field? field).bind (Json.asListOf? (Fragment.ofJson? n))
      match tag with
      | "text" => return .text (← (← record.field? "text").asString?)
      | "variable" => return .var (← name?)
      | "variable_or" => return .varOr (← name?) (← items? "default")
      | "env" =>
          match record.given? "default" with
          | none => return .env (← name?)
          | some _ => return .envOr (← name?) (← items? "default")
      | "command" => return .command (← items? "command")
      | "concat" => return .concat (← items? "parts")
      | _ => none

/-- The template that a JSON value stands for. -/
def Template.ofJson? (j : Json) : Option Template :=
  j.asListOf? (Fragment.ofJson? j.depth)

end Conductor
