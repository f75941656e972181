import Conductor.Json.Printer

/-!
# Values of variables

A variable holds plain text or structured data. Either has a text, which is what
a template shows: structured data other than a text is shown as compact JSON.
-/

namespace Conductor

/-- What a variable holds. -/
inductive Value where
  | text (content : String)
  | structured (data : Json)
  deriving Inhabited

namespace Value

/-- The text of a value that is a text, plain or structured. -/
def asText? : Value → Option String
  | .text s => some s
  | .structured (.str s) => some s
  | .structured _ => none

/-- The text shown for a value. -/
def toText : Value → String
  | .text s => s
  | .structured (.str s) => s
  | .structured data => data.compact

end Value

end Conductor
