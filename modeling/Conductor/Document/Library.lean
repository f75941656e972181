import Conductor.Binary64.Basic

/-!
# Libraries for documents

Records are written as documents and found in documents by a library. Here is all that it
is asked for; how its documents look is left to the library.
-/

namespace Conductor

/-- What a field holds of a record that is written. -/
inductive Scalar where
  | number (x : Binary64)
  | truth (b : Bool)
  /-- The name of one of several alternatives. -/
  | word (s : String)

/-- A library that writes and reads documents. -/
structure DocumentLibrary where
  /-- A value that was found in a document. -/
  Node : Type
  /-- The document for a record with these fields, if it can be written. -/
  write : List (String × Scalar) → Option String
  /-- The names and values of a document that is a mapping, in order. A document that says
  nothing has none; what is no document or no mapping of texts has no entries at all. -/
  entries? : String → Option (List (String × Node))
  /-- The number that a value is, if it is one. -/
  number? : Node → Option Binary64
  truth? : Node → Option Bool
  /-- The text of a value that names an alternative. -/
  word? : Node → Option String

end Conductor
