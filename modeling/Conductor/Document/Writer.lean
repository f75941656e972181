import Conductor.Binary64.Shortest
import Conductor.Document.Library
import Conductor.Document.Reader

/-!
# Writing documents

A record is written with one line for each field. Together with the reader this makes the
library that the command line uses.
-/

namespace Conductor

namespace Document

/-- Numbers in documents show a point or a power of ten. -/
def layout : DecimalLayout where
  lowest := some (-5)
  highest := some 16
  wholeSuffix := ".0"
  exponentSign := ""
  infinity := ".inf"
  undefined := ".nan"

/-- The text of a scalar. -/
def print : Scalar → String
  | .number x => layout.write x
  | .truth b => if b then "true" else "false"
  | .word s => s

/-- The document with these fields. -/
def write (fields : List (String × Scalar)) : String :=
  String.join (fields.map fun f => f.1 ++ ": " ++ print f.2 ++ "\n")

/-- The number that a word spells: one of the words for an infinity or for no number, or a
decimal number that is not too large. A plus may stand before either. -/
def numberOf? (s : String) : Option Binary64 :=
  let unsigned := match s.toList with
    | '+' :: r => r
    | r => r
  let word := String.ofList unsigned
  if s.toList.head? = some '+' ∧ (unsigned.head?.any fun c => c = '+' || c = '-') = true then none
  else if word = ".inf" ∨ word = ".Inf" ∨ word = ".INF" then some (.infinite false)
  else if s = "-.inf" ∨ s = "-.Inf" ∨ s = "-.INF" then some (.infinite true)
  else if s = ".nan" ∨ s = ".NaN" ∨ s = ".NAN" then some .nan
  else (Binary64.read? word).filter Binary64.isFinite

end Document

/-- A number is written without quotes. -/
def DocumentValue.asNumber? : DocumentValue → Option Binary64
  | .plain s => Document.numberOf? s
  | _ => none

namespace Document

/-- The entries of a record whose names are all texts. -/
def namedEntries? (fields : List (DocumentValue × DocumentValue)) :
    Option (List (String × DocumentValue)) :=
  fields.mapM fun f => f.1.asWord?.map fun name => (name, f.2)

/-- The entries of a value. A value that says nothing has none. -/
def entriesOf? : DocumentValue → Option (List (String × DocumentValue))
  | .plain "" => some []
  | .record fields => namedEntries? fields
  | _ => none

/-- The library of the writer and the reader for `DocumentValue`s. -/
def library : DocumentLibrary where
  Node := DocumentValue
  write fields := some (write fields)
  entries? text := (read? text).bind entriesOf?
  number? := DocumentValue.asNumber?
  truth? := DocumentValue.asBool?
  word? := DocumentValue.asWord?

end Document

end Conductor
