import Conductor.Document.Basic
import Conductor.Document.Library

/-!
# What a library for documents promises

A value on one line is spelt as a text: a library prints scalars, and finds values where texts stand
(`Spelling`). What is relied on (`Lawful`) is that scalars which were printed are found again, and
that both a record which the library wrote and a page which somebody wrote by hand are read as
their fields. Nothing is promised of texts that need quotes or more than one line.
-/

namespace Conductor

/-! ## Pages -/

namespace Document

/-- A name that needs no quotes. Behind more characters a colon is not looked for. -/
def isName (s : String) : Bool :=
  s.toList.head?.any Char.isAlpha && s.toList.all (fun c => c.isAlphanum || c = '_') &&
    s.length ≤ 1024

def isWordChar (c : Char) : Bool :=
  c.isAlphanum || c = '_' || c = '.' || c = '-' || c = '+'

/-- A word that needs no quotes, a number among others. -/
def isWord (s : String) : Bool :=
  s.toList.any Char.isAlphanum && s.toList.all isWordChar

/-- A line of a page that is written by hand. -/
inductive PageLine where
  | blank (indent : Nat)
  | remark (indent : Nat) (text : String)
  | entry (name word : String)

namespace PageLine

def text : PageLine → String
  | .blank n => String.ofList (List.replicate n ' ')
  | .remark n s => String.ofList (List.replicate n ' ') ++ "#" ++ s
  | .entry name word => name ++ ": " ++ word

/-- Remarks are free, names and words need no quotes. -/
def isSimple : PageLine → Bool
  | .blank _ => true
  | .remark _ s => s.toList.all fun c => isAllowed c && !isBreak c
  | .entry name word => isName name && isWord word

def entry? : PageLine → Option (String × String)
  | .entry name word => some (name, word)
  | _ => none

end PageLine

/-- A line feed ends each line of a page. -/
def page (ls : List PageLine) : String :=
  String.join (ls.map fun l => l.text ++ "\n")

end Document

/-- A scalar whose text needs no quotes. -/
def Scalar.isSimple : Scalar → Bool
  | .word s => Document.isName s
  | _ => true

/-! ## Laws -/

namespace DocumentLibrary

/-- How values on one line are spelt. -/
structure Spelling (lib : DocumentLibrary) where
  /-- The text of a scalar in a record that is written. -/
  print : Scalar → String
  /-- The value that a text stands for behind the colon of an entry. -/
  inline : String → lib.Node

namespace Spelling

variable {lib : DocumentLibrary} (spelling : lib.Spelling)

/-- The value that a scalar is found as. -/
def value (v : Scalar) : lib.Node :=
  spelling.inline (spelling.print v)

/-- The fields of a record, as they are found. -/
def fields (record : List (String × Scalar)) : List (String × lib.Node) :=
  record.map fun f => (f.1, spelling.value f.2)

/-- The entries of a page, in order. -/
def entries (ls : List Document.PageLine) : List (String × lib.Node) :=
  (ls.filterMap Document.PageLine.entry?).map fun e => (e.1, spelling.inline e.2)

end Spelling

/-- What is relied on. -/
structure Lawful (lib : DocumentLibrary) (spelling : lib.Spelling) : Prop where
  /-- The text of a number reads back as the number. -/
  number?_print : ∀ x, x ≠ .nan → lib.number? (spelling.value (.number x)) = some x
  truth?_print : ∀ b, lib.truth? (spelling.value (.truth b)) = some b
  word?_print : ∀ s, Document.isName s = true → lib.word? (spelling.value (.word s)) = some s
  /-- A record that was written reads as its fields. -/
  entries?_write : ∀ record text,
    (∀ f ∈ record, Document.isName f.1 = true ∧ f.2.isSimple = true) →
    (record.map Prod.fst).Nodup → lib.write record = some text →
    lib.entries? text = some (spelling.fields record)
  /-- A page reads as its entries, whatever blank lines and remarks stand between them. -/
  entries?_page : ∀ ls, (∀ l ∈ ls, Document.PageLine.isSimple l = true) →
    lib.entries? (Document.page ls) = some (spelling.entries ls)

end DocumentLibrary

end Conductor
