import Conductor.Document.Scalar

/-!
# Reading documents

A document is a record: either in braces, or with an entry on each line, all at one
column. Lines further to the right belong to the entry above them. Three dashes may
stand before the document and three points behind it; a second document is refused.

The reader serves the command line and its configuration files. It does not look into
values that are spread over lines of their own, and knows no anchors and no tags.
-/

namespace Conductor.Document

/-- An entry: its line from the name on, and the lines below that belong to it. -/
structure Entry where
  text : List Char
  below : List (List Char)
  deriving DecidableEq, Repr

/-- Whether a line is an item of a list. -/
def isItem : List Char → Bool
  | '-' :: r => startsBlank r
  | _ => false

/-- The entries of the lines when they begin at the given column, and the lines before
the first of them. -/
def gather (column : Nat) : List Line → Option (List (List Char) × List Entry)
  | [] => some ([], [])
  | .empty :: r => gather column r
  | .content c text :: r => do
      let (below, entries) ← gather column r
      if c < column then none
      else if column < c || isItem text then some (text :: below, entries)
      else some ([], ⟨text, below⟩ :: entries)
  | _ :: _ => none

/-- The name at the start of an entry, and what follows its colon. -/
def takeName (cs : List Char) : Option (DocumentValue × List Char) := do
  let (name, r) ← match cs with
    | '"' :: r => takeDouble 0 [] r
    | '\'' :: r => takeSingle [] r
    | cs => if cs.head? = some ':' then some (.plain "", cs) else takePlain false cs
  match skipSpaces r with
  | ':' :: r => if startsBlank r then some (name, r) else none
  | _ => none

/-- Whether a line holds nothing but text without quotes. -/
def isPlainLine (cs : List Char) : Bool :=
  match lineValue? cs with
  | some (.plain _) => true
  | _ => false

/-- The value of an entry: what stands behind the colon, or else the lines below. -/
def entryValue? (rest : List Char) (below : List (List Char)) : Option DocumentValue :=
  match below with
  | [] => lineValue? rest
  | [line] =>
      if isDone rest then some ((lineValue? line).getD .spread)
      else spreadText
  | _ => if isDone rest then some .spread else spreadText
where
  /-- A text that goes on below: folded, or introduced by a bar or an angle. -/
  spreadText : Option DocumentValue :=
    if (skipSpaces rest).head?.any fun c => c = '|' || c = '>' then some .spread
    else if isPlainLine rest && below.all isPlainLine then some .spread
    else none

/-- The name and the value of an entry. -/
def Entry.read? (e : Entry) : Option (DocumentValue × DocumentValue) := do
  let (name, rest) ← takeName e.text
  some (name, ← entryValue? rest e.below)

/-- Whether a line belongs to the inside of a document. -/
def Line.isInside : Line → Bool
  | .start _ => false
  | .stop _ => false
  | _ => true

/-- Whether nothing follows but the end of the document. -/
def isClosed : List Line → Bool
  | [] => true
  | .empty :: r => isClosed r
  | .stop rest :: r => isDone rest && isClosed r
  | _ :: _ => false

/-- The lines without the empty ones at their start. -/
def skipEmpty (ls : List Line) : List Line :=
  ls.dropWhile (· = .empty)

/-- The value of the lines of a document, the marks around it taken away. -/
def ofLines? (ls : List Line) : Option DocumentValue :=
  match skipEmpty ls with
  | [] => some (.plain "")
  | .content column text :: r =>
      if text.head?.any fun c => c = '\x7b' || c = '[' then
        if r.all (· = .empty) then lineValue? text else none
      else
        match gather column (.content column text :: r) with
        | some ([], entries) => (entries.mapM Entry.read?).map .record
        | _ => none
  | _ => none

/-- The value of a document that may be closed by three points. -/
def untilClosed? (ls : List Line) : Option DocumentValue :=
  if isClosed (ls.dropWhile Line.isInside) then ofLines? (ls.takeWhile Line.isInside) else none

/-- The value of a document that may be opened by three dashes. A record that stands
behind them on their line is in braces. -/
def ofMarkedLines? (ls : List Line) : Option DocumentValue :=
  match skipEmpty ls with
  | .start rest :: r =>
      if isDone rest then untilClosed? r
      else if isClosed r then lineValue? rest
      else none
  | .stop _ :: _ => none
  | r => untilClosed? r

/-- The characters without the mark of byte order. -/
def dropMark : List Char → List Char
  | '\uFEFF' :: r => r
  | cs => cs

/-- The value of a document; nothing when the text is none. -/
def read? (s : String) : Option DocumentValue :=
  let cs := dropMark s.toList
  if cs.all isAllowed then ofMarkedLines? ((breakLines cs).map Line.ofChars) else none

end Conductor.Document
