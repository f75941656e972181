/-!
# Shell scripts

A script is made of simple commands, joined in lists, pipelines, conditionals and
loops. The words of a command are expanded when it runs; a word is a list of segments,
each either literal or to be replaced.
-/

namespace Conductor.Shell

/-- A part of a word. Quoted parts are never split into several words. -/
inductive Segment where
  | literal (text : String) (quoted : Bool)
  | parameter (name : String) (quoted : Bool)
  /-- The number that an expression comes to. -/
  | arithmetic (expression : String) (quoted : Bool)
  /-- What a script prints. -/
  | output (script : String) (quoted : Bool)
  deriving DecidableEq, Repr

/-- A word before expansion. -/
abbrev Word := List Segment

/-- A redirection of an output, or of the input. -/
inductive Redirection where
  /-- To another output, or to a file. -/
  | toDescriptor (descriptor target : Nat)
  | toFile (descriptor : Nat) (append : Bool) (path : Word)
  | fromFile (path : Word)
  deriving DecidableEq, Repr

inductive Script where
  | empty
  | simple (assignments : List (String × Word)) (words : List Word)
      (redirections : List Redirection)
  | sequence (first second : Script)
  | both (first second : Script)
  | either (first second : Script)
  | negated (script : Script)
  | pipe (first second : Script)
  | choice (test yes no : Script)
  /-- Repeat while the test succeeds, or fails when `wanted` is false. -/
  | loop (wanted : Bool) (test body : Script)
  | each (name : String) (words : List Word) (body : Script)
  | subshell (script : Script)
  | redirected (script : Script) (redirections : List Redirection)
  deriving Inhabited

/-- A token of a script. -/
inductive Token where
  | word (w : Word)
  /-- An operator or the end of a line. -/
  | operator (text : String)
  | redirection (descriptor : Option Nat) (sign : String)
  deriving DecidableEq, Repr

/-! ## Tokens -/

def isParameterStart (c : Char) : Bool :=
  c.isAlpha || c = '_'

def isParameterChar (c : Char) : Bool :=
  c.isAlphanum || c = '_'

/-- The parameters whose name is one sign. -/
def isSpecialParameter (c : Char) : Bool :=
  "$?#@*!-0123456789".toList.contains c

/-- What stands up to the bracket that closes the one already open, and what follows;
`depth` counts brackets opened since. -/
def takeBracketed (opening closing : Char) :
    Nat → List Char → List Char → Option (List Char × List Char)
  | _, _, [] => none
  | depth, acc, c :: r =>
      if c = closing then
        if depth = 0 then some (acc.reverse, r)
        else takeBracketed opening closing (depth - 1) (c :: acc) r
      else if c = opening then takeBracketed opening closing (depth + 1) (c :: acc) r
      else takeBracketed opening closing depth (c :: acc) r

/-- What a dollar sign begins, and what follows. -/
def takeExpansion (quoted : Bool) : List Char → Option (Segment × List Char)
  | '(' :: '(' :: r => do
      let (inner, rest) ← takeBracketed '(' ')' 0 [] r
      match rest with
      | ')' :: rest => some (.arithmetic (String.ofList inner) quoted, rest)
      | _ => none
  | '(' :: r => do
      let (inner, rest) ← takeBracketed '(' ')' 0 [] r
      some (.output (String.ofList inner) quoted, rest)
  | '\x7b' :: r => do
      let (inner, rest) ← takeBracketed '\x7b' '\x7d' 0 [] r
      some (.parameter (String.ofList inner) quoted, rest)
  | c :: r =>
      if isParameterStart c then
        some (.parameter (String.ofList (c :: r.takeWhile isParameterChar)) quoted,
          r.dropWhile isParameterChar)
      else if isSpecialParameter c then some (.parameter (String.singleton c) quoted, r)
      else none
  | [] => none

/-- A literal segment, left out when it is empty and not quoted. -/
def literalSegment (acc : List Char) (quoted : Bool) : Word :=
  if acc.isEmpty && !quoted then [] else [.literal (String.ofList acc.reverse) quoted]

/-- The inside of double quotes up to the closing one. The first argument bounds the
number of steps. -/
def takeQuoted : Nat → List Char → List Char → Option (Word × List Char)
  | 0, _, _ => none
  | _, _, [] => none
  | n + 1, acc, c :: r =>
      if c = '"' then some (literalSegment acc true, r)
      else if c = '\\' then
        match r with
        | d :: r =>
            if d = '\n' then takeQuoted n acc r
            else if d = '$' ∨ d = '"' ∨ d = '\\' ∨ d.toNat = 96 then takeQuoted n (d :: acc) r
            else takeQuoted n (d :: '\\' :: acc) r
        | [] => none
      else if c = '$' then
        match takeExpansion true r with
        | some (s, rest) => do
            let (more, rest) ← takeQuoted n [] rest
            some (literalSegment acc true ++ s :: more, rest)
        | none => takeQuoted n ('$' :: acc) r
      else takeQuoted n (c :: acc) r

/-- The signs that end a word. -/
def isDelimiter (c : Char) : Bool :=
  " \t\n;&|()<>".toList.contains c

/-- A word and what follows it. The first argument bounds the number of steps. -/
def takeWord : Nat → List Char → List Char → Option (Word × List Char)
  | 0, _, _ => none
  | _, acc, [] => some (literalSegment acc false, [])
  | n + 1, acc, c :: r =>
      if isDelimiter c then some (literalSegment acc false, c :: r)
      else if c = '\'' then do
        let inner := r.takeWhile (· ≠ '\'')
        match r.dropWhile (· ≠ '\'') with
        | _ :: rest => do
            let (more, rest) ← takeWord n [] rest
            some (literalSegment acc false ++ .literal (String.ofList inner) true :: more, rest)
        | [] => none
      else if c = '"' then do
        let (inner, rest) ← takeQuoted n [] r
        let (more, rest) ← takeWord n [] rest
        some (literalSegment acc false ++ inner ++ more, rest)
      else if c = '\\' then
        match r with
        | d :: r => do
            let (more, rest) ← takeWord n [] r
            let kept : Word := if d = '\n' then [] else [.literal (String.singleton d) true]
            some (literalSegment acc false ++ kept ++ more, rest)
        | [] => some (literalSegment ('\\' :: acc) false, [])
      else if c = '$' then
        match takeExpansion false r with
        | some (s, rest) => do
            let (more, rest) ← takeWord n [] rest
            some (literalSegment acc false ++ s :: more, rest)
        | none => takeWord n ('$' :: acc) r
      else takeWord n (c :: acc) r

/-- The operators, longest first. -/
def operators : List String :=
  ["&&", "||", ";;", ";", "&", "|", "(", ")"]

/-- The signs of redirections, longest first. -/
def redirectionSigns : List String :=
  [">>", ">&", "<&", ">", "<"]

/-- The first of several signs that the characters begin with, and what follows it. -/
def takeSignOf (signs : List String) (cs : List Char) : Option (String × List Char) :=
  (signs.find? fun s => s.toList.isPrefixOf cs).map fun s => (s, cs.drop s.length)

/-- The tokens of a script. The first argument bounds their number. -/
def tokens? : Nat → List Char → Option (List Token)
  | 0, _ => none
  | _, [] => some []
  | n + 1, c :: r =>
      if c = ' ' ∨ c = '\t' then tokens? n r
      else if c = '\n' then (tokens? n r).map (.operator "\n" :: ·)
      else if c = '\\' ∧ r.head? = some '\n' then tokens? n (r.drop 1)
      else if c = '#' then tokens? n (r.dropWhile (· ≠ '\n'))
      else
        let digits := (c :: r).takeWhile Char.isDigit
        let afterDigits := (c :: r).dropWhile Char.isDigit
        match takeSignOf redirectionSigns afterDigits, takeSignOf operators (c :: r) with
        | some (sign, rest), _ =>
            let descriptor := if digits.isEmpty then none else (String.ofList digits).toNat?
            (tokens? n rest).map (.redirection descriptor sign :: ·)
        | none, some (sign, rest) => (tokens? n rest).map (.operator sign :: ·)
        | none, none => do
            let (w, rest) ← takeWord (r.length + 2) [] (c :: r)
            (tokens? n rest).map (.word w :: ·)

/-! ## Commands -/

/-- The text of a word that is one unquoted literal. -/
def plainWord? : Word → Option String
  | [.literal s false] => some s
  | _ => none

/-- The words that end the script before them. -/
def closers : List String :=
  ["done", "do", "then", "else", "elif", "fi", "\x7d"]

/-- The name and the value of an assignment. -/
def assignment? : Word → Option (String × Word)
  | .literal s false :: rest =>
      let name := s.toList.takeWhile (· ≠ '=')
      match s.toList.dropWhile (· ≠ '=') with
      | _ :: value =>
          if name.head?.any isParameterStart && name.all isParameterChar then
            some (String.ofList name, literalSegment value.reverse false ++ rest)
          else none
      | [] => none
  | _ => none

/-- The redirection that a sign and the word after it ask for. -/
def redirectionOf (descriptor : Option Nat) (sign : String) (w : Word) : Option Redirection :=
  match sign with
  | ">" => some (.toFile (descriptor.getD 1) false w)
  | ">>" => some (.toFile (descriptor.getD 1) true w)
  | "<" => some (.fromFile w)
  | ">&" => do
      let target ← (← plainWord? w).toNat?
      some (.toDescriptor (descriptor.getD 1) target)
  | _ => none

/-- The words, assignments and redirections of a simple command. -/
def takeSimple : List Token → List (String × Word) → List Word → List Redirection →
    Option (Script × List Token)
  | .word w :: r, as, ws, rs =>
      match ws, assignment? w with
      | [], some a => takeSimple r (as ++ [a]) [] rs
      | _, _ => takeSimple r as (ws ++ [w]) rs
  | .redirection d sign :: .word w :: r, as, ws, rs => do
      takeSimple r as ws (rs ++ [← redirectionOf d sign w])
  | .redirection .. :: _, _, _, _ => none
  | r, as, ws, rs =>
      if as.isEmpty && ws.isEmpty && rs.isEmpty then none else some (.simple as ws rs, r)

/-- Redirections after a compound command. -/
def takeRedirections : List Token → List Redirection → Option (List Redirection × List Token)
  | .redirection d sign :: .word w :: r, rs => do
      takeRedirections r (rs ++ [← redirectionOf d sign w])
  | .redirection .. :: _, _ => none
  | r, rs => some (rs, r)

/-- Skip the ends of lines. -/
def skipLines (ts : List Token) : List Token :=
  ts.dropWhile (· = .operator "\n")

/-- Skip a word that has to be there. -/
def takeKeyword (k : String) : List Token → Option (List Token)
  | .word w :: r => if plainWord? w = some k then some r else none
  | _ => none

/-- The word at the start, if it is plain. -/
def nextWord? : List Token → Option String
  | .word w :: _ => plainWord? w
  | _ => none

/-- The plain words of a loop up to the end of the line. -/
def takeWords : List Token → List Word × List Token
  | .word w :: r =>
      let (ws, rest) := takeWords r
      (w :: ws, rest)
  | r => ([], r)

/-- A compound command and the redirections after it. -/
def withRedirections (s : Script) (ts : List Token) : Option (Script × List Token) := do
  let (rs, rest) ← takeRedirections ts []
  some (if rs.isEmpty then s else .redirected s rs, rest)

mutual

/-- Commands up to a word or sign that closes them. The first argument bounds the number
of steps. -/
def takeList : Nat → List Token → Option (Script × List Token)
  | 0, _ => none
  | n + 1, ts =>
      match skipLines ts with
      | [] => some (.empty, [])
      | .operator ")" :: r => some (.empty, .operator ")" :: r)
      | ts =>
          if (nextWord? ts).any closers.contains then some (.empty, ts)
          else do
            let (first, rest) ← takeAndOr n ts
            match rest with
            | .operator ";" :: r => do
                let (second, rest) ← takeList n r
                some (.sequence first second, rest)
            | .operator "\n" :: r => do
                let (second, rest) ← takeList n r
                some (.sequence first second, rest)
            | r => some (first, r)

/-- Pipelines joined by `&&` and `||`. -/
def takeAndOr : Nat → List Token → Option (Script × List Token)
  | 0, _ => none
  | n + 1, ts => do
      let (first, rest) ← takePipeline n ts
      takeJoined n first rest

/-- What `&&` and `||` join to a pipeline. -/
def takeJoined : Nat → Script → List Token → Option (Script × List Token)
  | 0, _, _ => none
  | n + 1, first, .operator "&&" :: r => do
      let (second, rest) ← takePipeline n (skipLines r)
      takeJoined n (.both first second) rest
  | n + 1, first, .operator "||" :: r => do
      let (second, rest) ← takePipeline n (skipLines r)
      takeJoined n (.either first second) rest
  | _ + 1, first, r => some (first, r)

/-- Commands joined by pipes, possibly negated. -/
def takePipeline : Nat → List Token → Option (Script × List Token)
  | 0, _ => none
  | n + 1, ts =>
      if nextWord? ts = some "!" then do
        let (s, rest) ← takePipeline n (ts.drop 1)
        some (.negated s, rest)
      else do
        let (first, rest) ← takeCommand n ts
        match rest with
        | .operator "|" :: r => do
            let (second, rest) ← takePipeline n (skipLines r)
            some (.pipe first second, rest)
        | r => some (first, r)

def takeCommand : Nat → List Token → Option (Script × List Token)
  | 0, _ => none
  | n + 1, .operator "(" :: r => do
      let (inner, rest) ← takeList n r
      match rest with
      | .operator ")" :: rest => withRedirections (.subshell inner) rest
      | _ => none
  | n + 1, ts =>
      match nextWord? ts with
      | some "\x7b" => do
          let (inner, rest) ← takeList n (ts.drop 1)
          withRedirections inner (← takeKeyword "\x7d" rest)
      | some "while" => takeLoop n true (ts.drop 1)
      | some "until" => takeLoop n false (ts.drop 1)
      | some "if" => do
          let (s, rest) ← takeChoice n (ts.drop 1)
          withRedirections s rest
      | some "for" =>
          match ts.drop 1 with
          | .word w :: r => do
              let name ← plainWord? w
              let r ← takeKeyword "in" r
              let (words, r) := takeWords r
              let r := r.dropWhile fun t => t = .operator ";" || t = .operator "\n"
              let r ← takeKeyword "do" r
              let (body, rest) ← takeList n r
              withRedirections (.each name words body) (← takeKeyword "done" rest)
          | _ => none
      | _ => takeSimple ts [] [] []

/-- A loop after its first word. -/
def takeLoop : Nat → Bool → List Token → Option (Script × List Token)
  | 0, _, _ => none
  | n + 1, wanted, ts => do
      let (test, rest) ← takeList n ts
      let rest ← takeKeyword "do" rest
      let (body, rest) ← takeList n rest
      withRedirections (.loop wanted test body) (← takeKeyword "done" rest)

/-- A conditional after its first word. -/
def takeChoice : Nat → List Token → Option (Script × List Token)
  | 0, _ => none
  | n + 1, ts => do
      let (test, rest) ← takeList n ts
      let rest ← takeKeyword "then" rest
      let (yes, rest) ← takeList n rest
      match nextWord? rest with
      | some "elif" => do
          let (no, rest) ← takeChoice n (rest.drop 1)
          some (.choice test yes no, rest)
      | some "else" => do
          let (no, rest) ← takeList n (rest.drop 1)
          some (.choice test yes no, ← takeKeyword "fi" rest)
      | _ => some (.choice test yes .empty, ← takeKeyword "fi" rest)

end

/-- The script that a text spells; nothing when it is not well formed. -/
def Script.parse? (text : String) : Option Script := do
  let cs := text.toList
  let ts ← tokens? (cs.length + 2) cs
  let (s, rest) ← takeList (8 * ts.length + 8) ts
  if rest.isEmpty then some s else none

end Conductor.Shell
