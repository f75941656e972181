import Conductor.Binary64.Reader
import Conductor.Text.Bytes

/-!
# What `echo` and `printf` print

Both know escapes for control characters and for bytes given in octal. `printf` fills
the places of its format with its arguments and goes through the format again while
arguments are left.
-/

namespace Conductor.Shell

/-- Whether a character is an octal digit. -/
def isOctal (c : Char) : Bool :=
  '0' ≤ c && c ≤ '7'

/-- The byte of an escape and what follows it, after the backslash; `zeroLed` asks for a
zero before octal digits. -/
def takeEscape? (zeroLed : Bool) : List Char → Option (List UInt8 × List Char)
  | 'n' :: r => some ([10], r)
  | 't' :: r => some ([9], r)
  | 'r' :: r => some ([13], r)
  | '\\' :: r => some ([92], r)
  | 'a' :: r => some ([7], r)
  | 'b' :: r => some ([8], r)
  | 'f' :: r => some ([12], r)
  | 'v' :: r => some ([11], r)
  | c :: r =>
      let digits := if zeroLed then (if c = '0' then some r else none) else some (c :: r)
      digits.bind fun cs =>
        let ds := (cs.take 3).takeWhile isOctal
        if ds.isEmpty && !zeroLed then none
        else
          let n := ds.foldl (fun n d => 8 * n + digitValue d) 0
          some ([UInt8.ofNat n], cs.drop ds.length)
  | [] => none

/-- The bytes of a text with escapes, and whether `\c` cut it short. The first argument
bounds the number of steps. -/
def escapedBytes : Nat → List Char → List UInt8 × Bool
  | 0, _ => ([], false)
  | _, [] => ([], false)
  | n + 1, c :: r =>
      if c = '\\' then
        if r.head? = some 'c' then ([], true)
        else
          match takeEscape? true r with
          | some (bs, rest) =>
              let (more, cut) := escapedBytes n rest
              (bs ++ more, cut)
          | none =>
              let (more, cut) := escapedBytes n r
              (92 :: more, cut)
      else
        let (more, cut) := escapedBytes n r
        (Text.encode (String.singleton c) ++ more, cut)

/-- What the `echo` of a shell prints. -/
def echoBytes (arguments : List String) : List UInt8 :=
  let (newline, words) := match arguments with
    | "-n" :: r => (false, r)
    | r => (true, r)
  let text := (" ".intercalate words).toList
  let (bytes, cut) := escapedBytes (text.length + 1) text
  if newline && !cut then bytes ++ [10] else bytes

/-- What the program `echo` prints: it leaves escapes alone unless told otherwise. -/
def echoProgramBytes (arguments : List String) : List UInt8 :=
  let isOption (a : String) : Bool :=
    match a.toList with
    | '-' :: r => !r.isEmpty && r.all fun c => c = 'n' || c = 'e' || c = 'E'
    | _ => false
  let options := (arguments.takeWhile isOption).flatMap fun a => a.toList.drop 1
  let words := arguments.dropWhile isOption
  let escapes := (options.filter (· ≠ 'n')).getLast? = some 'e'
  let text := " ".intercalate words
  let (bytes, cut) :=
    if escapes then escapedBytes (text.length + 1) text.toList else (Text.encode text, false)
  if options.contains 'n' || cut then bytes else bytes ++ [10]

structure FormatPlace where
  leftAligned : Bool
  zeroFilled : Bool
  width : Nat
  precision : Option Nat
  conversion : Char

/-- A place in a format after its percent sign, and what follows it. -/
def takePlace? (cs : List Char) : Option (FormatPlace × List Char) :=
  let flags := cs.takeWhile fun c => c = '-' || c = '0' || c = '+' || c = ' ' || c = '#'
  let (width, r) := takeDigits (cs.drop flags.length)
  let (precision, r) := match r with
    | '.' :: r =>
        let (ds, r) := takeDigits r
        (some (digitsValue 0 ds), r)
    | r => (none, r)
  match r with
  | c :: r =>
      some (⟨flags.contains '-', flags.contains '0', digitsValue 0 width, precision, c⟩, r)
  | [] => none

/-- The whole number at the start of a text; zero when there is none. -/
def leadingInt (s : String) : Int :=
  let (negative, r) := takeSign s.toList
  let n : Int := digitsValue 0 (takeDigits r).1
  if negative then -n else n

/-- A text filled up to the width of a place. -/
def FormatPlace.fill (p : FormatPlace) (zeros : Bool) (s : List Char) : List Char :=
  let missing := p.width - s.length
  if p.leftAligned then s ++ List.replicate missing ' '
  else if zeros && p.zeroFilled then
    match s with
    | '-' :: r => '-' :: List.replicate missing '0' ++ r
    | r => List.replicate missing '0' ++ r
  else List.replicate missing ' ' ++ s

/-- What an argument puts into a place. -/
def FormatPlace.bytes (p : FormatPlace) (argument : String) : List UInt8 :=
  let chars (cs : List Char) := Text.encode (String.ofList cs)
  match p.conversion with
  | 's' => chars (p.fill false (match p.precision with
      | some n => argument.toList.take n
      | none => argument.toList))
  | 'b' => (escapedBytes (argument.length + 1) argument.toList).1
  | 'c' => chars (p.fill false (argument.toList.take 1))
  | 'd' => chars (p.fill true (toString (leadingInt argument)).toList)
  | 'i' => chars (p.fill true (toString (leadingInt argument)).toList)
  | 'u' => chars (p.fill true (toString (leadingInt argument).toNat).toList)
  | 'x' => chars (p.fill true (Nat.toDigits 16 (leadingInt argument).toNat))
  | 'o' => chars (p.fill true (Nat.toDigits 8 (leadingInt argument).toNat))
  | _ => []

/-- One walk through a format: the bytes, and the arguments that are left. The first
argument bounds the number of steps. -/
def formatOnce : Nat → List Char → List String → List UInt8 × List String
  | 0, _, arguments => ([], arguments)
  | _, [], arguments => ([], arguments)
  | n + 1, c :: r, arguments =>
      if c = '%' then
        if r.head? = some '%' then
          let (more, left) := formatOnce n (r.drop 1) arguments
          (37 :: more, left)
        else
          match takePlace? r with
          | none => ([37], arguments)
          | some (place, rest) =>
              let (more, left) := formatOnce n rest (arguments.drop 1)
              (place.bytes (arguments.head?.getD "") ++ more, left)
      else if c = '\\' then
        match takeEscape? false r with
        | some (bs, rest) =>
            let (more, left) := formatOnce n rest arguments
            (bs ++ more, left)
        | none =>
            let (more, left) := formatOnce n r arguments
            (92 :: more, left)
      else
        let (more, left) := formatOnce n r arguments
        (Text.encode (String.singleton c) ++ more, left)

/-- Walks through a format until no argument is left. The first argument bounds their
number. -/
def formatAll : Nat → List Char → List String → List UInt8
  | 0, _, _ => []
  | n + 1, format, arguments =>
      let (bytes, left) := formatOnce (format.length + 1) format arguments
      if left.isEmpty || left.length = arguments.length then bytes
      else bytes ++ formatAll n format left

/-- What `printf` prints. -/
def printfBytes : List String → List UInt8
  | [] => []
  | format :: arguments => formatAll (arguments.length + 1) format.toList arguments

end Conductor.Shell
