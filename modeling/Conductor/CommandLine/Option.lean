/-!
# Commands and their options

A command line is read word by word. A command knows its options and either further
commands, one of which has to follow, or takes the words that follow as they are. The
first word that is none of its options begins these words; from there on nothing is an
option any more. The same holds behind two dashes.

A value may stand in the word of a long option, behind an equals sign, or in the next
word; it is checked when the next option is looked at. What the command line leaves out
may come from the environment.
-/

namespace Conductor.CommandLine

/-- An option of a command. -/
structure OptionRule where
  /-- The name after two dashes. -/
  name : String
  /-- The letter after one dash. -/
  letter : Option Char := none
  /-- Which values are accepted; nothing for an option without a value. -/
  accepts : Option (String → Bool) := none
  /-- Whether it may be given more than once. -/
  repeats : Bool := false
  /-- The environment variable that stands in for the option. -/
  standIn : Option String := none

namespace OptionRule

/-- Whether the option may have this value. -/
def allows (r : OptionRule) (value : String) : Bool :=
  r.accepts.all (· value)

end OptionRule

inductive Command where
  | mk (name : String) (options : List OptionRule) (takesWords : Bool) (commands : List Command)

namespace Command

def name : Command → String
  | .mk n _ _ _ => n

/-- Whether the words after the options belong to the command. -/
def takesWords : Command → Bool
  | .mk _ _ w _ => w

def commands : Command → List Command
  | .mk _ _ _ cs => cs

/-- Every command tells its use and its version. -/
def help : OptionRule := { name := "help", letter := some 'h' }

def version : OptionRule := { name := "version", letter := some 'V' }

def options : Command → List OptionRule
  | .mk _ os _ _ => os ++ [help, version]

/-- The further command of a name. -/
def find? (c : Command) (name : String) : Option Command :=
  c.commands.find? (·.name = name)

def byName? (c : Command) (name : String) : Option OptionRule :=
  c.options.find? (·.name = name)

def byLetter? (c : Command) (letter : Char) : Option OptionRule :=
  c.options.find? (·.letter = some letter)

end Command

/-- Why a command line leads to no work. -/
inductive Refusal where
  /-- It cannot be read. -/
  | rejected
  /-- The version of the command at the end of the path was asked for. -/
  | version (path : List String)
  /-- Its use was asked for. -/
  | help (path : List String)
  deriving DecidableEq, Repr

/-- The option whose value has not been checked yet. -/
inductive Pending where
  | none
  /-- The next word is the value. -/
  | awaits (rule : OptionRule)
  | has (rule : OptionRule) (value : String)

namespace Pending

/-- Whether the next word is a value. -/
def isAwaiting : Pending → Bool
  | .awaits _ => true
  | _ => false

end Pending

/-- What has been read of the part of a command line that belongs to one command. -/
structure Part where
  /-- The names of the command and of those around it, outermost first. -/
  path : List String
  /-- The options given, in order, each with its value. -/
  given : List (String × String) := []
  pending : Pending := .none
  /-- The words after the options. -/
  words : List String := []

namespace Part

/-- Take an option with its value. -/
def give (p : Part) (rule : OptionRule) (value : String) : Except Refusal Part :=
  if rule.name = Command.help.name then .error (.help p.path)
  else if rule.name = Command.version.name then .error (.version p.path)
  else if !rule.repeats && p.given.any (·.1 = rule.name) then .error .rejected
  else if !rule.allows value then .error .rejected
  else .ok { p with given := p.given ++ [(rule.name, value)] }

/-- Check the value that has not been checked yet. -/
def settle (p : Part) : Except Refusal Part :=
  match p.pending with
  | .none => .ok p
  | .awaits _ => .error .rejected
  | .has rule value => { p with pending := .none }.give rule value

/-- An option without a value. -/
def giveFlag (p : Part) (rule : OptionRule) : Except Refusal Part := do
  (← p.settle).give rule ""

/-- An option whose value is the next word. -/
def await (p : Part) (rule : OptionRule) : Except Refusal Part := do
  return { ← p.settle with pending := .awaits rule }

/-- Words that belong to the command as they are. -/
def takeWords (p : Part) (c : Command) (words : List String) : Except Refusal Part := do
  if words.isEmpty then return p
  else if c.takesWords then return { ← p.settle with words }
  else throw .rejected

/-- Letters after one dash. The rest of the word is the value of a letter that needs one. -/
def giveLetters (p : Part) (c : Command) : List Char → Except Refusal Part
  | [] => .ok p
  | l :: rest =>
      match c.byLetter? l with
      | none => .error .rejected
      | some rule =>
          match rule.accepts with
          | none => do giveLetters (← p.giveFlag rule) c rest
          | some _ =>
              if rest.isEmpty then p.await rule
              else do (← p.settle).give rule (String.ofList rest)

end Part

/-- What a word of a command line looks like to a command. -/
inductive Token where
  /-- A long option, with the value in its word. -/
  | long (rule : OptionRule) (value : Option String)
  | letters (ls : List Char)
  /-- It begins like an option that the command does not have. -/
  | stranger
  | word

/-- The characters before and after the first equals sign. -/
def splitEquals : List Char → List Char × Option (List Char)
  | [] => ([], none)
  | c :: r =>
      if c = '=' then ([], some r)
      else
        let (name, value) := splitEquals r
        (c :: name, value)

/-- What a word looks like. Where a command takes words as they are, what looks like an
option that it does not have is such a word; a group of letters is, when it does not have
one of them. -/
def Token.of (c : Command) (word : String) : Token :=
  match word.toList with
  | '-' :: '-' :: cs =>
      let (name, value) := splitEquals cs
      match c.byName? (String.ofList name) with
      | some rule => .long rule (value.map String.ofList)
      | none => if c.takesWords then .word else .stranger
  | '-' :: l :: ls =>
      if c.takesWords && (l :: ls).any fun l => (c.byLetter? l).isNone then .word
      else .letters (l :: ls)
  | _ => .word

/-- The use of a further command was asked for by a word. -/
def helpOn (c : Command) (path : List String) : List String → Refusal
  | [] => .help path
  | name :: rest =>
      match c.find? name with
      | some inner => helpOn inner (path ++ [name]) rest
      | none => .rejected

/-- Read the part of a command line that belongs to a command: what was read, and the
command that follows with the words after its name. -/
def readPart (c : Command) : Part → List String →
    Except Refusal (Part × Option (Command × List String))
  | p, [] => .ok (p, none)
  | p, word :: rest =>
      match if p.pending.isAwaiting then none else c.find? word with
      | some inner => .ok (p, some (inner, rest))
      | none =>
          if !p.pending.isAwaiting && !c.commands.isEmpty && word = "help" then
            .error (helpOn c p.path rest)
          else if word = "--" then do return (← p.takeWords c rest, none)
          else
            match Token.of c word with
            | .long rule value =>
                match rule.accepts, value with
                | none, none => do readPart c (← p.giveFlag rule) rest
                | none, some _ => .error .rejected
                | some _, none => do readPart c (← p.await rule) rest
                | some _, some v => do readPart c (← (← p.settle).give rule v) rest
            | .letters ls => do readPart c (← p.giveLetters c ls) rest
            | .stranger => .error .rejected
            | .word =>
                match p.pending with
                | .awaits rule => readPart c { p with pending := .has rule word } rest
                | _ => do return (← p.takeWords c (word :: rest), none)

/-- Where the value of an option comes from; the command line is the stronger origin. -/
inductive Origin where
  | environment
  | commandLine
  deriving DecidableEq, Repr

/-- The value of an option at one command. -/
structure GivenValue where
  option : String
  value : String
  origin : Origin
  deriving DecidableEq, Repr

/-- What one command was given. -/
structure Reading where
  command : String
  values : List GivenValue
  words : List String
  deriving DecidableEq, Repr

/-- The values that the environment gives to the options of a command that the command
line does not give. -/
def fromEnvironment (environment : String → Option String) (p : Part) :
    List OptionRule → Except Refusal (List GivenValue)
  | [] => .ok []
  | rule :: rest => do
      let more ← fromEnvironment environment p rest
      if p.given.any (·.1 = rule.name) then return more
      else
        match rule.standIn.bind environment with
        | none => return more
        | some v =>
            if rule.allows v then return ⟨rule.name, v, .environment⟩ :: more
            else throw .rejected

/-- Read the words for a command and the commands in it, outermost first. The first
argument bounds how many commands may follow each other. -/
def readWithin (environment : String → Option String) :
    Nat → Command → List String → List String → Except Refusal (List Reading)
  | 0, _, _, _ => .error .rejected
  | n + 1, c, path, words => do
      let path := path ++ [c.name]
      let (p, next) ← readPart c { path } words
      let inner ← match next with
        | some (c, rest) => readWithin environment n c path rest
        | none => pure []
      let p ← p.settle
      let inherited ← fromEnvironment environment p c.options
      if next.isNone && !c.commands.isEmpty then throw .rejected
      let given := p.given.map fun g => ⟨g.1, g.2, Origin.commandLine⟩
      return ⟨c.name, given ++ inherited, p.words⟩ :: inner

/-- Read a command line: what each of its commands was given, outermost first. -/
def read (environment : String → Option String) (c : Command) (words : List String) :
    Except Refusal (List Reading) :=
  readWithin environment (words.length + 1) c [] words

namespace Reading

/-- The values of an option, in order. -/
def all (r : Reading) (option : String) : List String :=
  (r.values.filter (·.option = option)).map (·.value)

/-- The value of an option that is given at most once. -/
def get? (r : Reading) (option : String) : Option String :=
  (r.all option).head?

/-- Whether an option is given. -/
def has (r : Reading) (option : String) : Bool :=
  !(r.all option).isEmpty

end Reading

/-- The value of an option that several commands have: the innermost one counts, except
that the environment does not stand against the command line. -/
def sharedValue? (readings : List Reading) (option : String) : Option String :=
  let values := readings.flatMap fun r => r.values.filter (·.option = option)
  let written := values.filter (·.origin = .commandLine)
  ((written.getLast?).or values.getLast?).map (·.value)

end Conductor.CommandLine
