import Conductor.Binary64.Reader
import Conductor.Launch.State

/-!
# Activation

Activating an action opens its record, asks its condition, performs its deed and
closes the record. Deeds without children are performed by plain functions; groups,
sources and computed deeds activate their children, so activation is a recursion
over the action.

A failed action never stops its siblings, with one exception: in the children of a
group, a source or a computed deed a required source that fails ends the list, its
later siblings are recorded as skipped and the list fails with it.
-/

namespace Conductor

namespace ProcessTemplate

/-- Names and values of environment variables, resolved in order. -/
def resolvePairs (c : Context) :
    List (Template × Template) → Except LaunchError (List (String × String))
  | [] => .ok []
  | (k, v) :: r => do
      let k ← c.resolve k
      let v ← c.resolve v
      return (k, v) :: (← resolvePairs c r)

/-- The name of a process that is given none: the file name of its program and the
number of the attempt. -/
def defaultName (program : Option String) (attempt : Nat) : String :=
  let base := match program with
    | none => "process"
    | some p => (Path.fileName? p).getD p
  base ++ "-" ++ toString attempt

/-- The overrides of the context as additions to the environment inherited. -/
def inheritedAdditions (c : Context) : List (String × String) :=
  c.envOverrides.entries.filterMap fun e => e.2.map fun v => (e.1, v)

/-- The variables that the context takes away from the environment inherited. -/
def inheritedRemovals (c : Context) : List String :=
  c.envOverrides.entries.filterMap fun e => if e.2.isNone then some e.1 else none

/-- The process with its directory, environment and output. -/
def complete (p : ProcessTemplate) (c : Context) (fallback : OutputMode) (spec : ProcessSpec) :
    Except LaunchError ProcessSpec := do
  let directory ← match p.directory with
    | none => pure none
    | some d => some <$> c.resolve d
  let replacement ← match p.environment with
    | none => pure none
    | some pairs => some <$> resolvePairs c pairs
  let additions ← resolvePairs c p.additions
  let inherits := replacement.isNone
  return { spec with
    directory
    replacement := replacement.map Table.ofList
    additions := (if inherits then inheritedAdditions c else []) ++ additions
    removals := if inherits then inheritedRemovals c else []
    output := p.output.getD fallback }

/-- The process that a template describes, its command line already resolved. -/
def toSpec (p : ProcessTemplate) (c : Context) (fallback : OutputMode) (attempt : Nat)
    (command : List String) : Except LaunchError ProcessSpec := do
  let name ← match p.name with
    | none => pure (defaultName command.head? attempt)
    | some n => c.resolve n
  let spec ←
    if p.shell then pure (ProcessSpec.ofShellLine name (Text.joinWith " " command))
    else match ProcessSpec.ofCommandLine? name command with
      | some spec => pure spec
      | none => throw (.spawn name SupervisorError.emptyCommand.message)
  p.complete c fallback spec

end ProcessTemplate

/-- The time that the text of a period spells, in seconds. -/
def readPeriod (text : String) : Except LaunchError Duration :=
  match Binary64.read? (Text.trim text) with
  | none => .error (.substitution (.periodNotNumber text))
  | some x =>
      match Duration.ofSeconds? x with
      | none => .error (.substitution (.periodOutOfRange text))
      | some d => .ok d

namespace ValueTemplate

def resolve (v : ValueTemplate) (c : Context) : Except LaunchError Value :=
  match v with
  | .text t => (c.resolve t).map Value.text
  | .structured data => .ok (.structured data)

end ValueTemplate

namespace ArgumentTemplate

def resolve (a : ArgumentTemplate) (c : Context) : Except LaunchError Argument :=
  match a.default with
  | none => .ok ⟨a.name, none, a.description, a.choices⟩
  | some t => (c.resolve t).map fun d => ⟨a.name, some d, a.description, a.choices⟩

end ArgumentTemplate

/-- The scope that binds names to the texts of templates, a later binding winning. -/
def bindAll (c : Context) (bindings : List (String × Template)) : Except LaunchError Scope :=
  match c.resolveAll (bindings.map (·.2)) with
  | .error e => .error e
  | .ok texts => .ok (.ofVars ((bindings.map (·.1)).zip (texts.map Value.text)))

namespace Source

/-- An error of a source, under the name of the source. -/
def wrap (name : String) : LaunchError → LaunchError
  | .includeFailed s r => .includeFailed s r
  | e => .includeFailed name e.message

end Source

namespace Launch

/-- A deed that could not be performed. -/
abbrev Performed := Except LaunchError Step

/-- Follow a process that has started: tell the handlers, register what is to follow its
end, and keep what is needed then. -/
def attend (l : Launch) (seq : Nat) (a : Action) (onExit : List Action) (name : String)
    (h : ProcessHandle) : Launch :=
  let info : ProcessInfo := ⟨h.id, a.id, name, h.pid, h.command⟩
  let l := (l.note seq ("pid " ++ toString h.pid)).emit (.processStarted info)
  let scope := l.context.snapshot
  if onExit.isEmpty then l.keepProcess ⟨seq, info, a, scope⟩ none
  else
    { l with registry := l.registry.register (.onExitOf h.id onExit scope) }.keepProcess
      ⟨seq, info, a, scope⟩ (some l.registry.nextId)

/-- Start the process of an action. The attempt counts once its command line is known. -/
def execute (l : Launch) (seq : Nat) (a : Action) (p : ProcessTemplate) (onExit : List Action) :
    Launch × Performed :=
  match l.context.resolveAll p.command with
  | .error e => (l, .error e)
  | .ok command =>
      let l := { l with attempts := l.attempts + 1 }
      match p.toSpec l.context l.config.defaultOutput l.attempts command with
      | .error e => (l, .error e)
      | .ok spec =>
          match l.startProcess spec with
          | (.error e, l) => (l, .error (.spawn spec.name e.message))
          | (.ok h, l) => (l.attend seq a onExit spec.name h, .ok .running)

/-- Perform a deed that has no children to activate now. -/
def performLeaf (l : Launch) (seq : Nat) (a : Action) : Deed → Launch × Performed
  | .log level message =>
      match l.context.resolve message with
      | .error e => (l, .error e)
      | .ok text => (l.happen (.line level text), .ok .done)
  | .execute p onExit => l.execute seq a p onExit
  | .declare argument =>
      match argument.resolve l.context with
      | .error e => (l, .error e)
      | .ok argument =>
          match l.context.declare argument with
          | .error e => (l, .error e)
          | .ok context => ({ l with context }, .ok .done)
  | .setVariable target name value =>
      match value.resolve l.context with
      | .error e => (l, .error e)
      | .ok value =>
          match l.context.write target name value with
          | (true, context) => ({ l with context }, .ok .done)
          | (false, context) =>
              ({ l with context }.note seq "dropped by write policy", .ok .done)
  | .unsetVariable name => ({ l with context := l.context.unset name }, .ok .done)
  | .setEnv name value =>
      match l.context.resolve value with
      | .error e => (l, .error e)
      | .ok value => ({ l with context := l.context.setEnv name (some value) }, .ok .done)
  | .unsetEnv name => ({ l with context := l.context.setEnv name none }, .ok .done)
  | .register handler => ({ l with registry := l.registry.register handler }, .ok .done)
  | .unregister name =>
      ({ l with registry := l.registry.unregister name }.happen (.unregistered name), .ok .done)
  | .emit event => (l.emit event, .ok .done)
  | .timer period children cancelOnShutdown =>
      match l.context.resolve period with
      | .error e => (l, .error e)
      | .ok text =>
          match readPeriod text with
          | .error e => (l, .error e)
          | .ok delay =>
              (l.schedule delay children l.context.snapshot (some seq) cancelOnShutdown,
                .ok .running)
  | .shutdown reason =>
      match l.context.resolve reason with
      | .error e => (l, .error e)
      | .ok reason =>
          match l.requestShutdown reason false with
          | (true, l) => (l, .ok .done)
          | (false, l) => (l.note seq "already shutting down", .ok .done)
  | _ => (l, .ok .done)

/-- Whether an action is to be activated: nothing when it is, and how it came out
otherwise. -/
def gate (l : Launch) (seq : Nat) (a : Action) : Launch × Option Outcome :=
  let asked : Launch × Except LaunchError Bool :=
    match a.condition with
    | none => (l, .ok true)
    | some p => (l.advance seq .evaluatingCondition, l.context.decide p)
  match asked with
  | (l, .error e) =>
      let (l, outcome) := l.fail seq a.deed e
      (l, some outcome)
  | (l, .ok false) => (l.advance seq .skipped, some .skipped)
  | (l, .ok true) =>
      if l.context.shuttingDown && a.deed.startsWork then
        ((l.advance seq .skipped).note seq "shutdown in progress", some .skipped)
      else ((l.advance seq .activated).advance seq .running, none)

/-- Close the record of a deed that has been performed. -/
def settle (seq : Nat) (d : Deed) : Launch × Performed → Launch × Outcome
  | (l, .ok .done) => (l.advance seq .completed, .completed)
  | (l, .ok .running) => (l, .running)
  | (l, .error e) => l.fail seq d e

/-- Note how the activation of a record came out. -/
def leave (seq : Nat) : Launch × Outcome → Launch × Outcome
  | (l, outcome) => (l.happen (.left seq outcome), outcome)

/-- A list of children came to its end, or failed. -/
def ofChildren : Launch × Option LaunchError → Launch × Performed
  | (l, none) => (l, .ok .done)
  | (l, some e) => (l, .error e)

/-- Do something as the children of a group with a scope of its own. -/
def asGroup (l : Launch) (scope : Scope) (f : Launch → Launch × Option LaunchError) :
    Launch × Option LaunchError :=
  let (l, failure) := l.beginGroup.under scope f
  (l.endGroup failure, failure)

mutual

def activate : Action → Launch → Launch × Outcome
  | .mk id condition deed, l =>
      let a : Action := .mk id condition deed
      let (seq, l) := l.enter a
      match l.gate seq a with
      | (l, some outcome) => leave seq (l, outcome)
      | (l, none) => leave seq (settle seq deed (perform seq a deed l))

def perform (seq : Nat) (a : Action) : Deed → Launch → Launch × Performed
  | .group bindings children, l =>
      match bindAll l.context bindings with
      | .error e => (l, .error e)
      | .ok scope => ofChildren (l.asGroup scope (activateChildren children))
  | .splice source arguments _, l => ofChildren (activateSource arguments source l)
  | .compute f, l => ofChildren (activateYield (f l.context) l)
  | deed, l => l.performLeaf seq a deed

def activateSource (arguments : List (String × Template)) :
    Source → Launch → Launch × Option LaunchError
  | .inline children, l =>
      match bindAll l.context arguments with
      | .error e => (l, some e)
      | .ok scope => l.asGroup scope (activateChildren children)
  | .computed name f, l => activateLoaded name arguments (f l.context) l
  | .file path parse, l =>
      match l.context.host.readFile path with
      | .error fault => (l, some (.includeFailed path fault.message))
      | .ok text => activateLoaded path arguments (parse text) l

/-- Activate what a source has yielded, in a scope with the arguments. -/
def activateLoaded (name : String) (arguments : List (String × Template)) :
    Yield → Launch → Launch × Option LaunchError
  | .failure e, l => (l, some (Source.wrap name e))
  | .interrupt, l =>
      match bindAll l.context arguments with
      | .error e => (l.interrupt, some e)
      | .ok scope => l.interrupt.asGroup scope fun l => (l, none)
  | .actions children, l =>
      match bindAll l.context arguments with
      | .error e => (l, some e)
      | .ok scope => l.asGroup scope (activateChildren children)

/-- Activate what a function has yielded. -/
def activateYield : Yield → Launch → Launch × Option LaunchError
  | .failure e, l => (l, some e)
  | .interrupt, l => (l.interrupt, none)
  | .actions children, l => activateChildren children l

/-- Activate the children of a group, a source or a computed deed. -/
def activateChildren : List Action → Launch → Launch × Option LaunchError
  | [], l => (l, none)
  | a :: rest, l =>
      match activate a l with
      | (l, .failed true reason) =>
          (l.skipAll rest "enclosing group failed", some (.childFailed a.label reason))
      | (l, _) => activateChildren rest l

end

/-- Activate actions one after the other, whatever becomes of each. -/
def activateAll (as : List Action) (l : Launch) : Launch :=
  as.foldl (fun l a => (activate a l).1) l

/-- Activate a body, under saved bindings if it has some. -/
def activateBody (cause : BodyCause) (as : List Action) (scope : Option Scope) (l : Launch) :
    Launch :=
  let l := l.happen (.began cause as scope)
  match scope with
  | none => activateAll as l
  | some scope => (l.under scope fun l => (activateAll as l, ())).1

end Launch

end Conductor
