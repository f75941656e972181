import Conductor.Proofs.Launch.Pieces

/-!
# Operations that do not look at the bindings

What is done around the deeds of an activation is the same whatever the scopes hold: putting
other scopes in place first comes to the same as putting them in place afterwards. A condition
looks at the bindings through its truth value only, and a computed deed through what its function
yields.
-/

namespace Conductor

/-- The context with other scopes. -/
def Context.withScopes (c : Context) (s : ScopeStack) : Context :=
  { c with scopes := s }

namespace Launch

/-- The launch with other scopes. -/
def withScopes (l : Launch) (s : ScopeStack) : Launch :=
  { l with context := l.context.withScopes s }

/-- The result of an operation, with other scopes. -/
abbrev rescope {α : Type} (s : ScopeStack) (x : Launch × α) : Launch × α :=
  (x.1.withScopes s, x.2)

variable (l : Launch) (s : ScopeStack)

theorem requestShutdown_withScopes (reason : String) (due : Bool) :
    (l.withScopes s).requestShutdown reason due =
      ((l.requestShutdown reason due).1, (l.requestShutdown reason due).2.withScopes s) := by
  unfold requestShutdown
  change (if l.context.shuttingDown then _ else _) = _
  split <;> rfl

theorem onFailure_withScopes (reason : String) :
    (l.withScopes s).onFailure reason = (l.onFailure reason).withScopes s := by
  unfold onFailure
  change (if l.config.failurePolicy = .failFast ∧ l.fatal = none then _ else _) = _
  split
  · have hrequest := ({ l with fatal := some reason } : Launch).requestShutdown_withScopes s
      ("fail-fast: " ++ reason) false
    exact congrArg Prod.snd hrequest
  · rfl

theorem fail_withScopes (seq : Nat) (d : Deed) (e : LaunchError) :
    (l.withScopes s).fail seq d e = rescope s (l.fail seq d e) := by
  have h := onFailure_withScopes
    ((l.happen (.failed e.kind e.message)).advance seq (.failed e.message)) s e.message
  exact congrArg (fun m => (m, Outcome.failed d.escalates e.message)) h

theorem gate_withScopes {a : Action}
    (hdecide : ∀ p, (l.context.withScopes s).decide p = l.context.decide p) (seq : Nat) :
    (l.withScopes s).gate seq a = rescope s (l.gate seq a) := by
  -- A condition that lets the action through, or none, leaves it to the shutdown.
  have hpass (n : Launch) :
      (if (n.withScopes s).context.shuttingDown && a.deed.startsWork then
        (((n.withScopes s).advance seq .skipped).note seq "shutdown in progress",
          some Outcome.skipped)
      else (((n.withScopes s).advance seq .activated).advance seq .running, none)) =
      rescope s (if n.context.shuttingDown && a.deed.startsWork then
        ((n.advance seq .skipped).note seq "shutdown in progress", some Outcome.skipped)
      else ((n.advance seq .activated).advance seq .running, none)) := by
    change (if n.context.shuttingDown && a.deed.startsWork then _ else _) = _
    split <;> rfl
  unfold gate
  cases a.condition with
  | none => exact hpass l
  | some p =>
      dsimp only
      rw [show (l.withScopes s).context.decide p = l.context.decide p from hdecide p]
      cases l.context.decide p with
      | error e =>
          have hfail := (l.advance seq .evaluatingCondition).fail_withScopes s seq a.deed e
          exact congrArg (fun x : Launch × Outcome => (x.1, some x.2)) hfail
      | ok b =>
          cases b with
          | false => rfl
          | true => exact hpass (l.advance seq .evaluatingCondition)

theorem settle_withScopes (seq : Nat) (d : Deed) (r : Performed) :
    settle seq d (l.withScopes s, r) = rescope s (settle seq d (l, r)) := by
  match r with
  | .ok .done => rfl
  | .ok .running => rfl
  | .error e => exact l.fail_withScopes s seq d e

theorem cancelTimers_withScopes (why : String) (ids : List Nat) :
    (l.withScopes s).cancelTimers why ids = (l.cancelTimers why ids).withScopes s := by
  have hone (n : Launch) (id : Nat) :
      (n.withScopes s).cancelTimer why id = (n.cancelTimer why id).withScopes s := by
    unfold cancelTimer
    rw [show (n.withScopes s).timers = n.timers from rfl]
    cases n.timers.get? id with
    | none => rfl
    | some t =>
        dsimp only
        cases t.record <;> rfl
  induction ids generalizing l with
  | nil => rfl
  | cons id rest ih =>
      show cancelTimers ((l.withScopes s).cancelTimer why id) why rest = _
      rw [hone]
      exact ih _

theorem endGroup_withScopes (failure : Option LaunchError) :
    (l.withScopes s).endGroup failure = (l.endGroup failure).withScopes s := by
  unfold endGroup
  rw [show (l.withScopes s).groupTimers = l.groupTimers from rfl]
  cases l.groupTimers with
  | nil => rfl
  | cons own outer =>
      cases failure with
      | none => rfl
      | some e =>
          exact ({ l with groupTimers := outer } : Launch).cancelTimers_withScopes s _ own

theorem startProcess_withScopes (spec : ProcessSpec) :
    (l.withScopes s).startProcess spec =
      ((l.startProcess spec).1, (l.startProcess spec).2.withScopes s) := by
  unfold startProcess
  rw [show (l.withScopes s).supervisor.spawn (l.withScopes s).context.host spec =
    l.supervisor.spawn l.context.host spec from rfl]
  cases l.supervisor.spawn l.context.host spec with
  | mk r supervisor => cases r <;> rfl

end Launch

end Conductor
