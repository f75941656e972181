import Conductor.Proofs.Launch.Rescope
import Conductor.Proofs.Launch.SideBySide

/-!
# A snapshot changes nothing where it was taken

A snapshot holds everything that is visible. Under a snapshot of the scopes at hand, actions do
what they do under an empty scope, and leave the launch as they leave it there: the stacks are
twins from the first action to the last, and whatever looks at them sees the same. Removing a
variable and writing one in the root would tell them apart, and so would a function that looks at
a context in any other way than by its read operations.
-/

namespace Conductor

/-! ## Twin stacks -/

namespace Scope

theorem overlay_setVar (s t : Scope) (n : String) (v : Value) :
    (s.overlay t).setVar n v = s.overlay (t.setVar n v) := by
  refine ext_get? (fun n' => ?_) fun _ => rfl
  simp only [setVar, vars_overlay, Table.get?_insert, Table.get?_overlay]
  split <;> rfl

theorem overlay_setEnv (s t : Scope) (n : String) (v : Option String) :
    (s.overlay t).setEnv n v = s.overlay (t.setEnv n v) := by
  refine ext_get? (fun _ => rfl) fun n' => ?_
  simp only [setEnv, env_overlay, Table.get?_insert, Table.get?_overlay]
  split <;> rfl

theorem overlay_overlay_self (s t : Scope) : s.overlay (s.overlay t) = s.overlay t := by
  refine ext_get? (fun n => ?_) fun n => ?_
  · simp only [vars_overlay, Table.get?_overlay, Option.or_assoc, Option.or_self]
  · simp only [env_overlay, Table.get?_overlay, Option.or_assoc, Option.or_self]

end Scope

namespace ScopeStack

/-- Two stacks that differ in one scope, with so many scopes above it and the stack `base` below.
In the first one it holds, besides what it holds in the second, all that is visible below. -/
inductive Twin (base : ScopeStack) : Nat → ScopeStack → ScopeStack → Prop where
  | here (own : Scope) : Twin base 0 (base.push (base.flatten.overlay own)) (base.push own)
  | push (top : Scope) {above : Nat} {s t : ScopeStack} (h : Twin base above s t) :
      Twin base (above + 1) (s.push top) (t.push top)

namespace Twin

variable {base s t : ScopeStack} {above : Nat}

theorem lookup (h : Twin base above s t) (n : String) : t.lookup n = s.lookup n := by
  induction h with
  | here own =>
      rw [lookup_push, lookup_push, Scope.vars_overlay, Table.get?_overlay, get?_vars_flatten,
        Option.or_assoc, Option.or_self]
  | push top _ ih => rw [lookup_push, lookup_push, ih]

theorem override? (h : Twin base above s t) (n : String) : t.override? n = s.override? n := by
  induction h with
  | here own =>
      rw [override?_push, override?_push, Scope.env_overlay, Table.get?_overlay, get?_env_flatten,
        Option.or_assoc, Option.or_self]
  | push top _ ih => rw [override?_push, override?_push, ih]

theorem flatten (h : Twin base above s t) : t.flatten = s.flatten := by
  induction h with
  | here own => rw [flatten_push, flatten_push, Scope.overlay_overlay_self]
  | push top _ ih => rw [flatten_push, flatten_push, ih]

theorem depth (h : Twin base above s t) : t.depth = s.depth := by
  induction h with
  | here own => rfl
  | push top _ ih => rw [depth_push, depth_push, ih]

theorem modifyTop (h : Twin base above s t) {f : Scope → Scope}
    (hf : ∀ own, f (base.flatten.overlay own) = base.flatten.overlay (f own)) :
    Twin base above (s.modifyTop f) (t.modifyTop f) := by
  cases h with
  | here own =>
      show Twin base 0 (base.push (f (base.flatten.overlay own))) (base.push (f own))
      rw [hf]
      exact .here (f own)
  | push top h => exact .push (f top) h

theorem setVar (h : Twin base above s t) (n : String) (v : Value) :
    Twin base above (s.modifyTop (·.setVar n v)) (t.modifyTop (·.setVar n v)) :=
  h.modifyTop fun own => Scope.overlay_setVar _ own n v

theorem setEnv (h : Twin base above s t) (n : String) (v : Option String) :
    Twin base above (s.modifyTop (·.setEnv n v)) (t.modifyTop (·.setEnv n v)) :=
  h.modifyTop fun own => Scope.overlay_setEnv _ own n v

/-- The scope above is left on both sides. -/
theorem truncate (h : Twin base (above + 1) s t) {depth : Nat} (hd : s.depth = depth + 1) :
    Twin base above (s.truncate depth) (t.truncate depth) := by
  cases h with
  | push top h =>
      rename_i s t
      have hs : s.depth = depth := Nat.add_right_cancel hd
      have ht : t.depth = depth := h.depth.trans hs
      rw [← hs, truncate_push, hs, ← ht, truncate_push]
      exact h

/-- The one scope in which the stacks differ is left on both sides. -/
theorem truncate_base (h : Twin base 0 s t) :
    s.truncate base.depth = base ∧ t.truncate base.depth = base := by
  cases h with
  | here own => exact ⟨truncate_push base _, truncate_push base own⟩

end Twin

end ScopeStack

/-! ## What is read from a context -/

/-- What the read operations of a context give. -/
structure Readings where
  host : Host
  depth : Nat
  snapshot : Scope
  lookup : String → Option Value
  text : String → Except LaunchError String
  arguments : Table String Argument
  unused : List String
  env : String → Option String
  envOverrides : Table String (Option String)
  processEnv : Table String String
  /-- Number of events that wait. -/
  waiting : Nat
  current : Option Event
  shuttingDown : Bool

namespace Context

def readings (c : Context) : Readings where
  host := c.host
  depth := c.depth
  snapshot := c.snapshot
  lookup := c.lookup
  text := c.text
  arguments := c.arguments
  unused := c.unused
  env := c.env
  envOverrides := c.envOverrides
  processEnv := c.processEnv
  waiting := c.pending.length
  current := c.current
  shuttingDown := c.shuttingDown

variable {c d : Context} {base t : ScopeStack} {above : Nat}

theorem readings_withScopes (h : ScopeStack.Twin base above c.scopes t) :
    (c.withScopes t).readings = c.readings := by
  have hlookup : (c.withScopes t).lookup = c.lookup := funext h.lookup
  have hsnapshot : (c.withScopes t).snapshot = c.snapshot := h.flatten
  have hdepth : (c.withScopes t).depth = c.depth := h.depth
  have htext : (c.withScopes t).text = c.text := by
    funext n
    unfold text
    rw [hlookup]
  have henv : (c.withScopes t).env = c.env := by
    funext n
    unfold env
    rw [show (c.withScopes t).scopes.override? n = c.scopes.override? n from h.override? n]
    rfl
  have hoverrides : (c.withScopes t).envOverrides = c.envOverrides := congrArg Scope.env hsnapshot
  have hprocess : (c.withScopes t).processEnv = c.processEnv := by
    unfold processEnv
    rw [hoverrides]
    rfl
  unfold readings
  rw [hlookup, hsnapshot, hdepth, htext, henv, hoverrides, hprocess]
  rfl

theorem surroundings_of_readings (h : d.readings = c.readings) :
    d.surroundings = c.surroundings := by
  have hlookup : d.lookup = c.lookup := congrArg Readings.lookup h
  have henv : d.env = c.env := congrArg Readings.env h
  have hhost : d.host = c.host := congrArg Readings.host h
  unfold surroundings
  rw [hlookup, henv, hhost]

theorem resolve_of_readings (h : d.readings = c.readings) : d.resolve = c.resolve := by
  funext x
  unfold resolve
  rw [surroundings_of_readings h]

theorem resolveAll_of_readings (h : d.readings = c.readings) : d.resolveAll = c.resolveAll := by
  funext xs
  unfold resolveAll
  rw [surroundings_of_readings h]

theorem decide_of_readings (h : d.readings = c.readings) : d.decide = c.decide := by
  funext p
  unfold Context.decide
  rw [surroundings_of_readings h]

end Context

section Congr

variable {c d : Context}

theorem bindAll_of_readings (h : d.readings = c.readings) (bindings : List (String × Template)) :
    bindAll d bindings = bindAll c bindings := by
  unfold bindAll
  rw [Context.resolveAll_of_readings h]

theorem ProcessTemplate.toSpec_of_readings (h : d.readings = c.readings) (p : ProcessTemplate) :
    p.toSpec d = p.toSpec c := by
  have hresolve := Context.resolve_of_readings h
  have hoverrides : d.envOverrides = c.envOverrides := congrArg Readings.envOverrides h
  have hpairs : resolvePairs d = resolvePairs c := by
    funext pairs
    induction pairs with
    | nil => rfl
    | cons pair rest ih =>
        unfold resolvePairs
        rw [hresolve, ih]
  funext fallback attempt command
  unfold toSpec complete inheritedAdditions inheritedRemovals
  rw [hresolve, hoverrides, hpairs]

end Congr

/-- The functions of the deed look at a context by its read operations only. -/
def Deed.ReadsPublicly (d : Deed) : Prop :=
  (∀ f, d = .compute f → ∀ c c' : Context, c.readings = c'.readings → f c = f c') ∧
    ∀ name f arguments required, d = .splice (.computed name f) arguments required →
      ∀ c c' : Context, c.readings = c'.readings → f c = f c'

theorem Source.load_of_readings {s : Source} {arguments : List (String × Template)}
    {required : Bool} (hs : (Deed.splice s arguments required).ReadsPublicly) {c d : Context}
    (h : d.readings = c.readings) : s.load d = s.load c := by
  cases s with
  | inline children => rfl
  | computed name f => exact hs.2 name f arguments required rfl d c h
  | file path parse =>
      have hhost : d.host = c.host := congrArg Readings.host h
      unfold Source.load
      rw [hhost]

theorem Deed.plan_of_readings {x : Deed} (hx : x.ReadsPublicly) {c d : Context}
    (h : d.readings = c.readings) : x.plan d = x.plan c := by
  have hbound : ∀ bindings children, Plan.bound d bindings children =
      Plan.bound c bindings children := by
    intro bindings children
    unfold Plan.bound
    rw [bindAll_of_readings h]
  cases x with
  | group bindings children => exact hbound bindings children
  | splice source arguments required =>
      rw [Deed.plan, Deed.plan, Source.load_of_readings hx h]
      cases source.load c with
      | actions children => exact hbound arguments children
      | interrupt => exact hbound arguments []
      | failure e => rfl
  | compute f =>
      rw [Deed.plan, Deed.plan, hx.1 f rfl d c h]
  | _ => rfl

/-! ## Twin launches -/

namespace Launch

variable {base t : ScopeStack} {above : Nat} {l l' m : Launch} {α : Type}

/-- The launches are the same, but for scopes that are twins. -/
structure Twin (base : ScopeStack) (above : Nat) (l l' : Launch) : Prop where
  scopes : ScopeStack.Twin base above l.context.scopes l'.context.scopes
  rest : l' = l.withScopes l'.context.scopes

/-- The results are the same, and the launches twins. -/
structure Agree (base : ScopeStack) (above : Nat) (x x' : Launch × α) : Prop where
  twin : Twin base above x.1 x'.1
  result : x'.2 = x.2

theorem Twin.readings (h : Twin base above l l') : l'.context.readings = l.context.readings := by
  have hcontext : l'.context = l.context.withScopes l'.context.scopes := congrArg context h.rest
  rw [hcontext]
  exact Context.readings_withScopes h.scopes

/-- What does not look at the bindings and leaves them alone makes twins of twins. -/
theorem Twin.same (h : Twin base above l l') {m m' : Launch}
    (hm : m' = m.withScopes l'.context.scopes) (hs : m.context.scopes = l.context.scopes) :
    Twin base above m m' := by
  rw [hm]
  refine ⟨?_, rfl⟩
  show ScopeStack.Twin base above m.context.scopes l'.context.scopes
  rw [hs]
  exact h.scopes

theorem agree_of_rescope (h : Twin base above l l') {x x' : Launch × α}
    (hx : x' = rescope l'.context.scopes x) (hs : x.1.context.scopes = l.context.scopes) :
    Agree base above x x' :=
  ⟨h.same (by rw [hx]) hs, by rw [hx]⟩

/-! ### Deeds without children -/

theorem attend_withScopes (l : Launch) {s : ScopeStack}
    (hsnapshot : (l.context.withScopes s).snapshot = l.context.snapshot) (seq : Nat) (a : Action)
    (onExit : List Action) (name : String) (h : ProcessHandle) :
    (l.withScopes s).attend seq a onExit name h = (l.attend seq a onExit name h).withScopes s := by
  have hsame : ((((l.withScopes s).note seq ("pid " ++ toString h.pid)).emit
      (.processStarted ⟨h.id, a.id, name, h.pid, h.command⟩)).context.snapshot) =
      l.context.snapshot := hsnapshot
  unfold attend
  dsimp only
  rw [hsame]
  split <;> rfl

theorem execute_withScopes (l : Launch) {s : ScopeStack}
    (h : (l.withScopes s).context.readings = l.context.readings) (seq : Nat) (a : Action)
    (p : ProcessTemplate) (onExit : List Action) :
    (l.withScopes s).execute seq a p onExit = rescope s (l.execute seq a p onExit) := by
  have hspec := ProcessTemplate.toSpec_of_readings h p
  unfold execute
  rw [Context.resolveAll_of_readings h]
  cases l.context.resolveAll p.command with
  | error e => rfl
  | ok command =>
      dsimp only
      rw [hspec, show (l.withScopes s).attempts = l.attempts from rfl,
        show (l.withScopes s).config.defaultOutput = l.config.defaultOutput from rfl]
      cases p.toSpec l.context l.config.defaultOutput (l.attempts + 1) command with
      | error e => rfl
      | ok spec =>
          let tried : Launch := { l with attempts := l.attempts + 1 }
          have hstart : ({ l.withScopes s with attempts := l.attempts + 1 } : Launch).startProcess
              spec = ((tried.startProcess spec).1, (tried.startProcess spec).2.withScopes s) :=
            tried.startProcess_withScopes s spec
          dsimp only at hstart ⊢
          rw [hstart]
          cases hx : tried.startProcess spec with
          | mk r m =>
              cases r with
              | error e => rfl
              | ok g =>
                  obtain ⟨-, -, rfl⟩ := startProcess_ok hx
                  exact congrArg (fun n => (n, Except.ok Step.running))
                    (attend_withScopes (tried.withStarted g spec) (congrArg Readings.snapshot h)
                      seq a onExit spec.name g)

/-- A declaration does the same in contexts that differ in twin scopes. -/
theorem declare_agree {c : Context} {s : ScopeStack} (h : ScopeStack.Twin base above c.scopes s)
    (a : Argument) :
    (∃ e, c.declare a = .error e ∧ (c.withScopes s).declare a = .error e) ∨
      ∃ d s', c.declare a = .ok d ∧ (c.withScopes s).declare a = .ok (d.withScopes s') ∧
        ScopeStack.Twin base above d.scopes s' := by
  have hlookup : (c.withScopes s).lookup = c.lookup := funext h.lookup
  have hdefault : ∃ s', (c.withScopes s).bindDefault a = (c.bindDefault a).withScopes s' ∧
      ScopeStack.Twin base above (c.bindDefault a).scopes s' := by
    unfold Context.bindDefault
    rw [hlookup]
    split
    · exact ⟨_, rfl, h.setVar a.name _⟩
    · exact ⟨s, rfl, h⟩
  have hforbidden : (c.withScopes s).forbidden? a = c.forbidden? a := by
    unfold Context.forbidden? Context.effective
    rw [hlookup]
  have hrepeats : (c.withScopes s).repeats a = c.repeats a := rfl
  obtain ⟨s', heq, htwin⟩ := hdefault
  unfold Context.declare
  rw [hrepeats, hforbidden, heq]
  cases c.repeats a with
  | error e => exact .inl ⟨e, rfl, rfl⟩
  | ok known =>
      cases known with
      | true => exact .inr ⟨_, s', rfl, rfl, htwin⟩
      | false =>
          dsimp only
          cases c.forbidden? a with
          | some v => exact .inl ⟨_, rfl, rfl⟩
          | none => exact .inr ⟨_, s', rfl, rfl, htwin⟩

/-- **A deed without children does the same on twins**, unless it removes a variable or writes
one in the root. -/
theorem performLeaf_agree (h : Twin base above l l') (seq : Nat) {a : Action}
    (hlocal : a.deed.StaysLocal) :
    Agree base above (l.performLeaf seq a a.deed) (l'.performLeaf seq a a.deed) := by
  have hreadings := h.readings
  have hresolve := Context.resolve_of_readings hreadings
  have hsnapshot : l'.context.snapshot = l.context.snapshot := congrArg Readings.snapshot hreadings
  have htwin := h.scopes
  obtain ⟨s, rfl⟩ : ∃ s, l' = l.withScopes s := ⟨_, h.rest⟩
  -- Nothing changes in the scopes, and the results are the same.
  have hplain {x x' : Launch × Performed} (hx : x' = rescope s x)
      (hs : x.1.context.scopes = l.context.scopes) : Agree base above x x' :=
    agree_of_rescope h hx hs
  cases hd : a.deed with
  | log level message =>
      rw [performLeaf, performLeaf, hresolve]
      cases l.context.resolve message <;> exact hplain rfl rfl
  | execute t onExit =>
      exact hplain (execute_withScopes l hreadings seq a t onExit) (scopes_execute l seq a t onExit)
  | declare argument =>
      have hargument : argument.resolve (l.withScopes s).context = argument.resolve l.context := by
        unfold ArgumentTemplate.resolve
        rw [hresolve]
      rw [performLeaf, performLeaf, hargument]
      cases argument.resolve l.context with
      | error e => exact hplain rfl rfl
      | ok argument =>
          dsimp only
          rcases declare_agree htwin argument with ⟨e, he, he'⟩ | ⟨d, s', hd, hd', hs'⟩
          · rw [he, show (l.withScopes s).context.declare argument = .error e from he']
            exact hplain rfl rfl
          · rw [hd, show (l.withScopes s).context.declare argument = .ok (d.withScopes s') from hd']
            exact ⟨⟨hs', rfl⟩, rfl⟩
  | setVariable target name value =>
      have hvalue : value.resolve (l.withScopes s).context = value.resolve l.context := by
        unfold ValueTemplate.resolve
        rw [hresolve]
      rw [performLeaf, performLeaf, hvalue]
      cases value.resolve l.context with
      | error e => exact hplain rfl rfl
      | ok v =>
          cases target with
          | root => exact absurd hd (hlocal.2 name value)
          | innermost =>
              have hasked := Context.scopes_requestWrite l.context name
              have hrequest : (l.withScopes s).context.requestWrite name =
                  ((l.context.requestWrite name).1,
                    (l.context.requestWrite name).2.withScopes s) := by
                unfold Context.requestWrite
                rw [show (l.withScopes s).context.turn = l.context.turn from rfl]
                cases l.context.turn <;> rfl
              dsimp only
              unfold Context.write
              rw [hrequest]
              cases hreq : l.context.requestWrite name with
              | mk granted c =>
                  rw [hreq] at hasked
                  cases granted with
                  | false => exact hplain rfl hasked
                  | true =>
                      have hc : ScopeStack.Twin base above c.scopes s := hasked ▸ htwin
                      exact ⟨⟨hc.setVar name v, rfl⟩, rfl⟩
  | unsetVariable name => exact absurd hd (hlocal.1 name)
  | setEnv name value =>
      rw [performLeaf, performLeaf, hresolve]
      cases l.context.resolve value with
      | error e => exact hplain rfl rfl
      | ok text =>
          exact ⟨⟨htwin.setEnv name (some text), rfl⟩, rfl⟩
  | unsetEnv name =>
      exact ⟨⟨htwin.setEnv name none, rfl⟩, rfl⟩
  | timer period children cancel =>
      rw [performLeaf, performLeaf, hresolve, hsnapshot]
      cases l.context.resolve period with
      | error e => exact hplain rfl rfl
      | ok text =>
          dsimp only
          cases readPeriod text <;> exact hplain rfl rfl
  | shutdown reason =>
      rw [performLeaf, performLeaf, hresolve]
      cases l.context.resolve reason with
      | error e => exact hplain rfl rfl
      | ok reason =>
          have hscopes := (aside_requestShutdown l reason false).scopes
          dsimp only
          rw [requestShutdown_withScopes]
          cases hask : l.requestShutdown reason false with
          | mk first m =>
              rw [hask] at hscopes
              cases first <;> exact hplain rfl hscopes
  | register | unregister | emit | group | splice | compute => exact hplain rfl rfl

/-! ### Whole activations -/

theorem asked_twin (h : Twin base above l l') {d : Deed} (hd : d.ReadsPublicly) :
    Twin base above (l.asked d) (l'.asked d) := by
  have hreadings := h.readings
  have htwin := h.scopes
  obtain ⟨s, rfl⟩ : ∃ s, l' = l.withScopes s := ⟨_, h.rest⟩
  have hheard (y : Yield) : Twin base above (l.heard y) ((l.withScopes s).heard y) := by
    unfold heard
    split
    · exact ⟨htwin, rfl⟩
    · exact ⟨htwin, rfl⟩
  cases d with
  | splice source arguments required =>
      unfold asked
      dsimp only
      rw [Source.load_of_readings hd hreadings]
      exact hheard _
  | compute f =>
      unfold asked
      dsimp only
      rw [hd.1 f rfl _ _ hreadings]
      exact hheard _
  | _ => exact h

theorem endGroup_twin (h : Twin base above l l') (failure : Option LaunchError) :
    Twin base above (l.endGroup failure) (l'.endGroup failure) :=
  h.same ((congrArg (·.endGroup failure) h.rest).trans (l.endGroup_withScopes _ failure))
    (aside_endGroup l failure).scopes

theorem settle_agree {seq : Nat} {d : Deed} {x x' : Launch × Performed}
    (h : Agree base above x x') : Agree base above (settle seq d x) (settle seq d x') := by
  obtain ⟨m, r⟩ := x
  obtain ⟨m', r'⟩ := x'
  obtain ⟨htwin, hresult⟩ := h
  obtain rfl : r' = r := hresult
  have hrest : m' = m.withScopes m'.context.scopes := htwin.rest
  refine agree_of_rescope htwin ?_ (aside_settle seq d (m, r')).scopes
  exact (congrArg (fun n => settle seq d (n, r')) hrest).trans (m.settle_withScopes _ seq d r')

theorem gate_agree (h : Twin base above l l') (seq : Nat) (a : Action) :
    Agree base above (l.gate seq a) (l'.gate seq a) := by
  have hdecide := Context.decide_of_readings h.readings
  refine agree_of_rescope h ?_ (aside_gate l seq a).scopes
  have hrest := h.rest
  generalize l'.context.scopes = s at hrest ⊢
  subst hrest
  exact l.gate_withScopes s (fun p => congrFun hdecide p) seq

/-- Leaving a scope that both have makes twins of twins. -/
theorem restore_twin (h : Twin base (above + 1) l l') {depth : Nat}
    (hd : l.context.depth = depth + 1) :
    Twin base above { l with context := l.context.restore depth }
      { l' with context := l'.context.restore depth } := by
  have hscopes := h.scopes
  obtain ⟨s, rfl⟩ : ∃ s, l' = l.withScopes s := ⟨_, h.rest⟩
  exact ⟨hscopes.truncate hd, rfl⟩

/-- All deeds performed keep to the innermost scope, and their functions look at a context by its
read operations. -/
def Indifferent (performed : Action → Launch → Prop) : Prop :=
  ∀ b k, performed b k → b.deed.StaysLocal ∧ b.deed.ReadsPublicly

theorem Agree.alike {x x' : Launch × α} (h : Agree base above x x') :
    Alike (Twin base above) x x' :=
  ⟨h.twin, h.result⟩

/-- **Activations do the same on twins**, as long as their deeds are indifferent. -/
theorem sideBySide_twin (base : ScopeStack) :
    SideBySide (fun d => d.StaysLocal ∧ d.ReadsPublicly) id (Twin base) where
  size h := congrArg (·.journal.size) h.rest
  depth h := h.scopes.depth
  enter a h := h.same (congrArg (fun n => (n.enter a).2) h.rest) rfl
  gate seq a h := (gate_agree h seq a).alike
  leaf seq _ hd _ h := (performLeaf_agree h seq hd.1).alike
  plan _ hx h := Deed.plan_of_readings hx.2 h.readings
  asked _ hx h := asked_twin h hx.2
  settle _ _ h := (settle_agree ⟨h.launches, h.result⟩).alike
  leave seq outcome h := h.same (congrArg (·.happen (.left seq outcome)) h.rest) rfl
  skipAll as why h := h.same (congrArg (·.skipAll as why) h.rest) rfl
  opened scope h :=
    ⟨.push scope h.scopes, congrArg (fun n => n.beginGroup.inScope scope) h.rest⟩
  closed _ failure h hd := endGroup_twin (restore_twin h hd) failure

theorem activateAll_twin {as : List Action} (hdeeds : Indifferent (BodyReaches as l))
    (h : Twin base above l l') : Twin base above (activateAll as l) (activateAll as l') :=
  (sideBySide_twin base).activateAll hdeeds h

/-- **A snapshot stands for the scopes it was taken of.** As long as no deed performed removes a
variable or writes one in the root, and functions look at the context by its read operations
only, it makes no difference to a launch whether actions are activated under a snapshot of the
scopes at hand or under an empty scope. -/
theorem snapshot_changes_nothing (l : Launch) (as : List Action)
    (hdeeds : ∀ b k, BodyReaches as (l.inScope l.context.snapshot) b k →
      b.deed.StaysLocal ∧ b.deed.ReadsPublicly) :
    l.under l.context.snapshot (fun m => (activateAll as m, ())) =
      l.under .empty fun m => (activateAll as m, ()) := by
  have hempty : l.context.snapshot.overlay .empty = l.context.snapshot :=
    Scope.ext_get? (fun n => by simp [Scope.empty]) fun n => by simp [Scope.empty]
  have hstart : Twin l.context.scopes 0 (l.inScope l.context.snapshot) (l.inScope .empty) := by
    refine ⟨?_, rfl⟩
    have hhere : ScopeStack.Twin l.context.scopes 0 _ _ := .here .empty
    rwa [show l.context.scopes.flatten.overlay .empty = l.context.snapshot from hempty] at hhere
  obtain ⟨hscopes, hrest⟩ := activateAll_twin hdeeds hstart
  obtain ⟨hleft, hleft'⟩ := hscopes.truncate_base
  -- The scope that tells the launches apart is left, and the same stack remains.
  have hlaunch (n : Launch) (hn : n.context.scopes.truncate l.context.depth = l.context.scopes) :
      { n with context := n.context.restore l.context.depth } = n.withScopes l.context.scopes := by
    show _ = { n with context := { n.context with scopes := l.context.scopes } }
    rw [← hn]
    rfl
  have hunder (scope : Scope) : l.under scope (fun m => (activateAll as m, ())) =
      ({ activateAll as (l.inScope scope) with
        context := (activateAll as (l.inScope scope)).context.restore l.context.depth }, ()) := rfl
  rw [hunder, hunder, hlaunch _ hleft, hlaunch _ hleft', hrest]
  rfl

/-- A function that greets whom a variable names. -/
def greet (c : Context) : Yield :=
  match c.lookup "who" with
  | none => .failure (.undeclaredVariable "who")
  | some v => .actions [.mk ⟨1⟩ none (.log .info [.text v.toText])]

/-- Actions that bind, override, schedule and compute. -/
def greeting : List Action :=
  [.mk ⟨2⟩ none (.setVariable .innermost "who" (.text [.text "you"])),
    .mk ⟨3⟩ none (.setEnv "LANG" [.text "C"]),
    .mk ⟨4⟩ none (.group [] [.mk ⟨5⟩ none (.compute greet)]),
    .mk ⟨6⟩ none (.timer [.text "1"] [] true)]

/-- The greeting is the same under a snapshot and under an empty scope. -/
theorem greeting_needs_no_snapshot :
    (∀ b k, BodyReaches greeting ((start .standard .bare [("who", "me")]).inScope
        (start .standard .bare [("who", "me")]).context.snapshot) b k →
      b.deed.StaysLocal ∧ b.deed.ReadsPublicly) ∧
    (start .standard .bare [("who", "me")]).under
        (start .standard .bare [("who", "me")]).context.snapshot
        (fun m => (activateAll greeting m, ())) =
      (start .standard .bare [("who", "me")]).under .empty
        fun m => (activateAll greeting m, ()) := by
  have hgreet : ∀ c c' : Context, c.readings = c'.readings → greet c = greet c' := by
    intro c c' h
    have hlookup : c.lookup "who" = c'.lookup "who" :=
      congrFun (congrArg Readings.lookup h) "who"
    unfold greet
    rw [hlookup]
  have hcompute : (Deed.compute greet).StaysLocal ∧ (Deed.compute greet).ReadsPublicly := by
    simpa [Deed.StaysLocal, Deed.ReadsPublicly] using hgreet
  have hyield (c : Context) : (greet c).Every fun d => d.StaysLocal ∧ d.ReadsPublicly := by
    unfold greet
    split
    · trivial
    · simp [Yield.Every, Action.Every, Deed.Every, Deed.StaysLocal, Deed.ReadsPublicly]
  have hevery : ∀ a ∈ greeting, a.Every fun d => d.StaysLocal ∧ d.ReadsPublicly := by
    simp only [greeting, List.forall_mem_cons, List.not_mem_nil, false_imp_iff, implies_true,
      and_true, Action.Every, Deed.Every, everyDeed]
    refine ⟨?_, ?_, ⟨?_, hcompute, hyield⟩, ?_⟩
    all_goals simp [Deed.StaysLocal, Deed.ReadsPublicly]
  have hdeeds : ∀ b k, BodyReaches greeting ((start .standard .bare [("who", "me")]).inScope
      (start .standard .bare [("who", "me")]).context.snapshot) b k →
      b.deed.StaysLocal ∧ b.deed.ReadsPublicly := fun b k h => h.every hevery
  exact ⟨hdeeds, snapshot_changes_nothing _ greeting hdeeds⟩

end Launch

end Conductor
