import Conductor.Proofs.Launch.Pieces
import Conductor.Proofs.Scope

/-!
# Scopes are left as they were

Whatever an action does, the scopes below the innermost one change only by the removal of
variables and by writes to the root, and their number stays. What has a scope of its own, as
groups, sources and bodies have, takes its other changes along when that scope is left.
-/

namespace Conductor

/-- The deed neither removes a variable nor writes one in the root. -/
def Deed.StaysLocal (d : Deed) : Prop :=
  (∀ name, d ≠ .unsetVariable name) ∧ ∀ name value, d ≠ .setVariable .root name value

namespace Launch

variable {l m n : Launch} {performed performed' : Action → Launch → Prop}

/-- Among the deeds that are performed, one removes the variable. -/
def Removes (performed : Action → Launch → Prop) (name : String) : Prop :=
  ∃ b k, performed b k ∧ b.deed = .unsetVariable name

/-- Among the deeds that are performed, one writes the value to the variable in the root, and the
turn permits it. -/
def WritesRoot (performed : Action → Launch → Prop) (name : String) (v : Value) : Prop :=
  ∃ b k value, performed b k ∧ b.deed = .setVariable .root name value ∧
    value.resolve k.context = .ok v ∧ (k.context.requestWrite name).1 = true

theorem Removes.mono (h : ∀ b k, performed b k → performed' b k) {name : String}
    (hr : Removes performed name) : Removes performed' name := by
  obtain ⟨b, k, hp, hd⟩ := hr
  exact ⟨b, k, h b k hp, hd⟩

theorem WritesRoot.mono (h : ∀ b k, performed b k → performed' b k) {name : String} {v : Value}
    (hw : WritesRoot performed name v) : WritesRoot performed' name v := by
  obtain ⟨b, k, value, hp, hd⟩ := hw
  exact ⟨b, k, value, h b k hp, hd⟩

/-- The scopes below the innermost one are as they were, but for variables removed by the deeds
performed and variables of the root written by them. -/
def Shelters (performed : Action → Launch → Prop) (l m : Launch) : Prop :=
  l.context.scopes.Shelters (Removes performed) (WritesRoot performed) m.context.scopes

theorem shelters_of_same (h : m.context.scopes = l.context.scopes) : Shelters performed l m := by
  unfold Shelters
  rw [h]
  exact .refl _

/-! ## Deeds without children -/

theorem scopes_execute (l : Launch) (seq : Nat) (a : Action) (t : ProcessTemplate)
    (onExit : List Action) : (l.execute seq a t onExit).1.context.scopes = l.context.scopes := by
  unfold execute
  split
  · rfl
  · dsimp only
    split
    · rfl
    · split
      · rename_i hs
        rw [startProcess_error hs]
      · rename_i h m hs
        obtain ⟨-, -, rfl⟩ := startProcess_ok hs
        obtain ⟨r, -, -, -, -, heq⟩ := attend_eq (Launch.withStarted _ h _) seq a onExit _ h
        rw [heq]
        rfl

/-- What the scopes can be after an action without children. -/
inductive Rebinds (l : Launch) (a : Action) : ScopeStack → Prop where
  | same : Rebinds l a l.context.scopes
  /-- A variable is set, and the turn permits it. -/
  | bind {target : Context.Target} {name : String} {value : ValueTemplate} {v : Value}
      (hd : a.deed = .setVariable target name value) (hv : value.resolve l.context = .ok v)
      (hw : (l.context.requestWrite name).1 = true) :
      Rebinds l a (l.context.bind target name v).scopes
  | unset {name : String} (hd : a.deed = .unsetVariable name) :
      Rebinds l a (l.context.scopes.unset name)
  /-- An argument that nothing is bound to gets its default. -/
  | default {name text : String} (hn : l.context.lookup name = none) :
      Rebinds l a (l.context.scopes.modifyTop (·.setVar name (.text text)))
  | override {name : String} {value : Option String} :
      Rebinds l a (l.context.scopes.modifyTop (·.setEnv name value))

theorem rebinds_of_same {a : Action} (h : m.context.scopes = l.context.scopes) :
    Rebinds l a m.context.scopes := by
  rw [h]
  exact .same

/-- **A deed without children does one thing to the scopes at most.** -/
theorem rebinds_performLeaf (l : Launch) (seq : Nat) (a : Action) :
    Rebinds l a (l.performLeaf seq a a.deed).1.context.scopes := by
  cases hd : a.deed with
  | log level message =>
      rw [performLeaf]
      split <;> exact .same
  | execute t onExit => exact rebinds_of_same (scopes_execute l seq a t onExit)
  | declare argument =>
      rw [performLeaf]
      split
      · exact .same
      · split
        · exact .same
        · rename_i c hc
          show Rebinds l a c.scopes
          rcases Context.scopes_declare hc with h | ⟨hnone, text, h⟩ <;> rw [h]
          · exact .same
          · exact .default hnone
  | setVariable target name value =>
      rw [performLeaf]
      split
      · exact .same
      · rename_i v hv
        have hsame := Context.scopes_requestWrite l.context name
        unfold Context.write
        cases hreq : l.context.requestWrite name with
        | mk granted c =>
            rw [hreq] at hsame
            cases granted with
            | false => exact rebinds_of_same hsame
            | true =>
                have hbound : (c.bind target name v).scopes =
                    (l.context.bind target name v).scopes := by
                  cases target
                  · exact congrArg (·.modifyTop (·.setVar name v)) hsame
                  · exact congrArg (·.modifyRoot (·.setVar name v)) hsame
                show Rebinds l a (c.bind target name v).scopes
                rw [hbound]
                exact .bind hd hv (by rw [hreq])
  | unsetVariable name => exact .unset hd
  | setEnv name value =>
      rw [performLeaf]
      split
      · exact .same
      · exact .override
  | unsetEnv name => exact .override
  | timer period children cancel =>
      rw [performLeaf]
      split
      · exact .same
      · split <;> exact .same
  | shutdown reason =>
      rw [performLeaf]
      split
      · exact .same
      · rename_i reason _
        have hask := (aside_requestShutdown l reason false).scopes
        split
        · rename_i h
          rw [h] at hask
          exact rebinds_of_same hask
        · rename_i h
          rw [h] at hask
          exact rebinds_of_same hask
  | register | unregister | emit | group | splice | compute => exact .same

/-- So it changes the innermost scope, unless it removes a variable or writes one in the root. -/
theorem shelters_performLeaf (l : Launch) (seq : Nat) (a : Action) :
    Shelters (fun b k => b = a ∧ k = l) l (l.performLeaf seq a a.deed).1 := by
  have hrebinds := rebinds_performLeaf l seq a
  unfold Shelters
  generalize (l.performLeaf seq a a.deed).1.context.scopes = after at hrebinds ⊢
  cases hrebinds with
  | same => exact .refl _
  | @bind target name value v hd hv hw =>
      cases target with
      | innermost => exact .modifyTop (·.setVar name v) l.context.scopes
      | root =>
          exact (ScopeStack.Spares.modifyRoot
            ⟨a, l, value, ⟨rfl, rfl⟩, hd, hv, hw⟩ l.context.scopes).shelters
  | unset hd => exact (ScopeStack.Spares.unset ⟨a, l, ⟨rfl, rfl⟩, hd⟩ l.context.scopes).shelters
  | default hn => exact .modifyTop _ l.context.scopes
  | override => exact .modifyTop _ l.context.scopes

/-- **Everything that is activated shelters the scopes below the innermost one.** -/
theorem composed_shelters : Composed Shelters where
  mono h hs := ScopeStack.Shelters.mono (fun _ => .mono h) (fun _ _ => .mono h) hs
  trans := ScopeStack.Shelters.trans
  aside h := shelters_of_same h.scopes
  enter _ := shelters_of_same rfl
  leave _ _ := shelters_of_same rfl
  leaf {seq a l} _ := shelters_performLeaf l seq a
  inside _ h := h.truncate.shelters

/-! ## Whatever has a scope of its own -/

/-- Between the two launches the scopes are left as they were, but for variables removed by the
deeds performed and variables of the root written by them. -/
structure Isolates (l : Launch) (performed : Action → Launch → Prop) (m : Launch) : Prop where
  kept : l.context.scopes.Spares (Removes performed) (WritesRoot performed) m.context.scopes
  /-- When no deed removes a variable or writes to the root, every scope is as it was. -/
  untouched : (∀ b k, performed b k → b.deed.StaysLocal) →
    m.context.scopes = l.context.scopes

theorem isolates_of_spares
    (h : l.context.scopes.Spares (Removes performed) (WritesRoot performed) m.context.scopes) :
    l.Isolates performed m := by
  refine ⟨h, fun hplain => h.eq ?_ ?_⟩
  · rintro name ⟨b, k, hp, hd⟩
    exact (hplain b k hp).1 name hd
  · rintro name v ⟨b, k, value, hp, hd, -⟩
    exact (hplain b k hp).2 name value hd

theorem isolates_of_same (h : m.context.scopes = l.context.scopes) : l.Isolates performed m := by
  refine isolates_of_spares ?_
  rw [h]
  exact ⟨.refl _, .refl _⟩

/-- What is done under a further scope is isolated. -/
theorem isolates_under {scope : Scope} (h : Shelters performed (l.inScope scope) m) :
    l.Isolates performed { m with context := m.context.restore l.context.depth } :=
  isolates_of_spares h.truncate

theorem Isolates.same (h : l.Isolates performed m) {l' m' : Launch}
    (hl : l'.context.scopes = l.context.scopes) (hm : m'.context.scopes = m.context.scopes) :
    l'.Isolates performed m' where
  kept := by
    rw [hl, hm]
    exact h.kept
  untouched hplain := by rw [hl, hm, h.untouched hplain]

/-- Whether children that the deed comes to have are given a scope of their own. -/
def GivesScope (d : Deed) : Prop :=
  (∃ bindings children, d = .group bindings children) ∨
    ∃ source arguments required, d = .splice source arguments required

theorem GivesScope.plan_ne_here {d : Deed} (h : GivesScope d) (c : Context)
    (children : List Action) : d.plan c ≠ .here children := by
  have hbound : ∀ bindings own, Plan.bound c bindings own ≠ .here children := by
    intro bindings own
    unfold Plan.bound
    split <;> intro h <;> cases h
  rcases h with ⟨bindings, own, rfl⟩ | ⟨source, arguments, required, rfl⟩
  · exact hbound bindings own
  · rw [Deed.plan]
    cases source.load c with
    | actions own => exact hbound arguments own
    | interrupt => exact hbound arguments []
    | failure e =>
        intro h
        cases h

theorem isolates_perform {a : Action} (ha : l.Admits a m) (hscope : GivesScope a.deed)
    (seq : Nat) : m.Isolates (Reaches a l) (perform seq a a.deed m).1 := by
  have hleaf : a.deed.isLeaf = false := by
    rcases hscope with ⟨bindings, children, h⟩ | ⟨source, arguments, required, h⟩ <;> rw [h] <;> rfl
  have hasked := (aside_asked m a.deed).scopes
  rw [perform_eq, if_neg (by rw [hleaf]; exact Bool.false_ne_true), ofChildren_fst]
  cases hplan : a.deed.plan m.context with
  | direct => exact isolates_of_same hasked
  | refused e => exact isolates_of_same hasked
  | here children => exact absurd hplan (hscope.plan_ne_here m.context children)
  | inside scope children =>
      have hopens : m.opens a.deed =
          some (children, (m.asked a.deed).beginGroup.inScope scope) := by rw [opens, hplan]
      have hchildren := composed_shelters.mono (fun b k h => Reaches.child ha hopens h)
        (composed_shelters.activateChildren children _)
      rw [follow, asGroup_eq]
      exact (isolates_under hchildren).same hasked.symm (aside_endGroup _ _).scopes

/-- A group or a source leaves the scopes as they were. -/
theorem isolates_activate {a : Action} (hscope : GivesScope a.deed) (l : Launch) :
    l.Isolates (Reaches a l) (activate a l).1 := by
  have hgate := (aside_gate (l.enter a).2 l.journal.size a).scopes
  rw [activate_eq]
  cases hadmits : (l.enter a).2.gate l.journal.size a with
  | mk m refused =>
      rw [hadmits] at hgate
      cases refused with
      | some outcome => exact isolates_of_same hgate
      | none =>
          exact (isolates_perform hadmits hscope _).same hgate.symm (aside_settle _ _ _).scopes

/-- So does a body that is activated under saved bindings. -/
theorem isolates_activateBody (cause : BodyCause) (as : List Action) (scope : Scope) (l : Launch) :
    l.Isolates (BodyReaches as ((l.happen (.began cause as (some scope))).inScope scope))
      (activateBody cause as (some scope) l) := by
  have hbody := composed_shelters.activateAll as
    ((l.happen (.began cause as (some scope))).inScope scope)
  exact (isolates_under hbody).same rfl rfl

/-- **Scopes are left as they were.** An activation does not change their number. A group, a
source and a body under saved bindings change nothing in them but for variables that a deed
performed in their course removes, and variables of the root that one writes; when no deed does
so, they change nothing. -/
theorem scopes_isolated (l : Launch) :
    (∀ a, (activate a l).1.context.depth = l.context.depth) ∧
    (∀ a, GivesScope a.deed → l.Isolates (Reaches a l) (activate a l).1) ∧
    ∀ cause as scope,
      l.Isolates (BodyReaches as ((l.happen (.began cause as (some scope))).inScope scope))
        (activateBody cause as (some scope) l) :=
  ⟨fun a => (composed_shelters.activate a l).depth, fun _ hscope => isolates_activate hscope l,
    fun cause as scope => isolates_activateBody cause as scope l⟩

/-- A group that binds, sets and overrides before it fails. -/
def busyGroup : Action :=
  .mk ⟨1⟩ none (.group [("x", [.text "1"])]
    [.mk ⟨2⟩ none (.setVariable .innermost "x" (.text [.text "2"])),
      .mk ⟨3⟩ none (.setEnv "LANG" [.text "C"]),
      .mk ⟨4⟩ none (.splice (.file "missing" fun _ => .actions []) [] true)])

/-- It leaves the variable of the launch as it was passed. -/
theorem busyGroup_leaves_scopes :
    GivesScope busyGroup.deed ∧
    (∀ b k, Reaches busyGroup (start .standard .bare [("x", "0")]) b k → b.deed.StaysLocal) ∧
    (activate busyGroup (start .standard .bare [("x", "0")])).1.context.scopes =
      (start .standard .bare [("x", "0")]).context.scopes := by
  have hscope : GivesScope busyGroup.deed := .inl ⟨_, _, rfl⟩
  have hevery : busyGroup.Every Deed.StaysLocal := by
    simp [busyGroup, Action.Every, Deed.Every, Source.Every, Yield.Every, everyDeed,
      Deed.StaysLocal]
  have hlocal : ∀ b k, Reaches busyGroup (start .standard .bare [("x", "0")]) b k →
      b.deed.StaysLocal := fun b k h => h.every hevery
  exact ⟨hscope, hlocal, ((scopes_isolated _).2.1 busyGroup hscope).untouched hlocal⟩

end Launch

end Conductor
