import Conductor.Proofs.Launch.Accounts
import Conductor.Proofs.Launch.Spans
import Conductor.Proofs.Launch.Writers

/-!
# Declarations

A deed that declares an argument is accepted or refused (`Launch.Accepts`), and one that is
accepted is entered into the table or repeats what is there (`Launch.Enters`). Nothing else has an
effect on the table: `Tabulates` says so of deeds, of activations and of their halves
(`divisible_tabulates`).
-/

namespace Conductor

namespace Context

theorem declared_write (c : Context) (target : Target) (name : String) (v : Value) :
    (c.write target name v).2.declared = c.declared := by
  obtain ⟨scopes, turn, h⟩ := c.write_eq_rebind target name v
  rw [h]
  rfl

end Context

namespace Launch

variable {l m n k : Launch} {a : Action} {d : Argument} {P Q : Action → Launch → Prop}

/-- The argument that stands in the table under a name. -/
def argument? (l : Launch) (name : String) : Option Argument :=
  l.context.arguments.get? name

/-- The deed of the action declares the argument. -/
def Declares (k : Launch) (a : Action) (d : Argument) : Prop :=
  ∃ t, a.deed = .declare t ∧ t.resolve k.context = .ok d

/-- The deed of the action declares the argument, and the declaration is accepted. -/
def Accepts (k : Launch) (a : Action) (d : Argument) : Prop :=
  k.Declares a d ∧ ∃ c, k.context.declare d = .ok c

/-- The declaration is accepted, and it is the first one of its name, or the entry of its name has
another default. -/
def Enters (k : Launch) (a : Action) (d : Argument) : Prop :=
  k.Accepts a d ∧ ∀ old, k.argument? d.name = some old → old.default ≠ d.default

theorem argument?_of_declared (h : m.context.declared = l.context.declared) (name : String) :
    m.argument? name = l.argument? name :=
  congrArg (fun c => c.arguments.get? name) h

theorem Declares.isLeaf (h : k.Declares a d) : a.deed.isLeaf = true := by
  obtain ⟨t, ht, -⟩ := h
  rw [ht]
  rfl

theorem Enters.not_repeats (h : k.Enters a d) : ¬ k.context.Repeats d :=
  fun ⟨old, hold, hsame⟩ => h.2 old hold hsame

/-- Where entries are not replaced, only the first declaration of a name is entered. -/
theorem Enters.argument?_eq_none (h : k.Enters a d) (hkeeps : k.context.allowRedeclare = false) :
    k.argument? d.name = none := by
  obtain ⟨⟨-, c, hc⟩, hother⟩ := h
  rcases Context.declare_ok_iff.mp hc with ⟨⟨old, hold, hsame⟩, -⟩ | ⟨-, hcontradicts, -⟩
  · exact absurd hsame (hother old hold)
  · cases hentry : k.argument? d.name with
    | none => rfl
    | some old => exact absurd ⟨old, hentry, hother old hentry, hkeeps⟩ hcontradicts

/-! ## How a declaration comes out -/

theorem performLeaf_of_declares (seq : Nat) (h : k.Declares a d) :
    k.performLeaf seq a a.deed = match k.context.declare d with
      | .error e => (k, .error e)
      | .ok context => ({ k with context }, .ok .done) := by
  obtain ⟨t, ht, hd⟩ := h
  rw [ht, performLeaf]
  cases hc : k.context.declare d with
  | error e => simp only [hd, hc]
  | ok c => simp only [hd, hc]

/-- A declaration that is accepted completes. -/
theorem activate_of_accepted {c : Context} (ha : l.Admits a k) (hd : k.Declares a d)
    (hc : k.context.declare d = .ok c) :
    (activate a l).2 = .completed ∧ (activate a l).1.context = c := by
  rw [activate_of_admits ha, perform_eq, if_pos hd.isLeaf, performLeaf_of_declares _ hd, hc]
  exact ⟨rfl, rfl⟩

/-- The activation of the action fails with the error, and no other one is reported. -/
def FailsWith (l : Launch) (a : Action) (e : LaunchError) : Prop :=
  (activate a l).2 = .failed a.deed.escalates e.message ∧
    (activate a l).1.errors = l.errors ++ [e.reported]

/-- A deed that fails on the spot leaves the declared arguments as they were. -/
theorem activate_of_failed {e : LaunchError} (ha : l.Admits a k) (hleaf : a.deed.isLeaf = true)
    (hp : k.performLeaf l.journal.size a a.deed = (k, .error e)) :
    l.FailsWith a e ∧ (activate a l).1.context.declared = k.context.declared := by
  have hact : activate a l =
      leave l.journal.size (k.fail l.journal.size a.deed e) := by
    rw [activate_of_admits ha, perform_eq, if_pos hleaf, hp]
    rfl
  have hentered : k.errors = l.errors := (unfailing_of_cons rfl ha.history).errors
  refine ⟨⟨by rw [hact]; rfl, by rw [hact, errors_fail, hentered]⟩, ?_⟩
  rw [hact]
  exact (aside_fail k l.journal.size a.deed e).declared

theorem activate_of_refused {e : LaunchError} (ha : l.Admits a k) (hd : k.Declares a d)
    (he : k.context.declare d = .error e) :
    l.FailsWith a e ∧ (activate a l).1.context.declared = k.context.declared :=
  activate_of_failed ha hd.isLeaf (by rw [performLeaf_of_declares _ hd, he])

/-- A declaration that contradicts the entry of its name fails with both defaults. -/
theorem failsWith_of_contradicts {old : Argument} (ha : l.Admits a k)
    (hd : k.Declares a d) (hold : k.argument? d.name = some old) (hother : old.default ≠ d.default)
    (hkeeps : k.context.allowRedeclare = false) :
    l.FailsWith a (.duplicateArgument d.name old.default d.default) :=
  (activate_of_refused ha hd (Context.declare_of_contradicts hold hother hkeeps)).1

/-- An activation that is not let through leaves the declared arguments as they were. -/
theorem declared_of_not_admits (h : ∀ m, ¬ l.Admits a m) :
    (activate a l).1.context.declared = l.context.declared := by
  have hgate := (aside_gate (l.enter a).2 l.journal.size a).declared
  cases hout : (l.enter a).2.gate l.journal.size a with
  | mk m refused =>
      cases refused with
      | none => exact absurd hout (h m)
      | some outcome =>
          rw [hout] at hgate
          rw [activate_eq, hout]
          exact hgate

/-- A deed that declares is accepted, or its activation fails and leaves the table alone. -/
theorem accepts_or_failed {t : ArgumentTemplate} (ht : a.deed = .declare t) (ha : l.Admits a k) :
    (∃ d, k.Accepts a d) ∨ (activate a l).2 ≠ .completed ∧
      (activate a l).1.context.declared = k.context.declared := by
  have hleaf : a.deed.isLeaf = true := by rw [ht]; rfl
  cases hd : t.resolve k.context with
  | error e =>
      have hp : k.performLeaf l.journal.size a a.deed = (k, .error e) := by
        rw [ht, performLeaf]
        simp only [hd]
      obtain ⟨⟨hout, -⟩, hdeclared⟩ := activate_of_failed ha hleaf hp
      exact .inr ⟨by rw [hout]; simp, hdeclared⟩
  | ok d =>
      have hdeclares : k.Declares a d := ⟨t, ht, hd⟩
      cases hc : k.context.declare d with
      | ok c => exact .inl ⟨d, hdeclares, c, hc⟩
      | error e =>
          obtain ⟨⟨hout, -⟩, hdeclared⟩ := activate_of_refused ha hdeclares hc
          exact .inr ⟨by rw [hout]; simp, hdeclared⟩

/-- A declaration that is let through completes if and only if it is accepted. -/
theorem completed_iff_accepts {t : ArgumentTemplate} (ht : a.deed = .declare t)
    (ha : l.Admits a k) : (activate a l).2 = .completed ↔ ∃ d, k.Accepts a d := by
  constructor
  · exact fun hout => (accepts_or_failed ht ha).resolve_right fun h => h.1 hout
  · rintro ⟨d, hd, c, hc⟩
    exact (activate_of_accepted ha hd hc).1

/-- A declaration that does not complete leaves the declared arguments as they were. -/
theorem declared_of_not_completed {t : ArgumentTemplate} (ht : a.deed = .declare t)
    (hout : (activate a l).2 ≠ .completed) :
    (activate a l).1.context.declared = l.context.declared := by
  by_cases hadmits : ∃ m, l.Admits a m
  · obtain ⟨m, ha⟩ := hadmits
    rw [← ha.context]
    rcases accepts_or_failed ht ha with ⟨d, hd, c, hc⟩ | ⟨-, hdeclared⟩
    · exact absurd (activate_of_accepted ha hd hc).1 hout
    · exact hdeclared
  · exact declared_of_not_admits fun m ha => hadmits ⟨m, ha⟩

/-- What has been let through is not skipped any more. -/
theorem Admits.not_skipped (ha : l.Admits a m) : (activate a l).2 ≠ .skipped := by
  rw [activate_of_admits ha]
  match perform l.journal.size a a.deed m with
  | (_, .ok .done) => exact nofun
  | (_, .ok .running) => exact nofun
  | (_, .error _) => exact nofun

/-- After a declaration that is accepted there is an entry of its name. -/
theorem Accepts.exists_entry (h : k.Accepts a d) (ha : l.Admits a k) :
    ∃ e, (activate a l).1.argument? d.name = some e := by
  obtain ⟨hd, c, hc⟩ := h
  unfold argument?
  rw [(activate_of_accepted ha hd hc).2]
  rcases Context.declare_ok_iff.mp hc with ⟨⟨old, hold, -⟩, rfl⟩ | ⟨-, -, -, rfl⟩
  · exact ⟨old, by rw [Context.arguments_bindDefault]; exact hold⟩
  · exact ⟨d, by simp [Context.enter]⟩

/-- After one that is entered it is the argument. -/
theorem Enters.entry (h : k.Enters a d) (ha : l.Admits a k) :
    (activate a l).1.argument? d.name = some d := by
  obtain ⟨hd, c, hc⟩ := h.1
  unfold argument?
  rw [(activate_of_accepted ha hd hc).2]
  rcases Context.declare_ok_iff.mp hc with ⟨hrepeats, -⟩ | ⟨-, -, -, rfl⟩
  · exact absurd hrepeats h.not_repeats
  · simp [Context.enter]

/-! ## What has an effect on the table -/

/-- Each entry is the old one, or was entered by one of the deeds that were performed. -/
structure Tabulates (performed : Action → Launch → Prop) (l m : Launch) : Prop where
  passed : m.context.passed = l.context.passed
  allowRedeclare : m.context.allowRedeclare = l.context.allowRedeclare
  entry : ∀ name, m.argument? name = l.argument? name ∨
    ∃ a k d, performed a k ∧ k.Enters a d ∧ d.name = name ∧ m.argument? name = some d

theorem tabulates_of_declared (h : m.context.declared = l.context.declared) : Tabulates P l m where
  passed := congrArg Declared.passed h
  allowRedeclare := congrArg Declared.allowRedeclare h
  entry name := .inl (argument?_of_declared h name)

theorem Tabulates.mono (h : ∀ a k, P a k → Q a k) (hl : Tabulates P l m) : Tabulates Q l m where
  passed := hl.passed
  allowRedeclare := hl.allowRedeclare
  entry name := (hl.entry name).imp_right fun ⟨a, k, d, hk, hd⟩ => ⟨a, k, d, h a k hk, hd⟩

theorem Tabulates.trans (h : Tabulates P l m) (h' : Tabulates P m n) : Tabulates P l n where
  passed := h'.passed.trans h.passed
  allowRedeclare := h'.allowRedeclare.trans h.allowRedeclare
  entry name := by
    rcases h'.entry name with hsame | hnew
    · rw [hsame]
      exact h.entry name
    · exact .inr hnew

/-- What is there stays, unless something is entered under its name. -/
theorem Tabulates.exists_entry {name : String} {d : Argument} (h : Tabulates P l m)
    (hd : l.argument? name = some d) : ∃ e, m.argument? name = some e := by
  rcases h.entry name with hsame | ⟨-, -, e, -, -, -, hnew⟩
  · exact ⟨d, hsame.trans hd⟩
  · exact ⟨e, hnew⟩

/-- A deed without children that declares nothing leaves the declared arguments alone. -/
theorem declared_performLeaf (l : Launch) (seq : Nat) (a : Action) {d : Deed}
    (hd : ∀ t, d ≠ .declare t) :
    (l.performLeaf seq a d).1.context.declared = l.context.declared := by
  cases d with
  | declare t => exact absurd rfl (hd t)
  | execute p onExit =>
      obtain ⟨pending, hc⟩ := context_execute l seq a p onExit
      exact (congrArg Context.declared hc).trans rfl
  | setVariable target name value =>
      rw [performLeaf]
      split
      · rfl
      · rename_i v _
        have hwrite := l.context.declared_write target name v
        split
        · rename_i h
          rw [h] at hwrite
          exact hwrite
        · rename_i h
          rw [h] at hwrite
          exact hwrite
  | shutdown reason =>
      rw [performLeaf]
      split
      · rfl
      · rename_i reason _
        have hask := (aside_requestShutdown l reason false).declared
        split
        · rename_i h
          rw [h] at hask
          exact hask
        · rename_i h
          rw [h] at hask
          exact hask
  | log | setEnv | timer =>
      rw [performLeaf]
      repeat' split
      all_goals rfl
  | _ => rfl

theorem tabulates_performLeaf (l : Launch) (seq : Nat) (a : Action) :
    Tabulates (fun b k => b = a ∧ k = l) l (l.performLeaf seq a a.deed).1 := by
  by_cases hdeed : ∃ t, a.deed = .declare t
  case neg =>
    exact tabulates_of_declared (declared_performLeaf l seq a fun t ht => hdeed ⟨t, ht⟩)
  case pos =>
    obtain ⟨t, ht⟩ := hdeed
    cases hd : t.resolve l.context with
    | error e =>
        rw [ht, performLeaf]
        simp only [hd]
        exact tabulates_of_declared rfl
    | ok d =>
        have hdeclares : l.Declares a d := ⟨t, ht, hd⟩
        rw [performLeaf_of_declares seq hdeclares]
        cases hc : l.context.declare d with
        | error e => exact tabulates_of_declared rfl
        | ok c =>
            rcases Context.declare_ok_iff.mp hc with ⟨-, rfl⟩ | ⟨hrepeats, -, -, rfl⟩
            · exact tabulates_of_declared (l.context.declared_bindDefault d)
            · have hdeclared := l.context.declared_bindDefault d
              have henters : l.Enters a d :=
                ⟨⟨hdeclares, _, hc⟩, fun old hold hsame => hrepeats ⟨old, hold, hsame⟩⟩
              refine ⟨congrArg Declared.passed hdeclared,
                congrArg Declared.allowRedeclare hdeclared, fun name => ?_⟩
              have hinsert : ({ l with context := l.context.enter d } : Launch).argument? name =
                  if name = d.name then some d else l.argument? name :=
                Table.get?_insert _ _ _ _
              split at hinsert
              · exact .inr ⟨a, l, d, ⟨rfl, rfl⟩, henters, ‹name = d.name›.symm, hinsert⟩
              · exact .inl hinsert

/-- **Nothing but accepted declarations has an effect on the table, in activations and their
halves.** -/
theorem divisible_tabulates : Divisible fun P l m => l.Proceeds m ∧ Tabulates P l m where
  mono h hl := ⟨hl.1, hl.2.mono h⟩
  trans h h' := ⟨h.1.trans h'.1, h.2.trans h'.2⟩
  aside h := ⟨h.proceeds, tabulates_of_declared h.declared⟩
  enter a := ⟨divisible_proceeds.enter (P := fun _ _ => False) a, tabulates_of_declared rfl⟩
  leave seq outcome :=
    ⟨divisible_proceeds.leave (P := fun _ _ => False) seq outcome, tabulates_of_declared rfl⟩
  leaf {seq a l} hleaf := ⟨divisible_proceeds.leaf hleaf, tabulates_performLeaf l seq a⟩
  inside _ h := ⟨h.1, h.2.passed, h.2.allowRedeclare, h.2.entry⟩
  proceeds h := h.1
  inScope _ := ⟨proceeds_of_same rfl, tabulates_of_declared rfl⟩
  restore _ := ⟨proceeds_of_same rfl, tabulates_of_declared rfl⟩

end Launch

end Conductor
