import Conductor.Context

/-!
# Declarations

A declaration may find its name in the table of arguments. It repeats the entry if the defaults
are equal, else it contradicts it. What the table and the scopes are afterwards is read off
`Context.declare_ok_iff`: a declaration that repeats the entry leaves the table alone, any other
one is entered. Only a declaration that is entered has its choices asked: then the value that is
visible under the name is one of them.
-/

namespace Conductor

namespace ScopeStack

/-- A variable bound in the innermost scope is what a look-up gives. -/
@[simp] theorem lookup_modifyTop_setVar (s : ScopeStack) (n : String) (v : Value) :
    (s.modifyTop (·.setVar n v)).lookup n = some v := by
  obtain ⟨inner, root⟩ := s
  cases inner with
  | nil => simp [modifyTop, lookup, toList, Scope.setVar]
  | cons top rest => simp [modifyTop, lookup, toList, Scope.setVar]

end ScopeStack

/-- The declared arguments, and what decides about them besides: the values passed at launch, and
whether entries are replaced. -/
structure Declared where
  arguments : Table String Argument
  passed : Table String String
  allowRedeclare : Bool

namespace Context

def declared (c : Context) : Declared :=
  ⟨c.arguments, c.passed, c.allowRedeclare⟩

/-- The table has an entry of this name with the same default. -/
def Repeats (c : Context) (a : Argument) : Prop :=
  ∃ old, c.arguments.get? a.name = some old ∧ old.default = a.default

/-- The table has an entry of this name with another default, and entries are not replaced. -/
def Contradicts (c : Context) (a : Argument) : Prop :=
  ∃ old, c.arguments.get? a.name = some old ∧ old.default ≠ a.default ∧ c.allowRedeclare = false

variable {c c' : Context} {a : Argument}

theorem repeats_eq_true (h : c.Repeats a) : c.repeats a = .ok true := by
  obtain ⟨old, hold, hsame⟩ := h
  simp [repeats, hold, hsame]

theorem repeats_eq_false (hrepeats : ¬ c.Repeats a) (hcontradicts : ¬ c.Contradicts a) :
    c.repeats a = .ok false := by
  unfold repeats
  split
  · rfl
  · rename_i old hold
    have hother : old.default ≠ a.default := fun hsame => hrepeats ⟨old, hold, hsame⟩
    rw [if_neg hother]
    cases hkeeps : c.allowRedeclare with
    | true => rfl
    | false => exact absurd ⟨old, hold, hother, hkeeps⟩ hcontradicts

/-! ## The default -/

@[simp] theorem declared_bindDefault (c : Context) (a : Argument) :
    (c.bindDefault a).declared = c.declared := by
  unfold bindDefault
  split <;> rfl

@[simp] theorem arguments_bindDefault (c : Context) (a : Argument) :
    (c.bindDefault a).arguments = c.arguments :=
  congrArg Declared.arguments (declared_bindDefault c a)

/-- Afterwards the visible value, if there is one, is the effective value of the argument. -/
theorem toText_lookup_bindDefault (c : Context) (a : Argument) :
    ((c.bindDefault a).lookup a.name).map Value.toText = c.effective a := by
  unfold bindDefault effective
  split
  · rename_i d hnone hdefault
    rw [hnone, hdefault]
    simp [lookup, bind, Value.toText]
  · rename_i hnot
    cases hv : c.lookup a.name with
    | some v => rfl
    | none =>
        cases hd : a.default with
        | none => rfl
        | some d => exact absurd hd (hnot d hv)

/-! ## What a declaration does -/

theorem declare_of_repeats (h : c.Repeats a) : c.declare a = .ok (c.bindDefault a) := by
  unfold declare
  rw [repeats_eq_true h]

/-- A declaration that contradicts the entry is refused with both defaults in the error. -/
theorem declare_of_contradicts {old : Argument} (hold : c.arguments.get? a.name = some old)
    (hother : old.default ≠ a.default) (hkeeps : c.allowRedeclare = false) :
    c.declare a = .error (.duplicateArgument a.name old.default a.default) := by
  simp [declare, repeats, hold, hother, hkeeps]

theorem declare_of_forbidden {v : String} (hrepeats : ¬ c.Repeats a)
    (hcontradicts : ¬ c.Contradicts a) (h : c.forbidden? a = some v) :
    c.declare a = .error (.invalidArgument a.name v a.choices) := by
  unfold declare
  rw [repeats_eq_false hrepeats hcontradicts]
  simp only [h]

/-- The context in which an argument has been entered into the table. -/
def enter (c : Context) (a : Argument) : Context :=
  { c.bindDefault a with arguments := c.arguments.insert a.name a }

theorem declare_of_new (hrepeats : ¬ c.Repeats a) (hcontradicts : ¬ c.Contradicts a)
    (h : c.forbidden? a = none) : c.declare a = .ok (c.enter a) := by
  unfold declare
  rw [repeats_eq_false hrepeats hcontradicts]
  simp only [h, arguments_bindDefault]
  rfl

/-- A declaration is accepted if it repeats the entry, or if it does not contradict it and the
effective value is one of its choices. -/
theorem declare_ok_iff : c.declare a = .ok c' ↔
    (c.Repeats a ∧ c' = c.bindDefault a) ∨
      (¬ c.Repeats a ∧ ¬ c.Contradicts a ∧ c.forbidden? a = none ∧ c' = c.enter a) := by
  constructor
  · intro h
    by_cases hrepeats : c.Repeats a
    · rw [declare_of_repeats hrepeats] at h
      exact .inl ⟨hrepeats, (Except.ok.inj h).symm⟩
    · by_cases hcontradicts : c.Contradicts a
      · obtain ⟨old, hold, hother, hkeeps⟩ := hcontradicts
        rw [declare_of_contradicts hold hother hkeeps] at h
        cases h
      · cases hforbidden : c.forbidden? a with
        | some v =>
            rw [declare_of_forbidden hrepeats hcontradicts hforbidden] at h
            cases h
        | none =>
            rw [declare_of_new hrepeats hcontradicts hforbidden] at h
            exact .inr ⟨hrepeats, hcontradicts, rfl, (Except.ok.inj h).symm⟩
  · rintro (⟨hrepeats, rfl⟩ | ⟨hrepeats, hcontradicts, hforbidden, rfl⟩)
    · exact declare_of_repeats hrepeats
    · exact declare_of_new hrepeats hcontradicts hforbidden

/-! ## Choices -/

theorem allows_iff (h : a.choices ≠ []) (v : String) : a.allows v = true ↔ v ∈ a.choices := by
  cases hchoices : a.choices with
  | nil => exact absurd hchoices h
  | cons => simp [Argument.allows, hchoices]

theorem forbidden?_eq_none_iff (h : a.choices ≠ []) :
    c.forbidden? a = none ↔ ∀ v, c.effective a = some v → v ∈ a.choices := by
  simp [forbidden?, Option.filter_eq_none_iff, allows_iff h]

/-- A declaration with choices that does not repeat the entry of its name is accepted only if the
value then visible is one of the choices; if it contradicts nothing, it is refused with the value
and the choices in the error as soon as the effective value is none of them. -/
theorem new_declaration_enforces_choices (c : Context) (a : Argument) (hchoices : a.choices ≠ [])
    (hnew : ∀ old, c.arguments.get? a.name = some old → old.default ≠ a.default) :
    (∀ c' v, c.declare a = .ok c' → c'.lookup a.name = some v → v.toText ∈ a.choices) ∧
      ∀ v, ¬ c.Contradicts a → c.effective a = some v → v ∉ a.choices →
        c.declare a = .error (.invalidArgument a.name v a.choices) := by
  have hrepeats : ¬ c.Repeats a := fun ⟨old, hold, hsame⟩ => hnew old hold hsame
  constructor
  · intro c' v haccepted hv
    rcases declare_ok_iff.mp haccepted with ⟨h, -⟩ | ⟨-, -, hforbidden, rfl⟩
    · exact absurd h hrepeats
    · have heffective : c.effective a = some v.toText := by
        rw [← toText_lookup_bindDefault, show (c.bindDefault a).lookup a.name = some v from hv]
        rfl
      exact (forbidden?_eq_none_iff hchoices).mp hforbidden _ heffective
  · intro v hcontradicts heffective hv
    refine declare_of_forbidden hrepeats hcontradicts ?_
    have hnot : a.allows v = false :=
      Bool.eq_false_iff.mpr fun h => hv ((allows_iff hchoices v).mp h)
    simp [forbidden?, heffective, hnot]

/-- The argument of a mode that is safe unless something else is passed. -/
def mode (choices : List String) : Argument :=
  ⟨"mode", some "safe", none, choices⟩

/-- The value passed is not among the choices of the mode, and the default is. -/
theorem mode_enforces_choices :
    ((start .bare).pass "mode" "fast").declare (mode ["safe", "debug"]) =
        .error (.invalidArgument "mode" "fast" ["safe", "debug"]) ∧
      ∃ c' v, (start .bare).declare (mode ["safe", "debug"]) = .ok c' ∧
        c'.lookup "mode" = some v ∧ v.toText ∈ ["safe", "debug"] := by
  have hnone : ∀ old, ((start .bare).pass "mode" "fast").arguments.get? "mode" = some old →
      old.default ≠ some "safe" := fun _ h => by cases h
  have hcontradicts : ¬ ((start .bare).pass "mode" "fast").Contradicts (mode ["safe", "debug"]) :=
    fun ⟨_, h, _⟩ => by cases h
  refine ⟨(new_declaration_enforces_choices _ (mode ["safe", "debug"]) (by simp [mode]) hnone).2
    "fast" hcontradicts (by rfl) (by decide), ?_⟩
  have haccepted : (start .bare).declare (mode ["safe", "debug"]) =
      .ok ((start .bare).enter (mode ["safe", "debug"])) := by rfl
  have hbound : ((start .bare).enter (mode ["safe", "debug"])).lookup "mode" =
      some (.text "safe") := by rfl
  exact ⟨_, _, haccepted, hbound, (new_declaration_enforces_choices _ _ (by simp [mode])
    (fun _ h => by cases h)).1 _ _ haccepted hbound⟩

/-- It is not so for every declaration: one that gives choices to an argument declared without
any repeats its default, and binds a value that is none of the choices. -/
theorem not_every_declaration_enforces_choices :
    ¬ ∀ (first second : Argument) (c c' : Context) (v : Value),
      (start .bare).declare first = .ok c → c.declare second = .ok c' → second.choices ≠ [] →
        c'.lookup second.name = some v → v.toText ∈ second.choices := by
  intro hevery
  have hbad := hevery (mode []) (mode ["debug"]) _ _ (.text "safe") rfl rfl (by simp [mode]) rfl
  exact absurd hbad (by decide)

end Context

end Conductor
