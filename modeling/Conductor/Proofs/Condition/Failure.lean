import Conductor.Context
import Conductor.Proofs.Condition.Inquiry

/-!
# When evaluation fails

A condition fails by the error of the last atom that was asked, and all atoms asked before it have a
truth value (`Inquiry.Sound`). So the error of a condition is that of one of its atoms: either one
of its templates could not be resolved, or the text of a template is no truth value. Together with
what `Template.reached` says of templates this settles when the evaluation of templates, lists of
templates and conditions fails, and with which error.
-/

namespace Conductor

namespace Inquiry

open Condition (Atom)

/-- The atoms asked have a truth value. -/
def AllAnswer (s : Surroundings) (visits : List (Atom × Bool)) : Prop :=
  ∀ v ∈ visits, v.2 = true → ∃ b, v.1.answer s = .ok b

/-- The last atom asked fails with this error, and those asked before it have a truth value. -/
def EndsWith (s : Surroundings) (u : Undecided) (visits : List (Atom × Bool)) : Prop :=
  ∃ before a after, visits = before ++ (a, true) :: after ∧ AllAnswer s before ∧
    a.answer s = .error u ∧ ∀ v ∈ after, v.2 = false

/-- An inquiry fails exactly if the last atom asked does. -/
structure Sound (s : Surroundings) (i : Inquiry) : Prop where
  ok : ∀ b, i.answer = .ok b → AllAnswer s i.visits
  error : ∀ u, i.answer = .error u → EndsWith s u i.visits

variable {s : Surroundings} {u : Undecided} {i j : Inquiry} {vs ws : List (Atom × Bool)}

theorem not_asked_of_mem_skipped {v : Atom × Bool} (h : v ∈ i.skipped) : v.2 = false := by
  obtain ⟨a, -, rfl⟩ := List.mem_map.mp h
  rfl

theorem AllAnswer.append (hvs : AllAnswer s vs) (hws : AllAnswer s ws) :
    AllAnswer s (vs ++ ws) := by
  intro v hv
  rcases List.mem_append.mp hv with hv | hv
  · exact hvs v hv
  · exact hws v hv

theorem AllAnswer.of_not_asked (h : ∀ v ∈ vs, v.2 = false) : AllAnswer s vs := by
  intro v hv hasked
  rw [h v hv] at hasked
  cases hasked

theorem EndsWith.prepend (hvs : AllAnswer s vs) (hws : EndsWith s u ws) :
    EndsWith s u (vs ++ ws) := by
  obtain ⟨before, a, after, rfl, hbefore, ha, hafter⟩ := hws
  exact ⟨vs ++ before, a, after, (List.append_assoc ..).symm, hvs.append hbefore, ha, hafter⟩

theorem EndsWith.append (hvs : EndsWith s u vs) (hws : ∀ v ∈ ws, v.2 = false) :
    EndsWith s u (vs ++ ws) := by
  obtain ⟨before, a, after, rfl, hbefore, ha, hafter⟩ := hvs
  refine ⟨before, a, after ++ ws, ?_, hbefore, ha, List.forall_mem_append.mpr ⟨hafter, hws⟩⟩
  rw [List.append_assoc, List.cons_append]

/-- The atom is the last one asked. -/
theorem EndsWith.mem (h : EndsWith s u vs) : ∃ a, (a, true) ∈ vs ∧ a.answer s = .error u := by
  obtain ⟨before, a, after, rfl, -, ha, -⟩ := h
  exact ⟨a, List.mem_append_right _ List.mem_cons_self, ha⟩

theorem Sound.ask (s : Surroundings) (a : Atom) : Sound s (ask s a) := by
  constructor
  · intro b hb v hv _
    obtain rfl := List.mem_singleton.mp hv
    exact ⟨b, hb⟩
  · intro u hu
    exact ⟨[], a, [], rfl, List.forall_mem_nil _, hu, List.forall_mem_nil _⟩

theorem Sound.settled (s : Surroundings) (b : Bool) : Sound s (settled b) :=
  ⟨fun _ _ => List.forall_mem_nil _, nofun⟩

theorem Sound.not (h : Sound s i) : Sound s i.not := by
  constructor
  · intro b hb
    rw [← Bool.not_not b, answer_not_eq_ok_iff] at hb
    exact h.ok _ hb
  · intro u hu
    exact h.error u (answer_not_eq_error_iff.mp hu)

theorem Sound.followedBy {b : Bool} (hi : Sound s i) (hj : Sound s j) :
    Sound s (i.followedBy b j) := by
  by_cases hb : i.answer = .ok b
  · rw [followedBy_of_answer hb]
    have hall := hi.ok b hb
    exact ⟨fun a ha => hall.append (hj.ok a ha), fun u hu => .prepend hall (hj.error u hu)⟩
  · rw [followedBy_of_not hb]
    have hskipped : ∀ v ∈ j.skipped, v.2 = false := fun _ => not_asked_of_mem_skipped
    exact ⟨fun a ha => (hi.ok a ha).append (.of_not_asked hskipped),
      fun u hu => (hi.error u hu).append hskipped⟩

theorem Sound.chain {b : Bool} {is : List Inquiry} (h : ∀ i ∈ is, Sound s i) :
    Sound s (chain b is) := by
  induction is with
  | nil => exact .settled s b
  | cons i is ih =>
      obtain ⟨hi, his⟩ := List.forall_mem_cons.mp h
      exact hi.followedBy (ih his)

end Inquiry

namespace Condition

variable {s : Surroundings} {u : Undecided}

/-- **A condition fails exactly if the last atom asked does**, by the same error. -/
theorem sound_inquiry (s : Surroundings) (p : Condition) : (p.inquiry s).Sound s := by
  induction p with
  | holds | equal =>
      rw [inquiry]
      exact .ask s _
  | fails | differ =>
      rw [inquiry]
      exact .not (.ask s _)
  | all cs ih =>
      rw [inquiry_all]
      exact .chain (List.forall_mem_map.mpr ih)
  | any cs ih =>
      rw [inquiry_any]
      exact .chain (List.forall_mem_map.mpr ih)
  | not c ih =>
      rw [inquiry_not]
      exact .not ih

theorem endsWith_of_evaluate_error {p : Condition} (h : p.evaluate s = .error u) :
    Inquiry.EndsWith s u (p.inquiry s).visits :=
  (sound_inquiry s p).error u (by rw [answer_inquiry, h])

/-- The templates of a condition, in order. -/
def templates (p : Condition) : List Template :=
  p.atoms.flatMap Atom.templates

theorem resolveOperand_eq_ok_iff {t : Template} {text : String} :
    resolveOperand s t = .ok text ↔ Template.resolve s t = .ok text := by
  unfold resolveOperand
  cases Template.resolve s t <;> simp

theorem resolveOperand_eq_error_iff {t : Template} :
    resolveOperand s t = .error u ↔ ∃ e, Template.resolve s t = .error e ∧ u = .unresolved e := by
  unfold resolveOperand
  cases Template.resolve s t <;> simp [eq_comm]

/-- A template leaves a condition without truth value: it cannot be resolved, or its text spells
neither true nor false. -/
def Blames (s : Surroundings) (u : Undecided) (t : Template) : Prop :=
  (∃ e, Template.resolve s t = .error e ∧ u = .unresolved e) ∨
    ∃ text, Template.resolve s t = .ok text ∧ truthValue text = .error u

theorem compareOperands_eq_error_iff {l r : Template} : compareOperands s l r = .error u ↔
    resolveOperand s l = .error u ∨
      (∃ text, resolveOperand s l = .ok text) ∧ resolveOperand s r = .error u := by
  unfold compareOperands
  cases resolveOperand s l with
  | error e => simp
  | ok x => cases resolveOperand s r <;> simp

theorem answer_truth_eq_error_iff {t : Template} : (Atom.truth t).answer s = .error u ↔
    resolveOperand s t = .error u ∨
      ∃ text, resolveOperand s t = .ok text ∧ truthValue text = .error u := by
  rw [Atom.answer]
  cases resolveOperand s t <;> simp [Except.bind]

theorem Atom.exists_blames {a : Atom} (h : a.answer s = .error u) :
    ∃ t ∈ a.templates, Blames s u t := by
  cases a with
  | truth t =>
      refine ⟨t, List.mem_cons_self, ?_⟩
      rcases answer_truth_eq_error_iff.mp h with ht | ⟨text, htext, hword⟩
      · exact .inl (resolveOperand_eq_error_iff.mp ht)
      · exact .inr ⟨text, resolveOperand_eq_ok_iff.mp htext, hword⟩
  | equality l r =>
      rcases compareOperands_eq_error_iff.mp h with hl | ⟨-, hr⟩
      · exact ⟨l, List.mem_cons_self, .inl (resolveOperand_eq_error_iff.mp hl)⟩
      · exact ⟨r, List.mem_cons_of_mem _ List.mem_cons_self,
          .inl (resolveOperand_eq_error_iff.mp hr)⟩

/-- **The error of a condition is that of one of its templates.** -/
theorem exists_blames {p : Condition} (h : p.evaluate s = .error u) :
    ∃ t ∈ p.templates, Blames s u t := by
  obtain ⟨a, hasked, ha⟩ := (endsWith_of_evaluate_error h).mem
  obtain ⟨t, ht, hblames⟩ := Atom.exists_blames ha
  exact ⟨t, List.mem_flatMap.mpr ⟨a, mem_atoms_of_mem_visits hasked, ht⟩, hblames⟩

end Condition

namespace Context

variable {c : Context} {u : Unresolved}

theorem resolve_eq_ok_iff {t : Template} {text : String} :
    c.resolve t = .ok text ↔ Template.resolve c.surroundings t = .ok text := by
  unfold resolve
  cases Template.resolve c.surroundings t <;> simp

theorem resolve_eq_error_iff {t : Template} {e : LaunchError} : c.resolve t = .error e ↔
    ∃ u, e = .substitution u ∧ Template.resolve c.surroundings t = .error u := by
  unfold resolve
  cases Template.resolve c.surroundings t <;> simp [eq_comm]

theorem resolveAll_eq_error_iff {ts : List Template} {e : LaunchError} :
    c.resolveAll ts = .error e ↔ Leftmost (fun t => ∃ text, c.resolve t = .ok text)
      (fun t => c.resolve t = .error e) ts := by
  have hall : c.resolveAll ts = .error e ↔
      ∃ u, e = .substitution u ∧ Template.resolveAll c.surroundings ts = .error u := by
    unfold resolveAll
    cases Template.resolveAll c.surroundings ts <;> simp [eq_comm]
  simp only [hall, Template.resolveAll_eq_error_iff, resolve_eq_ok_iff, resolve_eq_error_iff]
  constructor
  · rintro ⟨u, rfl, before, t, after, heq, hbefore, ht⟩
    exact ⟨before, t, after, heq, hbefore, u, rfl, ht⟩
  · rintro ⟨before, t, after, heq, hbefore, u, rfl, ht⟩
    exact ⟨u, rfl, before, t, after, heq, hbefore, ht⟩

theorem decide_eq_error_iff {p : Condition} {e : LaunchError} : c.decide p = .error e ↔
    ∃ u, e = .condition u ∧ p.evaluate c.surroundings = .error u := by
  unfold decide
  cases p.evaluate c.surroundings <;> simp [eq_comm]

/-- **Evaluation fails at the leftmost failure.** A template has a text exactly if every fragment
that is reached has one, and the text is that of its fragments, joined; otherwise the error is
that of the leftmost fragment reached that fails. A condition that fails does so for one of its
templates, and its error carries the text of that failure. Of several templates the first that has
no text decides the error. -/
theorem evaluation_fails_leftmost (c : Context) :
    (∀ t, ((∃ text, c.resolve t = .ok text) ↔ ∀ f ∈ Template.reached c.surroundings t,
          ∃ text, Fragment.resolve c.surroundings f = .ok text) ∧
        (∀ text, c.resolve t = .ok text ↔ ∃ texts,
          List.Forall₂ (fun f piece => Fragment.resolve c.surroundings f = .ok piece) t texts ∧
            text = String.join texts) ∧
        ∀ e, (c.resolve t = .error e ↔ ∃ u, e = .substitution u ∧
            Leftmost (fun f => ∃ text, Fragment.resolve c.surroundings f = .ok text)
              (fun f => f.Fails c.surroundings u) (Template.reached c.surroundings t)) ∧
          (c.resolve t = .error e → e.kind = "substitution_resolution")) ∧
      (∀ p e, c.decide p = .error e → e.kind = "condition_evaluation" ∧ ∃ t ∈ p.templates,
        (∃ e', c.resolve t = .error e' ∧
          e.message = "condition evaluation failed: " ++ e'.message) ∨
        ∃ text u, c.resolve t = .ok text ∧ truthValue text = .error u ∧ e = .condition u) ∧
      ∀ ts e, c.resolveAll ts = .error e ↔ Leftmost (fun t => ∃ text, c.resolve t = .ok text)
        (fun t => c.resolve t = .error e) ts := by
  simp only [Fragment.resolve_eq_ok_iff]
  refine ⟨fun t => ⟨?_, fun text => ?_, fun e => ⟨?_, fun h => ?_⟩⟩, fun p e h => ?_,
    fun ts e => resolveAll_eq_error_iff⟩
  · simp only [resolve_eq_ok_iff]
    exact Template.exists_resolve_iff
  · rw [resolve_eq_ok_iff]
    exact Template.resolve_eq_ok_iff
  · simp only [resolve_eq_error_iff, Template.resolve_eq_error_iff]
  · obtain ⟨u, rfl, -⟩ := resolve_eq_error_iff.mp h
    rfl
  · obtain ⟨u, rfl, hu⟩ := decide_eq_error_iff.mp h
    obtain ⟨t, ht, hblames⟩ := Condition.exists_blames hu
    refine ⟨rfl, t, ht, ?_⟩
    rcases hblames with ⟨cause, hcause, rfl⟩ | ⟨text, htext, hword⟩
    · exact .inl ⟨.substitution cause, resolve_eq_error_iff.mpr ⟨cause, rfl, hcause⟩, rfl⟩
    · exact .inr ⟨text, u, resolve_eq_ok_iff.mpr htext, hword, rfl⟩

/-- A default that cannot be resolved, before a command that cannot be started. -/
def greeting : Template :=
  [.text "hello ", .varOr "who" [.env "USER"], .command [.text "id"]]

theorem greeting_fails_leftmost :
    (start .bare).resolve greeting = .error (.substitution (.environmentUnset "USER")) ∧
      ((start .bare).pass "who" "ana").resolve greeting = .error (.substitution
        (.commandNotStarted "id" SystemFault.notFound.message)) ∧
      (start .bare).resolveAll [.literal "", greeting, [.var "x"]] =
        .error (.substitution (.environmentUnset "USER")) ∧
      ∃ e, (start .bare).decide (.not (.equal (.literal "") greeting)) = .error e ∧
        e.kind = "condition_evaluation" := by
  obtain ⟨hresolve, hdecide, hall⟩ := evaluation_fails_leftmost (start .bare)
  obtain ⟨hpassed, -, -⟩ := evaluation_fails_leftmost ((start .bare).pass "who" "ana")
  have hgreeting : (start .bare).resolve greeting =
      .error (.substitution (.environmentUnset "USER")) :=
    ((hresolve greeting).2.2 _).1.mpr ⟨_, rfl, [.text "hello "], .env "USER",
      [.varOr "who" [.env "USER"], .text "id", .command [.text "id"]], rfl,
      List.forall_mem_singleton.mpr ⟨"hello ", rfl⟩, "", rfl, rfl⟩
  refine ⟨hgreeting, ?_, ?_, _, rfl, (hdecide (.not (.equal (.literal "") greeting)) _ rfl).1⟩
  · -- With the name set the default is not reached.
    refine ((hpassed greeting).2.2 _).1.mpr ⟨_, rfl,
      [.text "hello ", .varOr "who" [.env "USER"], .text "id"], .command [.text "id"], [], rfl, ?_,
      "id", rfl, rfl⟩
    simp only [List.forall_mem_cons]
    exact ⟨⟨"hello ", rfl⟩, ⟨"ana", rfl⟩, ⟨"id", rfl⟩, List.forall_mem_nil _⟩
  · exact (hall _ _).mpr ⟨[.literal ""], greeting, [[.var "x"]], rfl,
      List.forall_mem_singleton.mpr ⟨"", rfl⟩, hgreeting⟩

end Context

end Conductor
