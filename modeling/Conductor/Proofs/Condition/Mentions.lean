import Conductor.Proofs.Condition.Failure

/-!
# The names that evaluation reads

A template mentions names of variables and of environment variables, anywhere in it: also in
defaults, in the lines of shell commands and in templates inside it. A condition mentions what its
templates mention. Two surroundings that agree on the names mentioned and on shell commands are the
same to a template (`Template.resolve_of_agree`) and to a condition (`Condition.inquiry_of_agree`),
however they differ otherwise; so two contexts are that have the same texts and environment values
for these names, of whatever depth they are and whatever else is bound in them.
-/

namespace Conductor

/-- A name that a template asks for. -/
inductive Mention where
  | var (name : String)
  | env (name : String)
  deriving DecidableEq, Repr

mutual

/-- The names that occur anywhere in a fragment. -/
def Fragment.mentions : Fragment → List Mention
  | .text _ => []
  | .var n => [.var n]
  | .varOr n d => .var n :: Template.mentions d
  | .env n => [.env n]
  | .envOr n d => .env n :: Template.mentions d
  | .command line => Template.mentions line
  | .concat parts => Template.mentions parts

/-- The names that occur anywhere in a template. -/
def Template.mentions : List Fragment → List Mention
  | [] => []
  | f :: r => Fragment.mentions f ++ Template.mentions r

end

/-- The names that occur anywhere in a condition. -/
def Condition.mentions (p : Condition) : List Mention :=
  p.templates.flatMap Template.mentions

/-- Both surroundings say the same of these names and of all shell commands. -/
structure Surroundings.Agree (s s' : Surroundings) (ms : List Mention) : Prop where
  lookup : ∀ n, .var n ∈ ms → s.lookup n = s'.lookup n
  env : ∀ n, .env n ∈ ms → s.env n = s'.env n
  command : ∀ line, s.command line = s'.command line

variable {s s' : Surroundings}

theorem Surroundings.Agree.mono {ms ns : List Mention} (h : s.Agree s' ms) (hns : ns ⊆ ms) :
    s.Agree s' ns :=
  ⟨fun n hn => h.lookup n (hns hn), fun n hn => h.env n (hns hn), h.command⟩

namespace Fragment

variable {f : Fragment}

/-- Whatever is gone into, its names occur in the fragment. -/
theorem mentions_inside_subset (s : Surroundings) (f : Fragment) :
    Template.mentions (f.inside s) ⊆ f.mentions := by
  intro m hm
  cases f with
  | text | var | env => cases hm
  | varOr | envOr =>
      rw [inside] at hm
      split at hm
      · cases hm
      · exact List.mem_cons_of_mem _ hm
  | command | concat => exact hm

theorem inside_of_agree (h : s.Agree s' f.mentions) : f.inside s = f.inside s' := by
  cases f with
  | varOr n d => rw [inside, inside, h.lookup n List.mem_cons_self]
  | envOr n d => rw [inside, inside, h.env n List.mem_cons_self]
  | text | var | env | command | concat => rfl

theorem finish_of_agree (h : s.Agree s' f.mentions) (inner : String) :
    f.finish s inner = f.finish s' inner := by
  cases f with
  | var n | varOr n => rw [finish, finish, h.lookup n List.mem_cons_self]
  | env n | envOr n => rw [finish, finish, h.env n List.mem_cons_self]
  | command line => rw [finish, finish, h.command]
  | text | concat => rfl

end Fragment

namespace Template

variable {t : Template}

/-- **A template reads the names that it mentions, and no others.** -/
theorem resolve_of_agree (h : s.Agree s' (mentions t)) :
    Template.resolve s t = Template.resolve s' t := by
  induction t using inside_induction (s := s) with
  | nil => rfl
  | cons f r ihf ihr =>
      have hf : s.Agree s' f.mentions := h.mono (List.subset_append_left _ _)
      have hr : s.Agree s' (mentions r) := h.mono (List.subset_append_right _ _)
      have hinside : s.Agree s' (mentions (f.inside s)) :=
        hf.mono (Fragment.mentions_inside_subset s f)
      have hfragment : Fragment.resolve s f = Fragment.resolve s' f := by
        simp only [Fragment.resolve_eq, ← Fragment.inside_of_agree hf, ihf hinside,
          Fragment.finish_of_agree hf]
      rw [resolve_cons, resolve_cons, hfragment, ihr hr]

end Template

namespace Condition

theorem Atom.answer_of_agree {a : Atom}
    (h : ∀ t ∈ a.templates, s.Agree s' (Template.mentions t)) : a.answer s' = a.answer s := by
  have hoperand : ∀ t ∈ a.templates, resolveOperand s' t = resolveOperand s t := by
    intro t ht
    rw [resolveOperand, resolveOperand, Template.resolve_of_agree (h t ht)]
  cases a with
  | truth t => rw [answer, answer, hoperand t List.mem_cons_self]
  | equality a b =>
      rw [answer, answer, compareOperands, compareOperands, hoperand a List.mem_cons_self,
        hoperand b (List.mem_cons_of_mem _ List.mem_cons_self)]

/-- **A condition reads the names that it mentions, and no others.** -/
theorem inquiry_of_agree {p : Condition} (h : s.Agree s' p.mentions) :
    p.inquiry s' = p.inquiry s := by
  apply inquiry_congr
  intro a ha
  apply Atom.answer_of_agree
  intro t ht
  apply h.mono
  intro m hm
  have hmem : t ∈ p.templates := List.mem_flatMap.mpr ⟨a, mem_atoms_of_mem_visits ha, ht⟩
  exact List.mem_flatMap.mpr ⟨t, hmem, hm⟩

end Condition

namespace Context

/-- Contexts in which variables have the same texts and environment variables the same values. -/
theorem agree_surroundings {c c' : Context} {ms : List Mention}
    (htext : ∀ n, .var n ∈ ms → c.text n = c'.text n)
    (henv : ∀ n, .env n ∈ ms → c.env n = c'.env n)
    (hcommand : ∀ line, c.host.command line = c'.host.command line) :
    c.surroundings.Agree c'.surroundings ms := by
  refine ⟨fun n hn => ?_, henv, hcommand⟩
  have h := htext n hn
  show (c.lookup n).map Value.toText = (c'.lookup n).map Value.toText
  unfold text at h
  cases hv : c.lookup n with
  | none =>
      cases hv' : c'.lookup n with
      | none => rfl
      | some v' =>
          rw [hv, hv'] at h
          cases h
  | some v =>
      cases hv' : c'.lookup n with
      | none =>
          rw [hv, hv'] at h
          cases h
      | some v' =>
          rw [hv, hv'] at h
          exact congrArg some (Except.ok.inj h)

/-- **Evaluation depends only on the names mentioned.** Two contexts, of any depth and shape, that
give the same text for every variable and the same value for every environment variable occurring
anywhere in a template, resolve it to the same text or fail by the same error; so they do with a
condition. What a shell command comes to depends on its line alone. -/
theorem evaluation_reads_mentions (c c' : Context)
    (hcommand : ∀ line, c.host.command line = c'.host.command line) :
    (∀ t : Template, (∀ n, .var n ∈ Template.mentions t → c.text n = c'.text n) →
        (∀ n, .env n ∈ Template.mentions t → c.env n = c'.env n) → c.resolve t = c'.resolve t) ∧
      ∀ p : Condition, (∀ n, .var n ∈ p.mentions → c.text n = c'.text n) →
        (∀ n, .env n ∈ p.mentions → c.env n = c'.env n) → c.decide p = c'.decide p := by
  constructor
  · intro t htext henv
    rw [resolve, resolve, Template.resolve_of_agree (agree_surroundings htext henv hcommand)]
  · intro p htext henv
    have hinquiry := Condition.inquiry_of_agree (agree_surroundings htext henv hcommand)
    rw [decide, decide, ← Condition.answer_inquiry, ← Condition.answer_inquiry, hinquiry]

/-- A variable with a default that names another one, an environment variable and a command. -/
def signature : Template :=
  [.varOr "who" [.var "user"], .env "HOME", .concat [.command [.text "id"]]]

/-- The one is the root with an argument passed to it, on a machine that sets the variable. -/
def plainContext : Context :=
  (start { Host.bare with environment := .ofList [("HOME", "/root")] }).pass "who" "ana"

/-- The other is a scope above the root, which binds structured data and overrides the environment,
while a shutdown is under way. -/
def nestedContext : Context :=
  { (start .bare).push ⟨.ofList [("who", .structured (.str "ana")), ("x", .text "1")],
      .ofList [("HOME", some "/root")]⟩ with shuttingDown := true }

theorem signature_reads_mentions : plainContext.depth ≠ nestedContext.depth ∧
    plainContext.lookup "x" ≠ nestedContext.lookup "x" ∧
      plainContext.resolve signature = nestedContext.resolve signature ∧
        plainContext.decide (.not (.equal signature [.var "who"])) =
          nestedContext.decide (.not (.equal signature [.var "who"])) := by
  have hvars : ∀ n, n = "who" ∨ n = "user" → plainContext.text n = nestedContext.text n := by
    rintro n (rfl | rfl) <;> rfl
  have henv : ∀ n, n = "HOME" → plainContext.env n = nestedContext.env n := by
    rintro n rfl
    rfl
  obtain ⟨htemplate, hcondition⟩ :=
    evaluation_reads_mentions plainContext nestedContext fun _ => rfl
  refine ⟨by decide, nofun, htemplate signature (fun n hn => hvars n ?_) fun n hn => henv n ?_,
    hcondition _ (fun n hn => hvars n ?_) fun n hn => henv n ?_⟩
  · simpa [signature, Template.mentions, Fragment.mentions] using hn
  · simpa [signature, Template.mentions, Fragment.mentions] using hn
  · simp [signature, Condition.mentions, Condition.templates, Condition.atoms,
      Condition.Atom.templates, Template.mentions, Fragment.mentions] at hn
    tauto
  · simpa [signature, Condition.mentions, Condition.templates, Condition.atoms,
      Condition.Atom.templates, Template.mentions, Fragment.mentions] using hn

end Context

end Conductor
