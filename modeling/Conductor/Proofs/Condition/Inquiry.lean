import Conductor.Condition
import Conductor.Proofs.Template.Resolution

/-!
# Asking a condition

A condition is built from atoms: whether a text spells true, and whether two texts are equal. An
`Inquiry` keeps the answer of a condition together with the list of its atoms, each with whether it
was asked. `Condition.inquiry` walks through a condition and writes this list; the answer it comes
to is that of `Condition.evaluate` (`Condition.answer_inquiry`).

The list says all that the answer depends on: wherever the atoms asked have the same truth values,
or fail in the same way, the same atoms are asked and the answer is the same
(`Condition.inquiry_congr`).
-/

namespace Conductor

/-- A condition without parts, whichever way it is asked. -/
inductive Condition.Atom where
  /-- The text spells true. -/
  | truth (text : Template)
  | equality (left right : Template)

namespace Condition.Atom

/-- The truth value of an atom. -/
def answer (s : Surroundings) : Atom → Except Undecided Bool
  | .truth t => (resolveOperand s t).bind truthValue
  | .equality a b => compareOperands s a b

def templates : Atom → List Template
  | .truth t => [t]
  | .equality a b => [a, b]

end Condition.Atom

/-- What came of asking a condition: its answer, and its atoms, each with whether it was asked. -/
structure Inquiry where
  answer : Except Undecided Bool
  visits : List (Condition.Atom × Bool)

namespace Inquiry

/-- The atom is asked. -/
def ask (s : Surroundings) (a : Condition.Atom) : Inquiry :=
  ⟨a.answer s, [(a, true)]⟩

/-- The answer is known without asking. -/
def settled (b : Bool) : Inquiry :=
  ⟨.ok b, []⟩

def not (i : Inquiry) : Inquiry :=
  ⟨i.answer.map Bool.not, i.visits⟩

def atoms (i : Inquiry) : List Condition.Atom :=
  i.visits.map Prod.fst

/-- What is written of an inquiry that is not made. -/
def skipped (i : Inquiry) : List (Condition.Atom × Bool) :=
  i.atoms.map fun a => (a, false)

/-- Whether this is the answer. -/
def answers (i : Inquiry) (b : Bool) : Bool :=
  match i.answer with
  | .ok a => a = b
  | .error _ => false

/-- The second inquiry is made only if the answer of the first is `b`. -/
def followedBy (b : Bool) (i j : Inquiry) : Inquiry :=
  if i.answers b then ⟨j.answer, i.visits ++ j.visits⟩ else ⟨i.answer, i.visits ++ j.skipped⟩

/-- Inquiries are made as long as the answer is `b`. -/
def chain (b : Bool) (is : List Inquiry) : Inquiry :=
  is.foldr (followedBy b) (settled b)

@[simp] theorem answer_ask (s : Surroundings) (a : Condition.Atom) :
    (ask s a).answer = a.answer s := rfl

@[simp] theorem answer_not (i : Inquiry) : i.not.answer = i.answer.map Bool.not := rfl

variable {b : Bool} {i j k : Inquiry}

@[simp] theorem answers_iff : i.answers b = true ↔ i.answer = .ok b := by
  unfold answers
  split <;> simp_all

theorem answer_not_eq_ok_iff : i.not.answer = .ok (!b) ↔ i.answer = .ok b := by
  rw [answer_not]
  cases i.answer <;> simp [Except.map]

theorem answer_not_eq_error_iff {u : Undecided} :
    i.not.answer = .error u ↔ i.answer = .error u := by
  rw [answer_not]
  cases i.answer <;> simp [Except.map]

theorem followedBy_of_answer (h : i.answer = .ok b) (j : Inquiry) :
    i.followedBy b j = ⟨j.answer, i.visits ++ j.visits⟩ :=
  if_pos (answers_iff.mpr h)

theorem followedBy_of_not (h : i.answer ≠ .ok b) (j : Inquiry) :
    i.followedBy b j = ⟨i.answer, i.visits ++ j.skipped⟩ :=
  if_neg (mt answers_iff.mp h)

theorem chain_cons (b : Bool) (i : Inquiry) (is : List Inquiry) :
    chain b (i :: is) = i.followedBy b (chain b is) := rfl

@[simp] theorem atoms_skipped (i : Inquiry) : i.skipped.map Prod.fst = i.atoms := by
  rw [skipped, List.map_map]
  exact List.map_id _

@[simp] theorem atoms_followedBy (b : Bool) (i j : Inquiry) :
    (i.followedBy b j).atoms = i.atoms ++ j.atoms := by
  by_cases h : i.answer = .ok b
  · rw [followedBy_of_answer h]
    exact List.map_append
  · rw [followedBy_of_not h, atoms, List.map_append, atoms_skipped]
    rfl

theorem atoms_chain (b : Bool) (is : List Inquiry) : (chain b is).atoms = is.flatMap atoms := by
  induction is with
  | nil => rfl
  | cons i is ih => rw [chain_cons, atoms_followedBy, ih, List.flatMap_cons]

/-- Of an inquiry that is not made only the atoms matter. -/
theorem followedBy_congr_of_not (h : i.answer ≠ .ok b) (hatoms : j.atoms = k.atoms) :
    i.followedBy b j = i.followedBy b k := by
  rw [followedBy_of_not h, followedBy_of_not h, skipped, skipped, hatoms]

end Inquiry

namespace Condition

mutual

/-- What comes of asking a condition. -/
def inquiry (s : Surroundings) : Condition → Inquiry
  | .holds t => .ask s (.truth t)
  | .fails t => (Inquiry.ask s (.truth t)).not
  | .equal a b => .ask s (.equality a b)
  | .differ a b => (Inquiry.ask s (.equality a b)).not
  | .all cs => .chain true (inquiries s cs)
  | .any cs => .chain false (inquiries s cs)
  | .not c => (inquiry s c).not

def inquiries (s : Surroundings) : List Condition → List Inquiry
  | [] => []
  | c :: r => inquiry s c :: inquiries s r

end

mutual

/-- The atoms of a condition, in order. -/
def atoms : Condition → List Atom
  | .holds t => [.truth t]
  | .fails t => [.truth t]
  | .equal a b => [.equality a b]
  | .differ a b => [.equality a b]
  | .all cs => atomsOf cs
  | .any cs => atomsOf cs
  | .not c => atoms c

def atomsOf : List Condition → List Atom
  | [] => []
  | c :: r => atoms c ++ atomsOf r

end

/-- The parts of a condition that are conditions. -/
def operands : Condition → List Condition
  | .all cs => cs
  | .any cs => cs
  | .not c => [c]
  | _ => []

mutual

/-- What holds of a condition whenever it holds of its operands holds of every condition. -/
theorem operands_induction {P : Condition → Prop}
    (h : ∀ p : Condition, (∀ q ∈ p.operands, P q) → P p) : ∀ p : Condition, P p
  | .holds _ => h _ (List.forall_mem_nil _)
  | .fails _ => h _ (List.forall_mem_nil _)
  | .equal _ _ => h _ (List.forall_mem_nil _)
  | .differ _ _ => h _ (List.forall_mem_nil _)
  | .all cs => h _ (list_induction h cs)
  | .any cs => h _ (list_induction h cs)
  | .not c => h _ (List.forall_mem_singleton.mpr (operands_induction h c))

theorem list_induction {P : Condition → Prop}
    (h : ∀ p : Condition, (∀ q ∈ p.operands, P q) → P p) : ∀ cs : List Condition, ∀ q ∈ cs, P q
  | [] => List.forall_mem_nil _
  | c :: r => List.forall_mem_cons.mpr ⟨operands_induction h c, list_induction h r⟩

end

@[induction_eliminator]
theorem induction {P : Condition → Prop} (holds : ∀ t, P (.holds t)) (fails : ∀ t, P (.fails t))
    (equal : ∀ a b, P (.equal a b)) (differ : ∀ a b, P (.differ a b))
    (all : ∀ cs, (∀ c ∈ cs, P c) → P (.all cs)) (any : ∀ cs, (∀ c ∈ cs, P c) → P (.any cs))
    (not : ∀ c, P c → P (.not c)) (p : Condition) : P p := by
  apply operands_induction
  intro p ih
  cases p with
  | holds t => exact holds t
  | fails t => exact fails t
  | equal a b => exact equal a b
  | differ a b => exact differ a b
  | all cs => exact all cs ih
  | any cs => exact any cs ih
  | not c => exact not c (ih c List.mem_cons_self)

theorem inquiries_eq_map (s : Surroundings) (cs : List Condition) :
    inquiries s cs = cs.map (inquiry s) := by
  induction cs with
  | nil => rfl
  | cons c r ih => rw [inquiries, ih, List.map_cons]

theorem atomsOf_eq_flatMap (cs : List Condition) : atomsOf cs = cs.flatMap atoms := by
  induction cs with
  | nil => rfl
  | cons c r ih => rw [atomsOf, ih, List.flatMap_cons]

theorem inquiry_all (s : Surroundings) (cs : List Condition) :
    (all cs).inquiry s = .chain true (cs.map (inquiry s)) := by
  rw [inquiry, inquiries_eq_map]

theorem inquiry_any (s : Surroundings) (cs : List Condition) :
    (any cs).inquiry s = .chain false (cs.map (inquiry s)) := by
  rw [inquiry, inquiries_eq_map]

theorem inquiry_not (s : Surroundings) (c : Condition) : (not c).inquiry s = (c.inquiry s).not := by
  rw [inquiry]

end Condition

/-! ## The answer -/

namespace Condition

variable {s : Surroundings}

theorem answer_chain_true {cs : List Condition}
    (h : ∀ c ∈ cs, (c.inquiry s).answer = c.evaluate s) :
    (Inquiry.chain true (cs.map (inquiry s))).answer = evaluateAll s cs := by
  induction cs with
  | nil => rfl
  | cons c r ih =>
      obtain ⟨hc, hr⟩ := List.forall_mem_cons.mp h
      specialize ih hr
      rw [evaluateAll, List.map_cons, Inquiry.chain_cons]
      by_cases htrue : (c.inquiry s).answer = .ok true
      · rw [Inquiry.followedBy_of_answer htrue, ← hc, htrue]
        exact ih
      · rw [Inquiry.followedBy_of_not htrue, ← hc]
        split
        · rename_i heq
          exact absurd heq htrue
        · assumption
        · assumption

theorem answer_chain_false {cs : List Condition}
    (h : ∀ c ∈ cs, (c.inquiry s).answer = c.evaluate s) :
    (Inquiry.chain false (cs.map (inquiry s))).answer = evaluateAny s cs := by
  induction cs with
  | nil => rfl
  | cons c r ih =>
      obtain ⟨hc, hr⟩ := List.forall_mem_cons.mp h
      specialize ih hr
      rw [evaluateAny, List.map_cons, Inquiry.chain_cons]
      by_cases hfalse : (c.inquiry s).answer = .ok false
      · rw [Inquiry.followedBy_of_answer hfalse, ← hc, hfalse]
        exact ih
      · rw [Inquiry.followedBy_of_not hfalse, ← hc]
        split
        · assumption
        · rename_i heq
          exact absurd heq hfalse
        · assumption

theorem answer_truth (s : Surroundings) (t : Template) :
    (Atom.truth t).answer s = (holds t).evaluate s := by
  rw [Atom.answer, evaluate]
  cases resolveOperand s t with
  | error e => rfl
  | ok x => simp only [Except.bind]

/-- **Asking a condition comes to its truth value.** -/
theorem answer_inquiry (p : Condition) : (p.inquiry s).answer = p.evaluate s := by
  induction p with
  | holds t => rw [inquiry, Inquiry.answer_ask, answer_truth]
  | fails t =>
      rw [inquiry, evaluate, Inquiry.answer_not, Inquiry.answer_ask, answer_truth, evaluate]
      cases resolveOperand s t with
      | error e => rfl
      | ok x => simp only
  | equal a b => rw [inquiry, evaluate]; rfl
  | differ a b => rw [inquiry, evaluate]; rfl
  | all cs ih => rw [inquiry_all, evaluate, answer_chain_true ih]
  | any cs ih => rw [inquiry_any, evaluate, answer_chain_false ih]
  | not c ih => rw [inquiry_not, evaluate, Inquiry.answer_not, ih]

/-! ## What the answer depends on -/

/-- Every atom is on the list, whether it was asked or not. -/
theorem atoms_inquiry (s : Surroundings) (p : Condition) : (p.inquiry s).atoms = p.atoms := by
  have hchain : ∀ (b : Bool) {cs : List Condition}, (∀ c ∈ cs, (c.inquiry s).atoms = c.atoms) →
      (Inquiry.chain b (cs.map (inquiry s))).atoms = atomsOf cs := by
    intro b cs h
    rw [Inquiry.atoms_chain, atomsOf_eq_flatMap, List.flatMap_map]
    exact List.flatMap_congr h
  induction p with
  | holds | fails | equal | differ => rw [inquiry]; rfl
  | all cs ih => rw [inquiry_all, atoms, hchain true ih]
  | any cs ih => rw [inquiry_any, atoms, hchain false ih]
  | not c ih => exact ih

theorem mem_atoms_of_mem_visits {p : Condition} {v : Atom × Bool}
    (h : v ∈ (p.inquiry s).visits) : v.1 ∈ p.atoms := by
  rw [← atoms_inquiry s p]
  exact List.mem_map_of_mem h

/-- The atoms asked come out alike in both surroundings. -/
def Alike (s s' : Surroundings) (visits : List (Atom × Bool)) : Prop :=
  ∀ a, (a, true) ∈ visits → a.answer s' = a.answer s

theorem chain_congr {s' : Surroundings} {b : Bool} {cs : List Condition}
    (ih : ∀ c ∈ cs, Alike s s' (c.inquiry s).visits → c.inquiry s' = c.inquiry s)
    (h : Alike s s' (Inquiry.chain b (cs.map (inquiry s))).visits) :
    Inquiry.chain b (cs.map (inquiry s')) = Inquiry.chain b (cs.map (inquiry s)) := by
  induction cs with
  | nil => rfl
  | cons c r ihr =>
      obtain ⟨ihc, ih⟩ := List.forall_mem_cons.mp ih
      rw [List.map_cons, Inquiry.chain_cons] at h
      rw [List.map_cons, List.map_cons, Inquiry.chain_cons, Inquiry.chain_cons]
      by_cases hb : (c.inquiry s).answer = .ok b
      · rw [Inquiry.followedBy_of_answer hb] at h
        have hc := ihc fun a ha => h a (List.mem_append_left _ ha)
        have hr := ihr ih fun a ha => h a (List.mem_append_right _ ha)
        rw [hc, hr]
      · -- The rest is not asked, here or there, so it does not matter how it would come out.
        rw [Inquiry.followedBy_of_not hb] at h
        have hc := ihc fun a ha => h a (List.mem_append_left _ ha)
        rw [hc]
        apply Inquiry.followedBy_congr_of_not hb
        simp only [Inquiry.atoms_chain, List.flatMap_map, atoms_inquiry]

/-- **Only the atoms asked matter.** Wherever they come out alike, the same atoms are asked and the
answer is the same. -/
theorem inquiry_congr {s' : Surroundings} {p : Condition}
    (h : Alike s s' (p.inquiry s).visits) : p.inquiry s' = p.inquiry s := by
  have hask : ∀ a, Alike s s' (Inquiry.ask s a).visits → Inquiry.ask s' a = Inquiry.ask s a := by
    intro a ha
    rw [Inquiry.ask, ha a List.mem_cons_self]
    rfl
  induction p with
  | holds | fails | equal | differ =>
      rw [inquiry] at h
      rw [inquiry, inquiry, hask _ h]
  | all cs ih =>
      rw [inquiry_all] at h
      rw [inquiry_all, inquiry_all, chain_congr ih h]
  | any cs ih =>
      rw [inquiry_any] at h
      rw [inquiry_any, inquiry_any, chain_congr ih h]
  | not c ih =>
      rw [inquiry_not] at h
      rw [inquiry_not, inquiry_not, ih h]

end Condition

end Conductor
