import Conductor.Proofs.Condition.Failure

/-!
# The boolean laws of conditions

Evaluation has three outcomes and stops early, and still the boolean laws hold as they are. Asking
one condition after another is associative, and turning all answers around turns the answer that
is waited for around (`Inquiry.followedBy_assoc`, `Inquiry.not_chain`). So whatever is rewritten by
the laws, in either direction and anywhere in a condition, the same atoms are asked in the same
order and the answer is the same, also if it is an error (`Condition.Rewrites.inquiry_eq`).

The laws take every condition to its normal form, in which nothing is negated and no condition of
conditions stands directly in another one of the same kind (`Condition.rewrites_normal`).
-/

namespace Conductor

/-! ## Inquiries -/

namespace Inquiry

variable {b : Bool}

@[simp] theorem not_not (i : Inquiry) : i.not.not = i := by
  obtain ⟨answer, visits⟩ := i
  cases answer with
  | error u => rfl
  | ok a => cases a <;> rfl

theorem not_followedBy (b : Bool) (i j : Inquiry) :
    (i.followedBy b j).not = i.not.followedBy (!b) j.not := by
  by_cases h : i.answer = .ok b
  · rw [followedBy_of_answer h, followedBy_of_answer (answer_not_eq_ok_iff.mpr h)]
    rfl
  · rw [followedBy_of_not h, followedBy_of_not (mt answer_not_eq_ok_iff.mp h)]
    rfl

theorem not_chain (b : Bool) (is : List Inquiry) :
    (chain b is).not = chain (!b) (is.map not) := by
  induction is with
  | nil => rfl
  | cons i is ih => rw [chain_cons, not_followedBy, ih, List.map_cons, chain_cons]

theorem skipped_followedBy (b : Bool) (i j : Inquiry) :
    (i.followedBy b j).skipped = i.skipped ++ j.skipped := by
  rw [skipped, atoms_followedBy, List.map_append]
  rfl

theorem followedBy_assoc (b : Bool) (i j k : Inquiry) :
    (i.followedBy b j).followedBy b k = i.followedBy b (j.followedBy b k) := by
  by_cases hi : i.answer = .ok b
  · rw [followedBy_of_answer hi, followedBy_of_answer hi]
    by_cases hj : j.answer = .ok b
    · have hij : (⟨j.answer, i.visits ++ j.visits⟩ : Inquiry).answer = .ok b := hj
      rw [followedBy_of_answer hij, followedBy_of_answer hj, List.append_assoc]
    · have hij : (⟨j.answer, i.visits ++ j.visits⟩ : Inquiry).answer ≠ .ok b := hj
      rw [followedBy_of_not hij, followedBy_of_not hj, List.append_assoc]
  · have hij : (⟨i.answer, i.visits ++ j.skipped⟩ : Inquiry).answer ≠ .ok b := hi
    rw [followedBy_of_not hi, followedBy_of_not hi, followedBy_of_not hij, skipped_followedBy,
      List.append_assoc]

theorem settled_followedBy (b : Bool) (i : Inquiry) : (settled b).followedBy b i = i :=
  followedBy_of_answer rfl i

theorem chain_append (b : Bool) (is js : List Inquiry) :
    chain b (is ++ js) = (chain b is).followedBy b (chain b js) := by
  induction is with
  | nil => exact (settled_followedBy b _).symm
  | cons i is ih => rw [List.cons_append, chain_cons, ih, chain_cons, followedBy_assoc]

/-- A chain inside a chain of the same kind is part of it. -/
theorem chain_nested (b : Bool) (before inner after : List Inquiry) :
    chain b (before ++ chain b inner :: after) = chain b (before ++ inner ++ after) := by
  rw [chain_append, chain_cons, chain_append, chain_append, followedBy_assoc]

end Inquiry

namespace Condition

/-! ## The laws -/

/-- All of the conditions, or any of them. -/
def junction (b : Bool) (cs : List Condition) : Condition :=
  match b with
  | true => .all cs
  | false => .any cs

/-- The second condition is got from the first by the boolean laws, applied in either direction and
anywhere in it. -/
inductive Rewrites : Condition → Condition → Prop where
  | notNot (p : Condition) : Rewrites (.not (.not p)) p
  /-- De Morgan's laws. -/
  | notJunction (b : Bool) (ps : List Condition) :
      Rewrites (.not (junction b ps)) (junction (!b) (ps.map .not))
  | notHolds (t : Template) : Rewrites (.not (.holds t)) (.fails t)
  | notFails (t : Template) : Rewrites (.not (.fails t)) (.holds t)
  | notEqual (l r : Template) : Rewrites (.not (.equal l r)) (.differ l r)
  | notDiffer (l r : Template) : Rewrites (.not (.differ l r)) (.equal l r)
  /-- A condition of conditions directly in another one of the same kind is flattened. -/
  | nested (b : Bool) (before inner after : List Condition) :
      Rewrites (junction b (before ++ junction b inner :: after))
        (junction b (before ++ inner ++ after))
  | inNot {p q : Condition} (h : Rewrites p q) : Rewrites (.not p) (.not q)
  | inJunction {p q : Condition} (b : Bool) (before after : List Condition) (h : Rewrites p q) :
      Rewrites (junction b (before ++ p :: after)) (junction b (before ++ q :: after))
  | refl (p : Condition) : Rewrites p p
  | symm {p q : Condition} (h : Rewrites p q) : Rewrites q p
  | trans {p q r : Condition} (h : Rewrites p q) (h' : Rewrites q r) : Rewrites p r

variable {b : Bool} {p q : Condition} {cs ds : List Condition}

theorem inquiry_junction (s : Surroundings) (b : Bool) (cs : List Condition) :
    (junction b cs).inquiry s = .chain b (cs.map (inquiry s)) := by
  cases b with
  | true => exact inquiry_all s cs
  | false => exact inquiry_any s cs

/-- **The boolean laws change neither the answer nor what is asked.** -/
theorem Rewrites.inquiry_eq (h : p.Rewrites q) (s : Surroundings) :
    q.inquiry s = p.inquiry s := by
  induction h with
  | notNot p => rw [inquiry_not, inquiry_not, Inquiry.not_not]
  | notJunction b ps =>
      rw [inquiry_not, inquiry_junction, inquiry_junction, Inquiry.not_chain, List.map_map,
        List.map_map]
      exact congrArg _ (List.map_congr_left fun p _ => inquiry_not s p)
  | notHolds | notEqual => rw [inquiry_not, inquiry, inquiry]
  | notFails | notDiffer => rw [inquiry_not, inquiry, inquiry, Inquiry.not_not]
  | nested b before inner after =>
      rw [inquiry_junction, inquiry_junction]
      simp only [List.map_append, List.map_cons, inquiry_junction, Inquiry.chain_nested]
  | inNot _ ih => rw [inquiry_not, inquiry_not, ih]
  | inJunction b before after _ ih =>
      rw [inquiry_junction, inquiry_junction]
      simp only [List.map_append, List.map_cons, ih]
  | refl p => rfl
  | symm _ ih => exact ih.symm
  | trans _ _ ih ih' => exact ih'.trans ih

/-! ## Normal forms -/

/-- Nothing is negated, and no condition of conditions stands directly in another one of the same
kind. -/
inductive IsNormal : Condition → Prop where
  | holds (t : Template) : IsNormal (.holds t)
  | fails (t : Template) : IsNormal (.fails t)
  | equal (l r : Template) : IsNormal (.equal l r)
  | differ (l r : Template) : IsNormal (.differ l r)
  | flat (b : Bool) {cs : List Condition} (hcs : ∀ c ∈ cs, IsNormal c)
      (hflat : ∀ c ∈ cs, ∀ ds, c ≠ junction b ds) : IsNormal (junction b cs)

/-- What a condition contributes to one of this kind: its own operands if it is of the kind too. -/
def spread (b : Bool) : Condition → List Condition
  | .all cs => if b then cs else [.all cs]
  | .any cs => if b then [.any cs] else cs
  | p => [p]

mutual

/-- The normal form of a condition, or of its negation. -/
def normalize (positive : Bool) : Condition → Condition
  | .holds t => if positive then .holds t else .fails t
  | .fails t => if positive then .fails t else .holds t
  | .equal l r => if positive then .equal l r else .differ l r
  | .differ l r => if positive then .differ l r else .equal l r
  | .all cs => junction positive ((normalizeAll positive cs).flatMap (spread positive))
  | .any cs => junction (!positive) ((normalizeAll positive cs).flatMap (spread (!positive)))
  | .not c => normalize (!positive) c

def normalizeAll (positive : Bool) : List Condition → List Condition
  | [] => []
  | c :: r => normalize positive c :: normalizeAll positive r

end

/-- The normal form of a condition. -/
def normal (p : Condition) : Condition :=
  p.normalize true

theorem normalizeAll_eq_map (positive : Bool) (cs : List Condition) :
    normalizeAll positive cs = cs.map (normalize positive) := by
  induction cs with
  | nil => rfl
  | cons c r ih => rw [normalizeAll, ih, List.map_cons]

/-- Either a condition is of the kind, or it stands for itself. -/
theorem spread_cases (b : Bool) (p : Condition) :
    (∃ ds, p = junction b ds ∧ spread b p = ds) ∨
      (∀ ds, p ≠ junction b ds) ∧ spread b p = [p] := by
  cases p with
  | all cs =>
      cases b with
      | true => exact .inl ⟨cs, rfl, rfl⟩
      | false => exact .inr ⟨nofun, rfl⟩
  | any cs =>
      cases b with
      | true => exact .inr ⟨nofun, rfl⟩
      | false => exact .inl ⟨cs, rfl, rfl⟩
  | holds | fails | equal | differ | not => exact .inr ⟨fun ds => by cases b <;> nofun, rfl⟩

theorem IsNormal.of_junction (h : (junction b cs).IsNormal) :
    (∀ c ∈ cs, c.IsNormal) ∧ ∀ c ∈ cs, ∀ ds, c ≠ junction b ds := by
  generalize hp : junction b cs = p at h
  cases h with
  | flat b' hcs hflat =>
      cases b <;> cases b' <;> cases hp
      · exact ⟨hcs, hflat⟩
      · exact ⟨hcs, hflat⟩
  | holds | fails | equal | differ => cases b <;> cases hp

theorem isNormal_junction_spread (h : ∀ c ∈ cs, c.IsNormal) :
    (junction b (cs.flatMap (spread b))).IsNormal := by
  have hspread : ∀ d ∈ cs.flatMap (spread b), d.IsNormal ∧ ∀ ds, d ≠ junction b ds := by
    intro d hd
    obtain ⟨c, hc, hd⟩ := List.mem_flatMap.mp hd
    rcases spread_cases b c with ⟨ds, rfl, heq⟩ | ⟨hne, heq⟩
    · rw [heq] at hd
      obtain ⟨hds, hflat⟩ := (h _ hc).of_junction
      exact ⟨hds d hd, hflat d hd⟩
    · rw [heq] at hd
      obtain rfl := List.mem_singleton.mp hd
      exact ⟨h d hc, hne⟩
  exact .flat b (fun d hd => (hspread d hd).1) fun d hd => (hspread d hd).2

theorem isNormal_normalize (positive : Bool) (p : Condition) : (p.normalize positive).IsNormal := by
  induction p generalizing positive with
  | holds t => cases positive <;> constructor
  | fails t => cases positive <;> constructor
  | equal l r => cases positive <;> constructor
  | differ l r => cases positive <;> constructor
  | all cs ih =>
      rw [normalize, normalizeAll_eq_map]
      exact isNormal_junction_spread (List.forall_mem_map.mpr fun c hc => ih c hc positive)
  | any cs ih =>
      rw [normalize, normalizeAll_eq_map]
      exact isNormal_junction_spread (List.forall_mem_map.mpr fun c hc => ih c hc positive)
  | not c ih => exact ih (!positive)

/-- Operands are rewritten one after the other, behind those that are done. -/
theorem Rewrites.operands (h : List.Forall₂ Rewrites cs ds) (before : List Condition) :
    (junction b (before ++ cs)).Rewrites (junction b (before ++ ds)) := by
  induction h generalizing before with
  | nil => exact .refl _
  | @cons c d cs ds hcd _ ih =>
      have hrest := ih (before ++ [d])
      rw [← List.append_cons, ← List.append_cons] at hrest
      exact .trans (.inJunction b before cs hcd) hrest

theorem Rewrites.spread (cs before : List Condition) :
    (junction b (before ++ cs)).Rewrites (junction b (before ++ cs.flatMap (spread b))) := by
  induction cs generalizing before with
  | nil => exact .refl _
  | cons c r ih =>
      rw [List.flatMap_cons]
      rcases spread_cases b c with ⟨ds, rfl, heq⟩ | ⟨-, heq⟩
      · rw [heq, ← List.append_assoc]
        exact .trans (.nested b before ds r) (ih (before ++ ds))
      · rw [heq, ← List.append_assoc, List.append_cons before c r]
        exact ih (before ++ [c])

/-- The condition, or its negation. -/
def signed (positive : Bool) (p : Condition) : Condition :=
  if positive then p else .not p

/-- The laws bring the operands into normal form and flatten them. -/
theorem Rewrites.normalize_operands (positive : Bool)
    (h : ∀ c ∈ cs, (c.signed positive).Rewrites (c.normalize positive)) :
    (junction b (cs.map (signed positive))).Rewrites
      (junction b ((normalizeAll positive cs).flatMap (Condition.spread b))) := by
  rw [normalizeAll_eq_map]
  have hall : List.Forall₂ Rewrites (cs.map (signed positive)) (cs.map (normalize positive)) :=
    List.forall₂_map_left_iff.mpr (List.forall₂_map_right_iff.mpr (List.forall₂_same.mpr h))
  exact .trans (.operands hall []) (.spread _ [])

/-- Negating a condition of conditions negates its operands. -/
theorem Rewrites.signed_junction (positive b : Bool) (cs : List Condition) :
    ((junction b cs).signed positive).Rewrites
      (junction (if positive then b else !b) (cs.map (signed positive))) := by
  cases positive with
  | true =>
      have hmap : cs.map (signed true) = cs := List.map_id cs
      rw [hmap]
      exact .refl _
  | false => exact .notJunction b cs

theorem rewrites_normalize (positive : Bool) (p : Condition) :
    (p.signed positive).Rewrites (p.normalize positive) := by
  induction p generalizing positive with
  | holds t =>
      cases positive with
      | true => exact .refl _
      | false => exact .notHolds t
  | fails t =>
      cases positive with
      | true => exact .refl _
      | false => exact .notFails t
  | equal l r =>
      cases positive with
      | true => exact .refl _
      | false => exact .notEqual l r
  | differ l r =>
      cases positive with
      | true => exact .refl _
      | false => exact .notDiffer l r
  | all cs ih =>
      have hsigned := Rewrites.signed_junction positive true cs
      have hkind : (if positive then true else !true) = positive := by cases positive <;> rfl
      rw [hkind] at hsigned
      exact .trans hsigned (.normalize_operands positive fun c hc => ih c hc positive)
  | any cs ih =>
      have hsigned := Rewrites.signed_junction positive false cs
      have hkind : (if positive then false else !false) = !positive := by cases positive <;> rfl
      rw [hkind] at hsigned
      exact .trans hsigned (.normalize_operands positive fun c hc => ih c hc positive)
  | not c ih =>
      cases positive with
      | true => exact ih false
      | false => exact .trans (.notNot c) (ih true)

/-- **Every condition has a normal form, and the laws lead to it.** -/
theorem rewrites_normal (p : Condition) : p.normal.IsNormal ∧ p.Rewrites p.normal :=
  ⟨isNormal_normalize true p, rewrites_normalize true p⟩

end Condition

namespace Context

/-- **Conditions obey the boolean laws, errors included.** Whatever a condition is rewritten to by
the laws, in particular its normal form, has the same truth value in every context, or fails by the
same error; the same atoms are asked, and the same are left out. The error is that of the last atom
asked. -/
theorem laws_keep_evaluation (c : Context) (p : Condition) :
    (p.normal.IsNormal ∧ p.Rewrites p.normal) ∧ ∀ q, p.Rewrites q →
      c.decide q = c.decide p ∧
        (q.inquiry c.surroundings).visits = (p.inquiry c.surroundings).visits ∧
          ∀ e, c.decide q = .error e → ∃ u, e = .condition u ∧
            Inquiry.EndsWith c.surroundings u (p.inquiry c.surroundings).visits := by
  refine ⟨p.rewrites_normal, fun q h => ?_⟩
  have hinquiry := h.inquiry_eq c.surroundings
  have hdecide : c.decide q = c.decide p := by
    rw [decide, decide, ← Condition.answer_inquiry, ← Condition.answer_inquiry, hinquiry]
  refine ⟨hdecide, congrArg Inquiry.visits hinquiry, fun e he => ?_⟩
  rw [hdecide] at he
  obtain ⟨u, rfl, hu⟩ := decide_eq_error_iff.mp he
  exact ⟨u, rfl, Condition.endsWith_of_evaluate_error hu⟩

/-- A gate that is closed unless the switch is on and two variables spell true. -/
def gate : Condition :=
  .not (.all [.not (.fails [.text "on"]), .all [.holds [.var "ready"], .holds [.var "idle"]]])

/-- In its normal form the first variable is still the one that is missing, and the second is not
asked for. -/
theorem gate_fails_alike :
    gate.normal = .any [.fails [.text "on"], .fails [.var "ready"], .fails [.var "idle"]] ∧
      (start .bare).decide gate.normal =
        .error (.condition (.unresolved (.variableUnset "ready"))) ∧
      (gate.normal.inquiry (start .bare).surroundings).visits =
        [(.truth [.text "on"], true), (.truth [.var "ready"], true),
          (.truth [.var "idle"], false)] := by
  obtain ⟨⟨-, hrewrites⟩, hkeeps⟩ := laws_keep_evaluation (start .bare) gate
  obtain ⟨hdecide, hvisits, -⟩ := hkeeps gate.normal hrewrites
  exact ⟨rfl, hdecide.trans (by rfl), hvisits.trans (by rfl)⟩

end Context

end Conductor
