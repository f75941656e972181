import Conductor.Proofs.Journal

/-!
# The life of a record

A record goes through few sequences of stages: it is skipped, its condition cannot be decided, or
its action runs and is completed or fails (`Lifecycle`). A journal only grows, and so does the
history of each of its records, until a stage is reached in which the activation has ended
(`Journal.Becomes`).
-/

namespace Conductor

/-- The stages of a record up to the decision whether the action is let through: one with a
condition has it evaluated. -/
def Stage.opening : Bool → List Stage
  | true => [.pending, .evaluatingCondition]
  | false => [.pending]

/-- The stages of an activation that is over, from the first to the last. -/
inductive Lifecycle (conditional : Bool) : List Stage → Prop where
  | skipped : Lifecycle conditional (Stage.opening conditional ++ [.skipped])
  | undecided (reason : String) (h : conditional = true) :
      Lifecycle conditional (Stage.opening conditional ++ [.failed reason])
  | completed :
      Lifecycle conditional (Stage.opening conditional ++ [.activated, .running, .completed])
  | failed (reason : String) :
      Lifecycle conditional (Stage.opening conditional ++ [.activated, .running, .failed reason])

namespace Lifecycle

variable {conditional : Bool} {path : List Stage}

/-- **An activation ends with the last stage, and not before.** -/
theorem isFinal_iff_last (h : Lifecycle conditional path) :
    ∃ before last, path = before ++ [last] ∧ last.isFinal = true ∧
      ∀ s ∈ before, s.isFinal = false := by
  have hopening : ∀ s ∈ Stage.opening conditional, s.isFinal = false := by
    cases conditional <;> simp [Stage.opening, Stage.isFinal]
  cases h with
  | skipped => exact ⟨_, _, rfl, rfl, hopening⟩
  | undecided reason _ => exact ⟨_, _, rfl, rfl, hopening⟩
  | completed =>
      refine ⟨Stage.opening conditional ++ [.activated, .running], .completed, by simp, rfl, ?_⟩
      simpa [or_imp, forall_and, Stage.isFinal] using hopening
  | failed reason =>
      refine ⟨Stage.opening conditional ++ [.activated, .running], .failed reason, by simp, rfl, ?_⟩
      simpa [or_imp, forall_and, Stage.isFinal] using hopening

/-- What comes before the end of a part of it is no end. -/
theorem not_isFinal_of_prefix (h : Lifecycle conditional path) {stages : List Stage}
    (hp : stages <+: path) : ∀ s ∈ stages.dropLast, s.isFinal = false := by
  obtain ⟨before, last, rfl, -, hbefore⟩ := h.isFinal_iff_last
  intro s hs
  have hdrop : stages.dropLast <+: before := by
    rcases List.prefix_concat_iff.mp hp with rfl | hp
    · exact ⟨[], (List.append_nil _).trans List.dropLast_concat⟩
    · exact (List.dropLast_prefix stages).trans hp
  exact hbefore s (hdrop.subset hs)

/-- Only a condition is evaluated. -/
theorem conditional_of_evaluating (h : Lifecycle conditional path) {stages : List Stage}
    (hp : stages <+: path) (hs : .evaluatingCondition ∈ stages) : conditional = true := by
  have hmem := hp.subset hs
  cases conditional with
  | true => rfl
  | false => cases h <;> simp [Stage.opening] at hmem

end Lifecycle

namespace Record

/-- The record without its note. -/
def unnoted (r : Record) : Record :=
  { r with note := none }

/-- What the record says of its present is the last of what it says of its past. -/
structure Consistent (r : Record) : Prop where
  last : r.history.getLast? = some r.stage
  first : r.history.head? = some .pending

/-- The second record is the first one, then or later. -/
structure Becomes (r r' : Record) : Prop where
  seq : r'.seq = r.seq
  action : r'.action = r.action
  kind : r'.kind = r.kind
  label : r'.label = r.label
  history : r.history <+: r'.history
  /-- An activation that has ended is over. -/
  closed : r.isFinished = true → r'.stage = r.stage ∧ r'.history = r.history

variable {r r' r'' : Record}

theorem Becomes.refl (r : Record) : r.Becomes r :=
  ⟨rfl, rfl, rfl, rfl, List.prefix_rfl, fun _ => ⟨rfl, rfl⟩⟩

theorem Becomes.trans (h : r.Becomes r') (h' : r'.Becomes r'') : r.Becomes r'' where
  seq := h'.seq.trans h.seq
  action := h'.action.trans h.action
  kind := h'.kind.trans h.kind
  label := h'.label.trans h.label
  history := h.history.trans h'.history
  closed := by
    intro hr
    obtain ⟨hs, hh⟩ := h.closed hr
    have hr' : r'.isFinished = true := by
      rw [isFinished, hs]
      exact hr
    obtain ⟨hs', hh'⟩ := h'.closed hr'
    exact ⟨hs'.trans hs, hh'.trans hh⟩

theorem becomes_withNote (r : Record) (text : String) : r.Becomes (r.withNote text) :=
  ⟨rfl, rfl, rfl, rfl, List.prefix_rfl, fun _ => ⟨rfl, rfl⟩⟩

theorem becomes_advance (r : Record) (s : Stage) : r.Becomes (r.advance s) := by
  by_cases hr : r.isFinished = true
  · rw [advance_of_isFinished hr]
    exact .refl r
  · have hopen : r.advance s = { r with stage := s, history := r.history ++ [s] } := if_neg hr
    rw [hopen]
    exact ⟨rfl, rfl, rfl, rfl, List.prefix_append _ _, fun h => absurd h hr⟩

theorem consistent_opened (k : Nat) (a : Action) : (opened k a).Consistent :=
  ⟨rfl, rfl⟩

theorem Consistent.withNote (h : r.Consistent) (text : String) : (r.withNote text).Consistent :=
  ⟨h.last, h.first⟩

theorem Consistent.advance (h : r.Consistent) (s : Stage) : (r.advance s).Consistent := by
  unfold Record.advance
  split
  · exact h
  · refine ⟨by simp, ?_⟩
    show (r.history ++ [s]).head? = some .pending
    rw [List.head?_append, h.first]
    rfl

/-- The record tells of the action. -/
structure IsOf (r : Record) (a : Action) : Prop where
  action : r.action = a.id
  kind : r.kind = a.kind
  label : r.label = a.label

theorem IsOf.becomes {a : Action} (h : r.IsOf a) (hb : r.Becomes r') : r'.IsOf a :=
  ⟨hb.action.trans h.action, hb.kind.trans h.kind, hb.label.trans h.label⟩

/-- Go on through several stages. -/
def advanceAll (r : Record) (stages : List Stage) : Record :=
  stages.foldl Record.advance r

theorem becomes_advanceAll (r : Record) (stages : List Stage) :
    r.Becomes (r.advanceAll stages) := by
  induction stages generalizing r with
  | nil => exact .refl r
  | cons s rest ih => exact (r.becomes_advance s).trans (ih (r.advance s))

/-- The record is that of an activation that goes on, or of one that is over. -/
def InOrder (r : Record) (conditional : Bool) : Prop :=
  (r.history = Stage.opening conditional ++ [.activated, .running] ∧ r.stage = .running) ∨
    (Lifecycle conditional r.history ∧ r.isFinished = true)

/-- The action is let through: its record has been opened and runs. -/
theorem inOrder_admitted (k : Nat) (a : Action) {c : Bool} {asked : List Stage}
    (h : .pending :: asked = Stage.opening c) :
    ((opened k a).advanceAll (asked ++ [.activated, .running])).InOrder c := by
  cases c with
  | true =>
      obtain rfl : asked = [.evaluatingCondition] := (List.cons.inj h).2
      exact .inl ⟨rfl, rfl⟩
  | false =>
      obtain rfl : asked = [] := (List.cons.inj h).2
      exact .inl ⟨rfl, rfl⟩

/-- The action is not let through. -/
theorem inOrder_skipped (k : Nat) (a : Action) {c : Bool} {asked : List Stage}
    (h : .pending :: asked = Stage.opening c) :
    ((opened k a).advanceAll (asked ++ [.skipped])).InOrder c := by
  cases c with
  | true =>
      obtain rfl : asked = [.evaluatingCondition] := (List.cons.inj h).2
      exact .inr ⟨.skipped, rfl⟩
  | false =>
      obtain rfl : asked = [] := (List.cons.inj h).2
      exact .inr ⟨.skipped, rfl⟩

/-- A record in order that is completed or fails is in order. -/
theorem InOrder.advance {c : Bool} (h : r.InOrder c) {s : Stage}
    (hs : s = .completed ∨ ∃ reason, s = .failed reason) : (r.advance s).InOrder c := by
  rcases h with ⟨hh, hr⟩ | ⟨hl, hr⟩
  · have hopen : r.advance s = { r with stage := s, history := r.history ++ [s] } := by
      unfold Record.advance
      rw [hr]
      rfl
    right
    rw [hopen]
    rcases hs with rfl | ⟨reason, rfl⟩
    · refine ⟨?_, rfl⟩
      show Lifecycle c (r.history ++ [.completed])
      rw [hh, List.append_assoc]
      exact .completed
    · refine ⟨?_, rfl⟩
      show Lifecycle c (r.history ++ [.failed reason])
      rw [hh, List.append_assoc]
      exact .failed reason
  · rw [advance_of_isFinished hr]
    exact .inr ⟨hl, hr⟩

/-- So far its stages are those of a whole activation. -/
theorem InOrder.exists_lifecycle {c : Bool} (h : r.InOrder c) :
    ∃ path, Lifecycle c path ∧ r.history <+: path := by
  rcases h with ⟨hh, -⟩ | ⟨hl, -⟩
  · refine ⟨_, .completed, [.completed], ?_⟩
    rw [hh, List.append_assoc]
    rfl
  · exact ⟨r.history, hl, List.prefix_rfl⟩

end Record

namespace Journal

variable {j j' j'' : Journal} {k : Nat}

/-- The record of a number. -/
def record? (j : Journal) (k : Nat) : Option Record :=
  j.records[k]?

@[simp] theorem record?_empty (k : Nat) : empty.record? k = none := by
  simp [empty, record?]

theorem lt_size_of_record? {r : Record} (h : j.record? k = some r) : k < j.size :=
  (Array.getElem?_eq_some_iff.mp h).1

theorem record?_enter (j : Journal) (a : Action) (k : Nat) :
    (j.enter a).2.record? k = if k = j.size then some (.opened k a) else j.record? k := by
  show (j.records.push (.opened j.size a))[k]? = _
  rw [Array.getElem?_push]
  by_cases h : k = j.size
  · subst h
    rw [if_pos rfl]
    exact if_pos rfl
  · rw [if_neg h]
    exact if_neg h

theorem record?_advance (j : Journal) (seq : Nat) (s : Stage) (k : Nat) :
    (j.advance seq s).record? k =
      if seq = k then (j.record? k).map (·.advance s) else j.record? k :=
  Array.getElem?_modify

/-- Move a record on through several stages. -/
def advanceAll (j : Journal) (seq : Nat) (stages : List Stage) : Journal :=
  stages.foldl (fun j s => j.advance seq s) j

theorem record?_advanceAll (j : Journal) (seq : Nat) (stages : List Stage) (k : Nat) :
    (j.advanceAll seq stages).record? k =
      if seq = k then (j.record? k).map (·.advanceAll stages) else j.record? k := by
  induction stages generalizing j with
  | nil => simp [advanceAll, Record.advanceAll]
  | cons s rest ih =>
      refine (ih (j.advance seq s)).trans ?_
      rw [record?_advance]
      split
      · rw [Option.map_map]
        rfl
      · rfl

theorem record?_note (j : Journal) (seq : Nat) (text : String) (k : Nat) :
    (j.note seq text).record? k =
      if seq = k then (j.record? k).map (·.withNote text) else j.record? k :=
  Array.getElem?_modify

/-- An action that is passed over has a record that was skipped at once. -/
theorem record?_skip (j : Journal) (a : Action) (why : String) (k : Nat) :
    (j.skip a why).record? k =
      if k = j.size then some (((Record.opened k a).advance .skipped).withNote why)
      else j.record? k := by
  unfold skip
  dsimp only
  rw [enter_fst, record?_note, record?_advance, record?_enter]
  by_cases h : k = j.size
  · subst h
    simp
  · rw [if_neg (Ne.symm h), if_neg (Ne.symm h), if_neg h, if_neg h]

/-- The records agree, but for what was noted on them. -/
def SameStages (j j' : Journal) : Prop :=
  ∀ k, (j'.record? k).map (·.unnoted) = (j.record? k).map (·.unnoted)

theorem SameStages.refl (j : Journal) : j.SameStages j :=
  fun _ => rfl

theorem SameStages.trans (h : j.SameStages j') (h' : j'.SameStages j'') : j.SameStages j'' :=
  fun k => (h' k).trans (h k)

theorem sameStages_note (j : Journal) (seq : Nat) (text : String) :
    j.SameStages (j.note seq text) := by
  intro k
  rw [record?_note]
  split
  · rw [Option.map_map]
    rfl
  · rfl

/-- Each record stands at the place that its number says, and is consistent. -/
def Consistent (j : Journal) : Prop :=
  ∀ k r, j.record? k = some r → r.seq = k ∧ r.Consistent

/-- The second journal is the first one, then or later. -/
def Becomes (j j' : Journal) : Prop :=
  ∀ k r, j.record? k = some r → ∃ r', j'.record? k = some r' ∧ r.Becomes r'

theorem Becomes.refl (j : Journal) : j.Becomes j :=
  fun _ r h => ⟨r, h, .refl r⟩

theorem Becomes.trans (h : j.Becomes j') (h' : j'.Becomes j'') : j.Becomes j'' := by
  intro k r hr
  obtain ⟨r', hr', hb⟩ := h k r hr
  obtain ⟨r'', hr'', hb'⟩ := h' k r' hr'
  exact ⟨r'', hr'', hb.trans hb'⟩

/-- Where one record changes. -/
theorem becomes_of_map {f : Record → Record} {seq : Nat} (hf : ∀ r : Record, r.Becomes (f r))
    (h : ∀ k, j'.record? k = if seq = k then (j.record? k).map f else j.record? k) :
    j.Becomes j' := by
  intro k r hr
  rw [h k, hr]
  split
  · exact ⟨f r, rfl, hf r⟩
  · exact ⟨r, rfl, .refl r⟩

/-- Where one record is added. -/
theorem becomes_of_add {r₀ : Nat → Record}
    (h : ∀ k, j'.record? k = if k = j.size then some (r₀ k) else j.record? k) : j.Becomes j' := by
  intro k r hr
  rw [h k, if_neg (Nat.ne_of_lt (lt_size_of_record? hr)), hr]
  exact ⟨r, rfl, .refl r⟩

theorem becomes_enter (j : Journal) (a : Action) : j.Becomes (j.enter a).2 :=
  becomes_of_add (j.record?_enter a)

theorem becomes_advance (j : Journal) (seq : Nat) (s : Stage) : j.Becomes (j.advance seq s) :=
  becomes_of_map (fun r => r.becomes_advance s) (j.record?_advance seq s)

theorem becomes_note (j : Journal) (seq : Nat) (text : String) : j.Becomes (j.note seq text) :=
  becomes_of_map (fun r => r.becomes_withNote text) (j.record?_note seq text)

theorem becomes_skip (j : Journal) (a : Action) (why : String) : j.Becomes (j.skip a why) :=
  becomes_of_add (j.record?_skip a why)

theorem consistent_empty : empty.Consistent := by
  intro k r h
  simp at h

theorem Consistent.of_map {f : Record → Record} {seq : Nat} (hj : j.Consistent)
    (hseq : ∀ r : Record, (f r).seq = r.seq)
    (hf : ∀ r : Record, r.Consistent → (f r).Consistent)
    (h : ∀ k, j'.record? k = if seq = k then (j.record? k).map f else j.record? k) :
    j'.Consistent := by
  intro k r hr
  rw [h k] at hr
  split at hr
  · obtain ⟨r₀, hr₀, rfl⟩ := Option.map_eq_some_iff.mp hr
    obtain ⟨hk, hc⟩ := hj k r₀ hr₀
    exact ⟨(hseq r₀).trans hk, hf r₀ hc⟩
  · exact hj k r hr

theorem Consistent.of_add {r₀ : Nat → Record} (hj : j.Consistent) (hseq : ∀ k, (r₀ k).seq = k)
    (hr₀ : ∀ k, (r₀ k).Consistent)
    (h : ∀ k, j'.record? k = if k = j.size then some (r₀ k) else j.record? k) :
    j'.Consistent := by
  intro k r hr
  rw [h k] at hr
  split at hr
  · cases hr
    exact ⟨hseq k, hr₀ k⟩
  · exact hj k r hr

theorem Consistent.enter (hj : j.Consistent) (a : Action) : (j.enter a).2.Consistent :=
  hj.of_add (fun _ => rfl) (fun k => Record.consistent_opened k a) (j.record?_enter a)

theorem Consistent.advance (hj : j.Consistent) (seq : Nat) (s : Stage) :
    (j.advance seq s).Consistent :=
  hj.of_map (fun r => r.seq_advance s) (fun _ hr => hr.advance s) (j.record?_advance seq s)

theorem Consistent.note (hj : j.Consistent) (seq : Nat) (text : String) :
    (j.note seq text).Consistent :=
  hj.of_map (f := (·.withNote text)) (fun _ => rfl) (fun _ hr => hr.withNote text)
    (j.record?_note seq text)

theorem Consistent.skip (hj : j.Consistent) (a : Action) (why : String) :
    (j.skip a why).Consistent :=
  hj.of_add (fun _ => rfl) (fun k => ((Record.consistent_opened k a).advance _).withNote _)
    (j.record?_skip a why)

end Journal

end Conductor
