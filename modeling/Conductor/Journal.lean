import Conductor.Action

/-!
# The journal of activations

Every activation of an action has a record, numbered in the order of activation. A
record goes through stages and ends in one of three: skipped, completed or failed. A
record that has ended stays as it is; only its note may still change.
-/

namespace Conductor

/-- How far an activation has come. -/
inductive Stage where
  | pending
  | evaluatingCondition
  | skipped
  | activated
  | running
  | completed
  | failed (reason : String)
  deriving DecidableEq, Repr, Inhabited

namespace Stage

/-- Whether an activation ends in this stage. -/
def isFinal : Stage → Bool
  | .skipped => true
  | .completed => true
  | .failed _ => true
  | _ => false

def name : Stage → String
  | .pending => "pending"
  | .evaluatingCondition => "evaluating_condition"
  | .skipped => "skipped"
  | .activated => "activated"
  | .running => "running"
  | .completed => "completed"
  | .failed _ => "failed"

/-- Why an activation failed. -/
def failure? : Stage → Option String
  | .failed reason => some reason
  | _ => none

end Stage

/-- One activation of one action. -/
structure Record where
  seq : Nat
  action : ActionId
  kind : String
  label : String
  stage : Stage
  /-- All stages so far, oldest first. -/
  history : List Stage
  /-- What else there is to say about the outcome. -/
  note : Option String
  deriving DecidableEq, Repr

namespace Record

/-- The record of an activation that begins. -/
def opened (seq : Nat) (a : Action) : Record where
  seq := seq
  action := a.id
  kind := a.kind
  label := a.label
  stage := .pending
  history := [.pending]
  note := none

/-- Go on to a stage, unless the activation has ended. -/
def advance (r : Record) (stage : Stage) : Record :=
  if r.stage.isFinal then r else { r with stage, history := r.history ++ [stage] }

def withNote (r : Record) (note : String) : Record :=
  { r with note := some note }

/-- Whether the activation has ended. -/
def isFinished (r : Record) : Bool :=
  r.stage.isFinal

/-- A record that has ended stays as it is. -/
theorem advance_of_isFinished {r : Record} (h : r.isFinished) (stage : Stage) : r.advance stage = r := by
  rw [isFinished] at h
  simp [advance, h]

@[simp] theorem seq_advance (r : Record) (stage : Stage) : (r.advance stage).seq = r.seq := by
  unfold advance
  split <;> rfl

@[simp] theorem stage_withNote (r : Record) (text : String) : (r.withNote text).stage = r.stage := rfl

@[simp] theorem history_withNote (r : Record) (text : String) :
    (r.withNote text).history = r.history := rfl

end Record

/-- The records of a launch; each stands at the place that its number says. -/
structure Journal where
  records : Array Record

namespace Journal

def empty : Journal :=
  ⟨#[]⟩

instance : Inhabited Journal := ⟨empty⟩

/-- Open a record for an action; gives its number. -/
def enter (j : Journal) (a : Action) : Nat × Journal :=
  (j.records.size, ⟨j.records.push (.opened j.records.size a)⟩)

/-- Move a record on to a stage. -/
def advance (j : Journal) (seq : Nat) (stage : Stage) : Journal :=
  ⟨j.records.modify seq (·.advance stage)⟩

/-- Put a note on a record, in place of an earlier one. -/
def note (j : Journal) (seq : Nat) (text : String) : Journal :=
  ⟨j.records.modify seq (·.withNote text)⟩

/-- Record an action that was not even looked at. -/
def skip (j : Journal) (a : Action) (why : String) : Journal :=
  let (seq, j) := j.enter a
  (j.advance seq .skipped).note seq why

/-- Number of records. -/
def size (j : Journal) : Nat :=
  j.records.size

@[simp] theorem enter_fst (j : Journal) (a : Action) : (j.enter a).1 = j.size := rfl

@[simp] theorem size_enter (j : Journal) (a : Action) : (j.enter a).2.size = j.size + 1 := by
  simp [enter, size]

@[simp] theorem size_advance (j : Journal) (seq : Nat) (stage : Stage) :
    (j.advance seq stage).size = j.size := by
  simp [advance, size]

@[simp] theorem size_note (j : Journal) (seq : Nat) (text : String) :
    (j.note seq text).size = j.size := by
  simp [note, size]

@[simp] theorem size_skip (j : Journal) (a : Action) (why : String) :
    (j.skip a why).size = j.size + 1 := by
  simp [skip]

end Journal

end Conductor
