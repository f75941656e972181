import Mathlib.Logic.Basic
import Conductor.Journal

/-!
# The stages of the records of a journal

What a record says of its activation is read off by its number. Each operation on a journal
changes the stage of one record at most, and a stage in which an activation has ended is never
left again.
-/

namespace Conductor

namespace Journal

/-- Of the records only the one opened last changes. -/
theorem modify_push (records : Array Record) (r : Record) (f : Record → Record) :
    (records.push r).modify records.size f = records.push (f r) := by
  apply Array.ext_getElem?
  intro k
  grind

/-- The stage of the record of a number. -/
def stage? (j : Journal) (k : Nat) : Option Stage :=
  j.records[k]?.map (·.stage)

/-- The activation of the record has ended in the stage. -/
def EndedAs (j : Journal) (k : Nat) (s : Stage) : Prop :=
  j.stage? k = some s ∧ s.isFinal = true

/-- Whether the activation of the record has ended. -/
def HasEnded (j : Journal) (k : Nat) : Prop :=
  ∃ s, j.EndedAs k s

@[simp] theorem stage?_empty (k : Nat) : empty.stage? k = none := by
  simp [empty, stage?]

theorem lt_size_of_stage? {j : Journal} {k : Nat} {s : Stage} (h : j.stage? k = some s) :
    k < j.size := by
  unfold stage? at h
  obtain ⟨r, hr, -⟩ := Option.map_eq_some_iff.mp h
  exact (Array.getElem?_eq_some_iff.mp hr).1

theorem stage?_enter (j : Journal) (a : Action) (k : Nat) :
    (j.enter a).2.stage? k = if k = j.size then some .pending else j.stage? k := by
  have hpush : (j.records.push (.opened j.size a))[k]? =
      if k = j.size then some (.opened j.size a) else j.records[k]? := Array.getElem?_push
  show Option.map _ (j.records.push (.opened j.size a))[k]? = _
  rw [hpush]
  by_cases h : k = j.size
  · rw [if_pos h, if_pos h]
    rfl
  · rw [if_neg h, if_neg h]
    rfl

/-- A record moves on unless its activation has ended. -/
theorem stage?_advance (j : Journal) (seq : Nat) (s : Stage) (k : Nat) :
    (j.advance seq s).stage? k =
      if k = seq then (j.stage? k).map fun s' => if s'.isFinal then s' else s
      else j.stage? k := by
  simp only [advance, stage?, Array.getElem?_modify]
  by_cases h : seq = k
  · subst h
    rw [if_pos rfl, if_pos rfl, Option.map_map, Option.map_map]
    congr 1
    funext r
    simp only [Function.comp_apply, Record.advance]
    split <;> rfl
  · rw [if_neg h, if_neg fun h' => h h'.symm]

theorem stage?_advance_of_ne {seq k : Nat} (h : k ≠ seq) (j : Journal) (s : Stage) :
    (j.advance seq s).stage? k = j.stage? k := by
  rw [stage?_advance, if_neg h]

/-- A record whose activation goes on takes the stage it is given. -/
theorem stage?_advance_self {j : Journal} {seq : Nat} {s s' : Stage}
    (h : j.stage? seq = some s') (hs : s'.isFinal = false) :
    (j.advance seq s).stage? seq = some s := by
  rw [stage?_advance, if_pos rfl, h, Option.map_some, hs]
  rfl

/-- A record that is moved on to a last stage has ended, then or before. -/
theorem isFinal_of_stage?_advance {j : Journal} {seq : Nat} {s s' : Stage}
    (hs : s.isFinal = true) (h : (j.advance seq s).stage? seq = some s') : s'.isFinal = true := by
  rw [stage?_advance, if_pos rfl] at h
  obtain ⟨s₀, -, rfl⟩ := Option.map_eq_some_iff.mp h
  split
  · assumption
  · exact hs

@[simp] theorem stage?_note (j : Journal) (seq : Nat) (text : String) (k : Nat) :
    (j.note seq text).stage? k = j.stage? k := by
  simp only [note, stage?, Array.getElem?_modify]
  split
  · rw [Option.map_map]
    rfl
  · rfl

theorem stage?_skip (j : Journal) (a : Action) (why : String) (k : Nat) :
    (j.skip a why).stage? k = if k = j.size then some .skipped else j.stage? k := by
  unfold skip
  dsimp only
  rw [stage?_note, enter_fst]
  by_cases h : k = j.size
  · subst h
    rw [if_pos rfl]
    have hpending : (j.enter a).2.stage? j.size = some .pending := by
      rw [stage?_enter, if_pos rfl]
    exact stage?_advance_self hpending rfl
  · rw [stage?_advance_of_ne h, stage?_enter, if_neg h, if_neg h]

namespace EndedAs

variable {j : Journal} {k : Nat} {s : Stage}

/-- An activation that has ended is not begun again. -/
theorem advance (h : j.EndedAs k s) (seq : Nat) (s' : Stage) : (j.advance seq s').EndedAs k s := by
  obtain ⟨hs, hfinal⟩ := h
  refine ⟨?_, hfinal⟩
  rw [stage?_advance, hs, Option.map_some, hfinal]
  split <;> rfl

theorem note (h : j.EndedAs k s) (seq : Nat) (text : String) : (j.note seq text).EndedAs k s := by
  unfold EndedAs
  rw [stage?_note]
  exact h

theorem enter (h : j.EndedAs k s) (a : Action) : (j.enter a).2.EndedAs k s := by
  obtain ⟨hs, hfinal⟩ := h
  refine ⟨?_, hfinal⟩
  rw [stage?_enter, if_neg (Nat.ne_of_lt (lt_size_of_stage? hs)), hs]

theorem skip (h : j.EndedAs k s) (a : Action) (why : String) : (j.skip a why).EndedAs k s :=
  ((h.enter a).advance _ _).note _ _

end EndedAs

/-- Moved on to a last stage, a record has ended. -/
theorem HasEnded.of_advance {j : Journal} {k : Nat} {s : Stage} (hk : k < j.size)
    (hs : s.isFinal = true) : (j.advance k s).HasEnded k := by
  have hsize : k < (j.advance k s).records.size :=
    Nat.lt_of_lt_of_eq hk (j.size_advance k s).symm
  have hstage : (j.advance k s).stage? k = some (j.advance k s).records[k].stage := by
    unfold stage?
    rw [Array.getElem?_eq_getElem hsize, Option.map_some]
  exact ⟨_, hstage, isFinal_of_stage?_advance hs hstage⟩

end Journal

end Conductor
