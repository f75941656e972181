import Conductor.Report
import Conductor.Proofs.Launch.Winding

/-!
# The launch that is reported

When a launch has ended, the timers still pending are cancelled before the report is made.
Nothing else changes then: no event is queued or taken, and the timeline stays as it is.
-/

namespace Conductor

namespace Launch

/-- The launch that a report is made of: the timers still pending are cancelled. -/
def closing (l : Launch) : Launch :=
  l.cancelTimers "launch finished" l.timers.keys

variable {p : Deed → Prop} {l m : Launch}

/-! ## Parts of the history -/

/-- What is read off the history grows at its end. -/
theorem filterMap_occurrences_append {β : Type} (f : Occurrence → Option β)
    {os : List Occurrence} (hos : m.history = os ++ l.history) :
    m.occurrences.filterMap f = l.occurrences.filterMap f ++ os.reverse.filterMap f := by
  unfold occurrences
  rw [hos, List.reverse_append, List.filterMap_append]

theorem filterMap_occurrences_of_none {β : Type} {f : Occurrence → Option β}
    {os : List Occurrence} (hos : m.history = os ++ l.history) (hnone : ∀ o ∈ os, f o = none) :
    m.occurrences.filterMap f = l.occurrences.filterMap f := by
  have hnil : os.reverse.filterMap f = [] :=
    List.filterMap_eq_nil_iff.mpr fun o ho => hnone o (List.mem_reverse.mp ho)
  rw [filterMap_occurrences_append f hos, hnil, List.append_nil]

/-! ## The closing -/

theorem closing_effects (l : Launch) : Effects p l l.closing :=
  cancelTimers_effects _ _ l

theorem records_finish (l : Launch) : l.finish.records = l.closing.journal.records.toList := rfl

theorem forced_finish (l : Launch) : l.finish.forced = l.forced :=
  (closing_effects (p := fun _ => True) l).sameLoop.forced

theorem context_cancelTimer (why : String) (id : Nat) (l : Launch) :
    (l.cancelTimer why id).context = l.context := by
  rcases cancelTimer_cases why id l with ⟨-, h⟩ | ⟨t, -, h⟩
  · rw [h]
  · rw [h]

theorem context_closing (l : Launch) : l.closing.context = l.context := by
  have hall : ∀ (ids : List Nat) (m : Launch),
      (m.cancelTimers "launch finished" ids).context = m.context := by
    intro ids
    induction ids with
    | nil => exact fun m => rfl
    | cons id rest ih => exact fun m => (ih _).trans (context_cancelTimer _ id m)
  exact hall _ l

/-- No timer is left. -/
theorem timers_closing (l : Launch) (id : Nat) : l.closing.timers.get? id = none := by
  cases hget : l.closing.timers.get? id with
  | none => rfl
  | some t =>
      obtain ⟨hnot, hpending⟩ := timers_cancelTimers hget
      exact absurd (Table.mem_keys_iff.mpr ⟨t, hpending⟩) hnot

/-- Cancelling timers puts nothing else on the history. -/
theorem history_cancelTimers (why : String) (ids : List Nat) (l : Launch) :
    ∃ os, (l.cancelTimers why ids).history = os ++ l.history ∧
      ∀ o ∈ os, ∃ id ∈ ids, o = .cancelled id := by
  induction ids generalizing l with
  | nil => exact ⟨[], rfl, by simp⟩
  | cons id rest ih =>
      obtain ⟨os, hos, hq⟩ := ih (l.cancelTimer why id)
      have hrest : ∀ o ∈ os, ∃ i ∈ id :: rest, o = .cancelled i := by
        intro o ho
        obtain ⟨i, hi, heq⟩ := hq o ho
        exact ⟨i, List.mem_cons_of_mem id hi, heq⟩
      change (l.cancelTimers why (id :: rest)).history = _ at hos
      rcases cancelTimer_cases why id l with ⟨-, h⟩ | ⟨t, -, h⟩
      · have hsame : (l.cancelTimer why id).history = l.history := by rw [h]
        rw [hsame] at hos
        exact ⟨os, hos, hrest⟩
      · have hone : (l.cancelTimer why id).history = .cancelled id :: l.history := by rw [h]
        rw [hone] at hos
        refine ⟨os ++ [.cancelled id], ?_, ?_⟩
        · rw [List.append_assoc]
          exact hos
        · intro o ho
          rcases List.mem_append.mp ho with ho | ho
          · exact hrest o ho
          · exact ⟨id, List.mem_cons_self, List.mem_singleton.mp ho⟩

theorem history_closing (l : Launch) :
    ∃ os, l.closing.history = os ++ l.history ∧
      ∀ o ∈ os, ∃ id ∈ l.timers.keys, o = .cancelled id :=
  history_cancelTimers _ _ l

/-- The end of a run adds nothing to what happened but that timers are cancelled. -/
theorem mem_closing {o : Occurrence} (ho : ∀ id, o ≠ .cancelled id) :
    o ∈ l.closing.history ↔ o ∈ l.history := by
  obtain ⟨os, hos, hq⟩ := l.history_closing
  rw [hos, List.mem_append]
  refine ⟨fun h => h.resolve_left fun hnew => ?_, .inr⟩
  obtain ⟨id, -, heq⟩ := hq o hnew
  exact ho id heq

/-- What a report is made of is a part of the history, and the end of a run adds nothing to it. -/
theorem filterMap_occurrences_closing {β : Type} {f : Occurrence → Option β}
    (hf : ∀ id, f (.cancelled id) = none) :
    l.closing.occurrences.filterMap f = l.occurrences.filterMap f := by
  obtain ⟨os, hos, hq⟩ := l.history_closing
  apply filterMap_occurrences_of_none hos
  intro o ho
  obtain ⟨id, -, rfl⟩ := hq o ho
  exact hf id

theorem timeline_finish (l : Launch) : l.finish.timeline = l.timeline :=
  filterMap_occurrences_closing fun _ => rfl

theorem captured_finish (l : Launch) : l.finish.captured = l.captured :=
  filterMap_occurrences_closing fun _ => rfl

end Launch

end Conductor
