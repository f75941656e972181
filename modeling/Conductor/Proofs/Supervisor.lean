import Conductor.Supervisor

/-!
# What the operations of a supervisor do

Each operation of the supervisor that branches has a lemma here that lists its outcomes,
every one as a plain change of fields together with the reason why it came about.
-/

namespace Conductor

namespace ProcessHandle

@[simp] theorem id_markSent (h : ProcessHandle) (signal : Signal) :
    (h.markSent signal).id = h.id := by
  cases signal <;> rfl

@[simp] theorem status_markSent (h : ProcessHandle) (signal : Signal) :
    (h.markSent signal).status = h.status := by
  cases signal <;> rfl

/-- A signal that was noted was sent. -/
@[simp] theorem wasSent_markSent (h : ProcessHandle) (signal : Signal) :
    (h.markSent signal).wasSent signal = true := by
  cases signal <;> rfl

/-- A note of a signal takes no other one back. -/
theorem wasSent_of_markSent {h : ProcessHandle} {signal : Signal} (hs : h.wasSent signal = true)
    (other : Signal) : (h.markSent other).wasSent signal = true := by
  cases other with
  | terminate => cases signal with
    | terminate => rfl
    | kill => exact hs
  | kill => cases signal with
    | terminate => exact hs
    | kill => rfl

end ProcessHandle

namespace Supervisor

/-- A process is started under the next number, or that number is lost. -/
theorem spawn_cases (host : Host) (s : Supervisor) (spec : ProcessSpec) :
    (∃ e, s.spawn host spec = (.error e, { s with nextId := s.nextId + 1 })) ∨
      ∃ h : ProcessHandle, h.id = ⟨s.nextId⟩ ∧
        (h.status = none ∧ h.terminateSent = false ∧ h.killSent = false ∧ h.captured = []) ∧
        s.spawn host spec =
          (.ok h, { s with nextId := s.nextId + 1, handles := s.handles.insert s.nextId h }) := by
  unfold spawn
  dsimp only
  split
  · exact .inl ⟨_, rfl⟩
  · exact .inl ⟨_, rfl⟩
  · exact .inr ⟨_, rfl, ⟨rfl, rfl, rfl, rfl⟩, rfl⟩

/-- A signal is noted on the handle before it is sent, and only on that of a process that is
alive and has not been sent it. -/
theorem send_cases (host : Host) (s : Supervisor) (id : ProcessId) (signal : Signal) :
    (s.find? id = none ∧ s.send host id signal = (.error (.unknownProcess id), s)) ∨
      (∃ h, s.find? id = some h ∧ (h.isAlive = false ∨ h.wasSent signal) ∧
        s.send host id signal = (.ok false, s)) ∨
      ∃ h n, s.find? id = some h ∧ h.isAlive = true ∧ h.wasSent signal = false ∧
        (s.send host id signal).2 = { s.update (h.markSent signal) with signalsSent := n } := by
  unfold send
  split
  · rename_i hf
    exact .inl ⟨hf, rfl⟩
  · rename_i h hf
    split
    · rename_i hs
      refine .inr (.inl ⟨h, hf, ?_, rfl⟩)
      simpa using hs
    · rename_i hs
      simp only [Bool.or_eq_true, Bool.not_eq_true', not_or, Bool.not_eq_false,
        Bool.not_eq_true] at hs
      dsimp only
      refine .inr (.inr ⟨h, ?_⟩)
      split
      · exact ⟨s.signalsSent, hf, hs.1, hs.2, rfl⟩
      · exact ⟨s.signalsSent, hf, hs.1, hs.2, rfl⟩
      · exact ⟨s.signalsSent + 1, hf, hs.1, hs.2, rfl⟩

/-- A handle is given up exactly when its process has ended. -/
theorem release?_cases (s : Supervisor) (id : ProcessId) :
    (s.release? id = none ∧ ∀ h, s.find? id = some h → h.isAlive = true) ∨
      ∃ h, s.find? id = some h ∧ h.isAlive = false ∧
        s.release? id = some (h, { s with handles := s.handles.erase id.number }) := by
  unfold release?
  split
  · rename_i hf
    exact .inl ⟨rfl, by simp [hf]⟩
  · rename_i h hf
    split
    · rename_i ha
      exact .inl ⟨rfl, by simpa [hf] using ha⟩
    · rename_i ha
      exact .inr ⟨h, hf, by simpa using ha, rfl⟩

/-- A notice is taken in on the handle of its process, or shown. -/
theorem absorb?_cases (s : Supervisor) (n : Notice) :
    (s.find? n.process = none ∧ s.absorb? n = none) ∨
      ∃ h, s.find? n.process = some h ∧
        ((∃ id status fault, n = .exited id status fault ∧
            s.absorb? n = some (s.update { h with status := some status })) ∨
          ∃ id stream line, n = .output id stream line ∧
            ((∃ captured, s.absorb? n = some (s.update { h with captured })) ∨
              ∃ shown, s.absorb? n = some { s with shown })) := by
  unfold absorb?
  cases hf : s.find? n.process with
  | none => exact .inl ⟨rfl, rfl⟩
  | some h =>
      refine .inr ⟨h, rfl, ?_⟩
      cases n with
      | exited id status fault => exact .inl ⟨id, status, fault, rfl, rfl⟩
      | output id stream line =>
          refine .inr ⟨id, stream, line, rfl, ?_⟩
          dsimp only
          split
          · exact .inl ⟨_, rfl⟩
          · exact .inr ⟨_, rfl⟩
          · exact .inr ⟨s.shown, rfl⟩
          · exact .inr ⟨s.shown, rfl⟩

/-- Every handle stands under the number of its process. -/
def Keyed (s : Supervisor) : Prop :=
  ∀ k h, s.handles.get? k = some h → h.id = ⟨k⟩

theorem keyed_start : start.Keyed := by
  intro k h hk
  cases hk

theorem Keyed.insert {s : Supervisor} (hs : s.Keyed) {k : Nat} {h : ProcessHandle}
    (hid : h.id = ⟨k⟩) {t : Supervisor} (ht : t.handles = s.handles.insert k h) : t.Keyed := by
  intro k' h' hk
  rw [ht, Table.get?_insert] at hk
  split at hk
  · rename_i heq
    cases hk
    rw [heq]
    exact hid
  · exact hs k' h' hk

theorem Keyed.update {s : Supervisor} (hs : s.Keyed) (h : ProcessHandle) : (s.update h).Keyed :=
  hs.insert rfl rfl

theorem Keyed.erase {s : Supervisor} (hs : s.Keyed) (k : Nat) :
    ({ s with handles := s.handles.erase k } : Supervisor).Keyed := by
  intro k' h hk
  exact hs k' h (Table.get?_of_get?_erase hk)

theorem Keyed.absorb? {s t : Supervisor} (hs : s.Keyed) {n : Notice} (ht : s.absorb? n = some t) :
    t.Keyed := by
  rcases s.absorb?_cases n with ⟨-, h⟩ | ⟨g, -, ⟨_, _, _, -, h⟩ | ⟨_, _, _, -, ⟨_, h⟩ | ⟨_, h⟩⟩⟩
  · rw [h] at ht
    cases ht
  · rw [h] at ht
    cases ht
    exact hs.update _
  · rw [h] at ht
    cases ht
    exact hs.update _
  · rw [h] at ht
    cases ht
    exact hs

/-- The living processes are those with the handle of a process that has not ended. -/
theorem Keyed.mem_live {s : Supervisor} (hs : s.Keyed) {id : ProcessId} :
    id ∈ s.live ↔ ∃ h, s.find? id = some h ∧ h.isAlive = true := by
  unfold live find?
  rw [List.mem_map]
  constructor
  · rintro ⟨h, hm, rfl⟩
    rw [List.mem_filter, Table.mem_values_iff] at hm
    obtain ⟨⟨k, hk⟩, ha⟩ := hm
    refine ⟨h, ?_, ha⟩
    rw [hs k h hk]
    exact hk
  · rintro ⟨h, hk, ha⟩
    refine ⟨h, ?_, hs _ h hk⟩
    rw [List.mem_filter, Table.mem_values_iff]
    exact ⟨⟨_, hk⟩, ha⟩

end Supervisor

end Conductor
