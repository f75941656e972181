import Conductor.Handler.Registry

/-!
# The registry of handlers in order

The numbers in a registry increase from entry to entry and stay below the next number to be
given (`Registry.Sound`), so a number names one handler. A handler that has been shown an
event would answer it again just as it did the first time (`observe_observe`): whether a
handler answers can be asked at any time during the turn of the event.
-/

namespace Conductor

namespace Roster

theorem note_note (r : Roster) (a : ActionId) (q : Progress) :
    (r.note a q).note a q = r.note a q := by
  unfold note
  rw [List.map_map]
  apply List.map_congr_left
  intro e _
  by_cases h : e.1 = a <;> simp [h]

theorem map_fst_note (r : Roster) (a : ActionId) (q : Progress) :
    (r.note a q).map (·.1) = r.map (·.1) := by
  unfold note
  rw [List.map_map]
  apply List.map_congr_left
  intro x _
  by_cases h : x.1 = a <;> simp [h]

theorem isSome_find?_iff (r : Roster) (a : ActionId) :
    (r.find? a).isSome = true ↔ a ∈ r.map (·.1) := by
  unfold find?
  induction r with
  | nil => simp
  | cons x r ih =>
      obtain ⟨b, q⟩ := x
      by_cases hb : a = b
      · simp [hb]
      · have hb' : (a == b) = false := by simpa using hb
        rw [List.lookup_cons, hb', List.map_cons, List.mem_cons, ih]
        simp [hb]

theorem isSome_find?_note (r : Roster) (a : ActionId) (q : Progress) :
    ((r.note a q).find? a).isSome = (r.find? a).isSome := by
  rw [Bool.eq_iff_iff, isSome_find?_iff, isSome_find?_iff, map_fst_note]

theorem observe_observe (r : Roster) (e : Event) :
    ((r.observe e).2.observe e).1 = (r.observe e).1 := by
  unfold observe
  cases Progress.ofEvent? e with
  | none => rfl
  | some x =>
      obtain ⟨a, q⟩ := x
      dsimp only
      rw [note_note, isSome_find?_note]

end Roster

namespace Trigger

/-- A trigger that has seen an event answers it as it did when it first saw it. -/
theorem observe_observe (t : Trigger) (e : Event) :
    ((t.observe e).2.observe e).1 = (t.observe e).1 := by
  cases t with
  | allExited r => exact r.observe_observe e
  | _ => rfl

end Trigger

namespace Handler

theorem observe_observe (h : Handler) (e : Event) :
    ((h.observe e).2.observe e).1 = (h.observe e).1 :=
  h.trigger.observe_observe e

@[simp] theorem once_observe (h : Handler) (e : Event) : (h.observe e).2.once = h.once := rfl

/-- What follows the end of a process waits for nothing else. -/
theorem observe_onExitOf (id : ProcessId) (as : List Action) (scope : Scope) (e : Event) :
    (onExitOf id as scope).observe e =
      (match e with | .processExited q _ => decide (q.id = id) | _ => false,
        onExitOf id as scope) := by
  cases e <;> rfl

end Handler

namespace Registry

/-- The handlers stand in the order of their numbers, all below the next one. -/
structure Sound (r : Registry) : Prop where
  increasing : r.ids.Pairwise (· < ·)
  below : ∀ id ∈ r.ids, id < r.nextId

variable {r : Registry}

theorem mem_ids {id : Nat} : id ∈ r.ids ↔ ∃ h ∈ r.entries, h.id = id := by
  simp [ids]

theorem ids_sublist_of_filter (r : Registry) (q : RegisteredHandler → Bool) :
    ({ r with entries := r.entries.filter q } : Registry).ids.Sublist r.ids :=
  (List.filter_sublist).map _

theorem sound_empty : empty.Sound :=
  ⟨.nil, by simp [ids, empty]⟩

theorem Sound.filter (hr : r.Sound) (q : RegisteredHandler → Bool) :
    ({ r with entries := r.entries.filter q } : Registry).Sound :=
  ⟨hr.increasing.sublist (ids_sublist_of_filter r q),
    fun id hid => hr.below id ((ids_sublist_of_filter r q).subset hid)⟩

theorem Sound.register (hr : r.Sound) (h : Handler) : (r.register h).Sound where
  increasing := by
    rw [ids_register, List.pairwise_append]
    refine ⟨hr.increasing, List.pairwise_singleton _ _, ?_⟩
    intro a ha b hb
    rw [List.mem_singleton] at hb
    exact hb ▸ hr.below a ha
  below := by
    intro id hid
    rw [ids_register, List.mem_append, List.mem_singleton] at hid
    rcases hid with hid | rfl
    · exact Nat.lt_succ_of_lt (hr.below id hid)
    · exact Nat.lt_succ_self _

theorem Sound.unregister (hr : r.Sound) (name : String) : (r.unregister name).Sound :=
  hr.filter _

theorem Sound.remove (hr : r.Sound) (id : Nat) : (r.remove id).Sound :=
  hr.filter _

theorem Sound.matching (hr : r.Sound) (e : Event) : (r.matching e).2.Sound where
  increasing := by
    rw [ids_matching]
    exact hr.increasing
  below := by
    rw [ids_matching]
    exact hr.below

/-- In a sound registry a handler is found under its number. -/
theorem Sound.find?_of_mem (hr : r.Sound) {h : RegisteredHandler} (hm : h ∈ r.entries) :
    r.find? h.id = some h := by
  obtain ⟨entries, nextId⟩ := r
  have hinc := hr.increasing
  clear hr
  unfold find?
  unfold ids at hinc
  dsimp only at hinc hm ⊢
  induction entries with
  | nil => cases hm
  | cons g rest ih =>
      rw [List.map_cons, List.pairwise_cons] at hinc
      rcases List.mem_cons.mp hm with rfl | hm
      · simp
      · have hlt : g.id < h.id := hinc.1 _ (List.mem_map_of_mem hm)
        rw [List.find?_cons_of_neg (by simpa using Nat.ne_of_lt hlt)]
        exact ih hm hinc.2

/-- In a sound registry no two handlers have one number. -/
theorem Sound.eq_of_id (hr : r.Sound) {g h : RegisteredHandler} (hg : g ∈ r.entries)
    (hh : h ∈ r.entries) (heq : g.id = h.id) : g = h := by
  have hfound := hr.find?_of_mem hg
  rw [heq, hr.find?_of_mem hh] at hfound
  exact (Option.some.inj hfound).symm

theorem mem_of_find? {id : Nat} {h : RegisteredHandler} (hf : r.find? id = some h) :
    h ∈ r.entries ∧ h.id = id :=
  ⟨List.mem_of_find?_eq_some hf, by simpa using List.find?_some hf⟩

theorem not_mem_ids_of_find? {id : Nat} (hf : r.find? id = none) : id ∉ r.ids := by
  rw [mem_ids]
  rintro ⟨h, hm, rfl⟩
  have := List.find?_eq_none.mp hf h hm
  simp at this

theorem not_mem_ids_remove (r : Registry) (id : Nat) : id ∉ (r.remove id).ids := by
  rw [mem_ids]
  rintro ⟨h, hm, rfl⟩
  simp [remove] at hm

/-- The handlers that match are registered, and would still answer once all have seen the
event. -/
theorem observe_of_mem_matching {e : Event} {id : Nat} (hr : r.Sound)
    (hid : id ∈ (r.matching e).1) {h : RegisteredHandler} (hm : h ∈ (r.matching e).2.entries)
    (hh : h.id = id) : (h.handler.observe e).1 = true := by
  simp only [matching, List.mem_filterMap, List.mem_map, Option.ite_none_right_eq_some,
    Option.some.injEq] at hid hm
  obtain ⟨g, hg, hmatch, hgid⟩ := hid
  obtain ⟨g', hg', rfl⟩ := hm
  obtain rfl : g' = g := hr.eq_of_id hg' hg (hh.trans hgid.symm)
  rw [Handler.observe_observe]
  exact hmatch

/-- A registered handler that answers an event is among those that match it. -/
theorem mem_matching {e : Event} {h : RegisteredHandler} (hm : h ∈ r.entries)
    (ha : (h.handler.observe e).1 = true) : h.id ∈ (r.matching e).1 := by
  simp only [matching, List.mem_filterMap]
  exact ⟨h, hm, by rw [if_pos ha]⟩

end Registry

end Conductor
