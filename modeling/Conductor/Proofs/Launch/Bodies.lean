import Conductor.Proofs.Launch.Origin
import Conductor.Proofs.Launch.Siblings

/-!
# Bodies that have begun

A body is noted on the history when it begins. In a run such a note never stands alone: the body
is activated in the same stride, action by action, and the run goes on from there
(`carriesOut_of_strides`).
-/

namespace Conductor

variable {p : Deed → Prop} {l m n : Launch} {cause : BodyCause} {as : List Action}
  {scope : Option Scope}

namespace Launch

/-- The moves come to the beginning of the body, then all of its actions are activated one after
the other, and then the moves go on. -/
def CarriesOut (p : Deed → Prop) (l m : Launch) (cause : BodyCause) (as : List Action)
    (scope : Option Scope) : Prop :=
  ∃ n, Moves p l (n.happen (.began cause as scope)) ∧
    (n.happen (.began cause as scope)).Activates as (activateBody cause as scope n) ∧
    Moves p (activateBody cause as scope n) m

theorem Leaves.mem_began {performed : Action → Launch → Prop} (h : Leaves performed l m)
    (hb : .began cause as scope ∈ m.history) : .began cause as scope ∈ l.history := by
  obtain ⟨os, hos, hq⟩ := h
  rw [hos] at hb
  exact (List.mem_append.mp hb).resolve_left fun hnew => hq _ hnew

/-- The activation of a body begins no other body. -/
theorem eq_of_began_activateBody {cause' : BodyCause} {as' : List Action} {scope' : Option Scope}
    (hb : .began cause as scope ∈ (activateBody cause' as' scope' l).history) :
    .began cause as scope ∈ l.history ∨ (cause = cause' ∧ as = as' ∧ scope = scope') := by
  obtain ⟨os, hos, hq⟩ := leaves_activateBody ⟨cause', as', scope', l⟩
  change (activateBody cause' as' scope' l).history =
    os ++ .began cause' as' scope' :: l.history at hos
  rw [hos] at hb
  rcases List.mem_cons.mp ((List.mem_append.mp hb).resolve_left fun hnew => hq _ hnew) with
    heq | hold
  · cases heq
    exact .inr ⟨rfl, rfl, rfl⟩
  · exact .inl hold

end Launch

/-- A body that is new on the history has been activated in the stride. -/
theorem Stride.of_began (h : Stride p l m) (hb : .began cause as scope ∈ m.history) :
    .began cause as scope ∈ l.history ∨ ∃ n, Moves p l (n.happen (.began cause as scope)) ∧
      m = Launch.activateBody cause as scope n := by
  have hquiet (hm : l.Steady m) : .began cause as scope ∈ l.history := hm.leaves.mem_began hb
  have hclose (e : Event) : l.Steady (l.closeTurn e) := Launch.steady_of_cons rfl rfl rfl trivial
  -- Of a body that is activated only its own beginning is new.
  have hbody {n : Launch} {cause' : BodyCause} {as' : List Action} {scope' : Option Scope}
      (hn : l.Steady n) (hmoves : Moves p l (n.happen (.began cause' as' scope')))
      (hm : m = Launch.activateBody cause' as' scope' n) :
      .began cause as scope ∈ l.history ∨ ∃ n, Moves p l (n.happen (.began cause as scope)) ∧
        m = Launch.activateBody cause as scope n := by
    rw [hm] at hb
    rcases Launch.eq_of_began_activateBody hb with hold | ⟨rfl, rfl, rfl⟩
    · exact .inl (hn.leaves.mem_began hold)
    · exact .inr ⟨n, hmoves, hm⟩
  cases h with
  | describe as' hl has => exact .inl ((Launch.composed_leaves.activateAll as' l).mem_began hb)
  | take e rest hp hc hs => exact .inl (hquiet (Launch.steady_of_cons rfl rfl rfl trivial))
  | ignore e rest hp hc he hs => exact .inl (hquiet (Launch.steady_of_cons rfl rfl rfl trivial))
  | interrupt e hc => exact .inl (hquiet (Launch.steady_of_cons rfl rfl rfl trivial))
  | answer e h writer as' hc hf hm hy has =>
      exact hbody (Launch.steady_withWriter l h writer)
        (.single (.answer e h writer as' hc hf hm hy has)) rfl
  | decline e h writer err hc hf hm hy =>
      exact .inl (hquiet ((Launch.steady_withWriter l h writer).trans
        (Launch.aside_report _ err).steady))
  | close e hc hs he => exact .inl (hquiet (hclose e))
  | release q status r hc hr => exact .inl (hquiet (Launch.steady_givenUp l q status))
  | respawn r hc hf ha =>
      exact hbody (.refl l) (.single (.resume _ _ _ (by simp) ha)) rfl
  | postpone r delay hc hf ha =>
      have hscheduled : .began cause as scope ∈ Occurrence.scheduled l.nextTimer _ :: l.history := hb
      exact .inl ((List.mem_cons.mp hscheduled).resolve_left nofun)
  | shutdown reason due hc hbegin =>
      exact .inl (hquiet ((hclose _).trans (Launch.steady_beginShutdown hbegin)))
  | arrive a hc hp hn ht => exact .inl (hquiet (Launch.steady_arrive l a))
  | request reason due hc hf => exact .inl (hquiet (Launch.steady_of_cons rfl rfl rfl trivial))
  | notice a n hc hp ha =>
      exact .inl (hquiet ((Launch.steady_arrive l a).trans (Launch.steady_onNotice _ n)))
  | fire a id t hc hp ha ht has =>
      exact hbody ((Launch.steady_arrive l a).trans (Launch.steady_elapse _ id t))
        (Launch.fire_moves hc hp ha ht has) rfl
  | kill hc hp hs => exact .inl (hquiet (Launch.steady_killRemaining l))

namespace Launch

/-- What was carried out stays so. -/
theorem CarriesOut.trans (h : CarriesOut p l m cause as scope) (hm : Moves p m n) :
    CarriesOut p l n cause as scope := by
  obtain ⟨k, hbefore, hactivates, hafter⟩ := h
  exact ⟨k, hbefore, hactivates, hafter.trans hm⟩

/-- **A body that has begun in a run is carried out.** -/
theorem carriesOut_of_strides {config : Config} {host : Host} {args : LaunchArguments}
    (h : Strides p (.start config host args) l) (hb : .began cause as scope ∈ l.history) :
    CarriesOut p (.start config host args) l cause as scope := by
  induction h with
  | refl => cases hb
  | tail hbefore hlast ih =>
      rcases hlast.of_began hb with hold | ⟨k, hmoves, rfl⟩
      · exact (ih hold).trans hlast.moves
      · exact ⟨k, (Strides.moves hbefore).trans hmoves, activateBody_activates cause as scope k,
          .refl⟩

end Launch

end Conductor
