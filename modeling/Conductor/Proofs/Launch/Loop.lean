import Conductor.Proofs.Launch.Stride

/-!
# The loop of a launch

The loop takes one event after the other, and one message when no event is left. Here it is
shown that whatever it does is a sequence of strides (`dispatch_strides`, `receive_strides`),
and that a run passes only through the states of `Reachable`, which says event by event and
message by message how a launch goes on.
-/

namespace Conductor

namespace Registry

/-- Under the numbers that were given already the new registry has no handler that the old
one does not have. -/
structure Within (r r' : Registry) : Prop where
  nextId : r.nextId ≤ r'.nextId
  old : ∀ h ∈ r'.entries, h.id < r.nextId → h ∈ r.entries

theorem Within.refl (r : Registry) : r.Within r :=
  ⟨Nat.le_refl _, fun _ h _ => h⟩

theorem Within.trans {r r' r'' : Registry} (h : r.Within r') (h' : r'.Within r'') :
    r.Within r'' where
  nextId := Nat.le_trans h.nextId h'.nextId
  old := fun g hg hlt => h.old g (h'.old g hg (Nat.lt_of_lt_of_le hlt h.nextId)) hlt

theorem within_register (r : Registry) (h : Handler) : r.Within (r.register h) where
  nextId := Nat.le_succ _
  old := by
    intro g hg hlt
    rw [register, List.mem_append, List.mem_singleton] at hg
    rcases hg with hg | rfl
    · exact hg
    · exact absurd hlt (Nat.lt_irrefl _)

theorem within_filter (r : Registry) (q : RegisteredHandler → Bool) :
    r.Within { r with entries := r.entries.filter q } where
  nextId := Nat.le_refl _
  old := fun _ hg _ => (List.mem_filter.mp hg).1

/-- A number that is taken and no longer in use stays out of use. -/
theorem Within.not_mem_ids {r r' : Registry} (h : r.Within r') {id : Nat} (hlt : id < r.nextId)
    (hid : id ∉ r.ids) : id ∉ r'.ids := by
  intro hmem
  obtain ⟨g, hg, rfl⟩ := mem_ids.mp hmem
  exact hid (mem_ids.mpr ⟨g, h.old g hg hlt, rfl⟩)

end Registry

variable {p : Deed → Prop} {l m : Launch}

theorem Effect.within (h : Effect p l m) : l.registry.Within m.registry := by
  rcases h.registry with hr | ⟨b, -, hr⟩ | ⟨name, hr⟩
  · rw [hr]
    exact .refl _
  · rw [hr]
    exact Registry.within_register _ b
  · rw [hr]
    exact Registry.within_filter _ _

theorem Effects.within (h : Effects p l m) : l.registry.Within m.registry := by
  induction h with
  | refl => exact .refl _
  | tail _ h ih => exact ih.trans h.within

namespace Launch

/-- The same event has its turn in both launches: none began or ended in between, and no
handler came back. -/
structure SameTurn (l m : Launch) : Prop where
  current : m.context.current = l.context.current
  registry : l.registry.Within m.registry
  history : ∃ os, m.history = os ++ l.history ∧ ∀ o ∈ os, o.marksTurn = false

theorem SameTurn.refl (l : Launch) : l.SameTurn l :=
  ⟨rfl, .refl _, [], rfl, by simp⟩

theorem SameTurn.trans {l m n : Launch} (h : l.SameTurn m) (h' : m.SameTurn n) :
    l.SameTurn n := by
  obtain ⟨os, hos, hq⟩ := h.history
  obtain ⟨os', hos', hq'⟩ := h'.history
  refine ⟨h'.current.trans h.current, h.registry.trans h'.registry, os' ++ os, ?_, ?_⟩
  · rw [hos', hos, List.append_assoc]
  · intro o ho
    rcases List.mem_append.mp ho with ho | ho
    · exact hq' o ho
    · exact hq o ho

theorem sameTurn_of_effects (h : Effects p l m) : l.SameTurn m := by
  obtain ⟨os, hos, hq⟩ := h.grown.history
  exact ⟨h.sameLoop.current, h.within, os, hos,
    fun o ho => Occurrence.marksTurn_of_isOfLoop (hq o ho)⟩

/-- Putting on the history that something of the turn happened stays in the turn. -/
theorem sameTurn_happen (l : Launch) {o : Occurrence} (ho : o.marksTurn = false) :
    l.SameTurn (l.happen o) := by
  refine ⟨rfl, .refl _, [o], rfl, ?_⟩
  intro o' ho'
  rw [List.mem_singleton.mp ho']
  exact ho

theorem sameTurn_withWriter (l : Launch) (h : RegisteredHandler) (writer : Nat) :
    l.SameTurn (l.withWriter h writer) where
  current := rfl
  registry := by
    unfold withWriter
    dsimp only
    split
    · exact Registry.within_filter _ _
    · exact .refl _
  history := ⟨[], rfl, by simp⟩

/-- The second launch comes from the first one, and between the two no turn, no body, no process
and no shutdown began or ended. -/
structure Calm (l m : Launch) : Prop where
  current : m.context.current = l.context.current
  registry : l.registry.Within m.registry
  history : ∃ os, m.history = os ++ l.history ∧ ∀ o ∈ os, o.isAside = true

theorem Calm.refl (l : Launch) : l.Calm l :=
  ⟨rfl, .refl _, [], rfl, by simp⟩

theorem Calm.trans {l m n : Launch} (h : l.Calm m) (h' : m.Calm n) : l.Calm n := by
  obtain ⟨os, hos, hq⟩ := h.history
  obtain ⟨os', hos', hq'⟩ := h'.history
  refine ⟨h'.current.trans h.current, h.registry.trans h'.registry, os' ++ os, ?_, ?_⟩
  · rw [hos', hos, List.append_assoc]
  · intro o ho
    rcases List.mem_append.mp ho with ho | ho
    · exact hq' o ho
    · exact hq o ho

theorem Calm.sameTurn {l m : Launch} (h : l.Calm m) : l.SameTurn m := by
  obtain ⟨os, hos, hq⟩ := h.history
  exact ⟨h.current, h.registry, os, hos, fun o ho => Occurrence.marksTurn_of_isAside (hq o ho)⟩

/-- Effects of which no deed is the cause are calm. -/
theorem calm_of_effects (h : Effects (fun _ => False) l m) : l.Calm m := by
  induction h with
  | refl => exact .refl l
  | tail _ h ih =>
      refine ih.trans ⟨h.sameLoop.current, h.within, ?_⟩
      rcases h.history with ⟨os, hos, hq⟩ | ⟨-, t, hos⟩ | ⟨r, w, onExit, -, hr⟩
      · exact ⟨os, hos, fun o ho => Occurrence.isAside_of_not (hq o ho).1 (hq o ho).2⟩
      · exact ⟨[_], hos, by simp [Occurrence.isAside]⟩
      · exact (Action.every_iff.mp hr).self.elim

/-- The activation of a body is of one turn, whatever it holds. -/
theorem sameTurn_activateBody (cause : BodyCause) (as : List Action) (scope : Option Scope)
    (l : Launch) : l.SameTurn (activateBody cause as scope l) := by
  exact (sameTurn_happen l rfl).trans
    (sameTurn_of_effects (activateBody_effects (Action.every_true as) cause scope l))

/-! ## The turn of an event -/

/-- A handler answers with a body that is activated, or fails. -/
theorem answer_cases (l : Launch) (e : Event) (writer id : Nat) :
    (l.registry.find? id = none ∧ l.answer e writer id = l) ∨
      ∃ h, l.registry.find? id = some h ∧
        ((∃ as l', (l' = l ∨ l' = l.interrupt) ∧
            (h.handler.body.produce e l.context).answer? = some as ∧
            l.answer e writer id =
              activateBody (.handler id) as h.handler.scope (l'.withWriter h writer)) ∨
          ∃ err, (h.handler.body.produce e l.context).answer? = none ∧
            l.answer e writer id = (l.withWriter h writer).report err) := by
  unfold answer Registry.respond
  cases hf : l.registry.find? id with
  | none => exact .inl ⟨rfl, rfl⟩
  | some h =>
      obtain ⟨-, rfl⟩ := Registry.mem_of_find? hf
      refine .inr ⟨h, rfl, ?_⟩
      dsimp only
      unfold activateResponse
      cases hy : h.handler.body.produce e l.context with
      | actions as => exact .inl ⟨as, l, .inl rfl, rfl, rfl⟩
      | interrupt => exact .inl ⟨[], l.interrupt, .inr rfl, rfl, rfl⟩
      | failure err => exact .inr ⟨_, rfl, rfl⟩

/-- Once a handler has been taken out to answer, the rest of its answer is of the same turn. -/
theorem sameTurn_of_find? {id : Nat} {h : RegisteredHandler} (hf : l.registry.find? id = some h)
    (e : Event) (writer : Nat) : (l.withWriter h writer).SameTurn (l.answer e writer id) := by
  rcases l.answer_cases e writer id with ⟨hn, -⟩ | ⟨g, hg, hanswer⟩
  · rw [hf] at hn
    cases hn
  · rw [hf] at hg
    cases hg
    rcases hanswer with ⟨as, l', hl', -, ha⟩ | ⟨err, -, ha⟩
    · rw [ha]
      have hbody := sameTurn_activateBody (.handler id) as h.handler.scope (l'.withWriter h writer)
      rcases hl' with rfl | rfl
      · exact hbody
      · exact (sameTurn_happen (l.withWriter h writer) rfl).trans hbody
    · rw [ha]
      exact sameTurn_of_effects (.single (report_effect (p := fun _ => True) _ err))

theorem sameTurn_answer (l : Launch) (e : Event) (writer id : Nat) :
    l.SameTurn (l.answer e writer id) := by
  cases hf : l.registry.find? id with
  | none =>
      rcases l.answer_cases e writer id with ⟨-, h⟩ | ⟨g, hg, -⟩
      · rw [h]
        exact .refl l
      · rw [hf] at hg
        cases hg
  | some h => exact (sameTurn_withWriter l h writer).trans (sameTurn_of_find? hf e writer)

/-- A one-shot handler that is asked is gone afterwards. -/
theorem not_mem_ids_answer {id : Nat} (hlt : id < l.registry.nextId)
    (honce : ∀ h ∈ l.registry.entries, h.id = id → h.handler.once = true) (e : Event)
    (writer : Nat) : id ∉ (l.answer e writer id).registry.ids := by
  cases hf : l.registry.find? id with
  | none =>
      exact (sameTurn_answer l e writer id).registry.not_mem_ids hlt
        (Registry.not_mem_ids_of_find? hf)
  | some h =>
      obtain ⟨hmem, rfl⟩ := Registry.mem_of_find? hf
      have hremoved : (l.withWriter h writer).registry = l.registry.remove h.id :=
        if_pos (honce h hmem rfl)
      refine (sameTurn_of_find? hf e writer).registry.not_mem_ids ?_ ?_
      · rw [hremoved]
        exact hlt
      · rw [hremoved]
        exact Registry.not_mem_ids_remove _ _

theorem sameTurn_answerAll (e : Event) (writer : Nat) (ids : List Nat) (l : Launch) :
    l.SameTurn (answerAll e writer ids l) := by
  induction ids generalizing writer l with
  | nil => exact .refl l
  | cons id rest ih => exact (sameTurn_answer l e writer id).trans (ih _ _)

/-- What a handler answers is in order. -/
theorem Sound.every_of_answer {e : Event} {h : RegisteredHandler} {as : List Action}
    (hl : l.Sound p) (hmem : h ∈ l.registry.entries)
    (hy : (h.handler.body.produce e l.context).answer? = some as) : ∀ a ∈ as, a.Every p := by
  have hyield := (hl.handlers h hmem).produce e l.context
  cases hp : h.handler.body.produce e l.context with
  | actions as' =>
      rw [hp] at hy hyield
      cases hy
      exact everyDeed_iff.mp hyield
  | interrupt =>
      rw [hp] at hy
      cases hy
      simp
  | failure err =>
      rw [hp] at hy
      cases hy

/-- A handler that matches the event of the turn answers it by strides. -/
theorem answer_strides {e : Event} {id : Nat} (hl : l.Sound p) (hc : l.context.current = some e)
    (hm : ∀ h ∈ l.registry.entries, h.id = id → (h.handler.observe e).1 = true) (writer : Nat) :
    Strides p l (l.answer e writer id) := by
  rcases l.answer_cases e writer id with ⟨-, h⟩ | ⟨g, hf, hg⟩
  · rw [h]
  · obtain ⟨hmem, rfl⟩ := Registry.mem_of_find? hf
    have hmatch := hm g hmem rfl
    rcases hg with ⟨as, l', hl', hy, h⟩ | ⟨err, hy, h⟩
    · rw [h]
      have has := hl.every_of_answer hmem hy
      rcases hl' with rfl | rfl
      · exact .single (.answer e g writer as hc hf hmatch hy has)
      · have hask : Stride p l l.interrupt := .interrupt e hc
        exact .head hask (.single (.answer e g writer as hc hf hmatch hy has))
    · rw [h]
      exact .single (.decline e g writer err hc hf hmatch hy)

/-- The handlers of these numbers were registered before now, and those that still are match the
event. -/
def Matches (l : Launch) (e : Event) (ids : List Nat) : Prop :=
  ∀ id ∈ ids, id < l.registry.nextId ∧
    ∀ h ∈ l.registry.entries, h.id = id → (h.handler.observe e).1 = true

/-- What happens in the turn leaves the handlers that are still to be asked as they were found. -/
theorem Matches.sameTurn {e : Event} {ids : List Nat} (hm : l.Matches e ids) (h : l.SameTurn m) :
    m.Matches e ids := by
  intro id hid
  obtain ⟨hlt, hobs⟩ := hm id hid
  refine ⟨Nat.lt_of_lt_of_le hlt h.registry.nextId, ?_⟩
  intro g hmem heq
  exact hobs g (h.registry.old g hmem (heq ▸ hlt)) heq

/-- The handlers that are found when the turn begins match the event. -/
theorem matches_openTurn {e : Event} (hl : l.registry.Sound) :
    (l.openTurn e).2.Matches e (l.openTurn e).1 := by
  intro id hid
  refine ⟨?_, fun h hm heq => Registry.observe_of_mem_matching hl hid hm heq⟩
  obtain ⟨g, hg, hsome⟩ := List.mem_filterMap.mp hid
  rw [Option.ite_none_right_eq_some, Option.some.injEq] at hsome
  rw [← hsome.2]
  exact hl.below g.id (Registry.mem_ids.mpr ⟨g, hg, rfl⟩)

theorem answerAll_strides {e : Event} {ids : List Nat} (hl : l.Sound p)
    (hc : l.context.current = some e) (hm : l.Matches e ids) (writer : Nat) :
    Strides p l (answerAll e writer ids l) := by
  induction ids generalizing writer l with
  | nil => exact .refl
  | cons id rest ih =>
      have hfirst := answer_strides hl hc (hm id List.mem_cons_self).2 writer
      have hturn := sameTurn_answer l e writer id
      have hrest : l.Matches e rest := fun i hi => hm i (List.mem_cons_of_mem id hi)
      exact hfirst.trans
        (ih (hl.strides hfirst) (hturn.current.trans hc) (hrest.sameTurn hturn) _)

/-- That holds of every handler that is asked during the turn. -/
theorem not_mem_ids_answerAll (e : Event) {id : Nat} {ids : List Nat} (hid : id ∈ ids)
    (hlt : id < l.registry.nextId)
    (honce : ∀ h ∈ l.registry.entries, h.id = id → h.handler.once = true) (writer : Nat) :
    id ∉ (answerAll e writer ids l).registry.ids := by
  induction ids generalizing writer l with
  | nil => cases hid
  | cons id' rest ih =>
      have hturn := sameTurn_answer l e writer id'
      have hrest := sameTurn_answerAll e (writer + 1) rest (l.answer e writer id')
      -- It is gone once it has been asked, and nothing brings it back.
      rcases List.mem_cons.mp hid with rfl | hid
      · exact hrest.registry.not_mem_ids (Nat.lt_of_lt_of_le hlt hturn.registry.nextId)
          (not_mem_ids_answer hlt honce e writer)
      · refine ih hid (Nat.lt_of_lt_of_le hlt hturn.registry.nextId) (fun h hm heq => ?_) _
        exact honce h (hturn.registry.old h hm (heq ▸ hlt)) heq

/-! ## Dispatch -/

/-- The turn of an event up to its end. -/
theorem openTurn_strides {e : Event} (hl : l.Sound p) :
    Strides p (l.openTurn e).2 (answerAll e 0 (l.openTurn e).1 (l.openTurn e).2) :=
  answerAll_strides (hl.openTurn e) rfl (matches_openTurn hl.registry) 0

/-- A process is started again by strides. -/
theorem respawn_strides {r : RunningProcess} (hc : l.context.current = none)
    (hr : r.action.Every p) : Strides p l (l.respawn r) := by
  have hsame : ∀ a ∈ [r.action], a.Every p := List.forall_mem_singleton.mpr hr
  unfold respawn
  split
  · split
    · exact .refl
    · split
      · exact .refl
      · rename_i hf
        dsimp only
        split
        · exact .single (.respawn r hc (Bool.eq_false_iff.mpr hf) hsame)
        · exact .single (.postpone r _ hc (Bool.eq_false_iff.mpr hf) hsame)
  · exact .refl

theorem sameTurn_respawn (r : RunningProcess) (l : Launch) : l.SameTurn (l.respawn r) := by
  unfold respawn
  split
  · split
    · exact .refl l
    · split
      · exact .refl l
      · dsimp only
        split
        · exact sameTurn_activateBody _ _ _ l
        · exact ⟨rfl, .refl _, [_], rfl, by simp [Occurrence.marksTurn]⟩
  · exact .refl l

theorem calm_releaseProcess (l : Launch) (id : ProcessId) : l.Calm (l.releaseProcess id) := by
  rcases l.releaseProcess_cases id with ⟨-, h⟩ | ⟨g, -, -, h⟩
  · rw [h]
    exact ⟨rfl, .refl _, [], rfl, by simp⟩
  · rw [h]
    exact ⟨rfl, .refl _, [.released g], rfl, by simp [Occurrence.isAside]⟩

/-- What follows the handlers of an event ends its turn. -/
theorem afterTurn_strides {e : Event} (hl : l.Sound p) (hc : l.context.current = some e)
    (h : (l.closeTurn e).afterTurn e = .ok m) : Strides p l m := by
  cases e with
  | shutdownRequested reason due => exact .single (.shutdown reason due hc h)
  | processExited q status =>
      change Except.ok ((l.closeTurn _).finishProcess q.id) = .ok m at h
      cases h
      unfold finishProcess
      split
      · rename_i hr
        refine .single (.close _ hc rfl ?_)
        rintro _ _ ⟨⟩
        exact hr
      · rename_i r hr
        -- No event has its turn any more when the process is started again.
        have hquiet : ((l.closeTurn (.processExited q status)).releaseProcess q.id).context.current
            = none := (calm_releaseProcess _ q.id).current
        exact .head (.release q status r hc hr)
          (respawn_strides hquiet (hl.processes _ r hr).2)
  | processStarted _ =>
      cases h
      exact .single (.close _ hc rfl (by simp))
  | processOutput _ _ _ =>
      cases h
      exact .single (.close _ hc rfl (by simp))
  | timerElapsed _ =>
      cases h
      exact .single (.close _ hc rfl (by simp))
  | custom _ _ =>
      cases h
      exact .single (.close _ hc rfl (by simp))

theorem calm_beginShutdown {reason : String} (h : l.beginShutdown reason = .ok m) :
    ∃ deadline, (l.withShutdown reason deadline).Calm m := by
  obtain ⟨deadline, heffects⟩ := beginShutdown_effects h
  exact ⟨deadline, calm_of_effects heffects⟩

/-- What follows the handlers of an event begins no further turn. -/
theorem sameTurn_afterTurn {e : Event} (h : l.afterTurn e = .ok m) : l.SameTurn m := by
  cases e with
  | shutdownRequested reason due =>
      obtain ⟨deadline, hcalm⟩ := calm_beginShutdown h
      have hbegun : l.SameTurn (l.withShutdown reason deadline) :=
        ⟨rfl, .refl _, [.shutdownBegan reason], rfl, by simp [Occurrence.marksTurn]⟩
      exact hbegun.trans hcalm.sameTurn
  | processExited q status =>
      change Except.ok (l.finishProcess q.id) = .ok m at h
      cases h
      unfold finishProcess
      split
      · exact .refl l
      · exact (calm_releaseProcess l q.id).sameTurn.trans (sameTurn_respawn _ _)
  | _ =>
      cases h
      exact .refl _

/-- The turn of an event, from its beginning to its end. -/
theorem dispatch_cases {e : Event} (h : l.dispatch e = .ok m) :
    (e.isShutdownRequest = true ∧ l.shutdown.isSome = true ∧ m = l.happen (.ignored e)) ∨
      (e.isShutdownRequest = true → l.shutdown = none) ∧
        ((answerAll e 0 ((l.happen (.dispatched e)).openTurn e).1
          ((l.happen (.dispatched e)).openTurn e).2).closeTurn e).afterTurn e = .ok m := by
  unfold dispatch at h
  split at h
  · rename_i hi
    cases h
    rw [Bool.and_eq_true] at hi
    exact .inl ⟨hi.1, hi.2, rfl⟩
  · rename_i hi
    refine .inr ⟨fun he => ?_, h⟩
    rw [he, Bool.true_and] at hi
    exact Option.not_isSome_iff_eq_none.mp hi

/-- **The dispatch of the oldest event is a sequence of strides.** -/
theorem dispatch_strides {e : Event} {rest : List Event} (hl : l.Sound p)
    (hc : l.context.current = none) (hp : l.context.pending = e :: rest)
    (h : (l.withoutNext rest).dispatch e = .ok m) : Strides p l m := by
  rcases dispatch_cases h with ⟨he, hs, rfl⟩ | ⟨hs, hend⟩
  · exact .single (.ignore e rest hp hc he hs)
  · have hsound : ((l.withoutNext rest).happen (.dispatched e)).Sound p :=
      hl.same rfl rfl rfl rfl rfl rfl
    have hturn := openTurn_strides (e := e) hsound
    have hcur := (sameTurn_answerAll e 0
      (((l.withoutNext rest).happen (.dispatched e)).openTurn e).1
      (((l.withoutNext rest).happen (.dispatched e)).openTurn e).2).current
    have hafter := afterTurn_strides ((hsound.openTurn e).strides hturn) hcur hend
    -- The turn is opened, the handlers answer, and what follows closes it.
    exact .head (.take e rest hp hc hs) (hturn.trans hafter)

/-- No event has its turn after a dispatch, no other event had its turn during it, and no
handler came back. -/
theorem dispatch_frame {e : Event} (hc : l.context.current = none) (h : l.dispatch e = .ok m) :
    m.context.current = none ∧
      (∀ id, id < l.registry.nextId → id ∉ l.registry.ids → id ∉ m.registry.ids) ∧
      ∃ os, m.history = os ++ l.history ∧ ∀ e', .turnEnded e' ∈ os → e' = e := by
  rcases dispatch_cases h with ⟨-, -, rfl⟩ | ⟨-, hend⟩
  · exact ⟨hc, fun _ _ h => h, [.ignored e], rfl, by simp⟩
  · have hturn := sameTurn_answerAll e 0 ((l.happen (.dispatched e)).openTurn e).1
      ((l.happen (.dispatched e)).openTurn e).2
    have hafter := sameTurn_afterTurn hend
    obtain ⟨os, hos, hq⟩ := hturn.history
    obtain ⟨os', hos', hq'⟩ := hafter.history
    refine ⟨hafter.current, fun id hlt hid => ?_, os' ++ .turnEnded e :: (os ++ [.dispatched e]),
      ?_, fun e' he' => ?_⟩
    · apply (hturn.registry.trans hafter.registry).not_mem_ids hlt
      show id ∉ (l.registry.matching e).2.ids
      rw [Registry.ids_matching]
      exact hid
    · rw [hos']
      show os' ++ .turnEnded e :: (answerAll e 0 _ _).history = _
      rw [hos]
      simp [openTurn, happen]
    · simp only [List.mem_append, List.mem_cons, List.not_mem_nil, or_false] at he'
      rcases he' with he' | he' | he' | he'
      · cases hq' _ he'
      · cases he'
        rfl
      · cases hq _ he'
      · cases he'

/-! ## Messages -/

theorem calm_emit (l : Launch) (e : Event) : l.Calm (l.emit e) :=
  ⟨rfl, .refl _, [.emitted e], rfl, by simp [Occurrence.isAside]⟩

theorem calm_onNotice (l : Launch) (n : Notice) : l.Calm (l.onNotice n) := by
  have hsup : ∀ s, l.Calm { l with supervisor := s } := fun s => ⟨rfl, .refl _, [], rfl, by simp⟩
  rcases l.onNotice_cases n with
      ⟨-, h⟩ | ⟨s, -, ⟨-, h⟩ | ⟨r, -, ⟨_, _, _, -, h⟩ | ⟨_, status, fault, -, h⟩⟩⟩
  · rw [h]
    exact .refl l
  · rw [h]
    exact hsup s
  · rw [h]
    exact (hsup s).trans (calm_emit _ _)
  · obtain ⟨m, hm, hend⟩ := processEnded_effects { l with supervisor := s } r status fault
    rw [h, hend]
    exact ((hsup s).trans (calm_of_effects hm)).trans (calm_emit _ _)

theorem calm_elapse (l : Launch) (id : Nat) (t : Timer) : l.Calm (l.elapse id t) := by
  have htaken : l.Calm ({ l with timers := l.timers.erase id }.happen (.fired id)) :=
    ⟨rfl, .refl _, [.fired id], rfl, by simp [Occurrence.isAside]⟩
  unfold elapse
  dsimp only
  split
  · exact htaken
  · rename_i seq _
    have hrecord : ∀ n : Launch, n.Calm (n.advance seq .completed) := fun n =>
      calm_of_effects (.single (.advance seq .completed))
    exact (htaken.trans (hrecord _)).trans (calm_emit _ _)

theorem calm_killRemaining (l : Launch) : l.Calm l.killRemaining := by
  rcases killRemaining_effects (p := fun _ => False) l with h | h
  · rw [h]
    exact .refl l
  · have hforced : l.Calm { l with forced := true } := ⟨rfl, .refl _, [], rfl, by simp⟩
    exact hforced.trans (calm_of_effects h)

theorem calm_arrive (l : Launch) (a : Arrival) : l.Calm (l.arrive a) :=
  ⟨rfl, .refl _, [.received a.message], rfl, by simp [Occurrence.isAside]⟩

/-- No event gets its turn while a message is handled. -/
theorem sameTurn_receive (l : Launch) (a : Arrival) : l.SameTurn (l.receive a).launch := by
  apply (calm_arrive l a).sameTurn.trans
  unfold receive handle
  split
  · exact (calm_onNotice _ _).sameTurn
  · show (l.arrive a).SameTurn ((l.arrive a).fireTimer _)
    unfold fireTimer
    split
    · exact .refl _
    · exact (calm_elapse _ _ _).sameTurn.trans (sameTurn_activateBody _ _ _ _)
  · split
    · exact (calm_killRemaining _).sameTurn
    · exact (calm_of_effects (requestShutdown_effects _ _ _)).sameTurn
  · split
    · exact (calm_killRemaining _).sameTurn
    · exact .refl _

/-- **The handling of a message is a sequence of strides.** -/
theorem receive_strides (hl : l.Sound p) (hc : l.context.current = none)
    (hp : l.context.pending = []) (a : Arrival) : Strides p l (l.receive a).launch := by
  obtain ⟨time, host, message⟩ := a
  cases message with
  | notice n => exact .single (.notice _ n hc hp rfl)
  | timerFired id =>
      show Strides p l ((l.arrive ⟨time, host, .timerFired id⟩).fireTimer id)
      unfold fireTimer
      split
      · rename_i hn
        refine .single (.arrive _ hc hp (by simp) ?_)
        rintro _ ⟨⟩
        exact hn
      · rename_i t ht
        exact .single (.fire _ id t hc hp rfl ht (hl.timers id t ht))
  | interrupt =>
      have harrive : Stride p l (l.arrive ⟨time, host, .interrupt⟩) :=
        .arrive _ hc hp (by simp) (by simp)
      unfold receive handle
      dsimp only
      split
      · rename_i hf
        exact .head harrive (.single (.kill hc hp hf))
      · rename_i hf
        have hask : Stride p _ _ := .request (l := l.arrive ⟨time, host, .interrupt⟩)
          "interrupted" true hc (Bool.eq_false_iff.mpr hf)
        refine .head harrive ?_
        rw [requestShutdown_eq (Bool.eq_false_iff.mpr hf)]
        exact .single hask
  | graceElapsed =>
      have harrive : Stride p l (l.arrive ⟨time, host, .graceElapsed⟩) :=
        .arrive _ hc hp (by simp) (by simp)
      unfold receive handle
      dsimp only
      split
      · rename_i hs
        exact .head harrive (.single (.kill hc hp (hl.flag hs)))
      · exact .single harrive

end Launch

/-! ## Runs -/

/-- Where a launch of a description can stand, whatever messages arrive and in whatever order:
before and after the dispatch of each event, and after the handling of each message. -/
inductive Reachable (config : Config) (host : Host) (args : LaunchArguments)
    (description : List Action) : Standing → Prop where
  | begin : Reachable config host args description (.waiting (.begin config host args description))
  /-- The oldest event is dispatched. -/
  | dispatch {l m : Launch} {e : Event} {rest : List Event}
      (h : Reachable config host args description (.waiting l))
      (hp : l.context.pending = e :: rest) (hd : (l.withoutNext rest).dispatch e = .ok m) :
      Reachable config host args description (.waiting m)
  /-- Nothing is left to wait for. -/
  | idle {l : Launch} (h : Reachable config host args description (.waiting l))
      (hi : l.isIdle = true) : Reachable config host args description (.ended l)
  | receive {l : Launch} (a : Arrival) (h : Reachable config host args description (.waiting l))
      (hp : l.context.pending = []) (hi : l.isIdle = false) :
      Reachable config host args description (l.receive a)

namespace Reachable

variable {config : Config} {host : Host} {args : LaunchArguments} {description : List Action}

theorem pending_of_next? {l : Launch} {e : Event} {c : Context}
    (h : l.context.next? = some (e, c)) :
    ∃ rest, l.context.pending = e :: rest ∧ { l with context := c } = l.withoutNext rest := by
  unfold Context.next? at h
  split at h
  · cases h
  · rename_i rest hp
    cases h
    exact ⟨rest, hp, rfl⟩

theorem pending_of_next?_none {l : Launch} (h : l.context.next? = none) :
    l.context.pending = [] := by
  unfold Context.next? at h
  split at h
  · assumption
  · cases h

theorem drain {fuel : Nat} (h : Reachable config host args description (.waiting l))
    (hd : l.drain fuel = .ok m) :
    Reachable config host args description (.waiting m) ∧ m.context.pending = [] := by
  -- The induction is on the bound, with one dispatch for each step.
  induction fuel generalizing l with
  | zero =>
      unfold Launch.drain at hd
      split at hd
      · rename_i hn
        cases hd
        exact ⟨h, pending_of_next?_none hn⟩
      · cases hd
  | succ fuel ih =>
      unfold Launch.drain at hd
      split at hd
      · rename_i hn
        cases hd
        exact ⟨h, pending_of_next?_none hn⟩
      · rename_i e c hn
        obtain ⟨rest, hp, heq⟩ := pending_of_next? hn
        dsimp only at hd
        rw [heq] at hd
        split at hd
        · cases hd
        · rename_i hm
          exact ih (h.dispatch hp hm) hd

theorem settleEvents {fuel : Nat} {s : Standing}
    (h : Reachable config host args description (.waiting l))
    (hs : l.settleEvents fuel = .ok s) :
    Reachable config host args description s ∧ s.launch.context.pending = [] ∧
      ∀ m, s = .waiting m → m.isIdle = false := by
  unfold Launch.settleEvents at hs
  split at hs
  · cases hs
  · rename_i m hm
    obtain ⟨hreach, hp⟩ := h.drain hm
    cases hs
    split
    · rename_i hi
      exact ⟨hreach.idle hi, hp, by simp⟩
    · rename_i hi
      refine ⟨hreach, hp, ?_⟩
      rintro _ ⟨⟩
      exact Bool.eq_false_iff.mpr hi

/-- **A run of the loop leads to reachable states only**, whatever messages it is given. -/
theorem run {fuel : Nat} {as : List Arrival} {s : Standing}
    (h : Reachable config host args description (.waiting l)) (hr : l.run fuel as = .ok s) :
    Reachable config host args description s := by
  induction as generalizing l with
  | nil =>
      unfold Launch.run at hr
      split at hr
      · cases hr
      · rename_i hs
        cases hr
        exact (h.settleEvents hs).1
      · rename_i hs
        cases hr
        exact (h.settleEvents hs).1
  | cons a rest ih =>
      unfold Launch.run at hr
      split at hr
      · cases hr
      · rename_i hs
        cases hr
        exact (h.settleEvents hs).1
      · rename_i m hs
        obtain ⟨hreach, hp, hi⟩ := h.settleEvents hs
        have hnext := hreach.receive a hp (hi m rfl)
        dsimp only at hr
        split at hr
        · rename_i hm
          cases hr
          rw [hm] at hnext
          exact hnext
        · rename_i hm
          rw [hm] at hnext
          exact ih hnext hr

variable {s : Standing}

/-- **Whatever is reached, is reached by strides**, and no event has its turn there. -/
theorem strides (hall : ∀ a ∈ description, a.Every p)
    (h : Reachable config host args description s) :
    Strides p (.start config host args) s.launch ∧ s.launch.context.current = none := by
  have hstart : (Launch.start config host args).Sound p := Launch.sound_start config host args
  induction h with
  | begin =>
      have hbegin : Effects p _ _ := Launch.activateAll_effects hall (.start config host args)
      have hquiet := Launch.start_context config host args
      exact ⟨.single (.describe description rfl hall),
        hbegin.sameLoop.current.trans hquiet.current⟩
  | @dispatch l m e rest _ hp hd ih =>
      obtain ⟨hstrides, hc⟩ := ih
      have hnext := Launch.dispatch_strides (hstart.strides hstrides) hc hp hd
      have hquiet : (l.withoutNext rest).context.current = none := hc
      exact ⟨hstrides.trans hnext, (Launch.dispatch_frame hquiet hd).1⟩
  | idle _ _ ih => exact ih
  | receive a _ hp _ ih =>
      obtain ⟨hstrides, hc⟩ := ih
      have hnext := Launch.receive_strides (hstart.strides hstrides) hc hp a
      exact ⟨hstrides.trans hnext, (Launch.sameTurn_receive _ a).current.trans hc⟩

/-- Whatever is reached, is reached by moves. -/
theorem moves (hall : ∀ a ∈ description, a.Every p)
    (h : Reachable config host args description s) :
    Moves p (.start config host args) s.launch ∧ s.launch.context.current = none := by
  obtain ⟨hstrides, hc⟩ := h.strides hall
  exact ⟨hstrides.moves, hc⟩

theorem sound (hall : ∀ a ∈ description, a.Every p)
    (h : Reachable config host args description s) : s.launch.Sound p :=
  (Launch.sound_start config host args).moves (h.moves hall).1

/-- A run ends when nothing is left to wait for, or what is left is killed during a shutdown. -/
theorem ended_cases (h : Reachable config host args description (.ended l)) :
    (Reachable config host args description (.waiting l) ∧ l.isIdle = true) ∨
      ∃ n a, Reachable config host args description (.waiting n) ∧ n.context.pending = [] ∧
        (n.arrive a).context.shuttingDown = true ∧ l = (n.arrive a).killRemaining := by
  generalize hs : Standing.ended l = s at h
  cases h with
  | begin => cases hs
  | dispatch _ _ _ => cases hs
  | idle hl hi =>
      cases hs
      exact .inl ⟨hl, hi⟩
  | @receive n a hn hp hi =>
      have hsound := hn.sound (Action.every_true description)
      right
      refine ⟨n, a, hn, hp, ?_⟩
      unfold Launch.receive Launch.handle at hs
      split at hs
      · cases hs
      · cases hs
      · split at hs
        · rename_i hf
          cases hs
          exact ⟨hf, rfl⟩
        · cases hs
      · split at hs
        · rename_i hsome
          cases hs
          exact ⟨hsound.flag hsome, rfl⟩
        · cases hs

/-- Whether a run comes to an end or to a pause that passes a test. -/
def comesTo (check : Standing → Bool) : Except Halt Standing → Bool
  | .ok s => check s
  | .error _ => false

/-- A run can be followed to where it comes. -/
theorem exists_of_comesTo {check : Standing → Bool} (fuel : Nat) (as : List Arrival)
    (h : comesTo check ((Launch.begin config host args description).run fuel as) = true) :
    ∃ s, Reachable config host args description s ∧ check s = true := by
  cases hr : (Launch.begin config host args description).run fuel as with
  | error halt =>
      rw [hr] at h
      cases h
  | ok s =>
      rw [hr] at h
      exact ⟨s, Reachable.begin.run hr, h⟩

end Reachable

end Conductor
