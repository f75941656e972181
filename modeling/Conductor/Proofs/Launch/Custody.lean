import Conductor.Proofs.Launch.Containment
import Conductor.Proofs.Launch.Isolation
import Conductor.Proofs.Launch.Stretch
import Conductor.Proofs.Launch.Timing

/-!
# What becomes of the timers of a group

`Ledger` says when timers are cancelled. Here is what is left of them in the table of pending
timers: an activation leaves the timers that were there before alone, those that it schedules
come into the hands of the group around it, and a group or source that fails takes all of its
own with it, so the table is what it was (`timers_of_failed`).

The numbers of timers only grow, so an activation can be told from what was there before by the
next number (`Takes.older`, `Takes.taken`).
-/

namespace Conductor

/-- Whether the activation failed. -/
def Outcome.isFailed : Outcome → Bool
  | .failed .. => true
  | _ => false

namespace Launch

/-- Between the two launches the timers of the list came into the hands of the innermost group;
`os` is what happened, latest first. -/
structure Takes (ids : List Nat) (os : List Occurrence) (l m : Launch) : Prop where
  history : m.history = os ++ l.history
  groups : m.groupTimers = handOn ids l.groupTimers
  nextTimer : l.nextTimer ≤ m.nextTimer
  /-- Nothing has become of the timers that were there before. -/
  older : ∀ id < l.nextTimer, m.timers.get? id = l.timers.get? id
  own : ∀ id t, m.timers.get? id = some t → l.timers.get? id = some t ∨ id ∈ ids
  taken : ∀ id ∈ ids, l.nextTimer ≤ id ∧ id < m.nextTimer ∧ ∃ t, .scheduled id t ∈ os
  /-- A timer that was scheduled is in the hands of the group, or was cancelled. -/
  scheduled : ∀ id t, .scheduled id t ∈ os →
    id ∈ ids ∧ m.timers.get? id = some t ∨ .cancelled id ∈ os
  cancelled : ∀ id, .cancelled id ∈ os → ∃ t, .scheduled id t ∈ os
  fired : ∀ id, .fired id ∉ os

variable {l m n : Launch} {ids ids' : List Nat} {os os' : List Occurrence}

theorem Takes.trans (h : Takes ids os l m) (h' : Takes ids' os' m n) :
    Takes (ids ++ ids') (os' ++ os) l n where
  history := by rw [h'.history, h.history, List.append_assoc]
  groups := by rw [h'.groups, h.groups, handOn_handOn]
  nextTimer := Nat.le_trans h.nextTimer h'.nextTimer
  older := by
    intro id hid
    rw [h'.older id (Nat.lt_of_lt_of_le hid h.nextTimer), h.older id hid]
  own := by
    intro id t ht
    rcases h'.own id t ht with ht | hid
    · rcases h.own id t ht with ht | hid
      · exact .inl ht
      · exact .inr (List.mem_append_left ids' hid)
    · exact .inr (List.mem_append_right ids hid)
  taken := by
    intro id hid
    rcases List.mem_append.mp hid with hid | hid
    · obtain ⟨hle, hlt, t, ht⟩ := h.taken id hid
      exact ⟨hle, Nat.lt_of_lt_of_le hlt h'.nextTimer, t, List.mem_append_right os' ht⟩
    · obtain ⟨hle, hlt, t, ht⟩ := h'.taken id hid
      exact ⟨Nat.le_trans h.nextTimer hle, hlt, t, List.mem_append_left os ht⟩
  scheduled := by
    intro id t ht
    rcases List.mem_append.mp ht with ht | ht
    · rcases h'.scheduled id t ht with ⟨hid, hp⟩ | hc
      · exact .inl ⟨List.mem_append_right ids hid, hp⟩
      · exact .inr (List.mem_append_left os hc)
    · rcases h.scheduled id t ht with ⟨hid, hp⟩ | hc
      · -- Its number was given before the second part began.
        obtain ⟨-, hlt, -⟩ := h.taken id hid
        exact .inl ⟨List.mem_append_left ids' hid, (h'.older id hlt).trans hp⟩
      · exact .inr (List.mem_append_right os' hc)
  cancelled := by
    intro id hid
    rcases List.mem_append.mp hid with hid | hid
    · obtain ⟨t, ht⟩ := h'.cancelled id hid
      exact ⟨t, List.mem_append_left os ht⟩
    · obtain ⟨t, ht⟩ := h.cancelled id hid
      exact ⟨t, List.mem_append_right os' ht⟩
  fired := by
    intro id hid
    rcases List.mem_append.mp hid with hid | hid
    · exact h'.fired id hid
    · exact h.fired id hid

/-- Where nothing happens to timers, none changes hands. -/
theorem SameTimers.takes (h : l.SameTimers m) : ∃ os, Takes [] os l m := by
  obtain ⟨os, hos, hq⟩ := h.history
  refine ⟨os, hos, ?_, Nat.le_of_eq h.nextTimer.symm, ?_, ?_, ?_, ?_, ?_, ?_⟩
  · rw [h.groups, handOn_nil]
  · intro id _
    rw [h.timers]
  · intro id t ht
    rw [h.timers] at ht
    exact .inl ht
  · intro id hid
    cases hid
  · intro id t ht
    cases hq _ ht
  · intro id hid
    cases hq _ hid
  · intro id hid
    cases hq _ hid

/-- A timer that is scheduled comes into the hands of the innermost group. -/
theorem takes_schedule (l : Launch) (delay : Duration) (as : List Action) (scope : Scope)
    (record : Option Nat) (cancel : Bool) :
    ∃ os, Takes [l.nextTimer] os l (l.schedule delay as scope record cancel) := by
  obtain ⟨t, htimers⟩ : ∃ t, (l.schedule delay as scope record cancel).timers =
      l.timers.insert l.nextTimer t ∧
        (l.schedule delay as scope record cancel).history =
          .scheduled l.nextTimer t :: l.history := ⟨_, rfl, rfl⟩
  obtain ⟨htimers, hhistory⟩ := htimers
  have hnext : (l.schedule delay as scope record cancel).nextTimer = l.nextTimer + 1 := rfl
  refine ⟨[.scheduled l.nextTimer t], hhistory, ?_, by omega, ?_, ?_, ?_, ?_, ?_, ?_⟩
  · unfold schedule handOn
    cases l.groupTimers <;> rfl
  · intro id hid
    rw [htimers, Table.get?_insert, if_neg (Nat.ne_of_lt hid)]
  · intro id t' ht'
    rw [htimers, Table.get?_insert] at ht'
    split at ht'
    · rename_i heq
      exact .inr (List.mem_singleton.mpr heq)
    · exact .inl ht'
  · intro id hid
    rw [List.mem_singleton.mp hid]
    exact ⟨Nat.le_refl _, by omega, t, List.mem_singleton.mpr rfl⟩
  · intro id t' ht'
    cases List.mem_singleton.mp ht'
    refine .inl ⟨List.mem_singleton.mpr rfl, ?_⟩
    rw [htimers, Table.get?_insert, if_pos rfl]
  · intro id hid
    cases List.mem_singleton.mp hid
  · intro id hid
    cases List.mem_singleton.mp hid

/-! ## Groups -/

theorem get?_cancelTimer (why : String) (i : Nat) (l : Launch) (id : Nat) :
    (l.cancelTimer why i).timers.get? id = if id = i then none else l.timers.get? id := by
  rcases cancelTimer_cases why i l with ⟨hnone, h⟩ | ⟨t, -, h⟩
  · rw [h]
    split
    · rename_i heq
      rw [heq, hnone]
    · rfl
  · rw [h, Table.get?_erase]

theorem get?_cancelTimers (why : String) (ids : List Nat) (l : Launch) (id : Nat) :
    (l.cancelTimers why ids).timers.get? id = if id ∈ ids then none else l.timers.get? id := by
  induction ids generalizing l with
  | nil => simp [cancelTimers]
  | cons i rest ih =>
      refine (ih (l.cancelTimer why i)).trans ?_
      rw [get?_cancelTimer]
      by_cases hid : id = i
      · simp [hid]
      · simp [hid]

theorem nextTimer_cancelTimers (why : String) (ids : List Nat) (l : Launch) :
    (l.cancelTimers why ids).nextTimer = l.nextTimer := by
  induction ids generalizing l with
  | nil => rfl
  | cons id rest ih =>
      refine (ih (l.cancelTimer why id)).trans ?_
      rcases cancelTimer_cases why id l with ⟨-, h⟩ | ⟨t, -, h⟩
      · rw [h]
      · rw [h]

/-- Every timer of the list that is pending is cancelled. -/
theorem cancelled_mem_cancelTimers {why : String} {id : Nat} {t : Timer} (hid : id ∈ ids)
    (ht : l.timers.get? id = some t) (hos : (l.cancelTimers why ids).history = os ++ l.history) :
    .cancelled id ∈ os := by
  induction ids generalizing l os with
  | nil => cases hid
  | cons i rest ih =>
      obtain ⟨os', hos', -⟩ := history_cancelTimers why rest (l.cancelTimer why i)
      change ((l.cancelTimer why i).cancelTimers why rest).history = _ at hos
      rw [hos'] at hos
      rcases cancelTimer_cases why i l with ⟨hnone, h⟩ | ⟨t', -, h⟩
      · rw [h] at hos hos'
        have hne : id ≠ i := by
          rintro rfl
          rw [ht] at hnone
          cases hnone
        rw [← List.append_cancel_right hos]
        exact ih ((List.mem_cons.mp hid).resolve_left hne) ht hos'
      · have hone : (l.cancelTimer why i).history = [.cancelled i] ++ l.history := by rw [h]; rfl
        rw [hone, ← List.append_assoc] at hos
        rw [← List.append_cancel_right hos]
        rcases List.mem_cons.mp hid with rfl | hid
        · exact List.mem_append_cons_self
        · by_cases heq : id = i
          · subst heq
            exact List.mem_append_cons_self
          · refine List.mem_append_left _ (ih hid ?_ hos')
            rw [get?_cancelTimer, if_neg heq]
            exact ht

/-- When all timers that came into its hands are cancelled, the group is left with none. -/
theorem Takes.cancel (h : Takes ids os l n) (htimers : m.timers = n.timers)
    (hnext : m.nextTimer = n.nextTimer) (hhistory : m.history = n.history)
    (hgroups : m.groupTimers = l.groupTimers) (why : String) :
    ∃ os', Takes [] os' l (m.cancelTimers why ids) := by
  obtain ⟨os', hos', hcancels⟩ := history_cancelTimers why ids m
  refine ⟨os' ++ os, ?_, ?_, ?_, ?_, ?_, ?_, ?_, ?_, ?_⟩
  · rw [hos', hhistory, h.history, List.append_assoc]
  · rw [groupTimers_cancelTimers, handOn_nil, hgroups]
  · rw [nextTimer_cancelTimers, hnext]
    exact h.nextTimer
  · intro id hid
    have hnot : id ∉ ids := by
      intro hmem
      obtain ⟨hle, -, -⟩ := h.taken id hmem
      omega
    rw [get?_cancelTimers, if_neg hnot, htimers]
    exact h.older id hid
  · intro id t ht
    rw [get?_cancelTimers, htimers] at ht
    split at ht
    · cases ht
    · rename_i hnot
      exact .inl ((h.own id t ht).resolve_right hnot)
  · intro id hid
    cases hid
  · intro id t ht
    rcases List.mem_append.mp ht with ht | ht
    · obtain ⟨i, -, heq⟩ := hcancels _ ht
      cases heq
    · rcases h.scheduled id t ht with ⟨hid, hp⟩ | hc
      · rw [← htimers] at hp
        exact .inr (List.mem_append_left os (cancelled_mem_cancelTimers hid hp hos'))
      · exact .inr (List.mem_append_right os' hc)
  · intro id hid
    rcases List.mem_append.mp hid with hid | hid
    · obtain ⟨i, hi, heq⟩ := hcancels _ hid
      cases heq
      obtain ⟨-, -, t, ht⟩ := h.taken id hi
      exact ⟨t, List.mem_append_right os' ht⟩
    · obtain ⟨t, ht⟩ := h.cancelled id hid
      exact ⟨t, List.mem_append_right os' ht⟩
  · intro id hid
    rcases List.mem_append.mp hid with hid | hid
    · obtain ⟨i, -, heq⟩ := hcancels _ hid
      cases heq
    · exact h.fired id hid

/-- A group that ends well leaves its timers to the group around it; when it fails, they are
cancelled and the timers are as before it. -/
theorem takes_asGroup (scope : Scope) {f : Launch → Launch × Option LaunchError}
    (hf : ∃ ids os, Takes ids os (l.beginGroup.inScope scope)
      (f (l.beginGroup.inScope scope)).1) :
    ∃ ids os, Takes ids os l (l.asGroup scope f).1 ∧
      ((l.asGroup scope f).2.isSome = true → ids = []) := by
  rw [asGroup_eq]
  generalize f (l.beginGroup.inScope scope) = x at hf ⊢
  obtain ⟨n, failure⟩ := x
  obtain ⟨ids, os, hos⟩ := hf
  -- Inside the group only its own timers were added.
  have hown : n.groupTimers = ids :: l.groupTimers := hos.groups
  unfold endGroup
  dsimp only
  rw [hown]
  have hgroup : ∀ context,
      Takes ids os l { n with context, groupTimers := handOn ids l.groupTimers } := fun _ =>
    ⟨hos.history, rfl, hos.nextTimer, hos.older, hos.own, hos.taken, hos.scheduled,
      hos.cancelled, hos.fired⟩
  cases failure with
  | none => exact ⟨ids, os, hgroup _, by simp⟩
  | some e =>
      obtain ⟨os', hos'⟩ := (hgroup n.context).cancel (m := { n with
        context := n.context.restore l.context.depth
        groupTimers := l.groupTimers }) rfl rfl rfl rfl "owning group failed"
      exact ⟨[], os', hos', fun _ => rfl⟩

/-! ## Whole activations -/

theorem Takes.followed_by {ids : List Nat} {os : List Occurrence} (h : Takes ids os l m)
    (h' : m.SameTimers n) : ∃ os', Takes ids os' l n := by
  obtain ⟨os', hos'⟩ := h'.takes
  have hall := h.trans hos'
  rw [List.append_nil] at hall
  exact ⟨_, hall⟩

theorem SameTimers.followed_by {ids : List Nat} {os : List Occurrence} (h : l.SameTimers m)
    (h' : Takes ids os m n) : ∃ os', Takes ids os' l n := by
  obtain ⟨os', hos'⟩ := h.takes
  exact ⟨_, hos'.trans h'⟩

theorem sameTimers_asked (l : Launch) (d : Deed) : l.SameTimers (l.asked d) := by
  have hheard : ∀ y, l.SameTimers (l.heard y) := by
    intro y
    unfold heard
    split
    · exact (sameBooks_happen l rfl).toSameTimers
    · exact .refl l
  unfold asked
  split
  · exact hheard _
  · exact hheard _
  · exact .refl l

/-- Of the deeds without children only a timer action schedules something. -/
theorem takes_performLeaf (l : Launch) (seq : Nat) (a : Action) :
    ∃ ids os, Takes ids os l (l.performLeaf seq a a.deed).1 := by
  cases hw : a.deed.startsWork with
  | false =>
      obtain ⟨os, hos⟩ := (sameBooks_performLeaf hw l seq a).1.toSameTimers.takes
      exact ⟨[], os, hos⟩
  | true =>
      cases hd : a.deed with
      | execute t onExit =>
          obtain ⟨os, hos⟩ := (sameBooks_execute l seq a t onExit).1.toSameTimers.takes
          exact ⟨[], os, hos⟩
      | timer period children cancel =>
          obtain ⟨os, hos⟩ := (SameTimers.refl l).takes
          rw [performLeaf]
          split
          · exact ⟨[], os, hos⟩
          · split
            · exact ⟨[], os, hos⟩
            · exact ⟨_, takes_schedule _ _ _ _ _ _⟩
      | _ =>
          rw [hd] at hw
          cases hw

theorem takes_activateChildren_of {as : List Action}
    (has : ∀ a ∈ as, ∀ l : Launch, ∃ ids os, Takes ids os l (activate a l).1) (l : Launch) :
    ∃ ids os, Takes ids os l (activateChildren as l).1 := by
  induction as generalizing l with
  | nil =>
      rw [activateChildren_nil]
      exact ⟨[], (SameTimers.refl l).takes⟩
  | cons a rest ih =>
      obtain ⟨ha, hrest⟩ := List.forall_mem_cons.mp has
      obtain ⟨ids, os, hos⟩ := ha l
      cases hesc : (activate a l).2.escalates with
      | true =>
          obtain ⟨reason, hreason⟩ := exists_reason_of_escalates hesc
          rw [activateChildren_of_escalates hreason rest]
          have hskip : (activate a l).1.SameTimers
              ((activate a l).1.skipAll rest "enclosing group failed") :=
            ⟨rfl, rfl, rfl, [], rfl, by simp⟩
          exact ⟨ids, hos.followed_by hskip⟩
      | false =>
          rw [activateChildren_of_not_escalates hesc rest]
          obtain ⟨ids', os', hos'⟩ := ih hrest (activate a l).1
          exact ⟨_, _, hos.trans hos'⟩

theorem givesScope_of_ownsTimers {d : Deed} (h : d.ownsTimers = true) : GivesScope d := by
  cases d with
  | group bindings children => exact .inl ⟨bindings, children, rfl⟩
  | splice source arguments required => exact .inr ⟨source, arguments, required, rfl⟩
  | _ => cases h

/-- A deed that owns timers and cannot be performed takes them with it. -/
theorem takes_perform {a : Action} (seq : Nat) (m : Launch)
    (hchildren : ∀ c, ∀ b ∈ (a.deed.plan c).children, ∀ l : Launch,
      ∃ ids os, Takes ids os l (activate b l).1) :
    ∃ ids os, Takes ids os m (perform seq a a.deed m).1 ∧
      (a.deed.ownsTimers = true → isFailed (perform seq a a.deed m).2 = true → ids = []) := by
  have hfailure : ∀ {x : Launch × Option LaunchError}, isFailed (ofChildren x).2 = true →
      x.2.isSome = true := by
    rintro ⟨n, failure⟩ hx
    cases failure with
    | none => cases hx
    | some e => rfl
  rw [perform_eq]
  split
  · rename_i hleaf
    obtain ⟨ids, os, hos⟩ := takes_performLeaf m seq a
    refine ⟨ids, os, hos, fun howns => ?_⟩
    rcases givesScope_of_ownsTimers howns with ⟨_, _, hd⟩ | ⟨_, _, _, hd⟩
    · rw [hd] at hleaf
      cases hleaf
    · rw [hd] at hleaf
      cases hleaf
  · rw [ofChildren_fst]
    have hasked := sameTimers_asked m a.deed
    obtain ⟨os, hos⟩ := hasked.takes
    have hall := hchildren m.context
    cases hplan : a.deed.plan m.context with
    | direct => exact ⟨[], os, hos, fun _ _ => rfl⟩
    | refused e => exact ⟨[], os, hos, fun _ _ => rfl⟩
    | here children =>
        rw [hplan] at hall
        obtain ⟨ids, os', hos'⟩ := takes_activateChildren_of hall (m.asked a.deed)
        obtain ⟨os'', hos''⟩ := hasked.followed_by hos'
        exact ⟨ids, os'', hos'', fun howns =>
          absurd hplan ((givesScope_of_ownsTimers howns).plan_ne_here m.context children)⟩
    | inside scope children =>
        rw [hplan] at hall
        obtain ⟨ids, os', hos', hfailed⟩ := takes_asGroup scope
          (takes_activateChildren_of hall ((m.asked a.deed).beginGroup.inScope scope))
        obtain ⟨os'', hos''⟩ := hasked.followed_by hos'
        exact ⟨ids, os'', hos'', fun _ hx => hfailed (hfailure hx)⟩

theorem isFailed_of_settle {x : Launch × Performed} {seq : Nat} {d : Deed}
    (h : (settle seq d x).2.isFailed = true) : Launch.isFailed x.2 = true := by
  obtain ⟨m, r⟩ := x
  match r with
  | .ok .done => cases h
  | .ok .running => cases h
  | .error e => rfl

/-- Opening and closing the record of an activation does nothing to timers. -/
theorem takes_of_leave {a : Action} {x : Launch × Outcome}
    (hx : ∃ os, Takes ids os (l.enter a).2 x.1) (ha : activate a l = leave l.journal.size x) :
    ∃ os, Takes ids os l (activate a l).1 := by
  have henter : l.SameTimers (l.enter a).2 :=
    ⟨rfl, rfl, rfl, [.entered l.journal.size a], rfl, by simp [Occurrence.isOfTimer]⟩
  have hleave : x.1.SameTimers (activate a l).1 := by
    rw [ha]
    exact (sameBooks_happen x.1 rfl).toSameTimers
  obtain ⟨os, hos⟩ := hx
  obtain ⟨os', hos'⟩ := henter.followed_by hos
  exact hos'.followed_by hleave

/-- **An activation leaves the timers alone that were there before, and its own to the group
around it, but for a group or source that fails, which takes them with it.** -/
theorem activate_takes : ∀ (a : Action) (l : Launch), ∃ ids os,
    Takes ids os l (activate a l).1 ∧
      (a.deed.ownsTimers = true → (activate a l).2.isFailed = true → ids = []) := by
  apply Action.plan_induction
  intro a hchildren l
  have hgate := sameTimers_gate (l.enter a).2 l.journal.size a
  have hactivate := activate_eq a l
  cases hopen : (l.enter a).2.gate l.journal.size a with
  | mk m refused =>
      rw [hopen] at hgate hactivate
      cases refused with
      | some outcome =>
          obtain ⟨os, hos⟩ := takes_of_leave (x := (m, outcome)) hgate.takes hactivate
          exact ⟨[], os, hos, fun _ _ => rfl⟩
      | none =>
          obtain ⟨ids, os, hos, hfailed⟩ := takes_perform l.journal.size m fun c b hb k => by
            obtain ⟨ids, os, hos, -⟩ := hchildren c b hb k
            exact ⟨ids, os, hos⟩
          obtain ⟨os', hos'⟩ := hgate.followed_by hos
          obtain ⟨os'', hos''⟩ := takes_of_leave
            (hos'.followed_by (sameTimers_settle l.journal.size a.deed _)) hactivate
          refine ⟨ids, os'', hos'', fun howns hout => hfailed howns ?_⟩
          rw [hactivate] at hout
          exact isFailed_of_settle hout

/-- A group or source that fails leaves the pending timers as they were before it. -/
theorem timers_of_failed (hl : l.Numbered) {a : Action} (howns : a.deed.ownsTimers = true)
    (hfailed : (activate a l).2.isFailed = true) : (activate a l).1.timers = l.timers := by
  obtain ⟨ids, os, hos, hnone⟩ := activate_takes a l
  obtain rfl := hnone howns hfailed
  apply Table.ext_get?
  intro id
  cases hid : l.timers.get? id with
  | none =>
      cases hget : (activate a l).1.timers.get? id with
      | none => rfl
      | some t =>
          rcases hos.own id t hget with hold | hmem
          · rw [hid] at hold
            cases hold
          · cases hmem
  | some t => rw [hos.older id (hl id t hid), hid]

/-- What becomes of timers in the course of the activation of an action. -/
structure KeepsTimers (a : Action) (outcome : Outcome) (during : List Occurrence) : Prop where
  fired : ∀ id, .fired id ∉ during
  cancelled : ∀ id, .cancelled id ∈ during → ∃ t, .scheduled id t ∈ during
  taken : a.deed.ownsTimers = true → outcome.isFailed = true →
    ∀ id t, .scheduled id t ∈ during → .cancelled id ∈ during

theorem Retraces.keepsTimers {g : Nat} {a : Action} {outcome : Outcome}
    {during older : List Occurrence} (h : Retraces g a outcome during older) :
    KeepsTimers a outcome during := by
  obtain ⟨k, rfl, rfl, rfl, hh⟩ := h
  obtain ⟨ids, os, hos, hnone⟩ := activate_takes a k
  have heq : .left k.journal.size (activate a k).2 :: (during ++ [.entered k.journal.size a]) =
      os := by
    refine List.append_cancel_right (?_ : _ ++ k.history = _)
    rw [← hos.history, hh, List.cons_append, List.append_assoc]
    rfl
  have hmem : ∀ {o : Occurrence}, o.marksActivation = false → (o ∈ os ↔ o ∈ during) := by
    intro o ho
    rw [← heq]
    cases o with
    | entered | left => cases ho
    | _ => simp
  constructor
  · intro id hid
    exact hos.fired id ((hmem rfl).mpr hid)
  · intro id hid
    obtain ⟨t, ht⟩ := hos.cancelled id ((hmem rfl).mpr hid)
    exact ⟨t, (hmem rfl).mp ht⟩
  · intro howns hfailed id t ht
    rcases hos.scheduled id t ((hmem rfl).mpr ht) with ⟨hid, -⟩ | hc
    · rw [hnone howns hfailed] at hid
      cases hid
    · exact (hmem rfl).mp hc

/-- A group or source whose children come to their end does nothing to timers when it ends, and
one of whose children fails it fails itself. -/
theorem activate_of_children {a : Action} {children : List Action} (ha : l.Admits a m)
    (ho : m.opens a.deed = some (children, n)) :
    ((activateChildren children n).2.isSome = true → (activate a l).2.isFailed = true) ∧
      ((activateChildren children n).2 = none →
        (activate a l).2 = .completed ∧
        (activate a l).1.timers = (activateChildren children n).1.timers ∧
        (activate a l).1.history =
          .left l.journal.size .completed :: (activateChildren children n).1.history) := by
  rw [activate_of_opens ha ho]
  generalize activateChildren children n = x
  obtain ⟨k, failure⟩ := x
  cases failure with
  | some e => exact ⟨fun _ => rfl, fun h => nomatch h⟩
  | none =>
      refine ⟨fun h => (nomatch h), fun _ => ⟨rfl, ?_, ?_⟩⟩
      · show (m.closed a.deed k none).timers = _
        unfold closed endGroup
        split
        · split <;> rfl
        · rfl
      · show _ :: (m.closed a.deed k none).history = _
        unfold closed endGroup
        split
        · split <;> rfl
        · rfl

end Launch

/-! ## Whole runs -/

theorem Timing.Told.countP_scheduled_le {v : Timing} (hv : v.Told) :
    v.marks.countP (·.isScheduled) ≤ 1 := by
  cases hv with
  | unknown early fresh => simp [List.countP_replicate, TimerMark.isScheduled]
  | pending early t => simp [List.countP_replicate, TimerMark.isScheduled]
  | fired t marks h =>
      obtain ⟨early, late, rfl⟩ := h
      simp [List.countP_replicate, TimerMark.isScheduled]
  | cancelled t marks h =>
      obtain ⟨early, late, rfl⟩ := h
      simp [List.countP_replicate, TimerMark.isScheduled]

/-- A timer that was cancelled is gone, and its body has not begun. -/
theorem Timing.Told.lost {v : Timing} (hv : v.Told) (h : .cancelled ∈ v.marks) :
    v.pending = none ∧ .fired ∉ v.marks ∧ ∀ as scope, .began as scope ∉ v.marks := by
  cases hv with
  | unknown early fresh => simp [List.mem_replicate] at h
  | pending early t => simp [List.mem_replicate] at h
  | fired t marks hm =>
      obtain ⟨early, late, rfl⟩ := hm
      simp [List.mem_replicate] at h
  | cancelled t marks hm =>
      obtain ⟨early, late, rfl⟩ := hm
      refine ⟨rfl, ?_, ?_⟩
      · simp [List.mem_replicate]
      · simp [List.mem_replicate]

namespace Launch

variable {l : Launch} {id : Nat}

/-- A timer is scheduled in one place. -/
theorem not_scheduled_of_scheduled {t t' : Timer} (htold : (l.timing id).Told)
    {newer older : List Occurrence} (hsplit : l.history = newer ++ older)
    (ht : .scheduled id t ∈ older) : .scheduled id t' ∉ newer := by
  intro ht'
  have hmark : ∀ (u : Timer) (os : List Occurrence), .scheduled id u ∈ os →
      0 < (os.filterMap (·.timerMark? id)).countP (·.isScheduled) := by
    intro u os hu
    apply List.countP_pos_iff.mpr
    exact ⟨.scheduled u, List.mem_filterMap.mpr ⟨_, hu, Occurrence.timerMark?_eq_some.mpr rfl⟩, rfl⟩
  have hold := hmark t older ht
  have hnew := hmark t' newer ht'
  have hone : (l.timerMarks id).countP (·.isScheduled) ≤ 1 := htold.countP_scheduled_le
  unfold timerMarks at hone
  rw [hsplit, List.filterMap_append, List.countP_append] at hone
  omega

theorem lost_of_cancelled (htold : (l.timing id).Told) (hc : .cancelled id ∈ l.history) :
    l.timers.get? id = none ∧ .fired id ∉ l.history ∧
      ∀ as scope, .began (.timer id) as scope ∉ l.history := by
  obtain ⟨hnone, hfired, hbegan⟩ := htold.lost (mem_timerMarks.mpr hc)
  exact ⟨hnone, fun h => hfired (mem_timerMarks.mpr h),
    fun as scope h => hbegan as scope (mem_timerMarks.mpr h)⟩

end Launch

variable {config : Config} {host : Host} {args : LaunchArguments}

/-- **A group that fails takes its timers with it, and only those.** In every state in which a
group or source is activated, also in the middle of other activations: if it fails, as it does
when its children fail, the pending timers are those from before it, and every timer scheduled in
its course, at whatever depth, was cancelled in its course; if its children come to their end,
nothing happens to timers when the group does. In the history of every run, the timers scheduled
in the course of a group or source that has failed are not pending, did not fire and never will,
and of those scheduled before it none fired or was cancelled in its course. When no activation is
going on, no group has a list of timers. -/
theorem failed_group_takes_its_timers :
    (∀ p l, Moves p (.start config host args) l → ∀ a : Action, a.deed.ownsTimers = true →
      ((Launch.activate a l).2.isFailed = true →
        (Launch.activate a l).1.timers = l.timers ∧
        ∃ during, (Launch.activate a l).1.history =
            .left l.journal.size (Launch.activate a l).2 ::
              (during ++ .entered l.journal.size a :: l.history) ∧
          ∀ id t, .scheduled id t ∈ during → .cancelled id ∈ during) ∧
      ∀ m children k, l.Admits a m → m.opens a.deed = some (children, k) →
        ((Launch.activateChildren children k).2.isSome = true →
          (Launch.activate a l).2.isFailed = true) ∧
        ((Launch.activateChildren children k).2 = none →
          (Launch.activate a l).2 = .completed ∧
          (Launch.activate a l).1.timers = (Launch.activateChildren children k).1.timers ∧
          (Launch.activate a l).1.history =
            .left l.journal.size .completed :: (Launch.activateChildren children k).1.history)) ∧
    (∀ description s, Reachable config host args description s →
      ∀ newer during older g a outcome, s.launch.history =
          newer ++ .left g outcome :: (during ++ .entered g a :: older) →
        a.deed.ownsTimers = true → outcome.isFailed = true →
        (∀ id t, .scheduled id t ∈ during → .cancelled id ∈ during ∧
          s.launch.timers.get? id = none ∧ .fired id ∉ s.launch.history ∧
          ∀ as scope, .began (.timer id) as scope ∉ s.launch.history) ∧
        ∀ id t, .scheduled id t ∈ older → .cancelled id ∉ during ∧ .fired id ∉ during) ∧
    ∀ p l, Strides p (.start config host args) l → l.groupTimers = [] := by
  refine ⟨fun p l hl a howns => ⟨fun hfailed => ⟨?_, ?_⟩, fun m children k ha ho => ?_⟩, ?_, ?_⟩
  · exact Launch.timers_of_failed (Launch.numbered_of_moves hl) howns hfailed
  · obtain ⟨during, hduring, hretraces⟩ := Launch.exists_retraces a l
    exact ⟨during, hduring, hretraces.keepsTimers.taken howns hfailed⟩
  · exact Launch.activate_of_children ha ho
  · intro description s hs newer during older g a outcome hsplit howns hfailed
    obtain ⟨hstrides, -⟩ := hs.strides (Action.every_true description)
    have htold := Launch.told_of_strides hstrides
    have hkeeps := ((Launch.filed_of_strides hstrides).stretches _ _ _ _ _ _ hsplit).keepsTimers
    refine ⟨fun id t ht => ?_, fun id t ht => ⟨fun hc => ?_, hkeeps.fired id⟩⟩
    · have hcancelled := hkeeps.taken howns hfailed id t ht
      refine ⟨hcancelled, Launch.lost_of_cancelled (htold id) ?_⟩
      rw [hsplit]
      simp [hcancelled]
    · -- What is cancelled in the course of an activation was scheduled in it.
      obtain ⟨t', ht'⟩ := hkeeps.cancelled id hc
      have hplace : s.launch.history =
          (newer ++ .left g outcome :: during) ++ (.entered g a :: older) := by
        rw [hsplit]
        simp
      have hlater : .scheduled id t' ∈ newer ++ .left g outcome :: during := by simp [ht']
      exact Launch.not_scheduled_of_scheduled (htold id) hplace (List.mem_cons_of_mem _ ht) hlater
  · exact fun p l hl => (Launch.balanced_of_strides hl).groups

/-- A group that fails after a group in it has scheduled a timer. -/
def doomedGroup : Action :=
  .mk ⟨2⟩ none (.group [] [.mk ⟨3⟩ none (.group [] [.later 4 "1" [.say 5 "late"] true]),
    .mk ⟨6⟩ none (.splice (.file "missing" fun _ => .actions []) [] true)])

/-- The timer of the inner group is cancelled with the outer one, and a timer that was scheduled
before them is still pending. -/
theorem doomedGroup_takes_inner_timer :
    ∃ s during outcome older t,
      Reachable .standard .willing [] [.later 1 "5" [] true, doomedGroup] s ∧
      s.launch.history = .left 1 outcome :: (during ++ .entered 1 doomedGroup :: older) ∧
      .scheduled 2 t ∈ during ∧ s.launch.timers.get? 2 = none ∧
      (s.launch.timers.get? 1).isSome = true ∧
      ∀ as scope, .began (.timer 2) as scope ∉ s.launch.history := by
  let l : Launch := (Launch.activate (.later 1 "5" [] true) (.start .standard .willing [])).1
  have hbefore : (l.timerMarks 2).any (·.isScheduled) = false := by decide +kernel
  have hafter : ((Launch.activate doomedGroup l).1.timerMarks 2).any (·.isScheduled) = true := by
    decide +kernel
  have hfailed : (Launch.activate doomedGroup l).2.isFailed = true := by decide +kernel
  have hpending : ((Launch.activate doomedGroup l).1.timers.get? 1).isSome = true := by
    decide +kernel
  obtain ⟨t, ht⟩ := scheduled_of_any hafter
  have hs : Reachable .standard .willing [] [.later 1 "5" [] true, doomedGroup]
      (.waiting (Launch.activate doomedGroup l).1) := .begin
  have hnumber : l.journal.size = 1 := by decide +kernel
  obtain ⟨during, hduring, -⟩ := Launch.exists_retraces doomedGroup l
  rw [hnumber] at hduring
  generalize Launch.activate doomedGroup l = x at hfailed hpending hduring hs ht
  have hmem : .scheduled 2 t ∈ during := by
    rw [hduring] at ht
    have hold : .scheduled 2 t ∉ l.history := fun hmem => by
      have hany : (l.timerMarks 2).any (·.isScheduled) = true :=
        List.any_eq_true.mpr ⟨.scheduled t, Launch.scheduled_mem_timerMarks.mpr hmem, rfl⟩
      rw [hbefore] at hany
      cases hany
    simpa [hold] using ht
  obtain ⟨-, hruns, -⟩ := @failed_group_takes_its_timers .standard .willing []
  obtain ⟨htaken, -⟩ := hruns _ _ hs [] during l.history 1 doomedGroup x.2 hduring rfl hfailed
  obtain ⟨-, hgone, -, hnever⟩ := htaken 2 t hmem
  exact ⟨_, during, x.2, l.history, t, hs, hduring, hmem, hgone, hpending, hnever⟩

end Conductor
