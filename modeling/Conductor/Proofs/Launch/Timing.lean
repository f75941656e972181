import Conductor.Proofs.Launch.Ledger
import Conductor.Proofs.Launch.Queue

/-!
# Timers

What a launch knows of one timer stands in its table of pending timers and on its history, where
messages may call for any timer at any time. `Timing` collects it for one timer, every stride of
the loop is a few steps of it (`Stride.timing`), and `Timing.Told` lists the four stories that
come of such steps.
-/

namespace Conductor

open List (replicate)

/-- Something that happened to a timer. -/
inductive TimerMark where
  | scheduled (timer : Timer)
  /-- A message said that its time had come. -/
  | called
  | fired
  | cancelled
  /-- The activation of its body began. -/
  | began (actions : List Action) (scope : Option Scope)

/-- What happened to the timer of a number. -/
def Occurrence.timerMark? (id : Nat) : Occurrence → Option TimerMark
  | .scheduled i t => if i = id then some (.scheduled t) else none
  | .received (.timerFired i) => if i = id then some .called else none
  | .fired i => if i = id then some .fired else none
  | .cancelled i => if i = id then some .cancelled else none
  | .began (.timer i) as scope => if i = id then some (.began as scope) else none
  | _ => none

/-- What a mark says of the timer of a number. -/
def TimerMark.occurrence (id : Nat) : TimerMark → Occurrence
  | .scheduled t => .scheduled id t
  | .called => .received (.timerFired id)
  | .fired => .fired id
  | .cancelled => .cancelled id
  | .began as scope => .began (.timer id) as scope

theorem Occurrence.timerMark?_eq_some {id : Nat} {o : Occurrence} {mark : TimerMark} :
    o.timerMark? id = some mark ↔ o = mark.occurrence id := by
  have hif : ∀ {i : Nat} {mark' : TimerMark},
      (if i = id then some mark' else none) = some mark → i = id ∧ mark' = mark := by
    intro i mark' h
    obtain ⟨hi, hmark⟩ := Option.ite_none_right_eq_some.mp h
    exact ⟨hi, Option.some.inj hmark⟩
  constructor
  · intro h
    cases o with
    | scheduled i t =>
        obtain ⟨rfl, rfl⟩ := hif h
        rfl
    | received message =>
        cases message with
        | timerFired i =>
            obtain ⟨rfl, rfl⟩ := hif h
            rfl
        | _ => cases h
    | fired i =>
        obtain ⟨rfl, rfl⟩ := hif h
        rfl
    | cancelled i =>
        obtain ⟨rfl, rfl⟩ := hif h
        rfl
    | began cause as scope =>
        cases cause with
        | timer i =>
            obtain ⟨rfl, rfl⟩ := hif h
            rfl
        | _ => cases h
    | _ => cases h
  · rintro rfl
    cases mark with
    | _ => exact if_pos rfl

/-- Everything that happened to a timer, latest first. -/
def Launch.timerMarks (l : Launch) (id : Nat) : List TimerMark :=
  l.history.filterMap (·.timerMark? id)

/-- What a launch knows of one timer. -/
@[ext] structure Timing where
  marks : List TimerMark
  pending : Option Timer
  /-- Whether the number of the timer is still to be given. -/
  fresh : Bool

def Launch.timing (l : Launch) (id : Nat) : Timing where
  marks := l.timerMarks id
  pending := l.timers.get? id
  fresh := decide (l.nextTimer ≤ id)

/-- One step of a timer. -/
inductive TimingStep (v : Timing) : Timing → Prop where
  | stay : TimingStep v v
  | schedule (t : Timer) (hf : v.fresh = true) :
      TimingStep v ⟨.scheduled t :: v.marks, some t, false⟩
  | cancel (t : Timer) (hp : v.pending = some t) :
      TimingStep v { v with marks := .cancelled :: v.marks, pending := none }
  /-- A message calls for a timer that is not pending. -/
  | call (hp : v.pending = none) : TimingStep v { v with marks := .called :: v.marks }
  /-- A message calls for a timer that is pending. -/
  | fire (t : Timer) (hp : v.pending = some t) :
      TimingStep v
        { v with
          marks := .began t.actions (some t.scope) :: .fired :: .called :: v.marks
          pending := none }

/-- Steps of a timer. -/
abbrev TimingSteps : Timing → Timing → Prop :=
  Relation.ReflTransGen TimingStep

/-- A timer that is pending was scheduled. -/
def Timing.Grounded (v : Timing) : Prop :=
  ∀ t, v.pending = some t → .scheduled t ∈ v.marks

theorem Timing.Grounded.step {v w : Timing} (hv : v.Grounded) (h : TimingStep v w) :
    w.Grounded := by
  cases h with
  | stay => exact hv
  | schedule t hf =>
      rintro t' ⟨⟩
      exact List.mem_cons_self
  | cancel t hp => simp [Grounded]
  | call hp => exact fun t ht => List.mem_cons_of_mem _ (hv t ht)
  | fire t hp => simp [Grounded]

/-- The timer was called for in vain, then it was scheduled, and the next call made it fire,
which began its body. Later calls were in vain. -/
def FiredOnce (t : Timer) (marks : List TimerMark) : Prop :=
  ∃ early late, marks = replicate late .called ++
    .began t.actions (some t.scope) :: .fired :: .called :: .scheduled t :: replicate early .called

/-- The timer was called for in vain, then it was scheduled, and it was cancelled before it was
called for. Later calls were in vain. -/
def CancelledOnce (t : Timer) (marks : List TimerMark) : Prop :=
  ∃ early late, marks = replicate late .called ++
    .cancelled :: .scheduled t :: replicate early .called

/-- The stories that there are of a timer. -/
inductive Timing.Told : Timing → Prop where
  | unknown (early : Nat) (fresh : Bool) : Told ⟨replicate early .called, none, fresh⟩
  | pending (early : Nat) (t : Timer) :
      Told ⟨.scheduled t :: replicate early .called, some t, false⟩
  | fired (t : Timer) (marks : List TimerMark) (h : FiredOnce t marks) : Told ⟨marks, none, false⟩
  | cancelled (t : Timer) (marks : List TimerMark) (h : CancelledOnce t marks) :
      Told ⟨marks, none, false⟩

theorem FiredOnce.call {t : Timer} {marks : List TimerMark} (h : FiredOnce t marks) :
    FiredOnce t (.called :: marks) := by
  obtain ⟨early, late, rfl⟩ := h
  exact ⟨early, late + 1, rfl⟩

theorem CancelledOnce.call {t : Timer} {marks : List TimerMark} (h : CancelledOnce t marks) :
    CancelledOnce t (.called :: marks) := by
  obtain ⟨early, late, rfl⟩ := h
  exact ⟨early, late + 1, rfl⟩

theorem not_firedOnce_of_cancelledOnce {t : Timer} {marks : List TimerMark}
    (h : CancelledOnce t marks) : ¬ FiredOnce t marks := by
  obtain ⟨early, late, rfl⟩ := h
  rintro ⟨early', late', heq⟩
  have hmem : TimerMark.fired ∈ replicate late .called ++
      .cancelled :: .scheduled t :: replicate early .called := by
    rw [heq]
    simp
  simp [List.mem_replicate] at hmem

/-- **A step continues the story of a timer.** -/
theorem Timing.Told.step {v w : Timing} (hv : v.Told) (h : TimingStep v w) : w.Told := by
  cases h with
  | stay => exact hv
  | schedule t hf =>
      cases hv with
      | unknown early fresh => exact .pending early t
      | _ => cases hf
  | cancel t hp =>
      cases hv with
      | pending early t' =>
          cases hp
          exact .cancelled t _ ⟨early, 0, rfl⟩
      | _ => cases hp
  | call hp =>
      cases hv with
      | unknown early fresh => exact .unknown (early + 1) fresh
      | pending early t' => cases hp
      | fired t marks h => exact .fired t _ h.call
      | cancelled t marks h => exact .cancelled t _ h.call
  | fire t hp =>
      cases hv with
      | pending early t' =>
          cases hp
          exact .fired t _ ⟨early, 0, rfl⟩
      | _ => cases hp

theorem Timing.Told.steps {v w : Timing} (hv : v.Told) (h : TimingSteps v w) : w.Told := by
  induction h with
  | refl => exact hv
  | tail _ hlast ih => exact ih.step hlast

theorem FiredOnce.eq_of_scheduled {t t' : Timer} {marks : List TimerMark} (h : FiredOnce t marks)
    (ht : .scheduled t' ∈ marks) : t' = t := by
  obtain ⟨early, late, rfl⟩ := h
  simpa [List.mem_replicate] using ht

theorem CancelledOnce.eq_of_scheduled {t t' : Timer} {marks : List TimerMark}
    (h : CancelledOnce t marks) (ht : .scheduled t' ∈ marks) : t' = t := by
  obtain ⟨early, late, rfl⟩ := h
  simpa [List.mem_replicate] using ht

/-- A timer is scheduled once. -/
theorem Timing.Told.unique {v : Timing} (hv : v.Told) {t t' : Timer}
    (h : .scheduled t ∈ v.marks) (h' : .scheduled t' ∈ v.marks) : t = t' := by
  cases hv with
  | unknown early fresh => simp [List.mem_replicate] at h
  | pending early t₀ =>
      have hone : ∀ u : Timer, .scheduled u ∈ .scheduled t₀ :: replicate early TimerMark.called →
          u = t₀ := by simp [List.mem_replicate]
      rw [hone t h, hone t' h']
  | fired t₀ marks hm => rw [hm.eq_of_scheduled h, hm.eq_of_scheduled h']
  | cancelled t₀ marks hm => rw [hm.eq_of_scheduled h, hm.eq_of_scheduled h']

/-- A timer that was never scheduled has done nothing. -/
theorem Timing.Told.unscheduled {v : Timing} (hv : v.Told) (h : ∀ t, .scheduled t ∉ v.marks) :
    ∃ early, v.marks = replicate early .called := by
  cases hv with
  | unknown early fresh => exact ⟨early, rfl⟩
  | pending early t => exact absurd List.mem_cons_self (h t)
  | fired t marks hm =>
      obtain ⟨early, late, rfl⟩ := hm
      exact absurd (by simp) (h t)
  | cancelled t marks hm =>
      obtain ⟨early, late, rfl⟩ := hm
      exact absurd (by simp) (h t)

/-- When a timer that was scheduled is not pending any more, it has fired or was cancelled. -/
theorem Timing.Told.over {v : Timing} (hv : v.Told) (hp : v.pending = none) {t : Timer}
    (h : .scheduled t ∈ v.marks) : FiredOnce t v.marks ∨ CancelledOnce t v.marks := by
  cases hv with
  | unknown early fresh => simp [List.mem_replicate] at h
  | pending early t₀ => cases hp
  | fired t₀ marks hm =>
      rw [hm.eq_of_scheduled h]
      exact .inl hm
  | cancelled t₀ marks hm =>
      rw [hm.eq_of_scheduled h]
      exact .inr hm

variable {p : Deed → Prop} {l m n : Launch} {id : Nat}

/-- The other timers see nothing of a number that is given to a timer. -/
theorem decide_succ_le_of_ne {n : Nat} (h : id ≠ n) : decide (n + 1 ≤ id) = decide (n ≤ id) := by
  rw [decide_eq_decide]
  omega

theorem Launch.mem_timerMarks {mark : TimerMark} :
    mark ∈ l.timerMarks id ↔ mark.occurrence id ∈ l.history := by
  unfold timerMarks
  rw [List.mem_filterMap]
  constructor
  · rintro ⟨o, ho, hmark⟩
    rw [← Occurrence.timerMark?_eq_some.mp hmark]
    exact ho
  · intro ho
    exact ⟨_, ho, Occurrence.timerMark?_eq_some.mpr rfl⟩

theorem Launch.scheduled_mem_timerMarks {t : Timer} :
    .scheduled t ∈ l.timerMarks id ↔ .scheduled id t ∈ l.history :=
  mem_timerMarks

namespace Launch

/-- What is put on the history of a launch is told of its timer only. -/
theorem timerMarks_of_cons {o : Occurrence} (hh : m.history = o :: l.history) (id : Nat) :
    m.timerMarks id = (o.timerMark? id).toList ++ l.timerMarks id := by
  unfold timerMarks
  rw [hh, List.filterMap_cons]
  cases o.timerMark? id <;> rfl

/-- A timer that is cancelled is taken away, and the others stay as they are. -/
theorem timing_of_cancelled {i : Nat} {t : Timer} (ht : l.timers.get? i = some t)
    (htimers : m.timers = l.timers.erase i) (hnext : m.nextTimer = l.nextTimer)
    (hh : m.history = .cancelled i :: l.history) (id : Nat) :
    TimingStep (l.timing id) (m.timing id) := by
  unfold timing
  rw [timerMarks_of_cons hh, htimers, hnext, Table.get?_erase]
  by_cases hi : i = id
  · subst hi
    have hmark : (Occurrence.cancelled i).timerMark? i = some .cancelled := if_pos rfl
    rw [hmark, if_pos rfl]
    exact .cancel t ht
  · have hmark : (Occurrence.cancelled i).timerMark? id = none := if_neg hi
    rw [hmark, if_neg (Ne.symm hi)]
    exact .stay

/-- A timer is scheduled under the next number, and the others stay as they are. -/
theorem timing_of_scheduled {t : Timer} (htimers : m.timers = l.timers.insert l.nextTimer t)
    (hnext : m.nextTimer = l.nextTimer + 1)
    (hh : m.history = .scheduled l.nextTimer t :: l.history) (id : Nat) :
    TimingStep (l.timing id) (m.timing id) := by
  unfold timing
  rw [timerMarks_of_cons hh, htimers, hnext, Table.get?_insert]
  by_cases hi : l.nextTimer = id
  · subst hi
    have hmark : (Occurrence.scheduled l.nextTimer t).timerMark? l.nextTimer =
        some (.scheduled t) := if_pos rfl
    rw [hmark, if_pos rfl, decide_eq_false (Nat.not_succ_le_self _)]
    exact .schedule t (decide_eq_true (Nat.le_refl _))
  · have hmark : (Occurrence.scheduled l.nextTimer t).timerMark? id = none := if_neg hi
    rw [hmark, if_neg (Ne.symm hi), decide_succ_le_of_ne (Ne.symm hi)]
    exact .stay

end Launch

/-- **An effect is a step of every timer.** -/
theorem Effect.timing (h : Effect p l m) (id : Nat) :
    TimingStep (l.timing id) (m.timing id) := by
  cases h with
  | cancelTimer why i t ht =>
      apply Launch.timing_of_cancelled ht
      · rfl
      · rfl
      · rfl
  | schedule delay as scope record cancel hl has => exact Launch.timing_of_scheduled rfl rfl rfl id
  | spawn spec seq a t onExit h _ _ _ _ _ _ =>
      obtain ⟨r, -, -, -, -, heq⟩ := (l.withStarted h spec).attend_eq seq a onExit spec.name h
      rw [heq]
      exact .stay
  | _ => exact .stay

theorem Effects.timing (h : Effects p l m) (id : Nat) :
    TimingSteps (l.timing id) (m.timing id) := by
  induction h with
  | refl => exact .refl
  | tail _ hlast ih => exact ih.tail (hlast.timing id)

namespace Launch

/-- A message calls for the timer of its number at most. -/
theorem timing_arrive (l : Launch) (a : Arrival) (id : Nat) :
    (l.arrive a).timing id =
      if a.message = .timerFired id then
        { l.timing id with marks := .called :: (l.timing id).marks }
      else l.timing id := by
  obtain ⟨time, host, message⟩ := a
  cases message with
  | timerFired i =>
      unfold timing
      rw [timerMarks_of_cons (m := l.arrive ⟨time, host, .timerFired i⟩) rfl]
      by_cases hi : i = id
      · subst hi
        have hmark : (Occurrence.received (.timerFired i)).timerMark? i = some .called := if_pos rfl
        rw [hmark, if_pos rfl]
        rfl
      · have hmark : (Occurrence.received (.timerFired i)).timerMark? id = none := if_neg hi
        rw [hmark, if_neg (by simpa using hi)]
        rfl
  | _ => rfl

theorem timing_of_fired {i : Nat} (htimers : m.timers = l.timers.erase i)
    (hnext : m.nextTimer = l.nextTimer) (hh : m.history = .fired i :: l.history) (id : Nat) :
    m.timing id =
      if i = id then { l.timing id with marks := .fired :: (l.timing id).marks, pending := none }
      else l.timing id := by
  unfold timing
  rw [timerMarks_of_cons hh, htimers, hnext, Table.get?_erase]
  by_cases hi : i = id
  · subst hi
    have hmark : (Occurrence.fired i).timerMark? i = some .fired := if_pos rfl
    rw [hmark, if_pos rfl, if_pos rfl]
    rfl
  · have hmark : (Occurrence.fired i).timerMark? id = none := if_neg hi
    rw [hmark, if_neg (Ne.symm hi), if_neg hi]
    rfl

/-- The event that is queued, if one is, tells nothing of the timer. -/
theorem timing_elapse (l : Launch) (i : Nat) (t : Timer) (id : Nat) :
    (l.elapse i t).timing id =
      if i = id then { l.timing id with marks := .fired :: (l.timing id).marks, pending := none }
      else l.timing id := by
  have htaken := timing_of_fired (m := { l with timers := l.timers.erase i }.happen (.fired i))
    (l := l) (i := i) rfl rfl rfl id
  unfold elapse
  dsimp only
  split
  · exact htaken
  · exact htaken

/-- A message for a timer that is pending lets it fire. -/
theorem timing_fire {a : Arrival} {i : Nat} {t : Timer} (ha : a.message = .timerFired i)
    (ht : l.timers.get? i = some t) (id : Nat) :
    TimingStep (l.timing id)
      ((((l.arrive a).elapse i t).happen (.began (.timer i) t.actions (some t.scope))).timing
        id) := by
  have hcons : ((((l.arrive a).elapse i t).happen
      (.began (.timer i) t.actions (some t.scope))).timing id) =
        { ((l.arrive a).elapse i t).timing id with
          marks := ((Occurrence.began (.timer i) t.actions (some t.scope)).timerMark? id).toList ++
            (((l.arrive a).elapse i t).timing id).marks } :=
    Timing.ext (timerMarks_of_cons rfl id) rfl rfl
  rw [hcons, timing_elapse, timing_arrive, ha]
  by_cases hi : i = id
  · subst hi
    have hmark : (Occurrence.began (.timer i) t.actions (some t.scope)).timerMark? i =
        some (.began t.actions (some t.scope)) := if_pos rfl
    rw [hmark, if_pos rfl, if_pos rfl]
    exact .fire t ht
  · have hmark : (Occurrence.began (.timer i) t.actions (some t.scope)).timerMark? id = none :=
      if_neg hi
    rw [hmark, if_neg hi, if_neg (by simpa using hi)]
    exact .stay

end Launch

/-- **A stride is a few steps of every timer.** -/
theorem Stride.timing (h : Stride p l m) (id : Nat) : TimingSteps (l.timing id) (m.timing id) := by
  have hbody : ∀ {cause : BodyCause} {as : List Action} (scope : Option Scope) (n : Launch),
      (n.happen (.began cause as scope)).timing id = n.timing id →
      TimingSteps (n.timing id) ((Launch.activateBody cause as scope n).timing id) := by
    intro cause as scope n hn
    rw [← hn]
    exact (Launch.activateBody_effects (Action.every_true as) cause scope n).timing id
  cases h with
  | describe as hl has => exact (Launch.activateAll_effects has l).timing id
  | take e rest hp hc hs => exact .refl
  | ignore e rest hp hc he hs => exact .refl
  | interrupt e hc => exact .refl
  | answer e h writer as hc hf hm hy has =>
      exact hbody h.handler.scope (l.withWriter h writer) rfl
  | decline e h writer err hc hf hm hy =>
      exact .single (Effect.timing (p := p) (l := l.withWriter h writer)
        (Launch.report_effect _ err) id)
  | close e hc hs he => exact .refl
  | release q status r hc hr =>
      rcases (l.closeTurn (.processExited q status)).releaseProcess_cases q.id with
          ⟨-, h⟩ | ⟨g, -, -, h⟩
      · rw [h]
        exact .refl
      · rw [h]
        exact .refl
  | respawn r hc hf ha => exact hbody _ l rfl
  | postpone r delay hc hf ha =>
      exact .single (Launch.timing_of_scheduled rfl rfl rfl id)
  | shutdown reason due hc hb =>
      obtain ⟨deadline, heffects⟩ := Launch.beginShutdown_effects (p := p) hb
      exact heffects.timing id
  | arrive a hc hp hn ht =>
      rw [Launch.timing_arrive]
      split
      · rename_i ha
        exact .single (.call (ht id ha))
      · exact .refl
  | request reason due hc hf => exact .refl
  | notice a n hc hp ha =>
      have harrive := Launch.timing_arrive l a id
      rw [ha, if_neg (by simp)] at harrive
      rw [← harrive]
      obtain ⟨s, -, heffects⟩ := (l.arrive a).onNotice_effects n
      exact heffects.timing id
  | fire a i t hc hp ha ht has =>
      have hbegun := (Launch.activateBody_effects has (.timer i) (some t.scope)
        ((l.arrive a).elapse i t)).timing id
      exact .head (Launch.timing_fire ha ht id) hbegun
  | kill hc hp hs =>
      rcases Launch.killRemaining_effects (p := p) l with h | h
      · rw [h]
      · exact h.timing id

namespace Launch

/-- **One of the four stories is told of every timer.** -/
theorem told_of_strides {config : Config} {host : Host} {args : LaunchArguments}
    (h : Strides p (start config host args) l) (id : Nat) : (l.timing id).Told := by
  have hsteps : TimingSteps ((start config host args).timing id) (l.timing id) := by
    induction h with
    | refl => exact .refl
    | tail _ hlast ih => exact ih.trans (hlast.timing id)
  exact Timing.Told.steps (.unknown 0 (decide (1 ≤ id))) hsteps

/-! ## The event of a timer -/

/-- Between the two launches no timer fires, and a deed emits every event that says so. -/
def KeepsTime (p : Deed → Prop) (l m : Launch) : Prop :=
  ∃ os, m.history = os ++ l.history ∧ (∀ i, .fired i ∉ os) ∧
    ∀ i, .emitted (.timerElapsed i) ∈ os → p (.emit (.timerElapsed i))

theorem KeepsTime.refl (l : Launch) : KeepsTime p l l :=
  ⟨[], rfl, by simp, by simp⟩

theorem KeepsTime.trans (h : KeepsTime p l m) (h' : KeepsTime p m n) : KeepsTime p l n := by
  obtain ⟨os, hos, hfired, hemitted⟩ := h
  obtain ⟨os', hos', hfired', hemitted'⟩ := h'
  refine ⟨os' ++ os, by rw [hos', hos, List.append_assoc], ?_, ?_⟩
  · intro i hi
    exact (List.mem_append.mp hi).elim (hfired' i) (hfired i)
  · intro i hi
    exact (List.mem_append.mp hi).elim (hemitted' i) (hemitted i)

theorem keepsTime_of_cons {o : Occurrence} (hh : m.history = o :: l.history)
    (hfired : ∀ i, o ≠ .fired i)
    (hemitted : ∀ i, o = .emitted (.timerElapsed i) → p (.emit (.timerElapsed i))) :
    KeepsTime p l m := by
  refine ⟨[o], hh, fun i hi => ?_, fun i hi => ?_⟩
  · exact hfired i (List.mem_singleton.mp hi).symm
  · exact hemitted i (List.mem_singleton.mp hi).symm

end Launch

theorem Effect.keepsTime (h : Effect p l m) : Launch.KeepsTime p l m := by
  cases h with
  | enter => exact Launch.keepsTime_of_cons rfl (by simp) (by simp)
  | leave => exact Launch.keepsTime_of_cons rfl (by simp) (by simp)
  | line => exact Launch.keepsTime_of_cons rfl (by simp) (by simp)
  | interrupt => exact Launch.keepsTime_of_cons rfl (by simp) (by simp)
  | unregister => exact Launch.keepsTime_of_cons rfl (by simp) (by simp)
  | emit e he =>
      refine Launch.keepsTime_of_cons rfl (by simp) ?_
      rintro i ⟨⟩
      exact he
  | request => exact Launch.keepsTime_of_cons rfl (by simp) (by simp)
  | fail => exact Launch.keepsTime_of_cons rfl (by simp) (by simp)
  | failLate => exact Launch.keepsTime_of_cons rfl (by simp) (by simp)
  | failFast => exact ⟨[_, _], rfl, by simp, by simp⟩
  | cancelTimer => exact Launch.keepsTime_of_cons rfl (by simp) (by simp)
  | schedule => exact Launch.keepsTime_of_cons rfl (by simp) (by simp)
  | signalled => exact Launch.keepsTime_of_cons rfl (by simp) (by simp)
  | spawn spec seq a t onExit h _ _ _ _ _ _ =>
      obtain ⟨r, -, -, -, -, heq⟩ := (l.withStarted h spec).attend_eq seq a onExit spec.name h
      rw [heq]
      exact ⟨[_, _, _], rfl, by simp, by simp⟩
  | _ => exact ⟨[], rfl, by simp, by simp⟩

theorem Effects.keepsTime (h : Effects p l m) : Launch.KeepsTime p l m := by
  induction h with
  | refl => exact .refl l
  | tail _ hlast ih => exact ih.trans hlast.keepsTime

namespace Launch

theorem keepsTime_activateBody {as : List Action} (has : ∀ a ∈ as, a.Every p) (cause : BodyCause)
    (scope : Option Scope) (l : Launch) : KeepsTime p l (activateBody cause as scope l) := by
  have hbegun : KeepsTime p l (l.happen (.began cause as scope)) :=
    keepsTime_of_cons rfl (by simp) (by simp)
  exact hbegun.trans (activateBody_effects has cause scope l).keepsTime

theorem keepsTime_onNotice (l : Launch) (n : Notice) : KeepsTime p l (l.onNotice n) := by
  have hsup : ∀ s, KeepsTime p l { l with supervisor := s } := fun s =>
    ⟨[], rfl, by simp, by simp⟩
  rcases l.onNotice_cases n with
      ⟨-, h⟩ | ⟨s, -, ⟨-, h⟩ | ⟨r, -, ⟨_, _, _, -, h⟩ | ⟨_, status, fault, -, h⟩⟩⟩
  · rw [h]
    exact .refl l
  · rw [h]
    exact hsup s
  · rw [h]
    exact (hsup s).trans (keepsTime_of_cons rfl (by simp) (by simp))
  · obtain ⟨m, hm, hend⟩ := processEnded_effects (p := p) { l with supervisor := s } r status fault
    rw [h, hend]
    have htold : KeepsTime p m (m.emit (.processExited r.info status)) :=
      keepsTime_of_cons rfl (by simp) (by simp)
    exact ((hsup s).trans hm.keepsTime).trans htold

theorem keepsTime_releaseProcess (l : Launch) (id : ProcessId) :
    KeepsTime p l (l.releaseProcess id) := by
  rcases l.releaseProcess_cases id with ⟨-, h⟩ | ⟨g, -, -, h⟩
  · rw [h]
    exact ⟨[], rfl, by simp, by simp⟩
  · rw [h]
    exact ⟨[.released g], rfl, by simp, by simp⟩

theorem keepsTime_closeTurn (l : Launch) (e : Event) : KeepsTime p l (l.closeTurn e) :=
  keepsTime_of_cons rfl (by simp) (by simp)

theorem keepsTime_beginShutdown {reason : String} (h : l.beginShutdown reason = .ok m) :
    KeepsTime p l m := by
  obtain ⟨deadline, heffects⟩ := beginShutdown_effects (p := p) h
  have hbegun : KeepsTime p l (l.withShutdown reason deadline) :=
    keepsTime_of_cons rfl (by simp) (by simp)
  exact hbegun.trans heffects.keepsTime

theorem keepsTime_arrive (l : Launch) (a : Arrival) : KeepsTime p l (l.arrive a) :=
  keepsTime_of_cons rfl (by simp) (by simp)

theorem keepsTime_withWriter (l : Launch) (h : RegisteredHandler) (writer : Nat) :
    KeepsTime p l (l.withWriter h writer) :=
  ⟨[], rfl, by simp, by simp⟩

theorem keepsTime_killRemaining (l : Launch) : KeepsTime p l l.killRemaining := by
  rcases killRemaining_effects (p := p) l with h | h
  · rw [h]
    exact .refl l
  · have hforced : KeepsTime p l { l with forced := true } := ⟨[], rfl, by simp, by simp⟩
    exact hforced.trans h.keepsTime

/-- The event of a timer is queued as soon as the timer has fired, if it is that of a timer
action; the body of another timer begins then. Any other such event is emitted by a deed. -/
structure ElapsesInTime (p : Deed → Prop) (l : Launch) : Prop where
  fired : ∀ newer id older, l.history = newer ++ .fired id :: older →
    ∃ t, .scheduled id t ∈ older ∧
      ((t.record.isSome = true ∧ ∃ rest, newer = rest ++ [.emitted (.timerElapsed id)]) ∨
        (t.record = none ∧
          ∃ rest, newer = rest ++ [.began (.timer id) t.actions (some t.scope)]))
  emitted : ∀ newer id older, l.history = newer ++ .emitted (.timerElapsed id) :: older →
    p (.emit (.timerElapsed id)) ∨ ∃ rest, older = .fired id :: rest

theorem ElapsesInTime.keep (hl : l.ElapsesInTime p) (h : KeepsTime p l m) :
    m.ElapsesInTime p := by
  obtain ⟨os, hos, hfired, hemitted⟩ := h
  constructor
  · intro newer id older hsplit
    rw [hos] at hsplit
    obtain ⟨rest, rfl, hold⟩ := split_of_not_mem hsplit (hfired id)
    obtain ⟨t, ht, ⟨hr, rest', rfl⟩ | ⟨hr, rest', rfl⟩⟩ := hl.fired rest id older hold
    · exact ⟨t, ht, .inl ⟨hr, os ++ rest', (List.append_assoc _ _ _).symm⟩⟩
    · exact ⟨t, ht, .inr ⟨hr, os ++ rest', (List.append_assoc _ _ _).symm⟩⟩
  · intro newer id older hsplit
    rw [hos] at hsplit
    rcases split_of_append hsplit with ⟨rest, rfl, hold⟩ | ⟨rest, rfl, -⟩
    · exact hl.emitted rest id older hold
    · exact .inl (hemitted id (by simp))

/-- The body of a timer that is not of a timer action begins as soon as the timer has fired. -/
theorem ElapsesInTime.fire_none (hl : l.ElapsesInTime p) {i : Nat} {t : Timer}
    (hr : t.record = none) (hscheduled : .scheduled i t ∈ l.history)
    (hh : m.history = .began (.timer i) t.actions (some t.scope) :: .fired i :: l.history) :
    m.ElapsesInTime p := by
  -- A place on the new history is one of the first two, or one on the old history.
  constructor
  · intro newer id older hsplit
    rw [hh] at hsplit
    rcases split_of_cons hsplit with ⟨-, heq, -⟩ | ⟨newer₁, rfl, hsplit₁⟩
    · cases heq
    rcases split_of_cons hsplit₁ with ⟨rfl, heq, rfl⟩ | ⟨newer₂, rfl, hsplit₂⟩
    · cases heq
      exact ⟨t, hscheduled, .inr ⟨hr, [], rfl⟩⟩
    obtain ⟨t', ht', ⟨hr', rest, rfl⟩ | ⟨hr', rest, rfl⟩⟩ := hl.fired newer₂ id older hsplit₂
    · exact ⟨t', ht', .inl ⟨hr', _ :: _ :: rest, rfl⟩⟩
    · exact ⟨t', ht', .inr ⟨hr', _ :: _ :: rest, rfl⟩⟩
  · intro newer id older hsplit
    rw [hh] at hsplit
    rcases split_of_cons hsplit with ⟨-, heq, -⟩ | ⟨newer₁, -, hsplit₁⟩
    · cases heq
    rcases split_of_cons hsplit₁ with ⟨-, heq, -⟩ | ⟨newer₂, -, hsplit₂⟩
    · cases heq
    exact hl.emitted newer₂ id older hsplit₂

/-- The event of a timer action is queued as soon as its timer has fired. -/
theorem ElapsesInTime.fire_some (hl : l.ElapsesInTime p) {i : Nat} {t : Timer}
    (hr : t.record.isSome = true) (hscheduled : .scheduled i t ∈ l.history)
    (hh : m.history = .began (.timer i) t.actions (some t.scope) ::
      .emitted (.timerElapsed i) :: .fired i :: l.history) : m.ElapsesInTime p := by
  constructor
  · intro newer id older hsplit
    rw [hh] at hsplit
    rcases split_of_cons hsplit with ⟨-, heq, -⟩ | ⟨newer₁, rfl, hsplit₁⟩
    · cases heq
    rcases split_of_cons hsplit₁ with ⟨-, heq, -⟩ | ⟨newer₂, rfl, hsplit₂⟩
    · cases heq
    rcases split_of_cons hsplit₂ with ⟨rfl, heq, rfl⟩ | ⟨newer₃, rfl, hsplit₃⟩
    · cases heq
      exact ⟨t, hscheduled, .inl ⟨hr, [_], rfl⟩⟩
    obtain ⟨t', ht', ⟨hr', rest, rfl⟩ | ⟨hr', rest, rfl⟩⟩ := hl.fired newer₃ id older hsplit₃
    · exact ⟨t', ht', .inl ⟨hr', _ :: _ :: _ :: rest, rfl⟩⟩
    · exact ⟨t', ht', .inr ⟨hr', _ :: _ :: _ :: rest, rfl⟩⟩
  · intro newer id older hsplit
    rw [hh] at hsplit
    rcases split_of_cons hsplit with ⟨-, heq, -⟩ | ⟨newer₁, -, hsplit₁⟩
    · cases heq
    rcases split_of_cons hsplit₁ with ⟨-, heq, hold⟩ | ⟨newer₂, -, hsplit₂⟩
    · cases heq
      exact .inr ⟨_, hold.symm⟩
    rcases split_of_cons hsplit₂ with ⟨-, heq, -⟩ | ⟨newer₃, -, hsplit₃⟩
    · cases heq
    exact hl.emitted newer₃ id older hsplit₃

theorem ElapsesInTime.fire (hl : l.ElapsesInTime p) {i : Nat} {t : Timer}
    (hscheduled : .scheduled i t ∈ l.history) :
    ((l.elapse i t).happen
      (.began (.timer i) t.actions (some t.scope))).ElapsesInTime p := by
  cases hr : t.record with
  | none =>
      apply hl.fire_none hr hscheduled
      unfold elapse
      rw [hr]
      rfl
  | some seq =>
      apply hl.fire_some (by rw [hr]; rfl) hscheduled
      unfold elapse
      rw [hr]
      rfl

end Launch

/-- A stride in which no timer fires keeps the time; in the other ones the timer is pending. -/
theorem Launch.ElapsesInTime.stride (hl : l.ElapsesInTime p)
    (hgrounded : ∀ id, (l.timing id).Grounded) (h : Stride p l m) : m.ElapsesInTime p := by
  cases h with
  | describe as _ has => exact hl.keep (Launch.activateAll_effects has l).keepsTime
  | take e rest hp hc hs => exact hl.keep (Launch.keepsTime_of_cons rfl (by simp) (by simp))
  | ignore e rest hp hc he hs => exact hl.keep (Launch.keepsTime_of_cons rfl (by simp) (by simp))
  | interrupt e hc => exact hl.keep (Launch.keepsTime_of_cons rfl (by simp) (by simp))
  | answer e h writer as hc hf hm hy has =>
      exact hl.keep ((Launch.keepsTime_withWriter l h writer).trans
        (Launch.keepsTime_activateBody has _ _ _))
  | decline e h writer err hc hf hm hy =>
      exact hl.keep ((Launch.keepsTime_withWriter l h writer).trans
        (Launch.report_effect _ err).keepsTime)
  | close e hc hs he => exact hl.keep (Launch.keepsTime_closeTurn l e)
  | release q status r hc hr =>
      exact hl.keep ((Launch.keepsTime_closeTurn l _).trans
        (Launch.keepsTime_releaseProcess _ q.id))
  | respawn r hc hf ha => exact hl.keep (Launch.keepsTime_activateBody ha _ _ l)
  | postpone r delay hc hf ha => exact hl.keep (Effect.schedule delay _ _ _ _ hf ha).keepsTime
  | shutdown reason due hc hb =>
      exact hl.keep ((Launch.keepsTime_closeTurn l _).trans (Launch.keepsTime_beginShutdown hb))
  | arrive a hc hp hn ht => exact hl.keep (Launch.keepsTime_arrive l a)
  | request reason due hc hf => exact hl.keep (Effect.request reason due hf).keepsTime
  | notice a n hc hp ha =>
      exact hl.keep ((Launch.keepsTime_arrive l a).trans (Launch.keepsTime_onNotice _ n))
  | fire a i t hc hp ha ht has =>
      have hscheduled : .scheduled i t ∈ (l.arrive a).history :=
        List.mem_cons_of_mem _ (Launch.scheduled_mem_timerMarks.mp (hgrounded i t ht))
      exact ((hl.keep (Launch.keepsTime_arrive l a)).fire hscheduled).keep
        (Launch.activateBody_effects has (.timer i) (some t.scope) _).keepsTime
  | kill hc hp hs => exact hl.keep (Launch.keepsTime_killRemaining l)

/-- The event of a timer that was scheduled once follows at once when it fires, if and only if the
timer is that of an action. -/
theorem Launch.ElapsesInTime.elapsed_iff (hl : l.ElapsesInTime p) {t : Timer}
    (hone : ∀ t', .scheduled id t' ∈ l.history → t' = t) :
    (∃ newer older, l.history = newer ++ .emitted (.timerElapsed id) :: .fired id :: older) ↔
      .fired id ∈ l.history ∧ t.record.isSome = true := by
  have hplaced : ∀ {newer older : List Occurrence} {t' : Timer},
      l.history = newer ++ .fired id :: older → .scheduled id t' ∈ older → t' = t := by
    intro newer older t' hplace ht'
    apply hone
    rw [hplace]
    exact List.mem_append_right newer (List.mem_cons_of_mem _ ht')
  constructor
  · rintro ⟨newer, older, hsplit⟩
    have hplace : l.history = (newer ++ [.emitted (.timerElapsed id)]) ++ .fired id :: older := by
      rw [hsplit, List.append_assoc]
      rfl
    refine ⟨by rw [hplace]; simp, ?_⟩
    obtain ⟨t', ht', ⟨hr, -⟩ | ⟨-, rest, hrest⟩⟩ := hl.fired _ id older hplace
    · rw [← hplaced hplace ht']
      exact hr
    · have hlast := (List.append_inj' hrest rfl).2
      cases hlast
  · rintro ⟨hfired, hr⟩
    obtain ⟨newer, older, hplace⟩ := List.append_of_mem hfired
    obtain ⟨t', ht', ⟨-, rest, rfl⟩ | ⟨hnone, -⟩⟩ := hl.fired newer id older hplace
    · refine ⟨rest, older, ?_⟩
      rw [hplace, List.append_assoc]
      rfl
    · rw [hplaced hplace ht'] at hnone
      rw [hnone] at hr
      cases hr

/-- A timer fires when no event is left to be dispatched. -/
theorem Move.keepsTime (h : Move p l m) :
    Launch.KeepsTime p l m ∨ ∃ id t, l.context.current = none ∧ l.context.pending = [] ∧
      l.timers.get? id = some t ∧ m = l.elapse id t := by
  cases h with
  | effect h => exact .inl h.keepsTime
  | take e rest hp hc hs => exact .inl (Launch.keepsTime_of_cons rfl (by simp) (by simp))
  | ignore e rest hp hc he hs => exact .inl (Launch.keepsTime_of_cons rfl (by simp) (by simp))
  | answer e h writer as hc hf hm hy has =>
      exact .inl ((Launch.keepsTime_withWriter l h writer).trans
        (Launch.keepsTime_of_cons rfl (by simp) (by simp)))
  | decline e h writer hc hf hm hy => exact .inl (Launch.keepsTime_withWriter l h writer)
  | resume cause as scope hcause has =>
      exact .inl (Launch.keepsTime_of_cons rfl (by simp) (by simp))
  | close e hc hs he => exact .inl (Launch.keepsTime_closeTurn l e)
  | release q status r hc hr =>
      exact .inl ((Launch.keepsTime_closeTurn l _).trans (Launch.keepsTime_releaseProcess _ q.id))
  | shutdown reason due hc hb =>
      exact .inl ((Launch.keepsTime_closeTurn l _).trans (Launch.keepsTime_beginShutdown hb))
  | arrive a hc hp ha => exact .inl (Launch.keepsTime_arrive l a)
  | notice a n hc hp ha =>
      exact .inl ((Launch.keepsTime_arrive l a).trans (Launch.keepsTime_onNotice _ n))
  | elapse id t hc hp ht => exact .inr ⟨id, t, hc, hp, ht, rfl⟩
  | kill hc hp hs => exact .inl (Launch.keepsTime_killRemaining l)

namespace Launch

variable {config : Config} {host : Host} {args : LaunchArguments}

/-! ## Timers and the shutdown -/

/-- A timer that fires when a shutdown was asked for is one that outlives it. -/
theorem not_cancelOnShutdown_of_elapse (hl : Moves p (start config host args) l)
    (hf : l.context.shuttingDown = true) (hc : l.context.current = none)
    (hp : l.context.pending = []) {id : Nat} {t : Timer} (ht : l.timers.get? id = some t) :
    t.cancelOnShutdown = false := by
  -- No request is on its way, so the shutdown has begun and its timers are gone.
  have hbegun := (shutdownInOrder_of_moves hl).begun_of_quiet hc hp hf
  exact (settled_of_moves hl hbegun).timers id t ht

/-- What happens without the timers leaves no timer behind that was not scheduled. -/
theorem grounded_of_sameTimers (hl : ∀ id, (l.timing id).Grounded) (h : l.SameTimers m) (id : Nat) :
    (m.timing id).Grounded := by
  intro t ht
  have hold : l.timers.get? id = some t := by
    rw [← h.timers]
    exact ht
  exact scheduled_mem_timerMarks.mpr (h.mem (scheduled_mem_timerMarks.mp (hl id t hold)))

theorem grounded_of_effects (hl : ∀ id, (l.timing id).Grounded) (h : Effects p l m) (id : Nat) :
    (m.timing id).Grounded := by
  induction h with
  | refl => exact hl id
  | tail _ hlast ih => exact ih.step (hlast.timing id)

/-- A move takes a timer away whose time has come, or it does nothing to timers before its
effects. -/
theorem timers_of_move (h : Move p l m) :
    (∃ k q, l.SameTimers k ∧ Effects q k m) ∨
      ∃ i t, l.timers.get? i = some t ∧ m = l.elapse i t := by
  have hsame : l.SameTimers m → ∃ k q, l.SameTimers k ∧ Effects q k m := fun h =>
    ⟨m, p, h, .refl⟩
  cases h with
  | effect h => exact .inl ⟨l, p, .refl l, .single h⟩
  | take e rest hp hc hs =>
      exact .inl (hsame (((sameBooks_withoutNext _ rest).trans
        (sameBooks_happen _ rfl)).trans (sameBooks_openTurn _ e)).toSameTimers)
  | ignore e rest hp hc he hs =>
      exact .inl (hsame ((sameBooks_withoutNext _ rest).trans
        (sameBooks_happen _ rfl)).toSameTimers)
  | answer e h writer as hc hf hm hy has =>
      exact .inl (hsame ((sameBooks_withWriter _ h writer).trans
        (sameBooks_happen _ rfl)).toSameTimers)
  | decline e h writer hc hf hm hy =>
      exact .inl (hsame (sameBooks_withWriter _ h writer).toSameTimers)
  | resume cause as scope hcause has => exact .inl (hsame (sameBooks_happen _ rfl).toSameTimers)
  | close e hc hs he => exact .inl (hsame (sameBooks_closeTurn _ e).toSameTimers)
  | release q status r hc hr =>
      exact .inl (hsame ((sameBooks_closeTurn _ _).trans
        (sameBooks_releaseProcess _ q.id)).toSameTimers)
  | shutdown reason due hc hb =>
      obtain ⟨deadline, heffects⟩ := beginShutdown_effects (p := p) hb
      exact .inl ⟨_, p, ((sameBooks_closeTurn _ _).trans
        (sameBooks_withShutdown _ _ _)).toSameTimers, heffects⟩
  | arrive a hc hp ha => exact .inl (hsame (sameBooks_arrive _ a).toSameTimers)
  | notice a n hc hp ha =>
      obtain ⟨s, -, heffects⟩ := (arrive _ a).onNotice_effects n
      exact .inl ⟨_, _, ((sameBooks_arrive _ a).trans (sameBooks_supervisor _ s)).toSameTimers,
        heffects⟩
  | elapse i t hc hp ht => exact .inr ⟨i, t, ht, rfl⟩
  | kill hc hp hs => exact .inl (hsame (sameBooks_killRemaining _).toSameTimers)

/-- In every state, also in the middle of an activation, the pending timers were scheduled. -/
theorem grounded_of_moves (h : Moves p (start config host args) l) (id : Nat) :
    (l.timing id).Grounded := by
  induction h generalizing id with
  | refl => simp [Timing.Grounded, timing, start]
  | tail _ hlast ih =>
      rcases timers_of_move hlast with ⟨k, q, hsame, heffects⟩ | ⟨i, t, -, rfl⟩
      · exact grounded_of_effects (grounded_of_sameTimers ih hsame) heffects id
      · rw [timing_elapse]
        split
        · simp [Timing.Grounded]
        · exact ih id

/-- The pending timers have numbers that were given. -/
def Numbered (l : Launch) : Prop :=
  ∀ id t, l.timers.get? id = some t → id < l.nextTimer

theorem Numbered.sameTimers (hl : l.Numbered) (h : l.SameTimers m) : m.Numbered := by
  intro id t ht
  rw [h.timers] at ht
  rw [h.nextTimer]
  exact hl id t ht

theorem Numbered.effect (hl : l.Numbered) (h : Effect p l m) : m.Numbered := by
  intro id t ht
  have hnew : (m.timing id).fresh = false := by
    have hold : ∀ t', (l.timing id).pending = some t' → (l.timing id).fresh = false :=
      fun t' ht' => decide_eq_false (Nat.not_le.mpr (hl id t' ht'))
    have hpending : (m.timing id).pending = some t := ht
    have hstep := h.timing id
    generalize l.timing id = v at hold hstep
    generalize m.timing id = w at hpending hstep ⊢
    cases hstep with
    | stay => exact hold t hpending
    | schedule t' hf => rfl
    | cancel t' hp => cases hpending
    | call hp => exact hold t hpending
    | fire t' hp => cases hpending
  exact Nat.not_le.mp (of_decide_eq_false hnew)

theorem Numbered.effects (hl : l.Numbered) (h : Effects p l m) : m.Numbered := by
  induction h with
  | refl => exact hl
  | tail _ hlast ih => exact ih.effect hlast

theorem Numbered.elapse (hl : l.Numbered) (i : Nat) (t : Timer) : (l.elapse i t).Numbered := by
  have htaken : ({ l with timers := l.timers.erase i }.happen (.fired i)).Numbered :=
    fun id t' ht' => hl id t' (Table.get?_of_get?_erase ht')
  unfold Launch.elapse
  dsimp only
  split
  · exact htaken
  · exact htaken

/-- **In every state the pending timers have numbers that were given.** -/
theorem numbered_of_moves (h : Moves p (start config host args) l) : l.Numbered := by
  induction h with
  | refl => simp [Numbered, start]
  | tail _ hlast ih =>
      rcases timers_of_move hlast with ⟨k, q, hsame, heffects⟩ | ⟨i, t, -, rfl⟩
      · exact (ih.sameTimers hsame).effects heffects
      · exact ih.elapse i t

theorem elapsesInTime_of_strides (h : Strides p (start config host args) l) :
    l.ElapsesInTime p := by
  induction h with
  | refl => exact ⟨by simp [start], by simp [start]⟩
  | tail hbefore hlast ih => exact ih.stride (grounded_of_moves (Strides.moves hbefore)) hlast

theorem history_elapse (l : Launch) (i : Nat) (t : Timer) :
    ∃ os, (l.elapse i t).history = os ++ .fired i :: l.history ∧ ∀ j, .fired j ∉ os := by
  unfold elapse
  dsimp only
  split
  · exact ⟨[], rfl, by simp⟩
  · exact ⟨[.emitted (.timerElapsed i)], rfl, by simp⟩

/-- **A timer that is cancelled by a shutdown does not fire once a shutdown was asked for.** -/
theorem fired_of_shuttingDown (hm : Moves p (start config host args) m)
    (hf : m.context.shuttingDown = true) (h : Moves p m l) :
    ∃ newer, l.history = newer ++ m.history ∧
      ∀ id, .fired id ∈ newer → ∃ t, .scheduled id t ∈ l.history ∧ t.cancelOnShutdown = false := by
  induction h with
  | refl => exact ⟨[], rfl, by simp⟩
  | @tail n _ hbefore hlast ih =>
      obtain ⟨newer, hnewer, hfired⟩ := ih
      have hmoves := hm.trans hbefore
      have hflag := (Moves.winds ((sound_start config host args).moves hm) hf hbefore).flag hf
      rcases hlast.keepsTime with ⟨os, hos, hnone, -⟩ | ⟨i, t, hc, hp, ht, rfl⟩
      · refine ⟨os ++ newer, by rw [hos, hnewer, List.append_assoc], ?_⟩
        intro id hid
        obtain ⟨t, ht, hcancel⟩ := hfired id ((List.mem_append.mp hid).resolve_left (hnone id))
        exact ⟨t, by rw [hos]; exact List.mem_append_right os ht, hcancel⟩
      · have hcancel := not_cancelOnShutdown_of_elapse hmoves hflag hc hp ht
        have hscheduled := scheduled_mem_timerMarks.mp (grounded_of_moves hmoves i t ht)
        obtain ⟨os, hos, hnone⟩ := history_elapse n i t
        refine ⟨os ++ .fired i :: newer, by rw [hos, hnewer]; simp, ?_⟩
        intro id hid
        have hkept : ∀ o, o ∈ n.history → o ∈ (n.elapse i t).history := by
          intro o ho
          rw [hos]
          exact List.mem_append_right os (List.mem_cons_of_mem _ ho)
        rcases List.mem_append.mp hid with hid | hid
        · exact absurd hid (hnone id)
        · rcases List.mem_cons.mp hid with heq | hid
          · cases heq
            exact ⟨t, hkept _ hscheduled, hcancel⟩
          · obtain ⟨t', ht', hcancel'⟩ := hfired id hid
            exact ⟨t', hkept _ ht', hcancel'⟩

theorem not_fired_of_shuttingDown (hm : Moves p (start config host args) m)
    (hf : m.context.shuttingDown = true) (h : Moves p m l) {t : Timer}
    (hone : ∀ t', .scheduled id t' ∈ l.history → t' = t) (hcancel : t.cancelOnShutdown = true)
    {newer : List Occurrence} (hsplit : l.history = newer ++ m.history) : .fired id ∉ newer := by
  intro hfired
  obtain ⟨newer', hnewer', hkept⟩ := fired_of_shuttingDown hm hf h
  rw [hnewer'] at hsplit
  rw [← List.append_cancel_right hsplit] at hfired
  obtain ⟨t', ht', hoff⟩ := hkept id hfired
  rw [hone t' ht', hcancel] at hoff
  cases hoff

/-! ## The end of a run -/

theorem told_closing (h : Strides p (start config host args) l) (id : Nat) :
    (l.closing.timing id).Told := by
  have heffects : Effects (fun _ => True) l l.closing := l.closing_effects
  exact (told_of_strides h id).steps (heffects.timing id)

theorem scheduled_closing {t : Timer} :
    .scheduled id t ∈ l.closing.history ↔ .scheduled id t ∈ l.history :=
  mem_closing (by simp)

/-- The timers left at the end are cancelled, which keeps the time. -/
theorem keepsTime_closing (l : Launch) : KeepsTime p l l.closing :=
  (closing_effects (p := p) l).keepsTime

/-- The record of every timer action that was scheduled is completed in the end. -/
theorem completed_finish (h : Strides p (start config host args) l) {t : Timer} {k : Nat}
    (ht : .scheduled id t ∈ l.history) (hk : t.record = some k) :
    l.RecordsTimer k t ∧ ∃ r, l.finish.records[k]? = some r ∧ r.stage = .completed := by
  have hbooked := (balanced_of_strides h).booked
  have hclosing : l.closing.Booked [] := hbooked.cancelTimers _ _
  obtain ⟨-, hrecords, -⟩ := hbooked.timed id t k ht hk
  obtain ⟨-, -, hs | ⟨hpending, -⟩⟩ := hclosing.timed id t k (scheduled_closing.mpr ht) hk
  · obtain ⟨r, hr, hstage⟩ := Option.map_eq_some_iff.mp hs
    refine ⟨hrecords, r, ?_, hstage⟩
    rw [records_finish, Array.getElem?_toList]
    exact hr
  · rw [timers_closing] at hpending
    cases hpending

end Launch

section Timers

variable {config : Config} {host : Host} {args : LaunchArguments} {description : List Action}

/-- **Every timer fires once or is cancelled once.** At the end of a run, whatever messages came:
a timer that was never scheduled was called for in vain; one that was scheduled has fired at the
first call for it, which began its body, or was cancelled, and not both. When its body has begun,
every action of it was activated. Its event is queued as soon as it has fired, if and only if it is
that of a timer action, and no other event says that it has elapsed but those that deeds emit. The record of a timer action is completed. A timer that
a shutdown cancels does not fire once a shutdown was asked for. -/
theorem timers_end_once (hall : ∀ a ∈ description, a.Every p)
    (h : Reachable config host args description (.ended l)) (id : Nat) :
    ((∀ t, .scheduled id t ∉ l.history) →
        ∃ early, l.closing.timerMarks id = replicate early .called) ∧
      (∀ t, .scheduled id t ∈ l.history →
        ((FiredOnce t (l.closing.timerMarks id) ∨ CancelledOnce t (l.closing.timerMarks id)) ∧
          ¬ (FiredOnce t (l.closing.timerMarks id) ∧ CancelledOnce t (l.closing.timerMarks id))) ∧
        (∀ as scope, .began (.timer id) as scope ∈ l.closing.history →
          Launch.CarriesOut p (.start config host args) l (.timer id) as scope) ∧
        ((∃ newer older,
            l.closing.history = newer ++ .emitted (.timerElapsed id) :: .fired id :: older) ↔
          .fired id ∈ l.closing.history ∧ t.record.isSome = true) ∧
        (∀ k, t.record = some k →
          l.RecordsTimer k t ∧ ∃ r, l.finish.records[k]? = some r ∧ r.stage = .completed) ∧
        (t.cancelOnShutdown = true → ∀ m newer, Moves p (.start config host args) m →
          Moves p m l → m.context.shuttingDown = true → l.closing.history = newer ++ m.history →
            .fired id ∉ newer)) ∧
      ∀ newer older, l.closing.history = newer ++ .emitted (.timerElapsed id) :: older →
        p (.emit (.timerElapsed id)) ∨ ∃ rest, older = .fired id :: rest := by
  obtain ⟨hstrides, -⟩ := h.strides hall
  have htold := Launch.told_closing hstrides id
  have htime := (Launch.elapsesInTime_of_strides hstrides).keep (Launch.keepsTime_closing l)
  have hmark : ∀ t, .scheduled t ∈ l.closing.timerMarks id ↔ .scheduled id t ∈ l.history :=
    fun t => Launch.scheduled_mem_timerMarks.trans Launch.scheduled_closing
  have hone : ∀ t, .scheduled id t ∈ l.history →
      ∀ t', .scheduled id t' ∈ l.closing.history → t' = t := fun t ht t' ht' =>
    htold.unique (Launch.scheduled_mem_timerMarks.mpr ht') ((hmark t).mpr ht)
  refine ⟨fun hnone => ?_, fun t ht => ⟨⟨?_, ?_⟩, fun as scope hb => ?_, ?_, fun k hk => ?_, ?_⟩,
    fun newer older => htime.emitted newer id older⟩
  · exact htold.unscheduled fun t ht => hnone t ((hmark t).mp ht)
  · exact htold.over (l.timers_closing id) ((hmark t).mpr ht)
  · rintro ⟨hfired, hcancelled⟩
    exact not_firedOnce_of_cancelledOnce hcancelled hfired
  · exact Launch.carriesOut_of_strides hstrides ((Launch.mem_closing (by simp)).mp hb)
  · exact htime.elapsed_iff (hone t ht)
  · exact Launch.completed_finish hstrides ht hk
  · intro hcancel m newer hm hafter hflag hsplit
    have hend : Moves p m l.closing := hafter.trans (Launch.closing_effects l).moves
    exact Launch.not_fired_of_shuttingDown hm hflag hend (hone t ht) hcancel hsplit

/-- An action that activates others later. -/
def Action.later (bits : BitVec 128) (period : String) (children : List Action)
    (cancelOnShutdown : Bool) : Action :=
  .mk ⟨bits⟩ none (.timer [.text period] children cancelOnShutdown)

def TimerMark.isScheduled : TimerMark → Bool
  | .scheduled _ => true
  | _ => false

def TimerMark.isFired : TimerMark → Bool
  | .fired => true
  | _ => false

/-- Whether the run has ended, two timers were scheduled and only the first one has fired. -/
def Standing.hasTicked : Standing → Bool
  | .waiting _ => false
  | .ended l =>
      (l.closing.timerMarks 1).any (·.isFired) && (l.timerMarks 1).any (·.isScheduled) &&
        (l.timerMarks 2).any (·.isScheduled) && !(l.closing.timerMarks 2).any (·.isFired)

theorem scheduled_of_any {l : Launch} {id : Nat}
    (h : (l.timerMarks id).any (·.isScheduled) = true) : ∃ t, .scheduled id t ∈ l.history := by
  obtain ⟨mark, hmark, hkind⟩ := List.any_eq_true.mp h
  cases mark with
  | scheduled t => exact ⟨t, Launch.scheduled_mem_timerMarks.mp hmark⟩
  | _ => cases hkind

/-- Of two timers one fires, though it is called for twice and an unknown one once, and an
interrupt cancels the other. -/
theorem first_ticks_second_cancelled :
    ∃ l t t', Reachable .standard .willing [] [.later 1 "2" [.say 2 "tick"] false,
        .later 3 "5" [] true] (.ended l) ∧
      FiredOnce t (l.closing.timerMarks 1) ∧ CancelledOnce t' (l.closing.timerMarks 2) := by
  have hrun : Reachable.comesTo Standing.hasTicked ((Launch.begin .standard .willing []
      [.later 1 "2" [.say 2 "tick"] false, .later 3 "5" [] true]).run 9
      [⟨.zero, .willing, .timerFired 7⟩, ⟨.zero, .willing, .timerFired 1⟩,
        ⟨.zero, .willing, .timerFired 1⟩, ⟨.zero, .willing, .interrupt⟩]) = true := by
    decide +kernel
  obtain ⟨s, hs, hcheck⟩ := Reachable.exists_of_comesTo 9 _ hrun
  cases s with
  | waiting l => cases hcheck
  | ended l =>
      simp only [Standing.hasTicked, Bool.and_eq_true, Bool.not_eq_true'] at hcheck
      obtain ⟨⟨⟨hticked, hfirst⟩, hsecond⟩, hsilent⟩ := hcheck
      obtain ⟨t, ht⟩ := scheduled_of_any hfirst
      obtain ⟨t', ht'⟩ := scheduled_of_any hsecond
      obtain ⟨-, hone, -⟩ := timers_end_once (Action.every_true _) hs 1
      obtain ⟨-, htwo, -⟩ := timers_end_once (Action.every_true _) hs 2
      obtain ⟨⟨hover, -⟩, -⟩ := hone t ht
      obtain ⟨⟨hover', -⟩, -⟩ := htwo t' ht'
      refine ⟨l, t, t', hs, hover.resolve_right ?_, hover'.resolve_left ?_⟩
      · rintro ⟨early, late, heq⟩
        rw [heq] at hticked
        simp [TimerMark.isFired] at hticked
      · rintro ⟨early, late, heq⟩
        rw [heq] at hsilent
        simp [TimerMark.isFired] at hsilent

end Timers

end Conductor
