import Mathlib.Data.List.Induction
import Conductor.Proofs.Handler.Registry

/-!
# When the end of several actions is answered

The trigger `allExited` keeps of each action it follows what was reported of it last
(`Roster.Tells`). So it answers the end of a process exactly if the last report on every action
it follows is an end (`Roster.Rests`), and not as soon as every one of them has ended once: a
process of an action that has ended may have started since.
-/

namespace Conductor

/-- What an event reports of an action: that a process of it has started or ended. -/
def Event.reportOn (e : Event) (a : ActionId) : Option Progress :=
  (Progress.ofEvent? e).bind fun report => if report.1 = a then some report.2 else none

theorem Event.reportOn_eq_exited_iff {e : Event} {a : ActionId} {s : ExitStatus} :
    e.reportOn a = some (.exited s) ↔ ∃ p, e = .processExited p s ∧ p.action = a := by
  cases e <;> simp [Event.reportOn, Progress.ofEvent?, and_comm]

namespace Roster

/-! ## Reports on actions -/

/-- What was reported of an action last. -/
def lastReport (es : List Event) (a : ActionId) : Progress :=
  (es.reverse.findSome? (·.reportOn a)).getD .notStarted

/-- A process of the action has started. -/
def HasStarted (es : List Event) (a : ActionId) : Prop :=
  ∃ p, .processStarted p ∈ es ∧ p.action = a

/-- A process of the action has ended. -/
def HasEnded (es : List Event) (a : ActionId) : Prop :=
  ∃ p s, .processExited p s ∈ es ∧ p.action = a

/-- A process of the action has ended, and none has started or ended since. -/
def Rests (es : List Event) (a : ActionId) : Prop :=
  ∃ earlier p s later, es = earlier ++ .processExited p s :: later ∧ p.action = a ∧
    ∀ e ∈ later, e.reportOn a = none

variable {es : List Event} {e : Event} {a : ActionId} {as : List ActionId} {r : Roster}

theorem lastReport_append (es : List Event) (e : Event) (a : ActionId) :
    lastReport (es ++ [e]) a = (e.reportOn a).getD (lastReport es a) := by
  unfold lastReport
  rw [List.reverse_append, List.reverse_singleton, List.singleton_append, List.findSome?_cons]
  cases e.reportOn a <;> rfl

/-- An action rests if the last report on it is an end. -/
theorem hasExited_lastReport_iff : (lastReport es a).hasExited = true ↔ Rests es a := by
  constructor
  · intro h
    unfold lastReport at h
    cases hfind : es.reverse.findSome? (·.reportOn a) with
    | none =>
        rw [hfind] at h
        cases h
    | some q =>
        rw [hfind] at h
        obtain ⟨later, e, earlier, hes, he, hlater⟩ := List.findSome?_eq_some_iff.mp hfind
        cases q with
        | exited s =>
            obtain ⟨p, rfl, hp⟩ := Event.reportOn_eq_exited_iff.mp he
            refine ⟨earlier.reverse, p, s, later.reverse, ?_, hp, fun d hd => ?_⟩
            · rw [← List.reverse_reverse es, hes]
              simp
            · exact hlater d (List.mem_reverse.mp hd)
        | notStarted => cases h
        | running id => cases h
  · rintro ⟨earlier, p, s, later, rfl, hp, hlater⟩
    have hfind : (earlier ++ .processExited p s :: later).reverse.findSome? (·.reportOn a) =
        some (.exited s) := by
      rw [List.findSome?_eq_some_iff]
      exact ⟨later.reverse, .processExited p s, earlier.reverse, by simp,
        Event.reportOn_eq_exited_iff.mpr ⟨p, rfl, hp⟩,
        fun d hd => hlater d (List.mem_reverse.mp hd)⟩
    rw [lastReport, hfind]
    rfl

instance : Decidable (Rests es a) :=
  decidable_of_iff _ hasExited_lastReport_iff

theorem any_hasExited_iff :
    (es.any fun e => (e.reportOn a).any (·.hasExited)) = true ↔ HasEnded es a := by
  rw [List.any_eq_true]
  constructor
  · rintro ⟨e, he, hexited⟩
    cases hq : e.reportOn a with
    | none =>
        rw [hq] at hexited
        cases hexited
    | some q =>
        rw [hq] at hexited
        cases q with
        | exited s =>
            obtain ⟨p, rfl, hp⟩ := Event.reportOn_eq_exited_iff.mp hq
            exact ⟨p, s, he, hp⟩
        | notStarted => cases hexited
        | running id => cases hexited
  · rintro ⟨p, s, he, hp⟩
    refine ⟨_, he, ?_⟩
    rw [Event.reportOn_eq_exited_iff.mpr ⟨p, rfl, hp⟩]
    rfl

instance : Decidable (HasEnded es a) :=
  decidable_of_iff _ any_hasExited_iff

theorem Rests.hasEnded (h : Rests es a) : HasEnded es a := by
  obtain ⟨earlier, p, s, later, rfl, hp, -⟩ := h
  exact ⟨p, s, by simp, hp⟩

/-! ## What a roster holds -/

/-- The roster follows these actions, and holds of each what was reported of it last. -/
structure Tells (r : Roster) (as : List ActionId) (es : List Event) : Prop where
  follows : ∀ a, a ∈ r.map (·.1) ↔ a ∈ as
  last : ∀ x ∈ r, x.2 = lastReport es x.1

theorem mem_ofActions {x : ActionId × Progress} :
    x ∈ ofActions as ↔ x.1 ∈ as ∧ x.2 = .notStarted := by
  induction as with
  | nil => simp [ofActions]
  | cons a as ih =>
      obtain ⟨b, q⟩ := x
      rw [ofActions, List.mem_cons, List.mem_filter, ih]
      by_cases hb : b = a <;> simp [hb]

theorem tells_ofActions (as : List ActionId) : (ofActions as).Tells as [] where
  follows a := by
    simp only [List.mem_map, mem_ofActions]
    exact ⟨fun ⟨x, hx, hxa⟩ => hxa ▸ hx.1, fun h => ⟨(a, .notStarted), ⟨h, rfl⟩, rfl⟩⟩
  last x hx := (mem_ofActions.mp hx).2

/-- A roster that is shown an event keeps in step with the reports. -/
theorem Tells.observe (h : r.Tells as es) (e : Event) : (r.observe e).2.Tells as (es ++ [e]) := by
  unfold Roster.observe
  cases he : Progress.ofEvent? e with
  | none =>
      refine ⟨h.follows, fun x hx => ?_⟩
      rw [lastReport_append, h.last x hx]
      simp [Event.reportOn, he]
  | some report =>
      obtain ⟨b, q⟩ := report
      constructor
      · intro a
        rw [map_fst_note]
        exact h.follows a
      · intro x hx
        obtain ⟨y, hy, rfl⟩ := List.mem_map.mp hx
        rw [lastReport_append]
        by_cases hb : y.1 = b
        · simp [Event.reportOn, he, hb]
        · have hb' : b ≠ y.1 := fun h => hb h.symm
          simp [Event.reportOn, he, hb, hb', h.last y hy]

/-- The roster after it has been shown these events. -/
def after (r : Roster) (es : List Event) : Roster :=
  es.foldl (fun r e => (r.observe e).2) r

theorem tells_after (as : List ActionId) (es : List Event) :
    ((ofActions as).after es).Tells as es := by
  induction es using List.reverseRecOn with
  | nil => exact tells_ofActions as
  | append_singleton es e ih =>
      unfold after
      rw [List.foldl_append]
      exact ih.observe e

theorem Tells.allExited_iff (h : r.Tells as es) :
    r.allExited = true ↔ as ≠ [] ∧ ∀ a ∈ as, Rests es a := by
  have hnil : r = [] ↔ as = [] := by
    simp only [List.eq_nil_iff_forall_not_mem, ← h.follows, List.mem_map, not_exists, not_and]
    exact ⟨fun hr a x hx _ => hr x hx, fun has x hx => has x.1 x hx rfl⟩
  have hall : r.all (·.2.hasExited) = true ↔ ∀ a ∈ as, Rests es a := by
    simp only [List.all_eq_true, ← hasExited_lastReport_iff, ← h.follows, List.mem_map]
    constructor
    · rintro hr a ⟨x, hx, rfl⟩
      rw [← h.last x hx]
      exact hr x hx
    · intro has x hx
      rw [h.last x hx]
      exact has x.1 ⟨x, hx, rfl⟩
  rw [allExited, Bool.and_eq_true, hall]
  simp [hnil]

/-- A roster answers the end of a process of an action that it follows if afterwards all these
actions rest. -/
theorem Tells.observe_iff (h : r.Tells as es) (e : Event) : (r.observe e).1 = true ↔
    (∃ p s, e = .processExited p s ∧ p.action ∈ as) ∧ ∀ a ∈ as, Rests (es ++ [e]) a := by
  have hafter := (h.observe e).allExited_iff
  cases e with
  | processExited p s =>
      have hfound := (isSome_find?_iff r p.action).trans (h.follows p.action)
      simp only [Roster.observe, Progress.ofEvent?, Progress.hasExited, Bool.true_and,
        Bool.and_eq_true] at hafter ⊢
      rw [hafter, hfound]
      constructor
      · rintro ⟨hp, -, hrest⟩
        exact ⟨⟨p, s, rfl, hp⟩, hrest⟩
      · rintro ⟨⟨_, _, heq, hp⟩, hrest⟩
        cases heq
        exact ⟨hp, List.ne_nil_of_mem hp, hrest⟩
  | _ => simp [Roster.observe, Progress.ofEvent?, Progress.hasExited]

/-! ## Started and ended at least once -/

/-- Of every action a process has started and a process has ended. -/
def AllOver (as : List ActionId) (es : List Event) : Prop :=
  ∀ a ∈ as, HasStarted es a ∧ HasEnded es a

/-- Every process that ends has started before. -/
def EndsFollowStarts (es : List Event) : Prop :=
  ∀ earlier p s later, es = earlier ++ .processExited p s :: later →
    ∃ q, .processStarted q ∈ earlier ∧ q.id = p.id ∧ q.action = p.action

theorem endsFollowStarts_nil : EndsFollowStarts [] :=
  fun _ _ _ _ h => absurd (congrArg List.length h) (by simp)

theorem EndsFollowStarts.append_singleton (h : EndsFollowStarts es)
    (he : ∀ p s, e = .processExited p s →
      ∃ q, .processStarted q ∈ es ∧ q.id = p.id ∧ q.action = p.action) :
    EndsFollowStarts (es ++ [e]) := by
  intro earlier p s later hes
  rcases List.eq_nil_or_concat later with rfl | ⟨later, d, rfl⟩
  · obtain ⟨rfl, hlast⟩ := List.append_inj' hes rfl
    exact he p s (List.singleton_inj.mp hlast)
  · have hsplit : es ++ [e] = (earlier ++ .processExited p s :: later) ++ [d] := by
      rw [hes, List.concat_eq_append, List.append_assoc]
      rfl
    exact h earlier p s later (List.append_inj' hsplit rfl).1

theorem EndsFollowStarts.start (h : EndsFollowStarts es) (p : ProcessInfo) :
    EndsFollowStarts (es ++ [.processStarted p]) :=
  h.append_singleton fun _ _ heq => by cases heq

theorem EndsFollowStarts.exit (h : EndsFollowStarts es) {p : ProcessInfo} (s : ExitStatus)
    (hp : .processStarted p ∈ es) : EndsFollowStarts (es ++ [.processExited p s]) := by
  refine h.append_singleton fun q t heq => ?_
  cases heq
  exact ⟨p, hp, rfl, rfl⟩

/-- When a process of one of these actions has ended, no other process of the action starts. -/
def EndsForGood (as : List ActionId) (es : List Event) : Prop :=
  ∀ earlier p s later, es = earlier ++ .processExited p s :: later → p.action ∈ as →
    ∀ q, .processStarted q ∈ later → q.action ≠ p.action

theorem AllOver.mono {ds : List Event} (h : AllOver as es) (hsub : es ⊆ ds) : AllOver as ds := by
  intro a ha
  obtain ⟨⟨p, hp, hpa⟩, q, s, hq, hqa⟩ := h a ha
  exact ⟨⟨p, hsub hp, hpa⟩, q, s, hsub hq, hqa⟩

theorem EndsFollowStarts.left {ds : List Event} (h : EndsFollowStarts (es ++ ds)) :
    EndsFollowStarts es := by
  rintro earlier p s later rfl
  exact h earlier p s (later ++ ds) (by simp)

theorem EndsForGood.left {ds : List Event} (h : EndsForGood as (es ++ ds)) :
    EndsForGood as es := by
  rintro earlier p s later rfl hp q hq
  exact h earlier p s (later ++ ds) (by simp) hp q (List.mem_append_left _ hq)

theorem EndsFollowStarts.hasStarted (h : EndsFollowStarts es) (hended : HasEnded es a) :
    HasStarted es a := by
  obtain ⟨p, s, hmem, rfl⟩ := hended
  obtain ⟨earlier, later, rfl⟩ := List.append_of_mem hmem
  obtain ⟨q, hq, -, hqa⟩ := h earlier p s later rfl
  exact ⟨q, List.mem_append_left _ hq, hqa⟩

theorem EndsFollowStarts.allOver_iff (h : EndsFollowStarts es) :
    AllOver as es ↔ ∀ a ∈ as, HasEnded es a :=
  ⟨fun hover a ha => (hover a ha).2, fun hended a ha => ⟨h.hasStarted (hended a ha), hended a ha⟩⟩

/-- The event with which all are over for the first time is the end of a process. -/
theorem EndsFollowStarts.exists_of_allOver (h : EndsFollowStarts (es ++ [e]))
    (hover : AllOver as (es ++ [e])) (hnot : ¬ AllOver as es) :
    ∃ p s, e = .processExited p s ∧ p.action ∈ as := by
  rw [h.allOver_iff] at hover
  rw [h.left.allOver_iff] at hnot
  push Not at hnot
  obtain ⟨a, ha, hnone⟩ := hnot
  obtain ⟨p, s, hmem, hp⟩ := hover a ha
  rcases List.mem_append.mp hmem with hmem | hmem
  · exact absurd ⟨p, s, hmem, hp⟩ hnone
  · exact ⟨p, s, (List.mem_singleton.mp hmem).symm, hp ▸ ha⟩

/-- An action that ended for good rests. -/
theorem EndsForGood.rests (h : EndsForGood as es) (ha : a ∈ as) (hended : HasEnded es a) :
    Rests es a := by
  induction es using List.reverseRecOn with
  | nil =>
      obtain ⟨p, s, hmem, -⟩ := hended
      cases hmem
  | append_singleton es e ih =>
      obtain ⟨p, s, hend, rfl⟩ := hended
      rcases List.mem_append.mp hend with hmem | hlast
      · have hrest := ih h.left ⟨p, s, hmem, rfl⟩
        rw [← hasExited_lastReport_iff] at hrest ⊢
        rw [lastReport_append]
        cases e with
        | processStarted q =>
            obtain ⟨earlier, later, rfl⟩ := List.append_of_mem hmem
            have hother : q.action ≠ p.action :=
              h earlier p s (later ++ [.processStarted q]) (by simp) ha q (by simp)
            simpa [Event.reportOn, Progress.ofEvent?, hother] using hrest
        | processExited q t =>
            by_cases hq : q.action = p.action
            · simp [Event.reportOn, Progress.ofEvent?, hq, Progress.hasExited]
            · simpa [Event.reportOn, Progress.ofEvent?, hq] using hrest
        | _ => exact hrest
      · obtain rfl := List.mem_singleton.mp hlast
        exact ⟨es, p, s, [], rfl, rfl, List.forall_mem_nil _⟩

theorem exists_first_allOver (h : AllOver as es) (hne : as ≠ []) :
    ∃ earlier d later, es = earlier ++ d :: later ∧ AllOver as (earlier ++ [d]) ∧
      ¬ AllOver as earlier := by
  induction es using List.reverseRecOn with
  | nil =>
      obtain ⟨a, ha⟩ := List.exists_mem_of_ne_nil as hne
      obtain ⟨⟨p, hp, -⟩, -⟩ := h a ha
      cases hp
  | append_singleton es e ih =>
      by_cases hes : AllOver as es
      · obtain ⟨earlier, d, later, rfl, hd, hearlier⟩ := ih hes
        exact ⟨earlier, d, later ++ [e], by simp, hd, hearlier⟩
      · exact ⟨es, e, [], rfl, h, hes⟩

end Roster

/-! ## The answers of the trigger -/

namespace Trigger

/-- The trigger after it has been shown these events. -/
def after (t : Trigger) (es : List Event) : Trigger :=
  es.foldl (fun t e => (t.observe e).2) t

/-- The event is answered when it comes behind the others. -/
def Answers (t : Trigger) (es : List Event) (e : Event) : Prop :=
  ((t.after es).observe e).1 = true

/-- The event is the first one that is answered. -/
def AnswersFirst (t : Trigger) (es : List Event) (e : Event) : Prop :=
  t.Answers es e ∧ ∀ earlier d later, es = earlier ++ d :: later → ¬ t.Answers earlier d

theorem after_allExited (r : Roster) (es : List Event) :
    (allExited r).after es = .allExited (r.after es) := by
  induction es generalizing r with
  | nil => rfl
  | cons e es ih => exact ih (r.observe e).2

variable {as : List ActionId} {es : List Event} {e : Event}

open Roster

/-- The trigger that follows these actions. -/
def ends (as : List ActionId) : Trigger :=
  .allExited (ofActions as)

theorem answers_ends_iff : (ends as).Answers es e ↔
    (∃ p s, e = .processExited p s ∧ p.action ∈ as) ∧ ∀ a ∈ as, Rests (es ++ [e]) a := by
  rw [Answers, ends, after_allExited]
  exact (tells_after as es).observe_iff e

/-- An event is not answered before all are over. -/
theorem Answers.allOver (h : EndsFollowStarts (es ++ [e])) (ha : (ends as).Answers es e) :
    AllOver as (es ++ [e]) := by
  rw [h.allOver_iff]
  exact fun a hmem => ((answers_ends_iff.mp ha).2 a hmem).hasEnded

theorem not_answers_of_not_allOver (h : EndsFollowStarts es) (hnot : ¬ AllOver as es)
    {earlier later : List Event} {d : Event} (hes : es = earlier ++ d :: later) :
    ¬ (ends as).Answers earlier d := by
  intro ha
  have hsplit : es = (earlier ++ [d]) ++ later := by rw [hes, List.append_assoc]; rfl
  rw [hsplit] at h hnot
  exact hnot ((ha.allOver h.left).mono (List.subset_append_left _ _))

theorem answersFirst_iff_of_first (h : EndsFollowStarts (es ++ [e]))
    (hover : AllOver as (es ++ [e])) (hnot : ¬ AllOver as es) :
    (ends as).AnswersFirst es e ↔ ∀ a ∈ as, Rests (es ++ [e]) a := by
  constructor
  · exact fun hfirst => (answers_ends_iff.mp hfirst.1).2
  · intro hrest
    exact ⟨answers_ends_iff.mpr ⟨h.exists_of_allOver hover hnot, hrest⟩,
      fun earlier d later => not_answers_of_not_allOver h.left hnot⟩

theorem answersFirst_iff_of_endsForGood (h : EndsFollowStarts (es ++ [e]))
    (hgood : EndsForGood as (es ++ [e])) :
    (ends as).AnswersFirst es e ↔ AllOver as (es ++ [e]) ∧ ¬ AllOver as es := by
  constructor
  · rintro ⟨ha, hnone⟩
    refine ⟨ha.allOver h, fun hover => ?_⟩
    obtain ⟨p, -, -, hp⟩ := (answers_ends_iff.mp ha).1
    obtain ⟨earlier, d, later, rfl, hd, hearlier⟩ :=
      exists_first_allOver hover (List.ne_nil_of_mem hp)
    have hsplit : earlier ++ d :: later ++ [e] = (earlier ++ [d]) ++ (later ++ [e]) := by simp
    rw [hsplit] at h hgood
    have hrest : ∀ a ∈ as, Rests (earlier ++ [d]) a :=
      fun a hmem => hgood.left.rests hmem (hd a hmem).2
    exact hnone earlier d later rfl ((answersFirst_iff_of_first h.left hd hearlier).mpr hrest).1
  · rintro ⟨hover, hnot⟩
    exact (answersFirst_iff_of_first h hover hnot).mpr
      fun a hmem => hgood.rests hmem (hover a hmem).2

/-- **When the end of several actions is answered.** The trigger answers the end of a process of
an action that it follows exactly if afterwards all these actions rest. It does not do so before
of every one of them a process has started and a process has ended; with the event with which
this is so for the first time it does so exactly if none of them has started again. If they end
for good, this event is the first one that is answered. -/
theorem ends_answered (as : List ActionId) (es : List Event) (e : Event)
    (h : EndsFollowStarts (es ++ [e])) :
    ((ends as).Answers es e ↔
      (∃ p s, e = .processExited p s ∧ p.action ∈ as) ∧ ∀ a ∈ as, Rests (es ++ [e]) a) ∧
    ((ends as).Answers es e → AllOver as (es ++ [e])) ∧
    (AllOver as (es ++ [e]) → ¬ AllOver as es →
      ((ends as).AnswersFirst es e ↔ ∀ a ∈ as, Rests (es ++ [e]) a)) ∧
    (EndsForGood as (es ++ [e]) →
      ((ends as).AnswersFirst es e ↔ AllOver as (es ++ [e]) ∧ ¬ AllOver as es)) :=
  ⟨answers_ends_iff, Answers.allOver h, answersFirst_iff_of_first h, answersFirst_iff_of_endsForGood h⟩

/-! ### Two actions of which the first one runs twice -/

def first : ActionId := ⟨1#128⟩

def second : ActionId := ⟨2#128⟩

def runner (id : Nat) (a : ActionId) : ProcessInfo :=
  ⟨⟨id⟩, a, "runner", 1000 + id, ["runner"]⟩

/-- The first action has run, and is running again when the second one starts. -/
def rerun : List Event :=
  [.processStarted (runner 1 first), .processExited (runner 1 first) (.ofCode 0),
    .processStarted (runner 2 first), .processStarted (runner 3 second)]

theorem endsFollowStarts_rerun : EndsFollowStarts rerun :=
  (((endsFollowStarts_nil.start (runner 1 first)).exit (.ofCode 0)
    (by simp)).start (runner 2 first)).start (runner 3 second)

/-- Both have started; that of the second one is the only end that is missing. -/
theorem allOver_rerun_iff (es : List Event) :
    AllOver [first, second] (rerun ++ es) ↔ HasEnded (rerun ++ es) second := by
  have hstarted : HasStarted (rerun ++ es) first ∧ HasStarted (rerun ++ es) second :=
    ⟨⟨runner 1 first, by simp [rerun], rfl⟩, runner 3 second, by simp [rerun], rfl⟩
  have hended : HasEnded (rerun ++ es) first :=
    ⟨runner 1 first, .ofCode 0, by simp [rerun], rfl⟩
  simp [AllOver, hstarted, hended]

/-- The end of the second action is answered once the first one has ended again. -/
theorem second_end_answered :
    EndsFollowStarts (rerun ++ [.processExited (runner 2 first) (.ofSignal 15)] ++
      [.processExited (runner 3 second) (.ofCode 0)]) ∧
    (ends [first, second]).AnswersFirst
      (rerun ++ [.processExited (runner 2 first) (.ofSignal 15)])
      (.processExited (runner 3 second) (.ofCode 0)) := by
  have hends : EndsFollowStarts (rerun ++ [.processExited (runner 2 first) (.ofSignal 15)] ++
      [.processExited (runner 3 second) (.ofCode 0)]) :=
    (endsFollowStarts_rerun.exit _ (by simp [rerun])).exit _ (by simp [rerun])
  refine ⟨hends, ((ends_answered [first, second] _ _ hends).2.2.1 ?_ ?_).mpr (by decide)⟩
  · rw [List.append_assoc, allOver_rerun_iff]
    decide
  · rw [allOver_rerun_iff]
    decide

/-- Not every trigger that follows actions answers as soon as all are over: here the first action
is running again when the second one ends. -/
theorem not_every_last_end_answered : ¬ ∀ (as : List ActionId) (es : List Event) (e : Event),
    as ≠ [] → EndsFollowStarts (es ++ [e]) →
      ((ends as).AnswersFirst es e ↔ AllOver as (es ++ [e]) ∧ ¬ AllOver as es) := by
  intro h
  have hfirst := (h [first, second] rerun (.processExited (runner 3 second) (.ofCode 0)) (by simp)
    (endsFollowStarts_rerun.exit _ (by simp [rerun]))).mpr
      ⟨(allOver_rerun_iff _).mpr (by decide),
        by rw [← List.append_nil rerun, allOver_rerun_iff]; decide⟩
  have hrests := (answers_ends_iff.mp hfirst.1).2 first (by simp)
  revert hrests
  decide

end Trigger

end Conductor
