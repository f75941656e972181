import Conductor.Proofs.Launch.Containment
import Conductor.Proofs.Launch.Insertion
import Conductor.Proofs.Launch.Known
import Conductor.Proofs.Launch.Lifecycle
import Conductor.Report

/-!
# A skipped action is as if absent

An action among the children of a group is skipped because its condition is false, or because a
required source in front of it has failed. Either way it leaves one record and nothing else
(`Launch.Skips`), so the launch is the one without the action, with that record put in: what is
done afterwards is the same, under numbers that have moved up by one.
-/

namespace Conductor

/-- The record of an action whose condition is false. -/
def Record.declined (seq : Nat) (a : Action) : Record where
  seq := seq
  action := a.id
  kind := a.kind
  label := a.label
  stage := .skipped
  history := [.pending, .evaluatingCondition, .skipped]
  note := none

/-! ## What is told of a launch with one more record -/

namespace Insertion

variable {β : Type} {i : Insertion}

/-- What depends neither on numbers nor on what happens to the record is told as before. -/
theorem filterMap_retell {f : Occurrence → Option β}
    (hf : ∀ g o, f (Occurrence.renumber g o) = f o) (htold : ∀ o ∈ i.told, f o = none)
    (os : List Occurrence) : (i.retell os).filterMap f = os.filterMap f := by
  have hnewer : ((os.take (os.length - i.before)).map (·.renumber i.shift)).filterMap f =
      (os.take (os.length - i.before)).filterMap f := by
    rw [List.filterMap_map]
    exact congrArg (List.filterMap · _) (funext fun o => hf i.shift o)
  have hnone : i.told.filterMap f = [] := List.filterMap_eq_nil_iff.mpr htold
  unfold retell
  rw [List.filterMap_append, List.filterMap_append, hnewer, hnone, List.nil_append,
    ← List.filterMap_append, List.take_append_drop]

end Insertion

namespace Launch

variable {l m : Launch} {xs ys : List Action} {a : Action} {i : Insertion}

/-- What is told in a report of a launch is not about records. -/
theorem told_inserting {β : Type} {f : Occurrence → Option β}
    (hf : ∀ g o, f (Occurrence.renumber g o) = f o) (htold : ∀ o ∈ i.told, f o = none) :
    (l.inserting i).occurrences.filterMap f = l.occurrences.filterMap f := by
  unfold occurrences
  rw [List.filterMap_reverse, List.filterMap_reverse]
  exact congrArg List.reverse (Insertion.filterMap_retell hf htold l.history)

/-- Put in behind all others, a record moves none of them. -/
theorem inserting_last (hl : l.KnowsRecords) (hnumber : i.number = l.journal.size)
    (hbefore : i.before = l.history.length) :
    l.inserting i =
      { l with
        journal := ⟨l.journal.records.push i.record⟩
        history := i.told ++ l.history } := by
  have hshift {n : Nat} (h : n < l.journal.size) : i.shift n = n := if_pos (hnumber ▸ h)
  have hjournal : l.journal.inserting i = ⟨l.journal.records.push i.record⟩ := by
    unfold Journal.inserting
    rw [hnumber]
    simp [Journal.size]
  have hprocesses : l.processes.mapValues (·.renumber i.shift) = l.processes := by
    refine Table.mapValues_eq_self fun id r hr => ?_
    unfold RunningProcess.renumber
    rw [hshift (hl.processes id r hr)]
  have htimers : l.timers.mapValues (·.renumber i.shift) = l.timers := by
    refine Table.mapValues_eq_self fun id t ht => ?_
    unfold Timer.renumber
    cases hr : t.record with
    | none =>
        rw [Option.map_none, ← hr]
    | some k =>
        rw [Option.map_some, hshift (hl.timers id t k ht hr), ← hr]
  have hhistory : i.retell l.history = i.told ++ l.history := by
    unfold Insertion.retell
    rw [hbefore, Nat.sub_self]
    rfl
  unfold inserting
  rw [hjournal, hprocesses, htimers, hhistory]

/-! ## How an action is skipped -/

/-- What an action adds whose condition is false. -/
def declining (l : Launch) (a : Action) : Insertion where
  number := l.journal.size
  record := .declined l.journal.size a
  told := [.left l.journal.size .skipped, .entered l.journal.size a]
  before := l.history.length

/-- What an action adds that is passed over. -/
def passing (l : Launch) (a : Action) : Insertion where
  number := l.journal.size
  record := .passedOver l.journal.size a
  told := []
  before := l.history.length

/-- Among the children that are activated in the launch, the action behind the others is skipped,
and this is what it adds. -/
inductive Skips (l : Launch) (xs : List Action) (a : Action) : Insertion → Prop where
  /-- Its turn comes, and its condition is false. -/
  | declined {p : Condition} (hxs : l.Unbroken xs) (hp : a.condition = some p)
      (hd : (activateAll xs l).context.decide p = .ok false) :
      Skips l xs a ((activateAll xs l).declining a)
  /-- A required source in front of it has failed. -/
  | passedOver (hxs : ¬ l.Unbroken xs) : Skips l xs a ((activateChildren xs l).1.passing a)

theorem activate_of_false {p : Condition} (hp : a.condition = some p)
    (hd : l.context.decide p = .ok false) :
    activate a l =
      ({ l with
        journal := ⟨l.journal.records.push (.declined l.journal.size a)⟩
        history := .left l.journal.size .skipped :: .entered l.journal.size a :: l.history },
        .skipped) := by
  have hgate : (l.enter a).2.gate l.journal.size a =
      (((l.enter a).2.advance l.journal.size .evaluatingCondition).advance l.journal.size .skipped,
        some .skipped) := by
    have hd : (l.enter a).2.context.decide p = .ok false := hd
    unfold gate
    rw [hp]
    dsimp only
    rw [hd]
  have hjournal : ((l.journal.enter a).2.advance l.journal.size .evaluatingCondition).advance
      l.journal.size .skipped = ⟨l.journal.records.push (.declined l.journal.size a)⟩ := by
    simp only [Journal.enter, Journal.advance, Journal.size, Journal.modify_push]
    rfl
  rw [activate_eq, hgate]
  dsimp only
  rw [← hjournal]
  rfl

theorem inserted_declining (hl : l.KnowsRecords) {p : Condition} (hp : a.condition = some p)
    (hd : l.context.decide p = .ok false) :
    Inserted (l.declining a) l (activate a l).1 := by
  refine ⟨Nat.le_refl _, Nat.le_refl _, ?_⟩
  rw [activate_of_false hp hd, inserting_last hl rfl rfl]
  rfl

theorem inserted_passing (hl : l.KnowsRecords) (a : Action) :
    Inserted (l.passing a) l (l.skipAll [a] "enclosing group failed") := by
  refine ⟨Nat.le_refl _, Nat.le_refl _, ?_⟩
  rw [inserting_last hl rfl rfl]
  exact congrArg (fun journal => { l with journal }) (l.journal.skip_eq a)

/-! ## Lists of children -/

/-- Children behind others are activated once these are, or passed over. -/
theorem activateChildren_append (xs ys : List Action) (l : Launch) :
    activateChildren (xs ++ ys) l =
      match activateChildren xs l with
      | (m, none) => activateChildren ys m
      | (m, some e) => (m.skipAll ys "enclosing group failed", some e) := by
  induction xs generalizing l with
  | nil => rw [List.nil_append, activateChildren_nil]
  | cons a rest ih =>
      rw [List.cons_append]
      cases hesc : (activate a l).2.escalates with
      | true =>
          obtain ⟨reason, hreason⟩ := exists_reason_of_escalates hesc
          rw [activateChildren_of_escalates hreason, activateChildren_of_escalates hreason]
          unfold skipAll
          rw [List.foldl_append]
      | false =>
          rw [activateChildren_of_not_escalates hesc, activateChildren_of_not_escalates hesc, ih]

/-- Children fail as soon as a required source among them does. -/
theorem activateChildren_snd_of_not_unbroken (h : ¬ l.Unbroken xs) :
    ∃ e, (activateChildren xs l).2 = some e := by
  obtain ⟨pre, b, post, reason, rfl, hpre, hb⟩ := (unbroken_or_breaks xs l).resolve_left h
  rw [activateChildren_of_breaks hpre hb]
  exact ⟨_, rfl⟩

/-- The other children do the same with the action and without it. -/
theorem alike_activateChildren (hl : l.KnowsRecords) (hs : l.Skips xs a i) (ys : List Action) :
    Alike (Inserted i) (activateChildren (xs ++ ys) l) (activateChildren (xs ++ a :: ys) l) := by
  rw [activateChildren_append, activateChildren_append]
  cases hs with
  | @declined p hxs hp hd =>
      have hk : (activateAll xs l).KnowsRecords :=
        @Upheld.activateAll _ upheld_knowsRecords [] l xs hl
      have hskipped : (activate a (activateAll xs l)).2.escalates = false := by
        rw [activate_of_false hp hd]
        rfl
      rw [activateChildren_of_unbroken hxs]
      dsimp only
      rw [activateChildren_of_not_escalates hskipped]
      exact (sideBySide_inserted _).activateChildren (d := 0) (fun _ _ _ => trivial)
        (inserted_declining hk hp hd)
  | passedOver hxs =>
      obtain ⟨e, he⟩ := activateChildren_snd_of_not_unbroken hxs
      have hk : (activateChildren xs l).1.KnowsRecords :=
        @Upheld.activateChildren _ upheld_knowsRecords [] l xs hl
      cases hx : activateChildren xs l with
      | mk m failure =>
          rw [hx] at he hk
          obtain rfl : failure = some e := he
          exact ⟨(inserted_passing hk a).skipAll ys _, rfl⟩

theorem Skips.isOf (hs : l.Skips xs a i) : i.record.IsOf a ∧ i.record.stage = .skipped := by
  cases hs with
  | declined hxs hp hd => exact ⟨⟨rfl, rfl, rfl⟩, rfl⟩
  | passedOver hxs => exact ⟨⟨rfl, rfl, rfl⟩, rfl⟩

/-- What happens to an action that is skipped is not told in a report. -/
theorem Skips.untold {β : Type} {f : Occurrence → Option β} (hs : l.Skips xs a i)
    (hentered : ∀ n a, f (.entered n a) = none) (hleft : ∀ n outcome, f (.left n outcome) = none) :
    ∀ o ∈ i.told, f o = none := by
  cases hs with
  | declined hxs hp hd =>
      simp only [declining, List.forall_mem_cons, List.not_mem_nil, false_imp_iff, implies_true,
        and_true]
      exact ⟨hleft _ _, hentered _ _⟩
  | passedOver hxs => exact List.forall_mem_nil _

/-- The same is reported with the action and without it. -/
theorem Skips.reported (hs : l.Skips xs a i) (m : Launch) :
    (m.inserting i).timeline = m.timeline ∧ (m.inserting i).errors = m.errors ∧
      (m.inserting i).captured = m.captured := by
  refine ⟨told_inserting (fun g o => ?_) (hs.untold (fun _ _ => rfl) fun _ _ => rfl),
    told_inserting (fun g o => ?_) (hs.untold (fun _ _ => rfl) fun _ _ => rfl),
    told_inserting (fun g o => ?_) (hs.untold (fun _ _ => rfl) fun _ _ => rfl)⟩
  · cases o <;> rfl
  · cases o <;> rfl
  · cases o <;> rfl

/-- **A skipped action is as if absent.** Where an action among children is skipped, the children
come out as they do without it, and the launch is the one without it, but for its record: the
records behind it have moved up by one, and timers, processes and occurrences that stand under
them have their new numbers. The same is reported. All that is asked of the launch is that timers
and processes stand under records that have been opened, and so they do between any two bodies and
wherever children are activated. -/
theorem skipped_is_as_if_absent :
    (∀ (l : Launch) (xs ys : List Action) (a : Action) (i : Insertion), l.KnowsRecords →
      l.Skips xs a i →
        ∃ m outcome, activateChildren (xs ++ ys) l = (m, outcome) ∧
          activateChildren (xs ++ a :: ys) l = (m.inserting i, outcome) ∧
          ((m.inserting i).journal.record? i.number = some i.record ∧ i.record.IsOf a ∧
            i.record.stage = .skipped) ∧
          (∀ n, (m.inserting i).journal.record? (i.shift n) =
            (m.journal.record? n).map (i.moved n)) ∧
          (m.inserting i).timeline = m.timeline ∧ (m.inserting i).errors = m.errors ∧
          (m.inserting i).captured = m.captured) ∧
    ∀ (config : Config) (host : Host) (args : LaunchArguments) (description : List Action)
      (bs : List Beginning) (s : Phase) (l : Launch),
      Course config host args description bs s l →
        l.KnowsRecords ∧
        ∀ (b : Action) (m k : Launch) (children : List Action),
          HasPerformed config host args description bs b m →
            m.opens b.deed = some (children, k) → k.KnowsRecords := by
  constructor
  · intro l xs ys a i hl hs
    obtain ⟨hlaunches, hresult⟩ := alike_activateChildren hl hs ys
    refine ⟨(activateChildren (xs ++ ys) l).1, (activateChildren (xs ++ ys) l).2, rfl,
      Prod.ext hlaunches.eq hresult, ⟨?_, hs.isOf⟩, ?_, hs.reported _⟩
    · exact Journal.record?_inserting_number hlaunches.number
    · exact Journal.record?_inserting_shift hlaunches.number
  · intro config host args description bs s l h
    exact ⟨h.knowsRecords, fun b m k children hm ho => h.knowsRecords_opens hm ho⟩

/-- A timer that would be scheduled if some condition held. -/
def neverLater : Action :=
  (Action.later 2 "5" [.say 3 "never"] true).onlyIf (.any [])

/-- A group in which it stands between a process and a timer. -/
def mixedGroup : Action :=
  .mk ⟨6⟩ none (.group [] ([.work 1 []] ++ neverLater :: [.later 4 "5" [.say 5 "tick"] true]))

/-- The launch in which the group is performed, once it has been let through. -/
def admittedGroup : Launch :=
  (((start .standard .willing []).enter mixedGroup).2.advance 0 .activated).advance 0 .running

/-- The launch in which the first action of the group is activated. -/
def openedGroup : Launch :=
  admittedGroup.beginGroup.inScope (.ofVars [])

/-- In the group the action is skipped: the process stands under the same record with it and
without it, and the timer under one that has moved up. -/
theorem timer_moves_up_behind_skipped :
    (start .standard .willing []).Admits mixedGroup admittedGroup ∧
      admittedGroup.opens mixedGroup.deed =
        some ([.work 1 []] ++ neverLater :: [.later 4 "5" [.say 5 "tick"] true], openedGroup) ∧
      ∃ (m : Launch) (i : Insertion),
        openedGroup.Skips [.work 1 []] neverLater i ∧
        activateChildren ([.work 1 []] ++ [.later 4 "5" [.say 5 "tick"] true]) openedGroup =
          (m, none) ∧
        activateChildren ([.work 1 []] ++ neverLater :: [.later 4 "5" [.say 5 "tick"] true])
          openedGroup = (m.inserting i, none) ∧
        (m.processes.get? 1).map (·.record) = some 1 ∧
        ((m.inserting i).processes.get? 1).map (·.record) = some 1 ∧
        (m.timers.get? 1).map (·.record) = some (some 2) ∧
        ((m.inserting i).timers.get? 1).map (·.record) = some (some 3) := by
  have hunbroken : openedGroup.Unbroken [.work 1 []] := by
    refine unbroken_cons.mpr ⟨fun reason hbreaks => ?_, unbroken_nil _⟩
    obtain ⟨⟨source, arguments, h⟩, -⟩ := hbreaks
    cases h
  have hadmits : (start .standard .willing []).Admits mixedGroup admittedGroup := rfl
  have hopens : admittedGroup.opens mixedGroup.deed =
      some ([.work 1 []] ++ neverLater :: [.later 4 "5" [.say 5 "tick"] true], openedGroup) := rfl
  have hskips : openedGroup.Skips [.work 1 []] neverLater
      ((activateAll [.work 1 []] openedGroup).declining neverLater) :=
    .declined hunbroken rfl rfl
  obtain ⟨hskipped, hknown⟩ := skipped_is_as_if_absent
  obtain ⟨-, hchildren⟩ :=
    hknown .standard .willing [] [mixedGroup] [] .waiting _ Course.begin
  have hk : openedGroup.KnowsRecords :=
    hchildren mixedGroup admittedGroup openedGroup _ (.inl (.head (.self hadmits))) hopens
  obtain ⟨m, outcome, hwithout, hwith, -⟩ :=
    hskipped openedGroup [.work 1 []] [.later 4 "5" [.say 5 "tick"] true] neverLater _ hk hskips
  have hm : (activateChildren ([.work 1 []] ++ [.later 4 "5" [.say 5 "tick"] true])
        openedGroup).2.isNone = true ∧
      ((activateChildren ([.work 1 []] ++ [.later 4 "5" [.say 5 "tick"] true])
        openedGroup).1.processes.get? 1).map (·.record) = some 1 ∧
      ((activateChildren ([.work 1 []] ++ [.later 4 "5" [.say 5 "tick"] true])
        openedGroup).1.timers.get? 1).map (·.record) = some (some 2) := by
    decide +kernel
  have hn : ((activateChildren ([.work 1 []] ++ neverLater ::
        [.later 4 "5" [.say 5 "tick"] true]) openedGroup).1.processes.get? 1).map (·.record) =
        some 1 ∧
      ((activateChildren ([.work 1 []] ++ neverLater ::
        [.later 4 "5" [.say 5 "tick"] true]) openedGroup).1.timers.get? 1).map (·.record) =
        some (some 3) := by
    decide +kernel
  rw [hwithout] at hm
  rw [hwith] at hn
  obtain ⟨hnone, hprocess, htimer⟩ := hm
  obtain rfl : outcome = none := Option.isNone_iff_eq_none.mp hnone
  exact ⟨hadmits, hopens, m, _, hskips, hwithout, hwith, hprocess, hn.1, htimer, hn.2⟩

end Launch

end Conductor
