import Conductor.Launch.Run
import Conductor.Proofs.Journal
import Conductor.Proofs.Launch.Siblings

/-!
# How far a failure reaches

Failures stay where they are, but for one kind. A required source that fails among the children
of a group, a source or a computed deed ends that list: the actions behind it are passed over and
the parent fails with it. In a body nothing that fails keeps the actions behind it from being
activated.
-/

namespace Conductor

/-- The record of an action that is passed over. -/
def Record.passedOver (seq : Nat) (a : Action) : Record where
  seq := seq
  action := a.id
  kind := a.kind
  label := a.label
  stage := .skipped
  history := [.pending, .skipped]
  note := some "enclosing group failed"

namespace Journal

theorem skip_eq (j : Journal) (a : Action) :
    j.skip a "enclosing group failed" = ⟨j.records.push (.passedOver j.size a)⟩ := by
  simp only [skip, enter, advance, note, modify_push]
  rfl

theorem foldl_skip (as : List Action) (j : Journal) :
    as.foldl (fun j a => j.skip a "enclosing group failed") j =
      ⟨j.records ++ (as.mapIdx fun i a => Record.passedOver (j.size + i) a)⟩ := by
  induction as generalizing j with
  | nil => simp
  | cons a rest ih =>
      have hsize : (⟨j.records.push (.passedOver j.size a)⟩ : Journal).size = j.size + 1 :=
        Array.size_push _
      rw [List.foldl_cons, skip_eq, ih, hsize, List.mapIdx_cons]
      simp [Nat.add_assoc, Nat.add_comm 1]

end Journal

namespace Launch

variable {l m k : Launch} {a : Action}

/-- The launch with a record for each action that is passed over. -/
def passOver (l : Launch) (as : List Action) : Launch :=
  { l with
    journal :=
      ⟨l.journal.records ++ (as.mapIdx fun i a => Record.passedOver (l.journal.size + i) a)⟩ }

theorem skipAll_eq (l : Launch) (as : List Action) :
    l.skipAll as "enclosing group failed" = l.passOver as := by
  unfold skipAll
  rw [Journal.foldl_skip]
  rfl

/-! ## Required sources that fail -/

/-- The action is a required source that fails when it is activated in the launch. -/
def Breaks (l : Launch) (a : Action) (reason : String) : Prop :=
  (∃ source arguments, a.deed = .splice source arguments true) ∧
    ∃ escalates, (activate a l).2 = .failed escalates reason

/-- No required source fails when the actions are activated one after the other. -/
def Unbroken (l : Launch) (as : List Action) : Prop :=
  ∀ pre a post, as = pre ++ a :: post → ∀ reason, ¬ (activateAll pre l).Breaks a reason

theorem escalates_eq_true_iff {d : Deed} :
    d.escalates = true ↔ ∃ source arguments, d = .splice source arguments true := by
  cases d <;> simp [Deed.escalates]

/-- Whether a failure escalates is the deed's to say. -/
theorem eq_escalates_of_failed {escalates : Bool} {reason : String}
    (h : (activate a l).2 = .failed escalates reason) : escalates = a.deed.escalates := by
  rw [activate_eq] at h
  cases hgate : (l.enter a).2.gate l.journal.size a with
  | mk m refused =>
      rw [hgate] at h
      cases refused with
      | some outcome =>
          obtain rfl : outcome = .failed escalates reason := h
          unfold gate at hgate
          grind [fail]
      | none =>
          dsimp only at h
          cases hperformed : perform l.journal.size a a.deed m with
          | mk n r =>
              rw [hperformed] at h
              match r with
              | .ok .done => cases h
              | .ok .running => cases h
              | .error e =>
                  cases h
                  rfl

theorem breaks_iff {reason : String} :
    l.Breaks a reason ↔ (activate a l).2 = .failed true reason := by
  constructor
  · rintro ⟨hsplice, escalates, h⟩
    rw [h, eq_escalates_of_failed h, escalates_eq_true_iff.mpr hsplice]
  · intro h
    exact ⟨escalates_eq_true_iff.mp (eq_escalates_of_failed h).symm, true, h⟩

theorem escalates_eq_false_iff :
    (activate a l).2.escalates = false ↔ ∀ reason, ¬ l.Breaks a reason := by
  constructor
  · intro h reason hbreaks
    rw [breaks_iff.mp hbreaks] at h
    cases h
  · intro h
    cases hesc : (activate a l).2.escalates with
    | false => rfl
    | true =>
        obtain ⟨reason, hreason⟩ := exists_reason_of_escalates hesc
        exact absurd (breaks_iff.mpr hreason) (h reason)

theorem unbroken_nil (l : Launch) : l.Unbroken [] := by
  intro pre a post h
  cases pre <;> cases h

theorem unbroken_cons {rest : List Action} :
    l.Unbroken (a :: rest) ↔
      (∀ reason, ¬ l.Breaks a reason) ∧ (activate a l).1.Unbroken rest := by
  constructor
  · intro h
    refine ⟨h [] a rest rfl, fun pre b post hrest => ?_⟩
    exact h (a :: pre) b post (by rw [hrest, List.cons_append])
  · rintro ⟨ha, hrest⟩ pre b post h
    cases pre with
    | nil =>
        cases h
        exact ha
    | cons a' pre =>
        cases h
        exact hrest pre b post rfl

/-- Either no required source fails, or there is a first one that does. -/
theorem unbroken_or_breaks (as : List Action) (l : Launch) :
    l.Unbroken as ∨ ∃ pre a post reason, as = pre ++ a :: post ∧ l.Unbroken pre ∧
      (activateAll pre l).Breaks a reason := by
  induction as generalizing l with
  | nil => exact .inl l.unbroken_nil
  | cons a rest ih =>
      by_cases ha : ∃ reason, l.Breaks a reason
      · obtain ⟨reason, hreason⟩ := ha
        exact .inr ⟨[], a, rest, reason, rfl, l.unbroken_nil, hreason⟩
      · have ha := not_exists.mp ha
        rcases ih (activate a l).1 with h | ⟨pre, b, post, reason, rfl, hpre, hb⟩
        · exact .inl (unbroken_cons.mpr ⟨ha, h⟩)
        · exact .inr ⟨a :: pre, b, post, reason, rfl, unbroken_cons.mpr ⟨ha, hpre⟩, hb⟩

/-! ## Lists of children -/

theorem activateChildren_of_unbroken {as : List Action} (h : l.Unbroken as) :
    activateChildren as l = (activateAll as l, none) := by
  induction as generalizing l with
  | nil => exact activateChildren_nil l
  | cons a rest ih =>
      obtain ⟨ha, hrest⟩ := unbroken_cons.mp h
      rw [activateChildren_of_not_escalates (escalates_eq_false_iff.mpr ha), ih hrest]
      rfl

theorem activateChildren_of_breaks {pre : List Action} {reason : String} (hpre : l.Unbroken pre)
    (ha : (activateAll pre l).Breaks a reason) (post : List Action) :
    activateChildren (pre ++ a :: post) l =
      ((activateAll (pre ++ [a]) l).passOver post, some (.childFailed a.label reason)) := by
  induction pre generalizing l with
  | nil =>
      have ha : (activate a l).2 = .failed true reason := breaks_iff.mp ha
      rw [List.nil_append, activateChildren_of_escalates ha, skipAll_eq]
      rfl
  | cons b pre ih =>
      obtain ⟨hb, hrest⟩ := unbroken_cons.mp hpre
      rw [List.cons_append, activateChildren_of_not_escalates (escalates_eq_false_iff.mpr hb),
        ih hrest ha]
      rfl

/-- What a launch comes to once the children of a deed performed in it have been activated: a
scope of their own is left and the group is ended. -/
def closed (m : Launch) (d : Deed) (n : Launch) (failure : Option LaunchError) : Launch :=
  match d.plan m.context with
  | .inside _ _ => { n with context := n.context.restore m.context.depth }.endGroup failure
  | _ => n

theorem isLeaf_eq_false_of_opens {d : Deed} {children : List Action}
    (h : m.opens d = some (children, k)) : d.isLeaf = false := by
  cases d with
  | group | splice | compute => rfl
  | _ => cases h

/-- A deed that comes to have children does nothing but activate them. -/
theorem perform_of_opens {d : Deed} {children : List Action} (h : m.opens d = some (children, k))
    (seq : Nat) (a : Action) :
    perform seq a d m =
      ofChildren (m.closed d (activateChildren children k).1 (activateChildren children k).2,
        (activateChildren children k).2) := by
  rw [perform_eq, if_neg (by rw [isLeaf_eq_false_of_opens h]; exact Bool.false_ne_true)]
  unfold opens at h
  unfold closed
  cases hplan : d.plan m.context with
  | direct =>
      rw [hplan] at h
      cases h
  | refused e =>
      rw [hplan] at h
      cases h
  | here own =>
      rw [hplan] at h
      cases h
      rfl
  | inside scope own =>
      rw [hplan] at h
      cases h
      rw [follow, asGroup_eq, context_asked]

theorem activate_of_opens {children : List Action} (ha : l.Admits a m)
    (h : m.opens a.deed = some (children, k)) :
    activate a l =
      leave l.journal.size (settle l.journal.size a.deed
        (ofChildren (m.closed a.deed (activateChildren children k).1
          (activateChildren children k).2, (activateChildren children k).2))) := by
  rw [activate_of_admits ha, perform_of_opens h]

/-- **How far a failure reaches.** When no required source among the children of a deed fails,
all children are activated and the parent completes. Otherwise those up to the first one that
fails are, the others leave nothing but a record each, and the parent fails with the error that
names it. No other action stops its siblings. In a body every action is activated. -/
theorem failures_contained :
    (∀ (a : Action) (l m k : Launch) (children : List Action),
      l.Admits a m → m.opens a.deed = some (children, k) →
        (k.Unbroken children →
          activate a l =
            leave l.journal.size
              ((m.closed a.deed (activateAll children k) none).advance l.journal.size .completed,
                .completed)) ∧
        ∀ pre b post reason, children = pre ++ b :: post → k.Unbroken pre →
          (activateAll pre k).Breaks b reason →
            activate a l =
              leave l.journal.size
                ((m.closed a.deed ((activateAll (pre ++ [b]) k).passOver post)
                  (some (.childFailed b.label reason))).fail l.journal.size a.deed
                    (.childFailed b.label reason))) ∧
    (∀ (l : Launch) (as : List Action),
      l.Unbroken as ∨ ∃ pre a post reason, as = pre ++ a :: post ∧ l.Unbroken pre ∧
        (activateAll pre l).Breaks a reason) ∧
    (∀ (a : Action) (l : Launch) (rest : List Action),
      (¬ ∃ source arguments, a.deed = .splice source arguments true) →
        activateChildren (a :: rest) l = activateChildren rest (activate a l).1) ∧
    (∀ (as : List Action) (l : Launch), l.Activates as (activateAll as l)) ∧
    (∀ (config : Config) (host : Host) (args : LaunchArguments) (description : List Action),
      (start config host args).Activates description (begin config host args description)) ∧
    ∀ (cause : BodyCause) (as : List Action) (scope : Option Scope) (l : Launch),
      (l.happen (.began cause as scope)).Activates as (activateBody cause as scope l) := by
  refine ⟨?_, fun l as => unbroken_or_breaks as l, ?_, activateAll_activates, ?_,
    activateBody_activates⟩
  · intro a l m k children ha hopens
    rw [activate_of_opens ha hopens]
    constructor
    · intro hunbroken
      rw [activateChildren_of_unbroken hunbroken]
      rfl
    · rintro pre b post reason rfl hpre hb
      rw [activateChildren_of_breaks hpre hb]
      rfl
  · intro a l rest hother
    refine activateChildren_of_not_escalates (escalates_eq_false_iff.mpr ?_) rest
    exact fun reason hbreaks => hother hbreaks.1
  · intro config host args description
    exact activateAll_activates description _

/-- An action that includes the file of a path, which holds no actions. -/
def fetch (bits : BitVec 128) (path : String) (required : Bool) : Action :=
  .mk ⟨bits⟩ none (.splice (.file path fun _ => .actions []) [] required)

/-- A group of three files, of which the last two are required. -/
def threeFiles : Action :=
  .mk ⟨1⟩ none (.group [] [fetch 2 "a" false, fetch 3 "b" true, fetch 4 "c" true])

/-- None of the files is there: the first stops nothing, the group fails with the second, and the
third is passed over. -/
theorem missing_file_ends_group :
    ∃ m k reason, (start .standard .bare []).Admits threeFiles m ∧
      m.opens threeFiles.deed = some ([fetch 2 "a" false, fetch 3 "b" true, fetch 4 "c" true], k) ∧
      k.Unbroken [fetch 2 "a" false] ∧
      (activateAll [fetch 2 "a" false] k).Breaks (fetch 3 "b" true) reason ∧
      activate threeFiles (start .standard .bare []) =
        leave 0
          ((m.closed threeFiles.deed
            ((activateAll [fetch 2 "a" false, fetch 3 "b" true] k).passOver [fetch 4 "c" true])
            (some (.childFailed "include b" reason))).fail 0 threeFiles.deed
              (.childFailed "include b" reason)) := by
  have hunbroken (k : Launch) : k.Unbroken [fetch 2 "a" false] := by
    refine unbroken_cons.mpr ⟨fun reason hbreaks => ?_, unbroken_nil _⟩
    obtain ⟨⟨source, arguments, h⟩, -⟩ := hbreaks
    cases h
  refine ⟨_, _, _, rfl, rfl, hunbroken _, ⟨⟨_, _, rfl⟩, true, rfl⟩, ?_⟩
  have hcontained := failures_contained.1 threeFiles (start .standard .bare []) _ _ _ rfl rfl
  exact hcontained.2 [fetch 2 "a" false] (fetch 3 "b" true) [fetch 4 "c" true] _ rfl
    (hunbroken _) ⟨⟨_, _, rfl⟩, true, rfl⟩

end Launch

end Conductor
