import Mathlib.Data.List.Basic
import Conductor.Proofs.Launch.Completion
import Conductor.Proofs.Launch.Telling

/-!
# The events and the lines of every process

The events about one process share the queue with those of all others, of timers and of actions,
but they come out in the order in which they were put in, so those that were dispatched and those
that wait make up what the tale of the process holds. The lines kept for the report are on the
handle until it is released, and the report is made of the handles that were. When no process is
left alive at the end of a run, all of them have been released.
-/

namespace Conductor

/-- The event that was passed to handlers. -/
def Occurrence.dispatched? : Occurrence → Option Event
  | .dispatched e => some e
  | _ => none

/-- What a report is to hold of a process: the lines that it wrote, if they are to be kept and
there are any. -/
def captureOf? (spec : ProcessSpec) (q : ProcessInfo) (ns : List Notice) :
    Option CapturedOutput :=
  if spec.output = .capture ∧ spoken ns ≠ [] then some ⟨q.name, q.pid, spoken ns⟩ else none

/-- What a report holds of a process whose handle was released. -/
def ProcessHandle.capture? (g : ProcessHandle) : Option CapturedOutput :=
  if g.captured.isEmpty then none else some ⟨g.name, g.pid, g.captured⟩

theorem ProcessHandle.capture?_eq {g : ProcessHandle} {spec : ProcessSpec} {q : ProcessInfo}
    {ns : List Notice} (hg : g.Tells q ns) (hname : g.name = q.name)
    (hout : g.output = spec.output) : g.capture? = captureOf? spec q ns := by
  unfold capture? captureOf?
  rw [hg.captured, hname, hg.pid, hout]
  by_cases hmode : spec.output = .capture
  · rw [if_pos hmode]
    cases hlines : spoken ns with
    | nil => simp
    | cons x rest => simp [hmode]
  · rw [if_neg hmode]
    exact (if_neg fun h => hmode h.1).symm

/-! ## What a tale says in the end -/

namespace Tale.Sound

variable {id : ProcessId} {v : Tale}

/-- There is one account of the start of a process, and the events about it are the transcript of
its notices. -/
theorem begun (hv : v.Sound id) {spec : ProcessSpec} (hs : spec ∈ v.specs) :
    v.specs = [spec] ∧ ∃ r w, v.kept = [(r, w)] ∧ r.info.id = id ∧ r.info.name = spec.name ∧
      v.events = transcript r.info v.notices := by
  cases hv with
  | unstarted ns => cases hs
  | speaking spec' r w ns g hr hns ha htells =>
      cases List.mem_singleton.mp hs
      exact ⟨rfl, r, w, rfl, hr.1, hr.2, rfl⟩
  | ended spec' r w ns g hr hns ha htells =>
      cases List.mem_singleton.mp hs
      exact ⟨rfl, r, w, rfl, hr.1, hr.2, rfl⟩
  | released spec' r w ns g hr hns htells =>
      cases List.mem_singleton.mp hs
      exact ⟨rfl, r, w, rfl, hr.1, hr.2, rfl⟩

theorem events_of_specs_eq_nil (hv : v.Sound id) (hs : v.specs = []) : v.events = [] := by
  cases hv with
  | unstarted ns => rfl
  | _ => cases hs

/-- A handle that was released is the only one, and holds the lines of its process. -/
theorem tells_of_mem_released (hv : v.Sound id) {g : ProcessHandle} (hg : g ∈ v.released) :
    ∃ r w, v.kept = [(r, w)] ∧ g.Tells r.info v.notices := by
  cases hv with
  | released spec r w ns g' hr hns htells =>
      cases List.mem_singleton.mp hg
      exact ⟨r, w, rfl, htells⟩
  | _ => cases hg

theorem length_released_le (hv : v.Sound id) : v.released.length ≤ 1 := by
  cases hv with
  | released spec r w ns g hr hns htells => exact Nat.le_refl 1
  | _ => exact Nat.zero_le 1

/-- A process that was started and has no handle has been released. -/
theorem exists_released (hv : v.Sound id) {spec : ProcessSpec} (hs : spec ∈ v.specs)
    (hh : v.handle = none) : ∃ g, g ∈ v.released := by
  cases hv with
  | unstarted ns => cases hs
  | released spec' r w ns g hr hns htells => exact ⟨g, List.mem_singleton.mpr rfl⟩
  | _ => cases hh

end Tale.Sound

namespace Launch

variable {p : Deed → Prop} {l m : Launch} {id : ProcessId} {config : Config} {host : Host}
  {args : LaunchArguments}

/-- The events about a process that were passed to handlers, oldest first. -/
def dispatchesOf (l : Launch) (id : ProcessId) : List Event :=
  (l.occurrences.filterMap (·.dispatched?)).filter (·.isAbout id)

/-- The events about a process that wait, oldest first. -/
def waitingOf (l : Launch) (id : ProcessId) : List Event :=
  l.context.pending.filter (·.isAbout id)

theorem dispatchesOf_append {os : List Occurrence} (hos : m.history = os ++ l.history)
    (id : ProcessId) :
    m.dispatchesOf id =
      l.dispatchesOf id ++ (os.reverse.filterMap (·.dispatched?)).filter (·.isAbout id) := by
  unfold dispatchesOf
  rw [filterMap_occurrences_append _ hos, List.filter_append]

/-- **The events about a process that were dispatched and those that wait are those that were
queued.** -/
theorem emissions_eq_dispatchesOf (h : Moves p (start config host args) l) (id : ProcessId) :
    l.emissions.filter (·.isAbout id) = l.dispatchesOf id ++ l.waitingOf id := by
  have hquiet := start_context config host args
  induction h with
  | refl =>
      unfold waitingOf
      rw [hquiet.pending]
      rfl
  | @tail l m hbefore hlast ih =>
      rcases queues_of_move hlast with ⟨os, hos, hq, hp⟩ | ⟨e, rest, o, hp, hp', hos, ho⟩
      · have hsame : m.dispatchesOf id = l.dispatchesOf id := by
          refine congrArg (List.filter _) (filterMap_occurrences_of_none hos fun o ho => ?_)
          have htaken := hq o ho
          cases o with
          | dispatched e => cases htaken
          | _ => rfl
        unfold waitingOf
        rw [emissions_append hos, List.filter_append, ih, hsame, hp, List.filter_append,
          List.append_assoc]
        rfl
      · have hone : m.history = [o] ++ l.history := hos
        have hwaiting : l.waitingOf id = [e].filter (·.isAbout id) ++ m.waitingOf id := by
          unfold waitingOf
          rw [hp, hp', ← List.filter_append]
          rfl
        rw [emissions_append hone, List.filter_append, ih, dispatchesOf_append hone, hwaiting]
        rcases ho with ⟨rfl, -⟩ | ⟨rfl, hreq, -⟩
        · simp [Occurrence.emitted?, Occurrence.dispatched?]
        · -- A request for a shutdown that is dropped is about no process.
          have hnot : e.isAbout id = false := by
            cases e with
            | shutdownRequested reason due => rfl
            | _ => cases hreq
          simp [Occurrence.emitted?, Occurrence.dispatched?, hnot]

/-! ## The handles that were released -/

theorem captured_eq (l : Launch) : l.captured = l.releases.filterMap (·.capture?) := by
  unfold captured releases
  rw [List.filterMap_filterMap]
  congr 1
  funext o
  cases o <;> rfl

theorem mem_releases {g : ProcessHandle} : g ∈ l.releases ↔ .released g ∈ l.history := by
  unfold releases
  rw [List.mem_filterMap]
  constructor
  · rintro ⟨o, ho, hreleased⟩
    cases o with
    | released g' =>
        cases hreleased
        exact List.mem_reverse.mp ho
    | _ => cases hreleased
  · intro hg
    exact ⟨.released g, List.mem_reverse.mpr hg, rfl⟩

theorem mem_tale_specs {spec : ProcessSpec} :
    spec ∈ (l.tale id).specs ↔ .started id spec ∈ l.history := by
  show spec ∈ l.history.filterMap (·.specOf? id) ↔ _
  rw [List.mem_filterMap]
  constructor
  · rintro ⟨o, ho, hspec⟩
    cases o with
    | started i spec' =>
        unfold Occurrence.specOf? at hspec
        dsimp only at hspec
        split at hspec
        · rename_i hid
          cases hspec
          rw [← hid]
          exact ho
        · cases hspec
    | _ => cases hspec
  · intro hs
    exact ⟨_, hs, if_pos rfl⟩

/-- No two handles that were released are of one process. -/
theorem nodup_releases (h : Moves Deed.ReportsNoProcess (start config host args) l) :
    (l.releases.map (·.id)).Nodup := by
  apply List.nodup_iff_count.mpr
  intro id
  have hlength := (tale_sound h id).length_released_le
  rw [List.count, List.countP_map, List.countP_eq_length_filter]
  exact hlength

/-- The handle of a process that has ended is released before the next message. -/
theorem exists_released_of_seen (h : Moves Deed.ReportsNoProcess (start config host args) l)
    (hc : l.context.current = none) (hp : l.context.pending = []) {spec : ProcessSpec}
    (hs : .started id spec ∈ l.history) (hseen : l.endSeen id = true) :
    ∃ g, .released g ∈ l.history ∧ g.id = id := by
  have hstarted : l.hasStarted id = true := List.any_eq_true.mpr ⟨_, hs, decide_eq_true rfl⟩
  have hnone : l.supervisor.find? id = none := by
    cases hfind : l.supervisor.find? id with
    | none => rfl
    | some g =>
        have hquiet := endsInFlight_eq_nil hc hp id
        have halive := ((life_tidy h id).entry_of_handle (life_sound h id) hquiet hfind).1
        have hunseen : l.endSeen id = false :=
          ((life_sound h id).alive hstarted).mpr ⟨g, hfind, halive⟩
        cases hseen.symm.trans hunseen
  obtain ⟨g, hg⟩ := (tale_sound h id).exists_released (mem_tale_specs.mpr hs) hnone
  obtain ⟨hmem, hid⟩ := List.mem_filter.mp hg
  exact ⟨g, mem_releases.mp hmem, of_decide_eq_true hid⟩

/-- A process is known as `q` that was started as the specification says. -/
def Started (l : Launch) (spec : ProcessSpec) (q : ProcessInfo) : Prop :=
  .started q.id spec ∈ l.history ∧ ∃ r w, .kept r w ∈ l.history ∧ r.info = q

/-- What was kept of a process that was started tells how it is known. -/
theorem started_of_mem (h : Moves Deed.ReportsNoProcess (start config host args) l)
    {spec : ProcessSpec} (hs : .started id spec ∈ l.history) :
    ∃ q, l.Started spec q ∧ q.id = id ∧ q.name = spec.name ∧
      (l.tale id).events = transcript q (l.noticesOf id) := by
  obtain ⟨-, r, w, hkept, hid, hname, hevents⟩ :=
    (tale_sound h id).begun (mem_tale_specs.mpr hs)
  subst hid
  have hmem : (r, w) ∈ (l.life r.info.id).kept := by
    show (r, w) ∈ (l.tale r.info.id).kept
    rw [hkept]
    exact List.mem_singleton.mpr rfl
  exact ⟨r.info, ⟨hs, r, w, mem_life_kept.mp hmem, rfl⟩, rfl, hname, hevents⟩

/-- No process is started twice, or known in two ways. -/
theorem Started.unique (h : Moves Deed.ReportsNoProcess (start config host args) l)
    {spec spec' : ProcessSpec} {q q' : ProcessInfo} (hq : l.Started spec q)
    (hq' : l.Started spec' q') (hid : q.id = q'.id) : (spec, q) = (spec', q') := by
  obtain ⟨hs, r, w, hr, rfl⟩ := hq
  obtain ⟨hs', r', w', hr', rfl⟩ := hq'
  obtain ⟨hspecs, r₀, w₀, hkept, -⟩ := (tale_sound h r.info.id).begun (mem_tale_specs.mpr hs)
  have hspec := mem_tale_specs.mpr (hid ▸ hs')
  have hfirst : (r, w) ∈ (l.tale r.info.id).kept := mem_life_kept.mpr hr
  have hsecond : (r', w') ∈ (l.tale r.info.id).kept := by
    rw [hid]
    exact mem_life_kept.mpr hr'
  rw [hspecs, List.mem_singleton] at hspec
  rw [hkept, List.mem_singleton] at hfirst hsecond
  cases hfirst
  cases hsecond
  rw [hspec]

/-- What a handle that was released says is what its process was asked for and what it wrote. -/
theorem capture?_of_released (h : Moves Deed.ReportsNoProcess (start config host args) l)
    (hnamed : l.Named) {g : ProcessHandle} (hg : .released g ∈ l.history) :
    ∃ spec q, l.Started spec q ∧ q.id = g.id ∧
      g.capture? = captureOf? spec q (l.noticesOf g.id) := by
  have hmem : g ∈ (l.tale g.id).released :=
    List.mem_filter.mpr ⟨mem_releases.mpr hg, decide_eq_true rfl⟩
  obtain ⟨spec, hs, hname, hout⟩ := hnamed.released g hg
  obtain ⟨r, w, hkept, htells⟩ := (tale_sound h g.id).tells_of_mem_released hmem
  obtain ⟨q, hq, hid, hname', -⟩ := started_of_mem h hs
  obtain ⟨r', w', hr', hinfo⟩ := hq.2
  -- What was kept of the process is what its tale knows of it.
  have hsame : (r', w') ∈ (l.tale g.id).kept := by
    rw [← hid, ← hinfo]
    exact mem_life_kept.mpr hr'
  rw [hkept, List.mem_singleton] at hsame
  cases hsame
  rw [hinfo] at htells
  exact ⟨spec, q, hq, hid, ProcessHandle.capture?_eq htells (hname.trans hname'.symm) hout⟩

end Launch

section Runs

variable {config : Config} {host : Host} {args : LaunchArguments} {description : List Action}
  {s : Standing} {l : Launch}

/-- The report of a run that was not forced holds the lines of all processes that were to be kept,
process by process. -/
theorem captured_of_not_forced (hall : ∀ a ∈ description, a.Every Deed.ReportsNoProcess)
    (h : Reachable config host args description (.ended l))
    (hforced : l.finish.forced = false) :
    ∃ order : List (ProcessSpec × ProcessInfo), (order.map (·.2.id)).Nodup ∧
      (∀ spec q, (spec, q) ∈ order ↔ l.Started spec q) ∧
      l.finish.captured = order.filterMap fun x => captureOf? x.1 x.2 (l.noticesOf x.2.id) := by
  obtain ⟨hstrides, hc⟩ := h.strides hall
  have hmoves : Moves Deed.ReportsNoProcess (.start config host args) l := Strides.moves hstrides
  have hnamed := Launch.named_of_strides hstrides
  -- Every handle that was released stands for one process.
  have hone : ∀ g, ∃ x : ProcessSpec × ProcessInfo, g ∈ l.releases →
      l.Started x.1 x.2 ∧ x.2.id = g.id ∧
        g.capture? = captureOf? x.1 x.2 (l.noticesOf g.id) := by
    intro g
    by_cases hg : g ∈ l.releases
    · obtain ⟨spec, q, hq⟩ :=
        Launch.capture?_of_released hmoves hnamed (Launch.mem_releases.mp hg)
      exact ⟨(spec, q), fun _ => hq⟩
    · exact ⟨(⟨"", "", [], none, none, [], [], .log⟩, default), fun hg' => absurd hg' hg⟩
  obtain ⟨f, hf⟩ := Classical.skolem.mp hone
  refine ⟨l.releases.map f, ?_, ?_, ?_⟩
  · rw [List.map_map]
    have hids : l.releases.map ((·.2.id) ∘ f) = l.releases.map (·.id) :=
      List.map_congr_left fun g hg => (hf g hg).2.1
    rw [hids]
    exact Launch.nodup_releases hmoves
  · intro spec q
    constructor
    · intro hmem
      obtain ⟨g, hg, heq⟩ := List.mem_map.mp hmem
      have hstarted := (hf g hg).1
      rw [heq] at hstarted
      exact hstarted
    · intro hq
      have hstarted : l.hasStarted q.id = true :=
        List.any_eq_true.mpr ⟨_, hq.1, decide_eq_true rfl⟩
      have hseen := h.endSeen_of_not_forced hforced hstarted
      obtain ⟨g, hg, hid⟩ :=
        Launch.exists_released_of_seen hmoves hc h.pending_of_ended hq.1 hseen
      have hmem := Launch.mem_releases.mpr hg
      obtain ⟨hstarted, hid', -⟩ := hf g hmem
      exact List.mem_map.mpr ⟨g, hmem, hstarted.unique hmoves hq (hid'.trans hid)⟩
  · rw [Launch.captured_finish, Launch.captured_eq, List.filterMap_map]
    apply List.filterMap_congr
    intro g hg
    obtain ⟨-, hid, hcapture⟩ := hf g hg
    rw [hcapture, ← hid]
    rfl

/-- **Every process is told of in order, and its lines are kept.** When no action emits events
about processes, the events about a process that was started are dispatched in this order: its
start, one event for each line of output that was handled since, as the lines came, and at last its
end, if that was handled; there are no others, and those that were not dispatched yet wait. No
event about a process is dispatched that was never started. When a run has ended, none waits any
more, and if it was not forced, the report holds for each process that was to be captured the lines
that it wrote, as they came, in one entry, or none if there are no lines; and it holds nothing
else. -/
theorem processes_told_in_order (hall : ∀ a ∈ description, a.Every Deed.ReportsNoProcess)
    (h : Reachable config host args description s) :
    (∀ id spec, .started id spec ∈ s.launch.history →
      ∃ q, s.launch.Started spec q ∧ q.id = id ∧ q.name = spec.name ∧
        s.launch.dispatchesOf id ++ s.launch.waitingOf id =
          transcript q (s.launch.noticesOf id)) ∧
      (∀ id, (∀ spec, .started id spec ∉ s.launch.history) → s.launch.dispatchesOf id = []) ∧
      ∀ l, s = .ended l → l.context.pending = [] ∧
        (l.finish.forced = false →
          ∃ order : List (ProcessSpec × ProcessInfo), (order.map (·.2.id)).Nodup ∧
            (∀ spec q, (spec, q) ∈ order ↔ l.Started spec q) ∧
            l.finish.captured =
              order.filterMap fun x => captureOf? x.1 x.2 (l.noticesOf x.2.id)) := by
  have hmoves := (h.moves hall).1
  have hsplit := fun id => Launch.emissions_eq_dispatchesOf hmoves id
  refine ⟨?_, ?_, ?_⟩
  · intro id spec hs
    obtain ⟨q, hq, hid, hname, hevents⟩ := Launch.started_of_mem hmoves hs
    exact ⟨q, hq, hid, hname, (hsplit id).symm.trans hevents⟩
  · intro id hnone
    have hspecs : (s.launch.tale id).specs = [] :=
      List.eq_nil_iff_forall_not_mem.mpr fun spec hs => hnone spec (Launch.mem_tale_specs.mp hs)
    have hevents := (Launch.tale_sound hmoves id).events_of_specs_eq_nil hspecs
    exact (List.append_eq_nil_iff.mp ((hsplit id).symm.trans hevents)).1
  · rintro l rfl
    exact ⟨h.pending_of_ended, captured_of_not_forced hall h⟩

end Runs

/-- An action that starts a process with a mode of output. -/
def Action.talk (bits : BitVec 128) (output : OutputMode) : Action :=
  .mk ⟨bits⟩ none
    (.execute { command := [[.text "talker"]], name := some [.text "t"], output := some output } [])

/-- Whether the run has ended on its own, nothing was told of the first process after its end, and
the report holds the lines of that process alone. -/
def Standing.hasHeardFirst : Standing → Bool
  | .waiting _ => false
  | .ended l =>
      l.hasStarted ⟨1⟩ && !(l.noticesOf ⟨1⟩).dropLast.any (·.isExit) && !l.finish.forced &&
        l.finish.captured == [⟨"t", 101, [(.stdout, "one"), (.stderr, "two")]⟩]

/-- Two processes that talk at once, of which one is listened to. -/
theorem first_talker_captured :
    ∃ l q, ∃ order : List (ProcessSpec × ProcessInfo),
      Reachable .standard .willing [] [.talk 1 .capture, .talk 2 .screen] (.ended l) ∧
      q.id = ⟨1⟩ ∧
      l.dispatchesOf ⟨1⟩ = .processStarted q :: (l.noticesOf ⟨1⟩).map (·.event q) ∧
      (order.map (·.2.id)).Nodup ∧
      order.filterMap (fun x => captureOf? x.1 x.2 (l.noticesOf x.2.id)) =
        [⟨"t", 101, [(.stdout, "one"), (.stderr, "two")]⟩] := by
  have hall : ∀ a ∈ [Action.talk 1 .capture, .talk 2 .screen],
      a.Every Deed.ReportsNoProcess := by
    simp [Action.talk, Action.Every, Deed.Every, everyDeed, Deed.ReportsNoProcess]
  have hrun : Reachable.comesTo Standing.hasHeardFirst ((Launch.begin .standard .willing []
      [.talk 1 .capture, .talk 2 .screen]).run 20
      [⟨.zero, .willing, .notice (.output ⟨1⟩ .stdout "one")⟩,
        ⟨.zero, .willing, .notice (.output ⟨2⟩ .stdout "aside")⟩,
        ⟨.zero, .willing, .notice (.output ⟨1⟩ .stderr "two")⟩,
        ⟨.zero, .willing, .notice (.exited ⟨2⟩ ⟨some 0, none⟩ none)⟩,
        ⟨.zero, .willing, .notice (.exited ⟨1⟩ ⟨some 0, none⟩ none)⟩]) = true := by
    decide +kernel
  obtain ⟨s, hs, hcheck⟩ := Reachable.exists_of_comesTo 20 _ hrun
  cases s with
  | waiting l => cases hcheck
  | ended l =>
      simp only [Standing.hasHeardFirst, Bool.and_eq_true, Bool.not_eq_true', beq_iff_eq]
        at hcheck
      obtain ⟨⟨⟨hstarted, horderly⟩, hforced⟩, hcaptured⟩ := hcheck
      obtain ⟨htold, -, hended⟩ := processes_told_in_order hall hs
      obtain ⟨hpending, hreport⟩ := hended l rfl
      obtain ⟨order, hnodup, -, horder⟩ := hreport hforced
      obtain ⟨o, ho, hstarts⟩ := List.any_eq_true.mp hstarted
      cases o with
      | started id spec =>
          obtain rfl : id = ⟨1⟩ := of_decide_eq_true hstarts
          obtain ⟨q, -, hid, -, hevents⟩ := htold _ spec ho
          have hnone : l.waitingOf ⟨1⟩ = [] := by
            unfold Launch.waitingOf
            rw [hpending]
            rfl
          change l.dispatchesOf ⟨1⟩ ++ l.waitingOf ⟨1⟩ = transcript q (l.noticesOf ⟨1⟩) at hevents
          rw [hnone, List.append_nil, transcript_of_orderly horderly] at hevents
          exact ⟨l, q, order, hs, hid, hevents, hnodup, horder.symm.trans hcaptured⟩
      | _ => cases hstarts

end Conductor
