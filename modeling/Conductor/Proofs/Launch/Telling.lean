import Conductor.Proofs.Launch.Bookkeeping
import Conductor.Proofs.Launch.Handles
import Conductor.Proofs.Launch.Queue
import Conductor.Proofs.Launch.Tale

/-!
# What a launch tells of its processes

The tale of a process is read off the history and the handles of a launch (`Launch.tale`). Every
move is a few steps in the tale of each process (`Move.tale`), as long as no deed emits events
about processes. Between two messages a handle is that of a living process (`Life.Tidy`), so every
notice finds the process still speaking, or is not listened to.
-/

namespace Conductor

namespace Occurrence

/-- What was asked for when the process was started. -/
def specOf? (id : ProcessId) : Occurrence → Option ProcessSpec
  | .started i spec => if i = id then some spec else none
  | _ => none

/-- The notice about the process that was handled. -/
def noticeOf? (id : ProcessId) : Occurrence → Option Notice
  | .received (.notice n) => if n.process = id then some n else none
  | _ => none

/-- Whether the process has a part in what happened. -/
def concerns (id : ProcessId) : Occurrence → Bool
  | .received (.notice n) => n.process = id
  | .started i _ => i = id
  | .kept r _ => r.info.id = id
  | .emitted e => e.isAbout id
  | .released g => g.id = id
  | _ => false

end Occurrence

namespace Launch

/-- The notices about a process that were handled since its start, oldest first. -/
def noticesOf (l : Launch) (id : ProcessId) : List Notice :=
  ((l.since id).filterMap (·.noticeOf? id)).reverse

/-- The handles that were given up, in the order in which they were. -/
def releases (l : Launch) : List ProcessHandle :=
  l.occurrences.filterMap (·.released?)

end Launch

/-- The tale of a process as a launch knows it. -/
def Launch.tale (l : Launch) (id : ProcessId) : Tale where
  specs := l.history.filterMap (·.specOf? id)
  kept := l.history.filterMap (·.keptOf? id)
  notices := l.noticesOf id
  events := l.emissions.filter (·.isAbout id)
  handle := l.supervisor.find? id
  released := l.releases.filter (·.id = id)

/-! ## What moves add to a tale -/

variable {p : Deed → Prop} {l m : Launch} {id : ProcessId}

/-- What happened is no part of the tale of the process. -/
structure Occurrence.Foreign (id : ProcessId) (o : Occurrence) : Prop where
  starts : o.starts id = false
  spec : o.specOf? id = none
  kept : o.keptOf? id = none
  notice : o.noticeOf? id = none
  event : ∀ e, o.emitted? = some e → e.isAbout id = false
  released : ∀ g, o.released? = some g → decide (g.id = id) = false

theorem Occurrence.foreign_of_not_concerns {o : Occurrence} (h : o.concerns id = false) :
    o.Foreign id := by
  have hnever : ∀ {β : Type} {q : β → Prop} (b : β), none = some b → q b :=
    fun b hb => absurd hb (Option.some_ne_none b).symm
  cases o with
  | received message =>
      cases message with
      | notice n => exact ⟨rfl, rfl, rfl, if_neg (of_decide_eq_false h), hnever, hnever⟩
      | _ => exact ⟨rfl, rfl, rfl, rfl, hnever, hnever⟩
  | started i spec => exact ⟨h, if_neg (of_decide_eq_false h), rfl, rfl, hnever, hnever⟩
  | kept r w => exact ⟨rfl, rfl, if_neg (of_decide_eq_false h), rfl, hnever, hnever⟩
  | emitted e =>
      refine ⟨rfl, rfl, rfl, rfl, ?_, hnever⟩
      rintro _ ⟨⟩
      exact h
  | released g =>
      refine ⟨rfl, rfl, rfl, rfl, hnever, ?_⟩
      rintro _ ⟨⟩
      exact h
  | _ => exact ⟨rfl, rfl, rfl, rfl, hnever, hnever⟩

namespace Launch

theorem since_append {os : List Occurrence} (hos : m.history = os ++ l.history)
    (h : ∀ o ∈ os, o.starts id = false) : m.since id = os ++ l.since id := by
  unfold since
  rw [hos, List.takeWhile_append_of_pos]
  intro o ho
  rw [h o ho]
  rfl

theorem releases_append {os : List Occurrence} (hos : m.history = os ++ l.history) :
    m.releases = l.releases ++ os.reverse.filterMap (·.released?) :=
  filterMap_occurrences_append _ hos

/-- The tale of a process goes on only when something happens that concerns it. -/
theorem tale_of_quiet (os : List Occurrence) (hos : m.history = os ++ l.history)
    (hq : ∀ o ∈ os, o.concerns id = false)
    (hs : m.supervisor.find? id = l.supervisor.find? id) : m.tale id = l.tale id := by
  have hnone := fun o ho => Occurrence.foreign_of_not_concerns (hq o ho)
  have hmap : ∀ {β : Type} (f : Occurrence → Option β), (∀ o ∈ os, f o = none) →
      m.history.filterMap f = l.history.filterMap f := by
    intro β f hf
    rw [hos, List.filterMap_append, List.filterMap_eq_nil_iff.mpr hf, List.nil_append]
  refine Tale.ext ?_ ?_ ?_ ?_ hs ?_
  · exact hmap _ fun o ho => (hnone o ho).spec
  · exact hmap _ fun o ho => (hnone o ho).kept
  · have hnotices := List.filterMap_eq_nil_iff.mpr fun o ho => (hnone o ho).notice
    show ((m.since id).filterMap (·.noticeOf? id)).reverse = l.noticesOf id
    rw [since_append hos fun o ho => (hnone o ho).starts, List.filterMap_append, hnotices,
      List.nil_append]
    rfl
  · show m.emissions.filter (·.isAbout id) = l.emissions.filter (·.isAbout id)
    have hevents : (os.reverse.filterMap (·.emitted?)).filter (·.isAbout id) = [] := by
      apply List.filter_eq_nil_iff.mpr
      intro e he
      obtain ⟨o, ho, hemitted⟩ := List.mem_filterMap.mp he
      rw [(hnone o (List.mem_reverse.mp ho)).event e hemitted]
      exact Bool.false_ne_true
    rw [emissions_append hos, List.filter_append, hevents, List.append_nil]
  · show m.releases.filter (·.id = id) = l.releases.filter (·.id = id)
    have hreleases : (os.reverse.filterMap (·.released?)).filter (·.id = id) = [] := by
      apply List.filter_eq_nil_iff.mpr
      intro g hg
      obtain ⟨o, ho, hreleased⟩ := List.mem_filterMap.mp hg
      rw [(hnone o (List.mem_reverse.mp ho)).released g hreleased]
      exact Bool.false_ne_true
    rw [releases_append hos, List.filter_append, hreleases, List.append_nil]

theorem tale_of_same (hh : m.history = l.history) (hs : m.supervisor = l.supervisor)
    (id : ProcessId) : m.tale id = l.tale id :=
  tale_of_quiet [] hh (by simp) (by rw [hs])

theorem tale_of_cons {o : Occurrence} (hh : m.history = o :: l.history)
    (ho : o.concerns id = false) (hs : m.supervisor = l.supervisor) : m.tale id = l.tale id := by
  refine tale_of_quiet [o] hh ?_ (by rw [hs])
  intro o' ho'
  rw [List.mem_singleton.mp ho']
  exact ho

/-- An event that is queued matters to the process that it is about. -/
theorem tale_emit (l : Launch) (e : Event) (id : ProcessId) :
    (l.emit e).tale id =
      if e.isAbout id then { l.tale id with events := (l.tale id).events ++ [e] }
      else l.tale id := by
  have hhistory : (l.emit e).history = [.emitted e] ++ l.history := rfl
  split
  · rename_i he
    refine Tale.ext rfl rfl rfl ?_ rfl ?_
    · show (l.emit e).emissions.filter _ = l.emissions.filter _ ++ [e]
      rw [emissions_append hhistory, List.filter_append]
      show _ ++ [e].filter _ = _
      rw [List.filter_cons_of_pos he, List.filter_nil]
    · show (l.emit e).releases.filter _ = l.releases.filter _
      rw [releases_append hhistory]
      exact congrArg _ (List.append_nil _)
  · rename_i he
    exact tale_of_cons (o := .emitted e) hhistory (Bool.eq_false_iff.mpr he) rfl

theorem tale_emit_of_not {e : Event} (he : e.isAbout id = false) (l : Launch) :
    (l.emit e).tale id = l.tale id := by
  rw [tale_emit, he]
  rfl

/-- A report of an error is none of a process. -/
theorem tale_report (l : Launch) (e : LaunchError) (id : ProcessId) :
    (l.report e).tale id = l.tale id := by
  have hfailed : (l.happen (.failed e.kind e.message)).tale id = l.tale id :=
    tale_of_cons rfl rfl rfl
  rw [← hfailed]
  unfold report onFailure requestShutdown
  split
  · split
    · rfl
    · exact tale_emit_of_not rfl (l.happen (.failed e.kind e.message))
  · rfl

/-- A mark on a handle matters to its process only, and leaves what the handle tells. -/
theorem tale_mark {i : ProcessId} {g : ProcessHandle} (hl : l.supervisor.Keyed)
    (hg : l.supervisor.find? i = some g) (signal : Signal) (sent : Nat) (id : ProcessId) :
    TaleStep id (l.tale id)
      (({ l with
        supervisor := { l.supervisor.update (g.markSent signal) with
          signalsSent := sent } } : Launch).tale id) := by
  have hi : g.id = i := hl i.number g hg
  have hhandle : (l.supervisor.update (g.markSent signal)).find? id =
      if id.number = i.number then some (g.markSent signal) else l.supervisor.find? id := by
    rw [Supervisor.find?_update, g.id_markSent signal, hi]
  show TaleStep id (l.tale id)
    { l.tale id with handle := (l.supervisor.update (g.markSent signal)).find? id }
  rw [hhandle]
  split
  · rename_i heq
    obtain rfl : id = i := ProcessId.ext heq
    refine .mark g _ hg (congrArg Option.isNone (g.status_markSent signal)) fun q ns htells => ?_
    cases signal with
    | terminate => exact ⟨htells.pid, htells.captured⟩
    | kill => exact ⟨htells.pid, htells.captured⟩
  · exact .stay

/-- A start matters to the process that is started only. -/
theorem tale_attend {g : ProcessHandle} (hid : g.id = ⟨l.supervisor.nextId⟩)
    (hg : g.isAlive = true ∧ g.captured = []) (hlife : (l.life id).Sound id) (spec : ProcessSpec)
    (seq : Nat) (a : Action) (onExit : List Action) :
    TaleStep id (l.tale id)
      (((l.withStarted g spec).attend seq a onExit spec.name g).tale id) := by
  obtain ⟨r, -, hinfo, -, -, heq⟩ := (l.withStarted g spec).attend_eq seq a onExit spec.name g
  have hrid : r.info.id = g.id := by rw [hinfo]
  have hhistory : ((l.withStarted g spec).attend seq a onExit spec.name g).history =
      [.kept r (if onExit.isEmpty then none else some l.registry.nextId),
        .emitted (.processStarted r.info), .started g.id spec] ++ l.history := by
    rw [heq]
    rfl
  have hhandle : ((l.withStarted g spec).attend seq a onExit spec.name g).supervisor.find? id =
      if id.number = l.supervisor.nextId then some g else l.supervisor.find? id := by
    rw [heq]
    exact Table.get?_insert _ _ _ _
  generalize (l.withStarted g spec).attend seq a onExit spec.name g = m at hhistory hhandle ⊢
  by_cases hsame : id = g.id
  · subst hsame
    have hfresh : (l.life g.id).fresh = true := by
      rw [hid]
      exact decide_eq_true (Nat.le_refl _)
    have hspecs : (l.tale g.id).specs = [] := by
      apply List.filterMap_eq_nil_iff.mpr
      intro o ho
      have hnot := List.any_eq_false.mp (hlife.fresh hfresh) o ho
      cases o with
      | started i spec => exact if_neg fun heq => hnot (decide_eq_true heq)
      | _ => rfl
    have hstart : TaleStep g.id (l.tale g.id) _ := .start spec r
      (if onExit.isEmpty then none else some l.registry.nextId) g hspecs
      ⟨hrid, by rw [hinfo]⟩ ⟨hg.1, hg.2, by rw [hinfo]⟩
    refine Eq.mp (congrArg _ (Tale.ext ?_ ?_ ?_ ?_ ?_ ?_)) hstart
    · show [spec] = m.history.filterMap (·.specOf? g.id)
      change l.history.filterMap (·.specOf? g.id) = [] at hspecs
      rw [hhistory, List.filterMap_append, hspecs]
      simp [Occurrence.specOf?]
    · show _ :: l.history.filterMap (·.keptOf? g.id) = m.history.filterMap (·.keptOf? g.id)
      rw [hhistory, List.filterMap_append]
      simp [Occurrence.keptOf?, hrid]
    · simp [tale, noticesOf, since, hhistory, Occurrence.starts, Occurrence.noticeOf?]
    · show l.emissions.filter (·.isAbout g.id) ++ [.processStarted r.info] =
        m.emissions.filter (·.isAbout g.id)
      rw [emissions_append hhistory, List.filter_append]
      simp [Occurrence.emitted?, Event.isAbout, Event.process?, hrid]
    · exact (hhandle.trans (if_pos (congrArg ProcessId.number hid))).symm
    · show l.releases.filter (·.id = g.id) = m.releases.filter (·.id = g.id)
      rw [releases_append hhistory, List.filter_append]
      simp [Occurrence.released?]
  · -- Another process has no part under this number.
    have hne : id.number ≠ l.supervisor.nextId := fun hn => hsame (hid ▸ ProcessId.ext hn)
    rw [tale_of_quiet _ hhistory ?_ (hhandle.trans (if_neg hne))]
    · exact .stay
    · simp [Occurrence.concerns, Event.isAbout, Event.process?, hrid, Ne.symm hsame]

end Launch

/-- **An effect is a step in the tale of every process**, as long as no deed emits events about
processes. -/
theorem Effect.tale (h : Effect p l m) (hl : l.supervisor.Keyed) (hlife : (l.life id).Sound id)
    (hp : ∀ e, p (.emit e) → e.isAbout id = false) : TaleStep id (l.tale id) (m.tale id) := by
  have hstay : ∀ {n : Launch}, n.tale id = l.tale id → TaleStep id (l.tale id) (n.tale id) := by
    intro n hn
    rw [hn]
    exact .stay
  have hsame : ∀ {n : Launch}, n.history = l.history → n.supervisor = l.supervisor →
      TaleStep id (l.tale id) (n.tale id) := fun hh hs => hstay (Launch.tale_of_same hh hs id)
  have hcons : ∀ {n : Launch} {o : Occurrence}, o.concerns id = false →
      n.history = o :: l.history → n.supervisor = l.supervisor →
      TaleStep id (l.tale id) (n.tale id) := fun ho hh hs => hstay (Launch.tale_of_cons hh ho hs)
  cases h with
  | emit e he => exact hstay (Launch.tale_emit_of_not (hp e he) l)
  | spawn spec seq a t onExit g hid hg hf hd ha hseq =>
      refine Launch.tale_attend hid ⟨?_, hg.2.2.2⟩ hlife spec seq a onExit
      rw [ProcessHandle.isAlive, hg.1]
      rfl
  | mark i g signal sent hf ha hw => exact Launch.tale_mark hl hf signal sent id
  | enter a => exact hcons (o := .entered _ a) rfl rfl rfl
  | leave seq outcome => exact hcons (o := .left seq outcome) rfl rfl rfl
  | line level text => exact hcons (o := .line level text) rfl rfl rfl
  | interrupt => exact hcons (o := .interrupted) rfl rfl rfl
  | unregister name => exact hcons (o := .unregistered name) rfl rfl rfl
  | request reason due hf =>
      exact hcons (o := .emitted (.shutdownRequested reason due)) rfl rfl rfl
  | fail e hf => exact hcons (o := .failed e.kind e.message) rfl rfl rfl
  | failLate e hpolicy hfatal hf => exact hcons (o := .failed e.kind e.message) rfl rfl rfl
  | failFast e hpolicy hfatal hf =>
      refine hstay (Launch.tale_of_quiet
        [.emitted (.shutdownRequested ("fail-fast: " ++ e.message) false),
          .failed e.kind e.message] rfl ?_ rfl)
      simp [Occurrence.concerns, Event.isAbout, Event.process?]
  | cancelTimer why i t ht => exact hcons (o := .cancelled i) rfl rfl rfl
  | schedule delay as scope record cancel hf has =>
      exact hcons (o := .scheduled l.nextTimer _) rfl rfl rfl
  | signalled i signal => exact hcons (o := .signalled i signal) rfl rfl rfl
  | refuse => exact hstay (Launch.tale_of_quiet [] rfl (by simp) rfl)
  | _ => exact hsame rfl rfl

theorem Effects.tale (h : Effects p l m) (hl : l.Sound p) (hlife : (l.life id).Sound id)
    (hp : ∀ e, p (.emit e) → e.isAbout id = false) : TaleSteps id (l.tale id) (m.tale id) := by
  induction h with
  | refl => exact .refl
  | tail hbefore hlast ih =>
      have hbetween := hlife.steps (Effects.life hbefore hl id)
      exact ih.tail (hlast.tale (hl.effects hbefore).supervisor hbetween hp)

/-! ## Between two messages -/

/-- The handle of a process that has ended stays only as long as its end is in flight. -/
structure Life.Tidy (v : Life) : Prop extends v.Honest where
  handle : ∀ g, v.handle = some g → g.isAlive = false → v.inFlight ≠ []

namespace Life

theorem Tidy.step {v w : Life} (hp : ∀ e, p (.emit e) → e.isEndOf id = false)
    (hs : v.Sound id) (hv : v.Tidy) (h : LifeStep p id v w) : w.Tidy := by
  refine ⟨hv.toHonest.step hp hs h, ?_⟩
  cases h with
  | stay => exact hv.handle
  | refuse hf => exact hv.handle
  | start r k h hf hr hh ha =>
      rintro _ ⟨⟩ hdead
      rw [ha] at hdead
      cases hdead
  | touch h h' hh hst hid =>
      rintro _ ⟨⟩ hdead
      exact hv.handle h hh ((congrArg Option.isNone hst).symm.trans hdead)
  | emit e he hemit => exact fun _ _ _ => List.append_ne_nil_of_right_ne_nil _ (by simp)
  | close e rest hq hn =>
      -- An end in flight has an entry, so it cannot be the turn of one that closes.
      rcases hv.inFlight with hq' | ⟨r, _, hr, -⟩
      · cases hq'.symm.trans hq
      · cases hn.symm.trans hr
  | release e rest r hq hr =>
      intro g hg hdead
      have halive := (Option.filter_eq_some_iff.mp hg).2
      rw [hdead] at halive
      cases halive
  | unknown hh =>
      intro g hg
      cases hh.symm.trans hg
  | unkept h status hh hn =>
      -- The turn of the end came before, so the end had been seen and was over.
      have hstarted := hs.started_of_handle hh
      have hseen := hv.settled hstarted ((hs.settled hstarted).mp hn)
      cases ha : h.isAlive with
      | true =>
          have hunseen := (hs.alive hstarted).mpr ⟨h, hh, ha⟩
          cases hseen.symm.trans hunseen
      | false =>
          rcases hv.inFlight with hq | ⟨r, _, hr, -⟩
          · exact absurd hq (hv.handle h hh ha)
          · cases hn.symm.trans hr
  | exit h r status hh hr hq => exact fun _ _ _ => List.cons_ne_nil _ _

theorem Tidy.steps {v w : Life} (hp : ∀ e, p (.emit e) → e.isEndOf id = false)
    (hs : v.Sound id) (hv : v.Tidy) (h : LifeSteps p id v w) : w.Tidy := by
  induction h with
  | refl => exact hv
  | tail hbefore hlast ih => exact ih.step hp (hs.steps hbefore) hlast

/-- When nothing is in flight, a process with a handle is alive and has its entry. -/
theorem Tidy.entry_of_handle {v : Life} (hv : v.Tidy) (hs : v.Sound id) (hq : v.inFlight = [])
    {g : ProcessHandle} (hg : v.handle = some g) :
    g.isAlive = true ∧ ∃ r w, v.entry = some r ∧ (r, w) ∈ v.kept := by
  have hstarted := hs.started_of_handle hg
  have halive : g.isAlive = true := by
    cases ha : g.isAlive with
    | true => rfl
    | false => exact absurd hq (hv.handle g hg ha)
  refine ⟨halive, ?_⟩
  have hunseen := (hs.alive hstarted).mpr ⟨g, hg, halive⟩
  cases hentry : v.entry with
  | none =>
      have hseen := hv.settled hstarted ((hs.settled hstarted).mp hentry)
      cases hseen.symm.trans hunseen
  | some r =>
      obtain ⟨w, hkept⟩ := hs.entry r hentry
      exact ⟨r, w, rfl, by rw [hkept]; exact List.mem_singleton.mpr rfl⟩

end Life

namespace Launch

/-- A notice that arrives is added to the notices of its process. -/
theorem tale_arrive {a : Arrival} {n : Notice} (ha : a.message = .notice n) (l : Launch)
    (id : ProcessId) :
    (l.arrive a).tale id =
      if n.process = id then { l.tale id with notices := (l.tale id).notices ++ [n] }
      else l.tale id := by
  have hhistory : (l.arrive a).history = [.received (.notice n)] ++ l.history := by
    rw [← ha]
    rfl
  split
  · rename_i hid
    have hsince : (l.arrive a).since id = [.received (.notice n)] ++ l.since id :=
      since_append hhistory (by simp [Occurrence.starts])
    refine Tale.ext ?_ ?_ ?_ ?_ rfl ?_
    · show (l.arrive a).history.filterMap (·.specOf? id) = _
      rw [hhistory]
      rfl
    · show (l.arrive a).history.filterMap (·.keptOf? id) = _
      rw [hhistory]
      rfl
    · show (((l.arrive a).since id).filterMap (·.noticeOf? id)).reverse = l.noticesOf id ++ [n]
      rw [hsince, List.filterMap_append, List.reverse_append]
      simp [noticesOf, Occurrence.noticeOf?, hid]
    · show (l.arrive a).emissions.filter _ = l.emissions.filter _
      rw [emissions_append hhistory]
      exact congrArg _ (List.append_nil _)
    · show (l.arrive a).releases.filter _ = l.releases.filter _
      rw [releases_append hhistory]
      exact congrArg _ (List.append_nil _)
  · rename_i hid
    exact tale_of_quiet _ hhistory (by simp [Occurrence.concerns, hid]) rfl

/-- A notice of a process that is kept is passed on as an event. -/
theorem tale_onNotice {n : Notice} {s : Supervisor} {r : RunningProcess}
    (hs : l.supervisor.absorb? n = some s) (hr : l.processes.get? n.process.number = some r)
    (id : ProcessId) :
    (l.onNotice n).tale id = ({ l with supervisor := s }.emit (n.event r.info)).tale id := by
  rcases l.onNotice_cases n with
    ⟨hn, -⟩ | ⟨s', hs', ⟨hn, -⟩ | ⟨r', hr', ⟨_, stream, line, rfl, h⟩ | ⟨_, status, fault, rfl, h⟩⟩⟩
  · cases hs.symm.trans hn
  · cases hr.symm.trans hn
  · cases hs.symm.trans hs'
    cases hr.symm.trans hr'
    rw [h]
    rfl
  · cases hs.symm.trans hs'
    cases hr.symm.trans hr'
    have hfault : ({ l with supervisor := s }.reportFault r.info.name fault).tale id =
        ({ l with supervisor := s } : Launch).tale id := by
      cases fault with
      | none => rfl
      | some text => exact tale_report _ _ id
    have hrecord : ((({ l with supervisor := s }.reportFault r.info.name fault).note r.record
        status.text).advance r.record .completed).tale id =
          ({ l with supervisor := s } : Launch).tale id := hfault
    rw [h]
    unfold processEnded
    rw [tale_emit, tale_emit, hrecord]
    rfl

/-- A process that is given up has its handle put on the history once it has ended. -/
theorem tale_releaseProcess (hl : l.Sound p) (i id : ProcessId) :
    TaleSteps id (l.tale id) ((l.releaseProcess i).tale id) := by
  rcases l.releaseProcess_cases i with ⟨-, h⟩ | ⟨g, hg, ha, h⟩
  · rw [h]
    exact .refl
  · have hgid : g.id = i := hl.supervisor i.number g hg
    have hhistory : (l.releaseProcess i).history = [.released g] ++ l.history := by rw [h]; rfl
    have hhandle : (l.releaseProcess i).supervisor.find? id =
        if id.number = i.number then none else l.supervisor.find? id := by
      rw [h]
      exact Table.get?_erase _ _ _
    by_cases hid : id = i
    · subst hid
      rw [if_pos rfl] at hhandle
      have hrelease : TaleStep id (l.tale id) _ := .release g hg ha
      refine .single (Eq.mp (congrArg _ (Tale.ext ?_ ?_ ?_ ?_ hhandle.symm ?_)) hrelease)
      · show _ = (l.releaseProcess id).history.filterMap _
        rw [hhistory]
        rfl
      · show _ = (l.releaseProcess id).history.filterMap _
        rw [hhistory]
        rfl
      · show _ = (((l.releaseProcess id).since id).filterMap (·.noticeOf? id)).reverse
        rw [since_append hhistory (by simp [Occurrence.starts])]
        rfl
      · show _ = (l.releaseProcess id).emissions.filter _
        rw [emissions_append hhistory]
        exact congrArg _ (List.append_nil _).symm
      · show l.releases.filter (·.id = id) ++ [g] = (l.releaseProcess id).releases.filter _
        rw [releases_append hhistory, List.filter_append]
        simp [Occurrence.released?, hgid]
    · have hne : id.number ≠ i.number := fun hn => hid (ProcessId.ext hn)
      rw [tale_of_quiet _ hhistory ?_ (hhandle.trans (if_neg hne))]
      simp [Occurrence.concerns, hgid, Ne.symm hid]

/-- **A notice is passed on as long as its process has a handle.** -/
theorem tale_notice {a : Arrival} {n : Notice} (hl : l.Sound p)
    (hlife : (l.life n.process).Sound n.process) (htidy : (l.life n.process).Tidy)
    (hq : (l.life n.process).inFlight = []) (ha : a.message = .notice n) (id : ProcessId) :
    TaleStep id (l.tale id) (((l.arrive a).onNotice n).tale id) := by
  have harrived := tale_arrive ha l
  cases hfind : l.supervisor.find? n.process with
  | none =>
      have hdropped : (l.arrive a).onNotice n = l.arrive a := by
        rcases (l.arrive a).onNotice_cases n with ⟨-, h⟩ | ⟨s, hs, -⟩
        · exact h
        · unfold Supervisor.absorb? at hs
          rw [show (l.arrive a).supervisor.find? n.process = none from hfind] at hs
          cases hs
      rw [hdropped, harrived id]
      split
      · rename_i hid
        subst hid
        exact .ignore n hfind
      · exact .stay
  | some g =>
      obtain ⟨s, hs, hheard⟩ := Supervisor.absorb?_hear hl.supervisor hfind
      obtain ⟨halive, r, w, hr, hkept⟩ := htidy.entry_of_handle hlife hq hfind
      have hrid : r.info.id = n.process := (hl.processes _ r hr).1
      have htaken : ({ l.arrive a with supervisor := s } : Launch).tale id =
          { (l.arrive a).tale id with handle := s.find? id } := rfl
      rw [tale_onNotice (l := l.arrive a) hs hr, tale_emit, Notice.isAbout_event, htaken,
        harrived id, hheard id, hrid]
      by_cases hid : n.process = id
      · subst hid
        rw [decide_eq_true rfl, if_pos rfl, if_pos rfl, if_pos rfl]
        exact .hear n r w g hfind halive hkept
      · rw [decide_eq_false hid, if_neg Bool.false_ne_true, if_neg hid, if_neg (Ne.symm hid)]
        exact .stay

end Launch

/-- **A move is a few steps in the tale of every process.** -/
theorem Move.tale (h : Move p l m) (hl : l.Sound p) (hlife : ∀ i, (l.life i).Sound i)
    (htidy : ∀ i, (l.life i).Tidy) (hp : ∀ e, p (.emit e) → e.isAbout id = false) :
    TaleSteps id (l.tale id) (m.tale id) := by
  have hstay : ∀ {n : Launch}, n.tale id = l.tale id → TaleSteps id (l.tale id) (n.tale id) := by
    intro n hn
    rw [hn]
  have hcons : ∀ {n : Launch} {o : Occurrence}, o.concerns id = false →
      n.history = o :: l.history → n.supervisor = l.supervisor →
      TaleSteps id (l.tale id) (n.tale id) := fun ho hh hs => hstay (Launch.tale_of_cons hh ho hs)
  cases h with
  | effect h => exact .single (h.tale hl.supervisor (hlife id) hp)
  | take e rest hq hc hs => exact hcons (o := .dispatched e) rfl rfl rfl
  | ignore e rest hq hc he hs => exact hcons (o := .ignored e) rfl rfl rfl
  | answer e h writer as hc hf hm hy has => exact hcons (o := .began _ _ _) rfl rfl rfl
  | decline e h writer hc hf hm hy => exact hstay (Launch.tale_of_same rfl rfl id)
  | resume cause as scope hcause has => exact hcons (o := .began _ _ _) rfl rfl rfl
  | close e hc hs he => exact hcons (o := .turnEnded e) rfl rfl rfl
  | release q status r hc hr =>
      have hclosed : (l.closeTurn (.processExited q status)).tale id = l.tale id :=
        Launch.tale_of_cons (o := .turnEnded (.processExited q status)) rfl rfl rfl
      rw [← hclosed]
      exact Launch.tale_releaseProcess (hl.closeTurn _) q.id id
  | shutdown reason due hc hb =>
      obtain ⟨deadline, heffects⟩ := Launch.beginShutdown_effects (p := p) hb
      have hbegun := (hl.closeTurn (.shutdownRequested reason due)).withShutdown reason deadline
      have hsame : ((l.closeTurn (.shutdownRequested reason due)).withShutdown reason
          deadline).life id = l.life id := Launch.life_closeTurn_of_not hc rfl
      have htale : ((l.closeTurn (.shutdownRequested reason due)).withShutdown reason
          deadline).tale id = l.tale id :=
        Launch.tale_of_quiet
          [.shutdownBegan reason, .turnEnded (.shutdownRequested reason due)] rfl
          (by simp [Occurrence.concerns]) rfl
      rw [← htale]
      exact Effects.tale heffects hbegun (hsame ▸ hlife id) hp
  | arrive a hc hq ha =>
      refine hcons (o := .received a.message) ?_ rfl rfl
      cases hmessage : a.message with
      | notice n => exact absurd hmessage (ha n)
      | _ => rfl
  | notice a n hc hq ha =>
      have hnone := Launch.endsInFlight_eq_nil hc hq n.process
      exact .single (Launch.tale_notice hl (hlife _) (htidy _) hnone ha id)
  | elapse i t hc hq ht =>
      have hfired : ({ l with timers := l.timers.erase i }.happen (.fired i)).tale id =
          l.tale id := Launch.tale_of_cons (o := .fired i) rfl rfl rfl
      apply hstay
      unfold Launch.elapse
      dsimp only
      split
      · exact hfired
      · exact (Launch.tale_emit_of_not rfl _).trans hfired
  | kill hc hq hs =>
      rcases Launch.killRemaining_effects (p := p) l with h | h
      · rw [h]
      · have hforced : ({ l with forced := true } : Launch).tale id = l.tale id := rfl
        rw [← hforced]
        exact Effects.tale h hl.forced (hlife id) hp

/-! ## Runs in which no deed emits events about processes -/

/-- The deed emits no event about a process. -/
def Deed.ReportsNoProcess (d : Deed) : Prop :=
  ∀ e, d = .emit e → e.process? = none

theorem Deed.ReportsNoProcess.isAbout {e : Event} (h : (Deed.emit e).ReportsNoProcess)
    (id : ProcessId) : e.isAbout id = false := by
  unfold Event.isAbout
  rw [h e rfl]
  rfl

theorem Deed.ReportsNoProcess.isEndOf {e : Event} (h : (Deed.emit e).ReportsNoProcess)
    (id : ProcessId) : e.isEndOf id = false := by
  cases e with
  | processExited q status => cases h _ rfl
  | _ => rfl

namespace Launch

variable {config : Config} {host : Host} {args : LaunchArguments}

theorem life_tidy (h : Moves Deed.ReportsNoProcess (start config host args) l)
    (id : ProcessId) : (l.life id).Tidy := by
  have hlife := h.life (sound_start config host args) id
  have hsound := life_sound (p := Deed.ReportsNoProcess) (.refl (a := start config host args)) id
  refine Life.Tidy.steps (fun e he => he.isEndOf id) hsound ?_ hlife
  rw [life_start]
  exact ⟨⟨.inl rfl, by simp, by simp⟩, by simp⟩

/-- **At every moment of a launch the tale of each process is in one of its states.** -/
theorem tale_sound (h : Moves Deed.ReportsNoProcess (start config host args) l)
    (id : ProcessId) : (l.tale id).Sound id := by
  induction h with
  | refl => exact .unstarted []
  | tail hbefore hlast ih =>
      have hsound := (sound_start config host args).moves hbefore
      exact ih.steps (hlast.tale hsound (life_sound hbefore) (life_tidy hbefore)
        fun e he => he.isAbout id)

end Launch

end Conductor
