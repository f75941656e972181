import Conductor.Proofs.Launch.Life

/-!
# The tale of a process

The supervisor is told of a process by notices: lines of output, and at last its end. The launch
passes them on as events, keeps the lines if it was asked to, and gives the handle up when the end
has had its turn. `Tale` collects what is told of one process, and `TaleStep` the few ways in which
it goes on. A tale is always in one of four states (`Tale.Sound`), in which it is known as a
whole: the events are the transcript of the notices that were handled, and the lines are on the
handle, wherever that is.
-/

namespace Conductor

/-! ## Notices and events of one process -/

namespace Notice

def isExit : Notice → Bool
  | .output .. => false
  | .exited .. => true

/-- The line of output that a notice brings. -/
def line? : Notice → Option OutputLine
  | .output _ stream line => some (stream, line)
  | .exited .. => none

/-- How the process ended, if the notice tells. -/
def status? : Notice → Option ExitStatus
  | .output .. => none
  | .exited _ status _ => some status

/-- The event by which a notice of a process is passed on. -/
def event (q : ProcessInfo) : Notice → Event
  | .output _ stream line => .processOutput q stream line
  | .exited _ status _ => .processExited q status

end Notice

/-- The lines that a process wrote, in the order in which they arrived. What a process is said to
write after its end does not count. -/
def spoken (ns : List Notice) : List OutputLine :=
  (ns.takeWhile fun n => !n.isExit).filterMap (·.line?)

/-- How a process ended, by the first notice that tells. -/
def exitOf? (ns : List Notice) : Option ExitStatus :=
  ns.findSome? (·.status?)

/-- The events about a process of which these notices were handled: its start, then one for each
line of output, and at last one for its end, if that was told. -/
def transcript (q : ProcessInfo) (ns : List Notice) : List Event :=
  .processStarted q :: (spoken ns).map (fun x => .processOutput q x.1 x.2) ++
    (exitOf? ns).toList.map (.processExited q)

theorem exitOf?_eq_none {ns : List Notice} (h : ns.any (·.isExit) = false) :
    exitOf? ns = none := by
  apply List.findSome?_eq_none_iff.mpr
  intro n hn
  have hnot := List.any_eq_false.mp h n hn
  cases n with
  | output id stream line => rfl
  | exited id status fault => exact absurd rfl hnot

/-- As long as no end is told, every notice counts. -/
theorem spoken_snoc {ns : List Notice} (h : ns.any (·.isExit) = false) (n : Notice) :
    spoken (ns ++ [n]) = spoken ns ++ n.line?.toList := by
  have hall : ∀ m ∈ ns, (!m.isExit) = true := by
    intro m hm
    rw [Bool.eq_false_iff.mpr (List.any_eq_false.mp h m hm)]
    rfl
  have hwhole := @List.takeWhile_append_of_pos _ (fun m => !m.isExit) ns [] hall
  rw [List.append_nil, List.takeWhile_nil, List.append_nil] at hwhole
  unfold spoken
  rw [List.takeWhile_append_of_pos hall, hwhole, List.filterMap_append]
  cases n <;> rfl

/-- Once an end is told, no further notice counts. -/
theorem spoken_append {ns : List Notice} (h : ns.any (·.isExit) = true) (ms : List Notice) :
    spoken (ns ++ ms) = spoken ns := by
  unfold spoken
  congr 1
  induction ns with
  | nil => cases h
  | cons m rest ih =>
      rw [List.cons_append, List.takeWhile_cons, List.takeWhile_cons]
      cases hm : m.isExit with
      | true => rfl
      | false =>
          rw [List.any_cons, hm, Bool.false_or] at h
          rw [ih h]

example : spoken [.output ⟨1⟩ .stdout "a", .exited ⟨1⟩ ⟨some 0, none⟩ none,
    .output ⟨1⟩ .stdout "b"] = [(.stdout, "a")] := rfl

theorem transcript_snoc {ns : List Notice} (h : ns.any (·.isExit) = false) (q : ProcessInfo)
    (n : Notice) : transcript q (ns ++ [n]) = transcript q ns ++ [n.event q] := by
  have hexit : exitOf? (ns ++ [n]) = n.status? := by
    have hfirst : ns.findSome? (·.status?) = none := exitOf?_eq_none h
    unfold exitOf?
    rw [List.findSome?_append, hfirst, Option.none_or, List.findSome?_singleton]
  unfold transcript
  rw [hexit, exitOf?_eq_none h, spoken_snoc h, List.map_append]
  cases n with
  | output id stream line => simp [Notice.line?, Notice.status?, Notice.event]
  | exited id status fault => simp [Notice.line?, Notice.status?, Notice.event]

theorem transcript_append {ns : List Notice} (h : ns.any (·.isExit) = true) (q : ProcessInfo)
    (ms : List Notice) : transcript q (ns ++ ms) = transcript q ns := by
  have hexit : exitOf? (ns ++ ms) = exitOf? ns := by
    unfold exitOf?
    obtain ⟨n, hn, htells⟩ := List.any_eq_true.mp h
    rw [List.findSome?_append, Option.or_of_isSome]
    apply List.findSome?_isSome_iff.mpr
    refine ⟨n, hn, ?_⟩
    cases n with
    | output id stream line => cases htells
    | exited id status fault => rfl
  unfold transcript
  rw [hexit, spoken_append h]

/-- When nothing is told after the end, there is one event for each notice. -/
theorem transcript_of_orderly {ns : List Notice} (h : ns.dropLast.any (·.isExit) = false)
    (q : ProcessInfo) : transcript q ns = .processStarted q :: ns.map (·.event q) := by
  have hlines : ∀ ms : List Notice, ms.any (·.isExit) = false →
      transcript q ms = .processStarted q :: ms.map (·.event q) := by
    intro ms hms
    have hspoken : (spoken ms).map (fun x => Event.processOutput q x.1 x.2) =
        ms.map (·.event q) := by
      induction ms with
      | nil => rfl
      | cons n rest ih =>
          rw [List.any_cons, Bool.or_eq_false_iff] at hms
          cases n with
          | output id stream line => exact congrArg _ (ih hms.2)
          | exited id status fault => cases hms.1
    unfold transcript
    rw [exitOf?_eq_none hms, hspoken]
    exact List.append_nil _
  rcases List.eq_nil_or_concat ns with rfl | ⟨init, n, rfl⟩
  · rfl
  · rw [List.concat_eq_append, List.dropLast_concat] at h
    rw [List.concat_eq_append, transcript_snoc h, hlines init h, List.map_append]
    rfl

/-- The event is about the process. -/
def Event.isAbout (id : ProcessId) (e : Event) : Bool :=
  e.process?.any (·.id = id)

theorem Notice.isAbout_event (n : Notice) (q : ProcessInfo) (id : ProcessId) :
    (n.event q).isAbout id = decide (q.id = id) := by
  cases n <;> rfl

namespace ProcessHandle

/-- What a notice leaves on the handle of its process. -/
def hear (g : ProcessHandle) : Notice → ProcessHandle
  | .exited _ status _ => { g with status := some status }
  | .output _ stream line =>
      if g.output = .capture then { g with captured := g.captured ++ [(stream, line)] } else g

theorem hear_of_capture {g : ProcessHandle} (hout : g.output = .capture) (id : ProcessId)
    (stream : OutputStream) (line : String) :
    g.hear (.output id stream line) = { g with captured := g.captured ++ [(stream, line)] } :=
  if_pos hout

theorem hear_of_not_capture {g : ProcessHandle} (hout : g.output ≠ .capture) (id : ProcessId)
    (stream : OutputStream) (line : String) : g.hear (.output id stream line) = g :=
  if_neg hout

/-- The handle has the number that the operating system gave, and the lines that were to be
kept. -/
structure Tells (g : ProcessHandle) (q : ProcessInfo) (ns : List Notice) : Prop where
  pid : g.pid = q.pid
  captured : g.captured = if g.output = .capture then spoken ns else []

variable {g : ProcessHandle} {q : ProcessInfo} {ns : List Notice}

theorem Tells.hear (hg : g.Tells q ns) (hns : ns.any (·.isExit) = false) (n : Notice) :
    (g.hear n).Tells q (ns ++ [n]) := by
  cases n with
  | exited id status fault =>
      refine ⟨hg.pid, ?_⟩
      rw [spoken_snoc hns]
      show g.captured = if g.output = .capture then spoken ns ++ [] else []
      rw [List.append_nil]
      exact hg.captured
  | output id stream line =>
      by_cases hout : g.output = .capture
      · rw [hear_of_capture hout]
        refine ⟨hg.pid, ?_⟩
        rw [spoken_snoc hns]
        show g.captured ++ [(stream, line)] = if g.output = .capture then _ else []
        rw [if_pos hout, hg.captured, if_pos hout]
        rfl
      · rw [hear_of_not_capture hout]
        refine ⟨hg.pid, ?_⟩
        rw [hg.captured, if_neg hout, if_neg hout]

/-- What does not count is not kept. -/
theorem Tells.deaf (hg : g.Tells q ns) (hns : ns.any (·.isExit) = true) (ms : List Notice) :
    g.Tells q (ns ++ ms) := by
  refine ⟨hg.pid, ?_⟩
  rw [spoken_append hns]
  exact hg.captured

/-- Only the end of a process changes whether it is alive. -/
theorem isAlive_hear (ha : g.isAlive = true) (n : Notice) : (g.hear n).isAlive = !n.isExit := by
  cases n with
  | exited id status fault => rfl
  | output id stream line =>
      unfold ProcessHandle.hear
      dsimp only
      split <;> exact ha

end ProcessHandle

/-- A notice is heard by the handle of its process, and by no other. -/
theorem Supervisor.absorb?_hear {s : Supervisor} (hs : s.Keyed) {n : Notice} {g : ProcessHandle}
    (hg : s.find? n.process = some g) :
    ∃ t, s.absorb? n = some t ∧
      ∀ id, t.find? id = if id = n.process then some (g.hear n) else s.find? id := by
  have hid : g.id = n.process := hs _ g hg
  have hupdate : ∀ h : ProcessHandle, h.id = n.process → ∀ id,
      (s.update h).find? id = if id = n.process then some h else s.find? id := by
    intro h hh id
    rw [find?_update, hh]
    by_cases heq : id = n.process
    · rw [if_pos heq, if_pos (congrArg _ heq)]
    · rw [if_neg heq, if_neg fun hn => heq (ProcessId.ext hn)]
  have hsame : ∀ id, s.find? id = if id = n.process then some g else s.find? id := by
    intro id
    split
    · rename_i heq
      rw [heq]
      exact hg
    · rfl
  unfold absorb?
  rw [hg]
  cases n with
  | exited i status fault => exact ⟨_, rfl, hupdate { g with status := some status } hid⟩
  | output i stream line =>
      cases hout : g.output with
      | capture =>
          rw [ProcessHandle.hear_of_capture hout]
          exact ⟨_, by dsimp only; rw [hout], hupdate _ hid⟩
      | screen =>
          rw [ProcessHandle.hear_of_not_capture (by rw [hout]; decide)]
          refine ⟨{ s with shown := (stream, screenLine g line) :: s.shown }, ?_, hsame⟩
          dsimp only
          rw [hout]
      | log | discard =>
          rw [ProcessHandle.hear_of_not_capture (by rw [hout]; decide)]
          refine ⟨s, ?_, hsame⟩
          dsimp only
          rw [hout]

/-! ## The tale of a process -/

/-- What is told of one process. -/
@[ext] structure Tale where
  specs : List ProcessSpec
  kept : List (RunningProcess × Option Nat)
  /-- The notices that were handled since the process was started, oldest first. -/
  notices : List Notice
  /-- The events about the process that were queued, oldest first. -/
  events : List Event
  handle : Option ProcessHandle
  released : List ProcessHandle

/-- One step in the tale of a process. -/
inductive TaleStep (id : ProcessId) (v : Tale) : Tale → Prop where
  | stay : TaleStep id v v
  | start (spec : ProcessSpec) (r : RunningProcess) (w : Option Nat) (g : ProcessHandle)
      (hv : v.specs = []) (hr : r.info.id = id ∧ r.info.name = spec.name)
      (hg : g.isAlive = true ∧ g.captured = [] ∧ g.pid = r.info.pid) :
      TaleStep id v
        { v with
          specs := [spec]
          kept := (r, w) :: v.kept
          notices := []
          events := v.events ++ [.processStarted r.info]
          handle := some g }
  /-- The handle is marked. -/
  | mark (g g' : ProcessHandle) (hv : v.handle = some g) (ha : g'.isAlive = g.isAlive)
      (hg : ∀ q ns, g.Tells q ns → g'.Tells q ns) : TaleStep id v { v with handle := some g' }
  /-- A notice of a living process is passed on. -/
  | hear (n : Notice) (r : RunningProcess) (w : Option Nat) (g : ProcessHandle)
      (hv : v.handle = some g) (ha : g.isAlive = true) (hr : (r, w) ∈ v.kept) :
      TaleStep id v
        { v with
          notices := v.notices ++ [n]
          events := v.events ++ [n.event r.info]
          handle := some (g.hear n) }
  /-- The process is not known, or not any more. -/
  | ignore (n : Notice) (hv : v.handle = none) :
      TaleStep id v { v with notices := v.notices ++ [n] }
  | release (g : ProcessHandle) (hv : v.handle = some g) (ha : g.isAlive = false) :
      TaleStep id v { v with handle := none, released := v.released ++ [g] }

/-- Steps in the tale of a process. -/
abbrev TaleSteps (id : ProcessId) : Tale → Tale → Prop :=
  Relation.ReflTransGen (TaleStep id)

/-- The states of a tale. Once the process has started there is one account of its start, the
events are the transcript of the notices, and the lines are on the handle, wherever that is. -/
inductive Tale.Sound (id : ProcessId) : Tale → Prop where
  | unstarted (ns : List Notice) : Tale.Sound id ⟨[], [], ns, [], none, []⟩
  | speaking (spec : ProcessSpec) (r : RunningProcess) (w : Option Nat) (ns : List Notice)
      (g : ProcessHandle) (hr : r.info.id = id ∧ r.info.name = spec.name)
      (hns : ns.any (·.isExit) = false) (ha : g.isAlive = true) (hg : g.Tells r.info ns) :
      Tale.Sound id ⟨[spec], [(r, w)], ns, transcript r.info ns, some g, []⟩
  | ended (spec : ProcessSpec) (r : RunningProcess) (w : Option Nat) (ns : List Notice)
      (g : ProcessHandle) (hr : r.info.id = id ∧ r.info.name = spec.name)
      (hns : ns.any (·.isExit) = true) (ha : g.isAlive = false) (hg : g.Tells r.info ns) :
      Tale.Sound id ⟨[spec], [(r, w)], ns, transcript r.info ns, some g, []⟩
  | released (spec : ProcessSpec) (r : RunningProcess) (w : Option Nat) (ns : List Notice)
      (g : ProcessHandle) (hr : r.info.id = id ∧ r.info.name = spec.name)
      (hns : ns.any (·.isExit) = true) (hg : g.Tells r.info ns) :
      Tale.Sound id ⟨[spec], [(r, w)], ns, transcript r.info ns, none, [g]⟩

/-- A process that is heard goes on speaking, or has ended. -/
theorem Tale.Sound.hear {id : ProcessId} {r : RunningProcess} {ns : List Notice}
    {g : ProcessHandle} (spec : ProcessSpec) (w : Option Nat)
    (hr : r.info.id = id ∧ r.info.name = spec.name) (hns : ns.any (·.isExit) = false)
    (ha : g.isAlive = true) (hg : g.Tells r.info ns) (n : Notice) :
    Tale.Sound id ⟨[spec], [(r, w)], ns ++ [n], transcript r.info ns ++ [n.event r.info],
      some (g.hear n), []⟩ := by
  have hheard := hg.hear hns n
  have hstatus := ProcessHandle.isAlive_hear ha n
  have hany : (ns ++ [n]).any (·.isExit) = n.isExit := by
    rw [List.any_append, hns, Bool.false_or, List.any_cons, List.any_nil, Bool.or_false]
  rw [← transcript_snoc hns]
  cases hexit : n.isExit with
  | false =>
      rw [hexit] at hstatus hany
      exact .speaking spec r w _ _ hr hany hstatus hheard
  | true =>
      rw [hexit] at hstatus hany
      exact .ended spec r w _ _ hr hany hstatus hheard

/-- **A step leaves a tale in one of its states.** -/
theorem Tale.Sound.step {id : ProcessId} {v v' : Tale} (hv : v.Sound id)
    (h : TaleStep id v v') : v'.Sound id := by
  cases h with
  | stay => exact hv
  | start spec r w g hspecs hr hg =>
      cases hv with
      | unstarted ns =>
          refine .speaking spec r w [] g hr rfl hg.1 ⟨hg.2.2, ?_⟩
          rw [hg.2.1]
          exact (ite_self _).symm
      | _ => cases hspecs
  | mark g g' hh ha hg =>
      cases hv with
      | unstarted ns => cases hh
      | speaking spec r w ns g hr hns halive htells =>
          cases hh
          exact .speaking spec r w ns g' hr hns (ha.trans halive) (hg _ _ htells)
      | ended spec r w ns g hr hns hdead htells =>
          cases hh
          exact .ended spec r w ns g' hr hns (ha.trans hdead) (hg _ _ htells)
      | released spec r w ns g hr hns htells => cases hh
  | hear n r w g hh ha hk =>
      cases hv with
      | unstarted ns => cases hh
      | speaking spec r' w' ns g' hr hns halive htells =>
          cases hh
          cases List.mem_singleton.mp hk
          exact .hear spec w hr hns ha htells n
      | ended spec r' w' ns g' hr hns hdead htells =>
          cases hh
          rw [hdead] at ha
          cases ha
      | released spec r' w' ns g' hr hns htells => cases hh
  | ignore n hh =>
      cases hv with
      | unstarted ns => exact .unstarted (ns ++ [n])
      | released spec r w ns g hr hns htells =>
          have htold : (ns ++ [n]).any (·.isExit) = true := by
            rw [List.any_append, hns, Bool.true_or]
          show Tale.Sound id ⟨[spec], [(r, w)], ns ++ [n], transcript r.info ns, none, [g]⟩
          rw [← transcript_append hns r.info [n]]
          exact .released spec r w _ g hr htold (htells.deaf hns [n])
      | _ => cases hh
  | release g hh ha =>
      cases hv with
      | unstarted ns => cases hh
      | speaking spec r w ns g' hr hns halive htells =>
          cases hh
          rw [halive] at ha
          cases ha
      | ended spec r w ns g' hr hns hdead htells =>
          cases hh
          exact .released spec r w ns g hr hns htells
      | released spec r w ns g' hr hns htells => cases hh

theorem Tale.Sound.steps {id : ProcessId} {v v' : Tale} (hv : v.Sound id)
    (h : TaleSteps id v v') : v'.Sound id := by
  induction h with
  | refl => exact hv
  | tail _ hlast ih => exact ih.step hlast

end Conductor
