import Conductor.Proofs.Launch.Life

/-!
# What is kept of processes

A process that was started is tracked twice: by its handle in the supervisor, which says
whether it is alive, and by its entry in the table of running processes, without which its end
is neither recorded nor dispatched. `Life.Sound` says how the two are related throughout a
life. The end of the turn of an event that reports the end of a process takes the entry away,
wherever the event came from; the handle goes with it only when the process has really ended.
-/

namespace Conductor

variable {p : Deed → Prop} {l : Launch} {id : ProcessId}

/-- What holds throughout the life of a process, whatever events are emitted. -/
structure Life.Sound (id : ProcessId) (v : Life) : Prop where
  fresh : v.fresh = true → v.started = false
  blank : v.started = false → v.entry = none ∧ v.handle = none ∧ v.kept = []
  kept : v.started = true → ∃ r w, v.kept = [(r, w)] ∧ r.info.id = id
  /-- An entry is what was kept at the start. -/
  entry : ∀ r, v.entry = some r → ∃ w, v.kept = [(r, w)]
  /-- The entry goes at the end of a turn. -/
  settled : v.started = true → (v.entry = none ↔ v.settled = true)
  /-- As long as there is an entry there is a handle, and an end that was seen is in flight. -/
  handle : ∀ r, v.entry = some r → ∃ h, v.handle = some h ∧ (h.isAlive = true ∨ v.inFlight ≠ [])
  /-- The handle says whether the end was seen. -/
  alive : v.started = true → (v.seen = false ↔ ∃ h, v.handle = some h ∧ h.isAlive = true)

/-- What holds throughout the life of a process when no deed reports its end: the end is
reported once it was seen, and once only. -/
structure Life.Honest (v : Life) : Prop where
  inFlight : v.inFlight = [] ∨ ∃ r status, v.entry = some r ∧
    v.inFlight = [.processExited r.info status] ∧ v.seen = true
  settled : v.started = true → v.settled = true → v.seen = true
  begun : v.settled = true → v.started = true

namespace Life

/-- A process with an entry has been started. -/
theorem Sound.started_of_entry {v : Life} (hv : v.Sound id) {r : RunningProcess}
    (hr : v.entry = some r) : v.started = true := by
  cases hs : v.started with
  | true => rfl
  | false =>
      rw [(hv.blank hs).1] at hr
      cases hr

/-- A process with a handle has been started. -/
theorem Sound.started_of_handle {v : Life} (hv : v.Sound id) {h : ProcessHandle}
    (hh : v.handle = some h) : v.started = true := by
  cases hs : v.started with
  | true => rfl
  | false =>
      rw [(hv.blank hs).2.1] at hh
      cases hh

/-- A process that was kept has been started. -/
theorem Sound.started_of_kept {v : Life} (hv : v.Sound id) {x : RunningProcess × Option Nat}
    (hx : x ∈ v.kept) : v.started = true := by
  cases hs : v.started with
  | true => rfl
  | false =>
      rw [(hv.blank hs).2.2] at hx
      cases hx

theorem Sound.step {v w : Life} (hv : v.Sound id) (h : LifeStep p id v w) : w.Sound id := by
  cases h with
  | stay => exact hv
  | refuse hf => exact ⟨by simp, hv.blank, hv.kept, hv.entry, hv.settled, hv.handle, hv.alive⟩
  | start r k h hf hr hh ha =>
      obtain ⟨-, -, hkept⟩ := hv.blank (hv.fresh hf)
      refine ⟨by simp, by simp, fun _ => ⟨r, k, by rw [hkept], hr⟩, ?_, by simp, ?_, ?_⟩
      · rintro _ ⟨⟩
        exact ⟨k, by rw [hkept]⟩
      · rintro _ ⟨⟩
        exact ⟨h, rfl, .inl ha⟩
      · exact fun _ => ⟨fun _ => ⟨h, rfl, ha⟩, fun _ => rfl⟩
  | touch h h' hh hs hid =>
      have ha : h'.isAlive = h.isAlive := congrArg Option.isNone hs
      refine ⟨hv.fresh, ?_, hv.kept, hv.entry, hv.settled, ?_, ?_⟩
      · intro hn
        have := (hv.blank hn).2.1
        rw [hh] at this
        cases this
      · intro r hr
        obtain ⟨g, hg, hlive⟩ := hv.handle r hr
        cases hh.symm.trans hg
        exact ⟨h', rfl, by rw [ha]; exact hlive⟩
      · intro hs
        rw [hv.alive hs, hh]
        simp [ha]
  | emit e he hp =>
      refine ⟨hv.fresh, hv.blank, hv.kept, hv.entry, hv.settled, ?_, hv.alive⟩
      intro r hr
      obtain ⟨h, hh, -⟩ := hv.handle r hr
      exact ⟨h, hh, .inr (by simp)⟩
  | close e rest hq hn =>
      refine ⟨hv.fresh, hv.blank, hv.kept, hv.entry, fun _ => ⟨fun _ => rfl, fun _ => hn⟩, ?_,
        hv.alive⟩
      intro r hr
      rw [hn] at hr
      cases hr
  | release e rest r hq hr =>
      -- The handle goes only when the process has ended, which is when its end was seen.
      have hstarted := hv.started_of_entry hr
      refine ⟨hv.fresh, ?_, hv.kept, by simp, by simp, by simp, ?_⟩
      · intro hs
        rw [hstarted] at hs
        cases hs
      · intro hs
        rw [hv.alive hs]
        simp [Option.filter_eq_some_iff]
  | unknown hh =>
      refine ⟨hv.fresh, hv.blank, hv.kept, hv.entry, hv.settled, hv.handle, ?_⟩
      intro hs
      simp [hh]
  | unkept h status hh hn =>
      refine ⟨hv.fresh, ?_, hv.kept, hv.entry, hv.settled, ?_, ?_⟩
      · intro hs
        rw [(hv.blank hs).2.1] at hh
        cases hh
      · intro r hr
        rw [hn] at hr
        cases hr
      · intro hs
        simp [ProcessHandle.isAlive]
  | exit h r status hh hr hq =>
      refine ⟨hv.fresh, ?_, hv.kept, hv.entry, hv.settled, ?_, ?_⟩
      · intro hs
        rw [(hv.blank hs).2.1] at hh
        cases hh
      · intro r hr
        exact ⟨_, rfl, .inr (by simp)⟩
      · intro hs
        simp [ProcessHandle.isAlive]

/-- A process that was started stays so, and an end that was seen stays seen. -/
theorem Sound.remembers {v w : Life} (hv : v.Sound id) (hs : v.started = true)
    (h : LifeStep p id v w) : w.started = true ∧ (v.seen = true → w.seen = true) := by
  cases h with
  | start r k h hf hr hh ha =>
      rw [hv.fresh hf] at hs
      cases hs
  | unknown _ => exact ⟨hs, fun _ => rfl⟩
  | unkept _ _ _ _ => exact ⟨hs, fun _ => rfl⟩
  | exit _ _ _ _ _ _ => exact ⟨hs, fun _ => rfl⟩
  | _ => exact ⟨hs, fun h => h⟩

/-- A step keeps a life honest unless a deed reports an end. -/
theorem Honest.step {v w : Life} (hp : ∀ e, p (.emit e) → e.isEndOf id = false)
    (hs : v.Sound id) (hv : v.Honest) (h : LifeStep p id v w) : w.Honest := by
  cases h with
  | stay => exact hv
  | refuse hf => exact ⟨hv.inFlight, hv.settled, hv.begun⟩
  | start r k h hf hr hh ha =>
      refine ⟨.inl ?_, by simp, by simp⟩
      -- A number that was not given has no entry, so nothing is in flight for it.
      rcases hv.inFlight with hq | ⟨r', _, hr', -⟩
      · exact hq
      · rw [(hs.blank (hs.fresh hf)).1] at hr'
        cases hr'
  | touch h h' hh hst hid => exact ⟨hv.inFlight, hv.settled, hv.begun⟩
  | emit e he hemit =>
      rw [hp e hemit] at he
      cases he
  | close e rest hq hn =>
      -- An end in flight has an entry, so it cannot be the turn of one that closes.
      rcases hv.inFlight with hq' | ⟨r, _, hr, -⟩
      · rw [hq'] at hq
        cases hq
      · rw [hn] at hr
        cases hr
  | release e rest r hq hr =>
      rcases hv.inFlight with hq' | ⟨r', status, -, hq', hseen⟩
      · rw [hq'] at hq
        cases hq
      · rw [hq'] at hq
        cases hq
        exact ⟨.inl rfl, fun _ _ => hseen, fun _ => hs.started_of_entry hr⟩
  | unknown hh =>
      refine ⟨?_, fun _ _ => rfl, hv.begun⟩
      rcases hv.inFlight with hq | ⟨r, status, hr, hq, -⟩
      · exact .inl hq
      · exact .inr ⟨r, status, hr, hq, rfl⟩
  | unkept h status hh hn =>
      refine ⟨?_, fun _ _ => rfl, hv.begun⟩
      rcases hv.inFlight with hq | ⟨r, _, hr, -⟩
      · exact .inl hq
      · rw [hn] at hr
        cases hr
  | exit h r status hh hr hq =>
      exact ⟨.inr ⟨r, status, hr, rfl, rfl⟩, fun _ _ => rfl, hv.begun⟩

theorem Sound.steps {v w : Life} (hv : v.Sound id) (h : LifeSteps p id v w) : w.Sound id := by
  induction h with
  | refl => exact hv
  | tail _ hlast ih => exact ih.step hlast

theorem Sound.remembers_steps {v w : Life} (hv : v.Sound id) (hs : v.started = true)
    (h : LifeSteps p id v w) : w.started = true ∧ (v.seen = true → w.seen = true) := by
  induction h with
  | refl => exact ⟨hs, fun h => h⟩
  | tail hbefore hlast ih =>
      obtain ⟨hstarted, hseen⟩ := (hv.steps hbefore).remembers ih.1 hlast
      exact ⟨hstarted, fun h => hseen (ih.2 h)⟩

theorem Honest.steps {v w : Life} (hp : ∀ e, p (.emit e) → e.isEndOf id = false)
    (hs : v.Sound id) (hv : v.Honest) (h : LifeSteps p id v w) : w.Honest := by
  induction h with
  | refl => exact hv
  | tail hbefore hlast ih => exact ih.step hp (hs.steps hbefore) hlast

end Life

/-- The deed emits no event that reports the end of a process. -/
def Deed.ReportsNoEnd (d : Deed) : Prop :=
  ∀ q status, d ≠ .emit (.processExited q status)

theorem Deed.ReportsNoEnd.isEndOf {e : Event} (h : (Deed.emit e).ReportsNoEnd) (id : ProcessId) :
    e.isEndOf id = false := by
  cases e with
  | processExited q status => exact absurd rfl (h q status)
  | _ => rfl

namespace Launch

variable {config : Config} {host : Host} {args : LaunchArguments}

/-- Nothing is known of a process before its number is given. -/
theorem life_start (config : Config) (host : Host) (args : LaunchArguments) (id : ProcessId) :
    (start config host args).life id =
      { fresh := decide (1 ≤ id.number), started := false, kept := [], entry := none,
        handle := none, inFlight := [], seen := false, settled := false } := by
  have hquiet := start_context config host args
  have hflight : (start config host args).endsInFlight id = [] := by
    unfold endsInFlight
    rw [hquiet.current, hquiet.pending]
    rfl
  exact Life.ext rfl rfl rfl rfl rfl hflight rfl rfl

theorem life_sound (h : Moves p (start config host args) l) (id : ProcessId) :
    (l.life id).Sound id := by
  refine Life.Sound.steps ?_ (h.life (sound_start config host args) id)
  rw [life_start]
  exact ⟨by simp, by simp, by simp, by simp, by simp, by simp, by simp⟩

theorem life_honest (h : Moves Deed.ReportsNoEnd (start config host args) l) (id : ProcessId) :
    (l.life id).Honest := by
  have hlife := h.life (sound_start config host args) id
  rw [life_start] at hlife
  refine Life.Honest.steps (fun e he => he.isEndOf id) ?_ ⟨.inl rfl, by simp, by simp⟩ hlife
  exact ⟨by simp, by simp, by simp, by simp, by simp, by simp, by simp⟩

theorem endsInFlight_eq_nil (hc : l.context.current = none) (hp : l.context.pending = [])
    (id : ProcessId) : l.endsInFlight id = [] := by
  unfold endsInFlight
  rw [hc, hp]
  rfl

end Launch

/-! ## Between two messages -/

section Quiet

variable {config : Config} {host : Host} {args : LaunchArguments} {description : List Action}
  {s : Standing}

theorem Reachable.moves_any (h : Reachable config host args description s) :
    Moves (fun _ => True) (.start config host args) s.launch ∧ s.launch.context.current = none :=
  h.moves (Action.every_true description)

theorem Reachable.keyed (h : Reachable config host args description s) :
    s.launch.supervisor.Keyed :=
  (h.sound (Action.every_true description)).supervisor

/-- The end of a process with a handle is passed on as an event if the process is kept. -/
theorem endsInFlight_receive_exited {l : Launch} (hl : l.Sound p) (hc : l.context.current = none)
    (hp : l.context.pending = []) {handle : ProcessHandle}
    (hh : l.supervisor.find? id = some handle) {a : Arrival} {status : ExitStatus}
    {fault : Option String} (ha : a.message = .notice (.exited id status fault)) :
    (l.receive a).launch.endsInFlight id ≠ [] ↔ ∃ r, l.processes.get? id.number = some r := by
  have harrived := hl.arrive a
  have hreceive : (l.receive a).launch = (l.arrive a).onNotice (.exited id status fault) := by
    unfold Launch.receive Launch.handle
    rw [ha]
    rfl
  have hnone : (l.arrive a).endsInFlight id = [] := Launch.endsInFlight_eq_nil hc hp id
  rw [hreceive]
  rcases Launch.life_exited harrived id status fault with
      ⟨hn, -⟩ | ⟨g, -, ⟨hr, hlife⟩ | ⟨r, hr, hlife⟩⟩
  · exact absurd (hh.symm.trans hn) (by simp)
  · have hflight := congrArg Life.inFlight hlife
    change _ = (l.arrive a).endsInFlight id at hflight
    constructor
    · intro hne
      exact absurd (hflight.trans hnone) hne
    · rintro ⟨r, hr'⟩
      cases hr'.symm.trans hr
  · have hflight := congrArg Life.inFlight hlife
    constructor
    · intro _
      exact ⟨r, hr⟩
    · intro _ hnil
      have : (l.arrive a).endsInFlight id ++ [Event.processExited r.info status] = [] :=
        hflight.symm.trans hnil
      simp at this

/-- **When no event waits, a living process has its entry exactly as long as no event that
reports its end has had its turn since it was started**; its real end is passed on to the
handlers exactly then too. Every entry is that of a living process under its own number. -/
theorem entry_iff_not_endSettled (h : Reachable config host args description s)
    (hp : s.launch.context.pending = []) :
    (∀ id handle, s.launch.supervisor.find? id = some handle → handle.isAlive = true →
      ((∃ r, s.launch.processes.get? id.number = some r ∧ r.info.id = id) ↔
        s.launch.endSettled id = false) ∧
      ∀ a status fault, a.message = .notice (.exited id status fault) →
        ((s.launch.receive a).launch.endsInFlight id ≠ [] ↔ s.launch.endSettled id = false)) ∧
    ∀ k r, s.launch.processes.get? k = some r →
      r.info.id = ⟨k⟩ ∧ ∃ handle, s.launch.supervisor.find? ⟨k⟩ = some handle ∧
        handle.isAlive = true := by
  obtain ⟨hmoves, hc⟩ := h.moves_any
  have hsound := (Launch.sound_start config host args).moves hmoves
  constructor
  · intro id handle hh ha
    have hlife := Launch.life_sound hmoves id
    have hstarted := hlife.started_of_handle hh
    have hsettled : s.launch.processes.get? id.number = none ↔ s.launch.endSettled id = true :=
      hlife.settled hstarted
    have hentry : (∃ r, s.launch.processes.get? id.number = some r) ↔
        s.launch.endSettled id = false := by
      rw [← Option.ne_none_iff_exists', Ne, hsettled, Bool.not_eq_true]
    refine ⟨⟨?_, fun hnot => ?_⟩, fun a status fault ham => ?_⟩
    · rintro ⟨r, hr, -⟩
      exact hentry.mp ⟨r, hr⟩
    · obtain ⟨r, hr⟩ := hentry.mpr hnot
      exact ⟨r, hr, (hsound.processes _ r hr).1⟩
    · rw [endsInFlight_receive_exited hsound hc hp hh ham]
      exact hentry
  · intro k r hr
    have hlife := Launch.life_sound hmoves ⟨k⟩
    obtain ⟨handle, hh, ha | hq⟩ := hlife.handle r hr
    · exact ⟨(hsound.processes k r hr).1, handle, hh, ha⟩
    · exact absurd (Launch.endsInFlight_eq_nil hc hp ⟨k⟩) hq

/-- A machine on which every program starts and every signal is delivered. -/
def Host.willing : Host :=
  { Host.bare with
    start := fun id _ => .ok (100 + id.number)
    signal := fun _ _ => .ok true }

/-- An action that starts a process. -/
def Action.work (bits : BitVec 128) (onExit : List Action) : Action :=
  .mk ⟨bits⟩ none (.execute { command := [[.text "worker"]], name := some [.text "w"] } onExit)

/-- An action that reports the end of the process of a number, whether it has ended or not. -/
def Action.reportEnd (bits : BitVec 128) (number : Nat) : Action :=
  .mk ⟨bits⟩ none (.emit (.processExited ⟨⟨number⟩, ⟨bits⟩, "w", 101, ["worker"]⟩ ⟨some 0, none⟩))

/-- Whether no event waits and the first process is alive and has no entry. -/
def Standing.hasLostFirst (s : Standing) : Bool :=
  s.launch.context.pending.isEmpty && s.launch.supervisor.live == [⟨1⟩] &&
    (s.launch.processes.get? 1).isNone

theorem exists_hasLostFirst :
    ∃ s, Reachable .standard .willing [] [.work 1 [], .reportEnd 2 1] s ∧
      s.launch.context.pending = [] ∧ s.launch.processes.get? 1 = none ∧
      ∃ handle, s.launch.supervisor.find? ⟨1⟩ = some handle ∧ handle.isAlive = true := by
  have hrun : Reachable.comesTo Standing.hasLostFirst ((Launch.begin .standard .willing []
      [.work 1 [], .reportEnd 2 1]).run 9 []) = true := by decide
  obtain ⟨s, hs, hcheck⟩ := Reachable.exists_of_comesTo 9 [] hrun
  simp only [Standing.hasLostFirst, Bool.and_eq_true, List.isEmpty_iff, beq_iff_eq,
    Option.isNone_iff_eq_none] at hcheck
  obtain ⟨⟨hp, hlive⟩, hnone⟩ := hcheck
  exact ⟨s, hs, hp, hnone, hs.keyed.mem_live.mp (by rw [hlive]; exact List.mem_singleton.mpr rfl)⟩

/-- A process that another action reports as ended: its entry is gone, and so will be its end. -/
theorem first_lost_by_report :
    ∃ s, Reachable .standard .willing [] [.work 1 [], .reportEnd 2 1] s ∧
      s.launch.context.pending = [] ∧ s.launch.processes.get? 1 = none ∧
      s.launch.endSettled ⟨1⟩ = true := by
  obtain ⟨s, hs, hp, hnone, handle, hh, ha⟩ := exists_hasLostFirst
  have hentry := (entry_iff_not_endSettled hs hp).1 ⟨1⟩ handle hh ha
  refine ⟨s, hs, hp, hnone, ?_⟩
  cases hset : s.launch.endSettled ⟨1⟩ with
  | true => rfl
  | false =>
      obtain ⟨r, hr, -⟩ := hentry.1.mpr hset
      rw [hnone] at hr
      cases hr

/-- It is not so that every living process has its entry when no event waits. -/
theorem not_every_living_has_entry :
    ¬ ∀ s, Reachable .standard .willing [] [.work 1 [], .reportEnd 2 1] s →
      s.launch.context.pending = [] → ∀ id handle, s.launch.supervisor.find? id = some handle →
        handle.isAlive = true → ∃ r, s.launch.processes.get? id.number = some r := by
  intro hevery
  obtain ⟨s, hs, hp, hnone, handle, hh, ha⟩ := exists_hasLostFirst
  obtain ⟨r, hr⟩ := hevery s hs hp ⟨1⟩ handle hh ha
  rw [hnone] at hr
  cases hr

end Quiet

end Conductor
