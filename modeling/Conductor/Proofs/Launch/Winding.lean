import Conductor.Proofs.Launch.Loop

/-!
# Winding down

From the moment a shutdown is asked for a launch only winds down: no process is started and no
timer is scheduled, so what lives or is pending later lived or was pending before, and signals
that were noted stay noted (`Moves.winds`). What the shutdown does when it begins, and what is
done when the run is given up, therefore holds for the rest of the run.
-/

namespace Conductor

namespace Supervisor

/-- A living process was sent the signal once the supervisor was asked to send it. -/
theorem Keyed.wasSent_send {s : Supervisor} (hs : s.Keyed) {host : Host} {id : ProcessId}
    {signal : Signal} {h : ProcessHandle} (hf : (s.send host id signal).2.find? id = some h)
    (ha : h.isAlive = true) : h.wasSent signal = true := by
  rcases s.send_cases host id signal with
      ⟨hnone, hsame⟩ | ⟨g, hg, hdone, hsame⟩ | ⟨g, n, hg, -, -, hmark⟩
  · rw [hsame, hnone] at hf
    cases hf
  · rw [hsame, hg] at hf
    cases hf
    rcases hdone with hdead | hsent
    · rw [ha] at hdead
      cases hdead
    · exact hsent
  · have hid : id.number = (g.markSent signal).id.number := by
      rw [g.id_markSent, hs _ g hg]
    rw [hmark] at hf
    change (s.update (g.markSent signal)).find? id = some h at hf
    rw [find?_update, if_pos hid] at hf
    cases hf
    exact g.wasSent_markSent signal

end Supervisor

namespace Launch

/-- In the second launch nothing goes on that did not go on in the first one: its living
processes and its timers are among those of the first one, and no work began in between.
Signals that were noted and a shutdown that was asked for are not forgotten. -/
structure Winds (l m : Launch) : Prop where
  living : ∀ id h, m.supervisor.find? id = some h → h.isAlive = true →
    ∃ g, l.supervisor.find? id = some g ∧ g.isAlive = true ∧
      ∀ signal, g.wasSent signal = true → h.wasSent signal = true
  timers : ∀ id t, m.timers.get? id = some t → l.timers.get? id = some t
  flag : l.context.shuttingDown = true → m.context.shuttingDown = true
  history : ∃ os, m.history = os ++ l.history ∧ ∀ o ∈ os, o.beginsWork = false

variable {p : Deed → Prop} {l m n : Launch}

theorem Winds.trans (h : l.Winds m) (h' : m.Winds n) : l.Winds n where
  living := by
    intro id k hk ha
    obtain ⟨g, hg, hga, hgs⟩ := h'.living id k hk ha
    obtain ⟨g', hg', hga', hgs'⟩ := h.living id g hg hga
    exact ⟨g', hg', hga', fun signal hs => hgs signal (hgs' signal hs)⟩
  timers := fun id t ht => h.timers id t (h'.timers id t ht)
  flag := fun hf => h'.flag (h.flag hf)
  history := by
    obtain ⟨os, hos, hq⟩ := h.history
    obtain ⟨os', hos', hq'⟩ := h'.history
    refine ⟨os' ++ os, ?_, ?_⟩
    · rw [hos', hos, List.append_assoc]
    · intro o ho
      rcases List.mem_append.mp ho with ho | ho
      · exact hq' o ho
      · exact hq o ho

/-- What leaves the processes, the timers and the flag alone winds nothing up. -/
theorem winds_of_same (os : List Occurrence)
    (hs : m.supervisor.handles = l.supervisor.handles) (ht : m.timers = l.timers)
    (hf : m.context.shuttingDown = l.context.shuttingDown) (hos : m.history = os ++ l.history)
    (hq : ∀ o ∈ os, o.beginsWork = false) : l.Winds m where
  living := by
    intro id h hh ha
    unfold Supervisor.find? at hh
    rw [hs] at hh
    exact ⟨h, hh, ha, fun _ hsent => hsent⟩
  timers := by
    intro id t hid
    rw [ht] at hid
    exact hid
  flag := by
    intro h
    rw [hf]
    exact h
  history := ⟨os, hos, hq⟩

theorem Winds.refl (l : Launch) : l.Winds l :=
  winds_of_same [] rfl rfl rfl rfl (by simp)

/-- One occurrence that begins no work. -/
theorem winds_of_happen {o : Occurrence} (hs : m.supervisor.handles = l.supervisor.handles)
    (ht : m.timers = l.timers) (hf : m.context.shuttingDown = l.context.shuttingDown)
    (hos : m.history = o :: l.history) (ho : o.beginsWork = false) : l.Winds m := by
  have hone : m.history = [o] ++ l.history := hos
  apply winds_of_same [o] hs ht hf hone
  intro o' ho'
  rw [List.mem_singleton.mp ho']
  exact ho

/-! ## Effects -/

/-- While a shutdown is under way effects wind down. -/
theorem winds_of_effect (hl : l.Sound p) (hf : l.context.shuttingDown = true)
    (h : Effect p l m) : l.Winds m where
  living := by
    intro id k hk ha
    unfold Supervisor.find? at hk
    -- A start would need the flag to be off; what remains marks a handle at most.
    rcases h.handles with hh | ⟨g, -, -, hoff, -⟩ | ⟨id', g, signal, hg, hga, hh⟩
    · rw [hh] at hk
      exact ⟨k, hk, ha, fun _ hsent => hsent⟩
    · rw [hf] at hoff
      cases hoff
    · rw [hh, Table.get?_insert] at hk
      split at hk
      · rename_i heq
        cases hk
        have hid : id.number = id'.number := by rw [heq, hl.supervisor _ g hg]
        refine ⟨g, ?_, hga, fun other hsent => ProcessHandle.wasSent_of_markSent hsent signal⟩
        show l.supervisor.handles.get? id.number = some g
        rw [hid]
        exact hg
      · exact ⟨k, hk, ha, fun _ hsent => hsent⟩
  timers := by
    intro id t ht
    rcases h.timers with hh | ⟨id', hh⟩ | ⟨t', hoff, -, -⟩
    · rw [hh] at ht
      exact ht
    · rw [hh] at ht
      exact Table.get?_of_get?_erase ht
    · rw [hf] at hoff
      cases hoff
  flag := h.grown.flag
  history := by
    rcases h.history with ⟨os, hos, hq⟩ | ⟨hoff, -⟩ | ⟨r, w, onExit, hs, -⟩
    · exact ⟨os, hos, fun o ho => (hq o ho).2⟩
    · rw [hf] at hoff
      cases hoff
    · have hoff := hs.flag
      rw [hf] at hoff
      cases hoff

theorem winds_of_effects (hl : l.Sound p) (hf : l.context.shuttingDown = true)
    (h : Effects p l m) : l.Winds m := by
  induction h with
  | refl => exact .refl l
  | tail hbefore hlast ih =>
      exact ih.trans (winds_of_effect (hl.effects hbefore) (ih.flag hf) hlast)

/-! ## Signals -/

theorem supervisor_report (l : Launch) (e : LaunchError) :
    (l.report e).supervisor = l.supervisor := by
  unfold report onFailure requestShutdown
  split
  · split <;> rfl
  · rfl

theorem supervisor_sendSignal (l : Launch) (signal : Signal) (id : ProcessId) :
    (l.sendSignal signal id).supervisor = (l.supervisor.send l.context.host id signal).2 := by
  unfold sendSignal
  split
  · rename_i h
    rw [h]
    rfl
  · rename_i h
    rw [h]
  · rename_i h
    rw [h]
    exact supervisor_report _ _

/-- Every living process was sent the signal. -/
def AllSent (l : Launch) (signal : Signal) : Prop :=
  ∀ id h, l.supervisor.find? id = some h → h.isAlive = true → h.wasSent signal = true

theorem AllSent.winds {signal : Signal} (hl : l.AllSent signal) (h : l.Winds m) :
    m.AllSent signal := by
  intro id k hk ha
  obtain ⟨g, hg, hga, hsent⟩ := h.living id k hk ha
  exact hsent signal (hl id g hg hga)

/-- A signal to every living process reaches all of them, delivered or not. -/
theorem allSent_signalLive (hl : l.Sound p) (hf : l.context.shuttingDown = true)
    (signal : Signal) : (l.signalLive signal).AllSent signal := by
  -- Those that are not on the rest of the list have been sent the signal.
  have hall : ∀ (ids : List ProcessId) (m : Launch), m.Sound p → m.context.shuttingDown = true →
      (∀ id h, m.supervisor.find? id = some h → h.isAlive = true →
        id ∈ ids ∨ h.wasSent signal = true) →
      (ids.foldl (fun m id => m.sendSignal signal id) m).AllSent signal := by
    intro ids
    induction ids with
    | nil =>
        intro m _ _ hids id h hh ha
        exact (hids id h hh ha).resolve_left List.not_mem_nil
    | cons next rest ih =>
        intro m hm hmf hids
        have hsend : Effects p m (m.sendSignal signal next) := sendSignal_effects signal next m
        have hwinds := winds_of_effects hm hmf hsend
        apply ih _ (hm.effects hsend) (hwinds.flag hmf)
        intro id h hh ha
        obtain ⟨g, hg, hga, hsent⟩ := hwinds.living id h hh ha
        rcases hids id g hg hga with hmem | hdone
        · rcases List.mem_cons.mp hmem with rfl | hmem
          · rw [supervisor_sendSignal] at hh
            exact .inr (hm.supervisor.wasSent_send hh ha)
          · exact .inl hmem
        · exact .inr (hsent signal hdone)
  refine hall _ l hl hf fun id h hh ha => .inl ?_
  exact hl.supervisor.mem_live.mpr ⟨h, hh, ha⟩

/-! ## Timers -/

theorem timers_cancelTimer (why : String) (id : Nat) (l : Launch) :
    (l.cancelTimer why id).timers = l.timers.erase id := by
  rcases cancelTimer_cases why id l with ⟨hnone, h⟩ | ⟨t, -, h⟩
  · rw [h]
    apply Table.ext_get?
    intro k
    rw [Table.get?_erase]
    split
    · rename_i heq
      rw [heq]
      exact hnone
    · rfl
  · rw [h]

/-- Timers that are taken away are not there any more, and nothing else is new. -/
theorem timers_cancelTimers {why : String} {ids : List Nat} {id : Nat} {t : Timer}
    (h : (l.cancelTimers why ids).timers.get? id = some t) :
    id ∉ ids ∧ l.timers.get? id = some t := by
  induction ids generalizing l with
  | nil => exact ⟨List.not_mem_nil, h⟩
  | cons next rest ih =>
      obtain ⟨hrest, hget⟩ := ih h
      rw [timers_cancelTimer, Table.get?_erase] at hget
      split at hget
      · cases hget
      · rename_i hne
        refine ⟨?_, hget⟩
        intro hmem
        rcases List.mem_cons.mp hmem with heq | hmem
        · exact hne heq
        · exact hrest hmem

/-! ## Moves -/

theorem winds_releaseProcess (l : Launch) (id : ProcessId) : l.Winds (l.releaseProcess id) := by
  rcases l.releaseProcess_cases id with ⟨-, h⟩ | ⟨g, -, -, h⟩
  · rw [h]
    exact winds_of_same [] rfl rfl rfl rfl (by simp)
  · rw [h]
    refine ⟨?_, fun _ _ ht => ht, fun hf => hf, [.released g], rfl, ?_⟩
    · intro i k hk ha
      exact ⟨k, Table.get?_of_get?_erase hk, ha, fun _ hsent => hsent⟩
    · simp [Occurrence.beginsWork]

/-- A notice of a process leaves at most a trace on a handle. -/
theorem winds_absorb (hl : l.Sound p) {n : Notice} {s : Supervisor}
    (hs : l.supervisor.absorb? n = some s) : l.Winds { l with supervisor := s } := by
  refine ⟨?_, fun _ _ ht => ht, fun hf => hf, [], rfl, by simp⟩
  intro id k hk ha
  have hupdate : ∀ g : ProcessHandle, l.supervisor.find? n.process = some g →
      ∀ g' : ProcessHandle, g'.id = g.id → s = l.supervisor.update g' →
        (id = n.process ∧ k = g') ∨ l.supervisor.find? id = some k := by
    intro g hg g' hid hu
    change s.find? id = some k at hk
    rw [hu, Supervisor.find?_update] at hk
    split at hk
    · rename_i heq
      cases hk
      rw [hid, hl.supervisor _ g hg] at heq
      left
      exact ⟨congrArg ProcessId.mk heq, rfl⟩
    · exact .inr hk
  rcases l.supervisor.absorb?_cases n with
      ⟨-, hnone⟩ | ⟨g, hg, ⟨_, status, _, -, hu⟩ | ⟨_, _, _, -, ⟨captured, hu⟩ | ⟨shown, hu⟩⟩⟩
  · rw [hs] at hnone
    cases hnone
  · rcases hupdate g hg { g with status := some status } rfl (Option.some.inj (hs.symm.trans hu))
      with ⟨-, rfl⟩ | hold
    · -- A process that has ended is not among the living.
      cases ha
    · exact ⟨k, hold, ha, fun _ hsent => hsent⟩
  · rcases hupdate g hg { g with captured } rfl (Option.some.inj (hs.symm.trans hu))
      with ⟨rfl, rfl⟩ | hold
    · exact ⟨g, hg, ha, fun signal hsent => by cases signal <;> exact hsent⟩
    · exact ⟨k, hold, ha, fun _ hsent => hsent⟩
  · obtain rfl : s = { l.supervisor with shown } := Option.some.inj (hs.symm.trans hu)
    exact ⟨k, hk, ha, fun _ hsent => hsent⟩

theorem winds_onNotice (hl : l.Sound p) (hf : l.context.shuttingDown = true) (n : Notice) :
    l.Winds (l.onNotice n) := by
  obtain ⟨s, rfl | hs, heffects⟩ := l.onNotice_effects n
  · exact winds_of_effects hl.any hf heffects
  · exact (winds_absorb hl hs).trans (winds_of_effects (hl.absorb hs).any hf heffects)

theorem winds_elapse (hl : l.Sound p) (hf : l.context.shuttingDown = true) (id : Nat)
    (t : Timer) : l.Winds (l.elapse id t) := by
  have htaken : l.Winds ({ l with timers := l.timers.erase id }.happen (.fired id)) := by
    refine ⟨fun _ k hk ha => ⟨k, hk, ha, fun _ hsent => hsent⟩,
      fun _ _ ht => Table.get?_of_get?_erase ht, fun hf => hf, [.fired id], rfl, ?_⟩
    simp [Occurrence.beginsWork]
  exact htaken.trans (winds_of_effects (hl.fired id).any hf (elapse_effects l id t))

/-- What is left is killed. -/
theorem killRemaining_winds (hl : l.Sound p) (hf : l.context.shuttingDown = true) :
    l.Winds l.killRemaining ∧ l.killRemaining.AllSent .kill := by
  have hforced := hl.forced
  have hsame : l.Winds { l with forced := true } :=
    winds_of_same [] rfl rfl rfl rfl (by simp)
  unfold killRemaining
  split
  · rename_i hempty
    refine ⟨.refl l, ?_⟩
    intro id h hh ha
    have hmem := hl.supervisor.mem_live.mpr ⟨h, hh, ha⟩
    rw [List.isEmpty_iff.mp hempty] at hmem
    cases hmem
  · exact ⟨hsame.trans (winds_of_effects hforced hf (signalLive_effects _ _)),
      allSent_signalLive hforced hf .kill⟩

end Launch

open Launch

variable {p : Deed → Prop} {l m : Launch}

/-- **A launch that has been asked to shut down only winds down.** -/
theorem Move.winds (hl : l.Sound p) (hf : l.context.shuttingDown = true) (h : Move p l m) :
    l.Winds m := by
  cases h with
  | effect h => exact winds_of_effect hl hf h
  | take e rest hp hc hs => exact winds_of_happen rfl rfl rfl rfl rfl
  | ignore e rest hp hc he hs => exact winds_of_happen rfl rfl rfl rfl rfl
  | answer e h writer as hc hfind hm hy has => exact winds_of_happen rfl rfl rfl rfl rfl
  | decline e h writer hc hfind hm hy =>
      exact winds_of_same [] rfl rfl rfl rfl (by simp)
  | resume cause as scope hcause has => exact winds_of_happen rfl rfl rfl rfl rfl
  | close e hc hs he => exact winds_of_happen rfl rfl rfl rfl rfl
  | release q status r hc hr =>
      have hclosed : l.Winds (l.closeTurn (.processExited q status)) :=
        winds_of_happen rfl rfl rfl rfl rfl
      exact hclosed.trans (winds_releaseProcess _ _)
  | shutdown reason due hc hb =>
      obtain ⟨deadline, heffects⟩ := beginShutdown_effects (p := p) hb
      have hsound := (hl.closeTurn (.shutdownRequested reason due)).withShutdown reason deadline
      have hbegun : l.Winds ((l.closeTurn (.shutdownRequested reason due)).withShutdown reason
          deadline) := by
        refine winds_of_same [.shutdownBegan reason, .turnEnded _] rfl rfl hf.symm rfl ?_
        simp [Occurrence.beginsWork]
      exact hbegun.trans (winds_of_effects hsound rfl heffects)
  | arrive a hc hp ha => exact winds_of_happen rfl rfl rfl rfl rfl
  | notice a n hc hp ha =>
      have harrive : l.Winds (l.arrive a) := winds_of_happen rfl rfl rfl rfl rfl
      exact harrive.trans (winds_onNotice (hl.arrive a) hf n)
  | elapse id t hc hp ht => exact winds_elapse hl hf id t
  | kill hc hp hs => exact (killRemaining_winds hl hf).1

theorem Moves.winds (hl : l.Sound p) (hf : l.context.shuttingDown = true) (h : Moves p l m) :
    l.Winds m := by
  induction h with
  | refl => exact .refl l
  | tail hbefore hlast ih => exact ih.trans (hlast.winds (hl.moves hbefore) (ih.flag hf))

end Conductor
