import Mathlib.Data.Set.Subsingleton
import Conductor.Proofs.Launch.Lineage

/-!
# A process that is started again has one successor at most

A process that asks to be started again has a successor, which may have one in turn, and so on.
The chain goes through the queue, the handlers of the end of the process, an activation at once or
a wait, and a condition that is asked again, and everything else a launch does may happen in
between. Still it never forks: at every moment one process of the chain is alive, or one wait goes
on, or the chain has ended (`Lineal.subsingleton_links`). What the end of a process leads to is
decided once, when its handlers have been asked (`Reachable.dispatch_exit`).
-/

namespace Conductor

variable {config : Config} {host : Host} {args : LaunchArguments} {description : List Action}
  {bs : List Beginning} {s s' : Phase} {b : Beginning} {l m n : Launch} {p : Deed → Prop}
  {r : RunningProcess}

/-! ## What a chain consists of -/

/-- What the launch still has of a process that it may start again: the process itself as long as
it is alive, then the wait before it is started again. -/
inductive Launch.Carries (l : Launch) (r : RunningProcess) : ProcessId ⊕ Nat → Prop where
  | living {h : ProcessHandle} (hf : l.supervisor.find? r.info.id = some h)
      (ha : h.isAlive = true) : Carries l r (.inl r.info.id)
  | waiting {id : Nat} {t t' : Timer} (hp : l.Postpones r id t)
      (ht : l.timers.get? id = some t') : Carries l r (.inr id)

/-- The living processes and the pending waits that come from a process, generation after
generation. -/
def Links (bs : List Beginning) (l : Launch) (r : RunningProcess) : Set (ProcessId ⊕ Nat) :=
  {i | ∃ r', Relation.ReflTransGen (Generation bs l) r r' ∧ l.Carries r' i}

/-- Every process was started by the description or by one of the bodies. -/
theorem Course.started_by (h : Course config host args description bs s l) {w : Option Nat}
    (hk : .kept r w ∈ l.history) :
    .kept r w ∈ (Launch.begin config host args description).history ∨
      ∃ b ∈ bs, ∃ k, BodyReaches b.actions b.opened r.action k ∧ k.Spawns r w := by
  induction h with
  | begin => exact .inl hk
  | @pass bs s t l m _ hp ih =>
      refine ih ?_
      rcases hp.steady_or with hm | ⟨q, status, r', delay, -, rfl⟩
      · exact hm.mem_kept hk
      · rcases List.mem_cons.mp hk with heq | hk
        · cases heq
        · exact (Launch.steady_givenUp _ q status).mem_kept hk
  | @body bs s t l b _ hb ih =>
      obtain ⟨os, hos, hleft⟩ := Launch.leaves_activateBody b
      rw [hos] at hk
      rcases List.mem_append.mp hk with hmem | hmem
      · exact .inr ⟨b, List.mem_cons_self, hleft _ hmem⟩
      · rcases List.mem_cons.mp hmem with heq | hold
        · cases heq
        · rcases ih (hb.steady.mem_kept hold) with hbegin | ⟨b', hb', hstart⟩
          · exact .inl hbegin
          · exact .inr ⟨b', List.mem_cons_of_mem b hb', hstart⟩

/-- How a launch has started a process again: by a body that has begun, given by its place, or by
a wait. -/
inductive Retry (bs : List Beginning) (l : Launch) (r : RunningProcess) : Nat ⊕ Nat → Prop where
  | now {k : Nat} {b : Beginning} (hb : bs[k]? = some b) (hc : b.cause = .respawn r.info.id) :
      Retry bs l r (.inl k)
  | later {id : Nat} {t : Timer} (hp : l.Postpones r id t) : Retry bs l r (.inr id)

/-- The relation of generations among the processes that were kept. -/
def Succeeds (bs : List Beginning) (l : Launch) (r r' : RunningProcess) : Prop :=
  (∃ w, .kept r w ∈ l.history) ∧ Generation bs l r r'

theorem succeeds_of_generation {r' : RunningProcess} {w : Option Nat} (hk : .kept r w ∈ l.history)
    (h : Relation.ReflTransGen (Generation bs l) r r') :
    Relation.ReflTransGen (Succeeds bs l) r r' := by
  have hboth : Relation.ReflTransGen (Succeeds bs l) r r' ∧ ∃ w, .kept r' w ∈ l.history := by
    induction h with
    | refl => exact ⟨.refl, w, hk⟩
    | tail _ hlast ih =>
        have hnext := hlast
        obtain ⟨b, -, -, w', k, hk', -⟩ := hlast
        exact ⟨ih.1.tail ⟨ih.2, hnext⟩, w', hk'⟩
  exact hboth.1

theorem Beginning.Restarts.cause_ne_handler (h : b.Restarts r) (hid : Nat) :
    b.cause ≠ .handler hid := by
  intro hc
  cases h with
  | now hc' =>
      rw [hc] at hc'
      cases hc'
  | later id t hc' hw =>
      rw [hc] at hc'
      cases hc'

namespace Lineal

variable {b' : Beginning} {r' r'' : RunningProcess} {w : Option Nat}

/-- A wait that had begun when a body began has begun. -/
theorem postpones (h : Lineal config host args description bs n) (hb : b ∈ bs) {id : Nat}
    {t : Timer} (hw : b.launch.Postpones r id t) : n.Postpones r id t := by
  obtain ⟨os, hos⟩ := h.begun b hb
  exact hw.mono hos.symm

/-- The end of a process that is started again has had its turn. -/
theorem settled_of_restarts (h : Lineal config host args description bs n) (hb : b ∈ bs)
    (hr : b.Restarts r) : n.endSettled r.info.id = true := by
  cases hr with
  | now hc => exact h.settled b hb _ hc
  | later id t hc hw => exact (h.waits r id t (h.postpones hb hw)).1

/-- Apart from handlers no two bodies are begun by the same cause. -/
theorem place_unique (h : Lineal config host args description bs n) {i j : Nat}
    (hi : bs[i]? = some b) (hj : bs[j]? = some b') (hc : b.cause = b'.cause)
    (hnot : ∀ hid, b.cause ≠ .handler hid) : i = j := by
  obtain ⟨hi', rfl⟩ := List.getElem?_eq_some_iff.mp hi
  obtain ⟨hj', rfl⟩ := List.getElem?_eq_some_iff.mp hj
  have happart := List.pairwise_iff_getElem.mp h.apart
  rcases Nat.lt_trichotomy i j with hlt | heq | hlt
  · obtain ⟨hid, hhid⟩ := happart i j hi' hj' hlt hc
    exact absurd hhid (hnot hid)
  · exact heq
  · obtain ⟨hid, hhid⟩ := happart j i hj' hi' hlt hc.symm
    exact absurd (hc.trans hhid) (hnot hid)

/-- Only one body starts a process again. -/
theorem eq_of_restarts (h : Lineal config host args description bs n) (hb : b ∈ bs) (hb' : b' ∈ bs)
    (hr : b.Restarts r) (hr' : b'.Restarts r) : b = b' := by
  have hcause : b.cause = b'.cause := by
    cases hr with
    | now hc =>
        cases hr' with
        | now hc' => rw [hc, hc']
        | later id t hc' hw => exact absurd hc ((h.waits r id t (h.postpones hb' hw)).2 b hb)
    | later id t hc hw =>
        cases hr' with
        | now hc' => exact absurd hc' ((h.waits r id t (h.postpones hb hw)).2 b' hb')
        | later id' t' hc' hw' =>
            rw [hc, hc', h.alone r r id id' t t' (h.postpones hb hw) (h.postpones hb' hw') rfl]
  obtain ⟨i, hi⟩ := List.getElem?_of_mem hb
  obtain ⟨j, hj⟩ := List.getElem?_of_mem hb'
  obtain rfl := h.place_unique hi hj hcause hr.cause_ne_handler
  exact Option.some.inj (hi.symm.trans hj)

/-- A process that has been started again is neither alive nor waiting. -/
theorem not_carries_of_restarts (h : Lineal config host args description bs n) (hb : b ∈ bs)
    (hr : b.Restarts r) (i : ProcessId ⊕ Nat) : ¬ n.Carries r i := by
  intro hi
  cases hi with
  | living hf ha =>
      rw [Launch.not_isAlive_of_endSettled h.moves (h.settled_of_restarts hb hr) hf] at ha
      cases ha
  | @waiting id t t' hw ht =>
      cases hr with
      | now hc => exact (h.waits r id t hw).2 b hb hc
      | later id' t'' hc hw' =>
          rw [h.alone r r id id' t t'' hw (h.postpones hb hw') rfl] at ht
          rw [(h.spent b hb id' hc).gone] at ht
          cases ht

/-- A process is alive or waits once. -/
theorem carries_unique (h : Lineal config host args description bs n) {i j : ProcessId ⊕ Nat}
    (hi : n.Carries r i) (hj : n.Carries r j) : i = j := by
  have hdead : ∀ {id : Nat} {t : Timer} {g : ProcessHandle}, n.Postpones r id t →
      n.supervisor.find? r.info.id = some g → g.isAlive = false := fun hw hf =>
    Launch.not_isAlive_of_endSettled h.moves (h.waits r _ _ hw).1 hf
  cases hi with
  | living hf ha =>
      cases hj with
      | living hf' ha' => rfl
      | waiting hw ht =>
          rw [hdead hw hf] at ha
          cases ha
  | waiting hw ht =>
      cases hj with
      | living hf ha =>
          rw [hdead hw hf] at ha
          cases ha
      | waiting hw' ht' => rw [h.alone r r _ _ _ _ hw hw' rfl]

/-- **A process has one successor at most.** -/
theorem generation_unique (h : Lineal config host args description bs n)
    (hk : .kept r w ∈ n.history) (hg : Generation bs n r r') (hg' : Generation bs n r r'') :
    r' = r'' := by
  obtain ⟨b, hb, hr, w', k', hk', hreach', hspawns'⟩ := hg
  obtain ⟨b', hb', hr', w'', k'', hk'', hreach'', hspawns''⟩ := hg'
  obtain rfl := h.eq_of_restarts hb hb' hr hr'
  obtain ⟨earlier, s, l, t, hcourse, hbegins⟩ := h.origin b hb
  obtain ⟨hactions, -⟩ := hcourse.restart_body hbegins h.moves
    (fun _ _ hkept => (h.begun b hb).subset hkept) hk hr
  obtain ⟨template, onExit, hd, -⟩ := (Launch.following_of_moves h.moves).1.kept r w hk
  have hleaf : r.action.deed.isLeaf = true := by
    rw [hd]
    rfl
  rw [hactions] at hreach' hreach''
  -- Both processes are started where the one action of the body is performed.
  have hone' : b.opened.Admits r.action k' := (hreach'.admits_of_isLeaf hleaf).2
  have hone'' : b.opened.Admits r.action k'' := (hreach''.admits_of_isLeaf hleaf).2
  obtain rfl : k' = k'' := congrArg Prod.fst (hone'.symm.trans hone'')
  exact (Launch.kept_unique h.moves hk' hk'' (hspawns'.number.trans hspawns''.number.symm)).1

theorem succeeds_unique (h : Lineal config host args description bs n) :
    Relator.RightUnique (Succeeds bs n) := by
  rintro x y z ⟨⟨w, hx⟩, hy⟩ ⟨-, hz⟩
  exact h.generation_unique hx hy hz

/-- A process that is alive or waits is the last one of its chain. -/
theorem eq_of_carries (h : Lineal config host args description bs n) {i : ProcessId ⊕ Nat}
    (hlater : Relation.ReflTransGen (Succeeds bs n) r r') (hi : n.Carries r i) : r = r' := by
  rcases Relation.ReflTransGen.cases_head hlater with heq | ⟨x, ⟨-, b, hb, hr, -⟩, -⟩
  · exact heq
  · exact absurd hi (h.not_carries_of_restarts hb hr i)

/-- **At most one process of a chain is alive or waits.** -/
theorem subsingleton_links (h : Lineal config host args description bs n)
    (hk : .kept r w ∈ n.history) : (Links bs n r).Subsingleton := by
  rintro i ⟨x, hx, hi⟩ j ⟨y, hy, hj⟩
  -- Of two processes of the chain one comes from the other.
  obtain rfl : x = y := by
    rcases Relation.ReflTransGen.total_of_right_unique h.succeeds_unique
      (succeeds_of_generation hk hx) (succeeds_of_generation hk hy) with hxy | hyx
    · exact h.eq_of_carries hxy hi
    · exact (h.eq_of_carries hyx hj).symm
  exact h.carries_unique hi hj

/-- **A process is started again once, at once or after one wait.** -/
theorem subsingleton_retry (h : Lineal config host args description bs n) :
    {i | Retry bs n r i}.Subsingleton := by
  rintro i hi j hj
  cases hi with
  | @now k b hb hc =>
      cases hj with
      | @now k' b' hb' hc' =>
          refine congrArg Sum.inl (h.place_unique hb hb' (hc.trans hc'.symm) fun hid hhid => ?_)
          rw [hc] at hhid
          cases hhid
      | later hw => exact absurd hc ((h.waits r _ _ hw).2 b (List.mem_of_getElem? hb))
  | later hw =>
      cases hj with
      | @now k b hb hc => exact absurd hc ((h.waits r _ _ hw).2 b (List.mem_of_getElem? hb))
      | later hw' => rw [h.alone r r _ _ _ _ hw hw' rfl]

end Lineal

/-! ## What the end of a process leads to -/

/-- A launch that has given up a process, which was started by the template, comes to the second
launch by starting it again or by leaving that. -/
structure Launch.StartsAgain (k : Launch) (r : RunningProcess) (t : ProcessTemplate) (m : Launch) :
    Prop where
  /-- Nothing happens once a shutdown has been asked for. -/
  halted : k.context.shuttingDown = true → m = k
  /-- Nor does it if the process is not to be started again. -/
  unasked : t.respawn = none → m = k
  /-- Without a delay the action is activated once. -/
  now : ∀ seconds, k.context.shuttingDown = false → t.respawn = some seconds →
    ((Duration.ofSeconds? seconds).getD .zero).isZero = true →
    m = activateBody (.respawn r.info.id) [r.action] (some r.scope) k
  /-- Otherwise one timer is scheduled for it, which is the wait of the process. -/
  later : ∀ seconds, k.context.shuttingDown = false → t.respawn = some seconds →
    ((Duration.ofSeconds? seconds).getD .zero).isZero = false →
    m = k.schedule ((Duration.ofSeconds? seconds).getD .zero) [r.action] r.scope none true ∧
      ∃ timer, m.timers.get? k.nextTimer = some timer ∧ m.Postpones r k.nextTimer timer

namespace Launch

/-- A timer that is scheduled for a process right after it has been given up is its wait. -/
theorem postpones_schedule (l : Launch) (r : RunningProcess) (status : ExitStatus)
    (delay : Duration) :
    ∃ timer, ((l.givenUp r.info status).schedule delay [r.action] r.scope none true).timers.get?
        (l.givenUp r.info status).nextTimer = some timer ∧
      ((l.givenUp r.info status).schedule delay [r.action] r.scope none true).Postpones r
        (l.givenUp r.info status).nextTimer timer := by
  obtain ⟨freed, hh, hfreed⟩ := l.history_givenUp r.info status
  generalize l.givenUp r.info status = k at hh
  have hscheduled : (k.schedule delay [r.action] r.scope none true).history =
      [] ++ .scheduled k.nextTimer
        ⟨none, [r.action], r.scope, true, ⟨k.now.nanos + delay.nanos⟩⟩ :: k.history := rfl
  rw [hh] at hscheduled
  refine ⟨_, ?_, rfl, rfl, rfl, [], freed, l.history, r.info, status, hscheduled, rfl, hfreed⟩
  exact (Table.get?_insert _ _ _ _).trans (if_pos rfl)

/-- A process that has been given up is started again as its template says. -/
theorem startsAgain_respawn {t : ProcessTemplate} {onExit : List Action} {status : ExitStatus}
    (hd : r.action.deed = .execute t onExit) :
    (l.givenUp r.info status).StartsAgain r t ((l.givenUp r.info status).respawn r) := by
  have hdelay : (l.givenUp r.info status).respawnDelay? r =
      if (l.givenUp r.info status).context.shuttingDown then none
      else t.respawn.map fun seconds => (Duration.ofSeconds? seconds).getD .zero := by
    unfold respawnDelay?
    rw [hd]
  constructor
  case halted =>
    intro hf
    rw [if_pos hf] at hdelay
    rw [respawn_eq, hdelay]
  case unasked =>
    intro hnone
    rw [hnone, Option.map_none, ite_self] at hdelay
    rw [respawn_eq, hdelay]
  case now =>
    intro seconds hf hseconds hz
    rw [hf, hseconds] at hdelay
    exact respawn_of_isZero hdelay hz
  case later =>
    intro seconds hf hseconds hz
    rw [hf, hseconds] at hdelay
    rw [respawn_of_not_isZero hdelay hz]
    exact ⟨rfl, l.postpones_schedule r status _⟩

end Launch

/-- When the end of a process is on its way, the process is kept. -/
theorem Launch.entry_of_end (h : Moves Deed.ReportsNoEnd (start config host args) l)
    {q : ProcessInfo} {status : ExitStatus}
    (he : .processExited q status ∈ l.endsInFlight q.id) :
    ∃ r, l.processes.get? q.id.number = some r ∧ r.info = q := by
  rcases (life_honest h q.id).inFlight with hnil | ⟨r, status', hr, hq, -⟩
  · have hnone : l.endsInFlight q.id = [] := hnil
    rw [hnone] at he
    cases he
  · have hone : l.endsInFlight q.id = [.processExited r.info status'] := hq
    rw [hone] at he
    cases List.mem_singleton.mp he
    exact ⟨r, hr, rfl⟩

theorem Launch.suffix_answerAll (e : Event) (l : Launch) :
    l.history <:+ (answerAll e 0 (l.openTurn e).1 (l.openTurn e).2).history := by
  obtain ⟨os, hos, -⟩ := (sameTurn_answerAll e 0 (l.openTurn e).1 (l.openTurn e).2).history
  exact ⟨os, hos.symm⟩

/-- **The dispatch of the end of a process**: the process is kept until all handlers have been
asked, and what follows depends on the launch after that. -/
theorem Reachable.dispatch_exit (hall : ∀ a ∈ description, a.Every Deed.ReportsNoEnd)
    (h : Reachable config host args description (.waiting l)) {q : ProcessInfo}
    {status : ExitStatus} {rest : List Event}
    (hp : l.context.pending = .processExited q status :: rest) :
    ∃ r w t onExit m, .kept r w ∈ l.history ∧ r.info = q ∧
      r.action.deed = .execute t onExit ∧
      (l.withoutNext rest).dispatch (.processExited q status) = .ok m ∧
      ((((l.withoutNext rest).happen (.dispatched (.processExited q status))).turn
        (.processExited q status)).releaseProcess q.id).StartsAgain r t m := by
  obtain ⟨hmoves, -⟩ := h.moves hall
  obtain ⟨bs, hcourse⟩ := h.course
  have hflight : .processExited q status ∈ l.endsInFlight q.id := by
    refine List.mem_filter.mpr ⟨List.mem_append_right _ ?_, decide_eq_true rfl⟩
    rw [hp]
    exact List.mem_cons_self
  obtain ⟨r, hr, rfl⟩ := Launch.entry_of_end hmoves hflight
  obtain ⟨-, w, hk⟩ := hcourse.exists_kept hr
  obtain ⟨t, onExit, hd, -⟩ := (Launch.following_of_moves hmoves).1.kept r w hk
  -- Its end is still on its way when all handlers have been asked.
  have htake := hcourse.pass (.take hp fun he => nomatch he)
  obtain ⟨bs', writer, hasked⟩ := htake.answerAll
  have hleads := hasked.leadsTo hall
  have hturn : .processExited r.info status ∈ Launch.endsInFlight _ r.info.id :=
    Launch.mem_endsInFlight hleads.fits.1 (decide_eq_true rfl)
  obtain ⟨r', hr', hinfo⟩ := Launch.entry_of_end hleads.strides.moves hturn
  obtain ⟨-, w', hk'⟩ := hasked.exists_kept hr'
  have hlater := (Launch.suffix_answerAll (.processExited r.info status)
    ((l.withoutNext rest).happen (.dispatched (.processExited r.info status)))).subset
    (List.mem_cons_of_mem (.dispatched (.processExited r.info status)) hk)
  obtain ⟨rfl, -⟩ := Launch.kept_unique hleads.strides.moves hk' hlater (by rw [hinfo])
  exact ⟨r', w, t, onExit, _, hk, rfl, hd, Launch.afterTurn_processExited hr',
    Launch.startsAgain_respawn hd⟩

/-- **Chains of processes that are started again stay linear.** At every moment, with the bodies
that have begun until then, at most one process is alive or waits among those that come from a
process, generation after generation, and each of them is started again once, by one body or after
one wait. When the end of a process is dispatched, the process is given up after the turn of its
handlers, and then its action is activated once or one timer is scheduled for it, but neither if
a shutdown has been asked for by then. -/
theorem respawn_chains_stay_linear (hall : ∀ a ∈ description, a.Every Deed.ReportsNoEnd) :
    (∀ x, Reachable config host args description x →
      ∃ bs, Moment config host args description bs x.launch) ∧
    (∀ bs n, Moment config host args description bs n →
      bs.map (·.occurrence) = n.history.filter (·.isBeginning) ∧
      ∀ r w, .kept r w ∈ n.history →
        (Links bs n r).Subsingleton ∧ {i | Retry bs n r i}.Subsingleton) ∧
    ∀ l q status rest, Reachable config host args description (.waiting l) →
      l.context.pending = .processExited q status :: rest →
      ∃ r w t onExit m, .kept r w ∈ l.history ∧ r.info = q ∧
        r.action.deed = .execute t onExit ∧
        (l.withoutNext rest).dispatch (.processExited q status) = .ok m ∧
        ((((l.withoutNext rest).happen (.dispatched (.processExited q status))).turn
          (.processExited q status)).releaseProcess q.id).StartsAgain r t m := by
  refine ⟨fun x hx => ?_, fun bs n hn => ⟨hn.map_occurrence, fun r w hk => ?_⟩,
    fun l q status rest hl hp => hl.dispatch_exit hall hp⟩
  · obtain ⟨bs, hcourse⟩ := hx.course
    exact ⟨bs, .between hcourse .refl (Launch.leaves_of_same rfl)⟩
  · have hlineal := hn.lineal hall
    exact ⟨hlineal.subsingleton_links hk, hlineal.subsingleton_retry⟩

/-- Whether the occurrence says that the process was kept. -/
def Occurrence.keeps (id : ProcessId) : Occurrence → Bool
  | .kept r _ => r.info.id = id
  | _ => false

theorem Occurrence.eq_of_keeps {id : ProcessId} {o : Occurrence} (h : o.keeps id = true) :
    ∃ r w, o = .kept r w ∧ r.info.id = id := by
  cases o with
  | kept r w => exact ⟨r, w, rfl, of_decide_eq_true h⟩
  | _ => cases h

/-- Whether the first process was started again, no other body has begun, and the second process
is alive alone. -/
def Standing.hasSucceededFirst (s : Standing) : Bool :=
  s.launch.history.any (·.keeps ⟨1⟩) && s.launch.history.any (·.keeps ⟨2⟩) &&
    s.launch.history.all (fun | .began cause _ _ => cause = .respawn ⟨1⟩ | _ => true) &&
    s.launch.supervisor.live == [⟨2⟩]

/-- The worker that is started again is followed by its successor alone. -/
theorem worker_succeeds_itself :
    ∃ s bs r w, Reachable .standard .willing [] steadyWorker s ∧
      Moment .standard .willing [] steadyWorker bs s.launch ∧ .kept r w ∈ s.launch.history ∧
      r.info.id = ⟨1⟩ ∧ Links bs s.launch r = {.inl ⟨2⟩} := by
  have hall : ∀ a ∈ steadyWorker, a.Every Deed.ReportsNoEnd := by
    simp [steadyWorker, Action.Every, Deed.Every, Deed.ReportsNoEnd]
  have hrun : Reachable.comesTo Standing.hasSucceededFirst ((Launch.begin .standard .willing []
      steadyWorker).run 9
      [⟨.zero, .willing, .notice (.exited ⟨1⟩ ⟨some 0, none⟩ none)⟩]) = true := by decide +kernel
  obtain ⟨s, hs, hcheck⟩ := Reachable.exists_of_comesTo 9 _ hrun
  simp only [Standing.hasSucceededFirst, Bool.and_eq_true, beq_iff_eq] at hcheck
  obtain ⟨⟨⟨hfirst, hsecond⟩, hbegan⟩, hlive⟩ := hcheck
  obtain ⟨bs, hcourse⟩ := hs.course
  have hmoment : Moment .standard .willing [] steadyWorker bs s.launch :=
    .between hcourse .refl (Launch.leaves_of_same rfl)
  obtain ⟨-, hlinear, -⟩ := @respawn_chains_stay_linear .standard .willing [] steadyWorker hall
  obtain ⟨hmap, hchains⟩ := hlinear bs s.launch hmoment
  obtain ⟨o₁, hk₁, ho₁⟩ := List.any_eq_true.mp hfirst
  obtain ⟨r₁, w₁, rfl, hid₁⟩ := Occurrence.eq_of_keeps ho₁
  obtain ⟨o₂, hk₂, ho₂⟩ := List.any_eq_true.mp hsecond
  obtain ⟨r₂, w₂, rfl, hid₂⟩ := Occurrence.eq_of_keeps ho₂
  have hlater : .kept r₂ w₂ ∉ (Launch.begin .standard .willing [] steadyWorker).history := by
    intro hmem
    have hnone : (Launch.begin .standard .willing [] steadyWorker).history.any (·.keeps ⟨2⟩) =
        false := by decide +kernel
    rw [List.any_eq_false] at hnone
    exact hnone _ hmem ho₂
  obtain ⟨b, hb, k, hreach, hspawns⟩ := (hcourse.started_by hk₂).resolve_left hlater
  have hcause : b.cause = .respawn r₁.info.id := by
    have hmem : b.occurrence ∈ s.launch.history.filter (·.isBeginning) := by
      rw [← hmap]
      exact List.mem_map.mpr ⟨b, hb, rfl⟩
    rw [hid₁]
    exact of_decide_eq_true (List.all_eq_true.mp hbegan _ (List.mem_filter.mp hmem).1)
  obtain ⟨handle, hf, ha⟩ := hs.keyed.mem_live.mp (hlive ▸ List.mem_singleton.mpr rfl)
  have hlink : .inl ⟨2⟩ ∈ Links bs s.launch r₁ := by
    rw [← hid₂] at hf ⊢
    exact ⟨r₂, .single ⟨b, hb, .now hcause, w₂, k, hk₂, hreach, hspawns⟩, .living hf ha⟩
  exact ⟨s, bs, r₁, w₁, hs, hmoment, hk₁, hid₁, (hchains r₁ w₁ hk₁).1.eq_singleton_of_mem hlink⟩

end Conductor
