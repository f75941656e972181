import Conductor.Proofs.Launch.Bodies
import Conductor.Proofs.Launch.Chronicle
import Conductor.Proofs.Launch.Follow

/-!
# The list that follows the end of a process is activated exactly once

`Following` leaves two states for the list, and what remains is to say when it passes from one
to the other. It cannot have followed before the end was seen (`endSeen_of_began`), and it does
not wait any more when a turn of the end is over, since the turn asks every handler that matches
(`gone_of_settled`). Between two messages that decides the matter.
-/

namespace Conductor

namespace Occurrence

/-- Whether the body of the handler begins. -/
def beginsBodyOf (hid : Nat) : Occurrence → Bool
  | .began (.handler i) _ _ => i = hid
  | _ => false

theorem eq_of_beginsBodyOf {hid : Nat} {o : Occurrence} (h : o.beginsBodyOf hid = true) :
    ∃ as scope, o = .began (.handler hid) as scope := by
  cases o with
  | began cause as scope =>
      cases cause with
      | handler i =>
          obtain rfl : i = hid := of_decide_eq_true h
          exact ⟨as, scope, rfl⟩
      | _ => cases h
  | _ => cases h

end Occurrence

/-- How often the body of a handler has begun. -/
def Launch.activations (l : Launch) (hid : Nat) : Nat :=
  l.history.countP (Occurrence.beginsBodyOf hid)

/-- Something happened in the turn of an event: after the event was dispatched, and before the
turn ended or another event was. -/
def Launch.HappenedInTurn (l : Launch) (o : Occurrence) (e : Event) : Prop :=
  ∃ newer between older, l.history = newer ++ o :: (between ++ .dispatched e :: older) ∧
    ∀ o ∈ between, o.marksTurn = false

variable {l m : Launch} {config : Config} {host : Host} {args : LaunchArguments}
  {description : List Action} {s : Standing} {r : RunningProcess} {onExit : List Action}

namespace Launch

theorem countP_eq_zero {hid : Nat} {os : List Occurrence}
    (h : ∀ as scope, .began (.handler hid) as scope ∉ os) :
    os.countP (Occurrence.beginsBodyOf hid) = 0 := by
  apply List.countP_eq_zero.mpr
  intro o ho hb
  obtain ⟨as, scope, rfl⟩ := Occurrence.eq_of_beginsBodyOf hb
  exact h as scope ho

theorem Awaits.activations {hid : Nat} (h : l.Awaits r hid onExit) : l.activations hid = 0 :=
  countP_eq_zero h.silent

theorem Followed.activations {hid : Nat} (h : l.Followed r hid onExit) :
    l.activations hid = 1 := by
  obtain ⟨newer, between, older, status, hh, -, hn⟩ := h.once
  have hzero := countP_eq_zero hn
  rw [List.countP_append, List.countP_append] at hzero
  have hself : Occurrence.beginsBodyOf hid (.began (.handler hid) onExit (some r.scope)) = true :=
    decide_eq_true rfl
  have hnot : Occurrence.beginsBodyOf hid (.dispatched (.processExited r.info status)) ≠ true := by
    intro h
    cases h
  unfold Launch.activations
  rw [hh, List.countP_append, List.countP_cons_of_pos hself, List.countP_append,
    List.countP_cons_of_neg hnot]
  omega

/-- Only the list itself has begun under its number, under the bindings of the start and in the
turn of the end of its process. -/
theorem Followed.of_began {hid : Nat} (h : l.Followed r hid onExit) {as : List Action}
    {scope : Option Scope} (hb : .began (.handler hid) as scope ∈ l.history) :
    as = onExit ∧ scope = some r.scope ∧ ∃ status,
      l.HappenedInTurn (.began (.handler hid) as scope) (.processExited r.info status) := by
  obtain ⟨newer, between, older, status, hh, hturn, hnot⟩ := h.once
  have hone := hnot as scope
  rw [hh] at hb
  simp only [List.mem_append, List.mem_cons, reduceCtorEq, false_or, not_or] at hb hone
  rcases hb with hb | heq | hb | hb
  · exact absurd hb hone.1.1
  · cases heq
    exact ⟨rfl, rfl, status, newer, between, older, hh, hturn⟩
  · exact absurd hb hone.1.2
  · exact absurd hb hone.2

/-- **A list has not followed before the end of its process was seen.** -/
theorem endSeen_of_began (h : Moves Deed.ReportsNoEnd (start config host args) l) {hid : Nat}
    (hk : .kept r (some hid) ∈ l.history) {as : List Action} {scope : Option Scope}
    (hb : .began (.handler hid) as scope ∈ l.history) : l.endSeen r.info.id = true := by
  induction h with
  | refl => cases hk
  | @tail l m hbefore hlast ih =>
      have hsound := (sound_start config host args).moves hbefore
      obtain ⟨hfollowing, -⟩ := following_of_moves hbefore
      rcases hlast.history.kept hk with hk | ⟨onExit, hs⟩
      · have hlife := life_sound hbefore r.info.id
        have hstarted := hlife.started_of_kept (mem_life_kept.mpr hk)
        obtain ⟨-, hremember⟩ := hlife.remembers_steps hstarted (hlast.life hsound r.info.id)
        rcases hlast.history.began hb with hb | ⟨e, h, hc, hf, hm, rfl⟩
        · exact hremember (ih hk hb)
        · -- The list answers now, so the event is the end of its process, which was seen.
          obtain ⟨t, onExit, -, ⟨-, hw⟩ | ⟨hid, hw, -, -, hwait | hdone⟩⟩ :=
            hfollowing.kept r _ hk
          · cases hw
          · cases hw
            obtain ⟨-, q, status, rfl, hq⟩ := eq_of_answers hsound.registry hf hm hwait.entry
            exact hremember (end_of_kept hbefore hk (mem_endsInFlight hc (decide_eq_true hq))).1
          · cases hw
            exact absurd (mem_ids_of_find? hf) hdone.gone
      · -- The process has just been started: no handler of the number can have begun.
        rcases hs.registry with ⟨-, hw, -⟩ | ⟨-, hw, -⟩
        · cases hw
        · cases hw
          rcases hlast.history.began hb with hb | ⟨e, h, -, hf, -, hid⟩
          · exact absurd (hfollowing.began _ as scope hb) (Nat.lt_irrefl _)
          · have hlt := hsound.registry.below h.id (mem_ids_of_find? hf)
            rw [hid] at hlt
            exact absurd hlt (Nat.lt_irrefl _)

/-! ## A turn of the end leaves no list behind -/

theorem mem_of_mem_takeWhile_append {α : Type} {q : α → Bool} {a : α} {xs ys : List α}
    (h : a ∈ (xs ++ ys).takeWhile q) : a ∈ xs ∨ a ∈ ys.takeWhile q := by
  induction xs with
  | nil => exact .inr h
  | cons x rest ih =>
      rw [List.cons_append, List.takeWhile_cons] at h
      split at h
      · rcases List.mem_cons.mp h with rfl | h
        · exact .inl List.mem_cons_self
        · exact (ih h).imp (List.mem_cons_of_mem x) id
      · cases h

/-- A turn of the end that is over was over before, or has ended since. -/
theorem endSettled_of_append {id : ProcessId} {os : List Occurrence}
    (hh : m.history = os ++ l.history) (h : m.endSettled id = true) :
    (∃ e, .turnEnded e ∈ os ∧ e.isEndOf id = true) ∨ l.endSettled id = true := by
  obtain ⟨o, ho, hend⟩ := List.any_eq_true.mp h
  unfold since at ho
  rw [hh] at ho
  rcases mem_of_mem_takeWhile_append ho with ho | ho
  · left
    cases o with
    | turnEnded e => exact ⟨e, ho, hend⟩
    | _ => cases hend
  · exact .inr (List.any_eq_true.mpr ⟨o, ho, hend⟩)

/-- A list that waits is gone after the turn of the end of its process. -/
theorem Awaits.gone_of_dispatch {hid : Nat} {e : Event} (hl : l.registry.Sound)
    (hwait : l.Awaits r hid onExit) (he : e.isEndOf r.info.id = true) (h : l.dispatch e = .ok m) :
    hid ∉ m.registry.ids := by
  have hlt : hid < l.registry.nextId :=
    hl.below hid (Registry.mem_ids.mpr ⟨_, hwait.entry, rfl⟩)
  rcases dispatch_cases h with ⟨hreq, -, -⟩ | ⟨-, hend⟩
  · cases e with
    | processExited => cases hreq
    | _ => cases he
  · have hmatches : (Handler.observe (.onExitOf r.info.id onExit r.scope) e).1 = true := by
      rw [Handler.observe_onExitOf]
      cases e with
      | processExited q status => exact he
      | _ => cases he
    have hasked : hid ∈ ((l.happen (.dispatched e)).openTurn e).1 :=
      Registry.mem_matching (h := ⟨hid, _⟩) hwait.entry hmatches
    have honce : ∀ h ∈ ((l.happen (.dispatched e)).openTurn e).2.registry.entries, h.id = hid →
        h.handler.once = true := by
      intro h hmem heq
      obtain ⟨g, hg, rfl⟩ := List.mem_map.mp hmem
      have hsame := (hl.find?_of_mem hg).symm.trans
        ((congrArg l.registry.find? heq).trans (hl.find?_of_mem hwait.entry))
      rw [Handler.once_observe, Option.some.inj hsame]
      rfl
    have hopen : hid < ((l.happen (.dispatched e)).openTurn e).2.registry.nextId := hlt
    have hgone := not_mem_ids_answerAll e hasked hopen honce 0
    have hafter := (sameTurn_afterTurn hend).registry
    have hturn := sameTurn_answerAll e 0 ((l.happen (.dispatched e)).openTurn e).1
      ((l.happen (.dispatched e)).openTurn e).2
    exact hafter.not_mem_ids (Nat.lt_of_lt_of_le hopen hturn.registry.nextId) hgone

/-- A process whose end is on its way, or has had a turn, was kept before. -/
theorem kept_of_end (h : Moves Deed.ReportsNoEnd (start config host args) l) {id : ProcessId}
    (he : l.endsInFlight id ≠ [] ∨ l.endSettled id = true) :
    ∃ r w, .kept r w ∈ l.history ∧ r.info.id = id := by
  have hlife := life_sound h id
  have hhonest := life_honest h id
  have hstarted : (l.life id).started = true := by
    rcases he with hq | hset
    · rcases hhonest.inFlight with hnil | ⟨r, _, hr, -⟩
      · exact absurd hnil hq
      · exact hlife.started_of_entry hr
    · exact hhonest.begun hset
  obtain ⟨r, w, hkept, hid⟩ := hlife.kept hstarted
  subst hid
  exact ⟨r, w, mem_life_kept.mp (by rw [hkept]; exact List.mem_singleton.mpr rfl), rfl⟩

end Launch

/-! ## Whole runs -/

/-- Nothing waits any more when a run has ended. -/
theorem Reachable.pending_of_ended (h : Reachable config host args description (.ended l)) :
    l.context.pending = [] := by
  rcases h.ended_cases with ⟨-, hi⟩ | ⟨n, a, -, hp, hf, rfl⟩
  · unfold Launch.isIdle at hi
    simp only [Bool.and_eq_true, List.isEmpty_iff] at hi
    exact hi.1.1
  · rcases Launch.killRemaining_effects (p := fun _ => False) (n.arrive a) with hk | hk
    · rw [hk]
      exact hp
    · exact (hk.pending_of_shuttingDown hf).trans hp

/-- **When an end of a process has had its turn, the list that follows it is gone.** -/
theorem Reachable.gone_of_settled (hall : ∀ a ∈ description, a.Every Deed.ReportsNoEnd)
    (h : Reachable config host args description s) {hid : Nat}
    (hk : .kept r (some hid) ∈ s.launch.history) (hs : s.launch.endSettled r.info.id = true) :
    hid ∉ s.launch.registry.ids := by
  induction h with
  | begin =>
      -- No event has had its turn yet.
      have hbegin : Effects Deed.ReportsNoEnd _ _ :=
        Launch.activateAll_effects hall (.start config host args)
      obtain ⟨os, hos, hq⟩ := hbegin.grown.history
      rcases Launch.endSettled_of_append hos hs with ⟨e, he, -⟩ | hsettled
      · cases hq _ he
      · cases hsettled
  | @dispatch l m e rest hl hp hd ih =>
      obtain ⟨hmoves, hc⟩ := hl.moves hall
      obtain ⟨hmoves', -⟩ := (hl.dispatch hp hd).moves hall
      have hsound := (Launch.sound_start config host args).moves hmoves
      obtain ⟨hfollowing, -⟩ := Launch.following_of_moves hmoves
      have hquiet : (l.withoutNext rest).context.current = none := hc
      obtain ⟨-, hgone, os, hos, hq⟩ := Launch.dispatch_frame hquiet hd
      have hend : e.isEndOf r.info.id = true ∨ l.endSettled r.info.id = true := by
        rcases Launch.endSettled_of_append hos hs with ⟨e', he', hid⟩ | hsettled
        · rw [hq e' he'] at hid
          exact .inl hid
        · exact .inr hsettled
      have hbefore : .kept r (some hid) ∈ l.history := by
        have hflight : e.isEndOf r.info.id = true → l.endsInFlight r.info.id ≠ [] := by
          intro he hnil
          have hmem : e ∈ l.endsInFlight r.info.id :=
            List.mem_filter.mpr ⟨List.mem_append_right _ (hp ▸ List.mem_cons_self), he⟩
          rw [hnil] at hmem
          cases hmem
        obtain ⟨r', w', hk', hid⟩ := Launch.kept_of_end hmoves (hend.imp_left hflight)
        have hlater : .kept r' w' ∈ m.history := by
          rw [hos]
          exact List.mem_append_right _ hk'
        obtain ⟨rfl, rfl⟩ := Launch.kept_unique hmoves' hlater hk hid
        exact hk'
      obtain ⟨t, onExit, -, ⟨-, hw⟩ | ⟨hid', hw, -, hlt, hstate⟩⟩ :=
        hfollowing.kept r _ hbefore
      · cases hw
      · cases hw
        rcases hend with he | hsettled
        · rcases hstate with hwait | hdone
          -- The turn of this end asks the list, whoever else it asks before.
          · have hwait' : (l.withoutNext rest).Awaits r hid onExit := ⟨hwait.entry, hwait.silent⟩
            have hregistry : (l.withoutNext rest).registry.Sound := hsound.registry
            exact hwait'.gone_of_dispatch hregistry he hd
          · exact hgone hid hlt hdone.gone
        · exact hgone hid hlt (ih hbefore hsettled)
  | idle hl hi ih => exact ih hk hs
  | @receive l a hl hp hi ih =>
      obtain ⟨hmoves, hc⟩ := hl.moves hall
      obtain ⟨hmoves', -⟩ := (hl.receive a hp hi).moves hall
      obtain ⟨hfollowing, -⟩ := Launch.following_of_moves hmoves
      have hturn := Launch.sameTurn_receive l a
      obtain ⟨os, hos, hq⟩ := hturn.history
      have hsettled : l.endSettled r.info.id = true := by
        rcases Launch.endSettled_of_append hos hs with ⟨e, he, -⟩ | hsettled
        · cases hq _ he
        · exact hsettled
      have hbefore : .kept r (some hid) ∈ l.history := by
        obtain ⟨r', w', hk', hid⟩ := Launch.kept_of_end hmoves (.inr hsettled)
        have hlater : .kept r' w' ∈ (l.receive a).launch.history := by
          rw [hos]
          exact List.mem_append_right _ hk'
        obtain ⟨rfl, rfl⟩ := Launch.kept_unique hmoves' hlater hk hid
        exact hk'
      obtain ⟨t, onExit, -, ⟨-, hw⟩ | ⟨hid', hw, -, hlt, -⟩⟩ := hfollowing.kept r _ hbefore
      · cases hw
      · cases hw
        exact hturn.registry.not_mem_ids hlt (ih hbefore hsettled)

/-- Between two messages, an end that was seen has had its turn. -/
theorem Reachable.settled_of_seen (h : Reachable config host args description s)
    (hp : s.launch.context.pending = []) {id : ProcessId}
    (hstarted : s.launch.hasStarted id = true) (hseen : s.launch.endSeen id = true) :
    s.launch.endSettled id = true := by
  obtain ⟨hmoves, hc⟩ := h.moves_any
  have hlife := Launch.life_sound hmoves id
  -- With an entry the process would be alive, or its end would still be on the way.
  apply (hlife.settled hstarted).mp
  cases hentry : (s.launch.life id).entry with
  | none => rfl
  | some r =>
      obtain ⟨handle, hh, halive | hflight⟩ := hlife.handle r hentry
      · have hunseen : s.launch.endSeen id = false :=
          (hlife.alive hstarted).mpr ⟨handle, hh, halive⟩
        rw [hseen] at hunseen
        cases hunseen
      · exact absurd (Launch.endsInFlight_eq_nil hc hp id) hflight

/-- Between two messages, a list has followed exactly if the end of its process was seen. -/
theorem Reachable.activations_eq (hall : ∀ a ∈ description, a.Every Deed.ReportsNoEnd)
    (h : Reachable config host args description s) (hp : s.launch.context.pending = []) {hid : Nat}
    (hk : .kept r (some hid) ∈ s.launch.history)
    (hstate : s.launch.Awaits r hid onExit ∨ s.launch.Followed r hid onExit) :
    s.launch.activations hid = if s.launch.endSeen r.info.id then 1 else 0 := by
  obtain ⟨hmoves, -⟩ := h.moves hall
  have hlife := Launch.life_sound hmoves r.info.id
  have hstarted : s.launch.hasStarted r.info.id = true :=
    hlife.started_of_kept (Launch.mem_life_kept.mpr hk)
  cases hseen : s.launch.endSeen r.info.id with
  | false =>
      rcases hstate with hwait | hdone
      · exact hwait.activations
      · obtain ⟨newer, between, older, status, hh, -, -⟩ := hdone.once
        have hbegan : .began (.handler hid) onExit (some r.scope) ∈ s.launch.history := by
          rw [hh]
          exact List.mem_append_right _ List.mem_cons_self
        have := Launch.endSeen_of_began hmoves hk hbegan
        rw [hseen] at this
        cases this
  | true =>
      have hgone := h.gone_of_settled hall hk (h.settled_of_seen hp hstarted hseen)
      rcases hstate with hwait | hdone
      · exact absurd (Registry.mem_ids.mpr ⟨_, hwait.entry, rfl⟩) hgone
      · exact hdone.activations

/-- **The list that follows the end of a process is activated exactly once if the message of
that end was handled, and never otherwise.** Whatever is started was kept with the bindings of
its start, and its list was registered under a number, unless it is empty. The body of that
number begins at most once; if it begins it is with the list, under those bindings, and in the
turn of the end of the process, which was seen before, and then every action of the list is
activated. Between two messages, and when the run has ended, it has begun once if the message was
handled, else not at all. -/
theorem follows_end_once (hall : ∀ a ∈ description, a.Every Deed.ReportsNoEnd)
    (h : Reachable config host args description s) {id : ProcessId} {spec : ProcessSpec}
    (hs : .started id spec ∈ s.launch.history) :
    ∃ l₀ l₁ r w onExit,
      Moves Deed.ReportsNoEnd (.start config host args) l₀ ∧ l₀.Starts l₁ r w onExit ∧
      Moves Deed.ReportsNoEnd l₁ s.launch ∧ r.info.id = id ∧ .kept r w ∈ s.launch.history ∧
      (onExit ≠ [] → ∃ hid, w = some hid ∧ s.launch.activations hid ≤ 1 ∧
        (∀ as scope, .began (.handler hid) as scope ∈ s.launch.history →
          as = onExit ∧ scope = some l₀.context.snapshot ∧ s.launch.endSeen id = true ∧
          Launch.CarriesOut Deed.ReportsNoEnd (.start config host args) s.launch (.handler hid)
            as scope ∧
          ∃ status, s.launch.HappenedInTurn (.began (.handler hid) as scope)
            (.processExited r.info status)) ∧
        ((s.launch.context.pending = [] ∨ ∃ l, s = .ended l) →
          s.launch.activations hid = if s.launch.endSeen id then 1 else 0)) := by
  obtain ⟨hmoves, -⟩ := h.moves hall
  obtain ⟨hstrides, -⟩ := h.strides hall
  have hlife := Launch.life_sound hmoves id
  have hstarted : s.launch.hasStarted id = true :=
    List.any_eq_true.mpr ⟨_, hs, decide_eq_true rfl⟩
  obtain ⟨r, w, hkept, rfl⟩ := hlife.kept hstarted
  have hk : .kept r w ∈ s.launch.history :=
    Launch.mem_life_kept.mp (by rw [hkept]; exact List.mem_singleton.mpr rfl)
  rcases Launch.exists_starts hmoves hk with hnone | ⟨l₀, l₁, onExit, hbefore, hstart, hafter⟩
  · cases hnone
  · refine ⟨l₀, l₁, r, w, onExit, hbefore, hstart, hafter, rfl, hk, ?_⟩
    intro hne
    obtain ⟨t, hd⟩ := hstart.deed
    obtain ⟨hfollowing, -⟩ := Launch.following_of_moves hmoves
    obtain ⟨t', onExit', hd', htracked⟩ := hfollowing.kept r w hk
    -- What was registered is the list of the action that started the process.
    obtain ⟨rfl, rfl⟩ := Deed.execute.inj (hd.symm.trans hd')
    rcases htracked with ⟨hnil, -⟩ | ⟨hid, rfl, -, -, hstate⟩
    · exact absurd hnil hne
    · refine ⟨hid, rfl, ?_, ?_, ?_⟩
      · rcases hstate with hwait | hdone
        · exact Nat.le_trans (Nat.le_of_eq hwait.activations) (Nat.zero_le 1)
        · exact Nat.le_of_eq hdone.activations
      · intro as scope hbegan
        rcases hstate with hwait | hdone
        · exact absurd hbegan (hwait.silent as scope)
        · obtain ⟨rfl, rfl, hturn⟩ := hdone.of_began hbegan
          exact ⟨rfl, congrArg some hstart.scope, Launch.endSeen_of_began hmoves hk hbegan,
            Launch.carriesOut_of_strides hstrides hbegan, hturn⟩
      · intro hquiet
        have hp : s.launch.context.pending = [] := by
          rcases hquiet with hp | ⟨l, rfl⟩
          · exact hp
          · exact h.pending_of_ended
        exact h.activations_eq hall hp hk hstate

/-- An action that logs a text. -/
def Action.say (bits : BitVec 128) (text : String) : Action :=
  .mk ⟨bits⟩ none (.log .info [.text text])

/-- Whether the run has ended, the end of the first process was seen, and a list was registered
for every process. -/
def Standing.hasFollowedFirst : Standing → Bool
  | .waiting _ => false
  | .ended l =>
      l.hasStarted ⟨1⟩ && l.endSeen ⟨1⟩ &&
        l.history.all fun | .kept _ w => w.isSome | _ => true

/-- A process that ends, and the list that was to follow. -/
theorem farewell_follows_once :
    ∃ s, Reachable .standard .willing [] [.work 1 [.say 2 "bye"]] s ∧
      s.launch.endSeen ⟨1⟩ = true ∧ ∃ hid, s.launch.activations hid = 1 := by
  have hall : ∀ a ∈ [Action.work 1 [.say 2 "bye"]], a.Every Deed.ReportsNoEnd := by
    simp [Action.work, Action.say, Action.Every, Deed.Every, Deed.ReportsNoEnd]
  have hrun : Reachable.comesTo Standing.hasFollowedFirst ((Launch.begin .standard .willing []
      [.work 1 [.say 2 "bye"]]).run 9
      [⟨.zero, .willing, .notice (.exited ⟨1⟩ ⟨some 0, none⟩ none)⟩]) = true := by decide +kernel
  obtain ⟨s, hs, hcheck⟩ := Reachable.exists_of_comesTo 9 _ hrun
  cases s with
  | waiting l => cases hcheck
  | ended l =>
      simp only [Standing.hasFollowedFirst, Bool.and_eq_true, List.all_eq_true] at hcheck
      obtain ⟨⟨hstarted, hseen⟩, hlists⟩ := hcheck
      obtain ⟨o, ho, hstarts⟩ := List.any_eq_true.mp hstarted
      cases o with
      | started id spec =>
          obtain rfl : id = ⟨1⟩ := of_decide_eq_true hstarts
          obtain ⟨l₀, l₁, r, w, onExit, -, hstart, -, -, hk, hfollows⟩ :=
            follows_end_once hall hs ho
          have hne : onExit ≠ [] := by
            rintro rfl
            rcases hstart.registry with ⟨-, rfl, -⟩ | ⟨hne, -, -⟩
            · cases hlists _ hk
            · exact hne rfl
          obtain ⟨hid, -, -, -, hcount⟩ := hfollows hne
          refine ⟨_, hs, hseen, hid, ?_⟩
          rw [hcount (.inr ⟨l, rfl⟩)]
          exact if_pos hseen
      | _ => cases hstarts

end Conductor
