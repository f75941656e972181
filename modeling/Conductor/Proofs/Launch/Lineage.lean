import Conductor.Proofs.Launch.Recall

/-!
# What keeps a chain of processes linear

`Lineal` says which bodies and which waits there can be for one process that is to be started
again. The turn of its end begins when the process is kept and ends when it is not; only then a
body starts it again or a wait begins, and never both. When the wait is over its timer is spent.

`Moment` lists the launches there are at any time, also in the middle of an activation, and
`Moment.lineal` says so of all of them.
-/

namespace Conductor

/-! ## What is over stays over -/

/-- An end that has had its turn has had it for good. -/
theorem Life.Sound.settled_step {p : Deed → Prop} {id : ProcessId} {v w : Life} (hv : v.Sound id)
    (hs : v.started = true) (hset : v.settled = true) (h : LifeStep p id v w) :
    w.settled = true := by
  cases h with
  | start r k h hf hr hh ha =>
      rw [hv.fresh hf] at hs
      cases hs
  | close e rest hq hn => rfl
  | release e rest r hq hr => rfl
  | _ => exact hset

theorem Life.Sound.settled_steps {p : Deed → Prop} {id : ProcessId} {v w : Life}
    (hv : v.Sound id) (hs : v.started = true) (hset : v.settled = true) (h : LifeSteps p id v w) :
    w.settled = true := by
  induction h with
  | refl => exact hset
  | tail hbefore hlast ih =>
      exact (hv.steps hbefore).settled_step (hv.remembers_steps hs hbefore).1 ih hlast

namespace Launch

variable {config : Config} {host : Host} {args : LaunchArguments} {l m : Launch} {p : Deed → Prop}

theorem endSettled_of_moves (hl : Moves Deed.ReportsNoEnd (start config host args) l)
    (hm : Moves Deed.ReportsNoEnd l m) {id : ProcessId} (hs : l.endSettled id = true) :
    m.endSettled id = true := by
  have hlife := hm.life ((sound_start config host args).moves hl) id
  exact (life_sound hl id).settled_steps ((life_honest hl id).begun hs) hs hlife

/-- A process whose end has had its turn is not alive. -/
theorem not_isAlive_of_endSettled (hl : Moves Deed.ReportsNoEnd (start config host args) l)
    {id : ProcessId} (hs : l.endSettled id = true) {h : ProcessHandle}
    (hf : l.supervisor.find? id = some h) : h.isAlive = false := by
  have hhonest := life_honest hl id
  have hstarted := hhonest.begun hs
  have hseen : l.endSeen id = true := hhonest.settled hstarted hs
  by_contra halive
  rw [Bool.not_eq_false] at halive
  have hunseen : l.endSeen id = false :=
    ((life_sound hl id).alive hstarted).mpr ⟨h, hf, halive⟩
  rw [hseen] at hunseen
  cases hunseen

/-- The end of a process that is kept has had no turn. -/
theorem endSettled_of_entry (hl : Moves p (start config host args) l) {id : ProcessId}
    {r : RunningProcess} (hr : l.processes.get? id.number = some r) :
    l.endSettled id = false := by
  have hlife := life_sound hl id
  have hentry : (l.life id).entry = some r := hr
  by_contra hs
  rw [Bool.not_eq_false] at hs
  have hnone := (hlife.settled (hlife.started_of_entry hentry)).mpr hs
  rw [hentry] at hnone
  cases hnone

/-- The number was given to a timer that is not pending any more. -/
structure Spent (l : Launch) (id : Nat) : Prop where
  gone : l.timers.get? id = none
  given : id < l.nextTimer

theorem Spent.sameTimers {id : Nat} (hl : l.Spent id) (h : l.SameTimers m) : m.Spent id where
  gone := by
    rw [h.timers]
    exact hl.gone
  given := by
    rw [h.nextTimer]
    exact hl.given

/-- No number is given twice. -/
theorem Spent.effect {id : Nat} (hl : l.Spent id) (h : Effect p l m) : m.Spent id := by
  have hfresh : (l.timing id).fresh = false := decide_eq_false (Nat.not_le.mpr hl.given)
  have hpending : (l.timing id).pending = none := hl.gone
  have hstill : (m.timing id).pending = none ∧ (m.timing id).fresh = false := by
    have hstep := h.timing id
    generalize l.timing id = v at hfresh hpending hstep
    generalize m.timing id = w at hstep ⊢
    cases hstep with
    | stay => exact ⟨hpending, hfresh⟩
    | schedule t hf =>
        rw [hfresh] at hf
        cases hf
    | cancel t hp => exact ⟨rfl, hfresh⟩
    | call hp => exact ⟨hpending, hfresh⟩
    | fire t hp => exact ⟨rfl, hfresh⟩
  exact ⟨hstill.1, Nat.not_le.mp (of_decide_eq_false hstill.2)⟩

theorem Spent.effects {id : Nat} (hl : l.Spent id) (h : Effects p l m) : m.Spent id := by
  induction h with
  | refl => exact hl
  | tail _ hlast ih => exact ih.effect hlast

theorem nextTimer_elapse (l : Launch) (i : Nat) (t : Timer) :
    (l.elapse i t).nextTimer = l.nextTimer := by
  unfold elapse
  dsimp only
  split <;> rfl

theorem timers_elapse (l : Launch) (i : Nat) (t : Timer) :
    (l.elapse i t).timers = l.timers.erase i := by
  unfold elapse
  dsimp only
  split <;> rfl

theorem Spent.elapse {id : Nat} (hl : l.Spent id) (i : Nat) (t : Timer) :
    (l.elapse i t).Spent id where
  gone := by
    rw [timers_elapse, Table.get?_erase, hl.gone, ite_self]
  given := by
    rw [nextTimer_elapse]
    exact hl.given

theorem Spent.moves {id : Nat} (hl : l.Spent id) (h : Moves p l m) : m.Spent id := by
  induction h with
  | refl => exact hl
  | tail _ hlast ih =>
      rcases timers_of_move hlast with ⟨k, q, hsame, heffects⟩ | ⟨i, t, -, rfl⟩
      · exact (ih.sameTimers hsame).effects heffects
      · exact ih.elapse i t

end Launch

/-! ## Waits that are new on the history -/

namespace Launch.Postpones

variable {l m : Launch} {r : RunningProcess} {id : Nat} {t : Timer} {os : List Occurrence}

theorem turnEnded (h : l.Postpones r id t) : ∃ e, .turnEnded e ∈ l.history := by
  obtain ⟨newer, freed, older, q, status, hh, -⟩ := h.turn
  refine ⟨.processExited q status, ?_⟩
  rw [hh]
  simp

/-- A wait has begun before, or its timer has been scheduled since, in front of everything that
was on the history. -/
theorem of_append (h : m.Postpones r id t) (hos : m.history = os ++ l.history) :
    l.Postpones r id t ∨ ∃ newer rest freed older q status, os = newer ++ .scheduled id t :: rest ∧
      rest ++ l.history = freed ++ .turnEnded (.processExited q status) :: older ∧
      q.id = r.info.id ∧ ∀ o ∈ freed, ∃ g, o = .released g := by
  obtain ⟨newer, freed, older, q, status, hh, hq, hfreed⟩ := h.turn
  rw [hos] at hh
  rcases split_of_append hh with ⟨rest, -, hold⟩ | ⟨rest, hnew, hold⟩
  · exact .inl ⟨h.record, h.actions, h.scope, rest, freed, older, q, status, hold, hq, hfreed⟩
  · exact .inr ⟨newer, rest, freed, older, q, status, hnew, hold.symm, hq, hfreed⟩

/-- What leaves nothing for later begins no wait. -/
theorem of_leaves (h : m.Postpones r id t) (hm : Launch.Leaves (fun _ _ => False) l m) :
    l.Postpones r id t := by
  obtain ⟨os, hos, hq⟩ := hm
  rcases h.of_append hos with hold | ⟨newer, rest, -, -, -, -, rfl, -⟩
  · exact hold
  · obtain ⟨b, k, hfalse, -⟩ :=
      hq (.scheduled id t) (List.mem_append_right newer List.mem_cons_self)
    exact hfalse.elim

/-- Neither does a body: its timers are scheduled while it goes on, and not right after a turn. -/
theorem of_body (h : m.Postpones r id t) {cause : BodyCause} {as : List Action}
    {scope : Option Scope} (hos : m.history = os ++ .began cause as scope :: l.history)
    (hq : ∀ o ∈ os, o.isOfLoop = false) : l.Postpones r id t := by
  have hbegan : (l.happen (.began cause as scope)).Postpones r id t := by
    rcases h.of_append (l := l.happen (.began cause as scope)) hos with
      hold | ⟨newer, rest, freed, older, q, status, rfl, hturn, -, hfreed⟩
    · exact hold
    · exfalso
      rcases split_of_append hturn with ⟨rest', rfl, hcons⟩ | ⟨rest', rfl, -⟩
      · rcases split_of_cons hcons with ⟨-, heq, -⟩ | ⟨between, rfl, -⟩
        · cases heq
        · obtain ⟨g, heq⟩ := hfreed (.began cause as scope) (by simp)
          cases heq
      · have hmem : Occurrence.turnEnded (.processExited q status) ∈
            newer ++ .scheduled id t :: (freed ++ .turnEnded (.processExited q status) :: rest') :=
          by simp
        cases hq _ hmem
  have hone : (l.happen (.began cause as scope)).history =
    [.began cause as scope] ++ l.history := rfl
  rcases hbegan.of_append hone with hold | ⟨newer, rest, -, -, -, -, heq, -⟩
  · exact hold
  · cases newer with
    | nil => cases heq
    | cons o newer => simp at heq

/-- What follows the released handles is the end of one turn only. -/
theorem eq_of_turnEnded {freed freed' older older' : List Occurrence} {e e' : Event}
    (h : freed ++ .turnEnded e :: older = freed' ++ .turnEnded e' :: older')
    (hfreed : ∀ o ∈ freed, ∃ g, o = .released g) (hfreed' : ∀ o ∈ freed', ∃ g, o = .released g) :
    e = e' := by
  rcases split_of_append h with ⟨rest, rfl, hcons⟩ | ⟨rest, rfl, -⟩
  · rcases split_of_cons hcons with ⟨-, heq, -⟩ | ⟨rest', rfl, -⟩
    · cases heq
      rfl
    · obtain ⟨g, heq⟩ := hfreed' (.turnEnded e) (by simp)
      cases heq
  · obtain ⟨g, heq⟩ := hfreed (.turnEnded e') (by simp)
    cases heq

/-- A process that has been given up is the only one that waits from now on. -/
theorem of_givenUp {q : ProcessInfo} {status : ExitStatus} {delay : Duration} {as : List Action}
    {scope : Scope}
    (h : ((l.givenUp q status).schedule delay as scope none true).Postpones r id t) :
    l.Postpones r id t ∨ id = (l.givenUp q status).nextTimer ∧ r.info.id = q.id := by
  have hone : ((l.givenUp q status).schedule delay as scope none true).history =
      [.scheduled (l.givenUp q status).nextTimer _] ++ (l.givenUp q status).history := rfl
  obtain ⟨freed₀, hh, hfreed₀⟩ := l.history_givenUp q status
  rcases h.of_append hone with
    hold | ⟨newer, rest, freed, older, q', status', hos, hturn, hq, hfreed⟩
  · exact .inl (hold.of_leaves (Launch.steady_givenUp l q status).leaves)
  · right
    rcases split_of_cons hos with ⟨-, heq, rfl⟩ | ⟨rest', -, hnil⟩
    · cases heq
      rw [List.nil_append, hh] at hturn
      cases eq_of_turnEnded hturn hfreed₀ hfreed
      exact ⟨rfl, hq.symm⟩
    · simp at hnil

end Launch.Postpones

/-! ## What keeps a chain linear -/

/-- Of the bodies that have begun and of the waits no two are for one process, and none is for a
process whose end has had no turn. -/
structure Lineal (config : Config) (host : Host) (args : LaunchArguments)
    (description : List Action) (bs : List Beginning) (n : Launch) : Prop where
  moves : Moves Deed.ReportsNoEnd (.start config host args) n
  origin : ∀ b ∈ bs, ∃ earlier s l t, Course config host args description earlier s l ∧
    Phase.Begins s l b t
  begun : ∀ b ∈ bs, b.launch.history <:+ n.history
  /-- Only a handler begins twice. -/
  apart : bs.Pairwise fun b b' => b.cause = b'.cause → ∃ hid, b.cause = .handler hid
  settled : ∀ b ∈ bs, ∀ id, b.cause = .respawn id → n.endSettled id = true
  /-- The timer of a body is not pending any more, and its number is not given again. -/
  spent : ∀ b ∈ bs, ∀ id, b.cause = .timer id → n.Spent id
  /-- A process that waits, or has waited, is not started again at once. -/
  waits : ∀ r id t, n.Postpones r id t →
    n.endSettled r.info.id = true ∧ ∀ b ∈ bs, b.cause ≠ .respawn r.info.id
  /-- A process waits once. -/
  alone : ∀ r r' id id' t t', n.Postpones r id t → n.Postpones r' id' t' →
    r.info.id = r'.info.id → id = id'

variable {config : Config} {host : Host} {args : LaunchArguments} {description : List Action}
  {bs : List Beginning} {s s' : Phase} {b : Beginning} {l m n : Launch} {p : Deed → Prop}
  {r : RunningProcess}

/-- A body begins by moves. -/
theorem Phase.Begins.moves (hl : l.Sound p) (hfits : s.Fits l) (hb : s.Begins l b s') :
    Moves p l (b.launch.happen b.occurrence) ∧ ∀ a ∈ b.actions, a.Every p := by
  cases hb with
  | @answer _ m e writer id ids g as hf hy hm ha =>
      obtain ⟨hc, hmatches⟩ := hfits
      obtain ⟨hmem, rfl⟩ := Registry.mem_of_find? hf
      have has := hl.every_of_answer hmem hy
      have hmatch := (hmatches g.id List.mem_cons_self).2 g hmem rfl
      refine ⟨?_, has⟩
      rcases hm with rfl | rfl
      · exact .single (.answer e g writer as hc hf hmatch hy has)
      · have hask : Move p l l.interrupt := .effect .interrupt
        exact .head hask (.single (.answer e g writer as hc hf hmatch hy has))
  | @restart _ q status writer r delay hr hd hz =>
      have hevery : ∀ a ∈ [r.action], a.Every p :=
        List.forall_mem_singleton.mpr (hl.processes _ r hr).2
      exact ⟨.head (.release q status r hfits.1 hr)
        (.single (.resume (.respawn r.info.id) [r.action] (some r.scope) (by simp) hevery)), hevery⟩
  | @fire _ a id t hp hi ha ht =>
      have harrive : Move p l (l.arrive a) := by
        refine .arrive a hfits hp fun n hn => ?_
        rw [ha] at hn
        cases hn
      have hevery := hl.timers id t ht
      exact ⟨.head harrive (.head (.elapse id t hfits hp ht)
        (.single (.resume (.timer id) t.actions (some t.scope) (by simp) hevery))), hevery⟩

namespace Lineal

/-- Nothing changes as long as no body and no wait begins. -/
theorem advance (h : Lineal config host args description bs l)
    (hm : Moves Deed.ReportsNoEnd l n) (hh : l.history <:+ n.history)
    (hp : ∀ r id t, n.Postpones r id t → l.Postpones r id t) :
    Lineal config host args description bs n where
  moves := h.moves.trans hm
  origin := h.origin
  begun b hb := (h.begun b hb).trans hh
  apart := h.apart
  settled b hb id hc := Launch.endSettled_of_moves h.moves hm (h.settled b hb id hc)
  spent b hb id hc := (h.spent b hb id hc).moves hm
  waits r id t hw := by
    obtain ⟨hsettled, hnot⟩ := h.waits r id t (hp r id t hw)
    exact ⟨Launch.endSettled_of_moves h.moves hm hsettled, hnot⟩
  alone r r' id id' t t' hw hw' := h.alone r r' id id' t t' (hp r id t hw) (hp r' id' t' hw')

/-- While the description is activated no body has begun and no process waits. -/
theorem of_describing (h : Effects Deed.ReportsNoEnd (.start config host args) n) :
    Lineal config host args description [] n := by
  have hnone : ∀ r id t, ¬ n.Postpones r id t := by
    intro r id t hw
    obtain ⟨e, he⟩ := hw.turnEnded
    obtain ⟨os, hos, hq⟩ := h.grown.history
    rw [hos, show (Launch.start config host args).history = [] from rfl, List.append_nil] at he
    cases hq _ he
  exact ⟨h.moves, by simp, by simp, .nil, by simp, by simp,
    fun r id t hw => absurd hw (hnone r id t), fun r r' id id' t t' hw => absurd hw (hnone r id t)⟩

/-- The end of a process has its turn and the process is given up: by then nothing has been done
for it. -/
theorem first (h : Lineal config host args description bs l) {q : ProcessInfo}
    (hr : l.processes.get? q.id.number = some r) :
    (∀ b ∈ bs, b.cause ≠ .respawn q.id) ∧
      ∀ r' id t, l.Postpones r' id t → r'.info.id ≠ q.id := by
  have hopen := Launch.endSettled_of_entry h.moves hr
  constructor
  · intro b hb hc
    rw [h.settled b hb q.id hc] at hopen
    cases hopen
  · rintro r' id t hw hid
    have hsettled := (h.waits r' id t hw).1
    rw [hid, hopen] at hsettled
    cases hsettled

end Lineal

/-- The turn of the end is the last thing that is known of a process that has just been given
up. -/
theorem Launch.endSettled_givenUp (l : Launch) (q : ProcessInfo) (status : ExitStatus) :
    (l.givenUp q status).endSettled q.id = true := by
  obtain ⟨freed, hh, hfreed⟩ := l.history_givenUp q status
  have hpass : ∀ o ∈ freed, (!o.starts q.id) = true := by
    intro o ho
    obtain ⟨g, rfl⟩ := hfreed o ho
    rfl
  unfold endSettled since
  rw [hh, List.takeWhile_append_of_pos hpass, List.any_append, Bool.or_eq_true]
  right
  simp [Occurrence.starts, Occurrence.settlesEndOf, Event.isEndOf]

namespace Lineal

/-- Unless it is that of a handler, the body that begins is the first one of its cause. -/
theorem apart_of_begins (h : Lineal config host args description bs l)
    (hcourse : Course config host args description bs s l) (hb : s.Begins l b s') :
    ∀ b' ∈ bs, b.cause = b'.cause → ∃ hid, b.cause = .handler hid := by
  intro b' hb' hc
  cases hb with
  | answer hf hy hm ha => exact ⟨_, rfl⟩
  | @restart _ q status writer r delay hr hd hz =>
      obtain ⟨hid, -⟩ := hcourse.exists_kept hr
      rw [hid] at hc
      exact absurd hc.symm ((h.first hr).1 b' hb')
  | @fire _ a i t hp hi ha ht =>
      have hspent := (h.spent b' hb' i hc.symm).gone
      rw [ht] at hspent
      cases hspent

/-- A process is started again after the turn of its end, and it has not waited for that. -/
theorem settled_of_begins (h : Lineal config host args description bs l)
    (hcourse : Course config host args description bs s l) (hb : s.Begins l b s') {id : ProcessId}
    (hc : b.cause = .respawn id) :
    (b.launch.happen b.occurrence).endSettled id = true ∧
      ∀ r i t, l.Postpones r i t → r.info.id ≠ id := by
  cases hb with
  | answer hf hy hm ha => cases hc
  | fire hp hi ha ht => cases hc
  | @restart _ q status writer r delay hr hd hz =>
      cases hc
      obtain ⟨hid, -⟩ := hcourse.exists_kept hr
      rw [hid]
      exact ⟨l.endSettled_givenUp q status, (h.first hr).2⟩

/-- A timer that fires is spent. -/
theorem spent_of_begins (h : Lineal config host args description bs l) (hb : s.Begins l b s')
    {id : Nat} (hc : b.cause = .timer id) : (b.launch.happen b.occurrence).Spent id := by
  cases hb with
  | answer hf hy hm ha => cases hc
  | restart hr hd hz => cases hc
  | @fire _ a i t hp hi ha ht =>
      cases hc
      constructor
      · show ((l.arrive a).elapse id t).timers.get? id = none
        rw [Launch.timers_elapse, Table.get?_erase, if_pos rfl]
      · show id < ((l.arrive a).elapse id t).nextTimer
        rw [Launch.nextTimer_elapse]
        exact Launch.numbered_of_moves h.moves id t ht

/-- A body that begins is the first one for its process, or its timer. -/
theorem begins (h : Lineal config host args description bs l)
    (hcourse : Course config host args description bs s l) (hfits : s.Fits l)
    (hb : s.Begins l b s') :
    Lineal config host args description (b :: bs) (b.launch.happen b.occurrence) := by
  have hsound := (Launch.sound_start config host args).moves h.moves
  obtain ⟨hmoves, -⟩ := hb.moves hsound hfits
  have hsuffix : l.history <:+ (b.launch.happen b.occurrence).history :=
    hb.steady.leaves.suffix_history.trans (List.suffix_cons _ _)
  have hbegun : (b.launch.happen b.occurrence).history =
      [] ++ .began b.cause b.actions b.scope :: b.launch.history := rfl
  have hold : ∀ r id t, (b.launch.happen b.occurrence).Postpones r id t → l.Postpones r id t :=
    fun r id t hw => (hw.of_body hbegun (by simp)).of_leaves hb.steady.leaves
  have hbefore := h.advance hmoves hsuffix hold
  constructor
  case moves => exact hbefore.moves
  case origin => exact List.forall_mem_cons.mpr ⟨⟨bs, s, l, s', hcourse, hb⟩, h.origin⟩
  case begun => exact List.forall_mem_cons.mpr ⟨List.suffix_cons _ _, hbefore.begun⟩
  case apart => exact List.pairwise_cons.mpr ⟨h.apart_of_begins hcourse hb, h.apart⟩
  case settled =>
    exact List.forall_mem_cons.mpr
      ⟨fun id hc => (h.settled_of_begins hcourse hb hc).1, hbefore.settled⟩
  case spent =>
    exact List.forall_mem_cons.mpr ⟨fun id hc => h.spent_of_begins hb hc, hbefore.spent⟩
  case waits =>
    intro r id t hw
    obtain ⟨hover, hnot⟩ := hbefore.waits r id t hw
    refine ⟨hover, List.forall_mem_cons.mpr ⟨fun hc => ?_, hnot⟩⟩
    exact (h.settled_of_begins hcourse hb hc).2 r id t (hold r id t hw) rfl
  case alone => exact hbefore.alone

/-- A wait begins when the turn of the end of a process is over, and it is the first one for its
process. -/
theorem postpone (h : Lineal config host args description bs l) {q : ProcessInfo}
    {status : ExitStatus} (hr : l.processes.get? q.id.number = some r) (delay : Duration)
    (hm : Moves Deed.ReportsNoEnd l
      ((l.givenUp q status).schedule delay [r.action] r.scope none true)) :
    Lineal config host args description bs
      ((l.givenUp q status).schedule delay [r.action] r.scope none true) := by
  obtain ⟨hbodies, hwaits⟩ := h.first hr
  have hcase : ∀ r' id t,
      ((l.givenUp q status).schedule delay [r.action] r.scope none true).Postpones r' id t →
      l.Postpones r' id t ∨ id = (l.givenUp q status).nextTimer ∧ r'.info.id = q.id :=
    fun r' id t hw => hw.of_givenUp
  have hover : (l.givenUp q status).endSettled q.id = true := l.endSettled_givenUp q status
  constructor
  case moves => exact h.moves.trans hm
  case origin => exact h.origin
  case begun =>
    intro b hb
    have hgiven := (Launch.steady_givenUp l q status).leaves.suffix_history
    exact (h.begun b hb).trans (hgiven.trans (List.suffix_cons _ _))
  case apart => exact h.apart
  case settled =>
    exact fun b hb id hc => Launch.endSettled_of_moves h.moves hm (h.settled b hb id hc)
  case spent => exact fun b hb id hc => (h.spent b hb id hc).moves hm
  case waits =>
    intro r' id t hw
    rcases hcase r' id t hw with hold | ⟨-, hid⟩
    · obtain ⟨hsettled, hnot⟩ := h.waits r' id t hold
      exact ⟨Launch.endSettled_of_moves h.moves hm hsettled, hnot⟩
    · rw [hid]
      exact ⟨hover, hbodies⟩
  case alone =>
    -- The new wait is for the process that has just been given up, and no other one is.
    intro r₁ r₂ id₁ id₂ t₁ t₂ hw₁ hw₂ hid
    rcases hcase r₁ id₁ t₁ hw₁ with hold₁ | ⟨hnew₁, hid₁⟩
    · rcases hcase r₂ id₂ t₂ hw₂ with hold₂ | ⟨-, hid₂⟩
      · exact h.alone r₁ r₂ id₁ id₂ t₁ t₂ hold₁ hold₂ hid
      · exact absurd (hid.trans hid₂) (hwaits r₁ id₁ t₁ hold₁)
    · rcases hcase r₂ id₂ t₂ hw₂ with hold₂ | ⟨hnew₂, -⟩
      · exact absurd (hid.symm.trans hid₁) (hwaits r₂ id₂ t₂ hold₂)
      · exact hnew₁.trans hnew₂.symm

/-- What is no body keeps a chain linear. -/
theorem pass (h : Lineal config host args description bs l) (hfits : s.Fits l)
    (hp : s.Passes l s' m) : Lineal config host args description bs m := by
  have hsound := (Launch.sound_start config host args).moves h.moves
  have hmoves := (hp.leadsTo hsound hfits).strides.moves
  rcases hp.steady_or with hsteady | ⟨q, status, r, delay, hr, rfl⟩
  · exact h.advance hmoves hp.suffix_history fun r id t hw => hw.of_leaves hsteady.leaves
  · exact h.postpone hr delay hmoves

/-- What a body does keeps it linear too. -/
theorem during (h : Lineal config host args description (b :: bs)
      (b.launch.happen b.occurrence))
    (he : Effects Deed.ReportsNoEnd (b.launch.happen b.occurrence) n) :
    Lineal config host args description (b :: bs) n := by
  obtain ⟨os, hos, hq⟩ := he.grown.history
  refine h.advance he.moves ⟨os, hos.symm⟩ fun r id t hw => ?_
  have hbegun : (b.launch.happen b.occurrence).history = [b.occurrence] ++ b.launch.history := rfl
  exact (hw.of_body hos hq).mono hbegun

end Lineal

/-! ## At every moment -/

/-- A launch at any moment, between two bodies or while one goes on, with the bodies that have
begun until then, the latest first. -/
inductive Moment (config : Config) (host : Host) (args : LaunchArguments)
    (description : List Action) : List Beginning → Launch → Prop where
  /-- The description is being activated. -/
  | describing {n : Launch} (h : Effects Deed.ReportsNoEnd (.start config host args) n) :
      Moment config host args description [] n
  /-- No body has begun since, and nothing has been left for later. -/
  | between {bs : List Beginning} {s : Phase} {l n : Launch}
      (h : Course config host args description bs s l) (hm : Moves Deed.ReportsNoEnd l n)
      (hn : Launch.Leaves (fun _ _ => False) l n) : Moment config host args description bs n
  /-- A body is being activated. -/
  | during {bs : List Beginning} {s t : Phase} {b : Beginning} {l n : Launch}
      (h : Course config host args description bs s l) (hb : s.Begins l b t)
      (he : Effects Deed.ReportsNoEnd (b.launch.happen b.occurrence) n) :
      Moment config host args description (b :: bs) n

/-- **Along a course every chain stays linear.** -/
theorem Course.lineal (hall : ∀ a ∈ description, a.Every Deed.ReportsNoEnd)
    (h : Course config host args description bs s l) :
    Lineal config host args description bs l := by
  induction h with
  | begin => exact .of_describing (Launch.activateAll_effects hall _)
  | pass hbefore hp ih => exact ih.pass (hbefore.leadsTo hall).fits hp
  | @body bs s t l b hbefore hb ih =>
      have hfits := (hbefore.leadsTo hall).fits
      have hsound := (Launch.sound_start config host args).moves ih.moves
      obtain ⟨-, hevery⟩ := hb.moves hsound hfits
      exact (ih.begins hbefore hfits hb).during
        (Launch.activateBody_effects hevery b.cause b.scope b.launch)

theorem Moment.lineal (hall : ∀ a ∈ description, a.Every Deed.ReportsNoEnd)
    (h : Moment config host args description bs n) :
    Lineal config host args description bs n := by
  cases h with
  | describing h => exact .of_describing h
  | between h hm hn =>
      exact (h.lineal hall).advance hm hn.suffix_history fun r id t hw => hw.of_leaves hn
  | during h hb he => exact ((h.lineal hall).begins h (h.leadsTo hall).fits hb).during he

/-- An activation begins no body. -/
theorem Launch.filter_isBeginning_of_effects (h : Effects p l n) :
    n.history.filter (·.isBeginning) = l.history.filter (·.isBeginning) := by
  obtain ⟨os, hos, hq⟩ := h.grown.history
  have hnone : os.filter (·.isBeginning) = [] := by
    refine List.filter_eq_nil_iff.mpr fun o ho => ?_
    have hloop := hq o ho
    cases o with
    | began => cases hloop
    | _ => simp [Occurrence.isBeginning]
  rw [hos, List.filter_append, hnone, List.nil_append]

/-- At every moment the bodies that have begun stand on the history in that order. -/
theorem Moment.map_occurrence (h : Moment config host args description bs n) :
    bs.map (·.occurrence) = n.history.filter (·.isBeginning) := by
  cases h with
  | describing h => exact (Launch.filter_isBeginning_of_effects h).symm
  | between h hm hn => rw [h.map_occurrence, hn.filter_isBeginning]
  | during h hb he =>
      rw [Launch.filter_isBeginning_of_effects he, List.map_cons, h.map_occurrence,
        ← hb.steady.leaves.filter_isBeginning]
      rfl

end Conductor
