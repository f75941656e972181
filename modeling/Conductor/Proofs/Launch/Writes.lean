import Conductor.Proofs.Launch.Stretch
import Conductor.Proofs.Launch.Turn
import Conductor.Proofs.Launch.Writers
import Conductor.Proofs.Record

/-!
# Who may write a variable

While the body of a handler is activated, the table of first writers and the history agree
(`Launch.Writing`), and outside of bodies of handlers there is no table at all (`Launch.Free`).
So whether a write is dropped can be read off the history: `writes_follow_policy`.
-/

namespace Conductor

namespace Launch

variable {l m : Launch} {policy : WritePolicy}

/-! ## A write that is performed -/

/-- The record of an action that is let through is running, and has no note yet. -/
theorem Admits.record {k : Launch} {a : Action} (h : k.Admits a m) :
    ∃ r, m.journal.record? k.journal.size = some r ∧ r.stage = .running ∧ r.note = none := by
  obtain ⟨n, hn, rfl⟩ := h.cases
  have hopened : (k.enter a).2.journal.record? k.journal.size =
      some (.opened k.journal.size a) :=
    (k.journal.record?_enter a k.journal.size).trans (if_pos rfl)
  have hnext : ∀ {j : Journal} {r : Record} {s : Stage}, j.record? k.journal.size = some r →
      (j.advance k.journal.size s).record? k.journal.size = some (r.advance s) := by
    intro j r s hr
    rw [Journal.record?_advance, if_pos rfl, hr, Option.map_some]
  rcases hn with rfl | rfl
  · exact ⟨_, hnext (hnext hopened), rfl, rfl⟩
  · exact ⟨_, hnext (hnext (hnext hopened)), rfl, rfl⟩

theorem Admits.size_lt {k : Launch} {a : Action} (h : k.Admits a m) :
    k.journal.size < m.journal.size := by
  obtain ⟨r, hr, -⟩ := h.record
  exact Journal.lt_size_of_record? hr

/-- A deed that begins work is let through only before the shutdown. -/
theorem Admits.performLeaf_size {k : Launch} {a : Action} (h : k.Admits a m) :
    m.journal.size ≤ (m.performLeaf k.journal.size a a.deed).1.journal.size := by
  obtain ⟨-, hwork⟩ := gate_effects (p := fun _ => True) (k.enter a).2 k.journal.size a
  unfold Admits at h
  rw [h] at hwork
  have hleaf : Effects (fun _ => True) m (m.performLeaf k.journal.size a a.deed).1 :=
    performLeaf_effects rfl (a.every_of_forall fun _ => trivial) (hwork rfl) (Admits.size_lt h)
  exact hleaf.size_le

/-- A write that is dropped: its activation changes nothing in the context, and is completed with
a note. -/
structure Drops (k : Launch) (a : Action) : Prop where
  completed : (activate a k).2 = .completed
  context : (activate a k).1.context = k.context
  noted : ∃ r, (activate a k).1.journal.record? k.journal.size = some r ∧
    r.stage = .completed ∧ r.note = some "dropped by write policy"

/-- A write that is performed: its activation binds the variable and is completed without a
note. -/
structure Binds (k : Launch) (a : Action) (target : Context.Target) (name : String)
    (v : Value) : Prop where
  completed : (activate a k).2 = .completed
  scopes : (activate a k).1.context.scopes = (k.context.bind target name v).scopes
  noted : ∃ r, (activate a k).1.journal.record? k.journal.size = some r ∧
    r.stage = .completed ∧ r.note = none

section Write

variable {k : Launch} {a : Action} {target : Context.Target} {name : String}
  {value : ValueTemplate} {v : Value} {c : Context}

theorem activate_setVariable (ha : k.Admits a m) (hd : a.deed = .setVariable target name value) :
    activate a k = leave k.journal.size (settle k.journal.size (.setVariable target name value)
      (m.performLeaf k.journal.size a (.setVariable target name value))) := by
  have hleaf : (Deed.setVariable target name value).isLeaf = true := rfl
  rw [activate_of_admits ha, hd, perform_eq, if_pos hleaf]

theorem activate_of_granted (ha : k.Admits a m) (hd : a.deed = .setVariable target name value)
    (hv : value.resolve m.context = .ok v) (hw : m.context.write target name v = (true, c)) :
    activate a k = ((({ m with context := c } : Launch).advance k.journal.size .completed).happen
      (.left k.journal.size .completed), .completed) := by
  rw [activate_setVariable ha hd, performLeaf, hv]
  dsimp only
  rw [hw]
  rfl

theorem activate_of_dropped (ha : k.Admits a m) (hd : a.deed = .setVariable target name value)
    (hv : value.resolve m.context = .ok v) (hw : m.context.write target name v = (false, c)) :
    activate a k = (((({ m with context := c } : Launch).note k.journal.size
      "dropped by write policy").advance k.journal.size .completed).happen
        (.left k.journal.size .completed), .completed) := by
  rw [activate_setVariable ha hd, performLeaf, hv]
  dsimp only
  rw [hw]
  rfl

theorem activate_of_unresolved {e : LaunchError} (ha : k.Admits a m)
    (hd : a.deed = .setVariable target name value) (hv : value.resolve m.context = .error e) :
    activate a k = leave k.journal.size (m.fail k.journal.size a.deed e) := by
  rw [activate_setVariable ha hd, performLeaf, hv, hd]
  rfl

theorem drops_of_write (ha : k.Admits a m) (hd : a.deed = .setVariable target name value)
    (hv : value.resolve m.context = .ok v)
    (hw : m.context.write target name v = (false, m.context)) : k.Drops a := by
  have hactivated := activate_of_dropped ha hd hv hw
  obtain ⟨r, hr, hs, -⟩ := ha.record
  constructor
  · rw [hactivated]
  · rw [hactivated]
    exact ha.context
  · refine ⟨(r.withNote "dropped by write policy").advance .completed, ?_, ?_, ?_⟩
    · rw [hactivated]
      show ((m.journal.note k.journal.size "dropped by write policy").advance k.journal.size
        .completed).record? k.journal.size = _
      rw [Journal.record?_advance, if_pos rfl, Journal.record?_note, if_pos rfl, hr]
      rfl
    · simp [Record.advance, Record.withNote, hs, Stage.isFinal]
    · simp [Record.advance, Record.withNote, hs, Stage.isFinal]

theorem binds_of_write (ha : k.Admits a m) (hd : a.deed = .setVariable target name value)
    (hv : value.resolve m.context = .ok v) (hw : m.context.write target name v = (true, c))
    (hc : c.scopes = (m.context.bind target name v).scopes) : k.Binds a target name v := by
  have hactivated := activate_of_granted ha hd hv hw
  obtain ⟨r, hr, hs, hnote⟩ := ha.record
  constructor
  · rw [hactivated]
  · rw [hactivated, ← ha.context]
    exact hc
  · refine ⟨r.advance .completed, ?_, ?_, ?_⟩
    · rw [hactivated]
      show (m.journal.advance k.journal.size .completed).record? k.journal.size = _
      rw [Journal.record?_advance, if_pos rfl, hr]
      rfl
    · simp [Record.advance, hs, Stage.isFinal]
    · simp [Record.advance, hs, Stage.isFinal, hnote]

end Write

/-! ## Outside of the bodies of handlers -/

/-- No event has its turn, so no write is asked about. -/
structure Free (policy : WritePolicy) (l : Launch) : Prop where
  policy : l.context.writePolicy = policy
  turn : l.context.turn = none

theorem Free.keep (hl : l.Free policy) (ht : m.context.turn = l.context.turn)
    (hp : m.context.writePolicy = l.context.writePolicy) : m.Free policy :=
  ⟨hp.trans hl.policy, ht.trans hl.turn⟩

theorem Free.same (hl : l.Free policy) (h : l.SameWriters m) : m.Free policy :=
  hl.keep h.turn h.policy

theorem Free.happen (hl : l.Free policy) (o : Occurrence) : (l.happen o).Free policy :=
  hl.keep rfl rfl

theorem Free.admitted (hl : l.Free policy) {a : Action} (ha : l.Admits a m) : m.Free policy :=
  hl.keep (congrArg Context.turn ha.context) (congrArg Context.writePolicy ha.context)

theorem Free.activateLeaf (hl : l.Free policy) {a : Action} (ha : l.Admits a m)
    (hleaf : a.deed.isLeaf = true) : (activate a l).1.Free policy := by
  have hm := hl.admitted ha
  cases hw : a.deed.written? with
  | none =>
      rw [activate_of_admits ha, perform_eq, if_pos hleaf]
      have hsettled := (hm.same (sameWriters_performLeaf m l.journal.size a hw)).same
        (sameWriters_settle l.journal.size a.deed _)
      exact hsettled.keep rfl rfl
  | some name =>
      obtain ⟨target, value, hd⟩ := Deed.eq_setVariable_of_written? hw
      cases hv : value.resolve m.context with
      | error e =>
          rw [activate_of_unresolved ha hd hv]
          have hfailed := hm.same (sameWriters_fail m l.journal.size a.deed e)
          exact hfailed.keep rfl rfl
      | ok v =>
          rw [activate_of_granted ha hd hv (Context.write_of_turn_none hm.turn)]
          obtain ⟨ht, hp⟩ := m.context.turn_bind target name v
          exact hm.keep ht hp

theorem upheld_free (policy : WritePolicy) : Upheld fun _ l => l.Free policy where
  refused := by
    intro os l m a outcome hl hgate
    have hleft := sameWriters_gate (l.enter a).2 l.journal.size a
    rw [hgate] at hleft
    exact hl.keep hleft.turn hleft.policy
  leaf hl ha hleaf := hl.activateLeaf ha hleaf
  admitted hl ha _ := hl.admitted ha
  asked d hl := hl.same (sameWriters_asked _ d)
  performed := by
    intro os seq m d failure hl
    have hsettled := sameWriters_settle seq d (ofChildren (m, failure))
    rw [ofChildren_fst] at hsettled
    exact hl.keep hsettled.turn hsettled.policy
  skipAll as why hl := hl.keep rfl rfl
  beginGroup hl := hl.keep rfl rfl
  endGroup failure hl := hl.same (sameWriters_endGroup _ failure)
  inScope scope hl := hl.keep rfl rfl
  restore depth hl := hl.keep rfl rfl

theorem Free.activateAll (hl : l.Free policy) (as : List Action) :
    (Launch.activateAll as l).Free policy :=
  @Upheld.activateAll _ (upheld_free policy) [] l as hl

/-- No write is asked about wherever a deed is performed. -/
theorem Free.bodyReaches (hl : l.Free policy) {as : List Action} {a : Action}
    (hr : BodyReaches as l a m) : (∃ k : Launch, k.Admits a m) ∧ m.Free policy := by
  obtain ⟨-, k, hk, ha⟩ := @Upheld.bodyReaches _ (upheld_free policy) [] l m as a hr hl
  exact ⟨⟨k, ha⟩, Free.admitted hk ha⟩

end Launch

/-! ## While the body of a handler is activated -/

/-- The table of first writers says what the history says, where writers go by their places among
the handlers that were asked. -/
def Turn.Recalls (t : Turn) (asked : List Nat) (os : List Occurrence) : Prop :=
  ∀ name, (t.firstWriters.get? name = none ∧ firstWriter? name os = none) ∨
    ∃ w id, t.firstWriters.get? name = some w ∧ asked[w]? = some id ∧
      firstWriter? name os = some id

theorem Turn.Recalls.append {t : Turn} {asked : List Nat} {os : List Occurrence}
    (h : t.Recalls asked os) (later : List Nat) : t.Recalls (asked ++ later) os := by
  intro name
  rcases h name with hnone | ⟨w, id, hw, hid, hfirst⟩
  · exact .inl hnone
  · exact .inr ⟨w, id, hw, (List.getElem?_append_left
      (List.getElem?_eq_some_iff.mp hid).1).trans hid, hfirst⟩

/-- What is no write leaves the first writers as they are. -/
theorem Turn.Recalls.keep {t : Turn} {asked : List Nat} {os os' : List Occurrence}
    (h : t.Recalls asked os) (hos : ∀ name, firstWriter? name os' = firstWriter? name os) :
    t.Recalls asked os' := by
  intro name
  rw [hos]
  exact h name

/-- The writer of a variable that nobody wrote before is noted in the table and on the history. -/
theorem Turn.Recalls.grant {t : Turn} {asked : List Nat} {id : Nat} {os os' : List Occurrence}
    {name : String} (h : t.Recalls (asked ++ [id]) os) (hnone : t.firstWriters.get? name = none)
    (hos : ∀ name', firstWriter? name' os' = (firstWriter? name' os).or
      (if some name = some name' then some id else none)) :
    Turn.Recalls { t with firstWriters := t.firstWriters.insert name asked.length }
      (asked ++ [id]) os' := by
  intro name'
  rw [hos]
  show (Table.get? (t.firstWriters.insert name asked.length) name' = none ∧ _) ∨ ∃ w id',
    Table.get? (t.firstWriters.insert name asked.length) name' = some w ∧ _
  rw [Table.get?_insert]
  by_cases hname : name' = name
  · subst hname
    have hunwritten : firstWriter? name' os = none := by
      rcases h name' with ⟨-, hfirst⟩ | ⟨w, id', hw, -⟩
      · exact hfirst
      · rw [hnone] at hw
        cases hw
    refine .inr ⟨asked.length, id, if_pos rfl, by simp, ?_⟩
    rw [hunwritten, if_pos rfl, Option.none_or]
  · have hother : ¬ some name = some name' := fun heq => hname (Option.some.inj heq).symm
    rw [if_neg hname, if_neg hother, Option.or_none]
    exact h name'

/-- A variable that somebody wrote before keeps its first writer. -/
theorem Turn.Recalls.regrant {t : Turn} {asked : List Nat} {id : Nat} {os os' : List Occurrence}
    {name : String} {first : Nat}
    (h : t.Recalls asked os) (hf : t.firstWriters.get? name = some first)
    (hos : ∀ name', firstWriter? name' os' = (firstWriter? name' os).or
      (if some name = some name' then some id else none)) : t.Recalls asked os' := by
  refine h.keep fun name' => ?_
  rw [hos]
  by_cases hname : some name = some name'
  · cases hname
    rcases h name with ⟨hnone, -⟩ | ⟨w, id', -, -, hbefore⟩
    · rw [hf] at hnone
      cases hnone
    · rw [hbefore, Option.some_or]
  · rw [if_neg hname, Option.or_none]

namespace Launch

variable {l m n : Launch} {policy : WritePolicy} {asked opened : List Nat} {id seq : Nat}

/-- The body of a handler is being activated, after the handlers of these numbers were asked. -/
structure Writing (policy : WritePolicy) (asked : List Nat) (id : Nat) (opened : List Nat)
    (l : Launch) : Prop where
  policy : l.context.writePolicy = policy
  turn : ∃ t, l.context.turn = some t ∧ t.writer = some asked.length ∧
    t.Recalls (asked ++ [id]) l.history
  answering : answering? l.history = some id
  /-- No activation that goes on is a write. -/
  opened : ∀ k ∈ opened, k < l.journal.size ∧
    ∃ a, l.history.findSome? (·.enteredAs? k) = some a ∧ a.deed.written? = none

theorem Writing.keep (hl : l.Writing policy asked id opened) (h : l.SameWriters m)
    (hsize : l.journal.size ≤ m.journal.size) : m.Writing policy asked id opened := by
  obtain ⟨os, hos, hq⟩ := h.history
  obtain ⟨t, ht, hw, hr⟩ := hl.turn
  refine ⟨h.policy.trans hl.policy, ⟨t, h.turn.trans ht, hw, hr.keep fun name => ?_⟩, ?_,
    fun k hk => ?_⟩
  · rw [hos]
    exact firstWriter?_append hq
  · rw [hos, answering?_append hq]
    exact hl.answering
  · obtain ⟨hlt, a, ha, hd⟩ := hl.opened k hk
    refine ⟨Nat.lt_of_lt_of_le hlt hsize, a, ?_, hd⟩
    rw [hos, enteredAs?_append hq]
    exact ha

/-- An activation begins. -/
theorem Writing.admitted (hl : l.Writing policy asked id opened) {a : Action}
    (hm : m.context = l.context) (hh : m.history = .entered l.journal.size a :: l.history)
    (hsize : l.journal.size < m.journal.size) : m.Writing policy asked id opened := by
  obtain ⟨t, ht, hw, hr⟩ := hl.turn
  refine ⟨hm ▸ hl.policy, ⟨t, hm ▸ ht, hw, hr.keep fun name => ?_⟩, ?_, fun k hk => ?_⟩
  · rw [hh]
    exact firstWriter?_cons_of_not nofun nofun
  · rw [hh]
    exact hl.answering
  · obtain ⟨hlt, b, hb, hd⟩ := hl.opened k hk
    refine ⟨Nat.lt_trans hlt hsize, b, ?_, hd⟩
    have hne : ¬ l.journal.size = k := Nat.ne_of_gt hlt
    rw [hh, List.findSome?_cons_of_isNone]
    · exact hb
    · simp [Occurrence.enteredAs?, hne]

/-- The activation of an action that writes nothing joins those that go on. -/
theorem Writing.open (hl : l.Writing policy asked id opened) {a : Action} {older : List Occurrence}
    (hh : l.history = .entered seq a :: older) (hsize : seq < l.journal.size)
    (hd : a.deed.written? = none) : l.Writing policy asked id (seq :: opened) := by
  refine ⟨hl.policy, hl.turn, hl.answering, fun k hk => ?_⟩
  rcases List.mem_cons.mp hk with rfl | hk
  · refine ⟨hsize, a, ?_, hd⟩
    rw [hh, List.findSome?_cons_of_isSome]
    · simp [Occurrence.enteredAs?]
    · simp [Occurrence.enteredAs?]
  · exact hl.opened k hk

/-- An activation that is over was no write, or was not completed. -/
theorem Writing.leave (hl : l.Writing policy asked id opened) {outcome : Outcome}
    (hw : written? (.left seq outcome) l.history = none) :
    (l.happen (.left seq outcome)).Writing policy asked id opened := by
  obtain ⟨t, ht, hwriter, hr⟩ := hl.turn
  refine ⟨hl.policy, ⟨t, ht, hwriter, hr.keep fun name => ?_⟩, hl.answering, hl.opened⟩
  refine firstWriter?_cons_of_not nofun ?_
  rw [hw]
  exact nofun

theorem Writing.settle {x : Launch × Performed}
    (hx : x.1.Writing policy asked id (seq :: opened)) (d : Deed) :
    (Launch.leave seq (Launch.settle seq d x)).1.Writing policy asked id opened := by
  have hsize : x.1.journal.size ≤ (Launch.settle seq d x).1.journal.size :=
    (settle_effects (p := fun _ => True) seq d .refl).size_le
  have hsettled := hx.keep (sameWriters_settle seq d x) hsize
  obtain ⟨-, a, ha, hd⟩ := hsettled.opened seq List.mem_cons_self
  have hdropped : (Launch.settle seq d x).1.Writing policy asked id opened :=
    ⟨hsettled.policy, hsettled.turn, hsettled.answering,
      fun k hk => hsettled.opened k (List.mem_cons_of_mem seq hk)⟩
  refine hdropped.leave ?_
  unfold written?
  split
  · rename_i heq
    obtain ⟨rfl, -⟩ := Occurrence.left.inj heq
    rw [ha, Option.bind_some, hd]
  · rfl

/-- What is refused was not completed. -/
theorem gate_ne_completed {a : Action} {outcome : Outcome}
    (h : l.gate seq a = (m, some outcome)) : outcome ≠ .completed := by
  obtain ⟨n, -, hgate⟩ := gate_cases l seq a
  rintro rfl
  rcases hgate with hg | hg | hg | ⟨e, hg⟩ <;> rw [h] at hg <;> cases congrArg Prod.snd hg

theorem Writing.refused (hl : l.Writing policy asked id opened) {a : Action} {outcome : Outcome}
    (h : (l.enter a).2.gate l.journal.size a = (m, some outcome)) :
    (m.happen (.left l.journal.size outcome)).Writing policy asked id opened := by
  have hentered : (l.enter a).2.Writing policy asked id opened :=
    hl.admitted rfl rfl (Nat.lt_of_lt_of_eq (Nat.lt_succ_self _) (l.journal.size_enter a).symm)
  have hgated := hentered.keep (sameWriters_gate (l.enter a).2 l.journal.size a)
    (gate_effects (p := fun _ => True) _ _ a).1.size_le
  rw [h] at hgated
  exact hgated.leave (written?_of_ne (gate_ne_completed h))

/-- The first writers on the history once a write is completed. -/
theorem Writing.firstWriter?_completed (hl : m.Writing policy asked id opened) {a : Action}
    {older : List Occurrence} {name : String} (hh : m.history = .entered seq a :: older)
    (hw : a.deed.written? = some name) (name' : String) :
    firstWriter? name' (.left seq .completed :: m.history) = (firstWriter? name' m.history).or
      (if some name = some name' then some id else none) := by
  rw [firstWriter?_cons (o := .left seq .completed) nofun, hl.answering, hh, written?_completed,
    hw]

/-- A write is completed, and the table says so. -/
theorem Writing.completed (hm : m.Writing policy asked id opened)
    (hp : n.context.writePolicy = m.context.writePolicy)
    (hh : n.history = .left seq .completed :: m.history)
    (hsize : m.journal.size ≤ n.journal.size) {t : Turn} (ht : n.context.turn = some t)
    (hw : t.writer = some asked.length) (hr : t.Recalls (asked ++ [id]) n.history) :
    n.Writing policy asked id opened := by
  refine ⟨hp.trans hm.policy, ⟨t, ht, hw, hr⟩, ?_, fun k hk => ?_⟩
  · rw [hh]
    exact hm.answering
  · obtain ⟨hlt, a, ha, hd⟩ := hm.opened k hk
    refine ⟨Nat.lt_of_lt_of_le hlt hsize, a, ?_, hd⟩
    rw [hh]
    exact ha

/-- A write whose value is known notes the writer unless there was a first one before, in the
table as on the history. -/
theorem Writing.write (hl : l.Writing policy asked id opened) {a : Action} {name : String}
    {target : Context.Target} {value : ValueTemplate} {v : Value} (ha : l.Admits a m)
    (hd : a.deed = .setVariable target name value) (hv : value.resolve m.context = .ok v) :
    (activate a l).1.Writing policy asked id opened := by
  have hm : m.Writing policy asked id opened := hl.admitted ha.context ha.history ha.size_lt
  have hwritten : a.deed.written? = some name := by rw [hd]; rfl
  obtain ⟨t, ht, hw, hr⟩ := hm.turn
  have hfirst := hm.firstWriter?_completed ha.history hwritten
  have hsize : ∀ c, m.journal.size ≤
      (({ m with context := c } : Launch).advance l.journal.size .completed).journal.size :=
    fun _ => Nat.le_of_eq (m.journal.size_advance _ _).symm
  cases hf : t.firstWriters.get? name with
  | none =>
      obtain ⟨hturn, hpolicy⟩ := Context.turn_bind { m.context with
        turn := some { t with
          firstWriters := t.firstWriters.insert name asked.length } } target name v
      rw [activate_of_granted ha hd hv (Context.write_of_unwritten ht hw hf)]
      exact hm.completed hpolicy rfl (hsize _) hturn hw (hr.grant hf hfirst)
  | some first =>
      have hkept := hr.regrant hf hfirst
      by_cases hgrant : first = asked.length ∨ m.context.writePolicy = .lastWins
      · obtain ⟨hturn, hpolicy⟩ := m.context.turn_bind target name v
        have hwrite : m.context.write target name v = (true, m.context.bind target name v) :=
          (Context.write_of_written ht hw hf).trans (if_pos hgrant)
        rw [activate_of_granted ha hd hv hwrite]
        exact hm.completed hpolicy rfl (hsize _) (hturn.trans ht) hw hkept
      · have hwrite : m.context.write target name v = (false, m.context) :=
          (Context.write_of_written ht hw hf).trans (if_neg hgrant)
        rw [activate_of_dropped ha hd hv hwrite]
        refine hm.completed rfl rfl ?_ ht hw hkept
        exact Nat.le_of_eq (((m.journal.note l.journal.size _).size_advance _ _).trans
          (m.journal.size_note _ _)).symm

/-- The table after a write notes the writer unless there was a first one before, and so does the
history. -/
theorem Writing.activateLeaf (hl : l.Writing policy asked id opened) {a : Action}
    (ha : l.Admits a m) (hleaf : a.deed.isLeaf = true) :
    (activate a l).1.Writing policy asked id opened := by
  have hm : m.Writing policy asked id opened :=
    hl.admitted ha.context ha.history ha.size_lt
  cases hw : a.deed.written? with
  | none =>
      have hopen := hm.open ha.history ha.size_lt hw
      rw [activate_of_admits ha, perform_eq, if_pos hleaf]
      exact Writing.settle
        (hopen.keep (sameWriters_performLeaf m l.journal.size a hw) ha.performLeaf_size) a.deed
  | some name =>
      obtain ⟨target, value, hd⟩ := Deed.eq_setVariable_of_written? hw
      cases hv : value.resolve m.context with
      | error e =>
          rw [activate_of_unresolved ha hd hv]
          have hfailed := hm.keep (sameWriters_fail m l.journal.size a.deed e)
            (fail_effects (p := fun _ => True) m _ a.deed e).size_le
          exact hfailed.leave (written?_of_ne nofun)
      | ok v => exact hl.write ha hd hv

theorem Writing.same (hl : l.Writing policy asked id opened)
    (ht : m.context.turn = l.context.turn) (hp : m.context.writePolicy = l.context.writePolicy)
    (hh : m.history = l.history) (hsize : l.journal.size ≤ m.journal.size) :
    m.Writing policy asked id opened :=
  hl.keep ⟨ht, hp, [], hh, by simp⟩ hsize

theorem upheld_writing (policy : WritePolicy) (asked : List Nat) (id : Nat) :
    Upheld fun opened l => l.Writing policy asked id opened where
  refused hl hgate := hl.refused hgate
  leaf hl ha hleaf := hl.activateLeaf ha hleaf
  admitted := by
    intro opened l m a hl ha hleaf
    refine (hl.admitted ha.context ha.history ha.size_lt).open ha.history ha.size_lt ?_
    cases hd : a.deed with
    | setVariable =>
        rw [hd] at hleaf
        cases hleaf
    | _ => rfl
  asked := by
    intro opened l d hl
    exact hl.keep (sameWriters_asked l d) (files_asked l d).size
  performed d failure hm := by
    refine Writing.settle ?_ d
    rw [ofChildren_fst]
    exact hm
  skipAll as why hl := hl.same rfl rfl rfl (files_skipAll _ as why).size
  beginGroup hl := hl.same rfl rfl rfl (Nat.le_refl _)
  endGroup failure hl := hl.keep (sameWriters_endGroup _ failure)
    (endGroup_effects (p := fun _ => True) failure _).size_le
  inScope scope hl := hl.same rfl rfl rfl (Nat.le_refl _)
  restore depth hl := hl.same rfl rfl rfl (Nat.le_refl _)

/-- Wherever a deed is performed in the body, the table says what the history says. -/
theorem Writing.bodyReaches (hl : l.Writing policy asked id opened) {as : List Action} {a : Action}
    (hr : BodyReaches as l a m) : (∃ k : Launch, k.Admits a m) ∧
      ∃ opened', m.Writing policy asked id opened' := by
  obtain ⟨os, k, hk, ha⟩ := (upheld_writing policy asked id).bodyReaches hr hl
  exact ⟨⟨k, ha⟩, os, Writing.admitted hk ha.context ha.history ha.size_lt⟩

/-! ## Between bodies -/

/-- The handlers of an event are being asked, the next one as the given writer: the table says
what the history says, of those that were asked so far. -/
structure Asking (policy : WritePolicy) (writer : Nat) (ids : List Nat) (l : Launch) : Prop where
  policy : l.context.writePolicy = policy
  turn : ∃ asked t, asked.length = writer ∧ (asked ++ ids).Nodup ∧
    l.context.turn = some t ∧ t.Recalls asked l.history

variable {ids : List Nat} {writer : Nat} {e : Event}

theorem asking_openTurn (hp : l.context.writePolicy = policy) (hr : l.registry.Sound)
    (hh : l.history = .dispatched e :: m.history) :
    (l.openTurn e).2.Asking policy 0 (l.openTurn e).1 := by
  refine ⟨hp, [], ⟨.empty, none⟩, rfl, ?_, rfl, fun name => .inl ⟨rfl, ?_⟩⟩
  · show ((l.registry.matching e).1).Nodup
    rw [Registry.matching_fst, Registry.matched, List.map_map]
    exact (hr.increasing.imp Nat.ne_of_lt).sublist (List.filter_sublist.map _)
  · show firstWriter? name l.history = none
    rw [hh]
    rfl

/-- The next handler is passed over. -/
theorem Asking.next (hl : l.Asking policy writer (id :: ids)) :
    l.Asking policy (writer + 1) ids := by
  obtain ⟨asked, t, hlen, hnodup, ht, hr⟩ := hl.turn
  refine ⟨hl.policy, asked ++ [id], t, ?_, ?_, ht, hr.append [id]⟩
  · rw [List.length_append, hlen]
    rfl
  · rw [List.append_assoc]
    exact hnodup

theorem Asking.withWriter (hl : l.Asking policy writer ids) (h : RegisteredHandler)
    (writer' : Nat) : (l.withWriter h writer').Asking policy writer ids := by
  obtain ⟨asked, t, hlen, hnodup, ht, hr⟩ := hl.turn
  refine ⟨hl.policy, asked, { t with writer := some writer' }, hlen, hnodup, ?_, hr⟩
  show l.context.turn.map _ = _
  rw [ht]
  rfl

theorem Asking.same (hl : l.Asking policy writer ids) (h : l.SameWriters m) :
    m.Asking policy writer ids := by
  obtain ⟨asked, t, hlen, hnodup, ht, hr⟩ := hl.turn
  obtain ⟨os, hos, hq⟩ := h.history
  refine ⟨h.policy.trans hl.policy, asked, t, hlen, hnodup, h.turn.trans ht,
    hr.keep fun name => ?_⟩
  rw [hos]
  exact firstWriter?_append hq

/-- The body of the handler that is asked begins. -/
theorem Asking.writing (hl : l.Asking policy writer (id :: ids)) (h : RegisteredHandler)
    (as : List Action) (scope : Option Scope) : ∃ asked, asked.length = writer ∧
      (asked ++ id :: ids).Nodup ∧
      ((l.withWriter h writer).happen (.began (.handler id) as scope)).Writing policy asked id
        [] := by
  obtain ⟨asked, t, rfl, hnodup, ht, hr⟩ := hl.turn
  refine ⟨asked, rfl, hnodup, hl.policy, ⟨{ t with writer := some asked.length }, ?_, rfl, ?_⟩, rfl,
    by simp⟩
  · show l.context.turn.map _ = _
    rw [ht]
    rfl
  · exact (hr.append [id]).keep fun name => firstWriter?_cons_of_not nofun nofun

/-- The body is over. -/
theorem Writing.asking (hl : l.Writing policy asked id opened)
    (hnodup : (asked ++ id :: ids).Nodup) : l.Asking policy (asked.length + 1) ids := by
  obtain ⟨t, ht, -, hr⟩ := hl.turn
  refine ⟨hl.policy, asked ++ [id], t, by simp, ?_, ht, hr⟩
  rw [List.append_assoc]
  exact hnodup

end Launch

/-- What holds of the table of first writers between two bodies. -/
def Phase.Writers (policy : WritePolicy) (l : Launch) : Phase → Prop
  | .turn _ writer ids => l.Asking policy writer ids
  | _ => l.Free policy

/-- What holds of the table of first writers when a body begins. -/
def Beginning.Watched (policy : WritePolicy) (b : Beginning) : Prop :=
  match b.cause with
  | .handler id => ∃ asked, id ∉ asked ∧ b.opened.Writing policy asked id []
  | _ => b.opened.Free policy

variable {config : Config} {host : Host} {args : LaunchArguments} {description : List Action}
  {policy : WritePolicy} {l m : Launch} {s t : Phase} {b : Beginning} {bs : List Beginning}

/-- What is kept up while a body is activated holds when its first action is and when it is
over, if it holds when the body begins. -/
theorem Launch.Upheld.body {I : List Nat → Launch → Prop} (hI : Upheld I) (os : List Nat)
    (h : I os (b.launch.happen b.occurrence)) : I os b.opened ∧ I os b.closed := by
  refine ⟨?_, hI.activateBody h⟩
  unfold Beginning.opened
  split
  · exact h
  · exact hI.inScope _ h

theorem Phase.Passes.writers (hl : l.registry.Sound) (h : s.Passes l t m)
    (hs : s.Writers policy l) : t.Writers policy m := by
  cases h with
  | ignore hp he hshutdown => exact Launch.Free.keep hs rfl rfl
  | @take _ e rest hp hshutdown =>
      exact Launch.asking_openTurn (m := l) (l := (l.withoutNext rest).happen (.dispatched e))
        hs.policy hl rfl
  | miss hf => exact Launch.Asking.next hs
  | decline hf hy ha =>
      exact (hs.next.withWriter _ _).same (Launch.sameWriters_report _ _)
  | @close _ m e writer hm hn =>
      have hclosed : (l.closeTurn e).Free policy := ⟨hs.policy, rfl⟩
      refine hclosed.same (Launch.sameWriters_afterTurn hm fun q status r he => ?_)
      subst he
      exact hn q status r rfl
  | @postpone _ q status writer r delay hr hd hz =>
      have hclosed : (l.closeTurn (.processExited q status)).Free policy := ⟨hs.policy, rfl⟩
      exact (hclosed.same (Launch.sameWriters_releaseProcess _ _)).same
        (Launch.sameWriters_schedule _ _ _ _ _ _)
  | @receive _ a hp hi ha =>
      have hreceived := Launch.Free.same hs (Launch.sameWriters_receive ha)
      cases hx : l.receive a with
      | waiting n =>
          rw [hx] at hreceived
          exact hreceived
      | ended n =>
          rw [hx] at hreceived
          exact hreceived
  | idle hi => exact hs

theorem Phase.Begins.watched (h : s.Begins l b t) (hs : s.Writers policy l) :
    b.Watched policy ∧ t.Writers policy b.closed := by
  cases h with
  | @answer _ m e writer id ids h as hf hy hm ha =>
      have hasking : m.Asking policy writer (id :: ids) := by
        rcases hm with rfl | rfl
        · exact hs
        · exact Launch.Asking.same hs
            (Launch.sameWriters_of_cons (o := .interrupted) rfl rfl rfl rfl)
      obtain ⟨asked, rfl, hnodup, hbegun⟩ := hasking.writing h as h.handler.scope
      obtain ⟨hopened, hclosed⟩ := Launch.Upheld.body
        (b := ⟨.handler id, as, h.handler.scope, m.withWriter h asked.length⟩)
        (Launch.upheld_writing policy asked id) [] hbegun
      refine ⟨⟨asked, ?_, hopened⟩, Launch.Writing.asking hclosed hnodup⟩
      intro hmem
      exact (List.nodup_append.mp hnodup).2.2 id hmem id List.mem_cons_self rfl
  | @restart _ q status writer r delay hr hd hz =>
      have hclosed : (l.closeTurn (.processExited q status)).Free policy := ⟨hs.policy, rfl⟩
      have hbegun := (hclosed.same (Launch.sameWriters_releaseProcess _ q.id)).happen
        (.began (.respawn r.info.id) [r.action] (some r.scope))
      exact (Launch.upheld_free policy).body [] hbegun
  | @fire _ a id t hp hi ha ht =>
      have hbegun := (hs.same ((Launch.sameWriters_arrive l a).trans
        (Launch.sameWriters_elapse _ id t))).happen (.began (.timer id) t.actions (some t.scope))
      exact (Launch.upheld_free policy).body [] hbegun

/-! ## Who is barred from writing -/

/-- Whoever writes is barred from it if the first write of the turn counts and it was that of
another handler. -/
def WriteBarred (policy : WritePolicy) (cause : BodyCause) (name : String)
    (os : List Occurrence) : Prop :=
  policy = .firstWins ∧
    ∃ id first, cause = .handler id ∧ firstWriter? name os = some first ∧ first ≠ id

section Admission

variable {k : Launch} {asked opened : List Nat} {id : Nat} {a : Action}
  {target : Context.Target} {name : String} {value : ValueTemplate} {v : Value}

/-- Outside of the bodies of handlers every write is performed. -/
theorem Launch.Free.binds (hm : m.Free policy) (ha : k.Admits a m)
    (hd : a.deed = .setVariable target name value) (hv : value.resolve m.context = .ok v) :
    k.Binds a target name v :=
  Launch.binds_of_write ha hd hv (Context.write_of_turn_none hm.turn) rfl

/-- A handler has the place of the writer in the turn if it is the one that answers. -/
theorem eq_length_iff {w first : Nat} (hid : id ∉ asked)
    (hw : (asked ++ [id])[w]? = some first) : w = asked.length ↔ first = id := by
  constructor
  · rintro rfl
    simpa using hw.symm
  · rintro rfl
    obtain ⟨hle, -⟩ := List.getElem?_eq_some_iff.mp hw
    rw [List.length_append, List.length_singleton] at hle
    rcases Nat.lt_or_eq_of_le (Nat.le_of_lt_succ hle) with hlt | heq
    · rw [List.getElem?_append_left hlt] at hw
      exact absurd (List.mem_of_getElem? hw) hid
    · exact heq

/-- Whoever is barred is not permitted to write. -/
theorem Launch.Writing.write_of_barred (hm : m.Writing policy asked id opened) (hid : id ∉ asked)
    (h : WriteBarred policy (.handler id) name m.history) :
    m.context.write target name v = (false, m.context) := by
  obtain ⟨t, ht, hw, hr⟩ := hm.turn
  obtain ⟨hpolicy, _, first, ⟨⟩, hsome, hne⟩ := h
  rcases hr name with ⟨-, hfirst⟩ | ⟨w, first', hw', hplace, hfirst⟩
  · rw [hfirst] at hsome
    cases hsome
  · obtain rfl : first' = first := Option.some.inj (hfirst.symm.trans hsome)
    refine (Context.write_of_written ht hw hw').trans (if_neg ?_)
    rintro (hown | hlast)
    · exact hne ((eq_length_iff hid hplace).mp hown)
    · rw [hm.policy, hpolicy] at hlast
      cases hlast

/-- Whoever is not barred writes. -/
theorem Launch.Writing.write_of_not_barred (hm : m.Writing policy asked id opened)
    (hid : id ∉ asked) (h : ¬ WriteBarred policy (.handler id) name m.history) :
    ∃ c, m.context.write target name v = (true, c) ∧
      c.scopes = (m.context.bind target name v).scopes := by
  obtain ⟨t, ht, hw, hr⟩ := hm.turn
  rcases hr name with ⟨hnone, -⟩ | ⟨w, first, hw', hplace, hfirst⟩
  · -- Nobody has written the variable in this turn.
    exact ⟨_, Context.write_of_unwritten ht hw hnone, by cases target <;> rfl⟩
  · refine ⟨_, (Context.write_of_written ht hw hw').trans (if_pos ?_), rfl⟩
    by_cases hown : first = id
    · exact .inl ((eq_length_iff hid hplace).mpr hown)
    · refine .inr ?_
      rw [hm.policy]
      cases policy with
      | lastWins => rfl
      | firstWins => exact absurd ⟨rfl, id, first, rfl, hfirst, hown⟩ h

/-- In the body of a handler a write is dropped if the handler is barred, and performed if not. -/
theorem Launch.Writing.drops_or_binds (hm : m.Writing policy asked id opened) (hid : id ∉ asked)
    (ha : k.Admits a m) (hd : a.deed = .setVariable target name value)
    (hv : value.resolve m.context = .ok v) :
    (WriteBarred policy (.handler id) name m.history → k.Drops a) ∧
      (¬ WriteBarred policy (.handler id) name m.history → k.Binds a target name v) := by
  refine ⟨fun hbarred => ?_, fun hfree => ?_⟩
  · exact Launch.drops_of_write ha hd hv (hm.write_of_barred hid hbarred)
  · obtain ⟨c, hwrite, hc⟩ := hm.write_of_not_barred hid hfree
    exact Launch.binds_of_write ha hd hv hwrite hc

/-- A body that is no handler's is barred from nothing. -/
theorem not_writeBarred {cause : BodyCause} {os : List Occurrence}
    (h : ∀ id, cause ≠ .handler id) : ¬ WriteBarred policy cause name os := by
  rintro ⟨-, id, -, hid, -⟩
  exact h id hid

/-- In a body that has begun a write is dropped if its writer is barred, and performed if not. -/
theorem Beginning.Watched.drops_or_binds (hb : b.Watched policy)
    (hr : BodyReaches b.actions b.opened a m) (hd : a.deed = .setVariable target name value)
    (hv : value.resolve m.context = .ok v) :
    (∃ k : Launch, k.Admits a m) ∧ ∀ k : Launch, k.Admits a m →
      (WriteBarred policy b.cause name m.history → k.Drops a) ∧
        (¬ WriteBarred policy b.cause name m.history → k.Binds a target name v) := by
  unfold Watched at hb
  split at hb
  · rename_i id hcause
    obtain ⟨asked, hid, hopened⟩ := hb
    obtain ⟨hadmits, _, hm⟩ := hopened.bodyReaches hr
    rw [hcause]
    exact ⟨hadmits, fun k ha => hm.drops_or_binds hid ha hd hv⟩
  · rename_i hcause
    obtain ⟨hadmits, hm⟩ := hb.bodyReaches hr
    exact ⟨hadmits, fun k ha => ⟨fun hbarred => absurd hbarred (not_writeBarred hcause),
      fun _ => hm.binds ha hd hv⟩⟩

end Admission

theorem Context.turn_passAll (c : Context) (args : LaunchArguments) :
    (c.passAll args).turn = c.turn ∧ (c.passAll args).writePolicy = c.writePolicy := by
  unfold passAll
  induction args generalizing c with
  | nil => exact ⟨rfl, rfl⟩
  | cons x rest ih => exact ih (c.pass x.1 x.2)

theorem Launch.free_start : (start config host args).Free config.writePolicy := by
  obtain ⟨hturn, hpolicy⟩ := Context.turn_passAll { Context.start host with
    allowRedeclare := config.allowRedeclare
    writePolicy := config.writePolicy } args
  exact ⟨hpolicy, hturn⟩

namespace Course

theorem writers (h : Course config host args description bs s l) :
    s.Writers config.writePolicy l := by
  induction h with
  | begin => exact Launch.free_start.activateAll description
  | pass hbefore hp ih =>
      have hstart := Launch.sound_start (p := fun _ => True) config host args
      exact hp.writers (hstart.strides hbefore.strides).registry ih
  | body _ hb ih => exact (hb.watched ih).2

theorem watched_of_mem (h : Course config host args description bs s l) (hb : b ∈ bs) :
    b.Watched config.writePolicy := by
  obtain ⟨later, earlier, hbs⟩ := List.append_of_mem hb
  obtain ⟨s₀, l₀, s₁, hbefore, hbegins⟩ := h.exists_begins hbs
  exact (hbegins.watched hbefore.writers).1

end Course

/-- **Writes follow the policy.** A run takes a course. Wherever in a body, at whatever depth, a
variable is to be set to a value that is known, the action is let through, and what its activation
does is settled by the history: when the first write of a turn counts, and in the turn of the event
that was taken last another handler was the first to write the variable, then the write is dropped,
and in all other cases it is performed. So no write is dropped in the description, in the body of a
timer or when a process is started again, and none at all when the last write counts. -/
theorem writes_follow_policy :
    (∀ x, Reachable config host args description x →
      ∃ bs, Course config host args description bs x.phase x.launch) ∧
    (∀ a m target name value v,
      BodyReaches description (.start config host args) a m →
      a.deed = .setVariable target name value → value.resolve m.context = .ok v →
      (∃ k : Launch, k.Admits a m) ∧ ∀ k : Launch, k.Admits a m → k.Binds a target name v) ∧
    ∀ bs s l, Course config host args description bs s l → ∀ b ∈ bs,
      ∀ a m target name value v, BodyReaches b.actions b.opened a m →
        a.deed = .setVariable target name value → value.resolve m.context = .ok v →
        (∃ k : Launch, k.Admits a m) ∧ ∀ k : Launch, k.Admits a m →
          (WriteBarred config.writePolicy b.cause name m.history → k.Drops a) ∧
          (¬ WriteBarred config.writePolicy b.cause name m.history →
            k.Binds a target name v) := by
  refine ⟨fun x hx => hx.course, fun a m target name value v hr hd hv => ?_,
    fun bs s l hl b hb a m target name value v hr hd hv => ?_⟩
  · obtain ⟨hadmits, hm⟩ := Launch.free_start.bodyReaches hr
    exact ⟨hadmits, fun k ha => hm.binds ha hd hv⟩
  · exact (hl.watched_of_mem hb).drops_or_binds hr hd hv

/-- An action that sets a variable to a text. -/
def Action.assign (bits : BitVec 128) (name text : String) : Action :=
  .mk ⟨bits⟩ none (.setVariable .innermost name (.text [.text text]))

/-- Two handlers of one event that set one variable. -/
def rivals : List Action :=
  [.listen 1 none false "ping" [.assign 2 "x" "1"], .listen 3 none false "ping" [.assign 4 "x" "2"],
    .ring 5 "ping"]

def Config.firstWins : Config := { Config.standard with writePolicy := .firstWins }

/-- The second of two handlers that set one variable in one turn finds it written by the first
one, and its write is dropped. -/
theorem rival_write_dropped :
    ∃ bs s l, Course .firstWins .willing [] rivals bs s l ∧
      ∃ b ∈ bs, b.cause = .handler 1 ∧ ∃ m,
        BodyReaches b.actions b.opened (.assign 4 "x" "2") m ∧
        firstWriter? "x" m.history = some 0 ∧
        (∃ k : Launch, k.Admits (.assign 4 "x" "2") m) ∧
        ∀ k : Launch, k.Admits (.assign 4 "x" "2") m → k.Drops (.assign 4 "x" "2") := by
  have hp : (Launch.begin .firstWins .willing [] rivals).context.pending =
      [.custom "ping" .null] := rfl
  have hasked := (@Course.begin .firstWins .willing [] rivals).pass (.take hp (by decide))
  have hids : ((((Launch.begin .firstWins .willing [] rivals).withoutNext []).happen
      (.dispatched (.custom "ping" .null))).openTurn (.custom "ping" .null)).1 = [0, 1] := by
    decide +kernel
  rw [hids] at hasked
  have hfirst := hasked.body (.answer rfl rfl (.inl rfl) rfl)
  have hsecond := hfirst.body (.answer rfl rfl (.inl rfl) rfl)
  obtain ⟨-, -, hpolicy⟩ := @writes_follow_policy .firstWins .willing [] rivals
  obtain ⟨hadmits, hdropped⟩ := hpolicy _ _ _ hsecond _ List.mem_cons_self _ _ .innermost "x" _ _
    (.head (.self rfl)) rfl rfl
  refine ⟨_, _, _, hsecond, _, List.mem_cons_self, rfl, _, .head (.self rfl), rfl, hadmits, ?_⟩
  exact fun k ha => (hdropped k ha).1 ⟨rfl, 1, 0, rfl, rfl, by decide⟩

end Conductor
