import Conductor.Proofs.Launch.Declarations

/-!
# The table of arguments over a run

Wherever a course comes to, between two bodies or to a deed (`Visits`), the table of arguments is
what the declarations performed until then have made it: what has been entered last under a name
stands there, whichever scope it was declared in (`Visits.argument?_eq_some_iff`). `TableKept` says
what follows for a run.
-/

namespace Conductor

variable {config : Config} {host : Host} {args : LaunchArguments} {description : List Action}
  {bs : List Beginning} {s t : Phase} {b : Beginning} {l m k : Launch} {a : Action}
  {d : Argument} {name : String}

/-! ## Between two bodies -/

theorem Phase.Passes.declared (hp : s.Passes l t m) :
    m.context.declared = l.context.declared := by
  rcases hp.steady_or with h | ⟨q, status, r, delay, -, rfl⟩
  · exact h.declared
  · exact (Launch.steady_givenUp l q status).declared

theorem Phase.Begins.declared (hb : s.Begins l b t) :
    b.opened.context.declared = l.context.declared := by
  have hopened : b.opened.context.declared = b.launch.context.declared := by
    unfold Beginning.opened
    split <;> rfl
  exact hopened.trans hb.steady.declared

theorem Phase.Begins.precedes_opened (hb : s.Begins l b t) : l.Precedes b.opened := by
  have hbefore := hb.steady.leaves.suffix_history.length_le
  unfold Launch.Precedes
  rw [b.history_opened, List.length_cons]
  omega

/-! ## What has been performed -/

theorem hasPerformed_nil : HasPerformed config host args description [] a k ↔
    BodyReaches description (.start config host args) a k :=
  ⟨fun h => h.resolve_right fun hbody => List.not_mem_nil hbody.choose_spec.1, .inl⟩

theorem hasPerformed_cons : HasPerformed config host args description (b :: bs) a k ↔
    BodyReaches b.actions b.opened a k ∨ HasPerformed config host args description bs a k := by
  constructor
  · rintro (h | ⟨body, hbody, h⟩)
    · exact .inr (.inl h)
    · rcases List.mem_cons.mp hbody with rfl | hbody
      · exact .inl h
      · exact .inr (.inr ⟨body, hbody, h⟩)
  · rintro (h | h)
    · exact .inr ⟨b, List.mem_cons_self, h⟩
    · exact h.cons

/-- The launches that a course comes to: those between two bodies, and those in which deeds are
performed. -/
inductive Visits (config : Config) (host : Host) (args : LaunchArguments)
    (description : List Action) : List Beginning → Phase → Launch → Launch → Prop where
  | reach {a : Action} {k : Launch} (hr : BodyReaches description (.start config host args) a k) :
      Visits config host args description [] .waiting (.begin config host args description) k
  | stand {bs : List Beginning} {s : Phase} {l : Launch}
      (h : Course config host args description bs s l) :
      Visits config host args description bs s l l
  | pass {bs : List Beginning} {s t : Phase} {l m k : Launch}
      (h : Visits config host args description bs s l k) (hp : s.Passes l t m) :
      Visits config host args description bs t m k
  | body {bs : List Beginning} {s t : Phase} {l k : Launch} {b : Beginning}
      (h : Visits config host args description bs s l k) (hb : s.Begins l b t) :
      Visits config host args description (b :: bs) t b.closed k
  | inside {bs : List Beginning} {s t : Phase} {l k : Launch} {b : Beginning} {a : Action}
      (h : Course config host args description bs s l) (hb : s.Begins l b t)
      (hr : BodyReaches b.actions b.opened a k) :
      Visits config host args description (b :: bs) t b.closed k

namespace Course

/-- Every deed is performed before the course comes to where it is. -/
theorem precedes (h : Course config host args description bs s l)
    (hk : HasPerformed config host args description bs a k) : k.Precedes l := by
  induction h with
  | begin => exact Launch.precedes_activateAll_of_reaches (hasPerformed_nil.mp hk)
  | pass _ hp ih => exact Nat.lt_of_lt_of_le (ih hk) hp.suffix_history.length_le
  | @body _ _ _ _ b _ hb ih =>
      rcases hasPerformed_cons.mp hk with hr | hk
      · exact (Launch.precedes_activateAll_of_reaches hr).proceeds
          (Launch.divisible_proceeds.exit (P := fun _ _ => False) b)
      · exact ((ih hk).trans hb.precedes_opened).proceeds b.proceeds_closed

theorem visits_of_performed (h : Course config host args description bs s l)
    (hk : HasPerformed config host args description bs a k) :
    Visits config host args description bs s l k := by
  induction h with
  | begin => exact .reach (hasPerformed_nil.mp hk)
  | pass _ hp ih => exact (ih hk).pass hp
  | body hbefore hb ih =>
      rcases hasPerformed_cons.mp hk with hr | hk
      · exact .inside hbefore hb hr
      · exact (ih hk).body hb

/-- The table has been made by what was performed. -/
theorem tabulates (h : Course config host args description bs s l) :
    Launch.Tabulates (HasPerformed config host args description bs)
      (.start config host args) l := by
  induction h with
  | begin => exact (Launch.divisible_tabulates.activateAll description _).2.mono fun _ _ => .inl
  | pass _ hp ih => exact ih.trans (Launch.tabulates_of_declared hp.declared)
  | @body _ _ _ _ b _ hb ih =>
      have hbody := (Launch.divisible_tabulates.body b).2
      refine (ih.mono fun _ _ => .cons).trans ((Launch.tabulates_of_declared hb.declared).trans ?_)
      exact hbody.mono fun _ _ hr => hasPerformed_cons.mpr (.inl hr)

/-- What has become of the table since a deed has been made by what was performed later. -/
theorem tabulates_since (h : Course config host args description bs s l)
    (hk : HasPerformed config host args description bs a k) : ∃ k', k'.Admits a k ∧
      Launch.Tabulates (fun c n => HasPerformed config host args description bs c n ∧ k.Precedes n)
        (Launch.activate a k').1 l := by
  induction h with
  | begin =>
      obtain ⟨k', hk', hafter⟩ := Launch.divisible_tabulates.bodyAfter (hasPerformed_nil.mp hk)
      exact ⟨k', hk', hafter.2.mono fun _ _ hn => ⟨.inl hn.1, hn.2⟩⟩
  | pass _ hp ih =>
      obtain ⟨k', hk', hsince⟩ := ih hk
      exact ⟨k', hk', hsince.trans (Launch.tabulates_of_declared hp.declared)⟩
  | @body _ _ _ _ b hbefore hb ih =>
      rcases hasPerformed_cons.mp hk with hr | hk
      · obtain ⟨k', hk', hrest⟩ := Launch.divisible_tabulates.rest hr
        exact ⟨k', hk', hrest.2.mono fun _ _ hn => ⟨hasPerformed_cons.mpr (.inl hn.1), hn.2⟩⟩
      · obtain ⟨k', hk', hsince⟩ := ih hk
        have hearly := (hbefore.precedes hk).trans hb.precedes_opened
        refine ⟨k', hk', (hsince.mono fun _ _ hn => ⟨hn.1.cons, hn.2⟩).trans
          ((Launch.tabulates_of_declared hb.declared).trans ?_)⟩
        exact (Launch.divisible_tabulates.body b).2.mono fun _ _ hr =>
          ⟨hasPerformed_cons.mpr (.inl hr), hearly.trans (Launch.precedes_of_bodyReaches hr)⟩

end Course

namespace Visits

theorem length_le (hm : Visits config host args description bs s l m) :
    m.history.length ≤ l.history.length := by
  induction hm with
  | reach hr => exact Nat.le_of_lt (Launch.precedes_activateAll_of_reaches hr)
  | stand => exact Nat.le_refl _
  | pass _ hp ih => exact Nat.le_trans ih hp.suffix_history.length_le
  | @body _ _ _ _ _ b _ hb ih =>
      have hopened := Nat.le_trans ih (Nat.le_of_lt hb.precedes_opened)
      exact Nat.le_trans hopened b.proceeds_closed.length_le
  | inside _ _ hr => exact (Beginning.proceeds_of_reached hr).length_le

theorem tabulates (hm : Visits config host args description bs s l m) :
    Launch.Tabulates (fun a k => HasPerformed config host args description bs a k ∧ k.Precedes m)
      (.start config host args) m := by
  induction hm with
  | reach hr =>
      exact (Launch.divisible_tabulates.bodyToDeed hr).2.mono fun _ _ hn => ⟨.inl hn.1, hn.2⟩
  | stand h => exact h.tabulates.mono fun _ _ hk => ⟨hk, h.precedes hk⟩
  | pass _ _ ih => exact ih
  | body _ _ ih => exact ih.mono fun _ _ hn => ⟨hn.1.cons, hn.2⟩
  | inside h hb hr =>
      have hbefore := h.tabulates.trans (Launch.tabulates_of_declared hb.declared)
      have hinside := (Launch.divisible_tabulates.bodyToDeed hr).2
      have hthere := Launch.precedes_of_bodyReaches hr
      exact (hbefore.mono fun _ _ hk =>
          ⟨hk.cons, ((h.precedes hk).trans hb.precedes_opened).trans hthere⟩).trans
        (hinside.mono fun _ _ hn => ⟨hasPerformed_cons.mpr (.inl hn.1), hn.2⟩)

/-- What has become of the table since a deed without children has been made by what was performed
in between. -/
theorem tabulates_since (hm : Visits config host args description bs s l m)
    (hk : HasPerformed config host args description bs a k) (hleaf : a.deed.isLeaf = true)
    (hkm : k.Precedes m) : ∃ k', k'.Admits a k ∧
      Launch.Tabulates (fun c n => HasPerformed config host args description bs c n ∧
        k.Precedes n ∧ n.Precedes m) (Launch.activate a k').1 m := by
  induction hm with
  | reach hr =>
      obtain ⟨k', hk', hbetween⟩ :=
        Launch.divisible_tabulates.bodyBetween (hasPerformed_nil.mp hk) hleaf hkm hr
      exact ⟨k', hk', hbetween.2.mono fun _ _ hn => ⟨.inl hn.1, hn.2⟩⟩
  | stand h =>
      obtain ⟨k', hk', hsince⟩ := h.tabulates_since hk
      exact ⟨k', hk', hsince.mono fun _ _ hn => ⟨hn.1, hn.2, h.precedes hn.1⟩⟩
  | pass _ _ ih => exact ih hk hkm
  | body hbefore hb ih =>
      -- What this body performs comes after all that was visited before it.
      rcases hasPerformed_cons.mp hk with hr | hk
      · have hlate := hb.precedes_opened.trans (Launch.precedes_of_bodyReaches hr)
        exact absurd (Nat.lt_of_le_of_lt hbefore.length_le hlate) hkm.not_gt
      · obtain ⟨k', hk', hsince⟩ := ih hk hkm
        exact ⟨k', hk', hsince.mono fun _ _ hn => ⟨hn.1.cons, hn.2⟩⟩
  | inside h hb hr =>
      rcases hasPerformed_cons.mp hk with hk | hk
      · obtain ⟨k', hk', hbetween⟩ := Launch.divisible_tabulates.bodyBetween hk hleaf hkm hr
        exact ⟨k', hk', hbetween.2.mono fun _ _ hn => ⟨hasPerformed_cons.mpr (.inl hn.1), hn.2⟩⟩
      · obtain ⟨k', hk', hsince⟩ := h.tabulates_since hk
        have hearly := (h.precedes hk).trans hb.precedes_opened
        refine ⟨k', hk', (hsince.mono fun _ _ hn => ?_).trans
          ((Launch.tabulates_of_declared hb.declared).trans
            ((Launch.divisible_tabulates.bodyToDeed hr).2.mono fun _ _ hn => ?_))⟩
        · exact ⟨hn.1.cons, hn.2,
            ((h.precedes hn.1).trans hb.precedes_opened).trans (Launch.precedes_of_bodyReaches hr)⟩
        · exact ⟨hasPerformed_cons.mpr (.inl hn.1),
            hearly.trans (Launch.precedes_of_bodyReaches hn.1), hn.2⟩

end Visits

/-! ## Before anything is activated -/

namespace Context

theorem passAll_keeps (c : Context) (args : LaunchArguments) :
    (c.passAll args).arguments = c.arguments ∧
      (c.passAll args).allowRedeclare = c.allowRedeclare := by
  induction args generalizing c with
  | nil => exact ⟨rfl, rfl⟩
  | cons a rest ih => exact ih (c.pass a.1 a.2)

theorem mem_keys_passAll (c : Context) (args : LaunchArguments) :
    name ∈ (c.passAll args).passed.keys ↔ name ∈ c.passed.keys ∨ name ∈ args.map (·.1) := by
  induction args generalizing c with
  | nil => simp [passAll]
  | cons a rest ih =>
      have hpass : name ∈ (c.pass a.1 a.2).passed.keys ↔ name = a.1 ∨ name ∈ c.passed.keys := by
        simp only [pass, Table.mem_keys_iff, Table.get?_insert]
        split <;> simp [*]
      have hrest := ih (c.pass a.1 a.2)
      rw [hpass] at hrest
      rw [List.map_cons, List.mem_cons]
      exact hrest.trans (or_assoc.trans or_left_comm)

theorem mem_unused (c : Context) :
    name ∈ c.unused ↔ name ∈ c.passed.keys ∧ c.arguments.get? name = none := by
  simp [unused, Table.contains]

/-- The names stand in order, each of them once. -/
theorem pairwise_unused (c : Context) : c.unused.Pairwise (· < ·) :=
  (List.pairwise_map.mpr c.passed.ordered).filter _

end Context

namespace Launch

theorem argument?_start (name : String) : (start config host args).argument? name = none :=
  congrArg (·.get? name) (Context.passAll_keeps _ args).1

theorem allowRedeclare_start :
    (start config host args).context.allowRedeclare = config.allowRedeclare :=
  (Context.passAll_keeps _ args).2

theorem mem_keys_passed_start :
    name ∈ (start config host args).context.passed.keys ↔ name ∈ args.map (·.1) := by
  refine (Context.mem_keys_passAll _ args).trans ⟨fun h => h.resolve_left ?_, .inr⟩
  exact List.not_mem_nil

theorem unusedArguments_finish (l : Launch) : l.finish.unusedArguments = l.context.unused :=
  congrArg Context.unused (context_closing l)

/-! ## What stands in the table -/

/-- Of the deeds before the launch that entered an argument under its name, one that entered this
argument has none after it. -/
def EnteredLast (performed : Action → Launch → Prop) (m : Launch) (d : Argument) : Prop :=
  ∃ a k, performed a k ∧ k.Precedes m ∧ k.Enters a d ∧
    ∀ b j e, performed b j → k.Precedes j → j.Precedes m → j.Enters b e → e.name ≠ d.name

end Launch

namespace Visits

variable {m' : Launch}

/-- What has been entered last stands in the table. -/
theorem argument?_of_enteredLast (hm : Visits config host args description bs s l m)
    (hd : m.EnteredLast (HasPerformed config host args description bs) d) :
    m.argument? d.name = some d := by
  obtain ⟨a, k, hk, hkm, henters, hlast⟩ := hd
  obtain ⟨k', hk', hsince⟩ := hm.tabulates_since hk henters.1.1.isLeaf hkm
  rcases hsince.entry d.name with hsame | ⟨b, j, e, ⟨hj, hkj, hjm⟩, hje, hname, -⟩
  · exact hsame.trans (henters.entry hk')
  · exact absurd hname (hlast b j e hj hkj hjm hje)

/-- Once a declaration has been accepted there is an entry of its name. -/
theorem exists_entry (hm : Visits config host args description bs s l m)
    (hk : HasPerformed config host args description bs a k) (hkm : k.Precedes m)
    (hd : k.Accepts a d) : ∃ e, m.argument? d.name = some e := by
  obtain ⟨k', hk', hsince⟩ := hm.tabulates_since hk hd.1.isLeaf hkm
  obtain ⟨old, hold⟩ := hd.exists_entry hk'
  exact hsince.exists_entry hold

/-- **An entry is what has been entered last under its name.** -/
theorem argument?_eq_some_iff (hm : Visits config host args description bs s l m) :
    m.argument? name = some d ↔
      d.name = name ∧ m.EnteredLast (HasPerformed config host args description bs) d := by
  constructor
  · intro he
    -- Something has been entered under the name, so something has been entered last.
    rcases hm.tabulates.entry name with hsame | ⟨a, k, e, hk, henters, hname, -⟩
    · rw [he, Launch.argument?_start] at hsame
      cases hsame
    · obtain ⟨k, ⟨a, e, ⟨hk, hkm⟩, henters, rfl⟩, hlatest⟩ := Launch.exists_latest
        (Q := fun k => ∃ a e, (HasPerformed config host args description bs a k ∧ k.Precedes m) ∧
          k.Enters a e ∧ e.name = name)
        (fun _ ⟨_, _, h, _⟩ => h.2) ⟨a, e, hk, henters, hname⟩
      have hlast : m.EnteredLast (HasPerformed config host args description bs) e :=
        ⟨a, k, hk, hkm, henters, fun b j e' hj hkj hjm hje hsame =>
          hlatest j ⟨b, e', ⟨hj, hjm⟩, hje, hsame⟩ hkj⟩
      obtain rfl := Option.some.inj ((hm.argument?_of_enteredLast hlast).symm.trans he)
      exact ⟨rfl, hlast⟩
  · rintro ⟨rfl, hlast⟩
    exact hm.argument?_of_enteredLast hlast

/-- **A name has no entry as long as no declaration of it has been accepted.** -/
theorem argument?_eq_none_iff (hm : Visits config host args description bs s l m) :
    m.argument? name = none ↔ ∀ a k d, HasPerformed config host args description bs a k →
      k.Precedes m → k.Accepts a d → d.name ≠ name := by
  constructor
  · rintro hnone a k d hk hkm hd rfl
    obtain ⟨e, he⟩ := hm.exists_entry hk hkm hd
    rw [hnone] at he
    cases he
  · intro hall
    cases he : m.argument? name with
    | none => rfl
    | some d =>
        obtain ⟨hname, a, k, hk, hkm, henters, -⟩ := hm.argument?_eq_some_iff.mp he
        exact absurd hname (hall a k d hk hkm henters.1)

theorem allowRedeclare (hm : Visits config host args description bs s l m) :
    m.context.allowRedeclare = config.allowRedeclare :=
  hm.tabulates.allowRedeclare.trans Launch.allowRedeclare_start

/-- **Where entries are not replaced, they never change.** -/
theorem argument?_kept (hm : Visits config host args description bs s l m)
    (hm' : Visits config host args description bs s l m') (hle : ¬ m'.Precedes m)
    (h : Course config host args description bs s l) (hkeeps : config.allowRedeclare = false)
    (he : m.argument? name = some d) : m'.argument? name = some d := by
  obtain ⟨rfl, a, k, hk, hkm, henters, -⟩ := hm.argument?_eq_some_iff.mp he
  have hearly : k.Precedes m' := Nat.lt_of_lt_of_le hkm (Nat.le_of_not_lt hle)
  apply hm'.argument?_of_enteredLast
  refine ⟨a, k, hk, hearly, henters, fun b j e hj hkj _ hje hname => ?_⟩
  -- A later declaration of the name would find no entry, but there is one by then.
  have hthere := h.visits_of_performed hj
  obtain ⟨old, hold⟩ := hthere.exists_entry hk hkj henters.1
  have hnone := hje.argument?_eq_none (hthere.allowRedeclare.trans hkeeps)
  rw [hname, hold] at hnone
  cases hnone

end Visits

/-! ## Over a run -/

/-- What holds of the table of arguments over a run that has taken a course. -/
structure TableKept (config : Config) (host : Host) (args : LaunchArguments)
    (description : List Action) (bs : List Beginning) (s : Phase) (l : Launch) : Prop where
  /-- An entry is what has been entered last under its name: the latest declaration that was
  accepted and was the first one, or whose default differed from that of the entry it found. -/
  entry : ∀ m, Visits config host args description bs s l m → ∀ name d,
    m.argument? name = some d ↔
      d.name = name ∧ m.EnteredLast (HasPerformed config host args description bs) d
  /-- There is none as long as no declaration of the name has been accepted. -/
  undeclared : ∀ m, Visits config host args description bs s l m → ∀ name,
    m.argument? name = none ↔ ∀ a k d, HasPerformed config host args description bs a k →
      k.Precedes m → k.Accepts a d → d.name ≠ name
  /-- From then on there is one, whichever scopes are left. -/
  survives : ∀ m m', Visits config host args description bs s l m →
    Visits config host args description bs s l m' → ¬ m'.Precedes m →
      ∀ name, m.argument? name ≠ none → m'.argument? name ≠ none
  /-- Unless entries are replaced it never changes, -/
  kept : config.allowRedeclare = false → ∀ m m', Visits config host args description bs s l m →
    Visits config host args description bs s l m' → ¬ m'.Precedes m →
      ∀ name d, m.argument? name = some d → m'.argument? name = some d
  /-- and a declaration with another default is refused. -/
  refused : config.allowRedeclare = false → ∀ a (k' k : Launch) d old,
    HasPerformed config host args description bs a k → k'.Admits a k → k.Declares a d →
      k.argument? d.name = some old → old.default ≠ d.default →
        k'.FailsWith a (.duplicateArgument d.name old.default d.default)
  /-- One with the same default completes and leaves the table as it was. -/
  repeated : ∀ a (k' k : Launch) d old, k'.Admits a k → k.Declares a d →
    k.argument? d.name = some old → old.default = d.default →
      (Launch.activate a k').2 = .completed ∧
        ∀ name, (Launch.activate a k').1.argument? name = k'.argument? name
  /-- To be accepted is to complete. -/
  accepted : ∀ a (k' k : Launch) t, k'.Admits a k → a.deed = .declare t →
    ((Launch.activate a k').2 = .completed ↔ ∃ d, k.Accepts a d)
  /-- An action that is not let through leaves the table as it was, as does one that is skipped,
  and a declaration that fails. -/
  unchanged : ∀ a (k' : Launch), (∀ k, ¬ k'.Admits a k) ∨ (Launch.activate a k').2 = .skipped ∨
    (∃ t, a.deed = .declare t) ∧ (Launch.activate a k').2 ≠ .completed →
      ∀ name, (Launch.activate a k').1.argument? name = k'.argument? name
  /-- The arguments reported as unused stand in order, each of them once. -/
  ordered : l.finish.unusedArguments.Pairwise (· < ·)
  /-- They are those passed at launch of which no declaration has been accepted. -/
  unused : ∀ name, name ∈ l.finish.unusedArguments ↔ name ∈ args.map (·.1) ∧
    ∀ a k d, HasPerformed config host args description bs a k → k.Accepts a d → d.name ≠ name

/-- **The table of arguments over a run.** A run takes a course, and wherever one comes to, in the
description, in the bodies of handlers and timers or when a process is started again, the table is
what the declarations that were accepted until then have made it. -/
theorem argument_table {x : Standing} (h : Reachable config host args description x) :
    (∃ bs, Course config host args description bs x.phase x.launch) ∧
      ∀ bs, Course config host args description bs x.phase x.launch →
        TableKept config host args description bs x.phase x.launch := by
  refine ⟨h.course, fun bs hcourse => ?_⟩
  constructor
  case entry => exact fun m hm name d => hm.argument?_eq_some_iff
  case undeclared => exact fun m hm name => hm.argument?_eq_none_iff
  case survives =>
    intro m m' hm hm' hle name hsome hnone
    obtain ⟨d, he⟩ := Option.ne_none_iff_exists'.mp hsome
    obtain ⟨hname, a, k, hk, hkm, henters, -⟩ := hm.argument?_eq_some_iff.mp he
    exact hm'.argument?_eq_none_iff.mp hnone a k d hk
      (Nat.lt_of_lt_of_le hkm (Nat.le_of_not_lt hle)) henters.1 hname
  case kept =>
    exact fun hkeeps m m' hm hm' hle name d => hm.argument?_kept hm' hle hcourse hkeeps
  case refused =>
    intro hkeeps a k' k d old hk ha hd hold hother
    have hthere := hcourse.visits_of_performed hk
    exact Launch.failsWith_of_contradicts ha hd hold hother (hthere.allowRedeclare.trans hkeeps)
  case repeated =>
    intro a k' k d old ha hd hold hsame
    have haccepted := Context.declare_of_repeats ⟨old, hold, hsame⟩
    obtain ⟨hout, hcontext⟩ := Launch.activate_of_accepted ha hd haccepted
    refine ⟨hout, Launch.argument?_of_declared ?_⟩
    rw [hcontext, Context.declared_bindDefault, ha.context]
  case accepted => exact fun a k' k t ha ht => Launch.completed_iff_accepts ht ha
  case unchanged =>
    rintro a k' (hstopped | hskipped | ⟨⟨t, ht⟩, hout⟩)
    · exact Launch.argument?_of_declared (Launch.declared_of_not_admits hstopped)
    · exact Launch.argument?_of_declared
        (Launch.declared_of_not_admits fun k ha => ha.not_skipped hskipped)
    · exact Launch.argument?_of_declared (Launch.declared_of_not_completed ht hout)
  case ordered =>
    rw [Launch.unusedArguments_finish]
    exact Context.pairwise_unused _
  case unused =>
    intro name
    have hpassed : name ∈ x.launch.context.passed.keys ↔ name ∈ args.map (·.1) := by
      rw [hcourse.tabulates.passed]
      exact Launch.mem_keys_passed_start
    rw [Launch.unusedArguments_finish, Context.mem_unused, hpassed]
    refine and_congr_right fun _ => (Visits.stand hcourse).argument?_eq_none_iff.trans ?_
    exact ⟨fun hall a k d hk => hall a k d hk (hcourse.precedes hk),
      fun hall a k d hk _ => hall a k d hk⟩

/-- An action that declares the argument `x`. -/
def Action.declaring (bits : BitVec 128) (default : String) : Action :=
  .mk ⟨bits⟩ none (.declare { name := "x", default := some [.text default] })

/-- An argument that is declared in a group, and afterwards with another default. -/
def redeclared : List Action :=
  [.mk ⟨1⟩ none (.group [] [.declaring 2 "1"]), .declaring 3 "2"]

/-- The second declaration is refused, and the entry of the first one stays when its group is
over; the argument that is passed is not the one declared. -/
theorem redeclaration_refused :
    ∃ bs x, ∃ k' k : Launch, Reachable .standard .bare [("y", "7")] redeclared x ∧
      Course .standard .bare [("y", "7")] redeclared bs x.phase x.launch ∧
      HasPerformed .standard .bare [("y", "7")] redeclared bs (.declaring 3 "2") k ∧
      k'.Admits (.declaring 3 "2") k ∧
      k'.FailsWith (.declaring 3 "2") (.duplicateArgument "x" (some "1") (some "2")) ∧
      x.launch.argument? "x" = some ⟨"x", some "1", none, []⟩ ∧
      ∀ a j d, HasPerformed .standard .bare [("y", "7")] redeclared bs a j → j.Accepts a d →
        d.name ≠ "y" := by
  have hstart : Reachable .standard .bare [("y", "7")] redeclared
      (.waiting (.begin .standard .bare [("y", "7")] redeclared)) := .begin
  have hcourse : Course .standard .bare [("y", "7")] redeclared [] .waiting
      (.begin .standard .bare [("y", "7")] redeclared) := .begin
  have hkept := (argument_table hstart).2 [] hcourse
  -- The launch in which the second declaration is activated, and the one in which it is performed.
  let k' := (Launch.activate (.mk ⟨1⟩ none (.group [] [.declaring 2 "1"]))
    (.start .standard .bare [("y", "7")])).1
  let k := ((k'.enter (.declaring 3 "2")).2.gate k'.journal.size (.declaring 3 "2")).1
  have hnone : ((k'.enter (.declaring 3 "2")).2.gate k'.journal.size
      (.declaring 3 "2")).2 = none := by decide +kernel
  have ha : k'.Admits (.declaring 3 "2") k := Prod.ext rfl hnone
  have hreach : BodyReaches redeclared (.start .standard .bare [("y", "7")])
      (.declaring 3 "2") k := .tail (.head (.self ha))
  have hdeclares : k.Declares (.declaring 3 "2") ⟨"x", some "2", none, []⟩ := ⟨_, rfl, by rfl⟩
  have hold : k.argument? "x" = some ⟨"x", some "1", none, []⟩ := by decide +kernel
  have hunused : "y" ∈ (Launch.begin .standard .bare [("y", "7")]
      redeclared).finish.unusedArguments := by decide +kernel
  have hvisit : Visits .standard .bare [("y", "7")] redeclared [] .waiting
      (.begin .standard .bare [("y", "7")] redeclared) k := .reach hreach
  have hrefused := hkept.refused rfl (.declaring 3 "2") k' k ⟨"x", some "2", none, []⟩
    ⟨"x", some "1", none, []⟩ (.inl hreach) ha hdeclares hold (by decide)
  have hstays := hkept.kept rfl k _ hvisit (.stand hcourse) (Nat.not_lt.mpr hvisit.length_le)
    "x" _ hold
  exact ⟨[], _, k', k, hstart, hcourse, .inl hreach, ha, hrefused, hstays,
    ((hkept.unused "y").mp hunused).2⟩

end Conductor
