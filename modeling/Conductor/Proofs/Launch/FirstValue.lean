import Conductor.Proofs.Launch.Halves
import Conductor.Proofs.Launch.Recall
import Conductor.Proofs.Launch.Writes

/-!
# The first value of a turn

When the first write of a turn counts, what other handlers write to the variable is dropped. The
permission goes by the name alone, but the value that was written first is in one of the scopes.
If it is in the root it stays there, since the turn permits no other write, until a deed removes
it (`KeepsRoot`); removing a variable needs no permission. `first_value_stands` says so of the
last value that the first writer put there.
-/

namespace Conductor

namespace Scope

variable {s : Scope} {name name' : String}

theorem get?_setVar_self (s : Scope) (name : String) (v : Value) :
    (s.setVar name v).vars.get? name = some v :=
  (Table.get?_insert _ _ _ _).trans (if_pos rfl)

theorem get?_setVar_of_ne (h : name ≠ name') (v : Value) :
    (s.setVar name' v).vars.get? name = s.vars.get? name :=
  (Table.get?_insert _ _ _ _).trans (if_neg h)

end Scope

namespace ScopeStack

/-- The innermost scope is the root only if there is no other. -/
theorem root_modifyTop (f : Scope → Scope) (s : ScopeStack) :
    (s.modifyTop f).root = s.root ∨ (s.inner = [] ∧ (s.modifyTop f).root = f s.root) := by
  obtain ⟨inner, root⟩ := s
  cases inner with
  | nil => exact .inr ⟨rfl, rfl⟩
  | cons top below => exact .inl rfl

theorem get?_root_setTop {s : ScopeStack} {name name' : String} {v : Value}
    (h : s.inner = [] → name ≠ name') :
    (s.modifyTop (·.setVar name' v)).root.vars.get? name = s.root.vars.get? name := by
  rcases s.root_modifyTop (·.setVar name' v) with hroot | ⟨hinner, hroot⟩
  · exact congrArg (·.vars.get? name) hroot
  · exact (congrArg (·.vars.get? name) hroot).trans (Scope.get?_setVar_of_ne (h hinner) v)

/-- A variable is removed from the root only if no other scope binds it. -/
theorem root_unset (name : String) (s : ScopeStack) :
    (s.unset name).root = s.root ∨
      (s.inner.any (·.vars.contains name) = false ∧
        (s.unset name).root = s.root.eraseVar name) := by
  unfold unset
  cases h : s.inner.any (·.vars.contains name) with
  | true => exact .inl rfl
  | false => exact .inr ⟨rfl, rfl⟩

/-- What is invisible is not bound in the root either. -/
theorem get?_root_of_lookup {s : ScopeStack} {name : String} (h : s.lookup name = none) :
    s.root.vars.get? name = none :=
  List.findSome?_eq_none_iff.mp h s.root (List.mem_append_right s.inner (List.mem_singleton_self _))

/-- Where there is only the root, it alone decides what is visible. -/
theorem lookup_of_inner_eq_nil {s : ScopeStack} (h : s.inner = []) (name : String) :
    s.lookup name = s.root.vars.get? name := by
  obtain ⟨inner, root⟩ := s
  cases h
  show List.findSome? _ [root] = _
  rw [List.findSome?_cons, List.findSome?_nil]
  cases root.vars.get? name <;> rfl

end ScopeStack

namespace Launch

variable {l m n k : Launch} {a : Action} {name : String} {v : Value}

/-! ## Values in the root -/

/-- The value of a variable in the root. -/
def inRoot? (l : Launch) (name : String) : Option Value :=
  l.context.scopes.root.vars.get? name

/-- The deed of the action sets the variable to the value. -/
def Sets (k : Launch) (a : Action) (name : String) (v : Value) : Prop :=
  ∃ target value, a.deed = .setVariable target name value ∧ value.resolve k.context = .ok v

/-- It does so in the root, by its target or because there is no other scope. -/
def SetsInRoot (k : Launch) (a : Action) (name : String) (v : Value) : Prop :=
  ∃ target value, a.deed = .setVariable target name value ∧ value.resolve k.context = .ok v ∧
    (target = .root ∨ k.context.scopes.inner = [])

/-- The deed of the action removes the variable from the root. -/
def UnsetsInRoot (k : Launch) (a : Action) (name : String) : Prop :=
  a.deed = .unsetVariable name ∧ k.context.scopes.inner.any (·.vars.contains name) = false

/-- Performing the deed makes a difference to the variable in the root. -/
def AltersRoot (k : Launch) (a : Action) (name : String) : Prop :=
  ((∃ v, k.SetsInRoot a name v) ∧ (k.context.requestWrite name).1 = true) ∨ k.UnsetsInRoot a name

/-- A variable of the root that is bound keeps its value, unless a deed that is performed makes a
difference to it. -/
structure KeepsRoot (name : String) (performed : Action → Launch → Prop) (l m : Launch) : Prop where
  proceeds : l.Proceeds m
  kept : (∀ a k, performed a k → ¬ k.AltersRoot a name) →
    ∀ v, l.inRoot? name = some v → m.inRoot? name = some v

theorem inRoot?_of_same (h : m.context.scopes = l.context.scopes) (name : String) :
    m.inRoot? name = l.inRoot? name := by
  unfold inRoot?
  rw [h]

/-- What a deed does to the scopes makes no other difference to the root. -/
theorem Rebinds.inRoot? {after : ScopeStack} (h : l.Rebinds a after) (ha : ¬ l.AltersRoot a name)
    (hv : l.inRoot? name = some v) : after.root.vars.get? name = some v := by
  cases h with
  | same => exact hv
  | @bind target name' value w hd hres hw =>
      have hne : target = .root ∨ l.context.scopes.inner = [] → name ≠ name' := by
        rintro hroot rfl
        exact ha (.inl ⟨⟨w, _, _, hd, hres, hroot⟩, hw⟩)
      cases target with
      | innermost => exact (ScopeStack.get?_root_setTop fun hinner => hne (.inr hinner)).trans hv
      | root => exact (Scope.get?_setVar_of_ne (hne (.inl rfl)) w).trans hv
  | @unset name' hd =>
      rcases l.context.scopes.root_unset name' with hroot | ⟨hinner, hroot⟩
      · exact (congrArg (·.vars.get? name) hroot).trans hv
      · have hne : name ≠ name' := by
          rintro rfl
          exact ha (.inr ⟨hd, hinner⟩)
        refine (congrArg (·.vars.get? name) hroot).trans ?_
        exact (Table.get?_erase _ _ _).trans ((if_neg hne).trans hv)
  | @default name' text hnone =>
      refine (ScopeStack.get?_root_setTop fun _ => ?_).trans hv
      rintro rfl
      have hunbound := ScopeStack.get?_root_of_lookup hnone
      rw [show l.context.scopes.root.vars.get? name = some v from hv] at hunbound
      cases hunbound
  | @override name' value =>
      rcases l.context.scopes.root_modifyTop (·.setEnv name' value) with hroot | ⟨-, hroot⟩
      · exact (congrArg (·.vars.get? name) hroot).trans hv
      · exact (congrArg (·.vars.get? name) hroot).trans hv

/-- **Nothing but its deeds makes a difference to the root, in activations and their halves.** -/
theorem divisible_keepsRoot (name : String) : Divisible (KeepsRoot name) where
  mono h hk := ⟨hk.proceeds, fun hnot => hk.kept fun a k ha => hnot a k (h a k ha)⟩
  trans h h' := ⟨h.proceeds.trans h'.proceeds, fun hnot v hv => h'.kept hnot v (h.kept hnot v hv)⟩
  aside h := ⟨h.proceeds, fun _ _ hv => (inRoot?_of_same h.scopes name).trans hv⟩
  enter a := ⟨divisible_proceeds.enter (P := fun _ _ => False) a, fun _ _ hv => hv⟩
  leave seq outcome :=
    ⟨divisible_proceeds.leave (P := fun _ _ => False) seq outcome, fun _ _ hv => hv⟩
  leaf {seq a l} hleaf := by
    refine ⟨divisible_proceeds.leaf hleaf, fun hnot v hv => ?_⟩
    exact (rebinds_performLeaf l seq a).inRoot? (hnot a l ⟨rfl, rfl⟩) hv
  inside _ h := ⟨h.proceeds, h.kept⟩
  proceeds h := h.proceeds
  inScope _ := ⟨proceeds_of_same rfl, fun _ _ hv => hv⟩
  restore _ := ⟨proceeds_of_same rfl, fun _ _ hv => hv⟩

/-- A write to the root that is performed leaves its value there. -/
theorem Binds.inRoot? {target : Context.Target} (h : k.Binds a target name v)
    (hroot : target = .root ∨ k.context.scopes.inner = []) :
    (activate a k).1.inRoot? name = some v := by
  have hset := Scope.get?_setVar_self k.context.scopes.root name v
  have hscopes := congrArg (·.root.vars.get? name) h.scopes
  refine hscopes.trans ?_
  rcases hroot with rfl | hinner
  · exact hset
  · cases target with
    | root => exact hset
    | innermost =>
        show (k.context.scopes.modifyTop _).root.vars.get? name = some v
        unfold ScopeStack.modifyTop
        rw [hinner]
        exact hset

/-! ## Within a turn -/

/-- No event has been taken since. -/
def WithinTurn (l m : Launch) : Prop :=
  ∃ os, m.history = os ++ l.history ∧ ∀ o ∈ os, ∀ e, o ≠ .dispatched e

theorem WithinTurn.trans (h : l.WithinTurn m) (h' : m.WithinTurn n) : l.WithinTurn n := by
  obtain ⟨os, hos, hq⟩ := h
  obtain ⟨os', hos', hq'⟩ := h'
  refine ⟨os' ++ os, by rw [hos', hos, List.append_assoc], fun o ho => ?_⟩
  exact (List.mem_append.mp ho).elim (hq' o) (hq o)

theorem Proceeds.withinTurn (h : l.Proceeds m) : l.WithinTurn m := by
  obtain ⟨os, hos, hq⟩ := h
  refine ⟨os, hos, ?_⟩
  rintro o ho e rfl
  cases hq _ ho

theorem SameWriters.withinTurn (h : l.SameWriters m) : l.WithinTurn m := by
  obtain ⟨os, hos, hq⟩ := h.history
  refine ⟨os, hos, ?_⟩
  rintro o ho e rfl
  cases hq _ ho

theorem WithinTurn.length_le (h : l.WithinTurn m) : l.history.length ≤ m.history.length := by
  obtain ⟨os, hos, -⟩ := h
  rw [hos, List.length_append]
  exact Nat.le_add_left _ _

/-- What lies in between is within the same turn. -/
theorem WithinTurn.right (h : l.WithinTurn n) (hl : l.history <:+ m.history)
    (hm : m.history <:+ n.history) : m.WithinTurn n := by
  obtain ⟨os, hos, hq⟩ := h
  obtain ⟨os₁, hos₁⟩ := hl
  obtain ⟨os₂, hos₂⟩ := hm
  have hsplit : os = os₂ ++ os₁ := by
    rw [← hos₂, ← hos₁, ← List.append_assoc] at hos
    exact (List.append_cancel_right hos).symm
  exact ⟨os₂, hos₂.symm, fun o ho => hq o (by rw [hsplit]; exact List.mem_append_left os₁ ho)⟩

/-- The first writer stays the first writer. -/
theorem WithinTurn.firstWriter? {id : Nat} (h : l.WithinTurn m)
    (hf : firstWriter? name l.history = some id) : firstWriter? name m.history = some id := by
  obtain ⟨os, hos, hq⟩ := h
  rw [hos]
  clear hos
  induction os with
  | nil => exact hf
  | cons o rest ih =>
      obtain ⟨ho, hrest⟩ := List.forall_mem_cons.mp hq
      rw [List.cons_append, firstWriter?_cons ho, ih hrest, Option.some_or]

/-- Whoever becomes the first writer while a handler answers is that handler. -/
theorem Proceeds.firstWriter?_cases {id : Nat} (h : l.Proceeds m)
    (ha : answering? l.history = some id) (name : String) :
    firstWriter? name m.history = firstWriter? name l.history ∨
      (firstWriter? name l.history = none ∧ firstWriter? name m.history = some id) := by
  obtain ⟨os, hos, hq⟩ := h
  rw [hos]
  clear hos
  suffices hboth : answering? (os ++ l.history) = some id ∧
      (firstWriter? name (os ++ l.history) = firstWriter? name l.history ∨
        (firstWriter? name l.history = none ∧
          firstWriter? name (os ++ l.history) = some id)) from hboth.2
  induction os with
  | nil => exact ⟨ha, .inl rfl⟩
  | cons o rest ih =>
      obtain ⟨ho, hrest⟩ := List.forall_mem_cons.mp hq
      obtain ⟨hans, hcases⟩ := ih hrest
      have hstill : answering? (o :: (rest ++ l.history)) = some id := by
        cases o with
        | began => cases ho
        | _ => exact hans
      have hdispatched : ∀ e, o ≠ .dispatched e := by
        rintro e rfl
        cases ho
      refine ⟨hstill, ?_⟩
      rw [List.cons_append, firstWriter?_cons hdispatched, hans]
      rcases hcases with hsame | ⟨hnone, hsome⟩
      · rw [hsame]
        cases hold : firstWriter? name l.history with
        | some first => exact .inl rfl
        | none =>
            rw [Option.none_or]
            split
            · exact .inr ⟨rfl, rfl⟩
            · exact .inl rfl
      · rw [hsome, Option.some_or]
        exact .inr ⟨hnone, rfl⟩

end Launch

/-! ## The table of first writers -/

/-- The place of the handler that the turn has noted as the first writer. -/
def Context.noted? (c : Context) (name : String) : Option Nat :=
  c.turn.bind (·.firstWriters.get? name)

/-- The permission to write one variable notes nothing of another one. -/
theorem Turn.get?_grant {name name' : String} (h : name ≠ name') (t : Turn)
    (policy : WritePolicy) :
    (t.grant policy name').2.firstWriters.get? name = t.firstWriters.get? name := by
  unfold grant
  split
  · rfl
  · split
    · exact (Table.get?_insert _ _ _ _).trans (if_neg h)
    · rfl

theorem Context.noted?_write {name name' : String} (h : name ≠ name') (c : Context)
    (target : Target) (v : Value) : (c.write target name' v).2.noted? name = c.noted? name := by
  have hasked : (c.requestWrite name').2.noted? name = c.noted? name := by
    unfold requestWrite
    split
    · rfl
    · rename_i t ht
      unfold noted?
      rw [ht]
      exact t.get?_grant h c.writePolicy
  unfold write
  split
  · rename_i d hd
    rw [hd] at hasked
    have hbound := (d.turn_bind target name' v).1
    exact (congrArg (·.bind (·.firstWriters.get? name)) hbound).trans hasked
  · rename_i d hd
    rw [hd] at hasked
    exact hasked

namespace Launch

variable {l m n k : Launch} {a : Action} {name : String} {v : Value}

/-- The turn has the same first writer of the variable in both launches, unless a deed that is
performed sets the variable. -/
def NotesWrites (name : String) (performed : Action → Launch → Prop) (l m : Launch) : Prop :=
  m.context.noted? name = l.context.noted? name ∨ ∃ a k v, performed a k ∧ k.Sets a name v

theorem SameWriters.noted? (h : l.SameWriters m) (name : String) :
    m.context.noted? name = l.context.noted? name :=
  congrArg (·.bind (·.firstWriters.get? name)) h.turn

theorem notesWrites_performLeaf (l : Launch) (seq : Nat) (a : Action) (name : String) :
    NotesWrites name (fun b k => b = a ∧ k = l) l (l.performLeaf seq a a.deed).1 := by
  cases hw : a.deed.written? with
  | none => exact .inl ((sameWriters_performLeaf l seq a hw).noted? name)
  | some name' =>
      obtain ⟨target, value, hd⟩ := Deed.eq_setVariable_of_written? hw
      rw [hd, performLeaf]
      cases hv : value.resolve l.context with
      | error e => exact .inl rfl
      | ok v =>
          by_cases hname : name = name'
          · subst hname
            exact .inr ⟨a, l, v, ⟨rfl, rfl⟩, target, value, hd, hv⟩
          · have hnoted := l.context.noted?_write hname target v
            left
            dsimp only
            split
            · rename_i c hc
              rw [hc] at hnoted
              exact hnoted
            · rename_i c hc
              rw [hc] at hnoted
              exact hnoted

theorem assembled_notesWrites (name : String) : Assembled SameWriters (NotesWrites name) where
  mono h hl := hl.imp_right fun ⟨a, k, v, hp, hs⟩ => ⟨a, k, v, h a k hp, hs⟩
  trans h h' := by
    rcases h' with hsame | hset
    · exact h.imp_left hsame.trans
    · exact .inr hset
  around h := .inl (h.noted? name)
  enter _ := .inl rfl
  leave _ _ := .inl rfl
  leaf {seq a l} _ := notesWrites_performLeaf l seq a name
  inside _ h := h

/-! ## While a handler answers -/

variable {policy : WritePolicy} {asked opened : List Nat} {id first : Nat} {b : Beginning}

/-- What is kept up in a body holds at its end. -/
theorem Upheld.closed {I : List Nat → Launch → Prop} (hI : Upheld I) {os : List Nat}
    (h : I os b.opened) : I os b.closed := by
  obtain ⟨cause, actions, scope, k⟩ := b
  cases scope with
  | none => exact hI.activateAll actions h
  | some scope => exact hI.restore _ (hI.activateAll actions h)

/-- The table has noted a first writer if the history tells of one. -/
theorem Writing.noted?_eq_none (hl : l.Writing policy asked id opened) (name : String) :
    l.context.noted? name = none ↔ firstWriter? name l.history = none := by
  obtain ⟨t, ht, -, hr⟩ := hl.turn
  unfold Context.noted?
  rw [ht]
  show t.firstWriters.get? name = none ↔ _
  rcases hr name with ⟨hnone, hfirst⟩ | ⟨w, first, hw, -, hfirst⟩
  · rw [hnone, hfirst]
  · rw [hw, hfirst]
    simp

/-- A handler that becomes the first writer has set the variable. -/
theorem Writing.exists_sets (hb : b.opened.Writing policy asked id [])
    (hnone : firstWriter? name b.opened.history = none)
    (hsome : firstWriter? name b.closed.history = some first) :
    ∃ a k v, BodyReaches b.actions b.opened a k ∧ k.Sets a name v := by
  have hclosed : b.closed.Writing policy asked id [] := (upheld_writing policy asked id).closed hb
  have hall := (assembled_notesWrites name).activateAll surrounds_sameWriters b.actions b.opened
  have hrestored : b.closed.context.noted? name =
      (activateAll b.actions b.opened).context.noted? name := by
    obtain ⟨cause, actions, scope, k⟩ := b
    cases scope <;> rfl
  rcases hall with hsame | hsets
  · have hunnoted := (hclosed.noted?_eq_none name).mp
      (hrestored.trans (hsame.trans ((hb.noted?_eq_none name).mpr hnone)))
    rw [hsome] at hunnoted
    cases hunnoted
  · exact hsets

/-- In its own body the first writer is not barred, so what it sets in the root last is there when
the body is over, unless the body has removed it. -/
theorem Writing.inRoot?_closed (hb : b.opened.Writing policy asked id []) (hid : id ∉ asked)
    (hfirst : firstWriter? name b.closed.history = some id)
    (hr : BodyReaches b.actions b.opened a m) (hs : m.SetsInRoot a name v)
    (hlater : ∀ c n, BodyReaches b.actions b.opened c n → m.Precedes n →
      (∀ w, ¬ n.SetsInRoot c name w) ∧ ¬ n.UnsetsInRoot c name) :
    b.closed.inRoot? name = some v := by
  obtain ⟨k, hk, hrest⟩ := (divisible_keepsRoot name).rest hr
  obtain ⟨target, value, hd, hv, hroot⟩ := hs
  obtain ⟨-, _, hm⟩ := hb.bodyReaches hr
  have hfree : ¬ WriteBarred policy (.handler id) name m.history := by
    rintro ⟨-, _, first, ⟨⟩, hsome, hne⟩
    have hkept := (Beginning.proceeds_of_reached hr).withinTurn.firstWriter? hsome
    rw [hfirst] at hkept
    exact hne (Option.some.inj hkept).symm
  have hwritten := ((hm.drops_or_binds hid hk hd hv).2 hfree).inRoot? (by rwa [← hk.context])
  refine hrest.kept ?_ v hwritten
  rintro c n ⟨hc, hn⟩ (⟨⟨w, hw⟩, -⟩ | hu)
  · exact (hlater c n hc hn).1 w hw
  · exact (hlater c n hc hn).2 hu

/-- In the body of another handler every write is refused, so the root keeps the value, unless the
body removes it. -/
theorem Writing.inRoot?_kept (hb : b.opened.Writing .firstWins asked id []) (hid : id ∉ asked)
    (hfirst : firstWriter? name b.opened.history = some first) (hne : first ≠ id)
    (hkept : ∀ c n, BodyReaches b.actions b.opened c n → ¬ n.UnsetsInRoot c name)
    (hv : b.opened.inRoot? name = some v) : b.closed.inRoot? name = some v := by
  refine ((divisible_keepsRoot name).body b).kept ?_ v hv
  rintro c n hc (⟨-, hgranted⟩ | hu)
  · obtain ⟨-, _, hn⟩ := hb.bodyReaches hc
    have hstill := (Beginning.proceeds_reached hc).withinTurn.firstWriter? hfirst
    have hrefused : n.context.write .root name v = (false, n.context) :=
      hn.write_of_barred hid ⟨rfl, id, first, rfl, hstill, hne⟩
    rw [← n.context.fst_write .root name v, hrefused] at hgranted
    cases hgranted
  · exact hkept c n hc hu

/-- The first writer is none of the handlers that are still to be asked. -/
theorem Asking.firstWriter?_not_mem {writer : Nat} {ids : List Nat}
    (hl : l.Asking policy writer ids) (hf : firstWriter? name l.history = some first) :
    first ∉ ids := by
  obtain ⟨asked, t, -, hnodup, -, hr⟩ := hl.turn
  rcases hr name with ⟨-, hnone⟩ | ⟨w, first', -, hplace, hsome⟩
  · rw [hf] at hnone
    cases hnone
  · obtain rfl : first' = first := Option.some.inj (hsome.symm.trans hf)
    intro hmem
    exact (List.nodup_append.mp hnodup).2.2 first' (List.mem_of_getElem? hplace) first' hmem rfl

end Launch

/-! ## Along a turn -/

namespace Beginning

variable {b b' : Beginning} {bs : List Beginning} {id : Nat} {name : String} {l m : Launch}

/-- The value is the last one that the body sets the variable to in the root, and none of the
bodies has removed the variable from there since. -/
def WritesLast (bs : List Beginning) (b : Beginning) (name : String) (v : Value) : Prop :=
  ∃ a m, BodyReaches b.actions b.opened a m ∧ m.SetsInRoot a name v ∧
    (∀ c n w, BodyReaches b.actions b.opened c n → m.Precedes n → ¬ n.SetsInRoot c name w) ∧
    ∀ b' ∈ bs, ∀ c n, BodyReaches b'.actions b'.opened c n → m.Precedes n →
      ¬ n.UnsetsInRoot c name

/-- The body is that of the handler, is over, and has set the variable in the turn in which the
launch is. What it has written last stands. -/
structure WritesFirst (bs : List Beginning) (id : Nat) (name : String) (l : Launch)
    (b : Beginning) : Prop where
  cause : b.cause = .handler id
  closed : b.closed.WithinTurn l
  sets : ∃ a m v, BodyReaches b.actions b.opened a m ∧ m.Sets a name v
  stands : ∀ v, b.WritesLast bs name v → l.inRoot? name = some v

theorem withinTurn_closed (b : Beginning) : b.launch.WithinTurn b.closed := by
  have hopened : b.launch.WithinTurn b.opened :=
    ⟨[b.occurrence], b.history_opened, by simp [occurrence]⟩
  exact hopened.trans b.proceeds_closed.withinTurn

theorem inRoot?_opened (b : Beginning) (name : String) :
    b.opened.inRoot? name = b.launch.inRoot? name := by
  unfold opened
  split <;> rfl

theorem WritesFirst.keep (h : b.WritesFirst bs id name l) (ht : l.WithinTurn m)
    (hv : m.inRoot? name = l.inRoot? name) : b.WritesFirst bs id name m :=
  ⟨h.cause, h.closed.trans ht, h.sets, fun v hlast => hv.trans (h.stands v hlast)⟩

/-- Another handler answers. -/
theorem WritesFirst.answer {id' : Nat} {asked : List Nat}
    (h : b.WritesFirst bs id name l) (hopened : l.WithinTurn b'.opened)
    (hroot : b'.opened.inRoot? name = l.inRoot? name)
    (hw : b'.opened.Writing .firstWins asked id' []) (hid : id' ∉ asked)
    (hfirst : firstWriter? name b'.opened.history = some id) (hne : id ≠ id') :
    b.WritesFirst (b' :: bs) id name b'.closed := by
  refine ⟨h.cause, (h.closed.trans hopened).trans b'.proceeds_closed.withinTurn, h.sets, ?_⟩
  rintro v ⟨a, m, hr, hs, hlast, hkept⟩
  have hbefore : l.inRoot? name = some v :=
    h.stands v ⟨a, m, hr, hs, hlast, fun b'' hb'' => hkept b'' (List.mem_cons_of_mem b' hb'')⟩
  refine hw.inRoot?_kept hid hfirst hne (fun c n hc => ?_) (hroot.trans hbefore)
  -- Whatever the body performs comes after the value was written.
  refine hkept b' List.mem_cons_self c n hc ?_
  have hover : m.history.length ≤ b'.opened.history.length :=
    Nat.le_trans (proceeds_of_reached hr).length_le (h.closed.trans hopened).length_le
  exact Nat.lt_of_le_of_lt hover (Launch.precedes_of_bodyReaches hc)

/-- The first writer itself answers. -/
theorem writesFirst_closed {asked : List Nat} (hc : b.cause = .handler id)
    (hw : b.opened.Writing .firstWins asked id []) (hid : id ∉ asked)
    (hnone : firstWriter? name b.opened.history = none)
    (hsome : firstWriter? name b.closed.history = some id) :
    b.WritesFirst (b :: bs) id name b.closed := by
  refine ⟨hc, ⟨[], rfl, by simp⟩, hw.exists_sets hnone hsome, ?_⟩
  rintro v ⟨a, m, hr, hs, hlast, hkept⟩
  exact hw.inRoot?_closed hid hsome hr hs fun c n hreach hn =>
    ⟨fun w => hlast c n w hreach hn, hkept b List.mem_cons_self c n hreach hn⟩

end Beginning

variable {config : Config} {host : Host} {args : LaunchArguments} {description : List Action}
  {bs : List Beginning} {s t : Phase} {b : Beginning} {l m : Launch} {name : String} {id : Nat}

/-- When the body of a handler begins, what was written in the turn is as it was. -/
theorem Phase.Begins.opened_answer {e : Event} {writer writer' : Nat} {ids ids' : List Nat}
    (h : (Phase.turn e writer ids).Begins l b (.turn e writer' ids')) (name : String) :
    l.WithinTurn b.opened ∧ b.opened.inRoot? name = l.inRoot? name ∧
      firstWriter? name b.opened.history = firstWriter? name l.history := by
  have hroot : b.opened.inRoot? name = l.inRoot? name :=
    (b.inRoot?_opened name).trans (Launch.inRoot?_of_same h.steady.scopes name)
  cases h with
  | @answer _ m _ _ id _ g as hf hy hm ha =>
      have hasked : ∃ os, m.history = os ++ l.history ∧ ∀ o ∈ os, o.bearsOnWrites = false := by
        rcases hm with rfl | rfl
        · exact ⟨[], rfl, by simp⟩
        · exact ⟨[.interrupted], rfl, by simp [Occurrence.bearsOnWrites]⟩
      obtain ⟨os, hos, hq⟩ := hasked
      have hopened := Beginning.history_opened
        ⟨.handler id, as, g.handler.scope, m.withWriter g writer⟩
      change _ = .began (.handler id) as g.handler.scope :: m.history at hopened
      rw [hos] at hopened
      refine ⟨⟨.began (.handler id) as g.handler.scope :: os, hopened, ?_⟩, hroot, ?_⟩
      · rintro o ho e' rfl
        rcases List.mem_cons.mp ho with heq | ho
        · cases heq
        · cases hq _ ho
      · rw [hopened, firstWriter?_cons_of_not (o := .began _ _ _) nofun nofun,
          firstWriter?_append hq]

namespace Course

/-- **The first writer of a turn has written, and what it has written last stands.** -/
theorem exists_writesFirst (h : Course config host args description bs s l)
    (hp : config.writePolicy = .firstWins) {e : Event} {writer : Nat} {ids : List Nat}
    (hs : s = .turn e writer ids) (hf : firstWriter? name l.history = some id) :
    ∃ b ∈ bs, b.WritesFirst bs id name l := by
  induction h generalizing writer ids id with
  | begin => cases hs
  | pass hbefore hpass ih =>
      cases hpass with
      | take hpending hshutdown => cases hf
      | miss hgone =>
          cases hs
          exact ih rfl hf
      | decline hfound hy ha =>
          cases hs
          rename_i l₀ writer₀ id₀ g err
          have hreported := Launch.sameWriters_report (l₀.withWriter g writer₀) err
          obtain ⟨os, hos, hq⟩ := hreported.history
          rw [hos, firstWriter?_append hq] at hf
          obtain ⟨b, hb, hfirst⟩ := ih rfl hf
          refine ⟨b, hb, hfirst.keep hreported.withinTurn ?_⟩
          exact Launch.inRoot?_of_same
            (Launch.aside_report (l₀.withWriter g writer₀) err).scopes name
      | @receive _ a hpending hi ha =>
          rename_i l₀
          cases hx : l₀.receive a <;> rw [hx] at hs <;> cases hs
      | ignore | close | postpone | idle => cases hs
  | @body bs s t l₀ b hbefore hb ih =>
      have hwriters := hbefore.writers
      have hwatched := (hb.watched hwriters).1
      rw [hp] at hwriters hwatched
      have hbegun := hb
      cases hb with
      | restart | fire => cases hs
      | @answer _ m _ writer₀ id₀ ids₀ g as hfound hy hm ha =>
          cases hs
          obtain ⟨asked, hid, hopened⟩ := hwatched
          obtain ⟨hwithin, hroot, hsame⟩ := hbegun.opened_answer name
          cases hold : firstWriter? name l₀.history with
          | none =>
              have hnone := hsame.trans hold
              have hown : id = id₀ := by
                rcases (Beginning.proceeds_closed _).firstWriter?_cases hopened.answering name with
                  hnot | ⟨-, hsome⟩
                · rw [hnot, hnone] at hf
                  cases hf
                · exact Option.some.inj (hf.symm.trans hsome)
              subst hown
              exact ⟨_, List.mem_cons_self,
                Beginning.writesFirst_closed rfl hopened hid hnone hf⟩
          | some first =>
              have hfirst := hsame.trans hold
              have hstill := (Beginning.proceeds_closed _).withinTurn.firstWriter? hfirst
              obtain rfl : first = id := Option.some.inj (hstill.symm.trans hf)
              obtain ⟨b, hb, hwrites⟩ := ih rfl hold
              have hne : first ≠ id₀ := by
                rintro rfl
                exact Launch.Asking.firstWriter?_not_mem hwriters hold List.mem_cons_self
              exact ⟨b, List.mem_cons_of_mem _ hb,
                hwrites.answer hwithin hroot hopened hid hfirst hne⟩

end Course

/-- A write that is dropped is not performed. -/
theorem Launch.Drops.not_binds {k : Launch} {a : Action} {target : Context.Target} {v : Value}
    (h : k.Drops a) : ¬ k.Binds a target name v := by
  intro hbinds
  obtain ⟨r, hr, -, hnote⟩ := h.noted
  obtain ⟨r', hr', -, hnone⟩ := hbinds.noted
  obtain rfl : r' = r := Option.some.inj (hr'.symm.trans hr)
  rw [hnone] at hnote
  cases hnote

/-- **The first value stands.** Every turn of an event comes to an end to which a course leads.
When in the turn a write of a variable is dropped, the first write of a turn counts, and another
handler was the first to write the variable in this turn; its body has set it. The last value to
which it has set the variable in the root is what is visible under the name when the turn is over,
unless a body has removed the variable from the root since. -/
theorem first_value_stands :
    (∀ l e rest, Reachable config host args description (.waiting l) →
      l.context.pending = e :: rest → (e.isShutdownRequest = true → l.shutdown = none) →
      ∃ bs writer m, Course config host args description bs (.turn e writer []) m ∧
        ((l.withoutNext rest).happen (.dispatched e)).turn e = m.closeTurn e) ∧
    ∀ bs e writer l, Course config host args description bs (.turn e writer []) l →
      ∀ b ∈ bs, b.launch.WithinTurn l → ∀ (k : Launch) a m name v,
        BodyReaches b.actions b.opened a m → m.Sets a name v → k.Admits a m → k.Drops a →
        config.writePolicy = .firstWins ∧ ∃ id first, first ∈ bs ∧ first.cause = .handler id ∧
          b.cause ≠ .handler id ∧ firstWriter? name m.history = some id ∧
          first.launch.WithinTurn l ∧
          (∃ a m v, BodyReaches first.actions first.opened a m ∧ m.Sets a name v) ∧
          ∀ v, first.WritesLast bs name v → (l.closeTurn e).context.lookup name = some v := by
  refine ⟨fun l e rest hl hp hs => ?_, ?_⟩
  · obtain ⟨bs, hbs⟩ := hl.course
    obtain ⟨bs', writer, hturn⟩ := (hbs.pass (.take hp hs)).answerAll
    exact ⟨bs', writer, _, hturn, rfl⟩
  · intro bs e writer l hl b hb hwithin k a m name v hr hset ha hdrops
    obtain ⟨target, value, hd, hv⟩ := hset
    obtain ⟨-, hadmission⟩ := (hl.watched_of_mem hb).drops_or_binds hr hd hv
    have hbarred : WriteBarred config.writePolicy b.cause name m.history := by
      refine Classical.not_not.mp fun hfree => ?_
      exact hdrops.not_binds ((hadmission k ha).2 hfree)
    obtain ⟨hpolicy, own, id, hcause, hfirst, hne⟩ := hbarred
    obtain ⟨later, earlier, hbs⟩ := List.append_of_mem hb
    have hover : b.closed.WithinTurn l := hwithin.right b.suffix_history (hl.suffix_closed hbs)
    have hstill := ((Beginning.proceeds_of_reached hr).withinTurn.trans hover).firstWriter? hfirst
    obtain ⟨first, hmem, hwrites⟩ := hl.exists_writesFirst hpolicy rfl hstill
    refine ⟨hpolicy, id, first, hmem, hwrites.cause, ?_, hfirst,
      first.withinTurn_closed.trans hwrites.closed, hwrites.sets, fun w hlast => ?_⟩
    · rw [hcause]
      rintro ⟨⟩
      exact hne rfl
    · exact (ScopeStack.lookup_of_inner_eq_nil hl.traced.scopes name).trans
        (hwrites.stands w hlast)

/-- An action that removes a variable. -/
def Action.unassign (bits : BitVec 128) (name : String) : Action :=
  .mk ⟨bits⟩ none (.unsetVariable name)

/-- A body of a single action without children performs that action alone, at one time. -/
theorem BodyReaches.not_precedes {a c c' : Action} {k n : Launch} (hleaf : a.deed.isLeaf = true)
    (h : BodyReaches [a] l c k) (h' : BodyReaches [a] l c' n) : ¬ k.Precedes n := by
  obtain ⟨rfl, hk⟩ := h.admits_of_isLeaf hleaf
  obtain ⟨rfl, hn⟩ := h'.admits_of_isLeaf hleaf
  obtain rfl : k = n := congrArg Prod.fst (hk.symm.trans hn)
  exact Nat.lt_irrefl _

/-- Two handlers of one event that set one variable, of which the second one may do more. -/
def rivalry (rest : List Action) : List Action :=
  [.listen 1 none false "ping" [.assign 2 "x" "1"],
    .listen 3 none false "ping" (.assign 4 "x" "2" :: rest), .ring 5 "ping"]

namespace Rivalry

def ping : Event :=
  .custom "ping" .null

def handler (id : Nat) (as : List Action) : RegisteredHandler :=
  ⟨id, .mk none (.custom "ping") (.actions as) false none⟩

/-- The launch in which the turn of the event has begun. -/
def taken (rest : List Action) : Launch :=
  ((((Launch.begin .firstWins .willing [] (rivalry rest)).withoutNext []).happen
    (.dispatched ping)).openTurn ping).2

/-- The body of the first handler. -/
def first (rest : List Action) : Beginning :=
  ⟨.handler 0, [.assign 2 "x" "1"], none,
    (taken rest).withWriter (handler 0 [.assign 2 "x" "1"]) 0⟩

/-- The body of the second handler. -/
def second (rest : List Action) : Beginning :=
  ⟨.handler 1, .assign 4 "x" "2" :: rest, none,
    (first rest).closed.withWriter (handler 1 (.assign 4 "x" "2" :: rest)) 1⟩

/-- Both handlers answer the event. -/
theorem course (rest : List Action) :
    Course .firstWins .willing [] (rivalry rest) [second rest, first rest] (.turn ping 2 [])
      (second rest).closed := by
  have hp : (Launch.begin .firstWins .willing [] (rivalry rest)).context.pending = [ping] := rfl
  have htaken : Course .firstWins .willing [] (rivalry rest) [] (.turn ping 0 [0, 1])
      (taken rest) := Course.begin.pass (.take hp nofun)
  have hfirst : Course .firstWins .willing [] (rivalry rest) [first rest] (.turn ping 1 [1])
      (first rest).closed :=
    htaken.body (.answer (h := handler 0 [.assign 2 "x" "1"]) rfl rfl (.inl rfl) rfl)
  exact hfirst.body
    (.answer (h := handler 1 (.assign 4 "x" "2" :: rest)) rfl rfl (.inl rfl) rfl)

theorem first_withinTurn (rest : List Action) :
    (first rest).launch.WithinTurn (second rest).closed := by
  have hnext : (first rest).closed.WithinTurn (second rest).launch := ⟨[], rfl, by simp⟩
  exact ((first rest).withinTurn_closed.trans hnext).trans (second rest).withinTurn_closed

/-- The second handler finds the variable written, and its write is dropped. -/
theorem second_dropped (rest : List Action)
    (h : firstWriter? "x" (second rest).opened.history = some 0) :
    ∃ k m : Launch,
      BodyReaches (second rest).actions (second rest).opened (.assign 4 "x" "2") m ∧
        m.Sets (.assign 4 "x" "2") "x" (.text "2") ∧ k.Admits (.assign 4 "x" "2") m ∧
        k.Drops (.assign 4 "x" "2") ∧ firstWriter? "x" m.history = some 0 := by
  have hreach : BodyReaches (second rest).actions (second rest).opened (.assign 4 "x" "2") _ :=
    .head (.self rfl)
  have hfirst := (Beginning.proceeds_reached hreach).withinTurn.firstWriter? h
  have hwatched := (course rest).watched_of_mem List.mem_cons_self
  obtain ⟨⟨k, hk⟩, hpolicy⟩ := hwatched.drops_or_binds hreach rfl rfl
  exact ⟨k, _, hreach, ⟨.innermost, _, rfl, rfl⟩, hk,
    (hpolicy k hk).1 ⟨rfl, 1, 0, rfl, hfirst, by decide⟩, hfirst⟩

/-- The first handler sets the variable in the root, and does nothing else. -/
theorem first_sets (rest : List Action) : ∃ m : Launch,
    BodyReaches (first rest).actions (first rest).opened (.assign 2 "x" "1") m ∧
      m.SetsInRoot (.assign 2 "x" "1") "x" (.text "1") ∧
      ∀ c n, BodyReaches (first rest).actions (first rest).opened c n →
        c = .assign 2 "x" "1" ∧ ¬ m.Precedes n := by
  have hreach : BodyReaches (first rest).actions (first rest).opened (.assign 2 "x" "1") _ :=
    .head (.self rfl)
  refine ⟨_, hreach, ⟨.innermost, _, rfl, rfl, .inr rfl⟩, fun c n hc => ?_⟩
  exact ⟨(BodyReaches.admits_of_isLeaf rfl hc).1, BodyReaches.not_precedes rfl hreach hc⟩

end Rivalry

open Rivalry in
/-- When the second handler does nothing else, the value of the first one is what is visible when
the turn is over. -/
theorem first_rival_stands :
    Course .firstWins .willing [] (rivalry []) [second [], first []] (.turn ping 2 [])
        (second []).closed ∧
      (∃ k m : Launch, BodyReaches (second []).actions (second []).opened (.assign 4 "x" "2") m ∧
        k.Admits (.assign 4 "x" "2") m ∧ k.Drops (.assign 4 "x" "2")) ∧
      (first []).WritesLast [second [], first []] "x" (.text "1") ∧
      ((second []).closed.closeTurn ping).context.lookup "x" = some (.text "1") := by
  obtain ⟨k, m, hreach, hset, hk, hdrops, hfirst⟩ := second_dropped [] (by decide +kernel)
  obtain ⟨m₀, hreach₀, hset₀, honly⟩ := first_sets []
  have hlast : (first []).WritesLast [second [], first []] "x" (.text "1") := by
    refine ⟨_, m₀, hreach₀, hset₀, fun c n w hc hn => absurd hn (honly c n hc).2, ?_⟩
    rintro b hb c n hc - ⟨hunset, -⟩
    have hassigns : ∃ bits text, c = .assign bits "x" text := by
      rcases List.mem_cons.mp hb with rfl | hb
      · exact ⟨4, "2", (BodyReaches.admits_of_isLeaf rfl hc).1⟩
      · cases List.mem_singleton.mp hb
        exact ⟨2, "1", (honly c n hc).1⟩
    obtain ⟨bits, text, rfl⟩ := hassigns
    cases hunset
  obtain ⟨-, hturns⟩ := @first_value_stands .firstWins .willing [] (rivalry [])
  obtain ⟨-, id, b, hmem, hcause, -, hwriter, -, -, hstands⟩ :=
    hturns _ _ _ _ (course []) _ List.mem_cons_self (Beginning.withinTurn_closed _) k _ m _ _
      hreach hset hk hdrops
  obtain rfl : 0 = id := Option.some.inj (hfirst.symm.trans hwriter)
  refine ⟨course [], ⟨k, m, hreach, hk, hdrops⟩, hlast, ?_⟩
  rcases List.mem_cons.mp hmem with rfl | hmem
  · cases hcause
  · cases List.mem_singleton.mp hmem
    exact hstands _ hlast

open Rivalry in
/-- It is not so that whatever the first writer has written last stands: nobody asks the second
handler whether it may remove the variable. -/
theorem not_every_first_value_stands :
    ¬ ∀ bs e writer l,
      Course .firstWins .willing [] (rivalry [.unassign 6 "x"]) bs (.turn e writer []) l →
      ∀ b ∈ bs, b.launch.WithinTurn l → ∀ (k : Launch) a m name v,
        BodyReaches b.actions b.opened a m → m.Sets a name v → k.Admits a m → k.Drops a →
        ∀ id, firstWriter? name m.history = some id → ∀ first ∈ bs, first.cause = .handler id →
          first.launch.WithinTurn l →
          (∀ c n, BodyReaches first.actions first.opened c n → c.deed ≠ .unsetVariable name) →
          ∀ c n w, BodyReaches first.actions first.opened c n → n.Sets c name w →
            (∀ c' n' w', BodyReaches first.actions first.opened c' n' → n'.Sets c' name w' →
              ¬ n.Precedes n') →
            (l.closeTurn e).context.lookup name = some w := by
  intro hevery
  obtain ⟨k, m, hreach, hset, hk, hdrops, hfirst⟩ :=
    second_dropped [.unassign 6 "x"] (by decide +kernel)
  obtain ⟨m₀, hreach₀, ⟨target, value, hd, hv, -⟩, honly⟩ := first_sets [.unassign 6 "x"]
  have hstands := hevery _ _ _ _ (course _) _ List.mem_cons_self (Beginning.withinTurn_closed _)
    k _ m _ _ hreach hset hk hdrops 0 hfirst (first _) (List.mem_cons_of_mem _ List.mem_cons_self)
    rfl (first_withinTurn _) (fun c n hc => by rw [(honly c n hc).1]; exact nofun) _ m₀ _ hreach₀
    ⟨target, value, hd, hv⟩ fun c n w hc _ => (honly c n hc).2
  have hgone : ((second [.unassign 6 "x"]).closed.closeTurn ping).context.lookup "x" = none := by
    decide +kernel
  rw [hgone] at hstands
  cases hstands

end Conductor
