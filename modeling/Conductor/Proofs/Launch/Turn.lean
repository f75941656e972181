import Conductor.Proofs.Launch.Queue

/-!
# The turn of an event

The handlers that match an event are found when its turn begins, and then asked by number, while
the bodies that are activated change the registry under them. `answerMatched` is the same turn
without numbers: it walks along the handlers that were found, and passes over those that have
been unregistered in the meantime. The two agree (`answerAll_eq`), so registering, unregistering
and one-shot removal during the turn have no other influence on who answers.
-/

namespace Conductor

/-- The handler once it has seen the event. -/
def RegisteredHandler.seen (h : RegisteredHandler) (e : Event) : RegisteredHandler :=
  { h with handler := (h.handler.observe e).2 }

namespace Registry

/-- The handlers that match the event, in the order of registration, each once it has seen it. -/
def matched (r : Registry) (e : Event) : List RegisteredHandler :=
  (r.entries.filter fun h => (h.handler.observe e).1).map (·.seen e)

theorem matching_fst (r : Registry) (e : Event) :
    (r.matching e).1 = (r.matched e).map (·.id) := by
  unfold matching matched
  dsimp only
  induction r.entries with
  | nil => rfl
  | cons h rest ih =>
      cases hmatch : (h.handler.observe e).1 with
      | false => simp [hmatch, ih]
      | true =>
          simp only [List.filterMap_cons, hmatch, List.filter_cons, List.map_cons, if_true]
          rw [ih]
          rfl

end Registry

namespace Occurrence

/-- Whether the handler goes by a name that is unregistered. -/
def drops (h : RegisteredHandler) : Occurrence → Bool
  | .unregistered name => h.handler.name = some name
  | _ => false

/-- The number of the handler whose body begins, its actions and its bindings. -/
def response? : Occurrence → Option (Nat × List Action × Option Scope)
  | .began (.handler id) as scope => some (id, as, scope)
  | _ => none

theorem response?_of_isOfLoop {o : Occurrence} (h : o.isOfLoop = false) : o.response? = none := by
  cases o <;> first | rfl | cases h

end Occurrence

/-- The body that begins when a handler answers with what it has yielded, if one does. -/
def responseOf (x : RegisteredHandler × Yield) : Option (Nat × List Action × Option Scope) :=
  x.2.answer?.map fun as => (x.1.id, as, x.1.handler.scope)

namespace Launch

/-- Whether the handler has been unregistered since the turn of the event began. -/
def hasDropped (l : Launch) (h : RegisteredHandler) : Bool :=
  (l.history.takeWhile fun o => !o.marksTurn).any (·.drops h)

/-- The launch in which a handler has answered the event, whether it is still registered or
not. -/
def respondBy (e : Event) (writer : Nat) (h : RegisteredHandler) (l : Launch) : Launch :=
  activateResponse h.id
    ⟨h.reportedName, h.handler.body.produce e l.context, h.handler.scope⟩ (l.withWriter h writer)

/-- Let handlers answer the event one after the other, except those that have been unregistered
in the turn by then. Gives those that answer, each with what it yields. -/
def answerMatched (e : Event) :
    Nat → List RegisteredHandler → Launch → List (RegisteredHandler × Yield) × Launch
  | _, [], l => ([], l)
  | writer, h :: rest, l =>
      if l.hasDropped h then answerMatched e (writer + 1) rest l
      else
        let (answers, m) := answerMatched e (writer + 1) rest (l.respondBy e writer h)
        ((h, h.handler.body.produce e l.context) :: answers, m)

/-- From one launch to the other `os` was put on the history, the handlers that are gone were
unregistered by name, and those that are new stand behind the others under new numbers. -/
structure Registers (l m : Launch) (os : List Occurrence) : Prop where
  history : m.history = os ++ l.history
  nextId : l.registry.nextId ≤ m.registry.nextId
  entries : ∃ new,
    m.registry.entries = (l.registry.entries.filter fun h => !os.any (·.drops h)) ++ new ∧
      ∀ h ∈ new, l.registry.nextId ≤ h.id

variable {p : Deed → Prop} {l m n : Launch} {os os' : List Occurrence} {e : Event}

/-! ## What changes the registry -/

theorem Registers.trans (h : l.Registers m os) (h' : m.Registers n os') :
    l.Registers n (os' ++ os) where
  history := by rw [h'.history, h.history, List.append_assoc]
  nextId := Nat.le_trans h.nextId h'.nextId
  entries := by
    obtain ⟨new, hnew, hid⟩ := h.entries
    obtain ⟨new', hnew', hid'⟩ := h'.entries
    refine ⟨new.filter (fun g => !os'.any (·.drops g)) ++ new', ?_, ?_⟩
    · rw [hnew', hnew, List.filter_append, List.filter_filter, List.append_assoc]
      congr 1
      apply List.filter_congr
      intro g _
      rw [List.any_append, Bool.not_or]
    · intro g hg
      rcases List.mem_append.mp hg with hg | hg
      · exact hid g (List.mem_filter.mp hg).1
      · exact Nat.le_trans h.nextId (hid' g hg)

/-- What adds handlers at most, and unregisters none. -/
theorem registers_of_add (new : List RegisteredHandler) (hos : m.history = os ++ l.history)
    (hn : l.registry.nextId ≤ m.registry.nextId)
    (he : m.registry.entries = l.registry.entries ++ new)
    (hid : ∀ h ∈ new, l.registry.nextId ≤ h.id)
    (hq : ∀ o ∈ os, ∀ h, o.drops h = false) : l.Registers m os where
  history := hos
  nextId := hn
  entries := by
    refine ⟨new, ?_, hid⟩
    rw [he]
    congr 1
    symm
    apply List.filter_eq_self.mpr
    intro g _
    rw [Bool.not_eq_true', List.any_eq_false]
    intro o ho
    rw [hq o ho g]
    exact Bool.false_ne_true

theorem registers_of_same (hr : m.registry = l.registry) (hos : m.history = os ++ l.history)
    (hq : ∀ o ∈ os, ∀ h, o.drops h = false) : l.Registers m os :=
  registers_of_add [] hos (Nat.le_of_eq (congrArg Registry.nextId hr).symm)
    (by rw [hr, List.append_nil]) (by simp) hq

theorem registers_unregister (l : Launch) (name : String) :
    l.Registers ({ l with registry := l.registry.unregister name }.happen (.unregistered name))
      [.unregistered name] where
  history := rfl
  nextId := Nat.le_refl _
  entries := by
    refine ⟨[], ?_, by simp⟩
    rw [List.append_nil]
    show l.registry.entries.filter (fun h => decide (h.handler.name ≠ some name)) = _
    apply List.filter_congr
    intro g _
    simp [Occurrence.drops]

theorem registers_of_effect (h : Effect p l m) : ∃ os, l.Registers m os := by
  cases h with
  | register h hh =>
      refine ⟨[], registers_of_add [⟨l.registry.nextId, h⟩] rfl (Nat.le_succ _) rfl ?_ (by simp)⟩
      intro g hg
      obtain rfl := List.mem_singleton.mp hg
      exact Nat.le_refl _
  | unregister name => exact ⟨_, registers_unregister l name⟩
  | spawn spec seq a t onExit h hid hh hl hd ha _ =>
      obtain ⟨r, -, -, -, -, heq⟩ := (l.withStarted h spec).attend_eq seq a onExit spec.name h
      rw [heq]
      by_cases hempty : onExit.isEmpty = true
      · refine ⟨[_, .emitted (.processStarted r.info), .started h.id spec],
          registers_of_same (if_pos hempty) rfl (by simp [Occurrence.drops])⟩
      · refine ⟨[_, .emitted (.processStarted r.info), .started h.id spec], registers_of_add
          [⟨l.registry.nextId, .onExitOf h.id onExit r.scope⟩] rfl ?_ ?_ ?_
          (by simp [Occurrence.drops])⟩
        · show l.registry.nextId ≤ Registry.nextId (if _ then _ else _)
          rw [if_neg hempty]
          exact Nat.le_succ _
        · show Registry.entries (if _ then _ else _) = _
          rw [if_neg hempty]
          rfl
        · intro g hg
          obtain rfl := List.mem_singleton.mp hg
          exact Nat.le_refl _
  | failFast e hpolicy hfatal hl =>
      exact ⟨[_, _], registers_of_same rfl rfl (by simp [Occurrence.drops])⟩
  | enter a => exact ⟨[_], registers_of_same rfl rfl (by simp [Occurrence.drops])⟩
  | leave seq outcome => exact ⟨[_], registers_of_same rfl rfl (by simp [Occurrence.drops])⟩
  | line level text => exact ⟨[_], registers_of_same rfl rfl (by simp [Occurrence.drops])⟩
  | interrupt => exact ⟨[_], registers_of_same rfl rfl (by simp [Occurrence.drops])⟩
  | emit e he => exact ⟨[_], registers_of_same rfl rfl (by simp [Occurrence.drops])⟩
  | request reason due hl =>
      exact ⟨[_], registers_of_same rfl rfl (by simp [Occurrence.drops])⟩
  | fail e hl => exact ⟨[_], registers_of_same rfl rfl (by simp [Occurrence.drops])⟩
  | failLate e hpolicy hfatal hl =>
      exact ⟨[_], registers_of_same rfl rfl (by simp [Occurrence.drops])⟩
  | cancelTimer why id t ht =>
      exact ⟨[_], registers_of_same rfl rfl (by simp [Occurrence.drops])⟩
  | schedule delay as scope record cancel hl has =>
      exact ⟨[_], registers_of_same rfl rfl (by simp [Occurrence.drops])⟩
  | signalled id signal =>
      exact ⟨[_], registers_of_same rfl rfl (by simp [Occurrence.drops])⟩
  | _ => exact ⟨[], registers_of_same rfl rfl (by simp)⟩

theorem registers_of_effects (h : Effects p l m) : ∃ os, l.Registers m os := by
  induction h with
  | refl => exact ⟨[], registers_of_same rfl rfl (by simp)⟩
  | tail _ hlast ih =>
      obtain ⟨os, hos⟩ := ih
      obtain ⟨os', hos'⟩ := registers_of_effect hlast
      exact ⟨os' ++ os, hos.trans hos'⟩

/-! ## The walk along the handlers -/

theorem hasDropped_append (hos : m.history = os ++ l.history)
    (hq : ∀ o ∈ os, o.marksTurn = false) (h : RegisteredHandler) :
    m.hasDropped h = (os.any (·.drops h) || l.hasDropped h) := by
  unfold hasDropped
  have htake : (os ++ l.history).takeWhile (fun o => !o.marksTurn) =
      os ++ l.history.takeWhile fun o => !o.marksTurn := by
    apply List.takeWhile_append_of_pos
    intro o ho
    rw [hq o ho]
    rfl
  rw [hos, htake, List.any_append]

/-- What an answer puts on the history: the body that begins and what its activation does, or a
failure that is reported. -/
theorem respondBy_effects (e : Event) (writer : Nat) (h : RegisteredHandler) (l : Launch) :
    ∃ k asked began, Effects (fun _ => True) k (l.respondBy e writer h) ∧
      k.registry = (l.withWriter h writer).registry ∧ k.history = began ++ asked ++ l.history ∧
      (∀ o ∈ asked, o = .interrupted) ∧
      began.filterMap (·.response?) =
        (responseOf (h, h.handler.body.produce e l.context)).toList ∧
      ∀ o ∈ began, ∃ as, o = .began (.handler h.id) as h.handler.scope := by
  unfold respondBy activateResponse
  dsimp only
  cases hy : h.handler.body.produce e l.context with
  | actions as =>
      exact ⟨_, [], [.began (.handler h.id) as h.handler.scope],
        activateBody_effects (Action.every_true as) _ _ _, rfl, rfl, by simp, rfl, by simp⟩
  | interrupt =>
      exact ⟨_, [.interrupted], [.began (.handler h.id) [] h.handler.scope],
        activateBody_effects (by simp) _ _ _, rfl, rfl, by simp, rfl, by simp⟩
  | failure err =>
      exact ⟨l.withWriter h writer, [], [], .single (report_effect _ _), rfl, rfl, by simp, rfl,
        by simp⟩

/-- An answer is of the turn; it begins the body of the handler, if it does not fail. -/
theorem respondBy_cases (e : Event) (writer : Nat) (h : RegisteredHandler) (l : Launch) :
    ∃ os, (l.withWriter h writer).Registers (l.respondBy e writer h) os ∧
      (∀ o ∈ os, o.marksTurn = false) ∧
      os.filterMap (·.response?) =
        (responseOf (h, h.handler.body.produce e l.context)).toList := by
  obtain ⟨k, asked, began, heffects, hr, hk, hasked, hresponse, hbegan⟩ :=
    respondBy_effects e writer h l
  obtain ⟨os, hos⟩ := registers_of_effects heffects
  obtain ⟨os', hos', hloop⟩ := heffects.grown.history
  obtain rfl : os = os' := List.append_cancel_right (hos.history.symm.trans hos')
  have hstart : (l.withWriter h writer).Registers k (began ++ asked) := by
    refine registers_of_same hr hk fun o ho g => ?_
    rcases List.mem_append.mp ho with ho | ho
    · obtain ⟨as, rfl⟩ := hbegan o ho
      rfl
    · rw [hasked o ho]
      rfl
  refine ⟨os ++ (began ++ asked), hstart.trans hos, ?_, ?_⟩
  · intro o ho
    rcases List.mem_append.mp ho with ho | ho
    · exact Occurrence.marksTurn_of_isOfLoop (hloop o ho)
    · rcases List.mem_append.mp ho with ho | ho
      · obtain ⟨as, rfl⟩ := hbegan o ho
        rfl
      · rw [hasked o ho]
        rfl
  · have hnone : os.filterMap (·.response?) = [] :=
      List.filterMap_eq_nil_iff.mpr fun o ho => Occurrence.response?_of_isOfLoop (hloop o ho)
    have hnone' : asked.filterMap (·.response?) = [] := by
      apply List.filterMap_eq_nil_iff.mpr
      intro o ho
      rw [hasked o ho]
      rfl
    rw [List.filterMap_append, List.filterMap_append, hnone, hnone', hresponse, List.nil_append,
      List.append_nil]

theorem sound_registry_of_effects (h : Effects p l m) (hl : l.registry.Sound) :
    m.registry.Sound := by
  induction h with
  | refl => exact hl
  | tail _ hlast ih =>
      rcases hlast.registry with hr | ⟨b, -, hr⟩ | ⟨name, hr⟩
      · rw [hr]
        exact ih
      · rw [hr]
        exact ih.register b
      · rw [hr]
        exact ih.unregister name

theorem sound_respondBy (hl : l.registry.Sound) (e : Event) (writer : Nat)
    (h : RegisteredHandler) : (l.respondBy e writer h).registry.Sound := by
  obtain ⟨k, -, -, heffects, hr, -⟩ := respondBy_effects e writer h l
  apply sound_registry_of_effects heffects
  rw [hr]
  unfold withWriter
  dsimp only
  split
  · exact hl.remove h.id
  · exact hl

/-- How far the turn of an event has come: of the handlers that were registered when it began,
those are left that were neither unregistered in the turn nor removed when they answered. -/
structure Walking (before : Registry) (done : List Nat) (l : Launch) : Prop where
  sound : l.registry.Sound
  nextId : before.nextId ≤ l.registry.nextId
  entries : ∃ new,
    l.registry.entries = (before.entries.filter fun h =>
      !l.hasDropped h && !(h.handler.once && done.contains h.id)) ++ new ∧
    ∀ h ∈ new, before.nextId ≤ h.id

variable {before : Registry} {done : List Nat} {h : RegisteredHandler}

/-- A handler that has not answered is found unless it was unregistered in the turn. -/
theorem Walking.find? (hl : l.Walking before done) (hb : before.Sound) (hh : h ∈ before.entries)
    (hd : h.id ∉ done) :
    l.registry.find? h.id = if l.hasDropped h then none else some h := by
  obtain ⟨new, hentries, hnew⟩ := hl.entries
  have hlt : h.id < before.nextId := hb.below h.id (Registry.mem_ids.mpr ⟨h, hh, rfl⟩)
  cases hdrop : l.hasDropped h with
  | false =>
      rw [if_neg Bool.false_ne_true]
      apply hl.sound.find?_of_mem
      rw [hentries]
      refine List.mem_append_left _ (List.mem_filter.mpr ⟨hh, ?_⟩)
      simp [hdrop, hd]
  | true =>
      rw [if_pos rfl]
      cases hfind : l.registry.find? h.id with
      | none => rfl
      | some g =>
          obtain ⟨hmem, hid⟩ := Registry.mem_of_find? hfind
          rw [hentries] at hmem
          rcases List.mem_append.mp hmem with hmem | hmem
          · -- Under its number there is no other of the old handlers.
            obtain ⟨hg, hkept⟩ := List.mem_filter.mp hmem
            rw [hb.eq_of_id hg hh hid, hdrop] at hkept
            cases hkept
          · exact absurd (hid ▸ hnew g hmem) (Nat.not_le.mpr hlt)

/-- The answer of a handler takes it away if it answers once, and those it unregisters. -/
theorem Walking.respondBy (hl : l.Walking before done) (hb : before.Sound)
    (hh : h ∈ before.entries) (e : Event) (writer : Nat) :
    (l.respondBy e writer h).Walking before (done ++ [h.id]) := by
  obtain ⟨os, hos, hmarks, -⟩ := respondBy_cases e writer h l
  obtain ⟨new, hentries, hnew⟩ := hl.entries
  obtain ⟨new', hentries', hnew'⟩ := hos.entries
  have hlt : h.id < before.nextId := hb.below h.id (Registry.mem_ids.mpr ⟨h, hh, rfl⟩)
  have hnext : (l.withWriter h writer).registry.nextId = l.registry.nextId := by
    unfold withWriter
    dsimp only
    split <;> rfl
  -- The handler itself is taken out first, if it answers once.
  have hself : (l.withWriter h writer).registry.entries =
      l.registry.entries.filter fun g => !(h.handler.once && decide (g.id = h.id)) := by
    unfold withWriter
    dsimp only
    cases h.handler.once with
    | false =>
        rw [if_neg Bool.false_ne_true]
        exact (List.filter_eq_self.mpr fun g _ => rfl).symm
    | true =>
        rw [if_pos rfl]
        exact List.filter_congr fun g _ => by simp
  refine ⟨sound_respondBy hl.sound e writer h, Nat.le_trans hl.nextId (hnext ▸ hos.nextId), ?_⟩
  refine ⟨(new.filter fun g => !os.any (·.drops g) && !(h.handler.once && decide (g.id = h.id)))
    ++ new', ?_, ?_⟩
  · rw [hentries', hself, hentries, List.filter_append, List.filter_append, List.filter_filter,
      List.filter_filter, List.filter_filter, List.append_assoc]
    congr 1
    apply List.filter_congr
    intro g hg
    have hsame : (l.withWriter h writer).hasDropped g = l.hasDropped g := rfl
    rw [hasDropped_append hos.history hmarks g, hsame]
    by_cases hid : g.id = h.id
    · obtain rfl : g = h := hb.eq_of_id hg hh hid
      cases g.handler.once <;> cases os.any (·.drops g) <;> simp
    · cases os.any (·.drops g) <;> simp [hid]
  · intro g hg
    rcases List.mem_append.mp hg with hg | hg
    · exact hnew g (List.mem_filter.mp hg).1
    · exact Nat.le_trans hl.nextId (hnext ▸ hnew' g hg)

/-- A handler that is found under its number answers. -/
theorem answer_eq_respondBy (hf : l.registry.find? h.id = some h) (e : Event) (writer : Nat) :
    l.answer e writer h.id = l.respondBy e writer h := by
  unfold answer Registry.respond
  rw [hf]
  rfl

/-- **To ask handlers by number is to walk along those that were found**, and what is left of
the registry is what the walk says. -/
theorem Walking.answerAll_eq {hs : List RegisteredHandler} (hl : l.Walking before done)
    (hb : before.Sound) (hmem : ∀ h ∈ hs, h ∈ before.entries)
    (hdiffer : hs.Pairwise fun g h => g.id ≠ h.id) (hdone : ∀ h ∈ hs, h.id ∉ done) (e : Event)
    (writer : Nat) :
    answerAll e writer (hs.map (·.id)) l = (answerMatched e writer hs l).2 ∧
      (answerMatched e writer hs l).2.Walking before
        (done ++ (answerMatched e writer hs l).1.map (·.1.id)) := by
  induction hs generalizing writer done l with
  | nil =>
      refine ⟨rfl, ?_⟩
      rw [answerMatched, List.map_nil, List.append_nil]
      exact hl
  | cons h rest ih =>
      obtain ⟨hother, hdiffer⟩ := List.pairwise_cons.mp hdiffer
      have hh := hmem h List.mem_cons_self
      have hmem' : ∀ g ∈ rest, g ∈ before.entries := fun g hg =>
        hmem g (List.mem_cons_of_mem h hg)
      have hfind := hl.find? hb hh (hdone h List.mem_cons_self)
      rw [List.map_cons, answerAll, answerMatched]
      cases hdrop : l.hasDropped h with
      | true =>
          rw [hdrop, if_pos rfl] at hfind
          have hpass : l.answer e writer h.id = l := by
            rcases l.answer_cases e writer h.id with ⟨-, heq⟩ | ⟨g, hg, -⟩
            · exact heq
            · rw [hfind] at hg
              cases hg
          rw [hpass, if_pos rfl]
          exact ih hl hmem' hdiffer (fun g hg => hdone g (List.mem_cons_of_mem h hg)) _
      | false =>
          rw [hdrop, if_neg Bool.false_ne_true] at hfind
          rw [answer_eq_respondBy hfind, if_neg Bool.false_ne_true]
          have hanswered := hl.respondBy hb hh e writer
          have hdone' : ∀ g ∈ rest, g.id ∉ done ++ [h.id] := by
            intro g hg hin
            rcases List.mem_append.mp hin with hin | hin
            · exact hdone g (List.mem_cons_of_mem h hg) hin
            · exact hother g hg (List.mem_singleton.mp hin).symm
          obtain ⟨heq, hwalk⟩ := ih hanswered hmem' hdiffer hdone' (writer + 1)
          refine ⟨heq, ?_⟩
          rw [List.append_assoc] at hwalk
          exact hwalk

/-- Those that answer are among those that match, in the same order. -/
theorem answerMatched_sublist (e : Event) (writer : Nat) (hs : List RegisteredHandler)
    (l : Launch) : ((answerMatched e writer hs l).1.map (·.1)).Sublist hs := by
  induction hs generalizing writer l with
  | nil => exact .slnil
  | cons h rest ih =>
      rw [answerMatched]
      split
      · exact (ih _ _).cons h
      · exact (ih _ _).cons_cons h

/-- The bodies that begin are those that were yielded, one after the other. -/
theorem answerMatched_history (e : Event) (writer : Nat) (hs : List RegisteredHandler)
    (l : Launch) : ∃ os, (answerMatched e writer hs l).2.history = os ++ l.history ∧
      (∀ o ∈ os, o.marksTurn = false) ∧
      os.reverse.filterMap (·.response?) =
        (answerMatched e writer hs l).1.filterMap responseOf := by
  induction hs generalizing writer l with
  | nil => exact ⟨[], rfl, by simp, rfl⟩
  | cons h rest ih =>
      rw [answerMatched]
      split
      · exact ih _ _
      · obtain ⟨os, hos, hmarks, hresponse⟩ := respondBy_cases e writer h l
        obtain ⟨os', hos', hmarks', hresponse'⟩ := ih (writer + 1) (l.respondBy e writer h)
        refine ⟨os' ++ os, ?_, ?_, ?_⟩
        · rw [List.append_assoc]
          exact hos'.trans (congrArg (os' ++ ·) hos.history)
        · intro o ho
          rcases List.mem_append.mp ho with ho | ho
          · exact hmarks' o ho
          · exact hmarks o ho
        · have hone : ∀ x : Option (Nat × List Action × Option Scope),
              x.toList.reverse = x.toList := by
            intro x
            cases x <;> rfl
          dsimp only
          rw [List.reverse_append, List.filterMap_append, hresponse', List.filterMap_reverse,
            hresponse, hone, List.filterMap_cons]
          cases responseOf (h, h.handler.body.produce e l.context) <;> rfl

/-- Who matches and does not answer has been unregistered in the turn. -/
theorem answerMatched_complete (e : Event) (writer : Nat) (hs : List RegisteredHandler)
    (l : Launch) {h : RegisteredHandler} (hh : h ∈ hs) :
    h ∈ (answerMatched e writer hs l).1.map (·.1) ∨
      (answerMatched e writer hs l).2.hasDropped h = true := by
  induction hs generalizing writer l with
  | nil => cases hh
  | cons g rest ih =>
      rw [answerMatched]
      cases hdrop : l.hasDropped g with
      | true =>
          rw [if_pos rfl]
          rcases List.mem_cons.mp hh with rfl | hh
          · -- What was unregistered once stays so for the rest of the turn.
            obtain ⟨os, hos, hmarks, -⟩ := answerMatched_history e (writer + 1) rest l
            right
            rw [hasDropped_append hos hmarks h, hdrop, Bool.or_true]
          · exact ih _ _ hh
      | false =>
          rw [if_neg Bool.false_ne_true]
          rcases List.mem_cons.mp hh with rfl | hh
          · exact .inl List.mem_cons_self
          · rcases ih (writer + 1) (l.respondBy e writer g) hh with hmem | hlater
            · exact .inl (List.mem_cons_of_mem _ hmem)
            · exact .inr hlater

/-! ## After the turn -/

theorem registers_activateBody (cause : BodyCause) (as : List Action) (scope : Option Scope)
    (l : Launch) : ∃ os, l.Registers (activateBody cause as scope l) os := by
  have hbegan : l.Registers (l.happen (.began cause as scope)) [.began cause as scope] :=
    registers_of_same rfl rfl (by simp [Occurrence.drops])
  obtain ⟨os, hos⟩ :=
    registers_of_effects (activateBody_effects (Action.every_true as) cause scope l)
  exact ⟨_, hbegan.trans hos⟩

theorem registers_respawn (r : RunningProcess) (l : Launch) :
    ∃ os, l.Registers (l.respawn r) os := by
  have hsame : ∃ os, l.Registers l os := ⟨[], registers_of_same rfl rfl (by simp)⟩
  unfold respawn
  split
  · split
    · exact hsame
    · split
      · exact hsame
      · dsimp only
        split
        · exact registers_activateBody _ _ _ l
        · exact ⟨[_], registers_of_same rfl rfl (by simp [Occurrence.drops])⟩
  · exact hsame

theorem registers_releaseProcess (l : Launch) (id : ProcessId) :
    ∃ os, l.Registers (l.releaseProcess id) os := by
  rcases l.releaseProcess_cases id with ⟨-, h⟩ | ⟨g, -, -, h⟩
  · rw [h]
    exact ⟨[], registers_of_same rfl rfl (by simp)⟩
  · rw [h]
    exact ⟨[.released g], registers_of_same rfl rfl (by simp [Occurrence.drops])⟩

theorem registers_afterTurn (h : l.afterTurn e = .ok m) : ∃ os, l.Registers m os := by
  cases e with
  | shutdownRequested reason due =>
      obtain ⟨deadline, heffects⟩ := beginShutdown_effects (p := fun _ => True) h
      have hbegun : l.Registers (l.withShutdown reason deadline) [.shutdownBegan reason] :=
        registers_of_same rfl rfl (by simp [Occurrence.drops])
      obtain ⟨os, hos⟩ := registers_of_effects heffects
      exact ⟨_, hbegun.trans hos⟩
  | processExited q status =>
      change Except.ok (l.finishProcess q.id) = .ok m at h
      cases h
      unfold finishProcess
      split
      · exact ⟨[], registers_of_same rfl rfl (by simp)⟩
      · rename_i r _
        obtain ⟨os, hos⟩ := l.registers_releaseProcess q.id
        obtain ⟨os', hos'⟩ := registers_respawn r (l.releaseProcess q.id)
        exact ⟨_, hos.trans hos'⟩
  | _ =>
      cases h
      exact ⟨[], registers_of_same rfl rfl (by simp)⟩

/-- The launch in which the turn of an event has begun. -/
def opened (l : Launch) (e : Event) : Launch :=
  ((l.happen (.dispatched e)).openTurn e).2

theorem walking_opened (hl : l.registry.Sound) (e : Event) :
    (l.opened e).Walking (l.registry.matching e).2 [] where
  sound := hl.matching e
  nextId := Nat.le_refl _
  entries := by
    refine ⟨[], ?_, by simp⟩
    rw [List.append_nil]
    symm
    apply List.filter_eq_self.mpr
    intro g _
    have hfresh : (l.opened e).hasDropped g = false := rfl
    simp [hfresh]

/-- Who answers an event, and what becomes of the registry. -/
structure AnswersInOrder (l : Launch) (e : Event) : Prop where
  /-- A request for a shutdown that has begun reaches no handler and is shown nowhere. -/
  ignored : e.isShutdownRequest = true → l.shutdown.isSome = true →
    l.dispatch e = .ok (l.happen (.ignored e)) ∧ (l.happen (.ignored e)).timeline = l.timeline
  /-- When the turn begins every handler sees the event. -/
  seen : (l.opened e).registry.entries = l.registry.entries.map (·.seen e)
  /-- The turn is the walk along the handlers that match. Of these, all answer that are not
  unregistered in the turn; the bodies that begin are those that were yielded. Afterwards the old
  handlers are there, in their order and having seen the event once, except those that were
  unregistered and those that answer once and have answered. -/
  turn : (e.isShutdownRequest = true → l.shutdown = none) → ∃ answers k os,
    answerMatched e 0 (l.registry.matched e) (l.opened e) = (answers, k) ∧
    l.dispatch e = (k.closeTurn e).afterTurn e ∧
    k.history = os ++ .dispatched e :: l.history ∧
    (answers.map (·.1)).Sublist (l.registry.matched e) ∧
    (∀ g ∈ l.registry.matched e, g ∈ answers.map (·.1) ∨ os.any (·.drops g) = true) ∧
    os.reverse.filterMap (·.response?) = answers.filterMap responseOf ∧
    ∀ m, l.dispatch e = .ok m → ∃ os' new,
      m.history = os' ++ .turnEnded e :: k.history ∧
      m.registry.entries = ((l.registry.entries.map (·.seen e)).filter fun g =>
        !(os' ++ os).any (·.drops g) &&
          !(g.handler.once && (answers.map (·.1.id)).contains g.id)) ++ new ∧
      ∀ g ∈ new, l.registry.nextId ≤ g.id

/-- **Whatever the handlers do to the registry, the event is answered in order.** -/
theorem answersInOrder (hl : l.registry.Sound) (e : Event) : l.AnswersInOrder e where
  ignored := by
    intro hreq hs
    constructor
    · unfold dispatch
      rw [if_pos (by rw [hreq, hs]; rfl)]
    · have hone : (l.happen (.ignored e)).history = [.ignored e] ++ l.history := rfl
      rw [timeline_append hone]
      exact List.append_nil _
  seen := rfl
  turn := by
    intro hs
    have hwalk := walking_opened hl e
    have hbefore : (l.registry.matching e).2.Sound := hl.matching e
    have hmem : ∀ g ∈ l.registry.matched e, g ∈ (l.registry.matching e).2.entries := by
      intro g hg
      obtain ⟨g', hg', rfl⟩ := List.mem_map.mp hg
      exact List.mem_map.mpr ⟨g', (List.mem_filter.mp hg').1, rfl⟩
    have hdiffer : (l.registry.matched e).Pairwise fun g g' => g.id ≠ g'.id := by
      refine List.pairwise_map.mpr (List.Pairwise.filter _ ?_)
      exact (List.pairwise_map.mp hl.increasing).imp fun hlt => Nat.ne_of_lt hlt
    obtain ⟨hanswer, hdone⟩ := hwalk.answerAll_eq hbefore hmem hdiffer (by simp) e 0
    obtain ⟨os, hos, hmarks, hresponse⟩ :=
      answerMatched_history e 0 (l.registry.matched e) (l.opened e)
    have hcomplete := fun g hg =>
      answerMatched_complete e 0 (l.registry.matched e) (l.opened e) (h := g) hg
    have hsublist := answerMatched_sublist e 0 (l.registry.matched e) (l.opened e)
    -- From here on only the outcome of the walk matters.
    generalize answerMatched e 0 (l.registry.matched e) (l.opened e) = x at *
    obtain ⟨answers, k⟩ := x
    have hdropped : ∀ g, k.hasDropped g = os.any (·.drops g) := by
      intro g
      have hfresh : (l.opened e).hasDropped g = false := rfl
      rw [hasDropped_append hos hmarks g, hfresh, Bool.or_false]
    have hdispatch : l.dispatch e = (k.closeTurn e).afterTurn e := by
      have hnot : ¬ (e.isShutdownRequest && l.shutdown.isSome) = true := by
        rw [Bool.and_eq_true]
        rintro ⟨hreq, hsome⟩
        rw [hs hreq] at hsome
        cases hsome
      have hturn : (l.happen (.dispatched e)).turn e = k.closeTurn e := by
        show (answerAll e 0 (l.registry.matching e).1 (l.opened e)).closeTurn e = _
        rw [Registry.matching_fst, hanswer]
      unfold dispatch
      rw [if_neg hnot, hturn]
    refine ⟨answers, k, os, rfl, hdispatch, hos, hsublist, ?_, hresponse, ?_⟩
    · intro g hg
      rw [← hdropped g]
      exact hcomplete g hg
    · intro m hm
      rw [hdispatch] at hm
      obtain ⟨os', hos'⟩ := registers_afterTurn hm
      obtain ⟨new, hnew, hid⟩ := hdone.entries
      obtain ⟨new', hnew', hid'⟩ := hos'.entries
      refine ⟨os', new.filter (fun g => !os'.any (·.drops g)) ++ new', hos'.history, ?_, ?_⟩
      · have hentries : m.registry.entries =
            (k.registry.entries.filter fun g => !os'.any (·.drops g)) ++ new' := hnew'
        rw [hentries, hnew, List.filter_append, List.filter_filter, List.append_assoc]
        congr 1
        apply List.filter_congr
        intro g _
        rw [hdropped g, List.any_append, Bool.not_or, Bool.and_assoc, List.nil_append]
      · intro g hg
        rcases List.mem_append.mp hg with hg | hg
        · exact hid g (List.mem_filter.mp hg).1
        · exact Nat.le_trans hdone.nextId (hid' g hg)

end Launch

variable {config : Config} {host : Host} {args : LaunchArguments} {description : List Action}
  {l : Launch}

/-- **Which handlers answer an event.** Whenever an event is taken from the queue, every handler
that is registered sees it once. Those that match answer one after the other in the order of
registration, unless they were unregistered earlier in the same turn; a failure stops none of the
others, and one that was registered in the turn does not answer. Those that answer once are gone
afterwards; the others that were not unregistered are there in their order. -/
theorem answers_in_turn (h : Reachable config host args description (.waiting l)) :
    ∀ e c, l.context.next? = some (e, c) → ({ l with context := c } : Launch).AnswersInOrder e := by
  intro e c _
  have hsound : l.registry.Sound := (h.sound (Action.every_true description)).registry
  exact Launch.answersInOrder (l := { l with context := c }) hsound e

/-- An action that unregisters the handlers of a name. -/
def Action.hush (bits : BitVec 128) (name : String) : Action :=
  .mk ⟨bits⟩ none (.unregister name)

/-- The numbers of the handlers that answer the oldest waiting event. -/
def Standing.answering (s : Standing) : List Nat :=
  match s.launch.context.next? with
  | none => []
  | some (e, c) =>
      (Launch.answerMatched e 0 (s.launch.registry.matched e)
        (({ s.launch with context := c } : Launch).opened e)).1.map (·.1.id)

/-- Three handlers match an event; the first one unregisters the second and registers a fourth. -/
def hushingRound : List Action :=
  [.listen 1 none false "ping" [.hush 2 "b", .listen 3 none false "ping" []],
    .listen 4 (some "b") false "ping" [], .listen 5 none true "ping" [], .ring 6 "ping"]

/-- Of three handlers that match, the first and the third answer. -/
theorem hushed_is_passed_over :
    ∃ (l : Launch) (e : Event) (c : Context) (answers : List (RegisteredHandler × Yield))
        (k : Launch),
      Reachable .standard .willing [] hushingRound (.waiting l) ∧
      l.context.next? = some (e, c) ∧ answers.map (·.1.id) = [0, 2] ∧
      (answers.map (·.1)).Sublist (l.registry.matched e) ∧
      ({ l with context := c } : Launch).dispatch e = (k.closeTurn e).afterTurn e := by
  have hs : Reachable .standard .willing [] hushingRound
      (.waiting (.begin .standard .willing [] hushingRound)) := .begin
  have hcheck : Standing.answering (.waiting (.begin .standard .willing [] hushingRound)) =
      [0, 2] := by decide +kernel
  have hnone : (Launch.begin .standard .willing [] hushingRound).shutdown.isNone = true := by
    decide +kernel
  generalize Launch.begin .standard .willing [] _ = l at hs hcheck hnone
  unfold Standing.answering Standing.launch at hcheck
  cases hn : l.context.next? with
  | none =>
      rw [hn] at hcheck
      cases hcheck
  | some x =>
      obtain ⟨e, c⟩ := x
      rw [hn] at hcheck
      obtain ⟨answers, k, os, hwalk, hdispatch, -, hsublist, -⟩ :=
        (answers_in_turn hs e c hn).turn fun _ => Option.isNone_iff_eq_none.mp hnone
      have hwalk' : Launch.answerMatched e 0 (l.registry.matched e)
          (({ l with context := c } : Launch).opened e) = (answers, k) := hwalk
      dsimp only at hcheck
      rw [hwalk'] at hcheck
      exact ⟨l, e, c, answers, k, hs, hn, hcheck, hsublist, hdispatch⟩

end Conductor
