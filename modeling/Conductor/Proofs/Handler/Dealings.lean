import Conductor.Proofs.Handler.Registry
import Mathlib.Data.List.Nodup

/-!
# Dealings with a registry

A registry is called to register handlers, to unregister those of a name, to show an event to all
and to ask one for its answer, in any order and with any numbers. `Registry.dealings` lists the
calls together with the registry they were made of. What a registry holds can be read off that
list (`Registry.Recounts`): the handlers that were registered, in that order, without those that
were removed, each the same as when it was registered but for what it has seen.
-/

namespace Conductor

@[simp] theorem Handler.name_withTrigger (h : Handler) (t : Trigger) :
    (h.withTrigger t).name = h.name := rfl

/-- A handler is the same as before but for what it has seen. -/
structure RegisteredHandler.Ages (h₀ h : RegisteredHandler) : Prop where
  id : h.id = h₀.id
  handler : ∃ t, h.handler = h₀.handler.withTrigger t

theorem RegisteredHandler.Ages.observe {h₀ h : RegisteredHandler} (ha : h₀.Ages h) (e : Event) :
    h₀.Ages { h with handler := (h.handler.observe e).2 } := by
  obtain ⟨t, ht⟩ := ha.handler
  exact ⟨ha.id, _, by rw [ht]; rfl⟩

/-- The name under which a handler is reported stays. -/
theorem RegisteredHandler.Ages.reportedName {h₀ h : RegisteredHandler} (ha : h₀.Ages h) :
    h.reportedName = h₀.reportedName := by
  obtain ⟨t, ht⟩ := ha.handler
  unfold RegisteredHandler.reportedName
  rw [ht, ha.id, Handler.name_withTrigger]

namespace Registry

variable {r : Registry}

inductive Call where
  | register (h : Handler)
  | unregister (name : String)
  | matching (e : Event)
  | respond (id : Nat) (e : Event) (c : Context)

inductive Answer where
  /-- The number under which the handler is registered. -/
  | registered (id : Nat)
  /-- How many handlers were removed. -/
  | unregistered (count : Nat)
  | matched (ids : List Nat)
  | responded (response : Option Response)

def call (r : Registry) : Call → Answer × Registry
  | .register h => (.registered r.nextId, r.register h)
  | .unregister name => (.unregistered (r.size - (r.unregister name).size), r.unregister name)
  | .matching e => (.matched (r.matching e).1, (r.matching e).2)
  | .respond id e c =>
      (.responded ((r.respond id e c).map (·.1)), ((r.respond id e c).map (·.2)).getD r)

/-- A call, and the registry it was made of. -/
structure Dealing where
  before : Registry
  call : Call

namespace Dealing

def answer (d : Dealing) : Answer :=
  (d.before.call d.call).1

/-- The handler that was registered, under the number that was given for it. -/
def registered? (d : Dealing) : Option RegisteredHandler :=
  match d.call, d.answer with
  | .register h, .registered id => some ⟨id, h⟩
  | _, _ => none

/-- How many handlers are said to have been unregistered. -/
def unregistered (d : Dealing) : Nat :=
  match d.answer with
  | .unregistered count => count
  | _ => 0

/-- The number of a one-shot handler that answered. -/
def spent? (d : Dealing) : Option Nat :=
  match d.call, d.answer with
  | .respond id _ _, .responded (some _) =>
      if (d.before.find? id).any (·.handler.once) then some id else none
  | _, _ => none

/-- The numbers of the handlers that were removed: those of a name that is unregistered, or a
one-shot handler that answered. -/
def removed (d : Dealing) : List Nat :=
  match d.call with
  | .unregister name => (d.before.entries.filter (·.handler.name = some name)).map (·.id)
  | _ => d.spent?.toList

end Dealing

/-- The registry after these calls, the latest first. -/
def after : List Call → Registry
  | [] => empty
  | c :: earlier => ((after earlier).call c).2

/-- The dealings that these calls are, the latest first. -/
def dealings : List Call → List Dealing
  | [] => []
  | c :: earlier => ⟨after earlier, c⟩ :: dealings earlier

/-- The handlers that were registered, as they were then, oldest first. -/
def registered (ds : List Dealing) : List RegisteredHandler :=
  (ds.filterMap (·.registered?)).reverse

def unregistered (ds : List Dealing) : Nat :=
  ds.foldr (fun d count => d.unregistered + count) 0

/-- The numbers of the one-shot handlers that answered. -/
def spent (ds : List Dealing) : List Nat :=
  ds.filterMap (·.spent?)

/-- The numbers of the handlers that were removed. -/
def removed (ds : List Dealing) : List Nat :=
  ds.flatMap (·.removed)

section Cons

variable (d : Dealing) (ds : List Dealing)

theorem registered_cons : registered (d :: ds) = registered ds ++ d.registered?.toList := by
  unfold registered
  rw [List.filterMap_cons]
  cases d.registered? with
  | none => exact (List.append_nil _).symm
  | some h => exact List.reverse_cons

theorem unregistered_cons : unregistered (d :: ds) = d.unregistered + unregistered ds := rfl

theorem spent_cons : spent (d :: ds) = d.spent?.toList ++ spent ds := by
  unfold spent
  rw [List.filterMap_cons]
  cases d.spent? <;> rfl

theorem removed_cons : removed (d :: ds) = d.removed ++ removed ds := rfl

variable {d}

theorem registered_cons_of_none (h : d.registered? = none) :
    registered (d :: ds) = registered ds := by
  rw [registered_cons, h]
  exact List.append_nil _

theorem unregistered_cons_of_eq_zero (h : d.unregistered = 0) :
    unregistered (d :: ds) = unregistered ds := by
  rw [unregistered_cons, h, Nat.zero_add]

end Cons

/-- The registry holds the handlers that were registered and not removed, in their order. -/
structure Recounts (r : Registry) (ds : List Dealing) : Prop where
  sound : r.Sound
  numbered : (registered ds).map (·.id) = List.range r.nextId
  held : r.ids = ((registered ds).map (·.id)).filter (· ∉ removed ds)
  aged : ∀ h ∈ r.entries, ∃ h₀ ∈ registered ds, h₀.Ages h
  removed_lt : ∀ id ∈ removed ds, id < r.nextId
  size : r.size + unregistered ds + (spent ds).length = (registered ds).length
  spent_nodup : (spent ds).Nodup
  spent_removed : spent ds ⊆ removed ds

/-- The numbers of the handlers that pass a test are those that are not among the numbers of the
others. -/
theorem Sound.ids_filter (hr : r.Sound) (q : RegisteredHandler → Bool) :
    (r.entries.filter q).map (·.id) =
      r.ids.filter (· ∉ (r.entries.filter (!q ·)).map (·.id)) := by
  unfold ids
  rw [List.filter_map]
  congr 1
  apply List.filter_congr
  intro h hm
  rw [Function.comp_apply, eq_comm, Bool.eq_iff_iff, decide_eq_true_iff, List.mem_map]
  constructor
  · intro hnone
    by_contra hq
    rw [Bool.not_eq_true] at hq
    exact hnone ⟨h, List.mem_filter.mpr ⟨hm, by rw [hq]; rfl⟩, rfl⟩
  · rintro hq ⟨g, hg, heq⟩
    obtain ⟨hg, hnot⟩ := List.mem_filter.mp hg
    rw [hr.eq_of_id hg hm heq, hq] at hnot
    cases hnot

theorem ids_remove (r : Registry) (id : Nat) : (r.remove id).ids = r.ids.filter (· ≠ id) := by
  unfold Registry.remove ids
  rw [List.filter_map]
  rfl

/-- A removal takes one handler away. -/
theorem Sound.size_remove (hr : r.Sound) {id : Nat} (hid : id ∈ r.ids) :
    (r.remove id).size + 1 = r.size := by
  have hids : (r.remove id).ids = r.ids.erase id := by
    rw [ids_remove, hr.increasing.nodup.erase_eq_filter]
    exact List.filter_congr fun i _ => by rw [Bool.eq_iff_iff, bne_iff_ne, decide_eq_true_iff]
  have hlength := List.length_erase_add_one hid
  rw [← hids] at hlength
  simpa [size, ids] using hlength

theorem respond_cases (r : Registry) (id : Nat) (e : Event) (c : Context) :
    (r.find? id = none ∧ r.respond id e c = none) ∨
      ∃ h, r.find? id = some h ∧ r.respond id e c =
        some (⟨h.reportedName, h.handler.body.produce e c, h.handler.scope⟩,
          if h.handler.once then r.remove id else r) := by
  unfold respond
  cases hf : r.find? id with
  | none => exact .inl ⟨rfl, rfl⟩
  | some h => exact .inr ⟨h, rfl, rfl⟩

namespace Recounts

variable {ds : List Dealing}

theorem empty : Recounts empty [] where
  sound := sound_empty
  numbered := rfl
  held := rfl
  aged := by simp [Registry.empty]
  removed_lt := by simp [removed]
  size := rfl
  spent_nodup := .nil
  spent_removed := List.Subset.refl _

theorem length_registered (hr : Recounts r ds) : (registered ds).length = r.nextId := by
  have hlength := congrArg List.length hr.numbered
  rwa [List.length_map, List.length_range] at hlength

/-- What was removed does not stand any more. -/
theorem not_mem_ids (hr : Recounts r ds) {id : Nat} (hid : id ∈ removed ds) : id ∉ r.ids := by
  intro hm
  rw [hr.held, List.mem_filter, decide_eq_true_iff] at hm
  exact hm.2 hid

/-! ### One call after another -/

theorem register (hr : Recounts r ds) (h : Handler) :
    Recounts (r.register h) (⟨r, .register h⟩ :: ds) := by
  have hreg : registered (⟨r, .register h⟩ :: ds) = registered ds ++ [⟨r.nextId, h⟩] :=
    registered_cons _ _
  have hfresh : r.nextId ∉ removed ds := fun hm => Nat.lt_irrefl _ (hr.removed_lt _ hm)
  constructor
  · exact hr.sound.register h
  · rw [hreg, List.map_append, hr.numbered]
    exact List.range_succ.symm
  · rw [hreg, List.map_append, List.filter_append, ids_register, hr.held]
    have hnew : [r.nextId].filter (· ∉ removed ds) = [r.nextId] := by simp [hfresh]
    exact congrArg _ hnew.symm
  · intro g hg
    rw [hreg]
    rcases List.mem_append.mp hg with hg | hg
    · obtain ⟨h₀, hm, hage⟩ := hr.aged g hg
      exact ⟨h₀, List.mem_append_left _ hm, hage⟩
    · refine ⟨⟨r.nextId, h⟩, List.mem_append_right _ (List.mem_singleton_self _), ?_⟩
      rw [List.mem_singleton.mp hg]
      exact ⟨rfl, h.trigger, by cases h; rfl⟩
  · intro id hid
    exact Nat.lt_succ_of_lt (hr.removed_lt id hid)
  · rw [size_register, hreg, List.length_append, ← hr.size, unregistered_cons, spent_cons]
    simp only [Dealing.unregistered, Dealing.answer, Registry.call, Dealing.spent?,
      Option.toList_none, List.nil_append, List.length_singleton]
    omega
  · exact hr.spent_nodup
  · exact hr.spent_removed

theorem unregister (hr : Recounts r ds) (name : String) :
    Recounts (r.unregister name) (⟨r, .unregister name⟩ :: ds) := by
  have hreg : registered (⟨r, .unregister name⟩ :: ds) = registered ds :=
    registered_cons_of_none ds rfl
  have hrem : removed (⟨r, .unregister name⟩ :: ds) =
      (r.entries.filter (·.handler.name = some name)).map (·.id) ++ removed ds := rfl
  have hle : (r.unregister name).size ≤ r.size := List.length_filter_le _ _
  constructor
  · exact hr.sound.unregister name
  · rw [hreg]; exact hr.numbered
  · have hids := hr.sound.ids_filter (fun h => h.handler.name ≠ some name)
    simp only [decide_not, Bool.not_not] at hids
    rw [hreg, hrem]
    unfold Registry.unregister ids
    simp only [decide_not]
    rw [hids, hr.held, List.filter_filter]
    apply List.filter_congr
    intro id hid
    simp only [List.mem_append, Bool.decide_or, Bool.not_or, decide_not]
  · intro h hm
    rw [hreg]
    exact hr.aged h (List.mem_of_mem_filter hm)
  · intro id hid
    rw [hrem] at hid
    rcases List.mem_append.mp hid with hid | hid
    · obtain ⟨h, hm, rfl⟩ := List.mem_map.mp hid
      exact hr.sound.below _ (mem_ids.mpr ⟨h, List.mem_of_mem_filter hm, rfl⟩)
    · exact hr.removed_lt id hid
  · have hsize := hr.size
    rw [hreg, unregistered_cons, spent_cons]
    simp only [Dealing.unregistered, Dealing.answer, Registry.call, Dealing.spent?,
      Option.toList_none, List.nil_append]
    omega
  · exact hr.spent_nodup
  · exact List.Subset.trans hr.spent_removed (List.subset_append_right _ _)

theorem matching (hr : Recounts r ds) (e : Event) :
    Recounts (r.matching e).2 (⟨r, .matching e⟩ :: ds) := by
  have hreg : registered (⟨r, .matching e⟩ :: ds) = registered ds :=
    registered_cons_of_none ds rfl
  have hsize : (r.matching e).2.size = r.size := List.length_map _
  constructor
  · exact hr.sound.matching e
  · rw [hreg]; exact hr.numbered
  · rw [ids_matching, hreg]; exact hr.held
  · intro h hm
    obtain ⟨g, hg, rfl⟩ := List.mem_map.mp hm
    obtain ⟨h₀, hm₀, hage⟩ := hr.aged g hg
    exact ⟨h₀, hreg ▸ hm₀, hage.observe e⟩
  · exact hr.removed_lt
  · rw [hsize, hreg, ← hr.size, unregistered_cons, spent_cons]
    simp only [Dealing.unregistered, Dealing.answer, Registry.call, Dealing.spent?,
      Option.toList_none, List.nil_append, Nat.zero_add]
  · exact hr.spent_nodup
  · exact hr.spent_removed

/-- A dealing by which nothing is registered or removed. -/
theorem idle (hr : Recounts r ds) {d : Dealing} (hregistered : d.registered? = none)
    (hunregistered : d.unregistered = 0) (hspent : d.spent? = none) (hremoved : d.removed = []) :
    Recounts r (d :: ds) := by
  have hreg := registered_cons_of_none ds hregistered
  have hsp : spent (d :: ds) = spent ds := by
    rw [spent_cons, hspent]
    rfl
  have hrem : removed (d :: ds) = removed ds := by
    rw [removed_cons, hremoved]
    rfl
  have hun := unregistered_cons_of_eq_zero ds hunregistered
  constructor
  · exact hr.sound
  · rw [hreg]; exact hr.numbered
  · rw [hreg, hrem]; exact hr.held
  · rw [hreg]; exact hr.aged
  · rw [hrem]; exact hr.removed_lt
  · rw [hreg, hsp, hun]; exact hr.size
  · rw [hsp]; exact hr.spent_nodup
  · rw [hsp, hrem]; exact hr.spent_removed

/-- A one-shot handler that answers. -/
theorem spend (hr : Recounts r ds) {d : Dealing} {id : Nat} (hregistered : d.registered? = none)
    (hunregistered : d.unregistered = 0) (hspent : d.spent? = some id)
    (hremoved : d.removed = [id]) (hid : id ∈ r.ids) : Recounts (r.remove id) (d :: ds) := by
  have hreg := registered_cons_of_none ds hregistered
  have hsp : spent (d :: ds) = id :: spent ds := by
    rw [spent_cons, hspent]
    rfl
  have hrem : removed (d :: ds) = id :: removed ds := by
    rw [removed_cons, hremoved]
    rfl
  have hun := unregistered_cons_of_eq_zero ds hunregistered
  constructor
  · exact hr.sound.remove id
  · rw [hreg]; exact hr.numbered
  · rw [ids_remove, hr.held, List.filter_filter, hreg, hrem]
    apply List.filter_congr
    intro i hi
    simp only [List.mem_cons, not_or, Bool.decide_and, ne_eq]
  · intro h hm
    rw [hreg]
    exact hr.aged h (List.mem_of_mem_filter hm)
  · intro i hi
    rw [hrem] at hi
    rcases List.mem_cons.mp hi with rfl | hi
    · exact hr.sound.below i hid
    · exact hr.removed_lt i hi
  · have hsize := hr.size
    have hone := hr.sound.size_remove hid
    rw [hreg, hsp, hun, List.length_cons]
    omega
  · rw [hsp, List.nodup_cons]
    exact ⟨fun hm => hr.not_mem_ids (hr.spent_removed hm) hid, hr.spent_nodup⟩
  · rw [hsp, hrem]
    exact List.cons_subset_cons _ hr.spent_removed

theorem respond (hr : Recounts r ds) (id : Nat) (e : Event) (c : Context) :
    Recounts (r.call (.respond id e c)).2 (⟨r, .respond id e c⟩ :: ds) := by
  rcases r.respond_cases id e c with ⟨hf, heq⟩ | ⟨h, hf, heq⟩
  · have hspent : Dealing.spent? ⟨r, .respond id e c⟩ = none := by
      simp only [Dealing.spent?, Dealing.answer, Registry.call, heq, Option.map_none]
    have hafter := hr.idle rfl rfl hspent (by simp only [Dealing.removed, hspent]; rfl)
    simpa only [Registry.call, heq, Option.map_none, Option.getD_none] using hafter
  · have hspent : Dealing.spent? ⟨r, .respond id e c⟩ =
        if h.handler.once then some id else none := by
      simp only [Dealing.spent?, Dealing.answer, Registry.call, heq, Option.map_some, hf,
        Option.any_some]
    have hremoved : Dealing.removed ⟨r, .respond id e c⟩ =
        (if h.handler.once then some id else none).toList := by
      simp only [Dealing.removed, hspent]
    simp only [Registry.call, heq, Option.map_some, Option.getD_some]
    cases honce : h.handler.once with
    | false =>
        rw [honce] at hspent hremoved
        exact hr.idle rfl rfl hspent hremoved
    | true =>
        rw [honce] at hspent hremoved
        obtain ⟨hm, hid⟩ := mem_of_find? hf
        exact hr.spend rfl rfl hspent hremoved (mem_ids.mpr ⟨h, hm, hid⟩)

/-- Every call keeps what is held in step with what was registered and removed. -/
theorem call (hr : Recounts r ds) (c : Call) : Recounts (r.call c).2 (⟨r, c⟩ :: ds) := by
  cases c with
  | register h => exact hr.register h
  | unregister name => exact hr.unregister name
  | matching e => exact hr.matching e
  | respond id e c => exact hr.respond id e c

end Recounts

theorem recounts (calls : List Call) : Recounts (after calls) (dealings calls) := by
  induction calls with
  | nil => exact .empty
  | cons c earlier ih => exact ih.call c

/-! ## What the dealings come to -/

/-- The handlers that match are registered, and come in order. -/
theorem matching_fst_sublist (r : Registry) (e : Event) : (r.matching e).1.Sublist r.ids := by
  unfold matching ids
  dsimp only
  induction r.entries with
  | nil => exact .slnil
  | cons h rest ih =>
      rw [List.filterMap_cons, List.map_cons]
      split
      · exact ih.cons h.id
      · rename_i id hid
        obtain rfl : h.id = id := by
          split at hid
          · exact Option.some.inj hid
          · cases hid
        exact ih.cons_cons h.id

/-- **What a registry holds is told by the dealings with it.** After any calls, about any
handlers, names, events and numbers: handlers get the numbers from zero on; the registry holds
those that were registered and not removed, in their order; those that match an event are among
them, in their order; what was removed neither matches nor answers, and no one-shot handler has
answered twice; an answer is that of the handler that was registered under the number;
unregistering removes the handlers of the name and tells how many; and the size is what the
registrations, the removals and the one-shot answers make it. -/
theorem handlers_recounted (calls : List Call) :
    let r := after calls
    let ds := dealings calls
    ((registered ds).map (·.id) = List.range (registered ds).length ∧
      ∀ h, (r.call (.register h)).1 = .registered (registered ds).length) ∧
    (r.ids.Pairwise (· < ·) ∧ r.ids = ((registered ds).map (·.id)).filter (· ∉ removed ds)) ∧
    (∀ e, (r.matching e).1.Pairwise (· < ·) ∧ (r.matching e).1.Sublist r.ids) ∧
    (∀ id ∈ removed ds, id ∉ r.ids ∧ (∀ e, id ∉ (r.matching e).1) ∧
      ∀ e c, r.respond id e c = none) ∧
    ((spent ds).Nodup ∧ ∀ id ∈ spent ds, id ∈ removed ds) ∧
    (∀ id e c response t, r.respond id e c = some (response, t) →
      ∃ h₀ ∈ registered ds, h₀.id = id ∧ response.handler = h₀.reportedName ∧
        response.yield = h₀.handler.body.produce e c ∧ response.scope = h₀.handler.scope) ∧
    (∀ name,
      (∀ h, h ∈ (r.unregister name).entries ↔ h ∈ r.entries ∧ h.handler.name ≠ some name) ∧
      (r.call (.unregister name)).1 =
        .unregistered (r.entries.countP (·.handler.name = some name))) ∧
    (∀ h ∈ r.entries, ∃ h₀ ∈ registered ds, h₀.Ages h) ∧
    r.size + unregistered ds + (spent ds).length = (registered ds).length := by
  intro r ds
  have hr : Recounts r ds := recounts calls
  refine ⟨⟨?_, fun h => ?_⟩, ⟨hr.sound.increasing, hr.held⟩, ?matching, ?removed,
    ⟨hr.spent_nodup, fun _ hid => hr.spent_removed hid⟩, ?answer, ?names, hr.aged, hr.size⟩
  · rw [hr.length_registered, hr.numbered]
  · rw [hr.length_registered]
    rfl
  case matching =>
    intro e
    have hsub := r.matching_fst_sublist e
    exact ⟨hr.sound.increasing.sublist hsub, hsub⟩
  case removed =>
    intro id hid
    have hgone := hr.not_mem_ids hid
    refine ⟨hgone, fun e hm => hgone ((r.matching_fst_sublist e).subset hm), fun e c => ?_⟩
    rcases r.respond_cases id e c with ⟨-, heq⟩ | ⟨h, hf, -⟩
    · exact heq
    · obtain ⟨hm, rfl⟩ := mem_of_find? hf
      exact absurd (mem_ids.mpr ⟨h, hm, rfl⟩) hgone
  case answer =>
    intro id e c response t hresp
    rcases r.respond_cases id e c with ⟨-, heq⟩ | ⟨h, hf, heq⟩
    · rw [heq] at hresp
      cases hresp
    · rw [heq] at hresp
      cases hresp
      obtain ⟨hm, rfl⟩ := mem_of_find? hf
      obtain ⟨h₀, hm₀, hage⟩ := hr.aged h hm
      obtain ⟨t, ht⟩ := hage.handler
      exact ⟨h₀, hm₀, hage.id.symm, hage.reportedName, by rw [ht]; rfl, by rw [ht]; rfl⟩
  case names =>
    intro name
    refine ⟨fun h => ?_, ?_⟩
    · show h ∈ r.entries.filter _ ↔ _
      rw [List.mem_filter, decide_eq_true_iff]
    · have hsplit := r.entries.length_eq_countP_add_countP (·.handler.name = some name)
      have hkept : (r.unregister name).size =
          r.entries.countP fun h => ¬ (decide (h.handler.name = some name) = true) := by
        rw [List.countP_eq_length_filter]
        unfold Registry.unregister size
        simp only [decide_eq_true_eq]
      have hcount : r.size - (r.unregister name).size =
          r.entries.countP (·.handler.name = some name) := by
        rw [hkept]
        unfold size
        omega
      exact congrArg Answer.unregistered hcount

/-- A handler that says farewell when a shutdown is requested. -/
def farewell (name : String) (once : Bool) : Handler :=
  .mk (some name) .shutdown (.actions []) once none

/-- Of two handlers that answer a request one answers once, and is asked again in vain; then the
other one is unregistered, and a third one is registered. -/
def farewells : List Call :=
  let stop := Event.shutdownRequested "stop" false
  [.register (farewell "late" false),
    .unregister "usual",
    .respond 0 stop (.start .bare),
    .respond 1 stop (.start .bare),
    .respond 0 stop (.start .bare),
    .matching stop,
    .register (farewell "usual" false),
    .register (farewell "first" true)]

theorem farewells_recounted :
    (registered (dealings farewells)).map (·.id) = [0, 1, 2] ∧
      removed (dealings farewells) = [1, 0] ∧
      (after farewells).ids = [2] ∧
      (after farewells).size + 1 + 1 = 3 ∧
      (∀ e c, (after farewells).respond 0 e c = none) ∧
      ∀ e, 1 ∉ ((after farewells).matching e).1 := by
  obtain ⟨⟨hnumbers, -⟩, ⟨-, hids⟩, -, hremoved, -, -, -, -, hsize⟩ := handlers_recounted farewells
  have hzero : 0 ∈ removed (dealings farewells) := by decide
  have hone : 1 ∈ removed (dealings farewells) := by decide
  exact ⟨hnumbers.trans (by decide), by decide, hids.trans (by decide), hsize,
    (hremoved 0 hzero).2.2, (hremoved 1 hone).2.1⟩

end Registry

end Conductor
