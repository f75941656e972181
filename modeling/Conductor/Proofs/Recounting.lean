import Conductor.Proofs.Dealings
import Mathlib.Data.List.ProdSigma
import Mathlib.Data.List.Sort

/-!
# A supervisor holds what was told

Everything a supervisor holds can be read off the dealings with it (`Supervisor.Recounts`): a
process is known from its start until its handle is given up, alive until its end was told,
marked with the signals that were sent to it, and the lines on its handle are those that were
told. There is one lemma for each kind of call, and one for those of which nothing comes.
-/

namespace Conductor

namespace Supervisor

variable {s : Supervisor}

/-- The dealing tells nothing of a process that is known. -/
structure Dealing.Silent (d : Dealing) : Prop where
  heard : d.heard? = none
  sent : d.sent? = none
  delivers : d.delivers = false
  released : d.released? = none

namespace Dealing.Silent

variable {d : Dealing} {ds : List Dealing}

theorem heard_eq (hd : d.Silent) (id : ProcessId) :
    Supervisor.heard id (d :: ds) = Supervisor.heard id ds :=
  heard_cons_of_none ds hd.heard id

theorem sent_eq (hd : d.Silent) : Supervisor.sent (d :: ds) = Supervisor.sent ds :=
  sent_cons_of_none ds hd.sent

theorem gaveUp_eq (hd : d.Silent) (id : ProcessId) : gaveUp id (d :: ds) = gaveUp id ds :=
  gaveUp_cons_of_none ds hd.released id

theorem delivered_eq (hd : d.Silent) : delivered (d :: ds) = delivered ds :=
  delivered_cons_of_not ds hd.delivers

end Dealing.Silent

theorem ended_of_heard_eq {id : ProcessId} {ds ds' : List Dealing}
    (h : heard id ds' = heard id ds) : ended id ds' = ended id ds := by
  unfold ended
  rw [h]

/-- What a handle says of a process is what was told of it since it was started. -/
structure Matches (h h₀ : ProcessHandle) (ds : List Dealing) : Prop where
  output : h.output = h₀.output
  alive : h.isAlive = !ended h₀.id ds
  marked : ∀ signal, h.wasSent signal = true ↔ (h₀.id, signal) ∈ sent ds
  captured : h₀.output = .capture → h.captured = lines h₀.id ds

theorem Matches.of_eq {h h₀ : ProcessHandle} {ds ds' : List Dealing} (hm : Matches h h₀ ds)
    (hheard : heard h₀.id ds' = heard h₀.id ds)
    (hsent : ∀ signal, (h₀.id, signal) ∈ sent ds' ↔ (h₀.id, signal) ∈ sent ds) :
    Matches h h₀ ds' where
  output := hm.output
  alive := by rw [ended_of_heard_eq hheard, hm.alive]
  marked signal := by rw [hsent, hm.marked]
  captured hout := by
    unfold lines
    rw [hheard]
    exact hm.captured hout

theorem Matches.hear {h h₀ : ProcessHandle} {ds ds' : List Dealing} (hm : Matches h h₀ ds)
    {n : Notice} (hheard : heard h₀.id ds' = heard h₀.id ds ++ [n]) (hsent : sent ds' = sent ds) :
    Matches (h.hear n) h₀ ds' where
  output := by rw [ProcessHandle.output_hear, hm.output]
  alive := by
    unfold ended
    rw [ProcessHandle.isAlive_hear_eq, hm.alive, hheard, List.any_append, Bool.not_or,
      List.any_cons, List.any_nil, Bool.or_false]
    rfl
  marked signal := by rw [ProcessHandle.wasSent_hear, hsent, hm.marked]
  captured hout := by
    unfold lines
    rw [ProcessHandle.captured_hear (hm.output.trans hout), hheard, List.filterMap_append,
      hm.captured hout]
    cases n <;> rfl

theorem Matches.mark {h h₀ : ProcessHandle} {ds ds' : List Dealing} (hm : Matches h h₀ ds)
    {signal : Signal} (hheard : heard h₀.id ds' = heard h₀.id ds)
    (hsent : sent ds' = (h₀.id, signal) :: sent ds) : Matches (h.markSent signal) h₀ ds' where
  output := by rw [ProcessHandle.output_markSent, hm.output]
  alive := by rw [ProcessHandle.isAlive_markSent, ended_of_heard_eq hheard, hm.alive]
  marked other := by
    rw [ProcessHandle.wasSent_markSent_iff, hsent, List.mem_cons, hm.marked other, Prod.mk.injEq,
      eq_self, true_and]
  captured hout := by
    unfold lines
    rw [ProcessHandle.captured_markSent, hheard]
    exact hm.captured hout

/-- What a supervisor holds is what the dealings with it tell. -/
structure Recounts (s : Supervisor) (ds : List Dealing) : Prop where
  keyed : s.Keyed
  number : s.nextId = attempts ds + 1
  below : ∀ h ∈ started ds, h.id.number < s.nextId
  increasing : (started ds).Pairwise fun a b => a.id.number < b.id.number
  delivered : s.signalsSent = delivered ds
  delivered_le : s.signalsSent ≤ (sent ds).length
  sent_nodup : (sent ds).Nodup
  sent_started : ∀ x ∈ sent ds, ∃ h ∈ started ds, h.id = x.1
  heard_started : ∀ id, heard id ds ≠ [] → ∃ h ∈ started ds, h.id = id
  ended_of_gaveUp : ∀ id, gaveUp id ds = true → ended id ds = true
  /-- A process is known from its start until its handle is given up. -/
  known : ∀ id, (s.find? id).isSome = true ↔
    (∃ h ∈ started ds, h.id = id) ∧ gaveUp id ds = false
  holds : ∀ h₀ ∈ started ds, ∀ h, s.find? h₀.id = some h → Matches h h₀ ds

namespace Recounts

variable {ds : List Dealing}

theorem start : Recounts start [] where
  keyed := keyed_start
  number := rfl
  below := by simp [started]
  increasing := .nil
  delivered := rfl
  delivered_le := Nat.le_refl _
  sent_nodup := .nil
  sent_started := by simp [sent]
  heard_started := by simp [heard]
  ended_of_gaveUp := by simp [gaveUp]
  known := by simp [started, find?, Supervisor.start]
  holds := by simp [started]

/-- A known process was started, and its handle says what was told of it. -/
theorem exists_started (hs : Recounts s ds) {id : ProcessId} {h : ProcessHandle}
    (hf : s.find? id = some h) :
    gaveUp id ds = false ∧ ∃ h₀ ∈ started ds, h₀.id = id ∧ Matches h h₀ ds := by
  obtain ⟨⟨h₀, hm, rfl⟩, hg⟩ := (hs.known id).mp (by rw [hf]; rfl)
  exact ⟨hg, h₀, hm, rfl, hs.holds h₀ hm h hf⟩

/-- Nothing was told of the next process. -/
theorem next_untold (hs : Recounts s ds) {h : ProcessHandle} (hid : h.id = ⟨s.nextId⟩) :
    (∀ g ∈ started ds, g.id ≠ h.id) ∧ heard h.id ds = [] ∧ gaveUp h.id ds = false ∧
      ∀ signal, (h.id, signal) ∉ sent ds := by
  have hnew : ∀ g ∈ started ds, g.id ≠ h.id := by
    intro g hg heq
    have hlt := hs.below g hg
    rw [heq, hid] at hlt
    exact Nat.lt_irrefl _ hlt
  have hheard : heard h.id ds = [] := by
    by_contra hne
    obtain ⟨g, hg, heq⟩ := hs.heard_started h.id hne
    exact hnew g hg heq
  refine ⟨hnew, hheard, ?_, ?_⟩
  · by_contra hgave
    rw [Bool.not_eq_false] at hgave
    have hend := hs.ended_of_gaveUp h.id hgave
    unfold ended at hend
    rw [hheard] at hend
    cases hend
  · intro signal hm
    obtain ⟨g, hg, heq⟩ := hs.sent_started _ hm
    exact hnew g hg heq

/-! ### One call after another -/

/-- A dealing by which no process is started and of none anything is told. -/
theorem silent (hs : Recounts s ds) {d : Dealing} {t : Supervisor} (hd : d.Silent)
    (hstarted : d.started? = none) (hhandles : t.handles = s.handles)
    (hsignals : t.signalsSent = s.signalsSent)
    (hnumber : t.nextId = s.nextId + if d.isSpawn then 1 else 0) : Recounts t (d :: ds) := by
  have hst := started_cons_of_none ds hstarted
  have hfind : ∀ id, t.find? id = s.find? id := fun id => by unfold find?; rw [hhandles]
  constructor
  · exact fun k h hk => hs.keyed k h (hhandles ▸ hk)
  · rw [hnumber, hs.number, attempts_cons, Nat.add_right_comm]
  · intro h hm
    rw [hnumber]
    exact Nat.lt_add_right _ (hs.below h (hst ▸ hm))
  · rw [hst]; exact hs.increasing
  · rw [hsignals, hd.delivered_eq]; exact hs.delivered
  · rw [hsignals, hd.sent_eq]; exact hs.delivered_le
  · rw [hd.sent_eq]; exact hs.sent_nodup
  · rw [hst, hd.sent_eq]; exact hs.sent_started
  · simpa only [hst, hd.heard_eq] using hs.heard_started
  · simpa only [hd.gaveUp_eq, ended_of_heard_eq (hd.heard_eq _)] using hs.ended_of_gaveUp
  · simpa only [hfind, hst, hd.gaveUp_eq] using hs.known
  · rw [hst]
    intro h₀ hm h hf
    rw [hfind] at hf
    exact (hs.holds h₀ hm h hf).of_eq (hd.heard_eq _) fun _ => by rw [hd.sent_eq]

/-- The start of a process. -/
theorem birth (hs : Recounts s ds) {d : Dealing} {h : ProcessHandle} (hd : d.Silent)
    (hspawn : d.isSpawn = true) (hstarted : d.started? = some h) (hid : h.id = ⟨s.nextId⟩)
    (hstatus : h.status = none) (hwas : ∀ signal, h.wasSent signal = false)
    (hcap : h.captured = []) :
    Recounts { s with nextId := s.nextId + 1, handles := s.handles.insert s.nextId h }
      (d :: ds) := by
  have hst : started (d :: ds) = started ds ++ [h] := by
    rw [started_cons, hstarted]
    rfl
  obtain ⟨hnew, hheard, hgave, hsent⟩ := hs.next_untold hid
  have hfind : ∀ id, ({ s with nextId := s.nextId + 1, handles := s.handles.insert s.nextId h } :
      Supervisor).find? id = if id = h.id then some h else s.find? id := by
    intro id
    simp only [find?, Table.get?_insert, hid, ← ProcessId.number_inj]
  have hfirst : Matches h h ds := by
    refine ⟨rfl, ?_, ?_, ?_⟩
    · unfold ended ProcessHandle.isAlive
      rw [hheard, hstatus]
      rfl
    · intro signal
      simp [hwas, hsent]
    · intro _
      unfold lines
      rw [hheard, hcap]
      rfl
  have hkeep : ∀ g g₀, Matches g g₀ ds → Matches g g₀ (d :: ds) := fun g g₀ hm =>
    hm.of_eq (hd.heard_eq _) fun _ => by rw [hd.sent_eq]
  constructor
  · exact hs.keyed.insert hid rfl
  · rw [hs.number, attempts_cons, hspawn]; rfl
  · rw [hst]
    intro g hg
    rcases List.mem_append.mp hg with hg | hg
    · exact Nat.lt_succ_of_lt (hs.below g hg)
    · rw [List.mem_singleton.mp hg, hid]
      exact Nat.lt_succ_self _
  · rw [hst, List.pairwise_append]
    refine ⟨hs.increasing, List.pairwise_singleton _ _, ?_⟩
    intro a ha b hb
    rw [List.mem_singleton.mp hb, hid]
    exact hs.below a ha
  · rw [hd.delivered_eq]; exact hs.delivered
  · rw [hd.sent_eq]; exact hs.delivered_le
  · rw [hd.sent_eq]; exact hs.sent_nodup
  · rw [hst, hd.sent_eq]
    intro x hx
    obtain ⟨g, hg, hgid⟩ := hs.sent_started x hx
    exact ⟨g, List.mem_append_left _ hg, hgid⟩
  · intro id hne
    rw [hd.heard_eq] at hne
    obtain ⟨g, hg, hgid⟩ := hs.heard_started id hne
    exact ⟨g, hst ▸ List.mem_append_left _ hg, hgid⟩
  · simpa only [hd.gaveUp_eq, ended_of_heard_eq (hd.heard_eq _)] using hs.ended_of_gaveUp
  · intro id
    rw [hfind, hd.gaveUp_eq, hst]
    by_cases heq : id = h.id
    · subst heq
      simp [hgave]
    · rw [if_neg heq, hs.known id]
      simp [Ne.symm heq]
  · rw [hst]
    intro h₀ hm g hf
    rw [hfind] at hf
    rcases List.mem_append.mp hm with hm | hm
    · rw [if_neg (hnew h₀ hm)] at hf
      exact hkeep g h₀ (hs.holds h₀ hm g hf)
    · rw [List.mem_singleton.mp hm, if_pos rfl] at hf
      cases hf
      rw [List.mem_singleton.mp hm]
      exact hkeep h h hfirst

theorem spawn (hs : Recounts s ds) (host : Host) (spec : ProcessSpec) :
    Recounts (s.call (.spawn host spec)).2 (⟨s, .spawn host spec⟩ :: ds) := by
  have hsilent : Dealing.Silent ⟨s, .spawn host spec⟩ := ⟨rfl, rfl, rfl, rfl⟩
  rcases s.spawn_cases host spec with ⟨e, heq⟩ | ⟨h, hid, ⟨hstatus, hterm, hkill, hcap⟩, heq⟩
  · refine hs.silent hsilent ?_ ?_ ?_ ?_
    · simp only [Dealing.started?, Dealing.answer, call, heq]
    all_goals simp only [call, heq, Dealing.isSpawn, if_true]
  · have hstarted : Dealing.started? ⟨s, .spawn host spec⟩ = some h := by
      simp only [Dealing.started?, Dealing.answer, call, heq]
    have hborn := hs.birth hsilent rfl hstarted hid hstatus
      (fun signal => by cases signal <;> assumption) hcap
    simpa only [call, heq] using hborn

/-- A notice of a known process. -/
theorem hearing (hs : Recounts s ds) {d : Dealing} {t : Supervisor} {n : Notice}
    {g : ProcessHandle} (hspawn : d.isSpawn = false) (hstarted : d.started? = none)
    (hsent : d.sent? = none) (hdelivers : d.delivers = false) (hreleased : d.released? = none)
    (hheard : d.heard? = some n) (hg : s.find? n.process = some g) (habsorb : s.absorb? n = some t)
    (hfind : ∀ id, t.find? id = if id = n.process then some (g.hear n) else s.find? id) :
    Recounts t (d :: ds) := by
  have hst := started_cons_of_none ds hstarted
  have hse := sent_cons_of_none ds hsent
  have hgave := gaveUp_cons_of_none ds hreleased
  have hown : heard n.process (d :: ds) = heard n.process ds ++ [n] := by
    rw [heard_cons, hheard, Option.filter_some, if_pos (decide_eq_true rfl)]
    rfl
  have hother : ∀ id, id ≠ n.process → heard id (d :: ds) = heard id ds := fun id hne => by
    rw [heard_cons, hheard, Option.filter_some, if_neg (by simpa using Ne.symm hne)]
    exact List.append_nil _
  constructor
  · exact hs.keyed.absorb? habsorb
  · rw [nextId_of_absorb? habsorb, hs.number, attempts_cons, hspawn]; rfl
  · rw [hst, nextId_of_absorb? habsorb]; exact hs.below
  · rw [hst]; exact hs.increasing
  · rw [signalsSent_of_absorb? habsorb, delivered_cons_of_not ds hdelivers]; exact hs.delivered
  · rw [signalsSent_of_absorb? habsorb, hse]; exact hs.delivered_le
  · rw [hse]; exact hs.sent_nodup
  · rw [hst, hse]; exact hs.sent_started
  · intro id hne
    rw [hst]
    by_cases hid : id = n.process
    · obtain ⟨-, g₀, hm, hg₀, -⟩ := hs.exists_started hg
      exact ⟨g₀, hm, hg₀.trans hid.symm⟩
    · rw [hother id hid] at hne
      exact hs.heard_started id hne
  · intro id hi
    rw [hgave] at hi
    unfold ended
    rw [heard_cons, List.any_append, Bool.or_eq_true]
    exact .inl (hs.ended_of_gaveUp id hi)
  · intro id
    rw [hfind, hst, hgave, ← hs.known]
    split
    · rename_i hid
      rw [hid, hg]
      rfl
    · rfl
  · rw [hst]
    intro h₀ hm h hh
    rw [hfind] at hh
    split at hh
    · rename_i hid
      cases hh
      exact (hs.holds h₀ hm g (hid ▸ hg)).hear (hid ▸ hown) hse
    · rename_i hid
      exact (hs.holds h₀ hm h hh).of_eq (hother _ hid) fun _ => by rw [hse]

theorem observe (hs : Recounts s ds) (n : Notice) :
    Recounts (s.call (.observe n)).2 (⟨s, .observe n⟩ :: ds) := by
  cases hf : s.find? n.process with
  | none =>
      have heq : s.absorb? n = none := by
        unfold absorb?
        rw [hf]
      have hsilent : Dealing.Silent ⟨s, .observe n⟩ := by
        refine ⟨?_, rfl, rfl, rfl⟩
        simp only [Dealing.heard?, Dealing.answer, call, heq, Option.isSome_none]
      refine hs.silent hsilent rfl ?_ ?_ ?_
      all_goals simp [call, heq, Dealing.isSpawn]
  | some g =>
      obtain ⟨t, heq, hfind⟩ := absorb?_hear hs.keyed hf
      have hheard : Dealing.heard? ⟨s, .observe n⟩ = some n := by
        simp only [Dealing.heard?, Dealing.answer, call, heq, Option.isSome_some]
      have hafter := hs.hearing rfl rfl rfl rfl rfl hheard hf heq hfind
      simpa only [call, heq, Option.getD_some] using hafter

/-- A signal that is passed on. -/
theorem marking (hs : Recounts s ds) {d : Dealing} {id : ProcessId} {signal : Signal}
    {g : ProcessHandle} (hspawn : d.isSpawn = false) (hstarted : d.started? = none)
    (hheard : d.heard? = none) (hreleased : d.released? = none)
    (hsent : d.sent? = some (id, signal)) (hg : s.find? id = some g)
    (hwas : g.wasSent signal = false) :
    Recounts { s.update (g.markSent signal) with
      signalsSent := s.signalsSent + if d.delivers then 1 else 0 } (d :: ds) := by
  have hst := started_cons_of_none ds hstarted
  have hse : sent (d :: ds) = (id, signal) :: sent ds := by
    rw [sent_cons, hsent]
    rfl
  have hh := heard_cons_of_none ds hheard
  have hgave := gaveUp_cons_of_none ds hreleased
  have hfind : ∀ i, ({ s.update (g.markSent signal) with
      signalsSent := s.signalsSent + if d.delivers then 1 else 0 } : Supervisor).find? i =
        if i = id then some (g.markSent signal) else s.find? i := by
    intro i
    refine (find?_update s (g.markSent signal) i).trans ?_
    rw [ProcessHandle.id_markSent, hs.keyed _ g hg]
    simp only [ProcessId.number_inj]
  obtain ⟨-, g₀, hm₀, hid₀, hg₀⟩ := hs.exists_started hg
  constructor
  · exact hs.keyed.update _
  · rw [attempts_cons, hspawn]; exact hs.number
  · rw [hst]; exact hs.below
  · rw [hst]; exact hs.increasing
  · rw [delivered_cons, ← hs.delivered]
  · rw [hse, List.length_cons]
    exact Nat.add_le_add hs.delivered_le (by split <;> decide)
  · rw [hse, List.nodup_cons]
    refine ⟨?_, hs.sent_nodup⟩
    rw [← hid₀, ← hg₀.marked, hwas]
    exact Bool.false_ne_true
  · rw [hst, hse]
    intro x hx
    rcases List.mem_cons.mp hx with rfl | hx
    · exact ⟨g₀, hm₀, hid₀⟩
    · exact hs.sent_started x hx
  · simpa only [hst, hh] using hs.heard_started
  · simpa only [hgave, ended_of_heard_eq (hh _)] using hs.ended_of_gaveUp
  · intro i
    rw [hfind, hst, hgave, ← hs.known]
    split
    · rename_i hi
      rw [hi, hg]
      rfl
    · rfl
  · rw [hst]
    intro h₀ hm h hf
    rw [hfind] at hf
    split at hf
    · rename_i hi
      cases hf
      exact (hs.holds h₀ hm g (hi ▸ hg)).mark (hh _) (hi ▸ hse)
    · rename_i hi
      refine (hs.holds h₀ hm h hf).of_eq (hh _) fun other => ?_
      rw [hse, List.mem_cons, Prod.mk.injEq]
      exact or_iff_right fun h => hi h.1

theorem send (hs : Recounts s ds) (host : Host) (id : ProcessId) (signal : Signal) :
    Recounts (s.call (.send host id signal)).2 (⟨s, .send host id signal⟩ :: ds) := by
  cases hp : s.passes id signal with
  | false =>
      have heq := send_of_not_passes host hp
      have hsilent : Dealing.Silent ⟨s, .send host id signal⟩ := by
        refine ⟨rfl, ?_, ?_, rfl⟩
        · simp [Dealing.sent?, hp]
        · simp only [Dealing.delivers, Dealing.answer, call, heq]
          cases s.find? id <;> rfl
      refine hs.silent hsilent rfl ?_ ?_ ?_
      all_goals simp [call, heq, Dealing.isSpawn]
  | true =>
      obtain ⟨g, hf, ha, hwas⟩ := passes_eq_true_iff.mp hp
      have heq := send_of_find? host hf ha hwas
      have hdelivers : Dealing.delivers ⟨s, .send host id signal⟩ =
          decide ((host.signal id signal).toOption = some true) := by
        simp only [Dealing.delivers_eq_reaches, Dealing.reaches, hp, Bool.true_and]
      have hsent : Dealing.sent? ⟨s, .send host id signal⟩ = some (id, signal) := by
        simp [Dealing.sent?, hp]
      have hafter := hs.marking (d := ⟨s, .send host id signal⟩) rfl rfl rfl rfl hsent hf hwas
      simpa only [call, heq, hdelivers, decide_eq_true_eq] using hafter

/-- A handle that is given up. -/
theorem parting (hs : Recounts s ds) {d : Dealing} {g : ProcessHandle}
    (hspawn : d.isSpawn = false) (hstarted : d.started? = none) (hheard : d.heard? = none)
    (hsent : d.sent? = none) (hdelivers : d.delivers = false) (hreleased : d.released? = some g)
    (hg : s.find? g.id = some g) (ha : g.isAlive = false) :
    Recounts { s with handles := s.handles.erase g.id.number } (d :: ds) := by
  have hst := started_cons_of_none ds hstarted
  have hse := sent_cons_of_none ds hsent
  have hh := heard_cons_of_none ds hheard
  have hgave : ∀ i, gaveUp i (d :: ds) = (decide (g.id = i) || gaveUp i ds) := fun i => by
    rw [gaveUp_cons, hreleased]
    rfl
  have hfind : ∀ i, ({ s with handles := s.handles.erase g.id.number } : Supervisor).find? i =
      if i = g.id then none else s.find? i := by
    intro i
    simp only [find?, Table.get?_erase, ProcessId.number_inj]
  obtain ⟨-, g₀, hm₀, hid₀, hg₀⟩ := hs.exists_started hg
  constructor
  · exact hs.keyed.erase _
  · rw [attempts_cons, hspawn]; exact hs.number
  · rw [hst]; exact hs.below
  · rw [hst]; exact hs.increasing
  · rw [delivered_cons_of_not ds hdelivers]; exact hs.delivered
  · rw [hse]; exact hs.delivered_le
  · rw [hse]; exact hs.sent_nodup
  · rw [hst, hse]; exact hs.sent_started
  · simpa only [hst, hh] using hs.heard_started
  · intro i hi
    rw [ended_of_heard_eq (hh i)]
    rw [hgave, Bool.or_eq_true, decide_eq_true_eq] at hi
    rcases hi with rfl | hi
    · rw [← hid₀, ← Bool.not_eq_false', ← hg₀.alive]
      exact ha
    · exact hs.ended_of_gaveUp i hi
  · intro i
    rw [hfind, hst, hgave]
    by_cases hi : i = g.id
    · simp [hi]
    · rw [if_neg hi, hs.known i, decide_eq_false (Ne.symm hi), Bool.false_or]
  · rw [hst]
    intro h₀ hm h hf
    rw [hfind] at hf
    split at hf
    · cases hf
    · exact (hs.holds h₀ hm h hf).of_eq (hh _) fun _ => by rw [hse]

theorem release (hs : Recounts s ds) (id : ProcessId) :
    Recounts (s.call (.release id)).2 (⟨s, .release id⟩ :: ds) := by
  rcases s.release?_cases id with ⟨heq, -⟩ | ⟨g, hf, ha, heq⟩
  · have hsilent : Dealing.Silent ⟨s, .release id⟩ := by
      refine ⟨rfl, rfl, rfl, ?_⟩
      simp only [Dealing.released?, Dealing.answer, call, heq, Option.map_none]
    refine hs.silent hsilent rfl ?_ ?_ ?_
    all_goals simp [call, heq, Dealing.isSpawn]
  · obtain rfl : g.id = id := hs.keyed _ g hf
    have hreleased : Dealing.released? ⟨s, .release g.id⟩ = some g := by
      simp only [Dealing.released?, Dealing.answer, call, heq, Option.map_some]
    have hafter := hs.parting rfl rfl rfl rfl rfl hreleased hf ha
    simpa only [call, heq, Option.map_some, Option.getD_some] using hafter

/-- Every call keeps what is held in step with what is told. -/
theorem call (hs : Recounts s ds) (c : Call) : Recounts (s.call c).2 (⟨s, c⟩ :: ds) := by
  cases c with
  | spawn host spec => exact hs.spawn host spec
  | observe n => exact hs.observe n
  | send host id signal => exact hs.send host id signal
  | release id => exact hs.release id

end Recounts

theorem recounts (calls : List Call) : Recounts (after calls) (dealings calls) := by
  induction calls with
  | nil => exact .start
  | cons c earlier ih => exact ih.call c

/-! ## What the dealings come to -/

/-- No process is sent a signal twice, so there are at most two signals for each. -/
theorem Recounts.length_sent_le {ds : List Dealing} (hs : Recounts s ds) :
    (sent ds).length ≤ 2 * (started ds).length := by
  have hsub : sent ds ⊆
      ((started ds).map (·.id)) ×ˢ [Signal.terminate, Signal.kill] := by
    rintro ⟨id, signal⟩ hx
    obtain ⟨h, hm, hid⟩ := hs.sent_started _ hx
    rw [List.mem_product]
    exact ⟨List.mem_map.mpr ⟨h, hm, hid⟩, by cases signal <;> simp⟩
  have hle := (List.subperm_of_subset hs.sent_nodup hsub).length_le
  rw [List.length_product, List.length_map, Nat.mul_comm] at hle
  exact hle

/-- The living processes are those that were started and not told to have ended. -/
theorem Recounts.live_eq {ds : List Dealing} (hs : Recounts s ds) :
    s.live = ((started ds).map (·.id)).filter fun id => !ended id ds := by
  have hlive : s.live.Pairwise fun a b => a.number < b.number := by
    unfold live Table.values
    rw [List.pairwise_map]
    refine List.Pairwise.filter _ ?_
    rw [List.pairwise_map]
    refine s.handles.ordered.imp_of_mem ?_
    rintro ⟨k, h⟩ ⟨k', h'⟩ hm hm' hlt
    rw [hs.keyed k h (Table.get?_eq_some_iff.mpr hm),
      hs.keyed k' h' (Table.get?_eq_some_iff.mpr hm')]
    exact hlt
  have hstarted : (((started ds).map (·.id)).filter fun id => !ended id ds).Pairwise
      fun a b => a.number < b.number := by
    refine List.Pairwise.filter _ ?_
    rw [List.pairwise_map]
    exact hs.increasing
  have hmem : ∀ id, id ∈ s.live ↔ id ∈ ((started ds).map (·.id)).filter fun id => !ended id ds := by
    intro id
    rw [hs.keyed.mem_live, List.mem_filter, List.mem_map]
    constructor
    · rintro ⟨h, hf, ha⟩
      obtain ⟨-, h₀, hm, rfl, hmatch⟩ := hs.exists_started hf
      exact ⟨⟨h₀, hm, rfl⟩, hmatch.alive ▸ ha⟩
    · rintro ⟨⟨h₀, hm, rfl⟩, hend⟩
      have hgave : gaveUp h₀.id ds = false := by
        by_contra hg
        rw [Bool.not_eq_false] at hg
        rw [hs.ended_of_gaveUp _ hg] at hend
        cases hend
      obtain ⟨h, hf⟩ := Option.isSome_iff_exists.mp ((hs.known h₀.id).mpr ⟨⟨h₀, hm, rfl⟩, hgave⟩)
      exact ⟨h, hf, by rw [(hs.holds h₀ hm h hf).alive]; exact hend⟩
  have : Std.Irrefl fun a b : ProcessId => a.number < b.number := ⟨fun _ => Nat.lt_irrefl _⟩
  have : Std.Antisymm fun a b : ProcessId => a.number < b.number :=
    ⟨fun _ _ h h' => absurd h' (Nat.lt_asymm h)⟩
  exact hlive.eq_of_mem_iff hstarted hmem

/-- A notice is taken in exactly as long as its process is known. -/
theorem isSome_absorb? (s : Supervisor) (n : Notice) :
    (s.absorb? n).isSome = (s.find? n.process).isSome := by
  rcases s.absorb?_cases n with
    ⟨hf, hn⟩ | ⟨h, hf, ⟨_, _, _, -, hn⟩ | ⟨_, _, _, -, ⟨_, hn⟩ | ⟨_, hn⟩⟩⟩
  all_goals rw [hf, hn]; rfl

/-- Of a process whose handle was given up nothing is known. -/
theorem Recounts.find?_of_gaveUp {ds : List Dealing} (hs : Recounts s ds) {id : ProcessId}
    (hg : gaveUp id ds = true) : s.find? id = none := by
  by_contra hf
  have hknown := ((hs.known id).mp (Option.isSome_iff_ne_none.mpr hf)).2
  rw [hg] at hknown
  cases hknown

/-- A handle can be given up once the end of its process was told, and only once. -/
theorem Recounts.isSome_release? {ds : List Dealing} (hs : Recounts s ds) (id : ProcessId) :
    (s.release? id).isSome = (ended id ds && !gaveUp id ds) := by
  rcases s.release?_cases id with ⟨heq, halive⟩ | ⟨h, hf, ha, heq⟩
  · rw [heq, Option.isSome_none, eq_comm, Bool.and_eq_false_iff, Bool.not_eq_false']
    by_contra hne
    rw [not_or, Bool.not_eq_false, Bool.not_eq_true] at hne
    obtain ⟨hend, hgave⟩ := hne
    have hstarted : ∃ h ∈ started ds, h.id = id := by
      refine hs.heard_started id fun hnil => ?_
      unfold ended at hend
      rw [hnil] at hend
      cases hend
    obtain ⟨h, hf⟩ := Option.isSome_iff_exists.mp ((hs.known id).mpr ⟨hstarted, hgave⟩)
    obtain ⟨-, h₀, -, rfl, hmatch⟩ := hs.exists_started hf
    have ha := hmatch.alive
    rw [halive h hf, hend] at ha
    cases ha
  · obtain ⟨hgave, h₀, -, rfl, hmatch⟩ := hs.exists_started hf
    have hend := hmatch.alive
    rw [ha, eq_comm, Bool.not_eq_false'] at hend
    rw [heq, hgave, hend]
    rfl

/-- **What a supervisor does is told by the dealings with it.** After any calls, about any
processes and on any machines: processes get numbers that only increase, one for each attempt to
start one; the machine is asked for no signal twice, nor after the end of the process was told, where it
is asked exactly when the outcome depends on its answer; the number of signals that it delivered
when it was asked is kept; handles are given up once, when the end was told, and then nothing is
known of the process; the living processes are those that were started and not told to have
ended; and a handle that is given up has the lines that were told. -/
theorem dealings_recounted (calls : List Call) :
    let s := after calls
    let ds := dealings calls
    ((started ds).Pairwise fun a b => a.id.number < b.id.number) ∧
    (∀ host spec h, (s.spawn host spec).1 = .ok h → h.id.number = attempts ds + 1) ∧
    (sent ds).Nodup ∧
    (∀ id signal, ended id ds = true → s.passes id signal = false) ∧
    (∀ id signal, s.passes id signal = true ↔
      ∃ host host', s.send host id signal ≠ s.send host' id signal) ∧
    (s.signalsSent = delivered ds ∧ delivered ds = reached ds ∧
      delivered ds ≤ 2 * (started ds).length) ∧
    (∀ n, (s.absorb? n).isSome = true ↔
      n.process ∈ (started ds).map (·.id) ∧ gaveUp n.process ds = false) ∧
    (∀ id, (s.release? id).isSome = (ended id ds && !gaveUp id ds)) ∧
    (∀ id, gaveUp id ds = true →
      (∀ n, n.process = id → s.call (.observe n) = (.observed false, s)) ∧
      (∀ host signal, s.call (.send host id signal) = (.sent (.error (.unknownProcess id)), s)) ∧
      s.call (.release id) = (.released none, s)) ∧
    s.live = (((started ds).map (·.id)).filter fun id => !ended id ds) ∧
    (s.live.Pairwise fun a b => a.number < b.number) ∧
    ∀ id h t, s.release? id = some (h, t) → ∃ h₀ ∈ started ds, h₀.id = id ∧
      h.id = id ∧ h.output = h₀.output ∧
      (h₀.output = .capture → h.captured = lines id ds) := by
  intro s ds
  have hs : Recounts s ds := recounts calls
  refine ⟨hs.increasing, ?number, hs.sent_nodup, ?last, fun _ _ => passes_iff_send_ne,
    ⟨hs.delivered, delivered_eq_reached ds, ?twice⟩, ?heard, hs.isSome_release?, ?gone, hs.live_eq,
    ?order, ?lines⟩
  case number =>
    intro host spec h hok
    rcases s.spawn_cases host spec with ⟨e, heq⟩ | ⟨g, hid, -, heq⟩
    · rw [heq] at hok
      cases hok
    · rw [heq] at hok
      cases hok
      rw [hid]
      exact hs.number
  case last =>
    intro id signal hend
    by_contra hp
    rw [Bool.not_eq_false] at hp
    obtain ⟨h, hf, ha, -⟩ := passes_eq_true_iff.mp hp
    obtain ⟨-, h₀, -, rfl, hmatch⟩ := hs.exists_started hf
    rw [hmatch.alive, hend] at ha
    cases ha
  case twice =>
    have hle := hs.delivered_le
    rw [hs.delivered] at hle
    exact Nat.le_trans hle hs.length_sent_le
  case heard =>
    intro n
    rw [isSome_absorb?, hs.known, List.mem_map]
  case gone =>
    intro id hg
    have hf := hs.find?_of_gaveUp hg
    refine ⟨?_, ?_, ?_⟩
    · rintro n rfl
      have hnone : s.absorb? n = none := by
        rw [← Option.not_isSome_iff_eq_none, isSome_absorb?, hf]
        exact Bool.false_ne_true
      simp only [Supervisor.call, hnone, Option.isSome_none, Option.getD_none]
    · intro host signal
      have hpasses : s.passes id signal = false := by
        unfold passes
        rw [hf]
        rfl
      have hsend := send_of_not_passes host hpasses
      rw [hf] at hsend
      simp only [Supervisor.call, hsend, Option.isSome_none, Bool.false_eq_true, if_false]
    · have hnone : s.release? id = none := by
        unfold release?
        rw [hf]
      simp only [Supervisor.call, hnone, Option.map_none, Option.getD_none]
  case order =>
    rw [hs.live_eq]
    refine List.Pairwise.filter _ ?_
    rw [List.pairwise_map]
    exact hs.increasing
  case lines =>
    intro id h t hr
    rcases s.release?_cases id with ⟨heq, -⟩ | ⟨g, hf, -, heq⟩
    · rw [heq] at hr
      cases hr
    · rw [heq] at hr
      cases hr
      obtain ⟨-, h₀, hm, rfl, hmatch⟩ := hs.exists_started hf
      exact ⟨h₀, hm, rfl, hs.keyed _ h hf, hmatch.output, hmatch.captured⟩

/-- A machine that lacks the second program it is asked for. -/
def oneMissing : Host where
  environment := .empty
  command _ := .notStarted SystemFault.notFound.message
  readFile _ := .error .notFound
  start id _ := if id.number = 2 then .error .notFound else .ok (100 + id.number)
  signal _ _ := .ok true

/-- A process speaks, is asked to end and given up; of the two others asked for one is lost. -/
def talk : List Call :=
  [.release ⟨1⟩,
    .observe (.exited ⟨1⟩ ⟨some 0, none⟩ none),
    .send oneMissing ⟨1⟩ .terminate,
    .send oneMissing ⟨1⟩ .terminate,
    .observe (.output ⟨1⟩ .stdout "hello"),
    .observe (.output ⟨3⟩ .stdout "hello"),
    .spawn oneMissing (.ofShellLine "cat" "cat"),
    .spawn oneMissing (.ofShellLine "ghost" "ghost"),
    .spawn oneMissing { ProcessSpec.ofShellLine "talker" "echo hello" with output := .capture }]

theorem talk_recounted :
    (started (dealings talk)).map (·.id) = [⟨1⟩, ⟨3⟩] ∧
      sent (dealings talk) = [(⟨1⟩, .terminate)] ∧
      (after talk).signalsSent = 1 ∧
      (after talk).live = [⟨3⟩] ∧
      (after talk).call (.observe (.output ⟨1⟩ .stdout "late")) = (.observed false, after talk) ∧
      lines ⟨1⟩ (dealings talk) = [(.stdout, "hello")] := by
  obtain ⟨-, -, -, -, -, ⟨hsignals, -⟩, -, -, hgone, hlive, -, -⟩ := dealings_recounted talk
  have hgave : gaveUp ⟨1⟩ (dealings talk) = true := by decide
  exact ⟨by decide, by decide, hsignals.trans (by decide), hlive.trans (by decide),
    (hgone ⟨1⟩ hgave).1 _ rfl, by decide⟩

end Supervisor

end Conductor
