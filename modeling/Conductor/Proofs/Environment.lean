import Conductor.Proofs.Launch.Effect

/-!
# The environment of processes

An environment variable is looked up in three ways: by the innermost scope that overrides it, in
the table that is made of the inherited environment and all overrides, and in the environment
that a process is handed, for which the overrides are split into variables to be taken away and
variables to be set. All three agree (`environment_views_agree`).
-/

namespace Conductor

namespace Table

variable {κ α : Type} [LE κ] [LT κ] [DecidableEq κ] [DecidableLT κ] [Std.IsLinearOrder κ]
  [Std.LawfulOrderLT κ]

/-- Looking a key up when several entries were inserted: the last one for the key counts. -/
theorem get?_foldl_insert (es : List (κ × α)) (t : Table κ α) (k : κ) :
    (es.foldl (fun t e => t.insert e.1 e.2) t).get? k =
      (es.reverse.lookup k).or (t.get? k) := by
  induction es generalizing t with
  | nil => rfl
  | cons e rest ih =>
      obtain ⟨k', v⟩ := e
      rw [List.foldl_cons, ih, get?_insert, List.reverse_cons, List.lookup_append, Option.or_assoc]
      congr 1
      by_cases h : k = k'
      · simp [h]
      · have hne : (k == k') = false := beq_eq_false_iff_ne.mpr h
        simp [List.lookup_cons, h, hne]

theorem get?_ofList (es : List (κ × α)) (k : κ) :
    (ofList es).get? k = es.reverse.lookup k := by
  unfold ofList
  rw [get?_foldl_insert, get?_empty, Option.or_none]

theorem get?_foldl_erase (ks : List κ) (t : Table κ α) (k : κ) :
    (ks.foldl (fun t k => t.erase k) t).get? k = if k ∈ ks then none else t.get? k := by
  induction ks generalizing t with
  | nil => simp
  | cons k' rest ih =>
      rw [List.foldl_cons, ih, get?_erase]
      by_cases h : k = k' <;> by_cases hr : k ∈ rest <;> simp [h, hr]

/-- Looking a key up after changes to a table, in the order of their keys, each of which sets its
key or takes it away. -/
theorem get?_foldl_changes {step : Table κ α → κ × Option α → Table κ α}
    (hstep : ∀ t e k, (step t e).get? k = if k = e.1 then e.2 else t.get? k)
    {es : List (κ × Option α)} (hes : es.Pairwise fun a b => a.1 < b.1) (t : Table κ α) (k : κ) :
    (es.foldl step t).get? k = (find k es).getD (t.get? k) := by
  induction es generalizing t with
  | nil => rfl
  | cons e rest ih =>
      obtain ⟨k', change⟩ := e
      rw [List.pairwise_cons] at hes
      rw [List.foldl_cons, ih hes.2, hstep, find]
      by_cases h : k = k'
      · subst h
        rw [find_eq_none_of_lt hes.1, if_pos rfl, if_pos rfl]
        rfl
      · rw [if_neg h, if_neg h]

end Table

namespace Context

/-- The environment that a process inherits has the variables that a look-up sees. -/
theorem get?_processEnv (c : Context) (n : String) : c.processEnv.get? n = c.env n := by
  have hoverride : Table.find n c.envOverrides.entries = c.scopes.override? n :=
    ScopeStack.get?_env_flatten c.scopes n
  unfold processEnv env
  rw [Table.get?_foldl_changes ?_ c.envOverrides.ordered, hoverride]
  · cases c.scopes.override? n <;> rfl
  · rintro t ⟨k, change⟩ n
    cases change with
    | none => exact Table.get?_erase t k n
    | some v => exact Table.get?_insert t k n v

end Context

namespace ProcessTemplate

/-- What is to be set is what the innermost override sets. -/
theorem lookup_inheritedAdditions (c : Context) (n : String) :
    (inheritedAdditions c).reverse.lookup n = (c.scopes.override? n).join := by
  have hoverride : Table.find n c.envOverrides.entries = c.scopes.override? n :=
    ScopeStack.get?_env_flatten c.scopes n
  have hordered := c.envOverrides.ordered
  rw [← hoverride]
  unfold inheritedAdditions
  generalize c.envOverrides.entries = es at hordered
  induction es with
  | nil => rfl
  | cons e rest ih =>
      obtain ⟨k, change⟩ := e
      rw [List.pairwise_cons] at hordered
      have hrest := ih hordered.2
      rw [List.filterMap_cons, Table.find]
      by_cases h : n = k
      · subst h
        rw [Table.find_eq_none_of_lt hordered.1] at hrest
        rw [if_pos rfl]
        cases change with
        | none => exact hrest
        | some v => simp [List.lookup_append, hrest]
      · rw [if_neg h]
        cases change with
        | none => exact hrest
        | some v =>
            have hne : (n == k) = false := beq_eq_false_iff_ne.mpr h
            simp [List.lookup_append, List.lookup_cons, hrest, hne]

/-- What is to be taken away is what the innermost override takes away. -/
theorem mem_inheritedRemovals (c : Context) (n : String) :
    n ∈ inheritedRemovals c ↔ c.scopes.override? n = some none := by
  have hoverride : c.envOverrides.get? n = c.scopes.override? n :=
    ScopeStack.get?_env_flatten c.scopes n
  rw [← hoverride, Table.get?_eq_some_iff]
  unfold inheritedRemovals
  rw [List.mem_filterMap]
  constructor
  · rintro ⟨⟨k, change⟩, hm, hk⟩
    cases change with
    | none =>
        cases hk
        exact hm
    | some v => cases hk
  · intro hm
    exact ⟨(n, none), hm, rfl⟩

end ProcessTemplate

namespace ProcessSpec

/-- The environment that a process is handed: the last of the additions counts, then what is
taken away, then what was there. -/
theorem get?_environment (p : ProcessSpec) (inherited : Table String String) (n : String) :
    (p.environment inherited).get? n = (p.additions.reverse.lookup n).or
      (if n ∈ p.removals then none else (p.replacement.getD inherited).get? n) := by
  unfold environment
  dsimp only
  rw [Table.get?_foldl_insert, Table.get?_foldl_erase]

end ProcessSpec

namespace ProcessTemplate

variable {p : ProcessTemplate} {c : Context} {fallback : OutputMode} {spec : ProcessSpec}

/-- What is handed to a process whose template asks for no environment of its own. -/
def Inherits (p : ProcessTemplate) (c : Context) (spec : ProcessSpec) : Prop :=
  ∃ additions, resolvePairs c p.additions = .ok additions ∧ spec.replacement = none ∧
    spec.additions = inheritedAdditions c ++ additions ∧ spec.removals = inheritedRemovals c

/-- What is handed to a process whose template gives the environment. -/
def Replaces (p : ProcessTemplate) (c : Context) (pairs : List (Template × Template))
    (spec : ProcessSpec) : Prop :=
  ∃ replaced additions, resolvePairs c pairs = .ok replaced ∧
    resolvePairs c p.additions = .ok additions ∧ spec.replacement = some (Table.ofList replaced) ∧
    spec.additions = additions ∧ spec.removals = []

/-- Each step of a computation that succeeds has succeeded. -/
theorem exists_of_bind {α β ε : Type} {x : Except ε α} {f : α → Except ε β} {z : β}
    (h : x >>= f = .ok z) : ∃ y, x = .ok y ∧ f y = .ok z := by
  cases x with
  | error e => cases h
  | ok y => exact ⟨y, rfl, h⟩

/-- The overrides of the context count only for a process without an environment of its own. -/
theorem complete_ok {base : ProcessSpec} (h : p.complete c fallback base = .ok spec) :
    (p.environment = none → p.Inherits c spec) ∧
      ∀ pairs, p.environment = some pairs → p.Replaces c pairs spec := by
  unfold complete at h
  dsimp only at h
  split at h
  all_goals
    obtain ⟨directory, -, h⟩ := exists_of_bind h
    split at h
    · rename_i hnone
      obtain ⟨replacement, hr, h⟩ := exists_of_bind h
      obtain ⟨additions, hadd, h⟩ := exists_of_bind h
      obtain rfl := Except.ok.inj hr
      obtain rfl := Except.ok.inj h
      refine ⟨fun _ => ⟨additions, hadd, rfl, rfl, rfl⟩, fun pairs hp => ?_⟩
      rw [hnone] at hp
      cases hp
    · rename_i pairs hsome
      obtain ⟨replacement, hr, h⟩ := exists_of_bind h
      obtain ⟨additions, hadd, h⟩ := exists_of_bind h
      obtain ⟨replaced, hres, hr⟩ := exists_of_bind hr
      obtain rfl := Except.ok.inj hr
      obtain rfl := Except.ok.inj h
      refine ⟨fun hp => ?_, fun pairs' hp => ?_⟩
      · rw [hsome] at hp
        cases hp
      · rw [hsome] at hp
        cases hp
        exact ⟨replaced, additions, hres, hadd, rfl, rfl, rfl⟩

/-- The process that a template describes is a command line or a line for the shell, completed. -/
theorem exists_base {attempt : Nat} {command : List String}
    (h : p.toSpec c fallback attempt command = .ok spec) :
    ∃ base, p.complete c fallback base = .ok spec := by
  unfold toSpec at h
  dsimp only at h
  split at h
  all_goals
    obtain ⟨name, -, h⟩ := exists_of_bind h
    split at h
    · exact ⟨_, h⟩
    · split at h
      · exact ⟨_, h⟩
      · cases h

/-- A process that inherits is handed what a look-up in the context sees, under what is added. -/
theorem Inherits.get?_environment (h : p.Inherits c spec) :
    ∃ additions, resolvePairs c p.additions = .ok additions ∧
      ∀ n, (spec.environment c.host.environment).get? n =
        (additions.reverse.lookup n).or (c.env n) := by
  obtain ⟨additions, hres, hrep, hadd, hrem⟩ := h
  refine ⟨additions, hres, fun n => ?_⟩
  rw [ProcessSpec.get?_environment, hrep, hadd, hrem, List.reverse_append, List.lookup_append,
    lookup_inheritedAdditions, Option.or_assoc]
  congr 1
  unfold Context.env
  simp only [mem_inheritedRemovals, Option.getD_none]
  cases c.scopes.override? n with
  | none => rfl
  | some change => cases change <;> rfl

/-- A process with an environment of its own is handed that, under what is added, whatever it
could inherit. -/
theorem Replaces.get?_environment {pairs : List (Template × Template)}
    (h : p.Replaces c pairs spec) :
    ∃ replaced additions, resolvePairs c pairs = .ok replaced ∧
      resolvePairs c p.additions = .ok additions ∧
      ∀ inherited n, (spec.environment inherited).get? n =
        (additions.reverse.lookup n).or (replaced.reverse.lookup n) := by
  obtain ⟨replaced, additions, hres, hresAdd, hrep, hadd, hrem⟩ := h
  refine ⟨replaced, additions, hres, hresAdd, fun inherited n => ?_⟩
  rw [ProcessSpec.get?_environment, hrep, hadd, hrem, if_neg List.not_mem_nil, Option.getD_some,
    Table.get?_ofList]

end ProcessTemplate

namespace Launch

/-- A process that an action starts is the one that its template describes. -/
theorem exists_toSpec_of_started {l : Launch} {seq : Nat} {a : Action} {p : ProcessTemplate}
    {onExit : List Action} {newer : List Occurrence} {id : ProcessId} {spec : ProcessSpec}
    (h : (l.execute seq a p onExit).1.history = newer ++ .started id spec :: l.history) :
    ∃ base, p.complete l.context l.config.defaultOutput base = .ok spec := by
  have hsame : ∀ m : Launch, m.history = l.history →
      m.history ≠ newer ++ .started id spec :: l.history := by
    intro m hm heq
    have hlength := congrArg List.length (hm.symm.trans heq)
    rw [List.length_append, List.length_cons] at hlength
    omega
  unfold execute at h
  split at h
  · exact absurd h (hsame l rfl)
  · dsimp only at h
    split at h
    · exact absurd h (hsame _ rfl)
    · rename_i spec' hspec
      split at h
      · rename_i hs
        rw [startProcess_error hs] at h
        exact absurd h (hsame _ rfl)
      · rename_i g m hs
        obtain ⟨-, -, rfl⟩ := startProcess_ok hs
        obtain ⟨r, -, -, -, -, heq⟩ :=
          attend_eq (withStarted { l with attempts := l.attempts + 1 } g spec') seq a onExit
            spec'.name g
        rw [heq] at h
        have hcut : [Occurrence.kept r _, .emitted (.processStarted r.info)] ++
            .started g.id spec' :: l.history = newer ++ .started id spec :: l.history := h
        have htail := (List.append_inj' hcut rfl).2
        cases htail
        exact ProcessTemplate.exists_base hspec

/-- **One environment, seen in three ways.** In any context the environment that a process
inherits has the value of a variable that a look-up finds. A process that is started from the
context is handed these values, under the last of those that its action adds; if its action gives
an environment, it is handed the last values given there instead, whatever is inherited. -/
theorem environment_views_agree (l : Launch) :
    (∀ n, l.context.processEnv.get? n = l.context.env n) ∧
    ∀ seq a p onExit newer id spec,
      (l.execute seq a p onExit).1.history = newer ++ .started id spec :: l.history →
      (p.environment = none → p.additions = [] →
        ∀ n, (spec.environment l.context.host.environment).get? n = l.context.env n) ∧
      (p.environment = none →
        ∃ additions, ProcessTemplate.resolvePairs l.context p.additions = .ok additions ∧
          ∀ n, (spec.environment l.context.host.environment).get? n =
            (additions.reverse.lookup n).or (l.context.processEnv.get? n)) ∧
      ∀ pairs, p.environment = some pairs →
        ∃ replaced additions, ProcessTemplate.resolvePairs l.context pairs = .ok replaced ∧
          ProcessTemplate.resolvePairs l.context p.additions = .ok additions ∧
          ∀ inherited n, (spec.environment inherited).get? n =
            (additions.reverse.lookup n).or (replaced.reverse.lookup n) := by
  refine ⟨l.context.get?_processEnv, fun seq a p onExit newer id spec hstarted => ?_⟩
  obtain ⟨base, hbase⟩ := exists_toSpec_of_started hstarted
  obtain ⟨hinherits, hreplaces⟩ := ProcessTemplate.complete_ok hbase
  refine ⟨fun hp hnil => ?_, fun hp => ?_, fun pairs hp => (hreplaces pairs hp).get?_environment⟩
  · obtain ⟨additions, hadd, hget⟩ := (hinherits hp).get?_environment
    rw [hnil] at hadd
    obtain rfl := Except.ok.inj hadd
    intro n
    rw [hget]
    exact Option.none_or
  · obtain ⟨additions, hadd, hget⟩ := (hinherits hp).get?_environment
    refine ⟨additions, hadd, fun n => ?_⟩
    rw [hget, l.context.get?_processEnv]

/-- A machine with two variables, on which programs start. -/
def homely : Host :=
  { Host.bare with
    environment := .ofList [("PATH", "/bin"), ("USER", "me")]
    start := fun _ _ => .ok 100 }

/-- In the root one variable is changed, in a group it is taken away. -/
def withoutPath : Launch :=
  { start .standard homely [] with
    context := { Context.start homely with
      scopes := ⟨[Scope.empty.setEnv "PATH" none], Scope.empty.setEnv "PATH" (some "/opt")⟩ } }

/-- A process to which a variable is added twice. -/
def addsTwice : ProcessTemplate where
  command := [[.text "worker"]]
  name := some [.text "w"]
  additions := [([.text "USER"], [.text "you"]), ([.text "USER"], [.text "them"])]

theorem worker_sees_no_path (a : Action) :
    ∃ newer id spec,
      (withoutPath.execute 0 a addsTwice []).1.history =
        newer ++ .started id spec :: withoutPath.history ∧
      (spec.environment homely.environment).get? "PATH" = none ∧
      (spec.environment homely.environment).get? "USER" = some "them" := by
  obtain ⟨hviews, hstarts⟩ := environment_views_agree withoutPath
  refine ⟨[_, _], _, _, rfl, ?_⟩
  obtain ⟨-, hinherits, -⟩ := hstarts 0 a addsTwice [] [_, _] _ _ rfl
  obtain ⟨additions, hadd, hget⟩ := hinherits rfl
  obtain rfl := Except.ok.inj hadd
  refine ⟨(hget "PATH").trans ?_, (hget "USER").trans (by decide)⟩
  rw [hviews]
  decide

end Launch

end Conductor
