import Mathlib.Data.List.Nodup
import Conductor.Config.Document

/-!
# Settings

A configuration is seen here as one setting for each key. Entries give some settings, with entries
of other names between them (`Gives`). When no key is given twice, the entries are read as the
configuration that has the settings that are given and is standard in everything else
(`configOf?_of_gives`), by whatever library they were found.
-/

namespace Conductor.Config

/-! ## Keys and settings -/

/-- What can be set. -/
inductive Key where
  | graceSeconds
  | failurePolicy
  | writePolicy
  | allowRedeclare
  | handleSignals
  | defaultOutput
  deriving DecidableEq, Repr

namespace Key

def name : Key → String
  | .graceSeconds => "grace_period_secs"
  | .failurePolicy => "failure_policy"
  | .writePolicy => "write_policy"
  | .allowRedeclare => "allow_redeclare"
  | .handleSignals => "handle_signals"
  | .defaultOutput => "default_output"

/-- All keys, in the order in which they are written. -/
def all : List Key :=
  [.graceSeconds, .failurePolicy, .writePolicy, .allowRedeclare, .handleSignals, .defaultOutput]

theorem mem_all (k : Key) : k ∈ all := by
  cases k <;> decide

theorem nodup_all : all.Nodup := by
  decide

theorem map_name_all : all.map name = fieldNames := rfl

theorem name_mem_fieldNames (k : Key) : k.name ∈ fieldNames := by
  rw [← map_name_all]
  exact List.mem_map_of_mem (mem_all k)

theorem name_injective : Function.Injective name := by
  intro k k' h
  cases k <;> cases k' <;> first | rfl | exact absurd h (by decide)

end Key

/-- A value for one of the keys. -/
inductive Setting where
  | graceSeconds (x : Binary64)
  | failurePolicy (p : FailurePolicy)
  | writePolicy (p : WritePolicy)
  | allowRedeclare (b : Bool)
  | handleSignals (b : Bool)
  | defaultOutput (m : OutputMode)
  deriving DecidableEq

namespace Setting

def key : Setting → Key
  | .graceSeconds _ => .graceSeconds
  | .failurePolicy _ => .failurePolicy
  | .writePolicy _ => .writePolicy
  | .allowRedeclare _ => .allowRedeclare
  | .handleSignals _ => .handleSignals
  | .defaultOutput _ => .defaultOutput

/-- What the setting is written as. -/
def scalar : Setting → Scalar
  | .graceSeconds x => .number x
  | .failurePolicy p => .word p.name
  | .writePolicy p => .word p.name
  | .allowRedeclare b => .truth b
  | .handleSignals b => .truth b
  | .defaultOutput m => .word m.name

/-- Whether a library finds the setting in a value. -/
def GivenBy (lib : DocumentLibrary) (s : Setting) (v : lib.Node) : Prop :=
  match s.scalar with
  | .number x => lib.number? v = some x
  | .truth b => lib.truth? v = some b
  | .word w => lib.word? v = some w

end Setting

/-- What a configuration has under a key. -/
def setting (c : Config) : Key → Setting
  | .graceSeconds => .graceSeconds c.graceSeconds
  | .failurePolicy => .failurePolicy c.failurePolicy
  | .writePolicy => .writePolicy c.writePolicy
  | .allowRedeclare => .allowRedeclare c.allowRedeclare
  | .handleSignals => .handleSignals c.handleSignals
  | .defaultOutput => .defaultOutput c.defaultOutput

@[simp] theorem key_setting (c : Config) (k : Key) : (c.setting k).key = k := by
  cases k <;> rfl

/-- A configuration is determined by its settings. -/
theorem ext_setting {c d : Config} (h : ∀ k, c.setting k = d.setting k) : c = d := by
  cases c
  cases d
  have hgrace := Setting.graceSeconds.inj (h .graceSeconds)
  have hfailure := Setting.failurePolicy.inj (h .failurePolicy)
  have hwrite := Setting.writePolicy.inj (h .writePolicy)
  have hredeclare := Setting.allowRedeclare.inj (h .allowRedeclare)
  have hsignals := Setting.handleSignals.inj (h .handleSignals)
  have houtput := Setting.defaultOutput.inj (h .defaultOutput)
  simp only [Config.mk.injEq]
  exact ⟨hgrace, hfailure, hwrite, hredeclare, hsignals, houtput⟩

/-- The configuration has exactly the settings that are given: what is not given is standard. -/
structure HasExactly (c : Config) (settings : List Setting) : Prop where
  given : ∀ s ∈ settings, c.setting s.key = s
  absent : ∀ k ∉ settings.map Setting.key, c.setting k = standard.setting k

/-- At most one configuration has exactly the given settings. -/
theorem HasExactly.eq {c d : Config} {settings : List Setting} (hc : c.HasExactly settings)
    (hd : d.HasExactly settings) : c = d := by
  apply ext_setting
  intro k
  by_cases hk : k ∈ settings.map Setting.key
  · obtain ⟨s, hs, rfl⟩ := List.mem_map.mp hk
    rw [hc.given s hs, hd.given s hs]
  · rw [hc.absent k hk, hd.absent k hk]

/-- A configuration has exactly its own settings. -/
theorem hasExactly_settings (c : Config) : c.HasExactly (Key.all.map c.setting) where
  given s hs := by
    obtain ⟨k, -, rfl⟩ := List.mem_map.mp hs
    rw [key_setting]
  absent k hk := by
    rw [List.map_map, List.mem_map] at hk
    exact absurd ⟨k, Key.mem_all k, c.key_setting k⟩ hk

/-- A configuration is written with a field for each key. -/
theorem record_eq (c : Config) : c.record = Key.all.map fun k => (k.name, (c.setting k).scalar) :=
  rfl

/-! ## Entries that give settings -/

variable {lib : DocumentLibrary}

/-- The entries give the settings, one after the other. Entries of unknown names may stand
between them. -/
inductive Gives (lib : DocumentLibrary) : List (String × lib.Node) → List Setting → Prop where
  | nil : Gives lib [] []
  | unknown {name : String} (h : name ∉ fieldNames) (v : lib.Node)
      {entries : List (String × lib.Node)} {given : List Setting}
      (rest : Gives lib entries given) : Gives lib ((name, v) :: entries) given
  | known {s : Setting} {v : lib.Node} (h : s.GivenBy lib v)
      {entries : List (String × lib.Node)} {given : List Setting}
      (rest : Gives lib entries given) : Gives lib ((s.key.name, v) :: entries) (s :: given)

variable {entries : List (String × lib.Node)} {given : List Setting} {k : Key}

/-- Without a setting for a key there is no entry of its name. -/
theorem Gives.filter_eq_nil (h : Gives lib entries given) (hk : k ∉ given.map Setting.key) :
    entries.filter (·.1 = k.name) = [] := by
  induction h with
  | nil => rfl
  | @unknown name hname v entries given _ ih =>
      have hne : name ≠ k.name := fun heq => hname (heq ▸ k.name_mem_fieldNames)
      rw [List.filter_cons_of_neg (by simpa using hne)]
      exact ih hk
  | @known s v _ entries given _ ih =>
      rw [List.map_cons, List.mem_cons, not_or] at hk
      have hne : s.key.name ≠ k.name := fun heq => hk.1 (Key.name_injective heq).symm
      rw [List.filter_cons_of_neg (by simpa using hne)]
      exact ih hk.2

/-- A setting whose key is given once has a single entry of its name. -/
theorem Gives.exists_filter_eq (h : Gives lib entries given) (hkeys : (given.map Setting.key).Nodup)
    {s : Setting} (hs : s ∈ given) :
    ∃ v, entries.filter (·.1 = s.key.name) = [(s.key.name, v)] ∧ s.GivenBy lib v := by
  induction h with
  | nil => cases hs
  | @unknown name hname v entries given _ ih =>
      have hne : name ≠ s.key.name := fun heq => hname (heq ▸ s.key.name_mem_fieldNames)
      rw [List.filter_cons_of_neg (by simpa using hne)]
      exact ih hkeys hs
  | @known t v hv entries given hrest ih =>
      rw [List.map_cons, List.nodup_cons] at hkeys
      rcases List.mem_cons.mp hs with rfl | hs
      · refine ⟨v, ?_, hv⟩
        rw [List.filter_cons_of_pos (by simp), hrest.filter_eq_nil hkeys.1]
      · have hne : t.key.name ≠ s.key.name := fun heq =>
          hkeys.1 (Key.name_injective heq ▸ List.mem_map_of_mem hs)
        rw [List.filter_cons_of_neg (by simpa using hne)]
        exact ih hkeys.2 hs

/-! ## What is read -/

/-- How the values under a key make settings, and how they are read. -/
structure Reads (lib : DocumentLibrary) {α : Type} (k : Key) (make : α → Setting)
    (read : lib.Node → Option α) : Prop where
  exists_make : ∀ s : Setting, s.key = k → ∃ a, make a = s
  read_eq : ∀ a v, (make a).GivenBy lib v → read v = some a

/-- A word is read as the alternative that it names. -/
theorem named?_eq {α : Type} {name : α → String} {ofName? : String → Option α}
    (hname : ∀ a, ofName? (name a) = some a) {a : α} {v : lib.Node}
    (h : lib.word? v = some (name a)) : lib.named? ofName? v = some a := by
  rw [DocumentLibrary.named?, h, Option.bind_some, hname]

theorem reads_graceSeconds : Reads lib .graceSeconds .graceSeconds lib.number? where
  exists_make s hs := by cases s <;> first | exact ⟨_, rfl⟩ | cases hs
  read_eq _ _ h := h

theorem reads_failurePolicy :
    Reads lib .failurePolicy .failurePolicy (lib.named? FailurePolicy.ofName?) where
  exists_make s hs := by cases s <;> first | exact ⟨_, rfl⟩ | cases hs
  read_eq _ _ h := named?_eq FailurePolicy.ofName?_name h

theorem reads_writePolicy :
    Reads lib .writePolicy .writePolicy (lib.named? WritePolicy.ofName?) where
  exists_make s hs := by cases s <;> first | exact ⟨_, rfl⟩ | cases hs
  read_eq _ _ h := named?_eq WritePolicy.ofName?_name h

theorem reads_allowRedeclare : Reads lib .allowRedeclare .allowRedeclare lib.truth? where
  exists_make s hs := by cases s <;> first | exact ⟨_, rfl⟩ | cases hs
  read_eq _ _ h := h

theorem reads_handleSignals : Reads lib .handleSignals .handleSignals lib.truth? where
  exists_make s hs := by cases s <;> first | exact ⟨_, rfl⟩ | cases hs
  read_eq _ _ h := h

theorem reads_defaultOutput :
    Reads lib .defaultOutput .defaultOutput (lib.named? OutputMode.ofName?) where
  exists_make s hs := by cases s <;> first | exact ⟨_, rfl⟩ | cases hs
  read_eq _ _ h := named?_eq OutputMode.ofName?_name h

/-- One field of the configuration: it is read as it is given, or it is standard. -/
theorem Gives.exists_entryOr_eq {α : Type} {make : α → Setting} {read : lib.Node → Option α}
    (h : Gives lib entries given) (hkeys : (given.map Setting.key).Nodup)
    (hreads : Reads lib k make read) (standardValue : α) :
    ∃ a, entryOr entries k.name read standardValue = some a ∧
      (∀ s ∈ given, s.key = k → make a = s) ∧
      (k ∉ given.map Setting.key → a = standardValue) := by
  by_cases hk : k ∈ given.map Setting.key
  · obtain ⟨s, hs, hsk⟩ := List.mem_map.mp hk
    obtain ⟨v, hfilter, hv⟩ := h.exists_filter_eq hkeys hs
    obtain ⟨a, rfl⟩ := hreads.exists_make s hsk
    refine ⟨a, ?_, ?_, fun hnot => absurd hk hnot⟩
    · rw [entryOr, ← hsk, hfilter]
      exact hreads.read_eq a v hv
    · intro t ht htk
      exact List.inj_on_of_nodup_map hkeys hs ht (hsk.trans htk.symm)
  · refine ⟨standardValue, ?_, ?_, fun _ => rfl⟩
    · rw [entryOr, h.filter_eq_nil hk]
    · intro s hs hsk
      exact absurd (hsk ▸ List.mem_map_of_mem hs) hk

/-- **Entries are read as the configuration that they give.** -/
theorem configOf?_of_gives (h : Gives lib entries given)
    (hkeys : (given.map Setting.key).Nodup) :
    ∃ c, lib.configOf? entries = some c ∧ c.HasExactly given := by
  obtain ⟨grace, hgrace, hgrace', hgrace''⟩ :=
    h.exists_entryOr_eq hkeys reads_graceSeconds standard.graceSeconds
  obtain ⟨failure, hfailure, hfailure', hfailure''⟩ :=
    h.exists_entryOr_eq hkeys reads_failurePolicy standard.failurePolicy
  obtain ⟨write, hwrite, hwrite', hwrite''⟩ :=
    h.exists_entryOr_eq hkeys reads_writePolicy standard.writePolicy
  obtain ⟨redeclare, hredeclare, hredeclare', hredeclare''⟩ :=
    h.exists_entryOr_eq hkeys reads_allowRedeclare standard.allowRedeclare
  obtain ⟨signals, hsignals, hsignals', hsignals''⟩ :=
    h.exists_entryOr_eq hkeys reads_handleSignals standard.handleSignals
  obtain ⟨output, houtput, houtput', houtput''⟩ :=
    h.exists_entryOr_eq hkeys reads_defaultOutput standard.defaultOutput
  refine ⟨⟨grace, failure, write, redeclare, signals, output⟩, ?_, ?_, ?_⟩
  · simp only [Key.name] at hgrace hfailure hwrite hredeclare hsignals houtput
    simp [DocumentLibrary.configOf?, hgrace, hfailure, hwrite, hredeclare, hsignals, houtput]
  · intro s hs
    cases s with
    | graceSeconds x => exact hgrace' _ hs rfl
    | failurePolicy p => exact hfailure' _ hs rfl
    | writePolicy p => exact hwrite' _ hs rfl
    | allowRedeclare b => exact hredeclare' _ hs rfl
    | handleSignals b => exact hsignals' _ hs rfl
    | defaultOutput m => exact houtput' _ hs rfl
  · intro k hk
    cases k with
    | graceSeconds => exact congrArg Setting.graceSeconds (hgrace'' hk)
    | failurePolicy => exact congrArg Setting.failurePolicy (hfailure'' hk)
    | writePolicy => exact congrArg Setting.writePolicy (hwrite'' hk)
    | allowRedeclare => exact congrArg Setting.allowRedeclare (hredeclare'' hk)
    | handleSignals => exact congrArg Setting.handleSignals (hsignals'' hk)
    | defaultOutput => exact congrArg Setting.defaultOutput (houtput'' hk)

end Conductor.Config
