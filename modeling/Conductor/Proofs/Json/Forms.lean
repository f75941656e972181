import Conductor.Event
import Conductor.Template.Codec

/-!
# JSON forms are read back

Templates and events have a JSON form that tells its own kind in the field `type`. Reading the form
of a template gives the template back, however deeply fragments are nested, and reading the form of
an event gives the event back, whatever its texts and its payload are, as long as its numbers are
such as a process, a timer and a status can have (`Event.InRange`).
-/

namespace Conductor

/-! ## Nesting -/

namespace Json

theorem depth_pos (j : Json) : 0 < j.depth := by
  cases j <;> simp [depth]

theorem depth_le_depthFields {name : String} {v : Json} {fields : List (String × Json)}
    (h : (name, v) ∈ fields) : v.depth ≤ depthFields fields := by
  induction fields with
  | nil => cases h
  | cons f r ih =>
      rw [depthFields]
      rcases List.mem_cons.mp h with rfl | h
      · exact Nat.le_max_left _ _
      · exact Nat.le_trans (ih h) (Nat.le_max_right _ _)

/-- The items in a field of an object lie at least two levels below it. -/
theorem depthItems_le_of_field (name : String) {items : List Json}
    {fields : List (String × Json)} {n : Nat} (hmem : (name, .arr items) ∈ fields)
    (h : (Json.obj fields).depth ≤ n + 1) :
    depthItems items ≤ n := by
  have hfield := depth_le_depthFields hmem
  simp only [depth] at h hfield
  omega

end Json

/-! ## Templates -/

mutual

/-- A fragment is read back by every reader that may go as deep as its form. -/
theorem Fragment.ofJson?_toJson (f : Fragment) {n : Nat} (h : f.toJson.depth ≤ n) :
    Fragment.ofJson? n f.toJson = some f := by
  obtain _ | n := n
  · exact absurd h (Nat.not_le.mpr f.toJson.depth_pos)
  rw [Fragment.ofJson?]
  cases f with
  | text t => rfl
  | var name => rfl
  | varOr name d =>
      have hd := Template.mapM_toItems d (Json.depthItems_le_of_field "default" (by simp) h)
      simp [Fragment.toJson, Json.tagged?, Json.field?, Json.asString?, Json.asListOf?,
        List.lookup_cons, hd]
  | env name => rfl
  | envOr name d =>
      have hd := Template.mapM_toItems d (Json.depthItems_le_of_field "default" (by simp) h)
      simp [Fragment.toJson, Json.tagged?, Json.field?, Json.given?, Json.asString?,
        Json.asListOf?, List.lookup_cons, hd]
  | command line =>
      have hline := Template.mapM_toItems line (Json.depthItems_le_of_field "command" (by simp) h)
      simp [Fragment.toJson, Json.tagged?, Json.field?, Json.asString?, Json.asListOf?,
        List.lookup_cons, hline]
  | concat parts =>
      have hparts := Template.mapM_toItems parts (Json.depthItems_le_of_field "parts" (by simp) h)
      simp [Fragment.toJson, Json.tagged?, Json.field?, Json.asString?, Json.asListOf?,
        List.lookup_cons, hparts]

theorem Template.mapM_toItems (t : List Fragment) {n : Nat}
    (h : Json.depthItems (Template.toItems t) ≤ n) :
    (Template.toItems t).mapM (Fragment.ofJson? n) = some t := by
  cases t with
  | nil => rfl
  | cons f r =>
      rw [Template.toItems, Json.depthItems, Nat.max_le] at h
      rw [Template.toItems, List.mapM_cons, Fragment.ofJson?_toJson f h.1,
        Template.mapM_toItems r h.2]
      rfl

end

/-- A template is read back: the bound on the nesting that the reader takes from the form is
enough. -/
theorem Template.ofJson?_toJson (t : Template) : Template.ofJson? (Template.toJson t) = some t := by
  apply Template.mapM_toItems t
  rw [Template.toJson, Json.depth]
  exact Nat.le_succ _

/-! ## Numbers in their ranges -/

namespace Json

theorem asIntIn?_int {low high n : Int} (hlow : low ≤ n) (hhigh : n ≤ high) :
    asIntIn? low high (.int n) = some n :=
  if_pos ⟨hlow, hhigh⟩

/-- A natural number is read back below the bound. -/
theorem toNat_asIntIn?_int {b n : Nat} (h : n < b) :
    (asIntIn? 0 (b - 1) (.int n)).map Int.toNat = some n := by
  have hhigh : (n : Int) ≤ b - 1 := by omega
  rw [asIntIn?_int (Int.natCast_nonneg n) hhigh]
  rfl

theorem asNat64?_int {n : Nat} (h : n < Nat.pow 2 64) : asNat64? (.int n) = some n :=
  toNat_asIntIn?_int h

theorem asNat32?_int {n : Nat} (h : n < Nat.pow 2 32) : asNat32? (.int n) = some n :=
  toNat_asIntIn?_int h

theorem asListOf?_strings (texts : List String) :
    asListOf? asString? (.arr (texts.map .str)) = some texts := by
  show (texts.map Json.str).mapM asString? = some texts
  induction texts with
  | nil => rfl
  | cons s r ih =>
      rw [List.map_cons, List.mapM_cons, ih]
      rfl

end Json

/-- A process has a number of 64 bits of its own and one of 32 bits from the operating system. -/
structure ProcessInfo.InRange (p : ProcessInfo) : Prop where
  id : p.id.number < Nat.pow 2 64
  pid : p.pid < Nat.pow 2 32

/-- A signed number of 32 bits. -/
def IsInt32 (n : Int) : Prop :=
  -Nat.pow 2 31 ≤ n ∧ n < Nat.pow 2 31

/-- The code and the signal of an end are signed numbers of 32 bits. -/
structure ExitStatus.InRange (s : ExitStatus) : Prop where
  code : ∀ n ∈ s.code, IsInt32 n
  signal : ∀ n ∈ s.signal, IsInt32 n

/-- The numbers of an event are in their ranges. -/
def Event.InRange : Event → Prop
  | .processStarted p => p.InRange
  | .processExited p s => p.InRange ∧ s.InRange
  | .processOutput p _ _ => p.InRange
  | .shutdownRequested _ _ => True
  | .timerElapsed t => t < Nat.pow 2 64
  | .custom _ _ => True

/-! ## Events -/

theorem ProcessInfo.ofJson?_toJson {p : ProcessInfo} (h : p.InRange) :
    ProcessInfo.ofJson? p.toJson = some p := by
  simp [ProcessInfo.ofJson?, ProcessInfo.toJson, Json.asRecord?, Json.field?, List.lookup_cons,
    Json.asNat64?_int h.id, Json.asNat32?_int h.pid, Json.asString?, Json.asListOf?_strings]

namespace ExitStatus

/-- A part of an end is written as null when it is missing. -/
theorem optional?_given? (name : String) {part : Option Int} {j : Json}
    (hfield : j.field? name = some (partToJson part)) (h : ∀ n ∈ part, IsInt32 n) :
    Json.optional? Json.asInt32? (j.given? name) = some part := by
  rw [Json.given?, hfield]
  cases part with
  | none => rfl
  | some n =>
      have hn : IsInt32 n := h n rfl
      have hread : Json.asInt32? (.int n) = some n := by
        have hhigh : n ≤ Nat.pow 2 31 - 1 := Int.le_sub_one_of_lt hn.2
        exact Json.asIntIn?_int hn.1 hhigh
      show (Json.asInt32? (.int n)).map some = _
      rw [hread]
      rfl

theorem ofJson?_toJson {s : ExitStatus} (h : s.InRange) :
    ExitStatus.ofJson? s.toJson = some s := by
  have hcode := optional?_given? "code" (j := s.toJson) rfl h.code
  have hsignal := optional?_given? "signal" (j := s.toJson) rfl h.signal
  rw [toJson] at hcode hsignal
  simp [ofJson?, toJson, Json.asRecord?, hcode, hsignal]

end ExitStatus

theorem Event.ofJson?_toJson {e : Event} (h : e.InRange) : Event.ofJson? e.toJson = some e := by
  rw [Event.ofJson?]
  cases e with
  | processStarted p =>
      simp [Event.toJson, Json.tagged?, Json.field?, List.lookup_cons, Json.asString?,
        ProcessInfo.ofJson?_toJson h]
  | processExited p s =>
      simp [Event.toJson, Json.tagged?, Json.field?, List.lookup_cons, Json.asString?,
        ProcessInfo.ofJson?_toJson h.1, ExitStatus.ofJson?_toJson h.2]
  | processOutput p stream text =>
      simp [Event.toJson, Json.tagged?, Json.field?, List.lookup_cons, Json.asString?, Json.asWord?,
        ProcessInfo.ofJson?_toJson h]
  | shutdownRequested reason due => rfl
  | timerElapsed t =>
      simp [Event.toJson, Json.tagged?, Json.field?, List.lookup_cons, Json.asString?,
        Json.asNat64?_int h]
  | custom kind payload => rfl

/-- **The JSON form of a template or an event stands for it.** Every template is read back from its
form, and so is every event whose numbers are in their ranges. -/
theorem forms_read_back :
    (∀ t : Template, Template.ofJson? (Template.toJson t) = some t) ∧
      ∀ e : Event, e.InRange → Event.ofJson? e.toJson = some e :=
  ⟨Template.ofJson?_toJson, fun _ => Event.ofJson?_toJson⟩

/-- A process with the largest numbers there are. -/
def utmost : ProcessInfo where
  id := ⟨Nat.pow 2 64 - 1⟩
  action := ⟨BitVec.allOnes 128⟩
  name := "utmost"
  pid := Nat.pow 2 32 - 1
  command := ["sh", "-c", ""]

theorem utmost_exit_read_back :
    (Event.processExited utmost ⟨some (-Nat.pow 2 31), none⟩).InRange ∧
      Event.ofJson? (Event.processExited utmost ⟨some (-Nat.pow 2 31), none⟩).toJson =
        some (.processExited utmost ⟨some (-Nat.pow 2 31), none⟩) := by
  have hrange : (Event.processExited utmost ⟨some (-Nat.pow 2 31), none⟩).InRange := by
    refine ⟨⟨by decide, by decide⟩, ⟨?_, ?_⟩⟩
    · intro n hn
      cases hn
      exact ⟨by decide, by decide⟩
    · intro n hn
      cases hn
  exact ⟨hrange, forms_read_back.2 _ hrange⟩

end Conductor
