import Mathlib.Data.List.Forall2
import Conductor.Proofs.Template.Written

/-!
# Resolving templates

A fragment is resolved in two steps: first the template that it goes into (`Fragment.inside`), then
the fragment itself, given the text of that template (`Fragment.finish`). A default is gone into
only if its name has no value. Written in a row, from left to right and what is inside a fragment
before the fragment, the fragments that are resolved are those `reached`.

A template has a text exactly if every fragment reached yields one (`exists_resolve_iff`), and the
text is that of its own fragments, joined (`resolve_eq_ok_iff`). Otherwise the leftmost fragment
that yields none fails by itself, and its error is that of the template (`resolve_eq_error_iff`).
-/

namespace Conductor

/-! ## The leftmost failure in a list -/

/-- Some element of the list fails, and those before it pass. -/
def Leftmost {α : Type} (passes fails : α → Prop) (xs : List α) : Prop :=
  ∃ before x after, xs = before ++ x :: after ∧ (∀ y ∈ before, passes y) ∧ fails x

namespace Leftmost

variable {α : Type} {passes fails : α → Prop} {x : α} {xs ys : List α}

theorem not_nil : ¬ Leftmost passes fails [] := by
  rintro ⟨before, x, after, heq, -⟩
  exact List.append_ne_nil_of_right_ne_nil before (List.cons_ne_nil x after) heq.symm

theorem cons_iff :
    Leftmost passes fails (x :: xs) ↔ fails x ∨ passes x ∧ Leftmost passes fails xs := by
  constructor
  · rintro ⟨before, y, after, heq, hbefore, hy⟩
    cases before with
    | nil =>
        cases heq
        exact .inl hy
    | cons z before =>
        cases heq
        obtain ⟨hx, hbefore⟩ := List.forall_mem_cons.mp hbefore
        exact .inr ⟨hx, before, y, after, rfl, hbefore, hy⟩
  · rintro (hx | ⟨hx, before, y, after, rfl, hbefore, hy⟩)
    · exact ⟨[], x, xs, rfl, List.forall_mem_nil _, hx⟩
    · exact ⟨x :: before, y, after, rfl, List.forall_mem_cons.mpr ⟨hx, hbefore⟩, hy⟩

theorem append_iff : Leftmost passes fails (xs ++ ys) ↔
    Leftmost passes fails xs ∨ (∀ x ∈ xs, passes x) ∧ Leftmost passes fails ys := by
  induction xs with
  | nil => simp [not_nil]
  | cons x xs ih =>
      rw [List.cons_append, cons_iff, cons_iff, ih, List.forall_mem_cons]
      tauto

end Leftmost

/-! ## Into a fragment and out of it -/

namespace Fragment

/-- The template that the fragment goes into, a default only if the name has no value. -/
def inside (s : Surroundings) : Fragment → Template
  | .text _ => []
  | .var _ => []
  | .varOr n d => if (s.lookup n).isSome then [] else d
  | .env _ => []
  | .envOr n d => if (s.env n).isSome then [] else d
  | .command line => line
  | .concat parts => parts

/-- What the fragment makes of the text of the template inside it. -/
def finish (s : Surroundings) (inner : String) : Fragment → Except Unresolved String
  | .text content => .ok content
  | .var n => ((s.lookup n).map .ok).getD (.error (.variableUnset n))
  | .varOr n _ => .ok ((s.lookup n).getD inner)
  | .env n => ((s.env n).map .ok).getD (.error (.environmentUnset n))
  | .envOr n _ => .ok ((s.env n).getD inner)
  | .command _ => (s.command inner).resolve inner
  | .concat _ => .ok inner

/-- The template inside the fragment has a text, and the fragment makes this text of it. -/
def Yields (s : Surroundings) (f : Fragment) (text : String) : Prop :=
  ∃ inner, Template.resolve s (f.inside s) = .ok inner ∧ f.finish s inner = .ok text

/-- The template inside the fragment has a text, and it is the fragment that fails. -/
def Fails (s : Surroundings) (f : Fragment) (u : Unresolved) : Prop :=
  ∃ inner, Template.resolve s (f.inside s) = .ok inner ∧ f.finish s inner = .error u

variable {s : Surroundings} {f : Fragment} {text : String} {u : Unresolved}

theorem resolve_eq (s : Surroundings) (f : Fragment) :
    Fragment.resolve s f =
      (Template.resolve s (f.inside s)).bind fun inner => f.finish s inner := by
  cases f with
  | text content => rw [Fragment.resolve, inside, Template.resolve_nil]; rfl
  | var n =>
      rw [Fragment.resolve, inside, Template.resolve_nil]
      cases hn : s.lookup n <;> simp [finish, Except.bind, hn]
  | varOr n d =>
      rw [Fragment.resolve, inside]
      cases hn : s.lookup n with
      | some v => simp [finish, Except.bind, hn]
      | none => cases hd : Template.resolve s d <;> simp [finish, Except.bind, hn, hd]
  | env n =>
      rw [Fragment.resolve, inside, Template.resolve_nil]
      cases hn : s.env n <;> simp [finish, Except.bind, hn]
  | envOr n d =>
      rw [Fragment.resolve, inside]
      cases hn : s.env n with
      | some v => simp [finish, Except.bind, hn]
      | none => cases hd : Template.resolve s d <;> simp [finish, Except.bind, hn, hd]
  | command line =>
      rw [Fragment.resolve, inside]
      cases Template.resolve s line <;> rfl
  | concat parts =>
      rw [Fragment.resolve, inside]
      cases Template.resolve s parts <;> rfl

theorem resolve_eq_ok_iff : Fragment.resolve s f = .ok text ↔ f.Yields s text := by
  rw [resolve_eq, Yields]
  cases Template.resolve s (f.inside s) <;> simp [Except.bind]

theorem resolve_eq_error_iff : Fragment.resolve s f = .error u ↔
    Template.resolve s (f.inside s) = .error u ∨ f.Fails s u := by
  rw [resolve_eq, Fails]
  cases Template.resolve s (f.inside s) <;> simp [Except.bind]

end Fragment

/-! ## The fragments reached -/

mutual

/-- The fragments that are resolved for a fragment, itself last. -/
def Fragment.reached (s : Surroundings) : Fragment → List Fragment
  | .text content => [.text content]
  | .var n => [.var n]
  | .varOr n d => (if (s.lookup n).isSome then [] else Template.reached s d) ++ [.varOr n d]
  | .env n => [.env n]
  | .envOr n d => (if (s.env n).isSome then [] else Template.reached s d) ++ [.envOr n d]
  | .command line => Template.reached s line ++ [.command line]
  | .concat parts => Template.reached s parts ++ [.concat parts]

/-- The fragments that are resolved for a template, in order. -/
def Template.reached (s : Surroundings) : List Fragment → List Fragment
  | [] => []
  | f :: r => Fragment.reached s f ++ Template.reached s r

end

theorem Fragment.reached_eq (s : Surroundings) (f : Fragment) :
    f.reached s = Template.reached s (f.inside s) ++ [f] := by
  cases f with
  | text | var | env => simp [Fragment.reached, inside, Template.reached]
  | varOr | envOr =>
      rw [Fragment.reached, inside]
      split <;> simp [Template.reached]
  | command | concat => rw [Fragment.reached, inside]

mutual

/-- What holds of the empty template, and of every other one if it holds of what is inside its
first fragment and of the rest, holds of what is inside a fragment. -/
theorem Fragment.inside_induction {s : Surroundings} {P : Template → Prop} (nil : P [])
    (cons : ∀ f r, P (f.inside s) → P r → P (f :: r)) : ∀ f : Fragment, P (f.inside s)
  | .text _ => nil
  | .var _ => nil
  | .varOr n d => by
      rw [Fragment.inside]
      split
      · exact nil
      · exact Template.inside_induction nil cons d
  | .env _ => nil
  | .envOr n d => by
      rw [Fragment.inside]
      split
      · exact nil
      · exact Template.inside_induction nil cons d
  | .command line => Template.inside_induction nil cons line
  | .concat parts => Template.inside_induction nil cons parts

/-- So it does of every template. -/
theorem Template.inside_induction {s : Surroundings} {P : Template → Prop} (nil : P [])
    (cons : ∀ f r, P (f.inside s) → P r → P (f :: r)) : ∀ t : List Fragment, P t
  | [] => nil
  | f :: r => cons f r (Fragment.inside_induction nil cons f) (Template.inside_induction nil cons r)

end

namespace Template

variable {s : Surroundings} {t : Template} {text : String} {u : Unresolved}

theorem reached_cons (s : Surroundings) (f : Fragment) (r : Template) :
    reached s (f :: r) = reached s (f.inside s) ++ f :: reached s r := by
  rw [reached, Fragment.reached_eq, List.append_assoc, List.singleton_append]

theorem resolve_cons_eq_ok_iff {f : Fragment} {r : Template} :
    Template.resolve s (f :: r) = .ok text ↔
      ∃ a b, f.Yields s a ∧ Template.resolve s r = .ok b ∧ text = a ++ b := by
  simp only [← Fragment.resolve_eq_ok_iff]
  rw [resolve_cons]
  cases Fragment.resolve s f with
  | error e => simp [Except.bind]
  | ok a => cases Template.resolve s r <;> simp [Except.bind, Except.map, eq_comm]

theorem resolve_cons_eq_error_iff {f : Fragment} {r : Template} :
    Template.resolve s (f :: r) = .error u ↔
      Template.resolve s (f.inside s) = .error u ∨ f.Fails s u ∨
        (∃ a, f.Yields s a) ∧ Template.resolve s r = .error u := by
  simp only [← Fragment.resolve_eq_ok_iff]
  rw [← or_assoc, ← Fragment.resolve_eq_error_iff, resolve_cons]
  cases Fragment.resolve s f with
  | error e => simp [Except.bind]
  | ok a => cases Template.resolve s r <;> simp [Except.bind, Except.map]

/-- **A template has a text exactly if every fragment reached yields one.** -/
theorem exists_resolve_iff :
    (∃ text, Template.resolve s t = .ok text) ↔ ∀ f ∈ reached s t, ∃ text, f.Yields s text := by
  induction t using inside_induction (s := s) with
  | nil => simp [reached]
  | cons f r ihf ihr =>
      rw [reached_cons, List.forall_mem_append, List.forall_mem_cons, ← ihf, ← ihr]
      constructor
      · rintro ⟨text, htext⟩
        obtain ⟨a, b, ⟨inner, hinner, ha⟩, hb, -⟩ := resolve_cons_eq_ok_iff.mp htext
        exact ⟨⟨inner, hinner⟩, ⟨a, inner, hinner, ha⟩, b, hb⟩
      · rintro ⟨-, ⟨a, ha⟩, b, hb⟩
        exact ⟨a ++ b, resolve_cons_eq_ok_iff.mpr ⟨a, b, ha, hb, rfl⟩⟩

/-- **The text is that of the fragments, joined.** -/
theorem resolve_eq_ok_iff : Template.resolve s t = .ok text ↔
    ∃ texts, List.Forall₂ (Fragment.Yields s) t texts ∧ text = String.join texts := by
  induction t generalizing text with
  | nil => simp [eq_comm]
  | cons f r ih =>
      rw [resolve_cons_eq_ok_iff]
      constructor
      · rintro ⟨a, b, ha, hb, rfl⟩
        obtain ⟨texts, htexts, rfl⟩ := ih.mp hb
        exact ⟨a :: texts, .cons ha htexts, String.join_cons.symm⟩
      · rintro ⟨texts, htexts, rfl⟩
        obtain ⟨a, rest, ha, hrest, rfl⟩ := List.forall₂_cons_left_iff.mp htexts
        exact ⟨a, String.join rest, ha, ih.mpr ⟨rest, hrest, rfl⟩, String.join_cons⟩

/-- **The error is that of the leftmost fragment reached that yields no text.** -/
theorem resolve_eq_error_iff : Template.resolve s t = .error u ↔
    Leftmost (fun f => ∃ text, f.Yields s text) (fun f => f.Fails s u) (reached s t) := by
  induction t using inside_induction (s := s) with
  | nil => simp [reached, Leftmost.not_nil]
  | cons f r ihf ihr =>
      rw [resolve_cons_eq_error_iff, reached_cons, Leftmost.append_iff, Leftmost.cons_iff, ← ihf,
        ← ihr, ← exists_resolve_iff]
      -- A fragment that yields a text or fails by itself has got a text from what is inside it.
      constructor
      · rintro (hinner | ⟨inner, hinner, hf⟩ | ⟨⟨a, inner, hinner, ha⟩, hr⟩)
        · exact .inl hinner
        · exact .inr ⟨⟨inner, hinner⟩, .inl ⟨inner, hinner, hf⟩⟩
        · exact .inr ⟨⟨inner, hinner⟩, .inr ⟨⟨a, inner, hinner, ha⟩, hr⟩⟩
      · rintro (hinner | ⟨-, hf | hr⟩)
        · exact .inl hinner
        · exact .inr (.inl hf)
        · exact .inr (.inr hr)

/-- Of several templates the first that has no text decides the error. -/
theorem resolveAll_eq_error_iff {ts : List Template} : resolveAll s ts = .error u ↔
    Leftmost (fun t => ∃ text, Template.resolve s t = .ok text)
      (fun t => Template.resolve s t = .error u) ts := by
  induction ts with
  | nil => simp [resolveAll, Leftmost.not_nil]
  | cons t ts ih =>
      rw [Leftmost.cons_iff, ← ih, resolveAll]
      cases Template.resolve s t with
      | error e => simp
      | ok a => cases resolveAll s ts <;> simp

end Template

end Conductor
