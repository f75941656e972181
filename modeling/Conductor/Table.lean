/-!
# Ordered tables

A `Table κ α` maps keys to values and keeps its entries in strictly increasing
key order. The order is part of the type, so two tables that answer every
look-up alike are equal (`Table.ext_get?`), and printing a table needs no sorting.
-/

namespace Conductor

/-- A finite map whose entries stand in strictly increasing key order. -/
structure Table (κ α : Type) [LT κ] where
  /-- The entries, in key order. -/
  entries : List (κ × α)
  /-- Keys increase strictly. -/
  ordered : entries.Pairwise (fun a b => a.1 < b.1)

namespace Table

set_option linter.unusedSectionVars false

variable {κ α : Type} [LE κ] [LT κ] [DecidableEq κ] [DecidableLT κ]

/-- The table without entries. -/
def empty : Table κ α := ⟨[], .nil⟩

instance : Inhabited (Table κ α) := ⟨empty⟩
instance : EmptyCollection (Table κ α) := ⟨empty⟩

instance [DecidableEq α] : DecidableEq (Table κ α) := fun a b =>
  if h : a.entries = b.entries then
    .isTrue (by cases a; cases b; cases h; rfl)
  else .isFalse fun e => h (by rw [e])

/-- The value that the first entry with this key holds. -/
def find (k : κ) : List (κ × α) → Option α
  | [] => none
  | (k', v) :: r => if k = k' then some v else find k r

/-- The value under a key. -/
def get? (t : Table κ α) (k : κ) : Option α :=
  find k t.entries

/-- Whether the key has a value. -/
def contains (t : Table κ α) (k : κ) : Bool :=
  (t.get? k).isSome

/-- The keys, in order. -/
def keys (t : Table κ α) : List κ :=
  t.entries.map (·.1)

/-- The values, in key order. -/
def values (t : Table κ α) : List α :=
  t.entries.map (·.2)

/-- Number of entries. -/
def size (t : Table κ α) : Nat :=
  t.entries.length

/-- Whether the table has no entry. -/
def isEmpty (t : Table κ α) : Bool :=
  t.entries.isEmpty

/-- Put an entry at its place, in front of the first larger key. -/
def insertEntry (k : κ) (v : α) : List (κ × α) → List (κ × α)
  | [] => [(k, v)]
  | (k', v') :: r =>
      if k < k' then (k, v) :: (k', v') :: r
      else if k = k' then (k, v) :: r
      else (k', v') :: insertEntry k v r

theorem mem_insertEntry {k : κ} {v : α} {es : List (κ × α)} {e : κ × α}
    (h : e ∈ insertEntry k v es) : e = (k, v) ∨ e ∈ es := by
  induction es with
  | nil => simpa [insertEntry] using h
  | cons e' r ih =>
      obtain ⟨k', v'⟩ := e'
      simp only [insertEntry] at h
      split at h
      · simpa using h
      · split at h
        · grind
        · rcases List.mem_cons.1 h with h | h
          · exact .inr (by simp [h])
          · rcases ih h with h | h
            · exact .inl h
            · exact .inr (by simp [h])

theorem ordered_insertEntry [Std.IsLinearOrder κ] [Std.LawfulOrderLT κ] (k : κ) (v : α)
    {es : List (κ × α)} (h : es.Pairwise (fun a b => a.1 < b.1)) :
    (insertEntry k v es).Pairwise (fun a b => a.1 < b.1) := by
  induction es with
  | nil => simp [insertEntry]
  | cons e r ih =>
      obtain ⟨k', v'⟩ := e
      rw [List.pairwise_cons] at h
      simp only [insertEntry]
      split
      · rename_i hk
        refine List.pairwise_cons.2 ⟨?_, List.pairwise_cons.2 h⟩
        intro e he
        rcases List.mem_cons.1 he with rfl | he
        · exact hk
        · have := h.1 e he
          grind
      · split
        · rename_i hk
          subst hk
          exact List.pairwise_cons.2 h
        · refine List.pairwise_cons.2 ⟨?_, ih h.2⟩
          intro e he
          rcases mem_insertEntry he with rfl | he
          · grind
          · exact h.1 e he

section Ordered

variable [Std.IsLinearOrder κ] [Std.LawfulOrderLT κ]

/-- The table with `k` bound to `v`. -/
def insert (t : Table κ α) (k : κ) (v : α) : Table κ α :=
  ⟨insertEntry k v t.entries, ordered_insertEntry k v t.ordered⟩

/-- The table without the entries that fail the test. -/
def filter (t : Table κ α) (p : κ → α → Bool) : Table κ α :=
  ⟨t.entries.filter fun e => p e.1 e.2, t.ordered.filter _⟩

/-- The table without `k`. -/
def erase (t : Table κ α) (k : κ) : Table κ α :=
  t.filter fun k' _ => k' ≠ k

/-- The table of a list of pairs; a later pair replaces an earlier one. -/
def ofList (es : List (κ × α)) : Table κ α :=
  es.foldl (fun t e => t.insert e.1 e.2) empty

/-- The first table with the entries of the second on top. -/
def overlay (t u : Table κ α) : Table κ α :=
  u.entries.foldl (fun t e => t.insert e.1 e.2) t

@[simp] theorem get?_empty (k : κ) : (empty : Table κ α).get? k = none := rfl

theorem get?_of_isEmpty {t : Table κ α} (h : t.isEmpty = true) (k : κ) : t.get? k = none := by
  have hnil : t.entries = [] := List.isEmpty_iff.mp h
  unfold get?
  rw [hnil]
  rfl

theorem find_insertEntry (k k' : κ) (v : α) (es : List (κ × α)) :
    find k' (insertEntry k v es) = if k' = k then some v else find k' es := by
  induction es with
  | nil => simp [insertEntry, find]
  | cons e r ih =>
      obtain ⟨k₁, v₁⟩ := e
      simp only [insertEntry]
      split
      · simp [find]
      · split
        · rename_i h
          subst h
          by_cases h' : k' = k <;> simp [find, h']
        · by_cases h' : k' = k₁
          · subst h'
            grind [find]
          · simp [find, h', ih]

/-- Looking a key up after an insertion. -/
@[simp, grind =] theorem get?_insert (t : Table κ α) (k k' : κ) (v : α) :
    (t.insert k v).get? k' = if k' = k then some v else t.get? k' :=
  find_insertEntry k k' v t.entries

theorem find_filter_ne (k k' : κ) (es : List (κ × α)) :
    find k' (es.filter fun e => e.1 ≠ k) = if k' = k then none else find k' es := by
  induction es with
  | nil => simp [find]
  | cons e r ih =>
      obtain ⟨k₁, v₁⟩ := e
      by_cases h : k₁ = k
      · subst h
        by_cases h' : k' = k₁
        · simp_all
        · simp_all [find]
      · by_cases h' : k' = k₁
        · subst h'
          simp [find, h]
        · simp_all [find]

/-- Looking a key up after an erasure. -/
@[simp, grind =] theorem get?_erase (t : Table κ α) (k k' : κ) :
    (t.erase k).get? k' = if k' = k then none else t.get? k' :=
  find_filter_ne k k' t.entries

/-- What the table without a key holds, it held before. -/
theorem get?_of_get?_erase {t : Table κ α} {k k' : κ} {v : α}
    (h : (t.erase k).get? k' = some v) : t.get? k' = some v := by
  rw [get?_erase] at h
  split at h
  · cases h
  · exact h

theorem find_eq_some_iff {k : κ} {v : α} {es : List (κ × α)}
    (h : es.Pairwise (fun a b => a.1 < b.1)) :
    find k es = some v ↔ (k, v) ∈ es := by
  induction es with
  | nil => simp [find]
  | cons e r ih =>
      obtain ⟨k₁, v₁⟩ := e
      rw [List.pairwise_cons] at h
      simp only [find]
      split
      · rename_i hk
        subst hk
        constructor
        · rintro h'
          cases h'
          simp
        · intro h'
          rcases List.mem_cons.1 h' with h' | h'
          · cases h'; rfl
          · have := h.1 _ h'
            grind
      · rename_i hk
        rw [ih h.2]
        grind

/-- A key has a value exactly when the pair is an entry. -/
theorem get?_eq_some_iff {t : Table κ α} {k : κ} {v : α} :
    t.get? k = some v ↔ (k, v) ∈ t.entries :=
  find_eq_some_iff t.ordered

/-- A table holds the values that its keys have. -/
theorem mem_values_iff {t : Table κ α} {v : α} : v ∈ t.values ↔ ∃ k, t.get? k = some v := by
  simp only [values, List.mem_map, get?_eq_some_iff, Prod.exists]
  constructor
  · rintro ⟨k, v', h, rfl⟩
    exact ⟨k, h⟩
  · rintro ⟨k, h⟩
    exact ⟨k, v, h, rfl⟩

theorem mem_keys_iff {t : Table κ α} {k : κ} : k ∈ t.keys ↔ ∃ v, t.get? k = some v := by
  simp only [keys, List.mem_map, get?_eq_some_iff, Prod.exists]
  constructor
  · rintro ⟨k', v, h, rfl⟩
    exact ⟨v, h⟩
  · rintro ⟨v, h⟩
    exact ⟨k, v, h, rfl⟩

/-- Looking a key up after a selection. -/
theorem get?_filter_eq_some_iff {t : Table κ α} {f : κ → α → Bool} {k : κ} {v : α} :
    (t.filter f).get? k = some v ↔ t.get? k = some v ∧ f k v = true := by
  rw [get?_eq_some_iff, get?_eq_some_iff, filter, List.mem_filter]

theorem find_eq_none_of_lt {k : κ} {es : List (κ × α)} (h : ∀ e ∈ es, k < e.1) :
    find k es = none := by
  induction es with
  | nil => rfl
  | cons e r ih =>
      obtain ⟨k', v'⟩ := e
      have hk := h (k', v') (by simp)
      have hr := ih fun e he => h e (by simp [he])
      simp only [find, hr]
      split
      · grind
      · rfl

theorem find_foldl_insert {k : κ} {es : List (κ × α)}
    (h : es.Pairwise (fun a b => a.1 < b.1)) (t : Table κ α) :
    (es.foldl (fun t e => t.insert e.1 e.2) t).get? k = (find k es).or (t.get? k) := by
  induction es generalizing t with
  | nil => simp [find]
  | cons e r ih =>
      obtain ⟨k', v'⟩ := e
      rw [List.pairwise_cons] at h
      simp only [List.foldl_cons, ih h.2, get?_insert, find]
      split
      · rename_i hk
        subst hk
        simp [find_eq_none_of_lt h.1]
      · rfl

/-- Looking a key up in a table with another one on top. -/
@[simp, grind =] theorem get?_overlay (t u : Table κ α) (k : κ) :
    (t.overlay u).get? k = (u.get? k).or (t.get? k) :=
  find_foldl_insert u.ordered t

theorem entries_eq_of_mem_iff {es fs : List (κ × α)}
    (he : es.Pairwise (fun a b => a.1 < b.1)) (hf : fs.Pairwise (fun a b => a.1 < b.1))
    (h : ∀ e, e ∈ es ↔ e ∈ fs) : es = fs := by
  induction es generalizing fs with
  | nil =>
      cases fs with
      | nil => rfl
      | cons f fs => exact absurd ((h f).2 (by simp)) (by simp)
  | cons e es ih =>
      cases fs with
      | nil => exact absurd ((h e).1 (by simp)) (by simp)
      | cons f fs =>
          rw [List.pairwise_cons] at he hf
          have hef : e = f := by
            have h₁ := (h e).1 (by simp)
            have h₂ := (h f).2 (by simp)
            rcases List.mem_cons.1 h₁ with h₁ | h₁
            · exact h₁
            · rcases List.mem_cons.1 h₂ with h₂ | h₂
              · exact h₂.symm
              · have := hf.1 e h₁
                have := he.1 f h₂
                grind
          subst hef
          refine congrArg (e :: ·) (ih he.2 hf.2 fun x => ?_)
          have hx := h x
          constructor
          · intro hm
            rcases List.mem_cons.1 (hx.1 (by simp [hm])) with rfl | h'
            · have := he.1 x hm
              grind
            · exact h'
          · intro hm
            rcases List.mem_cons.1 (hx.2 (by simp [hm])) with rfl | h'
            · have := hf.1 x hm
              grind
            · exact h'

/-- Tables that answer every look-up alike are equal. -/
theorem ext_get? {t u : Table κ α} (h : ∀ k, t.get? k = u.get? k) : t = u := by
  have hm : ∀ e, e ∈ t.entries ↔ e ∈ u.entries := by
    intro e
    have := h e.1
    rw [← get?_eq_some_iff, ← get?_eq_some_iff, this]
  have := entries_eq_of_mem_iff t.ordered u.ordered hm
  cases t
  cases u
  simp_all

end Ordered

end Table

end Conductor
