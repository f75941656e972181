import Mathlib.Data.List.Forall2
import Conductor.Proofs.LaunchArguments

/-!
# Arguments given more than once

A written argument is cut at the first `:=` in it or, if it has none, at the first `=`; what is
before the cut, trimmed, is the name (`Gives`). An argument that cannot be cut, or has no name left,
is malformed, and the first of these is the error. Otherwise reading leaves of each name the pair
given last, in the order in which these last ones were given (`lasts`, `pass_foldl`); and as no name
read holds a `:=`, what was read can be written in the longer form and read again.
-/

namespace Conductor

namespace Text

/-- The text is cut at the first place where the separator stands. -/
structure FirstCut (sep text before after : String) : Prop where
  joined : text = before ++ sep ++ after
  first : ∀ b a, text = b ++ sep ++ a → before.length ≤ b.length

theorem length_le_of_splitFirst {sep cs a b p q : List Char} (h : splitFirst sep cs = some (a, b))
    (hcs : cs = p ++ sep ++ q) : a.length ≤ p.length := by
  induction cs generalizing a p with
  | nil =>
      rw [splitFirst] at h
      split at h
      · cases h
        exact Nat.zero_le _
      · cases h
  | cons c cs ih =>
      rw [splitFirst] at h
      split at h
      · cases h
        exact Nat.zero_le _
      · rename_i hnot
        obtain ⟨⟨a', b'⟩, hcut, hpair⟩ := Option.map_eq_some_iff.mp h
        cases hpair
        cases p with
        | nil =>
            refine absurd ?_ hnot
            rw [List.isPrefixOf_iff_prefix]
            exact ⟨q, hcs.symm⟩
        | cons d p =>
            injection hcs with _ hcs
            exact Nat.succ_le_succ (ih hcut hcs)

/-- A text in which the separator stands is cut. -/
theorem exists_splitFirst (sep p q : List Char) :
    ∃ a b, splitFirst sep (p ++ sep ++ q) = some (a, b) := by
  have hsome : (splitFirst sep (p ++ sep ++ q)).isSome = true := by
    induction p with
    | nil =>
        cases sep with
        | nil => cases q <;> rfl
        | cons d sep =>
            show (splitFirst (d :: sep) (d :: (sep ++ q))).isSome = true
            rw [splitFirst_self_append]
            rfl
    | cons c p ih =>
        rw [List.cons_append, List.cons_append, splitFirst]
        split
        · rfl
        · rw [Option.isSome_map]
          exact ih
  obtain ⟨⟨a, b⟩, hcut⟩ := Option.isSome_iff_exists.mp hsome
  exact ⟨a, b, hcut⟩

theorem FirstCut.of_splitOnce {sep text before after : String}
    (h : splitOnce sep text = some (before, after)) : FirstCut sep text before after := by
  obtain ⟨⟨cs, ds⟩, hcut, hpair⟩ := Option.map_eq_some_iff.mp h
  obtain ⟨rfl, rfl⟩ := Prod.mk.inj hpair
  constructor
  · rw [← String.toList_inj]
    simpa using append_of_splitFirst hcut
  · rintro b a rfl
    have hle := length_le_of_splitFirst (p := b.toList) (q := a.toList) hcut (by simp)
    rw [String.length_toList] at hle
    simpa using hle

/-- Searching finds the first place. -/
theorem splitOnce_eq_some_iff {sep text before after : String} :
    splitOnce sep text = some (before, after) ↔ FirstCut sep text before after := by
  refine ⟨.of_splitOnce, fun h => ?_⟩
  obtain ⟨a, b, hcut⟩ := exists_splitFirst sep.toList before.toList after.toList
  have hfound : splitOnce sep text = some (String.ofList a, String.ofList b) := by
    rw [splitOnce, h.joined, String.toList_append, String.toList_append, hcut]
    rfl
  have hfirst := FirstCut.of_splitOnce hfound
  have hlength : (String.ofList a).length = before.length :=
    Nat.le_antisymm (hfirst.first _ _ h.joined) (h.first _ _ hfirst.joined)
  have hsame : before.toList ++ (sep.toList ++ after.toList) = a ++ (sep.toList ++ b) := by
    simpa using congrArg String.toList (h.joined.symm.trans hfirst.joined)
  rw [String.length_ofList, ← String.length_toList] at hlength
  obtain ⟨hbefore, hrest⟩ := List.append_inj hsame hlength.symm
  rw [hfound, ← hbefore, ← List.append_cancel_left hrest, String.ofList_toList,
    String.ofList_toList]

theorem splitOnce_eq_none_iff {sep text : String} :
    splitOnce sep text = none ↔ ∀ b a, text ≠ b ++ sep ++ a := by
  constructor
  · rintro h b a rfl
    obtain ⟨cs, ds, hcut⟩ := exists_splitFirst sep.toList b.toList a.toList
    rw [splitOnce, String.toList_append, String.toList_append, hcut] at h
    cases h
  · intro h
    cases hcut : splitOnce sep text with
    | none => rfl
    | some p => exact absurd (FirstCut.of_splitOnce hcut).joined (h _ _)

/-- What stands before the first place of a separator does not hold it. -/
theorem FirstCut.not_mem {sep text before after : String} (hsep : sep ≠ "")
    (h : FirstCut sep text before after) (b a : String) : before ≠ b ++ sep ++ a := by
  rintro rfl
  have hle := h.first b (a ++ sep ++ after) (by rw [h.joined]; simp only [String.append_assoc])
  have hpos : 0 < sep.length := Nat.pos_of_ne_zero fun hzero => hsep (by simpa using hzero)
  simp only [String.length_append] at hle
  omega

/-! ## Trimming -/

/-- Nothing is lost behind: the text is what stays followed by a blank run. -/
theorem dropRight_append (cs : List Char) :
    dropRight cs ++ (cs.reverse.takeWhile isBlank).reverse = cs := by
  have h := congrArg List.reverse (takeWhile_append_dropLeft cs.reverse)
  rwa [List.reverse_append, List.reverse_reverse] at h

theorem exists_trim (s : String) : ∃ a b, s = a ++ trim s ++ b := by
  refine ⟨String.ofList (s.toList.takeWhile isBlank),
    String.ofList ((dropLeft s.toList).reverse.takeWhile isBlank).reverse, ?_⟩
  rw [← String.toList_inj]
  simp only [String.toList_append, String.toList_ofList, toList_trim, List.append_assoc]
  rw [dropRight_append, takeWhile_append_dropLeft]

theorem head?_dropLeft (cs : List Char) : ∀ c ∈ (dropLeft cs).head?, isBlank c = false := by
  intro c hc
  have hnot := List.head?_dropWhile_not isBlank cs
  rw [dropLeft] at hc
  rw [Option.mem_def.mp hc] at hnot
  simpa using hnot

/-- Trimming twice is trimming once. -/
theorem trim_trim (s : String) : trim (trim s) = trim s := by
  have hlast : ∀ c ∈ (dropRight (dropLeft s.toList)).getLast?, isBlank c = false := by
    intro c hc
    rw [dropRight, List.getLast?_reverse] at hc
    exact head?_dropLeft _ c hc
  have hhead : ∀ c ∈ (dropRight (dropLeft s.toList)).head?, isBlank c = false := by
    intro c hc
    refine head?_dropLeft s.toList c ?_
    rw [← dropRight_append (dropLeft s.toList), List.head?_append, Option.mem_def.mp hc]
    rfl
  rw [trim, toList_trim, dropLeft_eq_self hhead, dropRight_eq_self hlast]
  rfl

end Text

namespace LaunchArguments

/-! ## What one argument gives -/

/-- The text is cut at the first `:=` or, if it has none, at the first `=`. -/
def Cut (text before after : String) : Prop :=
  Text.FirstCut ":=" text before after ∨
    (∀ b a, text ≠ b ++ ":=" ++ a) ∧ Text.FirstCut "=" text before after

/-- The argument gives this value to this name. -/
def Gives (text : String) (pair : String × String) : Prop :=
  ∃ before, Cut text before pair.2 ∧ pair.1 = Text.trim before ∧ pair.1 ≠ ""

/-- The argument cannot be cut, or the cut leaves no name. -/
def IsMalformed (text : String) : Prop :=
  '=' ∉ text.toList ∨ ∃ before after, Cut text before after ∧ Text.trim before = ""

variable {text before after : String} {pair : String × String}

theorem or_splitOnce_eq_some_iff :
    (Text.splitOnce ":=" text).or (Text.splitOnce "=" text) = some (before, after) ↔
      Cut text before after := by
  rw [Option.or_eq_some_iff, Text.splitOnce_eq_some_iff, Text.splitOnce_eq_some_iff,
    Text.splitOnce_eq_none_iff]
  rfl

/-- Only a text without the shorter separator cannot be cut. -/
theorem or_splitOnce_eq_none_iff :
    (Text.splitOnce ":=" text).or (Text.splitOnce "=" text) = none ↔ '=' ∉ text.toList := by
  rw [Option.or_eq_none_iff, Text.splitOnce_eq_none_iff, Text.splitOnce_eq_none_iff]
  constructor
  · rintro ⟨-, hshort⟩ hmem
    obtain ⟨cs, ds, hcs⟩ := List.append_of_mem hmem
    refine hshort (String.ofList cs) (String.ofList ds) ?_
    rw [← String.toList_inj]
    simpa using hcs
  · intro hmem
    constructor <;> rintro b a rfl <;> exact hmem (by simp)

theorem split?_of_cut (h : (Text.splitOnce ":=" text).or (Text.splitOnce "=" text) =
    some (before, after)) :
    split? text = if Text.trim before = "" then none else some (Text.trim before, after) := by
  unfold split?
  rw [h]
  by_cases hempty : Text.trim before = "" <;> simp [hempty]

theorem split?_eq_some_iff : split? text = some pair ↔ Gives text pair := by
  cases h : (Text.splitOnce ":=" text).or (Text.splitOnce "=" text) with
  | none => simp [split?, Gives, ← or_splitOnce_eq_some_iff, h]
  | some p =>
      obtain ⟨before, after⟩ := p
      obtain ⟨name, value⟩ := pair
      rw [split?_of_cut h]
      unfold Gives
      simp only [← or_splitOnce_eq_some_iff, h, Option.some.injEq, Prod.mk.injEq,
        Option.ite_none_left_eq_some]
      constructor
      · rintro ⟨hne, rfl, rfl⟩
        exact ⟨before, ⟨rfl, rfl⟩, rfl, hne⟩
      · rintro ⟨_, ⟨rfl, rfl⟩, rfl, hne⟩
        exact ⟨hne, rfl, rfl⟩

theorem split?_eq_none_iff : split? text = none ↔ IsMalformed text := by
  unfold IsMalformed
  rw [← or_splitOnce_eq_none_iff]
  cases h : (Text.splitOnce ":=" text).or (Text.splitOnce "=" text) with
  | none => simp [split?, h]
  | some p =>
      obtain ⟨before, after⟩ := p
      rw [split?_of_cut h]
      simp [← or_splitOnce_eq_some_iff, h]

/-- A name that is read is trimmed and holds no `:=`. -/
theorem Gives.name (h : Gives text pair) :
    pair.1 ≠ "" ∧ Text.trim pair.1 = pair.1 ∧ ∀ b a, pair.1 ≠ b ++ ":=" ++ a := by
  obtain ⟨before, hcut, hname, hne⟩ := h
  have hbefore : ∀ b a, before ≠ b ++ ":=" ++ a := by
    rcases hcut with hlong | ⟨hnone, hshort⟩
    · exact hlong.not_mem (by decide)
    · rintro b a rfl
      exact hnone b (a ++ "=" ++ pair.2) (by rw [hshort.joined]; simp only [String.append_assoc])
  refine ⟨hne, by rw [hname, Text.trim_trim], fun b a hba => ?_⟩
  obtain ⟨p, q, hpq⟩ := Text.exists_trim before
  rw [← hname, hba] at hpq
  exact hbefore (p ++ b) (a ++ q) (by rw [hpq]; simp only [String.append_assoc])

/-- A pair in the longer form. -/
def written (pair : String × String) : String :=
  pair.1 ++ ":=" ++ pair.2

/-- A text that does not hold `:=` is what comes before the first one that is put behind it. -/
theorem firstCut_append {name : String} (h : ∀ b a, name ≠ b ++ ":=" ++ a) (value : String) :
    Text.FirstCut ":=" (name ++ ":=" ++ value) name value := by
  refine ⟨rfl, fun b a hba => ?_⟩
  have hlist : name.toList ++ (':' :: '=' :: value.toList) = b.toList ++ (':' :: '=' :: a.toList) := by
    simpa using congrArg String.toList hba
  rcases List.append_eq_append_iff.mp hlist with ⟨c, hb, -⟩ | ⟨c, hname, hrest⟩
  · rw [← String.length_toList, ← String.length_toList, hb, List.length_append]
    exact Nat.le_add_right _ _
  · -- what stands behind `b` in the name would begin with the separator, or with its colon only
    match c with
    | [] =>
        have heq : name = b := by simpa [String.toList_inj] using hname
        exact Nat.le_of_eq (congrArg String.length heq)
    | [_] => simp at hrest
    | _ :: _ :: c =>
        simp only [List.cons_append, List.cons.injEq] at hrest
        obtain ⟨rfl, rfl, -⟩ := hrest
        refine absurd ?_ (h b (String.ofList c))
        rw [← String.toList_inj]
        simpa using hname

/-- A pair that was read is given by its longer form, too. -/
theorem Gives.written (h : Gives text pair) : Gives (written pair) pair := by
  obtain ⟨hne, htrim, hnone⟩ := h.name
  exact ⟨pair.1, .inl (firstCut_append hnone pair.2), htrim.symm, hne⟩

/-! ## The last pair of each name -/

/-- Of each name the pair given last. -/
def lasts : List (String × String) → LaunchArguments
  | [] => []
  | a :: later => if a.1 ∈ later.map (·.1) then lasts later else a :: lasts later

/-- The pair stands before `later` and is the last one of its name. -/
def LastBefore (pairs : List (String × String)) (a : String × String)
    (later : List (String × String)) : Prop :=
  (∃ earlier, pairs = earlier ++ a :: later) ∧ a.1 ∉ later.map (·.1)

variable {a b : String × String} {pairs later : List (String × String)}

theorem LastBefore.cons (h : LastBefore pairs a later) (b : String × String) :
    LastBefore (b :: pairs) a later := by
  obtain ⟨⟨earlier, rfl⟩, hlast⟩ := h
  exact ⟨⟨b :: earlier, rfl⟩, hlast⟩

theorem lastBefore_self (h : a.1 ∉ later.map (·.1)) : LastBefore (a :: later) a later :=
  ⟨⟨[], rfl⟩, h⟩

theorem lasts_sublist (pairs : List (String × String)) : (lasts pairs).Sublist pairs := by
  induction pairs with
  | nil => exact .slnil
  | cons a later ih =>
      rw [lasts]
      split
      · exact ih.cons a
      · exact ih.cons_cons a

/-- No name is lost, and none is added. -/
theorem mem_names_lasts {n : String} :
    n ∈ (lasts pairs).map (·.1) ↔ n ∈ pairs.map (·.1) := by
  induction pairs with
  | nil => rfl
  | cons a later ih =>
      rw [lasts]
      split
      · rename_i hmem
        rw [ih, List.map_cons, List.mem_cons]
        constructor
        · exact .inr
        · rintro (rfl | hlater)
          · exact hmem
          · exact hlater
      · rw [List.map_cons, List.map_cons, List.mem_cons, List.mem_cons, ih]

theorem nodup_names_lasts (pairs : List (String × String)) : ((lasts pairs).map (·.1)).Nodup := by
  induction pairs with
  | nil => exact .nil
  | cons a later ih =>
      rw [lasts]
      split
      · exact ih
      · rename_i hnot
        exact List.nodup_cons.mpr ⟨fun hmem => hnot (mem_names_lasts.mp hmem), ih⟩

theorem exists_lastBefore (h : a ∈ lasts pairs) : ∃ later, LastBefore pairs a later := by
  induction pairs with
  | nil => cases h
  | cons b later ih =>
      rw [lasts] at h
      split at h
      · obtain ⟨rest, hrest⟩ := ih h
        exact ⟨rest, hrest.cons b⟩
      · rename_i hnot
        rcases List.mem_cons.mp h with rfl | h
        · exact ⟨later, lastBefore_self hnot⟩
        · obtain ⟨rest, hrest⟩ := ih h
          exact ⟨rest, hrest.cons b⟩

/-- The pairs stand in the order in which they were given last. -/
theorem pairwise_lasts (pairs : List (String × String)) : (lasts pairs).Pairwise fun a b =>
    ∃ rest later, LastBefore pairs a rest ∧ LastBefore rest b later := by
  induction pairs with
  | nil => exact .nil
  | cons a later ih =>
      have hlater : (lasts later).Pairwise fun b c =>
          ∃ rest tail, LastBefore (a :: later) b rest ∧ LastBefore rest c tail :=
        ih.imp fun ⟨rest, tail, hb, hc⟩ => ⟨rest, tail, hb.cons a, hc⟩
      rw [lasts]
      split
      · exact hlater
      · rename_i hnot
        refine List.pairwise_cons.mpr ⟨fun b hb => ?_, hlater⟩
        obtain ⟨tail, htail⟩ := exists_lastBefore hb
        exact ⟨later, tail, lastBefore_self hnot, htail⟩

theorem lasts_of_nodup (h : (pairs.map (·.1)).Nodup) : lasts pairs = pairs := by
  induction pairs with
  | nil => rfl
  | cons a later ih =>
      obtain ⟨hnot, hnodup⟩ := List.nodup_cons.mp h
      rw [lasts, if_neg hnot, ih hnodup]

/-- Passing pairs one after the other leaves the last of each name, behind what no later pair
replaced. -/
theorem foldl_pass (args : LaunchArguments) (pairs : List (String × String)) :
    pairs.foldl (fun args a => args.pass a.1 a.2) args =
      args.filter (fun a => a.1 ∉ pairs.map (·.1)) ++ lasts pairs := by
  induction pairs generalizing args with
  | nil => simp [lasts]
  | cons a later ih =>
      rw [List.foldl_cons, ih, pass, List.filter_append, List.filter_filter, lasts,
        List.append_assoc]
      congr 1
      · apply List.filter_congr
        intro b _
        rw [List.map_cons, Bool.eq_iff_iff]
        simp [not_or, and_comm]
      · by_cases hmem : a.1 ∈ later.map (·.1) <;> simp [hmem]

/-! ## Reading -/

theorem readAfter_of_gives {texts : List String} (h : List.Forall₂ Gives texts pairs)
    (args : LaunchArguments) :
    readAfter args texts = .ok (pairs.foldl (fun args a => args.pass a.1 a.2) args) := by
  induction h generalizing args with
  | nil => rfl
  | cons hgives _ ih =>
      rw [readAfter, split?_eq_some_iff.mpr hgives]
      exact ih _

theorem read_of_gives {texts : List String} (h : List.Forall₂ Gives texts pairs) :
    read texts = .ok (lasts pairs) := by
  rw [read, readAfter_of_gives h, foldl_pass]
  rfl

/-- The first malformed argument ends the reading, and it is the error. -/
theorem readAfter_of_malformed {earlier later : List String}
    (hearlier : ∀ t ∈ earlier, ¬ IsMalformed t) (h : IsMalformed text) (args : LaunchArguments) :
    readAfter args (earlier ++ text :: later) = .error (.malformedArgument text) := by
  induction earlier generalizing args with
  | nil => rw [List.nil_append, readAfter, split?_eq_none_iff.mpr h]
  | cons t earlier ih =>
      obtain ⟨ht, hearlier⟩ := List.forall_mem_cons.mp hearlier
      rw [List.cons_append, readAfter]
      cases hsplit : split? t with
      | none => exact absurd (split?_eq_none_iff.mp hsplit) ht
      | some pair => exact ih hearlier _

theorem exists_gives {texts : List String} (h : ∀ t ∈ texts, ¬ IsMalformed t) :
    ∃ pairs, List.Forall₂ Gives texts pairs := by
  induction texts with
  | nil => exact ⟨[], .nil⟩
  | cons t texts ih =>
      obtain ⟨ht, htexts⟩ := List.forall_mem_cons.mp h
      obtain ⟨pairs, hpairs⟩ := ih htexts
      cases hsplit : split? t with
      | none => exact absurd (split?_eq_none_iff.mp hsplit) ht
      | some pair => exact ⟨pair :: pairs, .cons (split?_eq_some_iff.mp hsplit) hpairs⟩

theorem exists_first_malformed {texts : List String} (h : ∃ t ∈ texts, IsMalformed t) :
    ∃ earlier t later, texts = earlier ++ t :: later ∧ (∀ s ∈ earlier, ¬ IsMalformed s) ∧
      IsMalformed t := by
  induction texts with
  | nil =>
      obtain ⟨t, ht, -⟩ := h
      cases ht
  | cons t texts ih =>
      by_cases ht : IsMalformed t
      · exact ⟨[], t, texts, rfl, List.forall_mem_nil _, ht⟩
      · obtain ⟨earlier, s, later, rfl, hearlier, hs⟩ := ih (by simpa [ht] using h)
        exact ⟨t :: earlier, s, later, rfl, List.forall_mem_cons.mpr ⟨ht, hearlier⟩, hs⟩

/-- What is read of pairs given one after the other: every name given, once, with the value given
last, in the order in which these last values were given. -/
structure LastOfEach (pairs : List (String × String)) (args : LaunchArguments) : Prop where
  names : ∀ n, n ∈ args.map (·.1) ↔ n ∈ pairs.map (·.1)
  distinct : (args.map (·.1)).Nodup
  last : ∀ a ∈ args, ∃ later, LastBefore pairs a later
  ordered : args.Pairwise fun a b => ∃ rest later, LastBefore pairs a rest ∧ LastBefore rest b later

theorem lastOfEach_lasts (pairs : List (String × String)) : LastOfEach pairs (lasts pairs) where
  names _ := mem_names_lasts
  distinct := nodup_names_lasts pairs
  last _ := exists_lastBefore
  ordered := pairwise_lasts pairs

theorem gives_of_mem {texts : List String} (h : List.Forall₂ Gives texts pairs) (ha : a ∈ pairs) :
    ∃ text, Gives text a := by
  induction h with
  | nil => cases ha
  | cons hgives _ ih =>
      rcases List.mem_cons.mp ha with rfl | ha
      · exact ⟨_, hgives⟩
      · exact ih ha

/-- What was read is read again from its longer forms. -/
theorem read_written {texts : List String} (h : List.Forall₂ Gives texts pairs) :
    read ((lasts pairs).map written) = .ok (lasts pairs) := by
  have hgives : List.Forall₂ Gives ((lasts pairs).map written) (lasts pairs) := by
    rw [List.forall₂_map_left_iff, List.forall₂_same]
    intro a ha
    obtain ⟨text, htext⟩ := gives_of_mem h ((lasts_sublist pairs).subset ha)
    exact htext.written
  rw [read_of_gives hgives, lasts_of_nodup (nodup_names_lasts pairs)]

/-- **The last occurrence of a name counts.** Reading fails exactly if an argument is malformed, and
then with the text of the first one. Otherwise the names read are trimmed, not empty and distinct;
they are the names given, each with the value given to it last, in the order in which these were
given; and the pairs read, written in the longer form, are read again. -/
theorem last_occurrence_counts (texts : List String) :
    ((∃ e, read texts = .error e) ↔ ∃ text ∈ texts, IsMalformed text) ∧
    (∀ e, read texts = .error e → ∃ earlier text later, texts = earlier ++ text :: later ∧
      (∀ t ∈ earlier, ¬ IsMalformed t) ∧ IsMalformed text ∧ e = .malformedArgument text) ∧
    ∀ args, read texts = .ok args →
      (∀ a ∈ args, a.1 ≠ "" ∧ Text.trim a.1 = a.1) ∧
      (∃ pairs, List.Forall₂ Gives texts pairs ∧ LastOfEach pairs args) ∧
      read (args.map written) = .ok args := by
  by_cases hbad : ∃ text ∈ texts, IsMalformed text
  · obtain ⟨earlier, text, later, htexts, hearlier, htext⟩ := exists_first_malformed hbad
    have hread : read texts = .error (.malformedArgument text) := by
      rw [htexts]
      exact readAfter_of_malformed hearlier htext []
    refine ⟨⟨fun _ => hbad, fun _ => ⟨_, hread⟩⟩, fun e he => ?_, fun args hargs => ?_⟩
    · rw [hread] at he
      exact ⟨earlier, text, later, htexts, hearlier, htext, (Except.error.inj he).symm⟩
    · rw [hread] at hargs
      cases hargs
  · have hgood : ∀ t ∈ texts, ¬ IsMalformed t := fun t ht hmal => hbad ⟨t, ht, hmal⟩
    obtain ⟨pairs, hpairs⟩ := exists_gives hgood
    have hread := read_of_gives hpairs
    refine ⟨⟨fun ⟨e, he⟩ => ?_, fun h => absurd h hbad⟩, fun e he => ?_, fun args hargs => ?_⟩
    · rw [hread] at he
      cases he
    · rw [hread] at he
      cases he
    · rw [hread] at hargs
      obtain rfl := Except.ok.inj hargs
      refine ⟨fun a ha => ?_, ⟨pairs, hpairs, lastOfEach_lasts pairs⟩, read_written hpairs⟩
      obtain ⟨text, htext⟩ := gives_of_mem hpairs ((lasts_sublist pairs).subset ha)
      exact ⟨htext.name.1, htext.name.2.1⟩

example : read ["who:=ana", "where=home", " url :=a=b", "who:=bob"] =
    .ok [("where", "home"), ("url", "a=b"), ("who", "bob")] := by decide

end LaunchArguments

end Conductor
