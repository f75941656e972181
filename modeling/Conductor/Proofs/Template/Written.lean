import Mathlib.Data.List.Chain
import Conductor.Context
import Conductor.Template.Text

/-!
# The written form of templates

What is written from a template of texts, references and templates inside it is cut into the
pieces of the template again: texts and references leave their marks whatever stands next to them,
so the boundaries between fragments do not matter (`Template.scan_display`). Gathering pieces
gives the one template with these pieces in which texts stand apart (`Template.parse_display`),
and it resolves to what the pieces resolve to, one after the other.
-/

namespace Conductor

theorem isBracedNameChar_of_isNameChar {c : Char} (h : isNameChar c = true) :
    isBracedNameChar c = true := by
  rw [isBracedNameChar, h, Bool.true_or, Bool.true_or]

def Fragment.IsText (f : Fragment) : Prop :=
  ∃ content, f = .text content

namespace Template

/-- The template consists of texts and references to variables; texts stand apart, and none is
empty unless it is all there is. -/
structure IsNormal (t : Template) : Prop where
  nonempty : t ≠ []
  kinds : ∀ f ∈ t, f.IsText ∨ ∃ n, f = .var n ∧ IsVariableName n
  apart : t.IsChain fun f g => ¬ (f.IsText ∧ g.IsText)
  filled : .text "" ∈ t → t = [.text ""]

/-- The template is built from texts, references to variables and templates inside it. -/
inductive IsPlain : Template → Prop where
  | nil : IsPlain []
  | text {rest : Template} (content : String) (h : IsPlain rest) : IsPlain (.text content :: rest)
  | var {rest : Template} {name : String} (hn : IsVariableName name) (h : IsPlain rest) :
      IsPlain (.var name :: rest)
  | concat {parts rest : Template} (hp : IsPlain parts) (h : IsPlain rest) :
      IsPlain (.concat parts :: rest)

/-- The template has these pieces, in this order. -/
inductive Spells : Template → List Piece → Prop where
  | nil : Spells [] []
  | text {rest : Template} {ps : List Piece} (content : String) (h : Spells rest ps) :
      Spells (.text content :: rest) (content.toList.map .char ++ ps)
  | var {rest : Template} {ps : List Piece} {name : String} (hn : IsVariableName name)
      (h : Spells rest ps) : Spells (.var name :: rest) (.reference name.toList :: ps)
  | concat {parts rest : Template} {ps qs : List Piece} (hp : Spells parts ps)
      (h : Spells rest qs) : Spells (.concat parts :: rest) (ps ++ qs)

variable {t : Template} {ps : List Piece}

theorem IsPlain.exists_spells (h : IsPlain t) : ∃ ps, Spells t ps := by
  induction h with
  | nil => exact ⟨[], .nil⟩
  | text content _ ih =>
      obtain ⟨ps, hps⟩ := ih
      exact ⟨_, .text content hps⟩
  | var hn _ ih =>
      obtain ⟨ps, hps⟩ := ih
      exact ⟨_, .var hn hps⟩
  | concat _ _ ihp ih =>
      obtain ⟨ps, hps⟩ := ihp
      obtain ⟨qs, hqs⟩ := ih
      exact ⟨_, .concat hps hqs⟩

theorem IsNormal.isPlain (h : IsNormal t) : IsPlain t := by
  have hkinds := h.kinds
  clear h
  induction t with
  | nil => exact .nil
  | cons f rest ih =>
      obtain ⟨hf, hrest⟩ := List.forall_mem_cons.mp hkinds
      rcases hf with ⟨content, rfl⟩ | ⟨n, rfl, hn⟩
      · exact .text content (ih hrest)
      · exact .var hn (ih hrest)

/-! ## Cutting -/

theorem scan_char {c : Char} (hc : c ≠ '$') (r : List Char) :
    scan (c :: r) = .char c :: scan r := by
  rw [scan, if_neg hc]

/-- What a dollar sign begins is one piece. -/
theorem scan_of_afterDollar? {r rest : List Char} {p : Piece}
    (h : afterDollar? r = some (p, rest)) : scan ('$' :: r) = p :: scan rest := by
  rw [scan, if_pos rfl]
  split
  · rename_i heq
    cases heq.symm.trans h
    rfl
  · rename_i heq
    cases heq.symm.trans h

/-- A dollar sign that begins nothing stands for itself. -/
theorem scan_of_afterDollar?_eq_none {r : List Char} (h : afterDollar? r = none) :
    scan ('$' :: r) = .char '$' :: scan r := by
  rw [scan, if_pos rfl]
  split
  · rename_i heq
    cases heq.symm.trans h
  · rfl

/-- Doubled dollar signs are read as single ones, whatever follows. -/
theorem scan_escapeDollars (content : String) (rest : List Char) :
    scan ((escapeDollars content).toList ++ rest) =
      content.toList.map .char ++ scan rest := by
  rw [escapeDollars, String.toList_ofList]
  induction content.toList with
  | nil => rfl
  | cons c cs ih =>
      rw [List.flatMap_cons, List.append_assoc, List.map_cons, List.cons_append, ← ih]
      by_cases hc : c = '$'
      · subst hc
        exact scan_of_afterDollar? rfl
      · rw [if_neg hc]
        exact scan_char hc _

/-- A name in braces is read as a reference, whatever follows. -/
theorem scan_braced {name : String} (hn : IsVariableName name) (rest : List Char) :
    scan ('$' :: '\x7b' :: (name.toList ++ '\x7d' :: rest)) =
      .reference name.toList :: scan rest := by
  obtain ⟨c, r, hname, hc, hr⟩ := hn
  rw [hname]
  have hdrop : (r ++ '\x7d' :: rest).dropWhile isBracedNameChar = '\x7d' :: rest := by
    rw [List.dropWhile_append_of_pos hr]
    rfl
  have htake : (r ++ '\x7d' :: rest).takeWhile isBracedNameChar = r := by
    rw [List.takeWhile_append_of_pos hr]
    exact List.append_nil r
  apply scan_of_afterDollar?
  rw [List.cons_append, afterDollar?, if_pos hc, hdrop, htake]
  rfl

/-- **What is written is cut into the pieces of the template.** -/
theorem scan_display (h : Spells t ps) (rest : List Char) :
    scan ((display t).toList ++ rest) = ps ++ scan rest := by
  induction h generalizing rest with
  | nil => rfl
  | text content _ ih =>
      rw [display, Fragment.display, String.toList_append, List.append_assoc,
        scan_escapeDollars, ih, List.append_assoc]
  | @var _ _ name hn _ ih =>
      rw [display, Fragment.display]
      simp only [String.toList_append, List.append_assoc]
      exact (scan_braced hn _).trans (congrArg _ (ih rest))
  | concat _ _ ihp ih =>
      rw [display, Fragment.display, String.toList_append, List.append_assoc, ihp, ih,
        List.append_assoc]

/-- A dollar sign begins another one or a reference to a variable. -/
theorem afterDollar?_cases {r rest : List Char} {p : Piece}
    (h : afterDollar? r = some (p, rest)) :
    p = .char '$' ∨ ∃ n, p = .reference n ∧ IsVariableName (String.ofList n) := by
  have hname : ∀ {c : Char} {r : List Char} {q : Char → Bool}, isNameStart c = true →
      (∀ d, q d = true → isBracedNameChar d = true) →
      IsVariableName (String.ofList (c :: r.takeWhile q)) := by
    intro c r q hc hq
    refine ⟨c, r.takeWhile q, String.toList_ofList, hc, fun d hd => hq d ?_⟩
    exact List.all_eq_true.mp List.all_takeWhile d hd
  unfold afterDollar? at h
  split at h
  · cases h
    exact .inl rfl
  · split at h
    · rename_i hc
      split at h
      · cases h
        exact .inr ⟨_, rfl, hname hc fun _ => id⟩
      · cases h
    · cases h
  · split at h
    · rename_i hc
      cases h
      exact .inr ⟨_, rfl, hname hc fun _ => isBracedNameChar_of_isNameChar⟩
    · cases h
  · cases h

/-- Whatever text is cut, its references name variables. -/
theorem isVariableName_of_mem_scan {cs n : List Char} (h : .reference n ∈ scan cs) :
    IsVariableName (String.ofList n) := by
  induction cs using scan.induct with
  | case1 => simp [scan] at h
  | case2 r p rest hfound ih =>
      rw [scan_of_afterDollar? hfound] at h
      rcases List.mem_cons.mp h with heq | h
      · rcases afterDollar?_cases hfound with hp | ⟨m, hp, hm⟩
        · cases heq.trans hp
        · cases heq.trans hp
          exact hm
      · exact ih h
  | case3 r hfound ih =>
      rw [scan_of_afterDollar?_eq_none hfound] at h
      exact ih ((List.mem_cons.mp h).resolve_left nofun)
  | case4 c r hc ih =>
      rw [scan_char hc] at h
      exact ih ((List.mem_cons.mp h).resolve_left nofun)

/-! ## Gathering -/

theorem flush_of_ne_nil {cs : List Char} (h : cs ≠ []) :
    flush cs = [.text (String.ofList cs)] := by
  rw [flush, if_neg (by simpa using h)]

theorem gather_map_char (literal cs : List Char) (ps : List Piece) :
    gather literal (cs.map .char ++ ps) = gather (literal ++ cs) ps := by
  induction cs generalizing literal with
  | nil => rw [List.map_nil, List.nil_append, List.append_nil]
  | cons c cs ih => rw [List.map_cons, List.cons_append, gather, ih, ← List.append_cons]

/-- Literal characters stand by themselves before what begins with no text. -/
theorem gather_of_spells_apart (h : Spells t ps)
    (hkinds : ∀ f ∈ t, f.IsText ∨ ∃ n, f = .var n ∧ IsVariableName n)
    (hhead : ∀ f ∈ t.head?, ¬ f.IsText) (literal : List Char) :
    gather literal ps = flush literal ++ gather [] ps := by
  cases h with
  | nil =>
      rw [gather, gather]
      exact (List.append_nil _).symm
  | var hn h =>
      rw [gather, gather]
      rfl
  | text content h => exact absurd ⟨content, rfl⟩ (hhead _ rfl)
  | concat hp h =>
      rcases hkinds _ List.mem_cons_self with ⟨content, heq⟩ | ⟨n, heq, -⟩ <;> cases heq

/-- **Gathering the pieces of a template gives the template**, if texts stand apart in it and none
is empty. -/
theorem gather_of_spells (h : Spells t ps)
    (hkinds : ∀ f ∈ t, f.IsText ∨ ∃ n, f = .var n ∧ IsVariableName n)
    (hapart : t.IsChain fun f g => ¬ (f.IsText ∧ g.IsText)) (hfilled : .text "" ∉ t) :
    gather [] ps = t := by
  induction h with
  | nil => rfl
  | @text rest ps content h ih =>
      obtain ⟨hhead, hrest⟩ := List.isChain_cons.mp hapart
      obtain ⟨hempty, hfilled⟩ := not_or.mp (mt List.mem_cons.mpr hfilled)
      have hkinds := (List.forall_mem_cons.mp hkinds).2
      have hne : content.toList ≠ [] := fun heq =>
        hempty (congrArg _ (String.toList_eq_nil_iff.mp heq).symm)
      rw [gather_map_char, List.nil_append,
        gather_of_spells_apart h hkinds fun f hf htext => hhead f hf ⟨⟨content, rfl⟩, htext⟩,
        ih hkinds hrest hfilled, flush_of_ne_nil hne, String.ofList_toList]
      rfl
  | @var rest ps name hn h ih =>
      have hrest := (List.isChain_cons.mp hapart).2
      have hfilled := (not_or.mp (mt List.mem_cons.mpr hfilled)).2
      rw [gather, ih (List.forall_mem_cons.mp hkinds).2 hrest hfilled, String.ofList_toList]
      rfl
  | concat hp h =>
      rcases hkinds _ List.mem_cons_self with ⟨content, heq⟩ | ⟨n, heq, -⟩ <;> cases heq

/-- What is gathered are texts that are not empty, and the references of the pieces. -/
theorem mem_gather {literal : List Char} {f : Fragment} (h : f ∈ gather literal ps) :
    (∃ content, f = .text content ∧ content ≠ "") ∨
      ∃ n, f = .var (String.ofList n) ∧ .reference n ∈ ps := by
  have hflush : ∀ {cs : List Char}, f ∈ flush cs →
      ∃ content, f = .text content ∧ content ≠ "" := by
    intro cs hf
    unfold flush at hf
    split at hf
    · cases hf
    · rename_i hcs
      refine ⟨_, List.mem_singleton.mp hf, fun heq => hcs ?_⟩
      rw [← String.toList_ofList (l := cs), heq]
      rfl
  induction ps generalizing literal with
  | nil => exact .inl (hflush h)
  | cons p ps ih =>
      cases p with
      | char c =>
          rw [gather] at h
          rcases ih h with htext | ⟨n, hf, hn⟩
          · exact .inl htext
          · exact .inr ⟨n, hf, List.mem_cons_of_mem _ hn⟩
      | reference n =>
          rw [gather, List.mem_append, List.mem_cons] at h
          rcases h with h | rfl | h
          · exact .inl (hflush h)
          · exact .inr ⟨n, rfl, List.mem_cons_self⟩
          · rcases ih h with htext | ⟨m, hf, hm⟩
            · exact .inl htext
            · exact .inr ⟨m, hf, List.mem_cons_of_mem _ hm⟩

/-- No two texts stand side by side in what is gathered. -/
theorem isChain_gather (literal : List Char) (ps : List Piece) :
    (gather literal ps).IsChain fun f g => ¬ (f.IsText ∧ g.IsText) := by
  have hvar : ∀ n, ¬ Fragment.IsText (.var n) := by
    rintro n ⟨content, heq⟩
    cases heq
  induction ps generalizing literal with
  | nil =>
      rw [gather, flush]
      split
      · exact .nil
      · exact .singleton _
  | cons p ps ih =>
      cases p with
      | char c => exact ih _
      | reference n =>
          have hrest : (.var (String.ofList n) :: gather [] ps).IsChain
              fun f g => ¬ (Fragment.IsText f ∧ Fragment.IsText g) :=
            (ih []).cons fun g _ h => hvar _ h.1
          rw [gather, flush]
          split
          · exact hrest
          · exact hrest.cons fun g hg h => hvar _ (Option.mem_some_iff.mp hg ▸ h.2)

/-- **Whatever text is read, the template is normal.** -/
theorem isNormal_parse (s : String) : (parse s).IsNormal := by
  have hpieces := fun n => @isVariableName_of_mem_scan s.toList n
  have hchain := isChain_gather [] (scan s.toList)
  have hmem := fun f => @mem_gather (scan s.toList) [] f
  unfold parse
  generalize gather [] (scan s.toList) = t at hchain hmem ⊢
  cases t with
  | nil =>
      refine ⟨nofun, fun f hf => .inl ⟨"", List.mem_singleton.mp hf⟩, .singleton _, fun _ => rfl⟩
  | cons f rest =>
      refine ⟨nofun, fun g hg => ?_, hchain, fun hempty => ?_⟩
      · rcases hmem g hg with ⟨content, rfl, -⟩ | ⟨n, rfl, hn⟩
        · exact .inl ⟨content, rfl⟩
        · exact .inr ⟨_, rfl, hpieces n hn⟩
      · rcases hmem _ hempty with ⟨content, heq, hne⟩ | ⟨n, heq, -⟩
        · cases heq
          exact absurd rfl hne
        · cases heq

/-- The pieces of what is written are those of the template. -/
theorem parse_of_spells (h : Spells t ps) :
    parse (display t) = match gather [] ps with
      | [] => [.text ""]
      | t => t := by
  have hscan := scan_display h []
  rw [List.append_nil, show scan [] = [] by rw [scan], List.append_nil] at hscan
  let close (ps : List Piece) : Template :=
    match gather [] ps with
    | [] => [.text ""]
    | t => t
  exact congrArg close hscan

/-- **A normal template is read from what is written of it.** -/
theorem parse_display (h : IsNormal t) : parse (display t) = t := by
  obtain ⟨ps, hps⟩ := h.isPlain.exists_spells
  by_cases hempty : .text "" ∈ t
  · rw [h.filled hempty]
    cbv
  · rw [parse_of_spells hps, gather_of_spells hps h.kinds h.apart hempty]
    split
    · exact absurd rfl h.nonempty
    · rfl

/-- **Reading undoes writing.** Every text spells a normal template, and what is written of this
template spells it again. -/
theorem parse_display_parse (s : String) :
    (parse s).IsNormal ∧ parse (display (parse s)) = parse s :=
  ⟨isNormal_parse s, parse_display (isNormal_parse s)⟩

/-! ## Resolving -/

/-- The fragment that a piece is by itself. -/
def Piece.fragment : Piece → Fragment
  | .char c => .text (String.ofList [c])
  | .reference n => .var (String.ofList n)

theorem map_empty_append (x : Except Unresolved String) : x.map ("" ++ ·) = x := by
  cases x with
  | error e => rfl
  | ok b => exact congrArg Except.ok String.empty_append

theorem map_append_map (x : Except Unresolved String) (a b : String) :
    (x.map (b ++ ·)).map (a ++ ·) = x.map (a ++ b ++ ·) := by
  cases x with
  | error e => rfl
  | ok c => exact congrArg Except.ok String.append_assoc.symm

variable (s : Surroundings)

theorem resolve_cons (f : Fragment) (t : Template) :
    Template.resolve s (f :: t) =
      (Fragment.resolve s f).bind fun a => (Template.resolve s t).map (a ++ ·) := by
  rw [Template.resolve]
  cases Fragment.resolve s f with
  | error e => rfl
  | ok a => cases Template.resolve s t <;> rfl

theorem resolve_text_cons (content : String) (t : Template) :
    Template.resolve s (.text content :: t) = (Template.resolve s t).map (content ++ ·) := by
  rw [resolve_cons, Fragment.resolve]
  rfl

theorem resolve_append (t u : Template) :
    Template.resolve s (t ++ u) =
      (Template.resolve s t).bind fun a => (Template.resolve s u).map (a ++ ·) := by
  induction t with
  | nil => exact (map_empty_append _).symm
  | cons f t ih =>
      rw [List.cons_append, resolve_cons, resolve_cons, ih]
      cases Fragment.resolve s f with
      | error e => rfl
      | ok a =>
          cases Template.resolve s t with
          | error e => rfl
          | ok b => exact map_append_map _ a b

/-- Characters resolve to the text that they make up. -/
theorem resolve_map_char (cs : List Char) (t : Template) :
    Template.resolve s ((cs.map .char).map Piece.fragment ++ t) =
      (Template.resolve s t).map (String.ofList cs ++ ·) := by
  induction cs with
  | nil => exact (map_empty_append _).symm
  | cons c cs ih =>
      rw [List.map_cons, List.map_cons, List.cons_append, Piece.fragment, resolve_text_cons, ih,
        map_append_map, ← String.ofList_append, List.singleton_append]

variable {s}

/-- A template resolves to what its pieces resolve to. -/
theorem resolve_of_spells (h : Spells t ps) :
    Template.resolve s t = Template.resolve s (ps.map Piece.fragment) := by
  induction h with
  | nil => rfl
  | text content _ ih =>
      rw [resolve_text_cons, ih, List.map_append, resolve_map_char, String.ofList_toList]
  | var hn _ ih => rw [List.map_cons, Piece.fragment, String.ofList_toList, resolve_cons,
      resolve_cons, ih]
  | concat _ _ ihp ih =>
      rw [List.map_append, resolve_append, ← ihp, ← ih, resolve_cons, Fragment.resolve]

/-- Literal characters before a template resolve to themselves, if there are any. -/
theorem resolve_flush_append (cs : List Char) (t : Template) :
    Template.resolve s (flush cs ++ t) =
      (Template.resolve s t).map (String.ofList cs ++ ·) := by
  by_cases hempty : cs = []
  · subst hempty
    exact (map_empty_append _).symm
  · rw [flush_of_ne_nil hempty]
    exact resolve_text_cons s _ t

/-- So does what is gathered from the pieces. -/
theorem resolve_gather (literal : List Char) (ps : List Piece) :
    Template.resolve s (gather literal ps) =
      (Template.resolve s (ps.map Piece.fragment)).map (String.ofList literal ++ ·) := by
  induction ps generalizing literal with
  | nil =>
      rw [gather, ← List.append_nil (flush literal), resolve_flush_append]
      rfl
  | cons p ps ih =>
      cases p with
      | char c =>
          rw [gather, ih, List.map_cons, Piece.fragment, resolve_text_cons, map_append_map,
            String.ofList_append]
      | reference n =>
          have hrest : Template.resolve s (gather [] ps) =
              Template.resolve s (ps.map Piece.fragment) := (ih []).trans (map_empty_append _)
          rw [gather, resolve_flush_append, List.map_cons, Piece.fragment, resolve_cons, hrest,
            ← resolve_cons]

theorem resolve_parse_display (h : IsPlain t) :
    Template.resolve s (parse (display t)) = Template.resolve s t := by
  obtain ⟨ps, hps⟩ := h.exists_spells
  have hgather : Template.resolve s (gather [] ps) = Template.resolve s t := by
    rw [resolve_of_spells hps]
    exact (resolve_gather [] ps).trans (map_empty_append _)
  rw [parse_of_spells hps, ← hgather]
  cases gather [] ps with
  | nil => exact resolve_literal s ""
  | cons f rest => rfl

/-- **What is written of a template means the same.** In every context it resolves to the same
text as the template, or fails for the same reason; and a text whose dollar signs are doubled
resolves to the text. -/
theorem written_form_means_the_same (c : Context) :
    (∀ t, IsPlain t → c.resolve (parse (display t)) = c.resolve t) ∧
      ∀ content, c.resolve (parse (escapeDollars content)) = .ok content := by
  have hresolve : ∀ t, IsPlain t → c.resolve (parse (display t)) = c.resolve t := by
    intro t ht
    rw [Context.resolve, resolve_parse_display ht]
    rfl
  refine ⟨hresolve, fun content => ?_⟩
  have hdisplay : display (literal content) = escapeDollars content := String.append_empty
  have hliteral := hresolve (literal content) (.text content .nil)
  rw [hdisplay] at hliteral
  rw [hliteral, Context.resolve, resolve_literal]

/-- A template in which dollar signs of two texts stand next to each other and to a reference. -/
def dollars : Template :=
  [.text "$", .concat [.text "$", .var "price"], .concat [], .text "\x7bx\x7d"]

/-- It is read from what is written of it as one that means the same. -/
theorem dollars_written_mean_the_same :
    IsPlain dollars ∧ display dollars = "$$$$$\x7bprice\x7d\x7bx\x7d" ∧
      ((Context.start .bare).pass "price" "5").resolve (parse (display dollars)) =
        .ok "$$5\x7bx\x7d" := by
  have hprice : IsVariableName "price" :=
    ⟨'p', ['r', 'i', 'c', 'e'], by decide, by decide, List.all_eq_true.mp (by decide)⟩
  have hinner : IsPlain [.text "$", .var "price"] := .text _ (.var hprice .nil)
  have hplain : IsPlain dollars := .text _ (.concat hinner (.concat .nil (.text _ .nil)))
  refine ⟨hplain, by decide, ?_⟩
  rw [(written_form_means_the_same _).1 dollars hplain]
  rfl

end Template

end Conductor
