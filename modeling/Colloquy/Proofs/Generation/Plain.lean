import Colloquy.Expr.Parser
import Colloquy.Proofs.Generation.Tidy

/-!
# Plain text

Generation expressions leave almost every character to the text: commas, slashes, dashes, angle
brackets and parentheses mean nothing there, and a dollar or hash sign only with a name behind it.
Text in which nothing has a meaning is plain (`Plain`).  No literal stops inside it, so the one that
begins at the first character that is not blank reaches to the end (`atom_plain`), and what is
generated is what was written, tidied (`plain_spoken`).
-/

namespace Colloquy.Expr.Parser

/-- The characters mean nothing in generation expressions: no bracket, brace or backtick is among
them, and no dollar or hash sign with a name behind it. -/
structure Plain (cs : List Char) : Prop where
  unbracketed : ∀ c ∈ ['[', ']', '{', '}', '\x60'], c ∉ cs
  unnamed : ∀ mark ∈ ['$', '#'], ∀ c, [mark, c] <:+: cs → isNameStart c = false

variable {c : Char} {cs : List Char}

theorem Plain.suffix {ds : List Char} (h : Plain cs) (hds : ds <:+ cs) : Plain ds where
  unbracketed c hc hmem := h.unbracketed c hc (hds.subset hmem)
  unnamed mark hmark c hpair := h.unnamed mark hmark c (hpair.trans hds.isInfix)

theorem Plain.startsName_eq_false (h : Plain (c :: cs)) (hc : c ∈ ['$', '#']) :
    startsName cs = false := by
  cases cs with
  | nil => rfl
  | cons d ds => exact h.unnamed c hc d (List.prefix_append [c, d] ds).isInfix

theorem plain_cons_iff : Plain (c :: cs) ↔ c ∉ ['[', ']', '{', '}', '\x60'] ∧
    (c ∈ ['$', '#'] → startsName cs = false) ∧ Plain cs := by
  constructor
  · intro h
    have hc : c ∉ ['[', ']', '{', '}', '\x60'] := fun hc => h.unbracketed c hc (.head _)
    exact ⟨hc, h.startsName_eq_false, h.suffix (List.suffix_cons c cs)⟩
  · rintro ⟨hc, hname, hrest⟩
    refine ⟨fun d hd hmem => ?_, fun mark hmark d hpair => ?_⟩
    · rcases List.mem_cons.mp hmem with rfl | hmem
      · exact hc hd
      · exact hrest.unbracketed d hd hmem
    · rcases Generation.pair_infix_cons.mp hpair with ⟨rfl, hhead⟩ | hpair
      · obtain ⟨ds, rfl⟩ := List.head?_eq_some_iff.mp hhead
        exact hname hmark
      · exact hrest.unnamed mark hmark d hpair

instance decidablePlain : ∀ cs, Decidable (Plain cs)
  | [] => .isTrue ⟨fun _ _ => List.not_mem_nil, fun _ _ _ h => nomatch List.infix_nil.mp h⟩
  | _ :: cs =>
    have := decidablePlain cs
    decidable_of_iff _ plain_cons_iff.symm

/-- No bare literal stops inside plain text. -/
theorem Plain.stopsLiteral_eq_false (h : Plain (c :: cs)) (afterBlank : Bool) :
    stopsLiteral .generation .top afterBlank c cs = false := by
  obtain ⟨hbracket, hname, -⟩ := plain_cons_iff.mp h
  unfold stopsLiteral
  split
  all_goals first
    | exact absurd (by decide) hbracket
    | rfl
    | skip
  · rw [hname (by decide)]
    rfl
  · rw [hname (by decide)]
    rfl

theorem spanLiteral_plain (h : Plain cs) (afterBlank : Bool) :
    spanLiteral .generation .top afterBlank cs = (cs, []) := by
  induction cs generalizing afterBlank with
  | nil => rfl
  | cons c cs ih =>
    have hrest : Plain cs := h.suffix (List.suffix_cons c cs)
    rw [spanLiteral, h.stopsLiteral_eq_false, ih hrest]
    rfl

/-- Plain text that is not blank is one literal. -/
theorem atom_plain (h : Plain (c :: cs)) (hc : Text.isBlank c = false) (n : Nat) :
    atom .generation .top (n + 1) (c :: cs) =
      .ok (.literal (Text.collapse (String.ofList (c :: cs))), []) := by
  obtain ⟨hbracket, hname, -⟩ := plain_cons_iff.mp h
  have hnot : c ≠ '[' ∧ c ≠ ']' ∧ c ≠ '{' ∧ c ≠ '}' ∧ c ≠ '\x60' := by simpa using hbracket
  have hmark : ∀ mark ∈ ['$', '#'], ¬(c = mark ∧ startsName cs = true) := by
    rintro mark hmark ⟨rfl, hstarts⟩
    rw [hname hmark] at hstarts
    cases hstarts
  have hliteral : bareLiteral .generation .top (c :: cs) =
      .ok (.literal (Text.collapse (String.ofList (c :: cs))), []) := by
    rw [bareLiteral, spanLiteral_plain h]
    dsimp only
    exact if_neg fun h => Text.collapse_cons_ne_empty hc cs (String.isEmpty_iff.mp h)
  rw [atom.eq_def, ← hliteral]
  simp [hnot, hmark '$' (by decide), hmark '#' (by decide)]

theorem sequence_plain (h : Plain cs) {n : Nat} (hn : 3 ≤ n) :
    sequence .generation .top n cs =
      .ok (if Text.collapse (String.ofList cs) = "" then []
        else [.literal (Text.collapse (String.ofList cs))], []) := by
  obtain ⟨n, rfl⟩ := Nat.exists_eq_add_of_le' hn
  have hcollapse : Text.collapse (String.ofList (skipBlank cs)) =
      Text.collapse (String.ofList cs) := by
    simp only [Text.collapse, String.toList_ofList, skipBlank, Text.words_trimStart]
  rw [← hcollapse, sequence]
  cases hskip : skipBlank cs with
  | nil => rfl
  | cons c rest =>
    have hsuffix : c :: rest <:+ cs := hskip ▸ List.dropWhile_suffix _
    -- Blanks have been skipped, so the next character is none.
    have hc : Text.isBlank c = false := by
      have hhead := List.head?_dropWhile_not Text.isBlank cs
      rw [skipBlank, Text.trimStart] at hskip
      rw [hskip] at hhead
      simpa using hhead
    have hterm : term .generation .top (n + 2) (c :: rest) =
        .ok (.literal (Text.collapse (String.ofList (c :: rest))), []) := by
      rw [term, atom_plain (h.suffix hsuffix) hc]
      rfl
    have hend : sequence .generation .top (n + 2) [] = .ok ([], []) := rfl
    rw [if_neg (Text.collapse_cons_ne_empty hc rest)]
    simp [hterm, hend, Scope.ends]

end Colloquy.Expr.Parser

namespace Colloquy.Generation

open Expr.Parser (Plain)

variable {source : String}

theorem tidy_collapse (text : String) : tidy (Text.collapse text) = tidy text := by
  rw [tidy, Text.collapse_collapse, tidy]

/-- A plain source without the fault mark is one literal, or nothing if it is blank.  What is
generated from it is the source itself, tidied, whatever the macros, the variables and the random
source are; the variables stay as they are, and no word is drawn. -/
theorem plain_spoken (hplain : Plain source.toList) (hunmarked : Unmarked source) :
    ∃ tree, Expr.parse .generation source = .ok tree ∧
      (tree = if Text.collapse source = "" then .rigid [] else .literal (Text.collapse source)) ∧
      ∀ (macros : Macro.Registry) (vars : Bindings) (src : Source),
        generate macros tree vars src = (some ⟨tidy source, vars⟩, src) := by
  have hread := Expr.Parser.sequence_plain hplain
    (show 3 ≤ Expr.Parser.enough source.toList.length by rw [Expr.Parser.enough]; omega)
  rw [String.ofList_toList] at hread
  refine ⟨_, ?_, rfl, fun macros vars src => ?_⟩
  · rw [Expr.parse]
    dsimp only
    rw [hread]
    by_cases hblank : Text.collapse source = ""
    · rw [if_pos hblank, if_pos hblank]
      rfl
    · rw [if_neg hblank, if_neg hblank]
      rfl
  · -- Either way the text comes to be the words of the source, spaced singly.
    have hreduce : reduce macros (if Text.collapse source = "" then .rigid [] else
        .literal (Text.collapse source)) vars src = ((some (Text.collapse source), vars), src) := by
      by_cases hblank : Text.collapse source = ""
      · rw [if_pos hblank, reduce_rigid, hblank, reduceAll]
        rfl
      · rw [if_neg hblank, reduce]
        rfl
    rw [generate_apply, hreduce, kept, finish,
      if_neg (occursIn_iff.not.mpr hunmarked.collapse), tidy_collapse]

/-- A dollar sign before a digit, a dash, and brackets that mean nothing. -/
theorem plain_spoken_price :
    ∃ tree, Expr.parse .generation "  It is $5 - or  <#1> , really? (yes/no) #" = .ok tree ∧
      ∀ (macros : Macro.Registry) (vars : Bindings) (src : Source), generate macros tree vars src =
        (some ⟨"It is $5 - or <#1>, really? (yes/no) #", vars⟩, src) := by
  have hplain : Plain "  It is $5 - or  <#1> , really? (yes/no) #".toList := by decide +kernel
  have htidy : tidy "  It is $5 - or  <#1> , really? (yes/no) #" =
      "It is $5 - or <#1>, really? (yes/no) #" := by decide +kernel
  obtain ⟨tree, hparse, -, hspoken⟩ := plain_spoken hplain (by decide +kernel)
  exact ⟨tree, hparse, fun macros vars src => by rw [hspoken, htidy]⟩

end Colloquy.Generation
