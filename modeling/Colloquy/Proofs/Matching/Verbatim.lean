import Mathlib
import Colloquy.Proofs.Matching.Building
import Colloquy.Proofs.Text.Case

/-!
# Texts that match themselves

A literal is looked for in the lower case of an utterance with its words spaced singly, up to case.
So it matches the very text that it is made of when the lower case of each character is one
character, and when it begins and ends with a word wherever it asks for the edge of one
(`run_verbatim_iff`).

Two kinds of texts do not match themselves.  The lower case of `İ` is two characters, none of which
is like it up to case; and at some numerals, such as `²`, a literal asks for the edge of a word,
though they do not belong to words (`run_verbatim_misses`).
-/

namespace Colloquy.Matching

open Regex
open Relation (Comp)

/-- Where the character asks for the edge of a word, it belongs to a word. -/
def EdgeMet (c : Option Char) : Prop :=
  ∀ d ∈ c, isEdgeChar d = true → Text.isWordChar d = true

/-- The lower case of each character is one character, and there are words at both ends of the text
wherever its literal asks for their edges. -/
structure Verbatim (text : String) : Prop where
  undotted : 'İ' ∉ text.toList
  starts : EdgeMet ((Text.words text.toList).head?.bind List.head?)
  ends : EdgeMet ((Text.words text.toList).getLast?.bind List.getLast?)

/-! ### Words in a row -/

section

variable {s : Subject}

theorem length_of_spells {word : List Char} {i j : Nat} (h : Spells s word i j) :
    i + word.length = j := by
  have hlength := h.2.2.length_eq
  rw [length_slice h.2.1] at hlength
  have hij := h.1
  omega

/-- What is spelled in two parts is spelled one part after the other. -/
theorem spells_append_iff (word word' : List Char) {i j : Nat} (hi : i ≤ s.size) :
    Spells s (word ++ word') i j ↔ Comp (Spells s word) (Spells s word') i j := by
  have hword : Agree s.size (Spans s (chars word)) (Spells s word) := agree_chars word
  have hparts := agree_comp hword (advances_spans _) (agree_chars word')
  rw [← hparts i hi j, ← agree_chars _ i hi j, chars, List.map_append, spans_concat_append]
  rfl

theorem blanks_of_spells_space {i j : Nat} (h : Spells s [' '] i j) : Blanks s i j := by
  have hlength := length_of_spells h
  refine ⟨by rw [← hlength]; exact Nat.lt_succ_self i, h.1, h.2.1, ?_⟩
  obtain ⟨d, rest, hsame, hrest, hslice⟩ := List.forall₂_cons_left_iff.mp h.2.2
  rw [hslice, List.forall₂_nil_left_iff.mp hrest, List.forall_mem_singleton,
    (Text.sameFold_iff_eq_of_mem (by decide)).mp hsame]
  decide

/-- A text with single spaces says its words. -/
theorem row_of_spells_intercalate {words : List (List Char)} {i j : Nat} (hi : i ≤ s.size)
    (h : Spells s ([' '].intercalate words) i j) : row (Blanks s) (words.map (Spells s)) i j := by
  match words with
  | [] => exact length_of_spells h
  | [word] =>
    rw [List.intercalate_singleton] at h
    exact h
  | word :: next :: more =>
    rw [List.intercalate_cons_cons, List.append_assoc, spells_append_iff _ _ hi] at h
    obtain ⟨k, hik, hkj⟩ := h
    rw [spells_append_iff _ _ hik.2.1] at hkj
    obtain ⟨l, hkl, hlj⟩ := hkj
    exact ⟨k, hik, l, blanks_of_spells_space hkl, row_of_spells_intercalate hkl.2.1 hlj⟩

/-- Words in a row take up as much as they do with single spaces, or more. -/
theorem length_intercalate_le_of_row {words : List (List Char)} {i j : Nat}
    (h : row (Blanks s) (words.map (Spells s)) i j) :
    i + ([' '].intercalate words).length ≤ j := by
  match words with
  | [] => exact Nat.le_of_eq h
  | [word] => simpa using (length_of_spells h).le
  | word :: next :: more =>
    obtain ⟨k, hik, l, ⟨hkl, -⟩, hlj⟩ := h
    have hword := length_of_spells hik
    have hmore := length_intercalate_le_of_row hlj
    rw [List.intercalate_cons_cons, List.length_append, List.length_append, List.length_singleton]
    omega

/-- Characters that are the same one by one hold the same ones. -/
theorem exists_mem_of_forall₂ {r : Char → Char → Prop} {cs ds : List Char} {c : Char}
    (h : List.Forall₂ r cs ds) (hc : c ∈ cs) : ∃ d ∈ ds, r c d := by
  induction h with
  | nil => cases hc
  | @cons a b cs ds hab h ih =>
    rcases List.mem_cons.mp hc with rfl | hc
    · exact ⟨b, .head _, hab⟩
    · obtain ⟨d, hd, hcd⟩ := ih hc
      exact ⟨d, .tail _ hd, hcd⟩

/-- Each relation of a row leads from somewhere to somewhere. -/
theorem exists_of_mem_row {gap R : Nat → Nat → Prop} {Rs : List (Nat → Nat → Prop)} {i j : Nat}
    (hR : R ∈ Rs) (h : row gap Rs i j) : ∃ k l, R k l := by
  match Rs with
  | [] => cases hR
  | [Q] =>
    obtain rfl := List.mem_singleton.mp hR
    exact ⟨i, j, h⟩
  | Q :: P :: Rs =>
    obtain ⟨k, hik, l, _, hlj⟩ := h
    rcases List.mem_cons.mp hR with rfl | hR
    · exact ⟨i, k, hik⟩
    · exact exists_of_mem_row hR hlj

end

/-! ### Texts in lower case -/

/-- The subject is the text `cs` in lower case, and the mark behind a space. -/
structure Lowered (cs ds : List Char) (s : Subject) : Prop where
  toList_eq : s.toList = ds ++ ' ' :: endMark
  lowers : List.Forall₂ Text.Lowers cs ds

namespace Lowered

variable {cs ds : List Char} {s : Subject}

theorem getElem?_of_lt (h : Lowered cs ds s) {k : Nat} (hk : k < cs.length) : s[k]? = ds[k]? := by
  rw [← Array.getElem?_toList, h.toList_eq, List.getElem?_append_left (h.lowers.length_eq ▸ hk)]

theorem getElem?_length (h : Lowered cs ds s) : s[cs.length]? = some ' ' := by
  rw [← Array.getElem?_toList, h.toList_eq, h.lowers.length_eq,
    List.getElem?_append_right le_rfl, Nat.sub_self]
  rfl

theorem markAt_eq (h : Lowered cs ds s) : markAt s = cs.length + 1 := by
  rw [markAt, ← Array.length_toList, h.toList_eq, List.length_append, List.length_cons,
    h.lowers.length_eq]
  omega

theorem length_lt_size (h : Lowered cs ds s) : cs.length < s.size :=
  (Array.getElem?_eq_some_iff.mp h.getElem?_length).1

theorem spells (h : Lowered cs ds s) : Spells s cs 0 cs.length := by
  have hslice : slice s 0 cs.length = ds := by
    rw [slice, Array.toList_extract, List.extract_eq_take_drop, h.toList_eq, h.lowers.length_eq,
      List.drop_zero, Nat.sub_zero, List.take_left]
  refine ⟨Nat.zero_le _, h.length_lt_size.le, ?_⟩
  rw [hslice]
  exact h.lowers.imp fun _ _ hcd => hcd.sameFold

/-- At the beginning there is the edge of a word when the text begins with a word character. -/
theorem isWordEdge_zero (h : Lowered cs ds s) {c : Char} (hc : c ∈ cs.head?) :
    isWordEdge s 0 = Text.isWordChar c := by
  obtain ⟨cs, rfl⟩ := List.head?_eq_some_iff.mp hc
  obtain ⟨d, ds', hcd, -, rfl⟩ := List.forall₂_cons_left_iff.mp h.lowers
  have hd : s[0]? = some d := h.getElem?_of_lt (Nat.succ_pos _)
  rw [isWordEdge, wordAt, hd, ← hcd.isWordChar]
  simp

/-- At the end there is the edge of a word when the text ends with a word character. -/
theorem isWordEdge_length (h : Lowered cs ds s) {c : Char} (hc : c ∈ cs.getLast?) :
    isWordEdge s cs.length = Text.isWordChar c := by
  have hpos : 0 < cs.length := List.length_pos_of_mem (List.mem_of_getLast? hc)
  obtain ⟨d, hd, hcd⟩ := exists_getLast_of_forall₂ h.lowers hc
  have hbefore : s[cs.length - 1]? = some d := by
    rw [h.getElem?_of_lt (Nat.sub_lt hpos Nat.one_pos), h.lowers.length_eq,
      ← List.getLast?_eq_getElem?]
    exact hd
  have hspace : Text.isWordChar ' ' = false := by decide +kernel
  rw [isWordEdge, wordAt, wordAt, hbefore, h.getElem?_length, ← hcd.isWordChar]
  simp [hspace, hpos.ne']

end Lowered

/-! ### Literals that match -/

section

variable {text : String} {cs ds : List Char} {s : Subject} {i j : Nat}

/-- A literal that is said in front of the mark is all of the text. -/
theorem eq_of_says (h : Lowered ([' '].intercalate (Text.words text.toList)) ds s)
    (hne : Text.words text.toList ≠ []) (hsaid : Says s text i j) (hj : j ≤ markAt s) :
    i = 0 ∧ j = ([' '].intercalate (Text.words text.toList)).length := by
  have hlength := length_intercalate_le_of_row hsaid.2.1
  rw [h.markAt_eq] at hj
  by_contra hother
  -- Then the last character is said at the space in front of the mark.
  have hj' : j = ([' '].intercalate (Text.words text.toList)).length + 1 := by omega
  obtain ⟨-, word, last, hword, hlast⟩ := exists_ends_of_words hne
  obtain ⟨k, hspelled⟩ := exists_last_of_row (by rw [List.getLast?_map, hword]; rfl) hsaid.2.1
  obtain ⟨d, hd, hsame⟩ := sameFold_of_spells hlast hspelled
  rw [hj', Nat.add_sub_cancel, h.getElem?_length] at hd
  obtain rfl : ' ' = d := by simpa using hd
  rw [Text.sameFold_comm] at hsame
  have hspace := (Text.sameFold_iff_eq_of_mem (by decide)).mp hsame
  have hblank := (Text.mem_of_mem_runs (List.mem_of_getLast? hword) (List.mem_of_getLast? hlast)).2
  rw [hspace] at hblank
  exact absurd hblank (by decide)

/-- A literal is accepted by its own text, unless an edge that it asks for is not there. -/
theorem accepts_literal_iff (h : Lowered ([' '].intercalate (Text.words text.toList)) ds s)
    (hne : Text.words text.toList ≠ []) {vars : Bindings} :
    Accepts s vars (.literal text) ↔
      EdgeMet ((Text.words text.toList).head?.bind List.head?) ∧
        EdgeMet ((Text.words text.toList).getLast?.bind List.getLast?) := by
  have hpieces : ∀ word ∈ Text.words text.toList, word ≠ [] := fun _ => Text.ne_nil_of_mem_words
  have hstart : EdgeAt s ((Text.words text.toList).head?.bind List.head?) 0 ↔
      EdgeMet ((Text.words text.toList).head?.bind List.head?) := by
    refine forall₂_congr fun c hc => ?_
    rw [← Text.head?_intercalate hpieces] at hc
    rw [h.isWordEdge_zero hc]
  have hstop : EdgeAt s ((Text.words text.toList).getLast?.bind List.getLast?)
        ([' '].intercalate (Text.words text.toList)).length ↔
      EdgeMet ((Text.words text.toList).getLast?.bind List.getLast?) := by
    refine forall₂_congr fun c hc => ?_
    rw [← Text.getLast?_intercalate hpieces] at hc
    rw [h.isWordEdge_length hc]
  rw [← hstart, ← hstop]
  constructor
  · rintro ⟨i, j, -, hsaid, hj⟩
    obtain ⟨rfl, rfl⟩ := eq_of_says h hne hsaid hj.1
    exact ⟨hsaid.1, hsaid.2.2⟩
  · rintro ⟨hstart, hstop⟩
    refine ⟨0, _, stretch_self _ (Nat.zero_le _),
      ⟨hstart, row_of_spells_intercalate (Nat.zero_le _) h.spells, hstop⟩, ?_⟩
    -- Between the text and the mark there is the space alone.
    have hlt := h.length_lt_size
    have hspace := (Array.getElem?_eq_some_iff.mp h.getElem?_length).2
    show Gap s _ (markAt s)
    rw [h.markAt_eq]
    refine (stretch_succ (Nat.lt_succ_self _) hlt).mpr ⟨?_, stretch_self _ hlt⟩
    rw [hspace]
    decide +kernel

end

section

variable {text : String}

theorem toList_subject_scan (h : Text.words text.toList ≠ []) (n : Nat) :
    (subject (Utterance.scan text n)).toList =
      Text.lowerAfter [] ([' '].intercalate (Text.words text.toList)) ++ ' ' :: endMark := by
  have htext : (Utterance.scan text n).text = String.ofList
      (Text.lowerAfter [] ([' '].intercalate (Text.words text.toList))) := by
    show Text.lowercase (Text.collapse text) = _
    rw [Text.lowercase, Text.collapse, String.toList_ofList]
  have hne : (Utterance.scan text n).text.isEmpty = false := by
    obtain ⟨⟨c, hc⟩, -⟩ := exists_ends_of_words h
    rw [← Text.head?_intercalate fun _ => Text.ne_nil_of_mem_words] at hc
    obtain ⟨cs, hcs⟩ := List.head?_eq_some_iff.mp hc
    rw [htext, hcs, Bool.eq_false_iff, ne_eq, String.isEmpty_iff, ← String.toList_inj,
      String.toList_ofList]
    exact Text.lowerAfter_ne_nil c cs
  rw [subject, if_neg (by rw [hne]; exact Bool.false_ne_true), htext, String.toList_ofList]

/-- A text with an `İ` is not matched by itself: no other character is like it up to case, and lower
case leaves none. -/
theorem not_accepts_of_dottedI (hne : Text.words text.toList ≠ []) (h : 'İ' ∈ text.toList) (n : Nat)
    {vars : Bindings} : ¬Accepts (subject (Utterance.scan text n)) vars (.literal text) := by
  rintro ⟨i, j, -, ⟨-, hrow, -⟩, -⟩
  obtain ⟨word, hword, hmem⟩ : ∃ word ∈ Text.words text.toList, 'İ' ∈ word := by
    rw [← List.mem_flatten, Text.words, Text.flatten_runs]
    exact List.mem_filter.mpr ⟨h, by decide⟩
  obtain ⟨k, l, -, -, hspelled⟩ := exists_of_mem_row (List.mem_map_of_mem hword) hrow
  obtain ⟨d, hd, hsame⟩ := exists_mem_of_forall₂ hspelled hmem
  rw [(Text.sameFold_iff_eq_of_mem (by decide)).mp hsame] at hd
  obtain ⟨m, -, -, hm⟩ := mem_slice_iff.mp hd
  have hsubject := Array.mem_toList_iff.mpr (Array.mem_of_getElem? hm)
  rw [toList_subject_scan hne, List.mem_append] at hsubject
  rcases hsubject with hlower | hmark
  · exact Text.dottedI_notMem_lowerAfter _ _ hlower
  · exact absurd hmark (by decide)

/-- The pattern of a literal is built unless it is too large, and the engine does not give up on
it. -/
theorem completes_literal_iff [Engine] (macros : Macro.Registry) (u : Utterance) (vars : Bindings)
    (text : String) (budget : Nat) :
    Completes (compile macros u (.literal text) vars) u budget ↔
      Engine.fits (compile macros u (.literal text) vars).regex = true := by
  have hstatic : Static (.literal text) := by simp [Static, Expr.nodes, Expr.kind]
  have hregex : (compile macros u (.literal text) vars).regex = anchored (literal text) := rfl
  have hgroup : (Regex.group (literal text)).depth = 1 := congrArg (· + 1) (depth_literal text)
  have hbuildable : (compile macros u (.literal text) vars).regex.buildable = true := by
    refine (buildable_compile_iff macros u hstatic).mpr ⟨?_, by simp [Solid, Expr.nodes, isHollow]⟩
    rw [hregex]
    refine concat_of_forall (P := fun r => r.depth ≤ maxDepth) (Nat.zero_le _)
      (fun ha hb => max_le ha hb) ?_
    simp only [List.forall_mem_cons, List.not_mem_nil, false_implies, implies_true, and_true]
    rw [hgroup]
    decide
  -- The pattern is plain, so that the search never backtracks.
  have hlasts : ¬GivesUp (compile macros u (.literal text) vars).regex (subject u) budget := by
    rintro ⟨hplain, -⟩
    refine Bool.eq_false_iff.mp hplain ?_
    rw [hregex]
    refine concat_of_forall (P := fun r => r.isPlain [] = true) rfl
      (fun ha hb => Bool.and_eq_true_iff.mpr ⟨ha, hb⟩) ?_
    simp only [List.forall_mem_cons, List.not_mem_nil, false_implies, implies_true, and_true]
    exact ⟨rfl, rfl, isPlain_literal text, rfl, rfl, rfl⟩
  rw [Completes, and_iff_left hlasts, builds, Bool.and_eq_true_iff, and_iff_right hbuildable]

/-- The literal of a text that is not blank matches the text, whatever is bound, and binds nothing,
when the lower case of each character is one character, and the text begins and ends with words
wherever the literal asks for their edges, unless it is too large for the engine.  Otherwise it does
not match, whatever the budget. -/
theorem run_verbatim_iff [Engine] (h : ∃ c ∈ text.toList, Text.isBlank c = false)
    (macros : Macro.Registry) (n : Nat) (vars : Bindings) (budget : Nat) (after : Bindings) :
    run macros (Utterance.scan text n) (.literal text) vars budget = some after ↔
      Engine.fits (compile macros (Utterance.scan text n) (.literal text) vars).regex = true ∧
        Verbatim text ∧ after = vars := by
  have hne := Text.words_ne_nil h
  have hstatic : Static (.literal text) := by simp [Static, Expr.nodes, Expr.kind]
  obtain ⟨_, hcompiled, _, _, _, hrun⟩ := run_iff hstatic macros (Utterance.scan text n) vars
  rw [hrun budget after, ← and_assoc, ← completes_literal_iff macros _ vars text budget, Completes,
    hcompiled]
  refine and_congr_right fun _ => and_congr_left fun _ => ?_
  -- Lowering a dotted capital adds a character that the text does not have.
  by_cases hdotted : 'İ' ∈ text.toList
  · exact iff_of_false (not_accepts_of_dottedI hne hdotted n) fun hverbatim =>
      hverbatim.undotted hdotted
  · have hcollapsed : 'İ' ∉ [' '].intercalate (Text.words text.toList) := by
      intro hmem
      rcases Text.mem_of_mem_intercalate hmem with ⟨word, hword, hc⟩ | hspace
      · exact hdotted (Text.mem_of_mem_runs hword hc).1
      · exact absurd hspace (by decide)
    -- Otherwise the utterance is the text, character for character, in lower case.
    have hlowered : Lowered ([' '].intercalate (Text.words text.toList)) _
        (subject (Utterance.scan text n)) :=
      ⟨toList_subject_scan hne n, Text.forall₂_lowerAfter hcollapsed []⟩
    rw [accepts_literal_iff hlowered hne]
    constructor
    · rintro ⟨hstarts, hends⟩
      exact ⟨hdotted, hstarts, hends⟩
    · exact fun hverbatim => ⟨hverbatim.starts, hverbatim.ends⟩

/-- Capitals whose lower case depends on where they stand, spacing, and a numeral inside. -/
theorem run_verbatim_iff_odysseus :
    let text := " ΟΔΥΣΣΕΥΣ (or  Ulysses²)! "
    (∃ c ∈ text.toList, Text.isBlank c = false) ∧ Verbatim text ∧
      run SortedMap.empty (Utterance.scan text 4) (.literal text) known 0 = some known := by
  intro text
  have hblank : ∃ c ∈ text.toList, Text.isBlank c = false :=
    ⟨'Σ', by decide +kernel, by decide +kernel⟩
  have hfirst : (Text.words text.toList).head?.bind List.head? = some 'Ο' := by decide +kernel
  have hlast : (Text.words text.toList).getLast?.bind List.getLast? = some '!' := by decide +kernel
  have hverbatim : Verbatim text := by
    refine ⟨by decide +kernel, ?_, ?_⟩
    · rw [hfirst]
      rintro c ⟨⟩ -
      decide +kernel
    · rw [hlast]
      rintro c ⟨⟩ hedge
      exact absurd hedge (by decide +kernel)
  exact ⟨hblank, hverbatim,
    (run_verbatim_iff hblank SortedMap.empty 4 known 0 known).mpr ⟨rfl, hverbatim, rfl⟩⟩

/-- A numeral at which an edge is asked for, though no word is there, and a character whose lower
case is two. -/
theorem run_verbatim_misses :
    run SortedMap.empty (Utterance.scan "²" 4) (.literal "²") .empty 1000000 = none ∧
      run SortedMap.empty (Utterance.scan "İ" 4) (.literal "İ") .empty 1000000 = none := by
  decide +kernel

end

end Colloquy.Matching
