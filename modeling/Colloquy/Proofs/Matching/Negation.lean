import Mathlib
import Colloquy.Proofs.Expr.Kinds
import Colloquy.Proofs.Matching.Alternatives
import Colloquy.Proofs.Text.Words

/-!
# What a negation excludes

A negation looks for its body from where it starts to the end of the subject.  At the outside of a
pattern it can start behind the punctuation that the subject begins with, and its look takes in the
mark at the end; so it matches when the body occurs nowhere from the first word on, mark included
(`accepts_negation_iff`).  The flexible sequence of the body matches when the body occurs anywhere
in front of the mark (`accepts_flexible_iff`).

For expressions whose literals begin with words, and do not end like the mark, the two are
complements of each other (`negation_iff`): what they match can be moved into the text from the
first word to the mark, as `clamp` does with positions (`clamps_means`).

Inside a conjunction a negated word excludes nothing, as the item may start at the very end
(`conjunction_negation_iff`).
-/

namespace Colloquy.Matching

open Regex
open Relation (Comp ReflTransGen)

/-! ### Positions in a subject -/

/-- Where the first word begins. -/
def lead (s : Subject) : Nat :=
  s.findIdx Text.isWordChar

/-- Where the mark begins. -/
def markAt (s : Subject) : Nat :=
  s.size - endMark.length

/-- A character of a stretch stands at one of its positions. -/
theorem mem_slice_iff {s : Subject} {i j : Nat} {c : Char} :
    c ∈ slice s i j ↔ ∃ k, i ≤ k ∧ k < j ∧ s[k]? = some c := by
  rw [slice, Array.mem_toList_iff, Array.mem_extract_iff_getElem]
  constructor
  · rintro ⟨k, hk, rfl⟩
    exact ⟨i + k, Nat.le_add_right _ _, by omega, Array.getElem?_eq_getElem (by omega)⟩
  · rintro ⟨k, hik, hkj, hk⟩
    obtain ⟨hlt, rfl⟩ := Array.getElem?_eq_some_iff.mp hk
    exact ⟨k - i, by omega, by simp only [Nat.add_sub_cancel' hik]⟩

/-- Any part of a stretch that passes does. -/
theorem stretch_within {s : Subject} {test : Char → Bool} {i i' j j' : Nat}
    (h : Stretch s test i j) (hi : i ≤ i') (hij : i' ≤ j') (hj : j' ≤ j) :
    Stretch s test i' j' := by
  refine ⟨hij, hj.trans h.2.1, fun c hc => h.2.2 c ?_⟩
  obtain ⟨k, hik, hkj, hk⟩ := mem_slice_iff.mp hc
  exact mem_slice_iff.mpr ⟨k, hi.trans hik, hkj.trans_le hj, hk⟩

/-- There is no word character before the first word. -/
theorem wordAt_of_lt_lead {s : Subject} {k : Nat} (h : k < lead s) : wordAt s k = false := by
  have hlt : k < s.size := h.trans_le Array.findIdx_le_size
  rw [wordAt, Array.getElem?_eq_getElem hlt]
  exact Array.not_of_lt_findIdx h

/-- The gap at the beginning may be left anywhere up to the first word. -/
theorem gap_zero_iff {s : Subject} (hs : lead s < s.size) {i : Nat} :
    Gap s 0 i ↔ i ≤ lead s := by
  constructor
  · rintro ⟨-, -, hgap⟩
    -- A gap beyond the beginning of the first word would take in a word character.
    by_contra! hlt
    have hmem : s[lead s] ∈ slice s 0 i :=
      mem_slice_iff.mpr ⟨lead s, Nat.zero_le _, hlt, Array.getElem?_eq_getElem hs⟩
    have hword : Text.isWordChar s[lead s] = true := Array.findIdx_getElem
    simpa [hword] using hgap _ hmem
  · intro hi
    refine ⟨Nat.zero_le _, hi.trans hs.le, fun c hc => ?_⟩
    obtain ⟨k, -, hk, hget⟩ := mem_slice_iff.mp hc
    have hword := wordAt_of_lt_lead (hk.trans_le hi)
    rw [wordAt, hget] at hword
    simpa using hword

/-- The mark is a word. -/
theorem isWordChar_endMark : ∀ c ∈ endMark, Text.isWordChar c = true := by
  have hmark : endMark = ['_', 'E', 'N', 'D', '_'] := rfl
  simp only [hmark, List.forall_mem_cons, List.not_mem_nil, false_implies, implies_true, and_true]
  decide +kernel

section

variable (u : Utterance)

/-- The mark is spelled from where it begins. -/
theorem getElem?_markAt_add (k : Nat) : (subject u)[markAt (subject u) + k]? = endMark[k]? := by
  obtain ⟨cs, hcs⟩ := exists_subject_eq u
  have hmark : markAt (subject u) = cs.length := by
    rw [markAt, ← Array.length_toList, hcs, List.length_append, Nat.add_sub_cancel]
  rw [← Array.getElem?_toList, hcs, hmark, List.getElem?_append_right (Nat.le_add_right _ _),
    Nat.add_sub_cancel_left]

/-- It is the end of the subject. -/
theorem markAt_add_length : markAt (subject u) + endMark.length = (subject u).size := by
  obtain ⟨cs, hcs⟩ := exists_subject_eq u
  rw [markAt, ← Array.length_toList, hcs, List.length_append, Nat.add_sub_cancel]

/-- So it begins within the subject. -/
theorem markAt_lt_size : markAt (subject u) < (subject u).size := by
  rw [← markAt_add_length u]
  exact Nat.lt_add_of_pos_right (by decide)

/-- The mark is a word. -/
theorem wordAt_mark {k : Nat} (hk : markAt (subject u) ≤ k) (hlt : k < (subject u).size) :
    wordAt (subject u) k = true := by
  obtain ⟨d, rfl⟩ := Nat.exists_eq_add_of_le hk
  have hd : d < endMark.length := by
    rw [← markAt_add_length u] at hlt
    exact Nat.lt_of_add_lt_add_left hlt
  rw [wordAt, getElem?_markAt_add, List.getElem?_eq_getElem hd]
  exact isWordChar_endMark _ (List.getElem_mem hd)

/-- The first word begins at the mark at the latest. -/
theorem lead_le_markAt : lead (subject u) ≤ markAt (subject u) := by
  by_contra! hlt
  have hnone := wordAt_of_lt_lead hlt
  rw [wordAt_mark u le_rfl (markAt_lt_size u)] at hnone
  cases hnone

/-- There is always a first word: at least the mark is one. -/
theorem lead_lt_size : lead (subject u) < (subject u).size :=
  (lead_le_markAt u).trans_lt (markAt_lt_size u)

end

/-- No word has an edge in front of the first one. -/
theorem lead_le_of_isWordEdge {s : Subject} {i : Nat} (h : isWordEdge s i = true) : lead s ≤ i := by
  by_contra! hlt
  have hbefore : wordAt s (i - 1) = false := wordAt_of_lt_lead (by omega)
  rw [isWordEdge, wordAt_of_lt_lead hlt, hbefore, Bool.and_false] at h
  cases h

/-- No word has an edge inside the mark. -/
theorem le_markAt_of_isWordEdge (u : Utterance) {i : Nat} (h : isWordEdge (subject u) i = true)
    (hlt : i < (subject u).size) : i ≤ markAt (subject u) := by
  by_contra! hmark
  have hbefore : wordAt (subject u) (i - 1) = true := wordAt_mark u (by omega) (by omega)
  have hne : i ≠ 0 := by omega
  rw [isWordEdge, wordAt_mark u hmark.le hlt, hbefore] at h
  simp [hne] at h

/-! ### Moving into the text -/

/-- The position in the text, from the first word to the mark, that is closest. -/
def clamp (s : Subject) (i : Nat) : Nat :=
  max (lead s) (min i (markAt s))

/-- What the relation relates, it relates still when both ends are moved into the text. -/
def Clamps (s : Subject) (R : Nat → Nat → Prop) : Prop :=
  ∀ i j, R i j → R (clamp s i) (clamp s j)

section

variable {s : Subject} {i j : Nat} {R Q gap : Nat → Nat → Prop}

/-- A position is moved behind where the first word begins. -/
theorem lead_le_clamp : lead s ≤ clamp s i := le_max_left _ _

/-- Moving positions into the text keeps their order. -/
theorem clamp_mono (h : i ≤ j) : clamp s i ≤ clamp s j :=
  max_le_max_left _ (min_le_min_right _ h)

/-- Positions in the text stay. -/
theorem clamp_eq_self (hi : lead s ≤ i) (hi' : i ≤ markAt s) : clamp s i = i := by
  rw [clamp, min_eq_left hi', max_eq_right hi]

/-- A position is moved before the mark. -/
theorem clamp_le_markAt (hs : lead s ≤ markAt s) : clamp s i ≤ markAt s :=
  max_le hs (min_le_right _ _)

/-- A position is moved into the subject. -/
theorem clamp_le_size (hs : lead s ≤ markAt s) : clamp s i ≤ s.size :=
  (clamp_le_markAt hs).trans (Nat.sub_le _ _)

/-- A stretch that passes still does when it is cut down to the text. -/
theorem clamps_stretch (hs : lead s ≤ markAt s) (test : Char → Bool) :
    Clamps s (Stretch s test) := by
  intro i j h
  rcases (clamp_mono h.1).eq_or_lt with heq | hlt
  · rw [heq]
    exact stretch_self test (clamp_le_size hs)
  · -- What is left of the stretch lies inside it.
    refine stretch_within h ?_ hlt.le ?_ <;> simp only [clamp] at * <;> omega

/-- A filler is cut down to the text. -/
theorem clamps_filler (hs : lead s ≤ markAt s) : Clamps s (Filler s) :=
  fun _ _ h => ⟨clamp_mono h.1, clamp_le_size hs⟩

/-- A position is moved to one place. -/
theorem clamps_eq : Clamps s Eq := by
  rintro i _ rfl
  rfl

/-- One after the other, such relations can be moved into the text. -/
theorem Clamps.comp (hR : Clamps s R) (hQ : Clamps s Q) : Clamps s (Comp R Q) := by
  rintro i j ⟨k, hik, hkj⟩
  exact ⟨clamp s k, hR i k hik, hQ k j hkj⟩

/-- So can alternatives. -/
theorem Clamps.or (hR : Clamps s R) (hQ : Clamps s Q) : Clamps s fun i j => R i j ∨ Q i j :=
  fun i j h => h.imp (hR i j) (hQ i j)

/-- So can any number of rounds. -/
theorem Clamps.reflTransGen (hR : Clamps s R) : Clamps s (ReflTransGen R) :=
  fun _ _ h => h.lift (clamp s) hR

/-- So can a repetition with its gaps. -/
theorem Clamps.onceOrMore (hs : lead s ≤ markAt s) (hR : Clamps s R) :
    Clamps s (OnceOrMore s R) :=
  hR.comp ((clamps_stretch hs _).comp hR).reflTransGen

/-- What occurs from a position occurs from where it is moved to. -/
theorem Clamps.occurs (hs : lead s ≤ markAt s) (hR : Clamps s R) (h : Occurs s R i) :
    Occurs s R (clamp s i) := by
  obtain ⟨k, hik, j, hkj⟩ := h
  exact ⟨clamp s k, clamps_filler hs i k hik, clamp s j, hR k j hkj⟩

/-- A row can be moved into the text if its members and what stands between them can. -/
theorem clamps_row {Rs : List (Nat → Nat → Prop)} (hgap : Clamps s gap)
    (hRs : ∀ R ∈ Rs, Clamps s R) : Clamps s (row gap Rs) := by
  match Rs with
  | [] => exact clamps_eq
  | [R] => exact hRs R List.mem_cons_self
  | R :: Q :: Rs =>
    rw [List.forall_mem_cons] at hRs
    exact hRs.1.comp (hgap.comp (clamps_row hgap hRs.2))

end

/-! ### Literals that begin with words -/

/-- The text is blank, or begins with a word and does not end like the mark: its last character is
not in the mark, or it asks for the edge of a word and is not at the end of the mark. -/
def isVerbal (text : String) : Bool :=
  let words := Text.words text.toList
  (words.head?.bind List.head?).all isEdgeChar &&
    (words.getLast?.bind List.getLast?).all fun c =>
      !Text.sameFold c '_' && (isEdgeChar c || endMark.all fun d => !Text.sameFold c d)

/-- A text with words has a first character and a last one. -/
theorem exists_ends_of_words {cs : List Char} (h : Text.words cs ≠ []) :
    (∃ c, (Text.words cs).head?.bind List.head? = some c) ∧
      ∃ word c, (Text.words cs).getLast? = some word ∧ word.getLast? = some c := by
  have hfirst := Text.ne_nil_of_mem_words (List.head_mem h)
  have hlast := Text.ne_nil_of_mem_words (List.getLast_mem h)
  refine ⟨⟨((Text.words cs).head h).head hfirst, ?_⟩, (Text.words cs).getLast h,
    ((Text.words cs).getLast h).getLast hlast, List.getLast?_eq_some_getLast h,
    List.getLast?_eq_some_getLast hlast⟩
  rw [List.head?_eq_some_head h, Option.bind_some]
  exact List.head?_eq_some_head hfirst

section

variable {s : Subject} {i j : Nat} {gap : Nat → Nat → Prop}

/-- A row leads forwards. -/
theorem row_le {Rs : List (Nat → Nat → Prop)} {i j : Nat} (hgap : ∀ i j, gap i j → i ≤ j)
    (hRs : ∀ R ∈ Rs, ∀ i j, R i j → i ≤ j) (h : row gap Rs i j) : i ≤ j := by
  match Rs with
  | [] => exact Nat.le_of_eq h
  | [R] => exact hRs R List.mem_cons_self i j h
  | R :: Q :: Rs =>
    rw [List.forall_mem_cons] at hRs
    obtain ⟨k, hik, l, hkl, hlj⟩ := h
    exact (hRs.1 i k hik).trans ((hgap k l hkl).trans (row_le hgap hRs.2 hlj))

/-- The last relation of a row leads to its end. -/
theorem exists_last_of_row {Rs : List (Nat → Nat → Prop)} {R : Nat → Nat → Prop} {i j : Nat}
    (hR : R ∈ Rs.getLast?) (h : row gap Rs i j) : ∃ k, R k j := by
  match Rs with
  | [] => cases hR
  | [Q] =>
    obtain rfl : Q = R := by simpa using hR
    exact ⟨i, h⟩
  -- The last member is that of the tail.
  | Q :: P :: Rs =>
    obtain ⟨_, _, l, _, hlj⟩ := h
    exact exists_last_of_row (by simpa using hR) hlj

/-- Characters that are the same one by one have the same last one. -/
theorem exists_getLast_of_forall₂ {r : Char → Char → Prop} {cs ds : List Char} {c : Char}
    (h : List.Forall₂ r cs ds) (hc : c ∈ cs.getLast?) : ∃ d ∈ ds.getLast?, r c d := by
  induction h with
  | nil => cases hc
  | @cons a b cs ds hab h ih =>
    cases h with
    | nil =>
      obtain rfl : a = c := by simpa using hc
      exact ⟨b, rfl, hab⟩
    | cons _ _ =>
      rw [List.getLast?_cons_cons] at hc ⊢
      exact ih hc

/-- What is spelled ends with the last character of the word. -/
theorem sameFold_of_spells {word : List Char} {c : Char} (hc : c ∈ word.getLast?)
    (h : Spells s word i j) : ∃ d, s[j - 1]? = some d ∧ Text.sameFold c d = true := by
  obtain ⟨-, hj, hspelled⟩ := h
  obtain ⟨d, hd, hcd⟩ := exists_getLast_of_forall₂ hspelled hc
  have hlt : i < j := by
    have hlength := hspelled.length_eq
    rw [length_slice hj] at hlength
    have hpos : 0 < word.length := List.length_pos_of_mem (List.mem_of_getLast? hc)
    omega
  -- The word ends where the stretch does, so its last character is compared with the one before
  -- `j`.
  have hindex : i + (j - i - 1) = j - 1 := by omega
  rw [Option.mem_def, List.getLast?_eq_getElem?, length_slice hj, slice, Array.getElem?_toList,
    Array.getElem?_extract, if_pos (by omega), hindex] at hd
  exact ⟨d, hd, hcd⟩

/-- Saying something leads forwards. -/
theorem says_le {text : String} (h : Says s text i j) : i ≤ j := by
  refine row_le (fun i j h => h.1.le) (fun R hR => ?_) h.2.1
  obtain ⟨word, _, rfl⟩ := List.mem_map.mp hR
  exact fun i j h => h.1

/-- A verbal text is said between the first word and the mark, or it is blank. -/
theorem says_within {u : Utterance} {text : String} (hverbal : isVerbal text = true)
    (hne : Text.words text.toList ≠ []) (h : Says (subject u) text i j) :
    lead (subject u) ≤ i ∧ j ≤ markAt (subject u) := by
  obtain ⟨hstart, hrow, hstop⟩ := h
  obtain ⟨⟨first, hfirst⟩, word, last, hword, hlast⟩ := exists_ends_of_words hne
  have hlast' : (Text.words text.toList).getLast?.bind List.getLast? = some last := by
    rw [hword, Option.bind_some, hlast]
  simp only [isVerbal, hfirst, hlast', Option.all_some, Bool.and_eq_true, Bool.or_eq_true,
    Bool.not_eq_true', List.all_eq_true] at hverbal
  obtain ⟨hedge, hunder, hends⟩ := hverbal
  refine ⟨lead_le_of_isWordEdge (hstart first hfirst hedge), ?_⟩
  obtain ⟨k, hspelled⟩ := exists_last_of_row (by rw [List.getLast?_map, hword]; rfl) hrow
  obtain ⟨d, hd, hsame⟩ := sameFold_of_spells hlast hspelled
  by_contra! hmark
  -- The last character lies in the mark.
  obtain ⟨t, ht⟩ := Nat.exists_eq_add_of_le (Nat.le_sub_one_of_lt hmark)
  rw [ht, getElem?_markAt_add] at hd
  rcases hends with hword | hnone
  · have hsize : j = (subject u).size := hspelled.2.1.eq_or_lt.resolve_right fun hlt =>
      hmark.not_ge (le_markAt_of_isWordEdge u (hstop last hlast' hword) hlt)
    have hlength := markAt_add_length u
    have ht' : t = endMark.length - 1 := by omega
    have hend : endMark[endMark.length - 1]? = some '_' := rfl
    rw [ht', hend] at hd
    obtain rfl : '_' = d := by simpa using hd
    rw [hunder] at hsame
    cases hsame
  · rw [hnone d (List.mem_of_getElem? hd)] at hsame
    cases hsame

/-- What a verbal text says stands in the text already, so that nothing moves. -/
theorem clamps_says {u : Utterance} {text : String} (hverbal : isVerbal text = true) :
    Clamps (subject u) (Says (subject u) text) := by
  intro i j h
  by_cases hblank : Text.words text.toList = []
  · have hsaid : Says (subject u) text = Eq := by
      funext i j
      simp [Says, hblank, EdgeAt, row]
    rw [hsaid] at h ⊢
    rw [h]
  · obtain ⟨hi, hj⟩ := says_within hverbal hblank h
    -- Both ends are in the text, by the words that the text begins and ends with.
    have hij := says_le h
    rwa [clamp_eq_self hi (hij.trans hj), clamp_eq_self (hi.trans hij) hj]

end

/-! ### Verbal expressions -/

/-- The node is a verbal literal, or puts together what other nodes ask for. -/
def isVerbalNode : Expr → Bool
  | .literal text => isVerbal text
  | .flexible _ | .rigid _ | .conjunction _ | .disjunction _ | .optional _ | .star _ | .plus _ =>
    true
  | .negation _ | .raw _ | .reference _ | .assignment .. | .call .. => false

/-- The expression is put together from verbal literals alone, without a negation. -/
def Verbal (e : Expr) : Prop :=
  ∀ n ∈ e.nodes, isVerbalNode n = true

instance (e : Expr) : Decidable (Verbal e) :=
  inferInstanceAs (Decidable (∀ n ∈ e.nodes, _))

section

variable {u : Utterance} (vars : Bindings)

mutual

/-- What a verbal expression matches can be moved into the text. -/
theorem clamps_means (e : Expr) (h : Verbal e) :
    Clamps (subject u) (Means (subject u) vars e) := by
  have hs := lead_le_markAt u
  match e with
  | .literal text => exact clamps_says (h _ (.head _))
  | .flexible items =>
    have hitems := clamps_meanings items fun n hn => h n (.tail _ hn)
    exact (clamps_filler hs).comp ((clamps_row (clamps_filler hs) hitems).comp (clamps_filler hs))
  | .rigid items =>
    exact clamps_row (clamps_stretch hs _) (clamps_meanings items fun n hn => h n (.tail _ hn))
  | .conjunction items =>
    have hitems := clamps_meanings items fun n hn => h n (.tail _ hn)
    exact fun i j hij =>
      ⟨fun R hR => (hitems R hR).occurs hs (hij.1 R hR), clamps_filler hs i j hij.2⟩
  | .disjunction items =>
    have hitems := clamps_meanings items fun n hn => h n (.tail _ hn)
    exact fun i j ⟨R, hR, hij⟩ => ⟨R, hR, hitems R hR i j hij⟩
  | .optional body => exact clamps_eq.or (clamps_means body fun n hn => h n (.tail _ hn))
  | .star body =>
    exact clamps_eq.or ((clamps_means body fun n hn => h n (.tail _ hn)).onceOrMore hs)
  | .plus body => exact (clamps_means body fun n hn => h n (.tail _ hn)).onceOrMore hs
  -- The rest is not verbal.
  | .negation _ | .raw _ | .reference _ | .assignment .. | .call .. => cases h _ (.head _)

/-- Item by item, what verbal expressions mean can be moved into the text. -/
theorem clamps_meanings (es : List Expr) (h : ∀ n ∈ Expr.nodesOf es, isVerbalNode n = true) :
    ∀ R ∈ meanings (subject u) vars es, Clamps (subject u) R := by
  match es with
  | [] => exact fun _ hR => nomatch hR
  | e :: es =>
    rw [Expr.nodesOf, List.forall_mem_append] at h
    rw [meanings, List.forall_mem_cons]
    exact ⟨clamps_means e h.1, clamps_meanings es h.2⟩

end

end

/-! ### What static expressions accept -/

section

variable {macros : Macro.Registry} {u : Utterance} {vars : Bindings} {budget : Nat} {e : Expr}

/-- A static pattern that completes matches when the expression accepts the subject. -/
theorem isSome_run_iff_accepts [Engine] (h : Static e)
    (hcompletes : Completes (compile macros u e vars) u budget) :
    (run macros u e vars budget).isSome = true ↔ Accepts (subject u) vars e := by
  obtain ⟨root, hrun, hroot⟩ := fragment_eq macros u e h ⟨vars, [], [], 0⟩ rfl
  have hregex : (compile macros u e vars).regex = anchored root := by rw [compile, hrun]
  have hlifts : Lifts (Spans (subject u) (anchored root))
      (Ways (subject u) (anchored root).references (anchored root)) := by
    rw [(written_anchored hroot.written).references_eq_nil]
    exact lifts_ways (written_anchored hroot.written).references_eq_nil fun _ _ => List.not_mem_nil
  rw [isSome_run_iff (fun n hn => (h n hn).1) hcompletes, hregex, hlifts.exists_iff .start]
  exact spans_anchored u (hroot.agree (subject u))

/-- No meaning leads backwards, or out of the subject. -/
theorem advances_means (h : Static e) (u : Utterance) (vars : Bindings) :
    Advances (subject u).size (Means (subject u) vars e) := by
  obtain ⟨r, -, hr⟩ := fragment_eq SortedMap.empty u e h ⟨vars, [], [], 0⟩ rfl
  exact fun i j hi hij => advances_spans r i j hi ((hr.agree (subject u) i hi j).mpr hij)

/-- What occurs from a position occurs from any earlier one. -/
theorem Occurs.mono {s : Subject} {R : Nat → Nat → Prop} {i j : Nat} (h : Occurs s R j)
    (hij : i ≤ j) : Occurs s R i := by
  obtain ⟨k, hk, hfound⟩ := h
  exact ⟨k, ⟨hij.trans hk.1, hk.2⟩, hfound⟩

/-- A negation accepts a subject when its body does not occur from the first word on. -/
theorem accepts_negation_iff :
    Accepts (subject u) vars (.negation e) ↔
      ¬Occurs (subject u) (Means (subject u) vars e) (lead (subject u)) := by
  constructor
  · -- From an earlier position there is only more to be found.
    rintro ⟨i, j, hi, ⟨hnone, -⟩, -⟩ hoccurs
    exact hnone (hoccurs.mono ((gap_zero_iff (lead_lt_size u)).mp hi))
  · intro hnone
    exact ⟨lead (subject u), markAt (subject u), (gap_zero_iff (lead_lt_size u)).mpr le_rfl,
      ⟨hnone, lead_le_markAt u, (markAt_lt_size u).le⟩, stretch_self _ (markAt_lt_size u).le⟩

/-- The flexible sequence of an expression alone accepts a subject when the expression occurs in
front of the mark. -/
theorem accepts_flexible_iff (h : Static e) :
    Accepts (subject u) vars (.flexible [e]) ↔
      ∃ i j, i ≤ j ∧ j ≤ markAt (subject u) ∧ Means (subject u) vars e i j := by
  constructor
  · rintro ⟨_, _, -, ⟨i, hi, j, hij, hj⟩, hgap⟩
    exact ⟨i, j, (advances_means h u vars i j hi.2 hij).1, hj.1.trans hgap.1, hij⟩
  · rintro ⟨i, j, hle, hj, hij⟩
    have hsize := (markAt_lt_size u).le
    -- The fillers take in whatever stands before and behind.
    exact ⟨0, markAt (subject u), stretch_self _ (Nat.zero_le _),
      ⟨i, ⟨Nat.zero_le i, (hle.trans hj).trans hsize⟩, j, hij, hj, hsize⟩, stretch_self _ hsize⟩

/-- A verbal expression that occurs from the first word on occurs in front of the mark. -/
theorem Verbal.occurs_iff (h : Verbal e) (hstatic : Static e) :
    Occurs (subject u) (Means (subject u) vars e) (lead (subject u)) ↔
      ∃ i j, i ≤ j ∧ j ≤ markAt (subject u) ∧ Means (subject u) vars e i j := by
  have hs := lead_le_markAt u
  constructor
  · rintro ⟨i, hi, j, hij⟩
    exact ⟨clamp (subject u) i, clamp (subject u) j,
      clamp_mono (advances_means hstatic u vars i j hi.2 hij).1, clamp_le_markAt hs,
      clamps_means vars e h i j hij⟩
  · rintro ⟨i, j, -, -, hij⟩
    exact ⟨clamp (subject u) i, ⟨lead_le_clamp, clamp_le_size hs⟩, clamp (subject u) j,
      clamps_means vars e h i j hij⟩

/-- A negation matches when its body occurs nowhere from the first word to the end, the mark
included; the flexible sequence of the body matches when the body occurs anywhere in front of the
mark.  When all literals of the body begin with words and do not end like the mark, one matches
exactly when the other does not. -/
theorem negation_iff [Engine] (h : Static e)
    (hnegation : Completes (compile macros u (.negation e) vars) u budget)
    (hflexible : Completes (compile macros u (.flexible [e]) vars) u budget) :
    ((run macros u (.negation e) vars budget).isSome = true ↔
      ¬Occurs (subject u) (Means (subject u) vars e) (lead (subject u))) ∧
    ((run macros u (.flexible [e]) vars budget).isSome = true ↔
      ∃ i j, i ≤ j ∧ j ≤ markAt (subject u) ∧ Means (subject u) vars e i j) ∧
    (Verbal e → ((run macros u (.negation e) vars budget).isSome = true ↔
      ¬(run macros u (.flexible [e]) vars budget).isSome = true)) := by
  have hstatic_negation : Static (.negation e) := by
    simpa [Static, Expr.nodes, Expr.kind] using h
  have hstatic_flexible : Static (.flexible [e]) := by
    simpa [Static, Expr.nodes, Expr.nodesOf, Expr.kind] using h
  rw [isSome_run_iff_accepts hstatic_negation hnegation,
    isSome_run_iff_accepts hstatic_flexible hflexible, accepts_negation_iff,
    accepts_flexible_iff h]
  exact ⟨Iff.rfl, Iff.rfl, fun hverbal => not_congr (hverbal.occurs_iff h)⟩

/-- A complaint. -/
def complaint : Expr :=
  .rigid [.disjunction [.literal "too", .literal "so very"], .plus (.literal "bad!")]

/-- An utterance that complains is not matched by the negation of the complaint. -/
theorem negation_iff_complaint :
    let u := Utterance.scan "Oh, this is so  very Bad! BAD!" 4
    Static complaint ∧ Completes (compile SortedMap.empty u (.negation complaint) .empty) u 1000 ∧
      Completes (compile SortedMap.empty u (.flexible [complaint]) .empty) u 1000 ∧ Verbal complaint ∧
      ¬(run SortedMap.empty u (.negation complaint) .empty 1000).isSome = true := by
  intro u
  have hstatic : Static complaint := by decide
  have hnegation : Completes (compile SortedMap.empty u (.negation complaint) .empty) u 1000 := by
    decide +kernel
  have hflexible : Completes (compile SortedMap.empty u (.flexible [complaint]) .empty) u 1000 := by
    decide +kernel
  have hverbal : Verbal complaint := by decide +kernel
  have hmatch : (run SortedMap.empty u (.flexible [complaint]) .empty 1000).isSome = true := by
    decide +kernel
  exact ⟨hstatic, hnegation, hflexible, hverbal, fun hmatch' =>
    ((negation_iff hstatic hnegation hflexible).2.2 hverbal).mp hmatch' hmatch⟩

/-- Punctuation at the beginning can be left outside a negation: a comma there is matched by the
negation of a comma.  And the mark is looked at: its text is not matched by the negation, though it
occurs nowhere in the utterance. -/
theorem negation_misses :
    let comma := Utterance.scan ", hello" 4
    let hello := Utterance.scan "hello" 4
    Completes (compile SortedMap.empty comma (.negation (.literal ",")) .empty) comma 1000 ∧
      Completes (compile SortedMap.empty comma (.flexible [.literal ","]) .empty) comma 1000 ∧
      (run SortedMap.empty comma (.negation (.literal ",")) .empty 1000).isSome = true ∧
      (run SortedMap.empty comma (.flexible [.literal ","]) .empty 1000).isSome = true ∧
      Completes (compile SortedMap.empty hello (.negation (.literal "_END_")) .empty) hello 1000 ∧
      Completes (compile SortedMap.empty hello (.flexible [.literal "_END_"]) .empty) hello 1000 ∧
      (run SortedMap.empty hello (.negation (.literal "_END_")) .empty 1000).isSome = false ∧
      (run SortedMap.empty hello (.flexible [.literal "_END_"]) .empty 1000).isSome = false := by
  decide +kernel

/-! ### Negations in a conjunction -/

/-- A conjunction is static if its items are. -/
theorem static_conjunction_iff {es : List Expr} :
    Static (.conjunction es) ↔ ∀ e ∈ es, Static e := by
  simp only [Static, Expr.nodes, Expr.nodesOf_eq_flatMap, List.forall_mem_cons,
    List.forall_mem_flatMap]
  simp [Expr.kind]

/-- Expressions mean what each of them means. -/
theorem meanings_eq_map (s : Subject) (vars : Bindings) (es : List Expr) :
    meanings s vars es = es.map (Means s vars) := by
  induction es with
  | nil => rfl
  | cons e es ih => rw [meanings, ih, List.map_cons]

/-- At the end of the subject there is no word to be said. -/
theorem not_says_size {s : Subject} {text : String} (hne : Text.words text.toList ≠ []) {j : Nat} :
    ¬Says s text s.size j := by
  rintro ⟨-, hrow, -⟩
  cases hwords : Text.words text.toList with
  | nil => exact hne hwords
  | cons word words =>
    have hword : word ≠ [] := Text.ne_nil_of_mem_words (hwords ▸ List.mem_cons_self)
    have hspelled : ∃ k, Spells s word s.size k := by
      rw [hwords, List.map_cons] at hrow
      cases words with
      | nil => exact ⟨j, hrow⟩
      | cons _ _ => exact ⟨_, hrow.choose_spec.1⟩
    -- The first word would be spelled where nothing is left.
    obtain ⟨k, -, hk, hchars⟩ := hspelled
    have hlength := hchars.length_eq
    rw [length_slice hk, Nat.sub_eq_zero_of_le hk] at hlength
    exact hword (List.length_eq_zero_iff.mp hlength)

/-- A negated word is found from every position, at the latest at the end of the subject. -/
theorem occurs_negation {s : Subject} {vars : Bindings} {text : String}
    (hne : Text.words text.toList ≠ []) {i : Nat} (hi : i ≤ s.size) :
    Occurs s (Means s vars (.negation (.literal text))) i := by
  refine ⟨s.size, ⟨hi, le_rfl⟩, s.size, ?_, le_rfl, le_rfl⟩
  rintro ⟨k, ⟨hle, hk⟩, j, hsaid⟩
  obtain rfl : s.size = k := hle.antisymm hk
  exact not_says_size hne hsaid

/-- A conjunction looks for all its items from one place. -/
theorem accepts_conjunction_iff {s : Subject} {vars : Bindings} {es : List Expr} :
    Accepts s vars (.conjunction es) ↔
      ∃ i j, Gap s 0 i ∧ ((∀ e ∈ es, Occurs s (Means s vars e) i) ∧ Filler s i j) ∧
        Gap s j (markAt s) := by
  rw [Accepts]
  simp only [Means, meanings_eq_map, List.forall_mem_map]
  rfl

/-- A negated word in a conjunction excludes nothing: the conjunction matches what it matches
without the item, as the item is looked for from any position on, and at the end of the subject
there is no word any more. -/
theorem conjunction_negation_iff [Engine] {word : String} (hword : Text.words word.toList ≠ [])
    {before after : List Expr} (hitems : ∀ e ∈ before ++ after, Static e)
    (hwith : Completes
      (compile macros u (.conjunction (before ++ .negation (.literal word) :: after)) vars) u budget)
    (hwithout : Completes (compile macros u (.conjunction (before ++ after)) vars) u budget) :
    (run macros u (.conjunction (before ++ .negation (.literal word) :: after)) vars
        budget).isSome = true ↔
      (run macros u (.conjunction (before ++ after)) vars budget).isSome = true := by
  have hstatic : ∀ e ∈ before ++ .negation (.literal word) :: after, Static e := by
    rw [List.forall_mem_append] at hitems ⊢
    exact ⟨hitems.1, List.forall_mem_cons.mpr ⟨by simp [Static, Expr.nodes, Expr.kind], hitems.2⟩⟩
  rw [isSome_run_iff_accepts (static_conjunction_iff.mpr hstatic) hwith,
    isSome_run_iff_accepts (static_conjunction_iff.mpr hitems) hwithout, accepts_conjunction_iff,
    accepts_conjunction_iff]
  refine exists_congr fun i => exists_congr fun j => and_congr_right fun hi =>
    and_congr_left fun _ => and_congr_left fun _ => ?_
  -- From anywhere, the negated word can be passed over by going to the end of the subject.
  rw [List.forall_mem_append, List.forall_mem_cons, List.forall_mem_append]
  exact and_congr_right fun _ => and_iff_right (occurs_negation hword hi.2.1)

/-- A negated word beside another item: the conjunction matches an utterance that has both words. -/
theorem conjunction_negation_iff_bad :
    let u := Utterance.scan "this is bad" 4
    Text.words "bad".toList ≠ [] ∧ (∀ e ∈ ([] : List Expr) ++ [.literal "this"], Static e) ∧
      (run SortedMap.empty u (.conjunction [.negation (.literal "bad"), .literal "this"]) .empty
        1000).isSome = true := by
  intro u
  have hword : Text.words "bad".toList ≠ [] := by decide +kernel
  have hitems : ∀ e ∈ ([] : List Expr) ++ [.literal "this"], Static e := by decide
  exact ⟨hword, hitems, (conjunction_negation_iff hword hitems (by decide +kernel)
    (by decide +kernel)).mpr (by decide +kernel)⟩

/-- The conjunction of a negated word and another item matches, and the word itself matches too. -/
theorem conjunction_keeps_negated :
    let u := Utterance.scan "this is bad" 4
    (run SortedMap.empty u (.conjunction [.negation (.literal "bad"), .literal "this"]) .empty
        1000).isSome = true ∧
      (run SortedMap.empty u (.flexible [.literal "bad"]) .empty 1000).isSome = true := by
  decide +kernel

end

end Colloquy.Matching
