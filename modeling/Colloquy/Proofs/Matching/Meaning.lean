import Mathlib
import Colloquy.Matching.Pattern
import Colloquy.Proofs.Regex.Spans

/-!
# What a matching expression means

`Means s vars e i j` says that the text of the subject `s` from position `i` up to position `j` is
what the expression asks for, under the bindings.  It is put together from the relations of the
parts as matching expressions are explained: a literal is its words, up to case and spacing, at the
edges of words; a rigid sequence composes through punctuation and blanks, a flexible one through any
text; a repetition is a closure; a conjunction and a negation ask what occurs from here on.

Each way of putting fragments together is shown to span what it stands for: `agree_rigid`,
`agree_flexible`, and so on.  They say nothing of how the fragments came about.
-/

namespace Colloquy.Matching

open Regex
open Relation (Comp ReflTransGen)

variable {s : Subject} {i j : Nat}

/-! ### Relations on positions -/

/-- Any text. -/
def Filler (s : Subject) (i j : Nat) : Prop :=
  i ≤ j ∧ j ≤ s.size

/-- Nothing but punctuation and blanks. -/
def Gap (s : Subject) : Nat → Nat → Prop :=
  Stretch s fun c => !Text.isWordChar c

/-- Blanks, at least one. -/
def Blanks (s : Subject) (i j : Nat) : Prop :=
  i < j ∧ Stretch s Text.isBlank i j

/-- The relations one after the other, with a gap between each two. -/
def row (gap : Nat → Nat → Prop) : List (Nat → Nat → Prop) → Nat → Nat → Prop
  | [] => Eq
  | [R] => R
  | R :: Rs => Comp R (Comp gap (row gap Rs))

/-- The relation leads somewhere from here or from further on. -/
def Occurs (s : Subject) (R : Nat → Nat → Prop) (i : Nat) : Prop :=
  ∃ k, Filler s i k ∧ ∃ j, R k j

/-- A word has its edge at the position, if the character there asks for it. -/
def EdgeAt (s : Subject) (c : Option Char) (i : Nat) : Prop :=
  ∀ d ∈ c, isEdgeChar d = true → isWordEdge s i = true

/-- The words of a text in order, up to case, any blanks apart, and with edges of words at both ends
where the text begins or ends with an alphanumeric character or an underscore. -/
def Says (s : Subject) (text : String) (i j : Nat) : Prop :=
  let words := Text.words text.toList
  EdgeAt s (words.head?.bind List.head?) i ∧ row (Blanks s) (words.map (Spells s)) i j ∧
    EdgeAt s (words.getLast?.bind List.getLast?) j

/-- One round, and any number of others after gaps. -/
def OnceOrMore (s : Subject) (R : Nat → Nat → Prop) : Nat → Nat → Prop :=
  Comp R (ReflTransGen (Comp (Gap s) R))

/-! ### Meaning -/

variable (vars : Bindings) (s)

mutual

/-- What the expression asks for, from one position to another. -/
def Means : Expr → Nat → Nat → Prop
  | .literal text => Says s text
  | .reference name => fun i j => ∃ value, vars.get? name = some value ∧ Says s value i j
  | .rigid items => row (Gap s) (meanings items)
  | .flexible items => Comp (Filler s) (Comp (row (Filler s) (meanings items)) (Filler s))
  | .conjunction items => fun i j => (∀ R ∈ meanings items, Occurs s R i) ∧ Filler s i j
  | .disjunction items => fun i j => ∃ R ∈ meanings items, R i j
  | .optional body => fun i j => i = j ∨ Means body i j
  | .star body => fun i j => i = j ∨ OnceOrMore s (Means body) i j
  | .plus body => OnceOrMore s (Means body)
  | .negation body => fun i j => ¬Occurs s (Means body) i ∧ Filler s i j
  | .raw _ | .assignment .. | .call .. => fun _ _ => False

/-- What several expressions ask for. -/
def meanings : List Expr → List (Nat → Nat → Prop)
  | [] => []
  | e :: es => Means e :: meanings es

end

/-! ### Fragments -/

variable {vars s} {R Q gap : Nat → Nat → Prop}

/-- In a sequence, each part may be replaced by what it agrees with. -/
theorem agree_comp {R' Q' : Nat → Nat → Prop} (hR : Agree s.size R R') (h : Advances s.size R)
    (hQ : Agree s.size Q Q') : Agree s.size (Comp R Q) (Comp R' Q') := by
  intro i hi j
  constructor
  · rintro ⟨k, hik, hkj⟩
    exact ⟨k, (hR i hi k).mp hik, (hQ k (h i k hi hik).2 j).mp hkj⟩
  · rintro ⟨k, hik, hkj⟩
    have hik := (hR i hi k).mpr hik
    exact ⟨k, hik, (hQ k (h i k hi hik).2 j).mpr hkj⟩

/-- Any number of characters of a kind. -/
theorem agree_any {r : Regex} {test : Char → Bool}
    (h : Spans s r = fun i j => stepOver s test i = some j) (greedy : Bool) :
    Agree s.size (Spans s (.loop r 0 none greedy)) (Stretch s test) := by
  intro i hi j
  rw [spans_loop, h, ← agree_stretch s test i hi j]
  simp [Comp, rounds_zero]

/-- At least one character of a kind. -/
theorem agree_some {r : Regex} {test : Char → Bool}
    (h : Spans s r = fun i j => stepOver s test i = some j) (greedy : Bool) :
    Agree s.size (Spans s (.loop r 1 none greedy)) fun i j => i < j ∧ Stretch s test i j := by
  intro i hi j
  rw [spans_loop, h]
  constructor
  · -- The one round that has to be made, and the others.
    rintro ⟨k, ⟨k', hik, hk⟩, n, _, hkj⟩
    obtain rfl : k' = k := hk
    obtain ⟨hlt, hfirst, rfl⟩ := stepOver_eq_some.mp hik
    have hrest : Stretch s test (i + 1) j := (agree_stretch s test (i + 1) hlt j).mp ⟨n, hkj⟩
    exact ⟨hrest.1, (stretch_succ hrest.1 hrest.2.1).mpr ⟨hfirst, hrest⟩⟩
  · rintro ⟨hlt, hstretch⟩
    have hsize : i < s.size := hlt.trans_le hstretch.2.1
    obtain ⟨hfirst, hrest⟩ := (stretch_succ hlt hstretch.2.1).mp hstretch
    obtain ⟨n, hn⟩ := (agree_stretch s test (i + 1) hsize j).mpr hrest
    exact ⟨i + 1, ⟨i + 1, stepOver_eq_some.mpr ⟨hsize, hfirst, rfl⟩, rfl⟩, n, by simp, hn⟩

/-- A class of characters is stepped over one at a time. -/
theorem spans_property (p : CharProperty) (negated : Bool) :
    Spans s (.set (.ofProperty p negated)) =
      fun i j => stepOver s (fun c => p.holds c != negated) i = some j := by
  have htest : (CharClass.ofProperty p negated).contains = fun c => p.holds c != negated := by
    funext c
    simp [CharClass.contains, CharClass.ofProperty, ClassItem.holds]
  funext i j
  rw [Spans, htest]

/-- A filler spans any text. -/
theorem agree_filler : Agree s.size (Spans s filler) (Filler s) := by
  have hany : Spans s .any = fun i j => stepOver s (fun _ => true) i = some j := rfl
  intro i hi j
  rw [filler, agree_any hany false i hi j]
  simp [Stretch, Filler]

/-- A gap spans what has no word character in it. -/
theorem agree_connective : Agree s.size (Spans s connective) (Gap s) := by
  have hset := spans_property (s := s) .word true
  simp only [Bool.bne_true] at hset
  exact agree_any hset true

/-- Blanks span blanks, at least one. -/
theorem agree_spacing : Agree s.size (Spans s spacing) (Blanks s) := by
  have hset := spans_property (s := s) .space false
  simp only [Bool.bne_false] at hset
  exact agree_some hset true

/-! ### Rows -/

/-- A sequence spans its first part and then the rest. -/
theorem spans_concat_cons (r : Regex) (rs : List Regex) :
    Spans s (concat (r :: rs)) = Comp (Spans s r) (Spans s (concat rs)) := rfl

/-- A sequence of one part spans what that does. -/
theorem spans_concat_singleton (r : Regex) : Spans s (concat [r]) = Spans s r := by
  funext i j
  exact propext (by simp [concat, Spans, Comp])

/-- Two sequences in turn are one. -/
theorem spans_concat_append (as bs : List Regex) :
    Spans s (concat (as ++ bs)) = Comp (Spans s (concat as)) (Spans s (concat bs)) := by
  induction as with
  | nil =>
    funext i j
    exact propext (by simp [concat, Spans, Comp])
  | cons a as ih =>
    rw [List.cons_append, spans_concat_cons, ih, spans_concat_cons, Relation.comp_assoc]

/-- What stands between the members of a sequence makes it a row. -/
theorem spans_intersperse (gap : Regex) (rs : List Regex) :
    Spans s (concat (rs.intersperse gap)) = row (Spans s gap) (rs.map (Spans s)) := by
  match rs with
  | [] =>
    funext i j
    rfl
  | [r] => exact spans_concat_singleton r
  | r :: r' :: rs =>
    have ih := spans_intersperse gap (r' :: rs)
    show Comp (Spans s r) (Comp (Spans s gap) (Spans s (concat ((r' :: rs).intersperse gap)))) = _
    rw [ih]
    rfl

/-- The fragments span the relations. -/
def Fragments (s : Subject) (rs : List Regex) (Rs : List (Nat → Nat → Prop)) : Prop :=
  List.Forall₂ (fun r R => Agree s.size (Spans s r) R) rs Rs

/-- Member by member, a sequence spans the row of the meanings. -/
theorem agree_row {gapRegex : Regex} (hgap : Agree s.size (Spans s gapRegex) gap) {rs : List Regex}
    {Rs : List (Nat → Nat → Prop)} (h : Fragments s rs Rs) :
    Agree s.size (Spans s (concat (rs.intersperse gapRegex))) (row gap Rs) := by
  rw [spans_intersperse]
  induction h with
  | nil => exact .refl _ _
  | @cons r R rs Rs hr hrs ih =>
    cases hrs with
    | nil => exact hr
    -- The first gap stands behind the first member.
    | cons hr' hrs => exact agree_comp hr (advances_spans r) (agree_comp hgap (advances_spans _) ih)

/-- A flexible sequence spans its items in order with any text around and between; without items,
any text. -/
theorem agree_flexible {rs : List Regex} {Rs : List (Nat → Nat → Prop)} (h : Fragments s rs Rs) :
    Agree s.size (Spans s (flexible rs)) (Comp (Filler s) (Comp (row (Filler s) Rs) (Filler s))) := by
  cases h with
  -- A single filler takes the place of the two around nothing.
  | nil =>
    intro i hi j
    refine (agree_filler i hi j).trans ⟨fun h => ⟨i, ⟨le_rfl, hi⟩, i, rfl, h⟩, ?_⟩
    rintro ⟨k, hik, l, rfl, hkj⟩
    exact ⟨hik.1.trans hkj.1, hkj.2⟩
  | @cons r R rs Rs hr hrs =>
    have hrow := agree_row agree_filler (List.Forall₂.cons hr hrs)
    rw [flexible, List.isEmpty_cons, if_neg Bool.false_ne_true, List.cons_append,
      spans_concat_cons, spans_concat_append, spans_concat_singleton]
    exact agree_comp agree_filler (advances_spans _)
      (agree_comp hrow (advances_spans _) agree_filler)

/-- A rigid sequence spans its items in order with gaps between. -/
theorem agree_rigid {rs : List Regex} {Rs : List (Nat → Nat → Prop)} (h : Fragments s rs Rs) :
    Agree s.size (Spans s (rigid rs)) (row (Gap s) Rs) :=
  agree_row agree_connective h

/-! ### Occurrences -/

/-- A look-ahead behind a filler asks whether something occurs. -/
theorem occurs_iff {r : Regex} (h : Agree s.size (Spans s r) R) (hi : i ≤ s.size) :
    (∃ k, Spans s (.seq filler r) i k) ↔ Occurs s R i := by
  constructor
  · rintro ⟨j, k, hik, hkj⟩
    have hik := (agree_filler i hi k).mp hik
    exact ⟨k, hik, j, (h k hik.2 j).mp hkj⟩
  · rintro ⟨k, hik, j, hkj⟩
    exact ⟨j, k, (agree_filler i hi k).mpr hik, (h k hik.2 j).mpr hkj⟩

/-- A conjunction spans any text from where all its items occur. -/
theorem agree_conjunction {rs : List Regex} {Rs : List (Nat → Nat → Prop)} (h : Fragments s rs Rs) :
    Agree s.size (Spans s (conjunction rs)) fun i j => (∀ R ∈ Rs, Occurs s R i) ∧ Filler s i j := by
  intro i hi j
  induction h with
  | nil =>
    rw [conjunction, List.map_nil, List.nil_append, spans_concat_singleton]
    simpa using agree_filler i hi j
  | @cons r R rs Rs hr hrs ih =>
    -- A look-ahead does not move, so all of them ask from the same place.
    have hcons : Spans s (conjunction (r :: rs)) i j ↔
        (∃ k, Spans s (.seq filler r) i k) ∧ Spans s (conjunction rs) i j := by
      simp [conjunction, concat, Comp, Spans]
    show _ ↔ (∀ Q ∈ R :: Rs, Occurs s Q i) ∧ Filler s i j
    rw [hcons, ih, occurs_iff hr hi, List.forall_mem_cons, and_assoc]

/-- A negation spans any text from where its body does not occur. -/
theorem agree_negation {r : Regex} (h : Agree s.size (Spans s r) R) :
    Agree s.size (Spans s (negation r)) fun i j => ¬Occurs s R i ∧ Filler s i j := by
  intro i hi j
  have hseq : Spans s (negation r) i j ↔
      (¬∃ k, Spans s (.seq filler r) i k) ∧ Spans s filler i j := by
    simp [negation, Comp, Spans]
  rw [hseq, occurs_iff h hi, agree_filler i hi j]

/-! ### Choices and repetitions -/

/-- What never matches never does. -/
theorem not_spans_unmatchable : ¬Spans s unmatchable i j := by
  rintro ⟨k, ⟨hnone, rfl⟩, hchar⟩
  exact Bool.noConfusion (hnone.mp ⟨j, hchar⟩)

/-- Of alternatives one is spanned. -/
theorem agree_oneOf {rs : List Regex} {Rs : List (Nat → Nat → Prop)} (hne : rs ≠ [])
    (h : Fragments s rs Rs) : Agree s.size (Spans s (oneOf rs)) fun i j => ∃ R ∈ Rs, R i j := by
  intro i hi j
  induction h with
  | nil => exact absurd rfl hne
  | @cons r R rs Rs hr hrs ih =>
    cases hrs with
    | nil => simpa [oneOf] using hr i hi j
    | @cons r' R' rs Rs hr' hrs =>
      show (Spans s r i j ∨ Spans s (oneOf (r' :: rs)) i j) ↔ _
      rw [ih (List.cons_ne_nil _ _), hr i hi j]
      simp only [List.mem_cons, exists_eq_or_imp]

/-- A choice spans what one of its alternatives does. -/
theorem agree_disjunction {rs : List Regex} {Rs : List (Nat → Nat → Prop)} (h : Fragments s rs Rs) :
    Agree s.size (Spans s (disjunction rs)) fun i j => ∃ R ∈ Rs, R i j := by
  cases h with
  | nil =>
    intro i hi j
    simpa [disjunction] using not_spans_unmatchable
  | cons hr hrs => exact agree_oneOf (List.cons_ne_nil _ _) (.cons hr hrs)

/-- What is optional spans its body or nothing. -/
theorem agree_optional {r : Regex} (h : Agree s.size (Spans s r) R) :
    Agree s.size (Spans s (optional r)) fun i j => i = j ∨ R i j := by
  intro i hi j
  rw [optional, spans_loop]
  show _ ↔ i = j ∨ R i j
  rw [← h i hi j]
  constructor
  · rintro ⟨k, hk, n, hn, hrounds⟩
    obtain rfl : i = k := hk
    match n, hn 1 rfl, hrounds with
    | 0, _, hij => exact .inl hij
    | 1, _, ⟨_, hik, rfl⟩ => exact .inr hik
  · rintro (rfl | hij)
    · exact ⟨i, rfl, 0, by simp, rfl⟩
    · exact ⟨i, rfl, 1, by simp, j, hij, rfl⟩

/-- Any number of rounds may be replaced by as many that agree. -/
theorem agree_reflTransGen (h : Agree s.size R Q) (hR : Advances s.size R) :
    Agree s.size (ReflTransGen R) (ReflTransGen Q) := by
  intro i hi j
  constructor
  · intro hij
    induction hij with
    | refl => exact .refl
    -- Agreement holds from within the subject, where the rounds so far have stayed.
    | @tail k j hik hkj ih => exact ih.tail ((h k (le_of_reflTransGen hR hi hik) j).mp hkj)
  · intro hij
    induction hij with
    | refl => exact .refl
    | @tail k j _ hkj ih => exact ih.tail ((h k (le_of_reflTransGen hR hi ih) j).mpr hkj)

/-- A repetition spans one round and any number of others behind gaps. -/
theorem agree_repeated {r : Regex} (h : Agree s.size (Spans s r) R) :
    Agree s.size (Spans s (repeated r r)) (OnceOrMore s R) := by
  have hround : Agree s.size (Comp (Spans s connective) (Spans s r)) (Comp (Gap s) R) :=
    agree_comp agree_connective (advances_spans _) h
  -- The first round has no gap before it, so it is set apart from the loop.
  have hrounds := agree_reflTransGen hround ((advances_spans _).comp (advances_spans _))
  refine agree_comp h (advances_spans r) fun i hi j => ?_
  rw [← hrounds i hi j, ← exists_rounds_iff, spans_loop]
  constructor
  · rintro ⟨k, hk, n, _, hrounds⟩
    obtain rfl : i = k := hk
    exact ⟨n, hrounds⟩
  · rintro ⟨n, hrounds⟩
    exact ⟨i, rfl, n, by simp, hrounds⟩

/-! ### Literals -/

/-- The edge of a word takes no room. -/
theorem spans_edgeAt {c : Option Char} :
    Spans s (concat (edgeAt c)) i j ↔ EdgeAt s c i ∧ i = j := by
  cases c with
  | none => simp [edgeAt, EdgeAt, concat, Spans]
  | some c =>
    by_cases hc : isEdgeChar c = true
    · simp [edgeAt, EdgeAt, concat, Spans, hc, Comp, Anchor.holds]
    · simp [edgeAt, EdgeAt, concat, Spans, hc]

/-- Words are spelled in order, with blanks between them. -/
theorem agree_words (words : List (List Char)) :
    Agree s.size (Spans s (concat ((words.map chars).intersperse spacing)))
      (row (Blanks s) (words.map (Spells s))) := by
  refine agree_row agree_spacing ?_
  rw [Fragments, List.forall₂_map_left_iff, List.forall₂_map_right_iff, List.forall₂_same]
  exact fun word _ => agree_chars word

/-- A literal spans what says its text. -/
theorem agree_literal (text : String) : Agree s.size (Spans s (literal text)) (Says s text) := by
  intro i hi j
  rw [literal, Says]
  cases Text.words text.toList with
  | nil => simp [Spans, EdgeAt, row]
  | cons first others =>
    -- The words, between the edges that the first and the last character ask for.
    dsimp only
    rw [spans_concat_append, spans_concat_append]
    constructor
    · rintro ⟨k, ⟨k', hi', hwords⟩, hj'⟩
      obtain ⟨hstart, rfl⟩ := spans_edgeAt.mp hi'
      obtain ⟨hstop, rfl⟩ := spans_edgeAt.mp hj'
      exact ⟨hstart, (agree_words _ i hi k).mp hwords, hstop⟩
    · rintro ⟨hstart, hwords, hstop⟩
      exact ⟨j, ⟨i, spans_edgeAt.mpr ⟨hstart, rfl⟩, (agree_words _ i hi j).mpr hwords⟩,
        spans_edgeAt.mpr ⟨hstop, rfl⟩⟩

end Colloquy.Matching
