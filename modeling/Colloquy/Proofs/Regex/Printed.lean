import Mathlib
import Colloquy.Proofs.Regex.Spans
import Colloquy.Regex.Printer
import Colloquy.Regex.Reader

/-!
# Reading what has been printed

Fragments are put together by writing their texts one after the other, and the text is what gets
read in the end.  `Written` says which expressions can be written out so: what may be repeated, what
may stand in a row and what only between parentheses.  Their texts are read as expressions that
are alike in all that matters (`reads`): only the rows are bracketed differently.
-/

namespace Colloquy.Regex

/-! ### Alike -/

/-- The expressions have the same matches, and may be built under the same conditions. -/
structure Alike (q r : Regex) : Prop where
  spans : ∀ subject, Spans subject q = Spans subject r
  depth : q.depth = r.depth
  substance : q.substance = r.substance
  loopsSound : q.loopsSound = r.loopsSound
  readable : q.readable = r.readable
  labels : q.labels = r.labels
  references : q.references = r.references

variable {q r a b a' b' : Regex}

namespace Alike

theorem refl (r : Regex) : Alike r r :=
  ⟨fun _ => rfl, rfl, rfl, rfl, rfl, rfl, rfl⟩

theorem symm (h : Alike q r) : Alike r q :=
  ⟨fun s => (h.spans s).symm, h.depth.symm, h.substance.symm, h.loopsSound.symm, h.readable.symm,
    h.labels.symm, h.references.symm⟩

theorem trans (h : Alike a b) (h' : Alike b r) : Alike a r :=
  ⟨fun s => (h.spans s).trans (h'.spans s), h.depth.trans h'.depth,
    h.substance.trans h'.substance, h.loopsSound.trans h'.loopsSound,
    h.readable.trans h'.readable, h.labels.trans h'.labels, h.references.trans h'.references⟩

/-- Rows of like expressions are alike. -/
theorem seq (h : Alike a a') (h' : Alike b b') : Alike (.seq a b) (.seq a' b') where
  spans s := by
    show Relation.Comp (Spans s a) (Spans s b) = Relation.Comp (Spans s a') (Spans s b')
    rw [h.spans, h'.spans]
  depth := congrArg₂ max h.depth h'.depth
  substance := congrArg₂ Substance.beside h.substance h'.substance
  loopsSound := congrArg₂ and h.loopsSound h'.loopsSound
  readable := congrArg₂ and h.readable h'.readable
  labels := congrArg₂ (· ++ ·) h.labels h'.labels
  references := congrArg₂ (· ++ ·) h.references h'.references

/-- Choices between like expressions are alike. -/
theorem alt (h : Alike a a') (h' : Alike b b') : Alike (.alt a b) (.alt a' b') where
  spans s := by
    funext i j
    show (Spans s a i j ∨ Spans s b i j) = (Spans s a' i j ∨ Spans s b' i j)
    rw [h.spans, h'.spans]
  depth := congrArg₂ max h.depth h'.depth
  substance := rfl
  loopsSound := congrArg₂ and h.loopsSound h'.loopsSound
  readable := congrArg₂ and h.readable h'.readable
  labels := congrArg₂ (· ++ ·) h.labels h'.labels
  references := congrArg₂ (· ++ ·) h.references h'.references

/-- Parentheses around like expressions leave them alike. -/
theorem group (h : Alike q r) : Alike (.group q) (.group r) where
  spans := h.spans
  depth := congrArg (· + 1) h.depth
  substance := h.substance
  loopsSound := h.loopsSound
  readable := h.readable
  labels := h.labels
  references := h.references

/-- Looking at like expressions is alike. -/
theorem ahead (negated : Bool) (h : Alike q r) : Alike (.ahead negated q) (.ahead negated r) where
  spans s := by
    funext i j
    simp only [Spans, h.spans s]
  depth := congrArg (· + 1) h.depth
  substance := rfl
  loopsSound := h.loopsSound
  readable := h.readable
  labels := h.labels
  references := h.references

/-- Repetitions of like expressions are alike. -/
theorem loop (least : Nat) (most : Option Nat) (greedy : Bool) (h : Alike q r) :
    Alike (.loop q least most greedy) (.loop r least most greedy) where
  spans s := by
    funext i j
    simp only [Spans, h.spans s]
  depth := h.depth
  substance := rfl
  loopsSound := by simp only [Regex.loopsSound, h.substance, h.loopsSound]
  readable := h.readable
  labels := h.labels
  references := h.references

/-- Nothing in front of an expression. -/
theorem empty_seq (r : Regex) : Alike (.seq .empty r) r where
  spans s := Relation.eq_comp
  depth := Nat.zero_max _
  substance := by cases h : r.substance <;> simp [Regex.substance, Substance.beside, h]
  loopsSound := Bool.true_and _
  readable := Bool.true_and _
  labels := List.nil_append _
  references := List.nil_append _

/-- Nothing behind an expression. -/
theorem seq_empty (r : Regex) : Alike (.seq r .empty) r where
  spans s := Relation.comp_eq
  depth := Nat.max_zero _
  substance := by cases h : r.substance <;> simp [Regex.substance, Substance.beside, h]
  loopsSound := Bool.and_true _
  readable := Bool.and_true _
  labels := List.append_nil _
  references := List.append_nil _

/-- Rows of three are alike, however they are bracketed. -/
theorem seq_assoc (a b r : Regex) : Alike (.seq (.seq a b) r) (.seq a (.seq b r)) where
  spans s := Relation.comp_assoc
  depth := Nat.max_assoc _ _ _
  substance := by
    cases ha : a.substance <;> cases hb : b.substance <;> cases hr : r.substance <;>
      simp [Regex.substance, Substance.beside, ha, hb, hr]
  loopsSound := Bool.and_assoc _ _ _
  readable := Bool.and_assoc _ _ _
  labels := List.append_assoc _ _ _
  references := List.append_assoc _ _ _

/-- A row of two lists is the row of their rows. -/
theorem concat_append (as bs : List Regex) :
    Alike (concat (as ++ bs)) (.seq (concat as) (concat bs)) := by
  induction as with
  | nil => exact (empty_seq _).symm
  | cons a as ih => exact ((refl a).seq ih).trans (seq_assoc a (concat as) (concat bs)).symm

/-- Alike expressions may be built under the same conditions. -/
theorem buildable_eq (h : Alike q r) : q.buildable = r.buildable := by
  simp only [buildable, referencesSound, h.depth, h.loopsSound, h.readable, h.labels, h.references]

end Alike

/-! ### Expressions that can be written out -/

/-- Where an expression can be written without parentheses of its own. -/
inductive Level
  /-- In front of a repetition mark. -/
  | atom
  /-- In a row. -/
  | branch
  /-- Between parentheses. -/
  | choice

/-- The repetitions with a mark of one character. -/
def marked : List (Nat × Option Nat) :=
  [(0, some 1), (0, none), (1, none)]

/-- The text of the expression says at this level what the expression means; it has neither captures
nor embedded patterns. -/
inductive Written : Level → Regex → Prop
  | char (c : Char) : Written .atom (.char c)
  | any : Written .atom .any
  | property {p : CharProperty} (negated : Bool) (h : p ≠ .letter) :
    Written .atom (.set (.ofProperty p negated))
  | anchor (a : Anchor) : Written .atom (.anchor a)
  | group {r : Regex} (h : Written .choice r) : Written .atom (.group r)
  | ahead (negated : Bool) {r : Regex} (h : Written .choice r) : Written .atom (.ahead negated r)
  | empty : Written .branch .empty
  | seq {a b : Regex} (ha : Written .branch a) (hb : Written .branch b) : Written .branch (.seq a b)
  | loop {r : Regex} {least : Nat} {most : Option Nat} (greedy : Bool) (h : Written .atom r)
    (hmark : (least, most) ∈ marked) : Written .branch (.loop r least most greedy)
  | row {r : Regex} (h : Written .atom r) : Written .branch r
  | alt {a b : Regex} (ha : Written .branch a) (hb : Written .choice b) : Written .choice (.alt a b)
  | one {r : Regex} (h : Written .branch r) : Written .choice r

namespace Written

variable {level : Level}

/-- A row is written when its members are. -/
theorem concat {rs : List Regex} (h : ∀ r ∈ rs, Written .branch r) :
    Written .branch (concat rs) := by
  induction rs with
  | nil => exact .empty
  | cons r rs ih =>
    rw [List.forall_mem_cons] at h
    exact .seq h.1 (ih h.2)

/-- A choice is written when its alternatives are. -/
theorem oneOf {rs : List Regex} (h : ∀ r ∈ rs, Written .branch r) : Written .choice (oneOf rs) := by
  match rs with
  | [] => exact .one .empty
  | [r] => exact .one (h r List.mem_cons_self)
  | r :: r' :: rs =>
    rw [List.forall_mem_cons] at h
    exact .alt h.1 (oneOf h.2)

/-- What is written out has no groups. -/
theorem labels_eq_nil (h : Written level r) : r.labels = [] := by
  induction h with
  | seq _ _ iha ihb | alt _ _ iha ihb => rw [labels, iha, ihb, List.nil_append]
  | group _ ih | ahead _ _ ih | loop _ _ _ ih | row _ ih | one _ ih => exact ih
  | char | any | property | anchor | empty => rfl

/-- What is written out refers to no groups. -/
theorem references_eq_nil (h : Written level r) : r.references = [] := by
  induction h with
  | seq _ _ iha ihb | alt _ _ iha ihb => rw [references, iha, ihb, List.nil_append]
  | group _ ih | ahead _ _ ih | loop _ _ _ ih | row _ ih | one _ ih => exact ih
  | char | any | property | anchor | empty => rfl

/-- What is written out has no pattern that cannot be read. -/
theorem readable (h : Written level r) : r.readable = true := by
  induction h with
  | seq _ _ iha ihb | alt _ _ iha ihb => rw [Regex.readable, iha, ihb, Bool.and_self]
  | group _ ih | ahead _ _ ih | loop _ _ _ ih | row _ ih | one _ ih => exact ih
  | char | any | property | anchor | empty => rfl

/-- Without references and labels, nothing but depth and repetitions keeps a pattern from being
built. -/
theorem buildable_iff (h : Written level r) :
    r.buildable = true ↔ r.depth ≤ maxDepth ∧ r.loopsSound = true := by
  have hreferences : r.referencesSound = true := by
    rw [referencesSound, h.references_eq_nil]
    rfl
  rw [buildable, h.readable, hreferences, Bool.and_true, Bool.and_true, Bool.and_eq_true,
    decide_eq_true_eq]

/-- What is written out gives no way up once it is found. -/
theorem commits_eq_false (h : Written level r) : r.commits = false := by
  induction h with
  | seq _ _ iha ihb | alt _ _ iha ihb => rw [commits, iha, ihb, Bool.or_false]
  | group _ ih | ahead _ _ ih | loop _ _ _ ih | row _ ih | one _ ih => exact ih
  | char | any | property | anchor | empty => rfl

/-- There are no numbers of groups to shift in what is written out. -/
theorem shiftOwn_eq_self (h : Written level r) (n : Nat) : r.shiftOwn n = r := by
  induction h with
  | seq _ _ iha ihb | alt _ _ iha ihb => rw [shiftOwn, iha, ihb]
  | group _ ih | ahead _ _ ih | loop _ _ _ ih => rw [shiftOwn, ih]
  | row _ ih | one _ ih => exact ih
  | char | any | property | anchor | empty => rfl

end Written

/-! ### Texts that are read

Every character is read within six calls, and each level of the grammar adds one call of its own: so
the bounds on the fuel below, in the length of what is left to read.
-/

variable {st : Reading} {cs cs' tail rest : List Char} {ps ps' : List Regex}

@[simp] theorem Reading.past_rest (st : Reading) (cs : List Char) : (st.past cs).rest = cs := rfl

@[simp] theorem Reading.past_past (st : Reading) (cs cs' : List Char) :
    (st.past cs).past cs' = st.past cs' := rfl

/-- The text does not begin with a repetition mark. -/
def Steady (cs : List Char) : Prop :=
  ∀ c ∈ cs.head?, c ∉ ['?', '*', '+', '{']

/-- The text is at its end, or at a closing parenthesis. -/
def Closing (cs : List Char) : Prop :=
  ∀ c ∈ cs.head?, c = ')'

theorem Closing.steady (h : Closing cs) : Steady cs := by
  intro c hc
  rw [h c hc]
  decide

/-- The text begins an expression: not with a repetition mark, and not with the end of a row. -/
def Begins (cs : List Char) : Prop :=
  ∃ c more, cs = c :: more ∧ c ∉ ['?', '*', '+', '{', '|', ')']

/-- The text is read as the expression in front of a repetition mark. -/
def IsAtom (cs : List Char) (q : Regex) : Prop :=
  Begins cs ∧ ∀ (st : Reading) (tail : List Char) (fuel : Nat), 6 * (cs ++ tail).length + 3 ≤ fuel →
    readAtom? fuel (st.past (cs ++ tail)) = some (q, st.past tail)

/-- The text is read as the expression with its repetition mark. -/
def IsPiece (cs : List Char) (q : Regex) : Prop :=
  Begins cs ∧ ∀ (st : Reading) (tail : List Char) (fuel : Nat), Steady tail →
    6 * (cs ++ tail).length + 4 ≤ fuel →
    readPiece? fuel (st.past (cs ++ tail)) = some (q, st.past tail)

/-- The row that begins here is read as the expression, up to `rest`. -/
def IsRow (st : Reading) (cs : List Char) (q : Regex) (rest : List Char) : Prop :=
  ∀ fuel, 6 * cs.length + 5 ≤ fuel → readBranch? fuel (st.past cs) = some (q, st.past rest)

/-- In front of a row the text is read as these expressions. -/
def IsBranch (cs : List Char) (ps : List Regex) : Prop :=
  (∀ tail, Steady tail → Steady (cs ++ tail)) ∧
    ∀ (st : Reading) (tail : List Char) (q : Regex) (rest : List Char), Steady tail →
      IsRow st tail q rest → IsRow st (cs ++ tail) (ps.foldr .seq q) rest

/-- The text is read as the expression between parentheses. -/
def IsChoice (cs : List Char) (q : Regex) : Prop :=
  ∀ (st : Reading) (tail : List Char) (fuel : Nat), Closing tail →
    6 * (cs ++ tail).length + 6 ≤ fuel →
    readAlternatives? fuel (st.past (cs ++ tail)) = some (q, st.past tail)

/-- What begins an expression is no repetition mark, whatever follows it. -/
theorem Begins.steady (h : Begins cs) (tail : List Char) : Steady (cs ++ tail) := by
  obtain ⟨c, more, rfl, hc⟩ := h
  intro d hd
  obtain rfl : c = d := by simpa using hd
  simp only [List.mem_cons, not_or] at hc ⊢
  tauto

/-- The empty text is read as an empty row. -/
theorem isBranch_nil : IsBranch [] [] :=
  ⟨fun _ h => h, fun _ _ _ _ _ h => h⟩

/-- Rows that stand one behind the other are read as one row. -/
theorem IsBranch.append (h : IsBranch cs ps) (h' : IsBranch cs' ps') :
    IsBranch (cs ++ cs') (ps ++ ps') := by
  refine ⟨fun tail ht => ?_, fun st tail q rest ht hrow => ?_⟩
  · rw [List.append_assoc]
    exact h.1 _ (h'.1 tail ht)
  · rw [List.append_assoc, List.foldr_append]
    exact h.2 st _ _ rest (h'.1 tail ht) (h'.2 st tail q rest ht hrow)

/-- A piece is a row by itself. -/
theorem IsPiece.isBranch (h : IsPiece cs q) : IsBranch cs [q] := by
  obtain ⟨hbegins, hpiece⟩ := h
  refine ⟨fun tail _ => hbegins.steady tail, fun st tail q' rest ht hrow fuel hfuel => ?_⟩
  obtain ⟨c, more, rfl, hc⟩ := hbegins
  obtain ⟨fuel, rfl⟩ : ∃ n, fuel = n + 1 := ⟨fuel - 1, by omega⟩
  simp only [List.length_append, List.length_cons] at hfuel
  have hfirst := hpiece st tail fuel ht (by simp only [List.length_append, List.length_cons]; omega)
  have hothers := hrow fuel (by omega)
  simp only [List.mem_cons, not_or] at hc
  rw [readBranch?]
  -- The row does not end here: the text begins neither with an alternative nor with a parenthesis.
  split
  · cases ‹_ = []›
  · rename_i heq
    cases heq
    exact absurd rfl hc.2.2.2.2.1
  · rename_i heq
    cases heq
    exact absurd rfl hc.2.2.2.2.2.1
  · rw [hfirst]
    simp only [Option.bind_eq_bind, Option.bind_some, hothers, List.foldr_cons, List.foldr_nil]
    rfl

/-- A row ends where a bar or a closing parenthesis follows. -/
theorem IsBranch.isRow (h : IsBranch cs ps) (hsteady : Steady tail)
    (hstop : ∀ c ∈ tail.head?, c ∈ ['|', ')']) : IsRow st (cs ++ tail) (concat ps) tail := by
  refine h.2 st tail .empty tail hsteady fun fuel hfuel => ?_
  obtain ⟨fuel, rfl⟩ : ∃ n, fuel = n + 1 := ⟨fuel - 1, by omega⟩
  rw [readBranch?]
  cases tail with
  | nil => rfl
  | cons c tail =>
    have hc := hstop c rfl
    simp only [List.mem_cons, List.not_mem_nil, or_false] at hc
    rcases hc with rfl | rfl
    · rfl
    · rfl

/-- A row is a choice with one alternative. -/
theorem IsBranch.isChoice (h : IsBranch cs ps) : IsChoice cs (concat ps) := by
  intro st tail fuel htail hfuel
  obtain ⟨fuel, rfl⟩ : ∃ n, fuel = n + 1 := ⟨fuel - 1, by omega⟩
  have hrow : IsRow st (cs ++ tail) (concat ps) tail :=
    h.isRow htail.steady fun c hc => by simp [htail c hc]
  rw [readAlternatives?, hrow fuel (by omega)]
  cases tail with
  | nil => rfl
  | cons c tail =>
    obtain rfl := htail c rfl
    rfl

/-- A row, a bar and a choice are read as one more alternative. -/
theorem IsBranch.alt (h : IsBranch cs ps) (h' : IsChoice cs' q) :
    IsChoice (cs ++ '|' :: cs') (.alt (concat ps) q) := by
  intro st tail fuel htail hfuel
  obtain ⟨fuel, rfl⟩ : ∃ n, fuel = n + 1 := ⟨fuel - 1, by omega⟩
  rw [List.append_assoc, List.cons_append] at hfuel ⊢
  -- The bar ends the row in front of it.
  have hsteady : Steady ('|' :: (cs' ++ tail)) := by
    intro c hc
    obtain rfl : '|' = c := by simpa using hc
    decide
  have hrow : IsRow st (cs ++ '|' :: (cs' ++ tail)) (concat ps) ('|' :: (cs' ++ tail)) :=
    h.isRow hsteady fun c hc => by
      obtain rfl : '|' = c := by simpa using hc
      decide
  simp only [List.length_append, List.length_cons] at hfuel
  have hothers := h' st tail fuel htail (by simp only [List.length_append]; omega)
  rw [readAlternatives?, hrow fuel (by simp only [List.length_append, List.length_cons]; omega)]
  simp only [Option.bind_eq_bind, Option.bind_some, Reading.past_rest, Reading.past_past, hothers]
  rfl

/-! ### Atoms -/

/-- A choice is read up to the parenthesis that closes it. -/
theorem IsChoice.closed (h : IsChoice cs q) (st : Reading) (tail : List Char) (fuel : Nat)
    (hfuel : 6 * (cs ++ ')' :: tail).length + 7 ≤ fuel) :
    readClosed? fuel (st.past (cs ++ ')' :: tail)) = some (q, st.past tail) := by
  obtain ⟨fuel, rfl⟩ : ∃ n, fuel = n + 1 := ⟨fuel - 1, by omega⟩
  have hclosing : Closing (')' :: tail) := by simp [Closing]
  rw [readClosed?, h st _ fuel hclosing (by omega)]
  rfl

/-- A choice in parentheses that capture nothing is a group. -/
theorem IsChoice.group (h : IsChoice cs q) : IsAtom ("(?:".toList ++ cs ++ [')']) (.group q) := by
  refine ⟨⟨'(', _, rfl, by decide⟩, fun st tail fuel hfuel => ?_⟩
  obtain ⟨fuel, rfl⟩ : ∃ n, fuel = n + 1 := ⟨fuel - 1, by omega⟩
  have hclosed := h.closed st tail fuel (by simp at hfuel ⊢; omega)
  have htext : "(?:".toList ++ cs ++ [')'] ++ tail = '(' :: '?' :: ':' :: (cs ++ ')' :: tail) := by
    simp
  rw [htext, readAtom?]
  show (readClosed? fuel (st.past (cs ++ ')' :: tail))).bind
    (fun closed => some (Regex.group closed.1, closed.2)) = _
  rw [hclosed]
  rfl

/-- A choice in the parentheses of a look-ahead is looked at. -/
theorem IsChoice.ahead (h : IsChoice cs q) (negated : Bool) :
    IsAtom ('(' :: '?' :: (if negated then '!' else '=') :: (cs ++ [')'])) (.ahead negated q) := by
  refine ⟨⟨'(', _, rfl, by decide⟩, fun st tail fuel hfuel => ?_⟩
  obtain ⟨fuel, rfl⟩ : ∃ n, fuel = n + 1 := ⟨fuel - 1, by omega⟩
  have hclosed := h.closed st tail fuel (by simp at hfuel ⊢; omega)
  -- Three characters are read before the body, and the closing parenthesis belongs to `closed`.
  have htext : ∀ mark, '(' :: '?' :: mark :: (cs ++ [')']) ++ tail =
      '(' :: '?' :: mark :: (cs ++ ')' :: tail) := by simp
  rw [htext, readAtom?]
  cases negated with
  | false =>
    show (readClosed? fuel (st.past (cs ++ ')' :: tail))).bind
      (fun closed => some (Regex.ahead false closed.1, closed.2)) = _
    rw [hclosed]
    rfl
  | true =>
    show (readClosed? fuel (st.past (cs ++ ')' :: tail))).bind
      (fun closed => some (Regex.ahead true closed.1, closed.2)) = _
    rw [hclosed]
    rfl

/-! ### Pieces -/

/-- An atom without a mark is a piece, if no mark follows. -/
theorem IsAtom.isPiece (h : IsAtom cs q) : IsPiece cs q := by
  refine ⟨h.1, fun st tail fuel htail hfuel => ?_⟩
  obtain ⟨fuel, rfl⟩ : ∃ n, fuel = n + 1 := ⟨fuel - 1, by omega⟩
  rw [readPiece?, h.2 st tail fuel (by omega)]
  cases tail with
  | nil => rfl
  | cons c tail =>
    have hc := htail c rfl
    simp only [List.mem_cons, List.not_mem_nil, or_false, not_or] at hc
    simp [hc]

/-- An atom with its repetition mark is a piece. -/
theorem IsAtom.marked (h : IsAtom cs q) {least : Nat} {most : Option Nat} (greedy : Bool)
    (hmark : (least, most) ∈ marked) :
    IsPiece (cs ++ printCount least most greedy) (.loop q least most greedy) := by
  obtain ⟨⟨c, more, rfl, hc⟩, hatom⟩ := h
  refine ⟨⟨c, _, rfl, hc⟩, fun st tail fuel htail hfuel => ?_⟩
  obtain ⟨fuel, rfl⟩ : ∃ n, fuel = n + 1 := ⟨fuel - 1, by omega⟩
  rw [List.append_assoc] at hfuel ⊢
  rw [readPiece?, hatom st _ fuel (by omega)]
  simp only [Regex.marked, List.mem_cons, Prod.mk.injEq, List.not_mem_nil, or_false] at hmark
  rcases hmark with ⟨rfl, rfl⟩ | ⟨rfl, rfl⟩ | ⟨rfl, rfl⟩
  all_goals
    cases tail with
    | nil => cases greedy <;> rfl
    | cons d tail =>
      -- At the head of `tail`, a question mark would be taken for the mark of a lazy repetition, and a
      -- plus for that of a possessive one.
      have hd := htail d rfl
      simp only [List.mem_cons, List.not_mem_nil, or_false, not_or] at hd
      cases greedy <;> simp [printCount, hd]

/-! ### Characters and classes -/

/-- A character is read from the way it is written, escaped or not. -/
theorem isAtom_printChar (c : Char) : IsAtom (printChar c) (.char c) := by
  rw [printChar]
  split
  · -- The special characters stand behind a backslash.
    rename_i hc
    refine ⟨⟨'\\', _, rfl, by decide⟩, fun st tail fuel hfuel => ?_⟩
    obtain ⟨fuel, rfl⟩ : ∃ n, fuel = n + 1 := ⟨fuel - 1, by omega⟩
    simp only [isSpecial, List.contains_eq_mem, decide_eq_true_iff, List.mem_cons, List.not_mem_nil,
      or_false] at hc
    rcases hc with rfl | rfl | rfl | rfl | rfl | rfl | rfl | rfl | rfl | rfl | rfl | rfl | rfl | rfl <;>
      rfl
  · -- No other character means anything of its own.
    rename_i hc
    simp only [isSpecial, List.contains_eq_mem, decide_eq_true_iff, List.mem_cons, List.not_mem_nil,
      or_false, not_or] at hc
    refine ⟨⟨c, _, rfl, by simp [hc]⟩, fun st tail fuel hfuel => ?_⟩
    obtain ⟨fuel, rfl⟩ : ∃ n, fuel = n + 1 := ⟨fuel - 1, by omega⟩
    rw [readAtom?]
    simp [hc]

/-- A class of characters is read from its escape; only that of the letters has another form. -/
theorem isAtom_printProperty {p : CharProperty} (negated : Bool) (h : p ≠ .letter) :
    IsAtom (printProperty p negated) (.set (.ofProperty p negated)) := by
  refine ⟨?_, fun st tail fuel hfuel => ?_⟩
  · cases p <;> cases negated <;> exact ⟨'\\', _, rfl, by decide⟩
  · obtain ⟨fuel, rfl⟩ : ∃ n, fuel = n + 1 := ⟨fuel - 1, by omega⟩
    cases p <;> cases negated <;> first | rfl | exact absurd rfl h

/-- An anchor is read from the way it is written. -/
theorem isAtom_printAnchor (a : Anchor) : IsAtom (printAnchor a) (.anchor a) := by
  refine ⟨?_, fun st tail fuel hfuel => ?_⟩
  · cases a <;> exact ⟨_, _, rfl, by decide⟩
  · obtain ⟨fuel, rfl⟩ : ∃ n, fuel = n + 1 := ⟨fuel - 1, by omega⟩
    cases a <;> rfl

/-- A point is any character. -/
theorem isAtom_any : IsAtom ['.'] .any := by
  refine ⟨⟨'.', [], rfl, by decide⟩, fun st tail fuel hfuel => ?_⟩
  obtain ⟨fuel, rfl⟩ : ∃ n, fuel = n + 1 := ⟨fuel - 1, by omega⟩
  rfl

/-! ### Reading -/

/-- At the level, the text of the expression is read as a like expression. -/
def Reads : Level → Regex → Prop
  | .atom, r => ∃ q, IsAtom r.print q ∧ Alike q r
  | .branch, r => ∃ qs, IsBranch r.print qs ∧ Alike (concat qs) r
  | .choice, r => ∃ q, IsChoice r.print q ∧ Alike q r

/-- By induction on how the expression is written.  Only rows are not read back as they were: they
come back with their items in one list, which `Alike.concat_append` takes apart again. -/
theorem reads {level : Level} (h : Written level r) : Reads level r := by
  induction h with
  | char c => exact ⟨_, isAtom_printChar c, .refl _⟩
  | any => exact ⟨_, isAtom_any, .refl _⟩
  | property negated h => exact ⟨_, isAtom_printProperty negated h, .refl _⟩
  | anchor a => exact ⟨_, isAtom_printAnchor a, .refl _⟩
  | group _ ih =>
    obtain ⟨q, hq, halike⟩ := ih
    exact ⟨_, hq.group, halike.group⟩
  | ahead negated _ ih =>
    obtain ⟨q, hq, halike⟩ := ih
    refine ⟨_, ?_, halike.ahead negated⟩
    cases negated with
    | false => exact hq.ahead false
    | true => exact hq.ahead true
  | empty => exact ⟨[], isBranch_nil, .refl _⟩
  | seq _ _ iha ihb =>
    -- Two rows become one, so what is read is a row bracketed in another way.
    obtain ⟨as, has, ha⟩ := iha
    obtain ⟨bs, hbs, hb⟩ := ihb
    exact ⟨as ++ bs, has.append hbs, (Alike.concat_append as bs).trans (ha.seq hb)⟩
  | loop greedy _ hmark ih =>
    obtain ⟨q, hq, halike⟩ := ih
    exact ⟨_, (hq.marked greedy hmark).isBranch,
      (Alike.seq_empty _).trans (halike.loop _ _ greedy)⟩
  | row _ ih =>
    obtain ⟨q, hq, halike⟩ := ih
    exact ⟨_, hq.isPiece.isBranch, (Alike.seq_empty q).trans halike⟩
  | alt _ _ iha ihb =>
    obtain ⟨as, has, ha⟩ := iha
    obtain ⟨q, hq, hb⟩ := ihb
    exact ⟨_, has.alt hq, ha.alt hb⟩
  | one _ ih =>
    obtain ⟨qs, hqs, halike⟩ := ih
    exact ⟨_, hqs.isChoice, halike⟩

/-- A setting of flags reads as nothing. -/
theorem isAtom_flags : IsAtom "(?is)".toList .empty := by
  refine ⟨⟨'(', _, rfl, by decide⟩, fun st tail fuel hfuel => ?_⟩
  obtain ⟨fuel, rfl⟩ : ∃ n, fuel = n + 1 := ⟨fuel - 1, by omega⟩
  rfl

/-- A row with its flags is read back as a like expression, unless it cannot be built. -/
theorem read_print (h : Written .branch r) :
    ∃ q, Alike q r ∧ read? ("(?is)" ++ String.ofList r.print) =
      if r.buildable then some q else none := by
  obtain ⟨qs, hqs, halike⟩ := reads h
  have hchoice : IsChoice ("(?is)".toList ++ r.print) (concat (.empty :: qs)) :=
    (isAtom_flags.isPiece.isBranch.append hqs).isChoice
  have halike : Alike (concat (.empty :: qs)) r := (Alike.empty_seq _).trans halike
  refine ⟨_, halike, ?_⟩
  have hread := hchoice ⟨[], 0, []⟩ [] _ (by simp [Closing]) le_rfl
  -- There are no references, so all of them lead to groups that exist.
  have hnumbers : (concat (.empty :: qs)).numbersExist = true := by
    rw [numbersExist, halike.references, h.references_eq_nil, List.all_nil]
  have htext : ("(?is)" ++ String.ofList r.print).toList = "(?is)".toList ++ r.print :=
    String.toList_append.trans (congrArg _ String.toList_ofList)
  rw [List.append_nil] at hread
  change readAlternatives? _ ⟨"(?is)".toList ++ r.print, 0, []⟩ = _ at hread
  rw [read?, htext, hread]
  simp only [hnumbers, halike.buildable_eq, Reading.past_rest, List.isEmpty_nil, Bool.true_and,
    Bool.and_true]

end Colloquy.Regex
