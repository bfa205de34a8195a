import Mathlib
import Colloquy.Expr.Printer
import Colloquy.Proofs.Expr.Spelled

/-!
# Reading what was written

`parse_render` says that reading undoes writing on every tree that reading gives, as long as its
literals are settled: a literal that stands bare comes back with its words spaced singly.

`Reads g e` says what reading makes of a written term in any scope, with anything after it that can
follow a term there.  It holds of the parts of a list or a call before it holds of the whole, and
`Spelled` has one case for each way a term is written.
-/

namespace Colloquy.Expr

/-- Reading leaves the literal as it is, written bare or quoted: nothing is in it, or a character
that makes it quoted, or its words are spaced singly. -/
def Settled (text : String) : Prop :=
  text = "" ∨ (∃ c ∈ text.toList, isBareChar c = false) ∨ Text.Spaced text.toList

namespace Parser

variable {g : Grammar} {scope : Scope} {e : Expr} {cs rest : List Char} {n : Nat}

/-! ### Characters -/

/-- What ends rows of terms. -/
def closers : List Char := [',', ']', '}', '>', ')']

/-- A written term begins with such a character. -/
structure Opens (c : Char) : Prop where
  notBlank : Text.isBlank c = false
  notCloser : c ∉ closers
  notBang : c ≠ '!'

instance : DecidablePred Opens := fun c =>
  decidable_of_iff (Text.isBlank c = false ∧ c ∉ closers ∧ c ≠ '!')
    ⟨fun ⟨h, h', h''⟩ => ⟨h, h', h''⟩, fun ⟨h, h', h''⟩ => ⟨h, h', h''⟩⟩

/-- A character that a bare literal can hold is none that it cannot. -/
theorem ne_of_isBareChar {c d : Char} (hc : isBareChar c = true) (hd : isBareChar d = false) :
    c ≠ d := by
  rintro rfl
  exact Bool.noConfusion (hc.symm.trans hd)

/-- A blank that a bare literal can hold is a space. -/
theorem eq_space_of_isBareChar {c : Char} (hblank : Text.isBlank c = true)
    (hc : isBareChar c = true) : c = ' ' := by
  have hall : (Text.blanks.all fun c => c == ' ' || !isBareChar c) = true := by decide +kernel
  have hspace := List.all_eq_true.mp hall c (Text.mem_blanks hblank)
  rwa [hc, Bool.not_true, Bool.or_false, beq_iff_eq] at hspace

/-- A bare literal that does not begin with a space begins as terms do. -/
theorem opens_of_isBareChar {c : Char} (hc : isBareChar c = true) (hspace : c ≠ ' ') : Opens c where
  notBlank := Bool.eq_false_iff.mpr fun hblank => hspace (eq_space_of_isBareChar hblank hc)
  notCloser hmem := by
    revert hc
    simp only [closers, List.mem_cons, List.not_mem_nil, or_false] at hmem
    rcases hmem with rfl | rfl | rfl | rfl | rfl <;> decide
  notBang := ne_of_isBareChar hc (by decide)

theorem skipBlank_cons {c : Char} (hc : Text.isBlank c = false) (cs : List Char) :
    skipBlank (c :: cs) = c :: cs := by
  rw [skipBlank, Text.trimStart, List.dropWhile_cons_of_neg (by simp [hc])]

/-- No closer is passed over as a blank. -/
theorem not_isBlank_of_mem_closers {c : Char} (h : c ∈ closers) : Text.isBlank c = false := by
  have hall : (closers.all fun c => !Text.isBlank c) = true := by decide
  simpa using List.all_eq_true.mp hall c h

/-! ### Ends of terms -/

/-- Only closers end the scope. -/
def Scope.Proper (scope : Scope) : Prop :=
  ∀ c, scope.ends c = true → c ∈ closers

/-- The row of terms ends here. -/
def Ends (scope : Scope) (rest : List Char) : Prop :=
  ∀ c ∈ rest.head?, scope.ends c = true

/-- What stands here can follow the term in the scope: the scope's end, or a mark that the term can
take. -/
def Follows (g : Grammar) (scope : Scope) (e : Expr) (rest : List Char) : Prop :=
  ∀ c ∈ rest.head?, scope.ends c = true ∨ g = .matching ∧ Markable e ∧ c ∈ marks

/-- Where the scope ends, every term has ended. -/
theorem Ends.follows (h : Ends scope rest) : Follows g scope e rest :=
  fun c hc => .inl (h c hc)

/-- Where the scope ends stands no mark. -/
theorem Ends.unmarked (h : Ends scope rest) (hscope : scope.Proper) : Unmarked rest := by
  intro c hc
  have hall : (closers.all fun c => !marks.contains c) = true := by decide
  simpa using List.all_eq_true.mp hall c (hscope c (h c hc))

/-- A term that was read without its marks, and with them. -/
def withMarks (g : Grammar) (e : Expr) (rest : List Char) : Expr × List Char :=
  if g = .matching then applyMarks e rest else (e, rest)

/-- Where the scope ends, a term has no marks. -/
theorem withMarks_of_ends (h : Ends scope rest) (hscope : scope.Proper) :
    withMarks g e rest = (e, rest) := by
  rw [withMarks, applyMarks_of_unmarked (h.unmarked hscope), ite_self]

/-- Reading a written term gives it back, with the marks that follow. -/
structure Reads [Engine] (g : Grammar) (e : Expr) : Prop where
  opens : ∃ c cs, e.print = c :: cs ∧ Opens c
  term {scope : Scope} {rest : List Char} {n : Nat} (hscope : scope.Proper)
    (hrest : Follows g scope e rest) (hn : 5 * e.print.length ≤ n) :
    term g scope n (e.print ++ rest) = .ok (withMarks g e rest)

/-- A term is read as its atom is read, and then its marks. -/
theorem term_of_atom [Engine] (h : atom g scope n cs = .ok (e, rest)) :
    Parser.term g scope (n + 1) cs = .ok (withMarks g e rest) := by
  rw [Parser.term, h, withMarks]
  split_ifs <;> rfl

/-! ### Terms without parts -/

/-- Nothing that follows the name goes on with it. -/
theorem not_isNameChar_of_follows (hscope : scope.Proper) (hrest : Follows g scope e rest) :
    ∀ c ∈ rest.head?, isNameChar c = false ∧ c ≠ '=' ∧ c ≠ '(' := by
  intro c hc
  have hall : ((closers ++ marks).all fun c => !isNameChar c && c != '=' && c != '(') = true := by
    decide
  have hmem : c ∈ closers ++ marks := List.mem_append.mpr <|
    (hrest c hc).imp (hscope c) fun h => h.2.2
  simpa [and_assoc] using List.all_eq_true.mp hall c hmem

/-- A name is read up to where it does not go on. -/
theorem takeWhile_name {name : String} (named : IsName name)
    (hrest : ∀ c ∈ rest.head?, isNameChar c = false) :
    (name.toList ++ rest).takeWhile isNameChar = name.toList := by
  rw [List.takeWhile_append_of_pos named.goesOn]
  cases rest with
  | nil => rw [List.takeWhile_nil, List.append_nil]
  | cons c rest =>
    rw [List.takeWhile_cons_of_neg (by simp [hrest c rfl]), List.append_nil]

/-- What is left behind a name is what followed it. -/
theorem dropWhile_name {name : String} (named : IsName name)
    (hrest : ∀ c ∈ rest.head?, isNameChar c = false) :
    (name.toList ++ rest).dropWhile isNameChar = rest := by
  rw [List.dropWhile_append_of_pos named.goesOn]
  cases rest with
  | nil => rfl
  | cons c rest => rw [List.dropWhile_cons_of_neg (by simp [hrest c rfl])]

/-- Where a name has been written, a name starts. -/
theorem startsName_append {name : String} (named : IsName name) (rest : List Char) :
    startsName (name.toList ++ rest) = true := by
  have h := named.starts
  cases hname : name.toList with
  | nil => rw [hname] at h; cases h
  | cons c cs => rw [hname] at h; exact h

/-- A character of a raw pattern as it is written. -/
def slashed (c : Char) : List Char :=
  if c = '/' then ['\\', '/'] else [c]

/-- All characters but slashes are written as they are. -/
theorem flatMap_slashed_cons {c : Char} (hslash : c ≠ '/') (cs : List Char) :
    (c :: cs).flatMap slashed = c :: cs.flatMap slashed := by
  rw [List.flatMap_cons, slashed, if_neg hslash, List.singleton_append]

/-- The characters of a raw pattern come back from between its slashes. -/
theorem spanRaw_print (h : Paired cs) (rest : List Char) :
    spanRaw (cs.flatMap slashed ++ '/' :: rest) = some (cs, rest) := by
  induction h with
  | nil => rfl
  | @escape c cs hslash _ ih =>
    rw [flatMap_slashed_cons (by decide), flatMap_slashed_cons hslash, List.cons_append,
      List.cons_append, spanRaw, ih]
    · rfl
    · exact hslash
  | @plain c cs hbackslash _ ih =>
    -- A slash was written with a backslash in front of it.
    by_cases hslash : c = '/'
    · have hprint : (c :: cs).flatMap slashed = '\\' :: '/' :: cs.flatMap slashed := by
        rw [hslash]
        rfl
      rw [hprint, List.cons_append, List.cons_append, spanRaw, ih, hslash]
      rfl
    · rw [flatMap_slashed_cons hslash, List.cons_append, spanRaw, ih]
      · rfl
      · exact hslash
      · exact fun _ h => absurd h hbackslash
      · exact fun _ _ h => absurd h hbackslash

/-- The characters that mean something outside quotes. -/
def structural : List Char :=
  ['[', ']', '{', '}', '<', '>', '(', ')', ',', '$', '#', '/', '\x60', '?', '*', '+', '-']

/-- A bare literal holds no character that means something outside quotes. -/
theorem not_mem_structural {c : Char} (hc : isBareChar c = true) : c ∉ structural := by
  have hall : (structural.all fun d => !isBareChar d) = true := by decide
  intro hmem
  have hnot := List.all_eq_true.mp hall c hmem
  rw [hc] at hnot
  cases hnot

/-- A bare literal does not stop at a character that it can hold. -/
theorem stopsLiteral_of_isBareChar (hscope : scope.Proper) {c : Char} (hc : isBareChar c = true)
    (afterBlank : Bool) (rest : List Char) : stopsLiteral g scope afterBlank c rest = false := by
  have hends : scope.ends c = false := Bool.eq_false_iff.mpr fun hends => by
    have hall : (closers.all fun d => structural.contains d) = true := by decide
    exact not_mem_structural hc (by simpa using List.all_eq_true.mp hall c (hscope c hends))
  have h := not_mem_structural hc
  simp only [structural, List.mem_cons, List.not_mem_nil, or_false, not_or] at h
  -- Every case in which a literal stops is that of a structural character.
  rw [stopsLiteral.eq_def, hends, Bool.false_or]
  split
  all_goals first | rfl | simp at h

/-- It stops at what can follow it. -/
theorem stopsLiteral_of_follows {text : String} (hrest : Follows g scope (.literal text) rest) :
    ∀ c ∈ rest.head?, ∀ afterBlank more, stopsLiteral g scope afterBlank c more = true := by
  intro c hc afterBlank more
  rw [stopsLiteral.eq_def, Bool.or_eq_true]
  refine (hrest c hc).imp_right fun ⟨hg, _, hmark⟩ => ?_
  simp only [marks, List.mem_cons, List.not_mem_nil, or_false] at hmark
  subst hg
  rcases hmark with rfl | rfl | rfl <;> rfl

/-- A bare literal goes on over its characters and stops at what follows. -/
theorem spanLiteral_print (hscope : scope.Proper) (hbare : ∀ c ∈ cs, isBareChar c = true)
    (hrest : ∀ c ∈ rest.head?, ∀ afterBlank more, stopsLiteral g scope afterBlank c more = true)
    (afterBlank : Bool) : spanLiteral g scope afterBlank (cs ++ rest) = (cs, rest) := by
  induction cs generalizing afterBlank with
  | nil =>
    cases rest with
    | nil => rfl
    | cons c rest => rw [List.nil_append, spanLiteral, if_pos (hrest c rfl _ _)]
  | cons c cs ih =>
    obtain ⟨hc, hcs⟩ := List.forall_mem_cons.mp hbare
    rw [List.cons_append, spanLiteral, stopsLiteral_of_isBareChar hscope hc,
      if_neg Bool.false_ne_true, ih hcs]

/-- A bare literal whose words are spaced singly is read back. -/
theorem bareLiteral_print (hscope : scope.Proper) {text : String} (hne : text.toList ≠ [])
    (hbare : ∀ c ∈ text.toList, isBareChar c = true) (hspaced : Text.Spaced text.toList)
    (hrest : Follows g scope (.literal text) rest) :
    bareLiteral g scope (text.toList ++ rest) = .ok (.literal text, rest) := by
  have hcollapse : Text.collapse (String.ofList text.toList) = text := by
    rw [Text.collapse, String.toList_ofList, Text.intercalate_words hspaced
      fun c hc hblank => eq_space_of_isBareChar hblank (hbare c hc), String.ofList_toList]
  have hempty : text.isEmpty = false := by
    rw [Bool.eq_false_iff]
    exact fun h => hne (by simpa using h)
  rw [bareLiteral, spanLiteral_print hscope hbare (stopsLiteral_of_follows hrest)]
  dsimp only
  rw [hcollapse, hempty, if_neg Bool.false_ne_true]

/-- A character that a bare literal can hold begins one. -/
theorem atom_of_isBareChar [Engine] {c : Char} (hc : isBareChar c = true) :
    atom g scope (n + 1) (c :: cs) = bareLiteral g scope (c :: cs) := by
  have h := not_mem_structural hc
  simp only [structural, List.mem_cons, List.not_mem_nil, or_false, not_or] at h
  rw [atom.eq_def]
  simp only [h, false_and, or_self, if_false]

/-! ### Rows of terms -/

/-- Where the scope ends there are no further terms. -/
theorem sequence_of_ends [Engine] (h : Ends scope rest) (hscope : scope.Proper) :
    sequence g scope (n + 1) rest = .ok ([], rest) := by
  cases rest with
  | nil => rfl
  | cons c rest =>
    have hends : scope.ends c = true := h c rfl
    rw [sequence, skipBlank_cons (not_isBlank_of_mem_closers (hscope c hends))]
    dsimp only
    rw [if_pos hends]

/-- A written term is the whole row when the scope ends after it. -/
theorem sequence_print [Engine] (h : Reads g e) (hscope : scope.Proper) (hrest : Ends scope rest)
    (hn : 5 * e.print.length + 1 ≤ n) (hcs : skipBlank cs = e.print ++ rest) :
    sequence g scope n cs = .ok ([e], rest) := by
  obtain ⟨n, rfl⟩ := Nat.exists_eq_add_of_le' (Nat.one_le_of_lt hn)
  obtain ⟨c, more, hprint, hopens⟩ := h.opens
  have hends : scope.ends c = false :=
    Bool.eq_false_iff.mpr fun hends => hopens.notCloser (hscope c hends)
  have hterm := h.term hscope (hrest.follows (g := g) (e := e)) (n := n) (by omega)
  -- The row takes a step for the term and one for its end.
  obtain ⟨m, rfl⟩ : ∃ m, n = m + 1 := ⟨n - 1, by rw [hprint, List.length_cons] at hn; omega⟩
  rw [hprint, List.cons_append] at hcs hterm
  rw [sequence, hcs]
  dsimp only
  rw [hends, if_neg Bool.false_ne_true, hterm, withMarks_of_ends hrest hscope]
  dsimp only
  rw [sequence_of_ends hrest hscope]

theorem printItems_cons_cons (e d : Expr) (es : List Expr) :
    printItems (e :: d :: es) = e.print ++ ',' :: ' ' :: printItems (d :: es) := by
  rw [printItems]
  exact List.cons_ne_nil _ _

/-- Written items begin where their first item does. -/
theorem printItems_cons [Engine] (h : Reads g e) (es : List Expr) :
    ∃ c cs, printItems (e :: es) = c :: cs ∧ Opens c := by
  obtain ⟨c, cs, hprint, hopens⟩ := h.opens
  cases es with
  | nil => exact ⟨c, cs, by rw [printItems, hprint], hopens⟩
  | cons d es =>
    exact ⟨c, _, by rw [printItems_cons_cons, hprint, List.cons_append], hopens⟩

/-- No blank is passed over in front of written items. -/
theorem skipBlank_printItems [Engine] (h : Reads g e) (es : List Expr) (rest : List Char) :
    skipBlank (printItems (e :: es) ++ rest) = printItems (e :: es) ++ rest := by
  obtain ⟨c, cs, hprint, hopens⟩ := printItems_cons h es
  rw [hprint, List.cons_append, skipBlank_cons hopens.notBlank]

/-- A list ends at a comma or its closer. -/
theorem proper_list {close : Char} (hclose : close ∈ closers) : (Scope.list close).Proper := by
  intro c hc
  rw [Scope.ends, Bool.or_eq_true, beq_iff_eq, beq_iff_eq] at hc
  rcases hc with rfl | rfl
  · decide
  · exact hclose

/-- Written items are read back up to the closer behind them. -/
theorem items_print [Engine] {close : Char} (hclose : close ∈ closers) (hcomma : close ≠ ',') :
    ∀ {es : List Expr} {n : Nat} {cs rest : List Char}, es ≠ [] → (∀ e ∈ es, Reads g e) →
      5 * (printItems es).length + 2 ≤ n → skipBlank cs = printItems es ++ close :: rest →
        items g close n cs = .ok (es, rest)
  | [], _, _, _, hne, _, _, _ => absurd rfl hne
  | [e], n, cs, rest, _, hall, hn, hcs => by
    rw [printItems] at hn hcs
    obtain ⟨n, rfl⟩ := Nat.exists_eq_add_of_le' (Nat.one_le_of_lt hn)
    -- The last item is followed by the closer.
    have hends : Ends (.list close) (close :: rest) := by
      rintro c ⟨⟩
      simp [Scope.ends]
    rw [items, sequence_print (hall e (.head _)) (proper_list hclose) hends (by omega) hcs]
    dsimp only
    rw [skipBlank_cons (not_isBlank_of_mem_closers hclose)]
    dsimp only
    rw [if_neg hcomma, if_pos rfl, combine]
  | e :: d :: es, n, cs, rest, _, hall, hn, hcs => by
    rw [printItems_cons_cons] at hn hcs
    rw [List.length_append, List.length_cons, List.length_cons] at hn
    rw [List.append_assoc] at hcs
    obtain ⟨n, rfl⟩ := Nat.exists_eq_add_of_le' (Nat.one_le_of_lt hn)
    have hends : Ends (.list close) (',' :: ' ' :: printItems (d :: es) ++ close :: rest) := by
      rintro c ⟨⟩
      rfl
    -- Behind the comma stands a space, which the next row passes over.
    have hmore : items g close n (' ' :: printItems (d :: es) ++ close :: rest) =
        .ok (d :: es, rest) := by
      refine items_print hclose hcomma (List.cons_ne_nil _ _) (fun e he => hall e (.tail _ he))
        (by omega) ?_
      exact skipBlank_printItems (hall d (.tail _ (.head _))) es _
    rw [items, sequence_print (hall e (.head _)) (proper_list hclose) hends (by omega) hcs]
    dsimp only
    rw [List.cons_append, skipBlank_cons (by decide)]
    dsimp only
    rw [if_pos rfl, hmore]
    rfl

theorem proper_arguments : Scope.arguments.Proper := by
  intro c hc
  rw [Scope.ends, Bool.or_eq_true, beq_iff_eq, beq_iff_eq] at hc
  rcases hc with rfl | rfl <;> decide

theorem arguments_print [Engine] {name : String} :
    ∀ {es : List Expr} {n : Nat} {cs rest : List Char}, es ≠ [] → (∀ e ∈ es, Reads g e) →
      (∀ e ∈ es, isArgument e = true) → 5 * (printItems es).length + 2 ≤ n →
        skipBlank cs = printItems es ++ ')' :: rest → arguments g name n cs = .ok (es, rest)
  | [], _, _, _, hne, _, _, _, _ => absurd rfl hne
  | [e], n, cs, rest, _, hall, hargument, hn, hcs => by
    rw [printItems] at hn hcs
    obtain ⟨n, rfl⟩ := Nat.exists_eq_add_of_le' (Nat.one_le_of_lt hn)
    have hends : Ends .arguments (')' :: rest) := by
      rintro c ⟨⟩
      rfl
    rw [arguments, sequence_print (hall e (.head _)) proper_arguments hends (by omega) hcs]
    dsimp only
    rw [if_pos (hargument e (.head _)), skipBlank_cons (by decide)]
    rfl
  | e :: d :: es, n, cs, rest, _, hall, hargument, hn, hcs => by
    rw [printItems_cons_cons] at hn hcs
    rw [List.length_append, List.length_cons, List.length_cons] at hn
    rw [List.append_assoc] at hcs
    obtain ⟨n, rfl⟩ := Nat.exists_eq_add_of_le' (Nat.one_le_of_lt hn)
    have hends : Ends .arguments (',' :: ' ' :: printItems (d :: es) ++ ')' :: rest) := by
      rintro c ⟨⟩
      rfl
    have hmore : arguments g name n (' ' :: printItems (d :: es) ++ ')' :: rest) =
        .ok (d :: es, rest) := by
      refine arguments_print (List.cons_ne_nil _ _) (fun e he => hall e (.tail _ he))
        (fun e he => hargument e (.tail _ he)) (by omega) ?_
      exact skipBlank_printItems (hall d (.tail _ (.head _))) es _
    rw [arguments, sequence_print (hall e (.head _)) proper_arguments hends (by omega) hcs]
    dsimp only
    rw [if_pos (hargument e (.head _)), List.cons_append, skipBlank_cons (by decide)]
    show Except.map _ (arguments g name n _) = _
    rw [hmore]
    rfl

/-! ### Terms -/

/-- It is enough to read the term without its marks. -/
theorem reads_of_atom [Engine] {c : Char} {cs : List Char} (hprint : e.print = c :: cs)
    (hopens : Opens c)
    (hatom : ∀ {scope rest n}, scope.Proper → Follows g scope e rest →
      5 * cs.length + 3 ≤ n → atom g scope (n + 1) (c :: cs ++ rest) = .ok (e, rest)) :
    Reads g e where
  opens := ⟨c, cs, hprint, hopens⟩
  term {scope rest n} hscope hrest hn := by
    rw [hprint, List.length_cons] at hn
    obtain ⟨n, rfl⟩ := Nat.exists_eq_add_of_le' (show 2 ≤ n by omega)
    rw [hprint]
    exact term_of_atom (hatom hscope hrest (by omega))

/-- A settled literal is read back, bare or quoted. -/
theorem reads_literal [Engine] {text : String} (unquoted : '\x60' ∉ text.toList)
    (settled : Settled text) : Reads g (.literal text) := by
  by_cases hbare : (!text.toList.isEmpty && text.toList.all isBareChar) = true
  · -- Written bare, the literal has single spaces only, so collapsing leaves it as it is.
    obtain ⟨hne, hall⟩ : text.toList ≠ [] ∧ ∀ c ∈ text.toList, isBareChar c = true := by
      simpa using hbare
    have hspaced : Text.Spaced text.toList := by
      rcases settled with rfl | ⟨c, hc, hnot⟩ | hspaced
      · exact absurd rfl hne
      · exact absurd (hall c hc) (by simp [hnot])
      · exact hspaced
    obtain ⟨c, cs, htext⟩ := List.exists_cons_of_ne_nil hne
    have hc : isBareChar c = true := hall c (htext ▸ .head _)
    have hspace : c ≠ ' ' := fun h => hspaced.starts (by rw [htext, h]; rfl)
    have hprint : (literal text).print = c :: cs := by
      rw [print, printLiteral, if_pos hbare, htext]
    refine reads_of_atom hprint (opens_of_isBareChar hc hspace) fun hscope hrest _ => ?_
    rw [List.cons_append, atom_of_isBareChar hc, ← List.cons_append, ← htext]
    exact bareLiteral_print hscope hne hall hspaced hrest
  · have hprint : (literal text).print = '\x60' :: (text.toList ++ ['\x60']) := by
      rw [print, printLiteral, if_neg hbare]
      rfl
    refine reads_of_atom hprint (by decide) fun {scope rest n} _ _ _ => ?_
    -- Written between backticks, it is taken up to the next one, and none is in it.
    have hquote : atom g scope (n + 1) ('\x60' :: (text.toList ++ ['\x60']) ++ rest) =
        quotedLiteral (text.toList ++ '\x60' :: rest) := by
      rw [atom.eq_def, List.append_cons]
      simp
    have hinside : ∀ c ∈ text.toList, (c != '\x60') = true := fun c hc => by
      rw [bne_iff_ne]
      rintro rfl
      exact unquoted hc
    rw [hquote, quotedLiteral, List.dropWhile_append_of_pos hinside,
      List.takeWhile_append_of_pos hinside]
    simp

/-- A bracketed list is read back if its items are, whatever its brackets mean. -/
theorem reads_list [Engine] {f : List Expr → Expr} {es : List Expr} {c close : Char}
    (mark : List Char)
    (hprint : (f es).print = c :: (mark ++ printItems es ++ [close])) (hopens : Opens c)
    (hclose : close ∈ closers) (hcomma : close ≠ ',') (hne : es ≠ []) (hall : ∀ e ∈ es, Reads g e)
    (hatom : ∀ {scope n d cs}, d ≠ '!' → atom g scope (n + 1) (c :: (mark ++ d :: cs)) =
      (items g close n (d :: cs)).map fun (es, rest) => (f es, rest)) : Reads g (f es) := by
  refine reads_of_atom hprint hopens fun {scope rest n} _ _ hn => ?_
  obtain ⟨e, more, rfl⟩ := List.exists_cons_of_ne_nil hne
  obtain ⟨d, ds, hitems, hd⟩ := printItems_cons (hall e (.head _)) more
  have hblank := skipBlank_printItems (hall e (.head _)) more (close :: rest)
  rw [List.length_append, List.length_append] at hn
  have hread : items g close n (printItems (e :: more) ++ close :: rest) = .ok (e :: more, rest) :=
    items_print hclose hcomma hne hall (by omega) hblank
  have hsource : c :: (mark ++ printItems (e :: more) ++ [close]) ++ rest =
      c :: (mark ++ (printItems (e :: more) ++ close :: rest)) := by simp
  rw [hsource]
  -- What stands behind the bracket begins with the first item, so it is no exclamation mark.
  rw [hitems, List.cons_append] at hread ⊢
  rw [hatom hd.notBang, hread]
  rfl

/-- A flexible row is read back from its square brackets. -/
theorem reads_flexible [Engine] {es : List Expr} (hne : es ≠ []) (hall : ∀ e ∈ es, Reads g e) :
    Reads g (.flexible es) := by
  refine reads_list [] rfl (by decide) (by decide) (by decide) hne hall fun hd => ?_
  rw [List.nil_append, atom.eq_def]
  simp [hd]

/-- A rigid row is read back; the mark behind its bracket is not one of its first item. -/
theorem reads_rigid [Engine] {es : List Expr} (hne : es ≠ []) (hall : ∀ e ∈ es, Reads g e) :
    Reads g (.rigid es) :=
  reads_list ['!'] rfl (by decide) (by decide) (by decide) hne hall fun _ => by
    rw [atom.eq_def]
    rfl

/-- A disjunction is read back from its braces. -/
theorem reads_disjunction [Engine] {es : List Expr} (hne : es ≠ []) (hall : ∀ e ∈ es, Reads g e) :
    Reads g (.disjunction es) :=
  reads_list [] rfl (by decide) (by decide) (by decide) hne hall fun _ => by
    rw [atom.eq_def]
    rfl

/-- A conjunction is read back from its angle brackets, which only the matching grammar has. -/
theorem reads_conjunction [Engine] (hg : g = .matching) {es : List Expr} (hne : es ≠ [])
    (hall : ∀ e ∈ es, Reads g e) : Reads g (.conjunction es) :=
  reads_list [] rfl (by decide) (by decide) (by decide) hne hall fun _ => by
    rw [atom.eq_def]
    simp [hg]

/-- A term with a mark is read back if the term in front of the mark is. -/
theorem reads_marked [Engine] (hg : g = .matching) {body marked : Expr} {c : Char} (hc : c ∈ marks)
    (hprint : marked.print = body.print ++ [c])
    (hmarks : ∀ rest, applyMarks body (c :: rest) = applyMarks marked rest)
    (markable : Markable body) (h : Reads g body) : Reads g marked where
  opens := by
    obtain ⟨d, ds, hbody, hopens⟩ := h.opens
    exact ⟨d, ds ++ [c], by rw [hprint, hbody, List.cons_append], hopens⟩
  term {scope rest n} hscope _ hn := by
    have hrest : Follows g scope body (c :: rest) := by
      rintro d ⟨⟩
      exact .inr ⟨hg, markable, hc⟩
    rw [hprint, List.length_append] at hn
    rw [hprint, List.append_assoc, List.singleton_append, h.term hscope hrest (by omega),
      withMarks, withMarks, if_pos hg, if_pos hg, hmarks]

/-- A negation is read back with the term behind its sign. -/
theorem reads_negation [Engine] (hg : g = .matching) {body : Expr} (h : Reads g body) :
    Reads g (.negation body) := by
  refine reads_of_atom rfl (by decide) fun {scope rest n} hscope hrest hn => ?_
  -- A negation takes no marks, so only the end of the scope can follow it.
  have hends : Ends scope rest := fun c hc => (hrest c hc).resolve_right fun h => h.2.1
  obtain ⟨d, ds, hprint, hopens⟩ := h.opens
  have hbody : Parser.term g scope n (skipBlank (body.print ++ rest)) = .ok (body, rest) := by
    rw [hprint, List.cons_append, skipBlank_cons hopens.notBlank, ← List.cons_append, ← hprint,
      h.term hscope hends.follows (by omega), withMarks_of_ends hends hscope]
  subst hg
  rw [List.cons_append, atom.eq_def]
  simp [hbody, Except.map]

/-- A raw pattern is read back from between its slashes, if the engine can read it. -/
theorem reads_raw [Engine] (hg : g = .matching) {pattern : String} (paired : Paired pattern.toList)
    (readable : (Engine.read? pattern).isSome = true) : Reads g (.raw pattern) := by
  refine reads_of_atom rfl (by decide) fun {scope rest n} hscope hrest hn => ?_
  have hspan : spanRaw (pattern.toList.flatMap slashed ++ ['/'] ++ rest) =
      some (pattern.toList, rest) := by
    rw [List.append_assoc]
    exact spanRaw_print paired rest
  have hraw : rawPattern ('/' :: (pattern.toList.flatMap slashed ++ ['/'] ++ rest)) =
      .ok (.raw pattern, rest) := by
    rw [rawPattern, List.drop_one, List.tail_cons, hspan]
    dsimp only
    rw [String.ofList_toList, if_pos readable]
  subst hg
  rw [List.cons_append, atom.eq_def, ← hraw]
  rfl

/-- A reference is read back: its name ends where it ended, and no equals sign follows. -/
theorem reads_reference [Engine] {name : String} (named : IsName name) :
    Reads g (.reference name) := by
  refine reads_of_atom rfl (by decide) fun {scope rest n} hscope hrest hn => ?_
  have hnext := not_isNameChar_of_follows hscope hrest
  have hname := takeWhile_name named fun c hc => (hnext c hc).1
  have hafter := dropWhile_name named fun c hc => (hnext c hc).1
  rw [List.cons_append, atom.eq_def]
  simp only [startsName_append named, hname, hafter, Char.reduceEq, false_and, and_self, if_true,
    if_false, String.ofList_toList]
  -- An equals sign would make it an assignment.
  split
  · exact absurd rfl (hnext '=' rfl).2.1
  · rfl

/-- An assignment is read back with the value behind its equals sign. -/
theorem reads_assignment [Engine] {name : String} {value : Expr} (named : IsName name)
    (h : Reads g value) : Reads g (.assignment name value) := by
  refine reads_of_atom (show (assignment name value).print = '$' :: (name.toList ++ '=' :: value.print)
    from rfl) (by decide) fun {scope rest n} hscope hrest hn => ?_
  have hends : Ends scope rest := fun c hc => (hrest c hc).resolve_right fun h => h.2.1
  have hequals : ∀ c ∈ ('=' :: (value.print ++ rest)).head?, isNameChar c = false := by
    rintro c ⟨⟩
    decide
  obtain ⟨d, ds, hprint, hopens⟩ := h.opens
  have hvalue : Parser.term g scope n (skipBlank (value.print ++ rest)) = .ok (value, rest) := by
    rw [hprint, List.cons_append, skipBlank_cons hopens.notBlank, ← List.cons_append, ← hprint,
      h.term hscope hends.follows (by simp at hn; omega), withMarks_of_ends hends hscope]
  rw [List.cons_append, List.append_assoc, List.cons_append, atom.eq_def]
  simp only [startsName_append named, takeWhile_name named hequals, dropWhile_name named hequals,
    Char.reduceEq, false_and, and_self, if_true, if_false, String.ofList_toList, hvalue]
  rfl

/-- A call is read back, with its arguments or without any. -/
theorem reads_call [Engine] {name : String} {args : List Expr} (named : IsName name)
    (harguments : ∀ e ∈ args, isArgument e = true) (hall : ∀ e ∈ args, Reads g e) :
    Reads g (.call name args) := by
  cases args with
  | nil =>
    refine reads_of_atom rfl (by decide) fun {scope rest n} hscope hrest hn => ?_
    have hnext := not_isNameChar_of_follows hscope hrest
    have hname := takeWhile_name named fun c hc => (hnext c hc).1
    have hafter := dropWhile_name named fun c hc => (hnext c hc).1
    rw [List.cons_append, atom.eq_def]
    simp only [startsName_append named, hname, hafter, Char.reduceEq, false_and, and_self, if_true,
      if_false, String.ofList_toList]
    -- An opening bracket would begin arguments.
    split
    · exact absurd rfl (hnext '(' rfl).2.2
    · rfl
  | cons e es =>
    refine reads_of_atom (show (call name (e :: es)).print =
      '#' :: (name.toList ++ '(' :: printItems (e :: es) ++ [')']) from rfl) (by decide)
      fun {scope rest n} hscope hrest hn => ?_
    have hopen : ∀ c ∈ ('(' :: (printItems (e :: es) ++ ')' :: rest)).head?,
        isNameChar c = false := by
      rintro c ⟨⟩
      decide
    obtain ⟨d, ds, hprint, hopens⟩ := printItems_cons (hall e (.head _)) es
    have hblank := skipBlank_printItems (hall e (.head _)) es (')' :: rest)
    have hargs : arguments g name n (printItems (e :: es) ++ ')' :: rest) = .ok (e :: es, rest) :=
      arguments_print (List.cons_ne_nil _ _) hall harguments (by simp at hn; omega) hblank
    have hsource : '#' :: (name.toList ++ '(' :: printItems (e :: es) ++ [')']) ++ rest =
        '#' :: (name.toList ++ '(' :: (printItems (e :: es) ++ ')' :: rest)) := by simp
    rw [hsource, atom.eq_def]
    simp only [startsName_append named, takeWhile_name named hopen, dropWhile_name named hopen,
      Char.reduceEq, false_and, and_self, if_true, if_false, String.ofList_toList, hblank]
    rw [hprint, List.cons_append] at hargs ⊢
    -- The first argument does not begin with the closing bracket, so the list is not empty.
    have hd : d ≠ ')' := fun h => hopens.notCloser (by rw [h]; decide)
    simp [hd, hargs, Except.map]

/-- Every tree of the grammar is read back from the way it is written. -/
theorem reads_of_spelled [Engine] (h : Spelled g e)
    (hsettled : ∀ text, .literal text ∈ e.nodes → Settled text) : Reads g e := by
  have hitem {es : List Expr} (h : ∀ text, .literal text ∈ nodesOf es → Settled text) :
      ∀ e ∈ es, ∀ text, .literal text ∈ e.nodes → Settled text :=
    fun _ he text hnode => h text (nodes_subset_nodesOf he hnode)
  induction h with
  | literal unquoted => exact reads_literal unquoted (hsettled _ (.head _))
  | flexible nonempty _ ih =>
    have hsettled := hitem fun text h => hsettled text (.tail _ h)
    exact reads_flexible nonempty fun e he => ih e he (hsettled e he)
  | rigid nonempty _ ih =>
    have hsettled := hitem fun text h => hsettled text (.tail _ h)
    exact reads_rigid nonempty fun e he => ih e he (hsettled e he)
  | conjunction grammar nonempty _ ih =>
    have hsettled := hitem fun text h => hsettled text (.tail _ h)
    exact reads_conjunction grammar nonempty fun e he => ih e he (hsettled e he)
  | disjunction nonempty _ ih =>
    have hsettled := hitem fun text h => hsettled text (.tail _ h)
    exact reads_disjunction nonempty fun e he => ih e he (hsettled e he)
  | optional grammar markable _ ih =>
    exact reads_marked grammar (by decide) rfl (fun _ => rfl) markable
      (ih fun text h => hsettled text (.tail _ h))
  | star grammar markable _ ih =>
    exact reads_marked grammar (by decide) rfl (fun _ => rfl) markable
      (ih fun text h => hsettled text (.tail _ h))
  | plus grammar markable _ ih =>
    exact reads_marked grammar (by decide) rfl (fun _ => rfl) markable
      (ih fun text h => hsettled text (.tail _ h))
  | negation grammar _ ih =>
    exact reads_negation grammar (ih fun text h => hsettled text (.tail _ h))
  | raw grammar paired readable => exact reads_raw grammar paired readable
  | reference named => exact reads_reference named
  | assignment named _ ih =>
    exact reads_assignment named (ih fun text h => hsettled text (.tail _ h))
  | call named arguments _ ih =>
    have hsettled := hitem fun text h => hsettled text (.tail _ h)
    exact reads_call named arguments fun e he => ih e he (hsettled e he)

end Parser

/-- A tree that some source spells is spelled by the way it is written, if it is not empty and its
literals are settled. -/
theorem parse_render [Engine] {g : Grammar} {source : String} {tree : Expr}
    (h : parse g source = .ok tree) (hne : tree ≠ .rigid [])
    (hsettled : ∀ text, .literal text ∈ tree.nodes → Settled text) :
    parse g tree.render = .ok tree := by
  obtain ⟨hspelled, hallowed⟩ := spelled_of_parse h hne
  have hreads := Parser.reads_of_spelled hspelled hsettled
  obtain ⟨c, cs, hprint, hopens⟩ := hreads.opens
  have hblank : Parser.skipBlank tree.print = tree.print ++ [] := by
    rw [hprint, Parser.skipBlank_cons hopens.notBlank, List.append_nil]
  -- At the top nothing ends a row but the end of the source.
  have hterms : Parser.sequence g .top (Parser.enough tree.print.length) tree.print =
      .ok ([tree], []) :=
    Parser.sequence_print hreads (fun _ h => nomatch h) (fun _ h => nomatch h)
      (by rw [Parser.enough]; omega) hblank
  rw [parse, render, String.toList_ofList]
  dsimp only
  rw [hterms]
  dsimp only
  rw [Parser.combine, hallowed]

/-- A greeting, with or without a name that is not the quoted text. -/
def greeting : Expr :=
  .rigid [.literal "hi there",
    .optional (.disjunction [.reference "name", .negation (.literal "a, b")])]

/-- A source of the greeting, with more spaces than it is written with. -/
theorem parse_greeting :
    parse .matching "hi  there \x7b$name, - \x60a, b\x60\x7d?" = .ok greeting := by cbv

/-- One literal is spaced singly, the other has a comma and is quoted. -/
theorem settled_greeting : ∀ text, .literal text ∈ greeting.nodes → Settled text := by
  intro text h
  simp only [greeting, nodes, nodesOf, List.mem_cons, List.mem_append, List.not_mem_nil,
    reduceCtorEq, or_false, false_or, literal.injEq] at h
  rcases h with rfl | rfl
  · exact .inr (.inr ⟨by decide, by decide, by decide⟩)
  · exact .inr (.inl ⟨',', by decide, by decide⟩)

/-- The spacing of the source is lost, the tree is not. -/
theorem parse_render_greeting :
    greeting.render = "[!hi there, \x7b$name, -\x60a, b\x60\x7d?]" ∧
      parse .matching greeting.render = .ok greeting :=
  ⟨by decide +kernel, parse_render parse_greeting (by rintro ⟨⟩) settled_greeting⟩

end Colloquy.Expr
