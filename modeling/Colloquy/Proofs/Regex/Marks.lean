import Mathlib
import Colloquy.Proofs.Regex.Printed

/-!
# Groups in a pattern's text

`scan` goes through the text of a pattern and marks where its groups open and close and where they
are referred to, in any of the notations that the reader knows.  For the rest it knows no more of
the syntax than that a backslash takes the next character with it and that parentheses nest; classes
in brackets, which only raw patterns have, it does not know.

An expression has marks of its own, those of the groups of its assignments.  In what can be written
out without captures and embedded patterns nothing is marked (`scans_print`), whatever characters it
matches: the printer puts a backslash in front of each parenthesis.
-/

namespace Colloquy.Regex

/-! ### Marks -/

/-- Where a group opens, where it closes, and where it is referred to. -/
inductive Mark (ν : Type)
  | opening (name : ν)
  | closing (name : ν)
  | reference (name : ν)
  deriving DecidableEq

namespace Mark

variable {ν μ : Type}

/-- The mark with another name. -/
def map (f : ν → μ) : Mark ν → Mark μ
  | opening name => opening (f name)
  | closing name => closing (f name)
  | reference name => reference (f name)

/-- The group that opens. -/
def opening? : Mark ν → Option ν
  | opening name => some name
  | closing _ | reference _ => none

/-- The group that closes. -/
def closing? : Mark ν → Option ν
  | closing name => some name
  | opening _ | reference _ => none

/-- A group opens or closes. -/
def isBracket : Mark ν → Bool
  | opening _ | closing _ => true
  | reference _ => false

end Mark

/-- The groups, in the order in which they open. -/
def openings {ν : Type} (marks : List (Mark ν)) : List ν :=
  marks.filterMap Mark.opening?

/-- The groups, in the order in which they close. -/
def closings {ν : Type} (marks : List (Mark ν)) : List ν :=
  marks.filterMap Mark.closing?

section

variable {ν : Type} (name : ν) (ms ms' : List (Mark ν))

/-- The groups that close are those with a closing mark. -/
theorem mem_closings {name : ν} {ms : List (Mark ν)} : .closing name ∈ ms ↔ name ∈ closings ms := by
  rw [closings, List.mem_filterMap]
  constructor
  · exact fun h => ⟨_, h, rfl⟩
  · rintro ⟨_ | _ | _, hmem, heq⟩ <;> cases heq
    exact hmem

/-- The groups of two parts close one part after the other. -/
theorem closings_append : closings (ms ++ ms') = closings ms ++ closings ms' :=
  List.filterMap_append

/-- The groups of two parts open one part after the other. -/
theorem openings_append : openings (ms ++ ms') = openings ms ++ openings ms' :=
  List.filterMap_append

/-- A group closes after the groups in it. -/
theorem closings_group :
    closings (.opening name :: ms ++ [.closing name]) = closings ms ++ [name] := by
  rw [List.cons_append, closings, List.filterMap_cons_none rfl, ← closings, closings_append]
  rfl

/-- A group opens before the groups in it. -/
theorem openings_group :
    openings (.opening name :: ms ++ [.closing name]) = name :: openings ms := by
  have hopening : (Mark.opening name).opening? = some name := rfl
  rw [List.cons_append, openings, List.filterMap_cons_some hopening, ← openings, openings_append]
  exact congrArg _ (List.append_nil _)

end

/-- The marks of an expression: those of the groups of assignments. -/
def marks : Regex → List (Mark Nat)
  | capture (.assigned i) r => .opening i :: r.marks ++ [.closing i]
  | backref (.assigned i) | captured (.assigned i) => [.reference i]
  | seq a b | alt a b => a.marks ++ b.marks
  | conditional c a b => c.marks ++ a.marks ++ b.marks
  | capture _ r | group r | ahead _ r | behind _ _ r | loop r .. | atomic r | embedded _ r => r.marks
  | backref _ | captured _ | empty | char _ | any | set _ | anchor _ | unreadable _ => []

/-- The groups that open among the marks are those of assignments. -/
theorem mem_openings_marks {r : Regex} {i : Nat} :
    i ∈ openings r.marks ↔ .assigned i ∈ r.labels := by
  induction r with
  | seq a b iha ihb | alt a b iha ihb =>
    rw [marks, openings_append, List.mem_append, labels, List.mem_append, iha, ihb]
  | conditional c a b ihc iha ihb =>
    rw [marks, openings_append, openings_append, List.mem_append, List.mem_append, labels,
      List.mem_append, List.mem_append, ihc, iha, ihb]
  | capture l r ih =>
    -- Only the groups of assignments have marks.
    cases l with
    | assigned j =>
      rw [marks, openings_group, List.mem_cons, labels, List.mem_cons, ih, Label.assigned.injEq]
    | plain k | named name k =>
      show i ∈ openings r.marks ↔ _
      rw [ih, labels, List.mem_cons, or_iff_right (by simp)]
  | group r ih | ahead _ r ih | behind _ _ r ih | loop r _ _ _ ih | atomic r ih | embedded _ r ih =>
    exact ih
  | backref l | captured l => cases l <;> exact iff_of_false (List.not_mem_nil) List.not_mem_nil
  | empty | char | any | set | anchor | unreadable =>
    exact iff_of_false List.not_mem_nil List.not_mem_nil

/-- Numbering the groups of raw patterns on leaves the marks as they are. -/
theorem marks_shiftOwn (n : Nat) (r : Regex) : (r.shiftOwn n).marks = r.marks := by
  induction r with
  | seq a b iha ihb | alt a b iha ihb => rw [shiftOwn, marks, iha, ihb, marks]
  | conditional c a b ihc iha ihb => rw [shiftOwn, marks, ihc, iha, ihb, marks]
  | capture l r ih =>
    cases l with
    | assigned i => rw [shiftOwn, Label.shift, marks, ih, marks]
    | plain | named => exact ih
  | group r ih | ahead _ r ih | behind _ _ r ih | loop r _ _ _ ih | atomic r ih | embedded _ r ih =>
    exact ih
  | backref l | captured l => cases l <;> rfl
  | empty | char | any | set | anchor | unreadable => rfl

/-- A name up to what closes it. -/
def nameUpTo (close : Char) (cs : List Char) : List Char :=
  cs.takeWhile (· ≠ close)

/-- The marks of a pattern's text.  `pending` holds the parentheses that are open, those of groups
with the group's name; a group without one has the empty name, and a reference by number is to its
first digit. -/
def scan (pending : List (Option (List Char))) : List Char → List (Mark (List Char))
  | [] => []
  | '\\' :: 'k' :: '<' :: cs => .reference (nameUpTo '>' cs) :: scan pending cs
  | '\\' :: c :: cs => if c.isDigit then .reference [c] :: scan pending cs else scan pending cs
  | '(' :: '?' :: 'P' :: '<' :: cs =>
    .opening (nameUpTo '>' cs) :: scan (some (nameUpTo '>' cs) :: pending) cs
  | '(' :: '?' :: 'P' :: '=' :: cs => .reference (nameUpTo ')' cs) :: scan (none :: pending) cs
  | '(' :: '?' :: '<' :: c :: cs =>
    if c = '=' ∨ c = '!' then scan (none :: pending) cs
    else .opening (nameUpTo '>' (c :: cs)) :: scan (some (nameUpTo '>' (c :: cs)) :: pending) cs
  | '(' :: '?' :: cs => scan (none :: pending) cs
  | '(' :: cs => .opening [] :: scan (some [] :: pending) cs
  | ')' :: cs =>
    match pending with
    | some name :: pending => .closing name :: scan pending cs
    | none :: pending => scan pending cs
    | [] => scan [] cs
  | _ :: cs => scan pending cs

/-! ### Texts with marks -/

/-- Going through the text gives these marks, and leaves open what was open before. -/
def Scans (cs : List Char) (marks : List (Mark (List Char))) : Prop :=
  ∀ pending rest, scan pending (cs ++ rest) = marks ++ scan pending rest

/-- The character takes no part in groups and references. -/
def isInert (c : Char) : Bool :=
  c ≠ '\\' && c ≠ '(' && c ≠ ')'

variable {c : Char} {cs cs' name : List Char} {ms ms' : List (Mark (List Char))}

/-- A character that takes no part is passed over. -/
theorem scan_inert (hc : isInert c = true) (pending : List (Option (List Char))) (rest : List Char) :
    scan pending (c :: rest) = scan pending rest := by
  simp only [isInert, Bool.and_eq_true, decide_eq_true_eq] at hc
  rw [scan] <;> simp_all

/-- An escape that refers to no group is passed over. -/
theorem scan_escape (hk : c ≠ 'k') (hdigit : c.isDigit = false)
    (pending : List (Option (List Char))) (rest : List Char) : scan pending ('\\' :: c :: rest) = scan pending rest := by
  rw [scan, hdigit]
  · rfl
  · exact fun _ h _ => absurd h hk

/-- Parentheses that capture nothing are opened without a mark. -/
theorem scan_group (hc : isInert c = true) (hname : c ∉ ['P', '<'])
    (pending : List (Option (List Char))) (rest : List Char) :
    scan pending ('(' :: '?' :: c :: rest) = scan (none :: pending) rest := by
  rw [List.mem_pair, not_or] at hname
  rw [scan, scan_inert hc]
  · exact fun _ h => hname.1 (List.cons.inj h).1
  · exact fun _ h => hname.1 (List.cons.inj h).1
  · exact fun _ _ h => hname.2 (List.cons.inj h).1

namespace Scans

/-- The empty text has no marks. -/
theorem nil : Scans [] [] :=
  fun _ _ => rfl

/-- The marks of two texts stand one behind the other. -/
theorem append (h : Scans cs ms) (h' : Scans cs' ms') : Scans (cs ++ cs') (ms ++ ms') := by
  intro pending rest
  rw [List.append_assoc, h, h', List.append_assoc]

/-- Characters that take no part have no marks. -/
theorem inert (h : ∀ c ∈ cs, isInert c = true) : Scans cs [] := by
  intro pending rest
  induction cs with
  | nil => rfl
  | cons c cs ih =>
    rw [List.forall_mem_cons] at h
    rw [List.cons_append, scan_inert h.1, ih h.2]

/-- A character that takes no part has no marks. -/
theorem inert_char (hc : isInert c = true) : Scans [c] [] :=
  .inert (List.forall_mem_singleton.mpr hc)

/-- An escape that refers to no group has no marks. -/
theorem escape (hk : c ≠ 'k') (hdigit : c.isDigit = false) : Scans ['\\', c] [] :=
  fun pending rest => scan_escape hk hdigit pending rest

/-- Parentheses that capture nothing have the marks of what they enclose. -/
theorem group (h : Scans cs ms) (hc : isInert c = true) (hname : c ∉ ['P', '<']) :
    Scans ('(' :: '?' :: c :: cs ++ [')']) ms := by
  intro pending rest
  have hclose : scan (none :: pending) (')' :: rest) = scan pending rest := by rw [scan]
  rw [List.append_assoc, List.cons_append, List.cons_append, List.cons_append, scan_group hc hname, h,
    List.singleton_append, hclose]

/-- A name ends at the bracket behind it. -/
theorem nameUpTo_append (hname : '>' ∉ name) (rest : List Char) :
    nameUpTo '>' (name ++ '>' :: rest) = name := by
  rw [nameUpTo, List.takeWhile_append_of_pos, List.takeWhile_cons_of_neg (by simp), List.append_nil]
  intro c hc
  exact decide_eq_true fun heq => hname (heq ▸ hc)

/-- A group with a name. -/
theorem capture (h : Scans cs ms) (hinert : ∀ c ∈ name, isInert c = true) (hname : '>' ∉ name) :
    Scans ("(?P<".toList ++ name ++ '>' :: cs ++ [')']) (.opening name :: ms ++ [.closing name]) := by
  intro pending rest
  have hinside : Scans (name ++ '>' :: cs) ms := by
    have hhead : Scans (name ++ ['>']) [] := by
      refine inert (List.forall_mem_append.mpr ⟨hinert, ?_⟩)
      rw [List.forall_mem_singleton]
      decide
    simpa using hhead.append h
  -- The parenthesis that closes the group is the one whose name is pending.
  have hclose : scan (some name :: pending) (')' :: rest) = .closing name :: scan pending rest := by
    rw [scan]
  have hopen (cs : List Char) : scan pending ('(' :: '?' :: 'P' :: '<' :: cs) =
      .opening (nameUpTo '>' cs) :: scan (some (nameUpTo '>' cs) :: pending) cs := by
    rw [scan]
  calc scan pending ("(?P<".toList ++ name ++ '>' :: cs ++ [')'] ++ rest)
      = scan pending ('(' :: '?' :: 'P' :: '<' :: (name ++ '>' :: (cs ++ ')' :: rest))) := by simp
    _ = .opening name :: scan (some name :: pending) ((name ++ '>' :: cs) ++ ')' :: rest) := by
      rw [hopen, nameUpTo_append hname, List.append_assoc, List.cons_append]
    _ = (.opening name :: ms ++ [.closing name]) ++ scan pending rest := by
      rw [hinside, hclose]
      simp

/-- A reference by a name has the mark of this name. -/
theorem reference (hinert : ∀ c ∈ name, isInert c = true) (hname : '>' ∉ name) :
    Scans ("\\k<".toList ++ name ++ ['>']) [.reference name] := by
  intro pending rest
  have hinside : Scans (name ++ ['>']) [] := by
    refine inert (List.forall_mem_append.mpr ⟨hinert, ?_⟩)
    rw [List.forall_mem_singleton]
    decide
  have href (cs : List Char) : scan pending ('\\' :: 'k' :: '<' :: cs) =
      .reference (nameUpTo '>' cs) :: scan pending cs := by
    rw [scan]
  calc scan pending ("\\k<".toList ++ name ++ ['>'] ++ rest)
      = scan pending ('\\' :: 'k' :: '<' :: (name ++ '>' :: rest)) := by simp
    _ = .reference name :: scan pending ((name ++ ['>']) ++ rest) := by
      rw [href, nameUpTo_append hname, List.append_assoc, List.singleton_append]
    _ = [.reference name] ++ scan pending rest := by rw [hinside]; rfl

end Scans

/-! ### What is printed -/

/-- A digit by itself takes no part. -/
theorem isInert_of_isDigit (h : c.isDigit = true) : isInert c = true := by
  rw [isInert]
  refine Bool.and_eq_true_iff.mpr ⟨Bool.and_eq_true_iff.mpr ⟨?_, ?_⟩, ?_⟩ <;>
  · refine decide_eq_true ?_
    rintro rfl
    exact absurd h (by decide)

/-- A number is written with digits. -/
theorem isDigit_of_mem_printNat {n : Nat} (h : c ∈ printNat n) : c.isDigit = true :=
  Nat.isDigit_of_mem_toDigits (by decide) (by decide) h

/-- The name of a group has only characters that take no part by themselves. -/
theorem isInert_of_mem_groupName {i : Nat} : ∀ c ∈ groupName i, isInert c = true := by
  rw [groupName, List.forall_mem_cons]
  exact ⟨by decide, fun c hc => isInert_of_isDigit (isDigit_of_mem_printNat hc)⟩

/-- The name of a group does not hold what closes it. -/
theorem bracket_notMem_groupName {i : Nat} : '>' ∉ groupName i := by
  rw [groupName, List.mem_cons, not_or]
  refine ⟨by decide, fun h => ?_⟩
  exact absurd (isDigit_of_mem_printNat h) (by decide)

/-- Different groups have different names. -/
theorem groupName_injective : Function.Injective groupName := by
  intro i j h
  have hdigits : Nat.toDigits 10 i = Nat.toDigits 10 j := (List.cons.inj h).2
  rw [← Nat.ofDigitChars_toDigits (b := 10) (n := i) (by decide) (by decide), hdigits,
    Nat.ofDigitChars_toDigits (by decide) (by decide)]

/-- A written character has no marks. -/
theorem scans_printChar (c : Char) : Scans (printChar c) [] := by
  rw [printChar]
  split
  · rename_i hspecial
    rw [isSpecial, List.contains_iff_mem] at hspecial
    refine .escape ?_ ?_
    · rintro rfl
      exact absurd hspecial (by decide)
    · fin_cases hspecial <;> rfl
  · rename_i hspecial
    refine .inert_char ?_
    simp only [isSpecial, List.contains_iff_mem, List.mem_cons, not_or] at hspecial
    simp [isInert, hspecial]

/-- A written number has no marks. -/
theorem scans_printNat (n : Nat) : Scans (printNat n) [] :=
  .inert fun _ hc => isInert_of_isDigit (isDigit_of_mem_printNat hc)

/-- A repetition mark has no marks of groups. -/
theorem scans_printCount (least : Nat) (most : Option Nat) (greedy : Bool) :
    Scans (printCount least most greedy) [] := by
  have hsign {c : Char} (hc : c ∈ ['?', '*', '+', '{', ',', '}']) : Scans [c] [] := by
    refine .inert_char ?_
    fin_cases hc <;> rfl
  have hcount (n : Nat) : Scans ('{' :: printNat n) [] :=
    (hsign (by decide)).append (scans_printNat n)
  have hclose : Scans ['}'] [] := hsign (by decide)
  unfold printCount
  -- The mark, and behind it the sign of a reluctant one.
  refine @Scans.append _ _ [] [] ?_ ?_
  · split
    · exact hsign (by decide)
    · exact hsign (by decide)
    · exact hsign (by decide)
    · exact (hcount _).append ((hsign (by decide)).append hclose)
    · split
      · exact (hcount _).append hclose
      · exact ((hcount _).append ((hsign (by decide)).append (scans_printNat _))).append hclose
  · split
    · exact .nil
    · exact hsign (by decide)

/-- An escaped class of characters has no marks. -/
theorem scans_printProperty {p : CharProperty} (negated : Bool) (h : p ≠ .letter) :
    Scans (printProperty p negated) [] := by
  cases p with
  | letter => exact absurd rfl h
  | word | digit | space | hexDigit => cases negated <;> exact .escape (by decide) (by decide)

/-- A written anchor has no marks. -/
theorem scans_printAnchor (a : Anchor) : Scans (printAnchor a) [] := by
  cases a with
  | start | stop => exact .inert_char (by decide)
  | wordEdge | noWordEdge => exact .escape (by decide) (by decide)

/-- Looking ahead has the marks of what is looked at. -/
theorem scans_ahead {r : Regex} (negated : Bool) (h : Scans r.print ms) :
    Scans (ahead negated r).print ms := by
  cases negated <;> exact h.group (by decide) (by decide)

/-- A repetition has the marks of what is repeated. -/
theorem scans_loop {r : Regex} (h : Scans r.print ms) (least : Nat) (most : Option Nat)
    (greedy : Bool) : Scans (loop r least most greedy).print ms := by
  have hloop := h.append (scans_printCount least most greedy)
  rwa [List.append_nil] at hloop

/-- A choice has the marks of its alternatives, one after the other. -/
theorem scans_alt {a b : Regex} (h : Scans a.print ms) (h' : Scans b.print ms') :
    Scans (alt a b).print (ms ++ ms') := by
  have hbar : Scans ['|'] [] := .inert_char (by decide)
  exact h.append (hbar.append h')

/-- What can be written out without captures and embedded patterns has no marks. -/
theorem Written.scans {level : Level} {r : Regex} (h : Written level r) : Scans r.print [] := by
  induction h with
  | char c => exact scans_printChar c
  | any => exact .inert_char (by decide)
  | property negated h => exact scans_printProperty negated h
  | anchor a => exact scans_printAnchor a
  | group _ ih => exact ih.group (by decide) (by decide)
  | ahead negated _ ih => exact scans_ahead negated ih
  | empty => exact .nil
  | seq _ _ iha ihb => exact iha.append ihb
  | loop greedy _ _ ih => exact scans_loop ih _ _ greedy
  | row _ ih | one _ ih => exact ih
  | alt _ _ iha ihb => exact scans_alt iha ihb

/-- What is written out has no marks. -/
theorem Written.marks_eq_nil {level : Level} {r : Regex} (h : Written level r) : r.marks = [] := by
  induction h with
  | seq _ _ iha ihb | alt _ _ iha ihb => rw [marks, iha, ihb, List.nil_append]
  | group _ ih | ahead _ _ ih | loop _ _ _ ih | row _ ih | one _ ih => exact ih
  | char | any | property | anchor | empty => rfl

/-- The flags in front of every pattern have no marks. -/
theorem scans_flags : Scans "(?is)".toList [] :=
  (@Scans.inert_char 's' (by decide)).group (by decide) (by decide)

end Colloquy.Regex
