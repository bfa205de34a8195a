import Colloquy.Proofs.Expr.Progress
import Mathlib.Data.String.Basic

/-!
# Reading by byte positions

A second parser, which does not carry the characters that are left but a position in the source,
counted in bytes.  It looks at the source by cutting it at positions, and a cut fails unless it lies
between two characters (`slice`): so reading by positions is a matter of never coming to stand
inside a character or behind the end.

At the position where an end of the source begins (`posOf`), every reader does what the reader of
characters does at that end (`sequence_posOf` and the lemmas beside it).  Hence no cut fails, and
the positions of errors lie between characters (`parse_total`).
-/

namespace Colloquy.Expr.Bytes

open Colloquy.Expr.Parser (Scope)

/-- Why reading stopped before its end: the source was cut where it cannot be cut, or something is
malformed. -/
inductive Stop
  | badSlice
  | malformed (position : Nat) (reason : SyntaxReason)
  deriving DecidableEq, Repr

section

variable (source : String)

/-! ### Characters -/

/-- The text between two positions, which must be in order and between characters. -/
def slice (start stop : Nat) : Except Stop String :=
  if start ≤ stop ∧ (String.Pos.Raw.mk start).IsValid source ∧
      (String.Pos.Raw.mk stop).IsValid source then
    .ok (String.Pos.Raw.extract source ⟨start⟩ ⟨stop⟩)
  else .error .badSlice

example : slice "né" 1 2 = .error .badSlice := by decide +kernel

/-- The characters from a position on. -/
def ahead (pos : Nat) : Except Stop (List Char) :=
  (slice source pos source.utf8ByteSize).map String.toList

/-- Where there is a character ahead, the source is not at its end. -/
theorem lt_of_ahead {pos : Nat} {c : Char} {cs : List Char} (h : ahead source pos = .ok (c :: cs)) :
    pos < source.utf8ByteSize := by
  unfold ahead slice at h
  split at h
  · -- At the end or behind it, the text that is cut out is empty.
    by_contra hge
    have hempty : String.Pos.Raw.extract source ⟨pos⟩ ⟨source.utf8ByteSize⟩ = "" :=
      if_pos (Nat.le_of_not_lt hge)
    rw [hempty] at h
    cases h
  · cases h

/-- Moves on from character to character until `step` says to stop. -/
def scan {σ : Type} (step : σ → Char → List Char → Option σ) (state : σ) (pos : Nat) :
    Except Stop (σ × Nat) :=
  match _h : ahead source pos with
  | .error e => .error e
  | .ok [] => .ok (state, pos)
  | .ok (c :: rest) =>
    match step state c rest with
    | none => .ok (state, pos)
    | some state => scan step state (pos + c.utf8Size)
termination_by source.utf8ByteSize - pos
decreasing_by
  have hlt := lt_of_ahead source _h
  have hpos := c.utf8Size_pos
  omega

/-- Moves on while the characters are in the class. -/
def skipWhile (p : Char → Bool) (pos : Nat) : Except Stop Nat :=
  (scan source (fun _ c _ => if p c then some () else none) () pos).map Prod.snd

/-- Moves on behind blanks. -/
def skipBlank (pos : Nat) : Except Stop Nat :=
  skipWhile source Text.isBlank pos

/-- A name. -/
def name (start : Nat) : Except Stop (String × Nat) := do
  let stop ← skipWhile source Parser.isNameChar start
  return (← slice source start stop, stop)

/-! ### Terms without parts -/

/-- One character of a bare literal; the state says whether a blank stands before it. -/
def literalStep (g : Grammar) (scope : Scope) (afterBlank : Bool) (c : Char) (rest : List Char) :
    Option Bool :=
  if Parser.stopsLiteral g scope afterBlank c rest then none else some (Text.isBlank c)

/-- A bare literal. -/
def bareLiteral (g : Grammar) (scope : Scope) (start : Nat) : Except Stop (Expr × Nat) := do
  let (_, stop) ← scan source (literalStep g scope) false start
  let text := Text.collapse (← slice source start stop)
  if text.isEmpty then throw (.malformed stop .missingTerm) else return (.literal text, stop)

/-- A quoted literal behind its opening mark. -/
def quotedLiteral (start : Nat) : Except Stop (Expr × Nat) := do
  let mark ← skipWhile source (· != '\x60') start
  match ← ahead source mark with
  | [] => throw (.malformed mark .unterminatedQuote)
  | c :: _ =>
    let stop := mark + c.utf8Size
    return (.literal (← slice source start (stop - 1)), stop)

/-- One character of a raw pattern: the text so far, and whether a backslash stands before it. -/
def rawStep : List Char × Bool → Char → List Char → Option (List Char × Bool)
  | (text, false), c, _ =>
    if c = '/' then none else if c = '\\' then some (text, true) else some (text ++ [c], false)
  | (text, true), c, _ => some (text ++ if c = '/' then ['/'] else ['\\', c], false)

/-- A raw pattern at its opening slash, where errors are reported. -/
def rawPattern [Engine] (opening : Nat) : Except Stop (Expr × Nat) := do
  let ((text, _), slash) ← scan source rawStep ([], false) (opening + '/'.utf8Size)
  match ← ahead source slash with
  | [] => throw (.malformed opening .unterminatedRaw)
  | c :: _ =>
    let pattern := String.ofList text
    if (Engine.read? pattern).isSome then return (.raw pattern, slash + c.utf8Size)
    else throw (.malformed opening .invalidRaw)

/-- One repetition mark. -/
def markStep (e : Expr) (c : Char) (_ : List Char) : Option Expr :=
  match c with
  | '?' => some (.optional e)
  | '*' => some (.star e)
  | '+' => some (.plus e)
  | _ => none

/-- Applies the repetition marks that follow a term. -/
def applyMarks (e : Expr) (pos : Nat) : Except Stop (Expr × Nat) :=
  scan source markStep e pos

/-! ### Terms -/

mutual

/-- Terms up to the end of the scope. -/
def sequence [Engine] (g : Grammar) (scope : Scope) : Nat → Nat → Except Stop (List Expr × Nat)
  | 0, pos => throw (.malformed pos .tooDeep)
  | n + 1, pos => do
    let pos ← skipBlank source pos
    match ← ahead source pos with
    | [] => return ([], pos)
    | c :: _ =>
      if scope.ends c then return ([], pos)
      else
        let (first, pos) ← term g scope n pos
        let (more, pos) ← sequence g scope n pos
        return (first :: more, pos)
termination_by structural n => n

/-- A term and its repetition marks. -/
def term [Engine] (g : Grammar) (scope : Scope) : Nat → Nat → Except Stop (Expr × Nat)
  | 0, pos => throw (.malformed pos .tooDeep)
  | n + 1, pos => do
    let (e, pos) ← atom g scope n pos
    if g = .matching then applyMarks source e pos else return (e, pos)
termination_by structural n => n

/-- A term without repetition marks. -/
def atom [Engine] (g : Grammar) (scope : Scope) : Nat → Nat → Except Stop (Expr × Nat)
  | 0, pos => throw (.malformed pos .tooDeep)
  | n + 1, pos => do
    match ← ahead source pos with
    | [] => throw (.malformed pos .unexpectedEnd)
    | c :: rest =>
      let next := pos + c.utf8Size
      if c = '[' then
        match ← ahead source next with
        | '!' :: _ =>
          (items g ']' n (next + '!'.utf8Size)).map fun (es, pos) => (.rigid es, pos)
        | _ => (items g ']' n next).map fun (es, pos) => (.flexible es, pos)
      else if c = '{' then (items g '}' n next).map fun (es, pos) => (.disjunction es, pos)
      else if c = '<' ∧ g = .matching then
        (items g '>' n next).map fun (es, pos) => (.conjunction es, pos)
      else if c = '-' ∧ g = .matching then
        let next ← skipBlank source next
        (term g scope n next).map fun (e, pos) => (.negation e, pos)
      else if c = '/' ∧ g = .matching then rawPattern source pos
      else if c = '\x60' then quotedLiteral source next
      else if c = '$' ∧ Parser.startsName rest then
        let (name, pos) ← name source next
        match ← ahead source pos with
        | '=' :: _ =>
          let pos ← skipBlank source (pos + '='.utf8Size)
          (term g scope n pos).map fun (e, pos) => (.assignment name e, pos)
        | _ => return (.reference name, pos)
      else if c = '#' ∧ Parser.startsName rest then
        let (name, pos) ← name source next
        match ← ahead source pos with
        | '(' :: _ =>
          let pos ← skipBlank source (pos + '('.utf8Size)
          match ← ahead source pos with
          | ')' :: _ => return (.call name [], pos + ')'.utf8Size)
          | _ => (arguments g name n pos).map fun (args, pos) => (.call name args, pos)
        | _ => return (.call name [], pos)
      else if (c = '$' ∨ c = '#') ∧ g = .matching then throw (.malformed pos (.missingName c))
      else if c = ']' ∨ c = '}' then throw (.malformed pos (.unexpected c))
      else if (c = '>' ∨ c = ')' ∨ c = ',') ∧ g = .matching then
        throw (.malformed pos (.unexpected c))
      else bareLiteral source g scope pos
termination_by structural n => n

/-- The items of a list through its closing bracket. -/
def items [Engine] (g : Grammar) (close : Char) : Nat → Nat → Except Stop (List Expr × Nat)
  | 0, pos => throw (.malformed pos .tooDeep)
  | n + 1, pos => do
    let (es, pos) ← sequence g (.list close) n pos
    if es = [] then throw (.malformed pos .emptyItem)
    else
      let pos ← skipBlank source pos
      match ← ahead source pos with
      | [] => throw (.malformed pos (.unterminatedList close))
      | c :: _ =>
        let pos := pos + c.utf8Size
        if c = ',' then
          (items g close n pos).map fun (more, pos) => (Parser.combine es :: more, pos)
        else if c = close then return ([Parser.combine es], pos)
        else throw (.malformed pos (.unterminatedList close))
termination_by structural n => n

/-- The arguments of a call through its closing parenthesis. -/
def arguments [Engine] (g : Grammar) (name : String) : Nat → Nat → Except Stop (List Expr × Nat)
  | 0, pos => throw (.malformed pos .tooDeep)
  | n + 1, pos => do
    let (es, pos) ← sequence g .arguments n pos
    match es with
    | [] => throw (.malformed pos (.emptyArgument name))
    | [arg] =>
      if Parser.isArgument arg then
        let pos ← skipBlank source pos
        match ← ahead source pos with
        | [] => throw (.malformed pos (.unterminatedArguments name))
        | c :: _ =>
          let pos := pos + c.utf8Size
          if c = ',' then (arguments g name n pos).map fun (more, pos) => (arg :: more, pos)
          else if c = ')' then return ([arg], pos)
          else throw (.malformed pos (.unterminatedArguments name))
      else throw (.malformed pos (.argumentKind name arg.kind))
    | _ => throw (.malformed pos (.compoundArgument name))
termination_by structural n => n

end

/-- The expression that a source spells, and the position behind it. -/
def parse [Engine] (g : Grammar) : Except Stop (Expr × Nat) := do
  let (es, pos) ← sequence source g .top (Parser.enough source.toList.length) 0
  let pos ← skipBlank source pos
  match ← ahead source pos with
  | c :: _ => throw (.malformed pos (.unexpected c))
  | [] =>
    let tree := Parser.combine es
    match tree.firstDisallowed g.allowed with
    | some node => throw (.malformed 0 (.disallowed node.kind g))
    | none => return (tree, pos)

end

/-! ### Positions -/

variable {source : String} {g : Grammar}

/-- What follows a result goes on from it. -/
theorem ok_bind {α β : Type} (a : α) (f : α → Except Stop β) : (Except.ok a >>= f) = f a := rfl

/-- Where an end of the source begins. -/
def posOf (source : String) (rest : List Char) : Nat :=
  Text.byteLength source.toList - Text.byteLength rest

/-- The length in bytes is the library's. -/
theorem byteLength_eq (cs : List Char) : Text.byteLength cs = String.utf8Len cs := by
  induction cs with
  | nil => rfl
  | cons c cs ih =>
    rw [String.utf8Len_cons, ← ih, Nat.add_comm]
    rfl

/-- An end of the source begins behind what stands before it. -/
theorem posOf_eq {before rest : List Char} (h : before ++ rest = source.toList) :
    posOf source rest = String.utf8Len before := by
  rw [posOf, byteLength_eq, byteLength_eq, ← h, String.utf8Len_append]
  omega

/-- The whole source begins at zero. -/
theorem posOf_toList (source : String) : posOf source source.toList = 0 :=
  Nat.sub_self _

/-- Nothing is left at the end of the source. -/
theorem posOf_nil (source : String) : posOf source [] = source.utf8ByteSize := by
  rw [posOf_eq (List.append_nil source.toList), String.utf8Len_toList]

/-- An end of the source begins between two characters. -/
theorem isValid_posOf {rest : List Char} (h : rest <:+ source.toList) :
    (String.Pos.Raw.mk (posOf source rest)).IsValid source := by
  obtain ⟨before, hbefore⟩ := h
  rw [String.Pos.Raw.isValid_iff_exists_append]
  refine ⟨String.ofList before, String.ofList rest, ?_, ?_⟩
  · rw [← String.ofList_append, hbefore, String.ofList_toList]
  · rw [String.rawEndPos_ofList, posOf_eq hbefore]

/-- At every boundary an end of the source begins. -/
theorem exists_posOf_of_isValid {pos : Nat} (h : (String.Pos.Raw.mk pos).IsValid source) :
    ∃ rest, rest <:+ source.toList ∧ posOf source rest = pos := by
  obtain ⟨before, rest, happend, hpos⟩ := String.Pos.Raw.isValid_iff_exists_append.mp h
  have hlist : before.toList ++ rest.toList = source.toList := by
    rw [happend, String.toList_append]
  refine ⟨rest.toList, ⟨_, hlist⟩, ?_⟩
  rw [posOf_eq hlist, String.utf8Len_toList]
  exact (congrArg String.Pos.Raw.byteIdx hpos).symm

/-- Reading a text moves on by its length in bytes. -/
theorem posOf_append {text rest : List Char} (h : text ++ rest <:+ source.toList) :
    posOf source (text ++ rest) + String.utf8Len text = posOf source rest := by
  obtain ⟨before, hbefore⟩ := h
  rw [posOf_eq hbefore, posOf_eq (show (before ++ text) ++ rest = _ by simpa using hbefore),
    String.utf8Len_append]

/-- Reading a character moves on by its length in bytes. -/
theorem posOf_cons {c : Char} {rest : List Char} (h : c :: rest <:+ source.toList) :
    posOf source (c :: rest) + c.utf8Size = posOf source rest := by
  rw [← posOf_append (show [c] ++ rest <:+ _ from h), String.utf8Len_cons, String.utf8Len_nil,
    Nat.zero_add]
  rfl

/-- Reading something moves on. -/
theorem posOf_lt {rest cs : List Char} (h : Parser.Behind rest cs) (hcs : cs <:+ source.toList) :
    posOf source cs < posOf source rest := by
  obtain ⟨⟨text, rfl⟩, hshorter⟩ := h
  rw [← posOf_append hcs]
  -- Every character takes at least one byte.
  have htext : String.utf8Len text ≠ 0 := by
    rw [Ne, String.utf8Len_eq_zero]
    rintro rfl
    exact Nat.lt_irrefl _ hshorter
  omega

/-- What stands between two ends of the source is cut out whole, and the cut never fails. -/
theorem slice_posOf {text rest : List Char} (h : text ++ rest <:+ source.toList) :
    slice source (posOf source (text ++ rest)) (posOf source rest) = .ok (String.ofList text) := by
  have hrest : rest <:+ source.toList := (List.suffix_append text rest).trans h
  have happend := posOf_append h
  rw [slice, if_pos ⟨by omega, isValid_posOf h, isValid_posOf hrest⟩, ← happend]
  obtain ⟨before, hbefore⟩ := h
  rw [posOf_eq hbefore]
  have hsource : source = String.ofList (before ++ text ++ rest) := by
    rw [List.append_assoc, hbefore, String.ofList_toList]
  rw [hsource, String.extract_of_valid]

/-- The characters from an end of the source on are that end. -/
theorem ahead_posOf {rest : List Char} (h : rest <:+ source.toList) :
    ahead source (posOf source rest) = .ok rest := by
  have hslice := slice_posOf (show rest ++ [] <:+ source.toList by rwa [List.append_nil])
  rw [List.append_nil, posOf_nil] at hslice
  rw [ahead, hslice]
  exact congrArg Except.ok String.toList_ofList

/-! ### Readers of characters and of positions -/

/-- A result of the reader of characters, with positions for what is left. -/
def placed {α : Type} (source : String) : Parser.Result α → Except Stop (α × Nat)
  | .ok (a, rest) => .ok (a, posOf source rest)
  | .error failure => .error (.malformed (posOf source failure.rest) failure.reason)

/-- A result is placed before or after it is changed. -/
theorem placed_map {α β : Type} (r : Parser.Result α) (f : α → β) :
    placed source (r.map fun (a, rest) => (f a, rest)) =
      (placed source r).map fun (a, pos) => (f a, pos) := by
  cases r <;> rfl

/-- Moves on from character to character until `step` says to stop. -/
def walk {σ : Type} (step : σ → Char → List Char → Option σ) (state : σ) :
    List Char → σ × List Char
  | [] => (state, [])
  | c :: rest =>
    match step state c rest with
    | none => (state, c :: rest)
    | some state => walk step state rest

/-- What a walk leaves is an end of what it was given. -/
theorem walk_suffix {σ : Type} (step : σ → Char → List Char → Option σ) (state : σ)
    (cs : List Char) : (walk step state cs).2 <:+ cs := by
  induction cs generalizing state with
  | nil => exact List.suffix_rfl
  | cons c cs ih =>
    rw [walk]
    split
    · exact List.suffix_rfl
    · exact (ih _).trans (List.suffix_cons c cs)

/-- Moving on by positions goes as far as walking over the characters. -/
theorem scan_posOf {σ : Type} (step : σ → Char → List Char → Option σ) (state : σ)
    {cs : List Char} (h : cs <:+ source.toList) :
    scan source step state (posOf source cs) =
      .ok ((walk step state cs).1, posOf source (walk step state cs).2) := by
  induction cs generalizing state with
  | nil =>
    -- The source can be cut here, so only the case of an empty rest remains.
    rw [scan]
    split <;> rename_i heq <;> rw [ahead_posOf h] at heq <;> cases heq
    rfl
  | cons c cs ih =>
    have hrest : cs <:+ source.toList := (List.suffix_cons c cs).trans h
    rw [scan, walk]
    split <;> rename_i heq <;> rw [ahead_posOf h] at heq <;> cases heq
    cases hstep : step state c cs with
    | none => rfl
    | some next => exact posOf_cons h ▸ ih next hrest

/-- A walk while the characters are in a class drops them. -/
theorem walk_while (p : Char → Bool) (cs : List Char) :
    walk (fun _ c _ => if p c then some () else none) () cs = ((), cs.dropWhile p) := by
  induction cs with
  | nil => rfl
  | cons c cs ih =>
    rw [walk, List.dropWhile_cons]
    cases hc : p c with
    | true => exact ih
    | false => rfl

variable {cs : List Char}

/-- Positions and characters skip the same class. -/
theorem skipWhile_posOf (p : Char → Bool) (h : cs <:+ source.toList) :
    skipWhile source p (posOf source cs) = .ok (posOf source (cs.dropWhile p)) := by
  rw [skipWhile, scan_posOf _ _ h, walk_while]
  rfl

/-- Positions and characters skip the same blanks. -/
theorem skipBlank_posOf (h : cs <:+ source.toList) :
    skipBlank source (posOf source cs) = .ok (posOf source (Parser.skipBlank cs)) :=
  skipWhile_posOf Text.isBlank h

/-- The characters that are skipped are those that are cut out. -/
theorem slice_takeWhile (p : Char → Bool) (h : cs <:+ source.toList) :
    slice source (posOf source cs) (posOf source (cs.dropWhile p)) =
      .ok (String.ofList (cs.takeWhile p)) := by
  have hslice := slice_posOf (show cs.takeWhile p ++ cs.dropWhile p <:+ source.toList by
    rwa [List.takeWhile_append_dropWhile])
  rwa [List.takeWhile_append_dropWhile] at hslice

/-- Both readers read the same name. -/
theorem name_posOf (h : cs <:+ source.toList) :
    name source (posOf source cs) =
      .ok (String.ofList (cs.takeWhile Parser.isNameChar),
        posOf source (cs.dropWhile Parser.isNameChar)) := by
  rw [name, skipWhile_posOf _ h, ok_bind, slice_takeWhile _ h]
  rfl

/-- A bare literal ends in the same place for both. -/
theorem walk_literal (g : Grammar) (scope : Scope) (afterBlank : Bool) (cs : List Char) :
    (walk (literalStep g scope) afterBlank cs).2 = (Parser.spanLiteral g scope afterBlank cs).2 := by
  induction cs generalizing afterBlank with
  | nil => rfl
  | cons c cs ih =>
    rw [walk, literalStep, Parser.spanLiteral]
    cases hstops : Parser.stopsLiteral g scope afterBlank c cs with
    | true => rfl
    | false => exact ih _

/-- Both readers read the same bare literal. -/
theorem bareLiteral_posOf (scope : Scope) (h : cs <:+ source.toList) :
    bareLiteral source g scope (posOf source cs) =
      placed source (Parser.bareLiteral g scope cs) := by
  have happend := Parser.spanLiteral_append (g := g) scope false cs
  rw [bareLiteral, scan_posOf _ _ h, ok_bind, walk_literal, Parser.bareLiteral]
  generalize Parser.spanLiteral g scope false cs = span at happend ⊢
  obtain ⟨text, rest⟩ := span
  obtain rfl : text ++ rest = cs := happend
  dsimp only
  rw [slice_posOf h, ok_bind]
  split <;> rfl

/-- Both readers read the same quoted literal. -/
theorem quotedLiteral_posOf (h : cs <:+ source.toList) :
    quotedLiteral source (posOf source cs) = placed source (Parser.quotedLiteral cs) := by
  have hdrop := (List.dropWhile_suffix (l := cs) (· != '\x60')).trans h
  have hslice := slice_takeWhile (· != '\x60') h
  have hhead := List.head?_dropWhile_not (· != '\x60') cs
  rw [quotedLiteral, skipWhile_posOf _ h, ok_bind, ahead_posOf hdrop, ok_bind,
    Parser.quotedLiteral]
  cases hrest : cs.dropWhile (· != '\x60') with
  | nil => rfl
  | cons c rest =>
    rw [hrest] at hdrop hslice hhead
    -- The mark is one byte long, so the cut before it ends where it begins.
    obtain rfl : c = '\x60' := by simpa using hhead
    have hmark : posOf source ('\x60' :: rest) + '\x60'.utf8Size - 1 =
        posOf source ('\x60' :: rest) := rfl
    dsimp only
    rw [hmark, hslice, ok_bind, posOf_cons hdrop]
    rfl

/-- Character by character, a raw pattern is read as at once; it goes on from the text. -/
structure ReadsRaw (text cs : List Char) : Prop where
  closed : ∀ more rest, Parser.spanRaw cs = some (more, rest) →
    walk rawStep (text, false) cs = ((text ++ more, false), '/' :: rest)
  unclosed : Parser.spanRaw cs = none → (walk rawStep (text, false) cs).2 = []

/-- If what has been taken is the same for both, the rest settles it. -/
theorem ReadsRaw.of_taken {text taken cs ds : List Char} (h : ReadsRaw (text ++ taken) ds)
    (hspan : Parser.spanRaw cs = (Parser.spanRaw ds).map fun (more, rest) => (taken ++ more, rest))
    (hwalk : walk rawStep (text, false) cs = walk rawStep (text ++ taken, false) ds) :
    ReadsRaw text cs where
  closed more rest hmore := by
    obtain ⟨⟨others, after⟩, hothers, heq⟩ := Option.map_eq_some_iff.mp (hspan.symm.trans hmore)
    cases heq
    rw [hwalk, h.closed _ _ hothers, List.append_assoc]
  unclosed hnone := by
    rw [hspan] at hnone
    rw [hwalk]
    exact h.unclosed (Option.map_eq_none_iff.mp hnone)

/-- A raw pattern is read character by character as it is at once: the induction follows the reader
of characters, which takes an escape in one step where the other takes two. -/
theorem readsRaw (text cs : List Char) : ReadsRaw text cs := by
  fun_induction Parser.spanRaw cs generalizing text with
  | case1 =>
    refine ⟨fun more rest h => ?_, fun _ => rfl⟩
    cases h
  | case2 cs =>
    refine ⟨fun more rest h => ?_, fun h => by cases h⟩
    cases h
    rw [List.append_nil]
    rfl
  | case3 cs ih => exact (ih (text ++ ['/'])).of_taken rfl rfl
  | case4 c cs hslash ih =>
    refine (ih (text ++ ['\\', c])).of_taken (Parser.spanRaw.eq_4 c cs hslash) ?_
    show walk rawStep (text ++ if c = '/' then ['/'] else ['\\', c], false) cs = _
    rw [if_neg hslash]
  | case5 c cs hslash hescaped hescape ih =>
    by_cases hbackslash : c = '\\'
    · -- A backslash at the end has nothing to take with it.
      cases cs with
      | nil =>
        subst hbackslash
        refine ⟨fun more rest h => ?_, fun _ => rfl⟩
        cases h
      | cons d ds => exact absurd rfl (hescape d ds hbackslash)
    · have hstep : rawStep (text, false) c cs = some (text ++ [c], false) := by
        rw [rawStep, if_neg hslash, if_neg hbackslash]
      refine (ih (text ++ [c])).of_taken (Parser.spanRaw.eq_5 c cs hslash hescaped hescape) ?_
      rw [walk, hstep]

/-- Both readers read the same raw pattern. -/
theorem rawPattern_posOf [Engine] (h : '/' :: cs <:+ source.toList) :
    rawPattern source (posOf source ('/' :: cs)) =
      placed source (Parser.rawPattern ('/' :: cs)) := by
  have hcs : cs <:+ source.toList := (List.suffix_cons '/' cs).trans h
  have hsuffix := (walk_suffix rawStep ([], false) cs).trans hcs
  obtain ⟨hclosed, hunclosed⟩ := readsRaw [] cs
  rw [rawPattern, posOf_cons h, scan_posOf _ _ hcs, ok_bind]
  dsimp only
  rw [ahead_posOf hsuffix, ok_bind, Parser.rawPattern, List.drop_one, List.tail_cons]
  -- Whether the pattern is closed is seen at the same slash.
  cases hspan : Parser.spanRaw cs with
  | none =>
    rw [hunclosed hspan]
    rfl
  | some r =>
    obtain ⟨text, rest⟩ := r
    rw [hclosed _ _ hspan] at hsuffix ⊢
    dsimp only
    rw [posOf_cons hsuffix]
    simp only [List.nil_append]
    split <;> rfl

/-- Walking over the repetition marks applies them in turn. -/
theorem walk_markStep (e : Expr) (cs : List Char) :
    walk markStep e cs = Parser.applyMarks e cs := by
  fun_induction Parser.applyMarks e cs with
  | case1 e cs ih | case2 e cs ih | case3 e cs ih => exact ih
  | case4 e cs hoptional hstar hplus =>
    cases cs with
    | nil => rfl
    | cons c cs =>
      have hstop : markStep e c cs = none := by
        unfold markStep
        split
        · exact absurd rfl (hoptional cs)
        · exact absurd rfl (hstar cs)
        · exact absurd rfl (hplus cs)
        · rfl
      rw [walk, hstop]

/-- Both readers apply the same marks. -/
theorem applyMarks_posOf (e : Expr) (h : cs <:+ source.toList) :
    applyMarks source e (posOf source cs) = placed source (.ok (Parser.applyMarks e cs)) := by
  rw [applyMarks, scan_posOf _ _ h, walk_markStep]
  rfl

/-! ### Terms, by either reader -/

mutual

/-- Both readers read the same sequence.  This and the next four go by induction on the depth that
is left, each reader calling the others one deeper. -/
theorem sequence_posOf [Engine] (scope : Scope) : ∀ n {cs}, cs <:+ source.toList →
    sequence source g scope n (posOf source cs) = placed source (Parser.sequence g scope n cs)
  | 0, _, _ => rfl
  | n + 1, cs, h => by
    have hskip := (Parser.skipBlank_suffix cs).trans h
    rw [sequence, skipBlank_posOf h, ok_bind, ahead_posOf hskip, ok_bind, Parser.sequence]
    generalize Parser.skipBlank cs = ds at hskip ⊢
    cases ds with
    | nil => rfl
    | cons c ds =>
      dsimp only
      by_cases hends : scope.ends c = true
      · rw [if_pos hends, if_pos hends]
        rfl
      rw [if_neg hends, if_neg hends, term_posOf scope n hskip]
      -- The first term leaves an end of the source, which the rest is read from.
      have hfirst := Parser.term_consumes (g := g) scope n (c :: ds)
      generalize Parser.term g scope n (c :: ds) = first at hfirst ⊢
      cases hfirst with
      | error => rfl
      | @ok e rest behind =>
        rw [placed, ok_bind]
        dsimp only
        rw [sequence_posOf scope n (behind.suffix.trans hskip)]
        cases Parser.sequence g scope n rest <;> rfl

/-- Both readers read the same term. -/
theorem term_posOf [Engine] (scope : Scope) : ∀ n {cs}, cs <:+ source.toList →
    term source g scope n (posOf source cs) = placed source (Parser.term g scope n cs)
  | 0, _, _ => rfl
  | n + 1, cs, h => by
    have hatom := Parser.atom_consumes (g := g) scope n cs
    rw [term, atom_posOf scope n h, Parser.term]
    generalize Parser.atom g scope n cs = r at hatom ⊢
    cases hatom with
    | error => rfl
    | @ok e rest behind =>
      rw [placed, ok_bind]
      dsimp only
      split
      · exact applyMarks_posOf e (behind.suffix.trans h)
      · rfl

/-- Both readers read the same atom, by the character that it begins with. -/
theorem atom_posOf [Engine] (scope : Scope) : ∀ n {cs}, cs <:+ source.toList →
    atom source g scope n (posOf source cs) = placed source (Parser.atom g scope n cs)
  | 0, _, _ => rfl
  | n + 1, [], h => by
    rw [atom, ahead_posOf h, Parser.atom.eq_def]
    rfl
  | n + 1, c :: cs, h => by
    have hcs : cs <:+ source.toList := (List.suffix_cons c cs).trans h
    have hskip := (Parser.skipBlank_suffix cs).trans hcs
    have hname := (List.dropWhile_suffix (l := cs) Parser.isNameChar).trans hcs
    have hitems {ds : List Char} (hds : ds <:+ source.toList) (close : Char)
        (f : List Expr → Expr) :
        ((items source g close n (posOf source ds)).map fun (es, pos) => (f es, pos)) =
          placed source ((Parser.items g close n ds).map fun (es, rest) => (f es, rest)) := by
      rw [items_posOf close n hds]
      exact (placed_map _ f).symm
    have hterm {ds : List Char} (hds : ds <:+ source.toList) (f : Expr → Expr) :
        ((term source g scope n (posOf source ds)).map fun (e, pos) => (f e, pos)) =
          placed source ((Parser.term g scope n ds).map fun (e, rest) => (f e, rest)) := by
      rw [term_posOf scope n hds]
      exact (placed_map _ f).symm
    rw [atom, ahead_posOf h, ok_bind, Parser.atom.eq_def]
    dsimp only
    rw [posOf_cons h]
    -- Both readers ask the same questions in the same order, so the cases are split for both.
    by_cases hbracket : c = '['
    · rw [if_pos hbracket, if_pos hbracket, ahead_posOf hcs, ok_bind]
      split
      · rename_i rest
        rw [posOf_cons hcs]
        exact hitems ((List.suffix_cons _ rest).trans hcs) ']' .rigid
      · rename_i hbang
        simpa only [hbang] using hitems hcs ']' .flexible
    rw [if_neg hbracket, if_neg hbracket]
    by_cases hbrace : c = '{'
    · rw [if_pos hbrace, if_pos hbrace]
      exact hitems hcs '}' .disjunction
    rw [if_neg hbrace, if_neg hbrace]
    by_cases hangle : c = '<' ∧ g = .matching
    · rw [if_pos hangle, if_pos hangle]
      exact hitems hcs '>' .conjunction
    rw [if_neg hangle, if_neg hangle]
    by_cases hdash : c = '-' ∧ g = .matching
    · rw [if_pos hdash, if_pos hdash, skipBlank_posOf hcs]
      exact hterm hskip .negation
    rw [if_neg hdash, if_neg hdash]
    by_cases hslash : c = '/' ∧ g = .matching
    · rw [if_pos hslash, if_pos hslash]
      obtain rfl := hslash.1
      exact rawPattern_posOf h
    rw [if_neg hslash, if_neg hslash]
    by_cases hquote : c = '\x60'
    · rw [if_pos hquote, if_pos hquote]
      exact quotedLiteral_posOf hcs
    rw [if_neg hquote, if_neg hquote]
    by_cases hdollar : c = '$' ∧ Parser.startsName cs = true
    · rw [if_pos hdollar, if_pos hdollar, name_posOf hcs, ok_bind]
      dsimp only
      rw [ahead_posOf hname, ok_bind]
      generalize cs.dropWhile Parser.isNameChar = after at hname ⊢
      generalize String.ofList (cs.takeWhile Parser.isNameChar) = called
      split
      · rename_i rest
        have hrest : rest <:+ source.toList := (List.suffix_cons _ rest).trans hname
        rw [posOf_cons hname, skipBlank_posOf hrest, ok_bind]
        exact hterm ((Parser.skipBlank_suffix rest).trans hrest) (.assignment called)
      · rename_i hequals
        have hreference : pure (reference called, posOf source after) =
            placed source (.ok (reference called, after)) := rfl
        simpa only [hequals] using hreference
    rw [if_neg hdollar, if_neg hdollar]
    by_cases hhash : c = '#' ∧ Parser.startsName cs = true
    · rw [if_pos hhash, if_pos hhash, name_posOf hcs, ok_bind]
      dsimp only
      rw [ahead_posOf hname, ok_bind]
      generalize cs.dropWhile Parser.isNameChar = after at hname ⊢
      generalize String.ofList (cs.takeWhile Parser.isNameChar) = called
      split
      · rename_i rest
        have hrest : rest <:+ source.toList := (List.suffix_cons _ rest).trans hname
        have hinside := (Parser.skipBlank_suffix rest).trans hrest
        rw [posOf_cons hname, skipBlank_posOf hrest, ok_bind, ahead_posOf hinside, ok_bind]
        change _ = placed source (match Parser.skipBlank rest with
          | ')' :: rest => .ok (call called [], rest)
          | rest => (Parser.arguments g called n rest).map fun (args, rest) =>
            (call called args, rest))
        generalize Parser.skipBlank rest = inside at hinside ⊢
        split
        · rw [posOf_cons hinside]
          rfl
        · rw [arguments_posOf called n hinside]
          exact (placed_map _ (call called)).symm
      · rename_i hopen
        have hcall : pure (call called [], posOf source after) =
            placed source (.ok (call called [], after)) := rfl
        simpa only [hopen] using hcall
    rw [if_neg hhash, if_neg hhash]
    split
    · rfl
    split
    · rfl
    split
    · rfl
    exact bareLiteral_posOf scope h

/-- Both readers read the same items. -/
theorem items_posOf [Engine] (close : Char) : ∀ n {cs}, cs <:+ source.toList →
    items source g close n (posOf source cs) = placed source (Parser.items g close n cs)
  | 0, _, _ => rfl
  | n + 1, cs, h => by
    have hterms := Parser.sequence_stays (g := g) (.list close) n cs
    rw [items, sequence_posOf (.list close) n h, Parser.items]
    generalize Parser.sequence g (.list close) n cs = r at hterms ⊢
    cases hterms with
    | error => rfl
    | @ok es rest suffix =>
      have hskip := ((Parser.skipBlank_suffix rest).trans suffix).trans h
      rw [placed, ok_bind]
      dsimp only
      cases es with
      | nil => rfl
      | cons e es =>
        rw [if_neg (List.cons_ne_nil e es), skipBlank_posOf (suffix.trans h), ok_bind,
          ahead_posOf hskip, ok_bind]
        dsimp only
        generalize Parser.skipBlank rest = ds at hskip ⊢
        cases ds with
        | nil => rfl
        | cons c ds =>
          have hds : ds <:+ source.toList := (List.suffix_cons c ds).trans hskip
          dsimp only
          rw [posOf_cons hskip]
          -- A comma asks for more items; anything else but the closing bracket is an error in both.
          by_cases hcomma : c = ','
          · rw [if_pos hcomma, if_pos hcomma, items_posOf close n hds]
            exact (placed_map _ (Parser.combine (e :: es) :: ·)).symm
          rw [if_neg hcomma, if_neg hcomma]
          split <;> rfl

/-- Both readers read the same arguments. -/
theorem arguments_posOf [Engine] (name : String) : ∀ n {cs}, cs <:+ source.toList →
    arguments source g name n (posOf source cs) = placed source (Parser.arguments g name n cs)
  | 0, _, _ => rfl
  | n + 1, cs, h => by
    have hterms := Parser.sequence_stays (g := g) .arguments n cs
    rw [arguments, sequence_posOf .arguments n h, Parser.arguments]
    generalize Parser.sequence g .arguments n cs = r at hterms ⊢
    cases hterms with
    | error => rfl
    | @ok es rest suffix =>
      have hskip := ((Parser.skipBlank_suffix rest).trans suffix).trans h
      rw [placed, ok_bind]
      dsimp only
      -- An argument is exactly one term.
      rcases es with _ | ⟨arg, _ | ⟨_, _⟩⟩
      · rfl
      · dsimp only
        by_cases hargument : Parser.isArgument arg = true
        · rw [if_pos hargument, if_pos hargument, skipBlank_posOf (suffix.trans h), ok_bind,
            ahead_posOf hskip, ok_bind]
          generalize Parser.skipBlank rest = ds at hskip ⊢
          cases ds with
          | nil => rfl
          | cons c ds =>
            have hds : ds <:+ source.toList := (List.suffix_cons c ds).trans hskip
            dsimp only
            rw [posOf_cons hskip]
            by_cases hcomma : c = ','
            · subst hcomma
              rw [if_pos rfl, arguments_posOf name n hds]
              exact (placed_map _ (arg :: ·)).symm
            rw [if_neg hcomma]
            by_cases hclose : c = ')'
            · subst hclose
              rfl
            rw [if_neg hclose]
            split
            · rename_i heq
              exact absurd (List.cons.inj heq).1 hcomma
            · rename_i heq
              exact absurd (List.cons.inj heq).1 hclose
            · rfl
        · rw [if_neg hargument, if_neg hargument]
          rfl
      · rfl

end

/-! ### Whole sources -/

/-- Within a character nothing is ahead: the cut is refused. -/
theorem ahead_of_not_isValid {pos : Nat} (h : ¬(String.Pos.Raw.mk pos).IsValid source) :
    ahead source pos = .error .badSlice := by
  rw [ahead, slice, if_neg fun hslice => h hslice.2.1]
  rfl

/-- A term is read only from a position between two characters, and ends at another one behind
it. -/
theorem lt_of_term [Engine] {scope : Scope} {n pos after : Nat} {e : Expr}
    (h : term source g scope n pos = .ok (e, after)) :
    pos < after ∧ (String.Pos.Raw.mk pos).IsValid source ∧
      (String.Pos.Raw.mk after).IsValid source := by
  have hvalid : (String.Pos.Raw.mk pos).IsValid source := by
    by_contra hinvalid
    rcases n with _ | _ | n
    · cases h
    · cases h
    · rw [term, atom, ahead_of_not_isValid hinvalid] at h
      cases h
  -- An end of the source begins there, and the reader of characters shortens it.
  obtain ⟨cs, hcs, rfl⟩ := exists_posOf_of_isValid hvalid
  rw [term_posOf scope n hcs] at h
  have hterm := Parser.term_consumes (g := g) scope n cs
  generalize Parser.term g scope n cs = r at h hterm
  cases hterm with
  | error => cases h
  | ok behind =>
    cases h
    exact ⟨posOf_lt behind hcs, hvalid, isValid_posOf (behind.suffix.trans hcs)⟩

/-- Terms that are read to the end leave nothing, and the whole tree is checked then. -/
theorem parse_of_sequence [Engine] {es : List Expr} {rest : List Char}
    (h : Parser.sequence g .top (Parser.enough source.toList.length) source.toList =
      .ok (es, rest)) :
    parse source g = match (Parser.combine es).firstDisallowed g.allowed with
      | some node => .error (.malformed 0 (.disallowed node.kind g))
      | none => .ok (Parser.combine es, source.utf8ByteSize) := by
  have hterms := sequence_posOf (g := g) .top (Parser.enough source.toList.length)
    (List.suffix_refl source.toList)
  obtain rfl := Parser.rest_of_sequence_top h
  have hnil : [] <:+ source.toList := List.nil_suffix
  have hblank : skipBlank source (posOf source []) = .ok (posOf source []) := skipBlank_posOf hnil
  rw [posOf_toList, h, placed] at hterms
  rw [parse, hterms, ok_bind]
  dsimp only
  rw [hblank, ok_bind, ahead_posOf hnil, ok_bind, posOf_nil]
  rfl

/-- Parsing comes to an end, for the measure of the recursion is not used up, and reading by
positions does the same without a bad cut.  A tree is the outcome of reading the whole source, and
an error is reported at a position between two characters or at an end of the source.  A term that
is read is at least one character long. -/
theorem parse_total [Engine] (g : Grammar) (source : String) :
    (match Expr.parse g source with
      | .ok tree => parse source g = .ok (tree, source.utf8ByteSize)
      | .error e => parse source g = .error (.malformed e.position e.reason) ∧
          e.reason ≠ .tooDeep ∧ e.position ≤ source.utf8ByteSize ∧
          (String.Pos.Raw.mk e.position).IsValid source) ∧
    ∀ scope n,
      (∀ cs e rest, Parser.term g scope n cs = .ok (e, rest) →
        rest <:+ cs ∧ rest.length < cs.length) ∧
      ∀ pos e after, term source g scope n pos = .ok (e, after) →
        pos < after ∧ (String.Pos.Raw.mk pos).IsValid source ∧
          (String.Pos.Raw.mk after).IsValid source := by
  -- The whole source first, then that terms consume and end at valid positions.
  refine ⟨?_, fun scope n => ⟨fun cs e rest h => ?_, fun pos e after => lt_of_term⟩⟩
  · have hstays := Parser.sequence_stays (g := g) .top (Parser.enough source.toList.length)
      source.toList
    rw [Expr.parse]
    dsimp only
    cases hread : Parser.sequence g .top (Parser.enough source.toList.length) source.toList with
    | error failure =>
      rw [hread] at hstays
      cases hstays with
      | error within =>
        have hvalid := isValid_posOf within.suffix
        refine ⟨?_, fun hdeep => ?_, hvalid.le_utf8ByteSize, hvalid⟩
        · have hterms := sequence_posOf (g := g) .top (Parser.enough source.toList.length)
            (List.suffix_refl source.toList)
          rw [posOf_toList, hread] at hterms
          rw [parse, hterms]
          rfl
        · -- The depth granted is more than the source has room for.
          have hshort := within.deep hdeep
          rw [Parser.enough] at hshort
          omega
    | ok r =>
      have hparse := parse_of_sequence hread
      dsimp only
      cases hnode : (Parser.combine r.1).firstDisallowed g.allowed with
      | none => rwa [hnode] at hparse
      | some node =>
        rw [hnode] at hparse
        refine ⟨hparse, fun hdeep => ?_, Nat.zero_le _, String.Pos.Raw.isValid_zero⟩
        cases hdeep
  · have hterm := Parser.term_consumes (g := g) scope n cs
    rw [h] at hterm
    cases hterm with
    | ok behind => exact ⟨behind.suffix, behind.shorter⟩

end Colloquy.Expr.Bytes
