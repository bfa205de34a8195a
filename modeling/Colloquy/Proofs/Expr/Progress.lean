import Colloquy.Proofs.Expr.Spelled

/-!
# Progress of the parser

Every reader leaves an end of the characters that it was given, and so does every failure
(`Stays`).  A term consumes at least one character, as do the items of a list and the arguments of a
call (`Consumes`); only rows of terms can be empty.

This bounds the recursion: on the way from one function to the next either a character is consumed
or the function comes later in the order row, term, atom.  The measure is used up only if it was
below the bound of the function it was given to, and `enough` is not (`sequence_stays`).
-/

namespace Colloquy.Expr.Parser

/-- The rest is an end of the characters and not all of them. -/
structure Behind (rest cs : List Char) : Prop where
  suffix : rest <:+ cs
  shorter : rest.length < cs.length

theorem behind_cons (c : Char) (cs : List Char) : Behind cs (c :: cs) :=
  ⟨List.suffix_cons c cs, Nat.lt_succ_self _⟩

theorem Behind.of_suffix {rest ds cs : List Char} (h : rest <:+ ds) (hds : Behind ds cs) :
    Behind rest cs :=
  ⟨h.trans hds.suffix, Nat.lt_of_le_of_lt h.length_le hds.shorter⟩

theorem Behind.trans_suffix {rest ds cs : List Char} (h : Behind rest ds) (hds : ds <:+ cs) :
    Behind rest cs :=
  ⟨h.suffix.trans hds, Nat.lt_of_lt_of_le h.shorter hds.length_le⟩

/-- A failure is noticed at an end of the characters, and the measure was used up only if it was
short. -/
structure Failure.Within (short : Prop) (cs : List Char) (failure : Failure) : Prop where
  suffix : failure.rest <:+ cs
  deep : failure.reason = .tooDeep → short

theorem Failure.Within.mono {short short' : Prop} {cs cs' : List Char} {failure : Failure}
    (h : failure.Within short cs) (hcs : cs <:+ cs') (hshort : short → short') :
    failure.Within short' cs' :=
  ⟨h.suffix.trans hcs, fun hdeep => hshort (h.deep hdeep)⟩

/-- What is left is an end of the characters. -/
inductive Stays {α : Type} (short : Prop) (cs : List Char) : Result α → Prop
  | ok {a : α} {rest : List Char} (suffix : rest <:+ cs) : Stays short cs (.ok (a, rest))
  | error {failure : Failure} (within : failure.Within short cs) : Stays short cs (.error failure)

/-- What is left is an end of the characters, after at least one was consumed. -/
inductive Consumes {α : Type} (short : Prop) (cs : List Char) : Result α → Prop
  | ok {a : α} {rest : List Char} (behind : Behind rest cs) : Consumes short cs (.ok (a, rest))
  | error {failure : Failure} (within : failure.Within short cs) :
      Consumes short cs (.error failure)

section

variable {α β : Type} {short short' : Prop} {cs ds : List Char} {r : Result α}

theorem Consumes.stays (h : Consumes short cs r) : Stays short cs r := by
  cases h with
  | ok behind => exact .ok behind.suffix
  | error within => exact .error within

theorem Consumes.mono (h : Consumes short cs r) (hshort : short → short') :
    Consumes short' cs r := by
  cases h with
  | ok behind => exact .ok behind
  | error within => exact .error (within.mono List.suffix_rfl hshort)

/-- What is read after some characters were consumed consumes characters. -/
theorem Stays.behind (h : Stays short ds r) (hds : Behind ds cs) (hshort : short → short') :
    Consumes short' cs r := by
  cases h with
  | ok suffix => exact .ok (.of_suffix suffix hds)
  | error within => exact .error (within.mono hds.suffix hshort)

theorem Consumes.map (h : Consumes short cs r) (f : α → β) :
    Consumes short cs (r.map fun (a, rest) => (f a, rest)) := by
  cases h with
  | ok behind => exact .ok behind
  | error within => exact .error within

theorem consumes_error {rest : List Char} {reason : SyntaxReason} (hrest : rest <:+ cs)
    (hreason : reason ≠ .tooDeep) : Consumes short cs (.error ⟨rest, reason⟩ : Result α) :=
  .error ⟨hrest, fun h => absurd h hreason⟩

end

variable {g : Grammar}

/-! ### Terms without parts -/

theorem skipBlank_suffix (cs : List Char) : skipBlank cs <:+ cs :=
  List.dropWhile_suffix _

theorem spanLiteral_append (scope : Scope) (afterBlank : Bool) (cs : List Char) :
    (spanLiteral g scope afterBlank cs).1 ++ (spanLiteral g scope afterBlank cs).2 = cs := by
  induction cs generalizing afterBlank with
  | nil => rfl
  | cons c cs ih =>
    rw [spanLiteral]
    split
    · rfl
    · exact congrArg (c :: ·) (ih _)

theorem bareLiteral_consumes (scope : Scope) (cs : List Char) :
    Consumes False cs (bareLiteral g scope cs) := by
  have happend := spanLiteral_append (g := g) scope false cs
  unfold bareLiteral
  generalize spanLiteral g scope false cs = span at happend ⊢
  obtain ⟨text, rest⟩ := span
  obtain rfl : text ++ rest = cs := happend
  dsimp only
  split
  · exact consumes_error (List.suffix_append _ _) nofun
  · rename_i hne
    refine .ok ⟨List.suffix_append _ _, ?_⟩
    have htext : text ≠ [] := by
      rintro rfl
      exact hne rfl
    have hlength : 0 < text.length := List.length_pos_iff.mpr htext
    rw [List.length_append]
    omega

theorem quotedLiteral_stays (cs : List Char) : Stays False cs (quotedLiteral cs) := by
  have hsuffix := List.dropWhile_suffix (l := cs) (· != '\x60')
  unfold quotedLiteral
  split
  · exact .error ⟨List.nil_suffix, fun h => by cases h⟩
  · rename_i mark rest hrest
    rw [hrest] at hsuffix
    exact .ok ((List.suffix_cons mark rest).trans hsuffix)

theorem spanRaw_suffix {cs text rest : List Char} (h : spanRaw cs = some (text, rest)) :
    rest <:+ cs := by
  fun_induction spanRaw cs generalizing text rest with
  | case1 => cases h
  | case2 cs =>
    cases h
    exact List.suffix_cons _ _
  | case3 cs ih =>
    obtain ⟨⟨_, _⟩, hmore, heq⟩ := Option.map_eq_some_iff.mp h
    cases heq
    exact (ih hmore).trans (List.suffix_append ['\\', '/'] cs)
  | case4 c cs _ ih =>
    obtain ⟨⟨_, _⟩, hmore, heq⟩ := Option.map_eq_some_iff.mp h
    cases heq
    exact (ih hmore).trans (List.suffix_append ['\\', c] cs)
  | case5 c cs _ _ _ ih =>
    obtain ⟨⟨_, _⟩, hmore, heq⟩ := Option.map_eq_some_iff.mp h
    cases heq
    exact (ih hmore).trans (List.suffix_cons c cs)

theorem rawPattern_consumes [Engine] (c : Char) (cs : List Char) :
    Consumes False (c :: cs) (rawPattern (c :: cs)) := by
  unfold rawPattern
  split
  · exact consumes_error List.suffix_rfl nofun
  · rename_i hspan
    dsimp only
    split
    · exact .ok (.of_suffix (spanRaw_suffix hspan) (behind_cons c cs))
    · exact consumes_error List.suffix_rfl nofun

theorem applyMarks_suffix (e : Expr) (cs : List Char) : (applyMarks e cs).2 <:+ cs := by
  fun_induction applyMarks e cs with
  | case1 e cs ih | case2 e cs ih | case3 e cs ih => exact ih.trans (List.suffix_cons _ cs)
  | case4 => exact List.suffix_rfl

/-! ### Terms -/

mutual

theorem sequence_stays [Engine] (scope : Scope) : ∀ n cs,
    Stays (n < 5 * cs.length + 4) cs (sequence g scope n cs)
  | 0, cs => .error ⟨List.suffix_rfl, fun _ => by omega⟩
  | n + 1, cs => by
    have hskip := skipBlank_suffix cs
    rw [sequence]
    split
    · exact .ok List.nil_suffix
    · rename_i c ds hcs
      rw [hcs] at hskip
      have hlength := hskip.length_le
      split
      · exact .ok hskip
      · have hfirst := term_consumes scope n (c :: ds)
        generalize term g scope n (c :: ds) = first at hfirst ⊢
        cases hfirst with
        | error within => exact .error (within.mono hskip fun _ => by omega)
        | @ok _ rest behind =>
          -- The first term was consumed, which pays for the calls that read the others.
          have hbehind := behind.trans_suffix hskip
          have hshorter := hbehind.shorter
          have hmore := sequence_stays scope n rest
          dsimp only
          generalize sequence g scope n rest = more at hmore ⊢
          cases hmore with
          | error within => exact .error (within.mono hbehind.suffix fun _ => by omega)
          | ok suffix => exact .ok (suffix.trans hbehind.suffix)

theorem term_consumes [Engine] (scope : Scope) : ∀ n cs,
    Consumes (n < 5 * cs.length + 3) cs (term g scope n cs)
  | 0, cs => .error ⟨List.suffix_rfl, fun _ => by omega⟩
  | n + 1, cs => by
    have hatom := atom_consumes scope n cs
    rw [term]
    generalize atom g scope n cs = r at hatom ⊢
    cases hatom with
    | error within => exact .error (within.mono List.suffix_rfl fun _ => by omega)
    | @ok e rest behind =>
      dsimp only
      split
      · exact .ok (.of_suffix (applyMarks_suffix e rest) behind)
      · exact .ok behind

theorem atom_consumes [Engine] (scope : Scope) : ∀ n cs,
    Consumes (n < 5 * cs.length + 2) cs (atom g scope n cs)
  | 0, cs => .error ⟨List.suffix_rfl, fun _ => by omega⟩
  | n + 1, [] => by
    rw [atom.eq_def]
    exact consumes_error List.suffix_rfl nofun
  | n + 1, c :: cs => by
    have hbehind := behind_cons c cs
    have hlength : (c :: cs).length = cs.length + 1 := rfl
    -- Behind the first character another function begins, with one call less.
    have hitems {ds : List Char} (hds : ds <:+ cs) (close : Char) (f : List Expr → Expr) :
        Consumes (n + 1 < 5 * (c :: cs).length + 2) (c :: cs)
          ((items g close n ds).map fun (es, rest) => (f es, rest)) := by
      have hshorter := hds.length_le
      refine ((items_consumes close n ds).stays.behind (.of_suffix hds hbehind) ?_).map f
      omega
    have hterm {ds : List Char} (hds : ds <:+ cs) (f : Expr → Expr) :
        Consumes (n + 1 < 5 * (c :: cs).length + 2) (c :: cs)
          ((term g scope n ds).map fun (e, rest) => (f e, rest)) := by
      have hshorter := hds.length_le
      refine ((term_consumes scope n ds).stays.behind (.of_suffix hds hbehind) ?_).map f
      omega
    rw [atom.eq_def]
    dsimp only
    by_cases hbracket : c = '['
    · rw [if_pos hbracket]
      split
      · exact hitems (List.suffix_cons _ _) ']' .rigid
      · exact hitems List.suffix_rfl ']' .flexible
    rw [if_neg hbracket]
    by_cases hbrace : c = '{'
    · rw [if_pos hbrace]
      exact hitems List.suffix_rfl '}' .disjunction
    rw [if_neg hbrace]
    by_cases hangle : c = '<' ∧ g = .matching
    · rw [if_pos hangle]
      exact hitems List.suffix_rfl '>' .conjunction
    rw [if_neg hangle]
    by_cases hdash : c = '-' ∧ g = .matching
    · rw [if_pos hdash]
      exact hterm (skipBlank_suffix cs) .negation
    rw [if_neg hdash]
    by_cases hslash : c = '/' ∧ g = .matching
    · rw [if_pos hslash]
      exact (rawPattern_consumes c cs).mono False.elim
    rw [if_neg hslash]
    by_cases hquote : c = '\x60'
    · rw [if_pos hquote]
      exact (quotedLiteral_stays cs).behind hbehind False.elim
    rw [if_neg hquote]
    have hname := List.dropWhile_suffix (l := cs) isNameChar
    by_cases hdollar : c = '$' ∧ startsName cs = true
    · rw [if_pos hdollar]
      split
      · rename_i rest hrest
        rw [hrest] at hname
        have hvalue := (skipBlank_suffix rest).trans ((List.suffix_cons _ rest).trans hname)
        exact hterm hvalue (.assignment _)
      · exact .ok (.of_suffix hname hbehind)
    rw [if_neg hdollar]
    by_cases hhash : c = '#' ∧ startsName cs = true
    · rw [if_pos hhash]
      split
      · rename_i rest hrest
        rw [hrest] at hname
        have hskip := (skipBlank_suffix rest).trans ((List.suffix_cons _ rest).trans hname)
        split
        · rename_i after hafter
          rw [hafter] at hskip
          exact .ok (.of_suffix ((List.suffix_cons _ after).trans hskip) hbehind)
        · have hshorter := hskip.length_le
          refine ((arguments_consumes _ n (skipBlank rest)).stays.behind
            (.of_suffix hskip hbehind) ?_).map (Expr.call _)
          omega
      · exact .ok (.of_suffix hname hbehind)
    rw [if_neg hhash]
    split
    · exact consumes_error List.suffix_rfl nofun
    split
    · exact consumes_error List.suffix_rfl nofun
    split
    · exact consumes_error List.suffix_rfl nofun
    exact (bareLiteral_consumes scope (c :: cs)).mono False.elim

theorem items_consumes [Engine] (close : Char) : ∀ n cs,
    Consumes (n < 5 * cs.length + 5) cs (items g close n cs)
  | 0, cs => .error ⟨List.suffix_rfl, fun _ => by omega⟩
  | n + 1, cs => by
    have hterms := sequence_stays (.list close) n cs
    rw [items]
    generalize sequence g (.list close) n cs = r at hterms ⊢
    cases hterms with
    | error within => exact .error (within.mono List.suffix_rfl fun _ => by omega)
    | @ok es rest suffix =>
      have hskip := (skipBlank_suffix rest).trans suffix
      cases es with
      | nil => exact consumes_error suffix nofun
      | cons e es =>
        dsimp only
        split
        · exact consumes_error List.nil_suffix nofun
        · rename_i c after hafter
          rw [hafter] at hskip
          have hbehind := (behind_cons c after).trans_suffix hskip
          have hshorter := hbehind.shorter
          split
          · refine ((items_consumes close n after).stays.behind hbehind ?_).map
              (combine (e :: es) :: ·)
            omega
          split
          · exact .ok hbehind
          · exact consumes_error hbehind.suffix nofun

theorem arguments_consumes [Engine] (name : String) : ∀ n cs,
    Consumes (n < 5 * cs.length + 5) cs (arguments g name n cs)
  | 0, cs => .error ⟨List.suffix_rfl, fun _ => by omega⟩
  | n + 1, cs => by
    have hterms := sequence_stays .arguments n cs
    rw [arguments]
    generalize sequence g .arguments n cs = r at hterms ⊢
    cases hterms with
    | error within => exact .error (within.mono List.suffix_rfl fun _ => by omega)
    | @ok es rest suffix =>
      have hskip := (skipBlank_suffix rest).trans suffix
      rcases es with _ | ⟨arg, _ | ⟨_, _⟩⟩
      · exact consumes_error suffix nofun
      · dsimp only
        split
        · split
          · rename_i after hafter
            rw [hafter] at hskip
            have hbehind := (behind_cons _ after).trans_suffix hskip
            have hshorter := hbehind.shorter
            refine ((arguments_consumes name n after).stays.behind hbehind ?_).map (arg :: ·)
            omega
          · rename_i after hafter
            rw [hafter] at hskip
            exact .ok ((behind_cons _ after).trans_suffix hskip)
          · exact consumes_error ((List.drop_suffix 1 _).trans hskip) nofun
        · exact consumes_error suffix nofun
      · exact consumes_error suffix nofun

end

/-- Nothing ends a row of terms but the end of the source. -/
theorem rest_of_sequence_top [Engine] : ∀ {n : Nat} {cs rest : List Char} {es : List Expr},
    sequence g .top n cs = .ok (es, rest) → rest = []
  | 0, _, _, _, h => nomatch h
  | n + 1, cs, rest, es, h => by
    rw [sequence] at h
    split at h
    · cases h
      rfl
    · rw [if_neg (by simp [Scope.ends])] at h
      split at h
      · cases h
      · split at h
        · cases h
        · rename_i hmore
          cases h
          exact rest_of_sequence_top hmore

end Colloquy.Expr.Parser
