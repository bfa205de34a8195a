import Mathlib
import Colloquy.Expr.Parser
import Colloquy.Proofs.Text.Words

/-!
# The trees that reading gives

`Spelled g e` says what the parser of the grammar `g` never breaks: names are names, literals hold
no backtick, backslashes in raw patterns are paired, lists have items, arguments are literals,
references or calls, and no repetition mark stands around a negation or an assignment, because the
marks after these belong to the term inside them.

`spelled_of_parse` holds for every tree but the empty rigid sequence, which stands for a blank
source.
-/

namespace Colloquy.Expr

/-! ### Shapes -/

/-- Every backslash has a character after it that belongs to it and is no slash. -/
inductive Paired : List Char → Prop
  | nil : Paired []
  | escape {c : Char} {cs : List Char} (hslash : c ≠ '/') (rest : Paired cs) :
      Paired ('\\' :: c :: cs)
  | plain {c : Char} {cs : List Char} (hbackslash : c ≠ '\\') (rest : Paired cs) : Paired (c :: cs)

/-- The text can be a name. -/
structure IsName (name : String) : Prop where
  starts : Parser.startsName name.toList = true
  goesOn : ∀ c ∈ name.toList, Parser.isNameChar c = true

/-- Repetition marks can stand around the term. -/
def Markable : Expr → Prop
  | .negation _ | .assignment .. => False
  | _ => True

/-- The tree has the shape of those that the grammar's sources spell. -/
inductive Spelled [Engine] (g : Grammar) : Expr → Prop
  | literal {text : String} (unquoted : '\x60' ∉ text.toList) : Spelled g (.literal text)
  | flexible {items : List Expr} (nonempty : items ≠ []) (all : ∀ e ∈ items, Spelled g e) :
      Spelled g (.flexible items)
  | rigid {items : List Expr} (nonempty : items ≠ []) (all : ∀ e ∈ items, Spelled g e) :
      Spelled g (.rigid items)
  | conjunction {items : List Expr} (grammar : g = .matching) (nonempty : items ≠ [])
      (all : ∀ e ∈ items, Spelled g e) : Spelled g (.conjunction items)
  | disjunction {items : List Expr} (nonempty : items ≠ []) (all : ∀ e ∈ items, Spelled g e) :
      Spelled g (.disjunction items)
  | optional {body : Expr} (grammar : g = .matching) (markable : Markable body)
      (spelled : Spelled g body) : Spelled g (.optional body)
  | star {body : Expr} (grammar : g = .matching) (markable : Markable body)
      (spelled : Spelled g body) : Spelled g (.star body)
  | plus {body : Expr} (grammar : g = .matching) (markable : Markable body)
      (spelled : Spelled g body) : Spelled g (.plus body)
  | negation {body : Expr} (grammar : g = .matching) (spelled : Spelled g body) :
      Spelled g (.negation body)
  | raw {pattern : String} (grammar : g = .matching) (paired : Paired pattern.toList)
      (readable : (Engine.read? pattern).isSome = true) : Spelled g (.raw pattern)
  | reference {name : String} (named : IsName name) : Spelled g (.reference name)
  | assignment {name : String} {value : Expr} (named : IsName name) (spelled : Spelled g value) :
      Spelled g (.assignment name value)
  | call {name : String} {args : List Expr} (named : IsName name)
      (arguments : ∀ e ∈ args, Parser.isArgument e = true) (all : ∀ e ∈ args, Spelled g e) :
      Spelled g (.call name args)

namespace Parser

variable {g : Grammar}

/-! ### Terms without parts -/

/-- What starts a name can stand in it. -/
theorem isNameChar_of_isNameStart {c : Char} (h : isNameStart c = true) : isNameChar c = true := by
  rw [isNameStart, Bool.or_eq_true] at h
  rw [isNameChar, Bool.or_eq_true, Char.isAlphanum, Bool.or_eq_true]
  exact h.imp_left Or.inl

/-- What is read as a name is one. -/
theorem isName_takeWhile {cs : List Char} (h : startsName cs = true) :
    IsName (String.ofList (cs.takeWhile isNameChar)) where
  starts := by
    cases cs with
    | nil => cases h
    | cons c cs =>
      rw [String.toList_ofList, List.takeWhile_cons_of_pos (isNameChar_of_isNameStart h)]
      exact h
  goesOn c hc := List.mem_takeWhile_imp (String.toList_ofList ▸ hc)

/-- In what is read as a raw pattern, every backslash has its character. -/
theorem paired_of_spanRaw {cs text rest : List Char} (h : spanRaw cs = some (text, rest)) :
    Paired text := by
  fun_induction spanRaw cs generalizing text rest with
  | case1 => cases h
  | case2 => cases h; exact .nil
  | case3 cs ih =>
    obtain ⟨⟨more, _⟩, hmore, heq⟩ := Option.map_eq_some_iff.mp h
    cases heq
    exact .plain (by decide) (ih hmore)
  | case4 c cs hslash ih =>
    obtain ⟨⟨more, _⟩, hmore, heq⟩ := Option.map_eq_some_iff.mp h
    cases heq
    exact .escape hslash (ih hmore)
  | case5 c cs _ _ hescape ih =>
    obtain ⟨⟨more, _⟩, hmore, heq⟩ := Option.map_eq_some_iff.mp h
    cases heq
    -- A lone backslash would be an escape, unless the pattern ended there.
    refine .plain (fun hbackslash => ?_) (ih hmore)
    cases cs with
    | nil => cases hmore
    | cons d ds => exact hescape d ds hbackslash rfl

/-- A bare literal has no quotation mark in it. -/
theorem backtick_not_mem_spanLiteral (scope : Scope) (afterBlank : Bool) (cs : List Char) :
    '\x60' ∉ (spanLiteral g scope afterBlank cs).1 := by
  induction cs generalizing afterBlank with
  | nil => exact List.not_mem_nil
  | cons c cs ih =>
    rw [spanLiteral]
    split
    · exact List.not_mem_nil
    · rename_i hstops
      intro hmem
      rcases List.mem_cons.mp hmem with rfl | hmem
      · exact hstops (Bool.or_true _)
      · exact ih _ hmem

/-- A bare literal can be spelled, and marked. -/
theorem spelled_bareLiteral [Engine] {scope : Scope} {cs rest : List Char} {e : Expr}
    (h : bareLiteral g scope cs = .ok (e, rest)) : Spelled g e ∧ Markable e := by
  rw [bareLiteral] at h
  dsimp only at h
  split at h
  · cases h
  · cases h
    refine ⟨.literal fun hmem => ?_, trivial⟩
    rcases Text.mem_of_mem_collapse hmem with hmem | hspace
    · exact backtick_not_mem_spanLiteral _ _ _ (String.toList_ofList ▸ hmem)
    · exact absurd hspace (by decide)

/-- A quoted literal can be spelled, and marked. -/
theorem spelled_quotedLiteral [Engine] {cs rest : List Char} {e : Expr}
    (h : quotedLiteral cs = .ok (e, rest)) : Spelled g e ∧ Markable e := by
  rw [quotedLiteral] at h
  split at h
  · cases h
  · cases h
    refine ⟨.literal fun hmem => ?_, trivial⟩
    rw [String.toList_ofList] at hmem
    simpa using List.mem_takeWhile_imp hmem

/-- A raw pattern can be spelled, and marked. -/
theorem spelled_rawPattern [Engine] (hg : g = .matching) {cs rest : List Char} {e : Expr}
    (h : rawPattern cs = .ok (e, rest)) : Spelled g e ∧ Markable e := by
  rw [rawPattern] at h
  split at h
  · cases h
  · rename_i text _ hspan
    dsimp only at h
    split at h
    · rename_i hreads
      cases h
      exact ⟨.raw hg (String.toList_ofList ▸ paired_of_spanRaw hspan) hreads, trivial⟩
    · cases h

/-! ### Repetition marks -/

/-- The marks of repetition. -/
def marks : List Char := ['?', '*', '+']

/-- No repetition mark comes next. -/
def Unmarked (cs : List Char) : Prop :=
  ∀ c ∈ cs.head?, c ∉ marks

/-- Without marks, a term stays as it is. -/
theorem applyMarks_of_unmarked {cs : List Char} (h : Unmarked cs) (e : Expr) :
    applyMarks e cs = (e, cs) := by
  cases cs with
  | nil => rfl
  | cons c cs =>
    have hc : c ∉ marks := h c rfl
    simp only [marks, List.mem_cons, List.not_mem_nil, or_false, not_or] at hc
    unfold applyMarks
    split <;> simp_all

/-- After the marks comes no other, and a term that marks can follow stays one under them. -/
theorem applyMarks_spec [Engine] (cs : List Char) (hg : g = .matching) {e : Expr}
    (spelled : Spelled g e) (markable : Markable e) :
    Spelled g (applyMarks e cs).1 ∧ Unmarked (applyMarks e cs).2 := by
  fun_induction applyMarks e cs with
  | case1 e cs ih => exact ih (.optional hg markable spelled) trivial
  | case2 e cs ih => exact ih (.star hg markable spelled) trivial
  | case3 e cs ih => exact ih (.plus hg markable spelled) trivial
  | case4 e cs h1 h2 h3 =>
    refine ⟨spelled, fun c hc => ?_⟩
    obtain ⟨ds, rfl⟩ := List.head?_eq_some_iff.mp hc
    simp_all [marks]

/-! ### Terms -/

/-- A term was read: it has the shape of terms, and its marks were read with it. -/
structure Whole [Engine] (g : Grammar) (r : Expr × List Char) : Prop where
  spelled : Spelled g r.1
  unmarked : g = .matching → Unmarked r.2

theorem eq_ok_of_map {ε α β : Type} {x : Except ε α} {f : α → β} {b : β}
    (h : x.map f = .ok b) : ∃ a, x = .ok a ∧ f a = b := by
  cases x with
  | error e => cases h
  | ok a => cases h; exact ⟨a, rfl, rfl⟩

/-- Terms side by side make a rigid sequence, unless there is one alone. -/
theorem spelled_combine [Engine] {es : List Expr} (hne : es ≠ []) (h : ∀ e ∈ es, Spelled g e) :
    Spelled g (combine es) := by
  cases es with
  | nil => exact absurd rfl hne
  | cons e more =>
    cases more with
    | nil => exact h e List.mem_cons_self
    | cons d ds => exact .rigid hne h

mutual

/-- What is read as a sequence can be spelled. -/
theorem spelled_sequence [Engine] {scope : Scope} :
    ∀ {n : Nat} {cs rest : List Char} {es : List Expr},
    sequence g scope n cs = .ok (es, rest) → ∀ e ∈ es, Spelled g e
  | 0, _, _, _, h => nomatch h
  | n + 1, cs, rest, es, h => by
    rw [sequence] at h
    split at h
    · cases h; exact fun _ he => nomatch he
    · split at h
      · cases h; exact fun _ he => nomatch he
      · split at h
        · cases h
        · rename_i first _ hfirst
          split at h
          · cases h
          · rename_i hmore
            cases h
            exact List.forall_mem_cons.mpr ⟨(whole_term hfirst).spelled, spelled_sequence hmore⟩

/-- What is read as a term is whole: its marks have been read with it. -/
theorem whole_term [Engine] {scope : Scope} : ∀ {n : Nat} {cs : List Char} {r : Expr × List Char},
    term g scope n cs = .ok r → Whole g r
  | 0, _, _, h => nomatch h
  | n + 1, cs, r, h => by
    rw [term] at h
    split at h
    · cases h
    · rename_i e rest hatom
      obtain ⟨hspelled, hmarks⟩ := spelled_atom hatom
      split at h
      · rename_i hg
        cases h
        -- The marks are the term's own, or there are none left.
        rcases hmarks hg with hmarkable | hunmarked
        · obtain ⟨hspelled, hunmarked⟩ := applyMarks_spec rest hg hspelled hmarkable
          exact ⟨hspelled, fun _ => hunmarked⟩
        · rw [applyMarks_of_unmarked hunmarked]
          exact ⟨hspelled, fun _ => hunmarked⟩
      · rename_i hg
        cases h
        exact ⟨hspelled, fun h => absurd h hg⟩

/-- What is read as an atom can be spelled; where it cannot be marked, no mark follows. -/
theorem spelled_atom [Engine] {scope : Scope} : ∀ {n : Nat} {cs rest : List Char} {e : Expr},
    atom g scope n cs = .ok (e, rest) →
      Spelled g e ∧ (g = .matching → Markable e ∨ Unmarked rest)
  | 0, _, _, _, h => nomatch h
  | _ + 1, [], _, _, h => nomatch h
  | n + 1, c :: cs, rest, e, h => by
    -- The four kinds of lists differ in their brackets only.
    have hlist {close : Char} {cs : List Char} {f : List Expr → Expr}
        (h : ((items g close n cs).map fun (es, rest) => (f es, rest)) = .ok (e, rest))
        (hf : ∀ es, es ≠ [] → (∀ e ∈ es, Spelled g e) → Spelled g (f es) ∧ Markable (f es)) :
        Spelled g e ∧ (g = .matching → Markable e ∨ Unmarked rest) := by
      obtain ⟨⟨es, _⟩, hes, heq⟩ := eq_ok_of_map h
      cases heq
      obtain ⟨hne, hall⟩ := spelled_items hes
      obtain ⟨hspelled, hmarkable⟩ := hf es hne hall
      exact ⟨hspelled, fun _ => .inl hmarkable⟩
    rw [atom.eq_def] at h
    dsimp only at h
    by_cases hbracket : c = '['
    · rw [if_pos hbracket] at h
      split at h
      · exact hlist h fun es hne hall => ⟨.rigid hne hall, trivial⟩
      · exact hlist h fun es hne hall => ⟨.flexible hne hall, trivial⟩
    rw [if_neg hbracket] at h
    by_cases hbrace : c = '{'
    · rw [if_pos hbrace] at h
      exact hlist h fun es hne hall => ⟨.disjunction hne hall, trivial⟩
    rw [if_neg hbrace] at h
    by_cases hangle : c = '<' ∧ g = .matching
    · rw [if_pos hangle] at h
      exact hlist h fun es hne hall => ⟨.conjunction hangle.2 hne hall, trivial⟩
    rw [if_neg hangle] at h
    by_cases hdash : c = '-' ∧ g = .matching
    · rw [if_pos hdash] at h
      obtain ⟨⟨body, _⟩, hbody, heq⟩ := eq_ok_of_map h
      cases heq
      have hwhole := whole_term hbody
      -- A negation takes in the marks of its body, and so is not marked itself.
      exact ⟨.negation hdash.2 hwhole.spelled, fun hg => .inr (hwhole.unmarked hg)⟩
    rw [if_neg hdash] at h
    by_cases hslash : c = '/' ∧ g = .matching
    · rw [if_pos hslash] at h
      exact (spelled_rawPattern hslash.2 h).imp_right fun h _ => .inl h
    rw [if_neg hslash] at h
    by_cases hquote : c = '\x60'
    · rw [if_pos hquote] at h
      exact (spelled_quotedLiteral h).imp_right fun h _ => .inl h
    rw [if_neg hquote] at h
    by_cases hdollar : c = '$' ∧ startsName cs = true
    · have hname := isName_takeWhile hdollar.2
      rw [if_pos hdollar] at h
      split at h
      · obtain ⟨⟨value, _⟩, hvalue, heq⟩ := eq_ok_of_map h
        cases heq
        have hwhole := whole_term hvalue
        -- An assignment takes in the marks of its value, and so is not marked itself.
        exact ⟨.assignment hname hwhole.spelled, fun hg => .inr (hwhole.unmarked hg)⟩
      · cases h
        exact ⟨.reference hname, fun _ => .inl trivial⟩
    rw [if_neg hdollar] at h
    by_cases hhash : c = '#' ∧ startsName cs = true
    · have hname := isName_takeWhile hhash.2
      have hplain : Spelled g (.call (String.ofList (cs.takeWhile isNameChar)) []) :=
        .call hname (fun _ h => nomatch h) fun _ h => nomatch h
      rw [if_pos hhash] at h
      split at h
      · split at h
        · cases h
          exact ⟨hplain, fun _ => .inl trivial⟩
        · obtain ⟨⟨args, _⟩, hargs, heq⟩ := eq_ok_of_map h
          cases heq
          obtain ⟨harguments, hall⟩ := spelled_arguments hargs
          exact ⟨.call hname harguments hall, fun _ => .inl trivial⟩
      · cases h
        exact ⟨hplain, fun _ => .inl trivial⟩
    rw [if_neg hhash] at h
    split at h
    · cases h
    split at h
    · cases h
    split at h
    · cases h
    exact (spelled_bareLiteral h).imp_right fun h _ => .inl h

/-- What is read as items can be spelled, and there is at least one. -/
theorem spelled_items [Engine] {close : Char} : ∀ {n : Nat} {cs rest : List Char} {es : List Expr},
    items g close n cs = .ok (es, rest) → es ≠ [] ∧ ∀ e ∈ es, Spelled g e
  | 0, _, _, _, h => nomatch h
  | n + 1, cs, rest, es, h => by
    rw [items] at h
    split at h
    · cases h
    · cases h
    · rename_i terms after hne hterms
      have hfirst := spelled_combine (by rintro rfl; exact hne rfl) (spelled_sequence hterms)
      split at h
      · cases h
      · split at h
        · obtain ⟨⟨more, _⟩, hmore, heq⟩ := eq_ok_of_map h
          cases heq
          exact ⟨List.cons_ne_nil _ _, List.forall_mem_cons.mpr ⟨hfirst, (spelled_items hmore).2⟩⟩
        · split at h
          · cases h
            exact ⟨List.cons_ne_nil _ _, List.forall_mem_singleton.mpr hfirst⟩
          · cases h

/-- What is read as arguments can be spelled, and each can be an argument. -/
theorem spelled_arguments [Engine] {name : String} :
    ∀ {n : Nat} {cs rest : List Char} {args : List Expr},
      arguments g name n cs = .ok (args, rest) →
        (∀ e ∈ args, isArgument e = true) ∧ ∀ e ∈ args, Spelled g e
  | 0, _, _, _, h => nomatch h
  | n + 1, cs, rest, args, h => by
    rw [arguments] at h
    split at h
    · cases h
    · cases h
    · rename_i arg after hterm
      have hfirst : Spelled g arg := spelled_sequence hterm arg List.mem_cons_self
      split at h
      · rename_i hargument
        split at h
        · obtain ⟨⟨more, _⟩, hmore, heq⟩ := eq_ok_of_map h
          cases heq
          obtain ⟨hmore, hall⟩ := spelled_arguments hmore
          exact ⟨List.forall_mem_cons.mpr ⟨hargument, hmore⟩,
            List.forall_mem_cons.mpr ⟨hfirst, hall⟩⟩
        · cases h
          exact ⟨List.forall_mem_singleton.mpr hargument, List.forall_mem_singleton.mpr hfirst⟩
        · cases h
      · cases h
    · cases h

end

end Parser

/-- The tree of a source has the shape of the grammar's trees, unless nothing was in the source. -/
theorem spelled_of_parse [Engine] {g : Grammar} {source : String} {tree : Expr}
    (h : Expr.parse g source = .ok tree) (hne : tree ≠ .rigid []) :
    Spelled g tree ∧ tree.firstDisallowed g.allowed = none := by
  rw [Expr.parse] at h
  dsimp only at h
  split at h
  · cases h
  · rename_i es _ hterms
    split at h
    · cases h
    · rename_i hallowed
      cases h
      refine ⟨Parser.spelled_combine ?_ (Parser.spelled_sequence hterms), hallowed⟩
      rintro rfl
      exact hne rfl

end Colloquy.Expr
