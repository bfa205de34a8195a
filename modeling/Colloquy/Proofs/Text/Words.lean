import Mathlib
import Colloquy.Text.Words

/-!
# Words of a text

The runs of a class are the pieces between the characters outside it (`runs_eq_splitOnP`), so words
are made of characters that are not blank, and lie inside the text (`infix_of_mem_runs`).  A text in
which only single spaces stand between words is its words joined again (`intercalate_words`), and
every text is like that once its words have been joined (`spaced_collapse`).  Joining them leaves
the runs of every class without blanks alone (`runs_collapse`).
-/

namespace Colloquy.Text

/-! ### Blanks -/

theorem CodePoints.exists_range {set : CodePoints} {n : Nat} (h : set.hasCode n = true) :
    ∃ r ∈ set, n ∈ List.range' r.1 (r.2 + 1 - r.1) := by
  induction set with
  | nil => cases h
  | cons r set ih =>
    rw [CodePoints.hasCode] at h
    split_ifs at h with hlow hhigh
    · exact ⟨r, .head _, List.mem_range'_1.mpr (by omega)⟩
    · obtain ⟨r', hr', hn⟩ := ih h
      exact ⟨r', .tail _ hr', hn⟩

/-- The blanks, one by one. -/
def blanks : List Char :=
  blankCodePoints.flatMap fun r => (List.range' r.1 (r.2 + 1 - r.1)).map Char.ofNat

theorem mem_blanks {c : Char} (h : isBlank c = true) : c ∈ blanks := by
  obtain ⟨r, hr, hc⟩ := CodePoints.exists_range h
  exact List.mem_flatMap.mpr ⟨r, hr, List.mem_map.mpr ⟨c.toNat, hc, Char.ofNat_toNat c⟩⟩

/-! ### Runs -/

theorem runs_cons_cons (p : Char → Bool) (c d : Char) (ds : List Char) :
    runs p (c :: d :: ds) =
      if p c then
        match runs p (d :: ds) with
        | run :: more => if p d then (c :: run) :: more else [c] :: run :: more
        | [] => [[c]]
      else runs p (d :: ds) := by
  rw [runs.eq_def p (c :: d :: ds)]
  dsimp only
  cases runs p (d :: ds) <;> rfl

/-- The maximal runs are the nonempty pieces between the characters outside the class. -/
theorem runs_eq_splitOnP (p : Char → Bool) (cs : List Char) :
    runs p cs = (cs.splitOnP fun c => !p c).filter (· ≠ []) := by
  induction cs with
  | nil => simp [runs]
  | cons c cs ih =>
    rw [List.splitOnP_cons_eq_if_modifyHead]
    cases cs with
    | nil => by_cases hc : p c = true <;> simp [runs, hc]
    | cons d ds =>
      rw [runs_cons_cons, ih, List.splitOnP_cons_eq_if_modifyHead]
      by_cases hc : p c = true
      · rw [hc, Bool.not_true, if_pos rfl, if_neg Bool.false_ne_true]
        by_cases hd : p d = true
        · obtain ⟨piece, more, hds⟩ := List.exists_cons_of_ne_nil
            (List.splitOnP_ne_nil (fun c => !p c) ds)
          simp [hd, hds]
        · -- The run of `c` ends before `d`, whether or not another one follows.
          have hskip : ∀ pieces : List (List Char),
              ([] :: pieces).filter (· ≠ []) = pieces.filter (· ≠ []) := fun _ => rfl
          have hkeep : ∀ pieces : List (List Char),
              ([c] :: pieces).filter (· ≠ []) = [c] :: pieces.filter (· ≠ []) := fun _ => rfl
          simp only [hd, Bool.not_false, if_true, List.modifyHead_cons, hskip, hkeep]
          cases (ds.splitOnP fun c => !p c).filter (· ≠ []) <;> rfl
      · simp [hc]

theorem runs_cons_of_neg {p : Char → Bool} {c : Char} (hc : ¬p c = true) (cs : List Char) :
    runs p (c :: cs) = runs p cs := by
  rw [runs_eq_splitOnP, runs_eq_splitOnP, List.splitOnP_cons_eq_if_modifyHead]
  simp [hc]

theorem ne_nil_of_mem_runs {p : Char → Bool} {cs run : List Char} (h : run ∈ runs p cs) :
    run ≠ [] := by
  rw [runs_eq_splitOnP, List.mem_filter] at h
  simpa using h.2

/-- A character outside the class ends the runs before it. -/
theorem runs_append_cons_of_neg {p : Char → Bool} {d : Char} (hd : ¬p d = true) (us vs : List Char) :
    runs p (us ++ d :: vs) = runs p us ++ runs p vs := by
  have hsep : (!p d) = true := by simpa using hd
  rw [runs_eq_splitOnP, runs_eq_splitOnP, runs_eq_splitOnP, List.splitOnP_append_cons us vs hsep,
    List.filter_append]

/-- A text of characters of the class is one run. -/
theorem runs_of_forall {p : Char → Bool} {cs : List Char} (h : ∀ c ∈ cs, p c = true) :
    runs p cs = if cs = [] then [] else [cs] := by
  rw [runs_eq_splitOnP, List.splitOnP_eq_singleton fun c hc => by rw [h c hc]; rfl]
  by_cases hnil : cs = [] <;> simp [hnil]

/-- Induction on a text by its pieces of characters of a class, which end before a character outside
the class or with the text. -/
@[elab_as_elim]
theorem pieces_induction {p : Char → Bool} {motive : List Char → Prop}
    (last : ∀ piece, (∀ c ∈ piece, p c = true) → motive piece)
    (more : ∀ piece d cs, (∀ c ∈ piece, p c = true) → ¬p d = true → motive cs →
      motive (piece ++ d :: cs)) (cs : List Char) : motive cs := by
  -- Some characters of the first piece may have been passed already.
  have hpassed : ∀ piece : List Char, (∀ c ∈ piece, p c = true) → motive (piece ++ cs) := by
    induction cs with
    | nil =>
      intro piece hpiece
      rw [List.append_nil]
      exact last piece hpiece
    | cons d cs ih =>
      intro piece hpiece
      by_cases hd : p d = true
      · rw [List.append_cons]
        exact ih _ (List.forall_mem_append.mpr ⟨hpiece, List.forall_mem_singleton.mpr hd⟩)
      · exact more piece d cs hpiece hd (ih [] fun _ hc => nomatch hc)
  exact hpassed [] fun _ hc => nomatch hc

/-- The runs of a smaller class lie in the runs of a larger one. -/
theorem runs_eq_flatMap {p q : Char → Bool} (h : ∀ c, p c = true → q c = true) (cs : List Char) :
    runs p cs = (runs q cs).flatMap (runs p) := by
  have hwhole {piece : List Char} (hpiece : ∀ c ∈ piece, q c = true) :
      runs p piece = (runs q piece).flatMap (runs p) := by
    rw [runs_of_forall hpiece]
    split_ifs with hnil
    · rw [hnil]
      rfl
    · rw [List.flatMap_singleton]
  induction cs using pieces_induction (p := q) with
  | last piece hpiece => exact hwhole hpiece
  | more piece d cs hpiece hd ih =>
    rw [runs_append_cons_of_neg (mt (h d) hd), runs_append_cons_of_neg hd, List.flatMap_append, ← ih,
      ← hwhole hpiece]

/-- Pieces that are joined by a character outside the class keep their runs. -/
theorem runs_intercalate {p : Char → Bool} {sep : Char} (hsep : ¬p sep = true) :
    ∀ pieces : List (List Char), runs p ([sep].intercalate pieces) = pieces.flatMap (runs p)
  | [] => rfl
  | [piece] => by simp
  | piece :: next :: more => by
    rw [List.intercalate_cons_cons, List.append_assoc, List.singleton_append,
      runs_append_cons_of_neg hsep, runs_intercalate hsep (next :: more), ← List.flatMap_cons]

/-- Together, the runs hold the characters of the class. -/
theorem flatten_runs (p : Char → Bool) (cs : List Char) : (runs p cs).flatten = cs.filter p := by
  induction cs with
  | nil => rfl
  | cons c cs ih =>
    cases cs with
    | nil => by_cases hc : p c = true <;> simp [runs, hc]
    | cons d ds =>
      rw [runs_cons_cons, List.filter_cons, ← ih]
      by_cases hc : p c = true
      · rw [if_pos hc, if_pos hc]
        cases runs p (d :: ds) with
        | nil => rfl
        | cons run more => by_cases hd : p d = true <;> simp [hd]
      · rw [if_neg hc, if_neg hc]

theorem mem_of_mem_runs {p : Char → Bool} {cs run : List Char} (hrun : run ∈ runs p cs) {c : Char}
    (hc : c ∈ run) : c ∈ cs ∧ p c = true := by
  have hmem : c ∈ (runs p cs).flatten := List.mem_flatten.mpr ⟨run, hrun, hc⟩
  rwa [flatten_runs, List.mem_filter] at hmem

/-- A text that is not blank has words. -/
theorem words_ne_nil {cs : List Char} (h : ∃ c ∈ cs, isBlank c = false) : words cs ≠ [] := by
  obtain ⟨c, hc, hblank⟩ := h
  have hmem : c ∈ (words cs).flatten := by
    rw [words, flatten_runs]
    exact List.mem_filter.mpr ⟨hc, by rw [hblank]; rfl⟩
  intro hnil
  rw [hnil] at hmem
  cases hmem

/-- Leading blanks belong to no word. -/
theorem words_trimStart (cs : List Char) : words (trimStart cs) = words cs := by
  induction cs with
  | nil => rfl
  | cons c cs ih =>
    rw [trimStart, List.dropWhile_cons]
    split
    · rename_i hc
      have hskip : words (c :: cs) = words cs := by
        rw [words, words, runs_cons_of_neg]
        simp [hc]
      rw [hskip]
      exact ih
    · rfl

theorem mem_of_mem_intercalate {sep : List Char} {pieces : List (List Char)} {c : Char}
    (h : c ∈ sep.intercalate pieces) : (∃ piece ∈ pieces, c ∈ piece) ∨ c ∈ sep := by
  induction pieces with
  | nil => cases h
  | cons piece more ih =>
    cases more with
    | nil => exact .inl ⟨piece, .head _, by simpa using h⟩
    | cons next others =>
      rw [List.intercalate_cons_cons, List.mem_append, List.mem_append] at h
      rcases h with (hpiece | hsep) | hmore
      · exact .inl ⟨piece, .head _, hpiece⟩
      · exact .inr hsep
      · exact (ih hmore).imp_left fun ⟨x, hx, hc⟩ => ⟨x, .tail _ hx, hc⟩

theorem head?_intercalate {sep : List Char} {pieces : List (List Char)}
    (h : ∀ piece ∈ pieces, piece ≠ []) :
    (sep.intercalate pieces).head? = pieces.head?.bind List.head? := by
  match pieces with
  | [] => rfl
  | [piece] => simp
  | piece :: next :: more =>
    rw [List.intercalate_cons_cons, List.append_assoc, List.head?_append_of_ne_nil _ (h _ (.head _))]
    rfl

theorem getLast?_intercalate {sep : List Char} {pieces : List (List Char)}
    (h : ∀ piece ∈ pieces, piece ≠ []) :
    (sep.intercalate pieces).getLast? = pieces.getLast?.bind List.getLast? := by
  match pieces with
  | [] => rfl
  | [piece] => simp
  | piece :: next :: more =>
    have ih : (sep.intercalate (next :: more)).getLast? =
        (next :: more).getLast?.bind List.getLast? :=
      getLast?_intercalate fun p hp => h p (.tail _ hp)
    have hne : (sep.intercalate (next :: more)).getLast?.isSome = true := by
      rw [ih, List.getLast?_eq_some_getLast (List.cons_ne_nil _ _), Option.bind_some,
        List.getLast?_isSome]
      exact h _ (.tail _ (List.getLast_mem _))
    rw [List.intercalate_cons_cons, List.getLast?_append, Option.or_of_isSome hne, ih,
      List.getLast?_cons_cons]

/-- A character of a text with its words joined again stood there before, or is a space. -/
theorem mem_of_mem_collapse {text : String} {c : Char} (h : c ∈ (collapse text).toList) :
    c ∈ text.toList ∨ c = ' ' := by
  rw [collapse, String.toList_ofList] at h
  refine (mem_of_mem_intercalate h).imp (fun ⟨word, hword, hc⟩ => ?_) List.mem_singleton.mp
  exact (mem_of_mem_runs hword hc).1

/-! ### Pieces -/

/-- What does not hold a character lies on one side of it. -/
theorem infix_of_infix_append_cons {pattern before after : List Char} {c : Char} (hc : c ∉ pattern)
    (h : pattern <:+: before ++ c :: after) : pattern <:+: before ∨ pattern <:+: after := by
  have hnone {l : List Char} (hl : l <+: c :: after) (hmem : c ∉ l) : l = [] := by
    cases l with
    | nil => rfl
    | cons d ds => exact absurd (List.mem_cons.mpr (.inl (List.cons_prefix_cons.mp hl).1.symm)) hmem
  rcases List.infix_append_iff.mp h with h | h | ⟨l, r, rfl, hl, hr⟩
  · exact .inl h
  · rcases List.infix_cons_iff.mp h with h | h
    · exact .inl (hnone h hc ▸ List.nil_infix)
    · exact .inr h
  · rw [hnone hr fun hmem => hc (List.mem_append_right _ hmem), List.append_nil]
    exact .inl hl.isInfix

/-- Each piece stands in what they are joined to. -/
theorem infix_intercalate {sep piece : List Char} {pieces : List (List Char)} (h : piece ∈ pieces) :
    piece <:+: sep.intercalate pieces := by
  induction pieces with
  | nil => cases h
  | cons first more ih =>
    cases more with
    | nil =>
      obtain rfl : piece = first := List.mem_singleton.mp h
      rw [List.intercalate_singleton]
    | cons next others =>
      rw [List.intercalate_cons_cons]
      rcases List.mem_cons.mp h with rfl | h
      · rw [List.append_assoc]
        exact (List.prefix_append _ _).isInfix
      · exact (ih h).trans (List.suffix_append _ _).isInfix

/-- What does not hold a space lies inside one of the pieces that spaces join. -/
theorem exists_infix_of_infix_intercalate {pattern : List Char} (hspace : ' ' ∉ pattern)
    (hne : pattern ≠ []) {pieces : List (List Char)} (h : pattern <:+: [' '].intercalate pieces) :
    ∃ piece ∈ pieces, pattern <:+: piece := by
  induction pieces with
  | nil => exact absurd (List.infix_nil.mp h) hne
  | cons piece more ih =>
    cases more with
    | nil => exact ⟨piece, .head _, by simpa using h⟩
    | cons next others =>
      rw [List.intercalate_cons_cons, List.append_assoc, List.singleton_append] at h
      rcases infix_of_infix_append_cons hspace h with hpiece | hmore
      · exact ⟨piece, .head _, hpiece⟩
      · obtain ⟨x, hx, hinside⟩ := ih hmore
        exact ⟨x, .tail _ hx, hinside⟩

/-- The first piece begins the text, which a later one need not do. -/
theorem splitOnP_eq_cons (p : Char → Bool) (cs : List Char) :
    ∃ first more, cs.splitOnP p = first :: more ∧ first <+: cs ∧ ∀ piece ∈ more, piece <:+: cs := by
  induction cs with
  | nil => exact ⟨[], [], List.splitOnP_nil, List.prefix_rfl, fun _ h => nomatch h⟩
  | cons c cs ih =>
    obtain ⟨first, more, heq, hfirst, hmore⟩ := ih
    have hmore' : ∀ piece ∈ more, piece <:+: c :: cs := fun piece h => (hmore piece h).trans
      (List.suffix_cons c cs).isInfix
    rw [List.splitOnP_cons_eq_if_modifyHead, heq]
    split
    · refine ⟨[], first :: more, rfl, List.nil_prefix, List.forall_mem_cons.mpr ⟨?_, hmore'⟩⟩
      exact hfirst.isInfix.trans (List.suffix_cons c cs).isInfix
    · exact ⟨c :: first, more, rfl, List.cons_prefix_cons.mpr ⟨rfl, hfirst⟩, hmore'⟩

theorem infix_of_mem_runs {p : Char → Bool} {cs run : List Char} (h : run ∈ runs p cs) :
    run <:+: cs := by
  rw [runs_eq_splitOnP] at h
  obtain ⟨first, more, heq, hfirst, hmore⟩ := splitOnP_eq_cons (fun c => !p c) cs
  rw [heq] at h
  rcases List.mem_cons.mp (List.mem_of_mem_filter h) with rfl | h
  · exact hfirst.isInfix
  · exact hmore run h

/-- What begins a text, and lies in the class, begins the first run. -/
theorem exists_run_of_prefix {p : Char → Bool} {cs : List Char} :
    ∀ {pattern : List Char}, (∀ c ∈ pattern, p c = true) → pattern ≠ [] → pattern <+: cs →
      ∃ run more, runs p cs = run :: more ∧ pattern <+: run := by
  induction cs with
  | nil => exact fun _ hne h => absurd (List.prefix_nil.mp h) hne
  | cons c cs ih =>
    intro pattern hall hne h
    cases pattern with
    | nil => exact absurd rfl hne
    | cons x pattern =>
      obtain ⟨rfl, hrest⟩ := List.cons_prefix_cons.mp h
      rw [List.forall_mem_cons] at hall
      cases cs with
      | nil =>
        rw [List.prefix_nil.mp hrest]
        exact ⟨[x], [], by simp [runs, hall.1], List.prefix_rfl⟩
      | cons d ds =>
        rw [runs_cons_cons, if_pos hall.1]
        cases pattern with
        | nil =>
          -- The pattern is `x` alone, and so it begins the run that `x` begins.
          cases runs p (d :: ds) with
          | nil => exact ⟨[x], [], rfl, List.prefix_rfl⟩
          | cons run more =>
            by_cases hd : p d = true
            · exact ⟨x :: run, more, by simp [hd], List.cons_prefix_cons.mpr ⟨rfl, List.nil_prefix⟩⟩
            · exact ⟨[x], run :: more, by simp [hd], List.prefix_rfl⟩
        | cons y pattern =>
          obtain ⟨run, more, hrun, hprefix⟩ := ih hall.2 (List.cons_ne_nil _ _) hrest
          obtain ⟨rfl, -⟩ := List.cons_prefix_cons.mp hrest
          have hd : p y = true := hall.2 y (.head _)
          exact ⟨x :: run, more, by simp [hrun, hd], List.cons_prefix_cons.mpr ⟨rfl, hprefix⟩⟩

/-- What lies in a text, and in the class, lies in one of the runs. -/
theorem exists_run_of_infix {p : Char → Bool} {cs pattern : List Char}
    (hall : ∀ c ∈ pattern, p c = true) (hne : pattern ≠ []) (h : pattern <:+: cs) :
    ∃ run ∈ runs p cs, pattern <:+: run := by
  induction cs with
  | nil => exact absurd (List.infix_nil.mp h) hne
  | cons c cs ih =>
    rcases List.infix_cons_iff.mp h with h | h
    · obtain ⟨run, more, hrun, hprefix⟩ := exists_run_of_prefix hall hne h
      exact ⟨run, by rw [hrun]; exact .head _, hprefix.isInfix⟩
    · obtain ⟨run, hrun, hinside⟩ := ih h
      cases cs with
      | nil => cases hrun
      | cons d ds =>
        rw [runs_cons_cons]
        by_cases hc : p c = true
        · rw [if_pos hc]
          cases hruns : runs p (d :: ds) with
          | nil => exact nomatch hruns ▸ hrun
          | cons first more =>
            rw [hruns] at hrun
            -- In front of the runs that were there, `c` lengthens the first or is one of its own.
            by_cases hd : p d = true
            · rcases List.mem_cons.mp hrun with rfl | hrun
              · exact ⟨c :: run, by simp [hd], hinside.trans (List.suffix_cons c run).isInfix⟩
              · exact ⟨run, by simp [hd, hrun], hinside⟩
            · exact ⟨run, by simpa only [if_neg hd] using List.mem_cons_of_mem _ hrun, hinside⟩
        · rw [if_neg hc]
          exact ⟨run, hrun, hinside⟩

/-! ### Spacing -/

/-- Only single spaces stand in the text, and none at either end. -/
structure Spaced (cs : List Char) : Prop where
  starts : cs.head? ≠ some ' '
  ends : cs.getLast? ≠ some ' '
  single : ¬ [' ', ' '] <:+: cs

theorem Spaced.suffix {cs ds : List Char} (h : Spaced cs) (hds : ds <:+ cs)
    (hstarts : ds.head? ≠ some ' ') : Spaced ds where
  starts := hstarts
  ends hend := by
    obtain ⟨before, rfl⟩ := hds
    exact h.ends (by rw [List.getLast?_append, hend, Option.some_or])
  single hdouble := h.single (hdouble.trans hds.isInfix)

theorem spaced_intercalate {pieces : List (List Char)} (hne : ∀ piece ∈ pieces, piece ≠ [])
    (hspace : ∀ piece ∈ pieces, ' ' ∉ piece) : Spaced ([' '].intercalate pieces) where
  starts := by
    rw [head?_intercalate hne]
    intro h
    obtain ⟨piece, hpiece, hc⟩ := Option.bind_eq_some_iff.mp h
    exact hspace piece (List.mem_of_mem_head? hpiece) (List.mem_of_mem_head? hc)
  ends := by
    rw [getLast?_intercalate hne]
    intro h
    obtain ⟨piece, hpiece, hc⟩ := Option.bind_eq_some_iff.mp h
    exact hspace piece (List.mem_of_getLast? hpiece) (List.mem_of_getLast? hc)
  single := by
    induction pieces with
    | nil => exact fun h => nomatch List.infix_nil.mp h
    | cons piece more ih =>
      rw [List.forall_mem_cons] at hne hspace
      cases more with
      | nil =>
        rw [List.intercalate_singleton]
        exact fun h => hspace.1 (h.subset (.head _))
      | cons next others =>
        rw [List.intercalate_cons_cons, List.append_assoc, List.singleton_append]
        -- The space between the pieces is followed by the beginning of the next one.
        have hnext : ([' '].intercalate (next :: others)).head? ≠ some ' ' := by
          rw [head?_intercalate hne.2, List.head?_cons, Option.bind_some]
          exact fun h => hspace.2 next (.head _) (List.mem_of_mem_head? h)
        intro h
        rcases List.infix_append_iff.mp h with h | h | ⟨l, r, hlr, hl, hr⟩
        · exact hspace.1 (h.subset (.head _))
        · rcases List.infix_cons_iff.mp h with h | h
          · obtain ⟨-, ds, hds⟩ := List.cons_prefix_cons.mp h
            exact hnext (by rw [← hds]; rfl)
          · exact ih hne.2 hspace.2 h
        · cases l with
          | nil =>
            obtain rfl : [' ', ' '] = r := hlr
            obtain ⟨-, ds, hds⟩ := List.cons_prefix_cons.mp hr
            exact hnext (by rw [← hds]; rfl)
          | cons c l =>
            obtain ⟨rfl, -⟩ := List.cons.inj hlr
            exact hspace.1 (hl.subset (.head _))

/-- A word's first character goes before the words of the rest. -/
theorem intercalate_runs_cons {p : Char → Bool} {c d : Char} (hc : p c = true) (hd : p d = true)
    (ds : List Char) :
    [' '].intercalate (runs p (c :: d :: ds)) = c :: [' '].intercalate (runs p (d :: ds)) := by
  have hruns : runs p (d :: ds) ≠ [] := by
    intro hnil
    have hfilter := flatten_runs p (d :: ds)
    rw [hnil, List.filter_cons_of_pos hd] at hfilter
    cases hfilter
  obtain ⟨run, more, hrun⟩ := List.exists_cons_of_ne_nil hruns
  rw [runs_cons_cons, if_pos hc, hrun]
  cases more <;> simp [hd, List.intercalate_cons_cons]

/-- A spaced text is its words joined by spaces. -/
theorem intercalate_words : ∀ {cs : List Char}, Spaced cs →
    (∀ c ∈ cs, isBlank c = true → c = ' ') → [' '].intercalate (words cs) = cs
  | [], _, _ => rfl
  | [c], h, hblank => by
    have hc : isBlank c = false :=
      Bool.eq_false_iff.mpr fun hc => h.starts (congrArg some (hblank c (.head _) hc))
    simp [words, runs, hc]
  | c :: d :: ds, h, hblank => by
    have hc : (!isBlank c) = true := by
      rw [Bool.not_eq_true', Bool.eq_false_iff]
      exact fun hc => h.starts (congrArg some (hblank c (.head _) hc))
    have htail : ∀ e ∈ d :: ds, isBlank e = true → e = ' ' := fun e he => hblank e (.tail _ he)
    cases hd : isBlank d with
    | true =>
      -- A space stands after `c`, and after it the next word begins.
      obtain rfl : d = ' ' := htail d (.head _) hd
      cases ds with
      | nil => exact absurd rfl h.ends
      | cons e es =>
        have hspaced : Spaced (e :: es) := by
          refine h.suffix ⟨[c, ' '], rfl⟩ fun heq => h.single ?_
          cases heq
          exact ⟨[c], es, rfl⟩
        have ih := intercalate_words hspaced fun x hx => htail x (.tail _ hx)
        have hruns : runs (fun c => !isBlank c) (' ' :: e :: es) = words (e :: es) := by
          rw [runs_cons_cons, if_neg (by simp [hd]), words]
        have hne : words (e :: es) ≠ [] := by
          rintro hnil
          rw [hnil] at ih
          cases ih
        obtain ⟨word, more, hwords⟩ := List.exists_cons_of_ne_nil hne
        rw [words, runs_cons_cons, if_pos hc, hruns, hwords]
        show [' '].intercalate (if (!isBlank ' ') then _ else _) = _
        rw [if_neg (by simp [hd]), List.intercalate_cons_cons, ← hwords, ih]
        rfl
    | false =>
      have hstarts : (d :: ds).head? ≠ some ' ' := by
        rintro heq
        cases heq
        exact absurd hd (by decide)
      rw [words, intercalate_runs_cons hc (by simp [hd])]
      exact congrArg _ (intercalate_words (h.suffix (List.suffix_cons c _) hstarts) htail)

/-! ### Words joined again -/

theorem toList_collapse (text : String) :
    (collapse text).toList = [' '].intercalate (words text.toList) := by
  rw [collapse, String.toList_ofList]

/-- Collapsing blanks leaves the runs of all classes without blanks alone. -/
theorem runs_collapse {p : Char → Bool} (h : ∀ c, p c = true → isBlank c = false) (text : String) :
    runs p (collapse text).toList = runs p text.toList := by
  have hspace : ¬p ' ' = true := fun hp => nomatch h ' ' hp
  rw [toList_collapse, runs_intercalate hspace, words, ← runs_eq_flatMap]
  intro c hc
  rw [h c hc]
  rfl

theorem ne_nil_of_mem_words {cs word : List Char} (h : word ∈ words cs) : word ≠ [] :=
  ne_nil_of_mem_runs h

theorem not_isBlank_of_mem_words {cs word : List Char} (h : word ∈ words cs) {c : Char}
    (hc : c ∈ word) : isBlank c = false :=
  Bool.not_eq_true' _ |>.mp (mem_of_mem_runs h hc).2

theorem spaced_collapse (text : String) : Spaced (collapse text).toList := by
  rw [toList_collapse]
  refine spaced_intercalate (fun _ => ne_nil_of_mem_words) fun word hword hc => ?_
  have hblank := not_isBlank_of_mem_words hword hc
  rw [show isBlank ' ' = true by decide] at hblank
  cases hblank

/-- The only blanks between the words are spaces. -/
theorem eq_space_of_mem_collapse {text : String} {c : Char} (h : c ∈ (collapse text).toList)
    (hc : isBlank c = true) : c = ' ' := by
  rw [toList_collapse] at h
  rcases mem_of_mem_intercalate h with ⟨word, hword, hmem⟩ | hspace
  · rw [not_isBlank_of_mem_words hword hmem] at hc
    cases hc
  · exact List.mem_singleton.mp hspace

/-- The characters that are not blank, in order. -/
def solid (cs : List Char) : List Char :=
  cs.filter fun c => !isBlank c

theorem solid_cons (c : Char) (cs : List Char) :
    solid (c :: cs) = if isBlank c then solid cs else c :: solid cs := by
  rw [solid, List.filter_cons]
  cases isBlank c <;> rfl

theorem solid_intercalate {pieces : List (List Char)}
    (h : ∀ piece ∈ pieces, ∀ c ∈ piece, isBlank c = false) :
    solid ([' '].intercalate pieces) = pieces.flatten := by
  have hsolid {piece : List Char} (h : ∀ c ∈ piece, isBlank c = false) : solid piece = piece :=
    List.filter_eq_self.mpr fun c hc => by rw [h c hc]; rfl
  induction pieces with
  | nil => rfl
  | cons piece more ih =>
    rw [List.forall_mem_cons] at h
    cases more with
    | nil => rw [List.intercalate_singleton, hsolid h.1, List.flatten_singleton]
    | cons next others =>
      rw [List.intercalate_cons_cons, List.append_assoc, solid, List.filter_append, ← solid,
        hsolid h.1, List.flatten_cons, ← ih h.2]
      rfl

theorem solid_collapse (text : String) : solid (collapse text).toList = solid text.toList := by
  rw [toList_collapse, solid_intercalate fun _ hword _ => not_isBlank_of_mem_words hword, words,
    flatten_runs, solid]

/-- A text is blank if nothing is left of it. -/
theorem collapse_eq_empty_iff {text : String} :
    collapse text = "" ↔ ∀ c ∈ text.toList, isBlank c = true := by
  constructor
  · intro h c hc
    by_contra hblank
    have hsolid : c ∈ solid text.toList := by
      apply List.mem_filter.mpr
      exact ⟨hc, by simpa using hblank⟩
    rw [← solid_collapse, h] at hsolid
    cases hsolid
  · intro h
    have htrim : trimStart text.toList = [] := List.dropWhile_eq_nil_iff.mpr h
    rw [collapse, ← words_trimStart, htrim]
    rfl

theorem collapse_cons_ne_empty {c : Char} (hc : isBlank c = false) (cs : List Char) :
    collapse (String.ofList (c :: cs)) ≠ "" := by
  intro h
  have hblank : isBlank c = true := collapse_eq_empty_iff.mp h c (by simp)
  rw [hc] at hblank
  cases hblank

/-- Words that are spaced singly stay as they are. -/
theorem collapse_collapse (text : String) : collapse (collapse text) = collapse text := by
  have hwords := intercalate_words (spaced_collapse text) fun _ => eq_space_of_mem_collapse
  rw [collapse, hwords, String.ofList_toList]

end Colloquy.Text
