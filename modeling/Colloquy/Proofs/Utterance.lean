import Mathlib
import Colloquy.Utterance
import Colloquy.Proofs.SortedMap
import Colloquy.Proofs.Text.Sigma
import Colloquy.Proofs.Text.Words

/-!
# Which phrases an utterance contains

The phrases of an utterance are written down as texts: their tokens, joined by spaces.  No token
holds a space, so the tokens can be read off the text again (`phrase_injective`), and a phrase is in
the set exactly if its tokens are a run of those of the utterance.  Looking it up and searching the
tokens therefore come to the same, and how long the phrases in the set are does not show in the
answers (`contains_scan`).

What was said is sought in its own utterance by way of another order of the same two steps: the
utterance is sent to lower case as a whole and then cut into tokens, the phrase is cut first.  The
tokens are the same except for capital sigmas whose surroundings reach beyond their token
(`contains_own`).
-/

namespace Colloquy.Utterance

open Text

/-! ### Windows -/

/-- The windows of a length are the contiguous runs of that length. -/
theorem mem_windows {α : Type} {n : Nat} {run xs : List α} :
    run ∈ windows n xs ↔ run.length = n ∧ run <:+: xs := by
  induction xs with
  | nil =>
    rw [windows, List.infix_nil]
    split_ifs with hn
    · rw [hn, List.mem_singleton, List.length_eq_zero_iff, and_self]
    · refine iff_of_false List.not_mem_nil ?_
      rintro ⟨hlength, rfl⟩
      exact hn hlength.symm
  | cons x xs ih =>
    rw [windows, List.infix_cons_iff]
    -- Fewer than `n` are left: nothing of that length is in them.
    split_ifs with hshort
    · refine iff_of_false List.not_mem_nil ?_
      rintro ⟨rfl, hrun⟩
      exact Nat.not_le.mpr hshort (List.infix_cons_iff.mpr hrun).length_le
    · rw [List.mem_cons, ih, and_or_left]
      refine or_congr_left ⟨?_, ?_⟩
      · rintro rfl
        exact ⟨List.length_take_of_le (Nat.not_lt.mp hshort), List.take_prefix _ _⟩
      · rintro ⟨rfl, hprefix⟩
        exact List.prefix_iff_eq_take.mp hprefix

/-! ### Tokens and phrases -/

theorem not_isTokenChar_space : isTokenChar ' ' = false := by
  decide +kernel

theorem space_notMem_token {text token : String} (h : token ∈ tokenize text) :
    ' ' ∉ token.toList := by
  obtain ⟨run, hrun, rfl⟩ := List.mem_map.mp h
  rw [lowercase, String.toList_ofList, String.toList_ofList]
  refine space_notMem_lowerAfter (fun hspace => ?_) _
  have hclass := (mem_of_mem_runs hrun hspace).2
  rw [not_isTokenChar_space] at hclass
  cases hclass

/-- Tokens without spaces can be told from the phrase that they make up. -/
theorem phrase_injective {tokens tokens' : List String} (hne : tokens ≠ []) (hne' : tokens' ≠ [])
    (h : ∀ token ∈ tokens, ' ' ∉ token.toList) (h' : ∀ token ∈ tokens', ' ' ∉ token.toList)
    (heq : phrase tokens = phrase tokens') : tokens = tokens' := by
  have hsplit {tokens : List String} (hne : tokens ≠ [])
      (h : ∀ token ∈ tokens, ' ' ∉ token.toList) :
      (phrase tokens).toList.splitOn ' ' = tokens.map String.toList := by
    rw [phrase, String.toList_intercalate]
    exact List.splitOn_intercalate ' ' (List.forall_mem_map.mpr h) (mt List.map_eq_nil_iff.mp hne)
  have hlists : tokens.map String.toList = tokens'.map String.toList := by
    rw [← hsplit hne h, ← hsplit hne' h', heq]
  exact List.map_injective_iff.mpr (fun _ _ => String.toList_injective) hlists

/-! ### The set of phrases -/

section Scan

variable {raw sought : String} {maxPhrase : Nat}

theorem tokens_scan : (scan raw maxPhrase).tokens = tokenize (lowercase (collapse raw)) := by
  rw [scan]

theorem maxPhrase_scan : (scan raw maxPhrase).maxPhrase = max maxPhrase 1 := by
  rw [scan]

theorem phrases_scan : (scan raw maxPhrase).phrases = SortedSet.ofList
    ((List.range' 1 (min (max maxPhrase 1) (scan raw maxPhrase).tokens.length)).flatMap fun n =>
      (windows n (scan raw maxPhrase).tokens).map phrase) := by
  rw [tokens_scan, scan]

/-- The set holds the contiguous runs of at least one token and at most `maxPhrase`. -/
theorem mem_phrases {text : String} : text ∈ (scan raw maxPhrase).phrases.toList ↔
    ∃ run, run <:+: (scan raw maxPhrase).tokens ∧ 1 ≤ run.length ∧
      run.length ≤ max maxPhrase 1 ∧ text = phrase run := by
  rw [phrases_scan, SortedSet.mem_toList_ofList, List.mem_flatMap]
  constructor
  · rintro ⟨n, hn, hmem⟩
    obtain ⟨run, hrun, rfl⟩ := List.mem_map.mp hmem
    obtain ⟨rfl, hinfix⟩ := mem_windows.mp hrun
    have hlength := List.mem_range'_1.mp hn
    exact ⟨run, hinfix, hlength.1, by omega, rfl⟩
  · rintro ⟨run, hinfix, hpos, hmax, rfl⟩
    have hlength := hinfix.length_le
    exact ⟨run.length, List.mem_range'_1.mpr ⟨hpos, by omega⟩,
      List.mem_map_of_mem (mem_windows.mpr ⟨rfl, hinfix⟩)⟩

/-- A phrase that is not too long is in the set exactly if its tokens are a run. -/
theorem contains_phrases_iff (hne : tokenize sought ≠ [])
    (hlength : (tokenize sought).length ≤ (scan raw maxPhrase).maxPhrase) :
    SortedMap.contains (scan raw maxPhrase).phrases (phrase (tokenize sought)) = true ↔
      tokenize sought <:+: (scan raw maxPhrase).tokens := by
  rw [← SortedMap.mem_keys_iff]
  refine mem_phrases.trans ⟨?_, fun hinfix => ?_⟩
  · rintro ⟨run, hinfix, hpos, -, heq⟩
    have hrun : ∀ token ∈ run, ' ' ∉ token.toList := by
      intro token htoken
      have hmem := hinfix.subset htoken
      rw [tokens_scan] at hmem
      exact space_notMem_token hmem
    rwa [phrase_injective hne (List.ne_nil_of_length_pos hpos) (fun _ => space_notMem_token) hrun heq]
  · rw [maxPhrase_scan] at hlength
    exact ⟨_, hinfix, List.length_pos_iff.mpr hne, hlength, rfl⟩

theorem contains_windows_iff : (windows (tokenize sought).length
      (scan raw maxPhrase).tokens).contains (tokenize sought) = true ↔
    tokenize sought <:+: (scan raw maxPhrase).tokens := by
  rw [List.contains_iff_mem, mem_windows, eq_self, true_and]

theorem contains_iff : (scan raw maxPhrase).contains sought = true ↔
    tokenize sought ≠ [] ∧ tokenize sought <:+: (scan raw maxPhrase).tokens := by
  rw [contains]
  split_ifs with hempty hshort
  · exact iff_of_false id fun h => h.1 (List.isEmpty_iff.mp hempty)
  · have hne : tokenize sought ≠ [] := mt List.isEmpty_iff.mpr hempty
    rw [contains_phrases_iff hne hshort, and_iff_right hne]
  · have hne : tokenize sought ≠ [] := mt List.isEmpty_iff.mpr hempty
    rw [contains_windows_iff, and_iff_right hne]

end Scan

/-- An utterance contains the phrases whose tokens are a run of its own.  The set of phrases and the
windows agree on all phrases that are short enough for the set, which holds the runs of up to
`maxPhrase` tokens; the answers are the same for every `maxPhrase`. -/
theorem contains_scan (raw : String) (maxPhrase : Nat) :
    (∀ sought, (scan raw maxPhrase).contains sought = true ↔
      tokenize sought ≠ [] ∧ tokenize sought <:+: (scan raw maxPhrase).tokens) ∧
    (∀ sought, tokenize sought ≠ [] → (tokenize sought).length ≤ (scan raw maxPhrase).maxPhrase →
      SortedMap.contains (scan raw maxPhrase).phrases (phrase (tokenize sought)) =
        (windows (tokenize sought).length (scan raw maxPhrase).tokens).contains
          (tokenize sought)) ∧
    (∀ text, text ∈ (scan raw maxPhrase).phrases.toList ↔
      ∃ run, run <:+: (scan raw maxPhrase).tokens ∧ 1 ≤ run.length ∧
        run.length ≤ max maxPhrase 1 ∧ text = phrase run) ∧
    ∀ other sought, (scan raw other).contains sought = (scan raw maxPhrase).contains sought := by
  refine ⟨fun sought => contains_iff, fun sought hne hlength => ?_, fun text => mem_phrases,
    fun other sought => ?_⟩
  · rw [Bool.eq_iff_iff, contains_phrases_iff hne hlength, contains_windows_iff]
  · rw [Bool.eq_iff_iff, contains_iff, contains_iff, tokens_scan, tokens_scan]

/-! ### Tokens in lower case -/

/-- Lower case makes token characters of token characters, and of no others. -/
theorem isTokenChar_of_mem_lowerOf {before after : List Char} {c d : Char}
    (h : d ∈ lowerOf before c after) : isTokenChar d = isTokenChar c := by
  rw [lowerOf] at h
  split_ifs at h with hsigma hfinal hdotted
  · rw [List.mem_singleton.mp h, hsigma]
    decide
  · rw [List.mem_singleton.mp h, hsigma]
    decide
  · rw [hdotted]
    rcases List.mem_pair.mp h with rfl | rfl <;> decide
  · have happly : lowerMap.image c = '\'' ↔ c = '\'' := by
      refine ⟨eq_of_lower (by decide), ?_⟩
      rintro rfl
      decide
    rw [List.mem_singleton.mp h, isTokenChar, isTokenChar, isWordChar_lower, Bool.eq_iff_iff,
      Bool.or_eq_true, Bool.or_eq_true, beq_iff_eq, beq_iff_eq, happly]

section Runs

variable {view : List Char → List Char} {before piece after : List Char}

theorem runs_lowerIn_of_forall (h : ∀ c ∈ piece, isTokenChar c = true) :
    runs isTokenChar (lowerIn view before piece after) =
      if piece = [] then [] else [lowerIn view before piece after] := by
  have hlower : ∀ c ∈ lowerIn view before piece after, isTokenChar c = true := by
    intro d hd
    obtain ⟨c, hc, us, vs, hmem⟩ := exists_of_mem_lowerIn hd
    rw [isTokenChar_of_mem_lowerOf hmem, h c hc]
  rw [runs_of_forall hlower]
  simp only [lowerIn_eq_nil_iff]

theorem runs_lowerIn_append_cons {d : Char} (hd : ¬isTokenChar d = true) (us vs : List Char) :
    runs isTokenChar (lowerIn view before (us ++ d :: vs) after) =
      runs isTokenChar (lowerIn view before us (d :: (vs ++ after))) ++
        runs isTokenChar (lowerIn view (d :: (us.reverse ++ before)) vs after) := by
  have hdotted : d ≠ 'İ' := by
    rintro rfl
    exact hd (by decide)
  obtain ⟨e, hlower, -, -⟩ := exists_lowerOf (view (us.reverse ++ before)) hdotted
    (view (vs ++ after))
  have he : ¬isTokenChar e = true := by
    rwa [isTokenChar_of_mem_lowerOf (hlower ▸ List.mem_singleton_self e)]
  rw [lowerIn_append, lowerIn, hlower, List.singleton_append, runs_append_cons_of_neg he,
    List.cons_append]

/-- Lower case leaves the number of runs alone. -/
theorem length_runs_lowerIn (cs : List Char) :
    (runs isTokenChar (lowerIn view before cs after)).length = (runs isTokenChar cs).length := by
  have hpiece {before piece after : List Char} (h : ∀ c ∈ piece, isTokenChar c = true) :
      (runs isTokenChar (lowerIn view before piece after)).length =
        (runs isTokenChar piece).length := by
    rw [runs_lowerIn_of_forall h, runs_of_forall h]
    split_ifs <;> rfl
  induction cs using pieces_induction (p := isTokenChar) generalizing before with
  | last piece h => exact hpiece h
  | more piece d cs h hd ih =>
    rw [runs_lowerIn_append_cons hd, runs_append_cons_of_neg hd, List.length_append,
      List.length_append, hpiece h, ih]

/-- With no more than their own run in view, the characters of a text get the lower case that the
runs of the text have one by one. -/
theorem runs_lowerIn_takeWhile (cs : List Char) :
    runs isTokenChar (lowerIn (List.takeWhile isTokenChar) [] cs []) =
      (runs isTokenChar cs).map (lowerAfter []) := by
  have hpiece {piece : List Char} (h : ∀ c ∈ piece, isTokenChar c = true) :
      runs isTokenChar (lowerIn (List.takeWhile isTokenChar) [] piece []) =
        (runs isTokenChar piece).map (lowerAfter []) := by
    rw [runs_lowerIn_of_forall h, runs_of_forall h, lowerIn_takeWhile_of_forall h]
    split_ifs <;> rfl
  induction cs using pieces_induction (p := isTokenChar) with
  | last piece h => exact hpiece h
  | more piece d cs h hd ih =>
    rw [runs_lowerIn_append_cons hd, List.append_nil, lowerIn_takeWhile_after hd,
      lowerIn_takeWhile_before hd, hpiece h, ih, runs_append_cons_of_neg hd, List.map_append]

end Runs

/-! ### An utterance and its own text -/

/-- Each capital sigma gets the same form from its own token as from the whole text. -/
def SigmasAgree (cs : List Char) : Prop :=
  ∀ us vs, cs = us ++ 'Σ' :: vs →
    isFinal (us.reverse.takeWhile isTokenChar) (vs.takeWhile isTokenChar) = isFinal us.reverse vs

/-- Without capital sigmas there is nothing to agree about. -/
theorem sigmasAgree_of_notMem {cs : List Char} (h : 'Σ' ∉ cs) : SigmasAgree cs := by
  rintro us vs rfl
  exact absurd (List.mem_append_right us List.mem_cons_self) h

section Own

variable {raw : String} {maxPhrase : Nat}

theorem isBlank_of_isTokenChar {c : Char} (h : isTokenChar c = true) : isBlank c = false := by
  have hall : (blanks.all fun c => !isTokenChar c) = true := by decide +kernel
  by_contra hblank
  have hclass := List.all_eq_true.mp hall c (mem_blanks (by simpa using hblank))
  rw [h] at hclass
  cases hclass

/-- The runs of a text in lower case are in lower case already. -/
theorem lowerAfter_of_mem_runs {before cs run : List Char}
    (h : run ∈ runs isTokenChar (lowerAfter before cs)) : lowerAfter [] run = run := by
  refine lowerAfter_eq_self (fun c hc => ?_) (fun hdotted => ?_) []
  · exact lower_of_mem_lowerAfter (mem_of_mem_runs h hc).1
  · exact dottedI_notMem_lowerAfter _ _ (mem_of_mem_runs h hdotted).1

/-- The tokens of an utterance see the whole text. -/
theorem tokens_scan_eq : (scan raw maxPhrase).tokens =
    (runs isTokenChar (lowerIn id [] (collapse raw).toList [])).map String.ofList := by
  rw [tokens_scan, tokenize, lowercase, String.toList_ofList, lowerIn_id]
  refine List.map_congr_left fun run hrun => ?_
  rw [lowercase, String.toList_ofList, lowerAfter_of_mem_runs hrun]

/-- The tokens of a phrase see no more than themselves. -/
theorem tokenize_eq : tokenize raw =
    (runs isTokenChar (lowerIn (List.takeWhile isTokenChar) [] (collapse raw).toList [])).map
      String.ofList := by
  rw [runs_lowerIn_takeWhile, runs_collapse fun _ => isBlank_of_isTokenChar, List.map_map, tokenize]
  refine List.map_congr_left fun run _ => ?_
  rw [lowercase, String.toList_ofList, Function.comp_apply]

/-- Sought as a phrase, what was said has the tokens of the utterance just if its sigmas agree. -/
theorem tokenize_eq_tokens_iff (raw : String) (maxPhrase : Nat) :
    tokenize raw = (scan raw maxPhrase).tokens ↔ SigmasAgree (collapse raw).toList := by
  rw [tokenize_eq, tokens_scan_eq]
  constructor
  · intro h us vs hcs
    have hruns := List.map_injective_iff.mpr (fun _ _ => String.ofList_injective) h
    have hfilter := congrArg List.flatten hruns
    rw [flatten_runs, flatten_runs] at hfilter
    have hform := isFinal_eq_of_filter (by decide) (by decide) hfilter hcs
    rwa [List.append_nil, List.append_nil, id, id] at hform
  · intro h
    rw [lowerIn_congr fun us vs hcs => ?_]
    rw [List.append_nil, List.append_nil, h us vs hcs, id, id]

/-- A token of an utterance has no other tokens than itself. -/
theorem tokenize_of_mem_tokens {token : String} (h : token ∈ (scan raw maxPhrase).tokens) :
    tokenize token = [token] := by
  rw [tokens_scan_eq, lowerIn_id] at h
  obtain ⟨run, hrun, rfl⟩ := List.mem_map.mp h
  have hclass : ∀ c ∈ run, isTokenChar c = true := fun c hc => (mem_of_mem_runs hrun hc).2
  rw [tokenize, String.toList_ofList, runs_of_forall hclass, if_neg (ne_nil_of_mem_runs hrun),
    List.map_singleton, lowercase, String.toList_ofList, lowerAfter_of_mem_runs hrun]

/-- The tokens of a phrase that is made of tokens of an utterance are these tokens. -/
theorem tokenize_phrase {run : List String}
    (h : ∀ token ∈ run, token ∈ (scan raw maxPhrase).tokens) :
    tokenize (phrase run) = run := by
  have hspace : ¬isTokenChar ' ' = true := by
    rw [not_isTokenChar_space]
    decide
  rw [tokenize, phrase, String.toList_intercalate]
  show (runs isTokenChar ([' '].intercalate (run.map String.toList))).map _ = run
  rw [runs_intercalate hspace, List.map_flatMap, List.flatMap_map]
  calc run.flatMap tokenize
      = run.flatMap fun token => [token] :=
        List.flatMap_congr fun token htoken => tokenize_of_mem_tokens (h token htoken)
    _ = run := List.flatMap_singleton' run

end Own

/-- An utterance with tokens contains its own text unless a capital sigma gets another form from the
whole text than from its token alone, and it contains every run of its tokens. -/
theorem contains_own (raw : String) (maxPhrase : Nat) (h : (scan raw maxPhrase).tokens ≠ []) :
    ((scan raw maxPhrase).contains raw = true ↔ SigmasAgree (collapse raw).toList) ∧
    ∀ run, run ≠ [] → run <:+: (scan raw maxPhrase).tokens →
      (scan raw maxPhrase).contains (phrase run) = true := by
  constructor
  · have hlength : (tokenize raw).length = (scan raw maxPhrase).tokens.length := by
      rw [tokenize_eq, tokens_scan_eq, List.length_map, List.length_map, length_runs_lowerIn,
        length_runs_lowerIn]
    rw [contains_iff, ← tokenize_eq_tokens_iff raw maxPhrase]
    constructor
    · exact fun hinfix => hinfix.2.eq_of_length hlength
    · intro heq
      rw [heq]
      exact ⟨h, List.infix_rfl⟩
  · intro run hne hinfix
    rw [contains_iff, tokenize_phrase fun token htoken => hinfix.subset htoken]
    exact ⟨hne, hinfix⟩

/-- A greeting has neither sigmas nor anything else in its way. -/
theorem contains_own_greeting :
    (scan "Well,  I DON'T know" 2).tokens ≠ [] ∧
    (scan "Well,  I DON'T know" 2).contains "Well,  I DON'T know" = true ∧
    (scan "Well,  I DON'T know" 2).contains (phrase ["i", "don't", "know"]) = true := by
  have htokens : (scan "Well,  I DON'T know" 2).tokens ≠ [] := by decide +kernel
  obtain ⟨hraw, hruns⟩ := contains_own _ _ htokens
  have hsigmas : 'Σ' ∉ (collapse "Well,  I DON'T know").toList := by decide +kernel
  exact ⟨htokens, hraw.mpr (sigmasAgree_of_notMem hsigmas), hruns _ (by decide) (by decide +kernel)⟩

/-- The sigma before the full stop ends its token, but not the text. -/
theorem contains_own_misses :
    (scan "ΑΣ.Β" defaultMaxPhrase).tokens ≠ [] ∧
    (scan "ΑΣ.Β" defaultMaxPhrase).contains "ΑΣ.Β" = false := by
  decide +kernel

end Colloquy.Utterance
