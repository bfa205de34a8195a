import Colloquy.Proofs.Generation.Parallel
import Colloquy.Proofs.Text.Words

/-!
# What texts can silence

Whether an expression without calls reduces, and what is drawn, does not depend on the texts of its
literals and of the variables, only on which variables are bound (`relating_sameNames`).  Generation
looks at the text it has made, though, and gives nothing if it holds the fault mark, wherever that
comes from: so a literal or a value that holds the mark can silence it, and no other text can
(`generate_reworded`).

No mark comes about from texts without one: it holds neither a blank nor closing punctuation, so it
lies inside one of the texts that are joined, and tidying makes none.
-/

namespace Colloquy.Generation

open Matching (Callless)

/-! ### Marks -/

/-- The text does not hold the fault mark. -/
def Unmarked (text : String) : Prop :=
  ¬faultMark.toList <:+: text.toList

instance (text : String) : Decidable (Unmarked text) :=
  inferInstanceAs (Decidable (¬_))

theorem faultMark_ne_nil : faultMark.toList ≠ [] := by decide

theorem space_notMem_faultMark : ' ' ∉ faultMark.toList := by decide

theorem not_isClosing_of_mem_faultMark : ∀ c ∈ faultMark.toList, isClosing c = false := by
  simp [faultMark, isClosing]

theorem closeUp_cons (c : Char) (cs : List Char) :
    closeUp (c :: cs) = if c = ' ' ∧ cs.head?.any isClosing then closeUp cs else c :: closeUp cs := by
  rw [closeUp]

/-- What begins a text that was closed up began it before, if it holds no closing punctuation. -/
theorem prefix_of_prefix_closeUp {pattern cs : List Char}
    (hclosing : ∀ c ∈ pattern, isClosing c = false) (h : pattern <+: closeUp cs) :
    pattern <+: cs := by
  induction cs generalizing pattern with
  | nil => exact h
  | cons c cs ih =>
    rw [closeUp_cons] at h
    split at h
    · rename_i hdropped
      -- The punctuation comes first now, and the pattern cannot begin with it.
      cases cs with
      | nil => exact absurd hdropped.2 Bool.false_ne_true
      | cons d ds =>
        have hd : isClosing d = true := hdropped.2
        have hspace : ¬(d = ' ' ∧ ds.head?.any isClosing) := by
          rintro ⟨rfl, -⟩
          exact absurd hd (by decide)
        rw [closeUp_cons, if_neg hspace] at h
        cases pattern with
        | nil => exact List.nil_prefix
        | cons x xs =>
          obtain ⟨rfl, -⟩ := List.cons_prefix_cons.mp h
          rw [hclosing x (.head _)] at hd
          cases hd
    · cases pattern with
      | nil => exact List.nil_prefix
      | cons d ds =>
        obtain ⟨rfl, hds⟩ := List.cons_prefix_cons.mp h
        exact List.cons_prefix_cons.mpr ⟨rfl, ih (fun x hx => hclosing x (.tail _ hx)) hds⟩

theorem infix_of_infix_closeUp {pattern cs : List Char}
    (hclosing : ∀ c ∈ pattern, isClosing c = false) (h : pattern <:+: closeUp cs) :
    pattern <:+: cs := by
  induction cs with
  | nil => exact h
  | cons c cs ih =>
    have hrest (h : pattern <:+: closeUp cs) : pattern <:+: c :: cs :=
      (ih h).trans (List.suffix_cons c cs).isInfix
    rw [closeUp_cons] at h
    split at h
    · exact hrest h
    · rename_i hstays
      rcases List.infix_cons_iff.mp h with h | h
      · have hbegins : pattern <+: closeUp (c :: cs) := by rwa [closeUp_cons, if_neg hstays]
        exact (prefix_of_prefix_closeUp hclosing hbegins).isInfix
      · exact hrest h

/-- Spacing words singly makes no mark, for a mark lies inside a word. -/
theorem Unmarked.collapse {text : String} (h : Unmarked text) : Unmarked (Text.collapse text) := by
  intro hmark
  rw [Text.collapse, String.toList_ofList] at hmark
  obtain ⟨word, hword, hinside⟩ := Text.exists_infix_of_infix_intercalate space_notMem_faultMark
    faultMark_ne_nil hmark
  exact h (hinside.trans (Text.infix_of_mem_runs hword))

/-- Tidying makes no mark: what holds one was closed up from what held it. -/
theorem Unmarked.tidy {text : String} (h : Unmarked text) : Unmarked (tidy text) := by
  intro hmark
  rw [Generation.tidy, String.toList_ofList] at hmark
  exact h.collapse (infix_of_infix_closeUp not_isClosing_of_mem_faultMark hmark)

theorem unmarked_intercalate {texts : List String} (h : ∀ text ∈ texts, Unmarked text) :
    Unmarked (String.intercalate " " texts) := by
  intro hmark
  rw [String.toList_intercalate] at hmark
  obtain ⟨piece, hpiece, hinside⟩ := Text.exists_infix_of_infix_intercalate space_notMem_faultMark
    faultMark_ne_nil hmark
  obtain ⟨text, htext, rfl⟩ := List.mem_map.mp hpiece
  exact h text htext hinside

/-! ### Success -/

/-- The trees are alike, but for the texts of the literals and for what is not generated. -/
def Reworded : Expr → Expr → Prop :=
  Parallel (fun _ _ => True) (fun _ => True) fun _ => True

/-- The same variables are bound. -/
def SameNames (v w : Bindings) : Prop :=
  ∀ name, v.contains name = w.contains name

/-- No literal of the expression holds the fault mark, and no value of a variable that it refers
to. -/
structure Clear (e : Expr) (vars : Bindings) : Prop where
  literals : ∀ text, .literal text ∈ e.nodes → Unmarked text
  values : ∀ name, .reference name ∈ e.nodes → ∀ value ∈ vars.get? name, Unmarked value

theorem rel_of_isSome_eq {α β : Type} {a : Option α} {b : Option β} (h : a.isSome = b.isSome) :
    Option.Rel (fun _ _ => True) a b := by
  cases a <;> cases b <;> simp_all

/-- Texts do not matter, and the same variables stay bound. -/
theorem relating_sameNames :
    Relating (fun _ _ => True) SameNames (fun _ => True) fun _ => True where
  join _ := trivial
  tidy _ := trivial
  get? h _ := rel_of_isSome_eq (h _)
  insert {v w name s t} h _ _ other := by
    have hother := h other
    rw [SortedMap.contains, SortedMap.contains] at hother ⊢
    rw [SortedMap.get?_insert, SortedMap.get?_insert]
    split
    · rfl
    · exact hother

/-- Texts stay without the mark, and so do the values of the variables that are referred to. -/
theorem relating_clear (reads : String → Prop) :
    Relating (fun s t => Unmarked s ∧ s = t)
      (fun v w => v = w ∧ ∀ name, reads name → ∀ value ∈ v.get? name, Unmarked value) reads
      fun _ => True where
  join h := by
    rw [List.forall₂_and_left, List.forall₂_eq_eq_eq] at h
    exact ⟨unmarked_intercalate h.1, congrArg _ h.2⟩
  tidy := by
    rintro s _ ⟨h, rfl⟩
    exact ⟨h.tidy, rfl⟩
  get? {v _ name} := by
    rintro ⟨rfl, h⟩ hread
    cases hget : v.get? name with
    | none => exact .none
    | some value => exact .some ⟨h name hread value hget, rfl⟩
  -- What is assigned is clear of the mark, and is the same on both sides.
  insert {v _ name s _} := by
    rintro ⟨rfl, h⟩ - ⟨hs, rfl⟩
    refine ⟨rfl, fun other hread value hvalue => ?_⟩
    rw [SortedMap.get?_insert] at hvalue
    split at hvalue
    · obtain rfl : s = value := by simpa using hvalue
      exact hs
    · exact h other hread value hvalue

variable {macros : Macro.Registry} {e d : Expr} {v w : Bindings}

theorem generate_apply (src : Source) :
    generate macros e v src =
      (finish (kept (reduce macros e v src).1), (reduce macros e v src).2) := by
  rw [generate_eq]
  rfl

/-- What is not reduced is not generated. -/
theorem isSome_kept_of_isSome_generate {src : Source}
    (h : (generate macros e v src).1.isSome = true) :
    (kept (reduce macros e v src).1).isSome = true := by
  rw [generate_apply] at h
  cases hkept : kept (reduce macros e v src).1 with
  | none =>
    rw [hkept] at h
    exact h
  | some _ => rfl

/-- What is clear is generated if it is reduced: the text comes without the mark. -/
theorem Clear.isSome_generate (h : Clear e v) (hcallless : Callless e) {src : Source}
    (hkept : (kept (reduce macros e v src).1).isSome = true) :
    (generate macros e v src).1.isSome = true := by
  have hparallel : Parallel (fun s t => Unmarked s ∧ s = t) (fun name => .reference name ∈ e.nodes)
      (fun _ => True) e e :=
    parallel_self e hcallless (fun text hn => ⟨h.literals text hn, rfl⟩) (fun _ hn => hn)
      fun _ _ _ => trivial
  have hreduced := (reduce_agrees macros (relating_clear _) e e hparallel
    ⟨rfl, h.values⟩ src).1.kept
  obtain ⟨⟨text, after⟩, htext⟩ := Option.isSome_iff_exists.mp hkept
  rw [htext, Option.rel_some_some] at hreduced
  have hunmarked : ¬occursIn faultMark.toList text.toList = true :=
    occursIn_iff.not.mpr hreduced.1.1
  rw [generate_apply, htext, finish, if_neg hunmarked]
  rfl

/-- Two expressions without calls that differ in the texts of their literals only, under bindings of
the same variables, draw alike; and unless the fault mark is in a literal or a value that one of
them uses, that one is generated whenever the other is. -/
theorem generate_reworded (he : Callless e) (hd : Callless d) (h : Reworded e d)
    (hnames : SameNames v w) (macros : Macro.Registry) (src : Source) :
    (generate macros e v src).2 = (generate macros d w src).2 ∧
      (Clear d w → (generate macros e v src).1.isSome = true →
        (generate macros d w src).1.isSome = true) ∧
      (Clear e v → (generate macros d w src).1.isSome = true →
        (generate macros e v src).1.isSome = true) := by
  obtain ⟨hreduced, hsource⟩ := reduce_agrees macros relating_sameNames e d h hnames src
  have hkept : (kept (reduce macros e v src).1).isSome = (kept (reduce macros d w src).1).isSome :=
    isSome_eq_of_rel hreduced.kept
  refine ⟨?_, fun hclear hgenerated => hclear.isSome_generate hd ?_,
    fun hclear hgenerated => hclear.isSome_generate he ?_⟩
  · rw [generate_apply, generate_apply]
    exact hsource
  · exact hkept ▸ isSome_kept_of_isSome_generate hgenerated
  · exact hkept ▸ isSome_kept_of_isSome_generate hgenerated

/-- A welcome by name, or a short one. -/
def welcome (text : String) : Expr :=
  .disjunction [.rigid [.literal text, .reference "name"], .assignment "greeted" (.literal text)]

/-- A name is bound. -/
def named (name : String) : Bindings :=
  SortedMap.empty.insert "name" name

theorem reworded_welcome (s t : String) : Reworded (welcome s) (welcome t) :=
  .disjunction (.cons (.rigid (.cons (.literal trivial) (.cons (.reference trivial) .nil)))
    (.cons (.assignment trivial (.literal trivial)) .nil))

theorem sameNames_named (name other : String) : SameNames (named name) (named other) := by
  intro x
  simp only [SortedMap.contains, named, SortedMap.get?_insert]
  split <;> rfl

theorem clear_welcome {text name : String} (htext : Unmarked text) (hname : Unmarked name) :
    Clear (welcome text) (named name) where
  literals s hs := by
    obtain rfl : s = text := by simpa [welcome, Expr.nodes, Expr.nodesOf] using hs
    exact htext
  values x _ value hvalue := by
    rw [named, SortedMap.get?_insert] at hvalue
    split at hvalue
    · obtain rfl : name = value := by simpa using hvalue
      exact hname
    · cases hvalue

/-- Another name and other words welcome as well. -/
theorem generate_reworded_welcome :
    let src := Source.ofWords fun _ => 0
    Callless (welcome "Hello") ∧ Callless (welcome "Good day") ∧
      Reworded (welcome "Hello") (welcome "Good day") ∧ SameNames (named "Ann") (named "Bob") ∧
      (generate SortedMap.empty (welcome "Good day") (named "Bob") src).1.isSome = true := by
  intro src
  have he : Callless (welcome "Hello") := by decide
  have hd : Callless (welcome "Good day") := by decide
  have hreworded := reworded_welcome "Hello" "Good day"
  have hnames := sameNames_named "Ann" "Bob"
  have hclear : Clear (welcome "Good day") (named "Bob") := clear_welcome (by decide) (by decide)
  exact ⟨he, hd, hreworded, hnames,
    (generate_reworded he hd hreworded hnames SortedMap.empty src).2.1 hclear (by decide +kernel)⟩

/-- A name that is the fault mark silences the welcome, and so do words that are. -/
theorem faultMark_silences :
    let src := Source.ofWords fun _ => 0
    Callless (welcome "Hello") ∧ SameNames (named "Ann") (named faultMark) ∧
      (generate SortedMap.empty (welcome "Hello") (named "Ann") src).1.isSome = true ∧
      (generate SortedMap.empty (welcome "Hello") (named faultMark) src).1.isSome = false ∧
      Reworded (welcome "Hello") (welcome faultMark) ∧
      (generate SortedMap.empty (welcome faultMark) (named "Ann") src).1.isSome = false :=
  ⟨by decide, sameNames_named _ _, by decide +kernel, by decide +kernel, reworded_welcome _ _,
    by decide +kernel⟩

end Colloquy.Generation
