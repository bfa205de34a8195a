import Mathlib
import Colloquy.Proofs.Matching.Negation

/-!
# Capturing changes nothing

An assignment captures what its value matches and asks for nothing itself, so a tree means what it
means without its assignments (`bare`).  But its fragment does not span just that: a repetition with
an assignment inside is written with a connective in front of every round, the first one included,
and matches with punctuation in front where the plain form does not.

Wherever a fragment can stand, though, a gap or any text may stand before it, which takes such
punctuation in.  So what counts of a fragment is what it spans behind a gap (`AgreeBehind`).  Each
way of putting fragments together keeps that, and behind a gap the two forms of a repetition span
the same (`agree_repeatedCapturing`).  It follows that a tree without references matches as it does
without its assignments (`isSome_run_iff_accepts_bare`), and with one more of them
(`capturing_iff`).
-/

namespace Colloquy.Matching

open Regex
open Relation (Comp ReflTransGen)

/-! ### Behind a gap -/

section

variable {s : Subject} {i j : Nat} {gap R Q : Nat → Nat → Prop} {Rs Qs : List (Nat → Nat → Prop)}

/-- Behind a gap, the relations lead to the same positions. -/
def AgreeBehind (s : Subject) (R Q : Nat → Nat → Prop) : Prop :=
  Agree s.size (Comp (Gap s) R) (Comp (Gap s) Q)

/-- Stretches of characters that pass are put together. -/
theorem stretch_append {test : Char → Bool} {k : Nat} (h : Stretch s test i k)
    (h' : Stretch s test k j) : Stretch s test i j := by
  refine ⟨h.1.trans h'.1, h'.2.1, fun c hc => ?_⟩
  obtain ⟨l, hil, hlj, hl⟩ := mem_slice_iff.mp hc
  rcases Nat.lt_or_ge l k with hlt | hge
  · exact h.2.2 c (mem_slice_iff.mpr ⟨l, hil, hlt, hl⟩)
  · exact h'.2.2 c (mem_slice_iff.mpr ⟨l, hge, hlj, hl⟩)

/-- A gap leads forwards. -/
theorem advances_gap : Advances s.size (Gap s) := fun _ _ _ h => ⟨h.1, h.2.1⟩

/-- So does a filler. -/
theorem advances_filler : Advances s.size (Filler s) := fun _ _ _ h => h

/-- What takes in a gap that follows it. -/
structure Spacer (s : Subject) (gap : Nat → Nat → Prop) : Prop where
  absorbs : Comp gap (Gap s) = gap
  advances : Advances s.size gap

/-- A gap takes in a gap that follows it. -/
theorem spacer_gap : Spacer s (Gap s) where
  absorbs := by
    funext i j
    refine propext ⟨fun ⟨_, h, h'⟩ => stretch_append h h', fun h => ⟨j, h, stretch_self _ h.2.1⟩⟩
  advances := advances_gap

/-- So does a filler. -/
theorem spacer_filler : Spacer s (Filler s) where
  absorbs := by
    funext i j
    refine propext ⟨fun ⟨_, h, h'⟩ => ⟨h.1.trans h'.1, h'.2.1⟩, fun h => ⟨j, h, stretch_self _ h.2⟩⟩
  advances := advances_filler

/-- Behind such a spacer, agreeing behind a gap is agreeing. -/
theorem Spacer.agree (hgap : Spacer s gap) (h : AgreeBehind s R Q) :
    Agree s.size (Comp gap R) (Comp gap Q) := by
  rw [← hgap.absorbs, Relation.comp_assoc, Relation.comp_assoc]
  exact agree_comp (.refl _ _) hgap.advances h

/-- Agreement behind a gap is transitive. -/
theorem AgreeBehind.trans {P : Nat → Nat → Prop} (h : AgreeBehind s R Q) (h' : AgreeBehind s Q P) :
    AgreeBehind s R P :=
  Agree.trans h h'

/-- Relations that agree everywhere agree behind a gap. -/
theorem agreeBehind_of_agree (h : Agree s.size R Q) : AgreeBehind s R Q :=
  agree_comp (.refl _ _) advances_gap h

/-- A row leads forwards if its members and what stands between them do. -/
theorem advances_row {Rs : List (Nat → Nat → Prop)} (hgap : Advances s.size gap)
    (hRs : ∀ R ∈ Rs, Advances s.size R) : Advances s.size (row gap Rs) := by
  match Rs with
  | [] =>
    rintro i j hi rfl
    exact ⟨le_rfl, hi⟩
  | [R] => exact hRs R List.mem_cons_self
  | R :: R' :: Rs =>
    rw [List.forall_mem_cons] at hRs
    exact hRs.1.comp (hgap.comp (advances_row hgap hRs.2))

/-- In a row behind a spacer, every member stands behind one, so that it may be replaced by what
agrees with it there. -/
theorem agree_row_behind (hgap : Spacer s gap) (hRs : ∀ R ∈ Rs, Advances s.size R)
    (h : List.Forall₂ (AgreeBehind s) Rs Qs) :
    Agree s.size (Comp gap (row gap Rs)) (Comp gap (row gap Qs)) := by
  induction h with
  | nil => exact .refl _ _
  -- The spacer before the tail is taken along with what precedes it.
  | @cons R Q Rs Qs hRQ hrest ih =>
    rw [List.forall_mem_cons] at hRs
    cases hrest with
    | nil => exact hgap.agree hRQ
    | @cons R' Q' Rs Qs hRQ' hrest =>
      show Agree s.size (Comp gap (Comp R (Comp gap (row gap (R' :: Rs)))))
        (Comp gap (Comp Q (Comp gap (row gap (Q' :: Qs)))))
      rw [← Relation.comp_assoc, ← @Relation.comp_assoc _ _ _ _ gap Q]
      exact agree_comp (hgap.agree hRQ) (hgap.advances.comp hRs.1) (ih hRs.2)

/-- Whether something occurs is asked behind a filler. -/
theorem occurs_iff_behind (h : AgreeBehind s R Q) (hi : i ≤ s.size) :
    Occurs s R i ↔ Occurs s Q i := by
  have hfiller := spacer_filler.agree h i hi
  constructor
  · rintro ⟨k, hik, j, hkj⟩
    obtain ⟨k', hik', hkj'⟩ := (hfiller j).mp ⟨k, hik, hkj⟩
    exact ⟨k', hik', j, hkj'⟩
  · rintro ⟨k, hik, j, hkj⟩
    obtain ⟨k', hik', hkj'⟩ := (hfiller j).mpr ⟨k, hik, hkj⟩
    exact ⟨k', hik', j, hkj'⟩

/-- The items of a flexible sequence stand behind fillers. -/
theorem agree_flexible_behind (hRs : ∀ R ∈ Rs, Advances s.size R)
    (h : List.Forall₂ (AgreeBehind s) Rs Qs) :
    Agree s.size (Comp (Filler s) (Comp (row (Filler s) Rs) (Filler s)))
      (Comp (Filler s) (Comp (row (Filler s) Qs) (Filler s))) := by
  rw [← Relation.comp_assoc, ← Relation.comp_assoc]
  exact agree_comp (agree_row_behind spacer_filler hRs h)
    (advances_filler.comp (advances_row advances_filler hRs)) (.refl _ _)

/-- The items of a conjunction are looked for behind fillers. -/
theorem agree_conjunction_behind (h : List.Forall₂ (AgreeBehind s) Rs Qs) :
    Agree s.size (fun i j => (∀ R ∈ Rs, Occurs s R i) ∧ Filler s i j)
      fun i j => (∀ Q ∈ Qs, Occurs s Q i) ∧ Filler s i j := by
  intro i hi j
  refine and_congr_left fun _ => ?_
  induction h with
  | nil => exact Iff.rfl
  | cons hRQ _ ih => rw [List.forall_mem_cons, List.forall_mem_cons, occurs_iff_behind hRQ hi, ih]

/-- The body of a negation is looked for behind a filler. -/
theorem agree_negation_behind (h : AgreeBehind s R Q) :
    Agree s.size (fun i j => ¬Occurs s R i ∧ Filler s i j)
      fun i j => ¬Occurs s Q i ∧ Filler s i j :=
  fun _ hi _ => and_congr_left fun _ => not_congr (occurs_iff_behind h hi)

/-- A gap before a choice is a gap before each of its alternatives. -/
theorem comp_exists (Rs : List (Nat → Nat → Prop)) :
    Comp gap (fun i j => ∃ R ∈ Rs, R i j) i j ↔ ∃ R ∈ Rs, Comp gap R i j := by
  constructor
  · rintro ⟨k, hik, R, hR, hkj⟩
    exact ⟨R, hR, k, hik, hkj⟩
  · rintro ⟨R, hR, k, hik, hkj⟩
    exact ⟨k, hik, R, hR, hkj⟩

/-- A gap before something optional is the gap alone, or one before the body. -/
theorem comp_eq_or : Comp gap (fun i j => i = j ∨ R i j) i j ↔ gap i j ∨ Comp gap R i j := by
  constructor
  · rintro ⟨k, hik, rfl | hkj⟩
    · exact .inl hik
    · exact .inr ⟨k, hik, hkj⟩
  · rintro (hij | ⟨k, hik, hkj⟩)
    · exact ⟨j, hij, .inl rfl⟩
    · exact ⟨k, hik, .inr hkj⟩

/-- A choice behind a gap, alternative by alternative. -/
theorem agreeBehind_disjunction (h : List.Forall₂ (AgreeBehind s) Rs Qs) :
    AgreeBehind s (fun i j => ∃ R ∈ Rs, R i j) fun i j => ∃ Q ∈ Qs, Q i j := by
  intro i hi j
  rw [comp_exists, comp_exists]
  induction h with
  | nil => exact Iff.rfl
  | cons hRQ _ ih => rw [List.exists_mem_cons_iff, List.exists_mem_cons_iff, hRQ i hi j, ih]

/-- What is optional behind a gap. -/
theorem agreeBehind_optional (h : AgreeBehind s R Q) :
    AgreeBehind s (fun i j => i = j ∨ R i j) fun i j => i = j ∨ Q i j := by
  intro i hi j
  rw [comp_eq_or, comp_eq_or, h i hi j]

/-- A repetition puts a gap before each of its rounds, so that each is behind one. -/
theorem agreeBehind_onceOrMore (hR : Advances s.size R) (h : AgreeBehind s R Q) :
    AgreeBehind s (OnceOrMore s R) (OnceOrMore s Q) := by
  have hround : Advances s.size (Comp (Gap s) R) := advances_gap.comp hR
  rw [AgreeBehind, OnceOrMore, OnceOrMore, ← Relation.comp_assoc, ← Relation.comp_assoc]
  exact agree_comp h hround (agree_reflTransGen h hround)

/-- The form of a repetition with captures is the other one, with a gap in front. -/
theorem agree_repeatedCapturing (r : Regex) :
    Agree s.size (Spans s (repeatedCapturing r)) (Comp (Gap s) (OnceOrMore s (Spans s r))) := by
  -- A round is a gap and the body, in the loop as in the meaning.
  have hround : Agree s.size (Comp (Spans s connective) (Spans s r)) (Comp (Gap s) (Spans s r)) :=
    agree_comp agree_connective (advances_spans _) (.refl _ _)
  have hadvances : Advances s.size (Comp (Spans s connective) (Spans s r)) :=
    (advances_spans _).comp (advances_spans _)
  rw [OnceOrMore, ← Relation.comp_assoc]
  refine Agree.trans (fun i _ j => ?_)
    (agree_comp hround hadvances (agree_reflTransGen hround hadvances))
  rw [repeatedCapturing, spans_loop]
  constructor
  · rintro ⟨k, ⟨k', hik, hk⟩, n, -, hkj⟩
    obtain rfl : k' = k := hk
    exact ⟨k', hik, exists_rounds_iff.mp ⟨n, hkj⟩⟩
  · rintro ⟨k, hik, hkj⟩
    obtain ⟨n, hn⟩ := exists_rounds_iff.mpr hkj
    exact ⟨k, ⟨k, hik, rfl⟩, n, by simp, hn⟩

end

/-! ### Trees without their assignments -/

mutual

/-- The expression without its assignments: each is replaced by its value. -/
def bare : Expr → Expr
  | .assignment _ value => bare value
  | .flexible items => .flexible (bareAll items)
  | .rigid items => .rigid (bareAll items)
  | .conjunction items => .conjunction (bareAll items)
  | .disjunction items => .disjunction (bareAll items)
  | .optional body => .optional (bare body)
  | .star body => .star (bare body)
  | .plus body => .plus (bare body)
  | .negation body => .negation (bare body)
  | .literal text => .literal text
  | .raw pattern => .raw pattern
  | .reference name => .reference name
  | .call name args => .call name args

/-- The expressions without their assignments. -/
def bareAll : List Expr → List Expr
  | [] => []
  | e :: es => bare e :: bareAll es

end

/-- No part of the expression refers to a variable, is a raw pattern or calls a macro. -/
def Unreferring (e : Expr) : Prop :=
  ∀ n ∈ e.nodes, n.kind ≠ .reference ∧ n.kind ≠ .raw ∧ n.kind ≠ .call

instance (e : Expr) : Decidable (Unreferring e) :=
  inferInstanceAs (Decidable (∀ n ∈ e.nodes, _))

/-- The second expression is the first one with a part of it assigned to the variable. -/
inductive Captures (name : String) : Expr → Expr → Prop
  | whole (e : Expr) : Captures name e (.assignment name e)
  | flexible {before after : List Expr} {e e' : Expr} (h : Captures name e e') :
      Captures name (.flexible (before ++ e :: after)) (.flexible (before ++ e' :: after))
  | rigid {before after : List Expr} {e e' : Expr} (h : Captures name e e') :
      Captures name (.rigid (before ++ e :: after)) (.rigid (before ++ e' :: after))
  | conjunction {before after : List Expr} {e e' : Expr} (h : Captures name e e') :
      Captures name (.conjunction (before ++ e :: after)) (.conjunction (before ++ e' :: after))
  | disjunction {before after : List Expr} {e e' : Expr} (h : Captures name e e') :
      Captures name (.disjunction (before ++ e :: after)) (.disjunction (before ++ e' :: after))
  | optional {e e' : Expr} (h : Captures name e e') : Captures name (.optional e) (.optional e')
  | star {e e' : Expr} (h : Captures name e e') : Captures name (.star e) (.star e')
  | plus {e e' : Expr} (h : Captures name e e') : Captures name (.plus e) (.plus e')
  | negation {e e' : Expr} (h : Captures name e e') : Captures name (.negation e) (.negation e')
  | assignment {other : String} {e e' : Expr} (h : Captures name e e') :
      Captures name (.assignment other e) (.assignment other e')

section

variable {name : String} {e e' : Expr}

/-- Assignments are taken away item by item. -/
theorem bareAll_append (es ds : List Expr) : bareAll (es ++ ds) = bareAll es ++ bareAll ds := by
  induction es with
  | nil => rfl
  | cons e es ih => rw [List.cons_append, bareAll, bareAll, ih, List.cons_append]

/-- Without their assignments, the expressions are the same. -/
theorem Captures.bare_eq (h : Captures name e e') : bare e' = bare e := by
  induction h with
  | whole e => rw [bare]
  | flexible _ ih | rigid _ ih | conjunction _ ih | disjunction _ ih =>
    simp only [bare, bareAll_append, bareAll, ih]
  | optional _ ih | star _ ih | plus _ ih | negation _ ih | assignment _ ih => simp only [bare, ih]

/-- Assigning a part brings in no reference, raw pattern or call. -/
theorem Captures.unreferring (h : Captures name e e') (he : Unreferring e) : Unreferring e' := by
  induction h with
  | whole e => exact List.forall_mem_cons.mpr ⟨by simp [Expr.kind], he⟩
  -- Among several items, only the one with the assignment has changed.
  | flexible _ ih | rigid _ ih | conjunction _ ih | disjunction _ ih =>
    simp only [Unreferring, Expr.nodes, Expr.nodesOf_eq_flatMap, List.flatMap_append,
      List.flatMap_cons, List.forall_mem_cons, List.forall_mem_append] at he ih ⊢
    exact ⟨by simp [Expr.kind], he.2.1, ih he.2.2.1, he.2.2.2⟩
  | optional _ ih | star _ ih | plus _ ih | negation _ ih | assignment _ ih =>
    exact List.forall_mem_cons.mpr ⟨by simp [Expr.kind], ih fun n hn => he n (.tail _ hn)⟩

end

/-! ### Fragments -/

/-- Numbering the groups on changes nothing of what is spanned. -/
theorem spans_shiftOwn (s : Subject) (n : Nat) (r : Regex) :
    Spans s (r.shiftOwn n) = Spans s r := by
  induction r with
  | seq a b iha ihb | alt a b iha ihb =>
    funext i j
    rw [shiftOwn, Spans, Spans, iha, ihb]
  | group r ih | capture _ r ih | embedded _ r ih | ahead _ r ih | behind _ _ r ih | loop r _ _ _ ih =>
    funext i j
    rw [shiftOwn, Spans, Spans, ih]
  | empty | char | any | set | anchor | backref | captured | atomic | conditional | unreadable => rfl

/-- Renumbering the groups of raw patterns brings in no reference. -/
theorem references_shiftOwn {r : Regex} (h : r.references = []) (n : Nat) :
    (r.shiftOwn n).references = [] := by
  induction r with
  | seq a b iha ihb | alt a b iha ihb =>
    rw [references, List.append_eq_nil_iff] at h
    rw [shiftOwn, references, iha h.1, ihb h.2, List.append_nil]
  | conditional c a b ihc iha ihb =>
    rw [references, List.append_eq_nil_iff, List.append_eq_nil_iff] at h
    rw [shiftOwn, references, ihc h.1.1, iha h.1.2, ihb h.2, List.append_nil, List.append_nil]
  | group r ih | capture _ r ih | embedded _ r ih | ahead _ r ih | behind _ _ r ih | loop r _ _ _ ih
  | atomic r ih =>
    exact ih h
  | backref | captured => cases h
  | empty | char | any | set | anchor | unreadable => rfl

/-- The fragment refers to nothing and, behind a gap, spans what the expression means without its
assignments. -/
structure RendersBare (vars : Bindings) (e : Expr) (r : Regex) : Prop where
  references : r.references = []
  behind : ∀ s : Subject, AgreeBehind s (Spans s r) (Means s vars (bare e))

section

variable {vars : Bindings} {es : List Expr} {rs : List Regex}

/-- Fragments that refer to nothing do not refer to anything together. -/
theorem references_of_rendersBare (h : List.Forall₂ (RendersBare vars) es rs) :
    rs.flatMap Regex.references = [] := by
  induction h with
  | nil => rfl
  | cons h _ ih => rw [List.flatMap_cons, h.references, ih, List.nil_append]

/-- Item by item, the fragments agree with the meanings behind a gap. -/
theorem behind_of_rendersBare (h : List.Forall₂ (RendersBare vars) es rs) (s : Subject) :
    List.Forall₂ (AgreeBehind s) (rs.map (Spans s)) (meanings s vars (bareAll es)) := by
  induction h with
  | nil => exact .nil
  | cons h _ ih => exact .cons (h.behind s) ih

/-- Fragments span what they span. -/
theorem fragments_spans (s : Subject) (rs : List Regex) : Fragments s rs (rs.map (Spans s)) := by
  rw [Fragments, List.forall₂_map_right_iff, List.forall₂_same]
  exact fun _ _ => .refl _ _

/-- Whatever fragments span leads forwards. -/
theorem advances_map_spans (s : Subject) (rs : List Regex) :
    ∀ R ∈ rs.map (Spans s), Advances s.size R :=
  List.forall_mem_map.mpr fun _ _ => advances_spans _

end

section

variable {s : Subject} {rs : List Regex} {Qs : List (Nat → Nat → Prop)} {r : Regex}
  {Q : Nat → Nat → Prop}

/-- A flexible sequence of fragments, each replaced by its meaning. -/
theorem behind_flexible (h : List.Forall₂ (AgreeBehind s) (rs.map (Spans s)) Qs) :
    AgreeBehind s (Spans s (flexible rs))
      (Comp (Filler s) (Comp (row (Filler s) Qs) (Filler s))) :=
  agreeBehind_of_agree ((agree_flexible (fragments_spans s rs)).trans
    (agree_flexible_behind (advances_map_spans s rs) h))

/-- A rigid sequence of fragments, each replaced by its meaning. -/
theorem behind_rigid (h : List.Forall₂ (AgreeBehind s) (rs.map (Spans s)) Qs) :
    AgreeBehind s (Spans s (rigid rs)) (row (Gap s) Qs) :=
  (agreeBehind_of_agree (agree_rigid (fragments_spans s rs))).trans
    (agree_row_behind spacer_gap (advances_map_spans s rs) h)

/-- A conjunction of fragments, each replaced by its meaning. -/
theorem behind_conjunction (h : List.Forall₂ (AgreeBehind s) (rs.map (Spans s)) Qs) :
    AgreeBehind s (Spans s (conjunction rs)) fun i j => (∀ Q ∈ Qs, Occurs s Q i) ∧ Filler s i j :=
  agreeBehind_of_agree ((agree_conjunction (fragments_spans s rs)).trans
    (agree_conjunction_behind h))

/-- A choice between fragments, each replaced by its meaning. -/
theorem behind_disjunction (h : List.Forall₂ (AgreeBehind s) (rs.map (Spans s)) Qs) :
    AgreeBehind s (Spans s (disjunction rs)) fun i j => ∃ Q ∈ Qs, Q i j :=
  (agreeBehind_of_agree (agree_disjunction (fragments_spans s rs))).trans
    (agreeBehind_disjunction h)

/-- An optional fragment, replaced by its meaning. -/
theorem behind_optional (h : AgreeBehind s (Spans s r) Q) :
    AgreeBehind s (Spans s (optional r)) fun i j => i = j ∨ Q i j :=
  (agreeBehind_of_agree (agree_optional (.refl _ _))).trans (agreeBehind_optional h)

/-- A negated fragment, replaced by its meaning. -/
theorem behind_negation (h : AgreeBehind s (Spans s r) Q) :
    AgreeBehind s (Spans s (negation r)) fun i j => ¬Occurs s Q i ∧ Filler s i j :=
  agreeBehind_of_agree ((agree_negation (.refl _ _)).trans (agree_negation_behind h))

/-- Either form of a repetition is the closure that it stands for. -/
theorem behind_ofRepeated (before : Nat) (st : Compiling) (h : AgreeBehind s (Spans s r) Q) :
    AgreeBehind s (Spans s (ofRepeated before r st).1) (OnceOrMore s Q) := by
  refine AgreeBehind.trans ?_ (agreeBehind_onceOrMore (advances_spans r) h)
  rw [ofRepeated, get_bind_run]
  -- With no assignment inside, the body is written out twice; with one, there is a loop around gap
  -- and body.
  split
  · show AgreeBehind s (Spans s (repeated r (r.shiftOwn _))) _
    have hspans (n : Nat) : Spans s (repeated r (r.shiftOwn n)) = Spans s (repeated r r) := by
      funext i j
      simp only [repeated, Spans, spans_shiftOwn]
    rw [hspans]
    exact agreeBehind_of_agree (agree_repeated (.refl _ _))
  · show Agree s.size (Comp (Gap s) (Spans s (repeatedCapturing r))) _
    have hloop := agreeBehind_of_agree (agree_repeatedCapturing (s := s) r)
    rwa [AgreeBehind, ← Relation.comp_assoc, spacer_gap.absorbs] at hloop

/-- Repeating a fragment brings in no reference. -/
theorem references_ofRepeated (before : Nat) (st : Compiling) (h : r.references = []) :
    (ofRepeated before r st).1.references = [] := by
  rw [ofRepeated, get_bind_run]
  split
  · show (repeated r (r.shiftOwn _)).references = []
    rw [gathers_references.repeated, h, references_shiftOwn h, List.nil_append]
  · show (repeatedCapturing r).references = []
    rw [gathers_references.repeatedCapturing, h]

end

variable (macros : Macro.Registry) (u : Utterance)

mutual

/-- The fragment of an expression without references spans, behind a gap, what the expression means
without its assignments. -/
theorem rendersBare_fragment [Engine] (vars : Bindings) (e : Expr) (h : Unreferring e)
    (st : Compiling) :
    RendersBare vars e (fragment macros u e st).1 := by
  match e with
  | .literal text =>
    exact ⟨(written_literal text).references_eq_nil,
      fun _ => agreeBehind_of_agree (agree_literal text)⟩
  | .flexible items =>
    have hitems := rendersBare_fragments vars items (fun n hn => h n (.tail _ hn)) st
    exact ⟨(gathers_references.flexible _).trans (references_of_rendersBare hitems),
      fun s => behind_flexible (behind_of_rendersBare hitems s)⟩
  | .rigid items =>
    have hitems := rendersBare_fragments vars items (fun n hn => h n (.tail _ hn)) st
    exact ⟨(gathers_references.rigid _).trans (references_of_rendersBare hitems),
      fun s => behind_rigid (behind_of_rendersBare hitems s)⟩
  | .conjunction items =>
    have hitems := rendersBare_fragments vars items (fun n hn => h n (.tail _ hn)) st
    have hgathered := gathers_references.conjunction gathers_references (fun _ => rfl)
      (fragments macros u items st).1
    exact ⟨hgathered.trans (references_of_rendersBare hitems),
      fun s => behind_conjunction (behind_of_rendersBare hitems s)⟩
  | .disjunction items =>
    have hitems := rendersBare_fragments vars items (fun n hn => h n (.tail _ hn)) st
    exact ⟨(gathers_references.disjunction _).trans (references_of_rendersBare hitems),
      fun s => behind_disjunction (behind_of_rendersBare hitems s)⟩
  | .optional body =>
    have hbody := rendersBare_fragment vars body (fun n hn => h n (.tail _ hn)) st
    exact ⟨(gathers_references.optional _).trans hbody.references,
      fun s => behind_optional (hbody.behind s)⟩
  | .star body =>
    have hbody := rendersBare_fragment vars body (fun n hn => h n (.tail _ hn)) st
    exact ⟨(gathers_references.optional _).trans (references_ofRepeated _ _ hbody.references),
      fun s => behind_optional (behind_ofRepeated _ _ (hbody.behind s))⟩
  | .plus body =>
    have hbody := rendersBare_fragment vars body (fun n hn => h n (.tail _ hn)) st
    exact ⟨references_ofRepeated _ _ hbody.references,
      fun s => behind_ofRepeated _ _ (hbody.behind s)⟩
  | .negation body =>
    have hbody := rendersBare_fragment vars body (fun n hn => h n (.tail _ hn)) st
    exact ⟨(gathers_references.negation (fun _ => rfl) _).trans hbody.references,
      fun s => behind_negation (hbody.behind s)⟩
  -- The group is transparent to what is spanned.
  | .assignment name value =>
    have hvalue := rendersBare_fragment vars value (fun n hn => h n (.tail _ hn)) st
    exact ⟨hvalue.references, hvalue.behind⟩
  -- Excluded: what these stand for depends on more than the text.
  | .reference _ => exact absurd rfl (h _ (.head _)).1
  | .raw _ => exact absurd rfl (h _ (.head _)).2.1
  | .call .. => exact absurd rfl (h _ (.head _)).2.2

/-- Item by item, what expressions compile to. -/
theorem rendersBare_fragments [Engine] (vars : Bindings) (es : List Expr)
    (h : ∀ n ∈ Expr.nodesOf es, n.kind ≠ .reference ∧ n.kind ≠ .raw ∧ n.kind ≠ .call)
    (st : Compiling) : List.Forall₂ (RendersBare vars) es (fragments macros u es st).1 := by
  match es with
  | [] => exact .nil
  | e :: es =>
    rw [Expr.nodesOf, List.forall_mem_append] at h
    exact .cons (rendersBare_fragment vars e h.1 st) (rendersBare_fragments vars es h.2 _)

end

/-! ### Whole patterns -/

variable {macros u} {e e' : Expr} {vars : Bindings} {budget : Nat}

/-- An expression without references matches when it accepts the subject without its assignments. -/
theorem isSome_run_iff_accepts_bare [Engine] (h : Unreferring e)
    (hcompletes : Completes (compile macros u e vars) u budget) :
    (run macros u e vars budget).isSome = true ↔ Accepts (subject u) vars (bare e) := by
  obtain ⟨hreferences, hbehind⟩ := rendersBare_fragment macros u vars e h ⟨vars, [], [], 0⟩
  let root := (fragment macros u e ⟨vars, [], [], 0⟩).1
  have hregex : (compile macros u e vars).regex = anchored root := rfl
  have hanchored : (anchored root).references = [] := by rw [gathers_references.anchored, hreferences]
  have hlifts : Lifts (Spans (subject u) (anchored root))
      (Ways (subject u) (anchored root).references (anchored root)) := by
    rw [hanchored]
    exact lifts_ways hanchored fun _ _ => List.not_mem_nil
  -- The whole pattern begins with a gap, so agreeing behind one is enough.
  have hstart := hbehind (subject u) 0 (Nat.zero_le _)
  rw [isSome_run_iff (fun n hn => (h n hn).2.1) hcompletes, hregex, hlifts.exists_iff .start]
  refine (spans_anchored u (.refl _ _)).trans ⟨?_, ?_⟩
  · rintro ⟨i, j, hi, hij, hj⟩
    obtain ⟨i', hi', hij'⟩ := (hstart j).mp ⟨i, hi, hij⟩
    exact ⟨i', j, hi', hij', hj⟩
  · rintro ⟨i, j, hi, hij, hj⟩
    obtain ⟨i', hi', hij'⟩ := (hstart j).mpr ⟨i, hi, hij⟩
    exact ⟨i', j, hi', hij', hj⟩

/-- Assigning a part of an expression without references to a variable changes nothing of what
matches, wherever the part stands. -/
theorem capturing_iff [Engine] {name : String} (hcaptures : Captures name e e') (h : Unreferring e)
    (hplain : Completes (compile macros u e vars) u budget)
    (hcapturing : Completes (compile macros u e' vars) u budget) :
    (run macros u e' vars budget).isSome = true ↔ (run macros u e vars budget).isSome = true := by
  rw [isSome_run_iff_accepts_bare h hplain,
    isSome_run_iff_accepts_bare (hcaptures.unreferring h) hcapturing, hcaptures.bare_eq]

/-- Praise, more or less high. -/
def praise (degree : Expr) : Expr :=
  .rigid [.optional (.literal "so"), .plus (.rigid [.star degree, .literal "good"])]

/-- How high the praise is can be kept, inside one repetition in another. -/
theorem capturing_iff_praise :
    let u := Utterance.scan "So very, very good, good!" 4
    let degree : Expr := .disjunction [.literal "very", .literal "really"]
    Captures "degree" (praise degree) (praise (.assignment "degree" degree)) ∧
      Unreferring (praise degree) ∧
      (run SortedMap.empty u (praise (.assignment "degree" degree)) .empty 1000).isSome = true := by
  intro u degree
  have hcaptures : Captures "degree" (praise degree) (praise (.assignment "degree" degree)) := by
    have hinner : Captures "degree" (.rigid ([] ++ .star degree :: [.literal "good"]))
        (.rigid ([] ++ .star (.assignment "degree" degree) :: [.literal "good"])) :=
      .rigid (.star (.whole degree))
    exact @Captures.rigid _ [.optional (.literal "so")] [] _ _ (.plus hinner)
  have hunreferring : Unreferring (praise degree) := by decide
  exact ⟨hcaptures, hunreferring, (capturing_iff hcaptures hunreferring (by decide +kernel)
    (by decide +kernel)).mpr (by decide +kernel)⟩

end Colloquy.Matching
