import Mathlib
import Colloquy.Proofs.Matching.Meaning
import Colloquy.Proofs.Regex.Names
import Colloquy.Proofs.Regex.Search

/-!
# Compiling keeps the meaning

An expression without assignments, macros and raw patterns compiles to a fragment that spans what
the expression means, changes nothing on the way (`fragment_eq`), and can be written out as it
stands.  Between its anchors the fragment matches an utterance when the expression relates two
positions with nothing but gaps outside them (`run_iff`).
-/

namespace Colloquy.Matching

open Regex
open Relation (Comp)

/-! ### Fragments can be written out -/

/-- A filler is written out as it is. -/
theorem written_filler : Written .branch filler := .loop false .any (by decide)

/-- So is a gap. -/
theorem written_connective : Written .branch connective :=
  .loop true (.property true (by decide)) (by decide)

/-- So are blanks. -/
theorem written_spacing : Written .branch spacing :=
  .loop true (.property false (by decide)) (by decide)

/-- So is what never matches. -/
theorem written_unmatchable : Written .branch unmatchable :=
  .seq (.row (.ahead true (.one (.row (.char 'x'))))) (.row (.char 'x'))

/-- The characters of a word are written one after the other, escaped where that is needed. -/
theorem written_chars (cs : List Char) : Written .branch (chars cs) := by
  refine .concat fun r hr => ?_
  obtain ⟨c, _, rfl⟩ := List.mem_map.mp hr
  exact .row (.char c)

/-- The edge of a word is written out if the text asks for one. -/
theorem written_edgeAt {c : Option Char} : ∀ r ∈ edgeAt c, Written .branch r := by
  intro r hr
  cases c with
  | none => cases hr
  | some c =>
    rw [edgeAt] at hr
    split at hr
    · rw [List.mem_singleton.mp hr]
      exact .row (.anchor .wordEdge)
    · cases hr

/-- What stands between members is written between them. -/
theorem written_intersperse {gap : Regex} (hgap : Written .branch gap) {rs : List Regex}
    (h : ∀ r ∈ rs, Written .branch r) : ∀ r ∈ rs.intersperse gap, Written .branch r := by
  match rs with
  | [] => exact h
  | [r] => exact h
  | r :: r' :: rs =>
    rw [List.forall_mem_cons] at h
    rw [List.intersperse_cons_cons, List.forall_mem_cons, List.forall_mem_cons]
    exact ⟨h.1, hgap, written_intersperse hgap h.2⟩

/-- A text is written out as its words with blanks between them. -/
theorem written_literal (text : String) : Written .branch (literal text) := by
  rw [literal]
  split
  · exact .empty
  · refine .concat ?_
    rw [List.forall_mem_append, List.forall_mem_append]
    refine ⟨⟨written_edgeAt, written_intersperse written_spacing ?_⟩, written_edgeAt⟩
    rw [List.forall_mem_map]
    exact fun word _ => written_chars word

section

variable {r : Regex} {rs : List Regex}

/-- A flexible sequence is written out item by item, with fillers around and between. -/
theorem written_flexible (h : ∀ r ∈ rs, Written .branch r) : Written .branch (flexible rs) := by
  rw [flexible]
  split
  · exact written_filler
  · refine .concat ?_
    rw [List.cons_append, List.forall_mem_cons, List.forall_mem_append, List.forall_mem_singleton]
    exact ⟨written_filler, written_intersperse written_filler h, written_filler⟩

/-- A rigid sequence is written out item by item, with gaps between. -/
theorem written_rigid (h : ∀ r ∈ rs, Written .branch r) : Written .branch (rigid rs) :=
  .concat (written_intersperse written_connective h)

/-- A conjunction is written out as look-aheads, and a filler. -/
theorem written_conjunction (h : ∀ r ∈ rs, Written .branch r) :
    Written .branch (conjunction rs) := by
  refine .concat ?_
  rw [List.forall_mem_append, List.forall_mem_map, List.forall_mem_singleton]
  exact ⟨fun r hr => .row (.ahead false (.one (.seq written_filler (h r hr)))), written_filler⟩

/-- A choice is written out as a group of its alternatives. -/
theorem written_disjunction (h : ∀ r ∈ rs, Written .branch r) :
    Written .branch (disjunction rs) := by
  rw [disjunction]
  split
  · exact written_unmatchable
  · exact .row (.group (.oneOf h))

/-- What is optional is written out as a group with a mark. -/
theorem written_optional (h : Written .branch r) : Written .branch (optional r) :=
  .loop true (.group (.one h)) (by decide)

/-- A negation is written out as a look-ahead, and a filler. -/
theorem written_negation (h : Written .branch r) : Written .branch (negation r) :=
  .seq (.row (.ahead true (.one (.seq written_filler h)))) written_filler

/-- A repetition is written out with its body twice. -/
theorem written_repeated (h : Written .branch r) : Written .branch (repeated r r) :=
  .seq h (.loop true (.group (.one (.seq written_connective h))) (by decide))

end

/-! ### Compiling -/

/-- Nothing in the expression sets a variable, is a text of its own or calls a macro. -/
def Static (e : Expr) : Prop :=
  ∀ n ∈ e.nodes, n.kind ≠ .raw ∧ n.kind ≠ .assignment ∧ n.kind ≠ .call

instance (e : Expr) : Decidable (Static e) :=
  inferInstanceAs (Decidable (∀ n ∈ e.nodes, _))

/-- The fragment can be written out and spans what the expression means. -/
structure Renders (vars : Bindings) (e : Expr) (r : Regex) : Prop where
  written : Written .branch r
  agree : ∀ s : Subject, Agree s.size (Spans s r) (Means s vars e)

section

variable {vars : Bindings} {es : List Expr} {rs : List Regex}

/-- Fragments that render expressions can be written out. -/
theorem written_of_renders (h : List.Forall₂ (Renders vars) es rs) :
    ∀ r ∈ rs, Written .branch r := by
  induction h with
  | nil => simp
  | cons h _ ih => exact List.forall_mem_cons.mpr ⟨h.written, ih⟩

/-- Item by item, the fragments span the meanings. -/
theorem fragments_of_renders (h : List.Forall₂ (Renders vars) es rs) (s : Subject) :
    Fragments s rs (meanings s vars es) := by
  induction h with
  | nil => exact .nil
  | cons h _ ih => exact .cons (h.agree s) ih

end

variable (macros : Macro.Registry) (u : Utterance)

/-- The state of the compiler is handed on. -/
theorem bind_run {α β : Type} {x : Compile α} {a : α} {st st' : Compiling} (f : α → Compile β)
    (h : x st = (a, st')) : (x >>= f) st = f a st' := by
  show f (x st).1 (x st).2 = f a st'
  rw [h]

/-- What is asked for is the state that is there. -/
theorem get_bind_run {β : Type} (f : Compiling → Compile β) (st : Compiling) :
    ((get : Compile Compiling) >>= f) st = f st st := rfl

/-- A literal compiles to its words. -/
theorem renders_literal (vars : Bindings) (text : String) :
    Renders vars (.literal text) (literal text) :=
  ⟨written_literal text, fun _ => agree_literal text⟩

/-- A reference to a bound variable compiles to the words of its value, and one to an unbound
variable to what never matches. -/
theorem renders_reference (vars : Bindings) (name : String) {st : Compiling}
    (hvars : st.vars = vars) (hlatest : st.latest = []) :
    Renders vars (.reference name) (ofReference name st) := by
  rw [ofReference, hlatest, hvars, List.lookup_nil]
  cases hget : vars.get? name with
  | none =>
    refine ⟨written_unmatchable, fun s i _ j => ?_⟩
    simp [Means, hget, not_spans_unmatchable]
  | some value =>
    refine ⟨written_literal value, fun s i hi j => ?_⟩
    rw [agree_literal value i hi j, Means]
    simp [hget]

/-- The second copy of a fragment is the first one over again, and no assignment was completed. -/
theorem ofRepeated_eq {r : Regex} (h : Written .branch r) (st : Compiling) :
    ofRepeated st.groups.length r st = (repeated r r, st) := by
  have hagain : again r st = (r, st) := by
    have hown : r.ownGroups = 0 := by rw [ownGroups, h.labels_eq_nil]; rfl
    rw [again, hown, h.shiftOwn_eq_self]
    rfl
  rw [ofRepeated, get_bind_run, if_pos rfl, bind_run _ hagain]
  rfl

section

variable {macros u} {e body : Expr} {items : List Expr} {st : Compiling}

/-- An expression made from what several others compile to. -/
theorem renders_of_items [Engine] {f : List Regex → Regex}
    (hitems : ∃ rs, fragments macros u items st = (rs, st) ∧
      List.Forall₂ (Renders st.vars) items rs)
    (hrun : fragment macros u e = fragments macros u items >>= fun rs => pure (f rs))
    (hwritten : ∀ rs, (∀ r ∈ rs, Written .branch r) → Written .branch (f rs))
    (hagree : ∀ (s : Subject) rs, Fragments s rs (meanings s st.vars items) →
      Agree s.size (Spans s (f rs)) (Means s st.vars e)) :
    ∃ r, fragment macros u e st = (r, st) ∧ Renders st.vars e r := by
  obtain ⟨rs, hrs, hrenders⟩ := hitems
  refine ⟨f rs, ?_, hwritten rs (written_of_renders hrenders),
    fun s => hagree s rs (fragments_of_renders hrenders s)⟩
  -- The items leave the state as it was, so nothing of it gets into the fragment.
  rw [hrun, bind_run _ hrs]
  rfl

/-- An expression made from what another one compiles to. -/
theorem renders_of_body [Engine] {f : Regex → Regex}
    (hbody : ∃ r, fragment macros u body st = (r, st) ∧ Renders st.vars body r)
    (hrun : ∀ r, fragment macros u body st = (r, st) → Written .branch r →
      fragment macros u e st = (f r, st))
    (hwritten : ∀ r, Written .branch r → Written .branch (f r))
    (hagree : ∀ (s : Subject) r, Agree s.size (Spans s r) (Means s st.vars body) →
      Agree s.size (Spans s (f r)) (Means s st.vars e)) :
    ∃ r, fragment macros u e st = (r, st) ∧ Renders st.vars e r := by
  obtain ⟨r, hr, hrenders⟩ := hbody
  exact ⟨f r, hrun r hr hrenders.written, hwritten r hrenders.written,
    fun s => hagree s r (hrenders.agree s)⟩

end

mutual

/-- Compiling a static expression changes nothing and gives a fragment that spans its meaning. -/
theorem fragment_eq [Engine] (e : Expr) (h : Static e) (st : Compiling) (hlatest : st.latest = []) :
    ∃ r, fragment macros u e st = (r, st) ∧ Renders st.vars e r := by
  match e with
  | .literal text => exact ⟨_, rfl, renders_literal _ text⟩
  | .reference name => exact ⟨_, rfl, renders_reference _ name rfl hlatest⟩
  | .flexible items =>
    exact renders_of_items (fragments_eq items (fun n hn => h n (.tail _ hn)) st hlatest)
      (by rw [fragment]) (fun _ => written_flexible) fun _ _ => agree_flexible
  | .rigid items =>
    exact renders_of_items (fragments_eq items (fun n hn => h n (.tail _ hn)) st hlatest)
      (by rw [fragment]) (fun _ => written_rigid) fun _ _ => agree_rigid
  | .conjunction items =>
    exact renders_of_items (fragments_eq items (fun n hn => h n (.tail _ hn)) st hlatest)
      (by rw [fragment]) (fun _ => written_conjunction) fun _ _ => agree_conjunction
  | .disjunction items =>
    exact renders_of_items (fragments_eq items (fun n hn => h n (.tail _ hn)) st hlatest)
      (by rw [fragment]) (fun _ => written_disjunction) fun _ _ => agree_disjunction
  | .optional body =>
    refine renders_of_body (fragment_eq body (fun n hn => h n (.tail _ hn)) st hlatest)
      (fun r hr _ => ?_) (fun _ => written_optional) fun _ _ => agree_optional
    rw [fragment, bind_run _ hr]
    rfl
  | .star body =>
    refine renders_of_body (f := fun r => optional (repeated r r))
      (fragment_eq body (fun n hn => h n (.tail _ hn)) st hlatest) (fun r hr hwritten => ?_)
      (fun _ hr => written_optional (written_repeated hr))
      fun _ _ hr => agree_optional (agree_repeated hr)
    rw [fragment, get_bind_run, bind_run _ hr, bind_run _ (ofRepeated_eq hwritten st)]
    rfl
  | .plus body =>
    refine renders_of_body (f := fun r => .group (repeated r r))
      (fragment_eq body (fun n hn => h n (.tail _ hn)) st hlatest) (fun r hr hwritten => ?_)
      (fun _ hr => .row (.group (.one (written_repeated hr)))) fun _ _ hr => agree_repeated hr
    rw [fragment, get_bind_run, bind_run _ hr, bind_run _ (ofRepeated_eq hwritten st)]
    rfl
  | .negation body =>
    refine renders_of_body (fragment_eq body (fun n hn => h n (.tail _ hn)) st hlatest)
      (fun r hr _ => ?_) (fun _ => written_negation) fun _ _ => agree_negation
    rw [fragment, bind_run _ hr]
    rfl
  -- The rest is not static.
  | .raw _ => exact absurd rfl (h _ (.head _)).1
  | .assignment .. => exact absurd rfl (h _ (.head _)).2.1
  | .call .. => exact absurd rfl (h _ (.head _)).2.2

/-- Item by item, what expressions compile to renders them, and the state stays. -/
theorem fragments_eq [Engine] (es : List Expr)
    (h : ∀ n ∈ Expr.nodesOf es, n.kind ≠ .raw ∧ n.kind ≠ .assignment ∧ n.kind ≠ .call)
    (st : Compiling) (hlatest : st.latest = []) :
    ∃ rs, fragments macros u es st = (rs, st) ∧ List.Forall₂ (Renders st.vars) es rs := by
  match es with
  | [] => exact ⟨[], rfl, .nil⟩
  | e :: es =>
    rw [Expr.nodesOf, List.forall_mem_append] at h
    obtain ⟨r, hrun, hr⟩ := fragment_eq e h.1 st hlatest
    obtain ⟨rs, hruns, hrs⟩ := fragments_eq es h.2 st hlatest
    refine ⟨r :: rs, ?_, .cons hr hrs⟩
    rw [fragments, bind_run _ hrun, bind_run _ hruns]
    rfl

end

/-! ### Whole patterns -/

/-- The expression relates two positions of the subject, with nothing but gaps before the first, and
between the second and the mark at the end. -/
def Accepts (s : Subject) (vars : Bindings) (e : Expr) : Prop :=
  ∃ i j, Gap s 0 i ∧ Means s vars e i j ∧ Gap s j (s.size - endMark.length)

/-- A whole pattern is written out with the mark at its end. -/
theorem written_anchored {r : Regex} (h : Written .branch r) : Written .branch (anchored r) := by
  refine .concat ?_
  simp only [List.forall_mem_cons, List.not_mem_nil, false_implies, implies_true, and_true]
  exact ⟨.row (.anchor .start), written_connective, .row (.group (.one h)), written_connective,
    written_chars _, .row (.anchor .stop)⟩

/-- Up to case, a character is itself. -/
theorem sameFold_self (c : Char) : Text.sameFold c c = true := by
  simp [Text.sameFold]

/-- Whatever has been said, the mark stands at the end. -/
theorem exists_subject_eq (u : Utterance) : ∃ cs, (subject u).toList = cs ++ endMark := by
  rw [subject]
  split
  · exact ⟨[], rfl⟩
  · exact ⟨u.text.toList ++ [' '], by simp⟩

/-- The mark is found at the end of a subject. -/
theorem spells_endMark (u : Utterance) {k : Nat} (hk : k ≤ (subject u).size) :
    Spells (subject u) endMark k (subject u).size ↔ k = (subject u).size - endMark.length := by
  obtain ⟨cs, hcs⟩ := exists_subject_eq u
  have hsize : (subject u).size = cs.length + endMark.length := by
    rw [← Array.length_toList, hcs, List.length_append]
  constructor
  · rintro ⟨_, _, hspelled⟩
    have hlength := hspelled.length_eq
    -- The mark is as long as itself, so it is found in one place only.
    rw [length_slice le_rfl] at hlength
    omega
  · rintro rfl
    have hslice : slice (subject u) ((subject u).size - endMark.length) (subject u).size =
        endMark := by
      rw [slice, Array.toList_extract, List.extract_eq_take_drop, hcs, hsize, Nat.add_sub_cancel,
        List.drop_left, Nat.add_sub_cancel_left, List.take_length]
    refine ⟨Nat.sub_le _ _, le_rfl, ?_⟩
    rw [hslice, List.forall₂_same]
    exact fun c _ => sameFold_self c

/-- A whole pattern matches if its root does up to the mark, with nothing but gaps around it. -/
theorem spans_anchored {r : Regex} {R : Nat → Nat → Prop} (u : Utterance)
    (h : Agree (subject u).size (Spans (subject u) r) R) :
    (∃ k, Spans (subject u) (anchored r) 0 k) ↔
      ∃ i j, Gap (subject u) 0 i ∧ R i j ∧
        Gap (subject u) j ((subject u).size - endMark.length) := by
  -- The parts between the two anchors, taken together.
  have hparts : Agree (subject u).size
      (Comp (Spans (subject u) connective) (Comp (Spans (subject u) r)
        (Comp (Spans (subject u) connective) (Spans (subject u) (chars endMark)))))
      (Comp (Gap (subject u)) (Comp R (Comp (Gap (subject u)) (Spells (subject u) endMark)))) :=
    agree_comp agree_connective (advances_spans _) (agree_comp h (advances_spans _)
      (agree_comp agree_connective (advances_spans _) (agree_chars endMark)))
  have hanchored : (∃ k, Spans (subject u) (anchored r) 0 k) ↔
      Comp (Spans (subject u) connective) (Comp (Spans (subject u) r)
        (Comp (Spans (subject u) connective) (Spans (subject u) (chars endMark)))) 0
        (subject u).size := by
    constructor
    · rintro ⟨k, _, ⟨_, rfl⟩, i, hi, j, hj, l, hl, m, hm, _, ⟨hstop, rfl⟩, rfl⟩
      obtain rfl : m = (subject u).size := by simpa [Anchor.holds] using hstop
      exact ⟨i, hi, j, hj, l, hl, hm⟩
    · rintro ⟨i, hi, j, hj, l, hl, hm⟩
      exact ⟨_, 0, ⟨rfl, rfl⟩, i, hi, j, hj, l, hl, _, hm, _, ⟨by simp [Anchor.holds], rfl⟩, rfl⟩
  rw [hanchored, hparts 0 (Nat.zero_le _)]
  constructor
  · rintro ⟨i, hi, j, hj, k, hk, hmark⟩
    rw [spells_endMark u hmark.1] at hmark
    exact ⟨i, j, hi, hj, hmark ▸ hk⟩
  · rintro ⟨i, j, hi, hj, hk⟩
    exact ⟨i, hi, j, hj, _, hk, (spells_endMark u hk.2.1).mpr rfl⟩

/-- A pattern without groups leaves the bindings as compiling left them. -/
theorem run_eq_some_iff [Engine] {p : Pattern} (hlabels : p.regex.labels = [])
    (hgroups : p.groups = []) (u : Utterance) (limit : Nat) (after : Bindings) :
    p.run u limit = some after ↔
      p.regex.builds = true ∧
        (p.regex.find? (subject u) (Engine.allowance p.regex (subject u) limit)).isSome = true ∧
        after = p.vars := by
  -- Without groups there is nothing for a name to refer to, and nothing to bind.
  have hresolve : p.regex.resolve [] = p.regex := by
    refine resolve_eq_self (fun _ hl => absurd hl List.not_mem_nil) ?_
    rw [hlabels]
    exact fun _ hl => absurd hl List.not_mem_nil
  have hbind : ∀ last, p.bind (subject u) last = p.vars := fun last => by
    rw [Pattern.bind, hgroups]
    rfl
  rw [Pattern.run, hresolve]
  split
  · rename_i hbuilds
    cases p.regex.find? (subject u) (Engine.allowance p.regex (subject u) limit) with
    | none => simp
    | some last => simp [hbuilds, hbind, eq_comm]
  · rename_i hbuilds
    simp [hbuilds]

/-- What compiling makes of an expression without assignments, macros and raw patterns: nothing is
bound and no group is opened; the fragment between the anchors spans what the expression means; the
text of the pattern is read as a like expression, unless it cannot be built.  A search runs out of
its budget below its cost only.  The utterance matches, and leaves the bindings as they were, when
the pattern can be built, the engine does not give up and the expression accepts the subject. -/
theorem run_iff [Engine] {e : Expr} (h : Static e) (macros : Macro.Registry) (u : Utterance)
    (vars : Bindings) :
    ∃ root, compile macros u e vars = ⟨anchored root, [], vars⟩ ∧
      (∀ s : Subject, Agree s.size (Spans s root) (Means s vars e)) ∧
      (∃ r, Alike r (anchored root) ∧ Regex.read? (compile macros u e vars).render =
        if (anchored root).buildable then some r else none) ∧
      (∃ cost, ∀ budget, Exhausts (anchored root) (subject u) budget ↔ budget < cost) ∧
      ∀ limit after, run macros u e vars limit = some after ↔
        (anchored root).builds = true ∧ ¬GivesUp (anchored root) (subject u) limit ∧
          Accepts (subject u) vars e ∧ after = vars := by
  obtain ⟨root, hrun, hroot⟩ := fragment_eq macros u e h ⟨vars, [], [], 0⟩ rfl
  have hp : compile macros u e vars = ⟨anchored root, [], vars⟩ := by
    rw [compile, hrun]
  have hwritten := written_anchored hroot.written
  obtain ⟨cost, hcost⟩ :=
    exists_cost hwritten.commits_eq_false hwritten.references_eq_nil (subject u)
  refine ⟨root, hp, hroot.agree, ?_, ⟨cost, fun budget => (hcost budget).1⟩, fun limit after => ?_⟩
  · rw [hp]
    exact read_print hwritten
  · have hfound := (hcost (Engine.allowance (anchored root) (subject u) limit)).2
    -- Where the engine does not give up, it finds what there is.
    rw [spans_anchored u (hroot.agree (subject u)), ← Nat.not_lt,
      ← (hcost (Engine.allowance (anchored root) (subject u) limit)).1] at hfound
    rw [run, hp, run_eq_some_iff hwritten.labels_eq_nil rfl, hfound, and_assoc]
    rfl

/-- A greeting of someone called by their name, without a grudge. -/
def greeting : Expr :=
  .rigid [.disjunction [.literal "hi", .literal "good day"], .plus (.reference "name"),
    .negation (.literal "bad")]

/-- The name that is known. -/
def known : Bindings :=
  SortedMap.empty.insert "name" "Bob"

/-- A greeting is accepted, whatever the case and the punctuation; with a grudge it is not. -/
theorem run_iff_greeting :
    Accepts (subject (Utterance.scan "Good  day, bob, BOB! How are you?" 4)) known greeting ∧
      ¬Accepts (subject (Utterance.scan "hi Bob, that was bad" 4)) known greeting := by
  have hstatic : Static greeting := by decide
  constructor
  · obtain ⟨root, _, _, _, _, h⟩ := run_iff hstatic SortedMap.empty
      (Utterance.scan "Good  day, bob, BOB! How are you?" 4) known
    exact ((h 1000 known).mp (by decide +kernel)).2.2.1
  · let u := Utterance.scan "hi Bob, that was bad" 4
    let p := compile SortedMap.empty u greeting known
    obtain ⟨root, hcompiled, _, _, _, h⟩ := run_iff hstatic SortedMap.empty u known
    have hregex : p.regex = anchored root := congrArg Pattern.regex hcompiled
    have hbuilds : p.regex.builds = true := by decide +kernel
    have hlasts : ¬GivesUp p.regex (subject u) 1000 := by
      rw [GivesUp, Exhausts]
      decide +kernel
    have hmissed : run SortedMap.empty u greeting known 1000 = none := by decide +kernel
    intro haccepts
    have hfound := (h 1000 known).mpr ⟨hregex ▸ hbuilds, hregex ▸ hlasts, haccepts, rfl⟩
    rw [hmissed] at hfound
    cases hfound

end Colloquy.Matching
