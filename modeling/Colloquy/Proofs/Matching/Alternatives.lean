import Mathlib
import Colloquy.Proofs.Expr.Kinds
import Colloquy.Proofs.Matching.Bound
import Colloquy.Proofs.Matching.Composed

/-!
# What a disjunction matches

The alternatives of a disjunction are compiled one after the other.  Once a variable has been
assigned, it stays so for the alternatives behind: there a reference to it means the group of the
assignment, which takes no part in their matches, and no longer the value that the variable is bound
to.  So an alternative matches in its place as it would alone without the variables assigned in
front of it, and the disjunction matches when one of them does (`disjunction_iff`).

Compiling the alternative in its place and compiling it alone go on side by side (`Beside`), and
give twins (`alongside_fragment`).
-/

namespace Colloquy.Matching

open Regex

/-! ### Bindings without variables -/

/-- The bindings without some variables. -/
def without (names : List String) (vars : Bindings) : Bindings :=
  names.foldl SortedMap.erase vars

theorem get?_without (names : List String) (vars : Bindings) (name : String) :
    (without names vars).get? name = if name ∈ names then none else vars.get? name := by
  induction names generalizing vars with
  | nil => rfl
  | cons other names ih =>
    rw [without, List.foldl_cons]
    refine (ih (vars.erase other)).trans ?_
    rw [SortedMap.get?_erase]
    simp only [List.mem_cons]
    split_ifs <;> simp_all

/-- Expressions in a row, each with the bindings without the variables that those in front of it
assign. -/
def inTurn (vars : Bindings) : List Expr → List (Expr × Bindings)
  | [] => []
  | e :: es => (e, vars) :: inTurn (without (assigned e) vars) es

/-- No part of the expression is a raw pattern or calls a macro. -/
def Transparent (e : Expr) : Prop :=
  ∀ n ∈ e.nodes, n.kind ≠ .raw ∧ n.kind ≠ .call

instance (e : Expr) : Decidable (Transparent e) :=
  inferInstanceAs (Decidable (∀ n ∈ e.nodes, _))

theorem Transparent.callless {e : Expr} (h : Transparent e) : Callless e :=
  fun n hn => (h n hn).2

theorem Transparent.rawless {e : Expr} (h : Transparent e) : ∀ n ∈ e.nodes, n.kind ≠ .raw :=
  fun n hn => (h n hn).1

/-- A disjunction is as transparent as its alternatives. -/
theorem transparent_disjunction {es : List Expr} (h : ∀ e ∈ es, Transparent e) :
    Transparent (.disjunction es) := by
  refine List.forall_mem_cons.mpr ⟨⟨nofun, nofun⟩, fun n hn => ?_⟩
  rw [Expr.nodesOf_eq_flatMap] at hn
  obtain ⟨e, he, hn⟩ := List.mem_flatMap.mp hn
  exact h e he n hn

theorem mem_of_mem_inTurn {es : List Expr} {vars : Bindings} {p : Expr × Bindings}
    (h : p ∈ inTurn vars es) : p.1 ∈ es := by
  induction es generalizing vars with
  | nil => cases h
  | cons e es ih =>
    rcases List.mem_cons.mp h with rfl | h
    · exact List.mem_cons_self
    · exact List.mem_cons_of_mem _ (ih h)

/-! ### Compiling side by side -/

/-- Compiling goes on behind the assignments of `names` on the one side, and alone on the other,
where these variables are not bound. -/
structure Beside (names : List String) (st st' : Compiling) : Prop where
  latest : st.latest =
    (st'.latest.map fun e => (e.1, e.2 + names.length)) ++ names.zipIdx.reverse
  length_groups : st.groups.length = st'.groups.length + names.length
  vars : ∀ name, st'.vars.get? name = if name ∈ names then none else st.vars.get? name

/-- Both sides go on side by side, with related results. -/
def Alongside (names : List String) {α : Type} (T : α → α → Prop) (x x' : Compile α) : Prop :=
  ∀ st st', Beside names st st' → T (x st).1 (x' st').1 ∧ Beside names (x st).2 (x' st').2

section

variable {names : List String} {α β : Type} {T : α → α → Prop} {U : β → β → Prop}

theorem alongside_pure {a a' : α} (h : T a a') : Alongside names T (pure a) (pure a') :=
  fun _ _ hbeside => ⟨h, hbeside⟩

theorem Alongside.bind {x x' : Compile α} {f f' : α → Compile β} (hx : Alongside names T x x')
    (hf : ∀ a a', T a a' → Alongside names U (f a) (f' a')) :
    Alongside names U (x >>= f) (x' >>= f') := by
  intro st st' hbeside
  obtain ⟨ha, hbeside⟩ := hx st st' hbeside
  exact hf _ _ ha _ _ hbeside

variable {r r' : Regex}

theorem alongside_again (h : Twin names.length r r') :
    Alongside names (Twin names.length) (again r) (again r') := by
  intro st st' hbeside
  refine ⟨?_, hbeside.latest, hbeside.length_groups, hbeside.vars⟩
  show Twin names.length (r.shiftOwn _) (r'.shiftOwn _)
  rw [(h.shiftOwn_eq_self _).1, (h.shiftOwn_eq_self _).2]
  exact h

theorem alongside_ofRepeated {before before' : Nat} (hbefore : before = before' + names.length)
    (h : Twin names.length r r') :
    Alongside names (Twin names.length) (ofRepeated before r) (ofRepeated before' r') := by
  intro st st' hbeside
  -- Both sides decide alike whether there are groups inside.
  have hiff : st.groups.length = before ↔ st'.groups.length = before' := by
    rw [hbeside.length_groups, hbefore, Nat.add_right_cancel_iff]
  rw [ofRepeated, ofRepeated, get_bind_run, get_bind_run]
  by_cases hnone : st'.groups.length = before'
  · rw [if_pos (hiff.mpr hnone), if_pos hnone]
    exact (alongside_again h).bind (fun _ _ hagain => alongside_pure (twin_repeated h hagain))
      st st' hbeside
  · rw [if_neg (mt hiff.mp hnone), if_neg hnone]
    exact ⟨twin_repeatedCapturing h, hbeside⟩

theorem alongside_ofAssignment (name : String) (h : Twin names.length r r') :
    Alongside names (Twin names.length) (ofAssignment name r) (ofAssignment name r') := by
  intro st st' hbeside
  have hrun (r : Regex) (st : Compiling) : ofAssignment name r st =
      (.capture (.assigned st.groups.length) r,
        { st with latest := (name, st.groups.length) :: st.latest, groups := st.groups ++ [name] }) :=
    rfl
  rw [hrun, hrun, hbeside.length_groups]
  refine ⟨.capture _ h, ?_, ?_, hbeside.vars⟩
  · rw [hbeside.latest]
    rfl
  · simp only [List.length_append, List.length_singleton, hbeside.length_groups]
    exact Nat.add_right_comm _ _ _

theorem lookup_map_shift (n : Nat) (name : String) (latest : List (String × Nat)) :
    (latest.map fun e => (e.1, e.2 + n)).lookup name = (latest.lookup name).map (· + n) := by
  induction latest with
  | nil => rfl
  | cons e latest ih =>
    rw [List.map_cons, List.lookup_cons, List.lookup_cons, ih]
    cases name == e.1 <;> rfl

/-- The latest group of a variable is one of the alternative itself, or else one of those in front,
where the variable is not bound alone. -/
theorem twin_ofReference (name : String) {st st' : Compiling} (h : Beside names st st') :
    Twin names.length (ofReference name st) (ofReference name st') := by
  rw [ofReference, ofReference, h.latest, List.lookup_append, lookup_map_shift, h.vars]
  cases st'.latest.lookup name with
  | some i => exact .live i
  | none =>
    rw [Option.map_none, Option.none_or]
    cases hfront : names.zipIdx.reverse.lookup name with
    | some j =>
      obtain ⟨before, behind, heq, -⟩ := List.lookup_eq_some_iff.mp hfront
      have hmem : (name, j) ∈ names.zipIdx := by
        rw [← List.mem_reverse, heq]
        exact List.mem_append_right _ List.mem_cons_self
      have hget := List.mem_zipIdx_iff_getElem?.mp hmem
      -- The group takes no part here, and alone there is neither a group nor a value.
      rw [if_pos (List.mem_of_getElem? hget)]
      exact .dead (List.getElem?_eq_some_iff.mp hget).1
    | none =>
      have hnot : name ∉ names := by
        intro hname
        obtain ⟨j, hj⟩ := List.mem_iff_getElem?.mp hname
        have hmem : (name, j) ∈ names.zipIdx.reverse :=
          List.mem_reverse.mpr (List.mem_zipIdx_iff_getElem?.mpr hj)
        exact absurd (List.lookup_eq_none_iff.mp hfront _ hmem) (by simp)
      rw [if_neg hnot]
      dsimp only
      cases st.vars.get? name with
      | some value => exact .same (written_literal value)
      | none => exact .same written_unmatchable

end

variable (macros : Macro.Registry) (u : Utterance) {names : List String}

mutual

/-- A fragment that is compiled behind others is a twin of the one that is compiled alone. -/
theorem alongside_fragment [Engine] (e : Expr) (h : Transparent e) :
    Alongside names (Twin names.length) (fragment macros u e) (fragment macros u e) := by
  match e with
  | .literal text => exact alongside_pure (.same (written_literal text))
  | .reference name => exact fun st st' hbeside => ⟨twin_ofReference name hbeside, hbeside⟩
  | .flexible items =>
    exact (alongside_fragments items fun n hn => h n (.tail _ hn)).bind fun _ _ hrs =>
      alongside_pure (twin_flexible hrs)
  | .rigid items =>
    exact (alongside_fragments items fun n hn => h n (.tail _ hn)).bind fun _ _ hrs =>
      alongside_pure (twin_rigid hrs)
  | .conjunction items =>
    exact (alongside_fragments items fun n hn => h n (.tail _ hn)).bind fun _ _ hrs =>
      alongside_pure (twin_conjunction hrs)
  | .disjunction items =>
    exact (alongside_fragments items fun n hn => h n (.tail _ hn)).bind fun _ _ hrs =>
      alongside_pure (twin_disjunction hrs)
  | .optional body =>
    exact (alongside_fragment body fun n hn => h n (.tail _ hn)).bind fun _ _ hr =>
      alongside_pure (twin_optional hr)
  -- Whether the body has assignments is counted, and the two states count the same.
  | .star body =>
    intro st st' hbeside
    exact (alongside_fragment body fun n hn => h n (.tail _ hn)).bind (fun _ _ hr =>
      (alongside_ofRepeated hbeside.length_groups hr).bind fun _ _ hr =>
        alongside_pure (twin_optional hr)) st st' hbeside
  | .plus body =>
    intro st st' hbeside
    exact (alongside_fragment body fun n hn => h n (.tail _ hn)).bind (fun _ _ hr =>
      (alongside_ofRepeated hbeside.length_groups hr).bind fun _ _ hr =>
        alongside_pure (Twin.group hr)) st st' hbeside
  | .negation body =>
    exact (alongside_fragment body fun n hn => h n (.tail _ hn)).bind fun _ _ hr =>
      alongside_pure (twin_negation hr)
  | .assignment name body =>
    exact (alongside_fragment body fun n hn => h n (.tail _ hn)).bind fun _ _ hr =>
      alongside_ofAssignment name hr
  | .raw _ => exact absurd rfl (h _ (.head _)).1
  | .call .. => exact absurd rfl (h _ (.head _)).2

theorem alongside_fragments [Engine] (es : List Expr)
    (h : ∀ n ∈ Expr.nodesOf es, n.kind ≠ .raw ∧ n.kind ≠ .call) :
    Alongside names (List.Forall₂ (Twin names.length)) (fragments macros u es)
      (fragments macros u es) := by
  match es with
  | [] => exact alongside_pure .nil
  | e :: es =>
    rw [Expr.nodesOf, List.forall_mem_append] at h
    exact (alongside_fragment e h.1).bind fun _ _ hr =>
      (alongside_fragments es h.2).bind fun _ _ hrs => alongside_pure (.cons hr hrs)

end

/-! ### Whole patterns -/

section

variable {s : Subject} {referenced : List Label} {v w : View}

theorem ways_oneOf {rs : List Regex} (hne : rs ≠ []) :
    Ways s referenced (oneOf rs) v w ↔ ∃ r ∈ rs, Ways s referenced r v w := by
  induction rs with
  | nil => exact absurd rfl hne
  | cons r rs ih =>
    cases rs with
    | nil => simp [oneOf]
    | cons r' rs =>
      rw [List.exists_mem_cons_iff, ← ih (List.cons_ne_nil _ _)]
      rfl

theorem ways_anchored_disjunction {rs : List Regex} (hne : rs ≠ []) :
    (∃ w, Ways s referenced (anchored (disjunction rs)) v w) ↔
      ∃ r ∈ rs, ∃ w, Ways s referenced (anchored r) v w := by
  have hways {v w : View} : Ways s referenced (disjunction rs) v w ↔
      ∃ r ∈ rs, Ways s referenced r v w := by
    rw [disjunction, if_neg (by simpa using hne), ← ways_oneOf hne]
    rfl
  constructor
  · rintro ⟨w, a, ha, b, hb, c, hc, hrest⟩
    obtain ⟨r, hr, hc⟩ := hways.mp hc
    exact ⟨r, hr, w, a, ha, b, hb, c, hc, hrest⟩
  · rintro ⟨r, hr, w, a, ha, b, hb, c, hc, hrest⟩
    exact ⟨w, a, ha, b, hb, c, hways.mpr ⟨r, hr, hc⟩, hrest⟩

/-- Twins match alike from the start. -/
theorem Twin.exists_ways_iff {n : Nat} {r r' : Regex} (h : Twin n r r')
    (hreferences : r.references ⊆ referenced) :
    (∃ w, Ways s referenced r .start w) ↔ ∃ w, Ways s r'.references r' .start w := by
  have hmirrors : Mirrors (Matched n r'.references) (Ways s referenced r) (Ways s r'.references r') :=
    h.mirrors (List.Subset.refl _) fun i hi => hreferences (h.mem_references hi)
  have hstart := matched_start n r'.references
  constructor
  · rintro ⟨w, hw⟩
    obtain ⟨w', hw', -⟩ := hmirrors.there _ _ w hstart hw
    exact ⟨w', hw'⟩
  · rintro ⟨w', hw'⟩
    obtain ⟨w, hw, -⟩ := hmirrors.back _ _ w' hstart hw'
    exact ⟨w, hw⟩

end

variable {macros u}

/-- What stands behind an expression stands behind its assignments as well. -/
theorem Beside.next [Engine] [Engine.Lawful] {vars : Bindings} {st : Compiling}
    (h : Beside names st ⟨vars, [], [], 0⟩)
    {e : Expr} (he : Callless e) :
    Beside (names ++ assigned e) (fragment macros u e st).2
      ⟨without (assigned e) vars, [], [], 0⟩ := by
  have hopens := opening_fragment macros u e he st
  have hlength : st.groups.length = names.length := by simpa using h.length_groups
  have hlatest : st.latest = names.zipIdx.reverse := h.latest
  refine ⟨?_, ?_, fun name => ?_⟩
  · rw [hopens.latest, hlength, hlatest, List.zipIdx_append, List.reverse_append, Nat.zero_add]
    rfl
  · rw [hopens.groups, List.length_append, hlength, List.length_append]
    exact (Nat.zero_add _).symm
  · rw [hopens.vars, get?_without, h.vars]
    by_cases hlater : name ∈ assigned e <;> by_cases hfront : name ∈ names <;>
      simp [hlater, hfront]

/-- The alternatives match in their places as they do in turn. -/
theorem exists_ways_fragments [Engine] [Engine.Lawful] {es : List Expr}
    (hes : ∀ e ∈ es, Transparent e)
    {referenced : List Label} {names : List String} {vars : Bindings} {st : Compiling}
    (h : Beside names st ⟨vars, [], [], 0⟩)
    (hreferences : ∀ r ∈ (fragments macros u es st).1, r.references ⊆ referenced) :
    (∃ r ∈ (fragments macros u es st).1, ∃ w,
      Ways (subject u) referenced (anchored r) .start w) ↔
      ∃ p ∈ inTurn vars es, ∃ w, Ways (subject u) (compile macros u p.1 p.2).regex.references
        (compile macros u p.1 p.2).regex .start w := by
  induction es generalizing names vars st with
  | nil => exact ⟨fun ⟨_, hr, _⟩ => absurd hr List.not_mem_nil, fun ⟨_, hp, _⟩ => nomatch hp⟩
  | cons e es ih =>
    rw [List.forall_mem_cons] at hes
    have hrun : (fragments macros u (e :: es) st).1 =
        (fragment macros u e st).1 :: (fragments macros u es (fragment macros u e st).2).1 := rfl
    rw [hrun, List.forall_mem_cons] at hreferences
    -- The first alternative is followed on its twin; the others stand behind it.
    have htwin := twin_anchored (alongside_fragment macros u e hes.1 _ _ h).1
    rw [hrun, inTurn, List.exists_mem_cons_iff, List.exists_mem_cons_iff,
      ih hes.2 (h.next hes.1.callless) hreferences.2,
      htwin.exists_ways_iff (by rw [gathers_references.anchored]; exact hreferences.1)]
    rfl

/-- A disjunction matches an utterance when one of its alternatives does in turn, that is, on its
own under the bindings without the variables that the alternatives in front of it assign. -/
theorem disjunction_iff [Engine] [Engine.Lawful] {es : List Expr} (hne : es ≠ [])
    (hes : ∀ e ∈ es, Transparent e) {vars : Bindings} {budget : Nat}
    (hwhole : Completes (compile macros u (.disjunction es) vars) u budget)
    (heach : ∀ p ∈ inTurn vars es, Completes (compile macros u p.1 p.2) u budget) :
    (run macros u (.disjunction es) vars budget).isSome = true ↔
      ∃ p ∈ inTurn vars es, (run macros u p.1 p.2 budget).isSome = true := by
  let rs := (fragments macros u es ⟨vars, [], [], 0⟩).1
  have hregex : (compile macros u (.disjunction es) vars).regex = anchored (disjunction rs) := rfl
  have hrs : rs ≠ [] := by
    cases es with
    | nil => exact absurd rfl hne
    | cons e es => exact List.cons_ne_nil _ _
  have hbeside : Beside [] ⟨vars, [], [], 0⟩ ⟨vars, [], [], 0⟩ := ⟨rfl, rfl, fun _ => rfl⟩
  -- The choice leads on if one of the fragments does, each compiled where the one before it has
  -- left off.
  rw [isSome_run_iff (transparent_disjunction hes).rawless hwhole, hregex,
    ways_anchored_disjunction hrs, exists_ways_fragments hes hbeside fun r hr => ?_]
  · refine exists_congr fun p => and_congr_right fun hp => Iff.symm ?_
    exact isSome_run_iff (hes _ (mem_of_mem_inTurn hp)).rawless (heach p hp)
  · rw [gathers_references.anchored, gathers_references.disjunction]
    exact fun l hl => List.mem_flatMap.mpr ⟨r, hr, hl⟩

/-- A letter said twice, or the value of `x`, or another letter. -/
def letters : List Expr :=
  [.rigid [.assignment "x" (.disjunction [.literal "a", .literal "b"]), .literal "and",
    .reference "x"], .reference "x", .literal "d"]

/-- The value of `x` is a letter of its own. -/
def lettered : Bindings :=
  SortedMap.ofList [("x", "c")]

/-- Saying a letter twice is an alternative that matches in its turn. -/
theorem disjunction_iff_letters :
    letters ≠ [] ∧ (∀ e ∈ letters, Transparent e) ∧
      ∃ p ∈ inTurn lettered letters,
        (run SortedMap.empty (Utterance.scan "B, and b!" 4) p.1 p.2 1000).isSome = true := by
  have hne : letters ≠ [] := List.cons_ne_nil _ _
  have htransparent : ∀ e ∈ letters, Transparent e := by decide
  exact ⟨hne, htransparent, (disjunction_iff hne htransparent (by decide +kernel)
    (by decide +kernel)).mp (by decide +kernel)⟩

/-- The value of a variable is not found behind an assignment to it: the reference matches alone,
but not in the disjunction. -/
theorem disjunction_shadows :
    let es : List Expr := [.assignment "x" (.literal "a"), .reference "x"]
    let u := Utterance.scan "c" 4
    (∀ e ∈ es, Transparent e) ∧
      Completes (compile SortedMap.empty u (.disjunction es) lettered) u 1000 ∧
      (∀ e ∈ es, Completes (compile SortedMap.empty u e lettered) u 1000) ∧
      ¬((run SortedMap.empty u (.disjunction es) lettered 1000).isSome = true ↔
        ∃ e ∈ es, (run SortedMap.empty u e lettered 1000).isSome = true) := by
  decide +kernel

end Colloquy.Matching
