import Mathlib
import Colloquy.Proofs.Expr.Spelled
import Colloquy.Proofs.Matching.Bound
import Colloquy.Proofs.Matching.Composed
import Colloquy.Proofs.Regex.Marks

/-!
# Groups of compiled patterns

The text of a compiled pattern defines one group for each assignment of the expression, numbered in
the order in which the assignments complete, and refers to groups only once they have closed
(`grouped_compile`).  The other parts of the text, whatever the literals, the values of variables
and the macros hold, define no groups (`Twin.scans`).

`Numbered` says how the marks of a fragment go with the brackets of its expression, from the groups
that were complete before it to those that are complete after it.  A fragment that is written twice
holds no groups, so it may refer to groups in front of it only.
-/

namespace Colloquy.Matching

open Regex

/-! ### Assignments as brackets -/

mutual

/-- Where the assignments of the expression begin and where they complete, with their variables. -/
def brackets : Expr → List (Mark String)
  | .flexible items | .rigid items | .conjunction items | .disjunction items => bracketsOf items
  | .optional body | .star body | .plus body | .negation body => brackets body
  | .assignment name value => .opening name :: brackets value ++ [.closing name]
  | .literal _ | .raw _ | .reference _ | .call .. => []

/-- Where the assignments of several expressions begin and complete. -/
def bracketsOf : List Expr → List (Mark String)
  | [] => []
  | e :: es => brackets e ++ bracketsOf es

end

mutual

/-- Assignments complete in the order in which the variables are listed. -/
theorem closings_brackets (e : Expr) : closings (brackets e) = assigned e := by
  match e with
  | .literal _ | .raw _ | .reference _ | .call .. => rfl
  | .flexible items | .rigid items | .conjunction items | .disjunction items =>
    exact closings_bracketsOf items
  | .optional body | .star body | .plus body | .negation body => exact closings_brackets body
  | .assignment name value =>
    rw [brackets, assigned, closings_group, closings_brackets value]

/-- The same for several expressions. -/
theorem closings_bracketsOf (es : List Expr) : closings (bracketsOf es) = assignedBy es := by
  match es with
  | [] => rfl
  | e :: es =>
    rw [bracketsOf, assignedBy, closings_append, closings_brackets e, closings_bracketsOf es]

end

/-! ### Marks with numbers -/

/-- Among the marks, groups are numbered on from those of `groups` as they close, and each closes
for an assignment of the brackets; `groups'` are the groups in the end.  What is referred to has
closed. -/
inductive Numbered : List String → List (Mark Nat) → List (Mark String) → List String → Prop
  | nil {groups : List String} : Numbered groups [] [] groups
  | append {groups groups' groups'' : List String} {ms ms' : List (Mark Nat)}
      {bs bs' : List (Mark String)} (first : Numbered groups ms bs groups')
      (second : Numbered groups' ms' bs' groups'') :
      Numbered groups (ms ++ ms') (bs ++ bs') groups''
  | reference {groups : List String} {i : Nat} (closed : i < groups.length) :
      Numbered groups [.reference i] [] groups
  | group {groups groups' : List String} {ms : List (Mark Nat)} {bs : List (Mark String)}
      (name : String) (inside : Numbered groups ms bs groups') :
      Numbered groups (.opening groups'.length :: ms ++ [.closing groups'.length])
        (.opening name :: bs ++ [.closing name]) (groups' ++ [name])

namespace Numbered

variable {groups groups' : List String} {ms : List (Mark Nat)} {bs : List (Mark String)}

/-- The groups are those before and those that have closed. -/
theorem groups_eq (h : Numbered groups ms bs groups') : groups' = groups ++ closings bs := by
  induction h with
  | nil | reference => exact (List.append_nil _).symm
  | append _ _ ih ih' => rw [closings_append, ← List.append_assoc, ← ih, ih']
  | group name _ ih => rw [closings_group, ← List.append_assoc, ← ih]

/-- Groups are numbered in the order in which they close. -/
theorem closings_eq (h : Numbered groups ms bs groups') :
    closings ms = List.range' groups.length (closings bs).length := by
  induction h with
  | nil | reference => rfl
  | append first _ ih ih' =>
    rw [closings_append, closings_append, List.length_append, ih, ih', first.groups_eq,
      List.length_append, ← List.range'_append_1]
  | group name inside ih =>
    rw [closings_group, closings_group, List.length_append, ih, inside.groups_eq, List.length_append,
      ← List.range'_append_1]
    rfl

/-- What opens is what closes. -/
theorem openings_perm (h : Numbered groups ms bs groups') : (openings ms).Perm (closings ms) := by
  induction h with
  | nil | reference => exact .nil
  | append _ _ ih ih' =>
    rw [openings_append, closings_append]
    exact ih.append ih'
  | group name _ ih =>
    rw [openings_group, closings_group]
    exact (ih.cons _).trans (List.perm_append_singleton _ _).symm

/-- What is referred to was closed at the start, or closes in front of the reference. -/
theorem closed (h : Numbered groups ms bs groups') {j i : Nat} (hj : ms[j]? = some (.reference i)) :
    i < groups.length ∨ .closing i ∈ ms.take j := by
  induction h generalizing j with
  | nil => cases hj
  | @append groups groups' _ ms ms' bs _ first second ih ih' =>
    rcases Nat.lt_or_ge j ms.length with hlt | hge
    · rw [List.getElem?_append_left hlt] at hj
      rw [List.take_append_of_le_length hlt.le]
      exact ih hj
    · rw [List.getElem?_append_right hge] at hj
      rw [List.take_append, List.take_of_length_le hge, List.mem_append]
      rcases ih' hj with hbefore | hclosing
      · -- The group was closed when the second part began.
        rw [first.groups_eq, List.length_append] at hbefore
        rcases Nat.lt_or_ge i groups.length with hlt | hge
        · exact .inl hlt
        · rw [mem_closings, first.closings_eq, List.mem_range'_1]
          exact .inr (.inl ⟨hge, hbefore⟩)
      · exact .inr (.inr hclosing)
  | reference closed =>
    cases j with
    | zero =>
      cases hj
      exact .inl closed
    | succ j => cases hj
  | @group groups groups' ms bs name inside ih =>
    cases j with
    | zero => cases hj
    | succ j =>
      rw [List.cons_append, List.getElem?_cons_succ] at hj
      rw [List.cons_append, List.take_succ_cons, List.mem_cons]
      rcases Nat.lt_or_ge j ms.length with hlt | hge
      · rw [List.getElem?_append_left hlt] at hj
        rw [List.take_append_of_le_length hlt.le]
        exact (ih hj).imp_right .inr
      · -- The last mark closes the group and is no reference.
        rw [List.getElem?_append_right hge, List.getElem?_singleton] at hj
        split at hj <;> cases hj

/-- Without the references, the marks are the brackets, with numbers in the place of variables. -/
theorem brackets_eq (h : Numbered groups ms bs groups') (more : List String) :
    (ms.filter Mark.isBracket).map (Mark.map ((groups' ++ more)[·]?)) = bs.map (Mark.map some) := by
  induction h generalizing more with
  | nil | reference => rfl
  | append first second ih ih' =>
    rw [List.filter_append, List.map_append, List.map_append, ih']
    rw [second.groups_eq, List.append_assoc, ih]
  | @group groups groups' ms bs name inside ih =>
    -- The group's name stands behind those of the groups within it.
    have hlast : (groups' ++ [name] ++ more)[groups'.length]? = some name := by simp
    have hinside := ih ([name] ++ more)
    rw [← List.append_assoc] at hinside
    rw [List.cons_append, List.filter_cons_of_pos rfl, List.filter_append, List.map_cons,
      List.map_append, hinside]
    show .opening (groups' ++ [name] ++ more)[groups'.length]? :: (bs.map (Mark.map some) ++
      [.closing (groups' ++ [name] ++ more)[groups'.length]?]) = _
    rw [hlast, List.map_append, List.map_cons]
    rfl

/-- Where no group is closed, nothing is bracketed. -/
theorem brackets_eq_nil (h : Numbered groups ms bs groups') (hbs : closings bs = []) : bs = [] := by
  induction h with
  | nil | reference => rfl
  | append _ _ ih ih' =>
    rw [closings_append, List.append_eq_nil_iff] at hbs
    rw [ih hbs.1, ih' hbs.2]
    rfl
  | group name =>
    rw [closings_group] at hbs
    exact absurd hbs (List.append_ne_nil_of_right_ne_nil _ (List.cons_ne_nil _ _))

end Numbered

/-! ### Fragments of groups -/

/-- In the text of a fragment, the groups of assignments and the references to them are all there is
to groups. -/
theorem Twin.scans {n : Nat} {r r' : Regex} (h : Twin n r r') :
    Scans r.print (r.marks.map (Mark.map groupName)) := by
  induction h with
  | same h =>
    rw [h.marks_eq_nil]
    exact h.scans
  | seq _ _ iha ihb =>
    rw [marks, List.map_append]
    exact iha.append ihb
  | alt _ _ iha ihb =>
    rw [marks, List.map_append]
    exact scans_alt iha ihb
  | group _ ih => exact ih.group (by decide) (by decide)
  | capture i _ ih =>
    rw [marks, List.map_append, List.map_cons]
    exact ih.capture isInert_of_mem_groupName bracket_notMem_groupName
  | ahead negated _ ih => exact scans_ahead negated ih
  | loop least most greedy _ ih => exact scans_loop ih least most greedy
  | live | dead => exact .reference isInert_of_mem_groupName bracket_notMem_groupName

/-- Marks are collected from the parts. -/
theorem gathers_marks : Gathers marks := by
  constructor <;> intros <;> rfl

/-! ### Compiling -/

/-- The latest groups of the variables are complete. -/
def Sound (st : Compiling) : Prop :=
  ∀ e ∈ st.latest, e.2 < st.groups.length

/-- Compiling numbers the marks of what it gives as the brackets ask for. -/
def Numbering (bs : List (Mark String)) {α : Type} (ms : α → List (Mark Nat)) (x : Compile α) :
    Prop :=
  ∀ st, Sound st → Sound (x st).2 ∧ Numbered st.groups (ms (x st).1) bs (x st).2.groups

section

variable {bs : List (Mark String)} {α : Type} {ms : α → List (Mark Nat)}

/-- What can be written out has no groups to number. -/
theorem numbered_written {r : Regex} (h : Written .branch r) (groups : List String) :
    Numbered groups r.marks [] groups := by
  rw [h.marks_eq_nil]
  exact .nil

/-- It compiles to itself, and numbers nothing. -/
theorem numbering_pure {r : Regex} (h : Written .branch r) : Numbering [] marks (pure r) :=
  fun st hsound => ⟨hsound, numbered_written h st.groups⟩

/-- What is put around a fragment leaves its numbering. -/
theorem Numbering.map {x : Compile α} (h : Numbering bs ms x) {f : α → Regex}
    (hmarks : ∀ a, (f a).marks = ms a) : Numbering bs marks (x >>= fun a => pure (f a)) := by
  intro st hst
  obtain ⟨hsound, hnumbered⟩ := h st hst
  refine ⟨hsound, ?_⟩
  show Numbered st.groups (f (x st).1).marks bs (x st).2.groups
  rwa [hmarks]

/-- A reference is to a group that is complete, or to none. -/
theorem numbering_ofReference (name : String) :
    Numbering [] marks (get >>= fun st => pure (ofReference name st)) := by
  intro st hst
  refine ⟨hst, ?_⟩
  show Numbered st.groups (ofReference name st).marks [] st.groups
  rw [ofReference]
  split
  · rename_i i hlatest
    obtain ⟨before, behind, heq, -⟩ := List.lookup_eq_some_iff.mp hlatest
    have hmem : (name, i) ∈ st.latest := heq ▸ List.mem_append_right _ (.head _)
    exact .reference (hst _ hmem)
  · split
    · exact numbered_written (written_literal _) _
    · exact numbered_written written_unmatchable _

variable {x : Compile Regex}

/-- An assignment takes the next number when its value has been compiled. -/
theorem Numbering.ofAssignment (h : Numbering bs marks x) (name : String) :
    Numbering (.opening name :: bs ++ [.closing name]) marks (x >>= ofAssignment name) := by
  intro st hst
  obtain ⟨hsound, hnumbered⟩ := h st hst
  refine ⟨fun e he => ?_, hnumbered.group name⟩
  show e.2 < ((x st).2.groups ++ [name]).length
  rw [List.length_append, List.length_singleton, Nat.lt_succ_iff]
  rcases List.mem_cons.mp he with rfl | he
  · exact le_rfl
  · exact (hsound e he).le

/-- A fragment is written twice only if no group closes in it, and then its copy has no groups
either. -/
theorem Numbering.repeated (h : Numbering bs marks x) :
    Numbering bs marks (get >>= fun st => x >>= ofRepeated st.groups.length) := by
  intro st hst
  obtain ⟨hsound, hnumbered⟩ := h st hst
  let r := (x st).1
  have hx : x st = (r, (x st).2) := rfl
  rw [get_bind_run, bind_run _ hx]
  by_cases hlength : (x st).2.groups.length = st.groups.length
  · -- No group has closed inside, so there are no brackets to number twice.
    have hnone : bs = [] := by
      refine hnumbered.brackets_eq_nil ?_
      rw [hnumbered.groups_eq, List.length_append] at hlength
      exact List.length_eq_zero_iff.mp (Nat.add_eq_left.mp hlength)
    obtain rfl := hnone
    have hgroups : (x st).2.groups = st.groups :=
      hnumbered.groups_eq.trans (List.append_nil _)
    have hrun : ofRepeated st.groups.length r (x st).2 = (Matching.repeated r (r.shiftOwn r.ownGroups),
        { (x st).2 with own := (x st).2.own + r.ownGroups }) := by
      rw [ofRepeated, get_bind_run, if_pos hlength]
      rfl
    rw [hrun]
    refine ⟨hsound, ?_⟩
    rw [gathers_marks.repeated, marks_shiftOwn]
    rw [hgroups] at hnumbered ⊢
    exact hnumbered.append hnumbered
  · have hrun : ofRepeated st.groups.length r (x st).2 = (repeatedCapturing r, (x st).2) := by
      rw [ofRepeated, get_bind_run, if_neg hlength]
      rfl
    rw [hrun]
    refine ⟨hsound, ?_⟩
    rw [gathers_marks.repeatedCapturing]
    exact hnumbered

end

variable (macros : Macro.Registry) (u : Utterance)

mutual

/-- Compiling numbers the groups that the expression assigns. -/
theorem numbering_fragment [Engine] (e : Expr) (h : ∀ n ∈ e.nodes, n.kind ≠ .raw) :
    Numbering (brackets e) marks (fragment macros u e) := by
  match e with
  | .literal text => exact numbering_pure (written_literal text)
  | .reference name => exact numbering_ofReference name
  | .raw _ => exact absurd rfl (h _ (.head _))
  | .call .. => exact fun st hst => ⟨hst, numbered_written (written_ofOutput _) _⟩
  | .flexible items =>
    exact (numbering_fragments items fun n hn => h n (.tail _ hn)).map gathers_marks.flexible
  | .rigid items =>
    exact (numbering_fragments items fun n hn => h n (.tail _ hn)).map gathers_marks.rigid
  | .conjunction items =>
    exact (numbering_fragments items fun n hn => h n (.tail _ hn)).map
      (gathers_marks.conjunction gathers_marks fun _ => rfl)
  | .disjunction items =>
    exact (numbering_fragments items fun n hn => h n (.tail _ hn)).map gathers_marks.disjunction
  | .optional body =>
    exact (numbering_fragment body fun n hn => h n (.tail _ hn)).map gathers_marks.optional
  | .negation body =>
    exact (numbering_fragment body fun n hn => h n (.tail _ hn)).map
      (gathers_marks.negation fun _ => rfl)
  | .star body =>
    exact (numbering_fragment body fun n hn => h n (.tail _ hn)).repeated.map
      gathers_marks.optional
  | .plus body =>
    exact (numbering_fragment body fun n hn => h n (.tail _ hn)).repeated.map gathers_marks.group
  | .assignment name value =>
    exact (numbering_fragment value fun n hn => h n (.tail _ hn)).ofAssignment name

/-- Item by item, the groups of expressions are numbered. -/
theorem numbering_fragments [Engine] (es : List Expr) (h : ∀ n ∈ Expr.nodesOf es, n.kind ≠ .raw) :
    Numbering (bracketsOf es) (List.flatMap marks) (fragments macros u es) := by
  match es with
  | [] => exact fun _ hst => ⟨hst, .nil⟩
  | e :: es =>
    rw [Expr.nodesOf, List.forall_mem_append] at h
    intro st hst
    obtain ⟨hfirst, hnumbered⟩ := numbering_fragment e h.1 st hst
    obtain ⟨hothers, hmore⟩ := numbering_fragments es h.2 _ hfirst
    exact ⟨hothers, hnumbered.append hmore⟩

end

/-! ### Assignments of parsed expressions -/

/-- Every assignment of several expressions opens a group. -/
theorem length_assignedBy {es : List Expr}
    (h : ∀ e ∈ es, (assigned e).length = e.nodes.countP (·.kind = .assignment)) :
    (assignedBy es).length = (Expr.nodesOf es).countP (·.kind = .assignment) := by
  induction es with
  | nil => rfl
  | cons e es ih =>
    rw [List.forall_mem_cons] at h
    rw [assignedBy, Expr.nodesOf, List.length_append, List.countP_append, h.1, ih h.2]

/-- An argument assigns nothing. -/
theorem assigned_of_isArgument {e : Expr} (h : Expr.Parser.isArgument e = true) :
    assigned e = [] := by
  cases e <;> first | rfl | cases h

/-- Arguments assign nothing. -/
theorem assignedBy_of_isArgument {es : List Expr}
    (h : ∀ e ∈ es, Expr.Parser.isArgument e = true) : assignedBy es = [] := by
  induction es with
  | nil => rfl
  | cons e es ih =>
    rw [List.forall_mem_cons] at h
    rw [assignedBy, assigned_of_isArgument h.1, ih h.2]
    rfl

/-- What a source spells has no assignments in the arguments of calls. -/
theorem length_assigned [Engine] {g : Grammar} {e : Expr} (h : Expr.Spelled g e) :
    (assigned e).length = e.nodes.countP (·.kind = .assignment) := by
  induction h with
  | literal | raw | reference => rfl
  | flexible _ _ ih | rigid _ _ ih | conjunction _ _ _ ih | disjunction _ _ ih =>
    exact (length_assignedBy ih).trans (List.countP_cons_of_neg (by simp [Expr.kind])).symm
  | optional _ _ _ ih | star _ _ _ ih | plus _ _ _ ih | negation _ _ ih =>
    exact ih.trans (List.countP_cons_of_neg (by simp [Expr.kind])).symm
  | assignment _ _ ih =>
    rw [assigned, List.length_append, ih, Expr.nodes]
    exact (List.countP_cons_of_pos (by simp [Expr.kind])).symm
  -- Arguments are not compiled, but they have no assignments either.
  | @call name args _ arguments _ ih =>
    have hcount := length_assignedBy ih
    rw [assignedBy_of_isArgument arguments] at hcount
    exact hcount.trans (List.countP_cons_of_neg (by simp [Expr.kind])).symm

/-! ### Matches -/

/-- What the groups of a variable say after a match: of those that took part, the last one to
complete counts. -/
def lastTaken (groups : List String) (last : Cursor) (name : String) : Option (Nat × Nat) :=
  groups.zipIdx.reverse.findSome? fun (other, i) =>
    if other = name then last.capture? (.assigned i) else none

/-- Where each name refers to the group of its assignment, a match sets a variable to what the last
of its groups to take part has captured. -/
theorem get?_bind_eq (p : Pattern) (s : Subject) (last : Cursor)
    (hcaptured : ∀ i < p.groups.length, p.captured? last i = last.capture? (.assigned i))
    (name : String) :
    (p.bind s last).get? name = ((lastTaken p.groups last name).map fun (a, b) =>
      String.ofList (Text.trim (slice s a b))).or (p.vars.get? name) := by
  rw [Pattern.bind, lastTaken]
  generalize p.groups = groups at hcaptured
  -- The last group that took part is looked for from the end, so the list is taken apart there.
  induction groups using List.reverseRecOn with
  | nil => rfl
  | append_singleton groups other ih =>
    have hzip : (groups ++ [other]).zipIdx = groups.zipIdx ++ [(other, groups.length)] := by
      rw [List.zipIdx_append, Nat.zero_add]
      rfl
    rw [List.length_append, List.length_singleton] at hcaptured
    have hlast := hcaptured groups.length (Nat.lt_succ_self _)
    have hfront := ih fun i hi => hcaptured i (Nat.lt_succ_of_lt hi)
    rw [hzip, List.foldl_concat, List.reverse_concat, List.findSome?_cons]
    dsimp only
    rw [hlast]
    cases hcapture : last.capture? (.assigned groups.length) with
    | none =>
      rw [ite_self]
      exact hfront
    | some span =>
      dsimp only
      rw [SortedMap.get?_insert]
      by_cases hname : other = name
      · rw [if_pos hname.symm, if_pos hname]
        rfl
      · rw [if_neg (Ne.symm hname), if_neg hname]
        exact hfront

/-! ### Whole patterns -/

/-- The text defines the groups of these variables: the first for the first variable, and so on.
`ms` are its marks, with the numbers of the groups for their names. -/
structure Grouped (text : List Char) (bs : List (Mark String)) (groups : List String)
    (ms : List (Mark Nat)) : Prop where
  scanned : scan [] text = ms.map (Mark.map groupName)
  /-- Different groups have different names. -/
  distinct : ((List.range groups.length).map groupName).Nodup
  /-- Each group opens once. -/
  opens : (openings ms).Perm (List.range groups.length)
  /-- Each group closes once, the first one first. -/
  closes : closings ms = List.range groups.length
  /-- A group that is referred to has closed in front of the reference. -/
  refers : ∀ j i, ms[j]? = some (.reference i) → .closing i ∈ ms.take j
  /-- The groups stand where the assignments of their variables do. -/
  pairs : (ms.filter Mark.isBracket).map (Mark.map (groups[·]?)) = bs.map (Mark.map some)

/-- Groups that are numbered from nothing on are those that the text defines. -/
theorem Numbered.grouped {groups : List String} {ms : List (Mark Nat)} {bs : List (Mark String)}
    (h : Numbered [] ms bs groups) {text : List Char}
    (hscan : scan [] text = ms.map (Mark.map groupName)) : Grouped text bs groups ms := by
  have hcloses : closings ms = List.range groups.length := by
    rw [h.closings_eq, h.groups_eq, List.nil_append, List.range_eq_range']
    rfl
  refine ⟨hscan, List.nodup_range.map groupName_injective, hcloses ▸ h.openings_perm, hcloses,
    fun j i hj => (h.closed hj).resolve_left (Nat.not_lt_zero i), ?_⟩
  simpa using h.brackets_eq []

/-- A pattern that is compiled from an expression without raw patterns defines the groups `g0`, `g1`
and so on in its text, one for each assignment, and refers to groups behind their ends only.  It
lists the variables of the groups in the order in which the assignments complete; so when it
matches, a variable is set to what the last of its groups to take part has captured. -/
theorem grouped_compile [Engine] {e : Expr} (h : ∀ n ∈ e.nodes, n.kind ≠ .raw)
    (macros : Macro.Registry) (u : Utterance) (vars : Bindings) :
    (∃ ms, Grouped (compile macros u e vars).render.toList (brackets e)
      (compile macros u e vars).groups ms) ∧
    (compile macros u e vars).groups = assigned e ∧
    (∀ source, Expr.parse .matching source = .ok e →
      (compile macros u e vars).groups.length = e.nodes.countP (·.kind = .assignment)) ∧
    ∀ budget after, run macros u e vars budget = some after →
      ∃ last, (compile macros u e vars).regex.find? (subject u)
          (Engine.allowance (compile macros u e vars).regex (subject u) budget) = some last ∧
        ∀ name, after.get? name =
          ((lastTaken (compile macros u e vars).groups last name).map fun (a, b) =>
            String.ofList (Text.trim (slice (subject u) a b))).or
              ((compile macros u e vars).vars.get? name) := by
  let p := compile macros u e vars
  have hcomposed : Composed p.regex := composed_compile macros u h vars
  obtain ⟨-, hfragment⟩ :=
    numbering_fragment macros u e h ⟨vars, [], [], 0⟩ (fun _ h => nomatch h)
  have hgroups : p.groups = assigned e := by
    rw [← closings_brackets]
    exact hfragment.groups_eq
  have hnumbered : Numbered [] p.regex.marks (brackets e) p.groups := by
    show Numbered [] (anchored _).marks _ _
    rw [gathers_marks.anchored]
    exact hfragment
  have hrender : p.render.toList = "(?is)".toList ++ p.regex.print := by
    rw [Pattern.render, String.toList_append]
    exact congrArg _ String.toList_ofList
  have hscan := (scans_flags.append hcomposed.scans) [] []
  rw [List.append_nil, List.nil_append, scan, List.append_nil, ← hrender] at hscan
  have hgrouped : Grouped p.render.toList (brackets e) p.groups p.regex.marks :=
    hnumbered.grouped hscan
  refine ⟨⟨p.regex.marks, hgrouped⟩, hgroups, fun source hparse => ?_, fun budget after hrun => ?_⟩
  · show p.groups.length = _
    rw [hgroups]
    by_cases hempty : e = .rigid []
    · rw [hempty]
      rfl
    · exact length_assigned (Expr.spelled_of_parse hparse hempty).1
  · rw [run, Pattern.run, hcomposed.resolve_eq_self] at hrun
    split_ifs at hrun
    obtain ⟨last, hfound, rfl⟩ := Option.map_eq_some_iff.mp hrun
    refine ⟨last, hfound, get?_bind_eq p (subject u) last fun i hi => ?_⟩
    -- The group of each variable is there, and all groups are those of assignments.
    have hopened : .assigned i ∈ p.regex.labels :=
      mem_openings_marks.mp (hgrouped.opens.mem_iff.mpr (List.mem_range.mpr hi))
    rw [Pattern.captured?, called_eq hcomposed.isOwn_eq_false hopened, Option.bind_some]

/-- Ann and Bob in any order, whoever is asked for, and Bob again. -/
def roll : Expr :=
  .rigid [.plus (.disjunction [.assignment "x" (.literal "ann"), .assignment "x" (.literal "bob")]),
    .call "ASKED" [.literal "first"], .reference "x"]

/-- Eve is asked for, in parentheses. -/
def asked : Macro.Registry :=
  SortedMap.ofList [("ASKED", fun _ _ vars => (.ok (.text "(eve)"), vars))]

theorem parse_roll :
    Expr.parse .matching "[!\x7b$x=ann, $x=bob\x7d+, #ASKED(first), $x]" = .ok roll := by cbv

/-- Both of the groups take part, Ann's after Bob's, and it is Bob's that counts. -/
theorem grouped_roll :
    let u := Utterance.scan "Bob, Ann (Eve) bob" 4
    let p := compile asked u roll SortedMap.empty
    (∀ n ∈ roll.nodes, n.kind ≠ .raw) ∧
      p.render = "(?is)^\\W*(?:(?:(?:\\W*(?:(?P<g0>\\bann\\b)|(?P<g1>\\bbob\\b)))+)" ++
        "\\W*\\(eve\\)\\W*\\k<g1>)\\W*_END_$" ∧
      (∃ ms, Grouped p.render.toList (brackets roll) p.groups ms) ∧ p.groups.length = 2 ∧
      ∃ after, run asked u roll SortedMap.empty 1000 = some after ∧ after.get? "x" = some "bob" := by
  intro u p
  have hraw : ∀ n ∈ roll.nodes, n.kind ≠ .raw := by decide
  obtain ⟨hgrouped, -, hlength, -⟩ := grouped_compile hraw asked u SortedMap.empty
  have hrun : run asked u roll SortedMap.empty 1000 = some (SortedMap.ofList [("x", "bob")]) := by
    decide +kernel
  exact ⟨hraw, by decide +kernel, hgrouped, hlength _ parse_roll, _, hrun, by decide⟩

end Colloquy.Matching
