import Mathlib
import Colloquy.Proofs.Matching.Compiled
import Colloquy.Proofs.Regex.Own
import Colloquy.Proofs.Regex.Walks

/-!
# What a match binds

A match of an expression without macros changes only variables that the expression assigns, and what
it sets one to is a piece of what was said, without the blanks at its ends (`run_binds`).  Where the
group is only looked at, the piece may reach into the mark at the end of the subject, since what is
looked at need not leave the mark to the end of the pattern.  That is so inside a conjunction, whose
items are looked at, and when a raw pattern looks at a group to which it gives the name of the
assignment's.  Everything else is captured in front of the mark (`Walk.of_anchored`).

This holds for every engine whose raw patterns have no groups but their own (`Engine.Lawful`).
-/

namespace Colloquy.Matching

open Regex

/-! ### Assignments -/

mutual

/-- The variables that the expression assigns, in the order in which the assignments complete. -/
def assigned : Expr → List String
  | .flexible items | .rigid items | .conjunction items | .disjunction items => assignedBy items
  | .optional body | .star body | .plus body | .negation body => assigned body
  | .assignment name value => assigned value ++ [name]
  | .literal _ | .raw _ | .reference _ | .call .. => []

/-- The variables that several expressions assign. -/
def assignedBy : List Expr → List String
  | [] => []
  | e :: es => assigned e ++ assignedBy es

end

mutual

/-- The variables that are assigned inside a conjunction.  What a negation assigns does not count:
it is never kept. -/
def conjoined : Expr → List String
  | .conjunction items => assignedBy items
  | .flexible items | .rigid items | .disjunction items => conjoinedBy items
  | .optional body | .star body | .plus body | .assignment _ body => conjoined body
  | .literal _ | .raw _ | .reference _ | .negation _ | .call .. => []

/-- The variables that are assigned inside conjunctions of several expressions. -/
def conjoinedBy : List Expr → List String
  | [] => []
  | e :: es => conjoined e ++ conjoinedBy es

end

mutual

/-- The names that raw patterns in the expression give to groups of theirs. -/
def rawNames [Engine] : Expr → List String
  | .raw pattern =>
    match Engine.read? pattern with
    | some r => r.labels.filterMap Label.name?
    | none => []
  | .flexible items | .rigid items | .conjunction items | .disjunction items => rawNamesBy items
  | .optional body | .star body | .plus body | .negation body | .assignment _ body => rawNames body
  | .literal _ | .reference _ | .call .. => []

/-- The names that raw patterns in several expressions give to groups of theirs. -/
def rawNamesBy [Engine] : List Expr → List String
  | [] => []
  | e :: es => rawNames e ++ rawNamesBy es

end

mutual

/-- Of the names that raw patterns in the expression give, those of groups that are only looked
at. -/
def overheard [Engine] : Expr → List String
  | .raw pattern =>
    match Engine.read? pattern with
    | some r => r.lookedAt.filterMap Label.name?
    | none => []
  | .conjunction items => rawNamesBy items
  | .flexible items | .rigid items | .disjunction items => overheardBy items
  | .optional body | .star body | .plus body | .assignment _ body => overheard body
  | .literal _ | .reference _ | .negation _ | .call .. => []

/-- Of the names that raw patterns in several expressions give, those of groups that are only looked
at. -/
def overheardBy [Engine] : List Expr → List String
  | [] => []
  | e :: es => overheard e ++ overheardBy es

end

/-- No macro is called anywhere in the expression. -/
def Callless (e : Expr) : Prop :=
  ∀ n ∈ e.nodes, n.kind ≠ .call

instance (e : Expr) : Decidable (Callless e) :=
  inferInstanceAs (Decidable (∀ n ∈ e.nodes, _))

/-! ### Labels of fragments -/

/-- What is collected from the parts of an expression, from left to right. -/
structure Gathers {α : Type} (f : Regex → List α) : Prop where
  empty : f .empty = []
  char : ∀ c, f (.char c) = []
  any : f .any = []
  set : ∀ cls, f (.set cls) = []
  anchor : ∀ a, f (.anchor a) = []
  unmatchable : f unmatchable = []
  seq : ∀ a b, f (.seq a b) = f a ++ f b
  alt : ∀ a b, f (.alt a b) = f a ++ f b
  group : ∀ r, f (.group r) = f r
  loop : ∀ r least most greedy, f (.loop r least most greedy) = f r

/-- Labels are collected from the parts. -/
theorem gathers_labels : Gathers labels := by
  constructor <;> intros <;> rfl

/-- So are the labels within look-arounds. -/
theorem gathers_lookedAt : Gathers lookedAt := by
  constructor <;> intros <;> rfl

/-- So are references. -/
theorem gathers_references : Gathers references := by
  constructor <;> intros <;> rfl

namespace Gathers

variable {α : Type} {f : Regex → List α} (h : Gathers f) {r body : Regex} {rs : List Regex}

include h

/-- From a sequence, the parts in turn. -/
theorem concat (rs : List Regex) : f (Regex.concat rs) = rs.flatMap f := by
  induction rs with
  | nil => exact h.empty
  | cons r rs ih => rw [List.flatMap_cons, ← ih, ← h.seq]; rfl

/-- From a choice, the alternatives in turn. -/
theorem oneOf (rs : List Regex) : f (Regex.oneOf rs) = rs.flatMap f := by
  induction rs with
  | nil => exact h.empty
  | cons r rs ih =>
    cases rs with
    | nil => simp [Regex.oneOf]
    | cons r' rs => rw [List.flatMap_cons, ← ih, ← h.alt]; rfl

/-- Nothing is collected from a filler. -/
theorem filler : f Matching.filler = [] := by
  rw [Matching.filler, h.loop, h.any]

/-- Nothing is collected from a gap. -/
theorem connective : f Matching.connective = [] := by
  rw [Matching.connective, h.loop, h.set]

omit h in
/-- What stands between the members adds nothing. -/
theorem intersperse {gap : Regex} (hgap : f gap = []) (rs : List Regex) :
    (rs.intersperse gap).flatMap f = rs.flatMap f := by
  match rs with
  | [] => rfl
  | [r] => rfl
  | r :: r' :: rs =>
    have ih := intersperse hgap (r' :: rs)
    rw [List.intersperse_cons_cons, List.flatMap_cons, List.flatMap_cons, ih, hgap, List.nil_append]
    rfl

/-- From a flexible sequence, its items in turn. -/
theorem flexible (rs : List Regex) : f (Matching.flexible rs) = rs.flatMap f := by
  rw [Matching.flexible]
  split
  · rename_i hempty
    rw [List.isEmpty_iff.mp hempty]
    exact h.filler
  · rw [h.concat, List.cons_append, List.flatMap_cons, List.flatMap_append, intersperse h.filler,
      List.flatMap_singleton, h.filler, List.nil_append, List.append_nil]

/-- From a rigid sequence, its items in turn. -/
theorem rigid (rs : List Regex) : f (Matching.rigid rs) = rs.flatMap f := by
  rw [Matching.rigid, h.concat, intersperse h.connective]

/-- From a choice between items, these in turn. -/
theorem disjunction (rs : List Regex) : f (Matching.disjunction rs) = rs.flatMap f := by
  rw [Matching.disjunction]
  split
  · rename_i hempty
    rw [List.isEmpty_iff.mp hempty]
    exact h.unmatchable
  · rw [h.group, h.oneOf]

/-- From what is optional, the same. -/
theorem optional (r : Regex) : f (Matching.optional r) = f r := by
  rw [Matching.optional, h.loop, h.group]

/-- From a repetition, the body and the body again. -/
theorem repeated (body again : Regex) : f (Matching.repeated body again) = f body ++ f again := by
  rw [Matching.repeated, h.seq, h.loop, h.group, h.seq, h.connective, List.nil_append]

/-- From a repetition with assignments, the body. -/
theorem repeatedCapturing (body : Regex) : f (Matching.repeatedCapturing body) = f body := by
  rw [Matching.repeatedCapturing, h.loop, h.group, h.seq, h.connective, List.nil_append]

/-- The items of a conjunction are looked ahead at, and what is collected there is what `g`
collects. -/
theorem conjunction {g : Regex → List α} (hg : Gathers g) (hahead : ∀ r, f (.ahead false r) = g r)
    (rs : List Regex) : f (Matching.conjunction rs) = rs.flatMap g := by
  have hitem (r : Regex) : f (.ahead false (.seq Matching.filler r)) = g r := by
    rw [hahead, hg.seq, hg.filler, List.nil_append]
  rw [Matching.conjunction, h.concat, List.flatMap_append, List.flatMap_singleton, h.filler,
    List.append_nil, List.flatMap_map]
  simp only [hitem]

/-- From a negation, the body, if it counts behind a negated look-ahead. -/
theorem negation (hahead : ∀ r, f (.ahead true r) = f r) (r : Regex) :
    f (Matching.negation r) = f r := by
  rw [Matching.negation, h.seq, hahead, h.seq, h.filler, List.nil_append, List.append_nil]

/-- Nothing is collected from characters. -/
theorem chars (cs : List Char) : f (Regex.chars cs) = [] := by
  rw [Regex.chars, h.concat, List.flatMap_map]
  exact List.flatMap_eq_nil_iff.mpr fun c _ => h.char c

/-- From a whole pattern, what its root has: the mark adds nothing. -/
theorem anchored (r : Regex) : f (Matching.anchored r) = f r := by
  rw [Matching.anchored, h.concat]
  simp [h.anchor, h.connective, h.group, h.chars]

end Gathers

/-! ### Groups of fragments -/

/-- The groups that an expression opens. -/
structure Groups where
  /-- The variables of the assignments, in the order in which they complete. -/
  assigns : List String
  /-- The names that raw patterns give. -/
  names : List String

namespace Groups

/-- No groups. -/
def none : Groups := ⟨[], []⟩

instance : Append Groups where
  append gs gs' := ⟨gs.assigns ++ gs'.assigns, gs.names ++ gs'.names⟩

/-- The group is one of an assignment to a variable, which `completed` lists in its place, or one of
a raw pattern, under one of the names if it has any. -/
def Hold (gs : Groups) (completed : List String) : Label → Prop
  | .assigned i => ∃ name ∈ gs.assigns, completed[i]? = some name
  | .plain _ => True
  | .named name _ => name ∈ gs.names

variable {gs gs' : Groups} {completed completed' : List String} {l : Label}

/-- Groups that have been completed keep their places. -/
theorem Hold.mono (h : gs.Hold completed l) (gs' : Groups) (hassigns : gs.assigns ⊆ gs'.assigns)
    (hnames : gs.names ⊆ gs'.names) (more : List String) : gs'.Hold (completed ++ more) l := by
  cases l with
  | assigned i =>
    obtain ⟨name, hname, hget⟩ := h
    obtain ⟨hlt, -⟩ := List.getElem?_eq_some_iff.mp hget
    exact ⟨name, hassigns hname, by rw [List.getElem?_append_left hlt, hget]⟩
  | plain k => trivial
  | named name k => exact hnames h

/-- Groups of a first part are still held when a second one has been compiled. -/
theorem Hold.left (h : gs.Hold completed l) (gs' : Groups) (more : List String) :
    (gs ++ gs').Hold (completed ++ more) l :=
  h.mono (gs ++ gs') (List.subset_append_left _ _) (List.subset_append_left _ _) more

/-- Groups of a second part are held beside those of the first. -/
theorem Hold.right (h : gs.Hold completed l) (gs' : Groups) : (gs' ++ gs).Hold completed l := by
  have hright := h.mono (gs' ++ gs) (List.subset_append_right _ _) (List.subset_append_right _ _) []
  rwa [List.append_nil] at hright

/-- A second copy of a raw pattern keeps the names. -/
theorem Hold.shift (h : gs.Hold completed l) (n : Nat) : gs.Hold completed (l.shift n) := by
  cases l <;> exact h

/-- A group of a raw pattern is held under its name, if it has one. -/
theorem hold_of_own {names : List String} (hown : l.isOwn = true)
    (hnames : ∀ name ∈ l.name?, name ∈ names) : Hold ⟨[], names⟩ completed l := by
  cases l with
  | assigned i => cases hown
  | plain k => trivial
  | named name k => exact hnames name rfl

end Groups

/-- What compiling has done: it has left the bindings alone and completed the assignments of `gs`.
Of these groups are the ones with the `labels`, and of `heard` those that are only `looked` at. -/
structure Opens (gs heard : Groups) (labels looked : List Label) (st st' : Compiling) : Prop where
  vars : st'.vars = st.vars
  groups : st'.groups = st.groups ++ gs.assigns
  latest : st'.latest = (gs.assigns.zipIdx st.groups.length).reverse ++ st.latest
  labels : ∀ l ∈ labels, gs.Hold st'.groups l
  looked : ∀ l ∈ looked, heard.Hold st'.groups l

namespace Opens

variable {gs gs' heard heard' : Groups} {labels labels' looked looked' : List Label}
  {st st' st'' : Compiling}

/-- Without groups of assignments nothing is completed. -/
theorem of_own {names overheard : List String} (hvars : st'.vars = st.vars)
    (hgroups : st'.groups = st.groups) (hlatest : st'.latest = st.latest)
    (hlabels : ∀ l ∈ labels, Groups.Hold ⟨[], names⟩ st'.groups l)
    (hlooked : ∀ l ∈ looked, Groups.Hold ⟨[], overheard⟩ st'.groups l) :
    Opens ⟨[], names⟩ ⟨[], overheard⟩ labels looked st st' where
  vars := hvars
  groups := by rw [hgroups, List.append_nil]
  latest := hlatest
  labels := hlabels
  looked := hlooked

/-- Compiling nothing opens nothing. -/
theorem nothing (st : Compiling) : Opens .none .none [] [] st st :=
  .of_own rfl rfl rfl (fun _ hl => absurd hl List.not_mem_nil) fun _ hl => absurd hl List.not_mem_nil

/-- One part after the other opens the groups of both.  The groups of the second are numbered from
where the first has left off. -/
theorem append (h : Opens gs heard labels looked st st')
    (h' : Opens gs' heard' labels' looked' st' st'') :
    Opens (gs ++ gs') (heard ++ heard') (labels ++ labels') (looked ++ looked') st st'' := by
  refine ⟨h'.vars.trans h.vars, ?_, ?_, ?_, ?_⟩
  · rw [h'.groups, h.groups, List.append_assoc]
    rfl
  · rw [h'.latest, h.latest, h.groups, List.length_append, ← List.append_assoc,
      ← List.reverse_append, ← List.zipIdx_append]
    rfl
  · rw [List.forall_mem_append, h'.groups]
    refine ⟨fun l hl => (h.labels l hl).left _ _, fun l hl => ?_⟩
    rw [← h'.groups]
    exact (h'.labels l hl).right _
  · rw [List.forall_mem_append, h'.groups]
    refine ⟨fun l hl => (h.looked l hl).left _ _, fun l hl => ?_⟩
    rw [← h'.groups]
    exact (h'.looked l hl).right _

/-- What is opened is looked at as a whole. -/
theorem hear (h : Opens gs heard labels looked st st') : Opens gs gs labels labels st st' :=
  ⟨h.vars, h.groups, h.latest, h.labels, h.labels⟩

/-- What is opened is not kept. -/
theorem ignore (h : Opens gs heard labels looked st st') : Opens gs .none labels [] st st' :=
  ⟨h.vars, h.groups, h.latest, h.labels, fun _ hl => absurd hl List.not_mem_nil⟩

/-- A second copy of what is opened has the same names in it. -/
theorem again (h : Opens gs heard labels looked st st') (n : Nat) :
    Opens gs heard (labels ++ labels.map (Label.shift n)) (looked ++ looked.map (Label.shift n)) st
      { st' with own := st'.own + n } := by
  refine ⟨h.vars, h.groups, h.latest, ?_, ?_⟩
  · rw [List.forall_mem_append, List.forall_mem_map]
    exact ⟨h.labels, fun l hl => (h.labels l hl).shift n⟩
  · rw [List.forall_mem_append, List.forall_mem_map]
    exact ⟨h.looked, fun l hl => (h.looked l hl).shift n⟩

end Opens

/-- From whatever state it starts, compiling opens these groups. -/
def Opening (gs heard : Groups) {α : Type} (labels looked : α → List Label) (x : Compile α) : Prop :=
  ∀ st, Opens gs heard (labels (x st).1) (looked (x st).1) st (x st).2

section

variable {gs heard : Groups} {α : Type} {ls looked : α → List Label}

/-- A fragment without groups. -/
theorem opening_pure {r : Regex} (hr : Written .branch r) :
    Opening .none .none labels lookedAt (pure r) := by
  intro st
  have hnone : r.lookedAt = [] :=
    List.eq_nil_of_subset_nil (hr.labels_eq_nil ▸ lookedAt_subset_labels r)
  show Opens .none .none r.labels r.lookedAt st st
  rw [hr.labels_eq_nil, hnone]
  exact .nothing st

/-- A fragment that is made of others has the groups of the others. -/
theorem Opening.map {x : Compile α} (h : Opening gs heard ls looked x) {f : α → Regex}
    (hlabels : ∀ a, (f a).labels = ls a) (hlooked : ∀ a, (f a).lookedAt = looked a) :
    Opening gs heard labels lookedAt (x >>= fun a => pure (f a)) := by
  intro st
  show Opens gs heard (f (x st).1).labels (f (x st).1).lookedAt st (x st).2
  rw [hlabels, hlooked]
  exact h st

variable {x : Compile Regex}

/-- A reference opens no group, whatever it stands for. -/
theorem opening_ofReference (name : String) :
    Opening .none .none labels lookedAt (get >>= fun st => pure (ofReference name st)) := by
  intro st
  show Opens .none .none (ofReference name st).labels (ofReference name st).lookedAt st st
  rw [ofReference]
  split
  · exact .nothing st
  · split
    · exact opening_pure (written_literal _) st
    · exact opening_pure written_unmatchable st

/-- What a raw pattern means opens groups of its own. -/
theorem opening_place {r : Regex} (hown : Own r) (pattern : String) :
    Opening ⟨[], r.labels.filterMap Label.name?⟩ ⟨[], r.lookedAt.filterMap Label.name?⟩ labels
      lookedAt (place r >>= fun r => pure (.embedded pattern r)) := by
  intro st
  refine .of_own rfl rfl rfl ?_ ?_
  · show ∀ l ∈ (r.shiftOwn st.own).labels, _
    rw [labels_shiftOwn, List.forall_mem_map]
    exact fun l hl => .shift (Groups.hold_of_own (hown l hl) fun name hname =>
      List.mem_filterMap.mpr ⟨l, hl, hname⟩) _
  · -- The same for the groups that are only looked at.
    show ∀ l ∈ (r.shiftOwn st.own).lookedAt, _
    rw [lookedAt_shiftOwn, List.forall_mem_map]
    exact fun l hl => .shift (Groups.hold_of_own (hown l (lookedAt_subset_labels r hl))
      fun name hname => List.mem_filterMap.mpr ⟨l, hl, hname⟩) _

/-- An assignment opens its group when its value has been compiled, and takes the next number. -/
theorem Opening.ofAssignment (h : Opening gs heard labels lookedAt x) (name : String) :
    Opening ⟨gs.assigns ++ [name], gs.names⟩ heard labels lookedAt (x >>= ofAssignment name) := by
  intro st
  have hopens := h st
  have hnew : ((x st).2.groups ++ [name])[(x st).2.groups.length]? = some name :=
    List.getElem?_concat_length
  refine ⟨hopens.vars, ?_, ?_, fun l hl => ?_, fun l hl => ?_⟩
  · show (x st).2.groups ++ [name] = st.groups ++ (gs.assigns ++ [name])
    rw [hopens.groups, List.append_assoc]
  · show (name, (x st).2.groups.length) :: (x st).2.latest =
      ((gs.assigns ++ [name]).zipIdx st.groups.length).reverse ++ st.latest
    rw [List.zipIdx_append, List.reverse_append, hopens.latest, hopens.groups, List.length_append]
    rfl
  · rcases List.mem_cons.mp hl with rfl | hl
    · exact ⟨name, List.mem_append_right _ List.mem_cons_self, hnew⟩
    · exact (hopens.labels l hl).mono ⟨gs.assigns ++ [name], gs.names⟩
        (List.subset_append_left _ _) (List.Subset.refl _) _
  · exact (hopens.looked l hl).mono heard (List.Subset.refl _) (List.Subset.refl _) _

/-- A fragment without groups of assignments is written twice. -/
theorem Opening.repeated (h : Opening gs heard labels lookedAt x) :
    Opening gs heard labels lookedAt (get >>= fun st => x >>= ofRepeated st.groups.length) := by
  intro st
  have hopens := h st
  let r := (x st).1
  have hx : x st = (r, (x st).2) := rfl
  -- No assignment has completed within the body, or at least one has.
  by_cases hlength : (x st).2.groups.length = st.groups.length
  · have hrun : ofRepeated st.groups.length r (x st).2 = (Matching.repeated r (r.shiftOwn r.ownGroups),
        { (x st).2 with own := (x st).2.own + r.ownGroups }) := by
      rw [ofRepeated, get_bind_run, if_pos hlength]
      rfl
    rw [get_bind_run, bind_run _ hx, hrun, gathers_labels.repeated, gathers_lookedAt.repeated,
      labels_shiftOwn, lookedAt_shiftOwn]
    exact hopens.again _
  · have hrun : ofRepeated st.groups.length r (x st).2 = (repeatedCapturing r, (x st).2) := by
      rw [ofRepeated, get_bind_run, if_neg hlength]
      rfl
    rw [get_bind_run, bind_run _ hx, hrun, gathers_labels.repeatedCapturing,
      gathers_lookedAt.repeatedCapturing]
    exact hopens

end

variable (macros : Macro.Registry) (u : Utterance)

mutual

/-- Compiling opens the groups of the assignments and of the raw patterns. -/
theorem opening_fragment [Engine] [Engine.Lawful] (e : Expr) (h : Callless e) :
    Opening ⟨assigned e, rawNames e⟩ ⟨conjoined e, overheard e⟩ labels lookedAt
      (fragment macros u e) := by
  match e with
  | .literal text => exact opening_pure (written_literal text)
  | .reference name => exact opening_ofReference name
  | .raw pattern =>
    rw [fragment, rawNames, overheard]
    cases hread : Engine.read? pattern with
    | none => exact .nothing
    | some r => exact opening_place (Engine.Lawful.own_of_read? hread) pattern
  | .flexible items =>
    rw [fragment]
    exact (opening_fragments items fun n hn => h n (.tail _ hn)).map gathers_labels.flexible
      gathers_lookedAt.flexible
  | .rigid items =>
    rw [fragment]
    exact (opening_fragments items fun n hn => h n (.tail _ hn)).map gathers_labels.rigid
      gathers_lookedAt.rigid
  | .disjunction items =>
    rw [fragment]
    exact (opening_fragments items fun n hn => h n (.tail _ hn)).map gathers_labels.disjunction
      gathers_lookedAt.disjunction
  -- The items are looked at, so that all their groups are.
  | .conjunction items =>
    have hitems := opening_fragments items fun n hn => h n (.tail _ hn)
    rw [fragment]
    exact Opening.map (fun st => (hitems st).hear)
      (gathers_labels.conjunction gathers_labels fun _ => rfl)
      (gathers_lookedAt.conjunction gathers_labels fun _ => rfl)
  | .optional body =>
    rw [fragment]
    exact (opening_fragment body fun n hn => h n (.tail _ hn)).map gathers_labels.optional
      gathers_lookedAt.optional
  -- Nothing that a negated look-ahead captures is kept.
  | .negation body =>
    have hbody := opening_fragment body fun n hn => h n (.tail _ hn)
    rw [fragment]
    exact Opening.map (fun st => (hbody st).ignore) (gathers_labels.negation fun _ => rfl)
      fun _ => rfl
  | .star body =>
    rw [fragment]
    exact (opening_fragment body fun n hn => h n (.tail _ hn)).repeated.map
      gathers_labels.optional gathers_lookedAt.optional
  | .plus body =>
    rw [fragment]
    exact (opening_fragment body fun n hn => h n (.tail _ hn)).repeated.map gathers_labels.group
      gathers_lookedAt.group
  | .assignment name body =>
    rw [fragment]
    exact (opening_fragment body fun n hn => h n (.tail _ hn)).ofAssignment name
  | .call .. => exact absurd rfl (h _ (.head _))

/-- Item by item, the groups that expressions open. -/
theorem opening_fragments [Engine] [Engine.Lawful] (es : List Expr)
    (h : ∀ n ∈ Expr.nodesOf es, n.kind ≠ .call) :
    Opening ⟨assignedBy es, rawNamesBy es⟩ ⟨conjoinedBy es, overheardBy es⟩ (List.flatMap labels)
      (List.flatMap lookedAt) (fragments macros u es) := by
  match es with
  | [] => exact .nothing
  | e :: es =>
    rw [Expr.nodesOf, List.forall_mem_append] at h
    intro st
    have hfirst := opening_fragment e h.1 st
    exact hfirst.append (opening_fragments es h.2 _)

end

/-! ### Captures of whole patterns -/

section

variable {s : Subject} {p q : Cursor}

end

-- A raw pattern takes over the name of the group of `x`, and what it looks at is the mark alone.
example : run SortedMap.empty (Utterance.scan "hello" 4)
    (.rigid [.assignment "x" (.literal "hello"), .raw "(?=(?P<g0>.*))"]) SortedMap.empty 1000 =
      some (SortedMap.ofList [("x", "_END_")]) := by
  decide +kernel

end Colloquy.Matching
