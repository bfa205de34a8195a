import Colloquy.Proofs.Ascending
import Colloquy.Proofs.Generation.Parallel

/-!
# The scope of an expression

The variables that `Expr.variableNames` lists are all that an expression without calls reads or
writes.  Under bindings that agree on them, generation draws and says the same, and the same
utterances are matched; afterwards the bindings agree on them still, and have kept all others
(`confined_to_variableNames`).

`Confined` is what holds between the bindings of the two runs at every moment.  Generation keeps it
(`relating_confined`).  Compiling reads variables in the scope and leaves the bindings alone
(`scoped_fragment`), so the pattern is the same under both, and what its groups set is in the scope.
-/

namespace Colloquy

/-! ### Names -/

namespace Expr

theorem mem_variableNames {e : Expr} {name : String} :
    name ∈ e.variableNames ↔ ∃ n ∈ e.nodes, n.ownVariable = some name := by
  rw [variableNames, mem_eraseReps, List.mem_mergeSort, List.mem_filterMap]

theorem mem_variableNames_of_reference {e : Expr} {name : String} (h : .reference name ∈ e.nodes) :
    name ∈ e.variableNames :=
  mem_variableNames.mpr ⟨_, h, rfl⟩

theorem mem_variableNames_of_assignment {e value : Expr} {name : String}
    (h : .assignment name value ∈ e.nodes) : name ∈ e.variableNames :=
  mem_variableNames.mpr ⟨_, h, rfl⟩

end Expr

/-! ### Bindings in two runs -/

/-- The bindings give the same values to the variables that are listed. -/
def AgreeOn (names : List String) (v w : Bindings) : Prop :=
  ∀ name ∈ names, v.get? name = w.get? name

/-- The bindings `a` and `b`, to which `v` and `w` have come, agree on the variables that are listed
and have kept all others. -/
structure Confined (names : List String) (v w a b : Bindings) : Prop where
  agree : AgreeOn names a b
  left : ∀ name ∉ names, a.get? name = v.get? name
  right : ∀ name ∉ names, b.get? name = w.get? name

variable {names : List String} {v w : Bindings}

theorem AgreeOn.confined (h : AgreeOn names v w) : Confined names v w v w :=
  ⟨h, fun _ _ => rfl, fun _ _ => rfl⟩

theorem Confined.insert {a b : Bindings} (h : Confined names v w a b) {name : String}
    (hname : name ∈ names) (text : String) :
    Confined names v w (a.insert name text) (b.insert name text) where
  agree other hother := by
    rw [SortedMap.get?_insert, SortedMap.get?_insert, h.agree other hother]
  left other hother := by
    have hne : other ≠ name := fun heq => hother (heq ▸ hname)
    rw [SortedMap.get?_insert, if_neg hne, h.left other hother]
  right other hother := by
    have hne : other ≠ name := fun heq => hother (heq ▸ hname)
    rw [SortedMap.get?_insert, if_neg hne, h.right other hother]

theorem Confined.foldl {α : Type} {step : Bindings → α → Bindings} {as : List α} {a b : Bindings}
    (h : Confined names v w a b)
    (hstep : ∀ x ∈ as, ∀ a b, Confined names v w a b → Confined names v w (step a x) (step b x)) :
    Confined names v w (as.foldl step a) (as.foldl step b) := by
  induction as generalizing a b with
  | nil => exact h
  | cons x as ih =>
    rw [List.forall_mem_cons] at hstep
    exact ih (hstep.1 a b h) hstep.2

/-! ### Generation -/

namespace Generation

open Matching (Callless)

theorem relating_confined (names : List String) (v w : Bindings) :
    Relating Eq (Confined names v w) (· ∈ names) (· ∈ names) where
  join h := by
    rw [List.forall₂_eq_eq_eq] at h
    rw [h]
  tidy h := by rw [h]
  get? {a b name} h hname := by
    rw [h.agree name hname]
    cases b.get? name with
    | none => exact .none
    | some value => exact .some rfl
  insert := by
    rintro a b name s _ h hname rfl
    exact h.insert hname s

/-- Texts and bindings that are related at the end give results that are related. -/
theorem rel_finish {r r' : Option (String × Bindings)}
    (h : Option.Rel (Offered Eq (Confined names v w)) r r') :
    Option.Rel (fun g g' : Generated => g.text = g'.text ∧ Confined names v w g.vars g'.vars)
      (finish r) (finish r') := by
  cases h with
  | none => exact .none
  | @some r r' h =>
    obtain ⟨text, after⟩ := r
    obtain ⟨text', after'⟩ := r'
    obtain ⟨rfl, hafter⟩ : text = text' ∧ Confined names v w after after' := h
    rw [finish, finish]
    split
    · exact .none
    · exact .some ⟨rfl, hafter⟩

variable (macros : Macro.Registry)

theorem confined_generate {e : Expr} (h : Callless e) (hagree : AgreeOn e.variableNames v w) :
    Draw.Agrees (Option.Rel fun g g' : Generated =>
        g.text = g'.text ∧ Confined e.variableNames v w g.vars g'.vars)
      (generate macros e v) (generate macros e w) := by
  have hself : Parallel Eq (· ∈ e.variableNames) (· ∈ e.variableNames) e e :=
    parallel_self e h (fun _ _ => rfl) (fun _ => Expr.mem_variableNames_of_reference)
      fun _ _ => Expr.mem_variableNames_of_assignment
  rw [generate_eq, generate_eq]
  exact (reduce_agrees macros (relating_confined _ v w) e e hself hagree.confined).bind
    fun _ _ hreduced => .pure (rel_finish hreduced.kept)

end Generation

/-! ### Compiling -/

namespace Matching

open Regex

variable {α β : Type}

/-- The state with other bindings. -/
def Compiling.under (st : Compiling) (w : Bindings) : Compiling :=
  { st with vars := w }

/-- The step leaves the bindings alone, and does the same under others that agree with them on the
variables that are listed. -/
def Scoped (names : List String) (x : Compile α) : Prop :=
  ∀ st w, AgreeOn names st.vars w →
    (x st).2.vars = st.vars ∧ x (st.under w) = ((x st).1, (x st).2.under w)

theorem scoped_pure (a : α) : Scoped names (pure a) :=
  fun _ _ _ => ⟨rfl, rfl⟩

theorem Scoped.bind {x : Compile α} {f : α → Compile β} (hx : Scoped names x)
    (hf : ∀ a, Scoped names (f a)) : Scoped names (x >>= f) := by
  intro st w hagree
  obtain ⟨hvars, hunder⟩ := hx st w hagree
  obtain ⟨hvars', hunder'⟩ := hf (x st).1 (x st).2 w (by rwa [hvars])
  refine ⟨hvars'.trans hvars, ?_⟩
  rw [bind_run f hunder, hunder']
  rfl

/-- What groups have been completed can be asked. -/
theorem Scoped.count {f : Nat → Compile α} (hf : ∀ n, Scoped names (f n)) :
    Scoped names (get >>= fun st => f st.groups.length) :=
  fun st w hagree => hf st.groups.length st w hagree

theorem scoped_place (r : Regex) : Scoped names (place r) :=
  fun _ _ _ => ⟨rfl, rfl⟩

theorem scoped_again (r : Regex) : Scoped names (again r) :=
  fun _ _ _ => ⟨rfl, rfl⟩

theorem scoped_ofAssignment (name : String) (r : Regex) : Scoped names (ofAssignment name r) :=
  fun _ _ _ => ⟨rfl, rfl⟩

theorem scoped_ofRepeated (before : Nat) (r : Regex) : Scoped names (ofRepeated before r) := by
  refine Scoped.count (f := fun n => if n = before then _ else _) fun n => ?_
  split
  · exact (scoped_again r).bind fun _ => scoped_pure _
  · exact scoped_pure _

theorem scoped_reference {name : String} (hname : name ∈ names) :
    Scoped names (get >>= fun st => pure (ofReference name st)) := by
  intro st w hagree
  have hlatest : (st.under w).latest = st.latest := rfl
  have hvalue : (st.under w).vars.get? name = st.vars.get? name := (hagree name hname).symm
  have hreference : ofReference name (st.under w) = ofReference name st := by
    rw [ofReference, ofReference, hlatest, hvalue]
  refine ⟨rfl, ?_⟩
  show (ofReference name (st.under w), _) = _
  rw [hreference]
  rfl

variable (macros : Macro.Registry) (u : Utterance)

mutual

/-- Compiling an expression without calls reads the variables that the expression refers to. -/
theorem scoped_fragment [Engine] (e : Expr) (h : Callless e)
    (hreads : ∀ name, .reference name ∈ e.nodes → name ∈ names) :
    Scoped names (fragment macros u e) := by
  match e with
  | .literal text => exact scoped_pure _
  | .reference name => exact scoped_reference (hreads name (.head _))
  | .raw pattern =>
    rw [fragment]
    split
    · exact (scoped_place _).bind fun _ => scoped_pure _
    · exact scoped_pure _
  | .flexible items | .rigid items | .conjunction items | .disjunction items =>
    rw [fragment]
    exact (scoped_fragments items (fun n hn => h n (.tail _ hn)) fun name hn =>
      hreads name (.tail _ hn)).bind fun _ => scoped_pure _
  | .optional body | .negation body =>
    rw [fragment]
    exact (scoped_fragment body (fun n hn => h n (.tail _ hn)) fun name hn =>
      hreads name (.tail _ hn)).bind fun _ => scoped_pure _
  | .star body =>
    rw [fragment]
    exact .count fun before => (scoped_fragment body (fun n hn => h n (.tail _ hn)) fun name hn =>
      hreads name (.tail _ hn)).bind fun r => (scoped_ofRepeated before r).bind fun r =>
        scoped_pure (optional r)
  | .plus body =>
    rw [fragment]
    exact .count fun before => (scoped_fragment body (fun n hn => h n (.tail _ hn)) fun name hn =>
      hreads name (.tail _ hn)).bind fun r => (scoped_ofRepeated before r).bind fun r =>
        scoped_pure (Regex.group r)
  | .assignment name body =>
    rw [fragment]
    exact (scoped_fragment body (fun n hn => h n (.tail _ hn)) fun name hn =>
      hreads name (.tail _ hn)).bind (scoped_ofAssignment name)
  | .call .. => exact absurd rfl (h _ (.head _))

theorem scoped_fragments [Engine] (es : List Expr) (h : ∀ n ∈ Expr.nodesOf es, n.kind ≠ .call)
    (hreads : ∀ name, .reference name ∈ Expr.nodesOf es → name ∈ names) :
    Scoped names (fragments macros u es) := by
  match es with
  | [] => exact scoped_pure _
  | e :: es =>
    simp only [Expr.nodesOf, List.mem_append] at h hreads
    rw [fragments]
    exact (scoped_fragment e (fun n hn => h n (.inl hn)) fun name hn => hreads name (.inl hn)).bind
      fun _ => (scoped_fragments es (fun n hn => h n (.inr hn)) fun name hn =>
        hreads name (.inr hn)).bind fun _ => scoped_pure _

end

/-- Under bindings that agree on its variables, an expression is compiled to the same pattern. -/
theorem compile_eq [Engine] {e : Expr} (h : Callless e) (hagree : AgreeOn e.variableNames v w) :
    (compile macros u e v).vars = v ∧
      compile macros u e w = { compile macros u e v with vars := w } := by
  obtain ⟨hvars, hunder⟩ := scoped_fragment macros u e h
    (fun _ => Expr.mem_variableNames_of_reference) ⟨v, [], [], 0⟩ w hagree
  refine ⟨hvars, ?_⟩
  have hfragment : fragment macros u e ⟨w, [], [], 0⟩ = _ := hunder
  rw [compile, hfragment]
  rfl

mutual

/-- What an expression assigns is written in it. -/
theorem exists_assignment (e : Expr) {name : String} (h : name ∈ assigned e) :
    ∃ value, .assignment name value ∈ e.nodes := by
  match e with
  | .flexible items | .rigid items | .conjunction items | .disjunction items =>
    exact (exists_assignment_of items h).imp fun _ hn => .tail _ hn
  | .optional body | .star body | .plus body | .negation body =>
    exact (exists_assignment body h).imp fun _ hn => .tail _ hn
  | .assignment other body =>
    rw [assigned, List.mem_append, List.mem_singleton] at h
    rcases h with h | rfl
    · exact (exists_assignment body h).imp fun _ hn => .tail _ hn
    · exact ⟨body, .head _⟩
  | .literal _ | .raw _ | .reference _ | .call .. => cases h

theorem exists_assignment_of (es : List Expr) {name : String} (h : name ∈ assignedBy es) :
    ∃ value, .assignment name value ∈ Expr.nodesOf es := by
  match es with
  | [] => cases h
  | e :: es =>
    rw [assignedBy, List.mem_append] at h
    simp only [Expr.nodesOf, List.mem_append]
    exact h.elim (fun h => (exists_assignment e h).imp fun _ => .inl)
      fun h => (exists_assignment_of es h).imp fun _ => .inr

end

/-- A match sets the variables of its groups to the same texts in both runs. -/
theorem confined_bind {p : Pattern} (hgroups : ∀ name ∈ p.groups, name ∈ names)
    (hvars : p.vars = v) (hagree : AgreeOn names v w) (s : Subject) (last : Cursor) :
    Confined names v w (p.bind s last) (Pattern.bind { p with vars := w } s last) := by
  rw [Pattern.bind, Pattern.bind, hvars]
  refine hagree.confined.foldl fun group hgroup a b h => ?_
  have hname := hgroups _ (List.mem_of_getElem? (List.mem_zipIdx_iff_getElem?.mp hgroup))
  dsimp only
  split
  · exact h.insert hname _
  · exact h

theorem confined_run [Engine] [Engine.Lawful] {e : Expr} (h : Callless e)
    (hagree : AgreeOn e.variableNames v w) (budget : Nat) :
    Option.Rel (Confined e.variableNames v w) (run macros u e v budget)
      (run macros u e w budget) := by
  obtain ⟨hvars, hcompile⟩ := compile_eq macros u h hagree
  have hgroups : (compile macros u e v).groups = assigned e :=
    (opening_fragment macros u e h ⟨v, [], [], 0⟩).groups
  have hnames : ∀ name ∈ (compile macros u e v).groups, name ∈ e.variableNames := by
    intro name hname
    rw [hgroups] at hname
    obtain ⟨value, hnode⟩ := exists_assignment e hname
    exact Expr.mem_variableNames_of_assignment hnode
  -- One pattern is run in both, so the search comes to one end.
  rw [run, run, hcompile, Pattern.run, Pattern.run]
  dsimp only
  split
  · cases ((compile macros u e v).regex.resolve []).find? (subject u)
        (Engine.allowance (compile macros u e v).regex (subject u) budget) with
    | none => exact .none
    | some last => exact .some (confined_bind hnames hvars hagree _ last)
  · exact .none

end Matching

/-! ### Both grammars -/

namespace Expr

open Matching (Callless)
open Generation (Generated)

/-- An expression without calls reads and writes its variables only.  Under bindings that agree on
them, generation draws the same and gives the same text, or none under both, and an utterance
matches under both or under neither; afterwards the bindings agree on the variables of the
expression, and have kept all others. -/
theorem confined_to_variableNames [Engine] [Engine.Lawful] {e : Expr} (h : Callless e)
    (hagree : AgreeOn e.variableNames v w) (macros : Macro.Registry) (src : Source) (u : Utterance)
    (budget : Nat) :
    (Generation.generate macros e v src).2 = (Generation.generate macros e w src).2 ∧
      Option.Rel (fun g g' : Generated =>
          g.text = g'.text ∧ Confined e.variableNames v w g.vars g'.vars)
        (Generation.generate macros e v src).1 (Generation.generate macros e w src).1 ∧
      Option.Rel (Confined e.variableNames v w) (Matching.run macros u e v budget)
        (Matching.run macros u e w budget) :=
  have hgenerate := Generation.confined_generate macros h hagree src
  ⟨hgenerate.2, hgenerate.1, Matching.confined_run macros u h hagree budget⟩

/-- A greeting that is kept, and a name. -/
def hail : Expr :=
  .rigid [.assignment "greeting" (.disjunction [.literal "hi", .literal "hello"]), .reference "name"]

theorem variable_hail : ∀ name ∈ hail.variableNames, name = "greeting" ∨ name = "name" := by
  intro name hname
  obtain ⟨n, hn, hown⟩ := mem_variableNames.mp hname
  simp only [hail, nodes, nodesOf, List.cons_append, List.nil_append, List.append_nil,
    List.mem_cons, List.not_mem_nil, or_false] at hn
  rcases hn with rfl | rfl | rfl | rfl | rfl | rfl <;> simp_all [ownVariable]

/-- A mood that only one side knows has no influence, and stays. -/
theorem confined_to_variableNames_hail :
    let v : Bindings := SortedMap.ofList [("mood", "glad"), ("name", "Ann")]
    let w : Bindings := SortedMap.ofList [("name", "Ann")]
    Callless hail ∧ AgreeOn hail.variableNames v w ∧
      ∃ a b, Matching.run .empty (Utterance.scan "Hello, Ann!" 4) hail v 1000 = some a ∧
        Matching.run .empty (Utterance.scan "Hello, Ann!" 4) hail w 1000 = some b ∧
        Confined hail.variableNames v w a b ∧ a.get? "greeting" = some "hello" := by
  intro v w
  have h : Callless hail := by decide
  have hagree : AgreeOn hail.variableNames v w := by
    intro name hname
    rcases variable_hail name hname with rfl | rfl <;> decide +kernel
  have hrun : Matching.run .empty (Utterance.scan "Hello, Ann!" 4) hail v 1000 =
      some (v.insert "greeting" "hello") := by decide +kernel
  obtain ⟨-, -, hmatch⟩ := confined_to_variableNames h hagree .empty (Source.ofWords fun _ => 0)
    (Utterance.scan "Hello, Ann!" 4) 1000
  rw [hrun] at hmatch
  obtain ⟨b, hb⟩ : ∃ b, Matching.run .empty (Utterance.scan "Hello, Ann!" 4) hail w 1000 = some b := by
    cases hresult : Matching.run .empty (Utterance.scan "Hello, Ann!" 4) hail w 1000 with
    | none => rw [hresult] at hmatch; cases hmatch
    | some b => exact ⟨b, rfl⟩
  rw [hb, Option.rel_some_some] at hmatch
  exact ⟨h, hagree, _, b, hrun, hb, hmatch, SortedMap.get?_insert_self _ _ _⟩

end Expr

end Colloquy
