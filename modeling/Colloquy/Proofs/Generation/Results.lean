import Mathlib
import Colloquy.Generation
import Colloquy.Proofs.Random.Words

/-!
# What generation can result in

`Yields` is the set of results that an expression can have, without a word on random sources: a text
with the bindings after it, or none.  A disjunction looks at each alternative from the bindings that
were held before it; it goes on with the result of one that succeeds, and has none if all fail.

`generate_results` says that these are the results of generation: what it gives from any source is
among them, and each of them is given from some source.  The first half is an induction over the
expression (`reduce_yields`).  The second one collects the words that lead to a result
(`reachable_reduce`); an alternative that is not picked draws too, so it needs words of its own, and
has them because it has some result (`exists_yields`).  Lists with more members than there are words
are left out there: no word would pick the last of them.
-/

namespace Colloquy.Generation

/-! ### Results -/

/-- What a macro's output can stand for. -/
inductive Replies : Except Macro.Fault Macro.Output → Option String → Prop
  | text {s : String} : Replies (.ok (.text s)) (some s)
  | choice {options : SortedSet String} {s : String} (offered : s ∈ options.toList) :
      Replies (.ok (.choices options)) (some s)
  | noChoice {options : SortedSet String} (empty : options.toList = []) :
      Replies (.ok (.choices options)) none
  | holds : Replies (.ok (.flag true)) (some "")
  | fails : Replies (.ok (.flag false)) none
  | noText : Replies (.ok .hostValue) (some faultMark)
  | fault {f : Macro.Fault} : Replies (.error f) (some faultMark)

mutual

/-- The expression can reduce, from the given bindings, to a text with the bindings after it, or to
nothing. -/
inductive Yields (macros : Macro.Registry) : Expr → Bindings → Option (String × Bindings) → Prop
  | literal {text : String} {vars : Bindings} : Yields macros (.literal text) vars (some (text, vars))
  | rigid {items : List Expr} {vars after : Bindings} {parts : List String}
      (all : YieldsAll macros items vars (some (parts, after))) :
      Yields macros (.rigid items) vars (some (String.intercalate " " parts, after))
  | rigidFails {items : List Expr} {vars : Bindings} (fails : YieldsAll macros items vars none) :
      Yields macros (.rigid items) vars none
  | alternative {items : List Expr} {e : Expr} {vars : Bindings} {result : String × Bindings}
      (listed : e ∈ items) (yields : Yields macros e vars (some result)) :
      Yields macros (.disjunction items) vars (some result)
  | noAlternative {items : List Expr} {vars : Bindings}
      (fail : ∀ e ∈ items, Yields macros e vars none) :
      Yields macros (.disjunction items) vars none
  | bound {name text : String} {vars : Bindings} (bound : vars.get? name = some text) :
      Yields macros (.reference name) vars (some (text, vars))
  | unbound {name : String} {vars : Bindings} (unbound : vars.get? name = none) :
      Yields macros (.reference name) vars none
  | assignment {name text : String} {value : Expr} {vars after : Bindings}
      (yields : Yields macros value vars (some (text, after))) :
      Yields macros (.assignment name value) vars (some (tidy text, after.insert name (tidy text)))
  | assignmentFails {name : String} {value : Expr} {vars : Bindings}
      (fails : Yields macros value vars none) : Yields macros (.assignment name value) vars none
  | call {name : String} {args : List Expr} {vars after : Bindings}
      {output : Except Macro.Fault Macro.Output} {reply : Option String}
      (evaluates : Macro.evalCall macros .silence name args vars = (output, after))
      (replies : Replies output reply) :
      Yields macros (.call name args) vars (reply.map fun text => (text, after))
  | notGenerated {e : Expr} {vars : Bindings}
      (kind : Grammar.generation.allowed.has e.kind = false) : Yields macros e vars none

/-- The expressions can reduce one after the other, each from the bindings that the one before it
left, to their texts, or one of them to nothing. -/
inductive YieldsAll (macros : Macro.Registry) :
    List Expr → Bindings → Option (List String × Bindings) → Prop
  | nil {vars : Bindings} : YieldsAll macros [] vars (some ([], vars))
  | cons {e : Expr} {es : List Expr} {vars between after : Bindings} {first : String}
      {others : List String} (head : Yields macros e vars (some (first, between)))
      (tail : YieldsAll macros es between (some (others, after))) :
      YieldsAll macros (e :: es) vars (some (first :: others, after))
  | headFails {e : Expr} {es : List Expr} {vars : Bindings} (head : Yields macros e vars none) :
      YieldsAll macros (e :: es) vars none
  | tailFails {e : Expr} {es : List Expr} {vars between : Bindings} {first : String}
      (head : Yields macros e vars (some (first, between)))
      (tail : YieldsAll macros es between none) : YieldsAll macros (e :: es) vars none

end

/-- What generation can come to: a result whose text does not hold the fault mark, tidied, or
nothing. -/
inductive Results (macros : Macro.Registry) (e : Expr) (vars : Bindings) : Option Generated → Prop
  | generated {raw : String} {after : Bindings} (yields : Yields macros e vars (some (raw, after)))
      (unmarked : ¬ faultMark.toList <:+: raw.toList) :
      Results macros e vars (some ⟨tidy raw, after⟩)
  | fails (yields : Yields macros e vars none) : Results macros e vars none
  | marked {raw : String} {after : Bindings} (yields : Yields macros e vars (some (raw, after)))
      (marked : faultMark.toList <:+: raw.toList) : Results macros e vars none

variable {macros : Macro.Registry}

/-! ### Reduction, step by step -/

/-- The text and the bindings of a reduction that did not fail. -/
def kept {α : Type} : Option α × Bindings → Option (α × Bindings)
  | (some a, vars) => some (a, vars)
  | (none, _) => none

/-- Reductions in a row: the second goes on with the bindings and the words that the first
leaves. -/
theorem Reduce.bind_apply {α β : Type} (x : Reduce α) (f : α → Reduce β) (vars : Bindings) :
    (x >>= f) vars = (x vars >>= fun r => f r.1 r.2 : Draw (β × Bindings)) := rfl

theorem Reduce.get_bind {β : Type} (f : Bindings → Reduce β) (vars : Bindings) :
    (get >>= f) vars = f vars vars := rfl

theorem Reduce.set_bind {β : Type} (saved : Bindings) (f : PUnit → Reduce β) (vars : Bindings) :
    (set saved >>= f) vars = f ⟨⟩ saved := rfl

theorem Reduce.draw_bind {α β : Type} (x : Draw α) (f : α → Reduce β) (vars : Bindings) :
    ((liftM x : Reduce α) >>= f) vars = (x >>= fun a => f a vars : Draw (β × Bindings)) := rfl

/-- A rigid sequence reduces its items in turn and puts blanks between them. -/
theorem reduce_rigid (items : List Expr) (vars : Bindings) :
    reduce macros (.rigid items) vars =
      (do let r ← (reduceAll macros items vars : Draw _)
          return (r.1.map (String.intercalate " "), r.2)) := by
  rw [reduce, Reduce.bind_apply]
  congr 1
  funext ⟨parts, after⟩
  cases parts <;> rfl

/-- A choice reduces each alternative from the same bindings, and then draws one of those that have
not failed. -/
theorem reduce_disjunction (items : List Expr) (vars : Bindings) :
    reduce macros (.disjunction items) vars =
      (do let r ← (reduceEach macros vars items vars : Draw _)
          let chosen ← (Selection.chooseUniform r.1 : Draw _)
          return (chosen.map Prod.fst, (chosen.map Prod.snd).getD vars)) := by
  rw [reduce, Reduce.get_bind, Reduce.bind_apply]
  congr 1
  funext ⟨results, after⟩
  rw [Reduce.draw_bind]
  congr 1
  funext chosen
  cases chosen <;> rfl

/-- An assignment keeps the tidied text of its value. -/
theorem reduce_assignment (name : String) (value : Expr) (vars : Bindings) :
    reduce macros (.assignment name value) vars =
      (do let r ← (reduce macros value vars : Draw _)
          return (r.1.map tidy, (r.1.map fun text => r.2.insert name (tidy text)).getD r.2)) := by
  rw [reduce, Reduce.bind_apply]
  congr 1
  funext ⟨text, after⟩
  cases text <;> rfl

/-- A call comes to what the macro has put out. -/
theorem reduce_call (name : String) (args : List Expr) (vars : Bindings) :
    reduce macros (.call name args) vars =
      ofOutput (Macro.evalCall macros .silence name args vars).1
        (Macro.evalCall macros .silence name args vars).2 := by
  rw [reduce]
  rfl

/-- Items are reduced in turn, up to the first that fails. -/
theorem reduceAll_cons (e : Expr) (es : List Expr) (vars : Bindings) :
    reduceAll macros (e :: es) vars =
      (do let r ← (reduce macros e vars : Draw _)
          match r with
          | (none, after) => return (none, after)
          | (some first, after) => do
            let others ← (reduceAll macros es after : Draw _)
            return (others.1.map (first :: ·), others.2)) := by
  rw [reduceAll, Reduce.bind_apply]
  congr 1
  funext ⟨first, after⟩
  cases first with
  | none => rfl
  | some first =>
    show (reduceAll macros es >>= _ : Reduce _) after = _
    rw [Reduce.bind_apply]
    congr 1
    funext ⟨others, _⟩
    cases others <;> rfl

/-- Alternatives are reduced from the bindings that were saved, and those that fail are left out. -/
theorem reduceEach_cons (saved : Bindings) (e : Expr) (es : List Expr) (vars : Bindings) :
    reduceEach macros saved (e :: es) vars =
      (do let r ← (reduce macros e saved : Draw _)
          let others ← (reduceEach macros saved es r.2 : Draw _)
          return ((kept r).toList ++ others.1, others.2)) := by
  rw [reduceEach, Reduce.set_bind, Reduce.bind_apply]
  congr 1
  funext ⟨text, after⟩
  cases text with
  | none => rfl
  | some text =>
    show (get >>= _ : Reduce _) after = _
    rw [Reduce.get_bind, Reduce.bind_apply]
    rfl

/-- The kinds of nodes that generation can have. -/
theorem has_allowed_generation (k : Kind) :
    Grammar.generation.allowed.has k =
      [Kind.literal, .rigid, .disjunction, .reference, .assignment, .call].contains k := by
  cases k <;> decide

/-- Nodes that it cannot have come to nothing. -/
theorem reduce_eq_none {e : Expr} (kind : Grammar.generation.allowed.has e.kind = false)
    (vars : Bindings) : reduce macros e vars = (pure (none, vars) : Draw _) := by
  rw [has_allowed_generation] at kind
  cases e with
  | literal | rigid | disjunction | reference | assignment | call => cases kind
  | flexible | conjunction | optional | star | plus | negation | raw => rw [reduce]; rfl

/-! ### From every source, one of the results -/

/-- Whatever a macro puts out, what is made of it is one of its replies. -/
theorem ofOutput_replies (output : Except Macro.Fault Macro.Output) (after : Bindings)
    (src : Source) : ∃ reply, Replies output reply ∧
      kept (ofOutput output after src).1 = reply.map fun text => (text, after) := by
  rcases output with _ | _ | options | (_ | _) | _
  · exact ⟨_, .fault, rfl⟩
  · exact ⟨_, .text, rfl⟩
  · rcases Decidable.em (options.toList = []) with hempty | hne
    · refine ⟨_, .noChoice hempty, ?_⟩
      rw [ofOutput, hempty]
      rfl
    · obtain ⟨s, hs, hchosen⟩ := Selection.chooseUniform_mem hne src
      refine ⟨_, .choice hs, ?_⟩
      show kept ((Selection.chooseUniform options.toList src).1, after) = _
      rw [hchosen]
      rfl
  · exact ⟨_, .fails, rfl⟩
  · exact ⟨_, .holds, rfl⟩
  · exact ⟨_, .noText, rfl⟩

mutual

/-- What reduction comes to is one of the results, from every source. -/
theorem reduce_yields (e : Expr) (vars : Bindings) (src : Source) :
    Yields macros e vars (kept (reduce macros e vars src).1) := by
  cases e with
  | literal text => rw [reduce]; exact .literal
  | rigid items =>
    have hall := reduceAll_yields items vars src
    rw [reduce_rigid, Draw.bind_apply]
    generalize reduceAll macros items vars src = r at hall ⊢
    rcases r with ⟨⟨_ | parts, after⟩, rest⟩
    · exact .rigidFails hall
    · exact .rigid hall
  -- The text that is drawn is that of one alternative, with its bindings.
  | disjunction items =>
    obtain ⟨hsome, hnone⟩ := reduceEach_yields items vars vars src
    rw [reduce_disjunction, Draw.bind_apply, Draw.bind_apply]
    generalize reduceEach macros vars items vars src = r at hsome hnone ⊢
    rcases r with ⟨⟨results, after⟩, rest⟩
    rcases Decidable.em (results = []) with rfl | hne
    · exact .noAlternative (hnone rfl)
    · obtain ⟨r, hr, hchosen⟩ := Selection.chooseUniform_mem hne rest
      rw [hchosen]
      obtain ⟨e, he, hyields⟩ := hsome r hr
      exact .alternative he hyields
  | reference name =>
    rw [reduce]
    show Yields macros _ _ (kept (vars.get? name, vars))
    cases h : vars.get? name with
    | none => exact .unbound h
    | some text => exact .bound h
  | assignment name value =>
    have hvalue := reduce_yields value vars src
    rw [reduce_assignment, Draw.bind_apply]
    generalize reduce macros value vars src = r at hvalue ⊢
    rcases r with ⟨⟨_ | text, after⟩, rest⟩
    · exact .assignmentFails hvalue
    · exact .assignment hvalue
  | call name args =>
    rw [reduce_call]
    obtain ⟨reply, hreplies, heq⟩ := ofOutput_replies
      (Macro.evalCall macros .silence name args vars).1
      (Macro.evalCall macros .silence name args vars).2 src
    rw [heq]
    exact .call rfl hreplies
  -- These have no part in generation.
  | flexible | conjunction | optional | star | plus | negation | raw =>
    rw [reduce_eq_none (has_allowed_generation _)]
    exact .notGenerated (has_allowed_generation _)

/-- What items reduce to in turn, they can. -/
theorem reduceAll_yields (es : List Expr) (vars : Bindings) (src : Source) :
    YieldsAll macros es vars (kept (reduceAll macros es vars src).1) := by
  cases es with
  | nil => rw [reduceAll]; exact .nil
  | cons e es =>
    have hhead := reduce_yields e vars src
    rw [reduceAll_cons, Draw.bind_apply]
    generalize reduce macros e vars src = r at hhead ⊢
    rcases r with ⟨⟨_ | first, between⟩, rest⟩
    · exact .headFails hhead
    · have htail := reduceAll_yields es between rest
      show YieldsAll macros _ _
        (kept ((reduceAll macros es between >>= fun r => pure (r.1.map (first :: ·), r.2) :
          Draw _) rest).1)
      rw [Draw.bind_apply]
      generalize reduceAll macros es between rest = t at htail ⊢
      rcases t with ⟨⟨_ | others, after⟩, _⟩
      · exact .tailFails hhead htail
      · exact .cons hhead htail

/-- What is left of the alternatives are results of some of them; nothing is left only if all can
fail. -/
theorem reduceEach_yields (es : List Expr) (saved vars : Bindings) (src : Source) :
    (∀ r ∈ (reduceEach macros saved es vars src).1.1, ∃ e ∈ es, Yields macros e saved (some r)) ∧
      ((reduceEach macros saved es vars src).1.1 = [] → ∀ e ∈ es, Yields macros e saved none) := by
  cases es with
  | nil => exact ⟨fun r hr => (List.not_mem_nil hr).elim, fun _ e he => (List.not_mem_nil he).elim⟩
  | cons e es =>
    have hhead := reduce_yields e saved src
    rw [reduceEach_cons, Draw.bind_apply, Draw.bind_apply]
    generalize reduce macros e saved src = first at hhead ⊢
    obtain ⟨r, rest⟩ := first
    obtain ⟨hsome, hnone⟩ := reduceEach_yields es saved r.2 rest
    generalize reduceEach macros saved es r.2 rest = last at hsome hnone ⊢
    obtain ⟨⟨others, after⟩, _⟩ := last
    show (∀ x ∈ (kept r).toList ++ others, _) ∧ ((kept r).toList ++ others = [] → _)
    constructor
    · intro x hx
      rcases List.mem_append.mp hx with hx | hx
      · refine ⟨e, List.mem_cons_self, ?_⟩
        rw [← Option.mem_toList.mp hx]
        exact hhead
      · obtain ⟨e', he', hyields⟩ := hsome x hx
        exact ⟨e', List.mem_cons_of_mem _ he', hyields⟩
    · intro h
      obtain ⟨hr, hothers⟩ := List.append_eq_nil_iff.mp h
      rw [Option.toList_eq_nil_iff.mp hr] at hhead
      exact List.forall_mem_cons.mpr ⟨hhead, hnone hothers⟩

end

/-- Every expression has a result. -/
theorem exists_yields (e : Expr) (vars : Bindings) : ∃ r, Yields macros e vars r :=
  ⟨_, reduce_yields e vars (Source.ofWords fun _ => 0)⟩

/-! ### Each of the results, from some source -/

/-- No choice is made from a list that is longer than there are words: neither the alternatives of
a disjunction nor the texts that a macro offers are. -/
structure Addressable (macros : Macro.Registry) (e : Expr) : Prop where
  alternatives : ∀ items, .disjunction items ∈ e.nodes → items.length ≤ UInt64.size
  offers : ∀ name m, macros.get? name = some m → ∀ u args vars options after,
    m u args vars = (.ok (.choices options), after) → options.toList.length ≤ UInt64.size

/-- Parts of an addressable expression are addressable. -/
theorem Addressable.of_mem {e : Expr} {items : List Expr} (h : Addressable macros e)
    (hitems : Expr.nodesOf items ⊆ e.nodes) : ∀ item ∈ items, Addressable macros item :=
  fun _ hitem => ⟨fun alternatives hnode =>
    h.alternatives alternatives (hitems (Expr.nodes_subset_nodesOf hitem hnode)), h.offers⟩

/-- Every choice of a result for each of the listed expressions, when one result is given. -/
theorem exists_results {es : List Expr} {e : Expr} (he : e ∈ es) {vars : Bindings}
    {r : Option (String × Bindings)} (h : Yields macros e vars r) :
    ∃ rs, List.Forall₂ (fun e r => Yields macros e vars r) es rs ∧ r ∈ rs := by
  induction es with
  | nil => cases he
  | cons d es ih =>
    rcases List.mem_cons.mp he with rfl | he
    · have hothers : List.Forall₂ (fun e r => Yields macros e vars r) es
          (es.map fun e => (exists_yields e vars).choose) :=
        List.forall₂_map_right_iff.mpr
          (List.forall₂_same.mpr fun e _ => (exists_yields e vars).choose_spec)
      exact ⟨_, .cons h hothers, List.mem_cons_self⟩
    · obtain ⟨rs, hrs, hr⟩ := ih he
      obtain ⟨first, hfirst⟩ := exists_yields d vars
      exact ⟨first :: rs, .cons hfirst hrs, List.mem_cons_of_mem _ hr⟩

/-- Evaluations in a row: a fault ends them. -/
theorem Eval.bind_apply {α β : Type} (x : Macro.Eval α) (f : α → Macro.Eval β) (vars : Bindings) :
    (x >>= f : Macro.Eval β) vars =
      match x vars with
      | (.ok a, between) => f a between
      | (.error fault, between) => (.error fault, between) := by
  show StateT.bind x (ExceptT.bindCont f) vars = _
  unfold StateT.bind
  rcases x vars with ⟨_ | _, _⟩ <;> rfl

/-- What a call offers was offered by the macro of its name. -/
theorem evalCall_choices {u : Utterance} {name : String} {args : List Expr}
    {vars after : Bindings} {options : SortedSet String}
    (h : Macro.evalCall macros u name args vars = (.ok (.choices options), after)) :
    ∃ m, macros.get? name = some m ∧
      ∃ values between, m u values between = (.ok (.choices options), after) := by
  obtain ⟨values, between, hinvoke⟩ : ∃ values between,
      macros.invoke name u values between = (.ok (.choices options), after) := by
    rw [Macro.evalCall, Eval.bind_apply] at h
    split at h
    · exact ⟨_, _, h⟩
    · cases h
  rw [Macro.Registry.invoke] at hinvoke
  -- The macro exists and accepts its arguments: else there would be no output.
  split at hinvoke
  · cases hinvoke
  · rename_i m hm
    split at hinvoke
    · rename_i heq
      cases hinvoke
      exact ⟨m, hm, values, between, heq⟩
    · cases hinvoke

/-- Every reply to an output comes about with some words. -/
theorem exists_gives_ofOutput {output : Except Macro.Fault Macro.Output} {after : Bindings}
    (hlen : ∀ options, output = .ok (.choices options) → options.toList.length ≤ UInt64.size)
    {reply : Option String} (h : Replies output reply) :
    ∃ ws r, (ofOutput output after).Gives ws r ∧ kept r = reply.map fun text => (text, after) := by
  cases h with
  | @choice options s hs =>
    obtain ⟨w, hw⟩ := Selection.exists_gives_chooseUniform (hlen options rfl) hs
    exact ⟨_, (some s, after), hw.map fun chosen => (chosen, after), rfl⟩
  | @noChoice options hempty =>
    refine ⟨[], (none, after), ?_, rfl⟩
    rw [ofOutput, hempty]
    exact .pure _
  | text | noText | fault => exact ⟨[], (some _, after), .pure _, rfl⟩
  | holds => exact ⟨[], (some "", after), .pure _, rfl⟩
  | fails => exact ⟨[], (none, after), .pure _, rfl⟩

/-- Some words lead reduction to the result. -/
def Reachable {α : Type} (x : Draw (Option α × Bindings)) (r : Option (α × Bindings)) : Prop :=
  ∃ ws after, x.Gives ws after ∧ kept after = r

mutual

/-- Reduction comes to each result of the expression on some words. -/
theorem reachable_reduce (e : Expr) (hc : Addressable macros e) {vars : Bindings}
    {r : Option (String × Bindings)} (h : Yields macros e vars r) :
    Reachable (reduce macros e vars) r := by
  cases e with
  | literal text =>
    cases h with
    | literal => exact ⟨[], (some text, vars), by rw [reduce]; exact .pure _, rfl⟩
    | notGenerated kind => exact nomatch (has_allowed_generation _).symm.trans kind
  | rigid items =>
    have hitems : ∀ item ∈ items, Addressable macros item :=
      hc.of_mem (by rw [Expr.nodes]; exact List.subset_cons_self _ _)
    rw [reduce_rigid]
    cases h with
    | rigid all =>
      obtain ⟨ws, ⟨_ | _, _⟩, hws, heq⟩ := reachable_reduceAll items hitems all
      · cases heq
      cases heq
      exact ⟨_, _, hws.map _, rfl⟩
    | rigidFails all =>
      obtain ⟨ws, ⟨_ | _, _⟩, hws, heq⟩ := reachable_reduceAll items hitems all
      · exact ⟨_, _, hws.map _, rfl⟩
      · cases heq
    | notGenerated kind => exact nomatch (has_allowed_generation _).symm.trans kind
  | disjunction items =>
    have hitems : ∀ item ∈ items, Addressable macros item :=
      hc.of_mem (by rw [Expr.nodes]; exact List.subset_cons_self _ _)
    have hlen : items.length ≤ UInt64.size := hc.alternatives items (by simp [Expr.nodes])
    rw [reduce_disjunction]
    cases h with
    -- The other alternatives must come to something as well, whatever it is, so that the words for
    -- them are known.
    | alternative listed yields =>
      obtain ⟨rs, hrs, hr⟩ := exists_results listed yields
      obtain ⟨ws, _, hws⟩ := exists_gives_reduceEach items hitems vars hrs
      -- There are no more results to draw from than alternatives.
      have hcount : rs.reduceOption.length ≤ UInt64.size :=
        (List.reduceOption_length_le rs).trans (hrs.length_eq ▸ hlen)
      obtain ⟨w, hw⟩ := Selection.exists_gives_chooseUniform hcount
        (List.reduceOption_mem_iff.mpr hr)
      exact ⟨_, _, hws.bind (hw.map _), rfl⟩
    | noAlternative fail =>
      have hrs : List.Forall₂ (fun e r => Yields macros e vars r) items (items.map fun _ => none) :=
        List.forall₂_map_right_iff.mpr (List.forall₂_same.mpr fail)
      obtain ⟨ws, after, hws⟩ := exists_gives_reduceEach items hitems vars hrs
      have hnone : (items.map fun _ => (none : Option (String × Bindings))).reduceOption = [] := by
        simp [List.reduceOption]
      rw [hnone] at hws
      exact ⟨_, (none, vars), hws.bind (.pure _), rfl⟩
    | notGenerated kind => exact nomatch (has_allowed_generation _).symm.trans kind
  | reference name =>
    refine ⟨[], (vars.get? name, vars), by rw [reduce]; exact .pure _, ?_⟩
    cases h with
    | bound bound => rw [bound]; rfl
    | unbound unbound => rw [unbound]; rfl
    | notGenerated kind => exact nomatch (has_allowed_generation _).symm.trans kind
  | assignment name value =>
    have hvalue : Addressable macros value :=
      ⟨fun items hnode => hc.alternatives items (by rw [Expr.nodes]; exact .tail _ hnode), hc.offers⟩
    rw [reduce_assignment]
    cases h with
    | assignment yields =>
      obtain ⟨ws, ⟨_ | _, _⟩, hws, heq⟩ := reachable_reduce value hvalue yields
      · cases heq
      cases heq
      exact ⟨_, _, hws.map _, rfl⟩
    | assignmentFails fails =>
      obtain ⟨ws, ⟨_ | _, _⟩, hws, heq⟩ := reachable_reduce value hvalue fails
      · exact ⟨_, _, hws.map _, rfl⟩
      · cases heq
    | notGenerated kind => exact nomatch (has_allowed_generation _).symm.trans kind
  | call name args =>
    rw [reduce_call]
    cases h with
    | @call _ _ _ after _ _ evaluates replies =>
      rw [evaluates]
      refine exists_gives_ofOutput (fun options heq => ?_) replies
      obtain ⟨m, hm, _, _, hoffer⟩ :=
        evalCall_choices (evaluates.trans (congrArg (·, after) heq))
      exact hc.offers name m hm _ _ _ _ _ hoffer
    | notGenerated kind => exact nomatch (has_allowed_generation _).symm.trans kind
  | flexible | conjunction | optional | star | plus | negation | raw =>
    cases h 
    rw [reduce_eq_none (has_allowed_generation _)]
    exact ⟨[], (none, vars), .pure _, rfl⟩

theorem reachable_reduceAll (es : List Expr) (hc : ∀ e ∈ es, Addressable macros e) {vars : Bindings}
    {r : Option (List String × Bindings)} (h : YieldsAll macros es vars r) :
    Reachable (reduceAll macros es vars) r := by
  cases es with
  | nil => 
    cases h
    exact ⟨[], (some [], vars), .pure _, rfl⟩
  | cons e es => 
    obtain ⟨hce, hces⟩ := List.forall_mem_cons.mp hc
    rw [reduceAll_cons]
    cases h with
    | @cons _ _ _ between after first others head tail =>
      obtain ⟨ws, ⟨_ | _, _⟩, hws, heq⟩ := reachable_reduce e hce head
      · cases heq
      cases heq
      obtain ⟨vs, ⟨_ | _, _⟩, hvs, heq⟩ := reachable_reduceAll es hces tail
      · cases heq
      cases heq
      exact ⟨_, _, hws.bind (hvs.map _), rfl⟩
    | headFails head =>
      obtain ⟨ws, ⟨_ | _, after⟩, hws, heq⟩ := reachable_reduce e hce head
      · exact ⟨_, (none, after), hws.bind (.pure _), rfl⟩
      · cases heq
    | tailFails head tail =>
      obtain ⟨ws, ⟨_ | _, _⟩, hws, heq⟩ := reachable_reduce e hce head
      · cases heq
      cases heq
      obtain ⟨vs, ⟨_ | _, after⟩, hvs, heq⟩ := reachable_reduceAll es hces tail
      · exact ⟨_, (none, after), hws.bind (hvs.map _), rfl⟩
      · cases heq

theorem exists_gives_reduceEach (es : List Expr) (hc : ∀ e ∈ es, Addressable macros e)
    {saved : Bindings} (vars : Bindings) {rs : List (Option (String × Bindings))}
    (h : List.Forall₂ (fun e r => Yields macros e saved r) es rs) :
    ∃ ws after, (reduceEach macros saved es vars).Gives ws (rs.reduceOption, after) := by
  cases h with
  | nil => exact ⟨[], vars, .pure _⟩
  | @cons e r es rs head tail =>
    obtain ⟨hce, hces⟩ := List.forall_mem_cons.mp hc
    rw [reduceEach_cons]
    obtain ⟨ws, between, hws, rfl⟩ := reachable_reduce e hce head
    obtain ⟨vs, after, hvs⟩ := exists_gives_reduceEach es hces between.2 tail
    have hlist : (kept between :: rs).reduceOption = (kept between).toList ++ rs.reduceOption := by
      cases kept between <;> rfl
    rw [hlist]
    exact ⟨_, after, hws.bind (hvs.map fun others => ((kept between).toList ++ others.1, others.2))⟩

end

/-! ### Generation -/

theorem occursIn_iff {pattern text : List Char} :
    occursIn pattern text = true ↔ pattern <:+: text := by
  induction text with
  | nil => simp [occursIn]
  | cons c cs ih =>
    rw [occursIn, Bool.or_eq_true, List.isPrefixOf_iff_prefix, ih, List.infix_cons_iff]

/-- What generation makes of a reduction. -/
def finish : Option (String × Bindings) → Option Generated
  | some (raw, vars) =>
    if occursIn faultMark.toList raw.toList then none else some ⟨tidy raw, vars⟩
  | none => none

theorem generate_eq (e : Expr) (vars : Bindings) :
    generate macros e vars =
      (do let r ← (reduce macros e vars : Draw _)
          return finish (kept r)) := by
  show (reduce macros e vars >>= _ : Draw _) = _
  congr 1
  funext ⟨raw, after⟩
  cases raw with
  | none => rfl
  | some raw =>
    show (if occursIn faultMark.toList raw.toList then _ else _ : Draw _) = pure (finish _)
    rw [kept, finish]
    split <;> rfl

theorem results_iff {e : Expr} {vars : Bindings} {result : Option Generated} :
    Results macros e vars result ↔ ∃ r, Yields macros e vars r ∧ finish r = result := by
  constructor
  · rintro (⟨yields, unmarked⟩ | yields | ⟨yields, marked⟩)
    · exact ⟨_, yields, if_neg (occursIn_iff.not.mpr unmarked)⟩
    · exact ⟨_, yields, rfl⟩
    · exact ⟨_, yields, if_pos (occursIn_iff.mpr marked)⟩
  · rintro ⟨_ | ⟨raw, after⟩, yields, rfl⟩
    · exact .fails yields
    · rw [finish]
      split
      · rename_i h
        exact .marked yields (occursIn_iff.mp h)
      · rename_i h
        exact .generated yields (occursIn_iff.not.mp h)

/-- Generation comes to a result of the expression from every source, and to each of them from some
source. -/
theorem generate_results (macros : Macro.Registry) (e : Expr) (vars : Bindings) :
    (∀ src, Results macros e vars (generate macros e vars src).1) ∧
      (Addressable macros e → ∀ result, Results macros e vars result →
        ∃ src, (generate macros e vars src).1 = result) := by
  refine ⟨fun src => ?_, fun hc result h => ?_⟩
  · rw [generate_eq, Draw.bind_apply]
    exact results_iff.mpr ⟨_, reduce_yields e vars src, rfl⟩
  · obtain ⟨r, hyields, rfl⟩ := results_iff.mp h
    obtain ⟨ws, after, hws, rfl⟩ := reachable_reduce e hc hyields
    obtain ⟨src, hsrc⟩ := Source.exists_begins ws
    refine ⟨src, ?_⟩
    rw [generate_eq, Draw.bind_apply, hws src hsrc]
    rfl

/-- A greeting by name, or a plain one that is kept. -/
def greetings : Expr :=
  .disjunction [.rigid [.literal "hi", .reference "name"], .assignment "x" (.literal "hello")]

theorem addressable_greetings : Addressable SortedMap.empty greetings where
  alternatives items h := by
    simp only [greetings, Expr.nodes, Expr.nodesOf, List.mem_cons, List.mem_append,
      List.not_mem_nil, reduceCtorEq, or_false, Expr.disjunction.injEq] at h
    rw [h]
    decide
  offers _ _ h := nomatch h

theorem results_greetings : Results SortedMap.empty greetings SortedMap.empty
    (some ⟨"hello", SortedMap.empty.insert "x" "hello"⟩) := by
  have htidy : tidy "hello" = "hello" := by decide +kernel
  have hassigned : Yields SortedMap.empty (.assignment "x" (.literal "hello")) SortedMap.empty
      (some ("hello", SortedMap.empty.insert "x" "hello")) := by
    have hliteral : Yields SortedMap.empty (.literal "hello") SortedMap.empty
        (some ("hello", SortedMap.empty)) := .literal
    have h : Yields SortedMap.empty (.assignment "x" (.literal "hello")) _ _ := .assignment hliteral
    rwa [htidy] at h
  have hchosen : Yields SortedMap.empty greetings SortedMap.empty _ :=
    .alternative (.tail _ (.head _)) hassigned
  have h := Results.generated hchosen (by decide)
  rwa [htidy] at h

/-- Without a name, the plain greeting is given from some source. -/
theorem generate_results_greetings :
    ∃ src, (generate SortedMap.empty greetings SortedMap.empty src).1 =
      some ⟨"hello", SortedMap.empty.insert "x" "hello"⟩ :=
  (generate_results SortedMap.empty greetings SortedMap.empty).2 addressable_greetings _
    results_greetings

end Colloquy.Generation
