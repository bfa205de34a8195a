import Colloquy.Proofs.Generation.Silence

/-!
# What becomes of faults

A call that faults leaves the fault mark in the text, and generation gives nothing if the mark is
there in the end.  `Call.Fails` says what it takes for a call to have no output, in terms of the
macros and of the calls among its arguments, and those are just the calls that come to a fault
(`Call.fails_iff`).  Where a text is needed, a value of the host's own is a fault too
(`Call.Faults`).

`OnPath` names the calls that count: those that reduction makes on the way to its text, from the
bindings and the words that it has got to, but none in an alternative that is not chosen.  The mark
cannot get lost on the way, neither when texts are joined (`unmarked_of_intercalate`) nor when they
are tidied (`unmarked_of_tidy`): it holds no blank, so it lies inside a word.  So a text that is
generated has no fault on its path (`unfaulted_of_generate`).
-/

namespace Colloquy

/-! ### Calls and faults -/

namespace Macro

/-- A call, and the bindings under which its arguments are evaluated. -/
structure Call where
  name : String
  args : List Expr
  vars : Bindings

variable (macros : Registry) (u : Utterance)

/-- Evaluating the arguments of the first call makes the second one. -/
inductive Call.Makes : Call → Call → Prop
  | argument {name inner : String} {before args after : List Expr} {vars between : Bindings}
      {values : List Argument}
      (evaluates : evalArguments macros u before vars = (.ok values, between)) :
      Makes ⟨name, before ++ .call inner args :: after, vars⟩ ⟨inner, args, between⟩

/-- The call has no output: no macro has its name, or the macro fails in either way, or a call among
the arguments has no output. -/
inductive Call.Fails : Call → Prop
  | unknown {c : Call} {values : List Argument} {between : Bindings}
      (evaluates : evalArguments macros u c.args c.vars = (.ok values, between))
      (unknown : macros.get? c.name = none) : Fails c
  | failed {c : Call} {values : List Argument} {between : Bindings} {m : Macro} {failure : Failure}
      (evaluates : evalArguments macros u c.args c.vars = (.ok values, between))
      (registered : macros.get? c.name = some m) (fails : (m u values between).1 = .error failure) :
      Fails c
  | argument {c d : Call} (makes : c.Makes macros u d) (fails : Fails d) : Fails c

/-- The macro gives a value of the host's own. -/
inductive Call.GivesHostValue : Call → Prop
  | gives {c : Call} {values : List Argument} {between : Bindings} {m : Macro}
      (evaluates : evalArguments macros u c.args c.vars = (.ok values, between))
      (registered : macros.get? c.name = some m) (gives : (m u values between).1 = .ok .hostValue) :
      GivesHostValue c

/-- The call faults where a text is needed: it has no output, or one that has no text. -/
def Call.Faults (c : Call) : Prop :=
  c.Fails macros u ∨ c.GivesHostValue macros u

/-- What the call comes to. -/
def Call.outcome (c : Call) : Except Fault Output :=
  (evalCall macros u c.name c.args c.vars).1

variable {macros u}

/-- Evaluations in a row: a fault ends them. -/
theorem Eval.bind_run {α β : Type} {x : Eval α} {vars between : Bindings} {a : α}
    (h : x vars = (.ok a, between)) (f : α → Eval β) : (x >>= f : Eval β) vars = f a between := by
  rw [Generation.Eval.bind_apply, h]

theorem Eval.bind_fault {α β : Type} {x : Eval α} {vars between : Bindings} {fault : Fault}
    (h : x vars = (.error fault, between)) (f : α → Eval β) :
    (x >>= f : Eval β) vars = (.error fault, between) := by
  rw [Generation.Eval.bind_apply, h]

theorem Eval.of_bind_fault {α β : Type} {x : Eval α} {f : α → Eval β} {vars left : Bindings}
    {fault : Fault} (h : (x >>= f : Eval β) vars = (.error fault, left)) :
    x vars = (.error fault, left) ∨
      ∃ a between, x vars = (.ok a, between) ∧ f a between = (.error fault, left) := by
  rcases hx : x vars with ⟨fault' | a, between⟩
  · rw [Eval.bind_fault hx] at h
    cases h
    exact .inl rfl
  · rw [Eval.bind_run hx] at h
    exact .inr ⟨a, between, rfl, h⟩

theorem evalArguments_append (before after : List Expr) :
    evalArguments macros u (before ++ after) = (do
      let values ← evalArguments macros u before
      let others ← evalArguments macros u after
      return values ++ others) := by
  induction before with
  | nil => simp [evalArguments]
  | cons e es ih => simp [evalArguments, ih]

theorem invoke_unknown {name : String} (h : macros.get? name = none) (values : List Argument)
    (vars : Bindings) : (macros.invoke name u values vars).1 = .error (.unknown name) := by
  rw [Registry.invoke, h]

theorem invoke_registered {name : String} {m : Macro} (h : macros.get? name = some m)
    (values : List Argument) (vars : Bindings) :
    (macros.invoke name u values vars).1 = (m u values vars).1.mapError (Failure.toFault name) := by
  rw [Registry.invoke, h]
  dsimp only
  rcases m u values vars with ⟨_ | _, _⟩ <;> rfl

/-- With its arguments evaluated, the call comes to what its macro is invoked to. -/
theorem Call.outcome_eq {c : Call} {values : List Argument} {between : Bindings}
    (evaluates : evalArguments macros u c.args c.vars = (.ok values, between)) :
    c.outcome macros u = (macros.invoke c.name u values between).1 := by
  rw [outcome, evalCall, Eval.bind_run evaluates]

/-- A call among the arguments is made as any call is. -/
theorem evalArgument_call (name : String) (args : List Expr) :
    evalArgument macros u (.call name args) = (do
      let output ← evalCall macros u name args
      return .output output) := by
  simp [evalArgument, evalCall]

/-- A fault of an argument is a fault of the call. -/
theorem Call.Makes.outcome_eq {c d : Call} (h : c.Makes macros u d) {fault : Fault}
    (hfault : d.outcome macros u = .error fault) : c.outcome macros u = .error fault := by
  obtain ⟨evaluates⟩ := h
  rename_i name inner before args after vars between values
  obtain ⟨left, hinner⟩ : ∃ left, evalCall macros u inner args between = (.error fault, left) :=
    ⟨_, Prod.ext hfault rfl⟩
  have hargs : evalArguments macros u (before ++ .call inner args :: after) vars =
      (.error fault, left) := by
    rw [evalArguments_append, Eval.bind_run evaluates, evalArguments, evalArgument_call]
    exact Eval.bind_fault (Eval.bind_fault (Eval.bind_fault hinner _) _) _
  rw [Call.outcome, evalCall, Eval.bind_fault hargs]

theorem Call.Fails.outcome_eq {c : Call} (h : c.Fails macros u) :
    ∃ fault, c.outcome macros u = .error fault := by
  induction h with
  | unknown evaluates unknown =>
    rw [Call.outcome_eq evaluates, invoke_unknown unknown]
    exact ⟨_, rfl⟩
  | failed evaluates registered fails =>
    rw [Call.outcome_eq evaluates, invoke_registered registered, fails]
    exact ⟨_, rfl⟩
  | argument makes _ ih =>
    obtain ⟨fault, hfault⟩ := ih
    exact ⟨fault, makes.outcome_eq hfault⟩

theorem evalArgument_eq_call {e : Expr} {vars left : Bindings} {fault : Fault}
    (h : evalArgument macros u e vars = (.error fault, left)) :
    ∃ name args, e = .call name args ∧ Call.outcome macros u ⟨name, args, vars⟩ = .error fault := by
  cases e with
  | call name args =>
    rw [evalArgument_call] at h
    rcases Eval.of_bind_fault h with h | ⟨_, _, _, h⟩
    · exact ⟨name, args, rfl, congrArg Prod.fst h⟩
    · cases h
  | _ =>
    rw [evalArgument] at h
    cases h

/-- Arguments fault only where a call among them does. -/
theorem exists_call_of_fault {fault : Fault} {es : List Expr} {vars left : Bindings}
    (h : evalArguments macros u es vars = (.error fault, left)) :
    ∃ before name args after values between, es = before ++ .call name args :: after ∧
      evalArguments macros u before vars = (.ok values, between) ∧
      Call.outcome macros u ⟨name, args, between⟩ = .error fault := by
  induction es generalizing vars with
  | nil => cases h
  | cons e es ih =>
    rw [evalArguments] at h
    rcases Eval.of_bind_fault h with hfirst | ⟨first, between, hfirst, hothers⟩
    · -- The first argument fails: it is a call.
      obtain ⟨name, args, rfl, hfault⟩ := evalArgument_eq_call hfirst
      exact ⟨[], name, args, es, [], vars, rfl, rfl, hfault⟩
    · rcases Eval.of_bind_fault hothers with hothers | ⟨_, _, _, h⟩
      · obtain ⟨before, name, args, after, values, between', rfl, hbefore, hfault⟩ := ih hothers
        refine ⟨e :: before, name, args, after, first :: values, between', rfl, ?_, hfault⟩
        rw [evalArguments, Eval.bind_run hfirst, Eval.bind_run hbefore]
        rfl
      · cases h

theorem Call.fails_of_outcome {c : Call} {fault : Fault} (h : c.outcome macros u = .error fault) :
    c.Fails macros u := by
  rcases hargs : evalArguments macros u c.args c.vars with ⟨fault' | values, between⟩
  · obtain ⟨before, inner, args, after, values, between, hsplit, evaluates, hinner⟩ :=
      exists_call_of_fault hargs
    -- An argument has failed, and it is a smaller call.
    have hmakes : c.Makes macros u ⟨inner, args, between⟩ := by
      obtain ⟨name, _, vars⟩ := c
      obtain rfl : _ = _ := hsplit
      exact .argument evaluates
    have : sizeOf args < sizeOf c.args := by
      have hmem : .call inner args ∈ c.args := hsplit ▸ List.mem_append_right before (.head _)
      have := List.sizeOf_lt_of_mem hmem
      simp only [Expr.call.sizeOf_spec] at this
      omega
    exact .argument hmakes (Call.fails_of_outcome hinner)
  · rw [Call.outcome_eq hargs] at h
    cases hget : macros.get? c.name with
    | none => exact .unknown hargs hget
    | some m =>
      rw [invoke_registered hget] at h
      cases hm : (m u values between).1 with
      | error failure => exact .failed hargs hget hm
      | ok output =>
        rw [hm] at h
        cases h
termination_by sizeOf c.args

/-- The calls that fail are those without an output. -/
theorem Call.fails_iff {c : Call} : c.Fails macros u ↔ ∃ fault, c.outcome macros u = .error fault :=
  ⟨Call.Fails.outcome_eq, fun ⟨_, h⟩ => Call.fails_of_outcome h⟩

theorem Call.GivesHostValue.outcome_eq {c : Call} (h : c.GivesHostValue macros u) :
    c.outcome macros u = .ok .hostValue := by
  obtain ⟨evaluates, registered, gives⟩ := h
  rw [Call.outcome_eq evaluates, invoke_registered registered, gives]
  rfl

end Macro

namespace Generation

open Macro (Call)

/-! ### Marks that stay -/

theorem not_isBlank_of_mem_faultMark : ∀ c ∈ faultMark.toList, (!Text.isBlank c) = true := by
  simp [faultMark, Text.isBlank, Text.CodePoints.contains, Text.CodePoints.hasCode,
    Text.blankCodePoints]

/-- What begins a text begins it after it is closed up, if it holds no space. -/
theorem prefix_closeUp {pattern cs : List Char} (hspace : ' ' ∉ pattern) (h : pattern <+: cs) :
    pattern <+: closeUp cs := by
  induction cs generalizing pattern with
  | nil => exact h
  | cons c cs ih =>
    cases pattern with
    | nil => exact List.nil_prefix
    | cons x xs =>
      obtain ⟨rfl, hxs⟩ := List.cons_prefix_cons.mp h
      have hx : ¬(x = ' ' ∧ cs.head?.any isClosing) := by
        rintro ⟨rfl, -⟩
        exact hspace (.head _)
      rw [closeUp_cons, if_neg hx]
      exact List.cons_prefix_cons.mpr ⟨rfl, ih (fun hmem => hspace (.tail _ hmem)) hxs⟩

theorem infix_closeUp {pattern cs : List Char} (hspace : ' ' ∉ pattern) (h : pattern <:+: cs) :
    pattern <:+: closeUp cs := by
  induction cs with
  | nil => exact h
  | cons c cs ih =>
    rcases List.infix_cons_iff.mp h with h | h
    · exact (prefix_closeUp hspace h).isInfix
    · rw [closeUp_cons]
      split
      · exact ih h
      · exact (ih h).trans (List.suffix_cons _ _).isInfix

/-- Tidying takes no mark away: the mark lies inside a word, and no space does. -/
theorem unmarked_of_tidy {text : String} (h : Unmarked (tidy text)) : Unmarked text := by
  intro hmark
  obtain ⟨word, hword, hinside⟩ := Text.exists_run_of_infix not_isBlank_of_mem_faultMark
    faultMark_ne_nil hmark
  refine h ?_
  rw [tidy, String.toList_ofList, Text.collapse, String.toList_ofList]
  exact infix_closeUp space_notMem_faultMark (hinside.trans (Text.infix_intercalate hword))

/-- Joining takes no mark away. -/
theorem unmarked_of_intercalate {texts : List String} (h : Unmarked (String.intercalate " " texts))
    {text : String} (htext : text ∈ texts) : Unmarked text := by
  intro hmark
  refine h ?_
  rw [String.toList_intercalate]
  exact hmark.trans (Text.infix_intercalate (List.mem_map_of_mem htext))

/-! ### The path of a reduction -/

variable {macros : Macro.Registry}

/-- Once the first expressions are reduced, the row goes on with the others. -/
theorem reduceAll_append {before : List Expr} (after : List Expr) {vars between : Bindings}
    {src rest : Source} {parts : List String}
    (h : reduceAll macros before vars src = ((some parts, between), rest)) :
    (reduceAll macros (before ++ after) vars src).1.1 =
      (reduceAll macros after between rest).1.1.map (parts ++ ·) := by
  induction before generalizing vars src parts with
  | nil =>
    rw [reduceAll] at h
    cases h
    simp
  | cons e es ih =>
    rw [reduceAll_cons, Draw.bind_apply] at h
    rw [List.cons_append, reduceAll_cons, Draw.bind_apply]
    rcases hfirst : reduce macros e vars src with ⟨⟨_ | first, left⟩, next⟩
    · rw [hfirst] at h
      cases h
    · rw [hfirst] at h
      dsimp only at h ⊢
      rw [Draw.bind_apply] at h ⊢
      rcases hothers : reduceAll macros es left next with ⟨⟨_ | others, left'⟩, next'⟩
      · rw [hothers] at h
        cases h
      · rw [hothers] at h
        cases h
        -- The items of the front have all succeeded, so the rest is reached.
        show ((reduceAll macros (es ++ after) left next).1.1).map (first :: ·) = _
        rw [ih hothers, Option.map_map]
        rfl

/-- The results of the first expressions come first, and the others go on from there. -/
theorem reduceEach_append {saved : Bindings} {before : List Expr} (after : List Expr)
    {vars between : Bindings} {src rest : Source} {earlier : List (String × Bindings)}
    (h : reduceEach macros saved before vars src = ((earlier, between), rest)) :
    (reduceEach macros saved (before ++ after) vars src).1.1 =
      earlier ++ (reduceEach macros saved after between rest).1.1 := by
  induction before generalizing vars src earlier with
  | nil =>
    rw [reduceEach] at h
    cases h
    rfl
  | cons e es ih =>
    rw [reduceEach_cons, Draw.bind_apply, Draw.bind_apply] at h
    rw [List.cons_append, reduceEach_cons, Draw.bind_apply, Draw.bind_apply]
    rcases hothers : reduceEach macros saved es (reduce macros e saved src).1.2
      (reduce macros e saved src).2 with ⟨⟨others, left⟩, next⟩
    rw [hothers] at h
    cases h
    show _ ++ (reduceEach macros saved (es ++ after) _ _).1.1 = _
    rw [ih hothers, List.append_assoc]

/-- A row that is reduced has its first expression reduced. -/
theorem exists_first_of_reduceAll {e : Expr} {es : List Expr} {vars : Bindings} {src : Source}
    {texts : List String} (h : (reduceAll macros (e :: es) vars src).1.1 = some texts) :
    ∃ first ∈ texts, (reduce macros e vars src).1.1 = some first := by
  rw [reduceAll_cons, Draw.bind_apply] at h
  rcases hfirst : reduce macros e vars src with ⟨⟨_ | first, left⟩, next⟩
  · rw [hfirst] at h
    cases h
  · rw [hfirst] at h
    dsimp only at h
    rw [Draw.bind_apply] at h
    obtain ⟨others, -, rfl⟩ := Option.map_eq_some_iff.mp h
    exact ⟨first, .head _, rfl⟩

/-- An alternative that succeeds stands among the results, after those of the earlier ones. -/
theorem getElem?_reduceEach {saved : Bindings} {before : List Expr} (after : List Expr) {e : Expr}
    {vars between : Bindings} {src rest : Source} {earlier : List (String × Bindings)}
    (reached : reduceEach macros saved before vars src = ((earlier, between), rest)) {text : String}
    (succeeds : (reduce macros e saved rest).1.1 = some text) :
    ∃ left, (reduceEach macros saved (before ++ e :: after) vars src).1.1[earlier.length]? =
      some (text, left) := by
  rw [reduceEach_append _ reached, reduceEach_cons, Draw.bind_apply, Draw.bind_apply]
  rcases hreduce : reduce macros e saved rest with ⟨⟨result, left⟩, next⟩
  obtain rfl : result = some text := by rw [← succeeds, hreduce]
  refine ⟨left, ?_⟩
  rw [List.getElem?_append_right (le_refl _), Nat.sub_self]
  rfl

theorem chooseUniform_of_mem {α : Type} {items : List α} {src : Source} {a : α}
    (h : items[(Source.index items.length src).1]? = some a) :
    (Selection.chooseUniform items src).1 = some a := by
  cases items with
  | nil => cases h
  | cons => exact h

/-- A call that faults leaves the mark. -/
theorem reduce_faulting_call {c : Call} (h : c.Faults macros .silence) (src : Source) :
    (reduce macros (.call c.name c.args) c.vars src).1.1 = some faultMark := by
  rw [reduce_call]
  rcases h with hfails | hhost
  · obtain ⟨fault, houtcome⟩ := hfails.outcome_eq
    rw [Call.outcome] at houtcome
    rw [houtcome]
    rfl
  · have houtcome := hhost.outcome_eq
    rw [Call.outcome] at houtcome
    rw [houtcome]
    rfl

/-- Reducing the expression, from these bindings and this source, makes the call, and not in an
alternative that is not chosen. -/
inductive OnPath (macros : Macro.Registry) : Expr → Bindings → Source → Call → Prop
  | call {name : String} {args : List Expr} {vars : Bindings} {src : Source} :
      OnPath macros (.call name args) vars src ⟨name, args, vars⟩
  | item {before after : List Expr} {e : Expr} {vars between : Bindings} {src rest : Source}
      {parts : List String} {c : Call}
      (reached : reduceAll macros before vars src = ((some parts, between), rest))
      (onPath : OnPath macros e between rest c) :
      OnPath macros (.rigid (before ++ e :: after)) vars src c
  | value {name : String} {value : Expr} {vars : Bindings} {src : Source} {c : Call}
      (onPath : OnPath macros value vars src c) : OnPath macros (.assignment name value) vars src c
  | alternative {before after : List Expr} {e : Expr} {vars between left : Bindings}
      {src rest last : Source} {earlier results : List (String × Bindings)} {c : Call}
      (reached : reduceEach macros vars before vars src = ((earlier, between), rest))
      (succeeds : (reduce macros e vars rest).1.1.isSome = true)
      (all : reduceEach macros vars (before ++ e :: after) vars src = ((results, left), last))
      (chosen : (Source.index results.length last).1 = earlier.length)
      (onPath : OnPath macros e vars rest c) :
      OnPath macros (.disjunction (before ++ e :: after)) vars src c

/-- No call on the way to a text without a mark faults. -/
theorem OnPath.not_faults {e : Expr} {vars : Bindings} {src : Source} {c : Call}
    (h : OnPath macros e vars src c) {text : String}
    (hreduce : (reduce macros e vars src).1.1 = some text) (hunmarked : Unmarked text) :
    ¬c.Faults macros .silence := by
  induction h generalizing text with
  | call =>
    intro hfaults
    rw [reduce_faulting_call hfaults] at hreduce
    obtain rfl : faultMark = text := Option.some.inj hreduce
    exact hunmarked List.infix_rfl
  | @item before after e vars between src rest parts c reached _ ih =>
    rw [reduce_rigid, Draw.bind_apply] at hreduce
    obtain ⟨texts, htexts, rfl⟩ := Option.map_eq_some_iff.mp hreduce
    rw [reduceAll_append _ reached] at htexts
    obtain ⟨others, hothers, rfl⟩ := Option.map_eq_some_iff.mp htexts
    obtain ⟨first, hmem, hfirst⟩ := exists_first_of_reduceAll hothers
    exact ih hfirst (unmarked_of_intercalate hunmarked (List.mem_append_right parts hmem))
  | @value name value vars src c _ ih =>
    rw [reduce_assignment, Draw.bind_apply] at hreduce
    obtain ⟨raw, hraw, rfl⟩ := Option.map_eq_some_iff.mp hreduce
    -- Tidying would not have removed the mark.
    exact ih hraw (unmarked_of_tidy hunmarked)
  | @alternative before after e vars between left src rest last earlier results c reached succeeds
      all chosen _ ih =>
    obtain ⟨raw, hraw⟩ := Option.isSome_iff_exists.mp succeeds
    obtain ⟨kept, hkept⟩ := getElem?_reduceEach after reached hraw
    rw [all, ← chosen] at hkept
    rw [reduce_disjunction, Draw.bind_apply, all, Draw.bind_apply] at hreduce
    dsimp only at hreduce
    -- The draw has fallen on this alternative.
    rw [chooseUniform_of_mem hkept] at hreduce
    obtain rfl : raw = text := Option.some.inj hreduce
    exact ih hraw hunmarked

/-- Where a text is generated, no call on the way to it has faulted. -/
theorem unfaulted_of_generate {e : Expr} {vars : Bindings} {src : Source} {g : Generated}
    (hgenerated : (generate macros e vars src).1 = some g) {c : Call}
    (hpath : OnPath macros e vars src c) : ¬c.Faults macros .silence := by
  rw [generate_apply] at hgenerated
  rcases hreduce : reduce macros e vars src with ⟨⟨_ | raw, after⟩, rest⟩
  · rw [hreduce] at hgenerated
    cases hgenerated
  · rw [hreduce, kept, finish] at hgenerated
    split at hgenerated
    · cases hgenerated
    · rename_i hmark
      exact hpath.not_faults (by rw [hreduce]) (occursIn_iff.not.mp hmark)

/-- A host with a name, a value of its own and a macro that crashes. -/
def host : Macro.Registry :=
  SortedMap.ofList [("NAME", fun _ _ vars => (.ok (.text "Ann"), vars)),
    ("HANDLE", fun _ _ vars => (.ok .hostValue, vars)),
    ("DOWN", fun _ _ vars => (.error .crashed, vars))]

/-- A greeting by name, with an alternative that faults. -/
def hostGreeting : Expr :=
  .rigid [.literal "hello", .disjunction [.call "DOWN" [],
    .assignment "name" (.call "NAME" [.literal "short"])]]

theorem unfaulted_of_generate_hostGreeting :
    let src := Source.ofWords fun _ => 0x8000000000000000
    let c : Call := ⟨"NAME", [.literal "short"], SortedMap.empty⟩
    (generate host hostGreeting SortedMap.empty src).1 =
        some ⟨"hello Ann", SortedMap.empty.insert "name" "Ann"⟩ ∧
      OnPath host hostGreeting SortedMap.empty src c ∧ ¬c.Faults host .silence := by
  intro src c
  have hgenerated : (generate host hostGreeting SortedMap.empty src).1 =
      some ⟨"hello Ann", SortedMap.empty.insert "name" "Ann"⟩ := by decide +kernel
  have hpath : OnPath host hostGreeting SortedMap.empty src c := by
    have halternative : OnPath host (.disjunction ([.call "DOWN" []] ++
        .assignment "name" (.call "NAME" [.literal "short"]) :: [])) SortedMap.empty src c :=
      .alternative rfl (by decide +kernel) rfl (by decide +kernel) (.value .call)
    exact @OnPath.item _ [.literal "hello"] [] _ _ _ _ _ _ _ rfl halternative
  exact ⟨hgenerated, hpath, unfaulted_of_generate hgenerated hpath⟩

/-- A value of the host's own may be handed to another macro, and the text of that one is given. -/
theorem hostValue_handed_on :
    let src := Source.ofWords fun _ => 0
    let e : Expr := .call "NAME" [.call "HANDLE" []]
    let c : Call := ⟨"NAME", [.call "HANDLE" []], SortedMap.empty⟩
    let d : Call := ⟨"HANDLE", [], SortedMap.empty⟩
    (generate host e SortedMap.empty src).1 = some ⟨"Ann", SortedMap.empty⟩ ∧
      OnPath host e SortedMap.empty src c ∧ c.Makes host .silence d ∧
      d.GivesHostValue host .silence :=
  ⟨by decide +kernel, .call, @Call.Makes.argument _ _ _ _ [] [] [] _ _ _ rfl, .gives rfl rfl rfl⟩

end Generation

end Colloquy
