import Mathlib
import Colloquy.Proofs.Flow.Rules
import Colloquy.Proofs.Flow.ScoreOrder

/-!
# The update rules as a greedy process

`Greedy` says what a run of the update rules does, without a word on lists of rules that are left or
on limits: as long as some rule that has not fired matches the present bindings, the first such rule
in the order fires.  `Setting.Fires` is one firing, `Setting.Repeats` the repetitions that follow
it.

`run_eq_ok_iff` says that a run succeeds just with what the process comes to within the allowed
number of applications.  What the process comes to is a fixpoint (`Greedy.fixpoint`), and no rule
fires twice on the way (`Greedy.nodup`).
-/

namespace Colloquy

/-- The outcome after more applications. -/
def RuleOutcome.advance (outcome : RuleOutcome) (vars : Bindings) (evaluations n : Nat) :
    RuleOutcome :=
  { outcome with vars, evaluations, applications := outcome.applications + n }

/-- The outcome after a firing of the rule. -/
def RuleOutcome.fire (outcome : RuleOutcome) (rule : Rule) (tried : Nat) : RuleOutcome :=
  { outcome with
    evaluations := outcome.evaluations + tried
    applications := outcome.applications + 1
    fired := outcome.fired ++ [rule.precondition.source] }

namespace Rules

/-! ### The process -/

/-- Under the bindings `vars` the rule at `place` is the first in the order that matches, among
those that are not in `fired`; its match leaves `updated`. -/
structure Setting.Fires (given : Setting) (order : List (Nat × Rule)) (fired : List Nat)
    (vars : Bindings) (place : Nat) (rule : Rule) (updated : Bindings) : Prop where
  unfired : place ∉ fired
  applies : given.applies rule vars = some updated
  first : ∃ passed rest, order = passed ++ (place, rule) :: rest ∧
    ∀ r ∈ passed, r.1 ∉ fired → given.applies r.2 vars = none

/-- Applying the rule `n` times again, each time with a change, leads to bindings under which it
does not match or changes nothing. -/
inductive Setting.Repeats (given : Setting) (rule : Rule) : Bindings → Nat → Bindings → Prop
  | settled {vars : Bindings}
      (unchanged : given.applies rule vars = none ∨ given.applies rule vars = some vars) :
      Repeats given rule vars 0 vars
  | again {vars next last : Bindings} {n : Nat} (applies : given.applies rule vars = some next)
      (changed : next ≠ vars) (rest : Repeats given rule next n last) :
      Repeats given rule vars (n + 1) last

/-- What the application of a rule without postcondition comes to, with its repetitions. -/
def Setting.Applied (given : Setting) (rule : Rule) (updated : Bindings) (n : Nat)
    (next : Bindings) : Prop :=
  if rule.repeating then given.Repeats rule updated n next else n = 0 ∧ next = updated

/-- From the bindings on, with the rules at the places `fired` used up, the rules of the third list
fire one after the other, in `n` applications; the last bindings and the answer remain. -/
inductive Greedy (given : Setting) (order : List (Nat × Rule)) :
    (fired : List Nat) → Bindings → List (Nat × Rule) → (n : Nat) → Bindings →
      Option RuleAnswer → Prop
  | settled {fired : List Nat} {vars : Bindings}
      (fixpoint : ∀ r ∈ order, r.1 ∉ fired → given.applies r.2 vars = none) :
      Greedy given order fired vars [] 0 vars none
  | answers {fired : List Nat} {vars updated : Bindings} {place : Nat} {rule : Rule}
      (fires : given.Fires order fired vars place rule updated)
      (answering : rule.postcondition.isSome = true) :
      Greedy given order fired vars [(place, rule)] 1 vars
        (some ⟨place, rule.score, delta vars updated⟩)
  | applies {fired : List Nat} {vars updated next last : Bindings} {place n m : Nat} {rule : Rule}
      {rounds : List (Nat × Rule)} {answer : Option RuleAnswer}
      (fires : given.Fires order fired vars place rule updated)
      (silent : rule.postcondition.isSome = false) (applied : given.Applied rule updated n next)
      (rest : Greedy given order (place :: fired) next rounds m last answer) :
      Greedy given order fired vars ((place, rule) :: rounds) (n + 1 + m) last answer

/-- What the rules are called. -/
def names (rounds : List (Nat × Rule)) : List String :=
  rounds.map fun r => r.2.precondition.source

variable {given : Setting} {order : List (Nat × Rule)}

/-! ### Scanning -/

/-- The rules that have not fired, in order. -/
def untapped (order : List (Nat × Rule)) (fired : List Nat) : List (Nat × Rule) :=
  order.filter fun r => r.1 ∉ fired

/-- Nothing fires if no rule matches. -/
theorem scan_eq_none_iff {vars : Bindings} (rules : List (Nat × Rule)) :
    (scan given vars rules).1 = none ↔ ∀ r ∈ rules, given.applies r.2 vars = none := by
  induction rules with
  | nil => simp [scan]
  | cons r rest ih =>
    obtain ⟨place, rule⟩ := r
    rw [List.forall_mem_cons, ← ih]
    cases happlies : given.applies rule vars <;> simp [scan, happlies]

/-- The first rule that matches fires, and the others remain. -/
theorem scan_eq_some_iff {vars updated : Bindings} {place : Nat} {rule : Rule}
    {remaining : List (Nat × Rule)} (rules : List (Nat × Rule)) :
    (scan given vars rules).1 = some ⟨place, rule, updated, remaining⟩ ↔
      ∃ passed rest, rules = passed ++ (place, rule) :: rest ∧ remaining = passed ++ rest ∧
        given.applies rule vars = some updated ∧ ∀ r ∈ passed, given.applies r.2 vars = none := by
  induction rules generalizing remaining with
  | nil => simp [scan]
  | cons r rest ih =>
    obtain ⟨place', rule'⟩ := r
    cases happlies : given.applies rule' vars with
    | some updated' =>
      rw [scan, happlies]
      dsimp only
      constructor
      · intro h
        obtain ⟨rfl, rfl, rfl, rfl⟩ := Firing.mk.inj (Option.some.inj h)
        exact ⟨[], rest, rfl, rfl, happlies, by simp⟩
      · rintro ⟨passed, rest', hsplit, rfl, hmatch, hpassed⟩
        cases passed with
        | nil =>
          obtain ⟨heq, rfl⟩ := List.cons.inj hsplit
          obtain ⟨rfl, rfl⟩ := Prod.mk.inj heq
          rw [happlies] at hmatch
          rw [Option.some.inj hmatch]
          rfl
        | cons r passed =>
          -- The first rule matches, so it is not passed over.
          obtain ⟨rfl, -⟩ := List.cons.inj hsplit
          have hnone := hpassed _ List.mem_cons_self
          rw [happlies] at hnone
          cases hnone
    | none =>
      rw [scan, happlies]
      dsimp only
      rw [Option.map_eq_some_iff]
      constructor
      · rintro ⟨f, hscan, hf⟩
        obtain ⟨rfl, rfl, rfl, rfl⟩ := Firing.mk.inj hf
        obtain ⟨passed, rest', hsplit, hremaining, hmatch, hpassed⟩ := ih.mp hscan
        exact ⟨(place', rule') :: passed, rest', by rw [hsplit]; rfl, by rw [hremaining]; rfl,
          hmatch, List.forall_mem_cons.mpr ⟨happlies, hpassed⟩⟩
      · rintro ⟨passed, rest', hsplit, rfl, hmatch, hpassed⟩
        cases passed with
        | nil =>
          obtain ⟨heq, rfl⟩ := List.cons.inj hsplit
          obtain ⟨rfl, rfl⟩ := Prod.mk.inj heq
          rw [happlies] at hmatch
          cases hmatch
        | cons r passed =>
          obtain ⟨rfl, rfl⟩ := List.cons.inj hsplit
          exact ⟨_, ih.mpr ⟨passed, rest', rfl, rfl, hmatch,
            (List.forall_mem_cons.mp hpassed).2⟩, rfl⟩

/-- Where a rule that has not fired stands in the order, it stands among those that have not fired,
and after it has fired these are the others. -/
theorem untapped_split {passed rest : List (Nat × Rule)} {fired : List Nat} {place : Nat}
    {rule : Rule} (hnodup : (order.map (·.1)).Nodup)
    (hsplit : order = passed ++ (place, rule) :: rest) (hunfired : place ∉ fired) :
    untapped order fired = untapped passed fired ++ (place, rule) :: untapped rest fired ∧
      untapped order (place :: fired) = untapped passed fired ++ untapped rest fired := by
  subst hsplit
  rw [List.map_append, List.map_cons, List.nodup_append, List.nodup_cons] at hnodup
  obtain ⟨-, ⟨hrest, -⟩, hpassed⟩ := hnodup
  -- No other rule stands at this place.
  have hothers : ∀ rules : List (Nat × Rule), (∀ r ∈ rules, r.1 ≠ place) →
      untapped rules (place :: fired) = untapped rules fired := by
    intro rules hne
    refine List.filter_congr fun r hr => ?_
    simp [hne r hr]
  constructor
  · simp [untapped, hunfired]
  · rw [← hothers passed fun r hr heq =>
        hpassed _ (List.mem_map_of_mem hr) place List.mem_cons_self heq,
      ← hothers rest fun r hr heq => hrest (List.mem_map.mpr ⟨r, hr, heq⟩)]
    simp [untapped]

/-- Scanning the rules that have not fired finds the rule that fires. -/
theorem scan_untapped_iff {fired : List Nat} {vars updated : Bindings} {place : Nat} {rule : Rule}
    {remaining : List (Nat × Rule)} (hnodup : (order.map (·.1)).Nodup) :
    (scan given vars (untapped order fired)).1 = some ⟨place, rule, updated, remaining⟩ ↔
      given.Fires order fired vars place rule updated ∧
        remaining = untapped order (place :: fired) := by
  rw [scan_eq_some_iff]
  constructor
  · rintro ⟨passed, rest, hsplit, rfl, happlies, hpassed⟩
    obtain ⟨front, back, horder, rfl, hback⟩ := List.filter_eq_append_iff.mp hsplit
    obtain ⟨between, rest', rfl, hfired, hunfired, rfl⟩ := List.filter_eq_cons_iff.mp hback
    have hplace : place ∉ fired := of_decide_eq_true hunfired
    have horder' : order = (front ++ between) ++ (place, rule) :: rest' := by
      rw [horder, List.append_assoc]
    -- Between the last rule that was passed and this one stand only rules that have fired.
    have hnone : untapped between fired = [] := List.filter_eq_nil_iff.mpr hfired
    refine ⟨⟨hplace, happlies, _, _, horder', ?_⟩, ?_⟩
    · intro r hr hr'
      rcases List.mem_append.mp hr with hr | hr
      · exact hpassed r (List.mem_filter.mpr ⟨hr, decide_eq_true hr'⟩)
      · exact absurd (decide_eq_true hr') (hfired r hr)
    · rw [(untapped_split hnodup horder' hplace).2, untapped, List.filter_append]
      show _ = _ ++ untapped between fired ++ _
      rw [hnone, List.append_nil]
      rfl
  · rintro ⟨⟨hplace, happlies, passed, rest, horder, hpassed⟩, rfl⟩
    obtain ⟨hbefore, hafter⟩ := untapped_split hnodup horder hplace
    refine ⟨_, _, hbefore, hafter, happlies, fun r hr => ?_⟩
    obtain ⟨hr, hunfired⟩ := List.mem_filter.mp hr
    exact hpassed r hr (of_decide_eq_true hunfired)

/-- Nothing fires if no rule matches that has not fired yet. -/
theorem scan_untapped_eq_none_iff {fired : List Nat} {vars : Bindings} :
    (scan given vars (untapped order fired)).1 = none ↔
      ∀ r ∈ order, r.1 ∉ fired → given.applies r.2 vars = none := by
  rw [scan_eq_none_iff]
  simp only [untapped, List.mem_filter, decide_eq_true_eq, and_imp]

/-! ### Repeating -/

/-- A rule changes nothing if it does not match, or leaves the bindings as they are. -/
theorem changes_eq_none_iff {rule : Rule} {vars : Bindings} :
    given.changes rule vars = none ↔
      given.applies rule vars = none ∨ given.applies rule vars = some vars := by
  unfold Setting.changes
  cases given.applies rule vars <;> simp [Option.filter]

/-- A rule changes something if it matches and leaves other bindings. -/
theorem changes_eq_some_iff {rule : Rule} {vars next : Bindings} :
    given.changes rule vars = some next ↔ given.applies rule vars = some next ∧ next ≠ vars := by
  unfold Setting.changes
  rw [Option.filter_eq_some_iff]
  simp

/-- What applying a rule over and over comes to, within the cap. -/
theorem repeats_of_reapply {rule : Rule} (left : Nat) : ∀ {outcome o : RuleOutcome},
    reapply given rule left outcome = .ok o →
      ∃ n, given.Repeats rule outcome.vars n o.vars ∧ n ≤ left ∧
        o = outcome.advance o.vars o.evaluations n := by
  induction left with
  | zero =>
    intro outcome o h
    unfold reapply at h
    split at h
    · rename_i hnone
      obtain rfl := Except.ok.inj h
      exact ⟨0, .settled (changes_eq_none_iff.mp hnone), le_refl 0, rfl⟩
    · cases h
  | succ left ih =>
    intro outcome o h
    unfold reapply at h
    split at h
    · rename_i hnone
      obtain rfl := Except.ok.inj h
      exact ⟨0, .settled (changes_eq_none_iff.mp hnone), Nat.zero_le _, rfl⟩
    · -- A change takes one from the cap, and the rest of it counts from the changed bindings.
      rename_i next hnext
      obtain ⟨happlies, hchanged⟩ := changes_eq_some_iff.mp hnext
      obtain ⟨n, hrepeats, hle, ho⟩ := ih h
      refine ⟨n + 1, .again happlies hchanged hrepeats, Nat.succ_le_succ hle, ?_⟩
      rw [ho, RuleOutcome.advance, RuleOutcome.advance]
      simp only [Nat.add_assoc, Nat.add_comm 1 n]

/-- Repetitions that fit the cap are carried out. -/
theorem reapply_of_repeats {rule : Rule} {vars last : Bindings} {n : Nat}
    (h : given.Repeats rule vars n last) :
    ∀ {left : Nat} {outcome : RuleOutcome}, outcome.vars = vars → n ≤ left →
      ∃ evaluations,
        reapply given rule left outcome = .ok (outcome.advance last evaluations n) := by
  induction h with
  | @settled vars unchanged =>
    intro left outcome hvars _
    subst hvars
    have hnone := changes_eq_none_iff.mpr unchanged
    refine ⟨outcome.evaluations + 1, ?_⟩
    cases left <;> rw [reapply, hnone] <;> rfl
  | @again vars next last n applies changed rest ih =>
    intro left outcome hvars hle
    subst hvars
    obtain ⟨left, rfl⟩ := Nat.exists_eq_add_of_lt (Nat.lt_of_lt_of_le (Nat.succ_pos n) hle)
    have hnext := changes_eq_some_iff.mpr ⟨applies, changed⟩
    obtain ⟨evaluations, h⟩ := @ih left (outcome.advance next
      (outcome.evaluations + 1) 1) rfl (by omega)
    refine ⟨evaluations, ?_⟩
    rw [Nat.zero_add, reapply, hnext]
    refine h.trans ?_
    simp only [RuleOutcome.advance, Nat.add_assoc, Nat.add_comm 1 n]

/-! ### Running -/

/-- The rest of what a rule without postcondition does when it fires. -/
def settle (given : Setting) (rule : Rule) (left : Nat) (outcome : RuleOutcome) :
    Except NonConvergence RuleOutcome :=
  if rule.repeating then reapply given rule left outcome else .ok outcome

/-- What firing a rule without postcondition comes to. -/
theorem applied_of_settle {rule : Rule} {left : Nat} {outcome o : RuleOutcome}
    (h : settle given rule left outcome = .ok o) :
    ∃ n, given.Applied rule outcome.vars n o.vars ∧ n ≤ left ∧
      o = outcome.advance o.vars o.evaluations n := by
  unfold settle at h
  unfold Setting.Applied
  split_ifs at h ⊢ with hrepeating
  · exact repeats_of_reapply left h
  · obtain rfl := Except.ok.inj h
    exact ⟨0, ⟨rfl, rfl⟩, Nat.zero_le _, rfl⟩

/-- An application that fits the cap is carried out. -/
theorem settle_of_applied {rule : Rule} {n : Nat} {next : Bindings} (left : Nat)
    (outcome : RuleOutcome) (h : given.Applied rule outcome.vars n next) (hle : n ≤ left) :
    ∃ evaluations,
      settle given rule left outcome = .ok (outcome.advance next evaluations n) := by
  unfold Setting.Applied at h
  unfold settle
  split_ifs at h ⊢ with hrepeating
  · exact reapply_of_repeats h rfl hle
  · obtain ⟨rfl, rfl⟩ := h
    exact ⟨outcome.evaluations, rfl⟩

/-- One round: the first rule that matches fires, answers or settles, and the rest goes on without
it. -/
theorem runFrom_succ (count : Nat) (rules : List (Nat × Rule)) (outcome : RuleOutcome) :
    runFrom given (count + 1) rules outcome =
      match scan given outcome.vars rules with
      | (none, tried) => .ok { outcome with evaluations := outcome.evaluations + tried }
      | (some ⟨place, rule, updated, remaining⟩, tried) =>
        if given.options.maxRuleIterations ≤ outcome.applications then
          .error ⟨outcome.applications, rule.precondition.source⟩
        else if rule.postcondition.isSome then
          .ok { outcome.fire rule tried with
            answer := some ⟨place, rule.score, delta outcome.vars updated⟩ }
        else
          (settle given rule (given.options.maxRuleIterations - (outcome.applications + 1))
            { outcome.fire rule tried with vars := updated }).bind
              (runFrom given count remaining) := by
  rw [runFrom]
  rcases scan given outcome.vars rules with ⟨_ | ⟨place, rule, updated, remaining⟩, tried⟩
  · rfl
  · unfold settle
    dsimp only
    split_ifs <;> rfl

/-- A rule that fires is used up. -/
theorem length_untapped_lt (hnodup : (order.map (·.1)).Nodup) {fired : List Nat} {vars : Bindings}
    {place : Nat} {rule : Rule} {updated : Bindings}
    (h : given.Fires order fired vars place rule updated) :
    (untapped order (place :: fired)).length < (untapped order fired).length := by
  obtain ⟨passed, rest, hsplit, -⟩ := h.first
  obtain ⟨hbefore, hafter⟩ := untapped_split hnodup hsplit h.unfired
  rw [hbefore, hafter, List.length_append, List.length_append, List.length_cons]
  omega

/-- A run is a greedy process. -/
theorem greedy_of_runFrom (hnodup : (order.map (·.1)).Nodup) (count : Nat) :
    ∀ {fired : List Nat} {outcome o : RuleOutcome}, (untapped order fired).length < count →
      outcome.answer = none → outcome.applications ≤ given.options.maxRuleIterations →
      runFrom given count (untapped order fired) outcome = .ok o →
      ∃ rounds n, Greedy given order fired outcome.vars rounds n o.vars o.answer ∧
        o.fired = outcome.fired ++ names rounds ∧ o.applications = outcome.applications + n ∧
        o.applications ≤ given.options.maxRuleIterations := by
  induction count with
  | zero => intro fired outcome o hcount; exact absurd hcount (Nat.not_lt_zero _)
  | succ count ih =>
    intro fired outcome o hcount hanswer hlimit h
    rw [runFrom_succ] at h
    rcases hscan : scan given outcome.vars (untapped order fired) with
      ⟨_ | ⟨place, rule, updated, remaining⟩, tried⟩ <;> rw [hscan] at h <;> dsimp only at h
    · -- No rule matches: the process has settled.
      have hnone := scan_untapped_eq_none_iff.mp (congrArg Prod.fst hscan)
      obtain rfl := Except.ok.inj h
      refine ⟨[], 0, ?_, (List.append_nil _).symm, rfl, hlimit⟩
      show Greedy given order fired outcome.vars [] 0 outcome.vars outcome.answer
      rw [hanswer]
      exact .settled hnone
    · obtain ⟨hfires, rfl⟩ := (scan_untapped_iff hnodup).mp (congrArg Prod.fst hscan)
      -- A rule matches, and it hits the cap, answers or applies.
      split_ifs at h with hbelow hpost
      · obtain rfl := Except.ok.inj h
        exact ⟨[(place, rule)], 1, .answers hfires hpost, rfl, rfl, Nat.lt_of_not_le hbelow⟩
      · rcases hsettle : settle given rule
            (given.options.maxRuleIterations - (outcome.applications + 1))
            { outcome.fire rule tried with vars := updated } with e | settled <;>
          rw [hsettle] at h
        · cases h
        obtain ⟨n, happlied, hn, hsettled⟩ := applied_of_settle hsettle
        have hlength := length_untapped_lt hnodup hfires
        have happlications : settled.applications = outcome.applications + 1 + n := by
          rw [hsettled]
          rfl
        have hfired : settled.fired = outcome.fired ++ [rule.precondition.source] := by
          rw [hsettled]
          rfl
        obtain ⟨rounds, m, hgreedy, hnames, hm, hle⟩ := ih (by omega)
          (by rw [hsettled]; exact hanswer) (by omega) h
        refine ⟨(place, rule) :: rounds, n + 1 + m,
          .applies hfires (Bool.eq_false_iff.mpr hpost) happlied hgreedy, ?_, by omega, hle⟩
        rw [hnames, hfired, List.append_assoc]
        rfl

/-- A greedy process that fits the cap is run. -/
theorem runFrom_of_greedy (hnodup : (order.map (·.1)).Nodup) {fired : List Nat}
    {vars last : Bindings} {rounds : List (Nat × Rule)} {n : Nat} {answer : Option RuleAnswer}
    (h : Greedy given order fired vars rounds n last answer) :
    ∀ {count : Nat} {outcome : RuleOutcome}, (untapped order fired).length < count →
      outcome.vars = vars → outcome.answer = none →
      outcome.applications + n ≤ given.options.maxRuleIterations →
      ∃ evaluations, runFrom given count (untapped order fired) outcome =
        .ok ⟨last, answer, outcome.fired ++ names rounds, evaluations, outcome.applications + n⟩ := by
  induction h with
  | @settled fired vars fixpoint =>
    intro count outcome hcount hvars hanswer _
    subst hvars
    obtain ⟨count, rfl⟩ := Nat.exists_eq_add_of_lt hcount
    have hnone := scan_untapped_eq_none_iff.mpr fixpoint
    rcases hscan : scan given outcome.vars (untapped order fired) with ⟨firing, tried⟩
    obtain rfl : firing = none := by rw [hscan] at hnone; exact hnone
    refine ⟨outcome.evaluations + tried, ?_⟩
    rw [runFrom_succ, hscan]
    simp [names, hanswer]
  | @answers fired vars updated place rule fires answering =>
    intro count outcome hcount hvars _ hlimit
    subst hvars
    obtain ⟨count, rfl⟩ := Nat.exists_eq_add_of_lt hcount
    have hsome := (scan_untapped_iff hnodup).mpr ⟨fires, rfl⟩
    rcases hscan : scan given outcome.vars (untapped order fired) with ⟨firing, tried⟩
    obtain rfl : firing = some _ := by rw [hscan] at hsome; exact hsome
    refine ⟨outcome.evaluations + tried, ?_⟩
    rw [runFrom_succ, hscan]
    dsimp only
    rw [if_neg (by omega), if_pos answering]
    rfl
  -- The rule is used up, so the rest has one round less to go.
  | @applies fired vars updated next last place n m rule rounds answer fires silent applied rest ih =>
    intro count outcome hcount hvars hanswer hlimit
    subst hvars
    obtain ⟨count, rfl⟩ := Nat.exists_eq_add_of_lt hcount
    have hsome := (scan_untapped_iff hnodup).mpr ⟨fires, rfl⟩
    rcases hscan : scan given outcome.vars (untapped order fired) with ⟨firing, tried⟩
    obtain rfl : firing = some _ := by rw [hscan] at hsome; exact hsome
    have hlength := length_untapped_lt hnodup fires
    obtain ⟨evaluations, hsettle⟩ := settle_of_applied
      (given.options.maxRuleIterations - (outcome.applications + 1))
      { outcome.fire rule tried with vars := updated } applied (by omega)
    obtain ⟨evaluations', hrun⟩ := @ih _
      (({ outcome.fire rule tried with vars := updated }).advance next evaluations n)
      (Nat.lt_of_lt_of_le hlength (Nat.le_add_right _ count)) rfl hanswer (by
        show outcome.applications + 1 + n + m ≤ _
        omega)
    refine ⟨evaluations', ?_⟩
    rw [runFrom_succ, hscan]
    dsimp only
    rw [if_neg (by omega), if_neg (by simp [silent]), hsettle]
    rw [Except.bind, hrun]
    simp [RuleOutcome.advance, RuleOutcome.fire, names]
    omega

/-! ### What the process comes to -/

namespace Greedy

variable {fired : List Nat} {vars last : Bindings} {rounds : List (Nat × Rule)} {n : Nat}
  {answer : Option RuleAnswer}

/-- No rule fires twice, and none that had fired before. -/
theorem nodup (h : Greedy given order fired vars rounds n last answer) :
    (rounds.map (·.1)).Nodup ∧ ∀ place ∈ rounds.map (·.1), place ∉ fired := by
  induction h with
  | settled => exact ⟨List.nodup_nil, by simp⟩
  | answers fires => exact ⟨List.nodup_singleton _, by simpa using fires.unfired⟩
  | @applies fired _ _ _ _ place _ _ _ _ _ fires _ _ _ ih =>
    obtain ⟨hnodup, hnew⟩ := ih
    refine ⟨List.nodup_cons.mpr ⟨fun hmem => hnew place hmem List.mem_cons_self, hnodup⟩, ?_⟩
    intro other hother
    rcases List.mem_cons.mp hother with rfl | hother
    · exact fires.unfired
    · exact fun hmem => hnew other hother (List.mem_cons_of_mem _ hmem)

/-- Only rules of the order fire. -/
theorem mem_order (h : Greedy given order fired vars rounds n last answer) :
    ∀ r ∈ rounds, r ∈ order := by
  have hfires : ∀ {fired : List Nat} {vars updated : Bindings} {place : Nat} {rule : Rule},
      given.Fires order fired vars place rule updated → (place, rule) ∈ order := by
    intro fired vars updated place rule hfires
    obtain ⟨passed, rest, rfl, -⟩ := hfires.first
    exact List.mem_append_right _ List.mem_cons_self
  induction h with
  | settled => exact nofun
  | answers fires => exact List.forall_mem_singleton.mpr (hfires fires)
  | applies fires _ _ _ ih => exact List.forall_mem_cons.mpr ⟨hfires fires, ih⟩

/-- Without an answer, no rule that has not fired matches the last bindings. -/
theorem fixpoint (h : Greedy given order fired vars rounds n last answer) (hnone : answer = none) :
    ∀ r ∈ order, r.1 ∉ fired → r.1 ∉ rounds.map (·.1) → given.applies r.2 last = none := by
  induction h with
  | settled fixpoint => exact fun r hr hunfired _ => fixpoint r hr hunfired
  | answers => cases hnone
  | applies _ _ _ _ ih =>
    intro r hr hunfired hnew
    rw [List.map_cons, List.mem_cons, not_or] at hnew
    refine ih hnone r hr ?_ hnew.2
    rw [List.mem_cons, not_or]
    exact ⟨hnew.1, hunfired⟩

/-- The process ends with an answer if the last rule that fires has a postcondition. -/
theorem answer_isSome_iff (h : Greedy given order fired vars rounds n last answer) :
    answer.isSome = true ↔ ∃ r ∈ rounds.getLast?, r.2.postcondition.isSome = true := by
  induction h with
  | settled => simp
  | answers _ answering => simpa using answering
  | @applies _ _ _ _ _ _ _ _ _ rounds _ _ silent _ rest ih =>
    rw [ih]
    cases rounds with
    | nil => simp [silent]
    | cons r rounds => rw [List.getLast?_cons_cons]

/-- The answer is that of the last rule, which fired under the last bindings and did not change
them. -/
theorem answer_eq (h : Greedy given order fired vars rounds n last answer) :
    ∀ a ∈ answer, ∃ rule updated, rounds.getLast? = some (a.rule, rule) ∧
      given.applies rule last = some updated ∧ a = ⟨a.rule, rule.score, delta last updated⟩ := by
  induction h with
  | settled => simp
  | answers fires =>
    intro a ha
    obtain rfl := Option.some.inj ha
    exact ⟨_, _, rfl, fires.applies, rfl⟩
  | @applies _ _ _ _ _ _ _ _ _ rounds _ _ _ _ _ ih =>
    intro a ha
    obtain ⟨rule, updated, hlast, happlies, heq⟩ := ih a ha
    refine ⟨rule, updated, ?_, happlies, heq⟩
    cases rounds with
    | nil => cases hlast
    | cons r rounds => rwa [List.getLast?_cons_cons]

end Greedy

/-- A run ends as a greedy process from all the rules does, where that fits the cap. -/
theorem run_eq_ok_iff {rules : List Rule} {vars last : Bindings} {answer : Option RuleAnswer}
    {fired : List String} {n : Nat} :
    (∃ evaluations, run given rules vars = .ok ⟨last, answer, fired, evaluations, n⟩) ↔
      ∃ rounds, Greedy given (ordered rules) [] vars rounds n last answer ∧
        fired = names rounds ∧ n ≤ given.options.maxRuleIterations := by
  have huntapped : untapped (ordered rules) [] = ordered rules :=
    List.filter_eq_self.mpr fun r _ => by simp
  -- There are as many rounds to go as there are rules, and one for the end.
  have hlength : (untapped (ordered rules) []).length < rules.length + 1 := by
    rw [huntapped, length_ordered]
    exact Nat.lt_succ_self _
  unfold run
  constructor
  · rintro ⟨evaluations, h⟩
    rw [← huntapped] at h
    obtain ⟨rounds, m, hgreedy, hfired, hm, hle⟩ :=
      greedy_of_runFrom (nodup_places rules) _ hlength rfl (Nat.zero_le _) h
    obtain rfl : n = m := by simpa using hm
    exact ⟨rounds, hgreedy, hfired, hle⟩
  · rintro ⟨rounds, hgreedy, rfl, hle⟩
    obtain ⟨evaluations, h⟩ := runFrom_of_greedy (nodup_places rules) hgreedy
      hlength (show RuleOutcome.vars { vars } = vars from rfl) rfl (by simpa using hle)
    rw [huntapped] at h
    refine ⟨evaluations, h.trans ?_⟩
    simp

/-- The rules are tried by descending score, those of one score in the order in which they were
added.  A run succeeds just with what the greedy process over this order comes to within the allowed
applications.  No rule fires twice.  There is an answer if the last rule that fired has a
postcondition; it holds what the match of that rule changed, and the bindings are those before the
match.  Without an answer, none of the rules that have not fired matches the last bindings. -/
theorem run_greedy (given : Setting) (rules : List Rule) (vars : Bindings) :
    (ordered rules).Perm (rules.zipIdx.map fun (rule, i) => (i, rule)) ∧
    (ordered rules).Pairwise (fun a b =>
      TotalLt b.2.score a.2.score ∨ (a.2.score = b.2.score ∧ a.1 < b.1)) ∧
    (∀ last answer fired n,
      (∃ evaluations, run given rules vars = .ok ⟨last, answer, fired, evaluations, n⟩) ↔
        ∃ rounds, Greedy given (ordered rules) [] vars rounds n last answer ∧
          fired = names rounds ∧ n ≤ given.options.maxRuleIterations) ∧
    ∀ rounds n last answer, Greedy given (ordered rules) [] vars rounds n last answer →
      (rounds.map (·.1)).Nodup ∧
      (answer.isSome = true ↔ ∃ r ∈ rounds.getLast?, r.2.postcondition.isSome = true) ∧
      (∀ a ∈ answer, ∃ rule updated, rounds.getLast? = some (a.rule, rule) ∧
        given.applies rule last = some updated ∧ a = ⟨a.rule, rule.score, delta last updated⟩) ∧
      (answer = none → ∀ place rule, rules[place]? = some rule → place ∉ rounds.map (·.1) →
        given.applies rule last = none) := by
  refine ⟨ordered_perm rules, ordered_pairwise rules, fun _ _ _ _ => run_eq_ok_iff, ?_⟩
  intro rounds n last answer h
  refine ⟨h.nodup.1, h.answer_isSome_iff, h.answer_eq, ?_⟩
  intro hnone place rule hrule hnew
  exact h.fixpoint hnone (place, rule) (mem_ordered_iff.mpr hrule) List.not_mem_nil hnew

/-- A rule that answers once the topic is known, and one of a lower score that makes it known. -/
def topicRules : List Rule :=
  [⟨⟨"$topic", .reference "topic"⟩, some ⟨"sure", .literal "sure"⟩, false, 5.0⟩,
   ⟨⟨"$topic=help", .assignment "topic" (.literal "help")⟩, none, true, 1.0⟩]

/-- The user asks for help. -/
def topicSetting : Setting := ⟨.empty, .scan "Help!" 4, {}⟩

theorem ordered_topicRules :
    ordered topicRules = topicRules.zipIdx.map fun (rule, i) => (i, rule) := by
  refine List.mergeSort_of_pairwise ?_
  simp only [topicRules, List.zipIdx, List.map, List.pairwise_cons]
  decide +kernel

theorem run_greedy_topic :
    ∃ o rounds, run topicSetting topicRules .empty = .ok o ∧
      names rounds = ["$topic=help", "$topic"] ∧ (rounds.map (·.1)).Nodup ∧
      ∃ a ∈ o.answer, ∃ rule updated, rounds.getLast? = some (a.rule, rule) ∧
        topicSetting.applies rule o.vars = some updated := by
  obtain ⟨-, -, hrun, hprocess⟩ := run_greedy topicSetting topicRules .empty
  have hfired : (match run topicSetting topicRules .empty with
      | .ok o => o.fired == ["$topic=help", "$topic"] && o.answer.isSome
      | .error _ => false) = true := by
    rw [run, ordered_topicRules]
    decide +kernel
  cases ho : run topicSetting topicRules .empty with
  | error e => rw [ho] at hfired; cases hfired
  | ok o =>
    rw [ho, Bool.and_eq_true, beq_iff_eq] at hfired
    obtain ⟨rounds, hgreedy, hnames, -⟩ := (hrun o.vars o.answer o.fired o.applications).mp
      ⟨o.evaluations, ho⟩
    obtain ⟨hnodup, -, hanswer, -⟩ := hprocess _ _ _ _ hgreedy
    obtain ⟨a, ha⟩ := Option.isSome_iff_exists.mp hfired.2
    obtain ⟨rule, updated, hlast, happlies, -⟩ := hanswer a ha
    exact ⟨o, rounds, rfl, hnames.symm.trans hfired.1, hnodup, a, ha, rule, updated, hlast, happlies⟩

end Rules

end Colloquy
