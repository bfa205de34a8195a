import Mathlib.Data.List.Basic
import Colloquy.Flow.Rules

/-!
# What a run of the update rules answers

If a run leaves an answer, it is that of a rule of the flow which has a postcondition, and it has
the score of that rule (`run_answer`).
-/

namespace Colloquy.Rules

variable {given : Setting}

/-- The rules are tried under their places. -/
theorem mem_ordered_iff {rules : List Rule} {place : Nat} {rule : Rule} :
    (place, rule) ∈ ordered rules ↔ rules[place]? = some rule := by
  unfold ordered
  rw [List.mem_mergeSort, List.mem_map]
  constructor
  · rintro ⟨⟨r, i⟩, hmem, h⟩
    obtain ⟨rfl, rfl⟩ := Prod.mk.inj h
    exact List.mem_zipIdx_iff_getElem?.mp hmem
  · intro h
    exact ⟨(rule, place), List.mem_zipIdx_iff_getElem?.mpr h, rfl⟩

/-- The rule that fires is one of those that were tried, and so are the ones that remain. -/
theorem mem_of_scan {vars : Bindings} (untapped : List (Nat × Rule)) :
    ∀ {f : Firing}, (scan given vars untapped).1 = some f →
      (f.place, f.rule) ∈ untapped ∧ ∀ r ∈ f.remaining, r ∈ untapped := by
  induction untapped with
  | nil => intro f h; cases h
  | cons first rest ih =>
    obtain ⟨place, rule⟩ := first
    intro f h
    unfold scan at h
    cases happlies : given.applies rule vars with
    | some updated =>
      rw [happlies] at h
      obtain rfl := Option.some.inj h
      exact ⟨List.mem_cons_self, fun r hr => List.mem_cons_of_mem _ hr⟩
    | none =>
      rw [happlies] at h
      obtain ⟨g, hg, rfl⟩ := Option.map_eq_some_iff.mp h
      -- The first rule is passed and stays at the front of what remains.
      obtain ⟨hmem, hremaining⟩ := ih hg
      refine ⟨List.mem_cons_of_mem _ hmem, fun r hr => ?_⟩
      rcases List.mem_cons.mp hr with rfl | hr
      · exact List.mem_cons_self
      · exact List.mem_cons_of_mem _ (hremaining r hr)

/-- Applying a repeating rule again leaves no answer. -/
theorem reapply_answer (rule : Rule) (left : Nat) :
    ∀ {outcome o : RuleOutcome}, reapply given rule left outcome = .ok o →
      o.answer = outcome.answer := by
  induction left with
  | zero =>
    intro outcome o h
    unfold reapply at h
    split at h
    · rw [← Except.ok.inj h]
    · cases h
  | succ left ih =>
    intro outcome o h
    unfold reapply at h
    split at h
    · rw [← Except.ok.inj h]
    · rw [ih h]

theorem runFrom_answer {rules : List Rule} (count : Nat) :
    ∀ {untapped : List (Nat × Rule)} {outcome o : RuleOutcome},
      (∀ r ∈ untapped, rules[r.1]? = some r.2) → outcome.answer = none →
      runFrom given count untapped outcome = .ok o →
      ∀ answer ∈ o.answer, ∃ rule, rules[answer.rule]? = some rule ∧
        rule.postcondition.isSome = true ∧ answer.score = rule.score := by
  induction count with
  | zero =>
    intro untapped outcome o _ hnone h answer hanswer
    rw [← Except.ok.inj h, hnone] at hanswer
    cases hanswer
  | succ count ih =>
    intro untapped outcome o hrules hnone h answer hanswer
    rw [runFrom] at h
    rcases hscan : scan given outcome.vars untapped with ⟨_ | ⟨place, rule, vars, remaining⟩, tried⟩
    · rw [hscan] at h
      rw [← Except.ok.inj h] at hanswer
      rw [hnone] at hanswer
      cases hanswer
    · rw [hscan] at h
      dsimp only at h
      obtain ⟨hmem, hremaining⟩ :=
        mem_of_scan (f := ⟨place, rule, vars, remaining⟩) untapped (by rw [hscan])
      split at h
      · cases h
      split at h
      · rename_i hpost
        rw [← Except.ok.inj h] at hanswer
        obtain rfl := Option.some.inj hanswer
        exact ⟨rule, hrules _ hmem, hpost, rfl⟩
      · -- A rule without postcondition leaves no answer, repeating or not.
        have hrest : ∀ r ∈ remaining, rules[r.1]? = some r.2 :=
          fun r hr => hrules r (hremaining r hr)
        split at h
        · cases hreapply : reapply given rule
              (given.options.maxRuleIterations - (outcome.applications + 1))
              { outcome with
                vars, evaluations := outcome.evaluations + tried
                applications := outcome.applications + 1
                fired := outcome.fired ++ [rule.precondition.source] } with
          | error e =>
            rw [hreapply] at h
            cases h
          | ok settled =>
            rw [hreapply] at h
            exact ih hrest ((reapply_answer rule _ hreapply).trans hnone) h answer hanswer
        · exact ih hrest (by exact hnone) h answer hanswer

theorem run_answer {rules : List Rule} {vars : Bindings} {o : RuleOutcome}
    (h : run given rules vars = .ok o) :
    ∀ answer ∈ o.answer, ∃ rule, rules[answer.rule]? = some rule ∧
      rule.postcondition.isSome = true ∧ answer.score = rule.score :=
  runFrom_answer _ (fun _ hr => mem_ordered_iff.mp hr) rfl h

end Colloquy.Rules
