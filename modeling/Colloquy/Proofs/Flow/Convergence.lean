import Colloquy.Proofs.Flow.Greedy

/-!
# When the update rules converge

`Setting.step` is the process of the update rules with one evaluation of a precondition a step: it
counts nothing and knows no limit, and it may go on for ever.  `Setting.Leads` follows it for any
number of steps and keeps what each of them came to, an application of a rule or nothing.

A run of the rules is this process, stopped when a rule is about to be applied once more than the
options allow (`ends_run`).  So it fails just if the process makes too many applications, and
otherwise ends as the process does, whatever the limit.

The evaluations are bounded by the applications: `Stage.potential` counts the evaluations that are
left if nothing is repeated, and each evaluation takes one off it or is an application.
-/

namespace Colloquy

namespace Rules

/-! ### The process without a limit -/

/-- What an evaluation of a precondition comes to. -/
inductive Event
  /-- The rule does not match, or repeating it would change nothing. -/
  | idle
  | fires (rule : Rule)
  | repeats (rule : Rule)

/-- The rule that is applied. -/
@[simp] def Event.applied? : Event → Option Rule
  | idle => none
  | fires rule | repeats rule => some rule

/-- The rule that fires. -/
@[simp] def Event.fired? : Event → Option Rule
  | fires rule => some rule
  | idle | repeats _ => none

/-- The rules that are applied, in order. -/
def applications (events : List Event) : List Rule :=
  events.filterMap Event.applied?

/-- The rules that fire, in order. -/
def firings (events : List Event) : List Rule :=
  events.filterMap Event.fired?

/-- How far the process has come. -/
inductive Stage
  /-- The rules `ahead` are tried in turn; those in `passed` did not match. -/
  | scanning (vars : Bindings) (passed ahead : List (Nat × Rule))
  /-- The rule has been applied and is tried again; the others have not fired. -/
  | repeating (vars : Bindings) (rule : Rule) (untapped : List (Nat × Rule))
  | answered (vars : Bindings) (answer : RuleAnswer)

namespace Stage

/-- The present bindings. -/
@[simp] def vars : Stage → Bindings
  | scanning vars _ _ | repeating vars _ _ | answered vars _ => vars

/-- The answer, if there is one. -/
@[simp] def answer? : Stage → Option RuleAnswer
  | answered _ answer => some answer
  | scanning .. | repeating .. => none

/-- The rules that may still fire. -/
def untapped : Stage → List (Nat × Rule)
  | scanning _ passed ahead => passed ++ ahead
  | repeating _ _ untapped => untapped
  | answered .. => []

/-- A rule fires: its match turned the bindings `vars` into `updated`, and the others are left. -/
def afterFiring (vars updated : Bindings) (place : Nat) (rule : Rule)
    (others : List (Nat × Rule)) : Stage :=
  if rule.postcondition.isSome then answered vars ⟨place, rule.score, delta vars updated⟩
  else if rule.repeating then repeating updated rule others
  else scanning updated [] others

end Stage

/-- One evaluation, if the process has not come to its end. -/
def Setting.step (given : Setting) : Stage → Option (Event × Stage)
  | .scanning _ _ [] | .answered .. => none
  | .scanning vars passed ((place, rule) :: rest) =>
    match given.applies rule vars with
    | none => some (.idle, .scanning vars (passed ++ [(place, rule)]) rest)
    | some updated => some (.fires rule, .afterFiring vars updated place rule (passed ++ rest))
  | .repeating vars rule untapped =>
    match given.changes rule vars with
    | none => some (.idle, .scanning vars [] untapped)
    | some next => some (.repeats rule, .repeating next rule untapped)

/-- What an evaluation can be. -/
inductive Setting.Evaluates (given : Setting) : Stage → Event → Stage → Prop
  | passes {vars : Bindings} {passed rest : List (Nat × Rule)} {place : Nat} {rule : Rule}
      (misses : given.applies rule vars = none) :
      Evaluates given (.scanning vars passed ((place, rule) :: rest)) .idle
        (.scanning vars (passed ++ [(place, rule)]) rest)
  | fires {vars updated : Bindings} {passed rest : List (Nat × Rule)} {place : Nat} {rule : Rule}
      (applies : given.applies rule vars = some updated) :
      Evaluates given (.scanning vars passed ((place, rule) :: rest)) (.fires rule)
        (.afterFiring vars updated place rule (passed ++ rest))
  | settles {vars : Bindings} {rule : Rule} {untapped : List (Nat × Rule)}
      (unchanged : given.changes rule vars = none) :
      Evaluates given (.repeating vars rule untapped) .idle (.scanning vars [] untapped)
  | repeats {vars next : Bindings} {rule : Rule} {untapped : List (Nat × Rule)}
      (changes : given.changes rule vars = some next) :
      Evaluates given (.repeating vars rule untapped) (.repeats rule)
        (.repeating next rule untapped)

/-- Some evaluations, one after the other. -/
inductive Setting.Leads (given : Setting) : Stage → List Event → Stage → Prop
  | refl (s : Stage) : Leads given s [] s
  | step {s s' t : Stage} {event : Event} {events : List Event}
      (first : given.step s = some (event, s')) (rest : Leads given s' events t) :
      Leads given s (event :: events) t

/-- The process begins by scanning all the rules. -/
def start (rules : List Rule) (vars : Bindings) : Stage :=
  .scanning vars [] (ordered rules)

/-- The setting with another limit on the applications. -/
def Setting.capped (given : Setting) (limit : Nat) : Setting :=
  { given with options := { given.options with maxRuleIterations := limit } }

end Rules

/-- The outcome after some more evaluations. -/
def RuleOutcome.follow (outcome : RuleOutcome) (events : List Rules.Event) (s : Rules.Stage) :
    RuleOutcome where
  vars := s.vars
  answer := s.answer?
  fired := outcome.fired ++ (Rules.firings events).map (·.precondition.source)
  evaluations := outcome.evaluations + events.length
  applications := outcome.applications + (Rules.applications events).length

namespace Rules

variable {given : Setting} {s t u : Stage} {event : Event} {events more : List Event}

/-- A step is an evaluation of the stage. -/
theorem step_eq_some_iff : given.step s = some (event, t) ↔ given.Evaluates s event t := by
  constructor
  · intro h
    -- At the end of a scan, and at the end of the process, there is no step.
    rcases s with ⟨vars, passed, _ | ⟨⟨place, rule⟩, rest⟩⟩ | ⟨vars, rule, untapped⟩ | _
    · cases h
    · rw [Setting.step] at h
      cases happlies : given.applies rule vars with
      | none =>
        rw [happlies] at h
        cases h
        exact .passes happlies
      | some updated =>
        rw [happlies] at h
        cases h
        exact .fires happlies
    · rw [Setting.step] at h
      cases hchanges : given.changes rule vars with
      | none =>
        rw [hchanges] at h
        cases h
        exact .settles hchanges
      | some next =>
        rw [hchanges] at h
        cases h
        exact .repeats hchanges
    · cases h
  · rintro (h | h | h | h) <;> rw [Setting.step, h]

@[simp] theorem applications_nil : applications [] = [] :=
  rfl

@[simp] theorem applications_cons :
    applications (event :: events) = event.applied?.toList ++ applications events := by
  rw [applications, List.filterMap_cons]
  cases event.applied? <;> rfl

@[simp] theorem firings_nil : firings [] = [] :=
  rfl

@[simp] theorem firings_cons :
    firings (event :: events) = event.fired?.toList ++ firings events := by
  rw [firings, List.filterMap_cons]
  cases event.fired? <;> rfl

@[simp] theorem applications_append :
    applications (events ++ more) = applications events ++ applications more :=
  List.filterMap_append

@[simp] theorem firings_append : firings (events ++ more) = firings events ++ firings more :=
  List.filterMap_append

@[simp] theorem applications_replicate_idle (n : Nat) :
    applications (List.replicate n .idle) = [] := by
  simp [applications]

@[simp] theorem firings_replicate_idle (n : Nat) : firings (List.replicate n .idle) = [] := by
  simp [firings]

namespace Setting.Leads

theorem trans (h : given.Leads s events t) (h' : given.Leads t more u) :
    given.Leads s (events ++ more) u := by
  induction h with
  | refl => exact h'
  | step first _ ih => exact .step first (ih h')

theorem snoc (h : given.Leads s events t) (hstep : given.step t = some (event, u)) :
    given.Leads s (events ++ [event]) u :=
  h.trans (.step hstep (.refl u))

/-- There is but one way to go: of two courses from one stage, one continues the other. -/
theorem total (h : given.Leads s events t) (h' : given.Leads s more u) :
    (∃ rest, more = events ++ rest ∧ given.Leads t rest u) ∨
      ∃ rest, events = more ++ rest ∧ given.Leads u rest t := by
  -- As long as both go on they take the same step.
  induction h generalizing more with
  | refl => exact .inl ⟨more, rfl, h'⟩
  | step first rest ih =>
    cases h' with
    | refl => exact .inr ⟨_, rfl, .step first rest⟩
    | step first' rest' =>
      obtain ⟨rfl, rfl⟩ := Prod.mk.inj (Option.some.inj (first.symm.trans first'))
      rcases ih rest' with ⟨d, rfl, hd⟩ | ⟨d, rfl, hd⟩
      · exact .inl ⟨d, rfl, hd⟩
      · exact .inr ⟨d, rfl, hd⟩

/-- Nothing follows the end of the process. -/
theorem eq_of_over (h : given.Leads s events t) (hover : given.step s = none) :
    events = [] ∧ t = s := by
  cases h with
  | refl => exact ⟨rfl, rfl⟩
  | step first => rw [hover] at first; cases first

/-- The process ends in one way. -/
theorem unique (h : given.Leads s events t) (hover : given.step t = none)
    (h' : given.Leads s more u) (hover' : given.step u = none) : more = events ∧ u = t := by
  rcases h.total h' with ⟨rest, rfl, hrest⟩ | ⟨rest, rfl, hrest⟩
  · obtain ⟨rfl, rfl⟩ := hrest.eq_of_over hover
    exact ⟨List.append_nil _, rfl⟩
  · obtain ⟨rfl, rfl⟩ := hrest.eq_of_over hover'
    exact ⟨(List.append_nil _).symm, rfl⟩

/-- A course holds no more than one that leads to the end. -/
theorem prefix_of_over (h : given.Leads s events t) (hover : given.step t = none)
    (h' : given.Leads s more u) : more <+: events := by
  rcases h.total h' with ⟨rest, rfl, hrest⟩ | ⟨rest, rfl, -⟩
  · obtain ⟨rfl, -⟩ := hrest.eq_of_over hover
    rw [List.append_nil]
  · exact List.prefix_append _ _

end Setting.Leads

/-! ### The number of evaluations -/

/-- The evaluations that are left if from now on every scan tries all the rules, each scan finds one
to fire, and nothing is repeated. -/
def Stage.potential : Stage → Nat
  | scanning _ passed ahead => ahead.length + (passed.length + ahead.length).choose 2
  | repeating _ _ untapped => 1 + (untapped.length + 1).choose 2
  | answered .. => 0

/-- A scan among `n` rules that have not fired. -/
theorem Stage.potential_scanning_nil (vars : Bindings) (rules : List (Nat × Rule)) :
    (scanning vars [] rules).potential = (rules.length + 1).choose 2 := by
  rw [potential, List.length_nil, Nat.zero_add, Nat.choose_succ_succ', Nat.choose_one_right]

/-- A rule that fires leaves the others to be scanned from the beginning. -/
theorem potential_afterFiring_le (vars updated : Bindings) (place : Nat) (rule : Rule)
    (others : List (Nat × Rule)) :
    (Stage.afterFiring vars updated place rule others).potential ≤
      1 + (others.length + 1).choose 2 := by
  unfold Stage.afterFiring
  split_ifs
  · exact Nat.zero_le _
  · exact le_refl _
  · rw [Stage.potential_scanning_nil]
    exact Nat.le_add_left _ _

/-- An evaluation takes one off the evaluations that are left, unless it is an application. -/
theorem potential_step (h : given.Evaluates s event t) :
    t.potential + 1 ≤ s.potential + event.applied?.toList.length := by
  cases h with
  | @passes vars passed rest place rule misses =>
    have hlength : (passed ++ [(place, rule)]).length + rest.length =
        passed.length + (rest.length + 1) := by
      rw [List.length_append, List.length_singleton]
      omega
    rw [Stage.potential, Stage.potential, hlength, List.length_cons]
    simp only [Event.applied?, Option.toList_none, List.length_nil]
    omega
  | @fires vars updated passed rest place rule applies =>
    -- The rules ahead are not tried any more, but those in front are tried again.
    have hle := potential_afterFiring_le vars updated place rule (passed ++ rest)
    rw [List.length_append] at hle
    show _ + 1 ≤ rest.length + 1 + (passed.length + rest.length + 1).choose 2 + 1
    omega
  | settles unchanged =>
    rw [Stage.potential_scanning_nil, Stage.potential]
    simp only [Event.applied?, Option.toList_none, List.length_nil]
    omega
  | repeats changes => exact le_refl _

/-- Each evaluation takes one from the potential, or is paid for by an application. -/
theorem Setting.Leads.potential_le (h : given.Leads s events t) :
    events.length + t.potential ≤ s.potential + (applications events).length := by
  induction h with
  | refl => simp [applications]
  | step first _ ih =>
    have hstep := potential_step (step_eq_some_iff.mp first)
    rw [applications_cons, List.length_append, List.length_cons]
    omega

/-- From the start there is at most one evaluation for each application, and for each pair of a scan
and a rule that it may try. -/
theorem Setting.Leads.length_le {rules : List Rule} {vars : Bindings}
    (h : given.Leads (start rules vars) events t) :
    events.length ≤ rules.length * (rules.length + 1) / 2 + (applications events).length := by
  have hle := h.potential_le
  rw [start, Stage.potential_scanning_nil, length_ordered, Nat.choose_two_right, Nat.add_sub_cancel,
    Nat.mul_comm] at hle
  omega

/-! ### Rules that are not repeated -/

/-- Nothing is repeated, and no rule that may still fire is repeating. -/
def Stage.Single : Stage → Prop
  | scanning _ passed ahead => ∀ r ∈ passed ++ ahead, r.2.repeating = false
  | repeating .. => False
  | answered .. => True

/-- Without repeating rules, a rule that has fired is done with. -/
theorem single_afterFiring (vars updated : Bindings) (place : Nat) {rule : Rule}
    {others : List (Nat × Rule)} (hrule : rule.repeating = false)
    (hothers : ∀ r ∈ others, r.2.repeating = false) :
    (Stage.afterFiring vars updated place rule others).Single ∧
      (Stage.afterFiring vars updated place rule others).untapped.length ≤ others.length := by
  unfold Stage.afterFiring
  split_ifs with hpost hrepeating
  · exact ⟨trivial, Nat.zero_le _⟩
  · rw [hrule] at hrepeating
    cases hrepeating
  · exact ⟨hothers, le_refl _⟩

/-- Then each application takes away a rule. -/
theorem single_step (h : given.Evaluates s event t) (hs : s.Single) :
    t.Single ∧ t.untapped.length + event.applied?.toList.length ≤ s.untapped.length := by
  cases h with
  | passes misses =>
    rw [Stage.Single, Stage.untapped, List.append_assoc]
    exact ⟨hs, le_refl _⟩
  | @fires vars updated passed rest place rule applies =>
    rw [Stage.Single, List.forall_mem_append, List.forall_mem_cons] at hs
    -- The rule that fires was one of those that may, and so does not repeat.
    have hrule : rule.repeating = false := hs.2.1
    obtain ⟨hsingle, hle⟩ := single_afterFiring vars updated place hrule
      (List.forall_mem_append.mpr ⟨hs.1, hs.2.2⟩)
    refine ⟨hsingle, ?_⟩
    show _ + 1 ≤ (passed ++ (place, rule) :: rest).length
    rw [List.length_append] at hle ⊢
    rw [List.length_cons]
    omega
  | settles => exact hs.elim
  | repeats => exact hs.elim

/-- Without repeating rules, each rule is applied once at most. -/
theorem Setting.Leads.applications_le (h : given.Leads s events t) (hs : s.Single) :
    (applications events).length ≤ s.untapped.length := by
  induction h with
  | refl => exact Nat.zero_le _
  | step first _ ih =>
    obtain ⟨hsingle, hle⟩ := single_step (step_eq_some_iff.mp first) hs
    have hrest := ih hsingle
    rw [applications_cons, List.length_append]
    omega

/-! ### A run of the rules -/

/-- What follows is followed in turn. -/
theorem follow_append (outcome : RuleOutcome) :
    (outcome.follow events s).follow more t = outcome.follow (events ++ more) t := by
  simp [RuleOutcome.follow, Nat.add_assoc]

/-- What comes of the process from the stage on if at most the allowed number of applications is
made: the outcome at its end, or an error when a rule is about to be applied once more. -/
inductive Setting.Ends (given : Setting) (s : Stage) (outcome : RuleOutcome) :
    Except NonConvergence RuleOutcome → Prop
  | ended {events : List Event} {t : Stage} {o : RuleOutcome} (leads : given.Leads s events t)
      (last : given.step t = none) (eq : o = outcome.follow events t)
      (within : o.applications ≤ given.options.maxRuleIterations) : Ends given s outcome (.ok o)
  | exceeded {events : List Event} {event : Event} {rule : Rule} {t u : Stage}
      (leads : given.Leads s events t)
      (full : (outcome.follow events t).applications = given.options.maxRuleIterations)
      (next : given.step t = some (event, u)) (applies : event.applied? = some rule) :
      Ends given s outcome (.error ⟨given.options.maxRuleIterations, rule.precondition.source⟩)

variable {outcome : RuleOutcome} {r : Except NonConvergence RuleOutcome}

/-- What ends from a later stage ends from an earlier one. -/
theorem Setting.Leads.ends (h : given.Leads s events t)
    (hr : given.Ends t (outcome.follow events t) r) : given.Ends s outcome r := by
  cases hr with
  | ended leads last eq within =>
    rw [follow_append] at eq
    exact .ended (h.trans leads) last eq within
  | exceeded leads full next applies =>
    rw [follow_append] at full
    exact .exceeded (h.trans leads) full next applies

/-- Scanning passes over the rules that do not match. -/
theorem leads_of_scan (given : Setting) (vars : Bindings) (passed ahead : List (Nat × Rule)) :
    match scan given vars ahead with
    | (none, tried) =>
      given.Leads (.scanning vars passed ahead) (List.replicate tried .idle)
        (.scanning vars (passed ++ ahead) [])
    | (some f, tried) => ∃ n t, tried = n + 1 ∧
      given.Leads (.scanning vars passed ahead) (List.replicate n .idle) t ∧
        given.step t = some (.fires f.rule,
          .afterFiring vars f.vars f.place f.rule (passed ++ f.remaining)) := by
  induction ahead generalizing passed with
  | nil =>
    rw [List.append_nil]
    exact .refl _
  | cons first rest ih =>
    obtain ⟨place, rule⟩ := first
    rw [scan]
    cases happlies : given.applies rule vars with
    -- The first rule ahead fires; else it is passed, and the scan goes on behind it.
    | some updated =>
      exact ⟨0, _, rfl, .refl _, step_eq_some_iff.mpr (.fires happlies)⟩
    | none =>
      have hstep : given.step (.scanning vars passed ((place, rule) :: rest)) =
          some (.idle, .scanning vars (passed ++ [(place, rule)]) rest) :=
        step_eq_some_iff.mpr (.passes happlies)
      have hrest := ih (passed ++ [(place, rule)])
      rcases hscan : scan given vars rest with ⟨_ | f, tried⟩
      · rw [hscan] at hrest
        rw [List.append_assoc] at hrest
        exact .step hstep hrest
      · rw [hscan] at hrest
        obtain ⟨n, t, rfl, hleads, hfires⟩ := hrest
        rw [List.append_assoc] at hfires
        exact ⟨n + 1, t, rfl, .step hstep hleads, hfires⟩

/-- From a scan of the rules on, whatever has gone before, the rest of a run follows the process. -/
def Setting.Resumes (given : Setting) (untapped : List (Nat × Rule))
    (resume : RuleOutcome → Except NonConvergence RuleOutcome) : Prop :=
  ∀ o, o.answer = none → o.applications ≤ given.options.maxRuleIterations →
    given.Ends (.scanning o.vars [] untapped) o (resume o)

section Repeating

variable {rule : Rule} {others : List (Nat × Rule)}
  {resume : RuleOutcome → Except NonConvergence RuleOutcome}

/-- A repetition that changes nothing is followed by the next scan. -/
theorem ends_of_unchanged (hresume : given.Resumes others resume) (hanswer : outcome.answer = none)
    (hlimit : outcome.applications ≤ given.options.maxRuleIterations)
    (hnone : given.changes rule outcome.vars = none) :
    given.Ends (.repeating outcome.vars rule others) outcome
      (resume { outcome with evaluations := outcome.evaluations + 1 }) := by
  have hfollow : outcome.follow [.idle] (.scanning outcome.vars [] others) =
      { outcome with evaluations := outcome.evaluations + 1 } := by
    simp [RuleOutcome.follow, hanswer]
  refine Setting.Leads.ends (.step (step_eq_some_iff.mpr (.settles hnone)) (.refl _)) ?_
  rw [hfollow]
  exact hresume { outcome with evaluations := outcome.evaluations + 1 } hanswer hlimit

/-- Repeating a rule follows the process through its repetitions, to the next scan or up to the
limit. -/
theorem ends_reapply (hresume : given.Resumes others resume) (left : Nat) :
    ∀ {outcome : RuleOutcome}, outcome.answer = none →
      outcome.applications + left = given.options.maxRuleIterations →
      given.Ends (.repeating outcome.vars rule others) outcome
        ((reapply given rule left outcome).bind resume) := by
  induction left with
  | zero =>
    intro outcome hanswer hlimit
    rw [reapply]
    cases hchanges : given.changes rule outcome.vars with
    | none => exact ends_of_unchanged hresume hanswer hlimit.le hchanges
    | some next =>
      -- There is a further change to make, and no application left for it.
      have hfull : (outcome.follow [] (.repeating outcome.vars rule others)).applications =
          given.options.maxRuleIterations := hlimit
      have hexceeded := Setting.Ends.exceeded (.refl _) hfull
        (step_eq_some_iff.mpr (.repeats hchanges)) rfl
      rw [← hlimit] at hexceeded
      exact hexceeded
  | succ left ih =>
    intro outcome hanswer hlimit
    rw [reapply]
    cases hchanges : given.changes rule outcome.vars with
    | none => exact ends_of_unchanged hresume hanswer (by omega) hchanges
    | some next =>
      have hfollow : outcome.follow [.repeats rule] (.repeating next rule others) =
          { outcome with
            vars := next
            evaluations := outcome.evaluations + 1
            applications := outcome.applications + 1 } := by
        simp [RuleOutcome.follow, hanswer]
      have hlimit' : outcome.applications + 1 + left = given.options.maxRuleIterations := by omega
      refine Setting.Leads.ends (.step (step_eq_some_iff.mpr (.repeats hchanges)) (.refl _)) ?_
      rw [hfollow]
      exact @ih { outcome with
        vars := next
        evaluations := outcome.evaluations + 1
        applications := outcome.applications + 1 } hanswer hlimit'

/-- So does all that a rule without postcondition does when it has fired. -/
theorem ends_settle (hresume : given.Resumes others resume) (vars : Bindings) (place left : Nat)
    (outcome : RuleOutcome) (hsilent : rule.postcondition.isSome = false)
    (hanswer : outcome.answer = none)
    (hlimit : outcome.applications + left = given.options.maxRuleIterations) :
    given.Ends (.afterFiring vars outcome.vars place rule others) outcome
      ((settle given rule left outcome).bind resume) := by
  rw [Stage.afterFiring, if_neg (by simp [hsilent]), settle]
  split_ifs
  · exact ends_reapply hresume left hanswer hlimit
  · exact hresume outcome hanswer (by omega)

end Repeating

/-- The number that bounds the rules is never reached. -/
theorem resumes_runFrom (count : Nat) : ∀ {untapped : List (Nat × Rule)},
    untapped.length < count → given.Resumes untapped (runFrom given count untapped) := by
  induction count with
  | zero => exact fun hcount => absurd hcount (Nat.not_lt_zero _)
  | succ count ih =>
    intro untapped hcount outcome hanswer hlimit
    have hleads := leads_of_scan given outcome.vars [] untapped
    rw [runFrom_succ]
    rcases hscan : scan given outcome.vars untapped with
      ⟨_ | ⟨place, rule, updated, remaining⟩, tried⟩ <;> rw [hscan] at hleads
    · exact .ended hleads rfl (by simp [RuleOutcome.follow, hanswer]) hlimit
    · obtain ⟨n, t, rfl, hidle, hfires⟩ := hleads
      rw [List.nil_append] at hfires
      dsimp only
      split_ifs with hbelow hpost
      · -- The rule that is about to fire is one too many.
        have hfull : outcome.applications = given.options.maxRuleIterations :=
          Nat.le_antisymm hlimit hbelow
        rw [hfull]
        exact .exceeded hidle (by simpa [RuleOutcome.follow] using hfull) hfires rfl
      · rw [Stage.afterFiring, if_pos hpost] at hfires
        exact .ended (hidle.snoc hfires) rfl (by simp [RuleOutcome.follow, RuleOutcome.fire])
          (Nat.lt_of_not_le hbelow)
      · have hremaining : remaining.length < untapped.length := by
          obtain ⟨passed, rest, rfl, rfl, -⟩ :=
            (scan_eq_some_iff untapped).mp (congrArg Prod.fst hscan)
          simp
        have hcount' : remaining.length < count := by omega
        have hsilent := Bool.eq_false_iff.mpr hpost
        refine (hidle.snoc hfires).ends ?_
        have hfollow : outcome.follow (List.replicate n .idle ++ [.fires rule])
            (.afterFiring outcome.vars updated place rule remaining) =
            { outcome.fire rule (n + 1) with vars := updated } := by
          rw [Stage.afterFiring, if_neg hpost]
          split_ifs <;> simp [RuleOutcome.follow, RuleOutcome.fire, hanswer]
        rw [hfollow]
        -- What the rule has left of the limit when its own application is counted.
        have hlimit' : outcome.applications + 1 +
            (given.options.maxRuleIterations - (outcome.applications + 1)) =
            given.options.maxRuleIterations := by omega
        exact ends_settle (ih hcount') outcome.vars place _
          { outcome.fire rule (n + 1) with vars := updated } hsilent hanswer hlimit'

/-- A run of the rules follows the process from the start. -/
theorem ends_run (given : Setting) (rules : List Rule) (vars : Bindings) :
    given.Ends (start rules vars) { vars } (run given rules vars) :=
  resumes_runFrom _ ((length_ordered rules).trans_lt (Nat.lt_succ_self _)) { vars } rfl
    (Nat.zero_le _)

/-- What a run leaves that ends with the given course. -/
def outcomeOf (events : List Event) (s : Stage) : RuleOutcome where
  vars := s.vars
  answer := s.answer?
  fired := (firings events).map (·.precondition.source)
  evaluations := events.length
  applications := (applications events).length

/-- From the start, what follows is all there is. -/
theorem follow_start (vars : Bindings) :
    ({ vars } : RuleOutcome).follow events s = outcomeOf events s := by
  simp [RuleOutcome.follow, outcomeOf]

theorem applications_snoc {rule : Rule} (h : event.applied? = some rule) :
    applications (events ++ [event]) = applications events ++ [rule] := by
  rw [applications_append, applications_cons, h]
  rfl

/-- A run that fails stopped at the application that was one too many. -/
theorem leads_of_run_eq_error {rules : List Rule} {vars : Bindings} {e : NonConvergence}
    (h : run given rules vars = .error e) :
    e.iterations = given.options.maxRuleIterations ∧ ∃ events t before rule,
      given.Leads (start rules vars) events t ∧ applications events = before ++ [rule] ∧
        before.length = given.options.maxRuleIterations ∧
        e.lastRule = rule.precondition.source := by
  have hends := ends_run given rules vars
  rw [h] at hends
  cases hends with
  | exceeded leads full next applies =>
    rw [follow_start] at full
    exact ⟨rfl, _, _, _, _, leads.snoc next, applications_snoc applies, full, rfl⟩

/-- A run that does not fail goes to the end of the process. -/
theorem leads_of_run_eq_ok {rules : List Rule} {vars : Bindings} {o : RuleOutcome}
    (h : run given rules vars = .ok o) :
    ∃ events t, given.Leads (start rules vars) events t ∧ given.step t = none ∧
      (applications events).length ≤ given.options.maxRuleIterations ∧ o = outcomeOf events t := by
  have hends := ends_run given rules vars
  rw [h] at hends
  cases hends with
  | ended leads last eq within =>
    rw [follow_start] at eq
    subst eq
    exact ⟨_, _, leads, last, within, rfl⟩

/-- A run fails if the process would go over the limit. -/
theorem run_eq_error_iff {rules : List Rule} {vars : Bindings} :
    (∃ e, run given rules vars = .error e) ↔
      ∃ events t, given.Leads (start rules vars) events t ∧
        given.options.maxRuleIterations < (applications events).length := by
  constructor
  · rintro ⟨e, he⟩
    obtain ⟨-, events, t, before, rule, hleads, heq, hlength, -⟩ := leads_of_run_eq_error he
    refine ⟨events, t, hleads, ?_⟩
    rw [heq, List.length_append, List.length_singleton]
    omega
  · rintro ⟨events, t, hleads, hmany⟩
    cases hrun : run given rules vars with
    | error e => exact ⟨e, rfl⟩
    | ok o =>
      -- The process is deterministic: one that has ended within the limit cannot also go over it.
      obtain ⟨all, last, hall, hlast, hfew, -⟩ := leads_of_run_eq_ok hrun
      have hle := ((hall.prefix_of_over hlast hleads).filterMap Event.applied?).length_le
      unfold applications at hmany hfew
      omega

/-- A run succeeds if the process ends within the limit. -/
theorem run_eq_ok_iff_leads {rules : List Rule} {vars : Bindings} {o : RuleOutcome} :
    run given rules vars = .ok o ↔
      ∃ events t, given.Leads (start rules vars) events t ∧ given.step t = none ∧
        (applications events).length ≤ given.options.maxRuleIterations ∧
        o = outcomeOf events t := by
  constructor
  · exact leads_of_run_eq_ok
  · rintro ⟨events, t, hleads, hlast, hfew, rfl⟩
    cases hrun : run given rules vars with
    | error e =>
      -- The process ended before it could make that many applications.
      obtain ⟨more, u, hmore, hmany⟩ := run_eq_error_iff.mp ⟨e, hrun⟩
      have hle := ((hleads.prefix_of_over hlast hmore).filterMap Event.applied?).length_le
      unfold applications at hmany hfew
      omega
    | ok o =>
      obtain ⟨all, last, hall, hlast', -, rfl⟩ := leads_of_run_eq_ok hrun
      obtain ⟨rfl, rfl⟩ := hleads.unique hlast hall hlast'
      rfl

/-- The limit does not matter to the process. -/
theorem leads_capped_iff {limit : Nat} :
    (given.capped limit).Leads s events t ↔ given.Leads s events t := by
  constructor <;> intro h <;> induction h with
  | refl => exact .refl _
  | step first _ ih => exact .step first ih

/-- The two courses name the same rule as their application with a number. -/
theorem applications_getElem?_unique (h : given.Leads s events t) (h' : given.Leads s more u)
    {m : Nat} {rule rule' : Rule} (hrule : (applications events)[m]? = some rule)
    (hrule' : (applications more)[m]? = some rule') : rule = rule' := by
  -- One of the two courses is the beginning of the other.
  rcases h.total h' with ⟨rest, rfl, -⟩ | ⟨rest, rfl, -⟩
  · rw [applications_append, List.getElem?_append_left (List.getElem?_eq_some_iff.mp hrule).1,
      hrule] at hrule'
    exact Option.some.inj hrule'
  · rw [applications_append, List.getElem?_append_left (List.getElem?_eq_some_iff.mp hrule').1,
      hrule'] at hrule
    exact (Option.some.inj hrule).symm

/-- How a run of the rules is bounded. -/
structure Converges (given : Setting) (rules : List Rule) (vars : Bindings) : Prop where
  /-- However far the process goes, there is at most one evaluation for each application, and one
  for each scan and each of the rules that it may have to try. -/
  bounded : ∀ events t, given.Leads (start rules vars) events t →
    events.length ≤ rules.length * (rules.length + 1) / 2 + (applications events).length
  /-- Either it comes to its end, or to an application that is one too many. -/
  stops : ∃ events t, given.Leads (start rules vars) events t ∧
    (given.step t = none ∧ (applications events).length ≤ given.options.maxRuleIterations ∨
      (applications events).length = given.options.maxRuleIterations + 1)
  /-- In the second case, and only then, the run is an error. -/
  fails_iff : (∃ e, run given rules vars = .error e) ↔
    ∃ events t, given.Leads (start rules vars) events t ∧
      given.options.maxRuleIterations < (applications events).length
  /-- The error reports the number of applications that were made, and the rule that was about to be
  applied. -/
  reports : ∀ e, run given rules vars = .error e → e.iterations = given.options.maxRuleIterations ∧
    ∀ events t rule, given.Leads (start rules vars) events t →
      (applications events)[given.options.maxRuleIterations]? = some rule →
      e.lastRule = rule.precondition.source
  /-- Otherwise the run leaves what the process leaves at its end. -/
  succeeds_iff : ∀ o, run given rules vars = .ok o ↔
    ∃ events t, given.Leads (start rules vars) events t ∧ given.step t = none ∧
      (applications events).length ≤ given.options.maxRuleIterations ∧ o = outcomeOf events t
  /-- That is the same with any higher limit. -/
  stable : ∀ o, run given rules vars = .ok o →
    o.applications ≤ given.options.maxRuleIterations ∧
    o.evaluations ≤ rules.length * (rules.length + 1) / 2 + o.applications ∧
    ∀ limit, given.options.maxRuleIterations ≤ limit → run (given.capped limit) rules vars = .ok o
  /-- Without repeating rules a limit of one application a rule is enough. -/
  single : (∀ rule ∈ rules, rule.repeating = false) →
    rules.length ≤ given.options.maxRuleIterations → ∃ o, run given rules vars = .ok o

theorem run_converges (given : Setting) (rules : List Rule) (vars : Bindings) :
    Converges given rules vars := by
  constructor
  case bounded => exact fun events t hleads => hleads.length_le
  case stops =>
    cases hrun : run given rules vars with
    | ok o =>
      obtain ⟨events, t, hleads, hlast, hfew, -⟩ := leads_of_run_eq_ok hrun
      exact ⟨events, t, hleads, .inl ⟨hlast, hfew⟩⟩
    | error e =>
      obtain ⟨-, events, t, before, rule, hleads, heq, hlength, -⟩ := leads_of_run_eq_error hrun
      refine ⟨events, t, hleads, .inr ?_⟩
      rw [heq, List.length_append, hlength, List.length_singleton]
  case fails_iff => exact run_eq_error_iff
  case reports =>
    intro e he
    obtain ⟨hiterations, more, u, before, rule', hmore, heq, hlength, hlast⟩ :=
      leads_of_run_eq_error he
    refine ⟨hiterations, fun events t rule hleads hrule => ?_⟩
    have hrule' : (applications more)[given.options.maxRuleIterations]? = some rule' := by
      rw [heq, ← hlength, List.getElem?_concat_length]
    rw [hlast, applications_getElem?_unique hleads hmore hrule hrule']
  case succeeds_iff => exact fun o => run_eq_ok_iff_leads
  -- A higher limit changes none of the steps, so the same course ends within it.
  case stable =>
    intro o ho
    obtain ⟨events, t, hleads, hlast, hfew, rfl⟩ := leads_of_run_eq_ok ho
    refine ⟨hfew, hleads.length_le, fun limit hlimit => run_eq_ok_iff_leads.mpr ?_⟩
    exact ⟨events, t, leads_capped_iff.mpr hleads, hlast, hfew.trans hlimit, rfl⟩
  case single =>
    intro hsingle hlimit
    cases hrun : run given rules vars with
    | ok o => exact ⟨o, rfl⟩
    | error e =>
      obtain ⟨events, t, hleads, hmany⟩ := run_eq_error_iff.mp ⟨e, hrun⟩
      -- No rule repeats, so the process starts out single.
      have hstart : (start rules vars).Single := fun r hr =>
        hsingle r.2 (List.mem_of_getElem? (mem_ordered_iff.mp hr))
      have hle := hleads.applications_le hstart
      have hall : (start rules vars).untapped.length = rules.length := length_ordered rules
      omega

/-- A repeating rule that turns a light on and off without end. -/
def flipRules : List Rule :=
  [⟨⟨"#FLIP", .call "FLIP" []⟩, none, true, 1.0⟩]

/-- A host that knows how to. -/
def flipSetting : Setting where
  macros := SortedMap.empty.insert "FLIP" fun _ _ vars =>
    (.ok (.flag true), vars.insert "light" (if vars.get? "light" = some "on" then "off" else "on"))
  utterance := .scan "x" 4
  options := { maxRuleIterations := 16 }

example : (match run flipSetting flipRules .empty with
    | .ok _ => false
    | .error e => e = ⟨16, "#FLIP"⟩) = true := by
  decide +kernel

end Rules

end Colloquy
