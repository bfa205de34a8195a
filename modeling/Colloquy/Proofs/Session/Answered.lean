import Colloquy.Proofs.Flow.Greedy
import Colloquy.Proofs.Session.Floor

/-!
# The bindings of an answer

A rule with a postcondition is kept until it answers together with what its match added to the
bindings or changed in them (`Rules.delta`).  When it answers, this is written over the bindings of
the session (`RuleAnswer.extend`).

So if the session still has the bindings that the rule was matched under, the answer is generated
under those that the match left, and under what the match had removed as well
(`RuleAnswer.get?_extend`): they are the bindings that the match left just if it removed none.
`answer_speaks_from` follows a pending answer through the history of a session.
-/

namespace Colloquy

/-! ### What a match adds and changes -/

/-- A name has a value in the difference if it has that value after the match, and not before. -/
theorem Rules.get?_delta_eq_some_iff {before after : Bindings} {name value : String} :
    (delta before after).get? name = some value ↔
      after.get? name = some value ∧ before.get? name ≠ some value := by
  have hnodup : ∀ p, ((after.entries.filter p).map (·.1)).Nodup := fun p =>
    after.nodup_keys.sublist (List.filter_sublist.map _)
  rw [← SortedMap.mem_entries_iff, delta, (SortedMap.entries_ofList_perm (hnodup _)).mem_iff,
    List.mem_filter, SortedMap.mem_entries_iff, bne_iff_ne]

/-- The bindings with those of the answer written over them. -/
def RuleAnswer.extend (answer : RuleAnswer) (vars : Bindings) : Bindings :=
  answer.delta.entries.foldl (fun vars e => vars.insert e.1 e.2) vars

namespace RuleAnswer

variable {answer : RuleAnswer} {before after : Bindings}

/-- The bindings under which the answer is generated: those that the match left and, where it left
none, those from before it. -/
theorem get?_extend (h : answer.delta = Rules.delta before after) (name : String) :
    (answer.extend before).get? name = (after.get? name).or (before.get? name) := by
  rw [extend, SortedMap.get?_foldl_insert _ answer.delta.ascending]
  show (answer.delta.get? name).or (before.get? name) = _
  rw [h]
  cases hdelta : (Rules.delta before after).get? name with
  | some value =>
    rw [(Rules.get?_delta_eq_some_iff.mp hdelta).1, Option.some_or]
  | none =>
    cases hafter : after.get? name with
    | none => rfl
    | some value =>
      -- The match left the value that was there before.
      have hsame : before.get? name = some value := by
        by_contra hne
        rw [Rules.get?_delta_eq_some_iff.mpr ⟨hafter, hne⟩] at hdelta
        cases hdelta
      rw [hsame]
      rfl

/-- They are those that the match left just if it removed none. -/
theorem extend_eq_iff (h : answer.delta = Rules.delta before after) :
    answer.extend before = after ↔
      ∀ name, before.contains name = true → after.contains name = true := by
  constructor
  · intro heq name hbefore
    rw [SortedMap.contains, ← heq, get?_extend h]
    cases hafter : after.get? name with
    | some value => rfl
    | none => rwa [Option.none_or]
  · intro hkept
    refine SortedMap.ext_get? fun name => ?_
    rw [get?_extend h]
    cases hafter : after.get? name with
    | some value => rfl
    | none =>
      -- What is not there after the match was not there before it.
      cases hbefore : before.get? name with
      | none => rfl
      | some value =>
        have hcontains := hkept name (by rw [SortedMap.contains, hbefore]; rfl)
        rw [SortedMap.contains, hafter] at hcontains
        cases hcontains

end RuleAnswer

/-- The answer of a run is that of a rule which matched under the last bindings. -/
theorem Rules.answer_of_run {given : Setting} {rules : List Rule} {vars : Bindings}
    {o : RuleOutcome} (h : run given rules vars = .ok o) {answer : RuleAnswer}
    (hanswer : o.answer = some answer) :
    ∃ rule post after, rules[answer.rule]? = some rule ∧ rule.postcondition = some post ∧
      answer.score = rule.score ∧ given.applies rule o.vars = some after ∧
        answer.delta = delta o.vars after := by
  obtain ⟨rounds, hgreedy, -, -⟩ := run_eq_ok_iff.mp ⟨o.evaluations, h⟩
  obtain ⟨rule, after, hlast, happlies, heq⟩ := hgreedy.answer_eq answer hanswer
  obtain ⟨r, hr, hpost⟩ := hgreedy.answer_isSome_iff.mp (by rw [hanswer]; rfl)
  obtain rfl := Option.some.inj (hlast.symm.trans hr)
  obtain ⟨post, hpost⟩ := Option.isSome_iff_exists.mp hpost
  have hrule := mem_ordered_iff.mp (hgreedy.mem_order _ (List.mem_of_getLast? hlast))
  exact ⟨rule, post, after, hrule, hpost, by rw [heq], happlies, by rw [heq]⟩

/-! ### The offer of an answer -/

namespace TurnSetting

variable (given : TurnSetting)

/-- The offer of an answer whose postcondition is generated under the bindings. -/
def answerUnder (st : Standing) (answer : RuleAnswer) (rule : Rule) (post : Phrase)
    (vars : Bindings) : Draw Offer := do
  let trace (verdict : Verdict) : CandidateTrace :=
    ⟨rule.precondition.source, given.stateName st.state, answer.score, verdict⟩
  match ← Generation.generate given.flow.macros post.tree vars with
  | none => return ⟨trace .unresolved, none⟩
  | some g =>
    return ⟨trace .viable,
      some ⟨st.state, answer.score, g.text, withoutRequests g.vars, none, true⟩⟩

theorem answerOffer_eq {st : Standing} {answer : RuleAnswer} {rule : Rule} {post : Phrase}
    (hrule : given.flow.rules[answer.rule]? = some rule) (hpost : rule.postcondition = some post)
    (src : Source) :
    (given.answerOffer st answer src).1 =
      some (given.answerUnder st answer rule post (answer.extend st.vars) src).1 := by
  rw [answerOffer, hrule]
  dsimp only
  rw [hpost]
  dsimp only
  rw [answerUnder, Draw.bind_apply, Draw.bind_apply, RuleAnswer.extend]
  generalize Generation.generate given.flow.macros post.tree
    (answer.delta.entries.foldl (fun vars e => vars.insert e.1 e.2) st.vars) src = generated
  rcases generated with ⟨_ | g, src'⟩ <;> rfl

variable {given} in
/-- The first step of a system turn considers the pending answer after the transitions. -/
theorem survey_answer {st : Standing} {answer : RuleAnswer} {rule : Rule} {post : Phrase}
    (hsystem : given.speaker = .system) (hpending : st.pending = some answer)
    (hrule : given.flow.rules[answer.rule]? = some rule) (hpost : rule.postcondition = some post)
    (src : Source) :
    (given.survey (.opening st) src).1.1[(given.flow.outgoing st.state given.speaker).length]? =
      some (given.answerUnder st answer rule post (answer.extend st.vars) (given.sourceAt st
        (given.flow.outgoing st.state given.speaker).length src)).1 := by
  have hadmits : given.admitsAnswer (.opening st) = true := by
    rw [admitsAnswer, hsystem]
    rfl
  rw [survey_offers, hadmits]
  show (given.offers st true src).1[_]? = _
  rw [offers_getElem?_answer, hpending]
  exact given.answerOffer_eq hrule hpost _

end TurnSetting

namespace Session

variable {flow : Flow} {src : Source} {calls : List Call}

/-- What the update rules of a user turn are given. -/
def rulesSetting (flow : Flow) (utterance : Option String) : Rules.Setting :=
  ⟨flow.macros, heard flow utterance, flow.options⟩

/-- The update rules that a user turn runs come to the bindings `vars`, under which the rule of the
answer matches.  The match leaves the bindings `after`. -/
structure Fired (flow : Flow) (utterance : Option String) (s : Session) (answer : RuleAnswer)
    (rule : Rule) (post : Phrase) (vars after : Bindings) : Prop where
  run_eq : ∃ outcome, Rules.run (rulesSetting flow utterance) flow.rules s.standing.vars =
    .ok outcome ∧ outcome.answer = some answer ∧ outcome.vars = vars
  isRule : flow.rules[answer.rule]? = some rule
  hasPost : rule.postcondition = some post
  applies : (rulesSetting flow utterance).applies rule vars = some after

/-- Whatever is left of the source, the first step of a system turn considers the answer as its
postcondition generates under the bindings. -/
def SpeaksFrom (flow : Flow) (st : Standing) (answer : RuleAnswer) (rule : Rule) (post : Phrase)
    (vars : Bindings) : Prop :=
  ∀ utterance src,
    ((setting flow .system utterance).survey (.opening st) src).1.1[
        (flow.outgoing st.state .system).length]? =
      some ((setting flow .system utterance).answerUnder st answer rule post vars
        ((setting flow .system utterance).sourceAt st (flow.outgoing st.state .system).length
          src)).1

/-- An answer that is pending has been given by a rule which fired in a user turn, and nothing has
succeeded since.  The next system turn generates its postcondition under the present bindings, with
the answer written over them.  If these are still the bindings under which the rule matched, then
they become those that its match left, except that what the match removed is there again. -/
theorem answer_speaks_from (hbuilt : flow.Built) (src : Source) (calls : List Call) (k : Nat)
    {answer : RuleAnswer} (h : (before flow src calls k).standing.pending = some answer) :
    ∃ i < k, ∃ utterance rule post vars after,
      calls[i]? = some (.turn .user utterance) ∧
      Fired flow utterance (before flow src calls i) answer rule post vars after ∧
      (∀ m, i < m → m < k → ¬ SucceedsAt flow src calls m) ∧
      SpeaksFrom flow (before flow src calls k).standing answer rule post
        (answer.extend (before flow src calls k).standing.vars) ∧
      ((before flow src calls k).standing.vars = vars →
        (∀ name, (answer.extend (before flow src calls k).standing.vars).get? name =
          (after.get? name).or (vars.get? name)) ∧
        (answer.extend (before flow src calls k).standing.vars = after ↔
          ∀ name, vars.contains name = true → after.contains name = true)) := by
  -- The answer comes from the last call that succeeded, a turn of the user.
  obtain ⟨i, hi, hprompts, hsince⟩ := exists_prompted hbuilt h
  obtain ⟨utterance, hcall, -, outcome, hrun, hanswer⟩ := hprompts
  obtain ⟨rule, post, after, hrule, hpost, -, happlies, hdelta⟩ := Rules.answer_of_run hrun hanswer
  refine ⟨i, hi, utterance, rule, post, outcome.vars, after, hcall,
    ⟨⟨outcome, hrun, hanswer, rfl⟩, hrule, hpost, happlies⟩, hsince, ?_, ?_⟩
  · exact fun _ src' => TurnSetting.survey_answer rfl h hrule hpost src'
  · -- If the bindings are those that the rule has seen, what is extended can be compared with what
    -- it left.
    intro hvars
    rw [hvars]
    exact ⟨RuleAnswer.get?_extend hdelta, RuleAnswer.extend_eq_iff hdelta⟩

end Session

/-- A conversation about a name that the host may be told to forget.  The system then takes leave,
by that name if it knows one. -/
def Builder.farewell : Builder :=
  [Builder.Call.setMacros (Macro.Registry.register .builtin "FORGET" fun _ _ vars =>
      (.ok (.flag true), vars.erase "name")),
    .addTransition (.plain "a") (.plain "a") .user "hello" 1.0 none,
    .addTransition (.plain "a") (.plain "b") .system "done" 0.5 none,
    .addUpdateRule "[!forget me, #FORGET]" (some "goodbye $name") false 1.0,
    .setInitialSpeaker .user].foldl (fun b c => (c.run b).2) {}

def Flow.farewell : Flow := .ofBuilder .farewell

theorem Flow.farewell_built : Flow.farewell.Built :=
  ofBuilder_built (.calls .fresh _) (by decide +kernel) (by decide +kernel)

namespace Session

def bob : Bindings :=
  SortedMap.empty.insert "name" "bob"

/-- The name is known, and the user wants it forgotten. -/
def farewellTurns : List Call :=
  [.restore ⟨"a", .user, bob, []⟩, .turn .user (some "forget me"), .turn .system none]

/-- The rule matches and leaves nothing bound.  Its postcondition says nothing under these bindings,
and still the system takes leave by the name that was forgotten. -/
theorem farewell_recalls :
    (before .farewell (.mixed 7) farewellTurns 2).standing.vars = bob ∧
    (Flow.farewell.rules.map fun rule =>
      (rulesSetting .farewell (some "forget me")).applies rule bob) = [some .empty] ∧
    (Flow.farewell.rules.map fun rule => rule.postcondition.map fun post =>
      (Generation.generate Flow.farewell.macros post.tree .empty (.mixed 7)).1.isSome) =
        [some false] ∧
    (match ((before .farewell (.mixed 7) farewellTurns 2).turn .farewell .system none).1 with
      | .ok report => report.output
      | .error _ => "") = "goodbye bob" := by
  decide +kernel

theorem answer_speaks_from_farewell :
    ∃ answer rule post after,
      (before .farewell (.mixed 7) farewellTurns 2).standing.pending = some answer ∧
      Fired .farewell (some "forget me") (before .farewell (.mixed 7) farewellTurns 1) answer rule
        post bob after ∧
      SpeaksFrom .farewell (before .farewell (.mixed 7) farewellTurns 2).standing answer rule post
        (answer.extend bob) ∧
      after.get? "name" = none ∧ (answer.extend bob).get? "name" = some "bob" := by
  have hpending : (before .farewell (.mixed 7) farewellTurns 2).standing.pending.isSome = true := by
    decide +kernel
  have hbob : (before .farewell (.mixed 7) farewellTurns 2).standing.vars = bob := by
    decide +kernel
  obtain ⟨answer, hanswer⟩ := Option.isSome_iff_exists.mp hpending
  obtain ⟨i, hi, utterance, rule, post, vars, after, hcall, hfired, -, hspeaks, hvars⟩ :=
    answer_speaks_from Flow.farewell_built (.mixed 7) farewellTurns 2 hanswer
  -- Of the two calls before, only the second is a turn.
  obtain rfl : i = 1 := by
    rcases Nat.lt_succ_iff_lt_or_eq.mp hi with hzero | hone
    · obtain rfl := Nat.lt_one_iff.mp hzero
      cases hcall
    · exact hone
  obtain rfl : some "forget me" = utterance := (Call.turn.inj (Option.some.inj hcall)).2
  obtain ⟨outcome, hrun, -, rfl⟩ := id hfired.run_eq
  have hunchanged : (match Rules.run (rulesSetting .farewell (some "forget me"))
        Flow.farewell.rules (before .farewell (.mixed 7) farewellTurns 1).standing.vars with
      | .ok outcome => decide (outcome.vars = bob)
      | .error _ => false) = true := by
    decide +kernel
  rw [hrun] at hunchanged
  have hsame : outcome.vars = bob := of_decide_eq_true hunchanged
  have hforgotten : ∀ rule ∈ Flow.farewell.rules,
      (rulesSetting .farewell (some "forget me")).applies rule bob = some .empty := by
    decide +kernel
  rw [hsame] at hfired hvars
  rw [hbob] at hspeaks hvars
  obtain rfl := Option.some.inj
    ((hforgotten rule (List.mem_of_getElem? hfired.isRule)).symm.trans hfired.applies)
  exact ⟨answer, rule, post, _, hanswer, hfired, hspeaks, rfl, (hvars rfl).1 "name"⟩

end Session

end Colloquy
