import Colloquy.Proofs.Session.Course

/-!
# Gates over whole runs

A gate that has been taken stays closed: whatever turns follow one another, in every session that
began with all gates open no two transitions that were committed have the same gate key
(`play_exclusive`).  The table of gates holds just the keys of these transitions, each with the
count one, and no turn removes a key.

`GateTable.Takes` says that keys are taken one after the other, each while it is open; it holds of
the keys that the legs of a turn commit (`steps_takes`), and from there of whole runs
(`play_takes`).  `TurnSetting.Commits` says what transition a leg commits, if any; the keys are the
gates of these, with the target they led to and the values when the offer was made (`keyOf_eq`).
-/

namespace Colloquy

/-! ### Taking open gates -/

/-- Taking the keys one after the other, each while it is open, leads from one table to the
other. -/
inductive GateTable.Takes : GateTable → List GateKey → GateTable → Prop
  | nil {table : GateTable} : Takes table [] table
  | cons {table table' : GateTable} {key : GateKey} {keys : List GateKey}
      (isOpen : table.isClosed key = false) (rest : Takes (table.record key) keys table') :
      Takes table (key :: keys) table'

namespace GateTable

theorem get?_eq_none_of_isOpen {table : GateTable} {key : GateKey}
    (h : table.isClosed key = false) : table.get? key = none := by
  rwa [isClosed, SortedMap.contains, Option.isSome_eq_false_iff, Option.isNone_iff_eq_none] at h

theorem get?_record_of_isOpen {table : GateTable} {key : GateKey} (h : table.isClosed key = false)
    (other : GateKey) :
    (table.record key).get? other = if other = key then some 1 else table.get? other := by
  rw [record, count, get?_eq_none_of_isOpen h, SortedMap.get?_insert]
  rfl

namespace Takes

theorem append {t₁ t₂ t₃ : GateTable} {keys more : List GateKey} (h : Takes t₁ keys t₂)
    (h' : Takes t₂ more t₃) : Takes t₁ (keys ++ more) t₃ := by
  induction h with
  | nil => exact h'
  | cons isOpen _ ih => exact .cons isOpen (ih h')

/-- No key is taken twice, none that was closed is taken, and nothing else changes. -/
theorem spec {table table' : GateTable} {keys : List GateKey} (h : Takes table keys table') :
    keys.Nodup ∧ (∀ key ∈ keys, table.get? key = none) ∧
      ∀ key, table'.get? key = if key ∈ keys then some 1 else table.get? key := by
  induction h with
  | nil => exact ⟨List.nodup_nil, by simp, by simp⟩
  | @cons table table' key keys isOpen rest ih =>
    obtain ⟨hnodup, hnew, hget⟩ := ih
    -- Once recorded, the first key is closed to all that follow.
    have hkey : key ∉ keys := by
      intro hmem
      have hnone := hnew key hmem
      rw [get?_record_of_isOpen isOpen, if_pos rfl] at hnone
      cases hnone
    refine ⟨List.nodup_cons.mpr ⟨hkey, hnodup⟩, ?_, ?_⟩
    · intro other hother
      rcases List.mem_cons.mp hother with rfl | hother
      · exact get?_eq_none_of_isOpen isOpen
      · have hnone := hnew other hother
        have hne : other ≠ key := fun heq => hkey (heq ▸ hother)
        rwa [get?_record_of_isOpen isOpen, if_neg hne] at hnone
    · intro other
      rw [hget, get?_record_of_isOpen isOpen]
      by_cases hother : other = key
      · simp [hother]
      · simp [hother]

/-- A closed key stays closed. -/
theorem isClosed_of_isClosed {table table' : GateTable} {keys : List GateKey}
    (h : Takes table keys table') {key : GateKey} (hclosed : table.isClosed key = true) :
    table'.isClosed key = true := by
  obtain ⟨-, -, hget⟩ := h.spec
  rw [isClosed, SortedMap.contains, hget]
  split_ifs
  · rfl
  · exact hclosed

/-- From a table without keys, there are as many keys as have been taken. -/
theorem size_eq {table : GateTable} {keys : List GateKey} (h : Takes .empty keys table) :
    table.size = keys.length := by
  obtain ⟨hnodup, -, hget⟩ := h.spec
  have hperm : table.keys.Perm keys := by
    rw [List.perm_ext_iff_of_nodup table.nodup_keys hnodup]
    intro key
    rw [SortedMap.mem_keys_iff, SortedMap.contains, hget]
    by_cases hkey : key ∈ keys <;> simp [hkey]
  rw [← hperm.length_eq, SortedMap.keys, List.length_map]
  rfl

end Takes

end GateTable

/-! ### Turns -/

namespace TurnSetting

variable {given : TurnSetting}

/-- The gate key that a leg commits: that of the candidate which it takes. -/
def keyOf (given : TurnSetting) (leg : Leg) : Option GateKey :=
  (given.survey leg.before leg.source).1.2.bind fun chosen => chosen.1.gate

/-- The gate keys that the first legs of a turn commit, as many legs as the number says. -/
def keysOf (given : TurnSetting) (start : Leg) (n : Nat) : List GateKey :=
  (List.range n).filterMap fun i => (given.leg? start i).bind given.keyOf

theorem keysOf_succ (start : Leg) (n : Nat) :
    given.keysOf start (n + 1) = (given.keyOf start).toList ++
      ((given.onward start).map fun next => given.keysOf next n).getD [] := by
  -- The legs after the first are those of a turn that begins with the second.
  have hrest : (List.range n).filterMap
      ((fun i => (given.leg? start i).bind given.keyOf) ∘ Nat.succ) =
        ((given.onward start).map fun next => given.keysOf next n).getD [] := by
    cases hnext : given.onward start with
    | none =>
      rw [Option.map_none, Option.getD_none, List.filterMap_eq_nil_iff]
      intro i _
      show (given.leg? start (i + 1)).bind _ = none
      rw [leg?_succ', hnext, Option.bind_none, Option.bind_none]
    | some next =>
      rw [Option.map_some, Option.getD_some, keysOf]
      congr 1
      funext i
      show (given.leg? start (i + 1)).bind _ = _
      rw [leg?_succ', hnext, Option.bind_some]
  have hfirst : (given.leg? start 0).bind given.keyOf = given.keyOf start := rfl
  rw [keysOf, List.range_succ_eq_map, List.filterMap_cons, List.filterMap_map, hrest, hfirst]
  cases given.keyOf start <;> rfl

/-- A key that is committed is the gate of the candidate which some leg takes. -/
theorem exists_leg_of_mem_keysOf {start : Leg} {n : Nat} {key : GateKey}
    (h : key ∈ given.keysOf start n) :
    ∃ i leg c place, given.leg? start i = some leg ∧
      given.ViableAt leg.before leg.source place c ∧ c.gate = some key := by
  obtain ⟨i, -, hi⟩ := List.mem_filterMap.mp h
  obtain ⟨leg, hleg, hgate⟩ := Option.bind_eq_some_iff.mp hi
  obtain ⟨⟨c, place⟩, hchoice, hc⟩ := Option.bind_eq_some_iff.mp hgate
  exact ⟨i, leg, c, place, hleg, (given.choice_greatest hchoice).1, hc⟩

/-- A transition as a leg commits it. -/
structure Taking where
  transition : Transition
  /-- The state that it led to. -/
  target : StateId
  /-- The bindings when its gate was looked at. -/
  vars : Bindings

/-- The gate of the transition, with the values that the gated names had. -/
def Taking.gate (taking : Taking) : Option GateKey :=
  gateOf taking.transition taking.target taking.vars

/-- The leg commits the transition: one out of its state that says something under the bindings,
leads to the target and is let in there.  It commits none if it takes an answer, or nothing. -/
inductive Commits (given : TurnSetting) (leg : Leg) : Option Taking → Prop
  | transition {place : Nat} {t : Transition} {text : String} {vars₁ vars₂ : Bindings}
      {src₁ src₂ : Source} {target : StateId}
      (considered : (given.flow.outgoing leg.state given.speaker)[place]? = some t)
      (spoken : given.Says t leg.before.standing.vars
        (given.sourceAt leg.before.standing place leg.source) text vars₁ src₁)
      (leadsTo : given.LeadsTo t vars₁ target)
      (letsIn : given.LetsIn target (vars₁.erase Macro.targetKey) src₁ vars₂ src₂)
      (taken : (given.survey leg.before leg.source).1.2 =
        some (⟨target, t.score, text, withoutRequests vars₂, gateOf t target vars₂, false⟩, place)) :
      Commits given leg (some ⟨t, target, vars₂⟩)
  | answer {c : Candidate} {place : Nat}
      (taken : (given.survey leg.before leg.source).1.2 = some (c, place))
      (fromRule : c.fromRule = true) : Commits given leg none
  | nothing (taken : (given.survey leg.before leg.source).1.2 = none) : Commits given leg none

/-- The key that a leg commits is the gate of the transition which it commits. -/
theorem keyOf_eq (leg : Leg) :
    ∃ taking, given.Commits leg taking ∧ given.keyOf leg = taking.bind Taking.gate := by
  cases hchoice : (given.survey leg.before leg.source).1.2 with
  | none => exact ⟨none, .nothing hchoice, by rw [keyOf, hchoice]; rfl⟩
  | some chosen =>
    obtain ⟨c, place⟩ := chosen
    have hkey : given.keyOf leg = c.gate := by rw [keyOf, hchoice, Option.bind_some]
    rw [hkey]
    cases (given.choice_greatest hchoice).1 with
    | @transition _ t _ _ considered viable =>
      obtain ⟨spoken, leadsTo, letsIn, -⟩ := viable
      exact ⟨some ⟨t, _, _⟩, .transition considered spoken leadsTo letsIn hchoice, rfl⟩
    | answer admitted pending answers =>
      exact ⟨none, .answer hchoice answers.fromRule_eq, answers.gate_eq⟩

/-- The first legs of a turn, as many as the number says. -/
def legs (given : TurnSetting) (start : Leg) (n : Nat) : List Leg :=
  (List.range n).filterMap (given.leg? start)

theorem keysOf_eq (start : Leg) (n : Nat) :
    given.keysOf start n = (given.legs start n).filterMap given.keyOf := by
  rw [keysOf, legs, List.filterMap_filterMap]

/-- A step takes the key that it commits, which is open, and no other. -/
theorem step_takes (leg : Leg) :
    (given.step leg.before leg.source).1.Holds fun q =>
      leg.before.standing.gates.Takes (given.keyOf leg).toList q.standing.gates := by
  obtain ⟨p, src⟩ := leg
  have hcommit : ∀ c place, (given.survey p src).1.2 = some (c, place) →
      p.standing.gates.Takes c.gate.toList (gatesAfter p.standing.gates c) := by
    intro c place hchoice
    have hopen := (given.choice_greatest hchoice).1.gate_open given
    unfold gatesAfter
    cases hgate : c.gate with
    | none => exact .nil
    | some key => exact .cons (hopen key hgate) .nil
  have hsettles := given.step_settles p src
  rw [keyOf]
  dsimp only
  generalize (given.step p src).1 = m at hsettles ⊢
  generalize (given.survey p src).1.2 = choice at hsettles hcommit ⊢
  -- Only taking a candidate touches the table.
  cases hsettles with
  | answer | answerOnward | arrival | hop => exact hcommit _ _ rfl
  | finish | errorSuccessor | stay | fallback => exact .nil
  | stuckUser | stuckSystem => trivial

theorem steps_takes (n : Nat) : ∀ (start : Leg) {q : Progress} {src : Source},
    given.steps n start.before start.source = (.ok q, src) →
      start.before.standing.gates.Takes (given.keysOf start n) q.standing.gates := by
  induction n with
  | zero =>
    intro start q src h
    obtain ⟨hq, -⟩ := Prod.mk.inj h
    rw [← Except.ok.inj hq]
    exact .nil
  | succ n ih =>
    intro start q src h
    have htakes := given.step_takes start
    rw [keysOf_succ]
    rw [steps_succ] at h
    rcases hmove : given.step start.before start.source with ⟨p | p | e, src'⟩
    · -- The turn goes on: what this step commits comes before what the others do.
      have hnext : given.onward start = some ⟨p, src'⟩ := onward_eq_some_iff.mpr hmove
      rw [hmove] at h htakes
      rw [hnext]
      exact htakes.append (ih ⟨p, src'⟩ h)
    · -- The turn ends here, and so do the keys.
      have hnone : given.onward start = none := by
        unfold onward
        rw [hmove]
      rw [hmove] at h htakes
      obtain ⟨hq, -⟩ := Prod.mk.inj h
      rw [hnone, Option.map_none, Option.getD_none, List.append_nil, ← Except.ok.inj hq]
      exact htakes
    · rw [hmove] at h
      cases h

end TurnSetting

/-! ### Runs -/

namespace Session

variable {flow : Flow}

/-- The gate keys that a turn commits: those of its legs if it succeeds, none if it fails. -/
def committedKeys (flow : Flow) (speaker : Speaker) (utterance : Option String) (s : Session) :
    List GateKey :=
  match (s.turn flow speaker utterance).1,
    prepare flow (heard flow utterance) speaker s.standing with
  | .ok _, .ok (st, _) =>
    (setting flow speaker utterance).keysOf ⟨.opening st, s.source⟩
      (flow.stateCount + 1)
  | _, _ => []

/-- A run of turns, successful or failing, of either side: the gate keys that are committed on the
way, and the session after it. -/
def play (flow : Flow) : List (Speaker × Option String) → Session → List GateKey × Session
  | [], s => ([], s)
  | (speaker, utterance) :: more, s =>
    let (keys, s') := play flow more (s.turn flow speaker utterance).2
    (s.committedKeys flow speaker utterance ++ keys, s')

/-- The keys that a turn commits are those of its legs, after its update rules. -/
theorem exists_prepare_of_mem_committedKeys {s : Session} {speaker : Speaker}
    {utterance : Option String} {key : GateKey} (h : key ∈ s.committedKeys flow speaker utterance) :
    ∃ st outcome, prepare flow (heard flow utterance) speaker s.standing = .ok (st, outcome) ∧
      key ∈ (setting flow speaker utterance).keysOf ⟨.opening st, s.source⟩
        (flow.stateCount + 1) := by
  unfold committedKeys at h
  split at h
  · rename_i hprepare
    exact ⟨_, _, hprepare, h⟩
  · cases h

/-- The legs of a turn that succeeds; of a turn that fails nothing is committed. -/
def legs (flow : Flow) (speaker : Speaker) (utterance : Option String) (s : Session) : List Leg :=
  match (s.turn flow speaker utterance).1,
    prepare flow (heard flow utterance) speaker s.standing with
  | .ok _, .ok (st, _) =>
    (setting flow speaker utterance).legs ⟨.opening st, s.source⟩ (flow.stateCount + 1)
  | _, _ => []

/-- The legs of all turns in a run that succeed, each with what its turn is given. -/
def course (flow : Flow) : List (Speaker × Option String) → Session → List (TurnSetting × Leg)
  | [], _ => []
  | (speaker, utterance) :: more, s =>
    (s.legs flow speaker utterance).map (setting flow speaker utterance, ·) ++
      course flow more (s.turn flow speaker utterance).2

theorem committedKeys_eq (s : Session) (speaker : Speaker) (utterance : Option String) :
    s.committedKeys flow speaker utterance =
      (s.legs flow speaker utterance).filterMap (setting flow speaker utterance).keyOf := by
  unfold committedKeys legs
  split
  · exact TurnSetting.keysOf_eq _ _
  · rfl

/-- The keys of a run are those of its legs. -/
theorem play_keys_eq (calls : List (Speaker × Option String)) (s : Session) :
    (s.play flow calls).1 = (s.course flow calls).filterMap fun l => l.1.keyOf l.2 := by
  induction calls generalizing s with
  | nil => rfl
  | cons call more ih =>
    obtain ⟨speaker, utterance⟩ := call
    show s.committedKeys flow speaker utterance ++ (play flow more _).1 = _
    rw [ih, committedKeys_eq, course, List.filterMap_append, List.filterMap_map]
    rfl

/-- For legs in a row there are the transitions that they commit, and the gates of these are the
keys of the legs. -/
theorem exists_commits (legs : List (TurnSetting × Leg)) :
    ∃ takings : List (Option TurnSetting.Taking),
      List.Forall₂ (fun l taking => l.1.Commits l.2 taking) legs takings ∧
        (legs.filterMap fun l => l.1.keyOf l.2) =
          takings.filterMap fun taking => taking.bind TurnSetting.Taking.gate := by
  induction legs with
  | nil => exact ⟨[], .nil, rfl⟩
  | cons l legs ih =>
    obtain ⟨takings, hcommits, hkeys⟩ := ih
    obtain ⟨taking, hcommit, hkey⟩ := l.1.keyOf_eq l.2
    refine ⟨taking :: takings, .cons hcommit hcommits, ?_⟩
    rw [List.filterMap_cons, List.filterMap_cons, hkey, hkeys]

/-- A turn takes the keys that it commits. -/
theorem turn_takes (s : Session) (speaker : Speaker) (utterance : Option String) :
    s.standing.gates.Takes (s.committedKeys flow speaker utterance)
      (s.turn flow speaker utterance).2.standing.gates := by
  unfold committedKeys
  by_cases hfloor : s.standing.speaker = speaker
  · cases hprepare : prepare flow (heard flow utterance) speaker s.standing with
    | error e =>
      rw [turn_of_prepare_error hfloor hprepare]
      exact .nil
    | ok prepared =>
      obtain ⟨st, outcome⟩ := prepared
      rcases hsteps : (setting flow speaker utterance).steps (flow.stateCount + 1)
        (.opening st) s.source with ⟨e | p, src⟩
      · rw [turn_of_steps_error hfloor hprepare hsteps]
        exact .nil
      · obtain ⟨report, hturn, -⟩ := turn_of_steps_ok hfloor hprepare hsteps
        -- Running the rules first leaves the gates alone.
        rw [hturn, ← prepare_gates hprepare]
        exact TurnSetting.steps_takes _ ⟨.opening st, s.source⟩ hsteps
  · rw [turn_of_wrongSpeaker hfloor]
    exact .nil

theorem play_takes (flow : Flow) (calls : List (Speaker × Option String)) :
    ∀ s : Session,
      s.standing.gates.Takes (s.play flow calls).1 (s.play flow calls).2.standing.gates := by
  induction calls with
  | nil => exact fun s => .nil
  | cons call more ih =>
    intro s
    obtain ⟨speaker, utterance⟩ := call
    exact (s.turn_takes speaker utterance).append (ih _)

theorem play_append (calls more : List (Speaker × Option String)) (s : Session) :
    s.play flow (calls ++ more) =
      ((s.play flow calls).1 ++ ((s.play flow calls).2.play flow more).1,
        ((s.play flow calls).2.play flow more).2) := by
  induction calls generalizing s with
  | nil => rfl
  | cons call calls ih =>
    obtain ⟨speaker, utterance⟩ := call
    show (_ ++ (play flow (calls ++ more) _).1, (play flow (calls ++ more) _).2) = _
    rw [ih, ← List.append_assoc]
    rfl

/-- Over any run from a session in which all gates are open, no gate key is committed twice.  These
are the gates of the transitions that the legs of its turns take, in their order.  The table holds
the committed keys and no others, each with the count one, and further turns remove none of them. -/
theorem play_exclusive {s : Session} (hopen : s.standing.gates = .empty)
    (calls : List (Speaker × Option String)) :
    (s.play flow calls).1.Nodup ∧
    (∃ takings, List.Forall₂ (fun l taking => l.1.Commits l.2 taking) (s.course flow calls) takings ∧
      (s.play flow calls).1 = takings.filterMap fun taking => taking.bind TurnSetting.Taking.gate) ∧
    (∀ key, (s.play flow calls).2.standing.gates.get? key =
      if key ∈ (s.play flow calls).1 then some 1 else none) ∧
    (s.play flow calls).2.standing.gates.size = (s.play flow calls).1.length ∧
    ∀ more key, (s.play flow calls).2.standing.gates.isClosed key = true →
      (s.play flow (calls ++ more)).2.standing.gates.isClosed key = true := by
  have htakes := play_takes flow calls s
  rw [hopen] at htakes
  obtain ⟨hnodup, -, hget⟩ := htakes.spec
  refine ⟨hnodup, play_keys_eq calls s ▸ exists_commits _, hget, htakes.size_eq,
    fun more key hclosed => ?_⟩
  rw [play_append]
  exact (play_takes flow more _).isClosed_of_isClosed hclosed

/-- The same guest is back on the porch, where the gate to the hall is closed: the only transition
is not viable any more, and the run has committed one key. -/
theorem play_exclusive_tour :
    let calls : List (Speaker × Option String) :=
      [(.system, none), (.user, some "again"), (.system, none)]
    (start .tour (.mixed 7)).standing.gates = .empty ∧
    ((start .tour (.mixed 7)).play .tour calls).1 = [⟨1, [⟨"guest", none⟩]⟩] ∧
    ((start .tour (.mixed 7)).play .tour calls).2.standing.gates.size = 1 ∧
    let s := ((start .tour (.mixed 7)).play .tour (calls.take 2)).2
    ((setting .tour .system none).survey (.opening s.standing) s.source).1.1.map (·.trace.verdict) =
      [.gated] := by
  intro calls
  have hopen : (start .tour (.mixed 7)).standing.gates = .empty := rfl
  have hkeys : ((start .tour (.mixed 7)).play .tour calls).1 = [⟨1, [⟨"guest", none⟩]⟩] := by
    decide +kernel
  refine ⟨hopen, hkeys, ?_, by decide +kernel⟩
  rw [(play_exclusive hopen calls).2.2.2.1, hkeys, List.length_singleton]

end Session

end Colloquy
