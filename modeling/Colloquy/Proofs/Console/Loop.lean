import Mathlib.Data.List.Chain
import Colloquy.Console.Conversation
import Colloquy.Proofs.Session.Floor

/-!
# The console loop

At the console the side that holds the floor gets its turn, over and over.  `pass` is one round of
this loop and `Runs` says that the loop comes to its end through the given rounds; neither knows
that a system turn hands the floor to the user.

Since it does, the loop always ends, never takes two system turns without a line between them, and
comes to what `converse` says (`exists_runs`), which takes one system turn at most before each line.
-/

namespace Colloquy

namespace Console

/-- What a round of the loop was. -/
inductive Beat
  /-- The system had its turn. -/
  | speech
  /-- A line was read. -/
  | line
  /-- The input was found at its end. -/
  | close
  deriving DecidableEq

/-- What follows a round. -/
inductive Outlook
  /-- The loop is over, well or not. -/
  | over (ok : Bool)
  /-- It goes on with the lines that are left. -/
  | goOn (s : Session) (lines : List String)

variable (flow : Flow) (verbose : Bool)

/-- One round of the loop. -/
def pass (s : Session) (lines : List String) : Beat × List Event × Outlook :=
  match s.standing.speaker with
  | .system =>
    match speak flow verbose s with
    | (events, none) => (.speech, events, .over false)
    | (events, some s) => (.speech, events, .goOn s lines)
  | .user =>
    match lines with
    | [] => (.close, [.prompt], .over true)
    | line :: rest =>
      match hear flow verbose line s with
      | (heard, none) => (.line, .prompt :: heard, .over false)
      | (heard, some s) => (.line, .prompt :: heard, .goOn s rest)

/-- From the session, with the lines to be read, the loop comes to its end through the rounds, with
the events and as well as the truth value says. -/
inductive Runs : Session → List String → List Beat → List Event × Bool → Prop
  | last {s : Session} {lines : List String} {beat : Beat} {events : List Event} {ok : Bool}
      (ends : pass flow verbose s lines = (beat, events, .over ok)) :
      Runs s lines [beat] (events, ok)
  | next {s s' : Session} {lines lines' : List String} {beat : Beat} {beats : List Beat}
      {events more : List Event} {ok : Bool}
      (goesOn : pass flow verbose s lines = (beat, events, .goOn s' lines'))
      (rest : Runs s' lines' beats (more, ok)) :
      Runs s lines (beat :: beats) (events ++ more, ok)

variable {flow : Flow} {verbose : Bool}

/-- The loop has one course only. -/
theorem Runs.unique {s : Session} {lines : List String} {beats beats' : List Beat}
    {outcome outcome' : List Event × Bool} (h : Runs flow verbose s lines beats outcome)
    (h' : Runs flow verbose s lines beats' outcome') : beats = beats' ∧ outcome = outcome' := by
  induction h generalizing beats' outcome' with
  | last ends =>
    cases h' with
    | last ends' =>
      cases ends.symm.trans ends'
      exact ⟨rfl, rfl⟩
    | next goesOn' => cases ends.symm.trans goesOn'
  | next goesOn _ ih =>
    cases h' with
    | last ends' => cases goesOn.symm.trans ends'
    | next goesOn' rest' =>
      cases goesOn.symm.trans goesOn'
      obtain ⟨rfl, hevents⟩ := ih rest'
      obtain ⟨rfl, rfl⟩ := Prod.mk.inj hevents
      exact ⟨rfl, rfl⟩

/-! ### Turns at the console -/

theorem speak_of_user {s : Session} (h : s.standing.speaker = .user) :
    speak flow verbose s = ([], some s) := by
  rw [speak, h]

/-- When the system has spoken, the user holds the floor. -/
theorem speak_of_system (hbuilt : flow.Built) {s s' : Session} {events : List Event}
    (hs : Session.Reachable flow s) (h : s.standing.speaker = .system)
    (hspeak : speak flow verbose s = (events, some s')) :
    Session.Reachable flow s' ∧ s'.standing.speaker = .user := by
  rw [speak, h] at hspeak
  dsimp only at hspeak
  rcases hturn : s.systemTurn flow with ⟨e | report, after⟩
  · rw [hturn] at hspeak
    cases hspeak
  · rw [hturn] at hspeak
    cases hspeak
    have hafter : (s.turn flow .system none).2 = s' := congrArg Prod.snd hturn
    rw [← hafter]
    exact ⟨.turn .system none hs, (hs.floor hbuilt (congrArg Prod.fst hturn)).2.1⟩

theorem reachable_hear {s s' : Session} {line : String} {events : List Event}
    (hs : Session.Reachable flow s) (hhear : hear flow verbose line s = (events, some s')) :
    Session.Reachable flow s' := by
  unfold hear at hhear
  dsimp only at hhear
  split at hhear
  · cases hhear
    exact hs
  · have hturn := Session.Reachable.turn .user (some (String.ofList (Text.trim line.toList))) hs
    rw [Session.userTurn] at hhear
    generalize s.turn flow .user (some (String.ofList (Text.trim line.toList))) = result
      at hhear hturn
    split at hhear <;> cases hhear <;> exact hturn

/-! ### The whole loop -/

/-- Once the system has spoken, the conversation goes on as one in which the user begins. -/
theorem converse_of_speak {s s' : Session} {events : List Event}
    (hspeak : speak flow verbose s = (events, some s')) (h : s'.standing.speaker = .user)
    (lines : List String) :
    converse flow verbose s lines =
      (events ++ (converse flow verbose s' lines).1, (converse flow verbose s' lines).2) := by
  unfold converse
  rw [hspeak, speak_of_user h]
  cases lines with
  | nil => rfl
  | cons line rest =>
    dsimp only
    rcases hear flow verbose line s' with ⟨heard, _ | after⟩
    · rfl
    · simp only [List.nil_append, List.cons_append, List.append_assoc]

/-- The rounds alternate as they should, and the loop comes to what `converse` says through them. -/
structure Follows (flow : Flow) (verbose : Bool) (s : Session) (lines : List String)
    (beats : List Beat) : Prop where
  runs : Runs flow verbose s lines beats (converse flow verbose s lines)
  /-- No system turn comes right after another one. -/
  alternate : beats.IsChain fun a b => ¬ (a = .speech ∧ b = .speech)
  length_le : beats.length ≤ 2 * lines.length + 2

/-- The loop from a session whose floor the system holds, if it is known from all others. -/
theorem exists_follows_system (hbuilt : flow.Built) {lines : List String}
    (huser : ∀ s, Session.Reachable flow s → s.standing.speaker = .user →
      ∃ beats, Follows flow verbose s lines beats ∧ beats.head? ≠ some .speech ∧
        beats.length ≤ 2 * lines.length + 1) {s : Session} (hs : Session.Reachable flow s)
    (h : s.standing.speaker = .system) : ∃ beats, Follows flow verbose s lines beats := by
  rcases hspeak : speak flow verbose s with ⟨events, _ | s'⟩
  · refine ⟨[.speech], ?_, by simp, by simp⟩
    -- Speaking ends the conversation.
    have hconverse : converse flow verbose s lines = (events, false) := by
      unfold converse
      rw [hspeak]
    rw [hconverse]
    exact .last (by unfold pass; rw [h]; dsimp only; rw [hspeak])
  · obtain ⟨hs', huser'⟩ := speak_of_system hbuilt hs h hspeak
    obtain ⟨beats, hfollows, hhead, hlength⟩ := huser s' hs' huser'
    refine ⟨.speech :: beats, ?_, ?_, Nat.succ_le_succ hlength⟩
    · rw [converse_of_speak hspeak huser']
      exact .next (by unfold pass; rw [h]; dsimp only; rw [hspeak]) hfollows.runs
    · refine List.isChain_cons.mpr ⟨?_, hfollows.alternate⟩
      -- The user's part does not begin with another speech.
      rintro beat hbeat ⟨-, rfl⟩
      exact hhead hbeat

theorem exists_follows_user (hbuilt : flow.Built) (lines : List String) :
    ∀ s, Session.Reachable flow s → s.standing.speaker = .user →
      ∃ beats, Follows flow verbose s lines beats ∧ beats.head? ≠ some .speech ∧
        beats.length ≤ 2 * lines.length + 1 := by
  induction lines with
  | nil =>
    intro s _ h
    have hconverse : converse flow verbose s [] = ([.prompt], true) := by
      unfold converse
      rw [speak_of_user h]
      rfl
    refine ⟨[.close], ⟨?_, by simp, by simp⟩, by simp, by simp⟩
    rw [hconverse]
    exact .last (by rw [pass, h])
  | cons line rest ih =>
    intro s hs h
    rcases hhear : hear flow verbose line s with ⟨heard, _ | s'⟩
    · have hconverse : converse flow verbose s (line :: rest) = (.prompt :: heard, false) := by
        unfold converse
        rw [speak_of_user h]
        dsimp only
        rw [hhear]
        rfl
      refine ⟨[.line], ⟨?_, by simp, by simp⟩, by simp, by simp⟩
      rw [hconverse]
      exact .last (by rw [pass, h]; dsimp only; rw [hhear])
    · have hconverse : converse flow verbose s (line :: rest) =
          (.prompt :: heard ++ (converse flow verbose s' rest).1,
            (converse flow verbose s' rest).2) := by
        rw [converse, speak_of_user h]
        dsimp only
        rw [hhear]
        rfl
      have hs' := reachable_hear hs hhear
      -- The system may hold the floor now; the user does if the line was blank or refused.
      obtain ⟨beats, hfollows⟩ : ∃ beats, Follows flow verbose s' rest beats := by
        cases hspeaker : s'.standing.speaker with
        | system => exact exists_follows_system hbuilt ih hs' hspeaker
        | user =>
          obtain ⟨beats, hfollows, -, -⟩ := ih s' hs' hspeaker
          exact ⟨beats, hfollows⟩
      have hlength : (Beat.line :: beats).length ≤ 2 * (line :: rest).length + 1 := by
        have := hfollows.length_le
        simp only [List.length_cons]
        omega
      refine ⟨.line :: beats, ⟨?_, ?_, by omega⟩, by simp, hlength⟩
      · rw [hconverse]
        exact .next (by rw [pass, h]; dsimp only; rw [hhear]) hfollows.runs
      · refine List.isChain_cons.mpr ⟨?_, hfollows.alternate⟩
        rintro beat - ⟨⟨⟩, -⟩

/-- From every reachable session and on every input, the loop ends: it comes to what `converse`
says, in one way only, without taking two system turns between two lines. -/
theorem exists_runs (hbuilt : flow.Built) {s : Session} (hs : Session.Reachable flow s)
    (verbose : Bool) (lines : List String) :
    ∃ beats, Follows flow verbose s lines beats ∧
      ∀ beats' outcome, Runs flow verbose s lines beats' outcome →
        beats' = beats ∧ outcome = converse flow verbose s lines := by
  obtain ⟨beats, hfollows⟩ : ∃ beats, Follows flow verbose s lines beats := by
    cases hspeaker : s.standing.speaker with
    | system =>
      exact exists_follows_system hbuilt (exists_follows_user hbuilt lines) hs hspeaker
    | user =>
      obtain ⟨beats, hfollows, -, -⟩ := exists_follows_user hbuilt lines s hs hspeaker
      exact ⟨beats, hfollows⟩
  exact ⟨beats, hfollows, fun _ _ hruns => hruns.unique hfollows.runs⟩

end Console

namespace Session

/-- Whatever is asked of a fresh session, the floor and the pending answer go through its history as
they should; and wherever that leads, a console loop that goes on from there comes to an end on
every input, with one system turn at most between two lines. -/
theorem floor_discipline {flow : Flow} (hbuilt : flow.Built) (src : Source) (calls : List Call) :
    Disciplined flow src calls ∧
    ∀ verbose lines, ∃ beats,
      Console.Follows flow verbose ((start flow src).after flow calls) lines beats ∧
      ∀ beats' outcome,
        Console.Runs flow verbose ((start flow src).after flow calls) lines beats' outcome →
        beats' = beats ∧
          outcome = Console.converse flow verbose ((start flow src).after flow calls) lines :=
  ⟨disciplined hbuilt src calls, fun verbose lines =>
    Console.exists_runs hbuilt ((Reachable.start src).after calls) verbose lines⟩

theorem floor_discipline_greeting :
    Disciplined .greeting (.mixed 7) [.turn .system none, .turn .user (some "hello")] :=
  (floor_discipline Flow.greeting_built (.mixed 7) _).1

end Session

end Colloquy
