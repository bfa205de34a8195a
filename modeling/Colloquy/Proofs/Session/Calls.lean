import Colloquy.Proofs.Session.Failure

/-!
# Calls in a row

A `Session.Call` is a turn, a reset or a restore.  `Session.before` follows a fresh session through
a list of them: it is the session before the call with a number, so that what is said about whole
histories can speak of the moments in them.

A call that does not succeed leaves the standing as it was (`Call.standing_of_not_succeeds`), so
nothing changes over a stretch of such calls (`standing_before_eq`).
-/

namespace Colloquy.Session

/-- What can be asked of a session. -/
inductive Call
  | turn (speaker : Speaker) (utterance : Option String)
  | reset
  | restore (snap : Snapshot)

namespace Call

/-- The session after a call. -/
def run (flow : Flow) (s : Session) : Call → Session
  | turn speaker utterance => (s.turn flow speaker utterance).2
  | reset => s.reset flow
  | restore snap => (s.restore flow snap).2

/-- The call does not end in an error. -/
def Succeeds (flow : Flow) (s : Session) : Call → Prop
  | turn speaker utterance => ∃ report, (s.turn flow speaker utterance).1 = .ok report
  | reset => True
  | restore snap => (s.restore flow snap).1 = .ok ()

theorem standing_of_not_succeeds {flow : Flow} {s : Session} {c : Call}
    (h : ¬ c.Succeeds flow s) : (c.run flow s).standing = s.standing := by
  cases c with
  | turn speaker utterance =>
    cases hturn : (s.turn flow speaker utterance).1 with
    | ok report => exact absurd ⟨report, hturn⟩ h
    | error e => exact turn_error_standing hturn
  | reset => exact absurd trivial h
  | restore snap =>
    rw [Succeeds, Session.restore] at h
    rw [run, Session.restore]
    cases hresolve : snap.resolve flow with
    | ok st =>
      rw [hresolve] at h
      exact absurd rfl h
    | error name => rfl

end Call

variable {flow : Flow} {src : Source} {calls : List Call}

/-- The session after several calls. -/
def after (flow : Flow) (s : Session) (calls : List Call) : Session :=
  calls.foldl (Call.run flow) s

/-- In the history of a fresh session, the session before the call with a number. -/
def before (flow : Flow) (src : Source) (calls : List Call) (k : Nat) : Session :=
  (start flow src).after flow (calls.take k)

/-- In the history of a fresh session, the call with a number succeeds. -/
def SucceedsAt (flow : Flow) (src : Source) (calls : List Call) (k : Nat) : Prop :=
  ∃ c, calls[k]? = some c ∧ c.Succeeds flow (before flow src calls k)

theorem Reachable.after {s : Session} (h : Reachable flow s) (calls : List Call) :
    Reachable flow (s.after flow calls) := by
  induction calls generalizing s with
  | nil => exact h
  | cons c calls ih =>
    refine ih (s := c.run flow s) ?_
    cases c with
    | turn speaker utterance => exact .turn speaker utterance h
    | reset => exact .reset h
    | restore snap => exact .restore snap h

theorem reachable_before (flow : Flow) (src : Source) (calls : List Call) (k : Nat) :
    Reachable flow (before flow src calls k) :=
  (Reachable.start src).after _

theorem before_succ {k : Nat} {c : Call} (h : calls[k]? = some c) :
    before flow src calls (k + 1) = c.run flow (before flow src calls k) := by
  have hlt : k < calls.length := (List.getElem?_eq_some_iff.mp h).1
  rw [before, List.take_add_one, h, after, List.foldl_append]
  rfl

theorem before_succ_of_none {k : Nat} (h : calls[k]? = none) :
    before flow src calls (k + 1) = before flow src calls k := by
  rw [before, List.take_add_one, h, Option.toList_none, List.append_nil]
  rfl

/-- Nothing changes while no call succeeds. -/
theorem standing_before_eq {j k : Nat} (hjk : j ≤ k)
    (h : ∀ i, j ≤ i → i < k → ¬ SucceedsAt flow src calls i) :
    (before flow src calls k).standing = (before flow src calls j).standing := by
  induction k, hjk using Nat.le_induction with
  | base => rfl
  | succ k hjk ih =>
    rw [← ih fun i hji hik => h i hji (Nat.lt_succ_of_lt hik)]
    cases hc : calls[k]? with
    | none => rw [before_succ_of_none hc]
    | some c =>
      rw [before_succ hc]
      exact Call.standing_of_not_succeeds fun hsucceeds =>
        h k hjk (Nat.lt_succ_self k) ⟨c, hc, hsucceeds⟩

/-- Up to a moment no call has succeeded, or there is one after which none has. -/
theorem exists_last_success (flow : Flow) (src : Source) (calls : List Call) (k : Nat) :
    (∀ i < k, ¬ SucceedsAt flow src calls i) ∨
      ∃ j < k, SucceedsAt flow src calls j ∧
        ∀ i, j < i → i < k → ¬ SucceedsAt flow src calls i := by
  induction k with
  | zero => exact .inl fun i hi => absurd hi (Nat.not_lt_zero i)
  | succ k ih =>
    by_cases hk : SucceedsAt flow src calls k
    · exact .inr ⟨k, Nat.lt_succ_self k, hk, fun i hki hik => absurd hik (Nat.not_lt.mpr hki)⟩
    · have hup : ∀ {i}, i < k + 1 → i ≠ k → i < k := fun hi hne =>
        Nat.lt_of_le_of_ne (Nat.le_of_lt_succ hi) hne
      refine ih.imp (fun h i hi hsucceeds => ?_) fun ⟨j, hj, hsucceeds, hlast⟩ =>
        ⟨j, Nat.lt_succ_of_lt hj, hsucceeds, fun i hji hi hsucceeds => ?_⟩
      · exact h i (hup hi fun heq => hk (heq ▸ hsucceeds)) hsucceeds
      · exact hlast i hji (hup hi fun heq => hk (heq ▸ hsucceeds)) hsucceeds

/-- There is at most one such call. -/
theorem last_success_unique {j j' k : Nat} (hj : j < k) (hj' : j' < k)
    (hsucceeds : SucceedsAt flow src calls j) (hsucceeds' : SucceedsAt flow src calls j')
    (hlast : ∀ i, j < i → i < k → ¬ SucceedsAt flow src calls i)
    (hlast' : ∀ i, j' < i → i < k → ¬ SucceedsAt flow src calls i) : j = j' := by
  rcases Nat.lt_trichotomy j j' with hlt | heq | hlt
  · exact absurd hsucceeds' (hlast j' hlt hj')
  · exact heq
  · exact absurd hsucceeds (hlast' j hlt hj)

end Colloquy.Session
