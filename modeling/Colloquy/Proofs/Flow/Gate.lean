import Mathlib.Data.List.Induction
import Colloquy.Flow.Gate
import Colloquy.Proofs.Ascending

/-!
# The identity of gated offers

A gate key is what two offers have in common exactly when they are the same offer: one target, the
same gated variables, and for each of these the same value, or none (`GatedOffer.key_eq_iff`).  The
configuration of a key is the ascending list of the settings, so the order in which the variables
are named, and how often, is forgotten, and nothing else is (`GatedOffer.eq_config_iff`).

A table counts by keys, and so it counts offers: after any calls, the count of an offer is how often
the same offer was recorded since the table was last cleared (`GateCall.count_replay`), and its gate
is closed as soon as that is not zero (`GateCall.identity_of_offers`).
-/

namespace Colloquy

/-! ### Keys -/

/-- What is offered: a target, and the variables of its gate, under the bindings of the moment. -/
structure GatedOffer where
  target : StateId
  names : List String
  vars : Bindings

namespace GatedOffer

/-- The key of the offer. -/
def key (offer : GatedOffer) : GateKey :=
  .ofNames offer.target offer.names offer.vars

/-- The setting is that of a gated variable, with the value that it has. -/
def Sets (offer : GatedOffer) (setting : GateSetting) : Prop :=
  setting.name ∈ offer.names ∧ setting.value = offer.vars.get? setting.name

/-- The offers lead to one target, and look at the same variables, which have the same values. -/
structure Same (a b : GatedOffer) : Prop where
  target : a.target = b.target
  names : ∀ name, name ∈ a.names ↔ name ∈ b.names
  values : ∀ name ∈ a.names, a.vars.get? name = b.vars.get? name

/-- It is enough to look at the names that are listed. -/
theorem same_iff {a b : GatedOffer} :
    a.Same b ↔ a.target = b.target ∧ (∀ name ∈ a.names, name ∈ b.names) ∧
      (∀ name ∈ b.names, name ∈ a.names) ∧
        ∀ name ∈ a.names, a.vars.get? name = b.vars.get? name := by
  constructor
  · rintro ⟨htarget, hnames, hvalues⟩
    exact ⟨htarget, fun name => (hnames name).mp, fun name => (hnames name).mpr, hvalues⟩
  · rintro ⟨htarget, hab, hba, hvalues⟩
    exact ⟨htarget, fun name => ⟨hab name, hba name⟩, hvalues⟩

instance (a b : GatedOffer) : Decidable (a.Same b) :=
  decidable_of_iff _ same_iff.symm

/-- The settings before they are sorted. -/
theorem mem_settings {offer : GatedOffer} {setting : GateSetting} :
    setting ∈ offer.names.map (fun name => GateSetting.mk name (offer.vars.get? name)) ↔
      offer.Sets setting := by
  rw [List.mem_map, Sets]
  constructor
  · rintro ⟨name, hname, rfl⟩
    exact ⟨hname, rfl⟩
  · rintro ⟨hname, hvalue⟩
    exact ⟨setting.name, hname, by rw [← hvalue]⟩

/-- The configuration of an offer is the ascending list of its settings. -/
theorem eq_config_iff {offer : GatedOffer} {config : List GateSetting} :
    config = offer.key.config ↔
      Ascending config ∧ ∀ setting, setting ∈ config ↔ offer.Sets setting := by
  have hsorted : offer.key.config =
      sorted (offer.names.map fun name => GateSetting.mk name (offer.vars.get? name)) := rfl
  rw [hsorted, eq_sorted_iff]
  simp only [mem_settings]

/-- Offers have the same settings if they look at the same variables and these have the same
values. -/
theorem sets_iff_sets {a b : GatedOffer} :
    (∀ setting, a.Sets setting ↔ b.Sets setting) ↔
      (∀ name, name ∈ a.names ↔ name ∈ b.names) ∧
        ∀ name ∈ a.names, a.vars.get? name = b.vars.get? name := by
  constructor
  · intro h
    refine ⟨fun name => ⟨fun hname => ?_, fun hname => ?_⟩, fun name hname => ?_⟩
    · exact ((h ⟨name, a.vars.get? name⟩).mp ⟨hname, rfl⟩).1
    · exact ((h ⟨name, b.vars.get? name⟩).mpr ⟨hname, rfl⟩).1
    · exact ((h ⟨name, a.vars.get? name⟩).mp ⟨hname, rfl⟩).2
  · rintro ⟨hnames, hvalues⟩ setting
    unfold Sets
    rw [← hnames]
    refine and_congr_right fun hname => ?_
    rw [hvalues _ hname]

theorem key_eq_iff {a b : GatedOffer} : a.key = b.key ↔ a.Same b := by
  have hparts : a.key = b.key ↔ a.target = b.target ∧ a.key.config = b.key.config := by
    rw [GateKey.mk.injEq]
    rfl
  have hconfig : a.key.config = b.key.config ↔ ∀ setting, a.Sets setting ↔ b.Sets setting := by
    have ha := eq_config_iff.mp (Eq.refl a.key.config)
    rw [eq_config_iff, and_iff_right ha.1]
    exact forall_congr' fun setting => by rw [ha.2]
  rw [hparts, hconfig, sets_iff_sets]
  exact ⟨fun ⟨htarget, hnames, hvalues⟩ => ⟨htarget, hnames, hvalues⟩,
    fun ⟨htarget, hnames, hvalues⟩ => ⟨htarget, hnames, hvalues⟩⟩

end GatedOffer

/-! ### Tables -/

namespace GateTable

variable (table : GateTable) (key other : GateKey)

theorem count_record : (table.record key).count other =
    if other = key then table.count key + 1 else table.count other := by
  unfold count
  rw [record, SortedMap.get?_insert]
  split
  · rfl
  · rfl

theorem isClosed_record :
    (table.record key).isClosed other = (decide (other = key) || table.isClosed other) := by
  unfold isClosed SortedMap.contains
  rw [record, SortedMap.get?_insert]
  by_cases h : other = key
  · simp [h]
  · simp [h]

end GateTable

/-- What is done to a table of gates. -/
inductive GateCall
  | record (offer : GatedOffer)
  | clear

namespace GateCall

/-- The table after a call. -/
def run (table : GateTable) : GateCall → GateTable
  | record offer => table.record offer.key
  | clear => .empty

/-- A fresh table after several calls. -/
def replay (calls : List GateCall) : GateTable :=
  calls.foldl run .empty

/-- The offer that a call records. -/
def offer? : GateCall → Option GatedOffer
  | record offer => some offer
  | clear => none

/-- The offers that were recorded since the table was last cleared, the latest first. -/
def recorded (calls : List GateCall) : List GatedOffer :=
  (calls.reverse.takeWhile (·.offer?.isSome)).filterMap offer?

theorem replay_concat (calls : List GateCall) (call : GateCall) :
    replay (calls ++ [call]) = call.run (replay calls) := by
  rw [replay, List.foldl_append]
  rfl

theorem recorded_concat_record (calls : List GateCall) (offer : GatedOffer) :
    recorded (calls ++ [record offer]) = offer :: recorded calls := by
  unfold recorded
  rw [List.reverse_append]
  rfl

theorem recorded_concat_clear (calls : List GateCall) : recorded (calls ++ [clear]) = [] := by
  unfold recorded
  rw [List.reverse_append]
  rfl

/-- Not more offers count than were recorded at all. -/
theorem length_recorded_le (calls : List GateCall) :
    (recorded calls).length ≤ (calls.filterMap offer?).length := by
  have hsublist : (recorded calls).Sublist (calls.reverse.filterMap offer?) :=
    (List.takeWhile_sublist _).filterMap _
  have hlength := hsublist.length_le
  rwa [List.filterMap_reverse, List.length_reverse] at hlength

/-- A table counts how often a key was recorded since it was last cleared. -/
theorem count_replay (calls : List GateCall) (key : GateKey) :
    (replay calls).count key = (recorded calls).countP (·.key = key) := by
  induction calls using List.reverseRecOn with
  | nil => rfl
  | append_singleton calls call ih =>
    rw [replay_concat]
    cases call with
    | clear =>
      rw [recorded_concat_clear]
      rfl
    | record offer =>
      rw [recorded_concat_record, List.countP_cons, run, GateTable.count_record, ← ih]
      by_cases h : key = offer.key
      · simp [h]
      · simp [h, Ne.symm h]

/-- A gate is closed as soon as its key counts. -/
theorem isClosed_replay (calls : List GateCall) (key : GateKey) :
    (replay calls).isClosed key = true ↔ 0 < (replay calls).count key := by
  induction calls using List.reverseRecOn with
  | nil => exact iff_of_false Bool.false_ne_true (Nat.lt_irrefl 0)
  | append_singleton calls call ih =>
    rw [replay_concat]
    cases call with
    | clear => exact iff_of_false Bool.false_ne_true (Nat.lt_irrefl 0)
    | record offer =>
      rw [run, GateTable.isClosed_record, GateTable.count_record]
      by_cases h : key = offer.key
      · simp [h]
      · simpa [h] using ih

/-- Two offers have one key exactly when they are the same offer.  After any calls, the count of an
offer is how often the same offer was recorded since the table was last cleared, which is not more
often than anything was recorded at all, and its gate is closed exactly when that is not zero. -/
theorem identity_of_offers :
    (∀ a b : GatedOffer, a.key = b.key ↔ a.Same b) ∧
    ∀ (calls : List GateCall) (offer : GatedOffer),
      (replay calls).count offer.key = (recorded calls).countP (·.Same offer) ∧
      ((replay calls).isClosed offer.key = true ↔ 0 < (recorded calls).countP (·.Same offer)) ∧
      (replay calls).count offer.key ≤ (calls.filterMap offer?).length := by
  refine ⟨fun _ _ => GatedOffer.key_eq_iff, fun calls offer => ?_⟩
  have hcount : (replay calls).count offer.key = (recorded calls).countP (·.Same offer) := by
    rw [count_replay]
    exact List.countP_congr fun a _ => by simp [GatedOffer.key_eq_iff]
  refine ⟨hcount, ?_, ?_⟩
  · rw [isClosed_replay, hcount]
  · rw [hcount]
    exact Nat.le_trans List.countP_le_length (length_recorded_le calls)

end GateCall

end Colloquy
