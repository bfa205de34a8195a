import Colloquy.Proofs.Flow.Gate
import Colloquy.Proofs.Session.Calls
import Colloquy.Proofs.Session.Restore

/-!
# Gates that were restored

A snapshot lists for each gate its target and its settings.  An entry describes an offer if it names
the target of the offer and lists the settings of the offer, in whatever order and however often
(`GateEntry.Describes`).  Keys are looked up as they stand, though, and restoring takes the settings
over as they are listed, so an entry closes the gates of the offers that it describes only if its
settings ascend (`Session.restored_isClosed_iff`).

The keys of offers ascend, so every table that grows by turns is orderly, and so is its snapshot.
Only snapshots that did not come from a session can hold an entry that closes nothing
(`Session.snapshot_orderly`).
-/

namespace Colloquy

/-- The entry names the target of the offer and lists just its settings. -/
structure GateEntry.Describes (flow : Flow) (entry : GateEntry) (offer : GatedOffer) : Prop where
  target : flow.lookup (.ofString entry.target) = some offer.target
  settings : ∀ setting, setting ∈ entry.config ↔ offer.Sets setting

/-- The settings of every entry ascend. -/
def Snapshot.Orderly (snap : Snapshot) : Prop :=
  ∀ entry ∈ snap.gates, Ascending entry.config

/-- The configuration of every key that is closed ascends. -/
def GateTable.Orderly (table : GateTable) : Prop :=
  ∀ key, table.isClosed key = true → Ascending key.config

theorem GatedOffer.ascending_config (offer : GatedOffer) : Ascending offer.key.config :=
  (eq_config_iff.mp rfl).1

namespace GateTable

theorem Takes.orderly {table table' : GateTable} {keys : List GateKey} (h : Takes table keys table')
    (htable : table.Orderly) (hkeys : ∀ key ∈ keys, Ascending key.config) : table'.Orderly := by
  intro key hclosed
  obtain ⟨-, -, hget⟩ := h.spec
  rw [isClosed, SortedMap.contains, hget] at hclosed
  split_ifs at hclosed with hmem
  · exact hkeys key hmem
  · exact htable key hclosed

end GateTable

/-! ### Turns -/

namespace TurnSetting

variable {given : TurnSetting}

/-- The gate of a viable candidate is that of an offer. -/
theorem ViableAt.exists_offer {p : Progress} {src : Source} {i : Nat} {c : Candidate}
    (h : given.ViableAt p src i c) : ∀ key ∈ c.gate, ∃ offer : GatedOffer, offer.key = key := by
  intro key hkey
  cases h with
  | transition considered viable =>
    cases viable
    change gateOf _ _ _ = some key at hkey
    unfold gateOf at hkey
    split at hkey
    · cases hkey
    · exact ⟨⟨_, _, _⟩, Option.some.inj hkey⟩
  | answer admitted pending answers =>
    rw [answers.gate_eq] at hkey
    cases hkey

end TurnSetting

namespace Session

variable {flow : Flow}

theorem turn_orderly {s : Session} (h : s.standing.gates.Orderly) (speaker : Speaker)
    (utterance : Option String) : (s.turn flow speaker utterance).2.standing.gates.Orderly := by
  refine (s.turn_takes speaker utterance).orderly h fun key hkey => ?_
  obtain ⟨st, outcome, -, hkeysOf⟩ := exists_prepare_of_mem_committedKeys hkey
  obtain ⟨i, leg, c, place, -, hviable, hgate⟩ := TurnSetting.exists_leg_of_mem_keysOf hkeysOf
  obtain ⟨offer, rfl⟩ := hviable.exists_offer key hgate
  exact offer.ascending_config

/-! ### Restoring -/

/-- A snapshot that is accepted names states only, and the session then stands where it says. -/
theorem standing_of_restore {snap : Snapshot} {s s' : Session}
    (h : s.restore flow snap = (.ok (), s')) :
    (∀ name ∈ snap.names, flow.Names name) ∧ s'.standing = snap.standing flow := by
  have hok : (s.restore flow snap).1 = .ok () := congrArg Prod.fst h
  have hnames : ∀ name ∈ snap.names, flow.Names name := by
    by_contra hnot
    have hsome : ∃ name ∈ snap.names, ¬ flow.Names name := by simpa using hnot
    obtain ⟨e, he⟩ := (restore_refused flow snap s).1.mpr hsome
    cases hok.symm.trans he
  refine ⟨hnames, ?_⟩
  rw [restore, Snapshot.resolve_eq_ok_of_names hnames] at h
  rw [← (Prod.mk.inj h).2]

/-- The keys that are closed after a restore are those that the entries spell out. -/
theorem isClosed_standing_iff {snap : Snapshot} (hnames : ∀ name ∈ snap.names, flow.Names name)
    (key : GateKey) :
    (snap.standing flow).gates.isClosed key = true ↔ ∃ entry ∈ snap.gates,
      flow.lookup (.ofString entry.target) = some key.target ∧ entry.config = key.config := by
  have hlookup : ∀ entry ∈ snap.gates,
      flow.lookup (.ofString entry.target) = some (flow.stateOf entry.target) := fun entry hentry =>
    (hnames _ (List.mem_cons_of_mem _ (List.mem_map_of_mem hentry))).lookup
  rw [GateTable.isClosed, Snapshot.standing, SortedMap.contains_ofList, List.map_map, List.mem_map]
  refine exists_congr fun entry => and_congr_right fun hentry => ?_
  rw [hlookup entry hentry, Option.some.injEq]
  constructor
  · rintro rfl
    exact ⟨rfl, rfl⟩
  · rintro ⟨htarget, hconfig⟩
    show GateKey.mk (flow.stateOf entry.target) entry.config = key
    rw [htarget, hconfig]

theorem orderly_standing {snap : Snapshot} (hnames : ∀ name ∈ snap.names, flow.Names name)
    (h : snap.Orderly) : (snap.standing flow).gates.Orderly := by
  intro key hclosed
  obtain ⟨entry, hentry, -, hconfig⟩ := (isClosed_standing_iff hnames key).mp hclosed
  rw [← hconfig]
  exact h entry hentry

/-- An orderly table is kept as an orderly snapshot. -/
theorem orderly_capture {st : Standing} (h : st.gates.Orderly) :
    (Snapshot.capture flow st).Orderly := by
  intro entry hentry
  obtain ⟨⟨key, count⟩, hkey, rfl⟩ := List.mem_map.mp hentry
  apply h key
  rw [GateTable.isClosed, ← SortedMap.mem_keys_iff]
  exact List.mem_map_of_mem hkey

theorem Call.orderly {s : Session} {c : Call} (h : s.standing.gates.Orderly)
    (hrestore : ∀ snap, c = .restore snap → snap.Orderly) :
    (c.run flow s).standing.gates.Orderly := by
  cases c with
  | turn speaker utterance => exact turn_orderly h speaker utterance
  | reset => exact fun _ hclosed => nomatch hclosed
  | restore snap =>
    rw [run]
    rcases hrun : s.restore flow snap with ⟨_ | _, s'⟩
    · -- A snapshot that is refused leaves the session as it was.
      have hsame := ((restore_refused flow snap s).2 _ (congrArg Prod.fst hrun)).1
      rw [hrun] at hsame
      rwa [hsame]
    · obtain ⟨hnames, hstanding⟩ := standing_of_restore hrun
      rw [hstanding]
      exact orderly_standing hnames (hrestore snap rfl)

/-- Whatever a fresh session goes through, provided that what is restored on the way is orderly, its
snapshots are orderly. -/
theorem snapshot_orderly (src : Source) {calls : List Call}
    (hrestore : ∀ snap, .restore snap ∈ calls → snap.Orderly) :
    (((start flow src).after flow calls).snapshot flow).Orderly := by
  have hafter : ∀ s : Session, s.standing.gates.Orderly →
      (s.after flow calls).standing.gates.Orderly := by
    induction calls with
    | nil => exact fun s h => h
    | cons c calls ih =>
      intro s h
      have hc : (c.run flow s).standing.gates.Orderly :=
        Call.orderly h fun snap heq => hrestore snap (heq ▸ .head _)
      exact ih (fun snap hsnap => hrestore snap (.tail _ hsnap)) _ hc
  exact orderly_capture (hafter _ fun _ hclosed => nomatch hclosed)

/-- After a restore, the gate of an offer is closed exactly if some entry of the snapshot describes
the offer and lists its settings in ascending order, each once.  So if the snapshot is orderly, as
it is when it was taken of a session into which only orderly ones were restored, then the gate is
closed exactly if some entry describes the offer. -/
theorem restored_isClosed_iff {snap : Snapshot} {s s' : Session}
    (h : s.restore flow snap = (.ok (), s')) :
    (∀ offer : GatedOffer, s'.standing.gates.isClosed offer.key = true ↔
      ∃ entry ∈ snap.gates, entry.Describes flow offer ∧ Ascending entry.config) ∧
    (snap.Orderly → ∀ offer : GatedOffer, s'.standing.gates.isClosed offer.key = true ↔
      ∃ entry ∈ snap.gates, entry.Describes flow offer) ∧
    ∀ (flow' : Flow) (src : Source) (calls : List Call),
      (∀ other, .restore other ∈ calls → other.Orderly) →
        (((start flow' src).after flow' calls).snapshot flow').Orderly := by
  obtain ⟨hnames, hstanding⟩ := standing_of_restore h
  have hclosed : ∀ offer : GatedOffer, s'.standing.gates.isClosed offer.key = true ↔
      ∃ entry ∈ snap.gates, entry.Describes flow offer ∧ Ascending entry.config := by
    intro offer
    rw [hstanding, isClosed_standing_iff hnames]
    refine exists_congr fun entry => and_congr_right fun _ => ?_
    -- An offer's settings are sorted by name, so an entry speaks of one only if its own are.
    rw [GatedOffer.eq_config_iff]
    constructor
    · rintro ⟨htarget, hascending, hsettings⟩
      exact ⟨⟨htarget, hsettings⟩, hascending⟩
    · rintro ⟨⟨htarget, hsettings⟩, hascending⟩
      exact ⟨htarget, hascending, hsettings⟩
  refine ⟨hclosed, fun horderly offer => ?_, fun flow' src calls => snapshot_orderly src⟩
  rw [hclosed offer]
  exact exists_congr fun entry => and_congr_right fun hentry =>
    and_iff_left (horderly entry hentry)

end Session

/-- The system welcomes a guest once into the hall, whoever the host is. -/
def Builder.lobby : Builder :=
  [Builder.Call.addTransition (.plain "door") (.plain "hall") .system "welcome" 1.0
      (some ["guest", "host"]),
    .setInitialSpeaker .system].foldl (fun b c => (c.run b).2) {}

def Flow.lobby : Flow := .ofBuilder .lobby

namespace Session

/-- Ann is at the door. -/
def ann : Bindings :=
  SortedMap.empty.insert "guest" "ann"

/-- Ann is welcome to the hall, and there is no host. -/
def annsWelcome : GatedOffer :=
  ⟨1, ["guest", "host"], ann⟩

/-- Ann is back at the door, where she was welcomed under the settings. -/
def welcomed (config : List GateSetting) : Snapshot :=
  ⟨"door", .system, ann, [⟨"hall", config, 1⟩]⟩

theorem lookup_hall : Flow.lobby.lookup (.ofString "hall") = some 1 := by
  decide +kernel

theorem describes_welcomed {config : List GateSetting}
    (h : ∀ setting, setting ∈ config ↔ setting = ⟨"guest", some "ann"⟩ ∨ setting = ⟨"host", none⟩) :
    GateEntry.Describes .lobby ⟨"hall", config, 1⟩ annsWelcome where
  target := lookup_hall
  settings setting := by
    have hguest : ann.get? "guest" = some "ann" := by decide +kernel
    have hhost : ann.get? "host" = none := by decide +kernel
    obtain ⟨name, value⟩ := setting
    rw [h, GatedOffer.Sets]
    simp only [annsWelcome, GateSetting.mk.injEq, List.mem_cons, List.not_mem_nil, or_false]
    constructor
    · rintro (⟨rfl, rfl⟩ | ⟨rfl, rfl⟩)
      · exact ⟨.inl rfl, hguest.symm⟩
      · exact ⟨.inr rfl, hhost.symm⟩
    · rintro ⟨rfl | rfl, rfl⟩
      · exact .inl ⟨rfl, hguest⟩
      · exact .inr ⟨rfl, hhost⟩

theorem restore_welcomed (config : List GateSetting) :
    (start .lobby (.mixed 7)).restore .lobby (welcomed config) =
      (.ok (), ⟨(welcomed config).standing .lobby, .mixed 7⟩) := by
  have hnames : ∀ name ∈ (welcomed config).names, Flow.lobby.Names name := by
    have hstates : Flow.lobby.states.map (·.key) = [.ofString "door", .ofString "hall"] := by
      decide +kernel
    have hkeys : ∀ name ∈ ["door", "hall"],
        StateKey.ofString name ∈ Flow.lobby.states.map (·.key) := by
      rw [hstates]
      decide +kernel
    exact fun name hname => List.mem_map.mp (hkeys name hname)
  rw [restore, Snapshot.resolve_eq_ok_of_names hnames]
  rfl

/-- The entry describes the welcome but lists the host before the guest, so the gate is open. -/
theorem lobby_reopens :
    let snap := welcomed [⟨"host", none⟩, ⟨"guest", some "ann"⟩]
    ∃ s, (start .lobby (.mixed 7)).restore .lobby snap = (.ok (), s) ∧
      (∃ entry ∈ snap.gates, entry.Describes .lobby annsWelcome) ∧
      s.standing.gates.isClosed annsWelcome.key = false := by
  refine ⟨_, restore_welcomed _, ⟨_, .head _, describes_welcomed fun _ => by simp [or_comm]⟩, ?_⟩
  rw [Bool.eq_false_iff]
  intro hclosed
  obtain ⟨hnames, -⟩ := standing_of_restore (restore_welcomed _)
  obtain ⟨entry, hentry, -, hconfig⟩ := (isClosed_standing_iff hnames annsWelcome.key).mp hclosed
  rw [List.mem_singleton.mp hentry] at hconfig
  have hascending := annsWelcome.ascending_config
  rw [← hconfig] at hascending
  revert hascending
  decide +kernel

/-- In ascending order, the same settings close the gate. -/
theorem restored_isClosed_iff_lobby :
    let snap := welcomed [⟨"guest", some "ann"⟩, ⟨"host", none⟩]
    ∃ s, (start .lobby (.mixed 7)).restore .lobby snap = (.ok (), s) ∧ snap.Orderly ∧
      s.standing.gates.isClosed annsWelcome.key = true := by
  have horderly : (welcomed [⟨"guest", some "ann"⟩, ⟨"host", none⟩]).Orderly := by
    intro entry hentry
    rw [List.mem_singleton.mp hentry]
    decide +kernel
  refine ⟨_, restore_welcomed _, horderly, ?_⟩
  apply ((restored_isClosed_iff (restore_welcomed _)).2.1 horderly annsWelcome).mpr
  exact ⟨_, .head _, describes_welcomed fun _ => by simp⟩

end Session

end Colloquy
