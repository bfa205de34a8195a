import Colloquy.Proofs.Flow.Names
import Colloquy.Proofs.Session.Gates

/-!
# Restoring sessions

A snapshot of a reachable session restores it (`Reachable.restores`): over the same flow exactly,
except for the pending answer, and over every other flow that has states of the same names up to the
numbers of these states.  A snapshot is refused just if it names a state that the flow does not have
(`restore_refused`), and then the session stays as it was.

Snapshots hold gates by the names of their targets.  So the gates of a reachable session come back
because their targets are states of the flow (`Reachable.gates_lead`), because these have names
(`Flow.Built.names_render`), and because different states have different names.
-/

namespace Colloquy

/-! ### The targets of gates -/

/-- The targets of the gates in the table are states of the flow. -/
def GateTable.Leads (flow : Flow) (table : GateTable) : Prop :=
  ∀ key count, table.get? key = some count → key.target < flow.stateCount

namespace TurnSetting

variable {given : TurnSetting}

/-- The gate of a viable candidate is one of its target. -/
theorem ViableAt.gate_target {p : Progress} {src : Source} {i : Nat} {c : Candidate}
    (h : given.ViableAt p src i c) : ∀ key ∈ c.gate, key.target = c.target := by
  intro key hkey
  cases h with
  | transition considered viable =>
    obtain ⟨-, -, -, -⟩ := viable
    change gateOf _ _ _ = some key at hkey
    unfold gateOf at hkey
    split at hkey
    · cases hkey
    · rw [← Option.some.inj hkey]
      rfl
  | answer admitted pending answers =>
    rw [answers.gate_eq] at hkey
    cases hkey

/-- The gates that the legs of a turn commit are gates of states that exist. -/
theorem keysOf_lead (hflow : given.flow.WellFormed) {start : Leg}
    (hcourse : given.OnCourse start.before) (hfirst : start.before.steps = []) (n : Nat) :
    ∀ key ∈ given.keysOf start n, key.target < given.flow.stateCount := by
  intro key hkey
  obtain ⟨i, leg, c, place, hleg, hviable, hc⟩ := exists_leg_of_mem_keysOf hkey
  rw [hviable.gate_target key hc]
  exact hviable.target_lt given hflow (hcourse.leg? hflow hfirst i hleg).1.sound

end TurnSetting

/-! ### Resolving names -/

namespace Snapshot

/-- The names of states in a snapshot. -/
def names (snap : Snapshot) : List String :=
  snap.state :: snap.gates.map (·.target)

variable {flow : Flow}

/-- The gate that an entry describes, with its count. -/
def gateOf (flow : Flow) (entry : GateEntry) : GateKey × Nat :=
  (⟨flow.stateOf entry.target, entry.config⟩, entry.count)

theorem resolveGates_eq_ok {entries : List GateEntry} (h : ∀ e ∈ entries, flow.Names e.target) :
    resolveGates flow entries = .ok (.ofList (entries.map (gateOf flow))) := by
  rw [resolveGates, SortedMap.ofList]
  generalize (SortedMap.empty : GateTable) = table
  induction entries generalizing table with
  | nil => rfl
  | cons e rest ih =>
    rw [List.foldlM_cons, resolveState, (h e List.mem_cons_self).lookup]
    exact ih (fun e he => h e (List.mem_cons_of_mem _ he)) _

theorem resolveGates_eq_error {entries : List GateEntry}
    (h : ∃ e ∈ entries, ¬ flow.Names e.target) :
    ∃ e ∈ entries, ¬ flow.Names e.target ∧ resolveGates flow entries = .error e.target := by
  rw [resolveGates]
  generalize (SortedMap.empty : GateTable) = table
  induction entries generalizing table with
  | nil => obtain ⟨_, ⟨⟩, _⟩ := h
  | cons e rest ih =>
    by_cases he : flow.Names e.target
    · -- The first entry is put into the table, so the one that fails comes later.
      obtain ⟨e', he', hnot⟩ := h
      have hrest : e' ∈ rest := (List.mem_cons.mp he').resolve_left fun heq => hnot (heq ▸ he)
      obtain ⟨e', he', hnot, herror⟩ := ih ⟨e', hrest, hnot⟩ (table.insert _ e.count)
      refine ⟨e', List.mem_cons_of_mem _ he', hnot, ?_⟩
      rw [List.foldlM_cons, resolveState, he.lookup]
      exact herror
    · refine ⟨e, List.mem_cons_self, he, ?_⟩
      rw [List.foldlM_cons, resolveState, Flow.lookup_eq_none he]
      rfl

/-- The standing that a snapshot describes, provided that its names all name states. -/
def standing (flow : Flow) (snap : Snapshot) : Standing :=
  { state := flow.stateOf snap.state
    speaker := snap.speaker
    vars := snap.vars
    gates := .ofList (snap.gates.map (gateOf flow)) }

theorem resolve_eq_ok_of_names {snap : Snapshot} (h : ∀ name ∈ snap.names, flow.Names name) :
    snap.resolve flow = .ok (snap.standing flow) := by
  have hgates : ∀ e ∈ snap.gates, flow.Names e.target := fun e he =>
    h _ (List.mem_cons_of_mem _ (List.mem_map_of_mem he))
  rw [resolve, resolveState, (h _ List.mem_cons_self).lookup, resolveGates_eq_ok hgates]
  rfl

/-- If some do not, the snapshot is refused for one of these. -/
theorem resolve_eq_error_of_not_names {snap : Snapshot}
    (h : ∃ name ∈ snap.names, ¬ flow.Names name) :
    ∃ name ∈ snap.names, ¬ flow.Names name ∧ snap.resolve flow = .error name := by
  by_cases hstate : flow.Names snap.state
  · obtain ⟨name, hname, hnot⟩ := h
    have htarget : name ∈ snap.gates.map (·.target) :=
      (List.mem_cons.mp hname).resolve_left fun heq => hnot (heq ▸ hstate)
    obtain ⟨e, he, rfl⟩ := List.mem_map.mp htarget
    obtain ⟨e, he, hnot, herror⟩ := resolveGates_eq_error ⟨e, he, hnot⟩
    refine ⟨e.target, List.mem_cons_of_mem _ (List.mem_map_of_mem he), hnot, ?_⟩
    rw [resolve, resolveState, hstate.lookup, herror]
    rfl
  · refine ⟨snap.state, List.mem_cons_self, hstate, ?_⟩
    rw [resolve, resolveState, Flow.lookup_eq_none hstate]
    rfl

end Snapshot

namespace Session

variable {flow : Flow}

theorem resolve_gates_lead {snap : Snapshot} {st : Standing} (h : snap.resolve flow = .ok st) :
    st.gates.Leads flow := by
  by_cases hnames : ∀ name ∈ snap.names, flow.Names name
  · rw [Snapshot.resolve_eq_ok_of_names hnames] at h
    rw [← Except.ok.inj h]
    intro key count hkey
    rw [Snapshot.standing, SortedMap.get?_ofList] at hkey
    have hmem := SortedMap.mem_of_lookup hkey
    obtain ⟨e, he, heq⟩ := List.mem_map.mp (List.mem_reverse.mp hmem)
    rw [← (Prod.mk.inj heq).1]
    have hname : flow.Names e.target :=
      hnames _ (List.mem_cons_of_mem _ (List.mem_map_of_mem he))
    exact Flow.lookup_lt hname.lookup
  · have hnot : ∃ name ∈ snap.names, ¬ flow.Names name := by simpa using hnames
    obtain ⟨name, -, -, herror⟩ := Snapshot.resolve_eq_error_of_not_names hnot
    cases h.symm.trans herror

theorem turn_gates_lead (hflow : flow.WellFormed) {s : Session} (hsound : s.standing.Sound flow)
    (hgates : s.standing.gates.Leads flow) (speaker : Speaker) (utterance : Option String) :
    (s.turn flow speaker utterance).2.standing.gates.Leads flow := by
  have hkeys : ∀ key ∈ s.committedKeys flow speaker utterance, key.target < flow.stateCount := by
    intro key hkey
    obtain ⟨st, outcome, hprepare, hkeysOf⟩ := exists_prepare_of_mem_committedKeys hkey
    have hcourse : (setting flow speaker utterance).OnCourse
        (Leg.mk (.opening st) s.source).before :=
      TurnSetting.onCourse_opening (prepare_sound hprepare hsound)
    exact TurnSetting.keysOf_lead hflow hcourse rfl _ key hkeysOf
  intro key count hkey
  rw [(s.turn_takes speaker utterance).spec.2.2] at hkey
  split_ifs at hkey with hmem
  · exact hkeys key hmem
  · exact hgates key count hkey

/-- The gates of a reachable session are gates of states that exist. -/
theorem Reachable.gates_lead (hbuilt : flow.Built) {s : Session} (h : Reachable flow s) :
    s.standing.gates.Leads flow := by
  induction h with
  | start | reset => exact fun _ _ hkey => nomatch hkey
  | turn speaker utterance hs ih =>
    exact turn_gates_lead hbuilt.wellFormed (hs.sound hbuilt) ih speaker utterance
  | restore snap _ ih =>
    unfold Session.restore
    split
    · rename_i st hst
      exact resolve_gates_lead hst
    · exact ih

end Session

/-! ### Gates by name -/

/-- The gates of a table, their targets by name. -/
def GateTable.named (flow : Flow) (table : GateTable) : List GateEntry :=
  table.entries.map fun (key, count) => ⟨(flow.key key.target).render, key.config, count⟩

namespace Snapshot

variable {flow : Flow}

/-- The states of a standing have names that lead back to them. -/
theorem names_capture (hbuilt : flow.Built) (hnamed : flow.Named) {st : Standing}
    (hsound : st.Sound flow) (hgates : st.gates.Leads flow) :
    ∀ name ∈ (capture flow st).names, flow.Names name := by
  intro name hname
  rcases List.mem_cons.mp hname with rfl | htarget
  · exact (hbuilt.names_render hnamed hsound.state_lt).1
  · rw [capture, List.map_map] at htarget
    obtain ⟨⟨key, count⟩, hkey, rfl⟩ := List.mem_map.mp htarget
    exact (hbuilt.names_render hnamed (hgates key count (SortedMap.mem_entries_iff.mp hkey))).1

/-- Over the flow that they come from, the gates of a table are found again. -/
theorem map_gateOf_named (hbuilt : flow.Built) (hnamed : flow.Named) {table : GateTable}
    (hgates : table.Leads flow) : (table.named flow).map (gateOf flow) = table.entries := by
  rw [GateTable.named, List.map_map]
  refine (List.map_congr_left fun e he => ?_).trans (List.map_id _)
  have htarget := hgates e.1 e.2 (SortedMap.mem_entries_iff.mp he)
  simp only [Function.comp, gateOf, (hbuilt.names_render hnamed htarget).2, id_eq]

/-- No two gates of a table have targets of one name and the same configuration. -/
theorem nodup_named (hbuilt : flow.Built) (hnamed : flow.Named) {table : GateTable}
    (hgates : table.Leads flow) :
    ((table.named flow).map fun e => (e.target, e.config)).Nodup := by
  -- If two named gates were the same, so would be the keys that they are found under.
  have hentries := table.nodup_keys
  rw [SortedMap.keys, ← map_gateOf_named hbuilt hnamed hgates, List.map_map] at hentries
  refine List.Nodup.of_map (fun gate => GateKey.mk (flow.stateOf gate.1) gate.2) ?_
  rwa [List.map_map]

/-- Over a flow with states of their names, distinct gates make up a table with just these gates. -/
theorem named_ofList {entries : List GateEntry} (hnames : ∀ e ∈ entries, flow.Names e.target)
    (hnodup : (entries.map fun e => (e.target, e.config)).Nodup) :
    (GateTable.named flow (.ofList (entries.map (gateOf flow)))).Perm entries := by
  -- The target of a gate is found under the name, and has it.
  have hback : ∀ e ∈ entries, (flow.key (gateOf flow e).1.target).render = e.target :=
    fun e he => (hnames e he).render_key
  have hkeys : ((entries.map (gateOf flow)).map (·.1)).Nodup := by
    refine List.Nodup.of_map (fun key => ((flow.key key.target).render, key.config)) ?_
    rw [List.map_map, List.map_map]
    convert hnodup using 1
    exact List.map_congr_left fun e he => Prod.ext (hback e he) rfl
  refine ((SortedMap.entries_ofList_perm hkeys).map _).trans (.of_eq ?_)
  rw [List.map_map]
  refine (List.map_congr_left fun e he => ?_).trans (List.map_id _)
  simp only [Function.comp, hback e he]
  rfl

end Snapshot

/-! ### Restoring -/

namespace Session

variable {flow : Flow}

/-- Restoring fails just if some name in the snapshot names no state, and it is for such a name; the
session then stays as it was. -/
theorem restore_refused (flow : Flow) (snap : Snapshot) (d : Session) :
    ((∃ e, (d.restore flow snap).1 = .error e) ↔ ∃ name ∈ snap.names, ¬ flow.Names name) ∧
    ∀ e, (d.restore flow snap).1 = .error e → (d.restore flow snap).2 = d ∧
      ∃ name ∈ snap.names, ¬ flow.Names name ∧ e = .unknownState name := by
  by_cases hnames : ∀ name ∈ snap.names, flow.Names name
  · have hok : (d.restore flow snap).1 = .ok () := by
      rw [restore, Snapshot.resolve_eq_ok_of_names hnames]
    refine ⟨iff_of_false ?_ ?_, ?_⟩
    · rintro ⟨e, he⟩
      cases hok.symm.trans he
    · rintro ⟨name, hname, hnot⟩
      exact hnot (hnames name hname)
    · intro e he
      cases hok.symm.trans he
  · -- The first name that is not one of the flow is the one that is reported.
    have hsome : ∃ name ∈ snap.names, ¬ flow.Names name := by simpa using hnames
    obtain ⟨name, hname, hnot, herror⟩ := Snapshot.resolve_eq_error_of_not_names hsome
    have hrefused : d.restore flow snap = (.error (.unknownState name), d) := by
      rw [restore, herror]
    rw [hrefused]
    refine ⟨iff_of_true ⟨_, rfl⟩ hsome, fun e he => ⟨rfl, name, hname, hnot, ?_⟩⟩
    exact (Except.error.inj he).symm

/-- A snapshot of a sound standing restores it over the flow that it was taken over. -/
theorem restore_capture (hbuilt : flow.Built) (hnamed : flow.Named) {st : Standing}
    (hsound : st.Sound flow) (hgates : st.gates.Leads flow) (d : Session) :
    d.restore flow (.capture flow st) =
      (.ok (), { d with standing := { st with pending := none } }) := by
  have hresolve := Snapshot.resolve_eq_ok_of_names
    (Snapshot.names_capture hbuilt hnamed hsound hgates)
  have htable : SortedMap.ofList ((Snapshot.capture flow st).gates.map (Snapshot.gateOf flow)) =
      st.gates := by
    show SortedMap.ofList ((st.gates.named flow).map _) = _
    rw [Snapshot.map_gateOf_named hbuilt hnamed hgates, SortedMap.ofList_entries]
  have hstate : flow.stateOf (Snapshot.capture flow st).state = st.state :=
    (hbuilt.names_render hnamed hsound.state_lt).2
  rw [restore, hresolve, Snapshot.standing, htable, hstate]
  rfl

/-- The standings over two flows agree by name: their states have the same name, the floor and the
bindings are the same, and so are the gates but for the numbers of their targets. -/
structure SameByName (flow flow' : Flow) (st st' : Standing) : Prop where
  state : (flow'.key st'.state).render = (flow.key st.state).render
  speaker : st'.speaker = st.speaker
  vars : st'.vars = st.vars
  gates : (st'.gates.named flow').Perm (st.gates.named flow)

/-- A snapshot of a sound standing restores it by name over every flow with states of the names. -/
theorem restore_capture_of_names (hbuilt : flow.Built) (hnamed : flow.Named) {st : Standing}
    (hgates : st.gates.Leads flow) {flow' : Flow}
    (hnames : ∀ name ∈ (Snapshot.capture flow st).names, flow'.Names name) (d : Session) :
    ∃ st', d.restore flow' (.capture flow st) = (.ok (), { d with standing := st' }) ∧
      SameByName flow flow' st st' ∧ st'.pending = none ∧ st'.Sound flow' ∧
      st'.gates.Leads flow' := by
  have hresolve := Snapshot.resolve_eq_ok_of_names hnames
  -- What is kept of the gates is what the table over `flow'` is made of.
  have htargets : ∀ e ∈ st.gates.named flow, flow'.Names e.target := fun e he =>
    hnames _ (List.mem_cons_of_mem _ (List.mem_map_of_mem he))
  refine ⟨(Snapshot.capture flow st).standing flow', by rw [restore, hresolve], ⟨?_, rfl, rfl, ?_⟩,
    rfl, resolve_sound hresolve, resolve_gates_lead hresolve⟩
  · exact (hnames _ List.mem_cons_self).render_key
  · exact Snapshot.named_ofList htargets (Snapshot.nodup_named hbuilt hnamed hgates)

/-- Snapshots restore reachable sessions. -/
theorem Reachable.restores (hbuilt : flow.Built) (hnamed : flow.Named) {s : Session}
    (h : Reachable flow s) :
    (∀ d : Session, d.restore flow (s.snapshot flow) =
      (.ok (), { d with standing := { s.standing with pending := none } })) ∧
    (∀ flow' : Flow, (∀ name ∈ (s.snapshot flow).names, flow'.Names name) → ∀ d : Session,
      ∃ st, d.restore flow' (s.snapshot flow) = (.ok (), { d with standing := st }) ∧
        SameByName flow flow' s.standing st ∧ st.pending = none ∧ st.Sound flow' ∧
        st.gates.Leads flow') ∧
    ∀ (flow' : Flow) (snap : Snapshot) (d : Session),
      ((∃ e, (d.restore flow' snap).1 = .error e) ↔ ∃ name ∈ snap.names, ¬ flow'.Names name) ∧
      ∀ e, (d.restore flow' snap).1 = .error e → (d.restore flow' snap).2 = d ∧
        ∃ name ∈ snap.names, ¬ flow'.Names name ∧ e = .unknownState name :=
  ⟨restore_capture hbuilt hnamed (h.sound hbuilt) (h.gates_lead hbuilt),
    fun _ hnames => restore_capture_of_names hbuilt hnamed (h.gates_lead hbuilt) hnames,
    restore_refused⟩

/-- After the greeting, the gate of the hall is closed; it comes back with the rest. -/
theorem restores_greeting :
    let s := ((start .greeting (.mixed 7)).turn .greeting .system none).2
    s.standing.gates.size = 1 ∧
    Flow.greeting.Named ∧
    (start .greeting (.mixed 8)).restore .greeting (s.snapshot .greeting) =
      (.ok (), ⟨{ s.standing with pending := none }, .mixed 8⟩) := by
  have hkeys : ∀ node ∈ Flow.greeting.states, node.key = .ofString node.key.render := by
    decide +kernel
  have hnamed : Flow.greeting.Named := fun node hnode => ⟨_, hkeys node hnode⟩
  refine ⟨by decide +kernel, hnamed, ?_⟩
  exact ((Reachable.start (.mixed 7)).turn .system none |>.restores Flow.greeting_built hnamed).1 _

end Session

end Colloquy
