import Mathlib.Data.String.Basic
import Colloquy.Proofs.Script.Steps
import Colloquy.Proofs.SortedMap

/-!
# What scripts build

Built on a fresh builder, a script gives the flow that it describes, or an error for which there is
a cause in the script (`Script.build_faithful`).  `Script.Describes` says what the flow is, by the
names of its states, and `Script.Fault` lists the causes.  What a script does to a builder is done
by calls, so all that holds of built flows holds of such a flow (`Script.build_built`).

States come into being when they are declared, at the ends of transitions, and as error successors.
So the names of the states are known at each of these stages, up to their order; the declared ones
come first, and the state that is there first is the least of them.
-/

namespace Colloquy

/-- What the states are called, in their order. -/
def Flow.stateNames (flow : Flow) : List String :=
  flow.states.map (·.key.render)

namespace Script

/-! ### Descriptions -/

/-- The ends of a transition. -/
def ends (t : TransitionSpec) : List String :=
  [t.source, t.target]

/-- The name is that of a declared state, an end of a transition, or the error successor of a
declared state. -/
def Mentions (s : Script) (name : String) : Prop :=
  name ∈ s.states.keys ∨ (∃ t ∈ s.transitions, name = t.source ∨ name = t.target) ∨
    ∃ entry ∈ s.states.entries, entry.2.errorSuccessor = some name

/-- What a state is declared as; nothing special if it is not declared. -/
def spec (s : Script) (name : String) : StateSpec :=
  (s.states.get? name).getD {}

/-- The conversation starts in the state with the name: the script says so, or else it is the source
of the first transition, or else the least declared name. -/
inductive StartsIn (s : Script) : String → Prop
  | given {name : String} (given : s.initial = some name) : StartsIn s name
  | first {t : TransitionSpec} (not_given : s.initial = none)
      (first : s.transitions.head? = some t) : StartsIn s t.source
  | least {name : String} (not_given : s.initial = none) (no_transition : s.transitions = [])
      (mem : name ∈ s.states.keys) (le : ∀ other ∈ s.states.keys, name ≤ other) : StartsIn s name

/-- The flow has the states that the script mentions, each of them once, and everything in it is as
the script describes it. -/
structure Describes (s : Script) (macros : Macro.Registry) (flow : Flow) : Prop where
  nodup : flow.stateNames.Nodup
  mem_iff : ∀ name, name ∈ flow.stateNames ↔ s.Mentions name
  states : ∀ node ∈ flow.states, node.key = .ofString node.key.render ∧
    node.Follows flow.stateNames (s.spec node.key.render)
  transitions : List.Forall₂ (·.Follows flow.stateNames) flow.transitions s.transitions
  rules : List.Forall₂ Rule.Follows flow.rules s.rules
  initial : ∃ name, s.StartsIn name ∧ IsNamed flow.stateNames flow.initial name
  fallback : Option.Rel (IsNamed flow.stateNames) flow.fallback s.fallback
  initialSpeaker : flow.initialSpeaker = s.initialSpeaker.getD .system
  options : flow.options = s.options
  macros : flow.macros = macros

/-- The causes for which a script cannot be built, with the errors that tell them. -/
inductive Fault (s : Script) : BuildError → Prop
  | expression {t : TransitionSpec} {e : SyntaxError} (mem : t ∈ s.transitions)
      (parsed : Expr.parse t.speaker.grammar t.expression = .error e) : Fault s (.syntaxError e)
  | score {t : TransitionSpec} (mem : t ∈ s.transitions)
      (not_finite : t.score.isFinite = false) :
      Fault s (.invalidScore t.source t.target t.score)
  | guard {name guard : String} {spec : StateSpec} {e : SyntaxError}
      (mem : (name, spec) ∈ s.states.entries) (enter : spec.enter = some guard)
      (parsed : Expr.parse .generation guard = .error e) : Fault s (.syntaxError e)
  | precondition {rule : RuleSpec} {e : SyntaxError} (mem : rule ∈ s.rules)
      (parsed : Expr.parse .matching rule.precondition = .error e) : Fault s (.syntaxError e)
  | postcondition {rule : RuleSpec} {source : String} {e : SyntaxError} (mem : rule ∈ s.rules)
      (postcondition : rule.postcondition = some source)
      (parsed : Expr.parse .generation source = .error e) : Fault s (.syntaxError e)
  | ruleScore {rule : RuleSpec} (mem : rule ∈ s.rules) (not_finite : rule.score.isFinite = false) :
      Fault s (.invalidScore "<update rule>" rule.precondition rule.score)
  | initial {name : String} (initial : s.initial = some name) (missing : ¬ s.Mentions name) :
      Fault s (.unknownState name)
  | fallback {name : String} (fallback : s.fallback = some name) (missing : ¬ s.Mentions name) :
      Fault s (.unknownState name)
  | noState (initial : s.initial = none) (nothing : ∀ name, ¬ s.Mentions name) :
      Fault s .missingInitialState

open Builder Build

variable {s : Script} {base b : Builder} {names : List String}

/-- A declared state is as it is declared. -/
theorem spec_of_mem {name : String} {spec : StateSpec} (h : (name, spec) ∈ s.states.entries) :
    s.spec name = spec := by
  rw [Script.spec, SortedMap.mem_entries_iff.mp h, Option.getD_some]

/-- Nothing special holds of a state that is not declared. -/
theorem spec_of_not_mem {name : String} (h : name ∉ s.states.keys) : s.spec name = {} := by
  rw [SortedMap.mem_keys_iff, SortedMap.contains] at h
  rw [Script.spec, Option.not_isSome_iff_eq_none.mp h, Option.getD_none]

/-! ### The stages -/

/-- What a state is before its guard and its error successor are set. -/
def plainSpec (s : Script) (name : String) : StateSpec :=
  { settings := (s.spec name).settings }

/-- What the states are when some of them have got their guards and error successors. -/
def partSpec (s : Script) (completed : List String) (name : String) : StateSpec :=
  if name ∈ completed then s.spec name else s.plainSpec name

/-- Before any is completed, all states are plain. -/
theorem partSpec_nil : s.partSpec [] = s.plainSpec := by
  funext name
  rw [partSpec, if_neg List.not_mem_nil]

/-- Completing a state gives it its whole description. -/
theorem partSpec_concat (completed : List String) (name : String) :
    s.partSpec (completed ++ [name]) =
      Function.update (s.partSpec completed) name (s.spec name) := by
  funext other
  rw [Function.update_apply]
  by_cases h : other = name <;> simp [partSpec, h]

/-- What is not declared is nothing special at any stage. -/
theorem partSpec_of_not_mem (completed : List String) {name : String}
    (h : name ∉ s.states.keys) : s.partSpec completed name = {} := by
  rw [partSpec, plainSpec, spec_of_not_mem h, ite_self]

/-- When all are completed, every state is as described. -/
theorem partSpec_keys : s.partSpec s.states.keys = s.spec := by
  funext name
  by_cases h : name ∈ s.states.keys
  · rw [partSpec, if_pos h]
  · rw [partSpec_of_not_mem _ h, spec_of_not_mem h]

/-- Declaring the states adds them in the order of their names, plain as yet.  No name comes twice,
so this cannot fail. -/
theorem declare_ends (s : Script) (macros : Macro.Registry) :
    Ends { options := s.options, macros }
      (s.states.entries.forM fun (name, spec) => declare name spec)
      (fun _ => Holds { options := s.options, macros } s.plainSpec s.states.keys [] [])
      s.Fault := by
  refine Ends.forM (I := fun (done : List (String × StateSpec)) =>
    Holds { options := s.options, macros } s.plainSpec (done.map (·.1)) [] [])
    (Holds.fresh s.options macros s.plainSpec) ?_
  rintro done ⟨name, spec⟩ rest hentries b hb
  -- Only its settings have been looked at so far.
  have hspec : s.plainSpec name = { settings := spec.settings } := by
    rw [plainSpec, spec_of_mem (hentries ▸ List.mem_append_right _ List.mem_cons_self)]
  rw [List.map_append]
  exact (addState_ends hb (SortedMap.fst_not_mem_of_entries_eq hentries) hspec).bind fun _ _ h => h

/-- Connecting the transitions adds them in order, and the ends that are new. -/
theorem connect_ends (h : Holds base s.plainSpec s.states.keys [] [] b) :
    Ends b (s.transitions.forM connect) (fun _ b' => ∃ names,
      Joined s.states.keys (s.transitions.flatMap ends) names ∧
        Holds base s.plainSpec names s.transitions [] b') s.Fault := by
  refine Ends.forM (I := fun done b' => ∃ names,
    Joined s.states.keys (done.flatMap ends) names ∧ Holds base s.plainSpec names done [] b')
    ⟨_, .refl _, h⟩ ?_
  rintro done t rest htransitions b ⟨names, hnames, hb⟩
  have hmem : t ∈ s.transitions := htransitions ▸ List.mem_append_right _ List.mem_cons_self
  -- An end that is new is not declared, so nothing special is known of it.
  have hspec : ∀ name ∉ names, s.plainSpec name = {} := by
    intro name hname
    rw [← partSpec_nil]
    exact partSpec_of_not_mem [] fun hkey => hname (hnames.kept.subset hkey)
  refine (addTransition_ends hb t hspec (.score hmem) fun e => .expression hmem).imp ?_
  rintro - b' ⟨names', hnames', hb'⟩
  rw [List.flatMap_append, List.flatMap_singleton]
  exact ⟨names', hnames.trans hnames', hb'⟩

/-- Completing the states sets their guards and error successors, and adds the successors that are
new. -/
theorem completed_ends (hnames : s.states.keys <+: names)
    (h : Holds base s.plainSpec names s.transitions [] b) :
    Ends b (s.states.entries.forM fun (name, spec) => complete name spec) (fun _ b' => ∃ names',
      Joined names (s.states.entries.flatMap (·.2.errorSuccessor.toList)) names' ∧
        Holds base s.spec names' s.transitions [] b') s.Fault := by
  rw [← partSpec_keys]
  refine Ends.forM (I := fun (done : List (String × StateSpec)) b' => ∃ names',
    Joined names (done.flatMap (·.2.errorSuccessor.toList)) names' ∧
      Holds base (s.partSpec (done.map (·.1))) names' s.transitions [] b')
    ⟨names, .refl names, by rwa [List.map_nil, partSpec_nil]⟩ ?_
  rintro done ⟨name, spec⟩ rest hentries b ⟨names₁, hnames₁, hb⟩
  have hmem : (name, spec) ∈ s.states.entries :=
    hentries ▸ List.mem_append_right _ List.mem_cons_self
  have hkept := hnames.trans hnames₁.kept
  -- The state is still plain: names are ascending, so it has not been completed before.
  have hplain : s.partSpec (done.map (·.1)) name = { settings := spec.settings } := by
    have hnew := SortedMap.fst_not_mem_of_entries_eq hentries
    rw [partSpec, if_neg hnew, plainSpec, spec_of_mem hmem]
  refine (complete_ends hb (hkept.subset (List.mem_map_of_mem hmem)) hplain
    (fun other hother => partSpec_of_not_mem _ fun hkey => hother (hkept.subset hkey))
    fun guard henter e => .guard hmem henter).imp ?_
  rintro - b' ⟨names', hnames', hb'⟩
  rw [List.flatMap_append, List.flatMap_singleton, List.map_append, List.map_singleton,
    partSpec_concat, spec_of_mem hmem]
  exact ⟨names', hnames₁.trans hnames', hb'⟩

/-- The rules are added in order. -/
theorem rules_ends (h : Holds base s.spec names s.transitions [] b) :
    Ends b (s.rules.forM addRule)
      (fun _ => Holds base s.spec names s.transitions s.rules) s.Fault := by
  refine Ends.forM (I := fun done => Holds base s.spec names s.transitions done) h ?_
  intro done rule rest hrules b hb
  have hmem : rule ∈ s.rules := hrules ▸ List.mem_append_right _ List.mem_cons_self
  exact addUpdateRule_ends hb rule (.ruleScore hmem) (fun e => .precondition hmem)
    fun source hsource e => .postcondition hmem hsource

/-! ### The whole script -/

/-- The names that are mentioned, by the stages at which their states come into being. -/
theorem mentions_iff (name : String) :
    s.Mentions name ↔ name ∈ s.states.keys ∨ name ∈ s.transitions.flatMap ends ++
      s.states.entries.flatMap (·.2.errorSuccessor.toList) := by
  simp only [Mentions, ends, List.mem_append, List.mem_flatMap, List.mem_cons, List.not_mem_nil,
    or_false, Option.mem_toList]

/-- A script is applied in eight stages. -/
theorem apply_eq (s : Script) : s.apply = (do
    setOptions s.options
    s.states.entries.forM fun (name, spec) => declare name spec
    s.transitions.forM connect
    s.states.entries.forM fun (name, spec) => complete name spec
    s.rules.forM addRule
    s.start?.forM fun name => setInitial (.ofString name)
    s.initialSpeaker.forM setInitialSpeaker
    s.fallback.forM fun name => setFallback (.ofString name)) := by
  unfold apply
  cases s.start? <;> cases s.initialSpeaker <;> cases s.fallback <;> rfl

/-- There is no name to start from if none is given and there is no transition. -/
theorem start?_eq_none_iff : s.start? = none ↔ s.initial = none ∧ s.transitions = [] := by
  rw [start?]
  cases s.initial <;> simp

/-- Where the script says that the conversation starts, by itself or by its first transition. -/
theorem startsIn_of_start? {name : String} (h : s.start? = some name) : s.StartsIn name := by
  cases hinitial : s.initial with
  | some given =>
    rw [start?, hinitial] at h
    obtain rfl : given = name := Option.some.inj h
    exact .given hinitial
  | none =>
    rw [start?, hinitial] at h
    obtain ⟨t, ht, rfl⟩ := Option.map_eq_some_iff.mp (show s.transitions.head?.map _ = _ from h)
    exact .first hinitial ht

/-- The first of the declared states has the least name. -/
theorem startsIn_least {first : String} {rest : List String} (hinitial : s.initial = none)
    (htransitions : s.transitions = []) (hkeys : s.states.keys = first :: rest) :
    s.StartsIn first := by
  refine .least hinitial htransitions (hkeys ▸ List.mem_cons_self) fun other hother => ?_
  have hascending : s.states.keys.Pairwise fun a b => compare a b = .lt :=
    List.pairwise_map.mpr s.states.ascending
  rw [hkeys] at hascending hother
  rcases List.mem_cons.mp hother with rfl | hother
  · exact le_refl _
  · exact (compare_lt_iff_lt.mp (List.rel_of_pairwise_cons hascending hother)).le

/-- A state in which the script starts is missing only if it was given. -/
theorem StartsIn.fault {name : String} (h : s.StartsIn name) (missing : ¬ s.Mentions name) :
    s.Fault (.unknownState name) := by
  cases h with
  | given given => exact .initial given missing
  | first _ first =>
    exact absurd (.inr (.inl ⟨_, List.mem_of_mem_head? first, .inl rfl⟩)) missing
  | least _ _ mem => exact absurd (.inl mem) missing

/-- The builder has come to hold all that the script describes. -/
structure Played (s : Script) (macros : Macro.Registry) (b : Builder) (names : List String) :
    Prop where
  kept : s.states.keys <+: names
  mem_iff : ∀ name, name ∈ names ↔ s.Mentions name
  initial : Option.Rel (IsNamed names) b.initial s.start?
  fallback : Option.Rel (IsNamed names) b.fallback s.fallback
  holds : Holds
    { macros, options := s.options, initial := b.initial, fallback := b.fallback
      initialSpeaker := s.initialSpeaker.getD .system }
    s.spec names s.transitions s.rules b

/-- The conversation starts in the named state, if there is one and the script mentions it. -/
theorem start_ends {ts : List TransitionSpec} {rs : List RuleSpec} {specs : String → StateSpec}
    (h : Holds base specs names ts rs b) (hbase : base.initial = none)
    (hmem : ∀ name, name ∈ names ↔ s.Mentions name) :
    Ends b (s.start?.forM fun name => setInitial (.ofString name)) (fun _ b' => ∃ initial,
      Option.Rel (IsNamed names) initial s.start? ∧
        Holds { base with initial } specs names ts rs b') s.Fault := by
  refine forM_ends (hbase ▸ h) fun name hstart => setInitial_ends h fun hname => ?_
  exact (startsIn_of_start? hstart).fault fun hmentions => hname ((hmem name).mpr hmentions)

/-- The fallback is the named state, if the script mentions it. -/
theorem fallback_ends {ts : List TransitionSpec} {rs : List RuleSpec} {specs : String → StateSpec}
    (h : Holds base specs names ts rs b) (hbase : base.fallback = none)
    (hmem : ∀ name, name ∈ names ↔ s.Mentions name) :
    Ends b (s.fallback.forM fun name => setFallback (.ofString name)) (fun _ b' => ∃ fallback,
      Option.Rel (IsNamed names) fallback s.fallback ∧
        Holds { base with fallback } specs names ts rs b') s.Fault := by
  refine forM_ends (hbase ▸ h) fun name hfallback => setFallback_ends h fun hname => ?_
  exact .fallback hfallback fun hmentions => hname ((hmem name).mpr hmentions)

/-- The first speaker is the given one, if any. -/
theorem speaker_ends {ts : List TransitionSpec} {rs : List RuleSpec} {specs : String → StateSpec}
    (h : Holds base specs names ts rs b) :
    Ends b (s.initialSpeaker.forM setInitialSpeaker) (fun _ =>
      Holds { base with initialSpeaker := s.initialSpeaker.getD base.initialSpeaker } specs names
        ts rs) s.Fault := by
  cases s.initialSpeaker with
  | none => exact h
  | some speaker => exact setInitialSpeaker_ends h speaker

/-- Applied to a fresh builder, a script is played in full, or it has a fault that the error
tells. -/
theorem apply_ends (s : Script) (macros : Macro.Registry) :
    Ends { macros } s.apply (fun _ b => ∃ names, s.Played macros b names) s.Fault := by
  rw [apply_eq]
  refine Ends.bind (Q := fun _ b' => b' = { options := s.options, macros })
    (Ends.modify (by rfl)) ?_
  rintro - b rfl
  refine (declare_ends s macros).bind fun _ b₁ h₁ => ?_
  refine (connect_ends h₁).bind fun _ b₂ ⟨names₂, hnames₂, h₂⟩ => ?_
  refine (completed_ends hnames₂.kept h₂).bind fun _ b₃ ⟨names, hnames₃, h₃⟩ => ?_
  have hnames := hnames₂.trans hnames₃
  have hmem : ∀ name, name ∈ names ↔ s.Mentions name := fun name => by
    rw [hnames.mem_iff, mentions_iff]
  refine (rules_ends h₃).bind fun _ b₄ h₄ => ?_
  refine (start_ends h₄ rfl hmem).bind fun _ b₅ ⟨initial, hinitial, h₅⟩ => ?_
  refine (speaker_ends h₅).bind fun _ b₆ h₆ => ?_
  refine (fallback_ends h₆ rfl hmem).imp fun _ b ⟨fallback, hfallback, hb⟩ => ?_
  -- The states that were set are still there.
  have hframe := hb.frame
  obtain rfl : initial = b.initial := by rw [hframe]
  obtain rfl : fallback = b.fallback := by rw [hframe]
  exact ⟨names, hnames.kept, hmem, hinitial, hfallback, hb⟩

/-! ### The flow -/

namespace Played

variable {macros : Macro.Registry}

/-- The states of the builder have the names that the script mentions. -/
theorem stateNames_eq (h : s.Played macros b names) : b.states.map (·.key.render) = names := by
  have hkeys := congrArg (List.map StateKey.render) h.holds.keys
  simpa only [List.map_map, Function.comp_def, StateKey.render_ofString, List.map_id'] using hkeys

/-- If the builder has no initial state, neither the script nor a transition names one. -/
theorem initial_eq_none (h : s.Played macros b names) (hnone : b.initial = none) :
    s.initial = none ∧ s.transitions = [] := by
  have hinitial := h.initial
  rw [hnone] at hinitial
  generalize hstart : s.start? = start at hinitial
  cases hinitial
  exact start?_eq_none_iff.mp hstart

/-- Where the conversation starts if no state was made the initial one. -/
theorem startsIn_first (h : s.Played macros b names) (hnone : b.initial = none)
    (hne : b.states ≠ []) : ∃ name, s.StartsIn name ∧ IsNamed names 0 name := by
  obtain ⟨hinitial, htransitions⟩ := h.initial_eq_none hnone
  cases hkeys : s.states.keys with
  | cons first rest =>
    obtain ⟨more, rfl⟩ := h.kept
    exact ⟨first, startsIn_least hinitial htransitions hkeys, by rw [hkeys]; rfl⟩
  | nil =>
    -- Then there is no state at all.
    have hentries : s.states.entries = [] := List.map_eq_nil_iff.mp hkeys
    refine absurd (List.map_eq_nil_iff.mp (h.stateNames_eq.trans ?_)) hne
    refine List.eq_nil_iff_forall_not_mem.mpr fun name hname => ?_
    rw [h.mem_iff, Mentions, hkeys, htransitions, hentries] at hname
    simp at hname

/-- An initial state of the builder is one in which the conversation may start. -/
theorem startsIn_initial (h : s.Played macros b names) {id : StateId} (hid : b.initial = some id) :
    ∃ name, s.StartsIn name ∧ IsNamed names id name := by
  have hinitial := h.initial
  rw [hid] at hinitial
  generalize hstart : s.start? = start at hinitial
  cases hinitial with
  | some hid => exact ⟨_, startsIn_of_start? hstart, hid⟩

/-- The flow that comes out of the builder is as described. -/
theorem describes (h : s.Played macros b names) {flow : Flow} (hbuild : b.build = .ok flow) :
    s.Describes macros flow := by
  obtain rfl := h.stateNames_eq
  obtain ⟨initial, rfl, hinitial⟩ := build_eq_ok hbuild
  have hframe := h.holds.frame
  refine ⟨h.holds.nodup, h.mem_iff, ?_, h.holds.transitions, h.holds.rules, ?_, h.fallback, ?_, ?_,
    ?_⟩
  · have hstates := h.holds.states
    rw [List.forall₂_map_right_iff, List.forall₂_same] at hstates
    exact hstates
  · rcases hinitial with hinitial | ⟨hnone, hne, rfl⟩
    · exact h.startsIn_initial hinitial
    · exact h.startsIn_first hnone hne
  · exact congrArg Builder.initialSpeaker hframe
  · exact congrArg Builder.options hframe
  · exact congrArg Builder.macros hframe

/-- If no flow comes out of it, the script mentions no state at all. -/
theorem fault (h : s.Played macros b names) {e : BuildError} (hbuild : b.build = .error e) :
    s.Fault e := by
  obtain ⟨rfl, hnone, hstates⟩ := build_eq_error hbuild
  refine .noState (h.initial_eq_none hnone).1 fun name hname => ?_
  rw [← h.mem_iff, ← h.stateNames_eq, hstates] at hname
  cases hname

end Played

/-! ### No fault -/

/-- Every member on the right has a partner. -/
theorem exists_of_forall₂ {α β : Type} {R : α → β → Prop} {as : List α} {bs : List β}
    (h : List.Forall₂ R as bs) {b : β} (hb : b ∈ bs) : ∃ a, R a b := by
  induction h with
  | nil => cases hb
  | cons hr _ ih =>
    rcases List.mem_cons.mp hb with rfl | hb
    · exact ⟨_, hr⟩
    · exact ih hb

/-- A value on the right has a partner. -/
theorem exists_of_rel_some {α β : Type} {R : α → β → Prop} {a : Option α} {x : Option β} {b : β}
    (h : Option.Rel R a x) (hx : x = some b) : ∃ a, R a b := by
  subst hx
  cases h with
  | some hr => exact ⟨_, hr⟩

namespace Describes

variable {macros : Macro.Registry} {flow : Flow}

/-- Every state of a described flow is mentioned. -/
theorem mentions (h : s.Describes macros flow) {id : StateId} {name : String}
    (hid : IsNamed flow.stateNames id name) : s.Mentions name :=
  (h.mem_iff name).mp (List.mem_of_getElem? hid)

/-- A declared state of the flow is as it is declared. -/
theorem follows_of_mem (h : s.Describes macros flow) {name : String} {spec : StateSpec}
    (hmem : (name, spec) ∈ s.states.entries) :
    ∃ node : StateNode, node.Follows flow.stateNames spec := by
  have hname : name ∈ flow.stateNames := (h.mem_iff name).mpr (.inl (List.mem_map_of_mem hmem))
  obtain ⟨node, hnode, rfl⟩ := List.mem_map.mp hname
  rw [← spec_of_mem hmem]
  exact ⟨node, (h.states node hnode).2⟩

/-- There is no fault in a script that a flow is described by. -/
theorem not_fault (h : s.Describes macros flow) {e : BuildError} : ¬ s.Fault e := by
  intro hfault
  -- Whatever a fault says is missing or malformed, the description has read or found.
  cases hfault with
  | expression mem parsed =>
    obtain ⟨t, ht⟩ := exists_of_forall₂ h.transitions mem
    exact nomatch parsed.symm.trans ht.phrase.parsed
  | score mem not_finite =>
    obtain ⟨t, ht⟩ := exists_of_forall₂ h.transitions mem
    exact nomatch not_finite.symm.trans ht.score_finite
  | guard mem enter parsed =>
    obtain ⟨node, hnode⟩ := h.follows_of_mem mem
    obtain ⟨phrase, hphrase⟩ := exists_of_rel_some hnode.enter enter
    exact nomatch parsed.symm.trans hphrase.parsed
  | precondition mem parsed =>
    obtain ⟨rule, hrule⟩ := exists_of_forall₂ h.rules mem
    exact nomatch parsed.symm.trans hrule.precondition.parsed
  | postcondition mem postcondition parsed =>
    obtain ⟨rule, hrule⟩ := exists_of_forall₂ h.rules mem
    obtain ⟨phrase, hphrase⟩ := exists_of_rel_some hrule.postcondition postcondition
    exact nomatch parsed.symm.trans hphrase.parsed
  | ruleScore mem not_finite =>
    obtain ⟨rule, hrule⟩ := exists_of_forall₂ h.rules mem
    exact nomatch not_finite.symm.trans hrule.score_finite
  | initial initial missing =>
    obtain ⟨name, hstarts, hid⟩ := h.initial
    cases hstarts with
    | given given =>
      obtain rfl := Option.some.inj (initial.symm.trans given)
      exact missing (h.mentions hid)
    | first not_given => exact nomatch initial.symm.trans not_given
    | least not_given => exact nomatch initial.symm.trans not_given
  | fallback fallback missing =>
    obtain ⟨id, hid⟩ := exists_of_rel_some h.fallback fallback
    exact missing (h.mentions hid)
  | noState _ nothing =>
    obtain ⟨name, -, hid⟩ := h.initial
    exact nothing name (h.mentions hid)

end Describes

/-- A script is built as described, or it has a fault that the error tells. -/
theorem build_cases (s : Script) (macros : Macro.Registry) :
    (∃ flow, s.build { macros } = .ok flow ∧ s.Describes macros flow) ∨
      ∃ e, s.build { macros } = .error e ∧ s.Fault e := by
  have hends := s.apply_ends macros
  rw [Ends] at hends
  rw [build]
  rcases hrun : s.apply { macros } with ⟨e | _, b⟩ <;> rw [hrun] at hends
  · exact .inr ⟨e, rfl, hends⟩
  · obtain ⟨names, hb⟩ := hends
    cases hbuild : b.build with
    | ok flow => exact .inl ⟨flow, hbuild, hb.describes hbuild⟩
    | error e => exact .inr ⟨e, hbuild, hb.fault hbuild⟩

/-- A script builds the flow that it describes, and it builds one just if there is no fault in it.
It is no fault that a state is mentioned more than once; and only the states in which the script
starts and to which it falls back have to be mentioned elsewhere. -/
theorem build_faithful (s : Script) (macros : Macro.Registry) :
    (∀ flow, s.build { macros } = .ok flow → s.Describes macros flow) ∧
    (∀ e, s.build { macros } = .error e → s.Fault e) ∧
    ((∃ flow, s.build { macros } = .ok flow) ↔ ∀ e, ¬ s.Fault e) ∧
    (∀ name, s.build { macros } ≠ .error (.duplicateState name)) ∧
    ∀ name, s.build { macros } = .error (.unknownState name) →
      (s.initial = some name ∨ s.fallback = some name) ∧ ¬ s.Mentions name := by
  -- The two outcomes exclude each other, since a described flow leaves no fault.
  rcases s.build_cases macros with ⟨flow, hbuild, hflow⟩ | ⟨e, hbuild, hfault⟩ <;> rw [hbuild]
  · exact ⟨fun _ h => Except.ok.inj h ▸ hflow, nofun, ⟨fun _ _ => hflow.not_fault, fun _ =>
      ⟨flow, rfl⟩⟩, nofun, nofun⟩
  · refine ⟨nofun, fun _ h => Except.error.inj h ▸ hfault, ⟨nofun, fun h => absurd hfault (h e)⟩,
      ?_, ?_⟩
    · rintro name h
      cases h
      cases hfault
    · rintro name h
      cases h
      cases hfault with
      | initial given missing => exact ⟨.inl given, missing⟩
      | fallback given missing => exact ⟨.inr given, missing⟩

/-- Declared states come before those that are only mentioned. -/
example :
    let s : Script :=
      { states := .ofList [("ask", { errorSuccessor := some "clarify" })]
        transitions := [⟨"start", "ask", .system, "your name?", 1.0, none⟩] }
    (s.build {}).toOption.map (fun flow => (flow.stateNames, flow.initial)) =
      some (["ask", "start", "clarify"], 1) := by decide +kernel

/-! ### Scripts and calls -/

/-- A step that does what a call does makes one more builder. -/
theorem call_made {x : Build Unit} (c : Call) (hx : ∀ b, (x b).2 = (c.run b).2) (h : b.Made) :
    Ends b x (fun _ b' => b'.Made) fun _ => True := by
  have hmade : (x b).2.Made := hx b ▸ .call c h
  unfold Ends
  rcases hrun : x b with ⟨_ | _, b'⟩ <;> rw [hrun] at hmade
  · trivial
  · exact hmade

/-- Declaring a state is a call. -/
theorem declare_made (name : String) (spec : StateSpec) (h : b.Made) :
    Ends b (declare name spec) (fun _ b' => b'.Made) fun _ => True := by
  refine call_made (.addState (.ofString name) spec.settings) (fun b => ?_) h
  show _ = (((fun _ => ()) <$> addState (.ofString name) spec.settings : Build Unit) b).2
  rw [map_eq_pure_bind]
  rfl

/-- Completing a state is one call or two, or none. -/
theorem complete_made (name : String) (spec : StateSpec) (h : b.Made) :
    Ends b (complete name spec) (fun _ b' => b'.Made) fun _ => True := by
  obtain ⟨settings, enter, errorSuccessor⟩ := spec
  have hrest : ∀ b₁ : Builder, b₁.Made →
      Ends b₁ (complete name { settings, errorSuccessor }) (fun _ b' => b'.Made) fun _ => True := by
    intro b₁ h₁
    cases errorSuccessor with
    | none => exact h₁
    | some successor =>
      exact call_made (.setErrorSuccessor (.ofString name) (.ofString successor)) (fun _ => rfl) h₁
  cases enter with
  | none => exact hrest b h
  | some guard =>
    exact (call_made (.setEnterGuard (.ofString name) guard) (fun _ => rfl) h).bind
      fun _ b₁ h₁ => hrest b₁ h₁

/-- A stage for an optional part is at most one call. -/
theorem forM_made {α : Type} {o : Option α} {step : α → Build Unit} {c : α → Call}
    (hstep : ∀ a b, (step a b).2 = ((c a).run b).2) (h : b.Made) :
    Ends b (o.forM step) (fun _ b' => b'.Made) fun _ => True := by
  cases o with
  | none => exact h
  | some a => exact call_made (c a) (hstep a) h

/-- Applying a script is a row of calls, whether or not it fails on the way. -/
theorem apply_made (s : Script) (h : b.Made) :
    Ends b s.apply (fun _ b' => b'.Made) fun _ => True := by
  rw [apply_eq]
  refine (call_made (.setOptions s.options) (fun _ => rfl) h).bind fun _ b₁ h₁ => ?_
  refine (Ends.forM (I := fun _ b => b.Made) h₁ fun _ x _ _ b hb =>
    declare_made x.1 x.2 hb).bind fun _ b₂ h₂ => ?_
  refine (Ends.forM (I := fun _ b => b.Made) h₂ fun _ t _ _ b hb =>
    call_made (.addTransition (.ofString t.source) (.ofString t.target) t.speaker t.expression
      t.score t.gate) (fun _ => rfl) hb).bind fun _ b₃ h₃ => ?_
  refine (Ends.forM (I := fun _ b => b.Made) h₃ fun _ x _ _ b hb =>
    complete_made x.1 x.2 hb).bind fun _ b₄ h₄ => ?_
  refine (Ends.forM (I := fun _ b => b.Made) h₄ fun _ r _ _ b hb =>
    call_made (.addUpdateRule r.precondition r.postcondition r.repeating r.score) (fun _ => rfl)
      hb).bind fun _ b₅ h₅ => ?_
  refine (forM_made (c := fun name => .setInitial (.ofString name)) (fun _ _ => rfl) h₅).bind
    fun _ b₆ h₆ => ?_
  refine (forM_made (c := .setInitialSpeaker) (fun _ _ => rfl) h₆).bind fun _ b₇ h₇ => ?_
  exact forM_made (c := fun name => .setFallback (.ofString name)) (fun _ _ => rfl) h₇

/-- The flow of a script comes out of calls of a builder. -/
theorem build_built {s : Script} {macros : Macro.Registry} {flow : Flow}
    (h : s.build { macros } = .ok flow) : flow.Built := by
  have hfresh : Builder.Made { macros } := .call (.setMacros macros) .fresh
  have hmade := s.apply_made hfresh
  unfold Ends at hmade
  rw [build] at h
  rcases hrun : s.apply { macros } with ⟨e | _, b⟩ <;> rw [hrun] at h hmade
  · cases h
  · exact ⟨b, hmade, h⟩

end Script

end Colloquy
