import Mathlib.Data.List.Forall2
import Mathlib.Data.List.Nodup
import Colloquy.Proofs.Flow.Names
import Colloquy.Script.Basic

/-!
# Building by names

A script calls its states by names and a flow by numbers.  The names of the states, in the order of
the states, connect the two: `IsNamed` says which name a number stands for, and `Follows`, for each
part of a flow, that it is what the script describes.

`Builder.Holds` says of a builder that it has come to hold states with certain names, and certain
transitions and rules, all of them as described.  Every step of building has one lemma, which says
what the builder holds after it and for which cause it can fail instead.  States join at the end and
keep their numbers (`Joined`), so what was as described stays so.
-/

namespace Colloquy

/-! ### Parts of a flow and their descriptions -/

/-- The state with the number has the name. -/
def IsNamed (names : List String) (id : StateId) (name : String) : Prop :=
  names[id]? = some name

/-- The phrase is what the source is read as. -/
structure Phrase.ReadFrom (grammar : Grammar) (phrase : Phrase) (text : String) : Prop where
  source : phrase.source = text
  parsed : Expr.parse grammar text = .ok phrase.tree

/-- The state is as described. -/
structure StateNode.Follows (names : List String) (node : StateNode) (spec : StateSpec) : Prop where
  settings : node.settings = spec.settings
  enter : Option.Rel (Phrase.ReadFrom .generation) node.enter spec.enter
  errorSuccessor : Option.Rel (IsNamed names) node.errorSuccessor spec.errorSuccessor

/-- The transition is as described. -/
structure Transition.Follows (names : List String) (t : Transition) (spec : TransitionSpec) :
    Prop where
  source : IsNamed names t.source spec.source
  target : IsNamed names t.target spec.target
  speaker : t.speaker = spec.speaker
  phrase : t.phrase.ReadFrom spec.speaker.grammar spec.expression
  score : t.score = spec.score
  score_finite : spec.score.isFinite = true
  gate : t.gate = spec.gate

/-- The rule is as described. -/
structure Rule.Follows (rule : Rule) (spec : RuleSpec) : Prop where
  precondition : rule.precondition.ReadFrom .matching spec.precondition
  postcondition : Option.Rel (Phrase.ReadFrom .generation) rule.postcondition spec.postcondition
  repeating : rule.repeating = spec.repeating
  score : rule.score = spec.score
  score_finite : spec.score.isFinite = true

/-! ### More names -/

/-- Those of the added names that were not there have joined the names, at the end. -/
structure Joined (names added names' : List String) : Prop where
  kept : names <+: names'
  mem_iff : ∀ name, name ∈ names' ↔ name ∈ names ∨ name ∈ added

section

variable {names added added' names' names'' : List String}

/-- Nothing joins if nothing is added. -/
theorem Joined.refl (names : List String) : Joined names [] names :=
  ⟨List.prefix_rfl, fun name => by simp⟩

/-- Names join in turn. -/
theorem Joined.trans (h : Joined names added names') (h' : Joined names' added' names'') :
    Joined names (added ++ added') names'' :=
  ⟨h.kept.trans h'.kept, fun name => by rw [h'.mem_iff, h.mem_iff, List.mem_append, or_assoc]⟩

/-- States keep their names when others join. -/
theorem IsNamed.joined {id : StateId} {name : String} (h : IsNamed names id name)
    (hnames : names <+: names') : IsNamed names' id name := by
  obtain ⟨more, rfl⟩ := hnames
  obtain ⟨hlt, -⟩ := List.getElem?_eq_some_iff.mp h
  exact (List.getElem?_append_left hlt).trans h

/-- Numbers keep their names when others join, so a state follows its description still. -/
theorem StateNode.Follows.joined {node : StateNode} {spec : StateSpec}
    (h : node.Follows names spec) (hnames : names <+: names') : node.Follows names' spec := by
  refine ⟨h.settings, h.enter, ?_⟩
  have hsuccessor := h.errorSuccessor
  generalize node.errorSuccessor = id, spec.errorSuccessor = name at hsuccessor ⊢
  cases hsuccessor with
  | none => exact .none
  | some hid => exact .some (hid.joined hnames)

/-- So does a transition. -/
theorem Transition.Follows.joined {t : Transition} {spec : TransitionSpec}
    (h : t.Follows names spec) (hnames : names <+: names') : t.Follows names' spec :=
  { h with source := h.source.joined hnames, target := h.target.joined hnames }

end

/-! ### How steps end -/

/-- Run on the builder, the step results in what `post` says, or it fails for the cause. -/
def Build.Ends {α : Type} (b : Builder) (x : Build α) (post : α → Builder → Prop)
    (cause : BuildError → Prop) : Prop :=
  match x b with
  | (.ok a, b') => post a b'
  | (.error e, _) => cause e

namespace Build.Ends

variable {α β : Type} {b : Builder} {cause : BuildError → Prop}

/-- A step that does nothing ends as it is. -/
theorem pure {a : α} {post : α → Builder → Prop} (h : post a b) :
    Ends b (pure a) post cause :=
  h

/-- A step that fails at once does so for its cause. -/
theorem throw {e : BuildError} {post : α → Builder → Prop} (h : cause e) :
    Ends b (throw e : Build α) post cause :=
  h

/-- Asking for the builder is no step of its own. -/
theorem get {f : Builder → Build α} {post : α → Builder → Prop} (h : Ends b (f b) post cause) :
    Ends b (get >>= f) post cause :=
  h

/-- A change ends in the changed builder. -/
theorem modify {g : Builder → Builder} {post : Unit → Builder → Prop} (h : post () (g b)) :
    Ends b (modify g) post cause :=
  h

/-- Two steps in turn: the second begins where the first has ended, and either may fail. -/
theorem bind {x : Build α} {f : α → Build β} {Q : α → Builder → Prop}
    {post : β → Builder → Prop} (hx : Ends b x Q cause)
    (hf : ∀ a b', Q a b' → Ends b' (f a) post cause) : Ends b (x >>= f) post cause := by
  rw [Ends, bind_apply]
  unfold Ends at hx
  rcases hrun : x b with ⟨e | a, b'⟩ <;> rw [hrun] at hx
  · exact hx
  · exact hf a b' hx

/-- What is made of the result makes no difference to the builder. -/
theorem map {x : Build α} {g : α → β} {post : β → Builder → Prop}
    (hx : Ends b x (fun a => post (g a)) cause) : Ends b (g <$> x) post cause := by
  rw [map_eq_pure_bind]
  exact hx.bind fun _ _ h => h

/-- What a step ends in may be weakened. -/
theorem imp {x : Build α} {Q post : α → Builder → Prop} (hx : Ends b x Q cause)
    (h : ∀ a b', Q a b' → post a b') : Ends b x post cause := by
  unfold Ends at hx ⊢
  rcases hrun : x b with ⟨e | a, b'⟩ <;> rw [hrun] at hx
  · exact hx
  · exact h a b' hx

/-- A step for each element: what holds after some of them holds after one more. -/
theorem forM {xs : List α} {step : α → Build Unit} {I : List α → Builder → Prop} (h : I [] b)
    (hstep : ∀ done x rest, xs = done ++ x :: rest → ∀ b, I done b →
      Ends b (step x) (fun _ => I (done ++ [x])) cause) :
    Ends b (xs.forM step) (fun _ => I xs) cause := by
  -- The elements that are left are gone through, those that are done pile up.
  suffices key : ∀ rest done b, xs = done ++ rest → I done b →
      Ends b (rest.forM step) (fun _ => I xs) cause from key xs [] b rfl h
  intro rest
  induction rest with
  | nil =>
    intro done b hxs hdone
    rw [List.append_nil] at hxs
    exact pure (hxs ▸ hdone)
  | cons x rest ih =>
    intro done b hxs hdone
    exact (hstep done x rest hxs b hdone).bind fun _ b' h' =>
      ih (done ++ [x]) b' (by rw [hxs, List.append_assoc]; rfl) h'

end Build.Ends

namespace Builder

open Build

/-! ### What a builder holds -/

/-- The builder holds states with the names, transitions and rules, all as described; else it is as
the base. -/
structure Holds (base : Builder) (specs : String → StateSpec) (names : List String)
    (transitions : List TransitionSpec) (rules : List RuleSpec) (b : Builder) : Prop where
  indexed : b.Indexed
  states : List.Forall₂ (fun node name => node.key = .ofString name ∧
    node.Follows names (specs name)) b.states names
  transitions : List.Forall₂ (·.Follows names) b.transitions transitions
  rules : List.Forall₂ Rule.Follows b.rules rules
  sound : b.cache.Sound
  frame : b = { base with
    register := b.register, states := b.states, transitions := b.transitions, rules := b.rules
    cache := b.cache }

variable {base b : Builder} {specs : String → StateSpec} {names : List String}
  {ts : List TransitionSpec} {rs : List RuleSpec} {cause : BuildError → Prop}

namespace Holds

/-- A fresh builder holds nothing. -/
theorem fresh (options : Options) (macros : Macro.Registry) (specs : String → StateSpec) :
    Holds { options, macros } specs [] [] [] { options, macros } :=
  ⟨Register.lists_empty, .nil, .nil, .nil, ParseCache.sound_empty, rfl⟩

/-- The keys of the states are those of the names. -/
theorem keys (h : Holds base specs names ts rs b) :
    b.states.map (·.key) = names.map StateKey.ofString := by
  rw [← List.forall₂_eq_eq_eq, List.forall₂_map_left_iff, List.forall₂_map_right_iff]
  exact h.states.imp fun _ _ hstate => hstate.1

/-- The register lists them. -/
theorem lists (h : Holds base specs names ts rs b) :
    b.register.Lists (names.map StateKey.ofString) := by
  rw [← h.keys]
  exact h.indexed

/-- The names are distinct, since the register leads from a key to one state only. -/
theorem nodup (h : Holds base specs names ts rs b) : names.Nodup :=
  .of_map _ h.lists.nodup

/-- The register finds the state that has the name. -/
theorem index_eq_some_iff (h : Holds base specs names ts rs b) {name : String} {id : StateId} :
    b.register.index (.ofString name) = some id ↔ IsNamed names id name := by
  rw [h.lists.index_iff, List.getElem?_map, Option.map_eq_some_iff]
  exact ⟨fun ⟨_, hid, heq⟩ => StateKey.ofString_injective heq ▸ hid, fun hid => ⟨_, hid, rfl⟩⟩

/-- The register finds nothing for a name that no state has. -/
theorem index_eq_none_iff (h : Holds base specs names ts rs b) {name : String} :
    b.register.index (.ofString name) = none ↔ name ∉ names := by
  rw [h.lists.index_eq_none_iff, List.mem_map_of_injective StateKey.ofString_injective]

/-- A state that is looked up is one of the names or none. -/
theorem index_cases (h : Holds base specs names ts rs b) (name : String) :
    (∃ id, b.register.index (.ofString name) = some id ∧ IsNamed names id name) ∨
      b.register.index (.ofString name) = none ∧ name ∉ names := by
  cases hfind : b.register.index (.ofString name) with
  | some id => exact .inl ⟨id, rfl, h.index_eq_some_iff.mp hfind⟩
  | none => exact .inr ⟨rfl, h.index_eq_none_iff.mp hfind⟩

/-- A state that is new is held at the end, under its settings alone. -/
theorem append (h : Holds base specs names ts rs b) {name : String} (hnew : name ∉ names)
    {settings : StateSettings} (hspec : specs name = { settings }) :
    Holds base specs (names ++ [name]) ts rs { b with
      register := b.register.enter (.ofString name)
      states := b.states ++ [({ key := .ofString name, settings } : StateNode)] } := by
  have hnames : names <+: names ++ [name] := List.prefix_append _ _
  refine { h with indexed := ?_, states := ?_, transitions := ?_, frame := by rw [h.frame] }
  · -- The name is new, so the register has no entry for its key yet.
    exact (Change.state _ settings (h.index_eq_none_iff.mpr hnew)).indexed h.indexed
  · refine List.rel_append (h.states.imp fun _ _ hstate => ⟨hstate.1, hstate.2.joined hnames⟩)
      (.cons ⟨rfl, ?_⟩ .nil)
    rw [hspec]
    exact ⟨rfl, .none, .none⟩
  · exact h.transitions.imp fun _ _ ht => ht.joined hnames

/-- A state is changed, and so is what it is described as. -/
theorem modify (h : Holds base specs names ts rs b) {id : StateId} {name : String}
    (hid : IsNamed names id name) {f : StateNode → StateNode} {spec : StateSpec}
    (hkey : ∀ node, (f node).key = node.key)
    (hf : ∀ node, node.Follows names (specs name) → (f node).Follows names spec) :
    Holds base (Function.update specs name spec) names ts rs
      { b with states := b.states.modify id f } := by
  refine { h with indexed := ?_, states := ?_, frame := by rw [h.frame] }
  · rw [Indexed, keys_modify _ _ hkey]
    exact h.indexed
  obtain ⟨hlength, hstates⟩ := List.forall₂_iff_get.mp h.states
  refine List.forall₂_iff_get.mpr ⟨by rw [List.length_modify, hlength], fun i hi hi' => ?_⟩
  obtain ⟨hstate, hfollows⟩ := hstates i (by rwa [List.length_modify] at hi) hi'
  simp only [List.get_eq_getElem, List.getElem_modify] at hstate hfollows ⊢
  obtain ⟨hlt, hname⟩ := List.getElem?_eq_some_iff.mp hid
  by_cases heq : id = i
  · subst heq
    rw [hname] at hstate hfollows ⊢
    rw [if_pos rfl, Function.update_self, hkey]
    exact ⟨hstate, hf _ hfollows⟩
  · -- Another state has another name.
    have hne : names[i] ≠ name := fun hi => heq
      ((List.Nodup.getElem_inj_iff h.nodup).mp (hname.trans hi.symm))
    rw [if_neg heq, Function.update_of_ne hne]
    exact ⟨hstate, hfollows⟩

end Holds

/-! ### Steps -/

/-- A state is there, under its number, or is added; then its name joins the others. -/
theorem state_ends (h : Holds base specs names ts rs b) {name : String}
    (hspec : name ∉ names → specs name = {}) :
    Ends b (state (.ofString name)) (fun id b' => ∃ names', Joined names [name] names' ∧
      IsNamed names' id name ∧ Holds base specs names' ts rs b') cause := by
  refine Ends.get ?_
  rcases h.index_cases name with ⟨id, hfind, hid⟩ | ⟨hfind, hnew⟩ <;> rw [hfind]
  · -- It is there: its name joins nothing.
    refine Ends.pure ⟨names, ⟨List.prefix_rfl, fun other => ?_⟩, hid, h⟩
    have hmem : name ∈ names := List.mem_of_getElem? hid
    rw [List.mem_singleton]
    exact ⟨.inl, fun hother => hother.elim (fun hold => hold) fun heq => heq ▸ hmem⟩
  · refine ⟨names ++ [name], ⟨List.prefix_append _ _, fun other => List.mem_append⟩, ?_,
      h.append hnew (hspec hnew)⟩
    rw [IsNamed, h.indexed.next_eq, h.states.length_eq, List.getElem?_concat_length]

/-- A declared state is added. -/
theorem addState_ends (h : Holds base specs names ts rs b) {name : String} (hnew : name ∉ names)
    {settings : StateSettings} (hspec : specs name = { settings }) :
    Ends b (addState (.ofString name) settings)
      (fun _ b' => Holds base specs (names ++ [name]) ts rs b') cause := by
  refine Ends.get ?_
  rw [h.index_eq_none_iff.mpr hnew]
  exact h.append hnew hspec

/-- A state that must exist is found, or its name is unknown. -/
theorem existing_ends (h : Holds base specs names ts rs b) {name : String}
    (hcause : name ∉ names → cause (.unknownState name)) :
    Ends b (existing (.ofString name))
      (fun id b' => IsNamed names id name ∧ Holds base specs names ts rs b') cause := by
  refine Ends.get ?_
  rcases h.index_cases name with ⟨id, hfind, hid⟩ | ⟨hfind, hnew⟩ <;> rw [hfind]
  · exact Ends.pure ⟨hid, h⟩
  · rw [StateKey.render_ofString]
    exact Ends.throw (hcause hnew)

/-- An expression is read as it is parsed, or the source is malformed.  That it may have been kept
from before makes no difference. -/
theorem phrase_ends (h : Holds base specs names ts rs b) {grammar : Grammar} {source : String}
    (hcause : ∀ e, Expr.parse grammar source = .error e → cause (.syntaxError e)) :
    Ends b (phrase grammar source)
      (fun phrase b' => phrase.ReadFrom grammar source ∧ Holds base specs names ts rs b')
      cause := by
  refine Ends.get ?_
  -- The phrase was kept, it is kept from now on, or it cannot be read.
  rcases ParseCache.phrase_cases grammar source b.cache with
    ⟨tree, hrun, hkept⟩ | ⟨tree, hrun, hnew, hparse⟩ | ⟨e, hrun, hparse⟩ <;> rw [hrun]
  · exact ⟨⟨rfl, h.sound.parsed _ _ hkept⟩, h⟩
  · exact ⟨⟨rfl, hparse⟩,
      { h with sound := (h.sound.extends_append hnew hparse).sound, frame := by rw [h.frame] }⟩
  · exact hcause e hparse

/-- A transition is added behind the others, with its ends, unless its score or its expression is
refused. -/
theorem addTransition_ends (h : Holds base specs names ts rs b) (t : TransitionSpec)
    (hspec : ∀ name ∉ names, specs name = {})
    (hscore : t.score.isFinite = false → cause (.invalidScore t.source t.target t.score))
    (hread : ∀ e, Expr.parse t.speaker.grammar t.expression = .error e →
      cause (.syntaxError e)) :
    Ends b (Script.connect t) (fun _ b' => ∃ names', Joined names [t.source, t.target] names' ∧
      Holds base specs names' (ts ++ [t]) rs b') cause := by
  unfold Script.connect addTransition
  by_cases hfinite : t.score.isFinite = true
  · simp only [hfinite, Bool.not_true, Bool.false_eq_true, if_false]
    refine (phrase_ends h hread).bind fun phrase b₁ ⟨hphrase, h₁⟩ => ?_
    refine (state_ends h₁ (hspec _)).bind fun source b₂ ⟨names₂, hnames₂, hsource, h₂⟩ => ?_
    -- Between the two ends, the source may have joined the names.
    have hspec₂ : ∀ name ∉ names₂, specs name = {} := fun name hname =>
      hspec name fun hmem => hname ((hnames₂.mem_iff name).mpr (.inl hmem))
    refine (state_ends h₂ (hspec₂ _)).bind fun target b₃ ⟨names₃, hnames₃, htarget, h₃⟩ => ?_
    refine Ends.modify ⟨names₃, hnames₂.trans hnames₃,
      { h₃ with transitions := ?_, frame := by rw [h₃.frame] }⟩
    exact List.rel_append h₃.transitions
      (.cons ⟨hsource.joined hnames₃.kept, htarget, rfl, hphrase, rfl, hfinite, rfl⟩ .nil)
  · simp only [hfinite, StateKey.render_ofString]
    exact Ends.throw (hscore (by simpa using hfinite))

/-- A guard is set, unless it is malformed. -/
theorem setEnterGuard_ends (h : Holds base specs names ts rs b) {name source : String}
    (hname : name ∈ names)
    (hread : ∀ e, Expr.parse .generation source = .error e → cause (.syntaxError e)) :
    Ends b (setEnterGuard (.ofString name) source)
      (fun _ b' => Holds base
        (Function.update specs name { specs name with enter := some source }) names ts rs b')
      cause := by
  refine (existing_ends h (absurd hname)).bind fun id b₁ ⟨hid, h₁⟩ => ?_
  refine (phrase_ends h₁ hread).bind fun guard b₂ ⟨hguard, h₂⟩ => ?_
  exact Ends.modify (h₂.modify hid (fun _ => rfl) fun node hnode =>
    ⟨hnode.settings, .some hguard, hnode.errorSuccessor⟩)

/-- An error successor is set, and added if it is new. -/
theorem setErrorSuccessor_ends (h : Holds base specs names ts rs b) {name : String}
    (hname : name ∈ names) (successor : String) (hspec : ∀ name ∉ names, specs name = {}) :
    Ends b (setErrorSuccessor (.ofString name) (.ofString successor))
      (fun _ b' => ∃ names', Joined names [successor] names' ∧ Holds base
        (Function.update specs name { specs name with errorSuccessor := some successor })
        names' ts rs b') cause := by
  refine (existing_ends h (absurd hname)).bind fun id b₁ ⟨hid, h₁⟩ => ?_
  refine (state_ends h₁ (hspec _)).bind fun id' b₂ ⟨names', hnames, hid', h₂⟩ => ?_
  exact Ends.modify ⟨names', hnames, h₂.modify (hid.joined hnames.kept) (fun _ => rfl)
    fun node hnode => ⟨hnode.settings, hnode.enter, .some hid'⟩⟩

/-- A state that so far has only its settings becomes what it is described as. -/
theorem complete_ends (h : Holds base specs names ts rs b) {name : String} {spec : StateSpec}
    (hname : name ∈ names) (hplain : specs name = { settings := spec.settings })
    (hspec : ∀ name ∉ names, specs name = {})
    (hread : ∀ guard ∈ spec.enter, ∀ e, Expr.parse .generation guard = .error e →
      cause (.syntaxError e)) :
    Ends b (Script.complete name spec) (fun _ b' => ∃ names',
      Joined names spec.errorSuccessor.toList names' ∧
        Holds base (Function.update specs name spec) names' ts rs b') cause := by
  obtain ⟨settings, enter, errorSuccessor⟩ := spec
  -- What is left after the guard is what is to be done for a state without one.
  have hrest : ∀ b₁, Holds base (Function.update specs name { settings, enter }) names ts rs b₁ →
      Ends b₁ (Script.complete name { settings, errorSuccessor }) (fun _ b' => ∃ names',
        Joined names errorSuccessor.toList names' ∧ Holds base
          (Function.update specs name { settings, enter, errorSuccessor }) names' ts rs b')
        cause := by
    intro b₁ h₁
    cases errorSuccessor with
    | none => exact ⟨names, .refl names, h₁⟩
    | some successor =>
      have hspec₁ : ∀ other ∉ names,
          Function.update specs name { settings, enter } other = {} := by
        intro other hother
        rw [Function.update_of_ne (ne_of_mem_of_not_mem hname hother).symm]
        exact hspec other hother
      refine (setErrorSuccessor_ends h₁ hname successor hspec₁).imp
        fun _ b₂ ⟨names₂, hnames₂, h₂⟩ => ⟨names₂, hnames₂, ?_⟩
      rwa [Function.update_self, Function.update_idem] at h₂
  cases enter with
  | none =>
    refine hrest b ?_
    rwa [← hplain, Function.update_eq_self]
  | some guard =>
    have hset := setEnterGuard_ends h hname (hread guard rfl)
    rw [hplain] at hset
    exact hset.bind fun _ b₁ h₁ => hrest b₁ h₁

/-- A rule is added behind the others, unless its score or one of its expressions is refused. -/
theorem addUpdateRule_ends (h : Holds base specs names ts rs b) (rule : RuleSpec)
    (hscore : rule.score.isFinite = false →
      cause (.invalidScore "<update rule>" rule.precondition rule.score))
    (hpre : ∀ e, Expr.parse .matching rule.precondition = .error e → cause (.syntaxError e))
    (hpost : ∀ source ∈ rule.postcondition, ∀ e, Expr.parse .generation source = .error e →
      cause (.syntaxError e)) :
    Ends b (Script.addRule rule) (fun _ b' => Holds base specs names ts (rs ++ [rule]) b')
      cause := by
  obtain ⟨precondition, postcondition, repeating, score⟩ := rule
  unfold Script.addRule addUpdateRule
  by_cases hfinite : score.isFinite = true
  · simp only [hfinite, Bool.not_true, Bool.false_eq_true, if_false]
    -- What the rule gets for its postcondition is as described, if there is one.
    have hadd : ∀ pre post b, pre.ReadFrom .matching precondition →
        Option.Rel (Phrase.ReadFrom .generation) post postcondition →
        Holds base specs names ts rs b → Holds base specs names ts
          (rs ++ [⟨precondition, postcondition, repeating, score⟩])
          { b with rules := b.rules ++ [⟨pre, post, repeating, score⟩] } :=
      fun pre post b hpre hpost hb => { hb with
        rules := List.rel_append hb.rules (.cons ⟨hpre, hpost, rfl, rfl, hfinite⟩ .nil)
        frame := by rw [hb.frame] }
    refine (phrase_ends h hpre).bind ?_
    rintro pre b₁ ⟨hpre, h₁⟩
    cases postcondition with
    | none => exact hadd pre none b₁ hpre .none h₁
    | some source =>
      have hphrase : Ends b₁ (some <$> phrase .generation source)
          (fun post b' => Option.Rel (Phrase.ReadFrom .generation) post (some source) ∧
            Holds base specs names ts rs b') cause := by
        refine Ends.map ((phrase_ends h₁ (hpost source rfl)).imp ?_)
        rintro phrase b₂ ⟨hphrase, h₂⟩
        exact ⟨.some hphrase, h₂⟩
      refine hphrase.bind ?_
      rintro post b₂ ⟨hpost, h₂⟩
      exact Ends.modify (hadd pre post b₂ hpre hpost h₂)
  · simp only [hfinite]
    exact Ends.throw (hscore (by simpa using hfinite))

/-- The initial state is set, unless its name is unknown. -/
theorem setInitial_ends (h : Holds base specs names ts rs b) {name : String}
    (hcause : name ∉ names → cause (.unknownState name)) :
    Ends b (setInitial (.ofString name)) (fun _ b' => ∃ id, IsNamed names id name ∧
      Holds { base with initial := some id } specs names ts rs b') cause :=
  (existing_ends h hcause).bind fun id b₁ ⟨hid, h₁⟩ => Ends.modify ⟨id, hid,
    { h₁ with frame := by rw [h₁.frame] }⟩

/-- The fallback is set, unless its name is unknown. -/
theorem setFallback_ends (h : Holds base specs names ts rs b) {name : String}
    (hcause : name ∉ names → cause (.unknownState name)) :
    Ends b (setFallback (.ofString name)) (fun _ b' => ∃ id, IsNamed names id name ∧
      Holds { base with fallback := some id } specs names ts rs b') cause :=
  (existing_ends h hcause).bind fun id b₁ ⟨hid, h₁⟩ => Ends.modify ⟨id, hid,
    { h₁ with frame := by rw [h₁.frame] }⟩

/-- A state that is set if a name is given. -/
theorem forM_ends {o : Option String} {step : String → Build Unit}
    {post : Option StateId → Builder → Prop} (hnone : post none b)
    (hsome : ∀ name, o = some name →
      Ends b (step name) (fun _ b' => ∃ id, IsNamed names id name ∧ post (some id) b') cause) :
    Ends b (o.forM step) (fun _ b' => ∃ id, Option.Rel (IsNamed names) id o ∧ post id b')
      cause := by
  cases o with
  | none => exact ⟨none, .none, hnone⟩
  | some name =>
    refine (hsome name rfl).imp ?_
    rintro - b' ⟨id, hid, hb'⟩
    exact ⟨some id, .some hid, hb'⟩

/-- The first speaker is set. -/
theorem setInitialSpeaker_ends (h : Holds base specs names ts rs b) (speaker : Speaker) :
    Ends b (setInitialSpeaker speaker)
      (fun _ => Holds { base with initialSpeaker := speaker } specs names ts rs) cause :=
  Ends.modify { h with frame := by rw [h.frame] }

end Builder

end Colloquy
