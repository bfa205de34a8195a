import Mathlib.Data.List.Infix
import Mathlib.Logic.Relation
import Mathlib.Tactic.SplitIfs
import Colloquy.Proofs.Expr.Cache
import Colloquy.Proofs.Flow.Register

/-!
# What can be built

A `Builder.Call` is a call of a builder with any arguments, `Builder.Made` says that a builder comes
out of some calls in a row, failing ones included, and `Flow.Built` that a flow comes out of such a
builder.

Whatever a call does, it does by some changes one after the other (`Builder.Call.run_goes`), and
`Builder.Change` lists what a change can be.  So every builder that is made comes out of the fresh
one by changes (`Builder.Made.changes`), and what every change keeps holds of all that can be built.

A call looks states up in the register, so what it does is known of a builder of which the register
has the states (`Builder.Indexed`).  Every change keeps this, and every builder that is made is such
a one (`Builder.Made.indexed`).
-/

namespace Colloquy

/-! ### Calls -/

/-- A call of a builder. -/
inductive Builder.Call
  | addState (key : StateKey) (settings : StateSettings)
  | state (key : StateKey)
  | anonymousState (settings : StateSettings)
  | setStateSettings (key : StateKey) (settings : StateSettings)
  | addTransition (source target : StateKey) (speaker : Speaker) (expression : String)
      (score : Float) (gate : Option (List String))
  | setErrorSuccessor (key successor : StateKey)
  | setEnterGuard (key : StateKey) (expression : String)
  | addUpdateRule (precondition : String) (postcondition : Option String) (repeating : Bool)
      (score : Float)
  | setInitial (key : StateKey)
  | setInitialSpeaker (speaker : Speaker)
  | setFallback (key : StateKey)
  | setOptions (options : Options)
  /-- Registers, replaces or removes macros. -/
  | setMacros (macros : Macro.Registry)

/-- The building step of a call, without its result. -/
def Builder.Call.run : Builder.Call → Build Unit
  | .addState key settings => discard (Builder.addState key settings)
  | .state key => discard (Builder.state key)
  | .anonymousState settings => discard (Builder.anonymousState settings)
  | .setStateSettings key settings => Builder.setStateSettings key settings
  | .addTransition source target speaker expression score gate =>
    Builder.addTransition source target speaker expression score gate
  | .setErrorSuccessor key successor => Builder.setErrorSuccessor key successor
  | .setEnterGuard key expression => Builder.setEnterGuard key expression
  | .addUpdateRule precondition postcondition repeating score =>
    Builder.addUpdateRule precondition postcondition repeating score
  | .setInitial key => Builder.setInitial key
  | .setInitialSpeaker speaker => Builder.setInitialSpeaker speaker
  | .setFallback key => Builder.setFallback key
  | .setOptions options => Builder.setOptions options
  | .setMacros macros => modify fun b => { b with macros }

/-- The builder is what some calls in a row make of a fresh one.  A call may fail. -/
inductive Builder.Made : Builder → Prop
  | fresh : Made {}
  | call {b : Builder} (c : Builder.Call) : Made b → Made (c.run b).2

/-- The flow comes out of a builder. -/
def Flow.Built (flow : Flow) : Prop :=
  ∃ b : Builder, b.Made ∧ b.build = .ok flow

/-- Further calls make further builders. -/
theorem Builder.Made.calls {b : Builder} (h : b.Made) (calls : List Builder.Call) :
    (calls.foldl (fun b c => (c.run b).2) b).Made := by
  induction calls generalizing b with
  | nil => exact h
  | cons c calls ih => exact ih (.call c h)

/-- The flow of a builder with states, none of which has been made the initial one. -/
def Flow.ofBuilder (b : Builder) : Flow :=
  { states := b.states, transitions := b.transitions, rules := b.rules, macros := b.macros
    cache := b.cache, options := b.options, initial := 0, initialSpeaker := b.initialSpeaker
    fallback := b.fallback }

/-- Without an initial state, the flow begins at the first. -/
theorem Flow.ofBuilder_built {b : Builder} (h : b.Made) (hinitial : b.initial = none)
    (hstates : b.states.isEmpty = false) : (Flow.ofBuilder b).Built := by
  refine ⟨b, h, ?_⟩
  rw [Builder.build, hinitial, hstates]
  rfl

/-- The flow that is built starts in the initial state, or in the first if there is none. -/
theorem Builder.build_eq_ok {b : Builder} {flow : Flow} (h : b.build = .ok flow) :
    ∃ initial, flow = { Flow.ofBuilder b with initial } ∧
      (b.initial = some initial ∨ b.initial = none ∧ b.states ≠ [] ∧ initial = 0) := by
  rw [build] at h
  cases hinitial : b.initial with
  | some id =>
    rw [hinitial] at h
    exact ⟨id, (Except.ok.inj h).symm, .inl rfl⟩
  | none =>
    rw [hinitial] at h
    dsimp only at h
    split_ifs at h with hempty
    exact ⟨0, (Except.ok.inj h).symm, .inr ⟨rfl, by simpa using hempty, rfl⟩⟩

/-- Building fails only if there is no state to start in. -/
theorem Builder.build_eq_error {b : Builder} {e : BuildError} (h : b.build = .error e) :
    e = .missingInitialState ∧ b.initial = none ∧ b.states = [] := by
  rw [build] at h
  cases hinitial : b.initial with
  | some id =>
    rw [hinitial] at h
    cases h
  | none =>
    rw [hinitial] at h
    dsimp only at h
    split_ifs at h with hempty
    exact ⟨(Except.error.inj h).symm, rfl, by simpa using hempty⟩

/-! ### What a call changes -/

/-- One change of a builder.  The states that it mentions by number exist, its expressions have been
read, and its scores are finite. -/
inductive Builder.Change (b : Builder) : Builder → Prop
  /-- A further state, with a key of its own. -/
  | state (key : StateKey) (settings : StateSettings) (isNew : b.register.index key = none) :
      Change b { b with
        register := b.register.enter key
        states := b.states ++ [({ key, settings } : StateNode)] }
  /-- A state keeps its key, and may get another error successor or another guard. -/
  | node (id : StateId) (f : StateNode → StateNode) (key_eq : ∀ node, (f node).key = node.key)
      (successor : ∀ node, ∀ s ∈ (f node).errorSuccessor,
        s ∈ node.errorSuccessor ∨ s < b.states.length)
      (enter : ∀ node, ∀ guard ∈ (f node).enter,
        guard ∈ node.enter ∨ b.cache.Keeps .generation guard) :
      Change b { b with states := b.states.modify id f }
  /-- A source is read. -/
  | read (grammar : Grammar) (source : String) (tree : Expr)
      (parsed : Expr.parse grammar source = .ok tree) :
      Change b { b with cache := ⟨b.cache.entries ++ [((grammar, source), tree)]⟩ }
  | transition (t : Transition) (source_lt : t.source < b.states.length)
      (target_lt : t.target < b.states.length) (kept : b.cache.Keeps t.speaker.grammar t.phrase)
      (score_finite : t.score.isFinite = true) :
      Change b { b with transitions := b.transitions ++ [t] }
  | rule (rule : Rule) (precondition : b.cache.Keeps .matching rule.precondition)
      (postcondition : ∀ phrase ∈ rule.postcondition, b.cache.Keeps .generation phrase)
      (score_finite : rule.score.isFinite = true) :
      Change b { b with rules := b.rules ++ [rule] }
  | initial (id : StateId) (lt : id < b.states.length) : Change b { b with initial := some id }
  | fallback (id : StateId) (lt : id < b.states.length) : Change b { b with fallback := some id }
  | setup (speaker : Speaker) (options : Options) (macros : Macro.Registry) :
      Change b { b with initialSpeaker := speaker, options, macros }

/-- Some changes one after the other. -/
def Builder.Changes : Builder → Builder → Prop :=
  Relation.ReflTransGen Builder.Change

/-- The register has the states of the builder. -/
def Builder.Indexed (b : Builder) : Prop :=
  b.register.Lists (b.states.map (·.key))

namespace Builder

/-- The next number is the one behind the last state. -/
theorem Indexed.next_eq {b : Builder} (h : b.Indexed) : b.register.next = b.states.length := by
  rw [Register.Lists.next_eq h, List.length_map]

/-- A state that is looked up exists. -/
theorem Indexed.lt {b : Builder} (h : b.Indexed) {key : StateKey} {id : StateId}
    (hid : b.register.index key = some id) : id < b.states.length := by
  have hlt := Register.Lists.lt h hid
  rwa [List.length_map] at hlt

/-- One change is some changes. -/
theorem Change.changes {b b' : Builder} (h : Change b b') : Changes b b' :=
  .single h

/-- The keys of a list of states do not change with its nodes. -/
theorem keys_modify (states : List StateNode) (id : StateId) {f : StateNode → StateNode}
    (hf : ∀ node, (f node).key = node.key) :
    (states.modify id f).map (·.key) = states.map (·.key) := by
  refine List.ext_getElem? fun n => ?_
  rw [List.getElem?_map, List.getElem?_map, List.getElem?_modify]
  cases states[n]? with
  | none => rfl
  | some node =>
    show some (if id = n then f node else node).key = some node.key
    split_ifs
    · rw [hf]
    · rfl

/-- A change leaves the keys that there are in their places. -/
theorem Change.keys {b b' : Builder} (h : Change b b') :
    b.states.map (·.key) <+: b'.states.map (·.key) := by
  cases h with
  | state key settings =>
    rw [List.map_append]
    exact List.prefix_append _ _
  | node id f key_eq => rw [keys_modify _ _ key_eq]
  | read | transition | rule | initial | fallback | setup => exact List.prefix_rfl

/-- A state is entered under its key when it comes into being, and the key stays. -/
theorem Change.indexed {b b' : Builder} (h : Change b b') (hb : b.Indexed) : b'.Indexed := by
  cases h with
  | state key settings isNew =>
    rw [Indexed, List.map_append]
    exact Register.Lists.enter hb isNew
  -- A change of a state keeps its key.
  | node id f key_eq =>
    rw [Indexed, keys_modify _ _ key_eq]
    exact hb
  | read | transition | rule | initial | fallback | setup => exact hb

/-- What has been read stays kept. -/
theorem Change.kept {b b' : Builder} (h : Change b b') {grammar : Grammar} {phrase : Phrase}
    (hkept : b.cache.Keeps grammar phrase) : b'.cache.Keeps grammar phrase := by
  cases h with
  | read => exact List.mem_append_left _ hkept
  | state | node | transition | rule | initial | fallback | setup => exact hkept

namespace Changes

variable {b b' : Builder}

/-- States are only ever added, and keep their keys. -/
theorem keys (h : Changes b b') : b.states.map (·.key) <+: b'.states.map (·.key) := by
  induction h with
  | refl => exact List.prefix_rfl
  | tail _ h ih => exact ih.trans h.keys

/-- The register keeps up with the states. -/
theorem indexed (h : Changes b b') (hb : b.Indexed) : b'.Indexed := by
  induction h with
  | refl => exact hb
  | tail _ h ih => exact h.indexed ih

/-- What the cache keeps, it keeps. -/
theorem kept (h : Changes b b') {grammar : Grammar} {phrase : Phrase}
    (hkept : b.cache.Keeps grammar phrase) : b'.cache.Keeps grammar phrase := by
  induction h with
  | refl => exact hkept
  | tail _ h ih => exact h.kept ih

/-- The states that there are stay. -/
theorem length_le (h : Changes b b') : b.states.length ≤ b'.states.length := by
  have hle := h.keys.length_le
  rwa [List.length_map, List.length_map] at hle

end Changes

end Builder

/-! ### Building steps make changes -/

/-- Run on the builder, the step makes some changes, and what it results in satisfies `post`. -/
structure Build.Goes {α : Type} (b : Builder) (x : Build α) (post : α → Builder → Prop) :
    Prop where
  changes : b.Changes (x b).2
  result : ∀ a, (x b).1 = .ok a → post a (x b).2

namespace Build

variable {α β : Type} {b : Builder}

/-- Two steps in a row: the second is taken if the first does not fail. -/
theorem bind_apply (x : Build α) (f : α → Build β) (b : Builder) :
    (x >>= f) b = match x b with
      | (.ok a, b') => f a b'
      | (.error e, b') => (.error e, b') := by
  show (match x b with | (r, b') => ExceptT.bindCont f r b') = _
  rcases x b with ⟨_ | _, _⟩ <;> rfl

namespace Goes

/-- Two steps in turn: the second starts from what the first has changed. -/
theorem bind {x : Build α} {f : α → Build β} {Q : α → Builder → Prop}
    {post : β → Builder → Prop} (hx : Goes b x Q)
    (hf : ∀ a b', b.Changes b' → Q a b' → Goes b' (f a) post) : Goes b (x >>= f) post := by
  obtain ⟨hchanges, hresult⟩ := hx
  have hrun := bind_apply x f b
  rcases hxb : x b with ⟨e | a, b'⟩
  · -- The first step has failed, and what it has changed so far stays.
    rw [hxb] at hchanges hrun
    exact ⟨by rw [hrun]; exact hchanges, fun a h => by rw [hrun] at h; cases h⟩
  · rw [hxb] at hchanges hresult hrun
    have hnext := hf a b' hchanges (hresult a rfl)
    exact ⟨by rw [hrun]; exact hchanges.trans hnext.changes,
      fun c h => by rw [hrun] at h ⊢; exact hnext.result c h⟩

/-- A step that does nothing changes nothing. -/
theorem pure {post : α → Builder → Prop} {a : α} (h : post a b) : Goes b (pure a) post := by
  refine ⟨.refl, fun a' ha' => ?_⟩
  obtain rfl : a = a' := Except.ok.inj ha'
  exact h

/-- A step that fails at once changes nothing. -/
theorem throw {post : α → Builder → Prop} (e : BuildError) : Goes b (throw e : Build α) post :=
  ⟨.refl, fun _ h => nomatch h⟩

/-- Asking for the builder changes nothing. -/
theorem get {f : Builder → Build α} {post : α → Builder → Prop} (hf : Goes b (f b) post) :
    Goes b (get >>= f) post :=
  ⟨hf.changes, hf.result⟩

/-- Replacing a builder by one that it may change into. -/
theorem set {b' : Builder} {post : Unit → Builder → Prop} (hchanges : b.Changes b')
    (h : post () b') : Goes b (set b') post :=
  ⟨hchanges, fun _ _ => h⟩

/-- A single change. -/
theorem modify {g : Builder → Builder} (hchange : b.Change (g b)) :
    Goes b (modify g) fun _ _ => True :=
  ⟨hchange.changes, fun _ _ => trivial⟩

/-- What is made of the result makes no change. -/
theorem map {x : Build α} {post : α → Builder → Prop} (hx : Goes b x post) {g : α → β}
    {post' : β → Builder → Prop} (h : ∀ a b', post a b' → post' (g a) b') :
    Goes b (g <$> x) post' := by
  rw [map_eq_pure_bind]
  exact hx.bind fun a b' _ ha => pure (h a b' ha)

/-- The result may be left aside. -/
theorem discard {x : Build α} {post : α → Builder → Prop} (hx : Goes b x post) :
    Goes b (discard x) fun _ _ => True :=
  hx.map fun _ _ _ => trivial

end Goes

end Build

namespace Builder

open Build

variable {b : Builder}

/-- The number that a new state draws is that of its place. -/
theorem insertState_goes (hb : b.Indexed) {key : StateKey} (isNew : b.register.index key = none)
    (settings : StateSettings) :
    Goes b (insertState key settings) fun id b' => id < b'.states.length := by
  refine Goes.get (Goes.bind (Q := fun _ b' => b.register.next < b'.states.length)
    (Goes.set (Change.state key settings isNew).changes ?_) fun _ b' _ hlt => ?_)
  · rw [hb.next_eq, List.length_append]
    exact Nat.lt_succ_self _
  · exact Goes.pure hlt

/-- Finding or adding a state results in the number of one. -/
theorem state_goes (hb : b.Indexed) (key : StateKey) :
    Goes b (state key) fun id b' => id < b'.states.length := by
  refine Goes.get ?_
  cases hfind : b.register.index key with
  | some id => exact Goes.pure (hb.lt hfind)
  | none => exact insertState_goes hb hfind {}

/-- So does adding one. -/
theorem addState_goes (hb : b.Indexed) (key : StateKey) (settings : StateSettings) :
    Goes b (addState key settings) fun id b' => id < b'.states.length := by
  refine Goes.get ?_
  cases hfind : b.register.index key with
  | some id => exact Goes.throw _
  | none => exact insertState_goes hb hfind settings

/-- The first free key for a nameless state is free. -/
theorem anonymousState_goes (hb : b.Indexed) (settings : StateSettings) :
    Goes b (anonymousState settings) fun id b' => id < b'.states.length := by
  refine Goes.get ?_
  -- Some number is free, since there are more of them than states.
  obtain ⟨k, hk⟩ :=
    Option.isSome_iff_exists.mp (List.find?_isSome.mpr (Register.Lists.exists_free hb))
  have hfree := List.find?_some hk
  dsimp only
  rw [hk, Option.getD_some]
  exact insertState_goes hb (Option.isNone_iff_eq_none.mp hfree) settings

/-- So does finding one that has to exist. -/
theorem existing_goes (hb : b.Indexed) (key : StateKey) :
    Goes b (existing key) fun id b' => id < b'.states.length := by
  refine Goes.get ?_
  cases hfind : b.register.index key with
  | some id => exact Goes.pure (hb.lt hfind)
  | none => exact Goes.throw _

/-- A source that can be read is kept from then on; reading changes nothing else. -/
theorem phrase_goes (b : Builder) (grammar : Grammar) (source : String) :
    Goes b (phrase grammar source) fun phrase b' => b'.cache.Keeps grammar phrase := by
  unfold phrase
  refine Goes.get ?_
  rcases ParseCache.phrase_cases grammar source b.cache with
    ⟨tree, hrun, hkept⟩ | ⟨tree, hrun, -, hparse⟩ | ⟨e, hrun, -⟩
  · rw [hrun]
    exact Goes.bind (Q := fun _ b' => b'.cache.Keeps grammar ⟨source, tree⟩)
      (Goes.set .refl hkept) fun _ _ _ h => Goes.pure h
  · rw [hrun]
    exact Goes.bind (Q := fun _ b' => b'.cache.Keeps grammar ⟨source, tree⟩)
      (Goes.set (Change.read grammar source tree hparse).changes
        (List.mem_append_right _ (List.mem_singleton_self _))) fun _ _ _ h => Goes.pure h
  · rw [hrun]
    exact Goes.bind (Q := fun _ _ => True) (Goes.set .refl trivial) fun _ _ _ _ => Goes.throw _

/-- Changing a state in its settings, its error successor or its guard. -/
theorem modifyState_goes (id : StateId) {f : StateNode → StateNode}
    (key_eq : ∀ node, (f node).key = node.key)
    (successor : ∀ node, ∀ s ∈ (f node).errorSuccessor,
      s ∈ node.errorSuccessor ∨ s < b.states.length)
    (enter : ∀ node, ∀ guard ∈ (f node).enter,
      guard ∈ node.enter ∨ b.cache.Keeps .generation guard) :
    Goes b (modifyState id f) fun _ _ => True :=
  Goes.modify (.node id f key_eq successor enter)

/-- Settings are changed in a state that exists. -/
theorem setStateSettings_goes (hb : b.Indexed) (key : StateKey) (settings : StateSettings) :
    Goes b (setStateSettings key settings) fun _ _ => True :=
  (existing_goes hb key).bind fun id _ _ _ =>
    modifyState_goes id (fun _ => rfl) (fun _ _ h => .inl h) fun _ _ h => .inl h

/-- An error successor is a state that exists, if need be from now on. -/
theorem setErrorSuccessor_goes (hb : b.Indexed) (key successor : StateKey) :
    Goes b (setErrorSuccessor key successor) fun _ _ => True := by
  refine (existing_goes hb key).bind fun id b₁ h₁ _ =>
    (state_goes (h₁.indexed hb) successor).bind fun id' b₂ _ hlt =>
      modifyState_goes id (fun _ => rfl) (fun node s hs => .inr ?_) fun _ _ h => .inl h
  obtain rfl : id' = s := Option.some.inj hs
  exact hlt

/-- A guard has been read before it is set. -/
theorem setEnterGuard_goes (hb : b.Indexed) (key : StateKey) (expression : String) :
    Goes b (setEnterGuard key expression) fun _ _ => True := by
  refine (existing_goes hb key).bind fun id b₁ _ _ => (phrase_goes b₁ .generation expression).bind
    fun phrase b₂ _ hkept => modifyState_goes id (fun _ => rfl) (fun _ _ h => .inl h)
      fun node guard hguard => .inr ?_
  obtain rfl : phrase = guard := Option.some.inj hguard
  exact hkept

/-- A transition has its expression read and its ends in place before it is added. -/
theorem addTransition_goes (hb : b.Indexed) (source target : StateKey) (speaker : Speaker)
    (expression : String) (score : Float) (gate : Option (List String)) :
    Goes b (addTransition source target speaker expression score gate) fun _ _ => True := by
  unfold addTransition
  by_cases hscore : score.isFinite = true
  · simp only [hscore, Bool.not_true, Bool.false_eq_true, if_false]
    -- What has been found so far still holds after the changes that follow.
    exact (phrase_goes b speaker.grammar expression).bind fun phrase b₁ h₁ hkept =>
      (state_goes (h₁.indexed hb) source).bind fun s b₂ h₂ hsource =>
      (state_goes (h₂.indexed (h₁.indexed hb)) target).bind fun t b₃ h₃ htarget =>
      Goes.modify (.transition _ (Nat.lt_of_lt_of_le hsource h₃.length_le) htarget
        (h₃.kept (h₂.kept hkept)) hscore)
  · simp only [hscore]
    exact Goes.throw _

/-- A rule has its expressions read before it is added. -/
theorem addUpdateRule_goes (precondition : String) (postcondition : Option String)
    (repeating : Bool) (score : Float) :
    Goes b (addUpdateRule precondition postcondition repeating score) fun _ _ => True := by
  unfold addUpdateRule
  by_cases hscore : score.isFinite = true
  · simp only [hscore, Bool.not_true, Bool.false_eq_true, if_false]
    refine (phrase_goes b .matching precondition).bind fun pre b₁ _ hpre => ?_
    cases postcondition with
    | none =>
      refine Goes.bind (Q := fun post _ => post = none) (Goes.pure rfl) ?_
      rintro post b₂ h₂ rfl
      exact Goes.modify (.rule _ (h₂.kept hpre) nofun hscore)
    -- The precondition was read first, and is still kept when the postcondition has been.
    | some source =>
      have hpost : Goes b₁ (some <$> phrase .generation source)
          fun post b' => ∀ phrase ∈ post, b'.cache.Keeps .generation phrase := by
        refine (phrase_goes b₁ .generation source).map fun phrase b' hkept phrase' h => ?_
        obtain rfl : phrase = phrase' := Option.some.inj h
        exact hkept
      exact hpost.bind fun post b₂ h₂ hkept => Goes.modify (.rule _ (h₂.kept hpre) hkept hscore)
  · simp only [hscore]
    exact Goes.throw _

/-- Whatever a call does, it does by changes. -/
theorem Call.run_goes (hb : b.Indexed) (c : Call) : Goes b c.run fun _ _ => True := by
  cases c with
  | addState key settings => exact (addState_goes hb key settings).discard
  | state key => exact (state_goes hb key).discard
  | anonymousState settings => exact (anonymousState_goes hb settings).discard
  | setStateSettings key settings => exact setStateSettings_goes hb key settings
  | addTransition source target speaker expression score gate =>
    exact addTransition_goes hb source target speaker expression score gate
  | setErrorSuccessor key successor => exact setErrorSuccessor_goes hb key successor
  | setEnterGuard key expression => exact setEnterGuard_goes hb key expression
  | addUpdateRule precondition postcondition repeating score =>
    exact addUpdateRule_goes precondition postcondition repeating score
  | setInitial key =>
    exact (existing_goes hb key).bind fun id _ _ hlt => Goes.modify (.initial id hlt)
  | setFallback key =>
    exact (existing_goes hb key).bind fun id _ _ hlt => Goes.modify (.fallback id hlt)
  | setInitialSpeaker speaker => exact Goes.modify (.setup speaker b.options b.macros)
  | setOptions options => exact Goes.modify (.setup b.initialSpeaker options b.macros)
  | setMacros macros => exact Goes.modify (.setup b.initialSpeaker b.options macros)

/-- Calls enter the states that they add. -/
theorem Made.indexed (h : b.Made) : b.Indexed := by
  induction h with
  | fresh => exact Register.lists_empty
  | call c _ ih => exact (c.run_goes ih).changes.indexed ih

/-- A builder comes out of the fresh one by changes. -/
theorem Made.changes (h : b.Made) : Changes {} b := by
  induction h with
  | fresh => exact .refl
  | call c hmade ih => exact ih.trans (c.run_goes hmade.indexed).changes

/-- What a fresh builder has and every change keeps, every builder has. -/
theorem Made.induct (h : b.Made) {P : Builder → Prop} (hfresh : P {})
    (hchange : ∀ b b', b.Change b' → P b → P b') : P b := by
  have hchanges := h.changes
  clear h
  induction hchanges with
  | refl => exact hfresh
  | tail _ hstep ih => exact hchange _ _ hstep ih

end Builder

end Colloquy
