import Colloquy.Proofs.Flow.WellFormed

/-!
# Refused calls

A call of a builder that ends in an error leaves the builder as it was, except that the parse cache
may keep more sources: such as the call names, and only well-formed ones
(`Builder.Call.refused_unchanged`).  `Builder.Call.Refused` lists the causes that an error can have.
Two of them are about the keys that a builder knows; these are the keys of its states
(`Builder.Indexed.knows_iff`).

Every call looks up and reads before it changes anything.  Of a step of building, `Build.Reads` says
that it changes nothing but the cache, however it ends, `Build.Sure` that it does not fail, and
`Build.Atomic` that it changes nothing but the cache if it fails.  A reading step may stand before
an atomic one (`Build.Reads.bind_atomic`), and a sure step is atomic.
-/

namespace Colloquy

/-! ### What may be read -/

/-- The cache keeps more of the listed sources, each of them well formed and none of them twice. -/
def ParseCache.Gains (cache : ParseCache) (sources : List (Grammar × String))
    (cache' : ParseCache) : Prop :=
  ∃ added, cache'.entries = cache.entries ++ added ∧ ∀ key tree, (key, tree) ∈ added →
    key ∈ sources ∧ key ∉ cache.keys ∧ Expr.parse key.1 key.2 = .ok tree

namespace ParseCache.Gains

variable {cache cache' cache'' : ParseCache} {sources : List (Grammar × String)}

/-- Nothing need be gained. -/
theorem refl (cache : ParseCache) (sources : List (Grammar × String)) :
    cache.Gains sources cache :=
  ⟨[], (List.append_nil _).symm, fun _ _ h => absurd h List.not_mem_nil⟩

/-- Gains add up: what comes second is new beside what came first. -/
theorem trans (h : cache.Gains sources cache') (h' : cache'.Gains sources cache'') :
    cache.Gains sources cache'' := by
  obtain ⟨added, hadded, hnew⟩ := h
  obtain ⟨added', hadded', hnew'⟩ := h'
  refine ⟨added ++ added', by rw [hadded', hadded, List.append_assoc], fun key tree hmem => ?_⟩
  rcases List.mem_append.mp hmem with hmem | hmem
  · exact hnew key tree hmem
  · -- What was new to the later cache was new to the earlier one.
    obtain ⟨hsource, hkey, hparse⟩ := hnew' key tree hmem
    refine ⟨hsource, fun hold => hkey ?_, hparse⟩
    rw [keys, hadded, List.map_append]
    exact List.mem_append_left _ hold

/-- A source that is kept from now on. -/
theorem append {grammar : Grammar} {source : String} {tree : Expr}
    (hsource : (grammar, source) ∈ sources) (hnew : (grammar, source) ∉ cache.keys)
    (hparse : Expr.parse grammar source = .ok tree) :
    cache.Gains sources ⟨cache.entries ++ [((grammar, source), tree)]⟩ := by
  refine ⟨[((grammar, source), tree)], rfl, fun key tree' hmem => ?_⟩
  obtain ⟨rfl, rfl⟩ := Prod.mk.inj (List.mem_singleton.mp hmem)
  exact ⟨hsource, hnew, hparse⟩

end ParseCache.Gains

/-- The builders differ in the cache alone, which keeps more of the listed sources. -/
structure Builder.OnlyReads (b : Builder) (sources : List (Grammar × String)) (b' : Builder) :
    Prop where
  same : b' = { b with cache := b'.cache }
  gains : b.cache.Gains sources b'.cache

namespace Builder.OnlyReads

variable {b b' b'' : Builder} {sources : List (Grammar × String)}

/-- A builder differs from itself in nothing. -/
theorem refl (b : Builder) (sources : List (Grammar × String)) : b.OnlyReads sources b :=
  ⟨rfl, .refl _ _⟩

/-- Reading on is reading. -/
theorem trans (h : b.OnlyReads sources b') (h' : b'.OnlyReads sources b'') :
    b.OnlyReads sources b'' :=
  ⟨by rw [h'.same, h.same], h.gains.trans h'.gains⟩

end Builder.OnlyReads

/-! ### Causes -/

/-- The key leads to a state. -/
def Builder.Knows (b : Builder) (key : StateKey) : Prop :=
  b.register.index key ≠ none

/-- A builder knows the keys of its states and no others. -/
theorem Builder.Indexed.knows_iff {b : Builder} (h : b.Indexed) (key : StateKey) :
    b.Knows key ↔ key ∈ b.states.map (·.key) := by
  rw [Knows, ne_eq, Register.Lists.index_eq_none_iff h, not_not]

namespace Builder.Call

/-- The state that has to exist for the call. -/
def existing? : Call → Option StateKey
  | .setStateSettings key _ | .setErrorSuccessor key _ | .setEnterGuard key _ | .setInitial key
  | .setFallback key => some key
  | _ => none

/-- The sources that the call reads, in their order. -/
def sources : Call → List (Grammar × String)
  | .addTransition _ _ speaker expression _ _ => [(speaker.grammar, expression)]
  | .setEnterGuard _ expression => [(.generation, expression)]
  | .addUpdateRule precondition postcondition _ _ =>
    (.matching, precondition) :: postcondition.toList.map (.generation, ·)
  | _ => []

/-- The causes for which a call of the builder may be refused, with the errors that tell them. -/
inductive Refused (b : Builder) : Call → BuildError → Prop
  | duplicateState {key : StateKey} {settings : StateSettings} (taken : b.Knows key) :
      Refused b (.addState key settings) (.duplicateState key.render)
  | unknownState {c : Call} {key : StateKey} (needed : c.existing? = some key)
      (missing : ¬ b.Knows key) : Refused b c (.unknownState key.render)
  | transitionScore {source target : StateKey} {speaker : Speaker} {expression : String}
      {score : Float} {gate : Option (List String)} (not_finite : score.isFinite = false) :
      Refused b (.addTransition source target speaker expression score gate)
        (.invalidScore source.render target.render score)
  | ruleScore {precondition : String} {postcondition : Option String} {repeating : Bool}
      {score : Float} (not_finite : score.isFinite = false) :
      Refused b (.addUpdateRule precondition postcondition repeating score)
        (.invalidScore "<update rule>" precondition score)
  | malformed {c : Call} {grammar : Grammar} {source : String} {e : SyntaxError}
      (mem : (grammar, source) ∈ c.sources) (parsed : Expr.parse grammar source = .error e) :
      Refused b c (.syntaxError e)

end Builder.Call

/-! ### Steps that read, sure steps, and atomic steps -/

namespace Build

variable {α β : Type} {b : Builder} {sources : List (Grammar × String)}
  {cause : BuildError → Prop} {x : Build α} {f : α → Build β}

/-- Run on the builder, the step only reads the sources, however it ends. -/
structure Reads (b : Builder) (sources : List (Grammar × String)) (cause : BuildError → Prop)
    (x : Build α) : Prop where
  onlyReads : b.OnlyReads sources (x b).2
  error : ∀ e, (x b).1 = .error e → cause e

/-- The step does not fail. -/
def Sure (x : Build α) : Prop :=
  ∀ b : Builder, ∃ a, (x b).1 = .ok a

/-- If the step fails when it is run on the builder, it has only read the sources. -/
def Atomic (b : Builder) (sources : List (Grammar × String)) (cause : BuildError → Prop)
    (x : Build α) : Prop :=
  ∀ e, (x b).1 = .error e → cause e ∧ b.OnlyReads sources (x b).2

/-- A step that does nothing reads nothing. -/
theorem Reads.pure (a : α) : Reads b sources cause (pure a) :=
  ⟨.refl b sources, nofun⟩

/-- A step that fails at once reads nothing. -/
theorem Reads.throw {e : BuildError} (h : cause e) :
    Reads b sources cause (throw e : Build α) :=
  ⟨.refl b sources, fun e' he => by rwa [← Except.error.inj he]⟩

/-- Asking for the builder reads nothing. -/
theorem Reads.get {f : Builder → Build α} (hf : Reads b sources cause (f b)) :
    Reads b sources cause (get >>= f) :=
  ⟨hf.onlyReads, hf.error⟩

/-- What only reads has only read when it fails. -/
theorem Reads.atomic (hx : Reads b sources cause x) : Atomic b sources cause x :=
  fun e he => ⟨hx.error e he, hx.onlyReads⟩

/-- What is made of the result makes no difference to the builder. -/
theorem map_apply (g : α → β) (x : Build α) (b : Builder) :
    (g <$> x) b = match x b with
      | (.ok a, b') => (.ok (g a), b')
      | (.error e, b') => (.error e, b') := by
  rw [map_eq_pure_bind, bind_apply]
  rfl

/-- What only reads may have something made of its result. -/
theorem Reads.map (hx : Reads b sources cause x) (g : α → β) :
    Reads b sources cause (g <$> x) := by
  obtain ⟨hreads, herror⟩ := hx
  have hrun := map_apply g x b
  rcases hxb : x b with ⟨e | a, b'⟩ <;> rw [hxb] at hreads herror hrun <;>
    refine ⟨by rwa [hrun], fun e' he => ?_⟩ <;> rw [hrun] at he
  · obtain rfl : e = e' := Except.error.inj he
    exact herror e rfl
  · cases he

/-- Asking for the builder changes nothing. -/
theorem Atomic.get {f : Builder → Build α} (hf : Atomic b sources cause (f b)) :
    Atomic b sources cause (get >>= f) :=
  hf

/-- A failure is the same whatever would have been made of the result. -/
theorem Atomic.map (hx : Atomic b sources cause x) (g : α → β) :
    Atomic b sources cause (g <$> x) := by
  intro e he
  have hrun := map_apply g x b
  rcases hxb : x b with ⟨e' | a, b'⟩ <;> rw [hxb] at hrun <;> rw [hrun] at he ⊢
  · obtain rfl : e' = e := Except.error.inj he
    have hfailed := hx e' (by rw [hxb])
    rwa [hxb] at hfailed
  · cases he

/-- Nothing has changed before the last step that can fail. -/
theorem Reads.bind_atomic (hx : Reads b sources cause x)
    (hf : ∀ a b', b.OnlyReads sources b' → Atomic b' sources cause (f a)) :
    Atomic b sources cause (x >>= f) := by
  obtain ⟨hreads, herror⟩ := hx
  intro e he
  rw [bind_apply] at he ⊢
  rcases hrun : x b with ⟨e' | a, b'⟩ <;> rw [hrun] at hreads herror he
  · obtain rfl : e' = e := Except.error.inj he
    exact ⟨herror e' rfl, hreads⟩
  · -- The first step has only read, so the failure of the second leaves nothing but what both have
    -- read.
    obtain ⟨hcause, hreads'⟩ := hf a b' hreads e he
    exact ⟨hcause, hreads.trans hreads'⟩

/-- What does not fail has nothing to answer for. -/
theorem Sure.atomic (hx : Sure x) : Atomic b sources cause x := by
  intro e he
  obtain ⟨a, ha⟩ := hx b
  rw [ha] at he
  cases he

/-- Doing nothing does not fail. -/
theorem Sure.pure (a : α) : Sure (pure a) :=
  fun _ => ⟨a, rfl⟩

/-- Asking for the builder does not fail. -/
theorem Sure.get {f : Builder → Build α} (hf : ∀ b, Sure (f b)) : Sure (get >>= f) :=
  fun b => hf b b

/-- Replacing the builder does not fail. -/
theorem Sure.set (b : Builder) : Sure (set b) :=
  fun _ => ⟨(), rfl⟩

/-- Changing the builder does not fail. -/
theorem Sure.modify (g : Builder → Builder) : Sure (modify g) :=
  fun _ => ⟨(), rfl⟩

/-- Two steps that do not fail do not fail in turn. -/
theorem Sure.bind (hx : Sure x) (hf : ∀ a, Sure (f a)) : Sure (x >>= f) := by
  intro b
  obtain ⟨a, ha⟩ := hx b
  rw [bind_apply]
  rcases hrun : x b with ⟨e | a', b'⟩ <;> rw [hrun] at ha
  · cases ha
  · exact hf a' b'

/-- Making something of a result does not fail. -/
theorem Sure.map (hx : Sure x) (g : α → β) : Sure (g <$> x) := by
  rw [map_eq_pure_bind]
  exact hx.bind fun a => .pure (g a)

end Build

/-! ### Calls -/

namespace Builder

open Build

variable {b : Builder} {sources : List (Grammar × String)} {cause : BuildError → Prop}

/-- Looking up a state that must exist. -/
theorem existing_reads {key : StateKey}
    (h : ¬ b.Knows key → cause (.unknownState key.render)) :
    Reads b sources cause (existing key) := by
  refine Reads.get ?_
  cases hfind : b.register.index key with
  | some id => exact .pure id
  | none => exact .throw (h fun hknown => hknown hfind)

/-- Reading a source. -/
theorem phrase_reads {grammar : Grammar} {source : String} (hmem : (grammar, source) ∈ sources)
    (h : ∀ e, Expr.parse grammar source = .error e → cause (.syntaxError e)) :
    Reads b sources cause (phrase grammar source) := by
  refine Reads.get ?_
  rcases ParseCache.phrase_cases grammar source b.cache with
    ⟨tree, hrun, -⟩ | ⟨tree, hrun, hnew, hparse⟩ | ⟨e, hrun, hparse⟩ <;> rw [hrun]
  · exact ⟨.refl b sources, nofun⟩
  · exact ⟨⟨rfl, .append hmem hnew hparse⟩, nofun⟩
  · exact ⟨.refl b sources, fun e' he => Except.error.inj he ▸ h e hparse⟩

/-- Inserting a state does not fail. -/
theorem insertState_sure (key : StateKey) (settings : StateSettings) :
    Sure (insertState key settings) :=
  .get fun _ => (Sure.set _).bind fun _ => .pure _

/-- Finding or adding a state does not fail. -/
theorem state_sure (key : StateKey) : Sure (state key) := by
  refine .get fun b => ?_
  cases b.register.index key with
  | some id => exact .pure id
  | none => exact insertState_sure key {}

/-- Adding a state fails only where its key is known, and changes nothing then. -/
theorem addState_atomic {key : StateKey} {settings : StateSettings}
    (h : b.Knows key → cause (.duplicateState key.render)) :
    Atomic b sources cause (addState key settings) := by
  refine Atomic.get ?_
  cases hfind : b.register.index key with
  | none => exact (insertState_sure key settings).atomic
  | some id => exact (Reads.throw (h (Option.ne_none_iff_exists'.mpr ⟨id, hfind⟩))).atomic

/-- A transition is refused for its score before anything is read, and for its expression before a
state is added. -/
theorem addTransition_atomic (source target : StateKey) (speaker : Speaker) (expression : String)
    (score : Float) (gate : Option (List String)) :
    let c := Call.addTransition source target speaker expression score gate
    Atomic b c.sources (c.Refused b) c.run := by
  intro c
  show Atomic b c.sources (c.Refused b) (addTransition source target speaker expression score gate)
  unfold addTransition
  by_cases hscore : score.isFinite = true
  · simp only [hscore, Bool.not_true, Bool.false_eq_true, if_false]
    exact (phrase_reads List.mem_cons_self fun _ h => .malformed List.mem_cons_self h).bind_atomic
      fun _ _ _ => ((state_sure source).bind fun _ => (state_sure target).bind fun _ =>
        .modify _).atomic
  · simp only [hscore]
    exact (Reads.throw (.transitionScore (by simpa using hscore))).atomic

/-- A rule is refused for its score before anything is read, and otherwise for the first of its
expressions that is malformed. -/
theorem addUpdateRule_atomic (precondition : String) (postcondition : Option String)
    (repeating : Bool) (score : Float) :
    let c := Call.addUpdateRule precondition postcondition repeating score
    Atomic b c.sources (c.Refused b) c.run := by
  intro c
  show Atomic b c.sources (c.Refused b) (addUpdateRule precondition postcondition repeating score)
  unfold addUpdateRule
  by_cases hscore : score.isFinite = true
  · simp only [hscore, Bool.not_true, Bool.false_eq_true, if_false]
    refine (phrase_reads List.mem_cons_self fun _ h =>
      .malformed List.mem_cons_self h).bind_atomic fun pre b₁ _ => ?_
    cases postcondition with
    | none => exact ((Sure.pure none).bind fun _ => .modify _).atomic
    | some source =>
      -- The precondition may be kept by now; it has been read.
      have hmem : (Grammar.generation, source) ∈ c.sources :=
        List.mem_cons_of_mem _ List.mem_cons_self
      exact ((phrase_reads hmem fun _ h => .malformed hmem h).map some).bind_atomic
        fun _ _ _ => (Sure.modify _).atomic
  · simp only [hscore]
    exact (Reads.throw (.ruleScore (by simpa using hscore))).atomic

/-- A call that is refused has only read. -/
theorem Call.run_atomic (b : Builder) (c : Call) : Atomic b c.sources (c.Refused b) c.run := by
  -- In every call the steps that may fail come first, and they only read.
  cases c with
  | addState key settings => exact (addState_atomic .duplicateState).map _
  | state key => exact ((state_sure key).map _).atomic
  | anonymousState settings => exact ((Sure.get fun _ => insertState_sure _ settings).map _).atomic
  | setStateSettings key settings =>
    exact (existing_reads (.unknownState rfl)).bind_atomic fun _ _ _ => (Sure.modify _).atomic
  | addTransition source target speaker expression score gate =>
    exact addTransition_atomic source target speaker expression score gate
  | setErrorSuccessor key successor =>
    exact (existing_reads (.unknownState rfl)).bind_atomic fun _ _ _ =>
      ((state_sure successor).bind fun _ => .modify _).atomic
  | setEnterGuard key expression =>
    exact (existing_reads (.unknownState rfl)).bind_atomic fun _ _ _ =>
      (phrase_reads List.mem_cons_self fun _ h => .malformed List.mem_cons_self h).bind_atomic
        fun _ _ _ => (Sure.modify _).atomic
  | addUpdateRule precondition postcondition repeating score =>
    exact addUpdateRule_atomic precondition postcondition repeating score
  | setInitial key | setFallback key =>
    exact (existing_reads (.unknownState rfl)).bind_atomic fun _ _ _ => (Sure.modify _).atomic
  | setInitialSpeaker speaker | setOptions options | setMacros macros =>
    exact (Sure.modify _).atomic

/-- A call that is refused leaves the builder as it was, but for the well-formed ones among its own
sources, which the cache may keep from now on; and it is refused for one of the causes.  What a
builder that was made knows are the keys of its states. -/
theorem Call.refused_unchanged {b : Builder} {c : Call} {e : BuildError}
    (h : (c.run b).1 = .error e) :
    c.Refused b e ∧ b.OnlyReads c.sources (c.run b).2 ∧
      (b.Made → ∀ key, b.Knows key ↔ key ∈ b.states.map (·.key)) := by
  obtain ⟨hcause, hreads⟩ := c.run_atomic b e h
  exact ⟨hcause, hreads, fun hmade => hmade.indexed.knows_iff⟩

/-- A rule of which the precondition can be read and the postcondition cannot. -/
def Call.halfRead : Call :=
  .addUpdateRule "help" (some "[ask, away]") false 1.0

theorem Call.refused_unchanged_halfRead :
    ∃ e, (Call.halfRead.run greeting).1 = .error e ∧
      (Call.halfRead.Refused greeting e ∧
        greeting.OnlyReads Call.halfRead.sources (Call.halfRead.run greeting).2 ∧
        (greeting.Made → ∀ key, greeting.Knows key ↔ key ∈ greeting.states.map (·.key))) ∧
      (Call.halfRead.run greeting).2.cache.keys =
        [(.generation, "hello"), (.matching, "help")] := by
  have hfails : (Call.halfRead.run greeting).1.toOption = none := by decide +kernel
  cases hrun : (Call.halfRead.run greeting).1 with
  | ok u =>
    rw [hrun] at hfails
    cases hfails
  | error e => exact ⟨e, rfl, Call.refused_unchanged hrun, by decide +kernel⟩

end Builder

end Colloquy
