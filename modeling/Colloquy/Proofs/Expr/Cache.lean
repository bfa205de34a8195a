import Mathlib.Data.Finset.Card
import Colloquy.Expr.Phrase

/-!
# The parse cache and what it keeps

Reading through the cache gives what reading the source gives, whatever has been read before.  A
tree stays where it was first kept, so that a source is read to one tree that all its readers share.
`ParseCache.after` follows an empty cache through any calls, failing ones included, and
`Transparent` says what then holds (`transparent_after`).

A cache that comes out of calls is sound: it keeps each source once, with the tree that the source
is read as.  Each call reads some sources and extends the cache by them (`Call.extends`).
-/

namespace Colloquy.ParseCache

/-- The tree of the phrase is kept for its source. -/
def Keeps (cache : ParseCache) (grammar : Grammar) (phrase : Phrase) : Prop :=
  ((grammar, phrase.source), phrase.tree) ∈ cache.entries

/-! ### Single calls -/

/-- Parsing through the cache, step by step. -/
theorem parse_apply (grammar : Grammar) (source : String) (cache : ParseCache) :
    parse grammar source cache =
      match cache.entries.lookup (grammar, source) with
      | some tree => (.ok tree, cache)
      | none =>
        match Expr.parse grammar source with
        | .ok tree => (.ok tree, ⟨cache.entries ++ [((grammar, source), tree)]⟩)
        | .error e => (.error e, cache) := by
  show (match cache.entries.lookup (grammar, source) with
    | some tree => pure tree
    | none =>
      match Expr.parse grammar source with
      | .ok tree => do
        set (⟨cache.entries ++ [((grammar, source), tree)]⟩ : ParseCache)
        return tree
      | .error e => throw e : Read Expr) cache = _
  cases cache.entries.lookup (grammar, source) with
  | some tree => rfl
  | none => cases Expr.parse grammar source <;> rfl

/-- Reading a phrase is parsing its source. -/
theorem phrase_apply (grammar : Grammar) (source : String) (cache : ParseCache) :
    phrase grammar source cache =
      ((parse grammar source cache).1.map (Phrase.mk source), (parse grammar source cache).2) := by
  show (match parse grammar source cache with
    | (r, cache') => ExceptT.bindCont (fun tree => pure ⟨source, tree⟩ : Expr → Read Phrase) r
        cache') = _
  rcases parse grammar source cache with ⟨_ | _, _⟩ <;> rfl

/-- Sources are read in turn, up to the first that is malformed. -/
theorem precache_cons_apply (grammar : Grammar) (source : String) (more : List String)
    (cache : ParseCache) :
    precache grammar (source :: more) cache =
      match parse grammar source cache with
      | (.ok _, cache') =>
        ((precache grammar more cache').1.map (· + 1), (precache grammar more cache').2)
      | (.error e, cache') => (.error e, cache') := by
  show (match parse grammar source cache with
    | (r, cache') => ExceptT.bindCont (fun _ => (do return (← precache grammar more) + 1) :
        Expr → Read Nat) r cache') = _
  rcases parse grammar source cache with ⟨e | _, cache'⟩
  · rfl
  · show (match precache grammar more cache' with
      | (r, cache'') => ExceptT.bindCont (fun n => pure (n + 1) : Nat → Read Nat) r cache'') =
      ((precache grammar more cache').1.map (· + 1), (precache grammar more cache').2)
    generalize precache grammar more cache' = rest
    rcases rest with ⟨_ | _, _⟩ <;> rfl

/-- What is found is kept. -/
theorem mem_entries_of_lookup {cache : ParseCache} {grammar : Grammar} {source : String}
    {tree : Expr} (h : cache.entries.lookup (grammar, source) = some tree) :
    ((grammar, source), tree) ∈ cache.entries := by
  obtain ⟨before, after, hentries, -⟩ := List.lookup_eq_some_iff.mp h
  rw [hentries]
  exact List.mem_append_right _ List.mem_cons_self

/-! ### Sound caches -/

/-- The sources for which a tree is kept. -/
def keys (cache : ParseCache) : List (Grammar × String) :=
  cache.entries.map (·.1)

/-- Each source is kept once, with the tree that it is read as. -/
structure Sound (cache : ParseCache) : Prop where
  nodup : cache.keys.Nodup
  parsed : ∀ key tree, (key, tree) ∈ cache.entries → Expr.parse key.1 key.2 = .ok tree

/-- The sources have been read, one after the other: nothing that was kept has moved, and they are
kept too. -/
structure Extends (cache : ParseCache) (read : List (Grammar × String)) (cache' : ParseCache) :
    Prop where
  sound : cache'.Sound
  grown : cache.entries <+: cache'.entries
  mem_keys : ∀ key, key ∈ cache'.keys ↔ key ∈ cache.keys ∨ key ∈ read

variable {cache cache' cache'' : ParseCache} {grammar : Grammar} {source : String}
  {read read' : List (Grammar × String)}

/-- The empty cache is sound. -/
theorem sound_empty : empty.Sound :=
  ⟨List.nodup_nil, nofun⟩

/-- A cache in which nothing has been read is itself. -/
theorem Sound.extends_self (h : cache.Sound) : cache.Extends [] cache :=
  ⟨h, List.prefix_refl _, by simp⟩

/-- Reading more extends the cache further. -/
theorem Extends.trans (h : cache.Extends read cache') (h' : cache'.Extends read' cache'') :
    cache.Extends (read ++ read') cache'' where
  sound := h'.sound
  grown := h.grown.trans h'.grown
  mem_keys key := by rw [h'.mem_keys, h.mem_keys, List.mem_append, or_assoc]

/-- The source is well formed. -/
def legible (grammar : Grammar) (source : String) : Bool :=
  (Expr.parse grammar source).isOk

/-- The sources before the first that is malformed. -/
def legiblePart (grammar : Grammar) (sources : List String) : List String :=
  sources.takeWhile (legible grammar)

/-- A source is legible if it has a tree. -/
theorem legible_iff :
    legible grammar source = true ↔ ∃ tree, Expr.parse grammar source = .ok tree := by
  rw [legible]
  cases Expr.parse grammar source <;> simp [Except.isOk, Except.toBool]

/-- A legible source belongs to what is read. -/
theorem legiblePart_cons_of_ok {tree : Expr} (h : Expr.parse grammar source = .ok tree)
    (more : List String) :
    legiblePart grammar (source :: more) = source :: legiblePart grammar more :=
  List.takeWhile_cons_of_pos (legible_iff.mpr ⟨tree, h⟩)

/-- Nothing is read from a malformed source on. -/
theorem legiblePart_cons_of_error {e : SyntaxError} (h : Expr.parse grammar source = .error e)
    (more : List String) : legiblePart grammar (source :: more) = [] :=
  List.takeWhile_cons_of_neg (by simp [legible_iff, h])

/-- What is not found is not kept. -/
theorem not_mem_entries_of_lookup (h : cache.entries.lookup (grammar, source) = none) :
    (grammar, source) ∉ cache.keys := by
  intro hmem
  obtain ⟨entry, hentry, hkey⟩ := List.mem_map.mp hmem
  have hne := List.lookup_eq_none_iff.mp h entry hentry
  simp [hkey] at hne

/-- A source is kept already, or it is read and kept from then on, or it is malformed. -/
theorem phrase_cases (grammar : Grammar) (source : String) (cache : ParseCache) :
    (∃ tree, phrase grammar source cache = (.ok ⟨source, tree⟩, cache) ∧
      cache.Keeps grammar ⟨source, tree⟩) ∨
    (∃ tree, phrase grammar source cache =
        (.ok ⟨source, tree⟩, ⟨cache.entries ++ [((grammar, source), tree)]⟩) ∧
      (grammar, source) ∉ cache.keys ∧ Expr.parse grammar source = .ok tree) ∨
    ∃ e, phrase grammar source cache = (.error e, cache) ∧
      Expr.parse grammar source = .error e := by
  rw [phrase_apply, parse_apply]
  cases hlookup : cache.entries.lookup (grammar, source) with
  | some tree => exact .inl ⟨tree, rfl, mem_entries_of_lookup hlookup⟩
  | none =>
    cases hread : Expr.parse grammar source with
    | ok tree => exact .inr (.inl ⟨tree, rfl, not_mem_entries_of_lookup hlookup, rfl⟩)
    | error e => exact .inr (.inr ⟨e, rfl, rfl⟩)

/-- A source that is not kept yet is kept at the end. -/
theorem Sound.extends_append (h : cache.Sound) {tree : Expr}
    (hnew : (grammar, source) ∉ cache.keys) (hread : Expr.parse grammar source = .ok tree) :
    cache.Extends [(grammar, source)] ⟨cache.entries ++ [((grammar, source), tree)]⟩ where
  sound := by
    constructor
    · rw [keys, List.map_append]
      exact h.nodup.append (List.nodup_singleton _) (by simpa using hnew)
    · intro key tree' hmem
      rcases List.mem_append.mp hmem with hold | hlast
      · exact h.parsed key tree' hold
      · obtain ⟨rfl, rfl⟩ := Prod.mk.inj (List.mem_singleton.mp hlast)
        exact hread
  grown := List.prefix_append _ _
  mem_keys key := by simp [keys]

/-- Reading a source through a sound cache gives its own tree or error, and keeps it if it is well
formed. -/
theorem Sound.parse_spec (h : cache.Sound) (grammar : Grammar) (source : String) :
    (parse grammar source cache).1 = Expr.parse grammar source ∧
      cache.Extends ((legiblePart grammar [source]).map (grammar, ·))
        (parse grammar source cache).2 := by
  rw [parse_apply]
  cases hlookup : cache.entries.lookup (grammar, source) with
  | some tree =>
    have hmem := mem_entries_of_lookup hlookup
    have hread := h.parsed _ _ hmem
    -- Nothing is added, since the source is among those that are kept.
    refine ⟨hread.symm, h, List.prefix_refl _, fun key => ?_⟩
    have hkept : (grammar, source) ∈ cache.keys := List.mem_map.mpr ⟨_, hmem, rfl⟩
    rw [legiblePart_cons_of_ok hread]
    constructor
    · exact .inl
    · rintro (hkey | hkey)
      · exact hkey
      · rwa [List.mem_singleton.mp hkey]
  | none =>
    cases hread : Expr.parse grammar source with
    | ok tree =>
      rw [legiblePart_cons_of_ok hread]
      exact ⟨rfl, h.extends_append (not_mem_entries_of_lookup hlookup) hread⟩
    | error e =>
      rw [legiblePart_cons_of_error hread]
      exact ⟨rfl, h.extends_self⟩

/-- A source that is malformed is not kept. -/
theorem parse_snd_of_error {e : SyntaxError} (h : (parse grammar source cache).1 = .error e) :
    (parse grammar source cache).2 = cache := by
  rw [parse_apply] at h ⊢
  cases hlookup : cache.entries.lookup (grammar, source) with
  | some tree => rfl
  | none =>
    cases hread : Expr.parse grammar source with
    | ok tree => simp [hlookup, hread] at h
    | error e' => rfl

/-! ### Several sources -/

/-- All the sources are well formed, or there is a first that is not. -/
theorem legible_or_exists_error (grammar : Grammar) (sources : List String) :
    (∀ source ∈ sources, legible grammar source = true) ∨
      ∃ before source rest e, sources = before ++ source :: rest ∧
        (∀ source ∈ before, legible grammar source = true) ∧
        Expr.parse grammar source = .error e := by
  induction sources with
  | nil => exact .inl nofun
  | cons source more ih =>
    cases hread : Expr.parse grammar source with
    | error e => exact .inr ⟨[], source, more, e, rfl, nofun, hread⟩
    | ok tree =>
      have hsource : legible grammar source = true := legible_iff.mpr ⟨tree, hread⟩
      -- The first malformed source of the rest is that of the whole.
      rcases ih with hall | ⟨before, bad, rest, e, rfl, hbefore, hbad⟩
      · exact .inl (List.forall_mem_cons.mpr ⟨hsource, hall⟩)
      · exact .inr ⟨source :: before, bad, rest, e, rfl,
          List.forall_mem_cons.mpr ⟨hsource, hbefore⟩, hbad⟩

/-- If all sources are legible, each has a tree. -/
theorem mapM_parse_of_legible {sources : List String}
    (h : ∀ source ∈ sources, legible grammar source = true) :
    (sources.mapM (Expr.parse grammar)).map List.length = .ok sources.length := by
  induction sources with
  | nil => rfl
  | cons source more ih =>
    obtain ⟨hsource, hmore⟩ := List.forall_mem_cons.mp h
    obtain ⟨tree, hread⟩ := legible_iff.mp hsource
    have hcount := ih hmore
    rw [List.mapM_cons, hread]
    generalize more.mapM (Expr.parse grammar) = trees at hcount ⊢
    cases trees with
    | ok trees =>
      obtain hlength : trees.length = more.length := Except.ok.inj hcount
      exact congrArg (fun n => Except.ok (n + 1)) hlength
    | error e => cases hcount

/-- The first source that is malformed gives the error. -/
theorem mapM_parse_of_error {before : List String} {e : SyntaxError}
    (h : ∀ source ∈ before, legible grammar source = true)
    (herror : Expr.parse grammar source = .error e) (rest : List String) :
    (before ++ source :: rest).mapM (Expr.parse grammar) = .error e := by
  induction before with
  | nil =>
    rw [List.nil_append, List.mapM_cons, herror]
    rfl
  | cons good more ih =>
    obtain ⟨hgood, hmore⟩ := List.forall_mem_cons.mp h
    obtain ⟨tree, hread⟩ := legible_iff.mp hgood
    rw [List.cons_append, List.mapM_cons, hread, ih hmore]
    rfl

/-- Reading several sources counts them, or gives the error of the first that is malformed; those
before it are kept. -/
theorem Sound.precache_spec (h : cache.Sound) (grammar : Grammar) (sources : List String) :
    (precache grammar sources cache).1 =
        (sources.mapM (Expr.parse grammar)).map List.length ∧
      cache.Extends ((legiblePart grammar sources).map (grammar, ·))
        (precache grammar sources cache).2 ∧
      (precache grammar sources cache).2 =
        (legiblePart grammar sources).foldl (fun cache source => (parse grammar source cache).2)
          cache := by
  -- The cache changes from source to source, but it stays sound.
  induction sources generalizing cache with
  | nil => exact ⟨rfl, h.extends_self, rfl⟩
  | cons source more ih =>
    obtain ⟨hread, hextends⟩ := h.parse_spec grammar source
    rw [precache_cons_apply, List.mapM_cons]
    generalize hcall : parse grammar source cache = call at hread hextends ⊢
    obtain ⟨r, cache'⟩ := call
    obtain rfl : r = Expr.parse grammar source := hread
    cases hparse : Expr.parse grammar source with
    | ok tree =>
      obtain ⟨hcount, hmore, hcalls⟩ := ih hextends.sound
      rw [legiblePart_cons_of_ok hparse] at hextends ⊢
      refine ⟨?_, hextends.trans hmore, ?_⟩
      · show (precache grammar more cache').1.map (· + 1) = _
        rw [hcount]
        cases more.mapM (Expr.parse grammar) <;> rfl
      · rw [List.foldl_cons, hcall]
        exact hcalls
    | error e =>
      rw [legiblePart_cons_of_error hparse] at hextends ⊢
      refine ⟨rfl, hextends, ?_⟩
      have hkept : (parse grammar source cache).2 = cache :=
        parse_snd_of_error (by rw [hcall, hparse])
      rwa [hcall] at hkept

/-- Reading ahead succeeds if all the sources are legible, and counts them. -/
theorem Sound.precache_eq_ok_iff (h : cache.Sound) {sources : List String} {n : Nat} :
    (precache grammar sources cache).1 = .ok n ↔
      (∀ source ∈ sources, legible grammar source = true) ∧ n = sources.length := by
  rw [(h.precache_spec grammar sources).1]
  constructor
  · intro hok
    rcases legible_or_exists_error grammar sources with
      hall | ⟨before, source, rest, e, rfl, hbefore, herror⟩
    · rw [mapM_parse_of_legible hall] at hok
      exact ⟨hall, (Except.ok.inj hok).symm⟩
    · rw [mapM_parse_of_error hbefore herror] at hok
      cases hok
  · rintro ⟨hall, rfl⟩
    exact mapM_parse_of_legible hall

/-- Reading ahead fails with the error of the first source that is malformed. -/
theorem Sound.precache_eq_error_iff (h : cache.Sound) {sources : List String} {e : SyntaxError} :
    (precache grammar sources cache).1 = .error e ↔
      ∃ before source rest, sources = before ++ source :: rest ∧
        (∀ source ∈ before, legible grammar source = true) ∧
        Expr.parse grammar source = .error e := by
  rw [(h.precache_spec grammar sources).1]
  constructor
  · intro hfail
    rcases legible_or_exists_error grammar sources with
      hall | ⟨before, source, rest, e', rfl, hbefore, herror⟩
    · rw [mapM_parse_of_legible hall] at hfail
      cases hfail
    · rw [mapM_parse_of_error hbefore herror] at hfail
      cases hfail
      exact ⟨before, source, rest, rfl, hbefore, herror⟩
  · rintro ⟨before, source, rest, rfl, hbefore, herror⟩
    rw [mapM_parse_of_error hbefore herror]
    rfl

/-! ### Shared trees -/

/-- A kept tree is found where it is. -/
theorem Sound.slot?_eq (h : cache.Sound) {i : Nat} {tree : Expr}
    (hentry : cache.entries[i]? = some ((grammar, source), tree)) :
    cache.slot? grammar source = some i := by
  obtain ⟨hi, hget⟩ := List.getElem?_eq_some_iff.mp hentry
  rw [slot?, List.findIdx?_eq_some_iff_getElem]
  refine ⟨hi, by simp [hget], fun j hj => ?_⟩
  intro hsame
  have hlength : cache.keys.length = cache.entries.length := List.length_map _
  -- An earlier entry for the source would be another one, but each source is kept once.
  have hkey : cache.keys[j] = cache.keys[i] := by
    simp only [keys, List.getElem_map, hget]
    exact eq_of_beq hsame
  have hji : j = i := h.nodup.getElem_inj_iff.mp hkey
  omega

/-- A source has no slot if it is not kept. -/
theorem slot?_eq_none_iff :
    cache.slot? grammar source = none ↔ (grammar, source) ∉ cache.keys := by
  rw [slot?, List.findIdx?_eq_none_iff, keys, List.mem_map]
  constructor
  · rintro h ⟨entry, hentry, hkey⟩
    have := h entry hentry
    simp [hkey] at this
  · intro h entry hentry
    simpa using fun hkey => h ⟨entry, hentry, hkey⟩

/-! ### Histories -/

/-- A call that reads through the cache. -/
inductive Call
  | parse (grammar : Grammar) (source : String)
  | phrase (grammar : Grammar) (source : String)
  | precache (grammar : Grammar) (sources : List String)

/-- The cache that a call leaves. -/
def Call.run (cache : ParseCache) : Call → ParseCache
  | parse grammar source => (ParseCache.parse grammar source cache).2
  | phrase grammar source => (ParseCache.phrase grammar source cache).2
  | precache grammar sources => (ParseCache.precache grammar sources cache).2

/-- The cache after some calls on an empty one. -/
def after (calls : List Call) : ParseCache :=
  calls.foldl Call.run empty

/-- What a call reads successfully. -/
def Call.reads : Call → List (Grammar × String)
  | parse grammar source | phrase grammar source =>
    (legiblePart grammar [source]).map (grammar, ·)
  | precache grammar sources => (legiblePart grammar sources).map (grammar, ·)

/-- Later calls go on from the cache that the earlier ones have left. -/
theorem after_append (calls later : List Call) :
    after (calls ++ later) = later.foldl Call.run (after calls) :=
  List.foldl_append

/-- A call extends the cache by what it reads. -/
theorem Sound.extends_run (h : cache.Sound) (call : Call) :
    cache.Extends call.reads (call.run cache) := by
  cases call with
  | parse grammar source => exact (h.parse_spec grammar source).2
  | phrase grammar source =>
    rw [Call.run, phrase_apply]
    exact (h.parse_spec grammar source).2
  | precache grammar sources => exact (h.precache_spec grammar sources).2.1

/-- Calls extend the cache by what they read in turn. -/
theorem Sound.extends_foldl (h : cache.Sound) (calls : List Call) :
    cache.Extends (calls.flatMap Call.reads) (calls.foldl Call.run cache) := by
  induction calls generalizing cache with
  | nil => exact h.extends_self
  | cons call more ih =>
    have hcall := h.extends_run call
    rw [List.flatMap_cons, List.foldl_cons]
    exact hcall.trans (ih hcall.sound)

/-- After some calls, the cache has been read into from empty. -/
theorem extends_after (calls : List Call) :
    empty.Extends (calls.flatMap Call.reads) (after calls) :=
  sound_empty.extends_foldl calls

/-- After some calls, what they have read is kept, and nothing else. -/
theorem mem_keys_after {key : Grammar × String} {calls : List Call} :
    key ∈ (after calls).keys ↔ key ∈ calls.flatMap Call.reads := by
  rw [(extends_after calls).mem_keys]
  simp [keys, empty]

/-- Once a call has read a source, its tree has a place that no later call changes. -/
theorem exists_slot_of_reads {call : Call} {tree : Expr}
    (hread : Expr.parse grammar source = .ok tree) (hcall : (grammar, source) ∈ call.reads)
    (calls : List Call) :
    ∃ i, ∀ later, (after (calls ++ call :: later)).slot? grammar source = some i ∧
      (after (calls ++ call :: later)).entries[i]? = some ((grammar, source), tree) := by
  have hextends := extends_after (calls ++ [call])
  obtain ⟨⟨key, tree'⟩, hentry, rfl⟩ := List.mem_map.mp
    ((hextends.mem_keys (grammar, source)).mpr (.inr (by simp [hcall])))
  obtain rfl : tree = tree' :=
    Except.ok.inj (hread.symm.trans (hextends.sound.parsed _ _ hentry))
  obtain ⟨i, hi⟩ := List.mem_iff_getElem?.mp hentry
  refine ⟨i, fun later => ?_⟩
  -- Later calls only append to what is there.
  have hgrown := hextends.sound.extends_foldl later
  rw [List.append_cons, after_append]
  obtain ⟨hi', -⟩ := List.getElem?_eq_some_iff.mp hi
  have hentry' := (List.prefix_iff_getElem?.mp hgrown.grown i hi').trans
    ((List.getElem?_eq_getElem hi').symm.trans hi)
  exact ⟨hgrown.sound.slot?_eq hentry', hentry'⟩

/-- What reading through a cache comes to, after any calls on it. -/
structure Transparent (calls : List Call) : Prop where
  /-- Parsing gives what the source gives on its own, be it a tree or an error. -/
  parse_eq : ∀ grammar source,
    (parse grammar source (after calls)).1 = Expr.parse grammar source
  phrase_eq : ∀ grammar source,
    (phrase grammar source (after calls)).1 = (Expr.parse grammar source).map (Phrase.mk source)
  /-- Several sources are counted if they are all well formed. -/
  precache_ok : ∀ grammar sources n, (precache grammar sources (after calls)).1 = .ok n ↔
    (∀ source ∈ sources, legible grammar source = true) ∧ n = sources.length
  /-- Otherwise the error is that of the first malformed one. -/
  precache_error : ∀ grammar sources e, (precache grammar sources (after calls)).1 = .error e ↔
    ∃ before source rest, sources = before ++ source :: rest ∧
      (∀ source ∈ before, legible grammar source = true) ∧ Expr.parse grammar source = .error e
  /-- Either way, the sources before it are kept, as if they had been parsed one by one. -/
  precache_keeps : ∀ grammar sources, (precache grammar sources (after calls)).2 =
    after (calls ++ (legiblePart grammar sources).map (.parse grammar))
  /-- Whoever reads a source is given the tree at the one place where it is kept, however many calls
  come in between. -/
  shared : ∀ grammar source tree call, Expr.parse grammar source = .ok tree →
    (grammar, source) ∈ Call.reads call →
    ∃ i, ∀ later, (after (calls ++ call :: later)).slot? grammar source = some i ∧
      (after (calls ++ call :: later)).entries[i]? = some ((grammar, source), tree)
  /-- A malformed source is not kept. -/
  malformed : ∀ grammar source e, Expr.parse grammar source = .error e →
    (after calls).slot? grammar source = none
  /-- There are as many trees as sources read successfully, each counted once for a grammar. -/
  size_eq : (after calls).size = (calls.flatMap Call.reads).toFinset.card

theorem transparent_after (calls : List Call) : Transparent calls := by
  have hextends := extends_after calls
  have hsound := hextends.sound
  constructor
  case parse_eq => exact fun grammar source => (hsound.parse_spec grammar source).1
  case phrase_eq =>
    intro grammar source
    rw [phrase_apply, (hsound.parse_spec grammar source).1]
  case precache_ok => exact fun _ _ _ => hsound.precache_eq_ok_iff
  case precache_error => exact fun _ _ _ => hsound.precache_eq_error_iff
  case precache_keeps =>
    intro grammar sources
    rw [(hsound.precache_spec grammar sources).2.2, after_append, List.foldl_map]
    rfl
  case shared => exact fun _ _ _ _ hread hcall => exists_slot_of_reads hread hcall calls
  -- A kept source has a tree, so a malformed one is not among them.
  case malformed =>
    intro grammar source e herror
    rw [slot?_eq_none_iff]
    intro hmem
    obtain ⟨⟨key, tree⟩, hentry, rfl⟩ := List.mem_map.mp hmem
    have := hsound.parsed _ _ hentry
    rw [herror] at this
    cases this
  -- Each source that has been read is kept once, so they are counted as a set.
  case size_eq =>
    have hkeys : (after calls).keys.toFinset = (calls.flatMap Call.reads).toFinset := by
      ext key
      rw [List.mem_toFinset, List.mem_toFinset, mem_keys_after]
    rw [← hkeys, List.toFinset_card_of_nodup hsound.nodup, size, keys, List.length_map]

example :
    (after [.parse .matching "hello", .precache .matching ["bye", "[broken", "oh"],
      .phrase .matching "hello", .phrase .generation "hello"]).size = 3 := by
  decide +kernel

end Colloquy.ParseCache
