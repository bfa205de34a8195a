import Colloquy.Proofs.Flow.Tables

/-!
# Nameless states

A nameless state gets a number for its name, in the namespace `_auto`: the first one of which the
key is free, counted from the number for the next state on.  The search for it sets itself no bound
(`Register.Finds`), and the keys that it tries may be taken, by nameless states before or by a host
that chose such names, in any order.  It ends all the same, since of one more keys than there are
states not all can be taken (`Builder.Indexed.exists_anonymousState`).

So a nameless state can be added after any calls (`Builder.anonymousState_fresh`).  Its key is new,
and from then on the key leads to it, written as a text as well; all keys that led to states before
still lead to the same states.
-/

namespace Colloquy

/-! ### The search for a free key -/

namespace Register

variable {r : Register} {k n : Nat}

/-- The search for a free key that has come to a number stops at the number `k`. -/
inductive Finds (r : Register) (k : Nat) : Nat → Prop
  | free (h : r.index (Builder.autoKey k) = none) : Finds r k k
  /-- A key that is taken is passed over. -/
  | taken {n : Nat} (h : (r.index (Builder.autoKey n)).isSome = true) (rest : Finds r k (n + 1)) :
    Finds r k n

theorem Finds.index_eq_none (h : r.Finds k n) : r.index (Builder.autoKey k) = none := by
  induction h with
  | free h => exact h
  | taken _ _ ih => exact ih

/-- The search stops at one number only. -/
theorem Finds.unique {k' : Nat} (h : r.Finds k n) (h' : r.Finds k' n) : k = k' := by
  induction h with
  | free hfree =>
    cases h' with
    | free => rfl
    | taken htaken => simp [hfree] at htaken
  | taken htaken _ ih =>
    cases h' with
    | free hfree => simp [hfree] at htaken
    | taken _ rest => exact ih rest

/-- The search stops at the first free key. -/
theorem finds_of_taken (hfree : r.index (Builder.autoKey k) = none) (hle : n ≤ k)
    (htaken : ∀ m, n ≤ m → m < k → (r.index (Builder.autoKey m)).isSome = true) :
    r.Finds k n := by
  induction hle using Nat.decreasingInduction with
  | self => exact .free hfree
  | of_succ n hlt ih =>
    exact .taken (htaken n (Nat.le_refl n) hlt) (ih fun m hm => htaken m (Nat.le_of_succ_le hm))

/-- From one register to the other a state has come into being: the key was free and leads to the
next number now, and every other key leads where it led. -/
structure Gains (r : Register) (key : StateKey) (r' : Register) : Prop where
  free : r.index key = none
  next_eq : r'.next = r.next + 1
  index_key : r'.index key = some r.next
  index_other : ∀ other, other ≠ key → r'.index other = r.index other

theorem gains_enter {key : StateKey} (h : r.index key = none) : r.Gains key (r.enter key) where
  free := h
  next_eq := enter_next r key
  index_key := enter_index_self r key
  index_other := fun _ hother => enter_index_of_ne hother

end Register

/-! ### Adding a nameless state -/

namespace Builder

theorem autoKey_canonical (n : Nat) : (autoKey n).Canonical :=
  ⟨by decide, Nat.repr_ne_empty, by decide⟩

/-- A nameless state gets the key at which the search stops, and this passes over no more keys than
there are states. -/
theorem Indexed.exists_anonymousState {b : Builder} (h : b.Indexed) (settings : StateSettings) :
    ∃ k, b.register.Finds k b.register.next ∧ k ≤ b.register.next + b.states.length ∧
      anonymousState settings b = (.ok b.register.next,
        { b with
          register := b.register.enter (autoKey k)
          states := b.states ++ [({ key := autoKey k, settings } : StateNode)] }) := by
  obtain ⟨k, hk⟩ :=
    Option.isSome_iff_exists.mp (List.find?_isSome.mpr (Register.Lists.exists_free h))
  obtain ⟨hfree, hmem, htaken⟩ := List.find?_range'_eq_some.mp hk
  obtain ⟨hle, hlt⟩ := List.mem_range'_1.mp hmem
  refine ⟨k, Register.finds_of_taken (Option.isNone_iff_eq_none.mp hfree) hle
    fun m hm hmk => ?_, ?_, ?_⟩
  · rw [← Option.not_isNone]
    exact htaken m hm hmk
  · rw [← h.next_eq]
    omega
  · -- One of the candidates has a free key, so the default does not come in.
    show insertState (autoKey (Option.getD (List.find? _ _) _)) settings b = _
    rw [hk]
    rfl

theorem Call.run_anonymousState (b : Builder) (settings : StateSettings) :
    ((Call.anonymousState settings).run b).2 = (Builder.anonymousState settings b).2 := by
  show (((fun _ => ()) <$> Builder.anonymousState settings : Build Unit) b).2 = _
  rw [map_eq_pure_bind, Build.bind_apply]
  rcases Builder.anonymousState settings b with ⟨_ | _, b'⟩ <;> rfl

/-- A nameless state is added to the builder: it gets the key of the number `k`, and nothing else
changes but that the key is entered. -/
structure AddsNameless (b : Builder) (settings : StateSettings) (k : Nat) (b' : Builder) :
    Prop where
  /-- The search starts at the number for the next state. -/
  finds : b.register.Finds k b.register.next
  /-- It passes over no more keys than there are states. -/
  finds_le : k ≤ b.register.next + b.states.length
  run_eq : anonymousState settings b = (.ok b.register.next, b')
  states_eq : b' = { b with
    register := b'.register
    states := b.states ++ [({ key := autoKey k, settings } : StateNode)] }
  key_new : autoKey k ∉ b.states.map (·.key)
  /-- The register answers what a search among the states finds. -/
  find?_eq : ∀ key, StateNode.find? b.states key = b.register.index key
  gains : b.register.Gains (autoKey k) b'.register

theorem exists_addsNameless (calls : List Call) (settings : StateSettings) :
    ∃ k, (play calls).AddsNameless settings k (play (calls ++ [.anonymousState settings])) := by
  have hindexed := (made_play calls).indexed
  obtain ⟨k, hfinds, hle, hrun⟩ := hindexed.exists_anonymousState settings
  have hfree := hfinds.index_eq_none
  rw [play_concat, Call.run_anonymousState, hrun]
  exact ⟨k, hfinds, hle, hrun, rfl, (Register.Lists.index_eq_none_iff hindexed).mp hfree,
    (made_play calls).consistent.find?_eq, Register.gains_enter hfree⟩

/-! ### Further calls -/

theorem keys_play_append (calls more : List Call) :
    (play calls).states.map (·.key) <+: (play (calls ++ more)).states.map (·.key) := by
  induction more using List.reverseRecOn with
  | nil => rw [List.append_nil]
  | append_singleton more c ih =>
    rw [← List.append_assoc, play_concat]
    exact ih.trans (c.run_goes (made_play _).indexed).changes.keys

/-- A key that leads to a state leads to it after any further calls. -/
theorem index_play_append (calls more : List Call) {key : StateKey} {id : StateId}
    (h : (play calls).register.index key = some id) :
    (play (calls ++ more)).register.index key = some id := by
  rw [Register.Lists.index_iff (made_play _).indexed] at h ⊢
  obtain ⟨hid, -⟩ := List.getElem?_eq_some_iff.mp h
  obtain ⟨added, hadded⟩ := keys_play_append calls more
  rw [← hadded, List.getElem?_append_left hid, h]

/-- A flow that is built finds what the register leads to. -/
theorem lookup_eq_index {calls : List Call} {flow : Flow}
    (h : (play calls).build = .ok flow) (key : StateKey) :
    flow.lookup key = (play calls).register.index key := by
  obtain ⟨initial, rfl, -⟩ := build_eq_ok h
  exact (made_play calls).consistent.find?_eq key

/-- After any calls, failing ones included, and whatever names were chosen in them, a nameless state
can be added: the search for a key ends, and just one state with a new key comes into being.  From
then on, after further calls and in a flow that is built, the key leads to the state, also when it
is written as a text, and all other keys of states lead where they led before. -/
theorem anonymousState_fresh (calls : List Call) (settings : StateSettings) :
    let c := Call.anonymousState settings
    let r := (play calls).register
    ∃ k, (play calls).AddsNameless settings k (play (calls ++ [c])) ∧
      ∀ more, let after := play (calls ++ [c] ++ more)
        after.register.index (autoKey k) = some r.next ∧
        after.register.index (.ofString (autoKey k).render) = some r.next ∧
        (∀ key id, r.index key = some id → after.register.index key = some id) ∧
        (∀ key, StateNode.find? after.states key = after.register.index key) ∧
        ∀ flow, after.build = .ok flow → ∀ key, flow.lookup key = after.register.index key := by
  intro c r
  obtain ⟨k, hadds⟩ := exists_addsNameless calls settings
  refine ⟨k, hadds, fun more => ?_⟩
  have hkey := index_play_append (calls ++ [c]) more hadds.gains.index_key
  -- The key is plain, so its text addresses it; older keys stay where they are whatever is called
  -- later.
  refine ⟨hkey, ?_, fun key id hid => ?_, (made_play _).consistent.find?_eq,
    fun flow hbuild => lookup_eq_index hbuild⟩
  · rwa [(autoKey_canonical k).ofString_render]
  · rw [List.append_assoc]
    exact index_play_append calls _ hid

/-- A host chooses two names that nameless states have, the greater one first. -/
def reserved : List Call :=
  [.state (.ofString "_auto:4"), .state (.ofString "_auto:3"), .anonymousState {}]

/-- The search passes over both names; the one at which it stops is then asked for as a text. -/
theorem anonymousState_fresh_reserved :
    ∃ flow, (play (reserved ++ [.anonymousState {}] ++ [.state (.ofString "_auto:5")])).build =
        .ok flow ∧ flow.stateCount = 4 ∧ flow.lookup (.ofString "_auto:5") = some 3 ∧
      flow.lookup (.ofString "_auto:4") = some 0 := by
  obtain ⟨k, hadds, hafter⟩ := anonymousState_fresh reserved {}
  obtain ⟨-, htext, hold, -, hflow⟩ := hafter [.state (.ofString "_auto:5")]
  have hnext : (play reserved).register.next = 3 := by decide +kernel
  have hfinds := hadds.finds
  rw [hnext] at hfinds htext
  -- The two names that look like generated ones are passed over.
  obtain rfl : k = 5 := hfinds.unique
    (.taken (by decide +kernel) (.taken (by decide +kernel) (.free (by decide +kernel))))
  have hfirst := hold (.ofString "_auto:4") 0 (by decide +kernel)
  generalize hb : play (reserved ++ [.anonymousState {}] ++ _) = b at htext hfirst hflow ⊢
  have hcount : b.build.toOption.map (·.stateCount) = some 4 := by
    rw [← hb]
    decide +kernel
  cases hbuild : b.build with
  | error e =>
    rw [hbuild] at hcount
    cases hcount
  | ok flow =>
    rw [hbuild] at hcount
    refine ⟨flow, rfl, Option.some.inj hcount, ?_, ?_⟩
    · rw [hflow flow hbuild]
      exact htext
    · rw [hflow flow hbuild]
      exact hfirst

end Builder

end Colloquy
