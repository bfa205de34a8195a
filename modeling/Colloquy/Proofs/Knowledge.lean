import Mathlib
import Colloquy.Knowledge
import Colloquy.Proofs.SortedMap

/-!
# What queries find

A hop leads from a set of nodes to its image: under the relation or its converse, or under their
transitive closure (`Leads`).  A query maps its nodes through the hops in turn, whatever the order
of the facts and however often they are repeated (`query_exact`).  Both halves of the index list the
same facts, so a reversed hop follows the converse (`mem_forward`, `mem_backward`).

A transitive hop is followed by taking nodes from a queue.  `Explored` says that this goes on until
the queue is empty; what has been found then is closed under the relation, because each node is in
the queue until all that follows on it has been found.  That it ends is a matter of counting:
nothing is found twice, and what can be found at all are ends of facts (`explored_explore`).
-/

namespace Colloquy

open Relation (TransGen)

/-! ### Closure -/

namespace Closure

variable {α : Type} [DecidableEq α] {next : α → List α} {queue found all : List α}

/-- As long as there is something in the queue, what comes first is taken from it; this ends, and
`all` has been found then. -/
inductive Explored (next : α → List α) : List α → List α → List α → Prop
  | done {found : List α} : Explored next [] found found
  | take {x : α} {queue found all : List α}
      (rest : Explored next (queue ++ fresh next found x) (found ++ fresh next found x) all) :
      Explored next (x :: queue) found all

theorem mem_fresh {x y : α} : y ∈ fresh next found x ↔ y ∈ next x ∧ y ∉ found := by
  rw [fresh, List.mem_eraseDups, List.mem_filter, decide_eq_true_iff]

theorem nodup_eraseDups (xs : List α) : xs.eraseDups.Nodup := by
  match xs with
  | [] => exact List.nodup_nil
  | x :: xs =>
    rw [List.eraseDups_cons, List.nodup_cons, List.mem_eraseDups]
    exact ⟨by simp, nodup_eraseDups _⟩
termination_by xs.length
decreasing_by exact Nat.lt_succ_of_le (List.length_filter_le _ _)

theorem nodup_append_fresh (h : found.Nodup) (x : α) : (found ++ fresh next found x).Nodup := by
  refine List.Nodup.append h (nodup_eraseDups _) fun y hy hfresh => ?_
  exact (mem_fresh.mp hfresh).2 hy

/-- The number of steps is bounded by the length of the queue and what is left to be found. -/
theorem explored_explore {bound : Finset α} (hbound : ∀ x, ∀ y ∈ next x, y ∈ bound)
    (hnodup : found.Nodup) (hfound : ∀ y ∈ found, y ∈ bound) {fuel : Nat}
    (hfuel : queue.length + bound.card ≤ fuel + found.length) :
    Explored next queue found (explore next fuel queue found) := by
  have hcard {found : List α} (hnodup : found.Nodup) (hfound : ∀ y ∈ found, y ∈ bound) :
      found.length ≤ bound.card := by
    rw [← List.toFinset_card_of_nodup hnodup]
    exact Finset.card_le_card fun y hy => hfound y (List.mem_toFinset.mp hy)
  induction fuel generalizing queue found with
  | zero =>
    have hle := hcard hnodup hfound
    -- All of the bound has been found, so nothing is left to take.
    obtain rfl : queue = [] := List.length_eq_zero_iff.mp (by omega)
    rw [explore]
    exact .done
  | succ fuel ih =>
    cases queue with
    | nil =>
      rw [explore]
      · exact .done
      · exact Nat.succ_ne_zero fuel
    | cons x queue =>
      have hmore : ∀ y ∈ found ++ fresh next found x, y ∈ bound := by
        rw [List.forall_mem_append]
        exact ⟨hfound, fun y hy => hbound x y (mem_fresh.mp hy).1⟩
      rw [explore]
      refine .take (ih (nodup_append_fresh hnodup x) hmore ?_)
      rw [List.length_append, List.length_append]
      rw [List.length_cons] at hfuel
      omega

namespace Explored

theorem subset (h : Explored next queue found all) : found ⊆ all := by
  induction h with
  | done => exact List.Subset.refl _
  | take _ ih => exact List.Subset.trans (List.subset_append_left _ _) ih

/-- What is found can be reached from the queue. -/
theorem reachable (h : Explored next queue found all) {y : α} (hy : y ∈ all) :
    y ∈ found ∨ ∃ x ∈ queue, TransGen (fun x y => y ∈ next x) x y := by
  induction h with
  | done => exact .inl hy
  | @take x queue found all _ ih =>
    have hnext {z : α} (hz : z ∈ fresh next found x) : z ∈ next x := (mem_fresh.mp hz).1
    rcases ih hy with hfound | ⟨z, hz, hreach⟩
    · rcases List.mem_append.mp hfound with hfound | hfresh
      · exact .inl hfound
      · exact .inr ⟨x, .head _, .single (hnext hfresh)⟩
    · rcases List.mem_append.mp hz with hz | hz
      · exact .inr ⟨z, .tail _ hz, hreach⟩
      · exact .inr ⟨x, .head _, .head (hnext hz) hreach⟩

/-- If all that follows on what has been found is found too, or is yet to be looked for, then
nothing is missing in the end. -/
theorem closed (h : Explored next queue found all)
    (hpending : ∀ x ∈ found, x ∈ queue ∨ ∀ y ∈ next x, y ∈ found) {x : α}
    (hx : x ∈ queue ∨ x ∈ all) {y : α} (hy : y ∈ next x) : y ∈ all := by
  induction h with
  | done => exact (hpending x (hx.resolve_left List.not_mem_nil)).resolve_left List.not_mem_nil y hy
  | @take first queue found all rest ih =>
    have hfirst : ∀ y ∈ next first, y ∈ found ++ fresh next found first := by
      intro y hy
      rw [List.mem_append, mem_fresh]
      by_cases hmem : y ∈ found
      · exact .inl hmem
      · exact .inr ⟨hy, hmem⟩
    -- The node that is taken has its neighbours found now; another one is still in the queue.
    by_cases hne : x = first
    · exact rest.subset (hfirst y (hne ▸ hy))
    · refine ih (fun z hz => ?_) ?_
      · rw [List.mem_append] at hz ⊢
        rcases hz with hz | hz
        · rcases hpending z hz with hqueue | hall
          · rcases List.mem_cons.mp hqueue with rfl | hqueue
            · exact .inr hfirst
            · exact .inl (.inl hqueue)
          · exact .inr fun y hy => List.mem_append_left _ (hall y hy)
        · exact .inl (.inr hz)
      · refine hx.imp_left fun hx => List.mem_append_left _ ?_
        exact (List.mem_cons.mp hx).resolve_left hne

/-- What is found in the end is what can be reached in one step or more. -/
theorem mem_iff (h : Explored next queue [] all) {y : α} :
    y ∈ all ↔ ∃ x ∈ queue, TransGen (fun x y => y ∈ next x) x y := by
  refine ⟨fun hy => (h.reachable hy).resolve_left List.not_mem_nil, ?_⟩
  rintro ⟨x, hx, hreach⟩
  have hpending : ∀ x ∈ ([] : List α), x ∈ queue ∨ ∀ y ∈ next x, y ∈ ([] : List α) :=
    fun _ h => absurd h List.not_mem_nil
  induction hreach with
  | single hstep => exact h.closed hpending (.inl hx) hstep
  | tail _ hstep ih => exact h.closed hpending (.inr ih) hstep

end Explored

end Closure

/-! ### The index -/

namespace Links

variable {links : Links} {node relation target a r b : String}

theorem targets_add : (links.add node relation target).targets a r =
    if a = node ∧ r = relation then (links.targets node relation).add target
    else links.targets a r := by
  rw [targets, add, SortedMap.get?_insert]
  by_cases ha : a = node
  · subst ha
    rw [if_pos rfl, Option.bind_some, SortedMap.get?_insert]
    by_cases hr : r = relation
    · rw [if_pos hr, if_pos ⟨rfl, hr⟩, Option.getD_some]
    · rw [if_neg hr, if_neg fun h => hr h.2, targets]
      cases links.get? a <;> rfl
  · rw [if_neg ha, if_neg fun h => ha h.1, targets]

theorem mem_targets_add : b ∈ ((links.add node relation target).targets a r).toList ↔
    (a = node ∧ r = relation ∧ b = target) ∨ b ∈ (links.targets a r).toList := by
  rw [targets_add]
  split_ifs with h
  · obtain ⟨rfl, rfl⟩ := h
    rw [SortedSet.mem_toList_add, eq_self, eq_self, true_and, true_and]
  · exact (or_iff_right fun hsame => h ⟨hsame.1, hsame.2.1⟩).symm

end Links

namespace Index

theorem ofFacts_concat (kb : KnowledgeBase) (fact : Fact) :
    ofFacts (kb ++ [fact]) = (ofFacts kb).add fact :=
  List.foldl_concat _ _ _ _

/-- Forward, the index leads where the facts do. -/
theorem mem_forward {kb : KnowledgeBase} {s r o : String} :
    o ∈ ((ofFacts kb).forward.targets s r).toList ↔ ⟨s, r, o⟩ ∈ kb := by
  induction kb using List.reverseRecOn with
  | nil => exact iff_of_false List.not_mem_nil List.not_mem_nil
  | append_singleton kb fact ih =>
    rw [ofFacts_concat, add, Links.mem_targets_add, ih, List.mem_append, List.mem_singleton,
      or_comm, Fact.mk.injEq]

/-- Backward, the index leads back where the facts come from. -/
theorem mem_backward {kb : KnowledgeBase} {s r o : String} :
    s ∈ ((ofFacts kb).backward.targets o r).toList ↔ ⟨s, r, o⟩ ∈ kb := by
  induction kb using List.reverseRecOn with
  | nil => exact iff_of_false List.not_mem_nil List.not_mem_nil
  | append_singleton kb fact ih =>
    have hends : (o = fact.object ∧ r = fact.relation ∧ s = fact.subject) ↔
        (s = fact.subject ∧ r = fact.relation ∧ o = fact.object) := by
      tauto
    rw [ofFacts_concat, add, Links.mem_targets_add, ih, List.mem_append, List.mem_singleton,
      or_comm, hends, Fact.mk.injEq]

end Index

/-! ### Queries -/

namespace KnowledgeBase

/-- The hop leads from the first node to the second by one fact: along the relation or, reversed,
against it. -/
def Direct (kb : KnowledgeBase) (hop : Hop) (a b : String) : Prop :=
  if hop.reversed then ⟨b, hop.relation, a⟩ ∈ kb else ⟨a, hop.relation, b⟩ ∈ kb

/-- The hop leads from the first node to the second: by one fact or, transitive, by one or more. -/
def Leads (kb : KnowledgeBase) (hop : Hop) : String → String → Prop :=
  if hop.transitive then TransGen (kb.Direct hop) else kb.Direct hop

/-- Where the relation leads to from the set. -/
def image (R : String → String → Prop) (S : Set String) : Set String :=
  {b | ∃ a ∈ S, R a b}

variable {kb : KnowledgeBase} {hop : Hop} {a b : String}

theorem mem_neighbours : b ∈ (Index.ofFacts kb).neighbours hop a ↔ kb.Direct hop a b := by
  rw [Index.neighbours, Direct]
  split_ifs
  · exact Index.mem_backward
  · exact Index.mem_forward

/-- The queue of a transitive hop runs empty. -/
theorem explored_follow (kb : KnowledgeBase) {hop : Hop} (htransitive : hop.transitive = true)
    (nodes : Nodes) : ∃ found,
      Closure.Explored ((Index.ofFacts kb).neighbours hop) nodes.toList [] found ∧
        kb.follow hop nodes = SortedSet.ofList found := by
  -- Each fact has one end that the hop can lead to.
  let ends := kb.map fun fact => if hop.reversed then fact.subject else fact.object
  have hbound : ∀ a, ∀ b ∈ (Index.ofFacts kb).neighbours hop a, b ∈ ends.toFinset := by
    intro a b hb
    rw [mem_neighbours, Direct] at hb
    rw [List.mem_toFinset, List.mem_map]
    split at hb
    · exact ⟨_, hb, by simp_all⟩
    · exact ⟨_, hb, by simp_all⟩
  have hcard : ends.toFinset.card ≤ kb.length :=
    (List.toFinset_card_le ends).trans (List.length_map _).le
  have hsize : nodes.toList.length = nodes.size := List.length_map _
  refine ⟨_, Closure.explored_explore hbound List.nodup_nil (by simp) ?_, if_pos htransitive⟩
  rw [hsize, List.length_nil]
  omega

theorem mem_follow {nodes : Nodes} :
    b ∈ (kb.follow hop nodes).toList ↔ ∃ a ∈ nodes.toList, kb.Leads hop a b := by
  rw [Leads]
  split
  · rename_i htransitive
    obtain ⟨found, hfound, heq⟩ := explored_follow kb htransitive nodes
    rw [heq, SortedSet.mem_toList_ofList, hfound.mem_iff]
    simp only [mem_neighbours]
  · rename_i hplain
    rw [follow, if_neg hplain, SortedSet.mem_toList_ofList, List.mem_flatMap]
    simp only [mem_neighbours]

theorem elements_query (kb : KnowledgeBase) (nodes : Nodes) (hops : List Hop) :
    {n | n ∈ (kb.query nodes hops).toList} =
      hops.foldl (fun S hop => image (kb.Leads hop) S) {n | n ∈ nodes.toList} := by
  induction hops generalizing nodes with
  | nil => rfl
  | cons hop hops ih =>
    have hfollow : {n | n ∈ (kb.follow hop nodes).toList} =
        image (kb.Leads hop) {n | n ∈ nodes.toList} := Set.ext fun _ => mem_follow
    rw [List.foldl_cons, ← hfollow, ← ih]
    rfl

/-- A query ends, and finds the nodes mapped through the hops in turn; which facts there are counts,
not their order or how often each was added. -/
theorem query_exact (kb : KnowledgeBase) (nodes : Nodes) (hops : List Hop) :
    (∀ hop : Hop, hop.transitive = true → ∀ nodes : Nodes,
      ∃ found, Closure.Explored ((Index.ofFacts kb).neighbours hop) nodes.toList [] found ∧
        kb.follow hop nodes = SortedSet.ofList found) ∧
      {n | n ∈ (kb.query nodes hops).toList} =
        hops.foldl (fun S hop => image (kb.Leads hop) S) {n | n ∈ nodes.toList} ∧
      ∀ kb' : KnowledgeBase, (∀ fact, fact ∈ kb' ↔ fact ∈ kb) →
        kb'.query nodes hops = kb.query nodes hops := by
  refine ⟨fun hop htransitive nodes => explored_follow kb htransitive nodes,
    elements_query kb nodes hops, fun kb' hsame => ?_⟩
  have hleads : kb'.Leads = kb.Leads := by
    -- A hop asks only whether a fact is there.
    have hdirect : kb'.Direct = kb.Direct := by
      funext hop a b
      simp only [Direct, hsame]
    funext hop
    rw [Leads, Leads, hdirect]
  refine SortedSet.ext_mem fun n => ?_
  have hsets : {n | n ∈ (kb'.query nodes hops).toList} = {n | n ∈ (kb.query nodes hops).toList} := by
    rw [elements_query, elements_query, hleads]
  exact Set.ext_iff.mp hsets n

end KnowledgeBase

end Colloquy
