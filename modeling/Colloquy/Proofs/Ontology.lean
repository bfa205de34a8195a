import Mathlib
import Colloquy.Macro.Ontology
import Colloquy.Proofs.Knowledge

/-!
# What an ontology offers

The ontology macro offers the nodes below its categories, in their spoken form (`mem_offered`).
What lies below a node that lies below a category lies below the category too, on cycles as well.
So what is offered for one of the choices is among the choices (`ontology_composes`), provided that
the choice leads back to its node: a node is spoken with spaces for its underscores, and if it holds
no spaces of its own it can be told from its spoken form (`nodeOf_spoken`).
-/

namespace Colloquy

open Relation (TransGen transGen_swap)

/-- The relation leads from the node to the category, in one or more steps. -/
def KnowledgeBase.IsA (kb : KnowledgeBase) (relation : String) : String → String → Prop :=
  TransGen fun node category => ⟨node, relation, category⟩ ∈ kb

namespace KnowledgeBase

variable {kb : KnowledgeBase} {relation node category : String}

/-- A reversed transitive hop leads from a category to what lies below it. -/
theorem leads_reversed_iff :
    kb.Leads ⟨relation, true, true⟩ category node ↔ kb.IsA relation node category := by
  rw [Leads, if_pos rfl, IsA, ← transGen_swap]
  rfl

/-- What lies below a category is the subject of some fact. -/
theorem IsA.exists_fact (h : kb.IsA relation node category) : ∃ fact ∈ kb, fact.subject = node := by
  rcases TransGen.head'_iff.mp h with ⟨parent, hfact, -⟩
  exact ⟨_, hfact, rfl⟩

end KnowledgeBase

namespace Macro

/-! ### Spoken names -/

/-- The node that a category stands for. -/
def nodeOf (category : String) : String := replaceChar ' ' '_' category

/-- The spoken form of a node. -/
def spoken (node : String) : String := replaceChar '_' ' ' node

theorem nodeOf_spoken {node : String} (h : ' ' ∉ node.toList) : nodeOf (spoken node) = node := by
  have hback : ∀ c ∈ node.toList,
      ((fun c => if c = ' ' then '_' else c) ∘ fun c => if c = '_' then ' ' else c) c = c := by
    intro c hc
    have hspace : c ≠ ' ' := fun heq => h (heq ▸ hc)
    by_cases hunderscore : c = '_'
    · rw [hunderscore]
      rfl
    · rw [Function.comp_apply, if_neg hunderscore, if_neg hspace]
  rw [nodeOf, spoken, replaceChar, replaceChar, String.toList_ofList, List.map_map,
    List.map_congr_left hback, List.map_id', String.ofList_toList]

/-! ### Choices -/

variable {kb : KnowledgeBase} {relation : String}

/-- What is offered for the categories. -/
def offered (kb : KnowledgeBase) (relation : String) (categories : List String) : SortedSet String :=
  SortedSet.ofList ((SortedSet.toList
    (kb.query (SortedSet.ofList (categories.map nodeOf)) [⟨relation, true, true⟩])).map spoken)

theorem mem_offered {categories : List String} {c : String} :
    c ∈ (offered kb relation categories).toList ↔
      ∃ category ∈ categories, ∃ node, kb.IsA relation node (nodeOf category) ∧ spoken node = c := by
  rw [offered, SortedSet.mem_toList_ofList, List.mem_map]
  show (∃ node, node ∈ (kb.follow ⟨relation, true, true⟩ _).toList ∧ spoken node = c) ↔ _
  simp only [KnowledgeBase.mem_follow, KnowledgeBase.leads_reversed_iff, SortedSet.mem_toList_ofList]
  constructor
  · rintro ⟨node, ⟨root, hroot, hnode⟩, hc⟩
    obtain ⟨category, hcategory, rfl⟩ := List.mem_map.mp hroot
    exact ⟨category, hcategory, node, hnode, hc⟩
  · rintro ⟨category, hcategory, node, hnode, hc⟩
    exact ⟨node, ⟨_, List.mem_map_of_mem hcategory, hnode⟩, hc⟩

theorem ontology_eq {args : List Argument} {categories : List String}
    (htexts : args.mapM Argument.asText? = some categories) (hne : categories ≠ []) (u : Utterance)
    (vars : Bindings) :
    ontology kb relation u args vars = (.ok (.choices (offered kb relation categories)), vars) := by
  have hargs : args.isEmpty = false := by
    cases args with
    | nil => exact absurd (Option.some.inj htexts).symm hne
    | cons arg args => rfl
  rw [ontology, hargs, htexts]
  rfl

/-- For categories whose texts are given, the ontology offers what it offers for each of them alone.
If no node holds a space, it offers all that it offers for any of its choices in place of the
categories. -/
theorem ontology_composes
    (hkb : ∀ fact ∈ kb, ' ' ∉ fact.subject.toList ∧ ' ' ∉ fact.object.toList) (relation : String)
    {args : List Argument} {categories : List String}
    (htexts : args.mapM Argument.asText? = some categories) (hne : categories ≠ []) (u : Utterance)
    (vars : Bindings) :
    ∃ choices : SortedSet String,
      ontology kb relation u args vars = (.ok (.choices choices), vars) ∧
      (∀ c, c ∈ choices.toList ↔ ∃ category ∈ categories, ∃ own : SortedSet String,
        ontology kb relation u [.text category] vars = (.ok (.choices own), vars) ∧
          c ∈ own.toList) ∧
      ∀ c ∈ choices.toList, ∃ below : SortedSet String,
        ontology kb relation u [.text c] vars = (.ok (.choices below), vars) ∧
          below.toList ⊆ choices.toList := by
  have hsingle (category : String) : ontology kb relation u [.text category] vars =
      (.ok (.choices (offered kb relation [category])), vars) :=
    ontology_eq rfl (List.cons_ne_nil _ _) u vars
  refine ⟨_, ontology_eq htexts hne u vars, fun c => ?_, fun c hc => ⟨_, hsingle c, fun d hd => ?_⟩⟩
  · rw [mem_offered]
    constructor
    · rintro ⟨category, hcategory, hbelow⟩
      exact ⟨category, hcategory, _, hsingle category, mem_offered.mpr ⟨category, .head _, hbelow⟩⟩
    · rintro ⟨category, hcategory, own, hown, hc⟩
      obtain rfl : offered kb relation [category] = own := by
        simpa using (hsingle category).symm.trans hown
      obtain ⟨_, hmem, hbelow⟩ := mem_offered.mp hc
      exact ⟨category, hcategory, List.mem_singleton.mp hmem ▸ hbelow⟩
  · -- The choice stands for its node, so what lies below it lies below the node's category.
    obtain ⟨category, hcategory, node, hnode, rfl⟩ := mem_offered.mp hc
    obtain ⟨_, hmem, lower, hlower, rfl⟩ := mem_offered.mp hd
    obtain ⟨fact, hfact, rfl⟩ := hnode.exists_fact
    rw [List.mem_singleton.mp hmem, nodeOf_spoken (hkb fact hfact).1] at hlower
    exact mem_offered.mpr ⟨category, hcategory, lower, hlower.trans hnode, rfl⟩

/-- Pets, by what they are; puppies are their own kind of dog. -/
def pets : KnowledgeBase :=
  [⟨"golden_retriever", "type", "large_dog"⟩, ⟨"puppy", "type", "golden_retriever"⟩,
    ⟨"golden_retriever", "type", "puppy"⟩, ⟨"tabby", "type", "cat"⟩]

theorem ontology_composes_pets :
    ∃ choices below : SortedSet String,
      ontology pets "type" .silence [.text "large dog", .variableNamed "other" (some "cat")] .empty =
        (.ok (.choices choices), .empty) ∧
      "tabby" ∈ choices.toList ∧ "golden retriever" ∈ choices.toList ∧
      ontology pets "type" .silence [.text "golden retriever"] .empty =
        (.ok (.choices below), .empty) ∧
      below.toList ⊆ choices.toList := by
  have hnodes : ∀ fact ∈ pets, ' ' ∉ fact.subject.toList ∧ ' ' ∉ fact.object.toList := by
    decide +kernel
  have htexts : [.text "large dog", .variableNamed "other" (some "cat")].mapM Argument.asText? =
      some ["large dog", "cat"] := rfl
  obtain ⟨choices, heq, hunion, hbelow⟩ :=
    ontology_composes hnodes "type" htexts (List.cons_ne_nil _ _) .silence .empty
  have htabby : "tabby" ∈ choices.toList := by
    rw [hunion]
    exact ⟨"cat", .tail _ (.head _), _, rfl, by decide +kernel⟩
  have hretriever : "golden retriever" ∈ choices.toList := by
    rw [hunion]
    exact ⟨"large dog", .head _, _, rfl, by decide +kernel⟩
  obtain ⟨below, heq', hsubset⟩ := hbelow _ hretriever
  exact ⟨choices, below, heq, htabby, hretriever, heq', hsubset⟩

end Macro

end Colloquy
