import Colloquy.Closure
import Colloquy.SortedMap

/-!
# Knowledge bases

A knowledge base holds facts `(subject, relation, object)`.  A query starts from a set of nodes and
follows relations one after the other.  A `Hop` follows its relation from subject to object, or the
other way if `reversed`; if `transitive`, again and again, the start itself left out unless the
relation leads back to it.  The facts are looked up in an `Index`, which lists each of them twice:
where its subject leads to, and where its object comes from.

Following a relation transitively ends because every round but the last meets a node that has not
been met before, and there are no more nodes than facts have ends.
-/

namespace Colloquy

/-- A fact. -/
structure Fact where
  subject : String
  relation : String
  object : String
  deriving DecidableEq, Repr

/-- A set of nodes. -/
abbrev Nodes := SortedSet String

/-- Facts, in the order in which they were added. -/
abbrev KnowledgeBase := List Fact

/-- One step of a query. -/
structure Hop where
  relation : String
  reversed : Bool
  transitive : Bool
  deriving DecidableEq, Repr

/-- Where relations lead to, by node and relation. -/
abbrev Links := SortedMap String (SortedMap String Nodes)

namespace Links

/-- The nodes that the relation leads to from a node. -/
def targets (links : Links) (node relation : String) : Nodes :=
  ((links.get? node).bind fun relations => relations.get? relation).getD SortedMap.empty

/-- Adds a node that the relation leads to from another one. -/
def add (links : Links) (node relation target : String) : Links :=
  let relations := (links.get? node).getD SortedMap.empty
  links.insert node (relations.insert relation ((links.targets node relation).add target))

end Links

/-- The facts from subject to object, and from object to subject. -/
structure Index where
  forward : Links
  backward : Links

namespace Index

/-- Adds a fact both ways. -/
def add (index : Index) (fact : Fact) : Index where
  forward := index.forward.add fact.subject fact.relation fact.object
  backward := index.backward.add fact.object fact.relation fact.subject

/-- The index of the facts. -/
def ofFacts (kb : KnowledgeBase) : Index :=
  kb.foldl add ⟨SortedMap.empty, SortedMap.empty⟩

/-- The nodes that the hop leads to directly from a node. -/
def neighbours (index : Index) (hop : Hop) (node : String) : List String :=
  let links := if hop.reversed then index.backward else index.forward
  SortedSet.toList (links.targets node hop.relation)

end Index

namespace KnowledgeBase

/-- The nodes that the hop leads to from a set of nodes. -/
def follow (kb : KnowledgeBase) (hop : Hop) (nodes : Nodes) : Nodes :=
  let next := (Index.ofFacts kb).neighbours hop
  if hop.transitive then
    SortedSet.ofList
      (Closure.explore next (nodes.size + kb.length) (SortedSet.toList nodes) [])
  else SortedSet.ofList ((SortedSet.toList nodes).flatMap next)

/-- The nodes at the end of a query. -/
def query (kb : KnowledgeBase) (nodes : Nodes) (hops : List Hop) : Nodes :=
  hops.foldl (fun nodes hop => kb.follow hop nodes) nodes

end KnowledgeBase

end Colloquy
