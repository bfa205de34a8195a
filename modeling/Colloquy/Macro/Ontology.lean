import Colloquy.Knowledge
import Colloquy.Macro.Basic

/-!
# Categories as macros

`ontology kb relation` is a macro that offers everything that belongs to its categories: the nodes
from which the relation leads to a category, in one or more steps.  In expressions a node is written
with spaces where the knowledge base has underscores.
-/

namespace Colloquy.Macro

/-- Replaces one character by another throughout a text. -/
def replaceChar (old new : Char) (s : String) : String :=
  String.ofList (s.toList.map fun c => if c = old then new else c)

/-- Everything below the given categories. -/
def ontology (kb : KnowledgeBase) (relation : String) : Macro := fun _ args vars =>
  if args.isEmpty then (.error (.refused "#ONT needs at least one category"), vars)
  else
    match args.mapM Argument.asText? with
    | none => (.error (.refused "#ONT category has no text"), vars)
    | some categories =>
      let roots := SortedSet.ofList (categories.map (replaceChar ' ' '_'))
      let found := kb.query roots [⟨relation, true, true⟩]
      (.ok (.ofChoices ((SortedSet.toList found).map (replaceChar '_' ' '))), vars)

end Colloquy.Macro
