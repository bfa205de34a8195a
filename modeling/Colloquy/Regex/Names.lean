import Colloquy.Regex.Printer

/-!
# Names of groups

The groups of assignments are called `g` and their number, and a raw pattern may give the same name
to a group of its own.  A name refers to the group that has opened last under it: in a reference, of
the groups that open further left, and after a match, of all groups.  So a raw pattern can take over
the name of an assignment.

References inside a raw pattern are settled when it is read: the group they name opens in the
pattern itself.
-/

namespace Colloquy.Regex

/-- The name that a group has in the pattern. -/
def Label.name? : Label → Option String
  | assigned i => some (String.ofList (groupName i))
  | named name _ => some name
  | plain _ => none

/-- The group that has opened last under the name of the `i`-th assignment. -/
def called (opened : List Label) (i : Nat) : Option Label :=
  opened.findRev? fun l => l.name? == some (String.ofList (groupName i))

/-- References to assignments name the groups that have opened last under their names; `opened` are
the groups that have opened in front of the expression. -/
def resolve (opened : List Label) : Regex → Regex
  | backref (.assigned i) => backref ((called opened i).getD (.assigned i))
  | backref l => backref l
  | capture l r => capture l (r.resolve (opened ++ [l]))
  | seq a b => seq (a.resolve opened) (b.resolve (opened ++ a.labels))
  | alt a b => alt (a.resolve opened) (b.resolve (opened ++ a.labels))
  | conditional c a b =>
    conditional (c.resolve opened) (a.resolve (opened ++ c.labels))
      (b.resolve (opened ++ c.labels ++ a.labels))
  | group r => group (r.resolve opened)
  | ahead negated r => ahead negated (r.resolve opened)
  | behind negated width r => behind negated width (r.resolve opened)
  | loop r least most greedy => loop (r.resolve opened) least most greedy
  | atomic r => atomic (r.resolve opened)
  | embedded s r => embedded s (r.resolve opened)
  | empty => empty
  | char c => char c
  | any => any
  | set cls => set cls
  | anchor a => anchor a
  | captured l => captured l
  | unreadable s => unreadable s

end Colloquy.Regex
