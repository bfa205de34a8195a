import Mathlib.Data.List.Basic
import Mathlib.Tactic.SplitIfs
import Colloquy.Proofs.Regex.Marks
import Colloquy.Proofs.Regex.Walks
import Colloquy.Regex.Names

/-!
# Which group a name refers to

The group under the name of an assignment is the one of the assignment, or one that a raw pattern
has given the name to (`eq_of_called`).  So nothing is to be resolved where all groups are those of
assignments (`resolve_eq_self`), and resolving never changes which groups there are.
-/

namespace Colloquy.Regex

variable {opened : List Label} {l : Label} {i : Nat}

/-- A name refers to a group that has been opened. -/
theorem mem_of_called (h : called opened i = some l) : l ∈ opened := by
  rw [called, List.findRev?_eq_find?_reverse] at h
  exact List.mem_reverse.mp (List.mem_of_find?_eq_some h)

/-- The group that a name refers to bears it. -/
theorem name_of_called (h : called opened i = some l) :
    l.name? = some (String.ofList (groupName i)) := by
  rw [called, List.findRev?_eq_find?_reverse] at h
  have hname := List.find?_some h
  exact eq_of_beq hname

/-- Of the groups of assignments, only the `i`-th bears the `i`-th name. -/
theorem name_assigned {j : Nat} :
    (Label.assigned j).name? = some (String.ofList (groupName i)) ↔ j = i := by
  rw [Label.name?, Option.some.injEq, String.ofList_inj]
  exact groupName_injective.eq_iff

/-- A raw pattern may have given the name to a group of its own, and otherwise it is the one of the
assignment. -/
theorem eq_of_called (h : called opened i = some l) :
    l = .assigned i ∨ ∃ k, l = .named (String.ofList (groupName i)) k := by
  have hname := name_of_called h
  cases l with
  | assigned j => exact .inl (congrArg _ (name_assigned.mp hname))
  | plain k => cases hname
  | named name k => exact .inr ⟨k, by rw [Option.some.inj hname]⟩

/-- Among groups of assignments a name is unambiguous. -/
theorem called_eq (hopened : ∀ l ∈ opened, l.isOwn = false) (hi : .assigned i ∈ opened) :
    called opened i = some (.assigned i) := by
  cases hcalled : called opened i with
  | none =>
    rw [called, List.findRev?_eq_find?_reverse, List.find?_eq_none] at hcalled
    exact absurd (name_assigned.mpr rfl) (by simpa using hcalled _ (List.mem_reverse.mpr hi))
  | some l =>
    rcases eq_of_called hcalled with rfl | ⟨k, rfl⟩
    · rfl
    · cases hopened _ (mem_of_called hcalled)

/-! ### Resolving -/

/-- Where no raw pattern has opened a group, a reference goes to the assignment itself. -/
theorem getD_called (hopened : ∀ l ∈ opened, l.isOwn = false) (i : Nat) :
    (called opened i).getD (.assigned i) = .assigned i := by
  cases hcalled : called opened i with
  | none => rfl
  | some l =>
    rcases eq_of_called hcalled with rfl | ⟨k, rfl⟩
    · rfl
    · cases hopened _ (mem_of_called hcalled)

/-- Without groups of raw patterns there is nothing to resolve. -/
theorem resolve_eq_self {r : Regex} (hopened : ∀ l ∈ opened, l.isOwn = false)
    (hr : ∀ l ∈ r.labels, l.isOwn = false) : r.resolve opened = r := by
  induction r generalizing opened with
  | backref l =>
    cases l with
    | assigned i => rw [resolve, getD_called hopened]
    | plain | named => rfl
  -- Within a group that is being captured, its own label counts as opened.
  | capture l r ih =>
    rw [labels, List.forall_mem_cons] at hr
    have hinside : ∀ l' ∈ opened ++ [l], l'.isOwn = false :=
      List.forall_mem_append.mpr ⟨hopened, List.forall_mem_singleton.mpr hr.1⟩
    rw [resolve, ih hinside hr.2]
  | seq a b iha ihb | alt a b iha ihb =>
    rw [labels, List.forall_mem_append] at hr
    rw [resolve, iha hopened hr.1, ihb (List.forall_mem_append.mpr ⟨hopened, hr.1⟩) hr.2]
  | conditional c a b ihc iha ihb =>
    rw [labels, List.forall_mem_append, List.forall_mem_append] at hr
    have hyes := List.forall_mem_append.mpr ⟨hopened, hr.1.1⟩
    have hno := List.forall_mem_append.mpr ⟨hyes, hr.1.2⟩
    rw [resolve, ihc hopened hr.1.1, iha hyes hr.1.2, ihb hno hr.2]
  | group r ih | ahead _ r ih | behind _ _ r ih | loop r _ _ _ ih | atomic r ih | embedded _ r ih =>
    rw [resolve, ih hopened hr]
  | empty | char | any | set | anchor | captured | unreadable => rfl

-- Behind a raw pattern's group of the same name, a reference to the first assignment means that
-- group.
example : (seq (capture (.assigned 0) any) (seq (capture (.named "g0" 0) any)
    (backref (.assigned 0)))).resolve [] =
      seq (capture (.assigned 0) any) (seq (capture (.named "g0" 0) any)
        (backref (.named "g0" 0))) := by
  decide +kernel

end Colloquy.Regex
