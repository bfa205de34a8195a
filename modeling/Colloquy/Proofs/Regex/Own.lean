import Mathlib.Data.List.Basic
import Mathlib.Tactic.SplitIfs
import Colloquy.Regex.Engine

/-!
# Groups of raw patterns

The groups in what is read from a raw pattern are the pattern's own (`own_of_read?`): none of them
is the group of an assignment.  They stay so when they are numbered on (`Own.shiftOwn`).

Of an engine that reads raw patterns in another way, no more than this is asked (`Engine.Lawful`).
-/

namespace Colloquy.Regex

/-- All groups in the expression are written in raw patterns. -/
def Own (r : Regex) : Prop :=
  ∀ l ∈ r.labels, l.isOwn = true

section

variable {a b r : Regex} {rs : List Regex}

/-- Parts of a raw pattern have only its own groups. -/
theorem Own.of_subset (h : Own r) (hsubset : a.labels ⊆ r.labels) : Own a :=
  fun l hl => h l (hsubset hl)

/-- What has no groups has none of assignments. -/
theorem Own.of_labels_eq_nil (h : r.labels = []) : Own r := by
  rw [Own, h]
  exact nofun

/-- Rows of raw patterns are raw. -/
theorem Own.seq (ha : Own a) (hb : Own b) : Own (.seq a b) :=
  List.forall_mem_append.mpr ⟨ha, hb⟩

/-- Choices between raw patterns are raw. -/
theorem Own.alt (ha : Own a) (hb : Own b) : Own (.alt a b) :=
  List.forall_mem_append.mpr ⟨ha, hb⟩

/-- Conditions on raw patterns are raw. -/
theorem Own.conditional {c : Regex} (hc : Own c) (ha : Own a) (hb : Own b) :
    Own (.conditional c a b) :=
  List.forall_mem_append.mpr ⟨List.forall_mem_append.mpr ⟨hc, ha⟩, hb⟩

/-- A group of its own keeps a pattern raw. -/
theorem Own.capture (h : Own r) {l : Label} (hl : l.isOwn = true) : Own (.capture l r) :=
  List.forall_mem_cons.mpr ⟨hl, h⟩

/-- Longer rows of raw patterns are raw. -/
theorem Own.concat (h : ∀ r ∈ rs, Own r) : Own (concat rs) := by
  induction rs with
  | nil => exact .of_labels_eq_nil rfl
  | cons r rs ih =>
    rw [List.forall_mem_cons] at h
    exact h.1.seq (ih h.2)

/-- Wider choices between raw patterns are raw. -/
theorem Own.oneOf (h : ∀ r ∈ rs, Own r) : Own (oneOf rs) := by
  induction rs with
  | nil => exact .of_labels_eq_nil rfl
  | cons r rs ih =>
    rw [List.forall_mem_cons] at h
    cases rs with
    | nil => exact h.1
    | cons r' rs => exact h.1.alt (ih h.2)

/-- Shifting the numbers of an expression shifts those of its groups. -/
theorem labels_shiftOwn (n : Nat) (r : Regex) :
    (r.shiftOwn n).labels = r.labels.map (Label.shift n) := by
  induction r with
  | seq a b iha ihb | alt a b iha ihb =>
    simp only [Regex.shiftOwn, labels, List.map_append, iha, ihb]
  | conditional c a b ihc iha ihb =>
    simp only [Regex.shiftOwn, labels, List.map_append, ihc, iha, ihb]
  | capture l r ih => simp only [Regex.shiftOwn, labels, List.map_cons, ih]
  | group r ih | ahead _ r ih | behind _ _ r ih | loop r _ _ _ ih | atomic r ih | embedded _ r ih =>
    exact ih
  | empty | char | any | set | anchor | backref | captured | unreadable => rfl

/-- A group of a raw pattern stays one when its number is shifted. -/
theorem Label.isOwn_shift (n : Nat) (l : Label) : (l.shift n).isOwn = l.isOwn := by
  cases l <;> rfl

/-- A raw pattern stays raw when its numbers are shifted. -/
theorem Own.shiftOwn (h : Own r) (n : Nat) : Own (r.shiftOwn n) := by
  rw [Own, labels_shiftOwn, List.forall_mem_map]
  intro l hl
  rw [Label.isOwn_shift]
  exact h l hl

end

/-! ### Reading -/

/-- Whatever is read has only groups of its own. -/
def YieldsOwn (x : Option (Regex × Reading)) : Prop :=
  ∀ r st, x = some (r, st) → Own r

section

variable {α : Type} {r : Regex} {st : Reading}

/-- Where nothing is read, there is nothing to show. -/
theorem yieldsOwn_none : YieldsOwn none :=
  fun _ _ h => nomatch h

/-- What has been read is raw if the expression is. -/
theorem yieldsOwn_some (h : Own r) : YieldsOwn (some (r, st)) := by
  intro r' st' heq
  obtain ⟨rfl, -⟩ := Prod.mk.inj (Option.some.inj heq)
  exact h

/-- What has been read is raw if it has no groups. -/
theorem yieldsOwn_of_labels_eq_nil (h : r.labels = []) : YieldsOwn (some (r, st)) :=
  yieldsOwn_some (.of_labels_eq_nil h)

/-- What is read behind something else is raw if it is so whatever that was. -/
theorem yieldsOwn_bind {x : Option α} {f : α → Option (Regex × Reading)}
    (h : ∀ a, x = some a → YieldsOwn (f a)) : YieldsOwn (x >>= f) := by
  intro r st heq
  obtain ⟨a, ha, hf⟩ := Option.bind_eq_some_iff.mp heq
  exact h a ha r st hf

/-- What is made of something read is raw if it is so whatever that was. -/
theorem yieldsOwn_map {x : Option α} {f : α → Regex × Reading} (h : ∀ a, Own (f a).1) :
    YieldsOwn (x.map f) := by
  intro r st heq
  obtain ⟨a, -, hf⟩ := Option.map_eq_some_iff.mp heq
  have hown := h a
  rwa [hf] at hown

/-- What is read first has only groups of its own as well. -/
theorem YieldsOwn.bind {x : Option (Regex × Reading)}
    {f : Regex × Reading → Option (Regex × Reading)}
    (hx : YieldsOwn x) (hf : ∀ r st, Own r → YieldsOwn (f (r, st))) : YieldsOwn (x >>= f) :=
  yieldsOwn_bind fun ⟨r, st⟩ h => hf r st (hx r st h)

end

/-- No escape has a group. -/
theorem yieldsOwn_readEscape (st : Reading) : YieldsOwn (readEscape? st) := by
  unfold readEscape?
  split
  · exact yieldsOwn_bind fun _ _ => yieldsOwn_bind fun _ _ => yieldsOwn_of_labels_eq_nil rfl
  · exact yieldsOwn_of_labels_eq_nil rfl
  · exact yieldsOwn_of_labels_eq_nil rfl
  · exact yieldsOwn_of_labels_eq_nil rfl
  · exact yieldsOwn_of_labels_eq_nil rfl
  · exact yieldsOwn_map fun _ => .of_labels_eq_nil rfl
  · exact yieldsOwn_map fun _ => .of_labels_eq_nil rfl
  · split
    · split_ifs
      · exact yieldsOwn_none
      · exact yieldsOwn_of_labels_eq_nil rfl
    · split
      · exact yieldsOwn_of_labels_eq_nil rfl
      · exact yieldsOwn_map fun _ => .of_labels_eq_nil rfl

/-- An alternative has no groups but those of the choice. -/
theorem labels_subset_of_mem_alternatives {r : Regex} :
    ∀ {a : Regex}, a ∈ r.alternatives → a.labels ⊆ r.labels := by
  have hself {r a : Regex} (h : a ∈ [r]) : a.labels ⊆ r.labels := by
    rw [List.mem_singleton.mp h]
    exact List.Subset.refl _
  induction r with
  | alt first second _ ih =>
    intro a ha
    rcases List.mem_cons.mp ha with rfl | ha
    · exact List.subset_append_left _ _
    · exact List.subset_append_of_subset_right _ (ih ha)
  | group r ih => exact ih
  | _ => exact hself

/-- The results of a step that succeeds for every member are those of the members. -/
theorem mem_of_mapM_eq_some {α β : Type} {f : α → Option β} {as : List α} :
    ∀ {bs : List β}, as.mapM f = some bs → ∀ b ∈ bs, ∃ a ∈ as, f a = some b := by
  induction as with
  | nil =>
    intro bs h b hb
    obtain rfl : [] = bs := Option.some.inj h
    cases hb
  | cons a as ih =>
    intro bs h b hb
    rw [List.mapM_cons] at h
    obtain ⟨b', hb', h⟩ := Option.bind_eq_some_iff.mp h
    obtain ⟨bs', hbs', h⟩ := Option.bind_eq_some_iff.mp h
    obtain rfl : b' :: bs' = bs := Option.some.inj h
    rcases List.mem_cons.mp hb with rfl | hb
    · exact ⟨a, List.mem_cons_self, hb'⟩
    · obtain ⟨a', ha', hf⟩ := ih hbs' b hb
      exact ⟨a', List.mem_cons_of_mem _ ha', hf⟩

/-- Looking behind at a raw pattern is raw, also where each alternative is looked at by itself. -/
theorem own_of_lookBehind? {negated : Bool} {body r : Regex} (hbody : Own body)
    (h : lookBehind? negated body = some r) : Own r := by
  unfold lookBehind? at h
  split at h
  · rw [← Option.some.inj h]
    exact hbody
  · obtain ⟨each, heach, h⟩ := Option.bind_eq_some_iff.mp h
    -- Each alternative is looked at over its own width.
    have hown : ∀ r ∈ each, Own r := by
      intro r hr
      obtain ⟨a, ha, hlook⟩ := mem_of_mapM_eq_some heach r hr
      obtain ⟨width, -, hr⟩ := Option.bind_eq_some_iff.mp hlook
      have hsubset : a.labels ⊆ body.labels := labels_subset_of_mem_alternatives ha
      rw [← Option.some.inj hr]
      exact hbody.of_subset hsubset
    rw [← Option.some.inj h]
    show Own (if negated = true then concat each else oneOf each)
    split_ifs
    · exact .concat hown
    · exact .oneOf hown

/-- The condition on a group has no group. -/
theorem yieldsOwn_readGroupCondition (st : Reading) : YieldsOwn (readGroupCondition? st) := by
  unfold readGroupCondition?
  refine yieldsOwn_bind fun header _ => ?_
  obtain ⟨label, rest⟩ := header
  dsimp only
  split
  · exact yieldsOwn_of_labels_eq_nil rfl
  · exact yieldsOwn_none

/-- What follows from a condition has the groups of the condition and of the branches. -/
theorem own_follow {condition body : Regex} (hcondition : Own condition) (hbody : Own body) :
    Own (follow condition body) := by
  have hempty : Own .empty := .of_labels_eq_nil rfl
  unfold follow
  split
  · exact hcondition
  · exact hcondition
  · obtain ⟨hyes, hno⟩ := List.forall_mem_append.mp hbody
    exact hcondition.conditional hyes hno
  · exact hcondition.conditional hbody hempty

/-- Looking behind at a raw pattern yields a raw pattern. -/
theorem yieldsOwn_lookBehind {negated : Bool} {body : Regex} {st : Reading} (hbody : Own body) :
    YieldsOwn (lookBehind? negated body >>= fun r => some (r, st)) :=
  yieldsOwn_bind fun _ hr => yieldsOwn_some (own_of_lookBehind? hbody hr)

/-- Each way of reading yields only groups of raw patterns. -/
structure ReadsOwn (fuel : Nat) : Prop where
  alternatives : ∀ st, YieldsOwn (readAlternatives? fuel st)
  branch : ∀ st, YieldsOwn (readBranch? fuel st)
  piece : ∀ st, YieldsOwn (readPiece? fuel st)
  atom : ∀ st, YieldsOwn (readAtom? fuel st)
  named : ∀ header st, YieldsOwn (readNamed? fuel header st)
  closed : ∀ st, YieldsOwn (readClosed? fuel st)

section

variable {fuel : Nat} (ih : ReadsOwn fuel)

include ih

/-- A choice has the groups of its rows. -/
theorem ReadsOwn.readAlternatives_succ (st : Reading) :
    YieldsOwn (readAlternatives? (fuel + 1) st) := by
  rw [readAlternatives?]
  refine (ih.branch st).bind fun first st hfirst => ?_
  dsimp only
  split
  · exact (ih.alternatives _).bind fun others st hothers => yieldsOwn_some (hfirst.alt hothers)
  · exact yieldsOwn_some hfirst

/-- A row has the groups of its pieces. -/
theorem ReadsOwn.readBranch_succ (st : Reading) : YieldsOwn (readBranch? (fuel + 1) st) := by
  rw [readBranch?]
  split
  · exact yieldsOwn_of_labels_eq_nil rfl
  · exact yieldsOwn_of_labels_eq_nil rfl
  · exact yieldsOwn_of_labels_eq_nil rfl
  · exact (ih.piece st).bind fun first st hfirst =>
      (ih.branch st).bind fun others st hothers => yieldsOwn_some (hfirst.seq hothers)

/-- A piece has the groups of its atom. -/
theorem ReadsOwn.readPiece_succ (st : Reading) : YieldsOwn (readPiece? (fuel + 1) st) := by
  rw [readPiece?]
  refine (ih.atom st).bind fun body st hbody => ?_
  dsimp only
  split
  · exact yieldsOwn_some hbody
  · split_ifs
    · exact yieldsOwn_none
    · split
      · exact yieldsOwn_some hbody
      · exact yieldsOwn_some hbody

/-- Of all atoms only the parentheses have groups, and these are named or numbered by the
pattern. -/
theorem ReadsOwn.readAtom_succ (st : Reading) : YieldsOwn (readAtom? (fuel + 1) st) := by
  rw [readAtom?]
  split
  · exact yieldsOwn_none
  · split
    · exact (ih.closed _).bind fun body st hbody => yieldsOwn_some hbody
    · exact (ih.closed _).bind fun body st hbody => yieldsOwn_some hbody
    · exact (ih.closed _).bind fun body st hbody => yieldsOwn_lookBehind hbody
    · exact (ih.closed _).bind fun body st hbody => yieldsOwn_lookBehind hbody
    · exact (ih.closed _).bind fun body st hbody => yieldsOwn_some hbody
    · -- A condition may be a group of the pattern or something to look at.
      refine YieldsOwn.bind ?_ fun condition st hcondition => ?_
      · split_ifs
        · exact yieldsOwn_readGroupCondition _
        · exact ih.closed _
      · refine (ih.closed _).bind fun body st hbody => ?_
        have hfollow := own_follow hcondition hbody
        exact yieldsOwn_some hfollow
    · exact ih.named _ _
    · exact ih.named _ _
    · exact yieldsOwn_bind fun _ _ => yieldsOwn_bind fun _ _ =>
        yieldsOwn_of_labels_eq_nil rfl
    · dsimp only
      split
      · exact (ih.closed _).bind fun body st hbody => yieldsOwn_some hbody
      · split_ifs
        · exact yieldsOwn_none
        · exact yieldsOwn_of_labels_eq_nil rfl
      · exact yieldsOwn_none
  · exact (ih.closed _).bind fun body st hbody => yieldsOwn_some (hbody.capture rfl)
  · exact yieldsOwn_map fun _ => .of_labels_eq_nil rfl
  · exact yieldsOwn_readEscape _
  · exact yieldsOwn_of_labels_eq_nil rfl
  · exact yieldsOwn_of_labels_eq_nil rfl
  · exact yieldsOwn_of_labels_eq_nil rfl
  · exact yieldsOwn_none
  · exact yieldsOwn_none
  · exact yieldsOwn_none
  · exact yieldsOwn_of_labels_eq_nil rfl

/-- A named group belongs to the pattern that names it. -/
theorem ReadsOwn.readNamed_succ (header : Option (String × List Char)) (st : Reading) :
    YieldsOwn (readNamed? (fuel + 1) header st) := by
  cases header with
  | none =>
    rw [readNamed?]
    · exact yieldsOwn_none
    · exact nofun
  | some header =>
    rw [readNamed?]
    exact (ih.closed _).bind fun body st hbody => yieldsOwn_some (hbody.capture rfl)

/-- What stands between parentheses has the groups of its choice. -/
theorem ReadsOwn.readClosed_succ (st : Reading) : YieldsOwn (readClosed? (fuel + 1) st) := by
  rw [readClosed?]
  refine (ih.alternatives st).bind fun body st hbody => ?_
  dsimp only
  split
  · exact yieldsOwn_some hbody
  · exact yieldsOwn_none

end

/-- Reading yields only groups of raw patterns, by induction on the fuel that all ways share. -/
theorem readsOwn (fuel : Nat) : ReadsOwn fuel := by
  induction fuel with
  | zero =>
    constructor <;> intros
    · rw [readAlternatives?]; exact yieldsOwn_none
    · rw [readBranch?]; exact yieldsOwn_none
    · rw [readPiece?]; exact yieldsOwn_none
    · rw [readAtom?]; exact yieldsOwn_none
    · rw [readNamed?]; exact yieldsOwn_none
    · rw [readClosed?]; exact yieldsOwn_none
  | succ fuel ih =>
    exact ⟨ih.readAlternatives_succ, ih.readBranch_succ, ih.readPiece_succ, ih.readAtom_succ,
      ih.readNamed_succ, ih.readClosed_succ⟩

/-- The groups in what a raw pattern means are its own. -/
theorem own_of_read? {source : String} {r : Regex} (h : read? source = some r) : Own r := by
  unfold read? at h
  dsimp only at h
  split at h
  · rename_i r' st hread
    split_ifs at h
    obtain rfl := Option.some.inj h
    exact (readsOwn _).alternatives _ _ _ hread
  · cases h

end Colloquy.Regex

namespace Colloquy

/-- The groups in what the engine takes a raw pattern to mean are the pattern's own: the pattern is
read by itself, and the groups of assignments stand outside. -/
class Engine.Lawful [Engine] : Prop where
  own_of_read? : ∀ {source : String} {r : Regex}, Engine.read? source = some r → r.Own

instance : Engine.Lawful :=
  ⟨Regex.own_of_read?⟩

end Colloquy
