/-!
# Sorted maps and sets

A `SortedMap κ ν` is a finite map held as its list of entries in ascending key order.  A map has
one such list, so two maps with the same look-ups are equal (`SortedMap.ext`), and iteration runs
in key order.  A `SortedSet κ` is a map to `Unit`.

Main statements: `get?_insert` and `get?_erase` say what the two writes do to every look-up.
-/

namespace Colloquy

/-- A finite map: its entries, keys ascending. -/
structure SortedMap (κ ν : Type) [Ord κ] where
  entries : List (κ × ν)
  ascending : entries.Pairwise fun a b => compare a.1 b.1 = .lt

namespace SortedMap

variable {κ ν : Type}

/-! ### Entry lists -/

/-- The value of the first entry with the key. -/
def lookup [DecidableEq κ] (key : κ) : List (κ × ν) → Option ν
  | [] => none
  | (k, v) :: rest => if key = k then some v else lookup key rest

/-- Sets the value of a key, keeping the order. -/
def put [Ord κ] (key : κ) (value : ν) : List (κ × ν) → List (κ × ν)
  | [] => [(key, value)]
  | (k, v) :: rest =>
    match compare key k with
    | .lt => (key, value) :: (k, v) :: rest
    | .eq => (key, value) :: rest
    | .gt => (k, v) :: put key value rest

theorem mem_put [Ord κ] {key : κ} {value : ν} {e : κ × ν} {entries : List (κ × ν)}
    (h : e ∈ put key value entries) : e = (key, value) ∨ e ∈ entries := by
  induction entries with
  | nil => exact Or.inl (by simpa [put] using h)
  | cons a rest ih =>
    obtain ⟨k, v⟩ := a
    simp only [put] at h
    split at h
    · exact List.mem_cons.1 h
    · rcases List.mem_cons.1 h with h | h
      · exact Or.inl h
      · exact Or.inr (List.mem_cons_of_mem _ h)
    · rcases List.mem_cons.1 h with h | h
      · exact Or.inr (h ▸ List.mem_cons_self)
      · exact (ih h).imp_right (List.mem_cons_of_mem _)

theorem ascending_put [Ord κ] [Std.TransOrd κ] {key : κ} {value : ν} {entries : List (κ × ν)}
    (h : entries.Pairwise fun a b => compare a.1 b.1 = .lt) :
    (put key value entries).Pairwise fun a b => compare a.1 b.1 = .lt := by
  induction entries with
  | nil => simp [put]
  | cons a rest ih =>
    obtain ⟨k, v⟩ := a
    rw [List.pairwise_cons] at h
    simp only [put]
    split
    case h_1 hlt =>
      refine List.pairwise_cons.2 ⟨fun e he => ?_, List.pairwise_cons.2 h⟩
      rcases List.mem_cons.1 he with rfl | he
      · exact hlt
      · exact Std.TransCmp.lt_trans hlt (h.1 e he)
    case h_2 heq =>
      exact List.pairwise_cons.2
        ⟨fun e he => Std.TransCmp.lt_of_eq_of_lt heq (h.1 e he), h.2⟩
    -- The new entry goes behind the first one, which is before all of the rest.
    case h_3 hgt =>
      refine List.pairwise_cons.2 ⟨fun e he => ?_, ih h.2⟩
      rcases mem_put he with rfl | he
      · exact Std.OrientedCmp.lt_of_gt hgt
      · exact h.1 e he

theorem lookup_put [Ord κ] [Std.LawfulEqOrd κ] [DecidableEq κ] {key other : κ} {value : ν}
    {entries : List (κ × ν)} :
    lookup other (put key value entries) =
      if other = key then some value else lookup other entries := by
  induction entries with
  | nil => simp [put, lookup]
  | cons a rest ih =>
    obtain ⟨k, v⟩ := a
    simp only [put]
    split
    case h_1 => simp [lookup]
    -- The key is there, and its value is replaced.
    case h_2 heq =>
      obtain rfl := Std.LawfulEqCmp.eq_of_compare heq
      by_cases h : other = key <;> simp [lookup, h]
    case h_3 hgt =>
      have hne : key ≠ k := by rintro rfl; simp at hgt
      by_cases h : other = k
      · subst h; simp [lookup, Ne.symm hne]
      · simp [lookup, h, ih]

theorem lookup_eq_none [DecidableEq κ] {key : κ} {entries : List (κ × ν)}
    (h : ∀ e ∈ entries, key ≠ e.1) : lookup key entries = none := by
  induction entries with
  | nil => rfl
  | cons a rest ih =>
    have ha : key ≠ a.1 := h a List.mem_cons_self
    simp [lookup, ha, ih fun e he => h e (List.mem_cons_of_mem _ he)]

theorem mem_of_lookup [DecidableEq κ] {key : κ} {value : ν} {entries : List (κ × ν)}
    (h : lookup key entries = some value) : (key, value) ∈ entries := by
  induction entries with
  | nil => simp [lookup] at h
  | cons a rest ih =>
    obtain ⟨k, v⟩ := a
    by_cases hk : key = k
    · subst hk; simp_all [lookup]
    · exact List.mem_cons_of_mem _ (ih (by simpa [lookup, hk] using h))

theorem lookup_of_mem [Ord κ] [Std.LawfulEqOrd κ] [DecidableEq κ] {key : κ} {value : ν}
    {entries : List (κ × ν)} (hs : entries.Pairwise fun a b => compare a.1 b.1 = .lt)
    (h : (key, value) ∈ entries) : lookup key entries = some value := by
  induction entries with
  | nil => simp at h
  | cons a rest ih =>
    obtain ⟨k, v⟩ := a
    rw [List.pairwise_cons] at hs
    rcases List.mem_cons.1 h with he | hr
    · obtain ⟨rfl, rfl⟩ := Prod.mk.inj he; simp [lookup]
    · have hne : key ≠ k := fun hk => by
        have hlt : compare k key = .lt := hs.1 _ hr
        simp [hk] at hlt
      simp [lookup, hne, ih hs.2 hr]

/-! ### Maps -/

variable [Ord κ]

/-- The map without entries. -/
def empty : SortedMap κ ν := ⟨[], .nil⟩

instance : EmptyCollection (SortedMap κ ν) := ⟨empty⟩
instance : Inhabited (SortedMap κ ν) := ⟨empty⟩

theorem eq_of_entries_eq {m n : SortedMap κ ν} (h : m.entries = n.entries) : m = n := by
  cases m; cases n; cases h; rfl

instance [DecidableEq κ] [DecidableEq ν] : DecidableEq (SortedMap κ ν) := fun m n =>
  if h : m.entries = n.entries then isTrue (eq_of_entries_eq h)
  else isFalse fun e => h (congrArg entries e)

/-- The value of a key. -/
def get? [DecidableEq κ] (m : SortedMap κ ν) (key : κ) : Option ν :=
  lookup key m.entries

/-- The key has a value. -/
def contains [DecidableEq κ] (m : SortedMap κ ν) (key : κ) : Bool :=
  (m.get? key).isSome

/-- Sets the value of a key. -/
def insert [Std.TransOrd κ] (m : SortedMap κ ν) (key : κ) (value : ν) : SortedMap κ ν :=
  ⟨put key value m.entries, ascending_put m.ascending⟩

/-- Removes a key. -/
def erase [DecidableEq κ] (m : SortedMap κ ν) (key : κ) : SortedMap κ ν :=
  ⟨m.entries.filter fun e => e.1 ≠ key, m.ascending.filter _⟩

/-- The keys, ascending. -/
def keys (m : SortedMap κ ν) : List κ :=
  m.entries.map (·.1)

/-- The number of keys. -/
def size (m : SortedMap κ ν) : Nat :=
  m.entries.length

/-- No key has a value. -/
def isEmpty (m : SortedMap κ ν) : Bool :=
  m.entries.isEmpty

/-- The map with the given entries; of two values for a key the later one counts. -/
def ofList [Std.TransOrd κ] (entries : List (κ × ν)) : SortedMap κ ν :=
  entries.foldl (fun m e => m.insert e.1 e.2) empty

@[simp] theorem get?_empty [DecidableEq κ] (key : κ) :
    (empty : SortedMap κ ν).get? key = none := rfl

theorem get?_insert [Std.TransOrd κ] [Std.LawfulEqOrd κ] [DecidableEq κ] (m : SortedMap κ ν)
    (key other : κ) (value : ν) :
    (m.insert key value).get? other = if other = key then some value else m.get? other :=
  lookup_put

@[simp] theorem get?_insert_self [Std.TransOrd κ] [Std.LawfulEqOrd κ] [DecidableEq κ]
    (m : SortedMap κ ν) (key : κ) (value : ν) : (m.insert key value).get? key = some value := by
  simp [get?_insert]

theorem get?_erase [DecidableEq κ] (m : SortedMap κ ν) (key other : κ) :
    (m.erase key).get? other = if other = key then none else m.get? other := by
  simp only [get?, erase]
  induction m.entries with
  | nil => simp [lookup]
  | cons a rest ih =>
    obtain ⟨k, v⟩ := a
    by_cases hk : k = key
    · subst hk
      by_cases h : other = k
      · subst h; simpa using ih
      · simpa [lookup, h] using ih
    · by_cases h : other = k
      · subst h; simp [lookup, hk]
      · simpa [lookup, hk, h] using ih

theorem mem_entries_iff [Std.LawfulEqOrd κ] [DecidableEq κ] {m : SortedMap κ ν} {key : κ}
    {value : ν} : (key, value) ∈ m.entries ↔ m.get? key = some value :=
  ⟨lookup_of_mem m.ascending, mem_of_lookup⟩

end SortedMap

/-- A finite set: its elements, ascending. -/
abbrev SortedSet (κ : Type) [Ord κ] := SortedMap κ Unit

namespace SortedSet

variable {κ : Type} [Ord κ]

/-- The elements, ascending. -/
def toList (s : SortedSet κ) : List κ :=
  s.keys

/-- Adds an element. -/
def add [Std.TransOrd κ] (s : SortedSet κ) (x : κ) : SortedSet κ :=
  s.insert x ()

/-- The set of the listed elements. -/
def ofList [Std.TransOrd κ] (xs : List κ) : SortedSet κ :=
  xs.foldl add SortedMap.empty

end SortedSet

end Colloquy
