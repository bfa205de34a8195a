import Mathlib.Tactic.IntervalCases
import Colloquy.Json.Number
import Colloquy.Json.Printer
import Colloquy.Json.Reader

/-!
# Reading what has been written

`Printable` says which values have a written form: their strings name texts, and their numerals are
spelled as the format asks.  Such a value is read back from its written form, whatever closes it
(`Printable.reads`), so its document is read as that value (`Printable.parse?_eq`).

An unsigned integer is spelled by a proper numeral (`Numeral.proper_ofNat`), which has this integer
as its value (`Numeral.toNat?_ofNat`).
-/

namespace Colloquy

/-! ### Numerals -/

namespace Numeral

/-- Some decimal digits. -/
structure AreDigits (ds : List Nat) : Prop where
  ne_nil : ds ≠ []
  lt_ten : ∀ d ∈ ds, d < 10

/-- The numeral is spelled as the format asks: without leading zeros, and with digits wherever there
have to be some. -/
structure Proper (n : Numeral) : Prop where
  whole : AreDigits n.whole
  leading : n.whole = [0] ∨ n.whole.head? ≠ some 0
  fraction : ∀ ds ∈ n.fraction, AreDigits ds
  exponent : ∀ e ∈ n.exponent, AreDigits e.2

/-- An unsigned integer is the value of the numeral by which it is written. -/
theorem toNat?_ofNat (n : Nat) : (ofNat n).toNat? = some n := by
  refine congrArg some ?_
  rw [ofDigits, ofNat, List.foldl_map]
  simpa only [Nat.ofDigitChars_eq_foldl, Nat.mul_comm] using Nat.ofDigitChars_ten_toDigits (n := n)

/-- A number below ten is written with one digit. -/
theorem whole_ofNat_of_lt {k : Nat} (hk : k < 10) : (ofNat k).whole = [k] := by
  rw [ofNat, Nat.toDigits_of_lt_base hk, List.map_singleton]
  exact congrArg (fun d => [d]) (Nat.toNat_digitChar_sub_48_of_lt_ten hk)

/-- The last digit of a number stands behind the digits of its tens. -/
theorem whole_ofNat_append {m k : Nat} (hm : 0 < m) (hk : k < 10) :
    (ofNat (10 * m + k)).whole = (ofNat m).whole ++ [k] := by
  rw [← whole_ofNat_of_lt hk, ofNat, ← Nat.toDigits_append_toDigits (by decide) hm hk,
    List.map_append]
  rfl

/-- A number is written with digits, at least one. -/
theorem areDigits_ofNat (n : Nat) : AreDigits (ofNat n).whole := by
  induction n using Nat.base_induction 10 (by decide) with
  | single m hm =>
    rw [whole_ofNat_of_lt hm]
    exact ⟨List.cons_ne_nil _ _, by simpa using hm⟩
  | digit m k hk hm ih =>
    rw [whole_ofNat_append hm hk]
    refine ⟨List.append_ne_nil_of_left_ne_nil ih.ne_nil _, fun d hd => ?_⟩
    rcases List.mem_append.mp hd with hd | hd
    · exact ih.lt_ten d hd
    · exact List.mem_singleton.mp hd ▸ hk

/-- No number but zero starts with a zero. -/
theorem head?_ofNat (n : Nat) (hn : 0 < n) : (ofNat n).whole.head? ≠ some 0 := by
  induction n using Nat.base_induction 10 (by decide) with
  | single m hm =>
    rw [whole_ofNat_of_lt hm]
    exact fun h => hn.ne' (Option.some.inj h)
  | digit m k hk hm ih =>
    rw [whole_ofNat_append hm hk, List.head?_append, Option.or_of_isSome]
    · exact ih hm
    · exact List.isSome_head?.mpr (areDigits_ofNat m).ne_nil

/-- An unsigned integer is spelled as the format asks. -/
theorem proper_ofNat (n : Nat) : (ofNat n).Proper where
  whole := areDigits_ofNat n
  leading := by
    rcases Nat.eq_zero_or_pos n with rfl | hn
    · exact .inl rfl
    · exact .inr (head?_ofNat n hn)
  fraction := nofun
  exponent := nofun

end Numeral

namespace Json

open Numeral (AreDigits)

/-! ### Digits -/

/-- The digits as characters. -/
def spelled (ds : List Nat) : List Char :=
  ds.map fun d => Char.ofNat ('0'.toNat + d)

/-- No further digit stands in front. -/
def NoDigit (rest : List Char) : Prop :=
  ∀ c ∈ rest.head?, c.isDigit = false

theorem isDigit_digit {d : Nat} (hd : d < 10) : (Char.ofNat ('0'.toNat + d)).isDigit = true := by
  interval_cases d <;> rfl

theorem toNat_digit {d : Nat} (hd : d < 10) :
    (Char.ofNat ('0'.toNat + d)).toNat - '0'.toNat = d := by
  interval_cases d <;> rfl

/-- Digits are read back up to where no further one stands. -/
theorem digits_spelled {ds : List Nat} (hds : ∀ d ∈ ds, d < 10) {rest : List Char}
    (hrest : NoDigit rest) : digits (spelled ds ++ rest) = (ds, rest) := by
  have hall : ∀ c ∈ spelled ds, c.isDigit = true := by
    intro c hc
    obtain ⟨d, hd, rfl⟩ := List.mem_map.mp hc
    exact isDigit_digit (hds d hd)
  have hnone : rest.takeWhile Char.isDigit = [] ∧ rest.dropWhile Char.isDigit = rest := by
    cases rest with
    | nil => exact ⟨rfl, rfl⟩
    | cons c rest => simp [hrest c rfl]
  rw [digits, List.takeWhile_append_of_pos hall, List.dropWhile_append_of_pos hall, hnone.1,
    hnone.2, List.append_nil, spelled, List.map_map]
  refine congrArg (·, rest) ?_
  exact (List.map_congr_left fun d hd => toNat_digit (hds d hd)).trans (List.map_id ds)

/-- At least one digit is read back. -/
theorem digits1_spelled {ds : List Nat} (h : AreDigits ds) {rest : List Char}
    (hrest : NoDigit rest) : digits1 (spelled ds ++ rest) = some (ds, rest) := by
  rw [digits1, digits_spelled h.lt_ten hrest]
  cases ds with
  | nil => exact absurd rfl h.ne_nil
  | cons d ds => rfl

/-- The digits in front of a point are read back if they have no leading zero. -/
theorem whole_spelled {ds : List Nat} (h : AreDigits ds) (hzero : ds = [0] ∨ ds.head? ≠ some 0)
    {rest : List Char} (hrest : NoDigit rest) :
    whole (spelled ds ++ rest) = some (ds, rest) := by
  rw [whole, digits_spelled h.lt_ten hrest]
  -- After a zero no further digit may stand, and none does.
  rcases hzero with rfl | hzero
  · rfl
  · rcases ds with _ | ⟨_ | d, ds⟩
    · exact absurd rfl h.ne_nil
    · exact absurd rfl hzero
    · rfl

/-! ### Numbers -/

/-- What closes a value in a document: the end, or the sign that follows it. -/
def Closing (rest : List Char) : Prop :=
  ∀ c ∈ rest.head?, c = ',' ∨ c = ']' ∨ c = '}'

theorem closing_cons {c : Char} (hc : c = ',' ∨ c = ']' ∨ c = '}') (rest : List Char) :
    Closing (c :: rest) := by
  intro d hd
  rwa [← Option.some.inj hd]

/-- What closes a value goes on with no number. -/
theorem Closing.noDigit {rest : List Char} (h : Closing rest) : NoDigit rest := by
  intro c hc
  rcases h c hc with rfl | rfl | rfl <;> rfl

/-- The written form of a fraction, if there is one. -/
def spelledFraction : Option (List Nat) → List Char
  | none => []
  | some ds => '.' :: spelled ds

/-- The written form of an exponent, if there is one. -/
def spelledExponent : Option (Bool × List Nat) → List Char
  | none => []
  | some (negative, ds) => 'e' :: ((if negative then ['-'] else []) ++ spelled ds)

/-- A numeral is written as its sign, its digits, its fraction and its exponent. -/
theorem printNumeral_eq (n : Numeral) :
    printNumeral n = (if n.negative then ['-'] else []) ++
      (spelled n.whole ++ (spelledFraction n.fraction ++ spelledExponent n.exponent)) := by
  rw [printNumeral, ← List.append_assoc, ← List.append_assoc]
  rcases n.fraction with _ | ds <;> rcases n.exponent with _ | ⟨negative, es⟩ <;> rfl

/-- A fraction is read back, also if there is none. -/
theorem fraction_spelled {f : Option (List Nat)} (hf : ∀ ds ∈ f, AreDigits ds) {rest : List Char}
    (hrest : NoDigit rest) (hpoint : rest.head? ≠ some '.') :
    fraction (spelledFraction f ++ rest) = some (f, rest) := by
  rcases f with _ | ds
  · show fraction rest = some (none, rest)
    unfold fraction
    split
    · exact absurd rfl hpoint
    · rfl
  · show (digits1 (spelled ds ++ rest)).map _ = _
    rw [digits1_spelled (hf ds rfl) hrest]
    rfl

/-- Digits begin with a digit. -/
theorem head?_spelled {ds : List Nat} (h : AreDigits ds) (rest : List Char) :
    ∃ c cs, spelled ds ++ rest = c :: cs ∧ c.isDigit = true := by
  cases ds with
  | nil => exact absurd rfl h.ne_nil
  | cons d ds => exact ⟨_, _, rfl, isDigit_digit (h.lt_ten d List.mem_cons_self)⟩

/-- An exponent is read back with its sign, also if there is none. -/
theorem exponent_spelled {e : Option (Bool × List Nat)} (he : ∀ x ∈ e, AreDigits x.2)
    {rest : List Char} (hrest : Closing rest) :
    exponent (spelledExponent e ++ rest) = some (e, rest) := by
  rcases e with _ | ⟨negative, ds⟩
  · show exponent rest = some (none, rest)
    unfold exponent
    split
    · exact absurd (hrest 'e' rfl) (by decide)
    · exact absurd (hrest 'E' rfl) (by decide)
    · rfl
  · have hread := digits1_spelled (he _ rfl) hrest.noDigit
    cases negative with
    | true =>
      show (digits1 (spelled ds ++ rest)).map _ = _
      rw [hread]
      rfl
    | false =>
      -- A digit is no sign.
      obtain ⟨c, cs, hcs, hdigit⟩ := head?_spelled (he _ rfl) rest
      have hsign : c ≠ '-' ∧ c ≠ '+' := by constructor <;> (rintro rfl; cases hdigit)
      show exponent ('e' :: (spelled ds ++ rest)) = _
      rw [hcs] at hread ⊢
      simp [exponent, hsign, hread]

/-- In front of an exponent, and where there is none, neither digits nor a fraction go on. -/
theorem noDigit_spelledExponent (e : Option (Bool × List Nat)) {rest : List Char}
    (hrest : Closing rest) :
    NoDigit (spelledExponent e ++ rest) ∧ (spelledExponent e ++ rest).head? ≠ some '.' := by
  rcases e with _ | ⟨negative, ds⟩
  · exact ⟨hrest.noDigit, fun h => absurd (hrest '.' h) (by decide)⟩
  · exact ⟨fun c hc => by obtain rfl := Option.some.inj hc; rfl, by simp [spelledExponent]⟩

/-- In front of a fraction, and where there is none, no digits go on. -/
theorem noDigit_spelledFraction (f : Option (List Nat)) {rest : List Char} (hrest : NoDigit rest) :
    NoDigit (spelledFraction f ++ rest) := by
  rcases f with _ | ds
  · exact hrest
  · intro c hc
    obtain rfl := Option.some.inj hc
    rfl

/-- A number without its sign. -/
def unsigned (negative : Bool) (cs : List Char) : Option (Numeral × List Char) := do
  let (whole, cs) ← whole cs
  let (fraction, cs) ← fraction cs
  let (exponent, cs) ← exponent cs
  return (⟨negative, whole, fraction, exponent⟩, cs)

/-- The sign of a number is read first. -/
theorem numeral_signed (negative : Bool) {cs : List Char} (hcs : cs.head? ≠ some '-') :
    numeral ((if negative then ['-'] else []) ++ cs) = unsigned negative cs := by
  cases negative with
  | true => rfl
  | false =>
    rcases cs with _ | ⟨c, cs⟩
    · rfl
    · have hsign : c ≠ '-' := fun h => hcs (congrArg some h)
      simp [numeral, unsigned, hsign]

/-- A numeral that is spelled as the format asks is read back from its written form. -/
theorem numeral_print {n : Numeral} (h : n.Proper) {rest : List Char} (hrest : Closing rest) :
    numeral (printNumeral n ++ rest) = some (n, rest) := by
  -- From the right to the left, each part is followed by something that does not go on with it.
  obtain ⟨hexponent, hpoint⟩ := noDigit_spelledExponent n.exponent hrest
  have hwhole := whole_spelled h.whole h.leading (noDigit_spelledFraction n.fraction hexponent)
  have hfraction := fraction_spelled h.fraction hexponent hpoint
  have hlast := exponent_spelled h.exponent hrest
  obtain ⟨c, cs, hcs, hdigit⟩ := head?_spelled h.whole
    (spelledFraction n.fraction ++ (spelledExponent n.exponent ++ rest))
  rw [printNumeral_eq, List.append_assoc, List.append_assoc, List.append_assoc, numeral_signed]
  · rw [unsigned, hwhole]
    show (fraction _).bind _ = _
    rw [hfraction]
    show (exponent _).bind _ = _
    rw [hlast]
    rfl
  · rw [hcs]
    rintro ⟨⟩
    cases hdigit

/-! ### Strings -/

/-- A hexadecimal digit is read back. -/
theorem hexDigit?_hexDigit {n : Nat} (hn : n < 16) : hexDigit? (hexDigit n) = some n := by
  interval_cases n <;> rfl

/-- A control character is spelled by its code unit. -/
theorem hexUnit?_control {n : Nat} (hn : n < 0x20) :
    hexUnit? '0' '0' (hexDigit (n / 16)) (hexDigit (n % 16)) = some n := by
  have hzero : hexDigit? '0' = some 0 := rfl
  rw [hexUnit?, hzero, hexDigit?_hexDigit (by omega), hexDigit?_hexDigit (by omega)]
  refine congrArg some ?_
  omega

/-- An escape by a letter. -/
theorem units_letter {letter c : Char} (hletter : letter ≠ 'u') (h : escaped? letter = some c)
    (cs : List Char) :
    units ('\\' :: letter :: cs) = (units cs).map fun (us, rest) => (c.toNat :: us, rest) := by
  rw [units, h]
  · exact (Option.map_eq_bind ..).symm
  · exact fun _ _ _ _ _ hu => absurd hu hletter

/-- Every character is read back from the way it stands in a string. -/
theorem units_escape (c : Char) (cs : List Char) :
    units (escape c ++ cs) = (units cs).map fun (us, rest) => (c.toNat :: us, rest) := by
  unfold escape
  split_ifs with hquote hbackslash hb hf hn hr ht hcontrol
  · subst hquote
    exact units_letter (by decide) rfl cs
  · subst hbackslash
    exact units_letter (by decide) rfl cs
  · subst hb
    exact units_letter (by decide) rfl cs
  · subst hf
    exact units_letter (by decide) rfl cs
  · subst hn
    exact units_letter (by decide) rfl cs
  · subst hr
    exact units_letter (by decide) rfl cs
  · subst ht
    exact units_letter (by decide) rfl cs
  · show (hexUnit? '0' '0' _ _).bind _ = _
    rw [hexUnit?_control hcontrol]
    exact (Option.map_eq_bind ..).symm
  · show units (c :: cs) = _
    rw [units, if_neg hcontrol]
    · exact (Option.map_eq_bind ..).symm
    -- The character is neither a quote nor the start of an escape.
    · exact hquote
    · exact fun _ _ _ _ _ h => absurd h hbackslash
    · exact fun _ _ h => absurd h hbackslash

/-- Code units that are characters are these characters. -/
theorem ofUnits_toNat (cs : List Char) : ofUnits (cs.map Char.toNat) = some cs := by
  induction cs with
  | nil => rfl
  | cons c cs ih =>
    -- No character is a surrogate.
    have hvalid : c.toNat < 0xD800 ∨ 0xDFFF < c.toNat ∧ c.toNat < 0x110000 := c.valid
    cases cs with
    | nil =>
      rw [List.map_singleton, ofUnits, if_neg (by omega), Char.ofNat_toNat]
    | cons d cs =>
      rw [List.map_cons, List.map_cons, ofUnits, if_neg (by omega), if_neg (by omega),
        ← List.map_cons, ih, Option.map_some, Char.ofNat_toNat]

/-- A string is read back up to its closing quote. -/
theorem string?_quote (s : String) (rest : List Char) :
    string? (s.toList.flatMap escape ++ '"' :: rest) = some (some s, rest) := by
  -- The characters are read back one by one, each from the way it is escaped.
  have hunits : ∀ cs : List Char,
      units (cs.flatMap escape ++ '"' :: rest) = some (cs.map Char.toNat, rest) := by
    intro cs
    induction cs with
    | nil => rfl
    | cons c cs ih =>
      rw [List.flatMap_cons, List.append_assoc, units_escape, ih]
      rfl
  rw [string?, hunits, Option.map_some]
  dsimp only
  rw [ofUnits_toNat, Option.map_some, String.ofList_toList]

/-! ### Values -/

/-- The value has a written form: its strings name texts and its numerals are proper. -/
inductive Printable : Json → Prop
  | null : Printable .null
  | bool (value : Bool) : Printable (.bool value)
  | number {numeral : Numeral} (proper : numeral.Proper) : Printable (.number numeral)
  | text (s : String) : Printable (.text s)
  | array {items : List Json} (items_printable : ∀ item ∈ items, Printable item) :
      Printable (.array items)
  | object {members : List (Option String × Json)} (keys : ∀ m ∈ members, m.1.isSome = true)
      (values : ∀ m ∈ members, Printable m.2) : Printable (.object members)

theorem skipSpace_cons {c : Char} (hc : isSpace c = false) (cs : List Char) :
    skipSpace (c :: cs) = c :: cs :=
  List.dropWhile_cons_of_neg (by simp [hc])

/-- A numeral starts with its sign or a digit. -/
theorem head?_printNumeral {n : Numeral} (h : n.Proper) :
    ∃ c cs, printNumeral n = c :: cs ∧ (c = '-' ∨ c.isDigit = true) := by
  rw [printNumeral_eq]
  cases n.negative with
  | true => exact ⟨_, _, rfl, .inl rfl⟩
  | false =>
    obtain ⟨c, cs, hcs, hdigit⟩ :=
      head?_spelled h.whole (spelledFraction n.fraction ++ spelledExponent n.exponent)
    exact ⟨c, cs, hcs, .inr hdigit⟩

/-- A written value starts with a sign that is no white space and closes nothing. -/
theorem Printable.head? {json : Json} (h : Printable json) :
    ∃ c cs, json.print = c :: cs ∧ isSpace c = false ∧ c ≠ ']' := by
  cases h with
  | null => exact ⟨_, _, rfl, rfl, by decide⟩
  | bool value => cases value <;> exact ⟨_, _, rfl, rfl, by decide⟩
  | number proper =>
    obtain ⟨c, cs, hcs, hc⟩ := head?_printNumeral proper
    refine ⟨c, cs, hcs, ?_, ?_⟩
    · rcases hc with rfl | hdigit
      · rfl
      · by_contra hspace
        simp only [isSpace, Bool.not_eq_false, Bool.or_eq_true, beq_iff_eq] at hspace
        rcases hspace with ((rfl | rfl) | rfl) | rfl <;> cases hdigit
    · rintro rfl
      rcases hc with h | h <;> cases h
  | text s => exact ⟨_, _, rfl, rfl, by decide⟩
  | array => exact ⟨_, _, rfl, rfl, by decide⟩
  | object => exact ⟨_, _, rfl, rfl, by decide⟩

/-- No space is passed over in front of a written value. -/
theorem skipSpace_print {json : Json} (h : Printable json) (rest : List Char) :
    skipSpace (json.print ++ rest) = json.print ++ rest := by
  obtain ⟨c, cs, hcs, hc, -⟩ := h.head?
  rw [hcs, List.cons_append, skipSpace_cons hc]

/-- With a measure that covers its written form, the value is read back from it. -/
def Reads (json : Json) : Prop :=
  ∀ n rest, json.print.length ≤ n → Closing rest →
    value? n (json.print ++ rest) = some (json, rest)

/-- A sign or a digit announces a number. -/
theorem value?_number {c : Char} (hc : c = '-' ∨ c.isDigit = true) (n : Nat) (cs : List Char) :
    value? (n + 1) (c :: cs) =
      (numeral (c :: cs)).map fun (n, rest) => (.number n, rest) := by
  unfold value?
  split
  case h_7 => rfl
  all_goals
    rename_i heq
    obtain ⟨rfl, -⟩ := List.cons.inj heq
    rcases hc with hc | hc <;> cases hc

theorem printItems_cons_cons (item next : Json) (more : List Json) :
    printItems (item :: next :: more) = item.print ++ ',' :: printItems (next :: more) := by
  rw [printItems]
  exact nofun

theorem printMembers_cons_cons (m next : Option String × Json)
    (more : List (Option String × Json)) :
    printMembers (m :: next :: more) = printMember m ++ ',' :: printMembers (next :: more) := by
  rw [printMembers]
  exact nofun

/-- Written items start like the first of them. -/
theorem head?_printItems {items : List Json} (h : ∀ item ∈ items, Printable item)
    (hne : items ≠ []) :
    ∃ c cs, printItems items = c :: cs ∧ isSpace c = false ∧ c ≠ ']' := by
  obtain ⟨item, items, rfl⟩ := List.exists_cons_of_ne_nil hne
  obtain ⟨c, cs, hcs, hc⟩ := (h item List.mem_cons_self).head?
  cases items with
  | nil => exact ⟨c, cs, hcs, hc⟩
  | cons next more =>
    rw [printItems_cons_cons, hcs]
    exact ⟨c, _, rfl, hc⟩

/-- Written members start with the quote of the first key. -/
theorem head?_printMembers {members : List (Option String × Json)} (hne : members ≠ []) :
    ∃ cs, printMembers members = '"' :: cs := by
  obtain ⟨⟨key, value⟩, members, rfl⟩ := List.exists_cons_of_ne_nil hne
  cases members with
  | nil => exact ⟨_, rfl⟩
  | cons next more =>
    rw [printMembers_cons_cons]
    exact ⟨_, rfl⟩

/-- No space is passed over in front of written items. -/
theorem skipSpace_printItems {items : List Json} (h : ∀ item ∈ items, Printable item)
    (hne : items ≠ []) (rest : List Char) :
    skipSpace (printItems items ++ rest) = printItems items ++ rest := by
  obtain ⟨c, cs, hcs, hc, -⟩ := head?_printItems h hne
  rw [hcs, List.cons_append, skipSpace_cons hc]

/-- No space is passed over in front of written members. -/
theorem skipSpace_printMembers {members : List (Option String × Json)} (hne : members ≠ [])
    (rest : List Char) :
    skipSpace (printMembers members ++ rest) = printMembers members ++ rest := by
  obtain ⟨cs, hcs⟩ := head?_printMembers hne
  rw [hcs, List.cons_append, skipSpace_cons rfl]

/-! ### Items and members -/

section Steps

variable {n : Nat} {cs cs' more rest : List Char} {item value : Json} {items : List Json}
  {key : Option String} {members : List (Option String × Json)}

/-- An array is read by its items once it is known not to be empty. -/
theorem value?_array {c : Char} (hc : c ≠ ']') (hskip : skipSpace cs = c :: cs')
    (h : items? n (c :: cs') = some (items, rest)) :
    value? (n + 1) ('[' :: cs) = some (.array items, rest) := by
  rw [value?, hskip]
  split
  · rename_i heq
    exact absurd (List.cons.inj heq).1 hc
  · rw [h]
    rfl

/-- An object is read by its members once it is known not to be empty. -/
theorem value?_object {c : Char} (hc : c ≠ '}') (hskip : skipSpace cs = c :: cs')
    (h : members? n (c :: cs') = some (members, rest)) :
    value? (n + 1) ('{' :: cs) = some (.object members, rest) := by
  rw [value?, hskip]
  split
  · rename_i heq
    exact absurd (List.cons.inj heq).1 hc
  · rw [h]
    rfl

theorem items?_last (h : value? n cs = some (item, ']' :: rest)) :
    items? (n + 1) cs = some ([item], rest) := by
  rw [items?, h]
  rfl

theorem items?_more (h : value? n cs = some (item, ',' :: more))
    (hmore : items? n (skipSpace more) = some (items, rest)) :
    items? (n + 1) cs = some (item :: items, rest) := by
  rw [items?, h]
  show (items? n (skipSpace more)).bind _ = _
  rw [hmore]
  rfl

theorem members?_last (hkey : string? cs = some (key, ':' :: cs'))
    (hvalue : value? n (skipSpace cs') = some (value, '}' :: rest)) :
    members? (n + 1) ('"' :: cs) = some ([(key, value)], rest) := by
  rw [members?, hkey]
  show (value? n (skipSpace cs')).bind _ = _
  rw [hvalue]
  rfl

theorem members?_more (hkey : string? cs = some (key, ':' :: cs'))
    (hvalue : value? n (skipSpace cs') = some (value, ',' :: more))
    (hmore : members? n (skipSpace more) = some (members, rest)) :
    members? (n + 1) ('"' :: cs) = some ((key, value) :: members, rest) := by
  rw [members?, hkey]
  show (value? n (skipSpace cs')).bind _ = _
  rw [hvalue]
  show (members? n (skipSpace more)).bind _ = _
  rw [hmore]
  rfl

end Steps

/-- Written items are read back, if each of them is. -/
theorem reads_items {items : List Json} (hitems : ∀ item ∈ items, Printable item)
    (h : ∀ item ∈ items, Reads item) (hne : items ≠ []) :
    ∀ (n : Nat) (rest : List Char), (printItems items).length < n →
      items? n (printItems items ++ ']' :: rest) = some (items, rest) := by
  -- Each item takes one off the measure, and its comma pays for it.
  induction items with
  | nil => exact absurd rfl hne
  | cons item items ih =>
    rintro (_ | n) rest hn
    · cases hn
    have hitem := h item List.mem_cons_self
    cases items with
    | nil =>
      exact items?_last
        (hitem n _ (Nat.le_of_lt_succ hn) (closing_cons (.inr (.inl rfl)) rest))
    | cons next more =>
      have hmore : ∀ i ∈ next :: more, Printable i :=
        fun i hi => hitems i (List.mem_cons_of_mem _ hi)
      rw [printItems_cons_cons, List.length_append, List.length_cons] at hn
      have hrest := ih hmore (fun i hi => h i (List.mem_cons_of_mem _ hi)) (List.cons_ne_nil _ _)
        n rest (by omega)
      rw [printItems_cons_cons, List.append_assoc, List.cons_append]
      refine items?_more (hitem n _ (by omega) (closing_cons (.inl rfl) _)) ?_
      rw [skipSpace_printItems hmore (List.cons_ne_nil _ _), hrest]

/-- A key is read back, and the colon behind it. -/
theorem printMember_append (key : String) (value : Json) (rest : List Char) :
    ∃ cs, printMember (some key, value) ++ rest = '"' :: cs ∧
      string? cs = some (some key, ':' :: (value.print ++ rest)) := by
  refine ⟨_, ?_, string?_quote key _⟩
  simp [printMember, quote]

/-- Written members are read back, if the value of each is. -/
theorem reads_members {members : List (Option String × Json)}
    (hkeys : ∀ m ∈ members, m.1.isSome = true) (hvalues : ∀ m ∈ members, Printable m.2)
    (h : ∀ m ∈ members, Reads m.2) (hne : members ≠ []) :
    ∀ (n : Nat) (rest : List Char), (printMembers members).length < n →
      members? n (printMembers members ++ '}' :: rest) = some (members, rest) := by
  induction members with
  | nil => exact absurd rfl hne
  | cons m members ih =>
    -- As with items, the comma of each member pays for the step behind it.
    rintro (_ | n) rest hn
    · cases hn
    obtain ⟨_ | key, value⟩ := m
    · cases hkeys _ List.mem_cons_self
    have hvalue : Reads value := h _ List.mem_cons_self
    have hskip := skipSpace_print (hvalues _ List.mem_cons_self)
    dsimp only at hskip
    -- The key and the colon only add to the length of the value.
    have hlength : value.print.length ≤ (printMember (some key, value)).length := by
      rw [printMember, List.length_append, List.length_cons]
      omega
    cases members with
    | nil =>
      obtain ⟨cs, hcs, hkey⟩ := printMember_append key value ('}' :: rest)
      rw [printMembers, hcs]
      have hread := hvalue n _ (hlength.trans (Nat.le_of_lt_succ hn))
        (closing_cons (.inr (.inr rfl)) rest)
      exact members?_last hkey ((congrArg (value? n) (hskip _)).trans hread)
    | cons next more =>
      rw [printMembers_cons_cons, List.length_append, List.length_cons] at hn
      have hrest := ih (fun m hm => hkeys m (List.mem_cons_of_mem _ hm))
        (fun m hm => hvalues m (List.mem_cons_of_mem _ hm))
        (fun m hm => h m (List.mem_cons_of_mem _ hm)) (List.cons_ne_nil _ _) n rest (by omega)
      obtain ⟨cs, hcs, hkey⟩ := printMember_append key value
        (',' :: (printMembers (next :: more) ++ '}' :: rest))
      rw [printMembers_cons_cons, List.append_assoc, List.cons_append, hcs]
      have hread := hvalue n _ (by omega)
        (closing_cons (.inl rfl) (printMembers (next :: more) ++ '}' :: rest))
      refine members?_more hkey ((congrArg (value? n) (hskip _)).trans hread) ?_
      rw [skipSpace_printMembers (List.cons_ne_nil _ _), hrest]

/-! ### Documents -/

/-- A value that has a written form is read back from it. -/
theorem Printable.reads {json : Json} (h : Printable json) : Reads json := by
  induction h with
  | null =>
    rintro (_ | n) rest hn -
    · cases hn
    · rfl
  | bool value =>
    rintro (_ | n) rest hn -
    · cases value <;> cases hn
    · cases value <;> rfl
  | number proper =>
    intro n rest hn hrest
    obtain ⟨c, cs, hcs, hc⟩ := head?_printNumeral proper
    have hread := numeral_print proper hrest
    rw [print] at hn ⊢
    rw [hcs] at hn hread ⊢
    -- The measure is not used up, since a numeral is not empty.
    obtain ⟨n, rfl⟩ := Nat.exists_eq_add_of_lt (Nat.lt_of_lt_of_le (Nat.zero_lt_succ _) hn)
    rw [List.cons_append, value?_number hc, ← List.cons_append, hread]
    rfl
  | text s =>
    rintro (_ | n) rest hn -
    · cases hn
    · show (string? (s.toList.flatMap escape ++ ['"'] ++ rest)).map _ = _
      rw [List.append_assoc]
      show (string? (s.toList.flatMap escape ++ '"' :: rest)).map _ = _
      rw [string?_quote]
      rfl
  | @array items hitems ih =>
    -- The brackets pay for the step into the list.
    rintro (_ | n) rest hn -
    · cases hn
    rw [print] at hn ⊢
    rcases items with _ | ⟨item, more⟩
    · rfl
    · have hne : item :: more ≠ [] := List.cons_ne_nil _ _
      obtain ⟨c, cs, hcs, -, hc⟩ := head?_printItems hitems hne
      have hskip := skipSpace_printItems hitems hne (']' :: rest)
      simp only [List.length_append, List.length_cons, List.length_nil] at hn
      have hread := reads_items hitems ih hne n rest (by omega)
      rw [List.cons_append, List.cons_append, List.append_assoc]
      rw [hcs] at hskip hread ⊢
      exact value?_array hc hskip hread
  | @object members hkeys hvalues ih =>
    rintro (_ | n) rest hn -
    · cases hn
    rw [print] at hn ⊢
    rcases members with _ | ⟨m, more⟩
    · rfl
    · have hne : m :: more ≠ [] := List.cons_ne_nil _ _
      obtain ⟨cs, hcs⟩ := head?_printMembers hne
      have hskip := skipSpace_printMembers hne ('}' :: rest)
      simp only [List.length_append, List.length_cons, List.length_nil] at hn
      have hread := reads_members hkeys hvalues ih hne n rest (by omega)
      rw [List.cons_append, List.cons_append, List.append_assoc]
      rw [hcs] at hskip hread ⊢
      exact value?_object (by decide) hskip hread

/-- The document of a value is read as that value. -/
theorem Printable.parse?_eq {json : Json} (h : Printable json) :
    parse? json.render = some json := by
  have hread := h.reads (json.print.length + 1) [] (Nat.le_succ _) nofun
  have hskip := skipSpace_print h []
  rw [List.append_nil] at hread hskip
  rw [parse?, render, String.toList_ofList, hskip, hread]
  rfl

end Json

end Colloquy
