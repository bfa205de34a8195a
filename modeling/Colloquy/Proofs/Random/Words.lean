import Mathlib
import Colloquy.Proofs.Random.Greatest

/-!
# Draws from given words

A draw is determined by the next words of its source.  `Draw.Gives x ws a` says that `x` takes just
the words `ws` and gives `a`, wherever they come from; such draws follow one another by appending
their words (`Draw.Gives.bind`).

Every index below `n` is given by some word, as long as `n` is at most the number of words
(`exists_gives_index`), so every one of so many items is chosen from some source
(`exists_gives_chooseUniform`).
-/

namespace Colloquy

/-- The next words of the source. -/
def Source.Begins (src : Source) (ws : List UInt64) : Prop :=
  ∀ i w, ws[i]? = some w → src.word (src.drawn + i) = w

/-- The source after some words have been taken. -/
def Source.skip (src : Source) (n : Nat) : Source :=
  { src with drawn := src.drawn + n }

namespace Source

theorem skip_skip (src : Source) (m n : Nat) : (src.skip m).skip n = src.skip (m + n) := by
  rw [skip, skip, skip, Nat.add_assoc]

theorem exists_begins (ws : List UInt64) : ∃ src : Source, src.Begins ws := by
  refine ⟨ofWords fun i => ws[i]?.getD 0, fun i w h => ?_⟩
  show ws[0 + i]?.getD 0 = w
  rw [Nat.zero_add, h]
  rfl

theorem begins_append {src : Source} {ws vs : List UInt64} :
    src.Begins (ws ++ vs) ↔ src.Begins ws ∧ (src.skip ws.length).Begins vs := by
  constructor
  · intro h
    refine ⟨fun i w hw => h i w ?_, fun i v hv => ?_⟩
    · rw [List.getElem?_append_left (List.getElem?_eq_some_iff.mp hw).1, hw]
    · rw [← h (ws.length + i) v]
      · show src.word (src.drawn + ws.length + i) = _
        rw [Nat.add_assoc]
      · rw [List.getElem?_append_right (Nat.le_add_right _ _), Nat.add_sub_cancel_left, hv]
  · rintro ⟨hws, hvs⟩ i w hw
    rcases Nat.lt_or_ge i ws.length with hlt | hge
    · rw [List.getElem?_append_left hlt] at hw
      exact hws i w hw
    · rw [List.getElem?_append_right hge] at hw
      rw [← hvs _ w hw]
      show _ = src.word (src.drawn + ws.length + (i - ws.length))
      rw [Nat.add_assoc, Nat.add_sub_cancel' hge]

end Source

/-- From every source that begins with the words `ws`, the draw takes these and gives `a`. -/
def Draw.Gives {α : Type} (x : Draw α) (ws : List UInt64) (a : α) : Prop :=
  ∀ src : Source, src.Begins ws → x src = (a, src.skip ws.length)

namespace Draw.Gives

variable {α β : Type}

theorem pure (a : α) : Draw.Gives (Pure.pure a) [] a :=
  fun _ _ => rfl

theorem bind {x : Draw α} {f : α → Draw β} {ws vs : List UInt64} {a : α} {b : β}
    (hx : x.Gives ws a) (hf : (f a).Gives vs b) : Draw.Gives (x >>= f) (ws ++ vs) b := by
  intro src hsrc
  obtain ⟨hws, hvs⟩ := Source.begins_append.mp hsrc
  rw [Draw.bind_apply, hx src hws, hf _ hvs, List.length_append]
  rw [Source.skip_skip]

theorem map {x : Draw α} {ws : List UInt64} {a : α} (hx : x.Gives ws a) (f : α → β) :
    Draw.Gives (x >>= fun r => Pure.pure (f r)) ws (f a) := by
  simpa using hx.bind (f := fun r => Pure.pure (f r)) (.pure (f a))

end Draw.Gives

namespace Selection

theorem gives_next (w : UInt64) : Source.next.Gives [w] w := by
  intro src hsrc
  show (src.word src.drawn, src.skip 1) = _
  rw [← hsrc 0 w rfl]
  rfl

theorem le_zone {n : Nat} : n - 1 ≤ Source.zone n := by
  rw [Source.zone, Nat.shiftLeft_eq]
  exact Nat.sub_le_sub_right (Nat.le_mul_of_pos_right n (Nat.two_pow_pos _)) 1

/-- The least word that stands for an index is accepted. -/
theorem exists_accept? {n i : Nat} (hn : n ≤ UInt64.size) (hi : i < n) :
    ∃ w, Source.accept? n w = some i := by
  -- The least multiple of `n` from `i * 2 ^ 64` on is at most `n - 1` beyond it.
  have hpos : 0 < n := Nat.zero_lt_of_lt hi
  let k := (i * UInt64.size + (n - 1)) / n
  have hsplit : n * k + (i * UInt64.size + (n - 1)) % n = i * UInt64.size + (n - 1) :=
    Nat.div_add_mod _ _
  have hmod : (i * UInt64.size + (n - 1)) % n < n := Nat.mod_lt _ hpos
  have hk : k < UInt64.size := by
    rw [Nat.div_lt_iff_lt_mul hpos]
    calc i * UInt64.size + (n - 1) < i * UInt64.size + UInt64.size := by omega
      _ = (i + 1) * UInt64.size := by rw [Nat.succ_mul]
      _ ≤ n * UInt64.size := Nat.mul_le_mul_right _ hi
      _ = UInt64.size * n := Nat.mul_comm _ _
  obtain ⟨r, hr⟩ := Nat.exists_eq_add_of_le (show i * UInt64.size ≤ n * k by omega)
  have hrest : r ≤ n - 1 := by omega
  have hlt : r < UInt64.size := by omega
  have hproduct : (UInt64.ofNat k).toNat * n = UInt64.size * i + r := by
    rw [UInt64.toNat_ofNat_of_lt' hk, Nat.mul_comm, hr, Nat.mul_comm i]
  have hmod' : (UInt64.size * i + r) % UInt64.size = r := by
    rw [Nat.mul_add_mod, Nat.mod_eq_of_lt hlt]
  have hdiv : (UInt64.size * i + r) / UInt64.size = i := by
    rw [Nat.mul_add_div (by decide), Nat.div_eq_of_lt hlt, Nat.add_zero]
  refine ⟨UInt64.ofNat k, ?_⟩
  rw [Source.accept?, hproduct, hmod', hdiv, if_pos (hrest.trans le_zone)]

theorem exists_gives_index {n i : Nat} (hn : n ≤ UInt64.size) (hi : i < n) :
    ∃ w, (Source.index n).Gives [w] i := by
  obtain ⟨w, hw⟩ := exists_accept? hn hi
  refine ⟨w, ?_⟩
  have hpatience : Source.patience = Source.patience - 1 + 1 := rfl
  rw [Source.index, hpatience, Source.indexWithin]
  show Draw.Gives _ ([w] ++ []) i
  refine (gives_next w).bind ?_
  rw [hw]
  exact .pure i

/-- Each of at most as many items as there are words is chosen when some word comes next. -/
theorem exists_gives_chooseUniform {α : Type} {items : List α} (h : items.length ≤ UInt64.size)
    {x : α} (hx : x ∈ items) : ∃ w, (chooseUniform items).Gives [w] (some x) := by
  obtain ⟨i, hi, rfl⟩ := List.mem_iff_getElem.mp hx
  obtain ⟨w, hw⟩ := exists_gives_index h hi
  refine ⟨w, ?_⟩
  rw [chooseUniform, if_neg (by simpa using List.ne_nil_of_mem hx)]
  show Draw.Gives _ ([w] ++ []) _
  refine hw.bind ?_
  rw [List.getElem?_eq_getElem hi]
  exact .pure _

end Selection

end Colloquy
