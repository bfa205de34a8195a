import Colloquy.Proofs.Json.RoundTrip
import Colloquy.Proofs.SortedMap
import Colloquy.Session.Snapshot

/-!
# Snapshots as documents

A snapshot is read back from its document, whatever its texts hold (`Snapshot.parse?_render`): the
document has a written form (`Snapshot.printable_toJson`), and its record gives back every field
(`Snapshot.ofJson?_toJson`).
-/

namespace Colloquy

namespace Json

variable {α : Type}

theorem list?_map {read? : Json → Option α} {write : α → Json} {as : List α}
    (h : ∀ a ∈ as, read? (write a) = some a) : list? read? (.array (as.map write)) = some as := by
  show (as.map write).mapM read? = some as
  induction as with
  | nil => rfl
  | cons a as ih =>
    rw [List.map_cons, List.mapM_cons, h a List.mem_cons_self,
      ih fun b hb => h b (List.mem_cons_of_mem _ hb)]
    rfl

theorem members_map {read? : Json → Option α} {write : α → Json}
    (h : ∀ a, read? (write a) = some a) (as : List (String × α)) :
    members read? (.object (as.map fun m => (some m.1, write m.2))) = some as := by
  show List.mapM _ _ = some as
  induction as with
  | nil => rfl
  | cons a as ih =>
    rw [List.map_cons, List.mapM_cons, ih]
    show ((read? (write a.2)).bind _).bind _ = _
    rw [h]
    rfl

theorem nat?_ofNat {bound n : Nat} (h : n < bound) :
    nat? bound (.number (.ofNat n)) = some n := by
  rw [nat?, Numeral.toNat?_ofNat, Option.filter_some, if_pos (decide_eq_true h)]

end Json

namespace Snapshot

open Json (Printable)

/-! ### The written form -/

theorem printable_settingToJson (s : GateSetting) : Printable (settingToJson s) := by
  refine .array fun item hitem => ?_
  rcases List.mem_cons.mp hitem with rfl | hitem
  · exact .text s.name
  · obtain rfl := List.mem_singleton.mp hitem
    cases s.value with
    | none => exact .null
    | some value => exact .text value

theorem printable_entryToJson (e : GateEntry) : Printable (entryToJson e) := by
  have hconfig : Printable (.array (e.config.map settingToJson)) :=
    .array fun item hitem => by
      obtain ⟨s, -, rfl⟩ := List.mem_map.mp hitem
      exact printable_settingToJson s
  refine .object ?_ ?_
  · simp
  · simpa using ⟨.text e.target, hconfig, .number (Numeral.proper_ofNat e.count)⟩

theorem printable_toJson (snap : Snapshot) : Printable snap.toJson := by
  have hvars : Printable
      (.object (snap.vars.entries.map fun e => (some e.1, .text e.2))) := by
    refine .object (fun m hm => ?_) fun m hm => ?_
    all_goals obtain ⟨e, -, rfl⟩ := List.mem_map.mp hm
    · rfl
    · exact .text e.2
  have hgates : Printable (.array (snap.gates.map entryToJson)) :=
    .array fun item hitem => by
      obtain ⟨e, -, rfl⟩ := List.mem_map.mp hitem
      exact printable_entryToJson e
  refine .object ?_ ?_
  · simp
  · simpa using ⟨.text snap.state, .text snap.speaker.describe, hvars, hgates⟩

/-! ### Reading the record -/

theorem settingOfJson?_settingToJson (s : GateSetting) :
    settingOfJson? (settingToJson s) = some s := by
  obtain ⟨name, _ | value⟩ := s <;> rfl

theorem entryOfJson?_entryToJson {e : GateEntry} (h : e.count < UInt32.size) :
    entryOfJson? (entryToJson e) = some e := by
  have hconfig : Json.list? settingOfJson? (.array (e.config.map settingToJson)) =
      some e.config :=
    Json.list?_map fun s _ => settingOfJson?_settingToJson s
  have hcount := Json.nat?_ofNat h
  show (Json.list? settingOfJson? (.array (e.config.map settingToJson))).bind (fun config =>
    (Json.nat? UInt32.size (.number (.ofNat e.count))).bind fun count =>
      some (GateEntry.mk e.target config count)) = _
  rw [hconfig, hcount]
  rfl

theorem speaker_describe (s : Speaker) :
    Json.choice? Speaker.ofName? (.text s.describe) = some s := by
  cases s <;> rfl

theorem ofJson?_toJson {snap : Snapshot} (h : ∀ e ∈ snap.gates, e.count < UInt32.size) :
    ofJson? snap.toJson = some snap := by
  have hspeaker := speaker_describe snap.speaker
  have hvars : Json.members Json.text?
      (.object (snap.vars.entries.map fun e => (some e.1, .text e.2))) =
        some snap.vars.entries :=
    Json.members_map (fun s => (rfl : Json.text? (.text s) = some s)) snap.vars.entries
  have hgates := Json.list?_map fun e he => entryOfJson?_entryToJson (h e he)
  -- The four fields are found by their names; what remains is to read each of them.
  show (Json.choice? Speaker.ofName? (.text snap.speaker.describe)).bind (fun speaker =>
    ((Json.members Json.text? (.object (snap.vars.entries.map fun e =>
      (some e.1, .text e.2)))).map SortedMap.ofList).bind fun vars =>
        (Json.list? entryOfJson? (.array (snap.gates.map entryToJson))).bind fun gates =>
          some (Snapshot.mk snap.state speaker vars gates)) = _
  rw [hspeaker, hvars, hgates]
  show some (Snapshot.mk _ _ (SortedMap.ofList snap.vars.entries) _) = _
  rw [SortedMap.ofList_entries]

/-! ### The document -/

/-- A snapshot is read back from its document.  Its counts are below the bound of the format; its
texts are any at all. -/
theorem parse?_render (snap : Snapshot) (h : ∀ e ∈ snap.gates, e.count < UInt32.size) :
    parse? snap.render = some snap := by
  rw [parse?, render, (printable_toJson snap).parse?_eq]
  exact ofJson?_toJson h

/-- A snapshot whose texts need every kind of escape, with a variable that was not bound and the
greatest count. -/
def awkward : Snapshot :=
  { state := "a:\"b\"\\\n\t\x01"
    speaker := .user
    vars := .ofList [("", "\x08\x0c\r/"), ("naïve", "\x7f 𝄞")]
    gates := [⟨"a", [⟨"x", none⟩, ⟨"\"", some "\x1f"⟩], 4294967295⟩, ⟨"", [], 0⟩] }

theorem parse?_render_awkward :
    (∀ e ∈ awkward.gates, e.count < UInt32.size) ∧ parse? awkward.render = some awkward := by
  have hcounts : ∀ e ∈ awkward.gates, e.count < UInt32.size := by decide
  exact ⟨hcounts, parse?_render awkward hcounts⟩

end Snapshot

end Colloquy
