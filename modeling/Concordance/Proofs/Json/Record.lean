import Concordance.Json.Record
import Concordance.Proofs.Date
import Concordance.Proofs.Json.Reader

/-!
# Records come back from their text

What is encoded decodes to itself, unless a floating point number is in it: reading rounds those,
and one that is not finite is written as null. The proof goes through JSON: the forms of values and
records are read back as values and records, part by part, and their texts are read back as the
forms, since these hold no numbers but 64-bit integers.

* **`Value.ofJson?_toJson`**, **`Record.ofJson?_toJson`**: the form of a value or record is read as
  itself.
* **`lossless_of_floatless`**: records and values without floating point numbers decode to
  themselves, and to nothing that would be encoded otherwise.
-/

namespace Concordance

/-! ## Integers of 64 bits -/

theorem signed64?_toInt (i : Int64) : signed64? i.toInt = some i := by
  unfold signed64?
  rw [if_pos ⟨i.minValue_le_toInt, i.toInt_le⟩, Int64.ofInt_toInt]

theorem unsigned64?_toNat (n : UInt64) : unsigned64? n.toNat = some n := by
  have hsize : (n.toNat : Int) < UInt64.size := Int.ofNat_lt.mpr n.toNat_lt_size
  unfold unsigned64?
  rw [if_pos ⟨Int.natCast_nonneg _, hsize⟩, Int.toNat_natCast, UInt64.ofNat_toNat]

/-! ## Values -/

namespace Value

variable {v : Value}

/-- **The form of a value is read as the value.** -/
theorem ofJson?_toJson (hv : ∀ x, v ≠ .float x) : ofJson? v.toJson = some v := by
  cases v with
  | null => rfl
  | bool b => rfl
  | int i =>
    show (signed64? i.toInt).map int = _
    rw [signed64?_toInt, Option.map_some]
  | float x => exact absurd rfl (hv x)
  | text s => rfl
  | date d =>
    show (Date.read? d.text).map date = _
    rw [Date.read?_text, Option.map_some]

theorem exact_toJson (hv : ∀ x, v ≠ .float x) : v.toJson.Exact := by
  have hmember : ∀ {name : String} {j : Json}, j.Exact → (Json.object [(name, j)]).Exact :=
    fun hj => .object fun m hm => List.mem_singleton.mp hm ▸ hj
  cases v with
  | null => exact .text _
  | bool b => exact hmember (.bool b)
  | int i => exact hmember (.int (.inl (Option.isSome_of_eq_some (signed64?_toInt i))))
  | float x => exact absurd rfl (hv x)
  | text s => exact hmember (.text s)
  | date d => exact hmember (.text d.text)

end Value

/-! ## Keys and tables -/

theorem Key.ofJson?_toJson (pk : Key) : Key.ofJson? (Key.toJson pk) = some pk :=
  unsigned64?_toNat pk

theorem Key.exact_toJson (pk : Key) : (Key.toJson pk).Exact :=
  .int (.inr (Option.isSome_of_eq_some (unsigned64?_toNat pk)))

theorem Key.listOfJson?_map (pks : List Key) :
    Key.listOfJson? (.list (pks.map Key.toJson)) = some pks :=
  Json.mapM_map_eq_some fun pk _ => Key.ofJson?_toJson pk

namespace Record

section Tables

variable {α : Type} {read : Json → Option α} {write : α → Json} {m : SortedMap String α}

/-- A table is read back when what it holds is. -/
theorem tableOfJson?_map (h : ∀ e ∈ m.toList, read (write e.2) = some e.2) :
    tableOfJson? read (.object (m.map write).toList) = some m := by
  have hmembers : ((m.map write).toList.mapM fun e => (read e.2).map fun x => (e.1, x)) =
      some m.toList := by
    refine Json.mapM_map_eq_some fun e he => ?_
    rw [h e he, Option.map_some]
  unfold tableOfJson?
  dsimp only
  rw [hmembers, Option.map_some, SortedMap.ofList_toList]

theorem exact_table (h : ∀ e ∈ m.toList, (write e.2).Exact) :
    (Json.object (m.map write).toList).Exact := by
  refine .object fun e he => ?_
  obtain ⟨entry, hentry, rfl⟩ := List.mem_map.mp he
  exact h entry hentry

end Tables

/-! ## Records -/

variable {r : Record}

/-- Without floating point values, no entry is one. -/
theorem floatless_entries (hr : ∀ field x, r.value? field ≠ some (.float x)) :
    ∀ e ∈ r.values.toList, ∀ x, e.2 ≠ .float x :=
  fun e he x hx => hr e.1 x (SortedMap.get?_eq_some_iff.mpr (hx ▸ he))

/-- **The form of a record is read as the record.** -/
theorem ofJson?_toJson (hr : ∀ field x, r.value? field ≠ some (.float x)) :
    ofJson? r.toJson = some r := by
  have hvalues := tableOfJson?_map fun e he => Value.ofJson?_toJson (floatless_entries hr e he)
  have hrelations : tableOfJson? Key.listOfJson?
      (.object (r.relations.map fun pks => .list (pks.map Key.toJson)).toList) = some r.relations :=
    tableOfJson?_map fun e _ => Key.listOfJson?_map e.2
  show ofParts? (.text r.model) (Key.toJson r.pk) _ _ = some r
  unfold ofParts?
  dsimp only
  rw [Key.ofJson?_toJson, hvalues, hrelations]
  rfl

theorem exact_toJson (hr : ∀ field x, r.value? field ≠ some (.float x)) : r.toJson.Exact := by
  have hvalues := exact_table fun e he => Value.exact_toJson (floatless_entries hr e he)
  have hrelations : (Json.object
      (r.relations.map fun pks => .list (pks.map Key.toJson)).toList).Exact := by
    refine exact_table fun e _ => .list fun j hj => ?_
    obtain ⟨pk, -, rfl⟩ := List.mem_map.mp hj
    exact Key.exact_toJson pk
  refine .object fun m hm => ?_
  simp only [List.mem_cons, List.not_mem_nil, or_false] at hm
  obtain rfl | rfl | rfl | rfl := hm
  · exact .text _
  · exact Key.exact_toJson _
  · exact hvalues
  · exact hrelations

end Record

/-! ## Texts -/

theorem Value.decode?_encode {v : Value} (hv : ∀ x, v ≠ .float x) :
    Value.decode? v.encode = some v := by
  unfold decode? encode
  rw [Json.read?_render (exact_toJson hv), Option.bind_some, ofJson?_toJson hv]

theorem Record.decode?_encode {r : Record} (hr : ∀ field x, r.value? field ≠ some (.float x)) :
    Record.decode? r.encode = some r := by
  unfold decode? encode
  rw [Json.read?_render (exact_toJson hr), Option.bind_some, ofJson?_toJson hr]

/-- **What holds no floating point number comes back from its text**, and what comes back has the
same text: every record none of whose values is one, and every other single value. -/
theorem lossless_of_floatless :
    (∀ r : Record, (∀ field x, r.value? field ≠ some (.float x)) →
      Record.decode? r.encode = some r ∧
        (Record.decode? r.encode).map Record.encode = some r.encode) ∧
    ∀ v : Value, (∀ x, v ≠ .float x) →
      Value.decode? v.encode = some v ∧
        (Value.decode? v.encode).map Value.encode = some v.encode := by
  refine ⟨fun r hr => ⟨Record.decode?_encode hr, ?_⟩, fun v hv => ⟨Value.decode?_encode hv, ?_⟩⟩
  · rw [Record.decode?_encode hr, Option.map_some]
  · rw [Value.decode?_encode hv, Option.map_some]

/-- A record with a year below 0 and one above 9999, the bounds of 64-bit numbers and names that
JSON escapes. -/
def shelfmark : Record where
  model := "Codex \"B\""
  pk := 18446744073709551615
  values := SortedMap.ofList [
    ("", .null),
    ("back\\slash", .int (-9223372036854775808)),
    ("due", .date ⟨10191, 2, 3, by decide⟩),
    ("lent", .bool true),
    ("tab\t", .text "\n\x01é"),
    ("written", .date ⟨-43, 12, 7, by decide⟩)]
  relations := SortedMap.ofList [("copies", []), ("owners", [0, 18446744073709551615])]

theorem lossless_of_floatless_shelfmark :
    (∀ field x, shelfmark.value? field ≠ some (.float x)) ∧
    shelfmark.encode =
      "\x7b\"model\":\"Codex \\\"B\\\"\",\"pk\":18446744073709551615," ++
        "\"values\":\x7b\"\":\"Null\",\"back\\\\slash\":\x7b\"Int\":-9223372036854775808\x7d," ++
        "\"due\":\x7b\"Date\":\"+10191-02-03\"\x7d,\"lent\":\x7b\"Bool\":true\x7d," ++
        "\"tab\\t\":\x7b\"String\":\"\\n\\u0001é\"\x7d," ++
        "\"written\":\x7b\"Date\":\"-0043-12-07\"\x7d\x7d," ++
        "\"relations\":\x7b\"copies\":[],\"owners\":[0,18446744073709551615]\x7d\x7d" ∧
    Record.decode? shelfmark.encode = some shelfmark ∧
    (Record.decode? shelfmark.encode).map Record.encode = some shelfmark.encode ∧
    (∀ x, Value.date ⟨-43, 12, 7, by decide⟩ ≠ .float x) ∧
    Value.decode? (Value.date ⟨-43, 12, 7, by decide⟩).encode =
      some (.date ⟨-43, 12, 7, by decide⟩) := by
  have hentries : ∀ e ∈ shelfmark.values.toList, e.2.typeName ≠ "Float" := by decide +kernel
  have hrecord : ∀ field x, shelfmark.value? field ≠ some (.float x) := fun field x h =>
    hentries (field, .float x) (SortedMap.get?_eq_some_iff.mp h) rfl
  have hdate : ∀ x, Value.date ⟨-43, 12, 7, by decide⟩ ≠ .float x := fun _ h => nomatch h
  obtain ⟨hback, hagain⟩ := lossless_of_floatless.1 shelfmark hrecord
  exact ⟨hrecord, by decide +kernel, hback, hagain, hdate, (lossless_of_floatless.2 _ hdate).1⟩

end Concordance
