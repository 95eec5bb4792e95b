import Concordance.Proofs.Json.Printer

/-!
# JSON text reads back

`read?` undoes `render` for the values that JSON text holds exactly (`Exact`): whole numbers that 64
bits hold, and nothing with a point, since reading rounds what has one. A value is read from its
text where it may stand: before a comma, before a closing bracket or at the end (`Delimited`). The
reader then leaves what follows, and takes at most two steps of fuel for each character
(`ReadsBack`).

* **`number?_int`**: a whole number of 64 bits, signed or unsigned, is read as itself.
* **`items?_partsText`**, **`members?_partsText`**: what stands between brackets is read part by
  part, when each part is.
* **`Exact.readsBack`**: every value that its text holds exactly is read back.
* **`read?_render`**: the text of such a value, alone, reads as the value.
-/

namespace Concordance.Json

/-- A value that its text holds exactly. -/
inductive Exact : Json → Prop where
  | null : Exact .null
  | bool (b : Bool) : Exact (.bool b)
  | int {n : Int} (h : (signed64? n).isSome ∨ (unsigned64? n).isSome) : Exact (.int n)
  | text (s : String) : Exact (.text s)
  | list {items : List Json} (h : ∀ j ∈ items, Exact j) : Exact (.list items)
  | object {members : List (String × Json)} (h : ∀ m ∈ members, Exact m.2) :
    Exact (.object members)

theorem Exact.writable {j : Json} (hj : Exact j) : j.writable = true := by
  induction hj with
  | null | bool _ | int _ | text _ => rfl
  | list _ ih => exact writableItems_iff.mpr ih
  | object _ ih => exact writableMembers_iff.mpr ih

/-! ## Whole numbers -/

section Numbers

open Decimal

variable {n : Nat} {rest : List Char}

theorem le_ofDigits (n : Nat) (ds : List Char) : n ≤ ofDigits n ds := by
  induction ds generalizing n with
  | nil => exact le_rfl
  | cons d ds ih =>
    have hnext : n ≤ 10 * n + (d.toNat - '0'.toNat) := by omega
    exact hnext.trans (ih _)

/-- All digits of a number that 64 bits hold are taken. -/
theorem takeFitting_of_lt {taken : Nat} {ds : List Char} (h : ofDigits n ds < UInt64.size) :
    takeFitting n taken ds = (ofDigits n ds, taken + ds.length) := by
  induction ds generalizing n taken with
  | nil => rfl
  | cons d ds ih =>
    have hnext : 10 * n + (d.toNat - '0'.toNat) < UInt64.size := (le_ofDigits _ ds).trans_lt h
    rw [takeFitting, if_pos hnext, ih h, List.length_cons]
    congr 1
    omega

/-- A positive number does not begin with a zero. -/
theorem head?_toDigits (hn : 0 < n) : (Nat.toDigits 10 n).head? ≠ some '0' := by
  induction n using Nat.strongRecOn with
  | ind n ih =>
    rw [Nat.toDigits_eq_if (by decide)]
    split
    · rename_i hdigit
      have hnonzero : ∀ d < 10, 0 < d → ([Nat.digitChar d].head? ≠ some '0') := by decide
      exact hnonzero n hdigit hn
    · rw [List.head?_append_of_ne_nil _ Nat.toDigits_ne_nil]
      exact ih (n / 10) (by omega) (by omega)

/-- Digits alone, or behind a minus sign, are a whole number if 64 bits hold it. -/
theorem value_digits (negative : Bool) (hn : n < UInt64.size)
    (hminus : negative = true → 0 < n ∧ (signed64? (-n)).isSome) :
    (NumberText.mk negative (Nat.toDigits 10 n) [] none false).value =
      .int (if negative then -n else n) := by
  have hfit : takeFitting 0 0 (Nat.toDigits 10 n) = (n, 0 + (Nat.toDigits 10 n).length) := by
    rw [takeFitting_of_lt (by rwa [ofDigits_toDigits]), ofDigits_toDigits]
  unfold NumberText.value
  dsimp only
  rw [hfit]
  dsimp only
  rw [if_pos]
  cases negative with
  | false => simp
  | true =>
    obtain ⟨hpos, hsome⟩ := hminus rfl
    simp [hpos, hsome]

/-- What may follow a value: nothing, a comma or a closing bracket. -/
def Delimited (rest : List Char) : Prop := ∀ c ∈ rest.head?, c = ',' ∨ c = ']' ∨ c = '\x7d'

theorem Delimited.not_isDigit (h : Delimited rest) : ∀ c ∈ rest.head?, c.isDigit = false := by
  intro c hc
  obtain rfl | rfl | rfl := h c hc <;> rfl

theorem Delimited.places? (h : Delimited rest) : places? rest = some (false, [], rest) := by
  cases rest with
  | nil => rfl
  | cons c rest => obtain rfl | rfl | rfl := h c rfl <;> rfl

theorem Delimited.exponentPart? (h : Delimited rest) : exponentPart? rest = some (none, rest) := by
  cases rest with
  | nil => rfl
  | cons c rest => obtain rfl | rfl | rfl := h c rfl <;> rfl

/-- A number ends where something else follows. -/
theorem number?_digits (negative : Bool) (hn : n < UInt64.size)
    (hminus : negative = true → 0 < n ∧ (signed64? (-n)).isSome) (hrest : Delimited rest) :
    number? (minus negative ++ (Nat.toDigits 10 n ++ rest)) =
      some (.int (if negative then -n else n), rest) := by
  -- a zero before another digit would be refused
  have hzero : ¬((Nat.toDigits 10 n).isEmpty = true ∨
      ((Nat.toDigits 10 n).head? = some '0' ∧ 1 < (Nat.toDigits 10 n).length)) := by
    rintro (hempty | ⟨hhead, hlength⟩)
    · exact Nat.toDigits_ne_nil (List.isEmpty_iff.mp hempty)
    · refine head?_toDigits (Nat.pos_of_ne_zero ?_) hhead
      rintro rfl
      exact absurd hlength (by decide)
  unfold number?
  split
  rename_i sign cs heq
  obtain ⟨rfl, rfl⟩ : sign = negative ∧ cs = Nat.toDigits 10 n ++ rest := by
    cases negative with
    | true =>
      injection heq with hsign hcs
      exact ⟨hsign.symm, hcs.symm⟩
    | false =>
      split at heq
      · rename_i hfirst
        have hdigit := isDigit_first (digits_toDigits n) Nat.toDigits_ne_nil hfirst
        exact absurd hdigit (by decide)
      · injection heq with hsign hcs
        exact ⟨hsign.symm, hcs.symm⟩
  rw [takeDigits_append (digits_toDigits n) hrest.not_isDigit]
  dsimp only
  rw [if_neg hzero, hrest.places?]
  dsimp only [Option.bind_eq_bind, Option.bind_some]
  rw [hrest.exponentPart?]
  dsimp only [Option.bind_some]
  rw [value_digits _ hn hminus]
  rfl

theorem isSome_signed64? {n : Int} :
    (signed64? n).isSome = true ↔ Int64.minValue.toInt ≤ n ∧ n ≤ Int64.maxValue.toInt := by
  unfold signed64?
  split <;> simp_all

theorem isSome_unsigned64? {n : Int} :
    (unsigned64? n).isSome = true ↔ 0 ≤ n ∧ n < UInt64.size := by
  unfold unsigned64?
  split <;> simp_all

/-- **A whole number of 64 bits is read as itself.** -/
theorem number?_int {n : Int} (h : (signed64? n).isSome ∨ (unsigned64? n).isSome)
    (hrest : Delimited rest) :
    number? ((toString n).toList ++ rest) = some (.int n, rest) := by
  rw [isSome_signed64?, isSome_unsigned64?] at h
  have hmin : Int64.minValue.toInt = -9223372036854775808 := by decide
  have hmax : Int64.maxValue.toInt = 9223372036854775807 := by decide
  have hsize : UInt64.size = 18446744073709551616 := by decide
  cases n with
  | ofNat m =>
    have htext : (toString (Int.ofNat m)).toList = Nat.toDigits 10 m := toList_toString m
    rw [htext]
    rw [Int.ofNat_eq_natCast] at h
    exact number?_digits false (by omega) (fun h => nomatch h) hrest
  | negSucc m =>
    have htext : (toString (Int.negSucc m)).toList = '-' :: Nat.toDigits 10 (m + 1) := by
      show ("-" ++ toString (m + 1)).toList = _
      rw [String.toList_append, toList_toString]
      rfl
    rw [htext]
    exact number?_digits true (by omega)
      (fun _ => ⟨m.succ_pos, isSome_signed64?.mpr (by omega)⟩) hrest

end Numbers

/-! ## One step of the reader -/

section Steps

variable {fuel : Nat} {c : Char} {cs rest : List Char}

/-- No space stands before a value. -/
theorem skipSpace_first (hc : Kind.ofFirst? c ≠ none) (cs : List Char) :
    skipSpace (c :: cs) = c :: cs := by
  unfold skipSpace
  refine List.dropWhile_cons_of_neg fun hspace => hc ?_
  simp only [Bool.or_eq_true, beq_iff_eq] at hspace
  obtain ((rfl | rfl) | rfl) | rfl := hspace <;> rfl

theorem value?_number (hc : isNumeric c = true) (cs : List Char) :
    value? (fuel + 1) (c :: cs) = number? (c :: cs) := by
  have hfirst : Kind.ofFirst? c ≠ none := by
    unfold Kind.ofFirst?
    rw [if_pos hc]
    exact Option.some_ne_none _
  rw [value?, skipSpace_first hfirst]
  split
  case h_7 => rfl
  all_goals
    rename_i heq
    injection heq with heq _
    exact absurd (heq ▸ hc) (by decide)

/-- A list with items is read item by item. -/
theorem value?_list (hc : Kind.ofFirst? c ≠ none) {items : List Json}
    (h : items? fuel (c :: cs) = some (items, rest)) :
    value? (fuel + 1) ('[' :: c :: cs) = some (.list items, rest) := by
  rw [value?, skipSpace_first (by decide)]
  simp only [skipSpace_first hc]
  split
  · rename_i heq
    injection heq with heq _
    exact absurd (heq ▸ hc) (by decide)
  · rw [h]
    rfl

/-- An object with members is read member by member. -/
theorem value?_object {members : List (Json × Json)}
    (h : members? fuel ('"' :: cs) = some (members, rest)) :
    value? (fuel + 1) ('\x7b' :: '"' :: cs) = some (ofMembers members, rest) := by
  show (members? fuel ('"' :: cs)).map (fun out => (ofMembers out.1, out.2)) = _
  rw [h]
  rfl

end Steps

/-! ## Values -/

/-- The value is read from its text, where it may stand, with fuel for all characters. -/
def ReadsBack (j : Json) : Prop :=
  ∀ {fuel : Nat} {rest : List Char}, 2 * j.render.toList.length < fuel → Delimited rest →
    value? fuel (j.render.toList ++ rest) = some (j, rest)

/-- The reader takes a first step. -/
theorem readsBack_of_step {j : Json}
    (h : ∀ (fuel : Nat) (rest : List Char), 2 * j.render.toList.length < fuel + 1 →
      Delimited rest → value? (fuel + 1) (j.render.toList ++ rest) = some (j, rest)) :
    j.ReadsBack := by
  intro fuel rest hfuel hrest
  cases fuel with
  | zero => exact absurd hfuel (Nat.not_lt_zero _)
  | succ fuel => exact h fuel rest hfuel hrest

theorem ofUnits_of_joinUnits? {us : List TextUnit} {s : String}
    (h : joinUnits? us = some s.toList) : ofUnits us = .text s := by
  unfold ofUnits
  rw [h]
  dsimp only
  rw [String.ofList_toList]

/-- Reading undoes writing item by item. -/
theorem mapM_map_eq_some {α β : Type} {read : β → Option α} {write : α → β} {xs : List α}
    (h : ∀ x ∈ xs, read (write x) = some x) : (xs.map write).mapM read = some xs := by
  induction xs with
  | nil => rfl
  | cons x xs ih =>
    obtain ⟨hx, hxs⟩ := List.forall_mem_cons.mp h
    rw [List.map_cons, List.mapM_cons, hx, ih hxs]
    rfl

theorem ofMembers_text (members : List (String × Json)) :
    ofMembers (members.map fun m => (.text m.1, m.2)) = .object members := by
  unfold ofMembers
  split
  · rename_i ms heq
    exact congrArg object (Option.some.inj (heq.symm.trans (mapM_map_eq_some fun _ _ => rfl)))
  · rename_i heq
    nomatch heq.symm.trans (mapM_map_eq_some fun _ _ => rfl)

section Fuel

variable {α : Type} {close : Char} {part : α → List Char} {x y : α} {xs : List α} {fuel : Nat}

/-- Fuel for all parts is fuel for the first, one step later. -/
theorem fuel_part (h : 2 * (partsText close part (x :: xs)).length < fuel + 1) :
    2 * (part x).length < fuel := by
  rw [partsText, List.length_append] at h
  have hclose : 0 < (tailText close part xs).length := by
    cases xs <;> exact Nat.succ_pos _
  omega

/-- And for the parts after the first. -/
theorem fuel_parts (h : 2 * (partsText close part (x :: y :: xs)).length < fuel + 1) :
    2 * (partsText close part (y :: xs)).length < fuel := by
  have hlength : (partsText close part (x :: y :: xs)).length =
      (part x).length + ((partsText close part (y :: xs)).length + 1) := List.length_append
  omega

end Fuel

/-- The text of an item is read as the item; the character behind it says whether it is the last. -/
theorem items?_item {j : Json} (hj : j.ReadsBack) {fuel : Nat}
    (hfuel : 2 * j.render.toList.length < fuel) {c : Char} (hc : c = ',' ∨ c = ']')
    (cs : List Char) :
    items? (fuel + 1) (j.render.toList ++ c :: cs) =
      if c = ',' then (items? fuel cs).map fun out => (j :: out.1, out.2)
      else some ([j], cs) := by
  have hvalue : value? fuel (j.render.toList ++ c :: cs) = some (j, c :: cs) := by
    refine hj hfuel fun d hd => ?_
    obtain rfl := Option.some.inj hd
    exact hc.imp_right .inl
  rw [items?, hvalue]
  obtain rfl | rfl := hc <;> rfl

/-- The texts of items are read as the items. -/
theorem items?_partsText {j : Json} {js : List Json} (hj : j.ReadsBack)
    (hjs : ∀ k ∈ js, k.ReadsBack) {fuel : Nat} {rest : List Char}
    (hfuel : 2 * (partsText ']' (fun j => j.render.toList) (j :: js)).length < fuel) :
    items? fuel (partsText ']' (fun j => j.render.toList) (j :: js) ++ rest) =
      some (j :: js, rest) := by
  induction js generalizing j fuel with
  | nil =>
    obtain ⟨fuel, rfl⟩ := Nat.exists_eq_add_one_of_ne_zero (Nat.ne_zero_of_lt hfuel)
    have hvalue := fuel_part hfuel
    have hlast := items?_item hj hvalue (.inr rfl) rest
    rw [if_neg (by decide)] at hlast
    rw [partsText, List.append_assoc]
    exact hlast
  | cons k js ih =>
    obtain ⟨fuel, rfl⟩ := Nat.exists_eq_add_one_of_ne_zero (Nat.ne_zero_of_lt hfuel)
    obtain ⟨hk, hjs⟩ := List.forall_mem_cons.mp hjs
    have hvalue := fuel_part hfuel
    have hnext := items?_item hj hvalue (.inl rfl)
      (partsText ']' (fun j => j.render.toList) (k :: js) ++ rest)
    rw [if_pos rfl, ih hk hjs (fuel_parts hfuel)] at hnext
    rw [partsText, List.append_assoc]
    exact hnext

/-- The text of a member is read as its name and its value; the character behind it says whether it
is the last. -/
theorem members?_memberText {m : String × Json} (hm : m.2.ReadsBack) {fuel : Nat}
    (hfuel : 2 * (memberText m).length < fuel) {c : Char} (hc : c = ',' ∨ c = '\x7d')
    (cs : List Char) :
    members? (fuel + 1) (memberText m ++ c :: cs) =
      if c = ',' then (members? fuel cs).map fun out => ((.text m.1, m.2) :: out.1, out.2)
      else some ([(.text m.1, m.2)], cs) := by
  obtain ⟨us, hus, hjoin⟩ := textUnits?_quoted m.1.toList (':' :: (m.2.render.toList ++ c :: cs))
  have htext : memberText m ++ c :: cs =
      '"' :: (m.1.toList.flatMap escaped ++ '"' :: ':' :: (m.2.render.toList ++ c :: cs)) := by
    rw [memberText, toList_quoted]
    simp
  have hcolon : ∀ cs, skipSpace (':' :: cs) = ':' :: cs := fun _ => rfl
  have hvalue : value? fuel (m.2.render.toList ++ c :: cs) = some (m.2, c :: cs) := by
    refine hm ?_ fun d hd => ?_
    · rw [memberText, List.length_append, List.length_cons] at hfuel
      omega
    · obtain rfl := Option.some.inj hd
      exact hc.imp_right .inr
  rw [htext, members?, skipSpace_first (by decide)]
  simp only [hus, hcolon, hvalue, ofUnits_of_joinUnits? hjoin]
  obtain rfl | rfl := hc <;> rfl

/-- The texts of members are read as the members. -/
theorem members?_partsText {m : String × Json} {ms : List (String × Json)} (hm : m.2.ReadsBack)
    (hms : ∀ n ∈ ms, n.2.ReadsBack) {fuel : Nat} {rest : List Char}
    (hfuel : 2 * (partsText '\x7d' memberText (m :: ms)).length < fuel) :
    members? fuel (partsText '\x7d' memberText (m :: ms) ++ rest) =
      some ((m :: ms).map fun m => (.text m.1, m.2), rest) := by
  induction ms generalizing m fuel with
  | nil =>
    obtain ⟨fuel, rfl⟩ := Nat.exists_eq_add_one_of_ne_zero (Nat.ne_zero_of_lt hfuel)
    have hlast := members?_memberText hm (fuel_part hfuel) (.inr rfl) rest
    rw [if_neg (by decide)] at hlast
    rw [partsText, List.append_assoc]
    exact hlast
  | cons n ms ih =>
    obtain ⟨fuel, rfl⟩ := Nat.exists_eq_add_one_of_ne_zero (Nat.ne_zero_of_lt hfuel)
    obtain ⟨hn, hms⟩ := List.forall_mem_cons.mp hms
    have hnext := members?_memberText hm (fuel_part hfuel) (.inl rfl)
      (partsText '\x7d' memberText (n :: ms) ++ rest)
    rw [if_pos rfl, ih hn hms (fuel_parts hfuel)] at hnext
    rw [partsText, List.append_assoc]
    exact hnext

theorem readsBack_list {items : List Json} (hitems : ∀ j ∈ items, j.ReadsBack)
    (hexact : ∀ j ∈ items, Exact j) : ReadsBack (.list items) := by
  refine readsBack_of_step fun fuel rest hfuel _ => ?_
  rw [toList_list, List.length_cons] at hfuel
  rw [toList_list]
  cases items with
  | nil => rfl
  | cons j js =>
    obtain ⟨hj, hjs⟩ := List.forall_mem_cons.mp hitems
    have hread : items? fuel (partsText ']' (fun j => j.render.toList) (j :: js) ++ rest) =
        some (j :: js, rest) := items?_partsText hj hjs (by omega)
    -- no value begins with the closing bracket, so the list is not taken for the empty one
    obtain ⟨c, cs, hc, hkind⟩ := exists_first (hexact j List.mem_cons_self).writable
    have htext : partsText ']' (fun j => j.render.toList) (j :: js) ++ rest =
        c :: (cs ++ tailText ']' (fun j => j.render.toList) js ++ rest) := by
      rw [partsText, hc]
      rfl
    rw [htext] at hread
    rw [List.cons_append, htext]
    exact value?_list (by rw [hkind]; exact Option.some_ne_none _) hread

theorem readsBack_object {members : List (String × Json)}
    (hmembers : ∀ m ∈ members, m.2.ReadsBack) : ReadsBack (.object members) := by
  refine readsBack_of_step fun fuel rest hfuel _ => ?_
  rw [toList_object, List.length_cons] at hfuel
  rw [toList_object]
  cases members with
  | nil => rfl
  | cons m ms =>
    obtain ⟨hm, hms⟩ := List.forall_mem_cons.mp hmembers
    have hread : members? fuel (partsText '\x7d' memberText (m :: ms) ++ rest) =
        some ((m :: ms).map fun m => (.text m.1, m.2), rest) :=
      members?_partsText hm hms (by omega)
    obtain ⟨cs, htext⟩ : ∃ cs, partsText '\x7d' memberText (m :: ms) ++ rest = '"' :: cs := by
      rw [partsText, memberText, toList_quoted]
      exact ⟨_, rfl⟩
    rw [htext] at hread
    rw [List.cons_append, htext, ← ofMembers_text]
    exact value?_object hread

theorem readsBack_int {n : Int} (h : (signed64? n).isSome ∨ (unsigned64? n).isSome) :
    ReadsBack (.int n) := by
  refine readsBack_of_step fun fuel rest _ hrest => ?_
  have htext : (render (.int n)).toList = (toString n).toList := rfl
  have hread := number?_int h hrest
  have hnumeric := isNumeric_int n
  have hne : (toString n).toList ≠ [] := by
    obtain ⟨ds, -, hne, hds | hds⟩ := toList_int n
    · rwa [hds]
    · rw [hds]
      exact List.cons_ne_nil _ _
  obtain ⟨c, cs, hc⟩ := List.exists_cons_of_ne_nil hne
  rw [htext]
  rw [hc] at hread hnumeric ⊢
  exact (value?_number (hnumeric c List.mem_cons_self) _).trans hread

theorem readsBack_text (s : String) : ReadsBack (.text s) := by
  refine readsBack_of_step fun fuel rest _ _ => ?_
  obtain ⟨us, hus, hjoin⟩ := textUnits?_quoted s.toList rest
  have htext : (render (.text s)).toList ++ rest =
      '"' :: (s.toList.flatMap escaped ++ '"' :: rest) := by
    show (quoted s).toList ++ rest = _
    rw [toList_quoted, List.cons_append, List.append_assoc]
    rfl
  rw [htext]
  show (textUnits? (s.toList.flatMap escaped ++ '"' :: rest)).map
    (fun out => (ofUnits out.1, out.2)) = _
  rw [hus, ← ofUnits_of_joinUnits? hjoin]
  rfl

/-- **Every value that its text holds exactly is read back.** -/
theorem Exact.readsBack {j : Json} (hj : Exact j) : j.ReadsBack := by
  induction hj with
  | null => exact readsBack_of_step fun _ _ _ _ => rfl
  | bool b => exact readsBack_of_step fun _ _ _ _ => by cases b <;> rfl
  | int h => exact readsBack_int h
  | text s => exact readsBack_text s
  | list hexact ih => exact readsBack_list ih hexact
  | object _ ih => exact readsBack_object ih

/-- **The text of a value reads as the value.** -/
theorem read?_render {j : Json} (hj : Exact j) : read? j.render = some j := by
  have hend : Delimited [] := fun _ h => nomatch h
  have hread : value? (2 * j.render.toList.length + 2) (j.render.toList ++ []) = some (j, []) :=
    hj.readsBack (by omega) hend
  rw [List.append_nil] at hread
  unfold read?
  dsimp only
  rw [hread]
  rfl

end Concordance.Json
