import Concordance.Json.Printer
import Concordance.Json.Reader
import Concordance.Proofs.Decimal.Notation
import Concordance.Proofs.SortedMap

/-!
# JSON text says one value

Two values with one text are equal, if JSON text can say them at all: `render` writes `null` for
what is not finite or unreadable (`Json.writable`). The text of a value can be told from what
follows it: a number ends before the first character that no number holds, a text before its closing
quote, a list and an object with their closing bracket.

* Reading the characters of a text undoes the escapes (`textUnits?_escaped`), so quoted texts are
  told apart.
* Texts of whole numbers have neither a point nor an exponent, and texts of floating point numbers
  have one of both.
* **`toldApart`**: texts of values with something behind them that no number holds.
* **`render_inj`**: values with one text are equal.
-/

namespace Concordance.Json

/-! ## What JSON text can say -/

mutual

/-- Whether JSON text can say the value: all numbers are finite, and nothing is unreadable. -/
def writable : Json → Bool
  | unreadable => false
  | float x => x.isFinite
  | list items => writableItems items
  | object members => writableMembers members
  | null | bool _ | int _ | text _ => true

/-- Whether JSON text can say each item. -/
def writableItems : List Json → Bool
  | [] => true
  | j :: js => j.writable && writableItems js

/-- Whether JSON text can say each member. -/
def writableMembers : List (String × Json) → Bool
  | [] => true
  | (_, j) :: ms => j.writable && writableMembers ms

end

theorem writableItems_iff {js : List Json} :
    writableItems js = true ↔ ∀ j ∈ js, j.writable = true := by
  induction js with
  | nil => simp [writableItems]
  | cons j js ih => rw [writableItems, Bool.and_eq_true, ih, List.forall_mem_cons]

theorem writableMembers_iff {ms : List (String × Json)} :
    writableMembers ms = true ↔ ∀ m ∈ ms, m.2.writable = true := by
  induction ms with
  | nil => simp [writableMembers]
  | cons m ms ih => rw [writableMembers, Bool.and_eq_true, ih, List.forall_mem_cons]

mutual

/-- Members can be put in order without loss. -/
theorem writable_canonical : ∀ j : Json, j.writable = true → j.canonical.writable = true
  | .list items, h => writableItems_canonical items h
  | .object members, h => writableMembers_iff.mpr fun m hm =>
    writableMembers_iff.mp (writableMembers_canonical members h) m (SortedMap.mem_of_mem_ofList hm)
  | .null, h | .bool _, h | .int _, h | .float _, h | .text _, h | .unreadable, h => h

theorem writableItems_canonical : ∀ js : List Json, writableItems js = true →
    writableItems (canonicalItems js) = true
  | [], h => h
  | j :: js, h => by
    rw [writableItems, Bool.and_eq_true] at h
    rw [canonicalItems, writableItems, Bool.and_eq_true]
    exact ⟨writable_canonical j h.1, writableItems_canonical js h.2⟩

theorem writableMembers_canonical : ∀ ms : List (String × Json), writableMembers ms = true →
    writableMembers (canonicalMembers ms) = true
  | [], h => h
  | (k, j) :: ms, h => by
    rw [writableMembers, Bool.and_eq_true] at h
    rw [canonicalMembers, writableMembers, Bool.and_eq_true]
    exact ⟨writable_canonical j h.1, writableMembers_canonical ms h.2⟩

end

/-! ## Texts -/

theorem ofHex?_control : ∀ n < 32,
    ofHex? ['0', '0', hexDigit (n / 16), hexDigit (n % 16)] = some n := by decide

/-- A character after a backslash is read as what the two stand for. -/
theorem textUnits?_short {c d : Char} (hd : shortEscape? c = some d) (hu : c ≠ 'u')
    (cs : List Char) :
    textUnits? ('\\' :: c :: cs) = (textUnits? cs).map fun out => (.char d :: out.1, out.2) := by
  rw [textUnits?.eq_4 c cs fun _ _ _ _ _ h => absurd h hu, hd]
  cases textUnits? cs <;> rfl

/-- **Reading undoes the escape of a character.** -/
theorem textUnits?_escaped (c : Char) (cs : List Char) :
    ∃ u, textUnits? (escaped c ++ cs) = (textUnits? cs).map (fun out => (u :: out.1, out.2)) ∧
      ∀ us, joinUnits? (u :: us) = (joinUnits? us).map (c :: ·) := by
  unfold escaped
  split
  · exact ⟨_, textUnits?_short rfl (by decide) cs, fun _ => rfl⟩
  · exact ⟨_, textUnits?_short rfl (by decide) cs, fun _ => rfl⟩
  · exact ⟨_, textUnits?_short rfl (by decide) cs, fun _ => rfl⟩
  · exact ⟨_, textUnits?_short rfl (by decide) cs, fun _ => rfl⟩
  · exact ⟨_, textUnits?_short rfl (by decide) cs, fun _ => rfl⟩
  · exact ⟨_, textUnits?_short rfl (by decide) cs, fun _ => rfl⟩
  · exact ⟨_, textUnits?_short rfl (by decide) cs, fun _ => rfl⟩
  · rename_i hquote hbackslash _ _ _ _ _
    split
    · rename_i hcontrol
      refine ⟨.unit c.toNat, ?_, fun us => ?_⟩
      · show textUnits? ('\\' :: 'u' :: '0' :: '0' :: _ :: _ :: cs) = _
        rw [textUnits?.eq_3, ofHex?_control c.toNat hcontrol]
        cases textUnits? cs <;> rfl
      · rw [joinUnits?.eq_def]
        dsimp only
        rw [if_pos (Or.inl (by omega)), Char.ofNat_toNat]
        rfl
    · rename_i hplain
      refine ⟨.char c, ?_, fun _ => rfl⟩
      show textUnits? (c :: cs) = _
      rw [textUnits?.eq_5 c cs hquote (fun _ _ _ _ _ h => absurd h hbackslash)
        (fun _ _ h => absurd h hbackslash), if_neg fun h => h.elim hplain hbackslash]
      cases textUnits? cs <;> rfl

/-- **A quoted text is read as the text, up to its closing quote.** -/
theorem textUnits?_quoted (cs rest : List Char) :
    ∃ us, textUnits? (cs.flatMap escaped ++ '"' :: rest) = some (us, rest) ∧
      joinUnits? us = some cs := by
  induction cs with
  | nil => exact ⟨[], by rw [List.flatMap_nil, List.nil_append, textUnits?.eq_2], rfl⟩
  | cons c cs ih =>
    obtain ⟨us, hus, hjoin⟩ := ih
    obtain ⟨u, hu, hc⟩ := textUnits?_escaped c (cs.flatMap escaped ++ '"' :: rest)
    refine ⟨u :: us, ?_, ?_⟩
    · rw [List.flatMap_cons, List.append_assoc, hu, hus]
      rfl
    · rw [hc, hjoin]
      rfl

theorem toList_quoted (s : String) :
    (quoted s).toList = '"' :: (s.toList.flatMap escaped ++ ['"']) := by
  unfold quoted
  simp

/-- Quoted texts are told apart, whatever follows them. -/
theorem quoted_append_inj {s s' : String} {rest rest' : List Char}
    (h : (quoted s).toList ++ rest = (quoted s').toList ++ rest') : s = s' ∧ rest = rest' := by
  rw [toList_quoted, toList_quoted, List.cons_append, List.cons_append, List.append_assoc,
    List.append_assoc] at h
  injection h with _ h
  obtain ⟨us, hus, hjoin⟩ := textUnits?_quoted s.toList rest
  obtain ⟨us', hus', hjoin'⟩ := textUnits?_quoted s'.toList rest'
  obtain ⟨rfl, rfl⟩ : us = us' ∧ rest = rest' := by
    have heq := hus.symm.trans ((congrArg textUnits? h).trans hus')
    injection heq with heq
    injection heq with hunits hrest
    exact ⟨hunits, hrest⟩
  exact ⟨String.toList_inj.mp (Option.some.inj (hjoin.symm.trans hjoin')), rfl⟩

/-! ## Numbers -/

/-- Whether a number may hold the character. -/
def isNumeric (c : Char) : Bool := c.isDigit || c == '-' || c == '.' || c == 'e'

/-- What follows cannot be part of a number. -/
def Stops (rest : List Char) : Prop := ∀ c ∈ rest.head?, isNumeric c = false

/-- Numbers are told apart, whatever stops them. -/
theorem numeric_append_inj {cs cs' rest rest' : List Char} (hcs : ∀ c ∈ cs, isNumeric c = true)
    (hcs' : ∀ c ∈ cs', isNumeric c = true) (hrest : Stops rest) (hrest' : Stops rest')
    (h : cs ++ rest = cs' ++ rest') : cs = cs' ∧ rest = rest' := by
  have hspan := Decimal.span_append hcs hrest
  rw [h, Decimal.span_append hcs' hrest'] at hspan
  injection hspan with htext hstop
  exact ⟨htext.symm, hstop.symm⟩

theorem isNumeric_of_isDigit {c : Char} (h : c.isDigit = true) : isNumeric c = true := by
  unfold isNumeric
  rw [h]
  rfl

open Decimal in
/-- The text of a whole number: digits, perhaps after a minus sign. -/
theorem toList_int (n : Int) : ∃ ds, Digits ds ∧ ds ≠ [] ∧
    ((toString n).toList = ds ∨ (toString n).toList = '-' :: ds) := by
  obtain ⟨ds, hds, hne, ⟨htext, -⟩ | ⟨htext, -⟩⟩ := toList_toString_int n
  · exact ⟨ds, hds, hne, Or.inl htext⟩
  · exact ⟨ds, hds, hne, Or.inr htext⟩

theorem isNumeric_int (n : Int) : ∀ c ∈ (toString n).toList, isNumeric c = true := by
  obtain ⟨ds, hds, -, htext | htext⟩ := toList_int n
  · rw [htext]
    exact fun c hc => isNumeric_of_isDigit (hds c hc)
  · rw [htext]
    exact List.forall_mem_cons.mpr ⟨rfl, fun c hc => isNumeric_of_isDigit (hds c hc)⟩

/-- Whole numbers with one text are equal. -/
theorem toString_int_inj {n m : Int} (h : (toString n).toList = (toString m).toList) : n = m := by
  have hn : Decimal.exponent? ('e' :: (toString n).toList) = some n :=
    Decimal.exponent?_spell (some n)
  have hm : Decimal.exponent? ('e' :: (toString m).toList) = some m :=
    Decimal.exponent?_spell (some m)
  rw [h, hm] at hn
  exact (Option.some.inj hn).symm

open Decimal in
/-- The text of a floating point number is numeric, and has a point or an exponent. -/
theorem toList_float {x : Float} (hx : x.isFinite = true) :
    (∀ c ∈ (floatText x).toList, isNumeric c = true) ∧
      ('.' ∈ (floatText x).toList ∨ 'e' ∈ (floatText x).toList) := by
  obtain ⟨negative, m, e, near, hbinary, -⟩ := exists_ofFloat hx
  obtain ⟨y, htext, -, hmark⟩ := exists_text Style.exchange negative m e near
  unfold floatText
  rw [if_pos hx, hbinary, htext]
  obtain ⟨whole, places, exponent, hwhole, _, hplaces⟩ := y
  unfold Spelling.toList
  dsimp only at hmark ⊢
  have hminus : ∀ c ∈ minus negative, isNumeric c = true := by
    cases negative with
    | true => exact List.forall_mem_cons.mpr ⟨rfl, fun _ h => (nomatch h)⟩
    | false => exact fun _ h => (nomatch h)
  have hpoint : ∀ c ∈ spellPlaces places, isNumeric c = true := by
    cases places with
    | none => exact fun _ h => (nomatch h)
    | some ds =>
      exact List.forall_mem_cons.mpr ⟨rfl, fun c hc => isNumeric_of_isDigit (hplaces c hc)⟩
  have hexponent : ∀ c ∈ spellExponent exponent, isNumeric c = true := by
    cases exponent with
    | none => exact fun _ h => (nomatch h)
    | some e => exact List.forall_mem_cons.mpr ⟨rfl, isNumeric_int e⟩
  refine ⟨?_, ?_⟩
  · simp only [List.forall_mem_append]
    exact ⟨hminus, fun c hc => isNumeric_of_isDigit (hwhole c hc), hpoint, hexponent⟩
  · simp only [List.mem_append]
    obtain hsome | hsome := hmark rfl
    · obtain ⟨ds, rfl⟩ := Option.isSome_iff_exists.mp hsome
      exact Or.inl (Or.inr (Or.inr (Or.inl List.mem_cons_self)))
    · obtain ⟨e, rfl⟩ := Option.isSome_iff_exists.mp hsome
      exact Or.inr (Or.inr (Or.inr (Or.inr List.mem_cons_self)))

/-- No whole number has the text of a floating point number. -/
theorem int_ne_float {x : Float} (hx : x.isFinite = true) (n : Int) :
    (toString n).toList ≠ (floatText x).toList := by
  intro h
  obtain ⟨-, hmark⟩ := toList_float hx
  rw [← h] at hmark
  have hnone : ∀ ds, Decimal.Digits ds → '.' ∉ ds ∧ 'e' ∉ ds := fun ds hds =>
    ⟨fun h => absurd (hds _ h) (by decide), fun h => absurd (hds _ h) (by decide)⟩
  obtain ⟨ds, hds, -, htext | htext⟩ := toList_int n
  · rw [htext] at hmark
    exact hmark.elim (hnone ds hds).1 (hnone ds hds).2
  · rw [htext] at hmark
    refine hmark.elim (fun hmem => ?_) fun hmem => ?_
    · exact (List.mem_cons.mp hmem).elim (by decide) (hnone ds hds).1
    · exact (List.mem_cons.mp hmem).elim (by decide) (hnone ds hds).2

/-- Floating point numbers with one text are equal. -/
theorem floatText_inj {x y : Float} (hx : x.isFinite = true) (hy : y.isFinite = true)
    (h : floatText x = floatText y) : x = y := by
  unfold floatText at h
  rw [if_pos hx, if_pos hy] at h
  exact Decimal.text_inj Decimal.Style.exchange hx hy h

/-! ## Parts between brackets -/

/-- The text of `x` tells it apart from all other parts that satisfy `good`, where nothing behind it
can be part of a number. -/
def Apart {α : Type} (good : α → Prop) (part : α → List Char) (x : α) : Prop :=
  ∀ {y : α} {rest rest' : List Char}, good y → Stops rest → Stops rest' →
    part x ++ rest = part y ++ rest' → x = y ∧ rest = rest'

section Parts

variable {α : Type} {close : Char} {part : α → List Char} {good : α → Prop} {xs ys : List α}
  {rest rest' : List Char}

/-- The parts after the first, each behind a comma, and the closing bracket. -/
def tailText (close : Char) (part : α → List Char) : List α → List Char
  | [] => [close]
  | x :: xs => ',' :: (part x ++ tailText close part xs)

/-- The parts and the closing bracket. -/
def partsText (close : Char) (part : α → List Char) : List α → List Char
  | [] => [close]
  | x :: xs => part x ++ tailText close part xs

theorem intercalate_append (close : Char) (part : α → List Char) (xs : List α) :
    ",".toList.intercalate (xs.map part) ++ [close] = partsText close part xs := by
  cases xs with
  | nil => rfl
  | cons x xs =>
    induction xs generalizing x with
    | nil => simp [partsText, tailText]
    | cons y ys ih =>
      show _ = part x ++ ',' :: partsText close part (y :: ys)
      rw [← ih y]
      simp [List.intercalate_cons_cons]

/-- What stands behind a part stops a number. -/
theorem stops_tailText (hclose : isNumeric close = false) (xs : List α) (rest : List Char) :
    Stops (tailText close part xs ++ rest) := by
  intro c hc
  cases xs with
  | nil =>
    injection hc with hc
    exact hc ▸ hclose
  | cons x xs =>
    injection hc with hc
    exact hc ▸ rfl

/-- The parts after the first are told apart when each of them is. -/
theorem tailText_append_inj (hcomma : close ≠ ',') (hclose : isNumeric close = false)
    (hxs : ∀ x ∈ xs, Apart good part x) (hys : ∀ y ∈ ys, good y)
    (h : tailText close part xs ++ rest = tailText close part ys ++ rest') :
    xs = ys ∧ rest = rest' := by
  induction xs generalizing ys with
  | nil =>
    cases ys with
    | nil => exact ⟨rfl, List.append_cancel_left h⟩
    | cons y ys =>
      injection h with h _
      exact absurd h hcomma
  | cons x xs ih =>
    obtain ⟨hx, hxs⟩ := List.forall_mem_cons.mp hxs
    cases ys with
    | nil =>
      injection h with h _
      exact absurd h.symm hcomma
    | cons y ys =>
      obtain ⟨hy, hrests⟩ := List.forall_mem_cons.mp hys
      rw [tailText, tailText] at h
      injection h with _ h
      rw [List.append_eq, List.append_eq, List.append_assoc, List.append_assoc] at h
      obtain ⟨rfl, htail⟩ :=
        hx hy (stops_tailText hclose xs rest) (stops_tailText hclose ys rest') h
      obtain ⟨rfl, hstop⟩ := ih hxs hrests htail
      exact ⟨rfl, hstop⟩

/-- And so are all parts, when the closing bracket begins none of them. -/
theorem partsText_append_inj (hcomma : close ≠ ',') (hclose : isNumeric close = false)
    (hfirst : ∀ {x : α} {rest rest' : List Char}, good x → close :: rest ≠ part x ++ rest')
    (hxs : ∀ x ∈ xs, good x) (hapart : ∀ x ∈ xs, Apart good part x) (hys : ∀ y ∈ ys, good y)
    (h : partsText close part xs ++ rest = partsText close part ys ++ rest') :
    xs = ys ∧ rest = rest' := by
  cases xs with
  | nil =>
    cases ys with
    | nil => exact ⟨rfl, List.append_cancel_left h⟩
    | cons y ys =>
      rw [partsText, partsText, List.append_assoc] at h
      exact absurd h (hfirst (hys y List.mem_cons_self))
  | cons x xs =>
    obtain ⟨hx, hapart⟩ := List.forall_mem_cons.mp hapart
    cases ys with
    | nil =>
      rw [partsText, partsText, List.append_assoc] at h
      exact absurd h.symm (hfirst (hxs x List.mem_cons_self))
    | cons y ys =>
      obtain ⟨hy, hrests⟩ := List.forall_mem_cons.mp hys
      rw [partsText, partsText, List.append_assoc, List.append_assoc] at h
      obtain ⟨rfl, htail⟩ :=
        hx hy (stops_tailText hclose xs rest) (stops_tailText hclose ys rest') h
      obtain ⟨rfl, hstop⟩ := tailText_append_inj hcomma hclose hapart hrests htail
      exact ⟨rfl, hstop⟩

end Parts

/-! ## Values -/

/-- The first character of a text says what kind of value it is. -/
inductive Kind where
  | null
  | truth
  | falsity
  | number
  | text
  | list
  | object
  deriving DecidableEq

/-- The kind of a value. -/
def kind : Json → Kind
  | null | unreadable => .null
  | bool b => if b then .truth else .falsity
  | int _ | float _ => .number
  | text _ => .text
  | list _ => .list
  | object _ => .object

/-- The kind that a character begins. -/
def Kind.ofFirst? (c : Char) : Option Kind :=
  if isNumeric c then some .number
  else match c with
    | 'n' => some .null
    | 't' => some .truth
    | 'f' => some .falsity
    | '"' => some .text
    | '[' => some .list
    | '\x7b' => some .object
    | _ => none

/-- A member of an object. -/
def memberText (m : String × Json) : List Char := (quoted m.1).toList ++ ':' :: m.2.render.toList

theorem map_renderItems (items : List Json) :
    (renderItems items).map String.toList = items.map fun j => j.render.toList := by
  induction items with
  | nil => rfl
  | cons j js ih => rw [renderItems, List.map_cons, List.map_cons, ih]

theorem map_renderMembers (members : List (String × Json)) :
    (renderMembers members).map String.toList = members.map memberText := by
  induction members with
  | nil => rfl
  | cons m ms ih =>
    rw [renderMembers, List.map_cons, List.map_cons, ih, memberText]
    simp

theorem toList_list (items : List Json) :
    (render (.list items)).toList = '[' :: partsText ']' (fun j => j.render.toList) items := by
  rw [render, String.toList_append, String.toList_append, String.toList_intercalate,
    map_renderItems, List.append_assoc]
  exact congrArg ('[' :: ·) (intercalate_append ']' _ items)

theorem toList_object (members : List (String × Json)) :
    (render (.object members)).toList = '\x7b' :: partsText '\x7d' memberText members := by
  rw [render, String.toList_append, String.toList_append, String.toList_intercalate,
    map_renderMembers, List.append_assoc]
  exact congrArg ('\x7b' :: ·) (intercalate_append '\x7d' _ members)

/-- A text that is numeric and not empty begins a number. -/
theorem first_of_numeric {cs : List Char} (hcs : ∀ c ∈ cs, isNumeric c = true) (hne : cs ≠ []) :
    ∃ c rest, cs = c :: rest ∧ Kind.ofFirst? c = some .number := by
  cases cs with
  | nil => exact absurd rfl hne
  | cons c cs =>
    refine ⟨c, cs, rfl, ?_⟩
    unfold Kind.ofFirst?
    rw [if_pos (hcs c List.mem_cons_self)]

/-- **The first character of a text tells the kind of value.** -/
theorem exists_first {j : Json} (hj : j.writable = true) :
    ∃ c cs, j.render.toList = c :: cs ∧ Kind.ofFirst? c = some j.kind := by
  cases j with
  | null => exact ⟨'n', "ull".toList, rfl, rfl⟩
  | bool b =>
    cases b with
    | true => exact ⟨'t', "rue".toList, rfl, rfl⟩
    | false => exact ⟨'f', "alse".toList, rfl, rfl⟩
  | int n =>
    refine first_of_numeric (isNumeric_int n) ?_
    show (toString n).toList ≠ []
    obtain ⟨ds, -, hne, htext | htext⟩ := toList_int n
    · rw [htext]
      exact hne
    · rw [htext]
      exact List.cons_ne_nil _ _
  | float x =>
    obtain ⟨hnumeric, hmark⟩ := toList_float hj
    exact first_of_numeric hnumeric (hmark.elim List.ne_nil_of_mem List.ne_nil_of_mem)
  | text s => exact ⟨'"', _, toList_quoted s, rfl⟩
  | list items => exact ⟨'[', _, toList_list items, rfl⟩
  | object members => exact ⟨'\x7b', _, toList_object members, rfl⟩
  | unreadable => nomatch hj

/-- Values whose texts begin alike are of one kind. -/
theorem kind_eq_of_append {j k : Json} {rest rest' : List Char} (hj : j.writable = true)
    (hk : k.writable = true) (h : j.render.toList ++ rest = k.render.toList ++ rest') :
    j.kind = k.kind := by
  obtain ⟨c, cs, hc, hkind⟩ := exists_first hj
  obtain ⟨c', cs', hc', hkind'⟩ := exists_first hk
  rw [hc, hc'] at h
  injection h with h _
  subst h
  exact Option.some.inj (hkind.symm.trans hkind')

/-- The text of a value does not begin with a character that begins none. -/
theorem ne_of_ofFirst?_eq_none {j : Json} {c : Char} {rest rest' : List Char}
    (hj : j.writable = true) (hc : Kind.ofFirst? c = none) :
    c :: rest ≠ j.render.toList ++ rest' := by
  intro h
  obtain ⟨d, cs, hd, hkind⟩ := exists_first hj
  rw [hd] at h
  injection h with h _
  rw [← h, hc] at hkind
  nomatch hkind

/-- The text of the value tells it apart, where nothing behind it can be part of a number. -/
def ToldApart (j : Json) : Prop :=
  j.writable = true → Apart (fun k => k.writable = true) (fun k => k.render.toList) j

/-- A member is told apart when its value is. -/
theorem apart_member {m : String × Json} (hm : m.2.ToldApart) (hw : m.2.writable = true) :
    Apart (fun n => n.2.writable = true) memberText m := by
  intro n rest rest' hn hrest hrest' h
  rw [memberText, memberText, List.append_assoc, List.append_assoc] at h
  obtain ⟨hname, hvalue⟩ := quoted_append_inj h
  injection hvalue with _ hvalue
  obtain ⟨hvalue, hstop⟩ := hm hw hn hrest hrest' hvalue
  exact ⟨Prod.ext hname hvalue, hstop⟩

/-- No member begins with the bracket that closes an object. -/
theorem ne_memberText (m : String × Json) (rest rest' : List Char) :
    '\x7d' :: rest ≠ memberText m ++ rest' := by
  intro h
  rw [memberText, toList_quoted] at h
  injection h with h _
  exact absurd h (by decide)

theorem toldApart_null : ToldApart .null := by
  intro hj k rest rest' hk _ _ h
  have hkind := kind_eq_of_append hj hk h
  cases k with
  | null => exact ⟨rfl, List.append_cancel_left h⟩
  | unreadable => nomatch hk
  | bool b => cases b <;> nomatch hkind
  | _ => nomatch hkind

theorem toldApart_bool (b : Bool) : ToldApart (.bool b) := by
  intro hj k rest rest' hk _ _ h
  have hkind := kind_eq_of_append hj hk h
  cases k with
  | bool b' =>
    cases b <;> cases b' <;> first
      | exact ⟨rfl, List.append_cancel_left h⟩
      | nomatch hkind
  | _ => cases b <;> nomatch hkind

theorem toldApart_int (n : Int) : ToldApart (.int n) := by
  intro hj k rest rest' hk hrest hrest' h
  have hkind := kind_eq_of_append hj hk h
  cases k with
  | int m =>
    obtain ⟨htext, hstop⟩ := numeric_append_inj (isNumeric_int n) (isNumeric_int m) hrest hrest' h
    exact ⟨congrArg Json.int (toString_int_inj htext), hstop⟩
  | float y =>
    obtain ⟨htext, -⟩ := numeric_append_inj (isNumeric_int n) (toList_float hk).1 hrest hrest' h
    exact absurd htext (int_ne_float hk n)
  | bool b => cases b <;> nomatch hkind
  | _ => nomatch hkind

theorem toldApart_float (x : Float) : ToldApart (.float x) := by
  intro hj k rest rest' hk hrest hrest' h
  have hkind := kind_eq_of_append hj hk h
  cases k with
  | int m =>
    obtain ⟨htext, -⟩ := numeric_append_inj (toList_float hj).1 (isNumeric_int m) hrest hrest' h
    exact absurd htext.symm (int_ne_float hj m)
  | float y =>
    obtain ⟨htext, hstop⟩ :=
      numeric_append_inj (toList_float hj).1 (toList_float hk).1 hrest hrest' h
    exact ⟨congrArg Json.float (floatText_inj hj hk (String.toList_inj.mp htext)), hstop⟩
  | bool b => cases b <;> nomatch hkind
  | _ => nomatch hkind

theorem toldApart_text (s : String) : ToldApart (.text s) := by
  intro hj k rest rest' hk _ _ h
  have hkind := kind_eq_of_append hj hk h
  cases k with
  | text s' =>
    obtain ⟨rfl, hstop⟩ := quoted_append_inj h
    exact ⟨rfl, hstop⟩
  | bool b => cases b <;> nomatch hkind
  | _ => nomatch hkind

theorem toldApart_list {items : List Json} (hitems : ∀ j ∈ items, j.ToldApart) :
    ToldApart (.list items) := by
  intro hj k rest rest' hk _ _ h
  have hkind := kind_eq_of_append hj hk h
  cases k with
  | list items' =>
    have hws := writableItems_iff.mp hj
    dsimp only at h
    rw [toList_list, toList_list] at h
    injection h with _ h
    obtain ⟨rfl, hstop⟩ := partsText_append_inj (by decide) rfl
      (fun hw => ne_of_ofFirst?_eq_none hw rfl) hws (fun j hmem => hitems j hmem (hws j hmem))
      (writableItems_iff.mp hk) h
    exact ⟨rfl, hstop⟩
  | bool b => cases b <;> nomatch hkind
  | _ => nomatch hkind

theorem toldApart_object {members : List (String × Json)}
    (hmembers : ∀ m ∈ members, m.2.ToldApart) : ToldApart (.object members) := by
  intro hj k rest rest' hk _ _ h
  have hkind := kind_eq_of_append hj hk h
  cases k with
  | object members' =>
    have hws := writableMembers_iff.mp hj
    dsimp only at h
    rw [toList_object, toList_object] at h
    injection h with _ h
    obtain ⟨rfl, hstop⟩ := partsText_append_inj (by decide) rfl
      (fun _ => ne_memberText _ _ _) hws (fun m hmem => apart_member (hmembers m hmem) (hws m hmem))
      (writableMembers_iff.mp hk) h
    exact ⟨rfl, hstop⟩
  | bool b => cases b <;> nomatch hkind
  | _ => nomatch hkind

/-- **Every value is told apart by its text**, of all that JSON text can say. -/
theorem toldApart : ∀ j : Json, j.ToldApart
  | .null => toldApart_null
  | .bool b => toldApart_bool b
  | .int n => toldApart_int n
  | .float x => toldApart_float x
  | .text s => toldApart_text s
  | .list items => toldApart_list fun item _hitem => toldApart item
  | .object members => toldApart_object fun member _hmember => toldApart member.2
  | .unreadable => fun hj => (nomatch hj)
termination_by j => sizeOf j
decreasing_by
  · have := List.sizeOf_lt_of_mem _hitem
    rw [Json.list.sizeOf_spec]
    omega
  · have := List.sizeOf_lt_of_mem _hmember
    obtain ⟨name, value⟩ := member
    rw [Json.object.sizeOf_spec]
    rw [Prod.mk.sizeOf_spec] at this
    dsimp only
    omega

/-- **Values with one text are equal**, of all that JSON text can say. -/
theorem render_inj {j k : Json} (hj : j.writable = true) (hk : k.writable = true)
    (h : j.render = k.render) : j = k :=
  have hnothing : Stops [] := fun _ hc => absurd hc (by simp)
  (toldApart j hj hk hnothing hnothing (congrArg (fun s => s.toList ++ []) h)).1

end Concordance.Json
