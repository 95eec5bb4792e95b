import Concordance.Decimal.Notation
import Concordance.Decimal.Reader
import Concordance.Proofs.Decimal.Binary

/-!
# What is written reads back

Every layout of a decimal has the form of a numeral: digits, perhaps a point and digits after it,
perhaps an exponent (`Spelling`). Reading a numeral gives its sign, its digits and the power of ten
that they count (`Spelling.read?_toList`), and for each layout these are the number that was written
(`Spelling.Writes`).

* **`read?_text`**: in every style, a finite number is written as a numeral for its shortest
  decimal.
* **`text_inj`**: in every style, finite double precision numbers with one text are equal.
-/

namespace Concordance.Decimal

/-! ## Digits -/

theorem toList_toString (n : Nat) : (toString n).toList = Nat.toDigits 10 n := by
  rw [Nat.toString_eq_ofList_toDigits, String.toList_ofList]

theorem length_toString (n : Nat) : (toString n).length = (Nat.toDigits 10 n).length := by
  rw [← toList_toString]
  rfl

theorem ofDigits_eq (start : Nat) (cs : List Char) :
    ofDigits start cs = Nat.ofDigitChars 10 cs start := Nat.ofDigitChars_eq_foldl.symm

theorem ofDigits_append (start : Nat) (cs ds : List Char) :
    ofDigits start (cs ++ ds) = ofDigits (ofDigits start cs) ds := List.foldl_append

theorem ofDigits_toDigits (n : Nat) : ofDigits 0 (Nat.toDigits 10 n) = n := by
  rw [ofDigits_eq, Nat.ofDigitChars_ten_toDigits]

theorem ofDigits_zeros (start n : Nat) :
    ofDigits start (List.replicate n '0') = 10 ^ n * start := by
  rw [ofDigits_eq, Nat.ofDigitChars_replicate_zero]

/-- Only digits. -/
def Digits (cs : List Char) : Prop := ∀ c ∈ cs, c.isDigit = true

instance (cs : List Char) : Decidable (Digits cs) :=
  inferInstanceAs (Decidable (∀ c ∈ cs, c.isDigit = true))

theorem digits_toDigits (n : Nat) : Digits (Nat.toDigits 10 n) :=
  fun _ => Nat.isDigit_of_mem_toDigits (by decide) (by decide)

theorem digits_zeros (n : Nat) : Digits (List.replicate n '0') := fun c hc => by
  rw [List.eq_of_mem_replicate hc]
  decide

theorem Digits.append {cs ds : List Char} (hcs : Digits cs) (hds : Digits ds) : Digits (cs ++ ds) :=
  fun c hc => (List.mem_append.mp hc).elim (hcs c) (hds c)

/-- A list is divided before the first character without a property. -/
theorem span_append {p : Char → Bool} {cs rest : List Char} (hcs : ∀ c ∈ cs, p c = true)
    (hrest : ∀ c ∈ rest.head?, p c = false) : (cs ++ rest).span p = (cs, rest) := by
  rw [List.span_eq_takeWhile_dropWhile, List.takeWhile_append_of_pos hcs,
    List.dropWhile_append_of_pos hcs]
  cases rest with
  | nil => rw [List.takeWhile_nil, List.append_nil, List.dropWhile_nil]
  | cons c rest =>
    have hc : p c = false := hrest c rfl
    rw [List.takeWhile_cons_of_neg (by simp [hc]), List.dropWhile_cons_of_neg (by simp [hc]),
      List.append_nil]

theorem takeDigits_append {ds rest : List Char} (hds : Digits ds)
    (hrest : ∀ c ∈ rest.head?, c.isDigit = false) : takeDigits (ds ++ rest) = (ds, rest) :=
  span_append hds hrest

/-- Digits start with a digit. -/
theorem isDigit_first {ds rest cs : List Char} {c : Char} (hds : Digits ds) (hne : ds ≠ [])
    (h : ds ++ rest = c :: cs) : c.isDigit = true := by
  obtain ⟨d, ds, rfl⟩ := List.exists_cons_of_ne_nil hne
  injection h with h _
  exact h ▸ hds d List.mem_cons_self

/-- What starts with a digit has no sign. -/
theorem takeSign_digits {ds : List Char} (hds : Digits ds) (hne : ds ≠ []) (rest : List Char) :
    takeSign (ds ++ rest) = (false, ds ++ rest) := by
  unfold takeSign
  split
  · rename_i heq
    exact absurd (isDigit_first hds hne heq) (by decide)
  · rename_i heq
    exact absurd (isDigit_first hds hne heq) (by decide)
  · rfl

/-! ## Numerals -/

/-- The exponent of a numeral, if it has one. -/
def spellExponent : Option Int → List Char
  | none => []
  | some e => 'e' :: (toString e).toList

/-- The digits after the point of a numeral, if it has one. -/
def spellPlaces : Option (List Char) → List Char
  | none => []
  | some places => '.' :: places

/-- A numeral without a sign. -/
structure Spelling where
  /-- The digits before the point. -/
  whole : List Char
  /-- The digits after the point, if there is one. -/
  places : Option (List Char)
  exponent : Option Int
  digits_whole : Digits whole
  whole_ne_nil : whole ≠ []
  digits_places : Digits (places.getD [])

namespace Spelling

/-- The characters of a numeral. -/
def toList (x : Spelling) : List Char :=
  x.whole ++ (spellPlaces x.places ++ spellExponent x.exponent)

/-- All digits of a numeral, as a number. -/
def digits (x : Spelling) : Nat := ofDigits 0 (x.whole ++ x.places.getD [])

/-- The power of ten that the digits count. -/
def power (x : Spelling) : Int := x.exponent.getD 0 - (x.places.getD []).length

end Spelling

theorem toList_toString_int (e : Int) : ∃ ds, Digits ds ∧ ds ≠ [] ∧
    ((toString e).toList = ds ∧ e = ofDigits 0 ds ∨
      (toString e).toList = '-' :: ds ∧ e = -ofDigits 0 ds) := by
  cases e with
  | ofNat n =>
    refine ⟨Nat.toDigits 10 n, digits_toDigits n, Nat.toDigits_ne_nil, Or.inl ⟨?_, ?_⟩⟩
    · exact toList_toString n
    · rw [ofDigits_toDigits]
      rfl
  | negSucc n =>
    refine ⟨Nat.toDigits 10 (n + 1), digits_toDigits _, Nat.toDigits_ne_nil, Or.inr ⟨?_, ?_⟩⟩
    · show ("-" ++ toString (n + 1)).toList = _
      rw [String.toList_append, toList_toString]
      rfl
    · rw [ofDigits_toDigits]
      rfl

theorem exponent?_mark {negative : Bool} {cs ds : List Char}
    (hsign : takeSign cs = (negative, ds)) (hds : Digits ds) (hne : ds ≠ []) :
    exponent? ('e' :: cs) = some (if negative then -(ofDigits 0 ds : Int) else ofDigits 0 ds) := by
  have htake : takeDigits (ds ++ []) = (ds, []) := takeDigits_append hds fun _ h => (nomatch h)
  rw [List.append_nil] at htake
  unfold exponent?
  dsimp only
  rw [if_pos (Or.inl rfl), hsign]
  dsimp only
  rw [htake]
  simp [hne]

theorem exponent?_spell (exponent : Option Int) :
    exponent? (spellExponent exponent) = some (exponent.getD 0) := by
  cases exponent with
  | none => rfl
  | some e =>
    show exponent? ('e' :: (toString e).toList) = some e
    obtain ⟨ds, hds, hne, ⟨htext, he⟩ | ⟨htext, he⟩⟩ := toList_toString_int e
    · have hsign := takeSign_digits hds hne []
      rw [List.append_nil] at hsign
      rw [htext, exponent?_mark hsign hds hne, he]
      rfl
    · have hsign : takeSign ('-' :: ds) = (true, ds) := rfl
      rw [htext, exponent?_mark hsign hds hne, he]
      rfl

/-- What stands before a numeral: perhaps a minus sign. -/
def minus (negative : Bool) : List Char := if negative then ['-'] else []

/-- **A numeral is read as what it says.** -/
theorem Spelling.read?_toList (negative : Bool) (x : Spelling) :
    Numeral.read? (minus negative ++ x.toList) = some ⟨negative, x.digits, x.power⟩ := by
  obtain ⟨whole, places, exponent, hwhole, hne, hplaces⟩ := x
  unfold digits power toList
  dsimp only
  have hsign : ∀ rest,
      takeSign (minus negative ++ (whole ++ rest)) = (negative, whole ++ rest) := by
    intro rest
    cases negative with
    | true => rfl
    | false => exact takeSign_digits hwhole hne rest
  have hmark : ∀ c ∈ (spellExponent exponent).head?, c.isDigit = false := by
    intro c hc
    cases exponent with
    | none => nomatch hc
    | some e =>
      injection hc with hc
      subst hc
      decide
  have hlater : ∀ c ∈ (spellPlaces places ++ spellExponent exponent).head?, c.isDigit = false := by
    intro c hc
    cases places with
    | none => exact hmark c hc
    | some ds =>
      injection hc with hc
      subst hc
      decide
  unfold Numeral.read?
  rw [hsign]
  dsimp only
  rw [takeDigits_append hwhole hlater, ofDigits_append]
  dsimp only
  cases places with
  | none =>
    cases exponent with
    | none => simp [spellPlaces, spellExponent, hne, exponent?, ofDigits]
    | some e =>
      have hexponent : exponent? ('e' :: (toString e).toList) = some e := exponent?_spell (some e)
      simp only [spellPlaces, spellExponent, List.nil_append]
      generalize (toString e).toList = cs at hexponent ⊢
      simp [hne, hexponent, ofDigits]
  | some ds =>
    have htake := takeDigits_append hplaces hmark
    simp only [spellPlaces, Option.getD_some, List.cons_append] at htake ⊢
    rw [htake]
    simp [hne, exponent?_spell]

/-! ## Layouts -/

theorem decimal_mul_pow (digits n : Nat) (t : Int) :
    decimal (10 ^ n * digits) t = decimal digits (t + n) := by
  unfold decimal
  rw [zpow_add₀ (by norm_num), zpow_natCast]
  push_cast
  ring

/-- A numeral is a text for a decimal. -/
def Spelling.Writes (x : Spelling) (text : String) (digits : Nat) (t : Int) : Prop :=
  text.toList = x.toList ∧ decimal x.digits x.power = decimal digits t

/-- A whole number, with zeros for the power of ten and perhaps a point. -/
theorem exists_whole (keepsPoint : Bool) (digits n : Nat) :
    ∃ x : Spelling,
      x.Writes (toString digits ++ zeros n ++ if keepsPoint then ".0" else "") digits n ∧
      (keepsPoint = true → x.places.isSome) := by
  have hdigits := (digits_toDigits digits).append (digits_zeros n)
  have hne : Nat.toDigits 10 digits ++ List.replicate n '0' ≠ [] :=
    List.append_ne_nil_of_left_ne_nil Nat.toDigits_ne_nil _
  have hvalue : ofDigits 0 (Nat.toDigits 10 digits ++ List.replicate n '0') = 10 ^ n * digits := by
    rw [ofDigits_append, ofDigits_toDigits, ofDigits_zeros]
  cases keepsPoint with
  | true =>
    refine ⟨⟨_, some ['0'], none, hdigits, hne, digits_zeros 1⟩, ⟨?_, ?_⟩, fun _ => rfl⟩
    · simp [Spelling.toList, spellPlaces, spellExponent, zeros]
    · have htenth : ofDigits 0 (Nat.toDigits 10 digits ++ List.replicate n '0' ++ ['0']) =
          10 ^ 1 * (10 ^ n * digits) := by
        rw [ofDigits_append, hvalue]
        exact ofDigits_zeros _ 1
      show decimal (ofDigits 0 (_ ++ ['0'])) (0 - 1) = _
      rw [htenth, decimal_mul_pow, decimal_mul_pow]
      congr 1
      omega
  | false =>
    refine ⟨⟨_, none, none, hdigits, hne, fun _ h => (nomatch h)⟩, ⟨?_, ?_⟩, fun h => (nomatch h)⟩
    · simp [Spelling.toList, spellPlaces, spellExponent, zeros]
    · show decimal (ofDigits 0 (_ ++ [])) (0 - 0) = _
      rw [List.append_nil, hvalue, decimal_mul_pow]
      congr 1
      omega

/-- A number with its point between its digits. -/
theorem exists_divided {digits places : Nat} (h : places < (toString digits).length) :
    ∃ x : Spelling, x.Writes
      (String.ofList ((toString digits).toList.take ((toString digits).toList.length - places)) ++
        "." ++
        String.ofList ((toString digits).toList.drop ((toString digits).toList.length - places)))
      digits (-places) ∧ x.places.isSome := by
  have hdigits := digits_toDigits digits
  rw [length_toString] at h
  simp only [toList_toString]
  generalize hcut : (Nat.toDigits 10 digits).length - places = cut
  refine ⟨⟨(Nat.toDigits 10 digits).take cut, some ((Nat.toDigits 10 digits).drop cut), none,
    fun c hc => hdigits c (List.mem_of_mem_take hc), ?_,
    fun c hc => hdigits c (List.mem_of_mem_drop hc)⟩, ⟨?_, ?_⟩, rfl⟩
  · rw [Ne, List.take_eq_nil_iff]
    simp only [Nat.toDigits_ne_nil, or_false]
    omega
  · simp [Spelling.toList, spellPlaces, spellExponent]
  · show decimal (ofDigits 0 (List.take cut _ ++ List.drop cut _))
      (0 - (List.drop cut _).length) = _
    rw [List.take_append_drop, ofDigits_toDigits, List.length_drop]
    congr 1
    omega

/-- A number below one, with zeros after its point. -/
theorem exists_fraction {digits places : Nat} (h : ¬places < (toString digits).length) :
    ∃ x : Spelling, x.Writes
      ("0." ++ zeros (places - (toString digits).length) ++ toString digits) digits (-places) ∧
      x.places.isSome := by
  have hdigits := digits_toDigits digits
  rw [length_toString] at h ⊢
  refine ⟨⟨['0'], some (List.replicate (places - (Nat.toDigits 10 digits).length) '0' ++
    Nat.toDigits 10 digits), none, digits_zeros 1, List.cons_ne_nil _ _,
    (digits_zeros _).append hdigits⟩, ⟨?_, ?_⟩, rfl⟩
  · simp [Spelling.toList, spellPlaces, spellExponent, zeros]
  · show decimal (ofDigits 0 (['0'] ++ (List.replicate _ '0' ++ _)))
      (0 - (List.replicate _ '0' ++ _).length) = _
    rw [ofDigits_append, ofDigits_append, show ofDigits 0 ['0'] = 0 from rfl, ofDigits_zeros,
      Nat.mul_zero, ofDigits_toDigits, List.length_append, List.length_replicate]
    congr 1
    omega

/-- **Positional notation is a numeral for the number.** -/
theorem exists_positional (keepsPoint : Bool) (digits : Nat) (t : Int) :
    ∃ x : Spelling, x.Writes (writePositional keepsPoint digits t) digits t ∧
      (keepsPoint = true → x.places.isSome) := by
  unfold writePositional
  dsimp only
  split
  · rename_i hpos
    obtain ⟨n, rfl⟩ := Int.eq_ofNat_of_zero_le hpos
    exact exists_whole keepsPoint digits n
  · rename_i hneg
    obtain ⟨places, hplaces⟩ : ∃ places : Nat, t = -places := ⟨(-t).toNat, by omega⟩
    subst hplaces
    rw [Int.neg_neg, Int.toNat_natCast]
    split
    · rename_i h
      obtain ⟨x, hx, hpoint⟩ := exists_divided h
      exact ⟨x, hx, fun _ => hpoint⟩
    · rename_i h
      obtain ⟨x, hx, hpoint⟩ := exists_fraction h
      exact ⟨x, hx, fun _ => hpoint⟩

/-- **Scientific notation is a numeral for the number.** -/
theorem exists_scientific (digits : Nat) (t : Int) :
    ∃ x : Spelling, x.Writes (writeScientific digits t) digits t ∧ x.exponent.isSome := by
  have hdigits := digits_toDigits digits
  have hvalue := ofDigits_toDigits digits
  unfold writeScientific
  dsimp only
  rw [toList_toString, length_toString]
  cases hcs : Nat.toDigits 10 digits with
  | nil => exact absurd hcs Nat.toDigits_ne_nil
  | cons c cs =>
    rw [hcs] at hdigits hvalue
    cases cs with
    | nil =>
      refine ⟨⟨[c], none, some t, hdigits, List.cons_ne_nil _ _, fun _ h => (nomatch h)⟩,
        ⟨?_, ?_⟩, rfl⟩
      · simp [Spelling.toList, spellPlaces, spellExponent]
      · show decimal (ofDigits 0 [c]) (t - 0) = _
        rw [hvalue, Int.sub_zero]
    | cons d cs =>
      refine ⟨⟨[c], some (d :: cs), some (t + (c :: d :: cs).length - 1), fun x hx => hdigits x ?_,
        List.cons_ne_nil _ _, fun x hx => hdigits x (List.mem_cons_of_mem _ hx)⟩, ⟨?_, ?_⟩, rfl⟩
      · rw [List.mem_singleton.mp hx]
        exact List.mem_cons_self
      · simp [Spelling.toList, spellPlaces, spellExponent]
      · show decimal (ofDigits 0 (c :: d :: cs))
          (t + (c :: d :: cs).length - 1 - (d :: cs).length) = _
        rw [hvalue, List.length_cons]
        congr 1
        push_cast
        ring

/-! ## Texts of floating point numbers -/

/-- **A finite number is written as a numeral for its shortest decimal.** Where whole numbers keep
their point, it has a point or an exponent. -/
theorem exists_text (s : Style) (negative : Bool) (mantissa : Nat) (exponent : Int) (near : Bool) :
    ∃ x : Spelling,
      (s.text (.finite negative mantissa exponent near)).toList = minus negative ++ x.toList ∧
      decimal x.digits x.power = decimal (shortest s.tie mantissa exponent near).1
        (shortest s.tie mantissa exponent near).2 ∧
      (s.keepsPoint = true → x.places.isSome ∨ x.exponent.isSome) := by
  unfold Style.text
  dsimp only
  generalize shortest s.tie mantissa exponent near = found
  obtain ⟨digits, t⟩ := found
  have hminus : (if negative then "-" else "").toList = minus negative := by
    cases negative <;> rfl
  have hbody : ∀ isPositional : Bool, ∃ x : Spelling,
      x.Writes (if isPositional then writePositional s.keepsPoint digits t
        else writeScientific digits t) digits t ∧
      (s.keepsPoint = true → x.places.isSome ∨ x.exponent.isSome) := by
    intro isPositional
    cases isPositional with
    | true =>
      obtain ⟨x, hx, hpoint⟩ := exists_positional s.keepsPoint digits t
      exact ⟨x, hx, fun h => Or.inl (hpoint h)⟩
    | false =>
      obtain ⟨x, hx, hmark⟩ := exists_scientific digits t
      exact ⟨x, hx, fun _ => Or.inr hmark⟩
  obtain ⟨x, ⟨htext, hvalue⟩, hmark⟩ := hbody _
  refine ⟨x, ?_, hvalue, hmark⟩
  rw [String.toList_append, hminus]
  exact congrArg (minus negative ++ ·) htext

/-- **The text of a finite number reads back as its shortest decimal.** -/
theorem read?_text (s : Style) (negative : Bool) (mantissa : Nat) (exponent : Int) (near : Bool) :
    ∃ digits t,
      Numeral.read? (s.text (.finite negative mantissa exponent near)).toList =
        some ⟨negative, digits, t⟩ ∧
      decimal digits t = decimal (shortest s.tie mantissa exponent near).1
        (shortest s.tie mantissa exponent near).2 := by
  obtain ⟨x, htext, hvalue, -⟩ := exists_text s negative mantissa exponent near
  exact ⟨x.digits, x.power, htext ▸ x.read?_toList negative, hvalue⟩

/-- **Finite numbers with one text are equal.** -/
theorem text_inj (s : Style) {x y : Float} (hx : x.isFinite = true) (hy : y.isFinite = true)
    (h : s.text (.ofFloat x) = s.text (.ofFloat y)) : x = y := by
  obtain ⟨negative, m, e, near, hxb, hxfits⟩ := exists_ofFloat hx
  obtain ⟨negative', m', e', near', hyb, hyfits⟩ := exists_ofFloat hy
  obtain ⟨digits, t, hread, hvalue⟩ := read?_text s negative m e near
  obtain ⟨digits', t', hread', hvalue'⟩ := read?_text s negative' m' e' near'
  rw [hxb, hyb] at h
  rw [h, hread'] at hread
  injection hread with hread
  injection hread with hsign hdigits ht
  subst hsign hdigits ht
  have hxq : ReadsBack m e near (decimal digits' t') :=
    hvalue ▸ readsBack_shortest s.tie hxfits
  have hyq : ReadsBack m' e' near' (decimal digits' t') :=
    hvalue' ▸ readsBack_shortest s.tie hyfits
  exact float_ext hx hy hxb hyb hxq hyq

end Concordance.Decimal
