import Calculator.Decimal.Layout
import Calculator.Proofs.Decimal.Shortest
import Calculator.Proofs.Token.Lexing

/-!
# Reading numbers back

What a written number says. A text with a sign, a point and an exponent, each of which may be missing,
is read as a decimal with a sign; whatever the layout, a double is written as its shortest decimal.

* `readFixed?`, `readScaled?` and `readSigned?` read digits with a point, with an exponent and with a
  sign;
* `literal_positional` and `readScaled?_scientific` are about the two ways to write a decimal, and
  `exists_positional_negSucc` tells what stands around the point; `IsWholeMark` are the marks that a whole
  number can be closed with;
* `withSign` puts a sign to a text, and `readSigned?_withSign` reads it;
* `isWritten_of_readSigned?` says which characters a text has that is read;
* `readSigned?_writeFloat` is about a double, `exists_literal_writeFloat` about one without a sign that
  is written in full.
-/

namespace Calculator

/-! ## The readers -/

/-- The number that a row of digits spells. -/
def readNatural? (cs : List Char) : Option Nat :=
  if !cs.isEmpty && cs.all Char.isDigit then some (Nat.ofDigitChars 10 cs 0) else none

/-- The integer that digits with or without a minus sign spell. -/
def readInteger? : List Char → Option Int
  | '-' :: cs => (readNatural? cs).map fun n => -n
  | cs => (readNatural? cs).map fun n => n

/-- The decimal that digits with or without a point spell. -/
def readFixed? (cs : List Char) : Option Decimal :=
  match cs.dropWhile Char.isDigit with
  | '.' :: places =>
    (readNatural? (cs.takeWhile Char.isDigit ++ places)).map fun n => ⟨n, -places.length⟩
  | _ => (readNatural? cs).map fun n => ⟨n, 0⟩

/-- The decimal that a text spells, which may have an exponent behind an `e`. -/
def readScaled? (cs : List Char) : Option Decimal :=
  match cs.dropWhile (· != 'e') with
  | _ :: power =>
    (readFixed? (cs.takeWhile (· != 'e'))).bind fun d =>
      (readInteger? power).map fun e => ⟨d.coefficient, d.exponent + e⟩
  | [] => readFixed? cs

/-- The decimal that a text spells, and whether it has a minus sign. -/
def readSigned? : List Char → Option (Bool × Decimal)
  | '-' :: cs => (readScaled? cs).map fun d => (true, d)
  | cs => (readScaled? cs).map fun d => (false, d)

/-! ## Digits -/

theorem isDigit_of_mem_digits {d : Decimal} : ∀ c ∈ d.digits, c.isDigit = true :=
  fun _ hc => Nat.isDigit_of_mem_toDigits (by decide) (by decide) hc

theorem ofDigitChars_digits (d : Decimal) : Nat.ofDigitChars 10 d.digits 0 = d.coefficient :=
  Nat.ofDigitChars_ten_toDigits

theorem readNatural?_of_isDigit {cs : List Char} (hne : cs ≠ [])
    (hdigits : ∀ c ∈ cs, c.isDigit = true) : readNatural? cs = some (Nat.ofDigitChars 10 cs 0) := by
  have hempty : cs.isEmpty = false := List.isEmpty_eq_false_iff.mpr hne
  rw [readNatural?, hempty, List.all_eq_true.mpr hdigits]
  rfl

/-- A text that starts with a digit or a point has no sign. -/
theorem ne_minus_of_isNumeral {c : Char} (h : isNumeral c = true) : c ≠ '-' := by
  rintro rfl
  exact absurd h (by decide)

/-- The text of an integer is read as that. -/
theorem readInteger?_integerText (i : Int) : readInteger? (integerText i) = some i := by
  have hread (n : Nat) : readNatural? (Nat.toDigits 10 n) = some n := by
    rw [readNatural?_of_isDigit Nat.toDigits_ne_nil fun _ hc =>
      Nat.isDigit_of_mem_toDigits (by decide) (by decide) hc, Nat.ofDigitChars_ten_toDigits]
  cases i with
  | ofNat n =>
    obtain ⟨c, cs, hcons⟩ := List.exists_cons_of_ne_nil (Nat.toDigits_ne_nil (n := n) (b := 10))
    have hdigit : c.isDigit = true := by
      apply Nat.isDigit_of_mem_toDigits (b := 10) (n := n) (by decide) (by decide)
      rw [hcons]
      exact List.mem_cons_self
    -- The first digit is no sign.
    have hsign : c ≠ '-' := ne_minus_of_isNumeral (isNumeral_iff.mpr (.inl hdigit))
    have hcs := hread n
    rw [hcons] at hcs
    rw [integerText, hcons, readInteger?, hcs]
    · rfl
    · intro _ h
      exact hsign (List.cons.inj h).1
  | negSucc n =>
    rw [integerText, readInteger?, hread]
    rfl

/-! ## Decimals without an exponent -/

/-- What a spelling of a number is read as. -/
theorem readFixed?_of_literal {cs : List Char} {d : Decimal} (h : Literal cs d) :
    readFixed? cs = some d := by
  cases h with
  | whole hne hdigits =>
    rw [readFixed?, List.dropWhile_eq_nil_iff.mpr hdigits, readNatural?_of_isDigit hne hdigits]
    rfl
  | @point digits places hne hdigits hplaces =>
    have hpoint : ∀ c ∈ ('.' :: places).head?, c.isDigit = false := by
      rintro c ⟨⟩
      decide
    have hne' : digits ++ places ≠ [] := by
      intro hnil
      obtain ⟨hnone, hnone'⟩ := List.append_eq_nil_iff.mp hnil
      exact hne.elim (· hnone) (· hnone')
    have hall : ∀ c ∈ digits ++ places, c.isDigit = true := fun c hc =>
      (List.mem_append.mp hc).elim (hdigits c) (hplaces c)
    rw [readFixed?, dropWhile_append_of_head hdigits hpoint, takeWhile_append_of_head hdigits hpoint]
    simp only [readNatural?_of_isDigit hne' hall, Option.map_some]

/-- A spelling of a number has no exponent. -/
theorem readScaled?_of_literal {cs : List Char} {d : Decimal} (h : Literal cs d) :
    readScaled? cs = some d := by
  have hall : ∀ c ∈ cs, (c != 'e') = true := by
    intro c hc
    rw [bne_iff_ne]
    rintro rfl
    exact absurd (h.isNumeral_of_mem _ hc) (by decide)
  rw [readScaled?, List.dropWhile_eq_nil_iff.mpr hall]
  exact readFixed?_of_literal h

/-- Digits with zeros in front of them are digits. -/
theorem isDigit_of_mem_zeros {digits : List Char} (hdigits : ∀ c ∈ digits, c.isDigit = true) (n : Nat) :
    ∀ c ∈ List.replicate n '0' ++ digits, c.isDigit = true := by
  intro c hc
  rcases List.mem_append.mp hc with hc | hc
  · rw [List.eq_of_mem_replicate hc]
    rfl
  · exact hdigits c hc

/-- **A number with decimal places, written positionally**: its digits with zeros in front, and a point
before the places. A digit stands before the point at least. -/
theorem exists_positional_negSucc (wholeMark digits : List Char) (n : Nat) :
    ∃ whole places, positional wholeMark digits (.negSucc n) = whole ++ '.' :: places
      ∧ whole ≠ [] ∧ places.length = n + 1
      ∧ whole ++ places = List.replicate (places.length + 1 - digits.length) '0' ++ digits := by
  obtain ⟨padded, hpadded⟩ :
      ∃ padded, padded = List.replicate (n + 1 + 1 - digits.length) '0' ++ digits := ⟨_, rfl⟩
  have hlength : n + 1 < padded.length := by
    rw [hpadded, List.length_append, List.length_replicate]
    omega
  have hplaces : (padded.drop (padded.length - (n + 1))).length = n + 1 := by
    rw [List.length_drop]
    omega
  refine ⟨padded.take (padded.length - (n + 1)), padded.drop (padded.length - (n + 1)), ?_, ?_, hplaces,
    ?_⟩
  · rw [hpadded]
    rfl
  · rw [← List.length_pos_iff, List.length_take]
    omega
  · rw [List.take_append_drop, hplaces, hpadded]

/-- What closes a whole number without changing it: nothing, or a point with zeros behind it. -/
def IsWholeMark (mark : List Char) : Prop :=
  mark = [] ∨ ∃ n, mark = '.' :: List.replicate n '0'

/-- A whole number with its mark is spelled as what it is. -/
theorem literal_append_mark {cs mark : List Char} (hmark : IsWholeMark mark) (hne : cs ≠ [])
    (hdigits : ∀ c ∈ cs, c.isDigit = true) :
    ∃ d, Literal (cs ++ mark) d ∧ d.value = Decimal.value ⟨Nat.ofDigitChars 10 cs 0, 0⟩ := by
  rcases hmark with rfl | ⟨n, rfl⟩
  · rw [List.append_nil]
    exact ⟨_, .whole hne hdigits, rfl⟩
  · have hzeros : ∀ c ∈ List.replicate n '0', c.isDigit = true := fun c hc => by
      rw [List.eq_of_mem_replicate hc]
      rfl
    refine ⟨_, .point (.inl hne) hdigits hzeros, ?_⟩
    rw [Nat.ofDigitChars_append, Nat.ofDigitChars_replicate_zero, Nat.mul_comm, Decimal.value_mul_pow,
      List.length_replicate, add_neg_cancel]

/-- A number written positionally is spelled as what it is. -/
theorem literal_positional {mark digits : List Char} (hmark : IsWholeMark mark) (hne : digits ≠ [])
    (hdigits : ∀ c ∈ digits, c.isDigit = true) (e : Int) :
    ∃ d, Literal (positional mark digits e) d
      ∧ d.value = Decimal.value ⟨Nat.ofDigitChars 10 digits 0, e⟩ := by
  cases e with
  | ofNat n =>
    have hall : ∀ c ∈ digits ++ List.replicate n '0', c.isDigit = true := by
      intro c hc
      rw [List.mem_append, or_comm, ← List.mem_append] at hc
      exact isDigit_of_mem_zeros hdigits n c hc
    obtain ⟨d, hliteral, hvalue⟩ := literal_append_mark hmark (by simp [hne]) hall
    refine ⟨d, hliteral, ?_⟩
    rw [hvalue, Nat.ofDigitChars_append, Nat.ofDigitChars_replicate_zero, Nat.mul_comm,
      Decimal.value_mul_pow, add_zero]
    rfl
  | negSucc n =>
    obtain ⟨whole, places, htext, -, hplaces, hpadded⟩ := exists_positional_negSucc mark digits n
    have hall : ∀ c ∈ whole ++ places, c.isDigit = true := by
      rw [hpadded]
      exact isDigit_of_mem_zeros hdigits _
    have hvalue : Nat.ofDigitChars 10 (whole ++ places) 0 = Nat.ofDigitChars 10 digits 0 := by
      rw [hpadded, Nat.ofDigitChars_append, Nat.ofDigitChars_replicate_zero, Nat.mul_zero]
    have hsome : places ≠ [] := List.ne_nil_of_length_eq_add_one hplaces
    rw [htext]
    refine ⟨_, .point (.inr hsome) (fun c hc => hall c (List.mem_append_left places hc))
      (fun c hc => hall c (List.mem_append_right whole hc)), ?_⟩
    rw [hvalue, hplaces]
    rfl

/-- The digits of a decimal, written positionally, spell what it is. -/
theorem literal_positional_digits {mark : List Char} (hmark : IsWholeMark mark) (d : Decimal) :
    ∃ e, Literal (positional mark d.digits d.exponent) e ∧ e.value = d.value := by
  obtain ⟨e, hliteral, hvalue⟩ :=
    literal_positional hmark d.digits_ne_nil isDigit_of_mem_digits d.exponent
  rw [ofDigitChars_digits] at hvalue
  exact ⟨e, hliteral, hvalue⟩

/-! ## Decimals with an exponent -/

/-- The mark of the exponent is where the mantissa ends. -/
theorem span_mark {mantissa : List Char} (h : ∀ c ∈ mantissa, isNumeral c = true) (power : List Char) :
    (mantissa ++ 'e' :: power).takeWhile (· != 'e') = mantissa
      ∧ (mantissa ++ 'e' :: power).dropWhile (· != 'e') = 'e' :: power := by
  have hall : ∀ c ∈ mantissa, (c != 'e') = true := by
    intro c hc
    rw [bne_iff_ne]
    rintro rfl
    exact absurd (h _ hc) (by decide)
  have hmark : ∀ c ∈ ('e' :: power).head?, (c != 'e') = false := by
    rintro c ⟨⟩
    decide
  exact ⟨takeWhile_append_of_head hall hmark, dropWhile_append_of_head hall hmark⟩

/-- A spelling of a number counts the power of ten that stands behind it. -/
theorem readScaled?_append {mantissa : List Char} {d : Decimal} (h : Literal mantissa d) (e : Int) :
    readScaled? (mantissa ++ 'e' :: integerText e) = some ⟨d.coefficient, d.exponent + e⟩ := by
  obtain ⟨hbefore, hbehind⟩ := span_mark h.isNumeral_of_mem (integerText e)
  rw [readScaled?, hbehind, hbefore]
  simp only [readFixed?_of_literal h, readInteger?_integerText, Option.bind_some, Option.map_some]

/-- A number written with an exponent is read as what it is. -/
theorem readScaled?_scientific {digits : List Char} (hne : digits ≠ [])
    (hdigits : ∀ c ∈ digits, c.isDigit = true) (e : Int) :
    readScaled? (scientific digits (e + (digits.length - 1)))
      = some ⟨Nat.ofDigitChars 10 digits 0, e⟩ := by
  -- The mantissa is a spelling of a number, with a point if it has more than one digit.
  obtain ⟨mantissa, d, htext, hliteral, hcoefficient, hexponent⟩ :
      ∃ mantissa d, scientific digits (e + (digits.length - 1))
          = mantissa ++ 'e' :: integerText (e + (digits.length - 1))
        ∧ Literal mantissa d ∧ d.coefficient = Nat.ofDigitChars 10 digits 0
        ∧ d.exponent + (e + (digits.length - 1)) = e := by
    rcases digits with _ | ⟨c, _ | ⟨c', rest⟩⟩
    · exact absurd rfl hne
    · exact ⟨[c], _, rfl, .whole hne hdigits, rfl, by simp⟩
    · refine ⟨[c] ++ '.' :: (c' :: rest), _, rfl, .point (.inl (by simp)) ?_ ?_, rfl, ?_⟩
      · simpa using hdigits c List.mem_cons_self
      · exact fun x hx => hdigits x (List.mem_cons_of_mem c hx)
      · simp only [List.length_cons]
        omega
  rw [htext, readScaled?_append hliteral, hcoefficient, hexponent]

/-! ## Signs -/

/-- A text with a minus sign in front, or without. -/
def withSign (negative : Bool) (cs : List Char) : List Char :=
  if negative then '-' :: cs else cs

/-- A sign is no other character. -/
theorem mem_withSign_iff {negative : Bool} {cs : List Char} {c : Char} (hc : c ≠ '-') :
    c ∈ withSign negative cs ↔ c ∈ cs := by
  cases negative with
  | false => exact Iff.rfl
  | true => exact List.mem_cons.trans (or_iff_right hc)

/-- A minus sign is no start of a number without a sign. -/
theorem readScaled?_minus (cs : List Char) : readScaled? ('-' :: cs) = none := by
  have hnatural (ds : List Char) : readNatural? ('-' :: ds) = none := rfl
  have hfixed (ds : List Char) : readFixed? ('-' :: ds) = none := by
    rw [readFixed?, List.dropWhile_cons_of_neg (by decide), hnatural]
    rfl
  rw [readScaled?, List.takeWhile_cons_of_pos (by decide), hfixed, hfixed]
  split <;> rfl

/-- A number is read with the sign that it has. -/
theorem readSigned?_withSign (negative : Bool) {cs : List Char} {d : Decimal}
    (h : readScaled? cs = some d) : readSigned? (withSign negative cs) = some (negative, d) := by
  cases negative with
  | false =>
    have hsign : ∀ ds, cs ≠ '-' :: ds := by
      rintro ds rfl
      rw [readScaled?_minus] at h
      cases h
    rw [withSign, if_neg (by decide), readSigned?, h]
    · rfl
    · exact hsign
  | true =>
    rw [withSign, if_pos rfl, readSigned?, h]
    rfl

/-! ## The characters of numbers -/

/-- Whether a character can stand in the text of a number. -/
def isWritten (c : Char) : Bool :=
  isNumeral c || c == '-' || c == 'e'

theorem isWritten_iff {c : Char} : isWritten c = true ↔ isNumeral c = true ∨ c = '-' ∨ c = 'e' := by
  simp [isWritten, or_assoc]

theorem isDigit_of_readNatural? {cs : List Char} {n : Nat} (h : readNatural? cs = some n) :
    ∀ c ∈ cs, c.isDigit = true := by
  rw [readNatural?, Option.ite_none_right_eq_some, Bool.and_eq_true] at h
  exact List.all_eq_true.mp h.1.2

theorem isWritten_of_readInteger? {cs : List Char} {i : Int} (h : readInteger? cs = some i) :
    ∀ c ∈ cs, isWritten c = true := by
  have hdigits {ds : List Char} {n : Nat} (h : readNatural? ds = some n) :
      ∀ c ∈ ds, isWritten c = true := fun c hc =>
    isWritten_iff.mpr (.inl (isNumeral_iff.mpr (.inl (isDigit_of_readNatural? h c hc))))
  unfold readInteger? at h
  split at h
  all_goals
    obtain ⟨_, hi, -⟩ := Option.map_eq_some_iff.mp h
    obtain ⟨n, hn, -⟩ := Option.bind_eq_some_iff.mp hi
  case h_1 => exact List.forall_mem_cons.mpr ⟨rfl, hdigits hn⟩
  case h_2 => exact hdigits hn

theorem isNumeral_of_readFixed? {cs : List Char} {d : Decimal} (h : readFixed? cs = some d) :
    ∀ c ∈ cs, isNumeral c = true := by
  rw [readFixed?] at h
  split at h
  all_goals
    obtain ⟨n, hn, -⟩ := Option.map_eq_some_iff.mp h
    have hdigits := isDigit_of_readNatural? hn
  case h_1 places hplaces =>
    intro c hc
    rw [← List.takeWhile_append_dropWhile (p := Char.isDigit) (l := cs), hplaces] at hc
    rw [isNumeral_iff]
    rcases List.mem_append.mp hc with hc | hc
    · exact .inl (hdigits c (List.mem_append_left _ hc))
    · rcases List.mem_cons.mp hc with rfl | hc
      · exact .inr rfl
      · exact .inl (hdigits c (List.mem_append_right _ hc))
  case h_2 => exact fun c hc => isNumeral_iff.mpr (.inl (hdigits c hc))

theorem isWritten_of_readScaled? {cs : List Char} {d : Decimal} (h : readScaled? cs = some d) :
    ∀ c ∈ cs, isWritten c = true := by
  have hfixed {ds : List Char} {d : Decimal} (h : readFixed? ds = some d) :
      ∀ c ∈ ds, isWritten c = true := fun c hc =>
    isWritten_iff.mpr (.inl (isNumeral_of_readFixed? h c hc))
  rw [readScaled?] at h
  split at h
  case h_1 mark power hpower =>
    obtain ⟨d, hd, h⟩ := Option.bind_eq_some_iff.mp h
    obtain ⟨e, he, -⟩ := Option.map_eq_some_iff.mp h
    have hmark : mark = 'e' := by
      have hhead := List.head?_dropWhile_not (· != 'e') cs
      rw [hpower] at hhead
      simpa using hhead
    intro c hc
    rw [← List.takeWhile_append_dropWhile (p := (· != 'e')) (l := cs), hpower] at hc
    rcases List.mem_append.mp hc with hc | hc
    · exact hfixed hd c hc
    · rcases List.mem_cons.mp hc with rfl | hc
      · exact isWritten_iff.mpr (.inr (.inr hmark))
      · exact isWritten_of_readInteger? he c hc
  case h_2 => exact hfixed h

/-- **A text that is read** has no other characters than those of numbers. -/
theorem isWritten_of_readSigned? {cs : List Char} {r : Bool × Decimal} (h : readSigned? cs = some r) :
    ∀ c ∈ cs, isWritten c = true := by
  unfold readSigned? at h
  split at h
  all_goals obtain ⟨d, hd, -⟩ := Option.map_eq_some_iff.mp h
  case h_1 => exact List.forall_mem_cons.mpr ⟨rfl, isWritten_of_readScaled? hd⟩
  case h_2 => exact isWritten_of_readScaled? hd

/-! ## Doubles -/

/-- A number that is finite or infinite is written as its magnitude with its sign. -/
theorem Layout.writeFloat_of_le (l : Layout) {x : Float} (hx : Double.rank x ≤ Double.infinityRank) :
    l.writeFloat x = withSign (Double.isNegative x) (l.writeRank (Double.rank x)) :=
  if_neg hx.not_gt

/-- A finite double is written as its magnitude with its sign. -/
theorem Layout.writeFloat_eq (l : Layout) {x : Float} (hx : Double.isFinite x = true) :
    l.writeFloat x = withSign (Double.isNegative x) (l.writeRank (Double.rank x)) :=
  l.writeFloat_of_le (Double.isFinite_iff.mp hx).le

/-- Infinity has a name. -/
theorem Layout.writeRank_infinityRank (l : Layout) : l.writeRank Double.infinityRank = "inf".toList :=
  (if_neg (by decide)).trans (if_neg (lt_irrefl _))

/-- A layout writes a decimal as what it is. -/
theorem readScaled?_write {l : Layout} (hl : IsWholeMark l.wholeMark) (d : Decimal) :
    ∃ e, readScaled? (l.write d) = some e ∧ e.value = d.value := by
  rw [Layout.write]
  split
  case isTrue =>
    obtain ⟨e, hliteral, hvalue⟩ := literal_positional_digits hl d
    exact ⟨e, readScaled?_of_literal hliteral, hvalue⟩
  case isFalse =>
    have hread := readScaled?_scientific d.digits_ne_nil isDigit_of_mem_digits d.exponent
    rw [ofDigitChars_digits] at hread
    exact ⟨d, hread, rfl⟩

/-- **A written double is read as its shortest decimal**, with its sign. -/
theorem readSigned?_writeFloat {l : Layout} (hl : IsWholeMark l.wholeMark) {x : Float}
    (hx : Double.isFinite x = true) :
    ∃ d, readSigned? (l.writeFloat x) = some (Double.isNegative x, d)
      ∧ d.value = (shortest (Double.rank x)).value := by
  have hrank := Double.isFinite_iff.mp hx
  obtain ⟨d, hread, hvalue⟩ : ∃ d, readScaled? (l.writeRank (Double.rank x)) = some d
      ∧ d.value = (shortest (Double.rank x)).value := by
    rw [Layout.writeRank]
    by_cases hzero : Double.rank x = 0
    · rw [if_pos hzero, hzero]
      have hdigit : ∀ c ∈ ['0'], c.isDigit = true := by simp
      obtain ⟨d, hliteral, hvalue⟩ := literal_append_mark hl (List.cons_ne_nil _ _) hdigit
      refine ⟨d, readScaled?_of_literal hliteral, ?_⟩
      rw [hvalue, shortest_zero, Decimal.value_eq_zero_iff]
      rfl
    · rw [if_neg hzero, if_pos hrank]
      exact readScaled?_write hl _
  refine ⟨d, ?_, hvalue⟩
  rw [l.writeFloat_eq hx]
  exact readSigned?_withSign _ hread

/-- A magnitude written in full is a spelling of its shortest decimal: it has no exponent, and digits
stand on both sides of a point. -/
theorem exists_literal_writeRank {k : Nat} (hk : k < Double.infinityRank) :
    ∃ d, Literal (Layout.plain.writeRank k) d ∧ d.value = (shortest k).value := by
  by_cases hzero : k = 0
  · have hdigit : Literal ['0'] ⟨0, 0⟩ := .whole (List.cons_ne_nil _ _) (by simp)
    rw [Layout.writeRank, if_pos hzero, hzero]
    refine ⟨_, hdigit, ?_⟩
    rw [shortest_zero, Decimal.value_eq_zero_iff]
  · rw [Layout.writeRank, if_neg hzero, if_pos hk, Layout.write, Layout.plain, if_pos rfl]
    exact literal_positional_digits (.inl rfl) (shortest k)

/-- **A double without a sign, written in full, is a spelling of itself.** -/
theorem exists_literal_writeFloat {x : Float} (hx : Double.isFinite x = true)
    (hsign : Double.isNegative x = false) :
    ∃ d, Literal (Layout.plain.writeFloat x) d ∧ d.ReadAs x := by
  obtain ⟨d, hliteral, hvalue⟩ := exists_literal_writeRank (Double.isFinite_iff.mp hx)
  refine ⟨d, ?_, hx, hsign, ?_⟩
  · rw [Layout.plain.writeFloat_eq hx, hsign]
    exact hliteral
  · rw [hvalue]
    exact shortest_rounds _

end Calculator
