import Calculator.Proofs.Decimal.Reading

/-!
# Numbers without superfluous zeros

A number can be spelled in many ways, but only in one without superfluous zeros.

* `IsWhole` are the whole numbers so spelled, `toDigits_of_isWhole` says that they are the digits of
  what they spell;
* `Plain` are the decimals so spelled in full, and `Plain.unique` says that no two of them spell one
  number;
* `Scientific` are those with an exponent;
* `exists_plain_positional` and `scientific_digits` say that a decimal is so written if its last digit
  counts, and `not_dvd_shortest` that this is so of shortest decimals.
-/

namespace Calculator

/-! ## Digits -/

/-- A whole number spelled without superfluous zeros: it starts with a zero only if it is zero. -/
structure IsWhole (cs : List Char) : Prop where
  ne_nil : cs ≠ []
  isDigit : ∀ c ∈ cs, c.isDigit = true
  zero : cs.head? = some '0' → cs = ['0']

theorem digitChar_of_isDigit {c : Char} (h : c.isDigit = true) :
    c.toNat - '0'.toNat < 10 ∧ Nat.digitChar (c.toNat - '0'.toNat) = c := by
  have hzero : '0'.toNat = 48 := rfl
  rw [isDigit_iff_toNat] at h
  have hlt : c.toNat - '0'.toNat < 10 := by omega
  refine ⟨hlt, Char.toNat_inj.mp ?_⟩
  rw [Nat.toNat_digitChar_of_lt_ten hlt]
  omega

/-- Digits behind a positive number are its next digits. -/
theorem toDigits_append {cs : List Char} (hcs : ∀ c ∈ cs, c.isDigit = true) {n : Nat} (hn : 0 < n) :
    Nat.toDigits 10 n ++ cs = Nat.toDigits 10 (Nat.ofDigitChars 10 cs n) := by
  induction cs generalizing n with
  | nil => simp
  | cons c cs ih =>
    obtain ⟨hc, hcs⟩ := List.forall_mem_cons.mp hcs
    obtain ⟨hlt, hchar⟩ := digitChar_of_isDigit hc
    have hnext := Nat.toDigits_append_toDigits (b := 10) (by decide) hn hlt
    rw [Nat.toDigits_of_lt_base hlt, hchar] at hnext
    rw [Nat.ofDigitChars_cons, ← ih hcs (by omega), ← hnext, List.append_assoc, List.singleton_append]

/-- **A whole number without superfluous zeros** is the row of digits of what it spells. -/
theorem toDigits_of_isWhole {cs : List Char} (h : IsWhole cs) :
    Nat.toDigits 10 (Nat.ofDigitChars 10 cs 0) = cs := by
  obtain ⟨c, cs, rfl⟩ := List.exists_cons_of_ne_nil h.ne_nil
  by_cases hzero : c = '0'
  · rw [h.zero (by rw [hzero]; rfl)]
    decide
  · obtain ⟨hc, hcs⟩ := List.forall_mem_cons.mp h.isDigit
    obtain ⟨hlt, hchar⟩ := digitChar_of_isDigit hc
    have hpos : 0 < c.toNat - '0'.toNat := by
      rw [Nat.pos_iff_ne_zero]
      intro hnone
      rw [hnone] at hchar
      exact hzero hchar.symm
    rw [Nat.ofDigitChars_cons, Nat.mul_zero, Nat.zero_add, ← toDigits_append hcs hpos,
      Nat.toDigits_of_lt_base hlt, hchar, List.singleton_append]

/-- Rows of as many digits that spell one number are one row. -/
theorem eq_of_ofDigitChars_eq {cs ds : List Char} (hcs : ∀ c ∈ cs, c.isDigit = true)
    (hds : ∀ c ∈ ds, c.isDigit = true) (hlength : cs.length = ds.length)
    (h : Nat.ofDigitChars 10 cs 0 = Nat.ofDigitChars 10 ds 0) : cs = ds := by
  -- Behind a digit in front, their zeros count.
  have hcs' := toDigits_append hcs Nat.one_pos
  have hds' := toDigits_append hds Nat.one_pos
  rw [Nat.ofDigitChars_eq_ofDigitChars_zero] at hcs' hds'
  rw [hlength, h, ← hds'] at hcs'
  exact List.append_cancel_left hcs'

/-- A row of digits spells a number below the power of ten of its length. -/
theorem ofDigitChars_lt {cs : List Char} (hcs : ∀ c ∈ cs, c.isDigit = true) :
    Nat.ofDigitChars 10 cs 0 < 10 ^ cs.length := by
  induction cs with
  | nil => simp
  | cons c cs ih =>
    obtain ⟨hc, hcs⟩ := List.forall_mem_cons.mp hcs
    obtain ⟨hlt, -⟩ := digitChar_of_isDigit hc
    have hrest := ih hcs
    have hscaled := Nat.mul_le_mul_left (10 ^ cs.length) (Nat.le_of_lt_succ hlt)
    rw [Nat.ofDigitChars_cons, Nat.mul_zero, Nat.zero_add, Nat.ofDigitChars_eq_ofDigitChars_zero,
      List.length_cons, pow_succ]
    omega

/-- The digits of a positive number do not start with a zero. -/
theorem head?_toDigits_ne {n : Nat} (hn : 0 < n) : (Nat.toDigits 10 n).head? ≠ some '0' := by
  intro hhead
  obtain ⟨rest, hrest⟩ : ∃ rest, Nat.toDigits 10 n = '0' :: rest := by
    cases hdigits : Nat.toDigits 10 n with
    | nil => exact absurd hdigits Nat.toDigits_ne_nil
    | cons c rest =>
      rw [hdigits] at hhead
      exact ⟨rest, by rw [Option.some.inj hhead]⟩
  have hself : Nat.ofDigitChars 10 (Nat.toDigits 10 n) 0 = n := Nat.ofDigitChars_ten_toDigits
  have hdigit : ∀ c ∈ Nat.toDigits 10 n, c.isDigit = true := fun c hc =>
    Nat.isDigit_of_mem_toDigits (by decide) (by decide) hc
  rw [hrest] at hself hdigit
  -- The digits behind the zero are too few for the number.
  have hlt : n < 10 ^ rest.length := by
    rw [← hself]
    exact ofDigitChars_lt (List.forall_mem_cons.mp hdigit).2
  rcases Nat.eq_zero_or_pos rest.length with hnone | hpos
  · rw [hnone] at hlt
    omega
  · have hlength := (Nat.length_toDigits_le_iff (b := 10) (by decide) hpos).mpr hlt
    rw [hrest, List.length_cons] at hlength
    omega

/-- The digits of a number have no superfluous zeros. -/
theorem isWhole_toDigits (n : Nat) : IsWhole (Nat.toDigits 10 n) where
  ne_nil := Nat.toDigits_ne_nil
  isDigit _ hc := Nat.isDigit_of_mem_toDigits (by decide) (by decide) hc
  zero hhead := by
    rcases Nat.eq_zero_or_pos n with rfl | hn
    · exact Nat.toDigits_zero 10
    · exact absurd hhead (head?_toDigits_ne hn)

/-- Where digits end in as many places, the places and what is before them are told by what they spell.
-/
theorem parts_of_ofDigitChars_eq {digits digits' places places' : List Char}
    (hplaces : ∀ c ∈ places, c.isDigit = true) (hplaces' : ∀ c ∈ places', c.isDigit = true)
    (hlength : places.length = places'.length)
    (h : Nat.ofDigitChars 10 (digits ++ places) 0 = Nat.ofDigitChars 10 (digits' ++ places') 0) :
    Nat.ofDigitChars 10 digits 0 = Nat.ofDigitChars 10 digits' 0 ∧ places = places' := by
  have hlt := ofDigitChars_lt hplaces
  have hlt' := ofDigitChars_lt hplaces'
  rw [Nat.ofDigitChars_append, Nat.ofDigitChars_append, Nat.ofDigitChars_eq_ofDigitChars_zero,
    Nat.ofDigitChars_eq_ofDigitChars_zero (l := places'), hlength] at h
  rw [hlength] at hlt
  have hpow : 0 < 10 ^ places'.length := by positivity
  have hwhole := congrArg (· / 10 ^ places'.length) h
  simp only [Nat.mul_add_div hpow, Nat.div_eq_of_lt hlt, Nat.div_eq_of_lt hlt', Nat.add_zero] at hwhole
  rw [hwhole] at h
  exact ⟨hwhole, eq_of_ofDigitChars_eq hplaces hplaces' hlength (Nat.add_left_cancel h)⟩

/-- A row of digits spells a multiple of ten only if it ends in a zero. -/
theorem dvd_ofDigitChars_iff {cs : List Char} (hne : cs ≠ []) (hcs : ∀ c ∈ cs, c.isDigit = true) :
    10 ∣ Nat.ofDigitChars 10 cs 0 ↔ cs.getLast? = some '0' := by
  obtain ⟨init, c, rfl⟩ := (List.eq_nil_or_concat' cs).resolve_left hne
  obtain ⟨hlt, hchar⟩ := digitChar_of_isDigit (hcs c (by simp))
  have hvalue : Nat.ofDigitChars 10 (init ++ [c]) 0
      = 10 * Nat.ofDigitChars 10 init 0 + (c.toNat - '0'.toNat) := by
    rw [Nat.ofDigitChars_append, Nat.ofDigitChars_cons, Nat.ofDigitChars_nil]
  rw [hvalue, List.getLast?_concat, Option.some_inj]
  constructor
  · intro h
    have hzero : c.toNat - '0'.toNat = 0 := by omega
    rw [hzero] at hchar
    exact hchar.symm
  · rintro rfl
    exact Dvd.intro _ rfl

/-! ## Decimals in full -/

/-- The decimals spelled in full without superfluous zeros: the whole part has none, and behind a point
stand digits, the last of which is no zero. -/
inductive Plain : List Char → Decimal → Prop
  | whole {digits : List Char} : IsWhole digits → Plain digits ⟨Nat.ofDigitChars 10 digits 0, 0⟩
  | point {digits places : List Char} : IsWhole digits → places ≠ [] →
      (∀ c ∈ places, c.isDigit = true) → places.getLast? ≠ some '0' →
      Plain (digits ++ '.' :: places) ⟨Nat.ofDigitChars 10 (digits ++ places) 0, -places.length⟩

/-- Of two decimals of one value the finer one ends in a zero. -/
theorem Decimal.dvd_of_value_eq {d e : Decimal} (h : d.value = e.value)
    (hfiner : d.exponent < e.exponent) : 10 ∣ d.coefficient := by
  obtain ⟨c, i⟩ := d
  obtain ⟨c', j⟩ := e
  obtain ⟨n, rfl⟩ : ∃ n : Nat, j = (n + 1 : Nat) + i := ⟨(j - i - 1).toNat, by simp at hfiner; omega⟩
  rw [← value_mul_pow, value, value] at h
  have hcoefficient : (c : ℚ) = (c' * 10 ^ (n + 1) : Nat) :=
    mul_right_cancel₀ (zpow_ne_zero i (by norm_num)) h
  have hcoefficient' : c = c' * 10 ^ n * 10 := by
    rw [Nat.mul_assoc, ← pow_succ]
    exact_mod_cast hcoefficient
  exact Dvd.intro_left _ hcoefficient'.symm

namespace Plain

variable {cs ds : List Char} {d e : Decimal}

/-- It is one of the spellings of its decimal. -/
theorem literal (h : Plain cs d) : Literal cs d := by
  cases h with
  | whole hdigits => exact .whole hdigits.ne_nil hdigits.isDigit
  | point hdigits _ hplaces _ => exact .point (.inl hdigits.ne_nil) hdigits.isDigit hplaces

/-- A decimal spelled in full has no digits beyond the point that do not count. -/
theorem exponent_eq_zero_or (h : Plain cs d) :
    d.exponent = 0 ∨ d.exponent < 0 ∧ ¬ 10 ∣ d.coefficient := by
  cases h with
  | whole => exact .inl rfl
  | @point digits places hdigits hne hplaces hlast =>
    right
    have hpos := List.length_pos_of_ne_nil hne
    refine ⟨by show -(places.length : Int) < 0; omega, fun hdvd => hlast ?_⟩
    have hall : ∀ c ∈ digits ++ places, c.isDigit = true := fun c hc =>
      (List.mem_append.mp hc).elim (hdigits.isDigit c) (hplaces c)
    have hzero := (dvd_ofDigitChars_iff (by simp [hne]) hall).mp hdvd
    rwa [List.getLast?_append_of_ne_nil _ hne] at hzero

/-- One decimal is spelled in full in one way. -/
theorem eq_of_decimal (h : Plain cs d) (h' : Plain ds d) : cs = ds := by
  cases h with
  | whole hdigits =>
    generalize hd : (⟨Nat.ofDigitChars 10 cs 0, 0⟩ : Decimal) = d at h'
    cases h' with
    | whole hdigits' =>
      rw [← toDigits_of_isWhole hdigits, ← toDigits_of_isWhole hdigits', (Decimal.mk.inj hd).1]
    | @point digits places _ hne _ _ =>
      have hpos := List.length_pos_of_ne_nil hne
      have := (Decimal.mk.inj hd).2
      omega
  | @point digits places hdigits hne hplaces hlast =>
    generalize hd : (⟨Nat.ofDigitChars 10 (digits ++ places) 0, -places.length⟩ : Decimal) = d at h'
    cases h' with
    | whole hdigits' =>
      have hpos := List.length_pos_of_ne_nil hne
      have := (Decimal.mk.inj hd).2
      omega
    | @point digits' places' hdigits' hne' hplaces' hlast' =>
      obtain ⟨hcoefficient, hexponent⟩ := Decimal.mk.inj hd
      have hlength : places.length = places'.length := by omega
      obtain ⟨hwhole, hpart⟩ := parts_of_ofDigitChars_eq hplaces hplaces' hlength hcoefficient
      rw [← toDigits_of_isWhole hdigits, ← toDigits_of_isWhole hdigits', hwhole, hpart]

/-- **One number is spelled in full in one way** without superfluous zeros. -/
theorem unique (h : Plain cs d) (h' : Plain ds e) (hvalue : d.value = e.value) : cs = ds := by
  have hexponent : d.exponent = e.exponent := by
    rcases lt_trichotomy d.exponent e.exponent with hlt | heq | hgt
    · rcases h.exponent_eq_zero_or with hzero | ⟨-, hlast⟩
      · rcases h'.exponent_eq_zero_or with hzero' | ⟨hneg, -⟩ <;> omega
      · exact absurd (Decimal.dvd_of_value_eq hvalue hlt) hlast
    · exact heq
    · rcases h'.exponent_eq_zero_or with hzero | ⟨-, hlast⟩
      · rcases h.exponent_eq_zero_or with hzero' | ⟨hneg, -⟩ <;> omega
      · exact absurd (Decimal.dvd_of_value_eq hvalue.symm hgt) hlast
  have hcoefficient : d.coefficient = e.coefficient := by
    rw [Decimal.value, Decimal.value, hexponent] at hvalue
    exact_mod_cast mul_right_cancel₀ (zpow_ne_zero _ (by norm_num)) hvalue
  obtain rfl : d = e := by
    cases d
    cases e
    simp only at hexponent hcoefficient
    rw [hexponent, hcoefficient]
  exact h.eq_of_decimal h'

end Plain

/-- The last digit of a decimal counts. -/
theorem getLast?_digits_ne {d : Decimal} (h : ¬ 10 ∣ d.coefficient) :
    d.digits.getLast? ≠ some '0' := by
  rwa [← ofDigitChars_digits d, dvd_ofDigitChars_iff d.digits_ne_nil isDigit_of_mem_digits] at h

/-- Where digits are filled up with zeros in front, so that one stands before the places at least, the
zeros before the places are not superfluous. -/
theorem isWhole_of_append_eq {digits whole places : List Char} (hne : whole ≠ [])
    (h : whole ++ places = List.replicate (places.length + 1 - digits.length) '0' ++ digits)
    (hdigits : ∀ c ∈ digits, c.isDigit = true) (hhead : digits.head? ≠ some '0') : IsWhole whole := by
  have hall := isDigit_of_mem_zeros hdigits (places.length + 1 - digits.length)
  rw [← h] at hall
  refine ⟨hne, fun c hc => hall c (List.mem_append_left places hc), fun hzero => ?_⟩
  rcases Nat.eq_zero_or_pos (places.length + 1 - digits.length) with hnone | hsome
  · rw [hnone, List.replicate_zero, List.nil_append] at h
    rw [← h, List.head?_append_of_ne_nil _ hne] at hhead
    exact absurd hzero hhead
  · -- A zero has been put in front, and then the whole part has one digit only.
    have hlength := congrArg List.length h
    rw [List.length_append, List.length_append, List.length_replicate] at hlength
    obtain ⟨c, rfl⟩ : ∃ c, whole = [c] := List.length_eq_one_iff.mp (by omega)
    rw [List.head?_cons] at hzero
    rw [Option.some.inj hzero]

/-- **A decimal whose last digit counts** is written in full without superfluous zeros. -/
theorem exists_plain_positional {d : Decimal} (hpos : 0 < d.coefficient)
    (hlast : ¬ 10 ∣ d.coefficient) :
    ∃ e, Plain (positional [] d.digits d.exponent) e ∧ e.value = d.value := by
  obtain ⟨e, hliteral, hvalue⟩ := literal_positional_digits (.inl rfl) d
  suffices hplain : ∃ e', Plain (positional [] d.digits d.exponent) e' by
    obtain ⟨e', he'⟩ := hplain
    obtain rfl : e' = e := he'.literal.literal_eq.symm.trans hliteral.literal_eq
    exact ⟨e', he', hvalue⟩
  have hhead : d.digits.head? ≠ some '0' := head?_toDigits_ne hpos
  have hend := getLast?_digits_ne hlast
  have hdigits : ∀ c ∈ d.digits, c.isDigit = true := isDigit_of_mem_digits
  have hne := d.digits_ne_nil
  generalize d.digits = digits at hhead hend hdigits hne
  cases d.exponent with
  | ofNat n =>
    refine ⟨_, .whole ⟨by simp [positional, hne], fun c hc => ?_, fun hzero => ?_⟩⟩
    · rw [positional, List.append_nil, List.mem_append, or_comm, ← List.mem_append] at hc
      exact isDigit_of_mem_zeros hdigits n c hc
    · rw [positional, List.append_nil, List.head?_append_of_ne_nil _ hne] at hzero
      exact absurd hzero hhead
  | negSucc n =>
    obtain ⟨whole, places, htext, hsome, hplaces, hpadded⟩ := exists_positional_negSucc [] digits n
    have hwhole := isWhole_of_append_eq hsome hpadded hdigits hhead
    have hne' : places ≠ [] := List.ne_nil_of_length_eq_add_one hplaces
    have hall := isDigit_of_mem_zeros hdigits (places.length + 1 - digits.length)
    rw [← hpadded] at hall
    -- The last of the places is the last of the digits.
    have hlast' : places.getLast? ≠ some '0' := by
      rwa [← List.getLast?_append_of_ne_nil whole hne', hpadded, List.getLast?_append_of_ne_nil _ hne]
    rw [htext]
    exact ⟨_, .point hwhole hne' (fun c hc => hall c (List.mem_append_right whole hc)) hlast'⟩

/-! ## Decimals with an exponent -/

/-- The integers without superfluous zeros. Zero has no sign. -/
inductive IsInteger : List Char → Int → Prop
  | whole {cs : List Char} : IsWhole cs → IsInteger cs (Nat.ofDigitChars 10 cs 0)
  | minus {cs : List Char} : IsWhole cs → cs ≠ ['0'] →
      IsInteger ('-' :: cs) (-Nat.ofDigitChars 10 cs 0)

/-- The decimals spelled with an exponent and without superfluous zeros: one digit that is no zero, and
behind a point others, the last of which is no zero. -/
inductive Scientific : List Char → Decimal → Prop
  | mk {mantissa power : List Char} {m : Decimal} {e : Int} : Plain mantissa m → 1 ≤ m.value →
      m.value < 10 → IsInteger power e → Scientific (mantissa ++ 'e' :: power) ⟨m.coefficient, m.exponent + e⟩

/-- The text of an integer has no superfluous zeros. -/
theorem isInteger_integerText (i : Int) : IsInteger (integerText i) i := by
  cases i with
  | ofNat n =>
    have h := IsInteger.whole (isWhole_toDigits n)
    rwa [Nat.ofDigitChars_ten_toDigits] at h
  | negSucc n =>
    have hne : Nat.toDigits 10 (n + 1) ≠ ['0'] := by
      intro h
      exact head?_toDigits_ne (Nat.succ_pos n) (by rw [h]; rfl)
    have h := IsInteger.minus (isWhole_toDigits (n + 1)) hne
    rwa [Nat.ofDigitChars_ten_toDigits] at h

/-- The digits of a decimal with a point behind the first. -/
theorem exists_mantissa {d : Decimal} (hpos : 0 < d.coefficient) (hlast : ¬ 10 ∣ d.coefficient) :
    ∃ mantissa, (∀ e, scientific d.digits e = mantissa ++ 'e' :: integerText e)
      ∧ Plain mantissa ⟨d.coefficient, -(d.digits.length - 1 : Nat)⟩
      ∧ mantissa.filter Char.isDigit = d.digits := by
  have hhead : d.digits.head? ≠ some '0' := head?_toDigits_ne hpos
  have hend := getLast?_digits_ne hlast
  have hdigits : ∀ c ∈ d.digits, c.isDigit = true := isDigit_of_mem_digits
  have hne := d.digits_ne_nil
  rw [← ofDigitChars_digits d]
  generalize d.digits = digits at hhead hend hdigits hne
  obtain ⟨c, rest, rfl⟩ := List.exists_cons_of_ne_nil hne
  have hfirst : IsWhole [c] := by
    refine ⟨List.cons_ne_nil c [], fun x hx => hdigits x ?_, fun hzero => absurd hzero hhead⟩
    rw [List.mem_singleton.mp hx]
    exact List.mem_cons_self
  cases rest with
  | nil => exact ⟨[c], fun e => rfl, .whole hfirst, List.filter_eq_self.mpr hdigits⟩
  | cons c' rest =>
    refine ⟨[c] ++ '.' :: (c' :: rest), fun e => rfl, .point hfirst (List.cons_ne_nil c' rest)
      (fun x hx => hdigits x (List.mem_cons_of_mem c hx)) ?_, ?_⟩
    · rwa [List.getLast?_cons_cons] at hend
    · have hpoint : ¬ Char.isDigit '.' = true := by decide
      rw [List.filter_append, List.filter_cons_of_neg hpoint, ← List.filter_append]
      exact List.filter_eq_self.mpr hdigits

/-- **A decimal whose last digit counts** is written with an exponent and without superfluous zeros. -/
theorem scientific_digits {d : Decimal} (hpos : 0 < d.coefficient) (hlast : ¬ 10 ∣ d.coefficient) :
    Scientific (scientific d.digits d.leadingExponent) d := by
  obtain ⟨mantissa, htext, hplain, -⟩ := exists_mantissa hpos hlast
  have hlength : 0 < d.digits.length := List.length_pos_of_ne_nil d.digits_ne_nil
  obtain ⟨m, hm⟩ : ∃ m : Decimal, m = ⟨d.coefficient, -(d.digits.length - 1 : Nat)⟩ := ⟨_, rfl⟩
  have hdigits : m.digits = d.digits := by rw [hm]; rfl
  rw [← hm] at hplain
  have hlow : 1 ≤ m.value := by
    have h := Decimal.le_value (d := m) (n := d.digits.length - 1) (by rwa [hm]) (by rw [hdigits]; omega)
    rwa [hm, neg_add_cancel, zpow_zero, ← hm] at h
  have hhigh : m.value < 10 := by
    have h := m.value_lt
    rwa [hdigits, hm, show (-(d.digits.length - 1 : Nat) : Int) + d.digits.length = 1 by omega,
      zpow_one, ← hm] at h
  have hscientific := Scientific.mk hplain hlow hhigh (isInteger_integerText d.leadingExponent)
  have hself : (⟨m.coefficient, m.exponent + d.leadingExponent⟩ : Decimal) = d := by
    rw [hm, Decimal.leadingExponent]
    cases d
    simp
    omega
  rw [hself] at hscientific
  rwa [htext]

/-! ## The first and the last digit -/

/-- A decimal is as large as the place of its first digit says. -/
theorem Decimal.le_leadingExponent_iff {d : Decimal} (hpos : 0 < d.coefficient) {e : Int} :
    e ≤ d.leadingExponent ↔ (10 : ℚ) ^ e ≤ d.value := by
  have hlength : 0 < d.digits.length := List.length_pos_of_ne_nil d.digits_ne_nil
  have hten : (1 : ℚ) ≤ 10 := by norm_num
  rw [leadingExponent]
  constructor
  · intro h
    have hvalue := le_value (n := d.digits.length - 1) hpos (by omega)
    exact (zpow_le_zpow_right₀ hten (by omega)).trans hvalue
  · intro h
    by_contra hlt
    have hvalue := d.value_lt.trans_le (zpow_le_zpow_right₀ hten (show _ ≤ e by omega))
    exact absurd h (not_le.mpr hvalue)

/-- The last digit of a shortest decimal counts, else a coarser one would do. -/
theorem not_dvd_shortest {k : Nat} (hk : 0 < k) : ¬ 10 ∣ (shortest k).coefficient := by
  rintro ⟨c, hc⟩
  have hrounds := shortest_rounds k
  have hpos := shortest_pos hk
  have hcoarse := shortest_coarsest (k := k) (d := ⟨c, 1 + (shortest k).exponent⟩)
  generalize shortest k = d at hc hrounds hpos hcoarse
  obtain ⟨n, e⟩ := d
  have hvalue : Decimal.value ⟨c, 1 + e⟩ = Decimal.value ⟨n, e⟩ := by
    rw [show n = c * 10 ^ 1 by rw [pow_one, Nat.mul_comm]; exact hc, Decimal.value_mul_pow]
    rfl
  have hle := hcoarse (by simp only at hc hpos ⊢; omega) (hvalue ▸ hrounds)
  simp only at hle
  omega

end Calculator
