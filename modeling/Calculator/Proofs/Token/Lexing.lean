import Calculator.Token.Lexer
import Mathlib.Data.List.TakeWhile

/-!
# Reading one lexeme

How a text is read lexeme by lexeme.

* `munch_number`, `munch_word` and `munch_symbol` take the three kinds of lexemes off a text,
  `lex_number_append`, `lex_word_append` and `lex_symbol` read them and what follows;
* `Literal` are the spellings of numbers with their values, `numberToken_of_literal` reads them;
* `lex_append` cuts a text where no lexeme goes over.
-/

namespace Calculator

open Text (isBlank)

/-! ## Characters -/

theorem isDigit_iff_toNat {c : Char} : c.isDigit = true ↔ 48 ≤ c.toNat ∧ c.toNat ≤ 57 := by
  simp [Char.isDigit, UInt32.le_iff_toNat_le]

theorem isAlpha_iff_toNat {c : Char} :
    c.isAlpha = true ↔ 65 ≤ c.toNat ∧ c.toNat ≤ 90 ∨ 97 ≤ c.toNat ∧ c.toNat ≤ 122 := by
  have hletters : c.isAlpha = (decide (65 ≤ c.val ∧ c.val ≤ 90)
      || (decide (97 ≤ c.val) && decide (c.val ≤ 122))) := rfl
  simp [hletters, UInt32.le_iff_toNat_le]

theorem isNumeral_iff {c : Char} : isNumeral c = true ↔ c.isDigit = true ∨ c = '.' := by
  simp [isNumeral]

/-- No point is among digits. -/
theorem point_notMem_of_digits {cs : List Char} (h : ∀ c ∈ cs, c.isDigit = true) : '.' ∉ cs :=
  fun hpoint => absurd (h '.' hpoint) (by decide)

/-- No printable ASCII character is a blank. -/
theorem toNat_of_isBlank {c : Char} (h : isBlank c = true) : c.toNat ≤ 32 ∨ 133 ≤ c.toNat := by
  obtain ⟨r, hr, hlow, hhigh⟩ := Text.inRanges_eq_true_iff.mp h
  -- No range of blanks meets the printable ASCII characters.
  simp only [Text.blankRanges, List.mem_cons, List.not_mem_nil, or_false] at hr
  rcases hr with rfl | rfl | rfl | rfl | rfl | rfl | rfl | rfl | rfl | rfl <;> simp at hlow hhigh <;>
    omega

/-- A printable ASCII character is no blank. -/
theorem isBlank_eq_false {c : Char} (h : 33 ≤ c.toNat) (h' : c.toNat ≤ 126) : isBlank c = false := by
  rw [Bool.eq_false_iff]
  intro hc
  have := toNat_of_isBlank hc
  omega

theorem isBlank_eq_false_of_isNumeral {c : Char} (h : isNumeral c = true) : isBlank c = false := by
  rcases isNumeral_iff.mp h with hd | rfl
  · have := isDigit_iff_toNat.mp hd
    exact isBlank_eq_false (by omega) (by omega)
  · decide

theorem isBlank_eq_false_of_isAlpha {c : Char} (h : c.isAlpha = true) : isBlank c = false := by
  have := isAlpha_iff_toNat.mp h
  exact isBlank_eq_false (by omega) (by omega)

theorem isNumeral_eq_false_of_isAlpha {c : Char} (h : c.isAlpha = true) : isNumeral c = false := by
  rw [Bool.eq_false_iff]
  intro hn
  rcases isNumeral_iff.mp hn with hd | rfl
  · have := isDigit_iff_toNat.mp hd
    have := isAlpha_iff_toNat.mp h
    omega
  · exact absurd h (by decide)

/-! ## Runs -/

/-- A run ends where the text goes on with another kind of character, or not at all. -/
theorem takeWhile_append_of_head {p : Char → Bool} {run rest : List Char}
    (hrun : ∀ c ∈ run, p c = true) (hrest : ∀ c ∈ rest.head?, p c = false) :
    (run ++ rest).takeWhile p = run := by
  rw [List.takeWhile_append_of_pos hrun]
  cases rest with
  | nil => simp
  | cons c rest => simp [hrest c rfl]

/-- What follows a run is left over. -/
theorem dropWhile_append_of_head {p : Char → Bool} {run rest : List Char}
    (hrun : ∀ c ∈ run, p c = true) (hrest : ∀ c ∈ rest.head?, p c = false) :
    (run ++ rest).dropWhile p = rest := by
  rw [List.dropWhile_append_of_pos hrun]
  cases rest with
  | nil => simp
  | cons c rest => simp [hrest c rfl]

/-- Blanks are passed over. -/
theorem lex_blanks {gap : List Char} (h : ∀ c ∈ gap, isBlank c = true) (cs : List Char) :
    lex (gap ++ cs) = lex cs := by
  induction gap with
  | nil => rfl
  | cons c gap ih =>
    rw [List.cons_append, lex_blank _ (h c List.mem_cons_self)]
    exact ih fun d hd => h d (List.mem_cons_of_mem _ hd)

/-! ## The three kinds of lexemes -/

/-- A run of digits and points is taken off as a number: it starts with a digit, or with a point and
a digit. -/
theorem munch_number {c : Char} {run rest : List Char}
    (hstart : c.isDigit = true ∨ c = '.' ∧ ∃ d ∈ run.head?, d.isDigit = true)
    (hrun : ∀ d ∈ run, isNumeral d = true) (hrest : ∀ d ∈ rest.head?, isNumeral d = false) :
    munch c (run ++ rest) = (numberToken (c :: run), rest) := by
  have hcond : (c.isDigit || c == '.' && (run ++ rest).head?.any Char.isDigit) = true := by
    rcases hstart with hc | ⟨rfl, d, hd, hdigit⟩
    · simp [hc]
    · simp [List.head?_append, Option.mem_def.mp hd, hdigit]
  rw [munch, if_pos hcond, takeWhile_append_of_head hrun hrest, dropWhile_append_of_head hrun hrest]

/-- A run of letters is taken off as a word. -/
theorem munch_word {c : Char} {run rest : List Char} (hc : c.isAlpha = true)
    (hrun : ∀ d ∈ run, d.isAlpha = true) (hrest : ∀ d ∈ rest.head?, d.isAlpha = false) :
    munch c (run ++ rest) = (wordToken (c :: run), rest) := by
  have hnumeral := isNumeral_eq_false_of_isAlpha hc
  have hcond : ¬ (c.isDigit || c == '.' && (run ++ rest).head?.any Char.isDigit) = true := by
    simp only [isNumeral, Bool.or_eq_false_iff] at hnumeral
    simp [hnumeral]
  rw [munch, if_neg hcond, if_pos hc, takeWhile_append_of_head hrun hrest,
    dropWhile_append_of_head hrun hrest]

/-- A run of digits and points at the start of a text is read as a number, and then what follows it. -/
theorem lex_number_append {c : Char} {run rest : List Char}
    (hstart : c.isDigit = true ∨ c = '.' ∧ ∃ d ∈ run.head?, d.isDigit = true)
    (hrun : ∀ d ∈ c :: run, isNumeral d = true) (hrest : ∀ d ∈ rest.head?, isNumeral d = false) :
    lex (c :: run ++ rest)
      = (numberToken (c :: run)).bind fun t => (lex rest).map (t :: ·) := by
  obtain ⟨hc, hrun⟩ := List.forall_mem_cons.mp hrun
  rw [List.cons_append, lex_lexeme _ (isBlank_eq_false_of_isNumeral hc),
    munch_number hstart hrun hrest]

/-- A run of letters at the start of a text is read as a word, and then what follows it. -/
theorem lex_word_append {c : Char} {run rest : List Char}
    (hrun : ∀ d ∈ c :: run, d.isAlpha = true) (hrest : ∀ d ∈ rest.head?, d.isAlpha = false) :
    lex (c :: run ++ rest)
      = (wordToken (c :: run)).bind fun t => (lex rest).map (t :: ·) := by
  obtain ⟨hc, hrun⟩ := List.forall_mem_cons.mp hrun
  rw [List.cons_append, lex_lexeme _ (isBlank_eq_false_of_isAlpha hc), munch_word hc hrun hrest]

theorem wordToken_name (f : NamedFunction) : wordToken f.name.toList = .ok (.function f) := by
  simp [wordToken, NamedFunction.ofName?_name]

/-- Any other character is taken off alone. -/
theorem munch_symbol {c : Char} (hc : isNumeral c = false) (hc' : c.isAlpha = false)
    (cs : List Char) : munch c cs = (symbolToken c, cs) := by
  simp only [isNumeral, Bool.or_eq_false_iff] at hc
  simp [munch, hc, hc']

/-- Whether a character is a lexeme whatever stands around it. -/
def standsAlone (c : Char) : Bool :=
  !isBlank c && !isNumeral c && !c.isAlpha

theorem standsAlone_iff {c : Char} :
    standsAlone c = true ↔ isBlank c = false ∧ isNumeral c = false ∧ c.isAlpha = false := by
  simp [standsAlone, and_assoc]

/-- The symbols of operators stand alone. -/
theorem standsAlone_symbol (op : BinaryOperator) : standsAlone op.symbol = true := by
  cases op <;> decide

theorem symbolToken_symbol (op : BinaryOperator) :
    symbolToken op.symbol = .ok (.operator op.symbol) := by
  simp [symbolToken, BinaryOperator.ofChar?_symbol]

/-- A character that stands alone and is a token is read as that. -/
theorem lex_symbol {c : Char} {t : Token} (hc : standsAlone c = true)
    (ht : symbolToken c = .ok t) (cs : List Char) :
    lex (c :: cs) = (lex cs).map (t :: ·) := by
  obtain ⟨hblank, hnumeral, halpha⟩ := standsAlone_iff.mp hc
  rw [lex_lexeme _ hblank, munch_symbol hnumeral halpha, ht]
  rfl

/-- A minus sign is a token of its own. -/
theorem lex_minus (cs : List Char) : lex ('-' :: cs) = (lex cs).map (.operator '-' :: ·) :=
  lex_symbol (standsAlone_symbol .sub) (symbolToken_symbol .sub) cs

/-! ## Cutting a text -/

/-- Whether a character is in no run of digits and points and in no run of letters. -/
def isBreak (c : Char) : Bool :=
  !isNumeral c && !c.isAlpha

theorem isBreak_iff {c : Char} : isBreak c = true ↔ isNumeral c = false ∧ c.isAlpha = false := by
  simp [isBreak]

theorem isBreak_of_standsAlone {c : Char} (h : standsAlone c = true) : isBreak c = true :=
  isBreak_iff.mpr (standsAlone_iff.mp h).2

/-- Whether no run goes over from one text to the next: the first ends with a break, or the second
starts with one. -/
def Cut (cs more : List Char) : Prop :=
  (∀ c ∈ cs.getLast?, isBreak c = true) ∨ ∀ c ∈ more.head?, isBreak c = true

theorem cut_cons (cs : List Char) {c : Char} (h : isBreak c = true) (more : List Char) :
    Cut cs (c :: more) :=
  .inr (by simpa using h)

/-- What is left of the first text ends as it does. -/
theorem Cut.of_suffix {cs ds more : List Char} (h : Cut cs more) (hd : ds <:+ cs) : Cut ds more := by
  obtain ⟨front, rfl⟩ := hd
  refine h.imp_left fun hlast c hc => hlast c ?_
  rw [List.getLast?_append, Option.mem_def.mp hc]
  rfl

/-- A run does not go over a cut. -/
theorem Cut.takeWhile_append {p : Char → Bool} {cs more : List Char} (h : Cut cs more)
    (hne : cs ≠ []) (hp : ∀ c, isBreak c = true → p c = false) :
    (cs ++ more).takeWhile p = cs.takeWhile p
      ∧ (cs ++ more).dropWhile p = cs.dropWhile p ++ more := by
  by_cases hall : ∀ c ∈ cs, p c = true
  · -- The run fills the first text, so that its last character is no break.
    have hhead : ∀ c ∈ more.head?, p c = false := by
      rcases h with hlast | hhead
      · have hbreak := hp _ (hlast _ (List.getLast?_eq_some_getLast hne))
        simp [hall _ (List.getLast_mem hne)] at hbreak
      · exact fun c hc => hp c (hhead c hc)
    rw [takeWhile_append_of_head hall hhead, dropWhile_append_of_head hall hhead,
      List.takeWhile_eq_self_iff.mpr hall, List.dropWhile_eq_nil_iff.mpr hall]
    exact ⟨rfl, rfl⟩
  · have hstop : cs.dropWhile p ≠ [] := fun hnil => hall (List.dropWhile_eq_nil_iff.mp hnil)
    have hlength : (cs.takeWhile p).length ≠ cs.length := fun heq =>
      hall (List.takeWhile_eq_self_iff.mp ((List.takeWhile_prefix p).eq_of_length heq))
    rw [List.takeWhile_append, if_neg hlength, List.dropWhile_append,
      if_neg (by simpa [List.isEmpty_iff] using hstop)]
    exact ⟨rfl, rfl⟩

/-- A lexeme does not go over a cut. -/
theorem munch_append {c : Char} {cs more : List Char} (h : Cut (c :: cs) more) :
    munch c (cs ++ more) = ((munch c cs).1, (munch c cs).2 ++ more) := by
  cases cs with
  | nil =>
    -- A lexeme of one character: it is a break, or it is followed by one and cannot go on.
    rcases h with hlast | hhead
    · obtain ⟨hnumeral, halpha⟩ := isBreak_iff.mp (hlast c rfl)
      rw [List.nil_append, munch_symbol hnumeral halpha, munch_symbol hnumeral halpha,
        List.nil_append]
    · cases more with
      | nil => rw [List.append_nil, List.append_nil]
      | cons d ds =>
        obtain ⟨hnumeral, halpha⟩ := isBreak_iff.mp (hhead d rfl)
        have hdigit : d.isDigit = false := by
          simp only [isNumeral, Bool.or_eq_false_iff] at hnumeral
          exact hnumeral.1
        by_cases hc : c.isDigit = true
        · simp [munch, hc, hnumeral]
        · by_cases hc' : c.isAlpha = true <;> simp [munch, hc, hc', hdigit, halpha]
  | cons d ds =>
    -- The runs behind the first character end before the cut, whichever of them is taken.
    have hcut : Cut (d :: ds) more := h.of_suffix (List.suffix_cons c _)
    have hnumeral := hcut.takeWhile_append (List.cons_ne_nil d ds) (p := isNumeral)
      (fun e he => (isBreak_iff.mp he).1)
    have halpha := hcut.takeWhile_append (List.cons_ne_nil d ds) (p := Char.isAlpha)
      (fun e he => (isBreak_iff.mp he).2)
    have hhead : (d :: ds ++ more).head? = (d :: ds).head? := rfl
    rw [munch, munch, hhead, hnumeral.1, hnumeral.2, halpha.1, halpha.2]
    split
    · rfl
    · split <;> rfl

/-- What is left behind a lexeme is an end of the text. -/
theorem munch_suffix (c : Char) (cs : List Char) : (munch c cs).2 <:+ c :: cs := by
  unfold munch
  split
  · exact (List.dropWhile_suffix _).trans (List.suffix_cons c cs)
  · split
    · exact (List.dropWhile_suffix _).trans (List.suffix_cons c cs)
    · exact List.suffix_cons c cs

/-- **A text can be cut at a break.** The tokens of the two parts are read one after the other, and an
error in the first part comes before one in the second. -/
theorem lex_append {cs more : List Char} (h : Cut cs more) :
    lex (cs ++ more) = (lex cs).bind fun ts => (lex more).map (ts ++ ·) := by
  induction cs using lex.induct with
  | case1 => cases hmore : lex more <;> simp [Except.bind, Except.map, hmore]
  | case2 c cs hblank ih =>
    rw [List.cons_append, lex_blank _ hblank, lex_blank _ hblank]
    exact ih (h.of_suffix (List.suffix_cons c cs))
  | case3 c cs hblank _ _ ih =>
    have hblank : isBlank c = false := by simpa using hblank
    have hrest : Cut (munch c cs).2 more := h.of_suffix (munch_suffix c cs)
    rw [List.cons_append, lex_lexeme _ hblank, lex_lexeme _ hblank, munch_append h, ih hrest]
    -- The error of the first lexeme comes first; behind a token the two readings go on alike.
    cases (munch c cs).1 with
    | error e => rfl
    | ok token =>
      cases lex (munch c cs).2 with
      | error e => rfl
      | ok tokens => cases lex more <;> rfl

/-! ## Numbers -/

/-- The spellings of a number, and the decimal that each spells: digits, or a point with digits at
one side at least. -/
inductive Literal : List Char → Decimal → Prop
  | whole {digits : List Char} : digits ≠ [] → (∀ c ∈ digits, c.isDigit = true) →
      Literal digits ⟨Nat.ofDigitChars 10 digits 0, 0⟩
  | point {digits places : List Char} : digits ≠ [] ∨ places ≠ [] →
      (∀ c ∈ digits, c.isDigit = true) → (∀ c ∈ places, c.isDigit = true) →
      Literal (digits ++ '.' :: places) ⟨Nat.ofDigitChars 10 (digits ++ places) 0, -places.length⟩

namespace Literal

/-- A spelling holds digits and points only. -/
theorem isNumeral_of_mem {run : List Char} {d : Decimal} (h : Literal run d) :
    ∀ c ∈ run, isNumeral c = true := by
  intro c hc
  rw [isNumeral_iff]
  cases h with
  | whole _ hdigits => exact .inl (hdigits c hc)
  | point _ hdigits hplaces =>
    rcases List.mem_append.mp hc with hc | hc
    · exact .inl (hdigits c hc)
    · rcases List.mem_cons.mp hc with rfl | hc
      · exact .inr rfl
      · exact .inl (hplaces c hc)

/-- A spelling starts with a digit, or with a point and a digit. -/
theorem exists_cons {run : List Char} {d : Decimal} (h : Literal run d) :
    ∃ c cs, run = c :: cs ∧ (c.isDigit = true ∨ c = '.' ∧ ∃ e ∈ cs.head?, e.isDigit = true) := by
  cases h with
  | whole hne hdigits =>
    obtain ⟨c, cs, rfl⟩ := List.exists_cons_of_ne_nil hne
    exact ⟨c, cs, rfl, .inl (hdigits c List.mem_cons_self)⟩
  | @point digits places hne hdigits hplaces =>
    cases digits with
    | cons c digits =>
      exact ⟨c, digits ++ '.' :: places, rfl, .inl (hdigits c List.mem_cons_self)⟩
    | nil =>
      obtain ⟨e, es, rfl⟩ := List.exists_cons_of_ne_nil (hne.resolve_left (fun h => h rfl))
      exact ⟨'.', e :: es, rfl, .inr ⟨rfl, e, rfl, hplaces e List.mem_cons_self⟩⟩

/-- A spelling is read as the decimal that it spells. -/
theorem literal_eq {run : List Char} {d : Decimal} (h : Literal run d) : literal run = d := by
  have hpoint (places : List Char) : ∀ c ∈ ('.' :: places).head?, c.isDigit = false := by
    simp only [List.head?_cons, Option.mem_def, Option.some.injEq]
    rintro _ rfl
    decide
  cases h with
  | whole _ hdigits =>
    simp [literal, List.takeWhile_eq_self_iff.mpr hdigits, List.dropWhile_eq_nil_iff.mpr hdigits]
  | @point digits places _ hdigits hplaces =>
    simp [literal, takeWhile_append_of_head hdigits (hpoint places),
      dropWhile_append_of_head hdigits (hpoint places), List.takeWhile_eq_self_iff.mpr hplaces]

end Literal

/-- A spelling whose decimal is not too large is the token of the nearest double. -/
theorem numberToken_of_literal {run : List Char} {d : Decimal} (h : Literal run d)
    (hfinite : Double.isFinite (d.toFloat false) = true) :
    numberToken run = .ok (.number (d.toFloat false)) := by
  simp [numberToken, h.literal_eq, hfinite]

end Calculator
