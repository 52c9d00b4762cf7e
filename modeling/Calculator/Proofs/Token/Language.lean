import Calculator.Proofs.Decimal.Value
import Calculator.Proofs.Token.Spelling

/-!
# The lexical language

Which texts have tokens, and what is wrong with the others. A text is cut from left to right into
blanks, symbols, runs of letters and runs of digits and points, every run as long as it can be. Each
piece is told by what it is made of: it is a blank, a token, or an error, and the first error is the
error of the text.

* `IsRun` are the runs, `StartsNumber` tells where a number starts, and `Head` which part of its run
  counts;
* `Piece` is a piece with what it comes to, `Splits` a text cut into pieces without an error;
* `lex_piece` and `exists_piece` compare a piece with what is read at the start of a text;
* `lex_eq_ok_iff` and `lex_eq_error_iff` are about texts, `Splits.exists_lexeme` is about their tokens.
-/

namespace Calculator

open Text (isBlank)

/-! ## Pieces -/

/-- A run of one kind of characters, behind which the text does not go on with this kind. -/
structure IsRun (p : Char → Bool) (run rest : List Char) : Prop where
  ne_nil : run ≠ []
  all : ∀ c ∈ run, p c = true
  ends : ∀ c ∈ rest.head?, p c = false

/-- A number starts with a digit, or with a point and a digit. -/
inductive StartsNumber : List Char → Prop
  | digit {c : Char} {cs : List Char} : c.isDigit = true → StartsNumber (c :: cs)
  | point {c : Char} {cs : List Char} : c.isDigit = true → StartsNumber ('.' :: c :: cs)

/-- The head of a run of digits and points is what stands before its second point, or all of it. -/
inductive Head : List Char → List Char → Prop
  | whole {run : List Char} : run.count '.' ≤ 1 → Head run run
  | cut {head tail : List Char} : head.count '.' = 1 → Head (head ++ '.' :: tail) head

/-- `Piece run rest outcome`: a text that starts with `run` and goes on with `rest` is cut between
them, and `run` comes to these tokens, none for a blank, or to this error. -/
inductive Piece : List Char → List Char → Except LexError (List Token) → Prop
  | blank {c : Char} {rest : List Char} : isBlank c = true → Piece [c] rest (.ok [])
  | operator {rest : List Char} (op : BinaryOperator) :
      Piece [op.symbol] rest (.ok [.operator op.symbol])
  | openParen {rest : List Char} : Piece ['('] rest (.ok [.openParen])
  | closeParen {rest : List Char} : Piece [')'] rest (.ok [.closeParen])
  | function {rest : List Char} (f : NamedFunction) : IsRun Char.isAlpha f.name.toList rest →
      Piece f.name.toList rest (.ok [.function f])
  | number {run head rest : List Char} {d : Decimal} {v : Float} : IsRun isNumeral run rest →
      StartsNumber run → Head run head → Literal head d → d.ReadAs v →
      Piece run rest (.ok [.number v])
  | unknownIdentifier {run rest : List Char} : IsRun Char.isAlpha run rest →
      (∀ f : NamedFunction, run ≠ f.name.toList) →
      Piece run rest (.error (.unknownIdentifier (String.ofList run)))
  | invalidNumber {run head rest : List Char} {d : Decimal} : IsRun isNumeral run rest →
      StartsNumber run → Head run head → Literal head d → d.Overflows →
      Piece run rest (.error (.invalidNumber (String.ofList run)))
  | point {rest : List Char} : (∀ c ∈ rest.head?, c.isDigit = false) →
      Piece ['.'] rest (.error (.invalidCharacter '.'))
  | invalidCharacter {c : Char} {rest : List Char} : isBlank c = false → isNumeral c = false →
      c.isAlpha = false → (∀ op : BinaryOperator, c ≠ op.symbol) → c ≠ '(' → c ≠ ')' →
      Piece [c] rest (.error (.invalidCharacter c))

/-- `Splits cs ts rest`: the text is cut into pieces without an error, which come to these tokens, and
a rest. -/
inductive Splits : List Char → List Token → List Char → Prop
  | nil {rest : List Char} : Splits rest [] rest
  | cons {run cs rest : List Char} {ts us : List Token} : Piece run cs (.ok ts) →
      Splits cs us rest → Splits (run ++ cs) (ts ++ us) rest

/-! ## Runs -/

/-- A character starts a run of its kind, which goes as far as it can. -/
theorem isRun_takeWhile {p : Char → Bool} {c : Char} (cs : List Char) (hc : p c = true) :
    IsRun p ((c :: cs).takeWhile p) ((c :: cs).dropWhile p) where
  ne_nil := by simp [hc]
  all d hd := List.mem_takeWhile_imp hd
  ends d hd := by
    have hstop := List.head?_dropWhile_not p (c :: cs)
    rwa [Option.mem_def.mp hd] at hstop

/-- A digit or a point that starts a number starts a run. -/
theorem StartsNumber.exists_cons {cs : List Char} (h : StartsNumber cs) :
    ∃ c ds, cs = c :: ds ∧ isNumeral c = true
      ∧ (c.isDigit = true ∨ c = '.' ∧ ∃ d ∈ ds.head?, d.isDigit = true) := by
  cases h with
  | @digit c ds hc => exact ⟨c, ds, rfl, isNumeral_iff.mpr (.inl hc), .inl hc⟩
  | @point c ds hc => exact ⟨'.', c :: ds, rfl, rfl, .inr ⟨rfl, c, rfl, hc⟩⟩

/-- What starts a number starts the run that the number stands in. -/
theorem StartsNumber.takeWhile {cs : List Char} (h : StartsNumber cs) :
    StartsNumber (cs.takeWhile isNumeral) := by
  cases h with
  | digit hc =>
    rw [List.takeWhile_cons_of_pos (isNumeral_iff.mpr (.inl hc))]
    exact .digit hc
  | point hc =>
    rw [List.takeWhile_cons_of_pos rfl, List.takeWhile_cons_of_pos (isNumeral_iff.mpr (.inl hc))]
    exact .point hc

/-- Digits hold no point. -/
theorem count_point_of_digits {cs : List Char} (h : ∀ c ∈ cs, c.isDigit = true) :
    cs.count '.' = 0 :=
  List.count_eq_zero.mpr (point_notMem_of_digits h)

/-- A run of digits and points is digits only, or it has a first point. -/
theorem digits_or_point {cs : List Char} (h : ∀ c ∈ cs, isNumeral c = true) :
    (∀ c ∈ cs, c.isDigit = true)
      ∨ ∃ digits more, cs = digits ++ '.' :: more ∧ (∀ c ∈ digits, c.isDigit = true)
          ∧ ∀ c ∈ more, isNumeral c = true := by
  induction cs with
  | nil => exact .inl (by simp)
  | cons c cs ih =>
    obtain ⟨hc, hcs⟩ := List.forall_mem_cons.mp h
    rcases isNumeral_iff.mp hc with hdigit | rfl
    · rcases ih hcs with hdigits | ⟨digits, more, rfl, hdigits, hmore⟩
      · exact .inl (List.forall_mem_cons.mpr ⟨hdigit, hdigits⟩)
      · exact .inr ⟨c :: digits, more, rfl, List.forall_mem_cons.mpr ⟨hdigit, hdigits⟩, hmore⟩
    · exact .inr ⟨[], cs, rfl, by simp, hcs⟩

/-- A digit stands before the first point of a number, or right behind it. -/
theorem StartsNumber.digit_at_point {digits more : List Char}
    (h : StartsNumber (digits ++ '.' :: more)) :
    digits ≠ [] ∨ ∃ c ∈ more.head?, c.isDigit = true := by
  cases digits with
  | cons c digits => exact .inl (List.cons_ne_nil c digits)
  | nil =>
    cases h with
    | digit hpoint => exact absurd hpoint (by decide)
    | @point c cs hc => exact .inr ⟨c, rfl, hc⟩

/-- The head of a run that starts a number spells a number. -/
theorem exists_head {run : List Char} (hrun : ∀ c ∈ run, isNumeral c = true)
    (hstart : StartsNumber run) : ∃ head d, Head run head ∧ Literal head d := by
  rcases digits_or_point hrun with hdigits | ⟨digits, more, rfl, hdigits, hmore⟩
  · have hne : run ≠ [] := by
      obtain ⟨c, cs, rfl, -⟩ := hstart.exists_cons
      exact List.cons_ne_nil c cs
    have hcount : run.count '.' ≤ 1 := by
      rw [count_point_of_digits hdigits]
      exact Nat.zero_le 1
    exact ⟨run, _, .whole hcount, .whole hne hdigits⟩
  have hcount {places : List Char} (hplaces : ∀ c ∈ places, c.isDigit = true) :
      (digits ++ '.' :: places).count '.' = 1 := by
    rw [List.count_append, List.count_cons_self, count_point_of_digits hdigits,
      count_point_of_digits hplaces]
  rcases digits_or_point hmore with hplaces | ⟨places, rest, rfl, hplaces, -⟩
  · have hne : digits ≠ [] ∨ more ≠ [] := hstart.digit_at_point.imp_right fun hhead hnil => by
      simp [hnil] at hhead
    exact ⟨_, _, .whole (hcount hplaces).le, .point hne hdigits hplaces⟩
  · -- The second point is no digit, so that it does not follow the first one.
    have hne : digits ≠ [] ∨ places ≠ [] := hstart.digit_at_point.imp_right fun hhead hnil => by
      simp [hnil] at hhead
    refine ⟨digits ++ '.' :: places, _, ?_, .point hne hdigits hplaces⟩
    rw [← List.cons_append, ← List.append_assoc]
    exact .cut (hcount hplaces)

/-- A run is read as what its head spells. -/
theorem literal_of_head {run head : List Char} {d : Decimal} (hhead : Head run head)
    (h : Literal head d) : literal run = d := by
  cases hhead with
  | whole _ => exact h.literal_eq
  | @cut head tail hcount =>
    cases h with
    | whole _ hdigits =>
      rw [count_point_of_digits hdigits] at hcount
      cases hcount
    | @point digits places _ hdigits hplaces =>
      have hpoint (more : List Char) : ∀ c ∈ ('.' :: more).head?, c.isDigit = false := by
        rintro c ⟨⟩
        decide
      rw [List.append_assoc, List.cons_append]
      simp [literal, takeWhile_append_of_head hdigits (hpoint _),
        dropWhile_append_of_head hdigits (hpoint _), takeWhile_append_of_head hplaces (hpoint _)]

/-! ## What a run comes to -/

/-- A run of digits and points is read as the double nearest to its head. -/
theorem numberToken_of_readAs {run head : List Char} {d : Decimal} {v : Float}
    (hhead : Head run head) (hd : Literal head d) (hv : d.ReadAs v) :
    numberToken run = .ok (.number v) := by
  simp [numberToken, literal_of_head hhead hd, hv.toFloat_eq, hv.isFinite]

/-- A run of digits and points is refused if its head is too large. -/
theorem numberToken_of_overflows {run head : List Char} {d : Decimal} (hhead : Head run head)
    (hd : Literal head d) (hlarge : d.Overflows) :
    numberToken run = .error (.invalidNumber (String.ofList run)) := by
  simp [numberToken, literal_of_head hhead hd, hlarge.isFinite_toFloat]

/-- Only the names of functions call one. -/
theorem wordToken_of_ne {run : List Char} (h : ∀ f : NamedFunction, run ≠ f.name.toList) :
    wordToken run = .error (.unknownIdentifier (String.ofList run)) := by
  have hnone : NamedFunction.ofName? (String.ofList run) = none := by
    rw [NamedFunction.ofName?, List.find?_eq_none]
    intro f _ hf
    have hname := beq_iff_eq.mp hf
    exact h f (by rw [hname, String.toList_ofList])
  rw [wordToken, hnone]

/-- A character that is no token by itself is an error. -/
theorem symbolToken_of_ne {c : Char} (h : ∀ op : BinaryOperator, c ≠ op.symbol) (hopen : c ≠ '(')
    (hclose : c ≠ ')') : symbolToken c = .error (.invalidCharacter c) := by
  have hnone : BinaryOperator.ofChar? c = none := by
    rw [Option.eq_none_iff_forall_ne_some]
    exact fun op hop => h op (BinaryOperator.ofChar?_eq_some_iff.mp hop)
  simp [symbolToken, hnone, hopen, hclose]

/-- A run of digits and points that starts a number is read as one lexeme. -/
theorem lex_run_number {run rest : List Char} (h : IsRun isNumeral run rest)
    (hstart : StartsNumber run) :
    lex (run ++ rest) = (numberToken run).bind fun t => (lex rest).map (t :: ·) := by
  obtain ⟨c, cs, rfl, -, hfirst⟩ := hstart.exists_cons
  exact lex_number_append hfirst h.all h.ends

/-- A run of letters is read as one lexeme. -/
theorem lex_run_word {run rest : List Char} (h : IsRun Char.isAlpha run rest) :
    lex (run ++ rest) = (wordToken run).bind fun t => (lex rest).map (t :: ·) := by
  obtain ⟨c, cs, rfl⟩ := List.exists_cons_of_ne_nil h.ne_nil
  exact lex_word_append h.all h.ends

/-- A point that no digit follows is taken off alone. -/
theorem munch_point {cs : List Char} (h : ∀ c ∈ cs.head?, c.isDigit = false) :
    munch '.' cs = (.error (.invalidCharacter '.'), cs) := by
  have hdigit : cs.head?.any Char.isDigit = false := by
    cases cs with
    | nil => rfl
    | cons c cs => exact h c rfl
  have hpoint : symbolToken '.' = .error (.invalidCharacter '.') := by decide
  simp [munch, hdigit, hpoint, show '.'.isDigit = false by decide, show '.'.isAlpha = false by decide]

/-- **A piece is read as what it comes to**, and then its rest is read. -/
theorem lex_piece {run rest : List Char} {outcome : Except LexError (List Token)}
    (h : Piece run rest outcome) :
    lex (run ++ rest) = outcome.bind fun ts => (lex rest).map (ts ++ ·) := by
  have hsymbol {c : Char} {t : Token} (hc : standsAlone c = true) (ht : symbolToken c = .ok t) :
      lex ([c] ++ rest) = (Except.ok [t]).bind fun ts => (lex rest).map (ts ++ ·) :=
    lex_symbol hc ht rest
  cases h with
  | blank hc =>
    rw [List.singleton_append, lex_blank rest hc]
    cases hrest : lex rest <;> simp [Except.bind, Except.map]
  | operator op => exact hsymbol (standsAlone_symbol op) (symbolToken_symbol op)
  | openParen => exact hsymbol (by decide) (by decide)
  | closeParen => exact hsymbol (by decide) (by decide)
  | function f hrun =>
    rw [lex_run_word hrun, wordToken_name]
    rfl
  | number hrun hstart hhead hd hv =>
    rw [lex_run_number hrun hstart, numberToken_of_readAs hhead hd hv]
    rfl
  | unknownIdentifier hrun hne =>
    rw [lex_run_word hrun, wordToken_of_ne hne]
    rfl
  | invalidNumber hrun hstart hhead hd hlarge =>
    rw [lex_run_number hrun hstart, numberToken_of_overflows hhead hd hlarge]
    rfl
  | point hrest =>
    rw [List.singleton_append, lex_lexeme _ (by decide), munch_point hrest]
    rfl
  | invalidCharacter hblank hnumeral halpha hop hopen hclose =>
    rw [List.singleton_append, lex_lexeme _ hblank, munch_symbol hnumeral halpha,
      symbolToken_of_ne hop hopen hclose]
    rfl

/-! ## Cutting a text -/

/-- What starts a number starts with a piece: the run is as long as it can be, and its head has a value,
which may be too large. -/
theorem exists_piece_of_startsNumber {cs : List Char} (hstart : StartsNumber cs) :
    ∃ run rest outcome, cs = run ++ rest ∧ run ≠ [] ∧ Piece run rest outcome := by
  obtain ⟨c, ds, rfl, hc, -⟩ := hstart.exists_cons
  have hrun := isRun_takeWhile ds hc
  obtain ⟨head, d, hhead, hd⟩ := exists_head hrun.all hstart.takeWhile
  have hsplit := (List.takeWhile_append_dropWhile (p := isNumeral) (l := c :: ds)).symm
  rcases d.readAs_or_overflows with hv | hlarge
  · exact ⟨_, _, _, hsplit, hrun.ne_nil, .number hrun hstart.takeWhile hhead hd hv⟩
  · exact ⟨_, _, _, hsplit, hrun.ne_nil, .invalidNumber hrun hstart.takeWhile hhead hd hlarge⟩

/-- So does what starts with a letter: the run is a name, or it is not. -/
theorem exists_piece_of_isAlpha {c : Char} (halpha : c.isAlpha = true) (cs : List Char) :
    ∃ run rest outcome, c :: cs = run ++ rest ∧ run ≠ [] ∧ Piece run rest outcome := by
  have hrun := isRun_takeWhile cs halpha
  have hsplit := (List.takeWhile_append_dropWhile (p := Char.isAlpha) (l := c :: cs)).symm
  by_cases hname : ∃ f : NamedFunction, (c :: cs).takeWhile Char.isAlpha = f.name.toList
  · obtain ⟨f, hf⟩ := hname
    rw [hf] at hrun hsplit
    exact ⟨_, _, _, hsplit, hrun.ne_nil, .function f hrun⟩
  · push Not at hname
    exact ⟨_, _, _, hsplit, hrun.ne_nil, .unknownIdentifier hrun hname⟩

/-- A character that stands alone is a piece by itself. -/
theorem exists_piece_of_standsAlone {c : Char} (halone : standsAlone c = true) (cs : List Char) :
    ∃ outcome, Piece [c] cs outcome := by
  obtain ⟨hblank, hnumeral, halpha⟩ := standsAlone_iff.mp halone
  by_cases hop : ∃ op : BinaryOperator, c = op.symbol
  · obtain ⟨op, rfl⟩ := hop
    exact ⟨_, .operator op⟩
  push Not at hop
  by_cases hopen : c = '('
  · subst hopen
    exact ⟨_, .openParen⟩
  by_cases hclose : c = ')'
  · subst hclose
    exact ⟨_, .closeParen⟩
  exact ⟨_, .invalidCharacter hblank hnumeral halpha hop hopen hclose⟩

/-- **Every text starts with a piece.** -/
theorem exists_piece (c : Char) (cs : List Char) :
    ∃ run rest outcome, c :: cs = run ++ rest ∧ run ≠ [] ∧ Piece run rest outcome := by
  by_cases hblank : isBlank c = true
  · exact ⟨[c], cs, _, rfl, List.cons_ne_nil c [], .blank hblank⟩
  by_cases hstart : StartsNumber (c :: cs)
  · exact exists_piece_of_startsNumber hstart
  by_cases halpha : c.isAlpha = true
  · exact exists_piece_of_isAlpha halpha cs
  by_cases hpoint : c = '.'
  · subst hpoint
    refine ⟨['.'], cs, _, rfl, List.cons_ne_nil _ _, .point fun d hd => ?_⟩
    rw [Bool.eq_false_iff]
    intro hdigit
    obtain ⟨ds, rfl⟩ : ∃ ds, cs = d :: ds := List.head?_eq_some_iff.mp hd
    exact hstart (.point hdigit)
  have hnumeral : isNumeral c = false := by
    rw [Bool.eq_false_iff]
    intro hn
    rcases isNumeral_iff.mp hn with hdigit | hc
    · exact hstart (.digit hdigit)
    · exact hpoint hc
  have halone : standsAlone c = true :=
    standsAlone_iff.mpr ⟨by simpa using hblank, hnumeral, by simpa using halpha⟩
  obtain ⟨outcome, hpiece⟩ := exists_piece_of_standsAlone halone cs
  exact ⟨[c], cs, outcome, rfl, List.cons_ne_nil c [], hpiece⟩

/-- A text that is cut is read as the tokens of its pieces, and then its rest is read. -/
theorem lex_of_splits {cs rest : List Char} {ts : List Token} (h : Splits cs ts rest) :
    lex cs = (lex rest).map (ts ++ ·) := by
  induction h with
  | @nil rest => cases hrest : lex rest <;> simp [Except.map]
  | @cons run cs rest ts us hpiece _ ih =>
    rw [lex_piece hpiece, ih]
    cases lex rest <;> simp [Except.bind, Except.map]

/-- **Every text is cut** into pieces without an error, up to its end or to the first error. -/
theorem exists_splits (cs : List Char) :
    ∃ ts rest, Splits cs ts rest
      ∧ (rest = [] ∨ ∃ run more e, rest = run ++ more ∧ Piece run more (.error e)) := by
  -- The induction is on the length of the text: the first piece is not empty.
  induction hlength : cs.length using Nat.strong_induction_on generalizing cs with
  | _ length ih =>
    rcases cs with _ | ⟨c, cs⟩
    · exact ⟨[], [], .nil, .inl rfl⟩
    obtain ⟨run, more, outcome, hcs, hne, hpiece⟩ := exists_piece c cs
    rw [hcs] at hlength ⊢
    cases outcome with
    | error e => exact ⟨[], run ++ more, .nil, .inr ⟨run, more, e, rfl, hpiece⟩⟩
    | ok ts =>
      have hshorter : more.length < length := by
        have := List.length_pos_iff.mpr hne
        rw [← hlength, List.length_append]
        omega
      obtain ⟨us, rest, hsplits, hrest⟩ := ih _ hshorter more rfl
      exact ⟨ts ++ us, rest, .cons hpiece hsplits, hrest⟩

/-- **A text has tokens** if it can be cut into pieces without an error. -/
theorem lex_eq_ok_iff {cs : List Char} {ts : List Token} : lex cs = .ok ts ↔ Splits cs ts [] := by
  constructor
  · intro h
    obtain ⟨us, rest, hsplits, rfl | ⟨run, more, e, rfl, hpiece⟩⟩ := exists_splits cs
    · have hread := lex_of_splits hsplits
      rw [h, lex_nil] at hread
      have heq : ts = us := by simpa [Except.map] using hread
      rwa [heq]
    · have hread := lex_of_splits hsplits
      rw [h, lex_piece hpiece] at hread
      cases hread
  · intro h
    rw [lex_of_splits h, lex_nil]
    simp [Except.map]

/-- **The error of a text** is the first error among its pieces. -/
theorem lex_eq_error_iff {cs : List Char} {e : LexError} :
    lex cs = .error e
      ↔ ∃ ts run rest, Splits cs ts (run ++ rest) ∧ Piece run rest (.error e) := by
  constructor
  · intro h
    obtain ⟨ts, rest, hsplits, rfl | ⟨run, more, e', rfl, hpiece⟩⟩ := exists_splits cs
    · rw [lex_eq_ok_iff.mpr hsplits] at h
      cases h
    · have hread := lex_of_splits hsplits
      rw [h, lex_piece hpiece] at hread
      have heq : e = e' := by simpa [Except.map, Except.bind] using hread
      exact ⟨ts, run, more, hsplits, heq ▸ hpiece⟩
  · rintro ⟨ts, run, rest, hsplits, hpiece⟩
    rw [lex_of_splits hsplits, lex_piece hpiece]
    rfl

/-! ## The tokens -/

/-- A spelling of a number is one of the double that it is read as. -/
theorem Lexeme.of_readAs {run : List Char} {d : Decimal} {v : Float} (hd : Literal run d)
    (hv : d.ReadAs v) : Lexeme run (.number v) := by
  have hlexeme : Lexeme run (.number (d.toFloat false)) := .number hd (by
    rw [hv.toFloat_eq]
    exact hv.isFinite)
  rwa [hv.toFloat_eq] at hlexeme

/-- The tokens of a piece have spellings. -/
theorem Piece.exists_lexeme {run rest : List Char} {ts : List Token} (h : Piece run rest (.ok ts)) :
    ∀ t ∈ ts, ∃ spelling, Lexeme spelling t := by
  intro t ht
  cases h with
  | blank _ => cases ht
  | operator op =>
    obtain rfl := List.mem_singleton.mp ht
    exact ⟨_, .operator op⟩
  | openParen =>
    obtain rfl := List.mem_singleton.mp ht
    exact ⟨_, .openParen⟩
  | closeParen =>
    obtain rfl := List.mem_singleton.mp ht
    exact ⟨_, .closeParen⟩
  | function f _ =>
    obtain rfl := List.mem_singleton.mp ht
    exact ⟨_, .function f⟩
  | number _ _ _ hd hv =>
    obtain rfl := List.mem_singleton.mp ht
    exact ⟨_, .of_readAs hd hv⟩

/-- The tokens of a text that is cut have spellings. -/
theorem Splits.exists_lexeme {cs rest : List Char} {ts : List Token} (h : Splits cs ts rest) :
    ∀ t ∈ ts, ∃ spelling, Lexeme spelling t := by
  induction h with
  | nil =>
    intro t ht
    cases ht
  | cons hpiece _ ih =>
    intro t ht
    rcases List.mem_append.mp ht with ht | ht
    · exact hpiece.exists_lexeme t ht
    · exact ih t ht

end Calculator
