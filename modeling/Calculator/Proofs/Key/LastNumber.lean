import Calculator.Proofs.Key.Alphabet
import Calculator.Proofs.Token.Language

/-!
# The last number of an expression

The sign key looks for the number at the end of an expression from behind, and tells a unary minus by the
character before it. The engine reads the expression from the front, and tells a unary minus by the token
before it. On the expressions that can be typed both see the same, with two reservations: of a run with
several points the key takes the end only, and it knows no unary minus behind the name of a function.

* `Splits.exists_last` is the last piece of a text that is cut, `Token.EndsWith` tells its token by its last
  character;
* `opens_iff_of_splits` and `endsInUnaryMinus_iff_of_splits` tell what a text ends with by its tokens;
* `NumberAtEnd` is what key and engine make of the end of a text, which `reached_numberAtEnd` shows for
  every expression that can be typed.
-/

namespace Calculator

open Text (isBlank)

/-! ## The last piece -/

/-- **The last piece.** A text that is cut has a last piece before its rest, unless nothing has been cut
off. -/
theorem Splits.exists_last {cs rest : List Char} {ts : List Token} (h : Splits cs ts rest) :
    (cs = rest ∧ ts = []) ∨ ∃ front run us vs, cs = front ++ run ++ rest ∧ ts = us ++ vs
      ∧ Splits cs us (run ++ rest) ∧ Piece run rest (.ok vs) := by
  induction h with
  | nil => exact .inl ⟨rfl, rfl⟩
  | @cons run cs rest ts us hpiece _ ih =>
    right
    rcases ih with ⟨rfl, rfl⟩ | ⟨front, last, vs, ws, rfl, rfl, hsplits, hlast⟩
    · exact ⟨[], run, [], ts, rfl, by simp, .nil, hpiece⟩
    · exact ⟨run ++ front, last, ts ++ vs, ws, by simp, by simp, .cons hpiece hsplits, hlast⟩

/-- What the last character of a lexeme says about its token. -/
def Token.EndsWith (c : Char) : Token → Prop
  | number _ => isNumeral c = true
  | function _ => c.isAlpha = true
  | operator symbol => c = symbol ∧ ∃ op : BinaryOperator, symbol = op.symbol
  | openParen => c = '('
  | closeParen => c = ')'

/-- A piece is a blank, or it comes to one token, and ends as this token does. -/
theorem Piece.last {run rest : List Char} {ts : List Token} (h : Piece run rest (.ok ts)) :
    ∃ c ∈ run.getLast?, isBlank c = true ∧ ts = [] ∨ ∃ t, ts = [t] ∧ t.EndsWith c := by
  cases h with
  | @blank c _ hblank => exact ⟨c, rfl, .inl ⟨hblank, rfl⟩⟩
  | operator op => exact ⟨_, rfl, .inr ⟨_, rfl, rfl, op, rfl⟩⟩
  | openParen => exact ⟨_, rfl, .inr ⟨_, rfl, rfl⟩⟩
  | closeParen => exact ⟨_, rfl, .inr ⟨_, rfl, rfl⟩⟩
  | function f hrun =>
    have hlast := List.getLast_mem hrun.ne_nil
    exact ⟨_, List.getLast?_eq_some_getLast hrun.ne_nil, .inr ⟨_, rfl, hrun.all _ hlast⟩⟩
  | number hrun =>
    have hlast := List.getLast_mem hrun.ne_nil
    exact ⟨_, List.getLast?_eq_some_getLast hrun.ne_nil, .inr ⟨_, rfl, hrun.all _ hlast⟩⟩

/-- A piece that comes to an operator is the symbol of it. -/
theorem Piece.eq_of_operator {run rest : List Char} {c : Char}
    (h : Piece run rest (.ok [.operator c])) : run = [c] := by
  cases h
  rfl

/-- A piece that comes to a number is a run of digits and points, from a start of a number on. -/
theorem Piece.isRun_of_number {run rest : List Char} {v : Float}
    (h : Piece run rest (.ok [.number v])) : IsRun isNumeral run rest ∧ StartsNumber run := by
  cases h with
  | number hrun hstart => exact ⟨hrun, hstart⟩

/-- A run that starts a number comes to one, if it is read as one. -/
theorem IsRun.exists_number {run rest : List Char} (h : IsRun isNumeral run rest)
    (hstart : StartsNumber run) (hread : (numberToken run).isOk = true) :
    ∃ v, Piece run rest (.ok [.number v]) := by
  obtain ⟨head, d, hhead, hd⟩ := exists_head h.all hstart
  rcases d.readAs_or_overflows with hv | hlarge
  · exact ⟨_, .number h hstart hhead hd hv⟩
  · rw [numberToken_of_overflows hhead hd hlarge] at hread
    cases hread

/-- Without blanks, a text that is cut ends with its last token. -/
theorem Splits.exists_last_token {before rest : List Char} {ts : List Token}
    (h : Splits (before ++ rest) ts rest) (hblank : ∀ c ∈ before, isBlank c = false) :
    (before = [] ∧ ts = []) ∨ ∃ front run us t c, before = front ++ run ∧ ts = us ++ [t]
      ∧ Splits (front ++ (run ++ rest)) us (run ++ rest) ∧ Piece run rest (.ok [t])
      ∧ c ∈ before.getLast? ∧ t.EndsWith c := by
  rcases h.exists_last with ⟨hnil, rfl⟩ | ⟨front, run, us, vs, hwhole, rfl, hsplits, hpiece⟩
  · exact .inl ⟨by simpa using hnil, rfl⟩
  · obtain rfl := List.append_cancel_right hwhole
    rw [List.append_assoc] at hsplits
    obtain ⟨c, hc, hlast⟩ := hpiece.last
    replace hc : c ∈ (front ++ run).getLast? := List.mem_getLast?_append_of_mem_getLast? hc
    rcases hlast with ⟨hblank', -⟩ | ⟨t, rfl, ht⟩
    · simp [hblank c (List.mem_of_mem_getLast? hc)] at hblank'
    · exact .inr ⟨front, run, us, t, c, rfl, rfl, hsplits, hpiece, hc, ht⟩

/-! ## What a text ends with -/

/-- An operand can stand behind a token exactly if it can stand behind its last character. -/
theorem Token.EndsWith.opens_iff {t : Token} {c : Char} (h : t.EndsWith c) :
    t.Opens ↔ c ∈ ['+', '-', '*', '/', '^', '('] := by
  cases t with
  | number _ | function _ =>
    refine ⟨nofun, fun hc => ?_⟩
    have hbreak := isBreak_iff.mp (isBreak_of_mem_opening hc)
    simp [hbreak, EndsWith] at h
  | operator symbol =>
    obtain ⟨rfl, op, rfl⟩ := h
    exact ⟨fun _ => mem_opening_iff.mpr (.inl ⟨op, rfl⟩), fun _ => .inr ⟨op, rfl⟩⟩
  | openParen => exact ⟨fun _ => mem_opening_iff.mpr (.inr h), fun _ => .inl rfl⟩
  | closeParen =>
    obtain rfl : c = ')' := h
    exact ⟨nofun, fun hc => absurd hc (by decide)⟩

/-- A token is a minus sign exactly if it ends with one. -/
theorem Token.EndsWith.eq_minus_iff {t : Token} {c : Char} (h : t.EndsWith c) :
    t = .operator '-' ↔ c = '-' := by
  cases t with
  | number _ | function _ =>
    constructor
    · rintro ⟨⟩
    · rintro rfl
      exact absurd h (by simp [EndsWith, isNumeral])
  | operator symbol =>
    obtain ⟨rfl, -⟩ := h
    simp
  | openParen | closeParen =>
    obtain rfl := h
    simp

/-- A token that ends with a digit or a point is a number. -/
theorem Token.EndsWith.exists_number {t : Token} {c : Char} (h : t.EndsWith c)
    (hc : isNumeral c = true) : ∃ v, t = .number v := by
  cases t with
  | number v => exact ⟨v, rfl⟩
  | function f =>
    rw [isNumeral_eq_false_of_isAlpha h] at hc
    cases hc
  | operator symbol =>
    obtain ⟨rfl, op, rfl⟩ := h
    rw [(standsAlone_iff.mp (standsAlone_symbol op)).2.1] at hc
    cases hc
  | openParen | closeParen =>
    obtain rfl := h
    cases hc

/-- An operand can stand behind a text exactly if it can stand behind its tokens. -/
theorem opens_iff_of_splits {before rest : List Char} {ts : List Token}
    (h : Splits (before ++ rest) ts rest) (hblank : ∀ c ∈ before, isBlank c = false) :
    Opens before ↔ ∀ t ∈ ts.getLast?, t.Opens := by
  rcases h.exists_last_token hblank with ⟨rfl, rfl⟩ | ⟨front, run, us, t, c, rfl, rfl, -, -, hc, ht⟩
  · simp [Opens]
  · rw [Opens, Option.mem_def.mp hc]
    simpa using ht.opens_iff.symm

/-- **A unary minus by its tokens.** What ends with a unary minus for the sign key ends with the token of a
minus sign that an operand could stand in place of. -/
theorem endsInUnaryMinus_iff_of_splits {before rest : List Char} {ts : List Token}
    (h : Splits (before ++ rest) ts rest) (hblank : ∀ c ∈ before, isBlank c = false) :
    endsInUnaryMinus before = true
      ↔ ∃ us, ts = us ++ [.operator '-'] ∧ ∀ t ∈ us.getLast?, t.Opens := by
  rw [endsInUnaryMinus_iff]
  rcases h.exists_last_token hblank with ⟨rfl, rfl⟩ |
    ⟨front, run, us, t, c, rfl, rfl, hsplits, hpiece, hc, ht⟩
  · simp
  · have hfront := opens_iff_of_splits hsplits fun d hd => hblank d (List.mem_append_left _ hd)
    by_cases htoken : t = .operator '-'
    · subst htoken
      obtain rfl := hpiece.eq_of_operator
      simpa using hfront
    · have hne : c ≠ '-' := fun heq => htoken (ht.eq_minus_iff.mpr heq)
      refine iff_of_false ?_ ?_
      · rintro ⟨others, hothers, -⟩
        rw [hothers, List.getLast?_concat] at hc
        exact hne (Option.some.inj hc).symm
      · rintro ⟨others, hothers, -⟩
        exact htoken (List.cons.inj (List.append_inj' hothers rfl).2).1

/-- What stands before a number that is read does not end with a digit or a point. -/
theorem Splits.isNumeral_before_eq_false {before run : List Char} {ts : List Token}
    (h : Splits (before ++ run) ts run) (hrun : StartsNumber run) :
    ∀ c ∈ before.getLast?, isNumeral c = false := by
  intro d hd
  rcases h.exists_last with ⟨hnil, -⟩ | ⟨front, last, us, vs, hwhole, -, -, hpiece⟩
  · obtain rfl : before = [] := by simpa using hnil
    cases hd
  obtain rfl := List.append_cancel_right hwhole
  obtain ⟨c, hc, hlast⟩ := hpiece.last
  obtain rfl : c = d :=
    Option.some.inj ((List.mem_getLast?_append_of_mem_getLast? hc).symm.trans hd)
  rw [Bool.eq_false_iff]
  intro hnumeral
  rcases hlast with ⟨hblank, -⟩ | ⟨t, rfl, ht⟩
  · simp [isBlank_eq_false_of_isNumeral hnumeral] at hblank
  · -- The run of another number before this one would have gone on.
    obtain ⟨v, rfl⟩ := ht.exists_number hnumeral
    obtain ⟨e, es, rfl, he, -⟩ := hrun.exists_cons
    have hends := hpiece.isRun_of_number.1.ends e rfl
    rw [he] at hends
    cases hends

/-! ## The engine's minus sign -/

namespace Rpn

/-- The last of some tokens is a minus sign, and the conversion takes it for unary. -/
def EndsInNegate (ts : List Token) : Prop :=
  ∃ us, ts = us ++ [.operator '-'] ∧ resolve (afterOperand false us) '-' = some .negate

theorem resolve_minus_eq_negate_iff {b : Bool} : resolve b '-' = some .negate ↔ b = false := by
  cases b <;> decide

theorem afterOperand_eq_false_iff {ts : List Token} :
    afterOperand false ts = false ↔ ∀ t ∈ ts.getLast?, t.endsOperand = false := by
  cases h : ts.getLast? <;> simp [afterOperand, h]

end Rpn

/-- No operand has ended where one can stand, nor behind the name of a function. -/
theorem Lexeme.endsOperand_eq_false_iff {run : List Char} {t : Token} (h : Lexeme run t) :
    t.endsOperand = false ↔ t.Opens ∨ ∃ f, t = .function f := by
  cases h with
  | operator op => exact iff_of_true rfl (.inl (.inr ⟨op, rfl⟩))
  | openParen => exact iff_of_true rfl (.inl (.inl rfl))
  | function f => exact iff_of_true rfl (.inr ⟨f, rfl⟩)
  | number | closeParen => exact iff_of_false nofun (by rintro ((⟨⟨⟩⟩ | ⟨op, ⟨⟩⟩) | ⟨f, ⟨⟩⟩))

/-- **The two minus signs.** The sign key and the engine agree on a unary minus, except behind the name of a
function. -/
theorem endsInUnaryMinus_iff_endsInNegate {before rest : List Char} {ts : List Token}
    (h : Splits (before ++ rest) ts rest) (hblank : ∀ c ∈ before, isBlank c = false) :
    endsInUnaryMinus before = true
      ↔ Rpn.EndsInNegate ts ∧ ∀ us f, ts ≠ us ++ [.function f, .operator '-'] := by
  have hends : ∀ us, ts = us ++ [.operator '-'] → ∀ t ∈ us.getLast?,
      (t.endsOperand = false ↔ t.Opens ∨ ∃ f, t = .function f) := by
    rintro us rfl t ht
    obtain ⟨spelling, hspelling⟩ :=
      h.exists_lexeme t (List.mem_append_left _ (List.mem_of_mem_getLast? ht))
    exact hspelling.endsOperand_eq_false_iff
  rw [endsInUnaryMinus_iff_of_splits h hblank]
  constructor
  · rintro ⟨us, rfl, hopens⟩
    refine ⟨⟨us, rfl, ?_⟩, fun vs f hvs => ?_⟩
    · rw [Rpn.resolve_minus_eq_negate_iff, Rpn.afterOperand_eq_false_iff]
      exact fun t ht => (hends us rfl t ht).mpr (.inl (hopens t ht))
    · obtain rfl : us = vs ++ [.function f] :=
        List.append_cancel_right (hvs.trans (List.append_cons vs _ _))
      rcases hopens (.function f) (by simp) with ⟨⟨⟩⟩ | ⟨op, ⟨⟩⟩
  · rintro ⟨⟨us, rfl, hresolve⟩, hname⟩
    rw [Rpn.resolve_minus_eq_negate_iff, Rpn.afterOperand_eq_false_iff] at hresolve
    refine ⟨us, rfl, fun t ht => ?_⟩
    refine ((hends us rfl t ht).mp (hresolve t ht)).resolve_right ?_
    rintro ⟨f, rfl⟩
    obtain ⟨vs, rfl⟩ := List.getLast?_eq_some_iff.mp ht
    exact hname vs f (by simp)

/-! ## The number at the end -/

/-- What the sign key and the engine make of the number at the end of a text: the text before the last
lexeme and the lexeme, and the tokens before its own. -/
structure NumberAtEnd (cs : List Char) (ts : List Token) (before run : List Char) (us : List Token)
    (v : Float) : Prop where
  text : cs = before ++ run
  tokens : ts = us ++ [.number v]
  /-- The text before the lexeme is cut into the tokens before the last one. -/
  splits : Splits cs us run
  /-- The lexeme is a run of digits and points, and comes to the last token. -/
  piece : Piece run [] (.ok [.number v])
  /-- If it has one point at most, it is the last number for the key too. -/
  split_eq : run.count '.' ≤ 1 → splitLastNumber cs = (before, run)
  /-- The key finds a unary minus before it if the engine does, and if this does not stand behind the name
  of a function. -/
  unary : endsInUnaryMinus before = true
    ↔ Rpn.EndsInNegate us ∧ ∀ vs f, us ≠ vs ++ [.function f, .operator '-']
  /-- If it has more points, the last number for the key is what stands behind the last point but one, and
  the key finds no minus sign there. -/
  split_run : 1 < run.count '.' → ∃ passed number, run = passed ++ '.' :: number
    ∧ number.count '.' = 1 ∧ splitLastNumber cs = (before ++ passed ++ ['.'], number)
    ∧ endsInUnaryMinus (before ++ passed ++ ['.']) = false

/-- Of a run with several points that ends with a digit, the last operand stands behind the last point but
one. -/
theorem exists_operand_of_run {run : List Char} (hrun : ∀ c ∈ run, isNumeral c = true)
    (hdigit : ∃ c ∈ run.getLast?, c.isDigit = true) (hcount : 1 < run.count '.') :
    ∃ passed number, run = passed ++ '.' :: number ∧ number.count '.' = 1 ∧ Operand number := by
  obtain ⟨skipped, number, rfl, hlast⟩ := exists_lastNumber hdigit
  rcases List.eq_nil_or_concat' skipped with rfl | ⟨passed, c, rfl⟩
  · exact absurd hcount (Nat.not_lt.mpr hlast.operand.point)
  · -- What stands before the last number is in the run, but it is no digit.
    have hc : c = '.' := by
      refine (isNumeral_iff.mp (hrun c (by simp))).resolve_left fun hc => ?_
      simp [hlast.digit c (by simp)] at hc
    subst hc
    have hpoint : '.' ∈ number := hlast.point.resolve_right fun h => h '.' (by simp) rfl
    refine ⟨passed, number, by simp, ?_, hlast.operand⟩
    exact Nat.le_antisymm hlast.operand.point (List.count_pos_iff.mpr hpoint)

/-- **The number at the end.** A text without blanks that has tokens and ends with a digit ends with a
number, for the engine and for the key. -/
theorem exists_numberAtEnd {cs : List Char} {ts : List Token} (h : Splits cs ts [])
    (hblank : ∀ c ∈ cs, isBlank c = false) (hdigit : ∃ c ∈ cs.getLast?, c.isDigit = true) :
    ∃ before run us v, NumberAtEnd cs ts before run us v := by
  obtain ⟨d, hd, hdigit⟩ := hdigit
  rw [← List.append_nil cs] at h
  rcases h.exists_last_token hblank with ⟨rfl, -⟩ |
    ⟨before, run, us, t, c, rfl, rfl, hsplits, hpiece, hc, ht⟩
  · cases hd
  obtain rfl : c = d := Option.some.inj (hc.symm.trans hd)
  obtain ⟨v, rfl⟩ := ht.exists_number (isNumeral_iff.mpr (.inl hdigit))
  obtain ⟨hrun, hstart⟩ := hpiece.isRun_of_number
  have hlast : ∃ c ∈ run.getLast?, c.isDigit = true := by
    rw [List.getLast?_append_of_ne_nil before hrun.ne_nil] at hc
    exact ⟨c, hc, hdigit⟩
  rw [List.append_nil] at hsplits
  have hbefore := hsplits.isNumeral_before_eq_false hstart
  refine ⟨before, run, us, v, {
    text := rfl
    tokens := rfl
    splits := hsplits
    piece := hpiece
    split_eq := fun hcount => ?_
    unary := endsInUnaryMinus_iff_endsInNegate hsplits fun c hc =>
      hblank c (List.mem_append_left _ hc)
    split_run := fun hcount => ?_ }⟩
  · exact splitLastNumber_append (.of_operand ⟨hrun.all, hcount, hlast⟩ hbefore)
  · obtain ⟨passed, number, rfl, hpoint, hnumber⟩ := exists_operand_of_run hrun.all hlast hcount
    refine ⟨passed, number, rfl, hpoint, ?_, ?_⟩
    · have hsplit : before ++ (passed ++ '.' :: number) = (before ++ passed ++ ['.']) ++ number := by
        simp
      rw [hsplit]
      exact splitLastNumber_append ⟨hnumber, by simp, .inl (List.count_pos_iff.mp (by omega))⟩
    · rw [Bool.eq_false_iff]
      intro hends
      obtain ⟨front, hfront, -⟩ := endsInUnaryMinus_iff.mp hends
      cases (List.append_inj' hfront rfl).2

variable (lib : MathLibrary)

/-- **The sign key and the engine** see the same at the end of every expression that the keys of the pad and
of the keyboard can type, if it has tokens and ends with a digit: the same number, if this has one point at
most, and the same unary minus before it, if that does not stand behind the name of a function. -/
theorem Session.reached_numberAtEnd (settings : Settings) {keys : List Key} {ts : List Token}
    (hkeys : ∀ key ∈ keys, key.Offered)
    (hts : tokenize (reached lib settings keys).expression = .ok ts)
    (hdigit : ∃ c ∈ (reached lib settings keys).expression.toList.getLast?, c.isDigit = true) :
    ∃ before run us v,
      NumberAtEnd (reached lib settings keys).expression.toList ts before run us v := by
  refine exists_numberAtEnd (lex_eq_ok_iff.mp hts) (fun c hc => ?_) hdigit
  exact isBlank_eq_false_of_isTyped (isTyped_of_reached lib settings hkeys c hc)

/-- Behind `2*5±` both see the number `5` with a minus sign before it, which is unary. -/
theorem Session.reached_numberAtEnd_signed :
    let keys : List Key := [.digit '2', .operator '*', .digit '5', .sign]
    let text := (reached .native {} keys).expression
    (∀ key ∈ keys, key.Offered) ∧ text = "2*-5" ∧ (∃ c ∈ text.toList.getLast?, c.isDigit = true)
      ∧ ∃ ts, tokenize text = .ok ts
        ∧ ∃ before run us v, NumberAtEnd text.toList ts before run us v := by
  intro keys text
  have hkeys : ∀ key ∈ keys, key.Offered := by
    have hpad : ∀ key ∈ keys, Button.key key ∈ Button.all := by decide
    exact fun key hkey => .inl (hpad key hkey)
  have htext : text = "2*-5" := by decide +kernel
  have hdigit : ∃ c ∈ text.toList.getLast?, c.isDigit = true := by
    rw [htext]
    exact ⟨'5', by decide, by decide⟩
  have hread : (tokenize text).isOk = true := by
    rw [htext]
    decide +kernel
  refine ⟨hkeys, htext, hdigit, ?_⟩
  cases hts : tokenize text with
  | error e =>
    rw [hts] at hread
    cases hread
  | ok ts => exact ⟨ts, rfl, reached_numberAtEnd .native {} hkeys hts hdigit⟩

/-- The two reservations. Of `1.2.3`, which is one lexeme, the key takes `2.3`. In `sin-3`, where the
parenthesis of the function has been deleted, the minus sign is unary for the engine, but not for the key. -/
theorem Session.reached_points_and_name :
    let pointKeys : List Key := [.digit '1', .point, .digit '2', .point, .digit '3']
    let nameKeys : List Key := [.function .sin, .delete, .operator '-', .digit '3']
    let points := (reached .native {} pointKeys).expression
    let name := (reached .native {} nameKeys).expression
    (∀ key ∈ pointKeys ++ nameKeys, key.Offered)
      ∧ (points = "1.2.3" ∧ (∃ v, tokenize points = .ok [.number v]
          ∧ Piece ['1', '.', '2', '.', '3'] [] (.ok [.number v]))
        ∧ splitLastNumber points.toList = (['1', '.'], ['2', '.', '3']))
      ∧ name = "sin-3" ∧ (∃ v, tokenize name = .ok [.function .sin, .operator '-', .number v]
          ∧ Piece ['3'] [] (.ok [.number v]))
        ∧ splitLastNumber name.toList = (['s', 'i', 'n', '-'], ['3'])
        ∧ Rpn.EndsInNegate [.function .sin, .operator '-']
        ∧ endsInUnaryMinus ['s', 'i', 'n', '-'] = false := by
  intro pointKeys nameKeys points name
  have hpad : ∀ key ∈ pointKeys ++ nameKeys, Button.key key ∈ Button.all := by decide
  have hpoints : points = "1.2.3" := by decide +kernel
  have hname : name = "sin-3" := by decide +kernel
  have hrun : IsRun isNumeral ['1', '.', '2', '.', '3'] [] := ⟨by simp, by simp [isNumeral], by simp⟩
  have hdigit : IsRun isNumeral ['3'] [] := ⟨by simp, by simp [isNumeral], by simp⟩
  have hletters : IsRun Char.isAlpha NamedFunction.sin.name.toList ['-', '3'] :=
    ⟨by simp [NamedFunction.name], isAlpha_of_mem_name .sin, by simp⟩
  obtain ⟨v, hv⟩ := hrun.exists_number (.digit (by decide)) (by decide +kernel)
  obtain ⟨w, hw⟩ := hdigit.exists_number (.digit (by decide)) (by decide +kernel)
  have hnegate : Rpn.EndsInNegate [.function .sin, .operator '-'] := ⟨[.function .sin], rfl, by decide⟩
  refine ⟨fun key hkey => .inl (hpad key hkey), ⟨hpoints, ⟨v, ?_, hv⟩, ?_⟩,
    hname, ⟨w, ?_, hw⟩, ?_, hnegate, by decide⟩
  · rw [hpoints]
    exact lex_eq_ok_iff.mpr (.cons hv .nil)
  · rw [hpoints]
    decide +kernel
  · rw [hname]
    exact lex_eq_ok_iff.mpr (.cons (.function .sin hletters) (.cons (.operator .sub) (.cons hw .nil)))
  · rw [hname]
    decide +kernel

end Calculator
