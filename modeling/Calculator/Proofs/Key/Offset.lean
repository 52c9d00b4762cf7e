import Calculator.Proofs.Key.Sign
import Calculator.Proofs.Outcome
import Calculator.Proofs.Session.History

/-!
# The sign key at byte offsets

The sign key on a text that is stored in bytes: a loop from the end finds the byte offset at which the last
number begins, and there a minus sign is taken away or put in. Here every step is checked: an offset at
which no character begins is a fault, and so are an offset behind the last character and one before the
first.

* `Fault` is what could go wrong; `cutAt`, `removeAt`, `insertAt` and `byteBefore` are checked steps;
* `numberStart?` is the loop, `toggle` the whole key;
* `findStart_of_lastNumber` says where the loop stops, `LastNumber.suffix_of_operand` that no operand at the
  end of the text is longer;
* `press_sign_in_place` says that nothing fails, and what has become of the text.
-/

namespace Calculator

/-- Every operand that a text ends with is in its last number: what stands before this is no digit, nor a
point that an operand could still hold. -/
theorem LastNumber.suffix_of_operand {before number front more : List Char}
    (h : LastNumber before number) (hmore : Operand more) (htext : before ++ number = front ++ more) :
    more <:+ number := by
  rcases List.append_eq_append_iff.mp htext with ⟨extra, rfl, rfl⟩ | ⟨extra, rfl, rfl⟩
  · exact List.suffix_append extra more
  rcases List.eq_nil_or_concat' extra with rfl | ⟨init, c, rfl⟩
  · exact List.suffix_refl number
  · -- The character before the last number would be in a longer operand.
    exfalso
    have hlast : c ∈ (front ++ (init ++ [c])).getLast? := by simp
    have hnumeral : isNumeral c = true := hmore.isNumeral c (by simp)
    have hpoint : c = '.' := by
      refine (isNumeral_iff.mp hnumeral).resolve_left fun hdigit => ?_
      simp [h.digit c hlast] at hdigit
    have hmem : '.' ∈ number := h.point.resolve_right fun hne => hne c hlast hpoint
    have hcount := hmore.point
    have hone : 0 < number.count '.' := List.count_pos_iff.mpr hmem
    subst hpoint
    simp only [List.count_append, List.count_singleton_self] at hcount
    omega

namespace Offset

open String (Pos)

/-! ## The checked steps -/

/-- What could go wrong where a text is edited at byte offsets. -/
inductive Fault where
  /-- At an offset no character begins, and the text does not end there. -/
  | noBoundary
  /-- At an offset the text ends, and no character is left. -/
  | atEnd
  /-- An offset is before the first byte. -/
  | beforeStart
deriving DecidableEq, Repr

/-- The two parts of a text, before an offset and from it on. -/
def cutAt (text : String) (offset : Pos.Raw) : Except Fault (String × String) :=
  if h : offset.IsValid text then
    .ok ((text.sliceTo (text.pos offset h)).copy, (text.sliceFrom (text.pos offset h)).copy)
  else .error .noBoundary

/-- A text without the character at an offset. -/
def removeAt (text : String) (offset : Pos.Raw) : Except Fault String := do
  let (before, behind) ← cutAt text offset
  match behind.toList with
  | [] => throw .atEnd
  | _ :: rest => return before ++ String.ofList rest

/-- A text with a character put in at an offset. -/
def insertAt (text : String) (offset : Pos.Raw) (c : Char) : Except Fault String := do
  let (before, behind) ← cutAt text offset
  return before ++ String.singleton c ++ behind

/-- The offset of the byte before an offset. -/
def byteBefore (offset : Pos.Raw) : Except Fault Pos.Raw :=
  if offset = 0 then .error .beforeStart else .ok offset.dec

/-! ## The key -/

/-- Characters with their offsets, the first at a given one. -/
def indexed (offset : Pos.Raw) : List Char → List (Pos.Raw × Char)
  | [] => []
  | c :: cs => (offset, c) :: indexed (offset + c) cs

/-- Where a number begins, of which the characters come from its end on: a digit belongs to it, and so does
a point if none has been seen. -/
def scanBack (start : Pos.Raw) (pointSeen : Bool) : List (Pos.Raw × Char) → Pos.Raw
  | [] => start
  | (offset, c) :: rest =>
    if c.isDigit then scanBack offset pointSeen rest
    else if c = '.' ∧ pointSeen = false then scanBack offset true rest
    else start

/-- Where the number at the end of some characters begins. -/
def findStart (pointSeen : Bool) (cs : List Char) : Pos.Raw :=
  scanBack (String.ofList cs).rawEndPos pointSeen (indexed 0 cs).reverse

/-- Where the last number of a text begins, if the text ends in a digit. -/
def numberStart? (text : String) : Option Pos.Raw :=
  if text.toList.getLast?.any Char.isDigit then some (findStart false text.toList) else none

/-- A text with the sign of its last number changed, at byte offsets. -/
def toggle (text : String) : Except Fault String :=
  if text = "" then return "-"
  else
    match numberStart? text with
    | none => return text ++ "(-"
    | some start => do
      let (before, _) ← cutAt text start
      if endsInUnaryMinus before.toList then removeAt text (← byteBefore start)
      else insertAt text start '-'

/-! ## Where a text is cut -/

theorem isValid_append (before behind : String) : before.rawEndPos.IsValid (before ++ behind) :=
  Pos.Raw.isValid_rawEndPos.append_right behind

/-- A text is cut between two parts of it. -/
theorem cutAt_append (before behind : String) :
    cutAt (before ++ behind) before.rawEndPos = .ok (before, behind) := by
  have hsplits := @Pos.splits_append_rawEndPos before behind
  rw [cutAt, dif_pos (isValid_append before behind), hsplits.copy_sliceTo_eq,
    hsplits.copy_sliceFrom_eq]

theorem removeAt_append (before : String) (c : Char) (behind : String) :
    removeAt (before ++ (String.singleton c ++ behind)) before.rawEndPos = .ok (before ++ behind) := by
  have htail : (String.singleton c ++ behind).toList = c :: behind.toList := by simp
  rw [removeAt, cutAt_append, ok_bind]
  simp only [htail, String.ofList_toList]
  rfl

theorem insertAt_append (before : String) (c : Char) (behind : String) :
    insertAt (before ++ behind) before.rawEndPos c = .ok (before ++ String.singleton c ++ behind) := by
  rw [insertAt, cutAt_append]
  rfl

/-- A minus sign is one byte. -/
theorem byteIdx_append_minus (front : String) :
    (front ++ "-").rawEndPos.byteIdx = front.rawEndPos.byteIdx + 1 :=
  String.utf8ByteSize_append

/-- The byte before the end of a minus sign is the sign. -/
theorem byteBefore_minus (front : String) :
    byteBefore (front ++ "-").rawEndPos = .ok front.rawEndPos := by
  have hdec : (front ++ "-").rawEndPos.dec = front.rawEndPos := by
    rw [Pos.Raw.dec, byteIdx_append_minus]
    rfl
  rw [byteBefore, if_neg (by simp), hdec]

/-! ## Where the loop stops -/

theorem indexed_concat (offset : Pos.Raw) (cs : List Char) (c : Char) :
    indexed offset (cs ++ [c]) = indexed offset cs ++ [(offset + String.ofList cs, c)] := by
  induction cs generalizing offset with
  | nil => simp [indexed, Pos.Raw.ext_iff]
  | cons d cs ih => simp [indexed, ih, Pos.Raw.ext_iff, Nat.add_assoc]

/-- **One character of the loop.** What has been read belongs to the number; the loop goes on where the
characters before it end, with a point seen or not. -/
theorem findStart_concat (pointSeen : Bool) (cs : List Char) (c : Char) :
    findStart pointSeen (cs ++ [c])
      = if c.isDigit then findStart pointSeen cs
        else if c = '.' ∧ pointSeen = false then findStart true cs
        else (String.ofList (cs ++ [c])).rawEndPos := by
  have hend : (0 : Pos.Raw) + String.ofList cs = (String.ofList cs).rawEndPos :=
    Pos.Raw.zero_add_string_eq _
  rw [findStart, indexed_concat, List.reverse_append, hend]
  rfl

theorem findStart_digits {digits : List Char} (hdigits : ∀ c ∈ digits, c.isDigit = true)
    (pointSeen : Bool) (cs : List Char) :
    findStart pointSeen (cs ++ digits) = findStart pointSeen cs := by
  induction digits using List.reverseRecOn with
  | nil => rw [List.append_nil]
  | append_singleton digits d ih =>
    have hd : d.isDigit = true := hdigits d (by simp)
    rw [← List.append_assoc, findStart_concat, if_pos hd]
    exact ih fun c hc => hdigits c (List.mem_append_left _ hc)

/-- The loop stops where the characters end with no digit, and with no point that it would take. -/
theorem findStart_stop {pointSeen : Bool} {cs : List Char}
    (hdigit : ∀ c ∈ cs.getLast?, c.isDigit = false)
    (hpoint : pointSeen = true ∨ ∀ c ∈ cs.getLast?, c ≠ '.') :
    findStart pointSeen cs = (String.ofList cs).rawEndPos := by
  rcases List.eq_nil_or_concat' cs with rfl | ⟨init, c, rfl⟩
  · rfl
  have hlast : c ∈ (init ++ [c]).getLast? := by simp
  have hkeep : ¬ (c = '.' ∧ pointSeen = false) := by
    rintro ⟨rfl, rfl⟩
    rcases hpoint with h | h
    · cases h
    · exact h '.' hlast rfl
  rw [findStart_concat, if_neg hkeep, hdigit c hlast]
  rfl

/-- **The loop stops before the last number.** -/
theorem findStart_of_lastNumber {before number : List Char} (h : LastNumber before number) :
    findStart false (before ++ number) = (String.ofList before).rawEndPos := by
  rcases h.operand.shape with ⟨-, hdigits⟩ | ⟨digits, places, rfl, hdigits, -, hplaces⟩
  · have hnone := h.point.resolve_left (point_notMem_of_digits hdigits)
    rw [findStart_digits hdigits, findStart_stop h.digit (.inr hnone)]
  · -- Behind the point nothing but digits, before it a second point would not be taken.
    have hsplit : before ++ (digits ++ '.' :: places) = before ++ digits ++ ['.'] ++ places := by simp
    rw [hsplit, findStart_digits hplaces, findStart_concat, if_neg (by decide), if_pos ⟨rfl, rfl⟩,
      findStart_digits hdigits, findStart_stop h.digit (.inl rfl)]

theorem numberStart?_of_lastNumber {before number : String}
    (h : LastNumber before.toList number.toList) :
    numberStart? (before ++ number) = some before.rawEndPos := by
  obtain ⟨d, hd, hdigit⟩ := h.operand.digit
  have hlast : (before.toList ++ number.toList).getLast? = some d :=
    List.mem_getLast?_append_of_mem_getLast? hd
  rw [numberStart?, String.toList_append, hlast, Option.any_some, if_pos hdigit,
    findStart_of_lastNumber h, String.ofList_toList]

theorem numberStart?_of_not_digit {text : String} (h : ∀ c ∈ text.toList.getLast?, c.isDigit = false) :
    numberStart? text = none := by
  rw [numberStart?, if_neg]
  rw [Option.any_eq_true]
  rintro ⟨c, hc, hdigit⟩
  simp [h c hc] at hdigit

/-! ## The text behind the key -/

theorem endsInUnaryMinus_toList_iff {text : String} :
    endsInUnaryMinus text.toList = true ↔ ∃ front : String, text = front ++ "-" ∧ Opens front.toList := by
  rw [endsInUnaryMinus_iff]
  constructor
  · rintro ⟨front, htext, hfront⟩
    refine ⟨String.ofList front, ?_, by rwa [String.toList_ofList]⟩
    rw [← String.toList_inj, htext]
    simp
  · rintro ⟨front, rfl, hfront⟩
    exact ⟨front.toList, String.toList_append, hfront⟩

/-- What the sign key does at an offset of a text. The text is cut there before the longest operand that it
ends with, and a character begins there. -/
structure EditedAt (text toggled : String) (start : Pos.Raw) (before number : String) : Prop where
  text_eq : text = before ++ number
  operand : Operand number.toList
  longest : ∀ front more, text = front ++ more → Operand more.toList → more.length ≤ number.length
  start_eq : start = before.rawEndPos
  isValid : start.IsValid text
  /-- A unary minus sign before the cut goes: it is the character that begins at the byte before. -/
  removed : ∀ front, before = front ++ "-" → Opens front.toList →
    byteBefore start = .ok front.rawEndPos ∧ front.rawEndPos.IsValid text
      ∧ front.rawEndPos < text.rawEndPos ∧ toggled = front ++ number
  /-- Where none is, a minus sign comes. -/
  inserted : (∀ front, before = front ++ "-" → ¬ Opens front.toList) →
    toggled = before ++ "-" ++ number

section

variable {before number : String} (h : LastNumber before.toList number.toList)

include h

/-- The text is cut before the longest operand, and the key does there what `EditedAt` says. -/
theorem editedAt_of_lastNumber :
    EditedAt (before ++ number) (String.ofList (toggleSign (before ++ number).toList))
      before.rawEndPos before number where
  text_eq := rfl
  operand := h.operand
  longest front more htext hmore := by
    have hsplit : before.toList ++ number.toList = front.toList ++ more.toList := by
      rw [← String.toList_append, htext, String.toList_append]
    exact (h.suffix_of_operand hmore hsplit).length_le
  start_eq := rfl
  isValid := isValid_append before number
  removed front hbefore hfront := by
    subst hbefore
    have hminus : endsInUnaryMinus (front ++ "-").toList = true :=
      endsInUnaryMinus_toList_iff.mpr ⟨front, rfl, hfront⟩
    refine ⟨byteBefore_minus front, ?_, ?_, ?_⟩
    · rw [String.append_assoc]
      exact isValid_append front ("-" ++ number)
    · have hsign := byteIdx_append_minus front
      have hend := Pos.Raw.le_iff.mp (isValid_append (front ++ "-") number).le_rawEndPos
      rw [Pos.Raw.lt_iff]
      omega
    · rw [String.toList_append, toggleSign_of_lastNumber h, if_pos hminus, ← String.toList_inj]
      simp
  inserted hbefore := by
    have hminus : ¬ endsInUnaryMinus before.toList = true := fun hminus =>
      have ⟨front, htext, hfront⟩ := endsInUnaryMinus_toList_iff.mp hminus
      hbefore front htext hfront
    rw [String.toList_append, toggleSign_of_lastNumber h, if_neg hminus, ← String.toList_inj]
    simp

/-- No step of the key fails on a text that ends in a digit. -/
theorem toggle_of_lastNumber :
    toggle (before ++ number) = .ok (String.ofList (toggleSign (before ++ number).toList)) := by
  have hne : before ++ number ≠ "" := by
    intro hempty
    have hnone := congrArg String.toList hempty
    rw [String.toList_append] at hnone
    exact h.operand.ne_nil (List.append_eq_nil_iff.mp hnone).2
  rw [toggle, if_neg hne, numberStart?_of_lastNumber h]
  simp only [cutAt_append, ok_bind]
  have hedit := editedAt_of_lastNumber h
  by_cases hminus : endsInUnaryMinus before.toList = true
  · obtain ⟨front, rfl, hfront⟩ := endsInUnaryMinus_toList_iff.mp hminus
    obtain ⟨-, -, -, hremoved⟩ := hedit.removed front rfl hfront
    rw [if_pos hminus, byteBefore_minus, ok_bind, hremoved, String.append_assoc]
    exact removeAt_append front '-' number
  · have hinserted := hedit.inserted fun front hbefore hfront =>
      hminus (endsInUnaryMinus_toList_iff.mpr ⟨front, hbefore, hfront⟩)
    rw [if_neg hminus, hinserted]
    exact insertAt_append before '-' number

end

/-- Nor does one on another text, at the end of which something comes. -/
theorem toggle_of_not_digit {text : String} (h : ∀ c ∈ text.toList.getLast?, c.isDigit = false) :
    let toggled := String.ofList (toggleSign text.toList)
    toggle text = .ok toggled ∧ toggled = if text = "" then "-" else text ++ "(-" := by
  intro toggled
  have hedit : toggled = if text = "" then "-" else text ++ "(-" := by
    rw [show toggled = _ from congrArg String.ofList (toggleSign_of_not_digit h)]
    by_cases hempty : text = ""
    · rw [if_pos hempty, if_pos (String.toList_eq_nil_iff.mpr hempty)]
    · rw [if_neg hempty, if_neg (String.toList_eq_nil_iff.not.mpr hempty), String.ofList_append,
        String.ofList_toList]
  refine ⟨?_, hedit⟩
  rw [hedit, toggle, numberStart?_of_not_digit h]
  split <;> rfl

/-- **The sign key edits one place.** On every text no step at a byte offset fails, and they come to the
expression behind the key. A number is found exactly where the text ends in a digit: there one minus sign has
gone or come before the longest operand at the end. On any other text something has come at the end. -/
theorem press_sign_in_place (lib : MathLibrary) (s : Session) :
    let text := s.expression
    let toggled := (s.press lib .sign).1.expression
    toggle text = .ok toggled
      ∧ ((numberStart? text).isSome = true ↔ ∃ c ∈ text.toList.getLast?, c.isDigit = true)
      ∧ match numberStart? text with
        | none => toggled = if text = "" then "-" else text ++ "(-"
        | some start => ∃ before number, EditedAt text toggled start before number := by
  intro text toggled
  have htoggled : toggled = String.ofList (toggleSign text.toList) := s.press_expression lib .sign
  rw [htoggled]
  by_cases hdigit : ∃ c ∈ text.toList.getLast?, c.isDigit = true
  · obtain ⟨before, number, htext, hlast⟩ := exists_lastNumber hdigit
    obtain ⟨before, rfl⟩ : ∃ s : String, s.toList = before := ⟨_, String.toList_ofList⟩
    obtain ⟨number, rfl⟩ : ∃ s : String, s.toList = number := ⟨_, String.toList_ofList⟩
    rw [← String.toList_append, String.toList_inj] at htext
    rw [htext] at hdigit ⊢
    rw [numberStart?_of_lastNumber hlast]
    exact ⟨toggle_of_lastNumber hlast, iff_of_true rfl hdigit, before, number,
      editedAt_of_lastNumber hlast⟩
  · have hnone : ∀ c ∈ text.toList.getLast?, c.isDigit = false := by simpa using hdigit
    obtain ⟨htoggle, hedit⟩ := toggle_of_not_digit hnone
    rw [numberStart?_of_not_digit hnone]
    exact ⟨htoggle, iff_of_false Bool.false_ne_true hdigit, hedit⟩

/-- Offsets count bytes, and digits before the last point but one do not belong to the number. -/
example : numberStart? "π1.2.3" = some ⟨4⟩ ∧ toggle "π1.2.3" = .ok "π1.-2.3" := by
  decide +kernel

end Offset

end Calculator
