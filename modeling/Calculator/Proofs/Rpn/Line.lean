import Calculator.Proofs.Display.Rereading
import Calculator.Rpn

/-!
# Reading postfix texts

The text of a postfix sequence says which sequence it is. No element has a space in its text, so the
spaces tell where one ends; and no two kinds of elements share a text, though `-` is an operator, the
sign of a number and a part of `u-`.

* `readValue?` is the double that a text is read as, where `inf` is an infinity;
* `readItem?` reads one element and `readLine?` a sequence, and `readLine?_line` gives a sequence back;
* `line_eq_iff` says that two sequences have one text only if they are equal.
-/

namespace Calculator.Rpn

/-- An element that is not an undefined number. Those have one text, whatever their bits. -/
def Item.IsDefined : Item → Prop
  | number v => Double.rank v ≤ Double.infinityRank
  | operator _ | function _ => True

instance : DecidablePred Item.IsDefined
  | .number v => inferInstanceAs (Decidable (Double.rank v ≤ Double.infinityRank))
  | .operator _ | .function _ => inferInstanceAs (Decidable True)

/-! ## Readers -/

/-- The double that a text is read as, which may be an infinity. -/
def readValue? (cs : List Char) : Option Float :=
  (readDouble? cs).or
    (if cs = "inf".toList then some (Double.ofRank false Double.infinityRank)
    else if cs = "-inf".toList then some (Double.ofRank true Double.infinityRank)
    else none)

/-- The element that a text stands for. -/
def readItem? (cs : List Char) : Option Item :=
  ((readValue? cs).map .number).or
    (((Operator.ofSymbol? (String.ofList cs)).map .operator).or
      ((NamedFunction.ofName? (String.ofList cs)).map .function))

/-- The sequence that a text stands for. -/
def readLine? (text : String) : Option (List Item) :=
  if text.toList = [] then some [] else (text.toList.splitOn ' ').mapM readItem?

/-! ## One element -/

/-- **A written double is read as itself**, unless it is undefined. -/
theorem readValue?_writeFloat {l : Layout} (hl : IsWholeMark l.wholeMark) {v : Float}
    (hv : Double.rank v ≤ Double.infinityRank) : readValue? (l.writeFloat v) = some v := by
  rcases hv.lt_or_eq with hfinite | hinfinite
  · rw [readValue?, readDouble?_writeFloat hl (Double.isFinite_iff.mpr hfinite)]
    rfl
  · have hself := Double.ofRank_rank hv
    rw [l.writeFloat_of_le hv]
    rw [hinfinite] at hself ⊢
    rw [Layout.writeRank_infinityRank]
    generalize Double.isNegative v = negative at hself ⊢
    rw [← hself]
    cases negative <;> rfl

/-- The text of a value has the characters of numbers and those of the names of the infinities. -/
theorem mem_of_readValue? {cs : List Char} {v : Float} (h : readValue? cs = some v) :
    ∀ c ∈ cs, isWritten c = true ∨ c ∈ "inf".toList := by
  rw [readValue?, Option.or_eq_some_iff] at h
  rcases h with h | ⟨-, h⟩
  · obtain ⟨_, hread, -⟩ := Option.map_eq_some_iff.mp h
    exact fun c hc => .inl (isWritten_of_readSigned? hread c hc)
  · split_ifs at h with hpositive hnegative
    · exact hpositive ▸ fun c hc => .inr hc
    · have hminus : "-inf".toList = '-' :: "inf".toList := rfl
      rw [hnegative, hminus]
      exact List.forall_mem_cons.mpr ⟨.inl rfl, fun c hc => .inr hc⟩

/-- No operator has the text of a number. -/
theorem readValue?_symbol (op : Operator) : readValue? op.symbol.toList = none := by
  rcases op with op | _
  · cases op <;> rfl
  · rfl

/-- No function has the text of a number. -/
theorem readValue?_name (f : NamedFunction) : readValue? f.name.toList = none := by
  cases f <;> rfl

/-- No function has the text of an operator. -/
theorem ofSymbol?_name (f : NamedFunction) : Operator.ofSymbol? f.name = none := by
  cases f <;> decide

/-- **An element is read as itself.** -/
theorem readItem?_text {item : Item} (h : item.IsDefined) :
    readItem? item.text.toList = some item := by
  cases item with
  | number v =>
    rw [readItem?, Item.text, String.toList_ofList, readValue?_writeFloat (.inl rfl) h]
    rfl
  | operator op =>
    rw [readItem?, Item.text, readValue?_symbol, String.ofList_toList, Operator.ofSymbol?_symbol]
    rfl
  | function f =>
    rw [readItem?, Item.text, readValue?_name, String.ofList_toList, ofSymbol?_name,
      NamedFunction.ofName?_name]
    rfl

/-- No element has an empty text. -/
theorem Item.text_ne_nil {item : Item} (h : item.IsDefined) : item.text.toList ≠ [] := by
  intro hnil
  have hread := readItem?_text h
  rw [hnil] at hread
  cases hread

/-- No space stands in the text of an element. -/
theorem Item.space_notMem_text {item : Item} (h : item.IsDefined) : ' ' ∉ item.text.toList := by
  cases item with
  | number v =>
    rw [text, String.toList_ofList]
    exact fun hspace => absurd (mem_of_readValue? (readValue?_writeFloat (.inl rfl) h) _ hspace)
      (by decide)
  | operator op =>
    rcases op with op | _
    · cases op <;> decide
    · decide
  | function f => cases f <;> decide

/-! ## Sequences -/

section

variable {items : List Item} (h : ∀ item ∈ items, item.IsDefined)

include h

/-- The spaces of a text stand between its elements. -/
theorem splitOn_line (hne : items ≠ []) :
    (line items).toList.splitOn ' ' = items.map fun item => item.text.toList := by
  have hwords : ∀ word ∈ items.map fun item => item.text.toList, ' ' ∉ word := by
    rw [List.forall_mem_map]
    exact fun item hitem => Item.space_notMem_text (h item hitem)
  have htext : (line items).toList = [' '].intercalate (items.map fun item => item.text.toList) := by
    rw [line, String.toList_intercalate, List.map_map]
    rfl
  rw [htext]
  exact List.splitOn_intercalate ' ' hwords (by simpa using hne)

/-- The elements are read one by one. -/
theorem mapM_readItem? : (items.map fun item => item.text.toList).mapM readItem? = some items := by
  induction items with
  | nil => rfl
  | cons item rest ih =>
    obtain ⟨hitem, hrest⟩ := List.forall_mem_cons.mp h
    rw [List.map_cons, List.mapM_cons, readItem?_text hitem, ih hrest]
    rfl

/-- Only the empty sequence has an empty text. -/
theorem line_ne_nil (hne : items ≠ []) : (line items).toList ≠ [] := by
  intro hnil
  have hwords := splitOn_line h hne
  rw [hnil, List.splitOn_nil] at hwords
  -- The only word would be the text of an element.
  obtain ⟨item, hitem, htext⟩ := List.mem_map.mp (hwords ▸ List.mem_singleton_self [])
  exact Item.text_ne_nil (h item hitem) htext

/-- **A sequence is read back from its text.** -/
theorem readLine?_line : readLine? (line items) = some items := by
  by_cases hnil : items = []
  · rw [hnil]
    rfl
  · rw [readLine?, if_neg (line_ne_nil h hnil), splitOn_line h hnil, mapM_readItem? h]

end

/-- **The text of a postfix sequence is unambiguous.** Two sequences without undefined numbers have the
same text only if they are equal, element for element, the numbers bit for bit. -/
theorem line_eq_iff {items items' : List Item} (h : ∀ item ∈ items, item.IsDefined)
    (h' : ∀ item ∈ items', item.IsDefined) : line items = line items' ↔ items = items' := by
  constructor
  · intro htext
    have hread := readLine?_line h
    rw [htext, readLine?_line h'] at hread
    exact (Option.some.inj hread).symm
  · rintro rfl
    rfl

/-- Signs everywhere: the two zeros have two texts, and the minus sign of an infinity, the unary minus and
the subtraction are told apart. -/
theorem line_eq_iff_minus_signs :
    let items : List Item := [.number (Double.ofRank true 0),
      .number (Double.ofRank true Double.infinityRank), .operator .negate]
    let items' : List Item := [.number (Double.ofRank false 0),
      .number (Double.ofRank true Double.infinityRank), .operator (.binary .sub)]
    (∀ item ∈ items, item.IsDefined) ∧ (∀ item ∈ items', item.IsDefined)
      ∧ line items = "-0 -inf u-" ∧ line items' = "0 -inf -"
      ∧ (line items = line items' ↔ items = items') := by
  intro items items'
  have h : ∀ item ∈ items, item.IsDefined := by decide +kernel
  have h' : ∀ item ∈ items', item.IsDefined := by decide +kernel
  exact ⟨h, h', by decide +kernel, by decide +kernel, line_eq_iff h h'⟩

end Calculator.Rpn
