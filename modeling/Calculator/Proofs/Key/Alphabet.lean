import Calculator.Proofs.Key.Sign
import Calculator.Proofs.Session.History
import Calculator.Proofs.Window.Keyboard

/-!
# The characters of an expression

The keys of the pad and of the keyboard put only a few characters into an expression: those that an
expression is written with. None of them is a blank. And no expression starts with an operator other than
the minus sign, which may be the sign of its first number.

* `Key.Offered` are the keys, `isTyped` the characters, `leads` tells those that may come first;
* `mem_edit` says where a character behind a key comes from, `isTyped_of_reached` carries this through a
  sequence of keys;
* `leads_edit` and `leads_of_reached` do the same for the first character.
-/

namespace Calculator

open Text (isBlank)

/-! ## The keys and their characters -/

/-- A key that can be pressed: a button of the pad has it, or a character of the keyboard types it. -/
def Key.Offered (key : Key) : Prop :=
  .key key ∈ Button.all ∨ ∃ c, Key.ofChar? c = some key

/-- The keys of the keyboard are on the pad too. -/
theorem Key.Offered.mem_all {key : Key} (h : key.Offered) : .key key ∈ Button.all := by
  have hshared : ∀ key ∈ Key.shared, Button.key key ∈ Button.all := by decide
  rcases h with h | ⟨c, h⟩
  · exact h
  · exact hshared key (Key.ofChar?_eq_some_iff.mp h).1

/-- Whether a character can come into an expression: it is a digit or a point, an operator or a
parenthesis, or a letter in the name of a function. -/
def isTyped (c : Char) : Bool :=
  isNumeral c || (BinaryOperator.ofChar? c).isSome || c == '(' || c == ')'
    || NamedFunction.all.any fun f => f.name.toList.contains c

/-- The characters that a key may put into an expression. -/
def Key.characters : Key → List Char
  | digit c | operator c | paren c => [c]
  | point => ['.']
  | function f => f.name.toList ++ ['(']
  | sign => ['(', '-']
  | clear | delete | equals | angleMode | theme => []

theorem Key.Offered.isTyped_of_mem {key : Key} (h : key.Offered) :
    ∀ c ∈ key.characters, isTyped c = true := by
  have hpad : ∀ b ∈ Button.all, ∀ key ∈ b.key?, key.characters.all isTyped = true := by
    decide +kernel
  exact List.all_eq_true.mp (hpad _ h.mem_all key rfl)

/-- The kinds of these characters. -/
theorem cases_of_isTyped {c : Char} (h : isTyped c = true) :
    isNumeral c = true ∨ (∃ op : BinaryOperator, c = op.symbol) ∨ c = '(' ∨ c = ')'
      ∨ c.isAlpha = true := by
  simp only [isTyped, Bool.or_eq_true, beq_iff_eq, List.any_eq_true, List.contains_iff_mem] at h
  rcases h with (((hnumeral | hop) | hopen) | hclose) | ⟨f, -, hletter⟩
  · exact .inl hnumeral
  · obtain ⟨op, hop⟩ := Option.isSome_iff_exists.mp hop
    exact .inr (.inl ⟨op, BinaryOperator.ofChar?_eq_some_iff.mp hop⟩)
  · exact .inr (.inr (.inl hopen))
  · exact .inr (.inr (.inr (.inl hclose)))
  · exact .inr (.inr (.inr (.inr (isAlpha_of_mem_name f c hletter))))

/-- No such character is a blank. -/
theorem isBlank_eq_false_of_isTyped {c : Char} (h : isTyped c = true) : isBlank c = false := by
  rcases cases_of_isTyped h with hnumeral | ⟨op, rfl⟩ | rfl | rfl | halpha
  · exact isBlank_eq_false_of_isNumeral hnumeral
  · exact (standsAlone_iff.mp (standsAlone_symbol op)).1
  · decide
  · decide
  · exact isBlank_eq_false_of_isAlpha halpha

/-! ## One key -/

/-- Behind the sign key every character was there before, or it is a sign or an opening parenthesis. -/
theorem mem_toggleSign {cs : List Char} {c : Char} (h : c ∈ toggleSign cs) :
    c ∈ cs ∨ c ∈ Key.sign.characters := by
  rcases toggleSign_cases cs with ⟨front, number, -, rfl, htoggle⟩ | ⟨before, number, -, rfl, htoggle⟩ |
    ⟨rfl, htoggle⟩ | ⟨-, htoggle⟩ <;> rw [htoggle] at h
  · rw [List.mem_append] at h
    exact .inl (List.mem_append.mpr (h.imp_right (List.mem_cons_of_mem _)))
  · rw [List.mem_append, List.mem_cons] at h
    rcases h with h | rfl | h
    · exact .inl (List.mem_append_left _ h)
    · exact .inr (by decide)
    · exact .inl (List.mem_append_right _ h)
  · obtain rfl := List.mem_singleton.mp h
    exact .inr (by decide)
  · exact List.mem_append.mp h

/-- A character behind a key was there before, or the key has put it in. -/
theorem mem_edit {key : Key} {cs : List Char} {c : Char} (h : c ∈ key.edit cs) :
    c ∈ cs ∨ c ∈ key.characters := by
  cases key with
  | digit d | paren d | point => exact List.mem_append.mp h
  | operator d =>
    rw [Key.edit] at h
    split at h
    · cases h
    · exact List.mem_append.mp h
  | function f =>
    rw [Key.edit, List.append_assoc] at h
    exact List.mem_append.mp h
  | sign => exact mem_toggleSign h
  | clear => cases h
  | delete => exact .inl (List.mem_of_mem_dropLast h)
  | equals | angleMode | theme => exact .inl h

/-! ## The first character -/

/-- Whether a character may come first in an expression: all but the operators that are no sign. -/
def leads (c : Char) : Bool :=
  c ∉ ['+', '*', '/', '^']

/-- No character that a key puts in unasked is one of these operators: the keys of the operators ask
whether there is an operand to stand behind. -/
theorem Key.Offered.leads_of_mem {key : Key} (h : key.Offered) (hop : ∀ c, key ≠ .operator c) :
    ∀ c ∈ key.characters, leads c = true := by
  have hpad : ∀ b ∈ Button.all, (match b with
      | .key (.operator _) | .working => true
      | .key key => key.characters.all leads) = true := by
    decide +kernel
  have hkey := hpad _ h.mem_all
  cases key with
  | operator c => exact absurd rfl (hop c)
  | _ => exact List.all_eq_true.mp hkey

theorem leads_of_isNumeral {c : Char} (h : isNumeral c = true) : leads c = true := by
  rw [leads, decide_eq_true_eq]
  intro hc
  simp only [List.mem_cons, List.not_mem_nil, or_false] at hc
  rcases hc with rfl | rfl | rfl | rfl <;> exact absurd h (by decide)

/-- The first character of a text is the one of its beginnings. -/
theorem leads_of_beginning {before cs : List Char} (hbefore : before <+: cs)
    (h : ∀ c ∈ cs.head?, leads c = true) : ∀ c ∈ before.head?, leads c = true := by
  obtain ⟨after, rfl⟩ := hbefore
  intro c hc
  apply h
  rw [List.head?_append, Option.mem_def.mp hc]
  rfl

/-- A text that is put together starts as its first part, or as the second if there is none. -/
theorem leads_append {cs more : List Char} (hcs : ∀ c ∈ cs.head?, leads c = true)
    (hmore : ∀ c ∈ more.head?, leads c = true) : ∀ c ∈ (cs ++ more).head?, leads c = true := by
  cases cs with
  | nil => exact hmore
  | cons d cs => exact hcs

/-- Behind the sign key the first character is the same, or it is a sign or in a number. -/
theorem leads_toggleSign {cs : List Char} (h : ∀ c ∈ cs.head?, leads c = true) :
    ∀ c ∈ (toggleSign cs).head?, leads c = true := by
  have hminus (more : List Char) : ∀ c ∈ ('-' :: more).head?, leads c = true := by
    rintro c ⟨⟩
    decide
  rcases toggleSign_cases cs with ⟨front, number, hnumber, rfl, htoggle⟩ |
    ⟨before, number, -, rfl, htoggle⟩ | ⟨rfl, htoggle⟩ | ⟨hne, htoggle⟩ <;> rw [htoggle]
  · refine leads_append (leads_of_beginning (List.prefix_append _ _) h) fun c hc => ?_
    exact leads_of_isNumeral (hnumber.isNumeral c (List.mem_of_mem_head? hc))
  · exact leads_append (leads_of_beginning (List.prefix_append _ _) h) (hminus number)
  · exact hminus []
  · obtain ⟨d, ds, rfl⟩ := List.exists_cons_of_ne_nil hne
    exact h

/-- **A key keeps such operators from the start of an expression.** -/
theorem leads_edit {key : Key} (hkey : key.Offered) {cs : List Char}
    (h : ∀ c ∈ cs.head?, leads c = true) : ∀ c ∈ (key.edit cs).head?, leads c = true := by
  have hput (hop : ∀ c, key ≠ .operator c) : ∀ c ∈ key.characters.head?, leads c = true :=
    fun c hc => hkey.leads_of_mem hop c (List.mem_of_mem_head? hc)
  cases key with
  | digit d | paren d | point => exact leads_append h (hput (by simp))
  | operator d =>
    rw [Key.edit]
    split
    case isTrue => simp
    case isFalse hne =>
      obtain ⟨e, es, rfl⟩ := List.exists_cons_of_ne_nil hne
      exact h
  | function f =>
    rw [Key.edit, List.append_assoc]
    exact leads_append h (hput (by simp))
  | sign => exact leads_toggleSign h
  | clear => simp [Key.edit]
  | delete => exact leads_of_beginning (List.dropLast_prefix cs) h
  | equals | angleMode | theme => exact h

/-! ## Several keys -/

/-- **The characters of an expression.** Whatever is pressed on the pad and on the keyboard, only these
characters come into the expression. -/
theorem Session.isTyped_of_reached (lib : MathLibrary) (settings : Settings) {keys : List Key}
    (hkeys : ∀ key ∈ keys, key.Offered) :
    ∀ c ∈ (reached lib settings keys).expression.toList, isTyped c = true := by
  refine pressAll_of_press (P := fun s => ∀ c ∈ s.expression.toList, isTyped c = true)
    (fun key hkey s hs c hc => ?_) (by simp [start])
  rw [press_expression, String.toList_ofList] at hc
  rcases mem_edit hc with hc | hc
  · exact hs c hc
  · exact (hkeys key hkey).isTyped_of_mem c hc

/-- **The first character of an expression** is no operator but the minus sign. -/
theorem Session.leads_of_reached (lib : MathLibrary) (settings : Settings) {keys : List Key}
    (hkeys : ∀ key ∈ keys, key.Offered) :
    ∀ c ∈ (reached lib settings keys).expression.toList.head?, leads c = true := by
  refine pressAll_of_press (P := fun s => ∀ c ∈ s.expression.toList.head?, leads c = true)
    (fun key hkey s hs => ?_) (by simp [start])
  rw [press_expression, String.toList_ofList]
  exact leads_edit (hkeys key hkey) hs

end Calculator
