import Calculator.Journal
import Calculator.Proofs.Rpn.Line

/-!
# Reading listed values

A list of values in the log says which values it lists: every value is written so that it is read back,
bit for bit, and no value has a comma in its text, so that the commas tell where one ends.

* `readListed?` reads one value, the undefined one included, and `readListing?` a list between brackets;
* `readListing?_valuesText` gives a list back;
* `Lists` is a line of the log that lists values.
-/

namespace Calculator

/-! ## Readers -/

/-- The value that an entry of a list stands for. -/
def readListed? (cs : List Char) : Option Float :=
  (Rpn.readValue? cs).or (if cs = "NaN".toList then some (0.0 / 0.0) else none)

/-- The value of an entry with the space in front that parts it from the entry before. -/
def readSpaced? : List Char → Option Float
  | ' ' :: cs => readListed? cs
  | _ => none

/-- The values that a text lists: nothing between brackets, or entries with a comma and a space between
each and the next. -/
def readListing? (text : String) : Option (List Float) :=
  match text.toList with
  | '[' :: cs =>
    if cs = [']'] then some []
    else if cs.getLast? = some ']' then ((' ' :: cs.dropLast).splitOn ',').mapM readSpaced?
    else none
  | _ => none

/-- A line of the log that lists the values of a stack, in this order. -/
def Lists (line : String) (values : List Float) : Prop :=
  ∃ listing, line = "TRACE pile: " ++ listing ∧ readListing? listing = some values

/-! ## One value -/

/-- **A value in a list is read as itself.** -/
theorem readListed?_writeFloat (v : Float) : readListed? (Layout.listed.writeFloat v) = some v := by
  rcases Nat.lt_or_ge Double.infinityRank (Double.rank v) with hnan | hv
  · have htext : Layout.listed.writeFloat v = "NaN".toList := if_pos hnan
    rw [htext, Double.eq_nan_of_lt_rank hnan]
    rfl
  · rw [readListed?, Rpn.readValue?_writeFloat (.inr ⟨1, rfl⟩) hv, Option.some_or]

/-- An entry that is read has no comma. -/
theorem comma_notMem_of_readListed? {cs : List Char} {v : Float} (h : readListed? cs = some v) :
    ',' ∉ cs := by
  rw [readListed?, Option.or_eq_some_iff] at h
  rcases h with h | ⟨-, h⟩
  · exact fun hcomma => absurd (Rpn.mem_of_readValue? h _ hcomma) (by decide)
  · rw [Option.ite_none_right_eq_some] at h
    rw [h.1]
    decide

/-! ## Lists of values -/

/-- Entries with a space in front of each are parted by commas alone. -/
theorem space_intercalate {entries : List (List Char)} (hne : entries ≠ []) :
    ' ' :: [',', ' '].intercalate entries = [','].intercalate (entries.map (' ' :: ·)) := by
  induction entries with
  | nil => exact absurd rfl hne
  | cons entry entries ih =>
    cases entries with
    | nil => simp [List.intercalate]
    | cons next entries =>
      -- The space behind the first comma is the one in front of the next entry.
      have hrest := ih (List.cons_ne_nil _ _)
      rw [List.intercalate_cons_cons, List.map_cons, List.map_cons, List.intercalate_cons_cons,
        ← List.map_cons, ← hrest]
      simp

/-- The commas of a list stand between its entries. -/
theorem splitOn_entries {values : List Float} (hne : values ≠ []) :
    (' ' :: [',', ' '].intercalate (values.map Layout.listed.writeFloat)).splitOn ','
      = values.map fun v => ' ' :: Layout.listed.writeFloat v := by
  have hcommas : ∀ entry ∈ values.map fun v => ' ' :: Layout.listed.writeFloat v, ',' ∉ entry := by
    rw [List.forall_mem_map]
    intro v _
    simpa using comma_notMem_of_readListed? (readListed?_writeFloat v)
  rw [space_intercalate (by simpa using hne), List.map_map]
  exact List.splitOn_intercalate ',' hcommas (by simpa using hne)

/-- The entries are read one by one. -/
theorem mapM_readSpaced? (values : List Float) :
    (values.map fun v => ' ' :: Layout.listed.writeFloat v).mapM readSpaced? = some values := by
  induction values with
  | nil => rfl
  | cons v values ih =>
    have hv : readSpaced? (' ' :: Layout.listed.writeFloat v) = some v := readListed?_writeFloat v
    rw [List.map_cons, List.mapM_cons, hv, ih]
    rfl

/-- **A list of values is read as itself.** -/
theorem readListing?_valuesText (values : List Float) :
    readListing? (Event.valuesText values) = some values := by
  have htext : (Event.valuesText values).toList
      = '[' :: ([',', ' '].intercalate (values.map Layout.listed.writeFloat) ++ [']']) := by
    simp [Event.valuesText, String.toList_intercalate, Function.comp_def]
  rw [readListing?, htext]
  cases values with
  | nil => rfl
  | cons v values =>
    have hsplit := splitOn_entries (List.cons_ne_nil v values)
    have hentries := mapM_readSpaced? (v :: values)
    generalize [',', ' '].intercalate ((v :: values).map Layout.listed.writeFloat) = body at hsplit ⊢
    have hbody : body ≠ [] := by
      -- Nothing between the brackets would be one entry without a text.
      rintro rfl
      rw [← hsplit] at hentries
      cases hentries
    have hne : body ++ [']'] ≠ [']'] := mt List.append_left_eq_self.mp hbody
    simp only [if_neg hne, List.getLast?_concat, if_true, List.dropLast_concat, hsplit]
    exact hentries

end Calculator
