import Calculator.Proofs.Evaluation.Listing
import Calculator.Proofs.Rpn.Failure
import Calculator.Proofs.Session.Error

/-!
# The journal of an evaluation

What an evaluation reports is an exact account of it: the tokens and the postfix order as the working
shows them, the values of the stack after each element that has been computed, and the message of the
failure.

* `Rpn.getElem?_trail` says which stacks a run goes through, `Rpn.le_length_trail_iff` how far it comes;
* `tokens?` and `items?` are what is reported of a text before anything is computed,
  `calculate_of_items?` and `calculate_of_items?_eq_none` what becomes of it;
* `Account` is the account, which `evaluate_account` shows for every text: `account_of_items?` where
  there is something to compute, and `account_of_items?_eq_none` where there is not.
-/

namespace Calculator

namespace Rpn

variable {lib : MathLibrary} {mode : AngleMode}

/-! ## The stacks of a run -/

/-- **The stacks of a run** are those that its elements leave one by one: each is the stack behind the
elements up to one of them, if none of these fails. -/
theorem getElem?_trail {items : List Item} {stack next : List Float} {k : Nat} :
    (run lib mode stack items).1[k]? = some next
      ↔ k < items.length ∧ (run lib mode stack (items.take (k + 1))).2 = .ok next := by
  induction items generalizing stack k with
  | nil => simp [run]
  | cons item items ih =>
    rw [List.take_succ_cons, run_cons, run]
    cases item.execute lib mode stack with
    | error e => simp [Except.bind]
    | ok middle =>
      cases k with
      | zero => simp [Except.bind, run]
      | succ k => simpa [Except.bind] using ih

/-- A run comes as far as its elements do not fail. -/
theorem le_length_trail_iff {items : List Item} {stack : List Float} {k : Nat} :
    k ≤ (run lib mode stack items).1.length
      ↔ k ≤ items.length ∧ ∃ next, (run lib mode stack (items.take k)).2 = .ok next := by
  cases k with
  | zero => simp [run]
  | succ k =>
    have hlonger : k < (run lib mode stack items).1.length
        ↔ ∃ next, (run lib mode stack items).1[k]? = some next := by
      rw [← Option.isSome_iff_exists, isSome_getElem?]
    rw [Nat.succ_le_iff, hlonger, Nat.succ_le_iff, ← exists_and_left]
    exact exists_congr fun next => getElem?_trail

/-- A run that succeeds has gone through a stack for each element. -/
theorem length_trail_of_ok {items : List Item} {stack last : List Float}
    (h : (run lib mode stack items).2 = .ok last) :
    (run lib mode stack items).1.length = items.length := by
  refine Nat.le_antisymm (le_length_trail_iff.mp (Nat.le_refl _)).1 (le_length_trail_iff.mpr ?_)
  exact ⟨Nat.le_refl _, last, by rwa [List.take_length]⟩

/-- The last of them is the one that it leaves. -/
theorem getLast?_trail_of_ok {items : List Item} {stack last : List Float}
    (h : (run lib mode stack items).2 = .ok last) :
    (run lib mode stack items).1.getLast?.getD stack = last := by
  rcases List.eq_nil_or_concat' items with rfl | ⟨before, item, rfl⟩
  · simpa [run] using h
  · have hlast : (run lib mode stack (before ++ [item])).1[before.length]? = some last := by
      refine getElem?_trail.mpr ⟨by simp, ?_⟩
      rwa [List.take_of_length_le (by simp)]
    have hlength : (run lib mode stack (before ++ [item])).1.length - 1 = before.length := by
      rw [length_trail_of_ok h]
      simp
    rw [List.getLast?_eq_getElem?, hlength, hlast]
    rfl

/-- A run that fails has gone through a stack for each element before the one that has failed. -/
theorem length_trail_of_fails {before after : List Item} {item : Item} {stack next : List Float}
    {cause : EvalError} (hbefore : (run lib mode stack before).2 = .ok next)
    (hfails : item.Fails next cause) :
    (run lib mode stack (before ++ item :: after)).1.length = before.length := by
  refine Nat.le_antisymm (Nat.not_lt.mp fun hlonger => ?_) (le_length_trail_iff.mpr ?_)
  · -- One stack more would be left by the element that fails.
    obtain ⟨-, last, hlast⟩ := le_length_trail_iff.mp (Nat.succ_le_of_lt hlonger)
    have hfirst : (before ++ item :: after).take (before.length + 1) = before ++ item :: [] := by
      simp [List.take_append]
    have herror : (run lib mode stack (before ++ item :: [])).2 = .error cause :=
      run_eq_error_iff.mpr ⟨before, item, [], next, rfl, hbefore, hfails⟩
    rw [hfirst, herror] at hlast
    cases hlast
  · exact ⟨by simp, next, by rwa [List.take_left]⟩

end Rpn

/-! ## What is reported of a text -/

/-- The tokens of a text, if it has any. -/
def tokens? (text : String) : Option (List Token) :=
  (tokenize text).toOption.filter (!·.isEmpty)

/-- The postfix order of these tokens, if they have one. -/
def items? (text : String) : Option (List Rpn.Item) :=
  (tokens? text).bind fun ts => (Rpn.ofTokens ts).toOption

theorem tokens?_eq_some_iff {text : String} {ts : List Token} :
    tokens? text = some ts ↔ tokenize text = .ok ts ∧ ts ≠ [] := by
  cases h : tokenize text with
  | error e => simp [tokens?, h, Except.toOption]
  | ok us =>
    simp only [tokens?, h, Except.toOption, Option.filter_eq_some_iff, Option.some.injEq,
      Except.ok.injEq, Bool.not_eq_true', List.isEmpty_eq_false_iff]

theorem items?_eq_some_iff {text : String} {items : List Rpn.Item} :
    items? text = some items ↔ ∃ ts, tokens? text = some ts ∧ Rpn.ofTokens ts = .ok items := by
  simp only [items?, Option.bind_eq_some_iff]
  refine exists_congr fun ts => and_congr_right fun _ => ?_
  cases Rpn.ofTokens ts <;> simp [Except.toOption]

/-- A text has a working if it has tokens, none being allowed here, and these have a postfix order. -/
theorem Working.ofText_eq_ok_iff {text : String} {w : Working} :
    Working.ofText text = .ok w
      ↔ ∃ ts items, tokenize text = .ok ts ∧ Rpn.ofTokens ts = .ok items
          ∧ w = ⟨Token.line ts, Rpn.line items⟩ := by
  cases htext : tokenize text with
  | error e => simp [Working.ofText, htext]
  | ok ts => cases hitems : Rpn.ofTokens ts <;> simp [Working.ofText, htext, hitems, eq_comm]

/-- A working never fails in the computation. -/
theorem Working.ne_numerical {text : String} {cause : Failure}
    (h : Working.ofText text = .error cause) (c : EvalError) : cause ≠ .numerical c := by
  rw [Working.ofText] at h
  split at h
  case h_1 =>
    cases h
    nofun
  case h_2 ts _ =>
    split at h <;> cases h
    nofun

variable (lib : MathLibrary) (mode : AngleMode)

/-- A text with a postfix order is computed, and reported on stage by stage. -/
theorem calculate_of_items? {text : String} {ts : List Token} {items : List Rpn.Item}
    (htext : tokens? text = some ts) (hitems : Rpn.ofTokens ts = .ok items) :
    calculate lib mode text
      = ⟨(Rpn.evaluate lib mode items).mapError .numerical,
        .tokenized ts :: .converted items :: (Rpn.run lib mode [] items).1.map .computed⟩ := by
  obtain ⟨htokens, hne⟩ := tokens?_eq_some_iff.mp htext
  obtain ⟨t, ts, rfl⟩ := List.exists_cons_of_ne_nil hne
  simp only [calculate, htokens, hitems]
  rfl

/-- A text without one comes to what its working comes to, or to zero if it has no tokens. -/
theorem calculate_of_items?_eq_none {text : String} (h : items? text = none) :
    calculate lib mode text
      = ⟨(Working.ofText text).map fun _ => 0.0, (tokens? text).toList.map .tokenized⟩ := by
  cases htext : tokenize text with
  | error e => simp [calculate, Working.ofText, tokens?, htext, Except.map, Except.toOption]
  | ok ts =>
    cases ts with
    | nil =>
      have hworking : Working.ofText text = .ok ⟨Token.line [], Rpn.line []⟩ := by
        rw [Working.ofText, htext]
        rfl
      simp [calculate, hworking, tokens?, htext, Except.map, Except.toOption]
    | cons t ts =>
      have htokens : tokens? text = some (t :: ts) :=
        tokens?_eq_some_iff.mpr ⟨htext, List.cons_ne_nil t ts⟩
      cases hitems : Rpn.ofTokens (t :: ts) with
      | error e => simp [calculate, Working.ofText, htokens, htext, hitems, Except.map]
      | ok items =>
        rw [items?_eq_some_iff.mpr ⟨_, htokens, hitems⟩] at h
        cases h

/-! ## The account -/

/-- A failure has a message. -/
theorem Failure.message_ne_empty (cause : Failure) : cause.message ≠ "" := by
  have happend {s t : String} (hs : s ≠ "") : s ++ t ≠ "" := fun h =>
    hs (String.append_eq_empty_iff.mp h).1
  rcases cause with (c | word | run) | (_ | c) | (_ | _ | _ | _)
  · exact happend (by decide)
  · exact happend (by decide)
  · exact happend (by decide)
  · decide
  · exact happend (by decide)
  all_goals decide

/-- An exact account of the evaluation of a text: its lines, those of them that list stacks, and how far
the computation has come by these. -/
structure Account (lib : MathLibrary) (mode : AngleMode) (text : String) (e : Evaluation)
    (traces : List String) : Prop where
  /-- The tokens are reported if there are any, then their postfix order if they have one, then the stacks,
  and in the end the message if there is one. -/
  lines : e.journal.map Event.line
    = (tokens? text).toList.map (fun ts => "DEBUG jetons: " ++ Token.line ts)
      ++ (items? text).toList.map (fun items => "DEBUG rpn: " ++ Rpn.line items)
      ++ traces
      ++ if Session.complaint e.outcome = "" then [] else
        ["DEBUG évaluation de " ++ Text.quote text ++ " refusée: " ++ Session.complaint e.outcome]
  /-- The tokens and the postfix order are those of the working. -/
  working : ∀ ts items, tokens? text = some ts → items? text = some items →
    Working.ofText text = .ok ⟨Token.line ts, Rpn.line items⟩
  /-- No stack is listed without a postfix order. -/
  idle : items? text = none → traces = []
  /-- One is listed for each element that is computed before one fails. -/
  executed : ∀ items, items? text = some items → ∀ k, k ≤ traces.length
    ↔ k ≤ items.length ∧ ∃ stack, (Rpn.run lib mode [] (items.take k)).2 = .ok stack
  /-- Each is the stack behind so many elements, value for value from its bottom, and as many values as
  the depth there. -/
  stack : ∀ items, items? text = some items → ∀ k line, traces[k]? = some line →
    ∃ stack, (Rpn.run lib mode [] (items.take (k + 1))).2 = .ok stack ∧ Lists line stack.reverse
      ∧ (stack.length : Int) = Rpn.depth (items.take (k + 1))
  /-- If there are tokens and a value, a stack is listed for each element, and the last line lists the
  value alone. -/
  solved : ∀ v, e.outcome = .ok v → tokens? text ≠ none →
    ∃ items, items? text = some items ∧ traces.length = items.length
      ∧ ∃ line, traces.getLast? = some line ∧ Lists line [v]
  /-- If an element fails, a stack is listed for each element before it, and the failure is its own. -/
  raised : ∀ before item after stack cause, items? text = some (before ++ item :: after) →
    (Rpn.run lib mode [] before).2 = .ok stack → item.Fails stack cause →
    e.outcome = .error (.numerical cause) ∧ traces.length = before.length
  /-- Otherwise, if the computation has no result, a stack is listed for each element, and the last one, or
  the empty one if there is no element, does not hold one value. -/
  failed : ∀ cause, e.outcome = .error (.numerical cause) → ∃ items, items? text = some items
    ∧ ((∃ before item after stack, items = before ++ item :: after
          ∧ (Rpn.run lib mode [] before).2 = .ok stack ∧ item.Fails stack cause)
      ∨ cause = .malformed ∧ traces.length = items.length
        ∧ ∃ last : List Float, last.length ≠ 1 ∧ (traces = [] → last = [])
          ∧ ∀ line, traces.getLast? = some line → Lists line last.reverse)
  /-- The working fails where the text or the order of the tokens is at fault, for the same reason. -/
  refused : ∀ cause, Working.ofText text = .error cause
    ↔ e.outcome = .error cause ∧ ∀ c, cause ≠ .numerical c

/-- The line of a report: a heading made of its level and its title, and then what it is about. -/
theorem Event.line_eq {e : Event} {title heading rest : String} (hmessage : e.message = title ++ rest)
    (hheading : e.level.name ++ " " ++ title = heading) : e.line = heading ++ rest := by
  rw [Event.line, hmessage, ← hheading, String.append_assoc, String.append_assoc,
    String.append_assoc]

theorem Event.line_tokenized (ts : List Token) :
    (Event.tokenized ts).line = "DEBUG jetons: " ++ Token.line ts :=
  Event.line_eq rfl (by simp [Event.level, Level.name])

theorem Event.line_converted (items : List Rpn.Item) :
    (Event.converted items).line = "DEBUG rpn: " ++ Rpn.line items :=
  Event.line_eq rfl (by simp [Event.level, Level.name])

theorem Event.line_computed (stack : List Float) :
    (Event.computed stack).line = "TRACE pile: " ++ Event.valuesText stack.reverse :=
  Event.line_eq rfl (by simp [Event.level, Level.name])

/-- The line of a stack lists its values from the bottom. -/
theorem lists_computed (stack : List Float) : Lists (Event.computed stack).line stack.reverse :=
  ⟨_, Event.line_computed stack, readListing?_valuesText _⟩

theorem Event.line_refused (text : String) (cause : Failure) :
    (Event.refused text cause).line
      = "DEBUG évaluation de " ++ Text.quote text ++ " refusée: " ++ cause.message := by
  have hmessage : (Event.refused text cause).message
      = "évaluation de " ++ (Text.quote text ++ (" refusée: " ++ cause.message)) := by
    rw [← String.append_assoc, ← String.append_assoc]
    rfl
  rw [String.append_assoc, String.append_assoc]
  exact Event.line_eq hmessage (by simp [Event.level, Level.name])

/-- The lines of a computation, stage by stage. -/
theorem lines_calculate {text : String} {ts : List Token} {items : List Rpn.Item}
    (htext : tokens? text = some ts) (hitems : Rpn.ofTokens ts = .ok items) :
    (calculate lib mode text).journal.map Event.line
      = ("DEBUG jetons: " ++ Token.line ts) :: ("DEBUG rpn: " ++ Rpn.line items)
        :: (Rpn.run lib mode [] items).1.map fun stack => (Event.computed stack).line := by
  simp only [calculate_of_items? lib mode htext hitems, List.map_cons, List.map_map,
    Event.line_tokenized, Event.line_converted, Function.comp_def]

/-- An evaluation reports what the computation does, and the failure in the end if there is one. -/
theorem lines_evaluate (text : String) :
    (evaluate lib mode text).journal.map Event.line
      = (calculate lib mode text).journal.map Event.line
        ++ if Session.complaint (evaluate lib mode text).outcome = "" then [] else
          ["DEBUG évaluation de " ++ Text.quote text ++ " refusée: "
            ++ Session.complaint (evaluate lib mode text).outcome] := by
  rw [outcome_evaluate, evaluate]
  cases (calculate lib mode text).outcome with
  | ok v => simp [Session.complaint]
  | error cause =>
    have hmessage : Session.complaint (.error cause) ≠ "" := cause.message_ne_empty
    rw [if_neg hmessage]
    simp only [List.map_append, List.map_cons, List.map_nil, Event.line_refused, Session.complaint]

/-- The last line of a run lists the stack that the run leaves. -/
theorem lists_getLast? {items : List Rpn.Item} {last : List Float} {line : String}
    (h : (Rpn.run lib mode [] items).2 = .ok last)
    (hline : ((Rpn.run lib mode [] items).1.map fun stack => (Event.computed stack).line).getLast?
      = some line) : Lists line last.reverse := by
  rw [List.getLast?_map] at hline
  obtain ⟨stack, hstack, rfl⟩ := Option.map_eq_some_iff.mp hline
  have hlast := Rpn.getLast?_trail_of_ok h
  rw [hstack, Option.getD_some] at hlast
  exact hlast ▸ lists_computed stack

/-- A text without a postfix order that is reported has no stacks listed in its account. -/
theorem account_of_items?_eq_none {text : String} (h : items? text = none) :
    Account lib mode text (evaluate lib mode text) [] := by
  have hcalculate := calculate_of_items?_eq_none lib mode h
  have houtcome : (evaluate lib mode text).outcome = (Working.ofText text).map fun _ => 0.0 := by
    rw [outcome_evaluate, hcalculate]
  have hnumerical : ∀ cause, (evaluate lib mode text).outcome = .error cause →
      ∀ c, cause ≠ .numerical c := by
    intro cause hcause
    rw [houtcome, map_eq_error_iff] at hcause
    exact Working.ne_numerical hcause
  exact {
    lines := by
      rw [lines_evaluate, hcalculate, h]
      simp [Function.comp_def, Event.line_tokenized]
    working := by simp [h]
    idle := fun _ => rfl
    executed := by simp [h]
    stack := by simp [h]
    solved := by
      intro v hv htokens
      rw [houtcome, map_eq_ok_iff] at hv
      obtain ⟨w, hw, -⟩ := hv
      obtain ⟨ts, hts⟩ := Option.ne_none_iff_exists'.mp htokens
      obtain ⟨us, items, hus, hitems, -⟩ := Working.ofText_eq_ok_iff.mp hw
      obtain rfl : ts = us := Except.ok.inj ((tokens?_eq_some_iff.mp hts).1.symm.trans hus)
      rw [items?_eq_some_iff.mpr ⟨ts, hts, hitems⟩] at h
      cases h
    raised := by simp [h]
    failed := fun c hc => absurd rfl (hnumerical _ hc c)
    refused := by
      intro cause
      rw [houtcome, map_eq_error_iff]
      exact ⟨fun hcause => ⟨hcause, Working.ne_numerical hcause⟩, And.left⟩ }

/-- A text with a postfix order has the stacks of its run listed in its account. -/
theorem account_of_items? {text : String} {items : List Rpn.Item} (h : items? text = some items) :
    Account lib mode text (evaluate lib mode text)
      ((Rpn.run lib mode [] items).1.map fun stack => (Event.computed stack).line) := by
  obtain ⟨ts, htext, hitems⟩ := items?_eq_some_iff.mp h
  have houtcome : (evaluate lib mode text).outcome
      = (Rpn.evaluate lib mode items).mapError .numerical := by
    rw [outcome_evaluate, calculate_of_items? lib mode htext hitems]
  have hworking : Working.ofText text = .ok ⟨Token.line ts, Rpn.line items⟩ :=
    Working.ofText_eq_ok_iff.mpr ⟨ts, items, (tokens?_eq_some_iff.mp htext).1, hitems, rfl⟩
  have hsame : ∀ others, items? text = some others → others = items := fun others hothers =>
    Option.some.inj (hothers.symm.trans h)
  exact {
    lines := by
      rw [lines_evaluate, lines_calculate lib mode htext hitems, htext, h]
      simp
    working := by
      intro us others hus hothers
      rw [hsame others hothers, ← Option.some.inj (htext.symm.trans hus), hworking]
    idle := by simp [h]
    executed := by
      intro others hothers k
      rw [hsame others hothers, List.length_map]
      exact Rpn.le_length_trail_iff
    stack := by
      intro others hothers k line hline
      rw [List.getElem?_map, Option.map_eq_some_iff] at hline
      obtain ⟨stack, hstack, rfl⟩ := hline
      have hrun := (Rpn.getElem?_trail.mp hstack).2
      rw [hsame others hothers]
      exact ⟨stack, hrun, lists_computed stack, Rpn.depth_of_run hrun⟩
    solved := by
      intro v hv _
      rw [houtcome, mapError_eq_ok_iff, Rpn.evaluate_eq_ok_iff] at hv
      refine ⟨items, h, (List.length_map _).trans (Rpn.length_trail_of_ok hv), ?_⟩
      -- The empty stack that the run starts from is not the last one, as it holds no value.
      have hne : (Rpn.run lib mode [] items).1 ≠ [] := by
        intro hnil
        have hlast := Rpn.getLast?_trail_of_ok hv
        rw [hnil] at hlast
        cases hlast
      obtain ⟨line, hline⟩ := Option.ne_none_iff_exists'.mp
        (mt List.getLast?_eq_none_iff.mp (mt List.map_eq_nil_iff.mp hne))
      exact ⟨line, hline, lists_getLast? lib mode hv hline⟩
    raised := by
      intro before item after stack cause hothers hbefore hfails
      obtain rfl := hsame _ hothers
      have hrun := Rpn.run_eq_error_iff.mpr ⟨before, item, after, stack, rfl, hbefore, hfails⟩
      rw [List.length_map]
      refine ⟨?_, Rpn.length_trail_of_fails hbefore hfails⟩
      rw [houtcome, Rpn.evaluate, hrun]
      rfl
    failed := by
      intro cause hcause
      rw [houtcome, mapError_eq_error_iff] at hcause
      obtain ⟨c, hc, ⟨⟩⟩ := hcause
      refine ⟨items, h, ?_⟩
      rcases Rpn.evaluate_eq_error_iff.mp hc with hraised | ⟨last, hrun, hlast, rfl⟩
      · exact .inl hraised
      · refine .inr ⟨rfl, (List.length_map _).trans (Rpn.length_trail_of_ok hrun), last, hlast,
          fun hnil => ?_, fun line hline => lists_getLast? lib mode hrun hline⟩
        have hshown := Rpn.getLast?_trail_of_ok hrun
        rw [List.map_eq_nil_iff.mp hnil] at hshown
        exact hshown.symm
    refused := by
      intro cause
      rw [hworking, houtcome, mapError_eq_error_iff]
      constructor
      · rintro ⟨⟩
      · rintro ⟨⟨c, -, rfl⟩, hnumerical⟩
        exact absurd rfl (hnumerical c) }

/-- **The journal is an exact account of the evaluation**, and it agrees with the working, for every text
in both modes. -/
theorem evaluate_account (text : String) :
    ∃ traces, Account lib mode text (evaluate lib mode text) traces := by
  cases h : items? text with
  | none => exact ⟨[], account_of_items?_eq_none lib mode h⟩
  | some items => exact ⟨_, account_of_items? lib mode h⟩

/-- The stacks of `2-√9` are listed up to the value, which is read back from the last line. -/
example : (evaluate .native .degrees "2-sqrt(9)").journal.map Event.line
      = ["DEBUG jetons: 2 - sqrt ( 9 )", "DEBUG rpn: 2 9 sqrt -", "TRACE pile: [2.0]",
        "TRACE pile: [2.0, 9.0]", "TRACE pile: [2.0, 3.0]", "TRACE pile: [-1.0]"]
    ∧ readListing? "[2.0, 3.0]" = some [2.0, 3.0] ∧ readListing? "[-1.0]" = some [-1.0] := by
  decide +kernel

end Calculator
