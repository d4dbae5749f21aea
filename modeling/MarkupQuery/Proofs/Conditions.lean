import MarkupQuery.Proofs.LowerCase
import MarkupQuery.Proofs.Overlap
import MarkupQuery.Proofs.Quoting
import MarkupQuery.Proofs.Reading
import MarkupQuery.Selector.Printer

/-!
# Conditions on attributes

What stands between square brackets is the start of a name, a name, or a comparison
with a value.  What is written there for a condition in normal form is read back, and
nothing that breaks off before a bracket inside it, or goes on with one, is read so.

* `AttributeTest.Normal` — the conditions that are read;
* `Parser.attributeTest_writeBody` — they are read back;
* `Parser.attributeTest_ne_of_breaksOff` — and from no other text that agrees with
  theirs up to a bracket.
-/

namespace MarkupQuery

open Delimited

variable {p : Parser}

/-! ### The normal form -/

/-- The start of an attribute name. -/
structure IsNameStart (name : String) : Prop where
  nonempty : name ≠ ""
  trimmed : Text.trimmed name = name
  lower : Text.asciiLowered name = name

/-- The name of an attribute, as it can stand before an operator. -/
structure IsAttributeName (name : String) : Prop extends IsNameStart name where
  letters : ∀ c ∈ name.toList, Parser.isOperatorChar c = false

/-- Whether the engine takes a pattern. -/
def Parser.Accepts (p : Parser) (pattern : Pattern) : Prop :=
  ∃ found, p.engine.compile pattern = .ok found

/-- A condition on attributes as it is read. -/
def AttributeTest.Normal (p : Parser) : AttributeTest → Prop
  | .present name => IsAttributeName name
  | .nameStart start => IsNameStart start
  | .value _ name expected =>
    IsAttributeName name ∧ Text.trimmed expected.value = expected.value ∧
      expected.case.fold expected.value = expected.value
  | .pattern name sought =>
    IsAttributeName name ∧ Text.trimmed sought.source = sought.source ∧ p.Accepts sought

namespace Parser

/-! ### What conditions are read -/

/-- The comparison with the value that follows an operator. -/
def compared (p : Parser) (stop : Nat) (name : String) (op : Char) (after : List Char) :
    Outcome AttributeTest := do
  let (value, flag) ← attributeValue stop after
  match valueOperator? op with
  | some k => return .value k name (.ofWritten value (flag.getD p.config.attributeValues))
  | none =>
    let sought ← p.pattern (Text.trimmed value) (flag.getD p.config.patterns)
    return .pattern name sought

/-- The equals sign stands alone, and every other operator before one. -/
theorem comparison_eq (stop : Nat) (name : String) (op : Char) (rest : List Char) :
    p.comparison stop name op rest =
      if op = '=' then p.compared stop name op rest
      else
        match rest with
        | '=' :: after => p.compared stop name op after
        | _ => .error (.malformed (stop - rest.length) (.expectedEqualsAfter op)) := by
  by_cases hop : op = '='
  · subst hop
    rfl
  · rw [if_neg hop]
    split
    · unfold comparison
      simp only [if_neg hop]
      rfl
    · next hne =>
        unfold comparison
        simp only [if_neg hop]
        rfl

/-- What a comparison with a value is. -/
theorem compared_eq_ok_iff {stop : Nat} {name : String} {op : Char} {after : List Char}
    {test : AttributeTest} :
    p.compared stop name op after = .ok test ↔
      ∃ value flag, attributeValue stop after = .ok (value, flag) ∧
        ((∃ k, valueOperator? op = some k ∧
            test = .value k name (.ofWritten value (flag.getD p.config.attributeValues))) ∨
          (valueOperator? op = none ∧ ∃ sought,
            p.pattern (Text.trimmed value) (flag.getD p.config.patterns) = .ok sought ∧
            test = .pattern name sought)) := by
  unfold compared
  constructor
  · intro h
    obtain ⟨⟨value, flag⟩, hvalue, h⟩ := Outcome.bind_eq_ok_iff.1 h
    refine ⟨value, flag, hvalue, ?_⟩
    dsimp only at h
    split at h
    · next k hk =>
        cases h
        exact .inl ⟨k, hk, rfl⟩
    · next hk =>
        obtain ⟨sought, hsought, h⟩ := Outcome.bind_eq_ok_iff.1 h
        cases h
        exact .inr ⟨hk, sought, hsought, rfl⟩
  · rintro ⟨value, flag, hvalue, h⟩
    refine Outcome.bind_eq_ok_iff.2 ⟨(value, flag), hvalue, ?_⟩
    rcases h with ⟨k, hk, rfl⟩ | ⟨hk, sought, hsought, rfl⟩
    · simp only [hk]
      rfl
    · simp only [hk, hsought]
      rfl

/-- The name that a part of the content of square brackets gives. -/
def nameOf (cs : List Char) : String := Text.asciiLowered (String.ofList (Text.trim cs))

/-- The two ways to read a condition: after a caret, and else. -/
theorem attributeTest_eq (opening : Nat) (content : List Char) :
    p.attributeTest opening content =
      match Text.trimStart content with
      | '^' :: rest =>
        if nameOf rest = "" then .error (.malformed opening .expectedNameStart)
        else .ok (.nameStart (nameOf rest))
      | body =>
        if nameOf (body.takeWhile (!isOperatorChar ·)) = "" then
          .error (.malformed opening .expectedAttributeName)
        else
          match body.dropWhile (!isOperatorChar ·) with
          | [] => .ok (.present (nameOf (body.takeWhile (!isOperatorChar ·))))
          | op :: rest =>
            p.comparison (opening + 1 + content.length)
              (nameOf (body.takeWhile (!isOperatorChar ·))) op rest :=
  rfl

/-- **What a condition on attributes can be**: the start of names after a caret, a name
alone, or a comparison after a name. -/
theorem attributeTest_cases {opening : Nat} {content : List Char} {test : AttributeTest}
    (h : p.attributeTest opening content = .ok test) :
    (∃ rest, Text.trimStart content = '^' :: rest ∧ nameOf rest ≠ "" ∧
      test = .nameStart (nameOf rest)) ∨
    (∃ front back, Text.trimStart content = front ++ back ∧
      (∀ c ∈ front, isOperatorChar c = false) ∧ nameOf front ≠ "" ∧
      ((back = [] ∧ test = .present (nameOf front)) ∨
        ∃ op after, isOperatorChar op = true ∧
          back = (if op = '=' then ['='] else [op, '=']) ++ after ∧
          p.compared (opening + 1 + content.length) (nameOf front) op after = .ok test)) := by
  rw [attributeTest_eq] at h
  split at h
  · next rest hbody =>
      split at h
      · cases h
      · next hname =>
          cases h
          exact .inl ⟨rest, hbody, hname, rfl⟩
  · split at h
    · cases h
    next hname =>
    right
    refine ⟨(Text.trimStart content).takeWhile (!isOperatorChar ·),
      (Text.trimStart content).dropWhile (!isOperatorChar ·), List.takeWhile_append_dropWhile.symm,
      fun c hc => by simpa using List.mem_takeWhile_imp hc, hname, ?_⟩
    split at h
    · next hback =>
        cases h
        exact .inl ⟨hback, rfl⟩
    · next op rest hback =>
        right
        have hop : isOperatorChar op = true := by
          have hhead := List.head?_dropWhile_not (!isOperatorChar ·) (Text.trimStart content)
          rw [hback] at hhead
          simpa using hhead
        rw [comparison_eq] at h
        rw [hback]
        split at h
        · next heq => exact ⟨op, rest, hop, by rw [if_pos heq, heq]; rfl, h⟩
        · next hne =>
            split at h
            · next after => exact ⟨op, after, hop, by rw [if_neg hne]; rfl, h⟩
            · cases h

/-- A pattern is kept as it is given, if the engine takes it. -/
theorem pattern_eq_ok_iff {source : String} {case : CaseSensitivity} {pattern : Pattern} :
    p.pattern source case = .ok pattern ↔ pattern = ⟨source, case⟩ ∧ p.Accepts pattern := by
  unfold Parser.pattern Accepts
  cases hcompile : p.engine.compile ⟨source, case⟩ with
  | ok found =>
      constructor
      · intro h
        cases h
        exact ⟨rfl, found, hcompile⟩
      · rintro ⟨rfl, -⟩
        rfl
  | error explanation =>
      constructor
      · intro h
        cases h
      · rintro ⟨rfl, found, h⟩
        rw [hcompile] at h
        cases h

/-- The name that a text gives can start the names of attributes. -/
theorem isNameStart_nameOf {cs : List Char} (h : nameOf cs ≠ "") : IsNameStart (nameOf cs) where
  nonempty := h
  trimmed := by
    rw [Text.trimmed_eq_self_iff]
    simp [nameOf, Text.asciiLowered, Text.trim_map_toLower]
  lower := Text.asciiLowered_asciiLowered _

/-- A character that ends no name ends none in lower case. -/
theorem isOperatorChar_toLower {c : Char} (h : isOperatorChar c = false) :
    isOperatorChar c.toLower = false := by
  rcases Text.toLower_cases c with hc | ⟨hlow, hhigh, hc⟩
  · rw [hc, h]
  · simp only [isOperatorChar, Bool.or_eq_false_iff, beq_eq_false_iff_ne, ne_eq,
      ← Char.toNat_inj, hc]
    simp
    omega

/-- The name that a text without operators gives is that of an attribute. -/
theorem isAttributeName_nameOf {cs : List Char} (hcs : ∀ c ∈ cs, isOperatorChar c = false)
    (h : nameOf cs ≠ "") : IsAttributeName (nameOf cs) where
  toIsNameStart := isNameStart_nameOf h
  letters := by
    intro d hd
    simp only [nameOf, Text.asciiLowered, String.toList_ofList, List.mem_map] at hd
    obtain ⟨c, hc, rfl⟩ := hd
    exact isOperatorChar_toLower
      (hcs c ((Text.trimStart_isSuffix _).mem ((Text.trimEnd_isPrefix _).mem hc)))

/-- A value brought into the form that is compared stays as it is. -/
theorem fold_trimmed_ofWritten (value : String) (case : CaseSensitivity) :
    Text.trimmed (AttributeValue.ofWritten value case).value =
        (AttributeValue.ofWritten value case).value ∧
      (AttributeValue.ofWritten value case).case.fold
          (AttributeValue.ofWritten value case).value =
        (AttributeValue.ofWritten value case).value := by
  cases case with
  | sensitive => exact ⟨Text.trimmed_trimmed value, rfl⟩
  | insensitive =>
      refine ⟨?_, Text.lowered_lowered _⟩
      rw [Text.trimmed_eq_self_iff]
      simp [AttributeValue.ofWritten, CaseSensitivity.fold, Text.lowered, Text.trimmed,
        Text.trim_lower_of_trim]

/-- **The conditions that are read** are in normal form. -/
theorem normal_of_attributeTest {opening : Nat} {content : List Char} {test : AttributeTest}
    (h : p.attributeTest opening content = .ok test) : test.Normal p := by
  rcases attributeTest_cases h with ⟨rest, -, hname, rfl⟩ |
    ⟨front, back, -, hfront, hname, ⟨-, rfl⟩ | ⟨op, after, -, -, h⟩⟩
  · exact isNameStart_nameOf hname
  · exact isAttributeName_nameOf hfront hname
  · obtain ⟨value, flag, -, ⟨k, -, rfl⟩ | ⟨-, sought, hsought, rfl⟩⟩ := compared_eq_ok_iff.1 h
    · exact ⟨isAttributeName_nameOf hfront hname, fold_trimmed_ofWritten _ _⟩
    · obtain ⟨rfl, haccepts⟩ := pattern_eq_ok_iff.1 hsought
      exact ⟨isAttributeName_nameOf hfront hname, Text.trimmed_trimmed value, haccepts⟩

/-! ### What is written is read back -/

/-- The name of an attribute gives itself. -/
theorem nameOf_toList {name : String} (h : IsNameStart name) : nameOf name.toList = name := by
  rw [nameOf, Text.trimmed_eq_self_iff.1 h.trimmed, String.ofList_toList, h.lower]

/-- A name followed by anything starts with no blank. -/
theorem trimStart_name_append {name : String} (h : IsNameStart name) (back : List Char) :
    Text.trimStart (name.toList ++ back) = name.toList ++ back := by
  apply Text.trimStart_eq_self
  intro c hc
  have hne : name.toList ≠ [] := by simpa using h.nonempty
  rw [List.head?_append_of_ne_nil _ hne] at hc
  exact (Text.trim_eq_self_iff.1 (Text.trimmed_eq_self_iff.1 h.trimmed)).1 c hc

/-- The characters of an operator. -/
def operatorText (op : Char) : List Char := if op = '=' then ['='] else [op, '=']

/-- The name of an attribute starts with no caret. -/
theorem name_append_ne_caret {name : String} (h : IsAttributeName name)
    {back rest : List Char} : name.toList ++ back ≠ '^' :: rest := by
  intro hcaret
  obtain ⟨c, front, hfront⟩ :=
    List.exists_cons_of_ne_nil (l := name.toList) (by simpa using h.nonempty)
  rw [hfront, List.cons_append, List.cons.injEq] at hcaret
  have hletter := h.letters c (by rw [hfront]; exact List.mem_cons_self)
  rw [hcaret.1] at hletter
  exact absurd hletter (by decide)

/-- A name alone. -/
theorem attributeTest_name {name : String} (h : IsAttributeName name) (opening : Nat) :
    p.attributeTest opening name.toList = .ok (.present name) := by
  have htake : name.toList.takeWhile (!isOperatorChar ·) = name.toList := by
    rw [List.takeWhile_eq_self_iff]
    simpa using h.letters
  have hdrop : name.toList.dropWhile (!isOperatorChar ·) = [] := by
    rw [List.dropWhile_eq_nil_iff]
    simpa using h.letters
  have hstart := trimStart_name_append h.toIsNameStart []
  rw [List.append_nil] at hstart
  rw [attributeTest_eq, hstart]
  split
  · next rest hcaret =>
      have hne : name.toList ++ [] ≠ '^' :: rest := name_append_ne_caret h
      exact absurd (by simpa using hcaret) hne
  · rw [htake, hdrop, nameOf_toList h.toIsNameStart, if_neg h.nonempty]

/-- A name before an operator. -/
theorem attributeTest_compared {name : String} (h : IsAttributeName name) {op : Char}
    (hop : isOperatorChar op = true) (opening : Nat) (after : List Char) :
    ∃ stop, p.attributeTest opening (name.toList ++ operatorText op ++ after) =
      p.compared stop name op after := by
  have htext : ∃ rest, operatorText op ++ after = op :: rest ∧
      ∀ stop, p.comparison stop name op rest = p.compared stop name op after := by
    unfold operatorText
    by_cases heq : op = '='
    · subst heq
      exact ⟨after, rfl, fun stop => by rw [comparison_eq, if_pos rfl]⟩
    · rw [if_neg heq]
      exact ⟨'=' :: after, rfl, fun stop => by rw [comparison_eq, if_neg heq]; rfl⟩
  obtain ⟨rest, hrest, hcomparison⟩ := htext
  have htake : (name.toList ++ op :: rest).takeWhile (!isOperatorChar ·) = name.toList := by
    rw [List.takeWhile_append_of_pos (by simpa using h.letters)]
    simp [hop]
  have hdrop : (name.toList ++ op :: rest).dropWhile (!isOperatorChar ·) = op :: rest := by
    rw [List.dropWhile_append_of_pos (by simpa using h.letters)]
    simp [hop]
  refine ⟨opening + 1 + (name.toList ++ op :: rest).length, ?_⟩
  rw [List.append_assoc, hrest, attributeTest_eq, trimStart_name_append h.toIsNameStart]
  split
  · next hcaret => exact absurd hcaret (name_append_ne_caret h)
  · rw [htake, hdrop, nameOf_toList h.toIsNameStart, if_neg h.nonempty, ← hcomparison]

/-- A quoted value and its flag are read back. -/
theorem attributeValue_writeFlagged (stop : Nat) (value : String) (case : CaseSensitivity) :
    attributeValue stop (writeFlagged value case) = .ok (value, some case) := by
  have hflag : valueFlag stop [' ', case.flag] = .ok (some case) := by
    cases case <;> rfl
  have htext : writeFlagged value case =
      '"' :: (escapeQuoted value.toList ++ '"' :: [' ', case.flag]) := by
    simp [writeFlagged, writeQuoted]
  rw [htext, attributeValue]
  simp only [List.dropWhile_cons, show Text.isBlank '"' = false from by decide]
  simp [isQuote, readQuoted_escapeQuoted, hflag]

/-- A quoted value that breaks off is not read. -/
theorem attributeValue_ne_ok_of_isPrefix {stop : Nat} {value : String} {part : List Char}
    (h : part <+: escapeQuoted value.toList) (read : String × Option CaseSensitivity) :
    attributeValue stop ('"' :: part) ≠ .ok read := by
  rw [attributeValue]
  simp only [List.dropWhile_cons, show Text.isBlank '"' = false from by decide]
  simp [isQuote, readQuoted_of_isPrefix h]

/-- Nothing may follow the flag of a value but blanks. -/
theorem attributeValue_writeFlagged_append {stop : Nat} {value : String}
    {case : CaseSensitivity} {c : Char} (hc : Text.isBlank c = false) (rest : List Char)
    (read : String × Option CaseSensitivity) :
    attributeValue stop (writeFlagged value case ++ c :: rest) ≠ .ok read := by
  have hflag : ∃ e, valueFlag stop (' ' :: case.flag :: c :: rest) = .error e := by
    have hblank : Text.isBlank ' ' = true := by decide
    cases case <;>
      simp [valueFlag, hblank, hc, CaseSensitivity.flag, CaseSensitivity.ofFlag?,
        show Text.isBlank 's' = false by decide, show Text.isBlank 'i' = false by decide]
  obtain ⟨e, he⟩ := hflag
  have htext : writeFlagged value case ++ c :: rest =
      '"' :: (escapeQuoted value.toList ++ '"' :: ' ' :: case.flag :: c :: rest) := by
    simp [writeFlagged, writeQuoted]
  rw [htext, attributeValue]
  simp only [List.dropWhile_cons, show Text.isBlank '"' = false from by decide]
  simp [isQuote, readQuoted_escapeQuoted, he]

/-! ### Every condition is read back, and from no other text -/

/-- The character that asks for a comparison. -/
def operatorChar : ValueOperator → Char
  | .equals => '='
  | .notEquals => '!'
  | .startsWith => '^'
  | .endsWith => '$'
  | .contains => '*'

theorem write_eq_operatorText (k : ValueOperator) : k.write = operatorText (operatorChar k) := by
  cases k <;> rfl

theorem isOperatorChar_operatorChar (k : ValueOperator) :
    isOperatorChar (operatorChar k) = true := by
  cases k <;> rfl

theorem valueOperator?_operatorChar (k : ValueOperator) :
    valueOperator? (operatorChar k) = some k := by
  cases k <;> rfl

/-- **Every condition in normal form is read back.** -/
theorem attributeTest_writeBody {test : AttributeTest} (h : test.Normal p) (opening : Nat) :
    p.attributeTest opening test.writeBody = .ok test := by
  cases test with
  | present name => exact attributeTest_name h opening
  | nameStart start =>
      have hstart : Text.trimStart ('^' :: start.toList) = '^' :: start.toList :=
        Text.trimStart_cons_of_not_blank (by decide)
      rw [AttributeTest.writeBody, attributeTest_eq, hstart]
      simp only [nameOf_toList h, if_neg h.nonempty]
  | value k name expected =>
      obtain ⟨hname, htrim, hfold⟩ := h
      obtain ⟨stop, hstop⟩ := attributeTest_compared (p := p) hname
        (isOperatorChar_operatorChar k) opening (writeFlagged expected.value expected.case)
      rw [AttributeTest.writeBody, write_eq_operatorText, hstop]
      refine compared_eq_ok_iff.2 ⟨expected.value, some expected.case,
        attributeValue_writeFlagged _ _ _, .inl ⟨k, valueOperator?_operatorChar k, ?_⟩⟩
      rw [Option.getD_some, AttributeValue.ofWritten, htrim, hfold]
  | pattern name sought =>
      obtain ⟨hname, htrim, haccepts⟩ := h
      obtain ⟨stop, hstop⟩ := attributeTest_compared (p := p) hname
        (show isOperatorChar '~' = true from rfl) opening
        (writeFlagged sought.source sought.case)
      rw [AttributeTest.writeBody, show ['~', '='] = operatorText '~' from rfl, hstop]
      refine compared_eq_ok_iff.2 ⟨sought.source, some sought.case,
        attributeValue_writeFlagged _ _ _, .inr ⟨rfl, sought, ?_, rfl⟩⟩
      rw [htrim]
      exact pattern_eq_ok_iff.2 ⟨rfl, haccepts⟩

/-- No other name is given by a text that agrees with a name up to a bracket. -/
theorem nameOf_ne_of_breaksOff {name : String} (h : IsNameStart name) {cs : List Char}
    (hbreak : BreaksOff ']' cs name.toList ∨ BreaksOff ']' name.toList cs) :
    nameOf cs ≠ name := by
  intro hname
  have hlength : name.toList.length = (Text.trim cs).length := by
    rw [← hname]
    simp [nameOf, Text.asciiLowered]
  rcases hbreak with ⟨back, hback⟩ | ⟨back, rfl⟩
  · have hle := Text.length_trim_le cs
    have hlt : cs.length < name.toList.length := by
      rw [← hback]
      simp
    omega
  · have hhead := (Text.trim_eq_self_iff.1 (Text.trimmed_eq_self_iff.1 h.trimmed)).1
    have hlt := Text.length_lt_length_trim (c := ']') (by decide) hhead back
    rw [List.append_assoc, List.singleton_append] at hlength
    omega

theorem nameOf_trimStart (cs : List Char) : nameOf (Text.trimStart cs) = nameOf cs := by
  rw [nameOf, nameOf, Text.trim, Text.trim, Text.trimStart, Text.trimStart,
    List.dropWhile_idempotent]

/-- A text that breaks off in a quoted value, or behind its flag goes on with a bracket,
holds no value. -/
theorem attributeValue_ne_ok_of_breaksOff {stop : Nat} {value : String} {case : CaseSensitivity}
    {cs : List Char} (hbreak : BreaksOff ']' cs (writeFlagged value case) ∨
      BreaksOff ']' (writeFlagged value case) cs) (read : String × Option CaseSensitivity) :
    attributeValue stop cs ≠ .ok read := by
  rcases hbreak with hbreak | ⟨back, rfl⟩
  · have htext : writeFlagged value case =
        ['"'] ++ (escapeQuoted value.toList ++ ['"', ' ', case.flag]) := by
      simp [writeFlagged, writeQuoted]
    rw [htext] at hbreak
    rcases breaksOff_append hbreak with hquote | ⟨part, rfl, hpart⟩
    · exact absurd hquote (not_breaksOff (by simp))
    rcases breaksOff_append hpart with hinside | ⟨rest, -, hrest⟩
    · exact attributeValue_ne_ok_of_isPrefix ((List.prefix_append part [']']).trans hinside) read
    · exact absurd hrest (not_breaksOff (by cases case <;> decide))
  · rw [List.append_assoc]
    exact attributeValue_writeFlagged_append (by decide) back read

/-- A text that agrees with a comparison up to a bracket is no comparison. -/
theorem attributeTest_of_breaksOff {name : String} (hname : IsAttributeName name) {op : Char}
    (hop : isOperatorChar op = true) {value : String} {case : CaseSensitivity}
    {content : List Char}
    (hbreak : BreaksOff ']' content
        (name.toList ++ operatorText op ++ writeFlagged value case) ∨
      BreaksOff ']' (name.toList ++ operatorText op ++ writeFlagged value case) content)
    {opening : Nat} {test : AttributeTest} (h : p.attributeTest opening content = .ok test) :
    ∃ front, test = .present front := by
  have hvalue : ∀ cs, content = name.toList ++ operatorText op ++ cs →
      BreaksOff ']' cs (writeFlagged value case) ∨
        BreaksOff ']' (writeFlagged value case) cs → False := by
    rintro cs rfl hcs
    obtain ⟨stop, hstop⟩ := attributeTest_compared (p := p) hname hop opening cs
    rw [hstop] at h
    obtain ⟨read, flag, hread, -⟩ := compared_eq_ok_iff.1 h
    exact attributeValue_ne_ok_of_breaksOff hcs _ hread
  rcases hbreak with hbreak | ⟨back, hback⟩
  · rcases breaksOff_append hbreak with hfront | ⟨cs, hcs, hbreak⟩
    · rcases breaksOff_append hfront with hinside | ⟨rest, -, hrest⟩
      · -- the text breaks off in the name, so that no operator is in it
        have hletters : ∀ c ∈ content, isOperatorChar c = false := fun c hc =>
          hname.letters c (hinside.subset (List.mem_append_left _ hc))
        have hletters : ∀ c ∈ Text.trimStart content, isOperatorChar c = false := fun c hc =>
          hletters c ((Text.trimStart_isSuffix content).mem hc)
        rcases attributeTest_cases h with ⟨rest, hrest, -, -⟩ |
          ⟨front, cs, hcs, -, -, ⟨-, rfl⟩ | ⟨op', after, hop', hafter, -⟩⟩
        · have hcaret := hletters '^' (by rw [hrest]; exact List.mem_cons_self)
          exact absurd hcaret (by decide)
        · exact ⟨_, rfl⟩
        · have hmem : op' ∈ Text.trimStart content := by
            rw [hcs, hafter]
            by_cases heq : op' = '=' <;> simp [heq]
          rw [hletters op' hmem] at hop'
          cases hop'
      · refine absurd hrest (not_breaksOff ?_)
        have hne : op ≠ ']' := by
          rintro rfl
          exact absurd hop (by decide)
        by_cases heq : op = '=' <;> simp [operatorText, heq, hne.symm]
    · exact (hvalue cs hcs (.inl hbreak)).elim
  · refine (hvalue (writeFlagged value case ++ [']'] ++ back) ?_ (.inr ⟨back, rfl⟩)).elim
    rw [← hback]
    simp only [List.append_assoc]

/-- **No condition in normal form is read from another text** that agrees with its own
up to a bracket. -/
theorem attributeTest_ne_of_breaksOff {test : AttributeTest} (h : test.Normal p)
    {content : List Char} (hbreak : BreaksOff ']' content test.writeBody ∨
      BreaksOff ']' test.writeBody content) (opening : Nat) :
    p.attributeTest opening content ≠ .ok test := by
  intro hread
  cases test with
  | present name =>
      rcases attributeTest_cases hread with ⟨rest, -, -, hne⟩ |
        ⟨front, back, hfront, -, -, ⟨rfl, heq⟩ | ⟨op, after, -, -, hne⟩⟩
      · cases hne
      · rw [List.append_nil] at hfront
        rw [← hfront, nameOf_trimStart] at heq
        exact nameOf_ne_of_breaksOff h.toIsNameStart hbreak (AttributeTest.present.inj heq).symm
      · obtain ⟨value, flag, -, ⟨k, -, hne⟩ | ⟨-, sought, -, hne⟩⟩ := compared_eq_ok_iff.1 hne
        · cases hne
        · cases hne
  | nameStart start =>
      rcases attributeTest_cases hread with ⟨rest, hrest, -, heq⟩ |
        ⟨front, back, -, -, -, ⟨-, hne⟩ | ⟨op, after, -, -, hne⟩⟩
      · have hcaret : ∀ cs, Text.trimStart ('^' :: cs) = '^' :: cs := fun cs =>
          Text.trimStart_cons_of_not_blank (by decide)
        refine nameOf_ne_of_breaksOff h ?_ (AttributeTest.nameStart.inj heq).symm
        rcases hbreak with hbreak | ⟨back, rfl⟩
        · rcases breaksOff_append (u := ['^']) hbreak with hcaret' | ⟨cs, rfl, hcs⟩
          · exact absurd hcaret' (not_breaksOff (by decide))
          · rw [List.singleton_append, hcaret] at hrest
            cases hrest
            exact .inl hcs
        · rw [AttributeTest.writeBody, List.cons_append, List.cons_append, hcaret] at hrest
          cases hrest
          exact .inr ⟨back, rfl⟩
      · cases hne
      · obtain ⟨value, flag, -, ⟨k, -, hne⟩ | ⟨-, sought, -, hne⟩⟩ := compared_eq_ok_iff.1 hne
        · cases hne
        · cases hne
  | value k name expected =>
      rw [AttributeTest.writeBody, write_eq_operatorText] at hbreak
      obtain ⟨front, hfront⟩ :=
        attributeTest_of_breaksOff h.1 (isOperatorChar_operatorChar k) hbreak hread
      cases hfront
  | pattern name sought =>
      rw [AttributeTest.writeBody, show ['~', '='] = operatorText '~' from rfl] at hbreak
      obtain ⟨front, hfront⟩ := attributeTest_of_breaksOff h.1
        (show isOperatorChar '~' = true from rfl) hbreak hread
      cases hfront

end Parser

end MarkupQuery
