import MarkupQuery.Proofs.RoundTrip

/-!
# Selectors that are always read back

Escapes and quotes keep what they enclose from the search for a closing bracket, at
every depth.  What is written as it stands are names and the sources of `:matches`
patterns: if the names hold no delimiters and the patterns leave no bracket and no quote
open, then a selector is read back from its text.

* `Simple.Plain`, `Complex.Plain` — names without delimiters, and balanced patterns;
* `Simple.after_write` — the text of such a selector leaves no bracket open in the
  argument that it stands in;
* `Parser.parse_printList` — well-formed selector lists are read back.
-/

namespace MarkupQuery

open Delimited

variable {p : Parser}

/-- Whether a text can stand in brackets without a change. -/
def IsPlain (cs : List Char) : Prop := ∀ c ∈ cs, isDelimiter c = false

/-- Whether the name in a condition on attributes has no delimiters. -/
def AttributeTest.Plain : AttributeTest → Prop
  | .present name | .nameStart name | .value _ name _ | .pattern name _ => IsPlain name.toList

/-- The number of square brackets open after a raw text in an argument, where `squares`
of them were open before.  There is none if the text leaves a parenthesis or a quote
open, or closes a parenthesis too many. -/
def squaresAfterRaw (squares : Nat) (cs : List Char) : Option Nat :=
  match Openings.after .round true ⟨0, squares, none⟩ cs with
  | some ⟨0, squares, none⟩ => some squares
  | _ => none

mutual

/-- The number of square brackets that the text of a simple selector leaves open in the
argument that it stands in.  Only patterns can change it. -/
def Simple.squaresAfter (squares : Nat) : Simple → Option Nat
  | .finds _ pattern => squaresAfterRaw squares pattern.source.toList
  | .has list | .not list => Complex.squaresAfterAll squares list
  | _ => some squares

/-- The number of square brackets open after a compound. -/
def Simple.squaresAfterAll (squares : Nat) : List Simple → Option Nat
  | [] => some squares
  | s :: rest => (s.squaresAfter squares).bind fun squares => Simple.squaresAfterAll squares rest

/-- The number of square brackets open after a chain. -/
def Complex.squaresAfter (squares : Nat) : Complex → Option Nat
  | .only compound => Simple.squaresAfterAll squares compound
  | .linked compound _ left =>
    (left.squaresAfter squares).bind fun squares => Simple.squaresAfterAll squares compound

/-- The number of square brackets open after a list of chains. -/
def Complex.squaresAfterAll (squares : Nat) : List Complex → Option Nat
  | [] => some squares
  | c :: rest => (c.squaresAfter squares).bind fun squares => Complex.squaresAfterAll squares rest

end

mutual

/-- Whether names have no delimiters, and patterns in arguments are balanced. -/
def Simple.Plain : Simple → Prop
  | .attribute test => test.Plain
  | .has list | .not list =>
    (∃ squares, Complex.squaresAfterAll 0 list = some squares) ∧ Complex.AllPlain list
  | _ => True

/-- Whether all of a compound is plain. -/
def Simple.AllPlain : List Simple → Prop
  | [] => True
  | s :: rest => s.Plain ∧ Simple.AllPlain rest

/-- Whether all of a chain is plain. -/
def Complex.Plain : Complex → Prop
  | .only compound => Simple.AllPlain compound
  | .linked compound _ left => Simple.AllPlain compound ∧ left.Plain

/-- Whether all of a list of chains is plain. -/
def Complex.AllPlain : List Complex → Prop
  | [] => True
  | c :: rest => c.Plain ∧ Complex.AllPlain rest

end

/-- A well-formed selector list. -/
structure WellFormed (p : Parser) (l : SelectorList) : Prop where
  nonempty : l ≠ []
  normal : Complex.AllNormal p l
  plain : Complex.AllPlain l

/-! ### Written pieces leave nothing open -/

/-- A kind of character that no delimiter is of. -/
theorem not_isDelimiter_of {f : Char → Bool}
    (hf : ['(', ')', '[', ']', '\'', '"', '\\'].all (!f ·) = true) {c : Char}
    (h : f c = true) : isDelimiter c = false := by
  cases hc : isDelimiter c with
  | false => rfl
  | true =>
      have hmem : c ∈ ['(', ')', '[', ']', '\'', '"', '\\'] := by
        simpa [isDelimiter, or_assoc] using hc
      have hnot : f c = false := by simpa using List.all_eq_true.1 hf c hmem
      rw [hnot] at h
      cases h

theorem not_isDelimiter_of_isNameChar {c : Char} (h : isNameChar c = true) :
    isDelimiter c = false :=
  not_isDelimiter_of (by decide) h

theorem not_isDelimiter_of_isTypeChar {c : Char} (h : isTypeChar c = true) :
    isDelimiter c = false :=
  not_isDelimiter_of (by decide) h

theorem not_isDelimiter_of_isBlank {c : Char} (h : Text.isBlank c = true) :
    isDelimiter c = false :=
  not_isDelimiter_of (by decide) h

theorem isPlain_of_all {cs : List Char} (h : cs.all (!isDelimiter ·) = true) : IsPlain cs :=
  fun c hc => by simpa using List.all_eq_true.1 h c hc

theorem isPlain_of_isIdentifier {name : String} (h : IsIdentifier name) : IsPlain name.toList :=
  fun c hc => not_isDelimiter_of_isNameChar (h.letters c hc)

/-- The name of a pseudo-class with its colon. -/
theorem isPlain_writeName (name : PseudoName) : IsPlain name.write := by
  intro c hc
  rcases List.mem_cons.1 hc with rfl | hc
  · decide
  · exact not_isDelimiter_of_isNameChar ((Token.ofText?_text name).2.2 c hc)

theorem IsPlain.append {cs ds : List Char} (hcs : IsPlain cs) (hds : IsPlain ds) :
    IsPlain (cs ++ ds) := fun c hc => by
  rcases List.mem_append.1 hc with hc | hc
  · exact hcs c hc
  · exact hds c hc

/-- A quoted value with its flag leaves everything as it was. -/
theorem after_writeFlagged {b : Bracket} {o : Openings} (ho : o.quote = none)
    (hk : o.squares ≠ 0) (value : String) (case : CaseSensitivity) :
    Openings.after b true o (writeFlagged value case) = some o := by
  have hflag : IsPlain [' ', case.flag] := by
    cases case <;> exact isPlain_of_all (by decide)
  rw [writeFlagged, Openings.after_append (Openings.after_writeQuoted ho hk _),
    Openings.after_of_plain ho hflag]

/-- A condition on attributes with a plain name leaves everything as it was. -/
theorem AttributeTest.after_writeBody {test : AttributeTest} (h : test.Plain) {b : Bracket}
    {o : Openings} (ho : o.quote = none) (hk : o.squares ≠ 0) :
    Openings.after b true o test.writeBody = some o := by
  cases test with
  | present name => exact Openings.after_of_plain ho h
  | nameStart start =>
      have hcaret : IsPlain ['^'] := isPlain_of_all (by decide)
      exact Openings.after_of_plain ho (hcaret.append h)
  | value k name expected =>
      have hoperator : IsPlain k.write := by cases k <;> exact isPlain_of_all (by decide)
      rw [AttributeTest.writeBody,
        Openings.after_append (Openings.after_of_plain ho (IsPlain.append h hoperator)),
        after_writeFlagged ho hk]
  | pattern name sought =>
      have hoperator : IsPlain ['~', '='] := isPlain_of_all (by decide)
      rw [AttributeTest.writeBody,
        Openings.after_append (Openings.after_of_plain ho (IsPlain.append h hoperator)),
        after_writeFlagged ho hk]

/-- A condition in its brackets leaves everything as it was. -/
theorem AttributeTest.after_write {test : AttributeTest} (h : test.Plain) (d k : Nat) :
    Openings.after .round true ⟨d, k, none⟩ test.write = some ⟨d, k, none⟩ := by
  have hopen : Openings.step .round true ⟨d, k, none⟩ '[' = some ⟨d, k + 1, none⟩ := by
    simp [Openings.step, squaresAfter, isQuote, Bracket.closing, Bracket.opening]
  have hclose : Openings.step .round true ⟨d, k + 1, none⟩ ']' = some ⟨d, k, none⟩ := by
    simp [Openings.step, squaresAfter, isQuote, Bracket.closing, Bracket.opening]
  rw [AttributeTest.write, List.cons_append, Openings.after_cons (by decide), hopen,
    Option.bind_some, Openings.after_append (AttributeTest.after_writeBody h rfl (by simp)),
    Openings.after_cons (by decide), hclose, Option.bind_some, Openings.after]

/-- Parentheses leave open what stands between them. -/
theorem after_parentheses {front argument : List Char} (hfront : IsPlain front) {d k k' : Nat}
    (h : Openings.after .round true ⟨d + 1, k, none⟩ argument = some ⟨d + 1, k', none⟩) :
    Openings.after .round true ⟨d, k, none⟩ (front ++ '(' :: (argument ++ [')'])) =
      some ⟨d, k', none⟩ := by
  have hopen : Openings.step .round true ⟨d, k, none⟩ '(' = some ⟨d + 1, k, none⟩ := by
    simp [Openings.step, squaresAfter, isQuote, Bracket.closing, Bracket.opening]
  have hclose : Openings.step .round true ⟨d + 1, k', none⟩ ')' = some ⟨d, k', none⟩ := by
    simp [Openings.step, squaresAfter, isQuote, Bracket.closing]
  rw [Openings.after_append (Openings.after_of_plain rfl hfront), Openings.after_cons (by decide),
    hopen, Option.bind_some, Openings.after_append h, Openings.after_cons (by decide), hclose,
    Option.bind_some, Openings.after]

/-- A pseudo-class leaves open what its argument does. -/
theorem after_writeCall {name : PseudoName} {argument : List Char} {d k k' : Nat}
    (h : Openings.after .round true ⟨d + 1, k, none⟩ argument = some ⟨d + 1, k', none⟩) :
    Openings.after .round true ⟨d, k, none⟩ (name.writeCall argument) =
      some ⟨d, k', none⟩ := by
  rw [PseudoName.writeCall, List.append_assoc, List.cons_append]
  exact after_parentheses (isPlain_writeName name) h

/-- The source of a pattern leaves open what it does with no bracket around it. -/
theorem after_of_squaresAfterRaw {k k' : Nat} {cs : List Char}
    (h : squaresAfterRaw k cs = some k') (d : Nat) :
    Openings.after .round true ⟨d, k, none⟩ cs = some ⟨d, k', none⟩ := by
  unfold squaresAfterRaw at h
  split at h
  · next hafter =>
      cases h
      have hdeep := Openings.after_add_depth hafter d
      rwa [Nat.zero_add] at hdeep
  · cases h

mutual

/-- **The text of a plain simple selector** leaves only square brackets open. -/
theorem Simple.after_write : ∀ (s : Simple), s.Normal p → s.Plain → ∀ (d : Nat) {k k' : Nat},
    s.squaresAfter k = some k' →
    Openings.after .round true ⟨d, k, none⟩ s.write = some ⟨d, k', none⟩
  | .type name, hs, _, d, k, k', h => by
    cases h
    exact Openings.after_of_plain rfl fun c hc =>
      not_isDelimiter_of_isTypeChar ((writeTypeName_letters hs).2.1 c hc)
  | .universal, _, _, d, k, k', h => by
    cases h
    exact Openings.after_of_plain rfl (isPlain_of_all (by decide))
  | .id name, hs, _, d, k, k', h => by
    cases h
    have hsigil : IsPlain ['#'] := isPlain_of_all (by decide)
    exact Openings.after_of_plain rfl (hsigil.append (isPlain_of_isIdentifier hs))
  | .ofClass name, hs, _, d, k, k', h => by
    cases h
    have hsigil : IsPlain ['.'] := isPlain_of_all (by decide)
    exact Openings.after_of_plain rfl (hsigil.append (isPlain_of_isIdentifier hs))
  | .attribute test, _, htest, d, k, k', h => by
    cases h
    exact AttributeTest.after_write htest d k
  | .scope, _, _, d, k, k', h => by
    cases h
    exact Openings.after_of_plain rfl (isPlain_writeName .scope)
  | .structural test, _, _, d, k, k', h => by
    cases h
    exact Openings.after_of_plain rfl (isPlain_writeName (.structural test))
  | .has list, hs, hplain, d, k, k', h =>
    after_writeCall (Complex.after_writeAll list hs.2 hplain.2 (d + 1) h)
  | .not list, hs, hplain, d, k, k', h =>
    after_writeCall (Complex.after_writeAll list hs.2 hplain.2 (d + 1) h)
  | .contains extent text, _, _, d, k, k', h => by
    cases h
    exact after_writeCall (Openings.after_escapeArgument rfl _)
  | .finds extent pattern, _, _, d, k, k', h => after_writeCall (after_of_squaresAfterRaw h (d + 1))
  | .ordinal o, _, _, d, k, k', h => by
    cases h
    exact after_writeCall (Openings.after_of_plain rfl fun _ hc =>
      not_isDelimiter_of_mem_toString hc)

theorem Simple.after_writeAll : ∀ (compound : List Simple), Simple.AllNormal p compound →
    Simple.AllPlain compound → ∀ (d : Nat) {k k' : Nat},
    Simple.squaresAfterAll k compound = some k' →
    Openings.after .round true ⟨d, k, none⟩ (Simple.writeAll compound) = some ⟨d, k', none⟩
  | [], _, _, d, k, k', h => by
    cases h
    rw [Simple.writeAll, Openings.after]
  | s :: rest, hs, hplain, d, k, k', h => by
    obtain ⟨k₁, hk₁, hk'⟩ := Option.bind_eq_some_iff.1 h
    rw [Simple.writeAll, Openings.after_append (Simple.after_write s hs.1 hplain.1 d hk₁)]
    exact Simple.after_writeAll rest hs.2 hplain.2 d hk'

theorem Complex.after_write : ∀ (c : Complex), c.Normal p → c.Plain → ∀ (d : Nat) {k k' : Nat},
    c.squaresAfter k = some k' →
    Openings.after .round true ⟨d, k, none⟩ c.write = some ⟨d, k', none⟩
  | .only compound, hc, hplain, d, k, k', h => Simple.after_writeAll compound hc.2.2 hplain d h
  | .linked compound via left, hc, hplain, d, k, k', h => by
    have hvia : IsPlain via.write := by cases via <;> exact isPlain_of_all (by decide)
    obtain ⟨k₁, hk₁, hk'⟩ := Option.bind_eq_some_iff.1 h
    rw [Complex.write, List.append_assoc,
      Openings.after_append (Complex.after_write left hc.2 hplain.2 d hk₁),
      Openings.after_append (Openings.after_of_plain rfl hvia)]
    exact Simple.after_writeAll compound hc.1.2.2 hplain.1 d hk'

theorem Complex.after_writeAll : ∀ (l : List Complex), Complex.AllNormal p l →
    Complex.AllPlain l → ∀ (d : Nat) {k k' : Nat}, Complex.squaresAfterAll k l = some k' →
    Openings.after .round true ⟨d, k, none⟩ (Complex.writeAll l) = some ⟨d, k', none⟩
  | [], _, _, d, k, k', h => by
    cases h
    rw [Complex.writeAll, Openings.after]
  | [c], hc, hplain, d, k, k', h => by
    obtain ⟨k₁, hk₁, hk'⟩ := Option.bind_eq_some_iff.1 h
    cases hk'
    exact Complex.after_write c hc.1 hplain.1 d hk₁
  | c :: e :: rest, hc, hplain, d, k, k', h => by
    have hcomma : IsPlain [',', ' '] := isPlain_of_all (by decide)
    obtain ⟨k₁, hk₁, hk'⟩ := Option.bind_eq_some_iff.1 h
    rw [Complex.writeAll, List.append_assoc,
      Openings.after_append (Complex.after_write c hc.1 hplain.1 d hk₁),
      Openings.after_append (Openings.after_of_plain rfl hcomma)]
    · exact Complex.after_writeAll (e :: rest) hc.2 hplain.2 d hk'
    · simp

end

mutual

/-- A plain simple selector is readable. -/
theorem Simple.readable_of_plain : ∀ s : Simple, s.Normal p → s.Plain → s.Readable
  | .attribute test, _, htest =>
    Openings.closes_iff.2 ⟨1, AttributeTest.after_writeBody htest rfl (by decide)⟩
  | .has list, hs, ⟨⟨k, hk⟩, hplain⟩ | .not list, hs, ⟨⟨k, hk⟩, hplain⟩ =>
    ⟨Openings.closes_iff.2 ⟨k, Complex.after_writeAll list hs.2 hplain 0 hk⟩,
      Complex.readable_of_allPlain list hs.2 hplain⟩
  | .type _, _, _ | .universal, _, _ | .id _, _, _ | .ofClass _, _, _ | .scope, _, _
  | .structural _, _, _ | .contains _ _, _, _ | .finds _ _, _, _ | .ordinal _, _, _ => trivial

theorem Simple.readable_of_allPlain : ∀ compound : List Simple, Simple.AllNormal p compound →
    Simple.AllPlain compound → Simple.AllReadable compound
  | [], _, _ => trivial
  | s :: rest, hs, hplain =>
    ⟨Simple.readable_of_plain s hs.1 hplain.1, Simple.readable_of_allPlain rest hs.2 hplain.2⟩

theorem Complex.readable_of_plain : ∀ c : Complex, c.Normal p → c.Plain → c.Readable
  | .only compound, hc, hplain => Simple.readable_of_allPlain compound hc.2.2 hplain
  | .linked compound _ left, hc, hplain =>
    ⟨Simple.readable_of_allPlain compound hc.1.2.2 hplain.1,
      Complex.readable_of_plain left hc.2 hplain.2⟩

/-- Plain chains are readable. -/
theorem Complex.readable_of_allPlain : ∀ l : List Complex, Complex.AllNormal p l →
    Complex.AllPlain l → Complex.AllReadable l
  | [], _, _ => trivial
  | c :: rest, hc, hplain =>
    ⟨Complex.readable_of_plain c hc.1 hplain.1, Complex.readable_of_allPlain rest hc.2 hplain.2⟩

end

/-- **Well-formed selector lists are read back** from their text. -/
theorem Parser.parse_printList {l : SelectorList} (h : WellFormed p l) :
    p.parse (printList l) = .ok l := by
  rw [parse, printList, String.toList_ofList, parseAt]
  exact parseWithin_writeAll h.nonempty h.normal
    (Complex.readable_of_allPlain l h.normal h.plain) (Nat.lt_succ_self _) 0

/-- An instance with brackets and quotes at every level: a condition whose value holds
both, inside an argument that holds another argument. -/
theorem parse_printList_nested :
    let p : Parser := ⟨.standard, .literal⟩
    let l : SelectorList :=
      [.linked [.not [.only [.attribute (.value .equals "k" ⟨"a]\"(b", .sensitive⟩),
        .has [.only [.contains .own "it's )"]], .finds .whole ⟨"(x|[yz])", .sensitive⟩]]]
        .child (.only [.type "p"])]
    WellFormed p l ∧ p.parse (printList l) = .ok l := by
  intro p l
  have hl : WellFormed p l := by
    refine ⟨by simp [l], ?_, ?_⟩
    · have hp : IsTypeName "p" :=
        ⟨by decide, by simp; decide, by decide +kernel, by simp; decide⟩
      have hk : IsAttributeName "k" :=
        ⟨⟨by decide, by decide +kernel, by decide +kernel⟩, by simp; decide⟩
      simp [l, Complex.AllNormal, Complex.Normal, Simple.AllNormal, Simple.Normal, hp, hk,
        AttributeTest.Normal, CaseSensitivity.fold]
      exact ⟨⟨rfl, rfl⟩, by decide +kernel, ⟨by decide +kernel, by decide +kernel⟩,
        by decide, by decide, rfl, ⟨_, rfl⟩⟩
    · simp [l, Complex.AllPlain, Complex.Plain, Simple.AllPlain, Simple.Plain,
        AttributeTest.Plain, IsPlain]
      exact ⟨⟨0, by decide +kernel⟩, by decide, ⟨0, rfl⟩⟩
  exact ⟨hl, Parser.parse_printList hl⟩

end MarkupQuery
