import MarkupQuery.Proofs.Joining
import MarkupQuery.Proofs.WellFormed

/-!
# Selectors as arguments

The argument of `:has` and `:not` is cut out of the text by the search for its closing
parenthesis, before it is read.  That search knows no tokens: it counts parentheses
wherever they stand, and a square bracket in a text or a pattern turns on quotes.  So a
selector is read as an argument just when this search comes to its end and not before;
if not, there is an error, and never another selector.

* `Parser.parseAt_append_closing` — a parenthesis too many is always refused;
* `Parser.parse_writeCall` — a pseudo-class with an argument, read alone;
* `Parser.parse_call` — what becomes of a selector in parentheses;
* `Parser.closes_of_parse` — without square brackets the search finds the end;
* `Parser.parse_nested` — selectors in `:not` and `:has`.
-/

namespace MarkupQuery

open Delimited

variable {p : Parser} {nested : List Char → Nat → Outcome SelectorList}

/-! ### Parentheses around a selector -/

/-- The slice of a text with a closing bracket after it is the text, or it ends inside. -/
theorem Delimited.Bracket.cases_of_slice_concat {b : Bracket} {quotes : Bool} {position : Nat}
    {cs content rest : List Char}
    (h : b.slice quotes position (cs ++ [b.closing]) = .ok (content, rest)) :
    content = cs ∨ ∃ back, cs = content ++ b.closing :: back := by
  obtain ⟨hsplit, -⟩ := Bracket.slice_eq_ok_iff.1 h
  rcases List.eq_nil_or_concat rest with rfl | ⟨back, d, rfl⟩
  · exact .inl (List.append_cancel_right hsplit).symm
  · have hsnoc : cs ++ [b.closing] = (content ++ b.closing :: back) ++ [d] := by
      simpa using hsplit
    exact .inr ⟨back, (List.append_inj' hsnoc rfl).1⟩

namespace Parser

/-- **A parenthesis too many** is refused after every text that can be read. -/
theorem parseAt_append_closing {cs : List Char} {base : Nat} {l : SelectorList}
    (h : p.parseAt cs base = .ok l) (back : List Char) :
    ∃ e, p.parseAt (cs ++ ')' :: back) base = .error e := by
  rw [parseAt_eq_resume] at h ⊢
  obtain ⟨inCompound, progress, -, hread⟩ := resume_append h isSeparator_closing back
  rw [hread, resume_cons, Token.take_closing]
  exact ⟨_, rfl⟩

/-- What a pseudo-class with an argument adds to an empty compound. -/
theorem take_pseudo_start (name : PseudoName) (opening : Nat) (argument : List Char) :
    Progress.start.take p p.parseAt ⟨0, .pseudo name (some (opening, argument))⟩ =
      (p.pseudoCall p.parseAt name opening argument).map Progress.start.addSimple :=
  rfl

/-- The first token of a written pseudo-class with an argument, and perhaps more of it. -/
theorem take_writeCall (name : PseudoName) (argument : List Char) :
    ∃ rest, name.writeCall argument = ':' :: rest ∧
      Token.take false 0 ':' rest =
        Token.argument name (0 + 1 + name.text.toList.length) (argument ++ [')']) := by
  refine ⟨name.text.toList ++ '(' :: (argument ++ [')']), by simp [PseudoName.writeCall,
    PseudoName.write], ?_⟩
  rw [(Token.take_sigil _ _ _).2.2.2.2, Token.pseudoClass_call]

/-- **A pseudo-class with an argument** that closes its parentheses is a compound of what
it asks for. -/
theorem parse_writeCall (name : PseudoName) {argument : List Char}
    (h : Openings.closes .round (name == .has || name == .not) argument = true) :
    p.parse (String.ofList (name.writeCall argument)) =
      (p.pseudoCall p.parseAt name (0 + 1 + name.text.toList.length) argument).map
        fun s => [.only [s]] := by
  obtain ⟨rest, htext, htake⟩ := take_writeCall name argument
  rw [parse, String.toList_ofList, htext, parseAt_eq_resume, resume_cons, htake,
    Token.argument_append h, take_pseudo_start]
  cases p.pseudoCall p.parseAt name (0 + 1 + name.text.toList.length) argument with
  | ok s => exact resume_nil _ _ _
  | error e => rfl

/-- **A selector in parentheses** is read as it is read alone if it leaves nothing open for
the search for its end, and else there is an error. -/
theorem parse_call (name : PseudoName) (make : SelectorList → Simple)
    (hname : (name == .has || name == .not) = true)
    (hmake : ∀ opening argument, p.pseudoCall p.parseAt name opening argument =
      (p.parseAt argument (opening + 1)).map make)
    {s : String} {l : SelectorList} (h : p.parse s = .ok l) :
    (Openings.closes .round true s.toList = true →
      p.parse (":" ++ name.text ++ "(" ++ s ++ ")") = .ok [.only [make l]]) ∧
    (Openings.closes .round true s.toList = false →
      ∃ e, p.parse (":" ++ name.text ++ "(" ++ s ++ ")") = .error e) := by
  have htext : ":" ++ name.text ++ "(" ++ s ++ ")" = String.ofList (name.writeCall s.toList) := by
    rw [← String.toList_inj]
    simp [PseudoName.writeCall, PseudoName.write]
  have hread : ∀ base, p.parseAt s.toList base = .ok l := by
    intro base
    have hshift := parseAt_shift (p := p) s.toList 0 base
    rwa [Nat.zero_add, show p.parseAt s.toList 0 = .ok l from h] at hshift
  rw [htext]
  constructor
  · intro hcloses
    have hcut : Openings.closes .round (name == .has || name == .not) s.toList = true := by
      rwa [hname]
    rw [parse_writeCall name hcut, hmake, hread]
    rfl
  · intro hopen
    obtain ⟨rest, hwrite, htake⟩ := take_writeCall name s.toList
    rw [parse, String.toList_ofList, hwrite, parseAt_eq_resume, resume_cons, htake]
    generalize 0 + 1 + name.text.toList.length = opening
    unfold Token.argument
    cases hslice : Bracket.round.slice (name == .has || name == .not) (opening + 1)
        (s.toList ++ [')']) with
    | error e => exact ⟨_, rfl⟩
    | ok slice =>
        obtain ⟨content, rest⟩ := slice
        have hcut := (Bracket.slice_eq_ok_iff.1 hslice).2
        rw [hname] at hcut
        -- the search ends inside the selector, at a parenthesis that nothing can go on with
        obtain ⟨back, hback⟩ : ∃ back, s.toList = content ++ ')' :: back := by
          rcases Bracket.cases_of_slice_concat hslice with hwhole | hinside
          · rw [hwhole, hopen] at hcut
            cases hcut
          · exact hinside
        dsimp only
        rw [take_pseudo_start, hmake]
        cases hargument : p.parseAt content (opening + 1) with
        | ok l' =>
            obtain ⟨e, he⟩ := parseAt_append_closing hargument back
            rw [← hback, hread] at he
            cases he
        | error e => exact ⟨e, rfl⟩

end Parser

/-! ### Selectors without square brackets -/

namespace Delimited.Openings

/-- Where no square bracket is open or opens, quotes delimit nothing. -/
theorem step_of_no_square {quotes : Bool} {c : Char} (hc : c ≠ '[') {d : Nat} {o : Openings}
    (h : step .round quotes ⟨d, 0, none⟩ c = some o) :
    step .round true ⟨d, 0, none⟩ c = some o ∧ ∃ e, o = ⟨e, 0, none⟩ := by
  have hsquares : squaresAfter 0 c = 0 := by simp [squaresAfter, hc]
  simp only [step, hsquares, ne_eq, not_true_eq_false, decide_false, Bool.and_false,
    Bool.false_eq_true, if_false] at h ⊢
  split at h
  · next hclosing =>
      rw [if_pos hclosing]
      cases d with
      | zero => cases h
      | succ d =>
          cases h
          exact ⟨rfl, d, rfl⟩
  · next hclosing =>
      rw [if_neg hclosing]
      cases h
      exact ⟨rfl, _, rfl⟩

/-- A text without opening square brackets is followed in the same way whether quotes are
honoured or not. -/
theorem after_of_no_square {quotes : Bool} {cs : List Char} (hcs : '[' ∉ cs) {d : Nat}
    {o : Openings} (h : after .round quotes ⟨d, 0, none⟩ cs = some o) :
    after .round true ⟨d, 0, none⟩ cs = some o ∧ ∃ e, o = ⟨e, 0, none⟩ := by
  generalize hstart : (⟨d, 0, none⟩ : Openings) = start at h
  fun_induction after .round quotes start cs generalizing d with
  | case1 start =>
      cases h
      exact ⟨rfl, d, hstart.symm⟩
  | case2 start c rest ih =>
      rw [after_escape]
      simp only [List.mem_cons, not_or] at hcs
      subst hstart
      exact ih hcs.2.2 rfl h
  | case3 => cases h
  | case4 start c rest _ hc hstep => cases h
  | case5 start c rest _ hc start' hstep ih =>
      simp only [List.mem_cons, not_or] at hcs
      subst hstart
      obtain ⟨hstep', e, rfl⟩ := step_of_no_square (Ne.symm hcs.1) hstep
      rw [after_cons hc, hstep', Option.bind_some]
      exact ih hcs.2 rfl h

end Delimited.Openings

/-- **A token without square brackets** leaves nothing open. -/
theorem Lexeme.Spells.after {lexeme : Lexeme} {text : List Char} (h : lexeme.Spells text)
    (hsquare : '[' ∉ text) (hstray : ∀ c, lexeme ≠ .stray c) :
    Openings.after .round true ⟨0, 0, none⟩ text = some ⟨0, 0, none⟩ := by
  have hname : ∀ c : Char, isDelimiter c = false → ∀ letters : List Char,
      (∀ d ∈ letters, isNameChar d = true) → IsPlain (c :: letters) :=
    fun c hc letters hall => List.forall_mem_cons.2
      ⟨hc, fun d hd => not_isDelimiter_of_isNameChar (hall d hd)⟩
  cases h with
  | blank hall =>
      exact Openings.after_of_plain rfl fun c hc => not_isDelimiter_of_isBlank (hall c hc)
  | comma => decide
  | combinator hk =>
      unfold Combinator.ofChar? at hk
      split at hk
      · decide
      · decide
      · decide
      · cases hk
  | star => decide
  | type hall =>
      exact Openings.after_of_plain rfl fun c hc => not_isDelimiter_of_isTypeChar (hall c hc)
  | id hall => exact Openings.after_of_plain rfl (hname '#' (by decide) _ hall)
  | ofClass hall => exact Openings.after_of_plain rfl (hname '.' (by decide) _ hall)
  | condition => exact absurd List.mem_cons_self hsquare
  | plain hall => exact Openings.after_of_plain rfl (hname ':' (by decide) _ hall)
  | call opening hall hcloses =>
      obtain ⟨k, hk⟩ := Openings.closes_iff.1 hcloses
      have hargument := Openings.after_of_no_square (fun hmem => hsquare (by simp [hmem])) hk
      obtain ⟨hafter, d, hd⟩ := hargument
      cases hd
      exact after_parentheses (hname ':' (by decide) _ hall) (Openings.after_add_depth hafter 1)
  | stray c => exact absurd rfl (hstray c)

namespace Parser

/-- A text without square brackets leaves nothing open if it can be read. -/
theorem after_of_resume {inCompound : Bool} {position : Nat} {progress : Progress}
    {cs : List Char} {l : SelectorList}
    (h : p.resume nested inCompound position progress cs = .ok l) (hsquare : '[' ∉ cs) :
    Openings.after .round true ⟨0, 0, none⟩ cs = some ⟨0, 0, none⟩ := by
  induction inCompound, position, cs using Token.induction generalizing progress with
  | nil => rw [Openings.after]
  | cons inCompound position c cs ih =>
      rw [resume_cons] at h
      obtain ⟨progress', hstep, hrest⟩ := Outcome.bind_eq_ok_iff.1 h
      obtain ⟨⟨text, htext, hspells⟩, -⟩ := Token.takes_take inCompound position c cs
        (Progress.not_fault_of_take hstep)
      have hstray : ∀ d, (Token.take inCompound position c cs).1 ≠ .stray d := by
        intro d hd
        rw [hd] at hstep
        cases hstep
      rw [List.singleton_append] at htext
      rw [htext, List.mem_append, not_or] at hsquare
      rw [htext, Openings.after_append (hspells.after hsquare.1 hstray)]
      exact ih hrest hsquare.2

/-- **Without square brackets** a selector closes the parentheses around it. -/
theorem closes_of_parse {s : String} {l : SelectorList} (h : p.parse s = .ok l)
    (hsquare : '[' ∉ s.toList) : Openings.closes .round true s.toList = true := by
  rw [parse, parseAt_eq_resume] at h
  exact Openings.closes_iff.2 ⟨0, after_of_resume h hsquare⟩

/-- **Selectors in `:not` and `:has`.**  A selector that can be read is read there as well,
and as the same, if it leaves nothing open for the search for its end; that is so
whenever there is no square bracket in it.  If it leaves something open there is an
error, and never another selector. -/
theorem parse_nested {s : String} {l : SelectorList} (h : p.parse s = .ok l) :
    (Openings.closes .round true s.toList = true →
      p.parse (":not(" ++ s ++ ")") = .ok [.only [.not l]] ∧
        p.parse (":has(" ++ s ++ ")") = .ok [.only [.has l]]) ∧
    (Openings.closes .round true s.toList = false →
      (∃ e, p.parse (":not(" ++ s ++ ")") = .error e) ∧
        ∃ e, p.parse (":has(" ++ s ++ ")") = .error e) ∧
    ('[' ∉ s.toList → Openings.closes .round true s.toList = true) := by
  have hnot := parse_call .not .not rfl (fun _ _ => rfl) h
  have hhas := parse_call .has .has rfl (fun _ _ => rfl) h
  exact ⟨fun hcloses => ⟨hnot.1 hcloses, hhas.1 hcloses⟩,
    fun hopen => ⟨hnot.2 hopen, hhas.2 hopen⟩, closes_of_parse h⟩

/-- A parenthesis in a quoted value is not taken for the end. -/
theorem parse_nested_quoted :
    let p : Parser := ⟨.standard, .literal⟩
    let l : SelectorList := [.only [.attribute (.value .equals "a" ⟨"x)", .insensitive⟩)]]
    p.parse "[a='x)']" = .ok l ∧ p.parse (":not(" ++ "[a='x)']" ++ ")") = .ok [.only [.not l]] ∧
      p.parse (":has(" ++ "[a='x)']" ++ ")") = .ok [.only [.has l]] := by
  intro p l
  have h : p.parse "[a='x)']" = .ok l := by decide +kernel
  exact ⟨h, (parse_nested h).1 (by decide +kernel)⟩

/-- An apostrophe after a square bracket in a text is taken for a quote, but only where
the text stands in an argument. -/
theorem parse_nested_apostrophe :
    let p : Parser := ⟨.standard, .literal⟩
    let s := "p:contains([it's])"
    p.parse s = .ok [.only [.type "p", .contains .whole "[it's]"]] ∧
      p.parse (":not(" ++ s ++ ")") = .error (.malformed 19 .unterminatedQuote) ∧
      p.parse (":has(" ++ s ++ ")") = .error (.malformed 19 .unterminatedQuote) := by
  intro p s
  exact ⟨by decide +kernel, by decide +kernel, by decide +kernel⟩

end Parser

end MarkupQuery
