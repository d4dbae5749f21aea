import MarkupQuery.Proofs.Items
import MarkupQuery.Proofs.Spelling
import Mathlib.Data.Nat.Digits.Defs

/-!
# Written selectors as tokens

The text of a simple selector is one token, whatever comes after it that does not
continue a name, and the token is read as that selector.  What is between brackets has
to close them for this, and not before its end.

* `Stops` — texts that continue no name;
* `Simple.Readable` — brackets are closed where they have to be, at every depth;
* `Simple.exists_token` — the token of a written simple selector;
* `Parser.resume_write` — reading on after a written item.
-/

namespace MarkupQuery

open Delimited

variable {p : Parser} {nested : List Char → Nat → Outcome SelectorList}

/-- Whether a text continues neither a name nor a pseudo-class. -/
def Stops (rest : List Char) : Prop := ∀ c ∈ rest.head?, isTypeChar c = false ∧ c ≠ '('

theorem Stops.takeWhile {rest : List Char} (h : Stops rest) {cs : List Char} {f : Char → Bool}
    (hf : ∀ c, f c = true → isTypeChar c = true) (hcs : ∀ c ∈ cs, f c = true) :
    (cs ++ rest).takeWhile f = cs ∧ (cs ++ rest).dropWhile f = rest := by
  refine takeWhile_append_of_head hcs fun c hc => ?_
  cases hfc : f c with
  | false => rfl
  | true => rw [← (h c hc).1, hf c hfc]

theorem isTypeChar_of_isNameChar {c : Char} (h : isNameChar c = true) : isTypeChar c = true := by
  simp [isTypeChar, h]

/-! ### Readable selectors -/

mutual

/-- Whether the brackets of a simple selector are closed where they have to be. -/
def Simple.Readable : Simple → Prop
  | .attribute test => Openings.closes .square true test.writeBody = true
  | .has list | .not list =>
    Openings.closes .round true (Complex.writeAll list) = true ∧ Complex.AllReadable list
  | _ => True

/-- Whether all brackets in a compound are closed where they have to be. -/
def Simple.AllReadable : List Simple → Prop
  | [] => True
  | s :: rest => s.Readable ∧ Simple.AllReadable rest

/-- Whether all brackets in a chain are closed where they have to be. -/
def Complex.Readable : Complex → Prop
  | .only compound => Simple.AllReadable compound
  | .linked compound _ left => Simple.AllReadable compound ∧ left.Readable

/-- Whether all brackets in a selector list are closed where they have to be. -/
def Complex.AllReadable : List Complex → Prop
  | [] => True
  | c :: rest => c.Readable ∧ Complex.AllReadable rest

end

/-! ### Tokens -/

namespace Token

/-- A blank that is no letter makes a token with all blanks after it. -/
theorem take_blank {c : Char} (hc : Text.isBlank c = true) (htype : isTypeChar c = false)
    (inCompound : Bool) (position : Nat) (rest : List Char) :
    take inCompound position c rest = (.blank, rest.dropWhile Text.isBlank) := by
  simp [take, hc, htype]

/-- A combinator is a token by itself. -/
theorem take_combinator {c : Char} {k : Combinator} (hc : Combinator.ofChar? c = some k)
    (inCompound : Bool) (position : Nat) (rest : List Char) :
    take inCompound position c rest = (.combinator c k, rest) := by
  have hseparator := isSeparator_of_ofChar? hc
  have hne : ∀ d, Combinator.ofChar? d = none → c ≠ d := by
    rintro d hd rfl
    rw [hc] at hd
    cases hd
  simp [take, hseparator.not_isBlank, hseparator.not_isTypeChar, hc, hne ',' rfl, hne '*' rfl,
    hne '#' rfl, hne '.' rfl, hne '[' rfl, hne ':' rfl]

/-- Characters of names start no other token. -/
theorem take_letter {c : Char} (hblank : Text.isBlank c = false) (htype : isTypeChar c = true)
    (inCompound : Bool) (position : Nat) (rest : List Char) :
    take inCompound position c rest =
      (.type (c :: rest.takeWhile isTypeChar), rest.dropWhile isTypeChar) := by
  have hne : ∀ d, isTypeChar d = false → c ≠ d := by
    rintro d hd rfl
    rw [htype] at hd
    cases hd
  rw [take, hblank, Bool.false_and, if_neg (by simp), if_neg (hne _ (by decide)),
    if_neg (hne _ (by decide)), if_neg (hne _ (by decide)), if_neg (hne _ (by decide)),
    if_neg (hne _ (by decide)), if_neg (hne _ (by decide)), if_pos htype]

/-- The name after a sigil. -/
theorem named_append {name : String} (h : IsIdentifier name) {rest : List Char}
    (hrest : Stops rest) (position : Nat) (sigil : Char) (make : List Char → Lexeme) :
    named position sigil make (name.toList ++ rest) = (make name.toList, rest) := by
  obtain ⟨htake, hdrop⟩ := hrest.takeWhile (fun _ => isTypeChar_of_isNameChar) h.letters
  have hne : name.toList ≠ [] := by simpa using h.nonempty
  simp only [named, htake, hdrop, if_neg hne]

/-- The content of square brackets that closes them. -/
theorem bracketed_append {content : List Char} (h : Openings.closes .square true content = true)
    (position : Nat) (rest : List Char) :
    bracketed position (content ++ ']' :: rest) = (.attribute content, rest) := by
  have hslice : Bracket.square.slice true (position + 1) (content ++ ']' :: rest) =
      .ok (content, rest) := Bracket.slice_eq_ok_iff.2 ⟨rfl, h⟩
  rw [bracketed, hslice]

/-- Names of pseudo-classes are found, and made of letters. -/
theorem ofText?_text (name : PseudoName) :
    PseudoName.ofText? (String.ofList name.text.toList) = some name ∧
      name.text.toList ≠ [] ∧ ∀ c ∈ name.text.toList, isNameChar c = true := by
  have hall : PseudoName.all.all (fun name => PseudoName.ofText? name.text == some name &&
      name.text.toList ≠ [] && name.text.toList.all isNameChar) = true := by
    decide +kernel
  have hmem : name ∈ PseudoName.all := by
    cases name with
    | structural test => cases test <;> simp [PseudoName.all]
    | contains extent => cases extent <;> simp [PseudoName.all]
    | finds extent => cases extent <;> simp [PseudoName.all]
    | ordinal kind => cases kind <;> simp [PseudoName.all]
    | _ => simp [PseudoName.all]
  have hname := List.all_eq_true.1 hall name hmem
  simp only [Bool.and_eq_true, beq_iff_eq, decide_eq_true_eq] at hname
  rw [String.ofList_toList]
  exact ⟨hname.1.1, hname.1.2, List.all_eq_true.1 hname.2⟩

/-- A pseudo-class before a parenthesis has an argument. -/
theorem pseudoClass_call (name : PseudoName) (position : Nat) (rest : List Char) :
    pseudoClass position (name.text.toList ++ '(' :: rest) =
      argument name (position + 1 + name.text.toList.length) rest := by
  obtain ⟨hname, hne, hletters⟩ := ofText?_text name
  have hparen : isNameChar '(' = false := by decide
  exact (pseudoClass_of_name position hne hletters hname (by simpa using hparen)).1 rest rfl

/-- A pseudo-class before what continues no name has none. -/
theorem pseudoClass_plain (name : PseudoName) (position : Nat) {rest : List Char}
    (hrest : Stops rest) :
    pseudoClass position (name.text.toList ++ rest) = (.pseudo name none, rest) := by
  obtain ⟨hname, hne, hletters⟩ := ofText?_text name
  have hafter : ∀ c ∈ rest.head?, isNameChar c = false := fun c hc => by
    have htype := (hrest c hc).1
    rw [isTypeChar, Bool.or_eq_false_iff] at htype
    exact htype.1
  refine (pseudoClass_of_name position hne hletters hname hafter).2 fun argument hcall => ?_
  exact (hrest '(' (by rw [hcall]; rfl)).2 rfl

/-- The argument of a pseudo-class that closes its parentheses. -/
theorem argument_append {name : PseudoName} {content : List Char}
    (h : Openings.closes .round (name == .has || name == .not) content = true)
    (opening : Nat) (rest : List Char) :
    argument name opening (content ++ ')' :: rest) =
      (.pseudo name (some (opening, content)), rest) := by
  have hslice : Bracket.round.slice (name == .has || name == .not) (opening + 1)
      (content ++ ')' :: rest) = .ok (content, rest) := Bracket.slice_eq_ok_iff.2 ⟨rfl, h⟩
  rw [argument, hslice]

end Token

/-! ### Numbers -/

/-- The code points of the decimal digits. -/
theorem toNat_of_isDigit {c : Char} (h : c.isDigit = true) : 0x30 ≤ c.toNat ∧ c.toNat ≤ 0x39 := by
  simp only [Char.isDigit, ge_iff_le, Bool.and_eq_true, decide_eq_true_eq,
    UInt32.le_iff_toNat_le, Char.toNat_val] at h
  exact h

/-- A number is written in digits. -/
theorem isDigit_of_mem_toString {n : Nat} {c : Char} (h : c ∈ (toString n).toList) :
    c.isDigit = true := by
  have hrepr : (toString n).toList = Nat.toDigits 10 n := Nat.toList_repr
  rw [hrepr] at h
  exact Nat.isDigit_of_mem_toDigits (by decide) (by decide) h

/-- A number has no delimiters. -/
theorem not_isDelimiter_of_mem_toString {n : Nat} {c : Char} (h : c ∈ (toString n).toList) :
    isDelimiter c = false := by
  obtain ⟨hlow, hhigh⟩ := toNat_of_isDigit (isDigit_of_mem_toString h)
  simp only [isDelimiter, Bool.or_eq_false_iff, beq_eq_false_iff_ne, ne_eq, ← Char.toNat_inj]
  simp
  omega

/-- A number closes the parentheses around it. -/
theorem closes_toString (n : Nat) :
    Openings.closes .round false (toString n).toList = true :=
  Openings.closes_iff.2
    ⟨_, Openings.after_of_plain rfl fun _ hc => not_isDelimiter_of_mem_toString hc⟩

/-- A number that fits is read back. -/
theorem Parser.index?_toString {n : Nat} (h : n < UInt64.size) :
    Parser.index? (Text.trim (toString n).toList) = some n := by
  have hrepr : (toString n).toList = Nat.toDigits 10 n := Nat.toList_repr
  have hdigits : ∀ c ∈ Nat.toDigits 10 n, c.isDigit = true := fun c hc =>
    Nat.isDigit_of_mem_toDigits (by decide) (by decide) hc
  have hblank : ∀ c : Char, c.isDigit = true → Text.isBlank c = false := by
    intro c hc
    obtain ⟨hlow, hhigh⟩ := toNat_of_isDigit hc
    simp only [Text.isBlank, Text.inRanges, Text.blankRanges, List.any_cons, List.any_nil,
      Text.CodeRange.contains]
    grind
  have htrim : Text.trim (Nat.toDigits 10 n) = Nat.toDigits 10 n :=
    Text.trim_eq_self_iff.2
      ⟨fun c hc => hblank c (hdigits c (List.mem_of_mem_head? hc)),
        fun c hc => hblank c (hdigits c (List.mem_of_mem_getLast? hc))⟩
  have hvalue : Json.ofDigits (Nat.toDigits 10 n) = n := by
    have hfold := Nat.ofDigitChars_ten_toDigits (n := n)
    rw [Nat.ofDigitChars_eq_foldl] at hfold
    rw [Json.ofDigits]
    simpa only [Nat.mul_comm] using hfold
  have hplus : ∀ rest, Nat.toDigits 10 n = '+' :: rest → False := by
    intro rest hrest
    have hplus := hdigits '+' (by rw [hrest]; exact List.mem_cons_self)
    exact absurd hplus (by decide)
  rw [hrepr, htrim, Parser.index?, hvalue,
    if_pos ⟨Nat.toDigits_ne_nil, by simpa using hdigits, h⟩]
  exact hplus

/-! ### Written simple selectors -/

/-- The letters that a type name is written with are read as that name. -/
theorem typeLetters_writeTypeName {name : String} (h : IsTypeName name) :
    String.ofList ((writeTypeName name).map fun c => if c = '|' then ':' else c.toLower) =
      name := by
  have hchar : ∀ c ∈ name.toList,
      (if (if c = ':' then '|' else c) = '|' then ':'
        else (if c = ':' then '|' else c).toLower) = c := by
    intro c hc
    by_cases hcolon : c = ':'
    · simp [hcolon]
    have hname : isNameChar c = true := (h.letters c hc).resolve_right hcolon
    have hbar : c ≠ '|' := by
      rintro rfl
      exact absurd hname (by decide)
    have hlower := h.lower
    rw [Text.asciiLowered, ← String.toList_inj, String.toList_ofList,
      ← List.map_id name.toList, List.map_map] at hlower
    rw [if_neg hcolon, if_neg hbar]
    exact List.map_inj_left.1 hlower c hc
  have hmap := List.map_congr_left hchar
  rw [List.map_id'] at hmap
  rw [writeTypeName, List.map_map, ← String.toList_inj, String.toList_ofList]
  exact hmap

/-- The letters that a type name is written with can start a type name. -/
theorem writeTypeName_letters {name : String} (h : IsTypeName name) :
    writeTypeName name ≠ [] ∧ (∀ c ∈ writeTypeName name, isTypeChar c = true) ∧
      ∀ c ∈ (writeTypeName name).head?, Text.isBlank c = false := by
  refine ⟨?_, ?_, ?_⟩
  · simpa [writeTypeName] using h.nonempty
  · intro d hd
    obtain ⟨c, hc, rfl⟩ := List.mem_map.1 hd
    by_cases hcolon : c = ':'
    · rw [if_pos hcolon]
      decide
    · rw [if_neg hcolon]
      exact isTypeChar_of_isNameChar ((h.letters c hc).resolve_right hcolon)
  · intro d hd
    rw [writeTypeName, List.head?_map] at hd
    obtain ⟨c, hc, rfl⟩ := Option.map_eq_some_iff.1 hd
    by_cases hcolon : c = ':'
    · rw [if_pos hcolon]
      decide
    · rw [if_neg hcolon]
      exact h.head c hc

/-- The tokens that start with the characters kept for them. -/
theorem Token.take_sigil (inCompound : Bool) (position : Nat) (rest : List Char) :
    take inCompound position '*' rest = (.star, rest) ∧
    take inCompound position '#' rest = named position '#' .id rest ∧
    take inCompound position '.' rest = named position '.' .ofClass rest ∧
    take inCompound position '[' rest = bracketed position rest ∧
    take inCompound position ':' rest = pseudoClass position rest := by
  have hstar : Text.isBlank '*' = false := by decide
  have hhash : Text.isBlank '#' = false := by decide
  have hdot : Text.isBlank '.' = false := by decide
  have hsquare : Text.isBlank '[' = false := by decide
  have hcolon : Text.isBlank ':' = false := by decide
  simp [take, hstar, hhash, hdot, hsquare, hcolon]

/-- **The token of a written simple selector**, whatever comes after it that continues no
name, is read as that selector.  `nested` has to read its arguments. -/
theorem Simple.exists_token {s : Simple} (h : s.Normal p) (hreadable : s.Readable)
    (hnested : ∀ list, s = .has list ∨ s = .not list →
      ∀ base, nested (Complex.writeAll list) base = .ok list)
    {rest : List Char} (hrest : Stops rest) (inCompound : Bool) (position : Nat) :
    ∃ c tail lexeme, s.write = c :: tail ∧
      Token.take inCompound position c (tail ++ rest) = (lexeme, rest) ∧
      lexeme.isSimple = true ∧ Reads p nested position lexeme s := by
  have hsigil := fun tail => Token.take_sigil inCompound position (tail ++ rest)
  have hplain : ∀ name : PseudoName, Token.take inCompound position ':'
      (name.text.toList ++ rest) = (.pseudo name none, rest) := fun name => by
    rw [(hsigil _).2.2.2.2, Token.pseudoClass_plain name position hrest]
  have hcall : ∀ (name : PseudoName) (argument : List Char),
      Openings.closes .round (name == .has || name == .not) argument = true →
      Token.take inCompound position ':'
          (name.text.toList ++ '(' :: argument ++ [')'] ++ rest) =
        (.pseudo name (some (position + 1 + name.text.toList.length, argument)), rest) := by
    intro name argument hcloses
    rw [(hsigil _).2.2.2.2, List.append_assoc, List.append_assoc, List.cons_append,
      Token.pseudoClass_call, List.singleton_append, Token.argument_append hcloses]
  cases s with
  | type name =>
      have hreads : Reads p nested position (.type (writeTypeName name)) _ := .type _
      obtain ⟨hne, hletters, hhead⟩ := writeTypeName_letters h
      obtain ⟨c, tail, hname⟩ := List.exists_cons_of_ne_nil hne
      rw [typeLetters_writeTypeName h, hname] at hreads
      rw [hname] at hletters hhead
      obtain ⟨htake, hdrop⟩ := hrest.takeWhile (fun _ hc => hc) fun d hd =>
        hletters d (List.mem_cons_of_mem c hd)
      refine ⟨c, tail, .type (c :: tail), hname, ?_, rfl, hreads⟩
      rw [Token.take_letter (hhead c rfl) (hletters c List.mem_cons_self), htake, hdrop]
  | universal => exact ⟨'*', [], .star, rfl, (hsigil []).1, rfl, .star⟩
  | id name =>
      have hreads : Reads p nested position (.id name.toList) _ := .id _
      rw [String.ofList_toList] at hreads
      refine ⟨'#', name.toList, .id name.toList, rfl, ?_, rfl, hreads⟩
      rw [(hsigil _).2.1, Token.named_append h hrest]
  | ofClass name =>
      have hreads : Reads p nested position (.ofClass name.toList) _ := .ofClass _
      rw [String.ofList_toList] at hreads
      refine ⟨'.', name.toList, .ofClass name.toList, rfl, ?_, rfl, hreads⟩
      rw [(hsigil _).2.2.1, Token.named_append h hrest]
  | «attribute» test =>
      refine ⟨'[', test.writeBody ++ [']'], .attribute test.writeBody, rfl, ?_, rfl,
        .condition (Parser.attributeTest_writeBody h position)⟩
      rw [(hsigil _).2.2.2.1, List.append_assoc, List.singleton_append,
        Token.bracketed_append hreadable]
  | scope => exact ⟨':', _, _, rfl, hplain .scope, rfl, .scope⟩
  | structural test => exact ⟨':', _, _, rfl, hplain (.structural test), rfl, .structural test⟩
  | has list =>
      exact ⟨':', _, _, rfl, hcall .has _ hreadable.1, rfl, .has (hnested list (.inl rfl) _)⟩
  | not list =>
      exact ⟨':', _, _, rfl, hcall .not _ hreadable.1, rfl, .not (hnested list (.inr rfl) _)⟩
  | contains extent text =>
      obtain ⟨hne, htrim, hlower⟩ := h
      have hcloses : Openings.closes .round false (escapeArgument text.toList) = true :=
        Openings.closes_iff.2 ⟨_, Openings.after_escapeArgument rfl _⟩
      have htext : Text.lower (Text.trim (unescape (escapeArgument text.toList))) =
          text.toList := by
        rw [Text.lowered, ← String.toList_inj, String.toList_ofList] at hlower
        rw [unescape_escapeArgument, Text.trimmed_eq_self_iff.1 htrim, hlower]
      have hreads : ∀ opening, Reads p nested position
          (.pseudo (.contains extent) (some (opening, escapeArgument text.toList))) _ :=
        fun opening => .contains extent opening (by rw [htext]; simpa using hne)
      simp only [htext, String.ofList_toList] at hreads
      exact ⟨':', _, _, rfl, hcall (.contains extent) _ hcloses, rfl, hreads _⟩
  | finds extent pattern =>
      obtain ⟨hne, hcloses, hcase, haccepts⟩ := h
      have hpattern : p.pattern (String.ofList pattern.source.toList) p.config.patterns =
          .ok pattern := by
        rw [String.ofList_toList, ← hcase]
        exact Parser.pattern_eq_ok_iff.2 ⟨rfl, haccepts⟩
      exact ⟨':', _, _, rfl, hcall (.finds extent) _ hcloses, rfl,
        .finds extent _ hne hpattern⟩
  | ordinal o =>
      exact ⟨':', _, _, rfl, hcall (.ordinal o.kind) _ (closes_toString o.bound), rfl,
        .ordinal o.kind _ (Parser.index?_toString h)⟩

/-- A written simple selector starts with no blank, and continues no name unless it is
one. -/
theorem Simple.exists_head {s : Simple} (h : s.Normal p) :
    ∃ c tail, s.write = c :: tail ∧ Text.isBlank c = false ∧
      (s.isType = false → isTypeChar c = false ∧ c ≠ '(') := by
  cases s with
  | type name =>
      obtain ⟨hne, -, hhead⟩ := writeTypeName_letters h
      obtain ⟨c, tail, hname⟩ := List.exists_cons_of_ne_nil hne
      rw [hname] at hhead
      exact ⟨c, tail, hname, hhead c rfl, fun htype => (by cases htype)⟩
  | _ =>
      -- every other one starts with its own sign
      exact ⟨_, _, rfl, by decide, fun _ => by decide⟩

/-! ### Reading written items -/

/-- Nothing that is written inside a compound continues a name. -/
theorem Item.stops_of_orderly {items : List Item} (horderly : Item.Orderly true items)
    (hnormal : ∀ s, Item.simple s ∈ items → s.Normal p) :
    Stops (items.flatMap Item.write) := by
  cases items with
  | nil =>
      intro c hc
      cases hc
  | cons item rest =>
      cases item with
      | simple s =>
          obtain ⟨d, tail, hwrite, -, hstops⟩ := Simple.exists_head (hnormal s List.mem_cons_self)
          have htype : s.isType = false := by
            cases hs : s.isType with
            | false => rfl
            | true => cases horderly.1 hs
          intro c hc
          rw [List.flatMap_cons, Item.write, hwrite] at hc
          cases hc
          exact hstops htype
      | via k =>
          intro c hc
          cases k <;> cases hc <;> decide
      | comma =>
          intro c hc
          cases hc
          decide

/-- What is written where a compound starts is no blank. -/
theorem Item.head_of_orderly {items : List Item} (horderly : Item.Orderly false items)
    (hnormal : ∀ s, Item.simple s ∈ items → s.Normal p) :
    ∀ c ∈ (items.flatMap Item.write).head?, Text.isBlank c = false := by
  cases items with
  | nil => cases horderly
  | cons item rest =>
      cases item with
      | simple s =>
          obtain ⟨d, tail, hwrite, hblank, -⟩ :=
            Simple.exists_head (hnormal s List.mem_cons_self)
          intro c hc
          rw [List.flatMap_cons, Item.write, hwrite] at hc
          cases hc
          exact hblank
      | via k => cases horderly.1
      | comma => cases horderly.1

/-- A combinator comes after the chain that a blank would end. -/
theorem Progress.addCombinator_of_addBlank {progress : Progress} {done : List Complex}
    {chain : Complex} (h : progress.addBlank = ⟨done, .behind chain⟩) (position : Nat) (c : Char)
    (k : Combinator) :
    progress.addCombinator position c k = .ok ⟨done, .pending c k chain⟩ := by
  obtain ⟨done, place⟩ := progress
  cases place <;> cases h <;> rfl

namespace Parser

/-- A run of blanks is read. -/
theorem resume_run {inCompound : Bool} {position : Nat} {c : Char} {rest : List Char}
    (htake : Token.take inCompound position c rest = (.blank, rest.dropWhile Text.isBlank))
    (progress : Progress) :
    ∃ stop, p.resume nested inCompound position progress (c :: rest) =
      p.resume nested false stop progress.addBlank (rest.dropWhile Text.isBlank) := by
  rw [resume_cons, htake]
  exact ⟨_, rfl⟩

/-- A blank is read with all the blanks after it. -/
theorem resume_blank {c : Char} (hc : Text.isBlank c = true) (htype : isTypeChar c = false)
    (inCompound : Bool) (position : Nat) (progress : Progress) {rest : List Char}
    (hrest : ∀ d ∈ rest.head?, Text.isBlank d = false) :
    ∃ stop, p.resume nested inCompound position progress (c :: rest) =
      p.resume nested false stop progress.addBlank rest := by
  have hdrop : rest.dropWhile Text.isBlank = rest := Text.trimStart_eq_self hrest
  obtain ⟨stop, hread⟩ := resume_run (Token.take_blank hc htype inCompound position rest) progress
  rw [hdrop] at hread
  exact ⟨stop, hread⟩

/-- A combinator is read after a chain that may be complete. -/
theorem resume_combinator {progress : Progress} {done : List Complex} {chain : Complex}
    (h : progress.addBlank = ⟨done, .behind chain⟩) {c : Char} {k : Combinator}
    (hc : Combinator.ofChar? c = some k) (inCompound : Bool) (position : Nat)
    (rest : List Char) :
    ∃ stop, p.resume nested inCompound position progress (c :: rest) =
      p.resume nested false stop ⟨done, .pending c k chain⟩ rest := by
  have hstep : progress.take p nested ⟨position, .combinator c k⟩ =
      .ok ⟨done, .pending c k chain⟩ :=
    Progress.addCombinator_of_addBlank h position c k
  rw [resume_cons, Token.take_combinator hc, hstep]
  exact ⟨_, rfl⟩

/-- **A written simple selector is read** as itself. -/
theorem resume_simple {s : Simple} (h : s.Normal p) (hreadable : s.Readable)
    (hnested : ∀ list, s = .has list ∨ s = .not list →
      ∀ base, nested (Complex.writeAll list) base = .ok list)
    {rest : List Char} (hrest : Stops rest) (inCompound : Bool) (position : Nat)
    {progress : Progress} (htype : s.isType = true → progress.isInside = false) :
    ∃ stop, p.resume nested inCompound position progress (s.write ++ rest) =
      p.resume nested true stop (progress.addSimple s) rest := by
  obtain ⟨c, tail, lexeme, hwrite, htake, hsimple, hreads⟩ :=
    Simple.exists_token h hreadable hnested hrest inCompound position
  have hprogress : progress.take p nested ⟨position, lexeme⟩ = .ok (progress.addSimple s) :=
    Progress.take_eq_ok_iff.2 (.inr (.inr (.inr ⟨s, hreads, htype, rfl⟩)))
  rw [hwrite, List.cons_append, resume_cons, htake, hprogress, hsimple]
  exact ⟨_, rfl⟩

/-- **A written combinator is read** behind a compound. -/
theorem resume_via (k : Combinator) (inCompound : Bool) (position : Nat) (done : List Complex)
    (left : Option (Combinator × Complex)) (compound : Compound) {rest : List Char}
    (hrest : ∀ c ∈ rest.head?, Text.isBlank c = false) :
    ∃ stop, p.resume nested inCompound position ⟨done, .inside left compound⟩ (k.write ++ rest) =
      p.resume nested false stop ⟨done, k.place (.extend left compound)⟩ rest := by
  have hblank : Text.isBlank ' ' = true ∧ isTypeChar ' ' = false := by decide
  -- an explicit combinator stands between two blanks, and the second one changes nothing
  have hexplicit : ∀ c, Combinator.ofChar? c = some k → Text.isBlank c = false →
      ∃ stop, p.resume nested inCompound position ⟨done, .inside left compound⟩
          ([' ', c, ' '] ++ rest) =
        p.resume nested false stop ⟨done, .pending c k (.extend left compound)⟩ rest := by
    intro c hc hchar
    obtain ⟨first, hfirst⟩ : ∃ first,
        p.resume nested inCompound position ⟨done, .inside left compound⟩
            (' ' :: c :: ' ' :: rest) =
          p.resume nested false first ⟨done, .behind (.extend left compound)⟩
            (c :: ' ' :: rest) :=
      resume_blank hblank.1 hblank.2 _ _ _ (by rintro d ⟨⟩; exact hchar)
    obtain ⟨second, hsecond⟩ : ∃ second,
        p.resume nested false first ⟨done, .behind (.extend left compound)⟩
            (c :: ' ' :: rest) =
          p.resume nested false second ⟨done, .pending c k (.extend left compound)⟩
            (' ' :: rest) :=
      resume_combinator rfl hc _ _ _
    obtain ⟨third, hthird⟩ : ∃ third,
        p.resume nested false second ⟨done, .pending c k (.extend left compound)⟩
            (' ' :: rest) =
          p.resume nested false third ⟨done, .pending c k (.extend left compound)⟩ rest :=
      resume_blank hblank.1 hblank.2 _ _ _ hrest
    exact ⟨third, hfirst.trans (hsecond.trans hthird)⟩
  cases k with
  | descendant => exact resume_blank hblank.1 hblank.2 inCompound position _ hrest
  | child => exact hexplicit '>' rfl (by decide)
  | nextSibling => exact hexplicit '+' rfl (by decide)
  | subsequentSibling => exact hexplicit '~' rfl (by decide)

/-- **A written comma is read** behind a compound. -/
theorem resume_comma (inCompound : Bool) (position : Nat) (done : List Complex)
    (left : Option (Combinator × Complex)) (compound : Compound) {rest : List Char}
    (hrest : ∀ c ∈ rest.head?, Text.isBlank c = false) :
    ∃ stop, p.resume nested inCompound position ⟨done, .inside left compound⟩
        (',' :: ' ' :: rest) =
      p.resume nested false stop ⟨done ++ [.extend left compound], .opening⟩ rest := by
  rw [resume_cons, Token.take_comma]
  exact resume_blank (by decide) (by decide) false _ ⟨_, .opening⟩ hrest

end Parser

/-- Whether an item is read back from its text: a simple selector has to be readable,
and `nested` to read its arguments. -/
def Item.Legible (p : Parser) (nested : List Char → Nat → Outcome SelectorList) : Item → Prop
  | .simple s => s.Normal p ∧ s.Readable ∧ ∀ list, s = .has list ∨ s = .not list →
      ∀ base, nested (Complex.writeAll list) base = .ok list
  | _ => True

/-- Whether an item ends where a text starts. -/
def Item.Ends (rest : List Char) : Item → Prop
  | .simple _ => Stops rest
  | _ => ∀ c ∈ rest.head?, Text.isBlank c = false

/-- An item ends where those after it start. -/
theorem Item.ends_of_orderly {inside : Bool} {item : Item} {items : List Item}
    (horderly : Item.Orderly inside (item :: items))
    (hnormal : ∀ s, Item.simple s ∈ items → s.Normal p) :
    item.Ends (items.flatMap Item.write) := by
  cases item with
  | simple s => exact Item.stops_of_orderly horderly.2 hnormal
  | via k => exact Item.head_of_orderly horderly.2 hnormal
  | comma => exact Item.head_of_orderly horderly.2 hnormal

/-- Following an item leads to where the next ones can be written. -/
theorem Item.orderly_follow {progress : Progress} {item : Item} {items : List Item}
    (h : Item.Orderly progress.isInside (item :: items)) :
    Item.Orderly (progress.follow item).isInside items := by
  obtain ⟨done, place⟩ := progress
  cases item with
  | simple s => cases place <;> exact h.2
  | via k =>
      cases place with
      | inside left compound => cases k <;> exact h.2
      | _ => cases h.1
  | comma =>
      cases place with
      | inside left compound => exact h.2
      | _ => cases h.1

/-- **A written item is read** as itself. -/
theorem Parser.resume_write {progress : Progress} {item : Item} {items : List Item}
    (horderly : Item.Orderly progress.isInside (item :: items))
    (hlegible : item.Legible p nested) {rest : List Char} (hrest : item.Ends rest)
    (inCompound : Bool) (position : Nat) :
    ∃ inCompound' stop, p.resume nested inCompound position progress (item.write ++ rest) =
      p.resume nested inCompound' stop (progress.follow item) rest := by
  cases item with
  | simple s =>
      obtain ⟨hnormal, hreadable, hnested⟩ := hlegible
      exact ⟨true, resume_simple hnormal hreadable hnested hrest _ _ horderly.1⟩
  | via k =>
      obtain ⟨done, place⟩ := progress
      cases place with
      | inside left compound => exact ⟨false, resume_via k _ _ done left compound hrest⟩
      | _ => cases horderly.1
  | comma =>
      obtain ⟨done, place⟩ := progress
      cases place with
      | inside left compound => exact ⟨false, resume_comma _ _ done left compound hrest⟩
      | _ => cases horderly.1

end MarkupQuery
