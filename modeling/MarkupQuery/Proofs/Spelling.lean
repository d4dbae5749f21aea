import MarkupQuery.Proofs.Openings
import Mathlib.Data.List.TakeWhile
import MarkupQuery.Selector.Token

/-!
# Tokens as pieces of text

A token is taken from a piece at the start of the text, and it is known which pieces its
kind can be taken from.  It ends before every character that can neither continue a name
or a run of blanks nor open an argument, whatever comes after that.

* `Lexeme.Spells` — the texts that a token can be taken from;
* `Lexeme.EndsBefore`, `IsSeparator` — the characters that end a token, or every token,
  before them;
* `Token.takes_take` — a token is taken from the start of the text, and ends there.
-/

namespace MarkupQuery

open Delimited

/-! ### The text of a token -/

/-- The texts that a token can be taken from. -/
inductive Lexeme.Spells : Lexeme → List Char → Prop
  | blank {text : List Char} (h : ∀ c ∈ text, Text.isBlank c = true) : Spells .blank text
  | comma : Spells .comma [',']
  | combinator {c : Char} {k : Combinator} (h : Combinator.ofChar? c = some k) :
      Spells (.combinator c k) [c]
  | star : Spells .star ['*']
  | type {letters : List Char} (h : ∀ c ∈ letters, isTypeChar c = true) :
      Spells (.type letters) letters
  | id {letters : List Char} (h : ∀ c ∈ letters, isNameChar c = true) :
      Spells (.id letters) ('#' :: letters)
  | ofClass {letters : List Char} (h : ∀ c ∈ letters, isNameChar c = true) :
      Spells (.ofClass letters) ('.' :: letters)
  | condition {content : List Char} (h : Openings.closes .square true content = true) :
      Spells (.attribute content) ('[' :: (content ++ [']']))
  | plain {name : PseudoName} {letters : List Char} (h : ∀ c ∈ letters, isNameChar c = true) :
      Spells (.pseudo name none) (':' :: letters)
  | call {name : PseudoName} {letters argument : List Char} (opening : Nat)
      (h : ∀ c ∈ letters, isNameChar c = true)
      (hcloses : Openings.closes .round (name == .has || name == .not) argument = true) :
      Spells (.pseudo name (some (opening, argument)))
        (':' :: (letters ++ '(' :: (argument ++ [')'])))
  | stray (c : Char) : Spells (.stray c) [c]

/-- Characters that end a token before them: they continue no name, open no argument, and
continue no run of blanks if the token is one. -/
structure Lexeme.EndsBefore (lexeme : Lexeme) (d : Char) : Prop where
  not_isTypeChar : isTypeChar d = false
  not_isBlank : lexeme = .blank → Text.isBlank d = false
  ne_paren : d ≠ '('

/-- Characters that end what stands before them: they continue no name and no run of
blanks, and open no argument. -/
structure IsSeparator (d : Char) : Prop where
  not_isTypeChar : isTypeChar d = false
  not_isBlank : Text.isBlank d = false
  ne_paren : d ≠ '('

/-- A separator ends every token before it. -/
theorem IsSeparator.endsBefore {d : Char} (hd : IsSeparator d) (lexeme : Lexeme) :
    lexeme.EndsBefore d :=
  ⟨hd.not_isTypeChar, fun _ => hd.not_isBlank, hd.ne_paren⟩

/-- A blank that is no letter ends every token but another blank. -/
theorem Lexeme.endsBefore_blank {lexeme : Lexeme} (h : lexeme ≠ .blank) {d : Char}
    (hd : Text.isBlank d = true) (htype : isTypeChar d = false) : lexeme.EndsBefore d :=
  ⟨htype, fun heq => absurd heq h, by rintro rfl; exact absurd hd (by decide)⟩

theorem isSeparator_comma : IsSeparator ',' := ⟨by decide, by decide, by decide⟩

theorem isSeparator_closing : IsSeparator ')' := ⟨by decide, by decide, by decide⟩

theorem isSeparator_of_ofChar? {c : Char} {k : Combinator} (h : Combinator.ofChar? c = some k) :
    IsSeparator c := by
  unfold Combinator.ofChar? at h
  split at h
  · exact ⟨by decide, by decide, by decide⟩
  · exact ⟨by decide, by decide, by decide⟩
  · exact ⟨by decide, by decide, by decide⟩
  · cases h

theorem Lexeme.EndsBefore.not_isNameChar {lexeme : Lexeme} {d : Char}
    (hd : lexeme.EndsBefore d) : isNameChar d = false := by
  have htype := hd.not_isTypeChar
  rw [isTypeChar, Bool.or_eq_false_iff] at htype
  exact htype.1

/-- What is taken ends before an item that is not wanted, if not sooner. -/
theorem takeWhile_append_cons {α : Type} {f : α → Bool} {a : α} (h : f a = false)
    (front back : List α) :
    (front ++ a :: back).takeWhile f = front.takeWhile f ∧
      (front ++ a :: back).dropWhile f = front.dropWhile f ++ a :: back := by
  induction front with
  | nil => simp [h]
  | cons b front ih => by_cases hb : f b <;> simp [hb, ih]

/-- Wanted items are taken up to one that is not. -/
theorem takeWhile_append_of_head {α : Type} {f : α → Bool} {front back : List α}
    (hfront : ∀ a ∈ front, f a = true) (hback : ∀ a ∈ back.head?, f a = false) :
    (front ++ back).takeWhile f = front ∧ (front ++ back).dropWhile f = back := by
  rw [List.takeWhile_append_of_pos hfront, List.dropWhile_append_of_pos hfront]
  cases back with
  | nil => simp
  | cons b back => simp [hback b rfl]

/-- Every list starts with a run of wanted items. -/
theorem exists_run {α : Type} (f : α → Bool) (l : List α) :
    ∃ front back, l = front ++ back ∧ (∀ a ∈ front, f a = true) ∧
      ∀ a ∈ back.head?, f a = false := by
  refine ⟨l.takeWhile f, l.dropWhile f, List.takeWhile_append_dropWhile.symm,
    fun a ha => List.mem_takeWhile_imp ha, fun a ha => ?_⟩
  have hhead := List.head?_dropWhile_not f l
  rw [Option.mem_def.1 ha] at hhead
  simpa using hhead

/-- A slice is the same with more text after its end. -/
theorem Delimited.Bracket.slice_append {b : Bracket} {quotes : Bool} {position : Nat}
    {cs inner rest : List Char} (h : b.slice quotes position cs = .ok (inner, rest))
    (back : List Char) : b.slice quotes position (cs ++ back) = .ok (inner, rest ++ back) := by
  obtain ⟨rfl, hcloses⟩ := Bracket.slice_eq_ok_iff.1 h
  exact Bracket.slice_eq_ok_iff.2 ⟨by simp, hcloses⟩

namespace Token

/-- A comma is a token by itself. -/
theorem take_comma (inCompound : Bool) (position : Nat) (rest : List Char) :
    take inCompound position ',' rest = (.comma, rest) := by
  have hblank : Text.isBlank ',' = false := by decide
  simp [take, hblank]

/-- A closing parenthesis starts no token. -/
theorem take_closing (inCompound : Bool) (position : Nat) (rest : List Char) :
    take inCompound position ')' rest = (.stray ')', rest) := by
  have hblank : Text.isBlank ')' = false := by decide
  have htype : isTypeChar ')' = false := by decide
  simp [take, hblank, htype, Combinator.ofChar?]

/-- What a reader of tokens does after the characters `first`, if it finds no fault: it
takes a text that its token can be taken from, and it ends before what ends its token. -/
def Takes (first : List Char) (read : List Char → Lexeme × List Char) : Prop :=
  ∀ rest, (∀ e, (read rest).1 ≠ .fault e) →
    (∃ text, first ++ rest = text ++ (read rest).2 ∧ (read rest).1.Spells text) ∧
    ∀ d back, (read rest).1.EndsBefore d →
      read (rest ++ d :: back) = ((read rest).1, (read rest).2 ++ d :: back)

variable {position : Nat} {c : Char}

/-- A token of one character. -/
theorem takes_single {lexeme : Lexeme} (h : lexeme.Spells [c]) :
    Takes [c] fun rest => (lexeme, rest) :=
  fun _ _ => ⟨⟨[c], rfl, h⟩, fun _ _ _ => rfl⟩

/-- A token of the longest run of some characters after the first. -/
theorem takes_run {f : Char → Bool} (make : List Char → Lexeme)
    (hf : ∀ letters d, (make letters).EndsBefore d → f d = false)
    (hmake : ∀ letters, (∀ d ∈ letters, f d = true) → (make letters).Spells (c :: letters)) :
    Takes [c] fun rest => (make (rest.takeWhile f), rest.dropWhile f) := by
  intro rest _
  refine ⟨⟨c :: rest.takeWhile f, ?_, hmake _ fun d hd => List.mem_takeWhile_imp hd⟩,
    fun d back hd => ?_⟩
  · simp [List.takeWhile_append_dropWhile]
  · obtain ⟨htake, hdrop⟩ := takeWhile_append_cons (hf _ d hd) rest back
    dsimp only
    rw [htake, hdrop]

theorem takes_named {make : List Char → Lexeme}
    (hmake : ∀ letters, (∀ d ∈ letters, isNameChar d = true) →
      (make letters).Spells (c :: letters)) :
    Takes [c] (named position c make) := by
  intro rest h
  have hne : rest.takeWhile isNameChar ≠ [] := by
    intro hnil
    simp [named, hnil] at h
  have hread : ∀ rest', rest'.takeWhile isNameChar = rest.takeWhile isNameChar →
      named position c make rest' =
        (make (rest'.takeWhile isNameChar), rest'.dropWhile isNameChar) := by
    intro rest' hrest'
    simp [named, hrest', hne]
  rw [hread rest rfl]
  have htakes := takes_run make (fun _ _ hd => hd.not_isNameChar) hmake rest
    (by simpa [hread] using h)
  refine ⟨htakes.1, fun d back hd => ?_⟩
  obtain ⟨htake, hdrop⟩ := takeWhile_append_cons hd.not_isNameChar rest back
  rw [hread _ htake, htake, hdrop]

theorem takes_bracketed : Takes ['['] (bracketed position) := by
  intro rest h
  unfold bracketed at h ⊢
  cases hslice : Bracket.square.slice true (position + 1) rest with
  | ok slice =>
      obtain ⟨content, after⟩ := slice
      obtain ⟨hrest, hcloses⟩ := Bracket.slice_eq_ok_iff.1 hslice
      refine ⟨⟨'[' :: (content ++ [']']), ?_, .condition hcloses⟩, fun d back _ => ?_⟩
      · simp [hrest, Bracket.closing]
      · rw [Bracket.slice_append hslice]
  | error e => exact absurd (by rw [hslice]) (h (unclosed .square position e))

theorem takes_argument (name : PseudoName) {letters : List Char}
    (hletters : ∀ d ∈ letters, isNameChar d = true) (opening : Nat) :
    Takes (':' :: (letters ++ ['('])) (argument name opening) := by
  intro rest h
  unfold argument at h ⊢
  cases hslice : Bracket.round.slice (name == .has || name == .not) (opening + 1) rest with
  | ok slice =>
      obtain ⟨content, after⟩ := slice
      obtain ⟨hrest, hcloses⟩ := Bracket.slice_eq_ok_iff.1 hslice
      refine ⟨⟨':' :: (letters ++ '(' :: (content ++ [')'])), ?_,
        .call opening hletters hcloses⟩, fun d back _ => ?_⟩
      · simp [hrest, Bracket.closing]
      · rw [Bracket.slice_append hslice]
  | error e => exact absurd (by rw [hslice]) (h (unclosed .round opening e))

/-- After its name a pseudo-class has an argument just when a parenthesis comes next. -/
theorem pseudoClass_of_name (position : Nat) {name : PseudoName} {letters : List Char}
    (hne : letters ≠ []) (hletters : ∀ d ∈ letters, isNameChar d = true)
    (hname : PseudoName.ofText? (String.ofList letters) = some name) {after : List Char}
    (hafter : ∀ d ∈ after.head?, isNameChar d = false) :
    (∀ rest, after = '(' :: rest → pseudoClass position (letters ++ after) =
      argument name (position + 1 + letters.length) rest) ∧
    ((∀ rest, after ≠ '(' :: rest) →
      pseudoClass position (letters ++ after) = (.pseudo name none, after)) := by
  obtain ⟨htake, hdrop⟩ := takeWhile_append_of_head hletters hafter
  constructor
  · rintro rest rfl
    simp only [pseudoClass, htake, hdrop, if_neg hne, hname]
  · intro hplain
    simp only [pseudoClass, htake, hdrop, if_neg hne, hname]

theorem takes_pseudoClass : Takes [':'] (pseudoClass position) := by
  intro rest h
  obtain ⟨letters, after, hrest, hletters, hafter⟩ := exists_run isNameChar rest
  obtain ⟨htake, hdrop⟩ := takeWhile_append_of_head hletters hafter
  rw [← hrest] at htake hdrop
  have hne : letters ≠ [] := by
    rintro rfl
    simp [pseudoClass, htake] at h
  obtain ⟨name, hname⟩ : ∃ name, PseudoName.ofText? (String.ofList letters) = some name := by
    cases hname : PseudoName.ofText? (String.ofList letters) with
    | none => simp [pseudoClass, htake, hne, hname] at h
    | some name => exact ⟨name, rfl⟩
  have hread := @pseudoClass_of_name position name letters hne hletters hname
  -- what ends the token ends the name as well, and opens no argument
  have hback : ∀ (lexeme : Lexeme) d back, lexeme.EndsBefore d →
      ∀ e ∈ (after ++ d :: back).head?, isNameChar e = false := by
    intro lexeme d back hd e he
    cases after with
    | nil =>
        cases he
        exact hd.not_isNameChar
    | cons f after =>
        cases he
        exact hafter e rfl
  subst hrest
  by_cases hcall : ∃ argument, after = '(' :: argument
  · obtain ⟨argument, rfl⟩ := hcall
    have htakes := takes_argument name hletters (position + 1 + letters.length) argument
    rw [← (hread hafter).1 argument rfl] at htakes
    obtain ⟨⟨text, htext, hspells⟩, hextend⟩ := htakes h
    refine ⟨⟨text, ?_, hspells⟩, fun d back hd => ?_⟩
    · rw [← htext]
      simp
    · rw [← hextend d back hd, List.append_assoc, List.cons_append]
      exact (hread (hback _ d back hd)).1 _ rfl
  · have hplain : ∀ argument, after ≠ '(' :: argument := fun argument heq => hcall ⟨argument, heq⟩
    rw [(hread hafter).2 hplain]
    refine ⟨⟨':' :: letters, by simp, .plain hletters⟩, fun d back hd => ?_⟩
    rw [List.append_assoc]
    refine (hread (hback _ d back hd)).2 fun argument heq => ?_
    cases after with
    | nil => exact hd.ne_paren (List.cons.inj heq).1
    | cons f after => exact hplain after (by rw [(List.cons.inj heq).1])

/-- **What a token is taken from**, and where it ends. -/
theorem takes_take (inCompound : Bool) (position : Nat) (c : Char) :
    Takes [c] (take inCompound position c) := by
  change Takes [c] fun rest => take inCompound position c rest
  simp only [take]
  by_cases hblank : (Text.isBlank c && !(inCompound && isTypeChar c)) = true
  · simp only [if_pos hblank]
    rw [Bool.and_eq_true] at hblank
    exact takes_run (fun _ => .blank) (fun _ _ hd => hd.not_isBlank rfl) fun _ hall =>
      .blank (List.forall_mem_cons.2 ⟨hblank.1, hall⟩)
  simp only [if_neg hblank]
  by_cases hcomma : c = ','
  · simp only [if_pos hcomma]
    exact takes_single (hcomma ▸ .comma)
  simp only [if_neg hcomma]
  by_cases hstar : c = '*'
  · simp only [if_pos hstar]
    exact takes_single (hstar ▸ .star)
  simp only [if_neg hstar]
  by_cases hsigil : c = '#'
  · simp only [if_pos hsigil]
    exact takes_named fun _ hall => hsigil ▸ .id hall
  simp only [if_neg hsigil]
  by_cases hdot : c = '.'
  · simp only [if_pos hdot]
    exact takes_named fun _ hall => hdot ▸ .ofClass hall
  simp only [if_neg hdot]
  by_cases hsquare : c = '['
  · simp only [if_pos hsquare]
    exact hsquare ▸ takes_bracketed
  simp only [if_neg hsquare]
  by_cases hcolon : c = ':'
  · simp only [if_pos hcolon]
    exact hcolon ▸ takes_pseudoClass
  simp only [if_neg hcolon]
  by_cases htype : isTypeChar c = true
  · simp only [if_pos htype]
    exact takes_run (fun letters => .type (c :: letters)) (fun _ _ hd => hd.not_isTypeChar)
      fun _ hall => .type (List.forall_mem_cons.2 ⟨htype, hall⟩)
  simp only [if_neg htype]
  cases hk : Combinator.ofChar? c with
  | some k => exact takes_single (.combinator hk)
  | none => exact takes_single (.stray c)

end Token

end MarkupQuery
