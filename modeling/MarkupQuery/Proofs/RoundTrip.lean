import MarkupQuery.Proofs.Writing

/-!
# Printing and reading back

A selector list in normal form is read back from its text just when all brackets in the
text are closed where they have to be.

* `Parser.parseWithin_writeAll` — readable selector lists are read back;
* `Parser.faithful_parseWithin` — and those that are read back are readable;
* `Parser.parse_printList_iff` — what is read from any text is read back from its own
  just when it is readable.
-/

namespace MarkupQuery

open Delimited

variable {p : Parser} {nested : List Char → Nat → Outcome SelectorList}

/-! ### Simple selectors among the items -/

theorem Complex.mem_itemsAll {l : SelectorList} {s : Simple} :
    Item.simple s ∈ Complex.itemsAll l ↔ ∃ c ∈ l, Item.simple s ∈ c.items := by
  fun_induction Complex.itemsAll l with
  | case1 => simp
  | case2 c => simp
  | case3 c rest hrest ih => simp [ih]

/-- The simple selectors of a normal list are normal. -/
theorem Complex.normal_of_mem_itemsAll {l : SelectorList} (hl : Complex.AllNormal p l)
    {s : Simple} (h : Item.simple s ∈ Complex.itemsAll l) : s.Normal p := by
  have hchain : ∀ c : Complex, c.Normal p → Item.simple s ∈ c.items → s.Normal p := by
    intro c hc hs
    induction c using Complex.items.induct with
    | case1 compound => exact Simple.allNormal_iff.1 hc.2.2 s (by simpa [Complex.items] using hs)
    | case2 compound via left ih =>
        rcases List.mem_append.1 hs with hs | hs
        · exact ih hc.2 hs
        · exact Simple.allNormal_iff.1 hc.1.2.2 s (by simpa using hs)
  obtain ⟨c, hc, hs⟩ := Complex.mem_itemsAll.1 h
  exact hchain c (Complex.allNormal_iff.1 hl c hc) hs

theorem Simple.allReadable_iff {compound : Compound} :
    Simple.AllReadable compound ↔ ∀ s ∈ compound, s.Readable := by
  induction compound with
  | nil => simp [Simple.AllReadable]
  | cons s rest ih => simp [Simple.AllReadable, ih]

/-- A list is readable just when all its simple selectors are. -/
theorem Complex.allReadable_iff {l : SelectorList} :
    Complex.AllReadable l ↔ ∀ s, Item.simple s ∈ Complex.itemsAll l → s.Readable := by
  have hchain : ∀ c : Complex, c.Readable ↔ ∀ s, Item.simple s ∈ c.items → s.Readable := by
    intro c
    induction c using Complex.items.induct with
    | case1 compound => simp [Complex.Readable, Complex.items, Simple.allReadable_iff]
    | case2 compound via left ih =>
        simp [Complex.Readable, Complex.items, Simple.allReadable_iff, ih, or_imp, forall_and,
          and_comm]
  induction l with
  | nil => simp [Complex.AllReadable, Complex.itemsAll]
  | cons c rest ih =>
      simp only [Complex.AllReadable, hchain, ih, Complex.mem_itemsAll, List.mem_cons]
      constructor
      · rintro ⟨hc, hrest⟩ s ⟨d, rfl | hd, hs⟩
        · exact hc s hs
        · exact hrest s ⟨d, hd, hs⟩
      · intro h
        refine ⟨fun s hs => h s ⟨c, .inl rfl, hs⟩, fun s hs => ?_⟩
        obtain ⟨d, hd, hs⟩ := hs
        exact h s ⟨d, .inr hd, hs⟩

/-! ### Readable lists are read back -/

namespace Parser

/-- Legible items are read one after the other. -/
theorem resume_items {items : List Item} (hlegible : ∀ item ∈ items, item.Legible p nested)
    {progress : Progress} (horderly : Item.Orderly progress.isInside items)
    (inCompound : Bool) (position : Nat) :
    ∃ stop, p.resume nested inCompound position progress (items.flatMap Item.write) =
      (items.foldl Progress.follow progress).finish stop := by
  induction items generalizing progress inCompound position with
  | nil => exact ⟨position, resume_nil _ _ _⟩
  | cons item items ih =>
      have hnormal : ∀ s, Item.simple s ∈ items → s.Normal p := fun s hs =>
        (hlegible _ (List.mem_cons_of_mem item hs)).1
      obtain ⟨inCompound', stop, hstep⟩ := resume_write horderly
        (hlegible item List.mem_cons_self) (Item.ends_of_orderly horderly hnormal)
        inCompound position
      rw [List.flatMap_cons, hstep]
      exact ih (fun other hother => hlegible other (List.mem_cons_of_mem item hother))
        (Item.orderly_follow horderly) inCompound' stop

end Parser

/-- The argument of a simple selector is shorter than the list it stands in. -/
theorem Complex.length_argument_lt {l : SelectorList} {s : Simple}
    (hs : Item.simple s ∈ Complex.itemsAll l) {list : SelectorList}
    (hlist : s = .has list ∨ s = .not list) :
    (Complex.writeAll list).length < (Complex.writeAll l).length := by
  have hle : s.write.length ≤ (Complex.writeAll l).length := by
    rw [Complex.writeAll_eq]
    exact (List.sublist_flatten_of_mem (List.mem_map_of_mem (f := Item.write) hs)).length_le
  rcases hlist with rfl | rfl <;>
    simp [Simple.write, PseudoName.writeCall] at hle <;> omega

namespace Parser

/-- **Readable selector lists are read back.** -/
theorem parseWithin_writeAll {depth : Nat} {l : SelectorList} (hne : l ≠ [])
    (hnormal : Complex.AllNormal p l) (hreadable : Complex.AllReadable l)
    (hdepth : (Complex.writeAll l).length < depth) (base : Nat) :
    p.parseWithin depth (Complex.writeAll l) base = .ok l := by
  induction depth generalizing l base with
  | zero => omega
  | succ depth ih =>
      have hlegible : ∀ item ∈ Complex.itemsAll l, item.Legible p (p.parseWithin depth) := by
        intro item hitem
        cases item with
        | simple s =>
            have hs := Complex.normal_of_mem_itemsAll hnormal hitem
            have hreads := Complex.allReadable_iff.1 hreadable s hitem
            refine ⟨hs, hreads, fun list hlist base => ?_⟩
            have hlt := Complex.length_argument_lt hitem hlist
            rcases hlist with rfl | rfl
            · exact ih hs.1 hs.2 hreads.2 (by omega) base
            · exact ih hs.1 hs.2 hreads.2 (by omega) base
        | via k => trivial
        | comma => trivial
      have horderly : Item.Orderly Progress.start.isInside (Complex.itemsAll l) :=
        Complex.orderly_itemsAll hne hnormal
      obtain ⟨stop, hread⟩ := resume_items hlegible horderly false base
      rw [parseWithin_succ, Complex.writeAll_eq, hread]
      exact Progress.finish_follow hne hnormal [] stop

end Parser

/-! ### What is read back is readable -/

/-- An item ends before a text that overlaps with one before which it ends. -/
theorem Item.Ends.of_overlaps {item : Item} {t r : List Char} (hr : item.Ends r)
    (ht : Overlaps ')' t r) : item.Ends t := by
  cases item with
  | simple s =>
      intro c hc
      rcases ht.head c hc with rfl | hc
      · decide
      · exact hr c hc
  | via k =>
      intro c hc
      rcases ht.head c hc with rfl | hc
      · decide
      · exact hr c hc
  | comma =>
      intro c hc
      rcases ht.head c hc with rfl | hc
      · decide
      · exact hr c hc

/-- What is shown after one more item. -/
theorem Progress.shown_follow {progress : Progress} {item : Item} {items : List Item}
    (h : Item.Orderly progress.isInside (item :: items)) :
    (progress.follow item).shown = progress.shown ++ [item] := by
  cases item with
  | simple s =>
      rw [← items_addSimple]
      obtain ⟨done, place⟩ := progress
      cases place <;> rfl
  | via k =>
      obtain ⟨done, place⟩ := progress
      cases place with
      | inside left compound =>
          cases k <;> simp [follow, shown, Progress.items, Combinator.place, Place.items]
      | _ => cases h.1
  | comma =>
      obtain ⟨done, place⟩ := progress
      cases place with
      | inside left compound =>
          simp [follow, shown, Progress.items, Place.items, Complex.itemsBefore]
      | _ => cases h.1

namespace Parser

/-- A token that is meant to be a simple selector, and is taken, is read as one. -/
theorem exists_reads_of_resume {inCompound : Bool} {position : Nat} {progress : Progress}
    {c : Char} {cs rest : List Char} {lexeme : Lexeme} {l : SelectorList}
    (htake : Token.take inCompound position c cs = (lexeme, rest))
    (hsimple : lexeme.isSimple = true)
    (h : p.resume nested inCompound position progress (c :: cs) = .ok l) :
    ∃ s stop, Reads p nested position lexeme s ∧
      p.resume nested true stop (progress.addSimple s) rest = .ok l := by
  rw [resume_cons, htake] at h
  obtain ⟨progress', hprogress, h⟩ := Outcome.bind_eq_ok_iff.1 h
  rcases Progress.take_eq_ok_iff.1 hprogress with ⟨rfl, -⟩ | ⟨rfl, -⟩ | ⟨d, k, rfl, -⟩ |
    ⟨s, hs, -, rfl⟩
  · cases hsimple
  · cases hsimple
  · cases hsimple
  · rw [hsimple] at h
    exact ⟨s, _, hs, h⟩

/-- Reading a list, the next simple selector is the one that the list goes on with. -/
theorem eq_of_resume_addSimple {inCompound : Bool} {position : Nat} {progress : Progress}
    {cs : List Char} {l : SelectorList} {s t : Simple} {items : List Item}
    (hl : progress.shown ++ .simple s :: items = Complex.itemsAll l)
    (h : p.resume nested inCompound position (progress.addSimple t) cs = .ok l) : t = s := by
  have hstart := items_prefix_of_resume h
  rw [Progress.items_addSimple, ← hl, List.prefix_append_right_inj] at hstart
  obtain ⟨back, hback⟩ := hstart
  exact Item.simple.inj (List.cons.inj hback).1

/-- Whether a reading gives a normal list back only from its own text, among the texts
that overlap with it at a parenthesis. -/
def Faithful (p : Parser) (nested : List Char → Nat → Outcome SelectorList) : Prop :=
  ∀ cs base list, nested cs base = .ok list → list ≠ [] → Complex.AllNormal p list →
    Overlaps ')' cs (Complex.writeAll list) →
    cs = Complex.writeAll list ∧ Complex.AllReadable list

/-- What comes of reading a text that overlaps with that of a simple selector at a
parenthesis: the text starts with the selector, which is readable. -/
def StartsWith (p : Parser) (nested : List Char → Nat → Outcome SelectorList)
    (progress : Progress) (s : Simple) (l : SelectorList) (r t : List Char) : Prop :=
  ∃ rest stop, t = s.write ++ rest ∧ Overlaps ')' rest r ∧ s.Readable ∧
    p.resume nested true stop (progress.addSimple s) rest = .ok l

variable {inCompound : Bool} {position : Nat} {progress : Progress} {l : SelectorList}
  {items : List Item} {r t : List Char}

/-- A pseudo-class with an argument is read up to some closing parenthesis. -/
theorem exists_argument_of_resume {name : PseudoName} {argument : List Char} {s : Simple}
    (hwrite : s.write = name.writeCall argument)
    (hl : progress.shown ++ .simple s :: items = Complex.itemsAll l)
    (ht : Overlaps ')' t (s.write ++ r))
    (h : p.resume nested inCompound position progress t = .ok l) :
    ∃ opening content rest stop, t = ':' :: (name.text.toList ++ '(' :: (content ++ ')' :: rest)) ∧
      Openings.closes .round (name == .has || name == .not) content = true ∧
      Reads p nested position (.pseudo name (some (opening, content))) s ∧
      p.resume nested true stop (progress.addSimple s) rest = .ok l ∧
      ((content = argument ∧ Overlaps ')' rest r) ∨ BreaksOff ')' content argument ∨
        BreaksOff ')' argument content) := by
  have hfront : ')' ∉ ':' :: (name.text.toList ++ ['(']) := by
    intro hmem
    have hletters := (Token.ofText?_text name).2.2
    simp only [List.mem_cons, List.mem_append, List.not_mem_nil, or_false] at hmem
    rcases hmem with hmem | hmem | hmem
    · cases hmem
    · exact absurd (hletters _ hmem) (by decide)
    · cases hmem
  have htext : s.write ++ r =
      (':' :: (name.text.toList ++ ['('])) ++ (argument ++ ')' :: r) := by
    rw [hwrite, PseudoName.writeCall, PseudoName.write]
    simp
  rw [htext] at ht
  obtain ⟨t, rfl, hsplit⟩ := Overlaps.of_append hfront ht
  have htake : Token.take inCompound position ':' (name.text.toList ++ '(' :: t) =
      Token.argument name (position + 1 + name.text.toList.length) t := by
    rw [(Token.take_sigil _ _ _).2.2.2.2, Token.pseudoClass_call]
  have hcons : (':' :: (name.text.toList ++ ['('])) ++ t =
      ':' :: (name.text.toList ++ '(' :: t) := by simp
  rw [hcons] at h ⊢
  unfold Token.argument at htake
  split at htake
  · next content rest hslice =>
      obtain ⟨rfl, hcloses⟩ := Bracket.slice_eq_ok_iff.1 hslice
      obtain ⟨s', stop, hs', hrest⟩ := exists_reads_of_resume htake rfl h
      cases eq_of_resume_addSimple hl hrest
      exact ⟨_, content, rest, stop, rfl, hcloses, hs', hrest, hsplit.split⟩
  · obtain ⟨s', stop, hs', -⟩ := exists_reads_of_resume htake rfl h
    cases hs'

/-- A pseudo-class whose argument is known to close its parentheses. -/
theorem startsWith_call {name : PseudoName} {argument : List Char} {s : Simple}
    (hwrite : s.write = name.writeCall argument) (hreadable : s.Readable)
    (hcloses : Openings.closes .round (name == .has || name == .not) argument = true)
    (hl : progress.shown ++ .simple s :: items = Complex.itemsAll l)
    (ht : Overlaps ')' t (s.write ++ r))
    (h : p.resume nested inCompound position progress t = .ok l) :
    StartsWith p nested progress s l r t := by
  obtain ⟨opening, content, rest, stop, rfl, hcontent, -, hrest,
      ⟨rfl, hoverlaps⟩ | hbreak | hbreak⟩ :=
    exists_argument_of_resume hwrite hl ht h
  · refine ⟨rest, stop, ?_, hoverlaps, hreadable, hrest⟩
    rw [hwrite, PseudoName.writeCall, PseudoName.write]
    simp
  · exact absurd hbreak (Openings.not_breaksOff_of_closes hcontent hcloses)
  · exact absurd hbreak (Openings.not_breaksOff_of_closes hcloses hcontent)

/-- A pseudo-class whose argument is a selector list. -/
theorem startsWith_nested {name : PseudoName} {list : SelectorList} {s : Simple}
    (hwrite : s.write = name.writeCall (Complex.writeAll list))
    (hreadable : Openings.closes .round (name == .has || name == .not)
      (Complex.writeAll list) = true → Complex.AllReadable list → s.Readable)
    (hreads : ∀ opening content,
      Reads p nested position (.pseudo name (some (opening, content))) s →
      nested content (opening + 1) = .ok list)
    (hnested : Faithful p nested) (hne : list ≠ []) (hlist : Complex.AllNormal p list)
    (hl : progress.shown ++ .simple s :: items = Complex.itemsAll l)
    (ht : Overlaps ')' t (s.write ++ r))
    (h : p.resume nested inCompound position progress t = .ok l) :
    StartsWith p nested progress s l r t := by
  obtain ⟨opening, content, rest, stop, rfl, hcontent, hs, hrest, hsplit⟩ :=
    exists_argument_of_resume hwrite hl ht h
  have hoverlaps : Overlaps ')' content (Complex.writeAll list) := by
    rcases hsplit with ⟨heq, -⟩ | hbreak | hbreak
    · exact .inl heq
    · exact .inr (.inl hbreak)
    · exact .inr (.inr hbreak)
  obtain ⟨rfl, hall⟩ := hnested content _ list (hreads _ _ hs) hne hlist hoverlaps
  have hself : ∀ cs, ¬ BreaksOff ')' cs cs := fun cs hbreak => by
    have hle := hbreak.length_le
    rw [List.length_append, List.length_singleton] at hle
    omega
  have hoverlaps : Overlaps ')' rest r := by
    rcases hsplit with ⟨-, hrest⟩ | hbreak | hbreak
    · exact hrest
    · exact absurd hbreak (hself _)
    · exact absurd hbreak (hself _)
  refine ⟨rest, stop, ?_, hoverlaps, hreadable hcontent hall, hrest⟩
  rw [hwrite, PseudoName.writeCall, PseudoName.write]
  simp

/-- A condition on attributes. -/
theorem startsWith_attribute {test : AttributeTest} (htest : test.Normal p)
    (hl : progress.shown ++ .simple (.attribute test) :: items = Complex.itemsAll l)
    (ht : Overlaps ')' t ((Simple.attribute test).write ++ r))
    (h : p.resume nested inCompound position progress t = .ok l) :
    StartsWith p nested progress (.attribute test) l r t := by
  have htext : (Simple.attribute test).write ++ r =
      ['['] ++ (test.writeBody ++ ']' :: r) := by
    simp [Simple.write, AttributeTest.write]
  rw [htext] at ht
  obtain ⟨t, rfl, hsplit⟩ := Overlaps.of_append (by decide) ht
  have htake : Token.take inCompound position '[' t = Token.bracketed position t :=
    (Token.take_sigil _ _ _).2.2.2.1
  unfold Token.bracketed at htake
  split at htake
  · next content rest hslice =>
      obtain ⟨rfl, hcloses⟩ := Bracket.slice_eq_ok_iff.1 hslice
      obtain ⟨s', stop, hs', hrest⟩ := exists_reads_of_resume htake rfl h
      cases eq_of_resume_addSimple hl hrest
      cases hs' with
      | condition hread =>
          rcases hsplit.split with ⟨rfl, hoverlaps⟩ | hbreak | hbreak
          · refine ⟨rest, stop, ?_, hoverlaps, hcloses, hrest⟩
            simp [Simple.write, AttributeTest.write, Bracket.closing]
          · exact absurd hread (attributeTest_ne_of_breaksOff htest (.inl hbreak) _)
          · exact absurd hread (attributeTest_ne_of_breaksOff htest (.inr hbreak) _)
  · obtain ⟨s', stop, hs', -⟩ := exists_reads_of_resume htake rfl h
    cases hs'

/-- A simple selector in whose text no closing parenthesis comes. -/
theorem startsWith_plain {s : Simple} (hs : s.Normal p) (hreadable : s.Readable)
    (hnested : ∀ list, ¬ (s = .has list ∨ s = .not list)) (hparen : ')' ∉ s.write)
    (hr : Stops r) (htype : s.isType = true → progress.isInside = false)
    (ht : Overlaps ')' t (s.write ++ r))
    (h : p.resume nested inCompound position progress t = .ok l) :
    StartsWith p nested progress s l r t := by
  obtain ⟨rest, rfl, hoverlaps⟩ := Overlaps.of_append hparen ht
  have hrest : Item.Ends rest (.simple s) :=
    Item.Ends.of_overlaps (show Item.Ends r (.simple s) from hr) hoverlaps
  obtain ⟨stop, hstep⟩ := resume_simple hs hreadable (fun list hlist => absurd hlist (hnested list))
    hrest inCompound position htype
  rw [hstep] at h
  exact ⟨rest, stop, rfl, hoverlaps, hreadable, h⟩

/-- **Every simple selector** that is read back is readable, and read from its text. -/
theorem startsWith {s : Simple} (hs : s.Normal p) (hnested : Faithful p nested)
    (hl : progress.shown ++ .simple s :: items = Complex.itemsAll l) (hr : Stops r)
    (htype : s.isType = true → progress.isInside = false)
    (ht : Overlaps ')' t (s.write ++ r))
    (h : p.resume nested inCompound position progress t = .ok l) :
    StartsWith p nested progress s l r t := by
  have hidentifier : ∀ (sigil : Char) (name : String), sigil ≠ ')' → IsIdentifier name →
      ')' ∉ sigil :: name.toList := by
    intro sigil name hsigil hname hmem
    rcases List.mem_cons.1 hmem with rfl | hmem
    · exact hsigil rfl
    · exact absurd (hname.letters _ hmem) (by decide)
  have hpseudo : ∀ name : PseudoName, ')' ∉ name.write := by
    intro name hmem
    rcases List.mem_cons.1 hmem with hmem | hmem
    · cases hmem
    · exact absurd ((Token.ofText?_text name).2.2 _ hmem) (by decide)
  cases s with
  | type name =>
      refine startsWith_plain hs trivial (by simp) (fun hmem => ?_) hr htype ht h
      exact absurd ((writeTypeName_letters hs).2.1 _ hmem) (by decide)
  | universal =>
      exact startsWith_plain hs trivial (by simp) (by decide) hr htype ht h
  | id name =>
      exact startsWith_plain hs trivial (by simp) (hidentifier '#' name (by decide) hs) hr htype
        ht h
  | ofClass name =>
      exact startsWith_plain hs trivial (by simp) (hidentifier '.' name (by decide) hs) hr htype
        ht h
  | «attribute» test => exact startsWith_attribute hs hl ht h
  | scope => exact startsWith_plain hs trivial (by simp) (hpseudo .scope) hr htype ht h
  | structural test =>
      exact startsWith_plain hs trivial (by simp) (hpseudo (.structural test)) hr htype ht h
  | has list =>
      refine startsWith_nested rfl (fun hcloses hall => ⟨hcloses, hall⟩) ?_ hnested hs.1 hs.2 hl
        ht h
      rintro opening content ⟨⟩
      assumption
  | not list =>
      refine startsWith_nested rfl (fun hcloses hall => ⟨hcloses, hall⟩) ?_ hnested hs.1 hs.2 hl
        ht h
      rintro opening content ⟨⟩
      assumption
  | contains extent text =>
      exact startsWith_call rfl trivial
        (Openings.closes_iff.2 ⟨_, Openings.after_escapeArgument rfl _⟩) hl ht h
  | finds extent pattern => exact startsWith_call rfl trivial hs.2.1 hl ht h
  | ordinal o => exact startsWith_call rfl trivial (closes_toString o.bound) hl ht h

/-- Items that are read back are readable, and read from their own text. -/
theorem eq_of_resume (hnormal : ∀ s, Item.simple s ∈ items → s.Normal p)
    (hnested : Faithful p nested) (horderly : Item.Orderly progress.isInside items)
    (hl : progress.shown ++ items = Complex.itemsAll l)
    (ht : Overlaps ')' t (items.flatMap Item.write))
    (h : p.resume nested inCompound position progress t = .ok l) :
    t = items.flatMap Item.write ∧ ∀ s, Item.simple s ∈ items → s.Readable := by
  induction items generalizing inCompound position progress t with
  | nil =>
      cases t with
      | nil => exact ⟨rfl, by simp⟩
      | cons c t =>
          -- the text goes on with a parenthesis, which starts no token
          obtain rfl | hc := ht.head c rfl
          · rw [resume_cons, Token.take_closing] at h
            cases h
          · cases hc
  | cons item items ih =>
      have hnormal' : ∀ s, Item.simple s ∈ items → s.Normal p := fun s hs =>
        hnormal s (List.mem_cons_of_mem item hs)
      have horderly' := Item.orderly_follow horderly
      have hl' : (progress.follow item).shown ++ items = Complex.itemsAll l := by
        rw [Progress.shown_follow horderly, List.append_assoc, List.singleton_append, hl]
      have hends := Item.ends_of_orderly horderly hnormal'
      rw [List.flatMap_cons] at ht ⊢
      have hseparator : ')' ∉ item.write → item.Legible p nested →
          (∀ s, item ≠ .simple s) →
          t = item.write ++ items.flatMap Item.write ∧
            ∀ s, Item.simple s ∈ item :: items → s.Readable := by
        intro hparen hlegible hne
        obtain ⟨rest, rfl, hoverlaps⟩ := Overlaps.of_append hparen ht
        obtain ⟨inCompound', stop, hstep⟩ :=
          resume_write horderly hlegible (hends.of_overlaps hoverlaps) inCompound position
        rw [hstep] at h
        obtain ⟨rfl, hreadable⟩ := ih hnormal' horderly' hl' hoverlaps h
        refine ⟨rfl, fun s hs => ?_⟩
        rcases List.mem_cons.1 hs with hs | hs
        · exact absurd hs.symm (hne s)
        · exact hreadable s hs
      cases item with
      | simple s =>
          obtain ⟨rest, stop, rfl, hoverlaps, hs, hrest⟩ :=
            startsWith (hnormal s List.mem_cons_self) hnested hl hends horderly.1 ht h
          obtain ⟨rfl, hreadable⟩ := ih hnormal' horderly' hl' hoverlaps hrest
          refine ⟨rfl, fun s' hs' => ?_⟩
          rcases List.mem_cons.1 hs' with hs' | hs'
          · cases hs'
            exact hs
          · exact hreadable s' hs'
      | via k => exact hseparator (by cases k <;> decide) trivial (by simp)
      | comma => exact hseparator (by decide) trivial (by simp)

/-- **Readings are faithful**: among the texts that overlap with its own at a parenthesis,
a normal list is read from its own only, and then it is readable. -/
theorem faithful_parseWithin (depth : Nat) : Faithful p (p.parseWithin depth) := by
  induction depth with
  | zero =>
      intro cs base list h
      cases h
  | succ depth ih =>
      intro cs base list h hne hnormal hoverlaps
      rw [Complex.writeAll_eq] at hoverlaps ⊢
      have horderly : Item.Orderly Progress.start.isInside (Complex.itemsAll list) :=
        Complex.orderly_itemsAll hne hnormal
      obtain ⟨heq, hreadable⟩ := eq_of_resume
        (fun s hs => Complex.normal_of_mem_itemsAll hnormal hs) ih horderly rfl hoverlaps h
      exact ⟨heq, Complex.allReadable_iff.2 hreadable⟩

/-- **What is read and printed is read back just when it is readable.** -/
theorem parse_printList_iff {text : String} {l : SelectorList} (h : p.parse text = .ok l) :
    p.parse (printList l) = .ok l ↔ Complex.AllReadable l := by
  obtain ⟨hne, hnormal⟩ := normal_of_parse h
  rw [parse, printList, String.toList_ofList, parseAt]
  constructor
  · intro hread
    exact (faithful_parseWithin _ _ _ _ hread hne hnormal (.inl rfl)).2
  · intro hreadable
    exact parseWithin_writeAll hne hnormal hreadable (Nat.lt_succ_self _) 0

/-- A value with a quote in it, between quotes of the other kind. -/
theorem parse_printList_iff_quoted :
    let p : Parser := ⟨.standard, .literal⟩
    let l : SelectorList := [.only [.attribute (.value .equals "a" ⟨"x'", .insensitive⟩)]]
    p.parse "[a = \"x'\"]" = .ok l ∧ (p.parse (printList l) = .ok l ↔ Complex.AllReadable l) := by
  intro p l
  have h : p.parse "[a = \"x'\"]" = .ok l := by decide +kernel
  exact ⟨h, parse_printList_iff h⟩

/-- Quotes in a name are not written as they are read: the one in the name opens a
quoted text, which the one before the value closes. -/
theorem parse_printList_quote_in_name :
    let p : Parser := ⟨.standard, .literal⟩
    let l : SelectorList := [.only [.attribute (.value .equals "a'" ⟨"x'", .insensitive⟩)]]
    p.parse "[a'=x']" = .ok l ∧ ∀ l', p.parse (printList l) ≠ .ok l' := by
  intro p l
  have h : (p.parse (printList l)).isOk = false := by decide +kernel
  refine ⟨by decide +kernel, fun l' hl' => ?_⟩
  rw [hl'] at h
  cases h

end Parser

end MarkupQuery
