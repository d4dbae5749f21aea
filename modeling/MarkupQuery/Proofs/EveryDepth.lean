import MarkupQuery.Proofs.NormalForm

/-!
# Selectors at every depth

The normal form of what is read is told along the syntax.  Here it is told place by place,
as it is relied upon where selectors are matched and printed: of each list of alternatives
within a selector, in however many arguments, of its compounds, and of each simple selector
by itself, whatever stands in its argument.

* `Complex.Within` — the lists of alternatives at every depth;
* `Simple.Regular`, `Compound.Regular` — what can be said without going into arguments;
* `Complex.Within.normal` — what is within a normal selector is normal;
* `Parser.regular_of_parse` — what is read is regular at every depth.
-/

namespace MarkupQuery

variable {p : Parser}

/-! ### Places in a selector -/

/-- The list of alternatives that is the argument. -/
def Simple.argument? : Simple → Option SelectorList
  | .has list | .not list => some list
  | _ => none

/-- The lists of alternatives within one, at any depth: the list itself, and the argument of
any simple selector in any compound of one of them. -/
inductive Complex.Within (l : SelectorList) : SelectorList → Prop
  | self : Within l l
  | argument {list inner : SelectorList} {c : Complex} {compound : Compound} {s : Simple}
      (within : Within l list) (hc : c ∈ list) (hcompound : compound ∈ c.compounds)
      (hs : s ∈ compound) (hinner : s.argument? = some inner) : Within l inner

/-- A condition on attributes: names are trimmed, in lower case and free of operators, and
values are in the form that is compared. -/
def AttributeTest.Regular : AttributeTest → Prop
  | .present name | .pattern name _ => IsAttributeName name
  | .nameStart start => IsNameStart start
  | .value _ name expected =>
    IsAttributeName name ∧ Text.trimmed expected.value = expected.value ∧
      (expected.case = .insensitive → Text.lowered expected.value = expected.value)

/-- A simple selector, without its argument if that is a list of alternatives. -/
def Simple.Regular : Simple → Prop
  | .type name => IsTypeName name
  | .id name | .ofClass name => IsIdentifier name
  | .attribute test => test.Regular
  | .contains _ text => text ≠ "" ∧ Text.trimmed text = text ∧ Text.lowered text = text
  | .finds _ pattern => Text.isBlankText pattern.source = false
  | .ordinal o => o.bound < UInt64.size
  | .universal | .scope | .structural _ | .has _ | .not _ => True

/-- A compound: there is something in it, and a type name comes first. -/
structure Compound.Regular (compound : Compound) : Prop where
  nonempty : compound ≠ []
  typeFirst : ∀ s ∈ compound.tail, s.isType = false
  simple : ∀ s ∈ compound, s.Regular

/-! ### What is within a normal selector -/

/-- The compounds of a normal chain are normal. -/
theorem Complex.Normal.of_mem_compounds : ∀ {c : Complex}, c.Normal p →
    ∀ compound ∈ c.compounds, Compound.Normal p compound
  | .only _, h, _, hcompound => by
    rw [List.mem_singleton.1 hcompound]
    exact h
  | .linked _ _ left, h, compound, hcompound => by
    rcases List.mem_cons.1 hcompound with rfl | hcompound
    · exact h.1
    · exact Complex.Normal.of_mem_compounds (c := left) h.2 compound hcompound

/-- The argument of a normal simple selector is not empty, and normal. -/
theorem Simple.Normal.argument {s : Simple} (h : s.Normal p) {inner : SelectorList}
    (hinner : s.argument? = some inner) : inner ≠ [] ∧ Complex.AllNormal p inner := by
  cases s <;> cases hinner <;> exact h

/-- **What is within a normal list** of alternatives, at any depth, is normal. -/
theorem Complex.Within.normal {l list : SelectorList} (hlist : Complex.Within l list)
    (hne : l ≠ []) (h : Complex.AllNormal p l) : list ≠ [] ∧ Complex.AllNormal p list := by
  induction hlist with
  | self => exact ⟨hne, h⟩
  | argument _ hc hcompound hs hinner ih =>
      -- The normal form is followed down to the simple selector that has the argument.
      have hchain := Complex.allNormal_iff.1 ih.2 _ hc
      have hcompound := hchain.of_mem_compounds _ hcompound
      have hsimple := Simple.allNormal_iff.1 hcompound.2.2 _ hs
      exact hsimple.argument hinner

/-! ### What is normal is regular -/

/-- A text with something left after trimming is not blank. -/
theorem Text.isBlankText_eq_false {s : String} (h : Text.trim s.toList ≠ []) :
    Text.isBlankText s = false := by
  refine Bool.eq_false_iff.2 fun hblank => h ?_
  have hstart : Text.trimStart s.toList = [] :=
    List.dropWhile_eq_nil_iff.2 (List.all_eq_true.1 hblank)
  rw [Text.trim, hstart, Text.trimEnd_nil]

theorem AttributeTest.Normal.regular {test : AttributeTest} (h : test.Normal p) :
    test.Regular := by
  cases test with
  | present name => exact h
  | nameStart start => exact h
  | value op name expected =>
      obtain ⟨hname, htrimmed, hfold⟩ := h
      refine ⟨hname, htrimmed, fun hcase => ?_⟩
      rwa [hcase] at hfold
  | pattern name sought => exact h.1

theorem Simple.Normal.regular : ∀ {s : Simple}, s.Normal p → s.Regular
  | .type _, h | .id _, h | .ofClass _, h | .contains _ _, h | .ordinal _, h => h
  | .attribute _, h => AttributeTest.Normal.regular h
  | .finds _ _, h => Text.isBlankText_eq_false h.1
  | .universal, _ | .scope, _ | .structural _, _ | .has _, _ | .not _, _ => trivial

theorem Compound.Normal.regular {compound : Compound} (h : Compound.Normal p compound) :
    Compound.Regular compound where
  nonempty := h.1
  typeFirst := h.2.1
  simple := fun s hs => (Simple.allNormal_iff.1 h.2.2 s hs).regular

/-! ### What is read -/

namespace Parser

/-- **What is read is regular at every depth**: each list of alternatives has at least one,
and each compound of each of them is regular. -/
theorem regular_of_parse (p : Parser) {text : String} {l : SelectorList}
    (h : p.parse text = .ok l) :
    ∀ list, Complex.Within l list → list ≠ [] ∧
      ∀ c ∈ list, ∀ compound ∈ c.compounds, Compound.Regular compound := by
  intro list hlist
  obtain ⟨hne, hnormal⟩ := normal_of_parse h
  obtain ⟨hlistNe, hlistNormal⟩ := hlist.normal hne hnormal
  refine ⟨hlistNe, fun c hc compound hcompound => ?_⟩
  have hchain : c.Normal p := Complex.allNormal_iff.1 hlistNormal c hc
  exact (hchain.of_mem_compounds compound hcompound).regular

/-- Capitals, a bar, blanks and letters that are folded, in arguments of arguments. -/
theorem regular_of_parse_nested :
    let p : Parser := ⟨.standard, .literal⟩
    let text := "SVG|Rect:not(p:has(> [ Data-X != \"É B \"], *:contains( Foo )):lt(3)) " ++
      "[^Data]:matches( a+)"
    let inner : SelectorList :=
      [.linked [.attribute (.value .notEquals "data-x" ⟨"é b", .insensitive⟩)] .child
        (.only [.scope]), .only [.universal, .contains .whole "foo"]]
    let middle : SelectorList := [.only [.type "p", .has inner, .ordinal ⟨.lt, 3⟩]]
    let l : SelectorList :=
      [.linked [.attribute (.nameStart "data"), .finds .whole ⟨" a+", .sensitive⟩] .descendant
        (.only [.type "svg:rect", .not middle])]
    p.parse text = .ok l ∧ Complex.Within l inner ∧
      ∀ list, Complex.Within l list → list ≠ [] ∧
        ∀ c ∈ list, ∀ compound ∈ c.compounds, Compound.Regular compound := by
  intro p text inner middle l
  have h : p.parse text = .ok l := by decide +kernel
  have hmiddle : Complex.Within l middle :=
    .argument .self List.mem_cons_self (List.mem_cons_of_mem _ List.mem_cons_self)
      (List.mem_cons_of_mem _ List.mem_cons_self) rfl
  have hinner : Complex.Within l inner :=
    .argument hmiddle List.mem_cons_self List.mem_cons_self
      (List.mem_cons_of_mem _ List.mem_cons_self) rfl
  exact ⟨h, hinner, p.regular_of_parse h⟩

end Parser

end MarkupQuery
