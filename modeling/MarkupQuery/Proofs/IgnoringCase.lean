import MarkupQuery.Proofs.FinalSigma
import MarkupQuery.Proofs.Nesting
import MarkupQuery.Proofs.Selections

/-!
# Ignoring case

A comparison that ignores case is one of lower-case forms.  What is equal has equal forms,
so equality that ignores case accepts more, and difference less.  A text that is sought in
another one has its form there as well if its capital sigmas keep theirs.  At the start and
at the end, where there is one place to look at, it is found only then; anywhere else it
may have another occurrence.

* `ValueOperator.LooksAt` — the places where a search looks;
* `ValueOperator.holds_sensitive_iff` — a search that distinguishes case;
* `ValueOperator.holds_insensitive_of_sigmasKept`, `ValueOperator.sigmasKept_of_holds_insensitive`
  — what it finds is found without regard to case if its sigmas keep their form, and when only then;
* `Parser.parse_contains`, `Complex.accepts_contains` — texts in elements;
* `Reachable.finds_ignoring_case` — what is found with case is found without.
-/

namespace MarkupQuery

open MarkupQuery.Tree Delimited Text

/-! ### Values of attributes -/

namespace ValueOperator

/-- Where a search finds a text that stands between these two. -/
inductive LooksAt : ValueOperator → List Char → List Char → Prop where
  | start (back : List Char) : LooksAt startsWith [] back
  | stop (front : List Char) : LooksAt endsWith front []
  | anywhere (front back : List Char) : LooksAt contains front back

/-- Whether an operator asks for a text within another. -/
def isSearch : ValueOperator → Bool
  | startsWith | endsWith | contains => true
  | equals | notEquals => false

variable {op : ValueOperator} {v : String} {actual : Option String} {a : String}
  {front back : List Char}

/-- Equal values are equal in lower case. -/
theorem holds_equals (h : equals.holds (.ofWritten v .sensitive) actual = true) :
    equals.holds (.ofWritten v .insensitive) actual = true := by
  obtain ⟨a, ha, heq⟩ := (Option.any_eq_true _ _).1 h
  have hvalue : trimmed a = trimmed v := beq_iff_eq.1 heq
  refine (Option.any_eq_true _ _).2 ⟨a, ha, beq_iff_eq.2 ?_⟩
  exact congrArg lowered hvalue

/-- Values that differ in lower case differ. -/
theorem holds_notEquals (h : notEquals.holds (.ofWritten v .insensitive) actual = true) :
    notEquals.holds (.ofWritten v .sensitive) actual = true := by
  have hne : lowered (trimmed (actual.getD "")) ≠ lowered (trimmed v) := bne_iff_ne.1 h
  exact bne_iff_ne.2 fun heq => hne (congrArg lowered heq)

/-- A search looks at its places. -/
theorem search_iff {expected : AttributeValue} (hop : op.isSearch = true) :
    op.holds expected (some a) = true ↔ ∃ front back, op.LooksAt front back ∧
      (expected.prepare a).toList = front ++ expected.value.toList ++ back := by
  cases op with
  | equals | notEquals => cases hop
  | startsWith =>
      rw [holds, Option.any_some, List.isPrefixOf_iff_prefix]
      constructor
      · rintro ⟨back, hback⟩
        exact ⟨[], back, .start back, hback.symm⟩
      · rintro ⟨_, back, hplace, heq⟩
        cases hplace
        exact ⟨back, heq.symm⟩
  | endsWith =>
      rw [holds, Option.any_some, List.isSuffixOf_iff_suffix]
      constructor
      · rintro ⟨front, hfront⟩
        exact ⟨front, [], .stop front, by rw [List.append_nil, hfront]⟩
      · rintro ⟨front, _, hplace, heq⟩
        cases hplace
        rw [List.append_nil] at heq
        exact ⟨front, heq.symm⟩
  | contains =>
      rw [holds, Option.any_some, occursIn_iff]
      constructor
      · rintro ⟨front, back, heq⟩
        exact ⟨front, back, .anywhere front back, heq.symm⟩
      · rintro ⟨front, back, -, heq⟩
        exact ⟨front, back, heq.symm⟩

/-- A search in the value of an attribute needs one. -/
theorem holds_eq_any (hop : op.isSearch = true) (expected : AttributeValue) :
    op.holds expected actual = actual.any fun a => op.holds expected (some a) := by
  cases actual with
  | some a => rfl
  | none => cases op <;> first | rfl | cases hop

/-- **A search that distinguishes case** finds a text where it stands. -/
theorem holds_sensitive_iff (hop : op.isSearch = true) :
    op.holds (.ofWritten v .sensitive) actual = true ↔
      ∃ a ∈ actual, ∃ front back, op.LooksAt front back ∧
        a.toList = front ++ trim v.toList ++ back := by
  rw [holds_eq_any hop, Option.any_eq_true]
  simp only [search_iff hop, AttributeValue.ofWritten, AttributeValue.prepare,
    CaseSensitivity.fold, trimmed, String.toList_ofList]
  rfl

/-- **A search that ignores case** looks at the same places in lower case. -/
theorem holds_insensitive_iff (hop : op.isSearch = true) :
    op.holds (.ofWritten v .insensitive) (some a) = true ↔
      ∃ front back, op.LooksAt front back ∧
        lower a.toList = front ++ lower (trim v.toList) ++ back := by
  rw [search_iff hop]
  simp only [AttributeValue.ofWritten, AttributeValue.prepare, CaseSensitivity.fold, trimmed,
    lowered, String.toList_ofList]

/-- A text that keeps its sigmas is found without regard to case. -/
theorem holds_insensitive_of_sigmasKept (hplace : op.LooksAt front back)
    (ha : a.toList = front ++ trim v.toList ++ back)
    (hkept : SigmasKept front (trim v.toList) back) :
    op.holds (.ofWritten v .insensitive) (some a) = true := by
  have hlower := lower_append_append front (trim v.toList) back
  rw [lowerAmid_eq_lower_iff.2 hkept, ← ha, ← List.append_assoc] at hlower
  cases hplace with
  | start => exact (holds_insensitive_iff rfl).2 ⟨_, _, .start _, hlower⟩
  | stop => exact (holds_insensitive_iff rfl).2 ⟨_, _, .stop _, hlower⟩
  | anywhere => exact (holds_insensitive_iff rfl).2 ⟨_, _, .anywhere _ _, hlower⟩

/-- At the start and at the end a text is found without regard to case only if it keeps its
sigmas. -/
theorem sigmasKept_of_holds_insensitive (hop : op ≠ contains) (hplace : op.LooksAt front back)
    (ha : a.toList = front ++ trim v.toList ++ back)
    (h : op.holds (.ofWritten v .insensitive) (some a) = true) :
    SigmasKept front (trim v.toList) back := by
  cases hplace with
  | start =>
      obtain ⟨_, rest, hplace, hlower⟩ := (holds_insensitive_iff rfl).1 h
      cases hplace
      rw [List.nil_append] at ha hlower
      rw [← lower_isPrefix_iff, ← ha, hlower]
      exact List.prefix_append _ _
  | stop =>
      obtain ⟨lead, _, hplace, hlower⟩ := (holds_insensitive_iff rfl).1 h
      cases hplace
      rw [List.append_nil] at ha hlower
      rw [← lower_isSuffix_iff, ← ha, hlower]
      exact List.suffix_append _ _
  | anywhere => exact absurd rfl hop

end ValueOperator

/-! ### Texts of elements -/

/-- A text to be contained, written as an argument, is read in lower case. -/
theorem Parser.parse_contains (p : Parser) (extent : Extent) {s : String}
    (hs : trimmed s = s) (hne : s ≠ "") :
    p.parse (String.ofList ((PseudoName.contains extent).writeCall (escapeArgument s.toList))) =
      .ok [.only [.contains extent (lowered s)]] := by
  have hcloses : Openings.closes .round false (escapeArgument s.toList) = true :=
    Openings.closes_iff.2 ⟨_, Openings.after_escapeArgument rfl _⟩
  have htext : lower (trim (unescape (escapeArgument s.toList))) = lower s.toList := by
    rw [unescape_escapeArgument, trimmed_eq_self_iff.1 hs]
  have hnonempty : lower s.toList ≠ [] := by simpa using hne
  rw [parse_writeCall (.contains extent) hcloses]
  simp only [pseudoCall, htext, if_neg hnonempty]
  rfl

variable {m : Matcher} {x : NodeId} {extent : Extent} {s : String}

/-- An element contains a text if that occurs in its own in lower case. -/
theorem Complex.accepts_contains :
    (only [.contains extent s]).accepts m x = true ↔
      m.tree.isElement x = true ∧ s.toList <:+: lower (extent.textOf m.tree x).toList := by
  simp only [accepts, Simple.conditions, Simple.condition, Matcher.onElement, Matcher.satisfies,
    Bool.and_true, lowered, String.toList_ofList, ← occursIn_iff, isElement]
  cases m.tree.element? x <;> simp

namespace Tree

variable {t : Tree} {scope : NodeId}

/-- **Ignoring case** accepts more.  Equal values are equal without regard to case, and
values that differ so differ.  A search in the value of an attribute finds a text where it
stands, if the text keeps its sigmas there, and at the start and at the end only then; and
so does the search in the text of an element. -/
theorem Reachable.finds_ignoring_case (h : Reachable t) (p : Parser) (scope : NodeId) :
    (∀ (e : Element) (name v : String),
      let test := fun (op : ValueOperator) (case : CaseSensitivity) =>
        (AttributeTest.value op name (.ofWritten v case)).holds p.engine e
      let sought := trim v.toList
      (test .equals .sensitive = true → test .equals .insensitive = true) ∧
      (test .notEquals .insensitive = true → test .notEquals .sensitive = true) ∧
      ∀ op : ValueOperator, op.isSearch = true →
        (test op .sensitive = true ↔ ∃ a ∈ e.attribute? name, ∃ front back,
          op.LooksAt front back ∧ a.toList = front ++ sought ++ back) ∧
        ∀ a ∈ e.attribute? name, ∀ front back, op.LooksAt front back →
          a.toList = front ++ sought ++ back →
            (SigmasKept front sought back → test op .insensitive = true) ∧
            (op ≠ .contains → test op .insensitive = true → SigmasKept front sought back)) ∧
    ∀ x, t.Within x scope → t.isElement x = true →
      ∀ (extent : Extent) (s : String), trimmed s = s → s ≠ "" →
        ∃ list, p.parse (String.ofList
            ((PseudoName.contains extent).writeCall (escapeArgument s.toList))) = .ok list ∧
          ∀ front back, (extent.textOf t x).toList = front ++ s.toList ++ back →
            SigmasKept front s.toList back → t.accepts p.engine scope list x = true := by
  constructor
  · intro e name v test sought
    refine ⟨ValueOperator.holds_equals, ValueOperator.holds_notEquals, fun op hop =>
      ⟨ValueOperator.holds_sensitive_iff hop, fun a ha front back hplace htext => ?_⟩⟩
    have hattribute : e.attribute? name = some a := ha
    simp only [test, AttributeTest.holds, hattribute]
    exact ⟨ValueOperator.holds_insensitive_of_sigmasKept hplace htext,
      fun hne => ValueOperator.sigmasKept_of_holds_insensitive hne hplace htext⟩
  · intro x hx helement extent s hs hne
    refine ⟨_, p.parse_contains extent hs hne, fun front back htext hkept => ?_⟩
    have hfound : lower s.toList <:+: lower (extent.textOf t x).toList := by
      rw [htext]
      exact hkept.lower_isInfix
    refine h.forest.accepts_iff.2 ⟨hx, Complex.anyAccepts_iff.2 ⟨_, List.mem_singleton_self _, ?_⟩⟩
    exact Complex.accepts_contains.2 ⟨helement, by rwa [lowered, String.toList_ofList]⟩

/-- A street with its number: its last sigma ends a word in both. -/
theorem finds_ignoring_case_street :
    let p : Parser := ⟨.standard, .literal⟩
    let e : Element := ⟨"p", .ofList [("title", "ΟΔΟΣ 5")]⟩
    let list : SelectorList := [.only [.contains .own "straße"]]
    ∃ t : Tree, Reachable t ∧ t.Within 1 root ∧ t.isElement 1 = true ∧
      (AttributeTest.value .startsWith "title" (.ofWritten "ΟΔΟΣ" .sensitive)).holds p.engine e =
        true ∧
      (AttributeTest.value .startsWith "title" (.ofWritten "ΟΔΟΣ" .insensitive)).holds p.engine e =
        true ∧
      p.parse ":containsOwn(Straße)" = .ok list ∧ t.accepts p.engine root list 1 = true := by
  intro p e list
  have h := Reachable.empty.appendDescription .empty root
    (.element "p" (.ofList [("title", "ΟΔΟΣ 5")]) [.text "Alte Straße"]) fun _ _ => by decide
  have hx := (h.forest.isBelow_iff.1 (show Tree.isBelow _ 1 root = true by decide +kernel)).within
  obtain ⟨hvalues, htexts⟩ := Reachable.finds_ignoring_case h p root
  obtain ⟨-, -, hsearch⟩ := hvalues e "title" "ΟΔΟΣ"
  obtain ⟨hsensitive, hplaces⟩ := hsearch .startsWith rfl
  obtain ⟨hinsensitive, -⟩ := hplaces "ΟΔΟΣ 5" (by decide +kernel) [] " 5".toList (.start _)
    (by decide +kernel)
  obtain ⟨list', hparse, haccepts⟩ := htexts 1 hx (by decide +kernel) .own "Straße"
    (by decide +kernel) (by decide)
  have hlist : list' = list := by
    have hread : p.parse ":containsOwn(Straße)" = .ok list := by decide +kernel
    exact Except.ok.inj (hparse.symm.trans hread)
  subst hlist
  refine ⟨_, h, hx, by decide +kernel, ?_, hinsensitive (by decide +kernel), hparse, ?_⟩
  · exact hsensitive.2 ⟨"ΟΔΟΣ 5", by decide +kernel, [], " 5".toList, .start _, by decide +kernel⟩
  · exact haccepts "Alte ".toList [] (by decide +kernel) (.of_notMem (by decide))

/-- A sigma that is final in the text sought and not in the other is not found without
regard to case, nor is one that is final in the other only. -/
theorem sought_at_final_sigma :
    let p : Parser := ⟨.standard, .literal⟩
    let e : Element := ⟨"p", .ofList [("title", "ΑΣΑ"), ("lang", "ΑΣ")]⟩
    let test := fun op name v case =>
      (AttributeTest.value op name (.ofWritten v case)).holds p.engine e
    let list : SelectorList := [.only [.contains .whole "ας"]]
    (test .startsWith "title" "ΑΣ" .sensitive = true ∧
      test .startsWith "title" "ΑΣ" .insensitive = false) ∧
    (test .endsWith "lang" "Σ" .sensitive = true ∧
      test .endsWith "lang" "Σ" .insensitive = false) ∧
    ∃ t : Tree, Reachable t ∧ t.isElement 1 = true ∧ t.text 1 = "ΑΣΑ" ∧
      p.parse ":contains(ΑΣ)" = .ok list ∧ t.accepts p.engine root list 1 = false := by
  intro p e test list
  have h := Reachable.empty.appendDescription .empty root
    (.element "p" .empty [.text "ΑΣΑ"]) fun _ _ => by decide
  exact ⟨by decide +kernel, by decide +kernel, _, h, by decide +kernel, by decide +kernel,
    by decide +kernel, by decide +kernel⟩

end Tree

end MarkupQuery
