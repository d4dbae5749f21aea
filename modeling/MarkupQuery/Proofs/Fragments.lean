import MarkupQuery.Proofs.Counterparts

/-!
# Comments and cuts in text are invisible

A selector that does not ask for the whole text of an element sees nothing of the comments
in a document, nor of the nodes that a text is cut into.  Structural conditions count
elements and ask whether there is anything but blanks, and the text that an element owns
is laid out piece by piece, whatever node a piece is from.  As attributes have an order of
their own in each of the trees, the names of an element must not differ in case only.

* `Simple.asksWhole` — a simple selector that asks for the whole text;
* `MergeAlike.structural_keptAlong`, `MergeAlike.ownText` — what conditions read is the same;
* `Tree.select_of_mergedAll` — selections correspond;
* `Tree.not_counterparts_of_spellings` — but not with a name in two spellings.
-/

namespace MarkupQuery

open Description

section Lists

variable {R : NodeId → NodeId → Prop} {l₁ l₂ : List NodeId} {x₁ x₂ : NodeId}

/-- Related lists have a node and its counterpart at their heads, or neither. -/
theorem head?_beq_of_forall₂ (h : List.Forall₂ R l₁ l₂)
    (hx : ∀ a b, R a b → (a = x₁ ↔ b = x₂)) :
    (l₂.head? == some x₂) = (l₁.head? == some x₁) := by
  cases h with
  | nil => rfl
  | cons hab _ =>
      rw [List.head?_cons, List.head?_cons, Bool.eq_iff_iff]
      simp [hx _ _ hab]

/-- Related lists have a node and its counterpart at their ends, or neither. -/
theorem getLast?_beq_of_forall₂ (h : List.Forall₂ R l₁ l₂)
    (hx : ∀ a b, R a b → (a = x₁ ↔ b = x₂)) :
    (l₂.getLast? == some x₂) = (l₁.getLast? == some x₁) := by
  rw [← List.head?_reverse, ← List.head?_reverse]
  exact head?_beq_of_forall₂ (List.forall₂_reverse_iff.2 h) hx

theorem isEmpty_eq_of_forall₂ (h : List.Forall₂ R l₁ l₂) : l₂.isEmpty = l₁.isEmpty := by
  cases h <;> rfl

end Lists

/-- Whether a simple selector, apart from those in its argument, asks for the whole text of
an element. -/
def Simple.asksWhole : Simple → Bool
  | .contains .whole _ | .finds .whole _ => true
  | _ => false

namespace Tree.MergeAlike

variable {t₁ t₂ : Tree} {x₁ x₂ : NodeId} {e e₁ e₂ : Element}

/-- The elements before a pair are pairs. -/
theorem precedingElements (h : t₁.MergeAlike t₂) (hx : t₁.Paired t₂ x₁ x₂) :
    List.Forall₂ (t₁.Paired t₂) (t₁.precedingElements x₁) (t₂.precedingElements x₂) := by
  rw [h.forest₁.precedingElements_eq, h.forest₂.precedingElements_eq, List.forall₂_reverse_iff]
  exact h.elementsBefore hx

/-- A pair of elements has a pair of parents. -/
theorem exists_parents (h : t₁.MergeAlike t₂) (hx : t₁.Paired t₂ x₁ x₂)
    (he : t₁.element? x₁ = some e) :
    ∃ p₁ p₂, t₁.Paired t₂ p₁ p₂ ∧ t₁.parent? x₁ = some p₁ ∧ t₂.parent? x₂ = some p₂ := by
  rcases hx.root_or_child h.forest₁ h.forest₂ with ⟨rfl, -⟩ | ⟨p₁, p₂, hp, hp₁, hp₂, -⟩
  · rw [Tree.element?, h.document₁] at he
    cases he
  · exact ⟨p₁, p₂, hp, hp₁, hp₂⟩

theorem isOfType (h : t₁.MergeAlike t₂) (hx : t₁.Paired t₂ x₁ x₂)
    (htag : e₂.tagName = e₁.tagName) : t₂.isOfType e₂ x₂ = t₁.isOfType e₁ x₁ := by
  rw [Tree.isOfType, Tree.isOfType, htag]
  exact any_eq_of_rel (h.element? hx) fun _ _ hsame => hsame.isNamed_eq _

/-- **Structural conditions** hold of pairs alike. -/
theorem structural_keptAlong (h : t₁.MergeAlike t₂) (test : StructuralTest) :
    (Simple.structural test).KeptAlong t₁ t₂ (t₁.Paired t₂) := by
  intro x₁ x₂ e₁ e₂ hx he₁ he₂
  obtain ⟨p₁, p₂, hp, hp₁, hp₂⟩ := h.exists_parents hx he₁
  have htag : e₂.tagName = e₁.tagName := by
    have hsame := h.element? hx
    rw [he₁, he₂] at hsame
    cases hsame with
    | some hsame => exact hsame.tagName
  have hchildren := h.elementChildren hp
  have heq : ∀ y₁ y₂, t₁.Paired t₂ y₁ y₂ → (y₁ = x₁ ↔ y₂ = x₂) :=
    fun _ _ hy => hy.eq_iff h.forest₁ h.forest₂ hx
  have htype : ∀ y₁ y₂, t₁.Paired t₂ y₁ y₂ → t₂.isOfType e₂ y₂ = t₁.isOfType e₁ y₁ :=
    fun _ _ hy => h.isOfType hy htag
  cases test with
  | root => exact head?_beq_of_forall₂ (h.elementChildren .root) heq
  | firstChild => exact isEmpty_eq_of_forall₂ (h.precedingElements hx)
  | lastChild =>
      simp only [StructuralTest.holds, hp₁, hp₂, Option.any_some]
      exact getLast?_beq_of_forall₂ hchildren heq
  | onlyChild =>
      simp only [StructuralTest.holds, hp₁, hp₂, Option.any_some, hchildren.length_eq]
  | firstOfType =>
      simp only [StructuralTest.holds]
      rw [any_eq_of_forall₂ (h.precedingElements hx) fun y₁ _ y₂ hy => htype y₁ y₂ hy]
  | lastOfType =>
      simp only [StructuralTest.holds, hp₁, hp₂, Option.any_some]
      have htyped := forall₂_filter hchildren fun y₁ _ y₂ hy => htype y₁ y₂ hy
      exact getLast?_beq_of_forall₂ htyped heq
  | empty => exact (h.of_paired hx).2.all_isNothing

theorem preservesWhitespace (h : t₁.MergeAlike t₂) (hx : t₁.Paired t₂ x₁ x₂) :
    t₂.preservesWhitespace x₂ = t₁.preservesWhitespace x₁ := by
  have helement : ∀ y₁ y₂, t₁.Paired t₂ y₁ y₂ →
      (t₂.element? y₂).any (·.preservesWhitespace) =
        (t₁.element? y₁).any (·.preservesWhitespace) :=
    fun _ _ hy => any_eq_of_rel (h.element? hy) fun _ _ hsame => hsame.preservesWhitespace_eq
  rcases hx.root_or_child h.forest₁ h.forest₂ with ⟨rfl, rfl⟩ | ⟨p₁, p₂, hp, hp₁, hp₂, -⟩
  · simp [Tree.preservesWhitespace, h.forest₁.parent?_root, h.forest₂.parent?_root,
      helement _ _ hx]
  · simp [Tree.preservesWhitespace, hp₁, hp₂, helement _ _ hx, helement _ _ hp]

/-- **Owned text** is the same in pairs. -/
theorem ownText (h : t₁.MergeAlike t₂) (hx : t₁.Paired t₂ x₁ x₂) :
    t₂.ownText x₂ = t₁.ownText x₁ := by
  rw [Tree.ownText, Tree.ownText, h.preservesWhitespace hx, (h.of_paired hx).2.ownPieces]

/-- What a simple selector reads is the same in pairs, unless it asks for the whole text. -/
theorem keptAlong (h : t₁.MergeAlike t₂) {s : Simple} (hs : s.asksWhole = false) :
    s.KeptAlong t₁ t₂ (t₁.Paired t₂) := by
  cases s with
  | structural test => exact h.structural_keptAlong test
  | contains extent text =>
      cases extent with
      | own => exact fun _ _ hx => h.ownText hx
      | whole => cases hs
  | finds extent pattern =>
      cases extent with
      | own => exact fun _ _ hx => h.ownText hx
      | whole => cases hs
  | _ => trivial

end Tree.MergeAlike

namespace Tree

variable {t₁ t₂ : Tree}

/-- **Comments and cuts in text are invisible.**  Take two lists of descriptions that are the
same without comments and with one text for each run of texts, and the trees that they
build.  The elements of the trees correspond one by one in document order.  If no element
has two attributes whose names differ in case only, then below counterparts a list of
selectors that asks at no depth for the whole text of an element selects counterparts, in
the same order. -/
theorem select_of_mergedAll {log₁ log₂ : WarningLog} {ds₁ ds₂ : List Description}
    (hmerged : List.Forall₂ Description.Same (mergedAll ds₁) (mergedAll ds₂))
    (h₁ : (Tree.build log₁ ds₁).2 = .ok t₁) (h₂ : (Tree.build log₂ ds₂).2 = .ok t₂) :
    List.Forall₂ (fun x₁ x₂ => Option.Rel Element.Same (t₁.element? x₁) (t₂.element? x₂))
      t₁.elements t₂.elements ∧
    (t₁.NamesApart → ∀ (engine : PatternEngine) (list : SelectorList),
      (∀ s ∈ Complex.allOccurring list, s.asksWhole = false) →
      ∀ s₁ s₂, t₁.Counterparts t₂ s₁ s₂ →
        List.Forall₂ (t₁.Counterparts t₂) (t₁.select engine s₁ list).ids
          (t₂.select engine s₂ list).ids) := by
  have h := mergeAlike_of_build h₁ h₂ hmerged
  refine ⟨h.elements.imp fun _ _ hx => h.element? hx,
    fun hnames engine list hlist s₁ s₂ hs => ?_⟩
  have hselected := (h.alike hnames).select engine (h.counterparts_iff.1 hs)
    fun s hoccurs => h.keptAlong (hlist s hoccurs)
  exact hselected.imp fun _ _ hx => h.counterparts_iff.2 hx

/-- Two items of a list are found behind a text cut in two and between comments, where they
have other ids than without those and the attributes of the list another order. -/
theorem select_of_mergedAll_list :
    let item (below : List Description) : Description := .element "li" .empty below
    let cut : List Description := [.element "ul" (.ofList [("ID", "a"), ("lang", "de")])
      [.text "a ", .comment "c", .text "b", item [.comment ""], .comment "c",
        item [.text " ", .text " "]]]
    let whole : List Description := [.element "ul" (.ofList [("lang", "de"), ("ID", "a")])
      [.text "a b", item [], item [.text "  "]]]
    let list : SelectorList := [.linked [.type "li", .structural .empty] .child
      (.only [.id "A", .contains .own "a b"])]
    List.Forall₂ Description.Same (mergedAll cut) (mergedAll whole) ∧
      (∀ s ∈ Complex.allOccurring list, s.asksWhole = false) ∧
      ∃ t₁ t₂, (Tree.build .empty cut).2 = .ok t₁ ∧ (Tree.build .empty whole).2 = .ok t₂ ∧
        t₁.NamesApart ∧ (t₁.select ⟨fun _ => .error ""⟩ root list).ids = [5, 8] ∧
        List.Forall₂ (t₁.Counterparts t₂) [5, 8]
          (t₂.select ⟨fun _ => .error ""⟩ root list).ids := by
  intro item cut whole list
  have hitem : ∀ below, List.Forall₂ Description.Same below below →
      (item below).Same (item below) := fun _ h => .element (List.Perm.refl _) h
  have hmerged : List.Forall₂ Description.Same (mergedAll cut) (mergedAll whole) :=
    .cons (.element (by decide) (.cons (.text _) (.cons (hitem [] .nil)
      (.cons (hitem [.text "  "] (.cons (.text _) .nil)) .nil)))) .nil
  have hlist : ∀ s ∈ Complex.allOccurring list, s.asksWhole = false := by decide
  obtain ⟨t₁, h₁, -⟩ := exists_build .empty cut (by decide +kernel)
  obtain ⟨t₂, h₂, -⟩ := exists_build .empty whole (by decide +kernel)
  have hnames : t₁.NamesApart := by
    obtain rfl := build_eq_ok h₁
    decide +kernel
  have hids : (t₁.select ⟨fun _ => .error ""⟩ root list).ids = [5, 8] := by
    obtain rfl := build_eq_ok h₁
    decide +kernel
  refine ⟨hmerged, hlist, t₁, t₂, h₁, h₂, hnames, hids, ?_⟩
  rw [← hids]
  exact (select_of_mergedAll hmerged h₁ h₂).2 hnames _ list hlist root root ⟨0, rfl, rfl⟩

/-- With an identifier in two spellings it depends on the order of the attributes which of
the two counts, even if nothing is merged. -/
theorem not_counterparts_of_spellings :
    let ds₁ : List Description := [.element "p" (.ofList [("ID", "a"), ("Id", "b")]) []]
    let ds₂ : List Description := [.element "p" (.ofList [("Id", "b"), ("ID", "a")]) []]
    let list : SelectorList := [.only [.id "a"]]
    List.Forall₂ Description.Same (mergedAll ds₁) (mergedAll ds₂) ∧
      (∀ s ∈ Complex.allOccurring list, s.asksWhole = false) ∧
      ∃ t₁ t₂, (Tree.build .empty ds₁).2 = .ok t₁ ∧ (Tree.build .empty ds₂).2 = .ok t₂ ∧
        t₁.Counterparts t₂ root root ∧
        ¬ List.Forall₂ (t₁.Counterparts t₂) (t₁.select ⟨fun _ => .error ""⟩ root list).ids
          (t₂.select ⟨fun _ => .error ""⟩ root list).ids := by
  intro ds₁ ds₂ list
  obtain ⟨t₁, h₁, -⟩ := exists_build .empty ds₁ (by decide +kernel)
  obtain ⟨t₂, h₂, -⟩ := exists_build .empty ds₂ (by decide +kernel)
  obtain rfl := build_eq_ok h₁
  obtain rfl := build_eq_ok h₂
  refine ⟨.cons (.element (by decide) .nil) .nil, by decide, _, _, h₁, h₂, ⟨0, rfl, rfl⟩, ?_⟩
  exact fun hselected => absurd hselected.length_eq (by decide +kernel)

end Tree

end MarkupQuery
