import MarkupQuery.Proofs.Building
import MarkupQuery.Proofs.Subqueries
import MarkupQuery.Proofs.Trimming

/-!
# Places among siblings

A structural condition asks for the place of an element among all its siblings, or among
those with the same tag name.  It looks back along the sibling links or goes through the
children of the parent, and compares two tags.  An ordinal counts what a selector passes,
and compares a tag with the name in the selector, without the blanks around the tag.  In a
tree that was built no tag name has blanks around it, and so both ask for the same places.

* `Tree.TagsTrimmed`, `tagsTrimmed_of_build` — no tag name has blanks around it;
* `Forest.select_first` — the first place, asked for by a condition and by an ordinal;
* `Forest.select_last` — the last place, for each parent;
* `Forest.onlyChild_holds`, `Forest.select_onlyChild` — the place that is both;
* `Tree.select_places_of_build` — all of them, in a tree that was built.
-/

namespace MarkupQuery

open MarkupQuery.Tree

/-! ### Tag names without blanks -/

namespace Tree

/-- No tag name has blanks around it. -/
def TagsTrimmed (t : Tree) : Prop :=
  ∀ x e, t.element? x = some e → Text.trimmed e.tagName = e.tagName

end Tree

/-- Every id among those of described nodes is that of one. -/
theorem Description.LaidAll.exists_kind {t : Tree} {id : Nat} {ds : List Description}
    (h : LaidAll t id ds) {x : Nat} (hle : id ≤ x) (hlt : x < id + sizeAll ds) :
    ∃ d : Description, t.kind? x = some d.kind := by
  induction ds using induction_all generalizing id with
  | nil =>
      rw [sizeAll] at hlt
      omega
  | cons d rest ihchildren ihrest =>
      obtain ⟨hfirst, hrest⟩ := h
      obtain ⟨hkind, -, hbelow⟩ := laid_iff.1 hfirst
      have hsize : sizeAll (d :: rest) = d.size + sizeAll rest := rfl
      have hd : d.size = sizeAll d.children + 1 := d.size_eq
      by_cases hx : x = id
      · exact ⟨d, hx ▸ hkind⟩
      by_cases hfront : x < id + d.size
      · exact ihchildren hbelow (by omega) (by omega)
      · exact ihrest hrest (by omega) (by omega)

/-- Building trims the tag names. -/
theorem Tree.tagsTrimmed_of_build {t : Tree} {log : WarningLog} {nodes : List Description}
    (h : (Tree.build log nodes).2 = .ok t) : t.TagsTrimmed := by
  intro x e he
  have hx : t.isElement x = true := by rw [isElement, he]; rfl
  obtain ⟨hpos, hlt⟩ := pos_of_isElement_of_build h hx
  obtain ⟨hsize, -, -, hlaid⟩ := laid_of_build h
  obtain ⟨d, hkind⟩ := hlaid.exists_kind (x := x) (by omega) (by omega)
  cases d with
  | element tag attributes children =>
      rw [element?, hkind] at he
      cases he
      exact Text.trimmed_trimmed tag
  | text content =>
      rw [element?, hkind] at he
      cases he
  | comment content =>
      rw [element?, hkind] at he
      cases he

/-! ### What is asked of an element -/

variable {m : Matcher} {x : NodeId} {e : Element} {name : String}

namespace Simple

theorem test_universal : Simple.universal.test m x = m.tree.isElement x := by
  simp [test, condition, Matcher.onElement, isElement]

theorem test_structural (he : m.tree.element? x = some e) (test : StructuralTest) :
    (Simple.structural test).test m x = test.holds m.tree e x := by
  simp [Simple.test, condition, Matcher.onElement, he]

theorem test_type (ht : m.tree.TagsTrimmed) :
    (Simple.type name).test m x = (m.tree.element? x).any (·.isNamed name) := by
  cases he : m.tree.element? x with
  | none => simp [test, condition, Matcher.onElement, he]
  | some e => simp [test, condition, Matcher.onElement, he, ht x e he, Element.isNamed]

end Simple

/-- **Two tags and a name.**  To have the tag of an element that has a name is to have the
name. -/
theorem Tree.isOfType_eq_test (ht : m.tree.TagsTrimmed) (he : m.tree.element? x = some e)
    (hx : (Simple.type name).test m x = true) :
    m.tree.isOfType e = (Simple.type name).test m := by
  rw [Simple.test_type ht, he, Option.any_some, Element.isNamed, Text.sameAsciiCaseless,
    beq_iff_eq] at hx
  funext y
  simp only [isOfType, Simple.test_type ht, Element.isNamed, Text.sameAsciiCaseless, hx]

/-! ### First and last places -/

/-- In a list without repetition the last member is found once. -/
theorem filter_getLast? {α : Type} [BEq α] [LawfulBEq α] {l : List α} (h : l.Nodup) :
    l.filter (fun a => l.getLast? == some a) = l.getLast?.toList := by
  rcases List.eq_nil_or_concat l with rfl | ⟨front, last, rfl⟩
  · rfl
  · have hnot : last ∉ front := by
      rw [List.concat_eq_append, List.nodup_append] at h
      exact fun hlast => h.2.2 last hlast last List.mem_cons_self rfl
    have hfront : front.filter (fun a => some last == some a) = [] := by
      rw [List.filter_eq_nil_iff]
      intro a ha heq
      obtain rfl : last = a := by simpa using heq
      exact hnot ha
    rw [List.concat_eq_append, List.getLast?_concat, List.filter_append, hfront]
    simp

namespace Tree

/-- Those of the listed nodes that have this parent. -/
def childrenAmong (t : Tree) (ids : List NodeId) (p : NodeId) : List NodeId :=
  ids.filter fun y => t.parent? y == some p

variable {t : Tree} {engine : PatternEngine} {scope p : NodeId} {s : Simple}

/-- **The first place** among what a simple selector passes is that with none of it
before. -/
theorem Forest.select_eq_zero (h : t.Forest) (hs : s.isOrdinal = false) :
    (t.select engine scope [.only [s, .ordinal ⟨.eq, 0⟩]]).ids =
      (t.select engine scope [.only [s]]).ids.filter fun x =>
        !(t.precedingElements x).any (s.test ⟨t, engine, scope⟩) := by
  have hpasses : (Complex.only [s]).accepts ⟨t, engine, scope⟩ = s.test ⟨t, engine, scope⟩ :=
    funext fun _ => Complex.accepts_only_singleton hs
  simp only [select, Matcher.selectAll, List.filter_filter, Complex.anyAccepts, Bool.or_false]
  refine List.filter_congr fun x hx => ?_
  have hne : x ≠ scope := h.ne_of_below (h.mem_descendants.1 hx)
  have hrank : (Ordinal.mk .eq 0).accepts
      (Matcher.rank ⟨t, engine, scope⟩ (s.test ⟨t, engine, scope⟩) x) =
        !(t.precedingElements x).any (s.test ⟨t, engine, scope⟩) := by
    rw [Matcher.rank, if_neg hne, Bool.eq_iff_iff]
    simp [Ordinal.accepts, List.countP_eq_zero]
  have haccepts := Complex.accepts_withOrdinals (m := ⟨t, engine, scope⟩) (x := x)
    (c := .only [s]) (List.forall_mem_singleton.2 hs) [⟨.eq, 0⟩]
  rw [List.all_cons, List.all_nil, Bool.and_true, hpasses, hrank] at haccepts
  rw [hpasses]
  refine (congrArg (t.isElement x && ·) haccepts).trans ?_
  ac_rfl

theorem Forest.mem_select_singleton (h : t.Forest) (hs : s.isOrdinal = false) :
    x ∈ (t.select engine scope [.only [s]]).ids ↔
      t.isElement x = true ∧ t.Below x scope ∧ s.test ⟨t, engine, scope⟩ x = true := by
  rw [h.mem_select]
  refine and_congr_right fun _ => and_congr_right fun hx => ?_
  rw [h.accepts_singleton hx, Complex.accepts_only_singleton hs]

/-- **A condition on the first place** asks what the ordinal asks, if it looks for nothing
before an element that the simple selector passes. -/
theorem Forest.select_first (h : t.Forest) (hs : s.isOrdinal = false) {test : StructuralTest}
    (htest : ∀ x e, t.element? x = some e → s.test ⟨t, engine, scope⟩ x = true →
      test.holds t e x = !(t.precedingElements x).any (s.test ⟨t, engine, scope⟩)) :
    (t.select engine scope [.only [s, .structural test]]).ids =
      (t.select engine scope [.only [s, .ordinal ⟨.eq, 0⟩]]).ids := by
  rw [h.select_eq_zero hs]
  refine (select_withSimple (s := .structural test) rfl (.only [s])).trans ?_
  refine List.filter_congr fun x hx => ?_
  obtain ⟨helement, -, hpasses⟩ := (h.mem_select_singleton hs).1 hx
  obtain ⟨e, he⟩ := Option.isSome_iff_exists.1 helement
  rw [Simple.test_structural (m := ⟨t, engine, scope⟩) he, htest x e he hpasses]

/-- What is selected with one parent are its element children that the simple selector
passes. -/
theorem Forest.childrenAmong_select (h : t.Forest) (hs : s.isOrdinal = false)
    (hp : t.Within p scope) :
    t.childrenAmong (t.select engine scope [.only [s]]).ids p =
      (t.elementChildren p).filter (s.test ⟨t, engine, scope⟩) := by
  rw [childrenAmong, h.filter_select hp, elementChildren, List.filter_filter]
  refine List.filter_congr fun y _ => ?_
  rw [Complex.accepts_only_singleton hs, Bool.and_comm]

/-- **A condition on the last place** leaves one of what the simple selector passes to each
parent, if it looks for the last child that the simple selector passes. -/
theorem Forest.select_last (h : t.Forest) (hs : s.isOrdinal = false) {test : StructuralTest}
    (htest : ∀ x e, t.element? x = some e → s.test ⟨t, engine, scope⟩ x = true →
      test.holds t e x = (t.parent? x).any fun p =>
        ((t.elementChildren p).filter (s.test ⟨t, engine, scope⟩)).getLast? == some x)
    (p : NodeId) :
    t.childrenAmong (t.select engine scope [.only [s, .structural test]]).ids p =
      (t.childrenAmong (t.select engine scope [.only [s]]).ids p).getLast?.toList := by
  have hselect : (t.select engine scope [.only [s, .structural test]]).ids =
      (t.select engine scope [.only [s]]).ids.filter
        ((Simple.structural test).test ⟨t, engine, scope⟩) := select_withSimple rfl (.only [s])
  have hnodup : (t.childrenAmong (t.select engine scope [.only [s]]).ids p).Nodup :=
    h.nodup_select.filter _
  rw [← filter_getLast? hnodup]
  rw [hselect, childrenAmong, List.filter_comm]
  refine List.filter_congr fun x hx => ?_
  obtain ⟨hselected, hparent⟩ := List.mem_filter.1 hx
  obtain ⟨helement, hbelow, hpasses⟩ := (h.mem_select_singleton hs).1 hselected
  obtain ⟨e, he⟩ := Option.isSome_iff_exists.1 helement
  have hparent : t.parent? x = some p := beq_iff_eq.1 hparent
  rw [Simple.test_structural (m := ⟨t, engine, scope⟩) he, htest x e he hpasses, hparent,
    Option.any_some, h.childrenAmong_select hs (hbelow.parent_within hparent)]

/-- All that stands before a node, or among the element children of one, is an element. -/
theorem firstChild_holds {e : Element} :
    StructuralTest.firstChild.holds t e x = !(t.precedingElements x).any t.isElement := by
  rw [StructuralTest.holds, precedingElements, Bool.eq_iff_iff]
  simp [List.isEmpty_iff]

theorem lastChild_holds {e : Element} :
    StructuralTest.lastChild.holds t e x = (t.parent? x).any fun p =>
      ((t.elementChildren p).filter t.isElement).getLast? == some x := by
  simp only [StructuralTest.holds, elementChildren, List.filter_filter, Bool.and_self]

/-- With or without the star before it, a simple selector selects the same. -/
theorem select_universal (hs : s.isOrdinal = false) :
    (t.select engine scope [.only [.universal, s]]).ids =
      (t.select engine scope [.only [s]]).ids := by
  have huniversal : (t.select engine scope [.only [.universal]]).ids =
      (t.select engine scope [.only []]).ids := by
    simp only [select, Matcher.selectAll, Complex.anyAccepts, Bool.or_false]
    refine List.filter_congr fun x _ => ?_
    rw [Complex.accepts_only_singleton rfl, Simple.test_universal, Bool.and_self]
    simp [Complex.accepts, Simple.conditions, Matcher.satisfies]
  refine (select_withSimple hs (.only [.universal])).trans ?_
  rw [huniversal]
  exact (select_withSimple hs (.only [])).symm

/-! ### The only child -/

/-- The element children of a parent, with one of them singled out. -/
theorem Forest.exists_elementChildren_eq (h : t.Forest) (hx : t.isElement x = true)
    (hp : t.parent? x = some p) : ∃ after, x ∉ after ∧
      t.elementChildren p = (t.precedingElements x).reverse ++ x :: after := by
  obtain ⟨before, after, hsplit⟩ := List.append_of_mem (h.mem_children.2 hp)
  have hnodup := h.nodup_children p
  rw [hsplit, List.nodup_append, List.nodup_cons] at hnodup
  refine ⟨after.filter t.isElement, fun hmem => hnodup.2.1.1 (List.mem_filter.1 hmem).1, ?_⟩
  rw [precedingElements, h.precedingSiblings_eq hsplit, elementChildren, hsplit,
    List.filter_append, List.filter_cons_of_pos hx, List.filter_reverse, List.reverse_reverse]

/-- **The only child** is the first one and the last one. -/
theorem Forest.onlyChild_holds (h : t.Forest) {e : Element} (hx : t.isElement x = true) :
    StructuralTest.onlyChild.holds t e x =
      (StructuralTest.firstChild.holds t e x && StructuralTest.lastChild.holds t e x) := by
  cases hp : t.parent? x with
  | none => simp [StructuralTest.holds, hp]
  | some p =>
      obtain ⟨after, hnot, hsplit⟩ := h.exists_elementChildren_eq hx hp
      have hlast : (t.elementChildren p).getLast? = some x ↔ after = [] := by
        rw [hsplit, List.getLast?_append_cons]
        cases after with
        | nil => simp
        | cons y rest =>
            rw [List.getLast?_cons_cons]
            refine ⟨fun hlast => absurd (List.mem_of_getLast? hlast) hnot, fun hnil => ?_⟩
            cases hnil
      rw [Bool.eq_iff_iff]
      simp only [StructuralTest.holds, hp, Option.any_some, Bool.and_eq_true, beq_iff_eq, hlast,
        List.isEmpty_iff]
      rw [hsplit, List.length_append, List.length_cons, List.length_reverse,
        ← List.length_eq_zero_iff, ← List.length_eq_zero_iff]
      omega

/-- **What is selected as an only child** is what is selected as the first child and as the
last one. -/
theorem Forest.select_onlyChild (h : t.Forest) :
    (t.select engine scope [.only [.structural .onlyChild]]).ids =
      (t.select engine scope [.only [.structural .firstChild]]).ids.filter
        (t.select engine scope [.only [.structural .lastChild]]).ids.contains := by
  -- A condition alone filters what the empty compound selects, which is every element.
  have hselect : ∀ test, (t.select engine scope [.only [.structural test]]).ids =
      (t.select engine scope [.only []]).ids.filter
        ((Simple.structural test).test ⟨t, engine, scope⟩) :=
    fun test => select_withSimple rfl (.only [])
  rw [hselect .onlyChild, hselect .firstChild, List.filter_filter]
  refine List.filter_congr fun x hx => ?_
  have helement : t.isElement x = true := (h.mem_select.1 hx).1
  obtain ⟨e, he⟩ := Option.isSome_iff_exists.1 helement
  have htest := Simple.test_structural (m := ⟨t, engine, scope⟩) he
  have hlast : (t.select engine scope [.only [.structural .lastChild]]).ids.contains x =
      StructuralTest.lastChild.holds t e x := by
    rw [hselect, List.contains_eq_mem, Bool.eq_iff_iff, decide_eq_true_iff, List.mem_filter,
      and_iff_right hx, htest]
  rw [htest, htest, hlast, h.onlyChild_holds helement, Bool.and_comm]

/-! ### Trees that were built -/

variable {log : WarningLog} {nodes : List Description}

/-- **Structural conditions ask for places.**  In a tree that was built the first of its type
is the first that the type name passes, and the first child is the first that the star
passes.  The last of its type, and the last child, are for each parent the last in document
order of what the type name passes, or the star.  The only child is the first and the last
one. -/
theorem select_places_of_build (h : (Tree.build log nodes).2 = .ok t) (engine : PatternEngine)
    (scope : NodeId) (name : String) :
    let select := fun compound => (t.select engine scope [.only compound]).ids
    select [.type name, .structural .firstOfType] = select [.type name, .ordinal ⟨.eq, 0⟩] ∧
    select [.structural .firstChild] = select [.universal, .ordinal ⟨.eq, 0⟩] ∧
    (∀ compound, (select compound).Pairwise t.Precedes) ∧
    (∀ p, t.childrenAmong (select [.type name, .structural .lastOfType]) p =
      (t.childrenAmong (select [.type name]) p).getLast?.toList) ∧
    (∀ p, t.childrenAmong (select [.structural .lastChild]) p =
      (t.childrenAmong (select [.universal]) p).getLast?.toList) ∧
    select [.structural .onlyChild] =
      (select [.structural .firstChild]).filter (select [.structural .lastChild]).contains := by
  intro select
  have hforest : t.Forest := (Reachable.build log nodes h).forest
  have htrimmed : t.TagsTrimmed := tagsTrimmed_of_build h
  have hstar : Simple.universal.test ⟨t, engine, scope⟩ = t.isElement :=
    funext fun _ => Simple.test_universal
  refine ⟨?_, ?_, fun _ => hforest.pairwise_select, fun p => ?_, fun p => ?_,
    hforest.select_onlyChild⟩
  · refine hforest.select_first rfl fun x e he hx => ?_
    rw [StructuralTest.holds, isOfType_eq_test (m := ⟨t, engine, scope⟩) htrimmed he hx]
  · refine (select_universal rfl).symm.trans (hforest.select_first rfl fun x e _ _ => ?_)
    rw [hstar, firstChild_holds]
  · refine hforest.select_last rfl (fun x e he hx => ?_) p
    rw [StructuralTest.holds, isOfType_eq_test (m := ⟨t, engine, scope⟩) htrimmed he hx]
  · have hlast : select [.universal, .structural .lastChild] = select [.structural .lastChild] :=
      select_universal rfl
    rw [← hlast]
    refine hforest.select_last rfl (fun x e _ _ => ?_) p
    rw [hstar, lastChild_holds]

/-- A list with a text before its items: the places go by element, and in the inner list and
the outer one apart. -/
theorem select_places_of_build_items :
    let item (content : List Description) : Description := .element " li" .empty content
    let nodes : List Description := [.element "ul" .empty
      [.text "a", .element "p" .empty [],
        item [.element "ul" .empty [item [], .comment "b"]], item [], .text "c"]]
    ∃ t, (Tree.build .empty nodes).2 = .ok t ∧
      (t.select ⟨fun _ => .error ""⟩ root [.only [.type "LI", .structural .firstOfType]]).ids =
        [4, 6] ∧
      t.childrenAmong (t.select ⟨fun _ => .error ""⟩ root
        [.only [.type "LI", .structural .lastOfType]]).ids 1 = [8] ∧
      (t.select ⟨fun _ => .error ""⟩ root [.only [.structural .onlyChild]]).ids = [1, 5, 6] := by
  intro item nodes
  obtain ⟨t, ht, -⟩ := exists_build .empty nodes (by decide +kernel)
  obtain ⟨hfirst, -, -, hlast, -, honly⟩ :=
    select_places_of_build ht ⟨fun _ => .error ""⟩ root "LI"
  obtain rfl := build_eq_ok ht
  exact ⟨_, ht, hfirst.trans (by decide +kernel), (hlast 1).trans (by decide +kernel),
    honly.trans (by decide +kernel)⟩

end Tree

end MarkupQuery
