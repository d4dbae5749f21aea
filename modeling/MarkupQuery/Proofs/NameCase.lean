import MarkupQuery.Proofs.Attributes
import MarkupQuery.Proofs.LowerCase
import MarkupQuery.Selection

/-!
# Names in any case

Type names, identifiers, classes and the names of attributes mean the same in upper and in
lower case, at every depth of a selector.  The look-up of an attribute prefers the exact
spelling of its name, so this holds as long as no element has two attributes whose names
differ in case only: then the spelling finds what is found without it.  The start of an
attribute name is no such name.  It is compared with names in lower case, as it stands.

* `Simple.lowerNames`, `Complex.lowerNames` — the names of a selector in lower case, which
  leaves its shape;
* `Element.attribute?_asciiLowered` — the look-up of an attribute ignores case, too;
* `Simple.condition_lowerNames`, `Complex.accepts_lowerNames` — the same is asked;
* `Tree.select_of_sameNames` — selectors that differ in the case of names.
-/

namespace MarkupQuery

open MarkupQuery.Text

/-! ### Selectors with their names in lower case -/

/-- A condition on attributes with the name of the attribute in lower case. -/
def AttributeTest.lowerName : AttributeTest → AttributeTest
  | .present name => .present (asciiLowered name)
  | .nameStart start => .nameStart start
  | .value op name expected => .value op (asciiLowered name) expected
  | .pattern name sought => .pattern (asciiLowered name) sought

mutual

/-- A simple selector with its names in lower case, those in its argument included. -/
def Simple.lowerNames : Simple → Simple
  | .type name => .type (asciiLowered name)
  | .id name => .id (asciiLowered name)
  | .ofClass name => .ofClass (asciiLowered name)
  | .attribute test => .attribute test.lowerName
  | .has list => .has (Complex.lowerNamesAll list)
  | .not list => .not (Complex.lowerNamesAll list)
  | s => s

/-- A compound with its names in lower case. -/
def Simple.lowerNamesAll : List Simple → List Simple
  | [] => []
  | s :: rest => s.lowerNames :: Simple.lowerNamesAll rest

/-- A chain with its names in lower case. -/
def Complex.lowerNames : Complex → Complex
  | .only compound => .only (Simple.lowerNamesAll compound)
  | .linked compound via left => .linked (Simple.lowerNamesAll compound) via left.lowerNames

/-- A list of alternatives with their names in lower case. -/
def Complex.lowerNamesAll : List Complex → List Complex
  | [] => []
  | c :: rest => c.lowerNames :: Complex.lowerNamesAll rest

end

/-! ### Looking up attributes -/

theorem sameAsciiCaseless_asciiLowered (a b : String) :
    sameAsciiCaseless a (asciiLowered b) = sameAsciiCaseless a b := by
  rw [sameAsciiCaseless, sameAsciiCaseless, asciiLowered_asciiLowered]

/-- A name in lower case finds the same attribute. -/
theorem Element.attribute?_asciiLowered {e : Element} (h : e.attributes.NamesApart)
    (name : String) : e.attribute? (asciiLowered name) = e.attribute? name := by
  simp only [attribute?, Attributes.find?_eq_of_namesApart h, sameAsciiCaseless_asciiLowered]

theorem AttributeTest.holds_lowerName {e : Element} (h : e.attributes.NamesApart)
    (engine : PatternEngine) (test : AttributeTest) :
    test.lowerName.holds engine e = test.holds engine e := by
  cases test <;>
    simp only [lowerName, holds, Element.hasAttribute, Element.attribute?_asciiLowered h]

/-! ### Matching -/

/-- The same is asked of the elements of a tree. -/
theorem Matcher.onElement_congr {m : Matcher} {p q : NodeId → Element → Bool}
    (h : ∀ x e, m.tree.element? x = some e → p x e = q x e) : m.onElement p = m.onElement q := by
  unfold onElement
  congr 1
  funext x
  cases he : m.tree.element? x with
  | none => rfl
  | some e => exact h x e he

mutual

/-- **A simple selector asks the same** with its names in lower case. -/
theorem Simple.condition_lowerNames : ∀ (s : Simple) (m : Matcher), m.tree.NamesApart →
    s.lowerNames.condition m = s.condition m
  | .type name, m, _ => by
    simp only [Simple.lowerNames, Simple.condition, sameAsciiCaseless_asciiLowered]
  | .id name, m, _ => by
    simp only [Simple.lowerNames, Simple.condition, sameAsciiCaseless_asciiLowered]
  | .ofClass name, m, _ => by
    simp only [Simple.lowerNames, Simple.condition, Element.hasClass,
      sameAsciiCaseless_asciiLowered]
  | .attribute test, m, h => by
    simp only [Simple.lowerNames, Simple.condition]
    exact Matcher.onElement_congr fun x e he =>
      AttributeTest.holds_lowerName (h x e he) m.engine test
  | .has list, m, h => by
    -- The argument is asked in another scope, for which the tree is the same.
    have hlist : ∀ x, Complex.anyAccepts { m with scope := x } (Complex.lowerNamesAll list) =
        Complex.anyAccepts { m with scope := x } list :=
      fun x => Complex.anyAccepts_lowerNames list { m with scope := x } h
    simp only [Simple.lowerNames, Simple.condition, hlist]
  | .not list, m, h => by
    simp only [Simple.lowerNames, Simple.condition, Complex.anyAccepts_lowerNames list m h]
  | .universal, _, _ | .scope, _, _ | .structural _, _, _ | .contains _ _, _, _
  | .finds _ _, _, _ | .ordinal _, _, _ => rfl

theorem Simple.conditions_lowerNames : ∀ (compound : List Simple) (m : Matcher),
    m.tree.NamesApart →
    Simple.conditions m (Simple.lowerNamesAll compound) = Simple.conditions m compound
  | [], _, _ => rfl
  | s :: rest, m, h => by
    rw [Simple.lowerNamesAll, Simple.conditions, Simple.conditions,
      Simple.condition_lowerNames s m h, Simple.conditions_lowerNames rest m h]

/-- **A chain accepts the same** with its names in lower case. -/
theorem Complex.accepts_lowerNames : ∀ (c : Complex) (m : Matcher), m.tree.NamesApart →
    c.lowerNames.accepts m = c.accepts m
  | .only compound, m, h => by
    funext x
    rw [Complex.lowerNames, Complex.accepts, Complex.accepts,
      Simple.conditions_lowerNames compound m h]
  | .linked compound via left, m, h => by
    funext x
    rw [Complex.lowerNames, Complex.accepts, Complex.accepts,
      Simple.conditions_lowerNames compound m h, Complex.accepts_lowerNames left m h]

theorem Complex.anyAccepts_lowerNames : ∀ (list : List Complex) (m : Matcher),
    m.tree.NamesApart →
    Complex.anyAccepts m (Complex.lowerNamesAll list) = Complex.anyAccepts m list
  | [], _, _ => rfl
  | c :: rest, m, h => by
    funext x
    rw [Complex.lowerNamesAll, Complex.anyAccepts, Complex.anyAccepts,
      Complex.accepts_lowerNames c m h, Complex.anyAccepts_lowerNames rest m h]

end

/-! ### Selections and tests -/

namespace Tree

variable {t : Tree} {list list' : SelectorList}

/-- **Names are compared in any case.**  If no element has two attributes whose names differ
in case only, then two lists of alternatives that differ in the case of names only, at any
depth, select the same elements and accept the same nodes. -/
theorem select_of_sameNames (h : t.NamesApart)
    (hsame : Complex.lowerNamesAll list' = Complex.lowerNamesAll list) (engine : PatternEngine)
    (scope : NodeId) :
    t.select engine scope list' = t.select engine scope list ∧
      ∀ x, t.accepts engine scope list' x = t.accepts engine scope list x := by
  have hany : Complex.anyAccepts ⟨t, engine, scope⟩ list' =
      Complex.anyAccepts ⟨t, engine, scope⟩ list := by
    rw [← Complex.anyAccepts_lowerNames list' _ h, hsame, Complex.anyAccepts_lowerNames list _ h]
  constructor
  · simp only [select, Matcher.selectAll, hany]
  · intro x
    simp only [accepts, Matcher.accepts, hany]

/-- Names on every compound of a chain and in the arguments of `:has` and `:not` are written
in another case than in the tree, where a tag has blanks around it; values keep theirs. -/
theorem select_of_sameNames_mixed :
    let list (write : String → String) : SelectorList :=
      [.linked [.type (write "p"), .attribute (.value .equals (write "lang") ⟨"De", .sensitive⟩),
          .ordinal ⟨.eq, 0⟩, .not [.only [.ofClass (write "small")]]] .child
        (.only [.id (write "main"), .has [.only [.attribute (.present (write "title"))]]])]
    ∃ t : Tree, t.NamesApart ∧
      Complex.lowerNamesAll (list String.toUpper) = Complex.lowerNamesAll (list id) ∧
      (t.select ⟨fun _ => .error ""⟩ root (list id)).ids = [2] ∧
      (t.select ⟨fun _ => .error ""⟩ root (list String.toUpper)).ids = [2] := by
  intro list
  let t : Tree := (((Tree.empty.appendElement root ⟨"div", .ofList [("ID", "Main")]⟩).1
    |>.appendElement 1 ⟨" P", .ofList [("Lang", "De"), ("class", "a BIG b")]⟩).1
    |>.appendElement 1 ⟨"br", .ofList [("Title", "")]⟩).1
  have h : t.NamesApart := by decide +kernel
  have hsame : Complex.lowerNamesAll (list String.toUpper) = Complex.lowerNamesAll (list id) := by
    decide +kernel
  have hids : (t.select ⟨fun _ => .error ""⟩ root (list id)).ids = [2] := by decide +kernel
  refine ⟨t, h, hsame, hids, ?_⟩
  rw [(select_of_sameNames h hsame _ _).1, hids]

end Tree

end MarkupQuery
