import MarkupQuery.Proofs.Building
import MarkupQuery.Proofs.LowerCase

/-!
# Tags by name

The registry is asked for a name as it is written before it is asked for the name trimmed and
in lower case.  Registered names are trimmed and in lower case themselves, so the first
look-up only saves the second one, and what a tag can do is known from the name in that form.
The form is the name of the tag and has the same tag, so two names have one tag just if they
have one form.

* `Tag.ofNormalForm` — the tag of a name without the first look-up;
* `Tag.normalized?_of_isRegistered` — registered names are in normal form;
* `Tag.ofName_eq` — the tag of a name is that of its normal form;
* `Tag.normalized?_normalForm` — the normal form of a normal form;
* `Tag.ofName_normal` — the tags of any two names;
* `Element.preservesWhitespace_iff` — which elements keep their white space.
-/

namespace MarkupQuery

namespace Tag

/-- The characters of registered names are small letters and digits. -/
def isPlainChar (c : Char) : Bool :=
  (0x61 ≤ c.toNat && c.toNat ≤ 0x7A) || (0x30 ≤ c.toNat && c.toNat ≤ 0x39)

theorem isPlainChar_of_isRegistered {name : String} (h : isRegistered name = true) :
    ∀ c ∈ name.toList, isPlainChar c = true := by
  have hall : (inlineNames ++ blockNames).all fun n => n.toList.all isPlainChar := by
    decide +kernel
  have hmem : name ∈ inlineNames ++ blockNames := by
    simpa [isRegistered] using h
  exact List.all_eq_true.1 (List.all_eq_true.1 hall name hmem)

/-- Such characters do not change in lower case, and none is a blank. -/
theorem settled_of_isPlainChar {c : Char} (h : isPlainChar c = true) :
    Text.Settled c ∧ Text.isBlank c = false := by
  have hall : ∀ k < 128, isPlainChar (Char.ofNat k) = true →
      (Char.ofNat k ≠ 'Σ' ∧ Text.lowerChar (Char.ofNat k) = [Char.ofNat k]) ∧
        Text.isBlank (Char.ofNat k) = false := by
    decide +kernel
  have hlt : c.toNat < 128 := by
    simp only [isPlainChar, Bool.or_eq_true, Bool.and_eq_true, decide_eq_true_eq] at h
    omega
  have hc := hall c.toNat hlt
  rw [Char.ofNat_toNat] at hc
  exact hc h

/-- **Registered names** are written as they are registered. -/
theorem normalized?_of_isRegistered {name : String} (h : isRegistered name = true) :
    normalized? name = some name := by
  have hplain : ∀ c ∈ name.toList, Text.Settled c ∧ Text.isBlank c = false := fun c hc =>
    settled_of_isPlainChar (isPlainChar_of_isRegistered h c hc)
  have htrim : Text.trimmed name = name :=
    Text.trimmed_eq_self_iff.2 (Text.trim_eq_self_iff.2
      ⟨fun c hc => (hplain c (List.mem_of_mem_head? hc)).2,
        fun c hc => (hplain c (List.mem_of_mem_getLast? hc)).2⟩)
  have hne : name ≠ "" := htrim ▸ trimmed_ne_of_isRegistered h
  have hlower : Text.lowered name = name := by
    rw [Text.lowered, Text.lower, Text.lowerFrom_eq_self fun c hc => (hplain c hc).1,
      String.ofList_toList]
  simp only [normalized?, htrim, hne, hlower, if_false]

/-- The tag of a name in normal form: its entry, or a generic tag. -/
def entry (name : String) : Tag := (registered? name).getD (generic name)

/-- The tag of a name by way of its normal form alone. -/
def ofNormalForm (name : String) : Except TagError Tag :=
  match normalized? name with
  | none => .error .emptyName
  | some n => .ok (entry n)

theorem isRegistered_of_registered? {name : String} {tag : Tag}
    (h : registered? name = some tag) : isRegistered name = true := by
  by_contra hnot
  simp [registered?, hnot] at h

/-- **The first look-up** finds what the second one would have found. -/
theorem ofNormalForm_of_registered? {name : String} {tag : Tag}
    (h : registered? name = some tag) : ofNormalForm name = .ok tag := by
  rw [ofNormalForm, normalized?_of_isRegistered (isRegistered_of_registered? h)]
  simp only [entry, h, Option.getD_some]

/-- **The tag of a name** is that of its normal form: asking for the name as it is gives no
other answer. -/
theorem ofName_eq (name : String) : ofName name = ofNormalForm name := by
  unfold ofName
  split
  · next tag htag => exact (ofNormalForm_of_registered? htag).symm
  · rfl

/-- A tag has the name under which it stands, whether it is registered or generic. -/
@[simp] theorem name_entry (name : String) : (entry name).name = name := by
  unfold entry registered?
  split <;> rfl

@[simp] theorem isKnown_entry (name : String) : (entry name).isKnown = isRegistered name := by
  rw [isKnown, name_entry]

theorem normalized?_of_ne {name : String} (h : Text.trimmed name ≠ "") :
    normalized? name = some (Text.lowered (Text.trimmed name)) := by
  simp only [normalized?, h, if_false]

/-- **Normal forms** are in normal form: lower-casing a trimmed name leaves nothing to trim
and nothing to lower-case. -/
theorem normalized?_normalForm {name : String} (h : Text.trimmed name ≠ "") :
    normalized? (Text.lowered (Text.trimmed name)) =
      some (Text.lowered (Text.trimmed name)) := by
  have htrim : Text.trimmed (Text.lowered (Text.trimmed name)) =
      Text.lowered (Text.trimmed name) := by
    simp only [Text.trimmed, Text.lowered, String.toList_ofList,
      Text.trim_lower_of_trim (Text.trim_trim _)]
  have hne : Text.lowered (Text.trimmed name) ≠ "" := by
    rw [ne_eq, Text.lowered, ← String.toList_inj, String.toList_ofList, String.toList_empty,
      Text.lower_eq_nil_iff, ← String.toList_empty, String.toList_inj]
    exact h
  rw [normalized?_of_ne (htrim.symm ▸ hne), htrim, Text.lowered_lowered]

/-- A name that is not blank has the tag that stands under its normal form. -/
theorem ofName_of_ne {name : String} (h : Text.trimmed name ≠ "") :
    ofName name = .ok (entry (Text.lowered (Text.trimmed name))) := by
  rw [ofName_eq, ofNormalForm, normalized?_of_ne h]

/-- **The tags of two names.**  Just the blank names have none.  Any other name has the tag
whose name is the normal form, trimmed and in lower case; it is a registered one just if the
form is registered; and it is the tag of its own name.  What the registry has for the name as
it is written is no other tag than that of the normal form.  Two names that are not blank have
the same tag, with all that it can do, just if they have the same form. -/
theorem ofName_normal (n m : String) :
    (ofName n = .error .emptyName ↔ Text.trimmed n = "") ∧
    (Text.trimmed n ≠ "" → ∃ tag, ofName n = .ok tag ∧
      tag.name = Text.lowered (Text.trimmed n) ∧ tag.isKnown = isKnownName n ∧
      ofName tag.name = .ok tag) ∧
    (∀ tag, registered? n = some tag → ofNormalForm n = .ok tag) ∧
    (Text.trimmed n ≠ "" → Text.trimmed m ≠ "" →
      (ofName n = ofName m ↔
        Text.lowered (Text.trimmed n) = Text.lowered (Text.trimmed m))) := by
  refine ⟨ofName_eq_error_iff, fun hn => ?_, fun tag => ofNormalForm_of_registered?,
    fun hn hm => ?_⟩
  · refine ⟨_, ofName_of_ne hn, name_entry _, ?_, ?_⟩
    · rw [isKnown_entry, isKnownName, normalized?_of_ne hn]
    · rw [name_entry, ofName_eq, ofNormalForm, normalized?_normalForm hn]
  · rw [ofName_of_ne hn, ofName_of_ne hm]
    constructor
    · intro hsame
      have hname := congrArg Tag.name (Except.ok.inj hsame)
      rwa [name_entry, name_entry] at hname
    · intro hsame
      rw [hsame]

/-- A heading is found in the first look-up, and with blanks around it in the second one.  A
generic tag whose name gets longer in lower case is the tag of that name, too. -/
theorem ofName_normal_longer :
    (registered? "h1" = some (entry "h1") ∧ ofNormalForm "h1" = .ok (entry "h1")) ∧
    ofName "h1" = ofName " H1\t" ∧
    (∃ tag, ofName "X-\u0130" = .ok tag ∧ tag.name = "x-i\u0307" ∧ tag.isKnown = false ∧
      ofName "x-i\u0307" = .ok tag) ∧
    ofName "X-\u0130" ≠ ofName "x-i" := by
  obtain ⟨-, -, hfirst, hsame⟩ := ofName_normal "h1" " H1\t"
  obtain ⟨-, htag, -, hother⟩ := ofName_normal "X-\u0130" "x-i"
  have hregistered : registered? "h1" = some (entry "h1") := by decide +kernel
  refine ⟨⟨hregistered, hfirst _ hregistered⟩,
    (hsame (by decide +kernel) (by decide +kernel)).2 (by decide +kernel), ?_, fun heq => ?_⟩
  · obtain ⟨tag, hread, hname, hknown, hagain⟩ := htag (by decide +kernel)
    have hform : Text.lowered (Text.trimmed "X-\u0130") = "x-i\u0307" := by decide +kernel
    rw [hname, hform] at hagain
    exact ⟨tag, hread, hname.trans hform, hknown.trans (by decide +kernel), hagain⟩
  · have hform := (hother (by decide +kernel) (by decide +kernel)).1 heq
    exact absurd hform (by decide +kernel)

end Tag

/-- **Which elements keep their white space:** those with one of four tag names. -/
theorem Element.preservesWhitespace_iff {e : Element} : e.preservesWhitespace = true ↔
    Text.lowered (Text.trimmed e.tagName) ∈ preserveWhitespaceNames := by
  have hregistered : ∀ n ∈ preserveWhitespaceNames, Tag.isRegistered n = true := by decide
  rw [preservesWhitespace, tag?, Tag.ofName_eq, Tag.ofNormalForm, Tag.normalized?]
  by_cases hblank : Text.trimmed e.tagName = ""
  · have hempty : Text.lowered "" ∉ preserveWhitespaceNames := by decide
    simpa [hblank, Except.toOption] using hempty
  · generalize Text.lowered (Text.trimmed e.tagName) = name
    by_cases hname : Tag.isRegistered name = true
    · simp [hblank, hname, Tag.entry, Tag.registered?, Except.toOption]
    · have hnot : name ∉ preserveWhitespaceNames := fun hmem => hname (hregistered _ hmem)
      simpa [hblank, hname, Tag.entry, Tag.registered?, Tag.generic, Except.toOption] using hnot

end MarkupQuery
