import MarkupQuery.Text.Blank
import Mathlib.Data.List.DropRight

/-!
# Trimmed texts

Trimming leaves a text alone exactly when neither of its ends is blank.  What
trimming gives back has no blank end, so that a second trimming changes nothing.

* `trimBy` — a list is trimmed of any kind of member;
* `trim_eq_self_iff` — the texts that trimming leaves alone;
* `trim_trim` — trimming twice is trimming once;
* `trimEnd_append_cons` — the end of a text is not cut beyond a character that is
  no blank.
-/

namespace MarkupQuery.Text

/-! ### Cutting off both ends -/

section TrimBy

variable {β : Type} {p : β → Bool}

/-- A list without those members at its two ends that have a property. -/
def trimBy (p : β → Bool) (l : List β) : List β :=
  ((l.dropWhile p).reverse.dropWhile p).reverse

theorem trim_eq_trimBy (cs : List Char) : trim cs = trimBy isBlank cs := rfl

/-- The end that is cut off comes after what is left of the list without its start. -/
theorem exists_trimBy_append_eq (p : β → Bool) (l : List β) :
    ∃ back, l.dropWhile p = trimBy p l ++ back := by
  obtain ⟨back, hback⟩ := List.dropWhile_suffix p (l := (l.dropWhile p).reverse)
  refine ⟨back.reverse, ?_⟩
  rw [trimBy, ← List.reverse_append, hback, List.reverse_reverse]

/-- What is left is a part of the list. -/
theorem trimBy_isInfix (p : β → Bool) (l : List β) : trimBy p l <:+: l := by
  obtain ⟨front, hfront⟩ := List.dropWhile_suffix p (l := l)
  obtain ⟨back, hback⟩ := exists_trimBy_append_eq p l
  refine ⟨front, back, ?_⟩
  rw [List.append_assoc, ← hback, hfront]

/-- What is left starts with a member that lacks the property. -/
theorem head_trimBy (p : β → Bool) (l : List β) : ∀ a ∈ (trimBy p l).head?, p a = false := by
  intro a ha
  obtain ⟨back, hback⟩ := exists_trimBy_append_eq p l
  have hdrop := List.head?_dropWhile_not p l
  rw [hback, List.head?_append, Option.mem_def.1 ha] at hdrop
  simpa using hdrop

/-- What is left ends with a member that lacks the property. -/
theorem getLast_trimBy (p : β → Bool) (l : List β) :
    ∀ a ∈ (trimBy p l).getLast?, p a = false := by
  intro a ha
  have hdrop := List.head?_dropWhile_not p (l.dropWhile p).reverse
  rw [trimBy, List.getLast?_reverse] at ha
  rw [Option.mem_def.1 ha] at hdrop
  simpa using hdrop

/-- A part that starts with a member that lacks the property stops the cutting from the
start. -/
theorem exists_dropWhile_append {mid : List β} (hmid : mid ≠ [])
    (hhead : ∀ a ∈ mid.head?, p a = false) (front : List β) :
    ∃ front', (front ++ mid).dropWhile p = front' ++ mid := by
  have hkept : mid.dropWhile p = mid := by
    cases mid with
    | nil => rfl
    | cons a rest => rw [List.dropWhile_cons_of_neg (by simp [hhead a rfl])]
  rw [List.dropWhile_append]
  split
  · exact ⟨[], hkept⟩
  · exact ⟨front.dropWhile p, rfl⟩

/-- A part neither of whose ends has the property is not cut into. -/
theorem exists_trimBy_append {mid : List β} (hmid : mid ≠ [])
    (hhead : ∀ a ∈ mid.head?, p a = false) (hlast : ∀ a ∈ mid.getLast?, p a = false)
    (front back : List β) :
    ∃ front' back', trimBy p (front ++ mid ++ back) = front' ++ mid ++ back' := by
  have hhead' : ∀ a ∈ (mid ++ back).head?, p a = false := by
    rw [List.head?_append_of_ne_nil _ hmid]
    exact hhead
  obtain ⟨front', hfront⟩ := exists_dropWhile_append (by simp [hmid]) hhead' front
  have hlast' : ∀ a ∈ (front' ++ mid).reverse.head?, p a = false := by
    rw [List.head?_reverse, List.getLast?_append_of_ne_nil _ hmid]
    exact hlast
  obtain ⟨back', hback⟩ := exists_dropWhile_append (by simp [hmid]) hlast' back.reverse
  refine ⟨front', back'.reverse, ?_⟩
  rw [trimBy, List.append_assoc, hfront, ← List.append_assoc, List.reverse_append, hback]
  simp

/-- A part of a list keeps its place when both are trimmed. -/
theorem trimBy_isInfix_trimBy {l m : List β} (h : l <:+: m) : trimBy p l <:+: trimBy p m := by
  by_cases hnil : trimBy p l = []
  · rw [hnil]
    exact List.nil_infix
  · obtain ⟨front, back, rfl⟩ := (trimBy_isInfix p l).trans h
    obtain ⟨front', back', htrim⟩ :=
      exists_trimBy_append hnil (head_trimBy p l) (getLast_trimBy p l) front back
    exact ⟨front', back', htrim.symm⟩

theorem filter_dropWhile (p : β → Bool) (l : List β) :
    (l.dropWhile p).filter (!p ·) = l.filter (!p ·) := by
  induction l with
  | nil => rfl
  | cons a rest ih => by_cases ha : p a <;> simp [ha, ih]

/-- Trimming takes away none of the members that lack the property. -/
theorem filter_trimBy (p : β → Bool) (l : List β) :
    (trimBy p l).filter (!p ·) = l.filter (!p ·) := by
  rw [trimBy, List.filter_reverse, filter_dropWhile, List.filter_reverse, List.reverse_reverse,
    filter_dropWhile]

end TrimBy

/-! ### Blanks -/

/-- What is left at the start of a text after its blanks is no blank. -/
theorem not_isBlank_head_trimStart (cs : List Char) :
    ∀ c ∈ (trimStart cs).head?, isBlank c = false := by
  intro c hc
  have h := List.head?_dropWhile_not isBlank cs
  rw [show List.dropWhile isBlank cs = trimStart cs from rfl, Option.mem_def.1 hc] at h
  simpa using h

/-- A text that starts with no blank keeps its start. -/
theorem trimStart_eq_self {cs : List Char} (h : ∀ c ∈ cs.head?, isBlank c = false) :
    trimStart cs = cs := by
  cases cs with
  | nil => rfl
  | cons c rest => exact trimStart_cons_of_not_blank (h c rfl)

/-- A text that ends with no blank keeps its end. -/
theorem trimEnd_eq_self {cs : List Char} (h : ∀ c ∈ cs.getLast?, isBlank c = false) :
    trimEnd cs = cs := by
  cases hlast : cs.getLast? with
  | none => rw [List.getLast?_eq_none_iff.1 hlast]; rfl
  | some c =>
      obtain ⟨front, rfl⟩ := List.getLast?_eq_some_iff.1 hlast
      exact trimEnd_concat_of_not_blank (h c hlast)

/-- Cutting the blanks off the end leaves a part from the start. -/
theorem trimEnd_isPrefix (cs : List Char) : trimEnd cs <+: cs :=
  List.rdropWhile_prefix isBlank cs

/-- Cutting the blanks off the start leaves a part to the end. -/
theorem trimStart_isSuffix (cs : List Char) : trimStart cs <:+ cs :=
  List.dropWhile_suffix isBlank

/-- Trimming makes no text longer. -/
theorem length_trim_le (cs : List Char) : (trim cs).length ≤ cs.length :=
  (trimEnd_isPrefix _).length_le.trans (trimStart_isSuffix cs).length_le

/-- A trimmed text starts with no blank. -/
theorem not_isBlank_head_trim (cs : List Char) :
    ∀ c ∈ (trim cs).head?, isBlank c = false :=
  head_trimBy isBlank cs

/-- A trimmed text ends with no blank. -/
theorem not_isBlank_getLast_trim (cs : List Char) :
    ∀ c ∈ (trim cs).getLast?, isBlank c = false :=
  getLast_trimBy isBlank cs

/-- **Trimmed texts.**  Trimming leaves alone just the texts that have no blank at
either end. -/
theorem trim_eq_self_iff {cs : List Char} :
    trim cs = cs ↔
      (∀ c ∈ cs.head?, isBlank c = false) ∧ ∀ c ∈ cs.getLast?, isBlank c = false := by
  constructor
  · intro h
    have hhead := not_isBlank_head_trim cs
    have hlast := not_isBlank_getLast_trim cs
    rw [h] at hhead hlast
    exact ⟨hhead, hlast⟩
  · rintro ⟨hhead, hlast⟩
    rw [trim, trimStart_eq_self hhead, trimEnd_eq_self hlast]

/-- Trimming twice is trimming once. -/
@[simp] theorem trim_trim (cs : List Char) : trim (trim cs) = trim cs :=
  trim_eq_self_iff.2 ⟨not_isBlank_head_trim cs, not_isBlank_getLast_trim cs⟩

/-- Trimming a string twice is trimming it once. -/
@[simp] theorem trimmed_trimmed (s : String) : trimmed (trimmed s) = trimmed s := by
  simp [trimmed]

/-- A trimmed string is one whose characters are trimmed. -/
theorem trimmed_eq_self_iff {s : String} : trimmed s = s ↔ trim s.toList = s.toList := by
  rw [trimmed, ← String.toList_inj, String.toList_ofList]

/-- The blanks cut off the end of a text stand behind every character that is no
blank. -/
theorem trimEnd_append_cons {c : Char} (h : isBlank c = false) (front back : List Char) :
    trimEnd (front ++ c :: back) = front ++ c :: trimEnd back := by
  have hc : (c :: front.reverse).dropWhile isBlank = c :: front.reverse := by
    rw [List.dropWhile_cons_of_neg (by simp [h])]
  have hsplit : (front ++ c :: back).reverse = back.reverse ++ c :: front.reverse := by simp
  rw [trimEnd, hsplit, List.dropWhile_append]
  by_cases hback : (back.reverse.dropWhile isBlank).isEmpty
  · rw [if_pos hback, hc, trimEnd, List.isEmpty_iff.1 hback]
    simp
  · rw [if_neg hback, trimEnd]
    simp

/-- Trimming a text that starts with no blank, and in which a character that is no
blank stands behind a front part, keeps at least the front part and that character. -/
theorem length_lt_length_trim {c : Char} (hc : isBlank c = false) {front : List Char}
    (hfront : ∀ d ∈ front.head?, isBlank d = false) (back : List Char) :
    front.length < (trim (front ++ c :: back)).length := by
  have hstart : trimStart (front ++ c :: back) = front ++ c :: back := by
    apply trimStart_eq_self
    intro d hd
    cases front with
    | nil => exact Option.some.inj hd ▸ hc
    | cons e rest => exact hfront d hd
  rw [trim, hstart, trimEnd_append_cons hc, List.length_append, List.length_cons]
  omega

end MarkupQuery.Text
