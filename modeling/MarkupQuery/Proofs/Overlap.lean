import Mathlib.Data.List.Basic

/-!
# Texts that agree up to a bracket

Two texts overlap at a closing bracket if they are the same, or if one of them breaks
off where the other goes on with the bracket.  So do the texts before two closing
brackets in one text, and overlapping texts share whatever holds no such bracket.

* `breaksOff_append` — where a text breaks off in a text of two parts;
* `Overlaps.of_append` — overlapping texts share a part without brackets;
* `Overlaps.split` — pieces up to a bracket overlap at it.
-/

namespace MarkupQuery.Delimited

/-- Whether a text breaks off where another goes on with the character `c`. -/
def BreaksOff (c : Char) (part whole : List Char) : Prop := part ++ [c] <+: whole

/-- Whether two texts are the same but that one may break off where the other goes on
with the character `c`. -/
def Overlaps (c : Char) (t w : List Char) : Prop := t = w ∨ BreaksOff c t w ∨ BreaksOff c w t

/-- **A text that breaks off in a text of two parts** does so in one of them. -/
theorem breaksOff_append {c : Char} {part u r : List Char} (h : BreaksOff c part (u ++ r)) :
    BreaksOff c part u ∨ ∃ rest, part = u ++ rest ∧ BreaksOff c rest r := by
  obtain ⟨back, hback⟩ := h
  rw [List.append_assoc] at hback
  rcases List.append_eq_append_iff.1 hback with ⟨front, hu, hr⟩ | ⟨rest, rfl, hr⟩
  · cases front with
    | nil =>
        right
        refine ⟨[], by simpa using hu.symm, back, ?_⟩
        simpa using hr
    | cons d front =>
        left
        rw [List.singleton_append, List.cons_append, List.cons.injEq] at hr
        exact ⟨front, by rw [hu, hr.1]; simp⟩
  · exact .inr ⟨rest, rfl, back, by rw [hr, List.append_assoc]⟩

/-- No text breaks off at a character that does not come. -/
theorem not_breaksOff {c : Char} {part whole : List Char} (h : c ∉ whole) :
    ¬ BreaksOff c part whole := by
  intro hbreak
  exact h (hbreak.subset (by simp))

namespace Overlaps

variable {c x : Char} {t w u r : List Char}

/-- **Overlapping texts** share a part in which the character does not come. -/
theorem of_append (hu : c ∉ u) (h : Overlaps c t (u ++ r)) :
    ∃ rest, t = u ++ rest ∧ Overlaps c rest r := by
  rcases h with rfl | h | ⟨back, hback⟩
  · exact ⟨r, rfl, .inl rfl⟩
  · rcases breaksOff_append h with hbreak | ⟨rest, rfl, hbreak⟩
    · exact absurd hbreak (not_breaksOff hu)
    · exact ⟨rest, rfl, .inr (.inl hbreak)⟩
  · exact ⟨r ++ [c] ++ back, by simp [← hback], .inr (.inr ⟨back, rfl⟩)⟩

/-- A text that overlaps with another starts like it, or with the character, or not
at all. -/
theorem head (h : Overlaps c t r) : ∀ d ∈ t.head?, d = c ∨ d ∈ r.head? := by
  intro d hd
  obtain ⟨rest, rfl⟩ : ∃ rest, t = d :: rest := by
    cases t with
    | nil => cases hd
    | cons e rest => exact ⟨rest, by rw [Option.some.inj hd]⟩
  rcases h with rfl | ⟨back, rfl⟩ | ⟨back, hback⟩
  · exact .inr rfl
  · exact .inr rfl
  · cases r with
    | nil => exact .inl (List.cons.inj hback).1.symm
    | cons e r => exact .inr (by rw [(List.cons.inj hback).1]; rfl)

/-- Pieces up to a bracket of one text are the same, or one breaks off where the other
goes on with the bracket. -/
theorem split_of_eq {a v : List Char} (h : t ++ x :: v = a ++ x :: r) :
    (t = a ∧ v = r) ∨ BreaksOff x t a ∨ BreaksOff x a t := by
  rcases List.append_eq_append_iff.1 h with ⟨front, ha, hv⟩ | ⟨front, ht, hr⟩
  · cases front with
    | nil => exact .inl ⟨by simpa using ha.symm, (List.cons.inj hv).2⟩
    | cons d front =>
        obtain ⟨rfl, -⟩ := List.cons.inj hv
        exact .inr (.inl ⟨front, by simp [ha]⟩)
  · cases front with
    | nil => exact .inl ⟨by simpa using ht, (List.cons.inj hr).2.symm⟩
    | cons d front =>
        obtain ⟨rfl, -⟩ := List.cons.inj hr
        exact .inr (.inr ⟨front, by simp [ht]⟩)

/-- **Pieces up to a bracket** of overlapping texts are the same, and the rests
overlap, or one piece breaks off where the other goes on with the bracket. -/
theorem split {a v : List Char} (h : Overlaps c (t ++ x :: v) (a ++ x :: r)) :
    (t = a ∧ Overlaps c v r) ∨ BreaksOff x t a ∨ BreaksOff x a t := by
  rcases h with h | ⟨back, h⟩ | ⟨back, h⟩
  · exact (split_of_eq h).imp_left fun ⟨ht, hv⟩ => ⟨ht, .inl hv⟩
  · rw [List.append_assoc, List.append_assoc, List.cons_append] at h
    refine (split_of_eq h).imp_left fun ⟨ht, hv⟩ => ⟨ht, .inr (.inl ⟨back, ?_⟩)⟩
    rw [List.append_assoc, hv]
  · rw [List.append_assoc, List.append_assoc, List.cons_append] at h
    refine (split_of_eq h.symm).imp_left fun ⟨ht, hv⟩ => ⟨ht, .inr (.inr ⟨back, ?_⟩)⟩
    rw [List.append_assoc, hv]

end Overlaps

end MarkupQuery.Delimited
