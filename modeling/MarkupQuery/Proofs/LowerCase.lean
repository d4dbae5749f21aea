import MarkupQuery.Text.LetterCase
import MarkupQuery.Proofs.Trimming

/-!
# Lower-casing settles

Lower-casing gives back characters that it would not change again, and it trades
no blank for a letter or the reverse.  Both are properties of the tables: the image
of every row of the lower-case mapping avoids all rows, the two characters that are
treated apart, and the blanks.

* `CaseRange.avoids` — the check of two rows against each other;
* `Settled`, `settled_of_mem_lower` — what lower-casing gives back stays as it is;
* `lower_lower` — lower-casing twice is lower-casing once;
* `trim_lower_of_trim` — a trimmed text is trimmed in lower case too;
* `toLower_cases` — the ASCII capitals, which names are freed of.
-/

namespace MarkupQuery.Text

/-! ### Rows against rows -/

namespace CaseRange

/-- The last code point that the row maps to. -/
def lastTarget (r : CaseRange) : Nat := r.target + (r.last - r.first)

/-- No code point that the row `r` maps to is mapped by the row `s`: the two lie
apart, or else interleave. -/
def avoids (r s : CaseRange) : Bool :=
  r.lastTarget < s.first || s.last < r.target ||
    ((r.stride == 2 || r.first == r.last) && s.stride == 2 && (r.target + s.first) % 2 == 1)

/-- The row neither maps the code points from `first` to `last` nor maps to them. -/
def keepsOff (r : CaseRange) (range : CodeRange) : Bool :=
  (r.last < range.first || range.last < r.first) &&
    (r.lastTarget < range.first || range.last < r.target)

/-- The row maps to characters. -/
def isProper (r : CaseRange) : Bool :=
  r.lastTarget < 0xD800 || 0xDFFF < r.target && r.lastTarget < 0x110000

/-- Rows that avoid each other do not chain. -/
theorem not_covers_of_avoids {r s : CaseRange} (h : r.avoids s = true) {n : Nat}
    (hn : r.covers n = true) : s.covers (r.target + (n - r.first)) = false := by
  simp only [covers, Bool.and_eq_true, decide_eq_true_eq, beq_iff_eq] at hn
  obtain ⟨⟨hfirst, hlast⟩, hstride⟩ := hn
  simp only [avoids, Bool.or_eq_true, Bool.and_eq_true, decide_eq_true_eq, beq_iff_eq] at h
  unfold lastTarget at h
  by_contra hcovers
  simp only [Bool.not_eq_false, covers, Bool.and_eq_true, decide_eq_true_eq, beq_iff_eq]
    at hcovers
  obtain ⟨⟨hfirst', hlast'⟩, hstride'⟩ := hcovers
  rcases h with (h | h) | ⟨⟨hr, hs⟩, hparity⟩
  · omega
  · omega
  · rw [hs] at hstride'
    rcases hr with hr | hr
    · rw [hr] at hstride
      omega
    · omega

/-- The image of a code point under a proper row is that of a character. -/
theorem toNat_ofNat_of_isProper {r : CaseRange} (h : r.isProper = true) {n : Nat}
    (hn : r.covers n = true) :
    (Char.ofNat (r.target + (n - r.first))).toNat = r.target + (n - r.first) := by
  simp only [covers, Bool.and_eq_true, decide_eq_true_eq] at hn
  obtain ⟨⟨hfirst, hlast⟩, -⟩ := hn
  simp only [isProper, Bool.or_eq_true, Bool.and_eq_true, decide_eq_true_eq] at h
  unfold lastTarget at h
  have hvalid : (r.target + (n - r.first)).isValidChar := by
    simp only [Nat.isValidChar]
    omega
  rw [Char.ofNat, dif_pos hvalid]
  rfl

end CaseRange

/-- The two characters whose lower-case form is not given by a row. -/
def apartRanges : List CodeRange := [⟨0x130, 0x130⟩, ⟨0x3A3, 0x3A3⟩]

/-- **The table settles.**  Every row maps to characters, avoids every row, keeps off
the blanks, and maps to neither of the characters that are treated apart. -/
theorem lowerRanges_settle :
    (lowerRanges.all fun r =>
      r.isProper && lowerRanges.all r.avoids && blankRanges.all r.keepsOff &&
        apartRanges.all fun a => r.lastTarget < a.first || a.last < r.target) = true := by
  decide +kernel

/-- A character is in no row and fixed by a table, or it is moved by one row. -/
theorem mapThrough_cases (rs : List CaseRange) (c : Char) :
    (mapThrough rs c = c ∧ ∀ r ∈ rs, r.covers c.toNat = false) ∨
      ∃ r ∈ rs, r.covers c.toNat = true ∧
        mapThrough rs c = Char.ofNat (r.target + (c.toNat - r.first)) := by
  cases hfound : rs.findSome? (·.map? c) with
  | none =>
      refine Or.inl ⟨by simp [mapThrough, hfound], fun r hr => ?_⟩
      have hr := List.findSome?_eq_none_iff.1 hfound r hr
      cases hcovers : r.covers c.toNat with
      | false => rfl
      | true => simp [CaseRange.map?, hcovers] at hr
  | some d =>
      obtain ⟨r, hr, hmap⟩ := List.exists_of_findSome?_eq_some hfound
      cases hcovers : r.covers c.toNat with
      | false => simp [CaseRange.map?, hcovers] at hmap
      | true =>
          rw [CaseRange.map?, if_pos hcovers] at hmap
          refine Or.inr ⟨r, hr, hcovers, ?_⟩
          rw [mapThrough, hfound, ← hmap]
          rfl

/-! ### Characters in lower case -/

/-- Lower-casing leaves the character alone, whatever stands around it. -/
def Settled (c : Char) : Prop := c ≠ 'Σ' ∧ lowerChar c = [c]

/-- What a row maps a character to is moved no further, is none of the characters
treated apart, and is as little a blank as the character was. -/
theorem moved_spec {r : CaseRange} (hr : r ∈ lowerRanges) {c d : Char}
    (hcovers : r.covers c.toNat = true)
    (hd : d = Char.ofNat (r.target + (c.toNat - r.first))) :
    mapThrough lowerRanges d = d ∧ (∀ a ∈ apartRanges, a.contains d = false) ∧
      isBlank d = false ∧ isBlank c = false := by
  have hrow := List.all_eq_true.1 lowerRanges_settle r hr
  simp only [Bool.and_eq_true, List.all_eq_true] at hrow
  obtain ⟨⟨⟨hproper, havoids⟩, hblanks⟩, hapart⟩ := hrow
  have htoNat : d.toNat = r.target + (c.toNat - r.first) :=
    hd ▸ CaseRange.toNat_ofNat_of_isProper hproper hcovers
  have hspan := hcovers
  simp only [CaseRange.covers, Bool.and_eq_true, decide_eq_true_eq] at hspan
  have hoff : ∀ b ∈ blankRanges, b.contains d = false ∧ b.contains c = false := by
    intro b hb
    have h := hblanks b hb
    simp only [CaseRange.keepsOff, Bool.and_eq_true, Bool.or_eq_true,
      decide_eq_true_eq] at h
    unfold CaseRange.lastTarget at h
    simp only [CodeRange.contains, Bool.and_eq_false_iff, decide_eq_false_iff_not]
    omega
  refine ⟨?_, fun a ha => ?_, ?_, ?_⟩
  · rcases mapThrough_cases lowerRanges d with ⟨hfixed, -⟩ | ⟨s, hs, hagain, -⟩
    · exact hfixed
    · have h := CaseRange.not_covers_of_avoids (havoids s hs) hcovers
      rw [← htoNat, hagain] at h
      exact absurd h (by decide)
  · have h := hapart a ha
    simp only [Bool.or_eq_true, decide_eq_true_eq] at h
    unfold CaseRange.lastTarget at h
    simp only [CodeRange.contains, Bool.and_eq_false_iff, decide_eq_false_iff_not]
    omega
  · exact List.any_eq_false.2 fun b hb => by simp [(hoff b hb).1]
  · exact List.any_eq_false.2 fun b hb => by simp [(hoff b hb).2]

/-- Lower-casing one character gives settled ones, blank just if it was. -/
theorem settled_of_mem_lowerChar {c d : Char} (hc : c ≠ 'Σ') (hd : d ∈ lowerChar c) :
    Settled d ∧ isBlank d = isBlank c := by
  unfold lowerChar at hd
  split at hd
  · next hdot =>
      subst hdot
      simp only [List.mem_cons, List.not_mem_nil, or_false] at hd
      rcases hd with rfl | rfl
      · exact ⟨⟨by decide, by decide +kernel⟩, by decide⟩
      · exact ⟨⟨by decide, by decide +kernel⟩, by decide⟩
  · next hdot =>
      rw [List.mem_singleton] at hd
      rcases mapThrough_cases lowerRanges c with ⟨hfixed, -⟩ | ⟨r, hr, hcovers, hmoved⟩
      · rw [hfixed] at hd
        subst hd
        exact ⟨⟨hc, by rw [lowerChar, if_neg hdot, hfixed]⟩, rfl⟩
      · obtain ⟨hfixed, hapart, hdblank, hcblank⟩ := moved_spec hr hcovers (hd.trans hmoved)
        have hsigma : d ≠ 'Σ' := by
          rintro rfl
          exact absurd (hapart ⟨0x3A3, 0x3A3⟩ (by simp [apartRanges])) (by decide)
        have hdot' : d ≠ '\u0130' := by
          rintro rfl
          exact absurd (hapart ⟨0x130, 0x130⟩ (by simp [apartRanges])) (by decide)
        refine ⟨⟨hsigma, ?_⟩, by rw [hdblank, hcblank]⟩
        rw [lowerChar, if_neg hdot', hfixed]

/-- The lower-case form of a character that stands in a text between `before`,
written last character first, and `rest`. -/
def lowerWithin (before : List Char) (c : Char) (rest : List Char) : List Char :=
  if c = 'Σ' then [if meetsCased before && !meetsCased rest then 'ς' else 'σ']
  else lowerChar c

theorem lowerFrom_cons (before : List Char) (c : Char) (rest : List Char) :
    lowerFrom before (c :: rest) = lowerWithin before c rest ++ lowerFrom (c :: before) rest :=
  rfl

/-- A character has a lower-case form, which is settled and blank just if it was. -/
theorem lowerWithin_spec (before : List Char) (c : Char) (rest : List Char) :
    lowerWithin before c rest ≠ [] ∧
      ∀ d ∈ lowerWithin before c rest, Settled d ∧ isBlank d = isBlank c := by
  unfold lowerWithin
  split
  · next hsigma =>
      subst hsigma
      refine ⟨by simp, fun d hd => ?_⟩
      rw [List.mem_singleton] at hd
      subst hd
      split
      · exact ⟨⟨by decide, by decide +kernel⟩, by decide⟩
      · exact ⟨⟨by decide, by decide +kernel⟩, by decide⟩
  · next hsigma =>
      refine ⟨?_, fun d hd => settled_of_mem_lowerChar hsigma hd⟩
      unfold lowerChar
      split <;> simp

/-! ### Texts in lower case -/

/-- Everything in a lower-case text is settled. -/
theorem settled_of_mem_lowerFrom {before cs : List Char} {d : Char}
    (hd : d ∈ lowerFrom before cs) : Settled d := by
  induction cs generalizing before with
  | nil => simp [lowerFrom] at hd
  | cons c rest ih =>
      rw [lowerFrom_cons, List.mem_append] at hd
      rcases hd with hd | hd
      · exact ((lowerWithin_spec before c rest).2 d hd).1
      · exact ih hd

/-- A text of settled characters is in lower case. -/
theorem lowerFrom_eq_self {before cs : List Char} (h : ∀ c ∈ cs, Settled c) :
    lowerFrom before cs = cs := by
  induction cs generalizing before with
  | nil => rfl
  | cons c rest ih =>
      have hc := h c List.mem_cons_self
      rw [lowerFrom_cons, ih fun d hd => h d (List.mem_cons_of_mem c hd), lowerWithin,
        if_neg hc.1, hc.2]
      rfl

/-- **Lower-casing settles.**  A second lower-casing changes nothing. -/
@[simp] theorem lower_lower (cs : List Char) : lower (lower cs) = lower cs :=
  lowerFrom_eq_self fun _ hc => settled_of_mem_lowerFrom hc

/-- A text is empty in lower case just if it is empty. -/
@[simp] theorem lower_eq_nil_iff {cs : List Char} : lower cs = [] ↔ cs = [] := by
  cases cs with
  | nil => simp [lower, lowerFrom]
  | cons c rest => simp [lower, lowerFrom_cons, (lowerWithin_spec [] c rest).1]

/-- A lower-case text starts with a blank just if the text did. -/
theorem isBlank_head_lowerFrom {before cs : List Char} {d : Char}
    (hd : d ∈ (lowerFrom before cs).head?) : ∃ c ∈ cs.head?, isBlank d = isBlank c := by
  cases cs with
  | nil => simp [lowerFrom] at hd
  | cons c rest =>
      obtain ⟨hne, hspec⟩ := lowerWithin_spec before c rest
      refine ⟨c, rfl, (hspec d ?_).2⟩
      rw [lowerFrom_cons, List.head?_append_of_ne_nil _ hne] at hd
      exact List.mem_of_mem_head? hd

/-- A lower-case text ends with a blank just if the text did. -/
theorem isBlank_getLast_lowerFrom {before cs : List Char} {d : Char}
    (hd : d ∈ (lowerFrom before cs).getLast?) :
    ∃ c ∈ cs.getLast?, isBlank d = isBlank c := by
  induction cs generalizing before with
  | nil => simp [lowerFrom] at hd
  | cons c rest ih =>
      rw [lowerFrom_cons, List.getLast?_append] at hd
      cases rest with
      | nil =>
          refine ⟨c, rfl, ((lowerWithin_spec before c []).2 d ?_).2⟩
          simp only [lowerFrom, List.getLast?_nil, Option.none_or] at hd
          exact List.mem_of_getLast? hd
      | cons e more =>
          cases hrest : (lowerFrom (c :: before) (e :: more)).getLast? with
          | none =>
              have hnil := List.getLast?_eq_none_iff.1 hrest
              rw [lowerFrom_cons] at hnil
              exact absurd (List.append_eq_nil_iff.1 hnil).1 (lowerWithin_spec _ e more).1
          | some f =>
              rw [hrest] at hd
              have hlast : d ∈ (lowerFrom (c :: before) (e :: more)).getLast? := by
                rw [hrest]
                exact hd
              obtain ⟨g, hg, hblank⟩ := ih hlast
              exact ⟨g, by rwa [List.getLast?_cons_cons], hblank⟩

/-- **Trimmed texts stay trimmed** in lower case. -/
theorem trim_lower_of_trim {cs : List Char} (h : trim cs = cs) : trim (lower cs) = lower cs := by
  obtain ⟨hhead, hlast⟩ := trim_eq_self_iff.1 h
  refine trim_eq_self_iff.2 ⟨fun d hd => ?_, fun d hd => ?_⟩
  · obtain ⟨c, hc, hblank⟩ := isBlank_head_lowerFrom hd
    rw [hblank, hhead c hc]
  · obtain ⟨c, hc, hblank⟩ := isBlank_getLast_lowerFrom hd
    rw [hblank, hlast c hc]

/-- Lower-casing a string twice is lower-casing it once. -/
@[simp] theorem lowered_lowered (s : String) : lowered (lowered s) = lowered s := by
  simp [lowered]

/-! ### ASCII capitals -/

/-- Only the ASCII capitals are changed, and each to the letter 32 places on. -/
theorem toLower_cases (c : Char) :
    c.toLower = c ∨ (0x41 ≤ c.toNat ∧ c.toNat ≤ 0x5A ∧ c.toLower.toNat = c.toNat + 32) := by
  unfold Char.toLower
  split
  · next h =>
      right
      simp only [ge_iff_le, UInt32.le_iff_toNat_le, Char.toNat_val] at h
      have hlow : 0x41 ≤ c.toNat := h.1
      have hhigh : c.toNat ≤ 0x5A := h.2
      refine ⟨hlow, hhigh, ?_⟩
      show (c.val + 32).toNat = _
      rw [UInt32.toNat_add, Char.toNat_val]
      simp
      omega
  · exact .inl rfl

/-- No small letter is changed again. -/
theorem toLower_toLower (c : Char) : c.toLower.toLower = c.toLower := by
  rcases toLower_cases c.toLower with h | ⟨hlow, hhigh, -⟩
  · exact h
  rcases toLower_cases c with h | ⟨hlow', hhigh', h⟩
  · rw [h, h]
  · omega

/-- The capitals are no blanks, and neither are the small letters. -/
theorem isBlank_toLower (c : Char) : isBlank c.toLower = isBlank c := by
  rcases toLower_cases c with h | ⟨hlow, hhigh, h⟩
  · rw [h]
  · simp only [isBlank, inRanges, blankRanges, List.any_cons, List.any_nil,
      CodeRange.contains, h]
    grind

/-- Lower-casing the ASCII capitals twice is lower-casing them once. -/
@[simp] theorem asciiLowered_asciiLowered (s : String) :
    asciiLowered (asciiLowered s) = asciiLowered s := by
  simp only [asciiLowered, String.toList_ofList, List.map_map, Function.comp_def,
    toLower_toLower]

/-- A trimmed text stays trimmed when its ASCII capitals are lower-cased. -/
theorem trim_map_toLower {cs : List Char} (h : trim cs = cs) :
    trim (cs.map Char.toLower) = cs.map Char.toLower := by
  obtain ⟨hhead, hlast⟩ := trim_eq_self_iff.1 h
  refine trim_eq_self_iff.2 ⟨fun d hd => ?_, fun d hd => ?_⟩
  · rw [List.head?_map] at hd
    obtain ⟨c, hc, rfl⟩ := Option.map_eq_some_iff.1 hd
    rw [isBlank_toLower, hhead c hc]
  · rw [List.getLast?_map] at hd
    obtain ⟨c, hc, rfl⟩ := Option.map_eq_some_iff.1 hd
    rw [isBlank_toLower, hlast c hc]

end MarkupQuery.Text
