import MarkupQuery.Proofs.LowerCase

/-!
# Sigmas in context

Lower-casing looks around at one letter only: a capital sigma at the end of a word becomes
the final form of the letter.  So a text that stands in another one is lower-cased there as
it is alone, exactly when each of its capital sigmas ends a word in both or in neither; and
then it is found again when both are in lower case.  No other letter is in the way.

* `endsWord` — what makes a capital sigma final;
* `lowerAmid`, `lower_append_append` — the lower-case form of a text between two others;
* `SigmasKept`, `lowerAmid_eq_lower_iff` — when it is the form of the text alone;
* `lower_isPrefix_iff`, `lower_isSuffix_iff`, `SigmasKept.lower_isInfix` — when the text is
  found again in lower case.
-/

namespace MarkupQuery.Text

variable {before after front back cs : List Char} {c : Char}

/-! ### The lower-case form between two texts -/

/-- Whether a word ends between `before`, written last character first, and `after`: a
cased letter comes before and none after. -/
def endsWord (before after : List Char) : Bool := meetsCased before && !meetsCased after

/-- Two contexts give a character the same form exactly if it is no capital sigma, or ends a
word in both or in neither. -/
theorem lowerWithin_eq_iff :
    lowerWithin front c back = lowerWithin before c after ↔
      (c = 'Σ' → endsWord front back = endsWord before after) := by
  by_cases hsigma : c = 'Σ'
  · rw [lowerWithin, lowerWithin, if_pos hsigma, if_pos hsigma, ← endsWord, ← endsWord,
      forall_prop_of_true hsigma]
    cases endsWord front back <;> cases endsWord before after <;> simp
  · simp [lowerWithin, hsigma]

theorem length_lowerWithin :
    (lowerWithin front c back).length = (lowerWithin before c after).length := by
  unfold lowerWithin
  split <;> rfl

/-- The lower-case form of a text that stands between `before`, written last character
first, and `after`. -/
def lowerAmid (before after : List Char) : List Char → List Char
  | [] => []
  | c :: rest => lowerWithin before c (rest ++ after) ++ lowerAmid (c :: before) after rest

/-- A text is lower-cased piece by piece, each of them in its place. -/
theorem lowerFrom_append (before cs after : List Char) :
    lowerFrom before (cs ++ after) =
      lowerAmid before after cs ++ lowerFrom (cs.reverse ++ before) after := by
  induction cs generalizing before with
  | nil => rfl
  | cons c rest ih => simp [lowerFrom_cons, lowerAmid, ih]

@[simp] theorem lowerAmid_nil_right (before cs : List Char) :
    lowerAmid before [] cs = lowerFrom before cs := by
  simpa [lowerFrom] using (lowerFrom_append before cs []).symm

theorem lower_append_append (front cs back : List Char) :
    lower (front ++ cs ++ back) = lowerAmid [] (cs ++ back) front ++
      (lowerAmid front.reverse back cs ++ lowerFrom (cs.reverse ++ front.reverse) back) := by
  rw [lower, List.append_assoc, lowerFrom_append, lowerFrom_append, List.append_nil]

/-- Where a text stands does not change the length of its lower-case form. -/
theorem length_lowerAmid (before after front back cs : List Char) :
    (lowerAmid before after cs).length = (lowerAmid front back cs).length := by
  induction cs generalizing before front with
  | nil => rfl
  | cons c rest ih =>
      rw [lowerAmid, lowerAmid, List.length_append, List.length_append, ih,
        length_lowerWithin]

theorem length_lowerAmid_eq (before after cs : List Char) :
    (lowerAmid before after cs).length = (lower cs).length := by
  rw [lower, ← lowerAmid_nil_right, length_lowerAmid]

/-! ### Sigmas that keep their form -/

/-- Each capital sigma of a text ends a word between `front` and `back` just if it does so
in the text alone. -/
def SigmasKept (front cs back : List Char) : Prop :=
  ∀ before after, cs = before ++ 'Σ' :: after →
    endsWord (before.reverse ++ front.reverse) (after ++ back) = endsWord before.reverse after

/-- Two contexts give a text the same lower-case form exactly if each capital sigma in it
ends a word in both or in neither. -/
theorem lowerAmid_eq_iff (front back front' back' cs : List Char) :
    lowerAmid front back cs = lowerAmid front' back' cs ↔
      ∀ before after, cs = before ++ 'Σ' :: after →
        endsWord (before.reverse ++ front) (after ++ back) =
          endsWord (before.reverse ++ front') (after ++ back') := by
  induction cs generalizing front front' with
  | nil => simp [lowerAmid]
  | cons c rest ih =>
      have hsplit : lowerAmid front back (c :: rest) = lowerAmid front' back' (c :: rest) ↔
          lowerWithin front c (rest ++ back) = lowerWithin front' c (rest ++ back') ∧
            lowerAmid (c :: front) back rest = lowerAmid (c :: front') back' rest :=
        ⟨fun h => List.append_inj h length_lowerWithin, fun h => by
          rw [lowerAmid, lowerAmid, h.1, h.2]⟩
      rw [hsplit, lowerWithin_eq_iff, ih]
      constructor
      · rintro ⟨hc, hrest⟩ before after heq
        cases before with
        | nil =>
            obtain ⟨rfl, rfl⟩ := List.cons.inj heq
            exact hc rfl
        | cons d before =>
            obtain ⟨rfl, rfl⟩ := List.cons.inj heq
            simpa using hrest before after rfl
      · intro h
        refine ⟨fun hc => ?_, fun before after heq => ?_⟩
        · exact h [] rest (by rw [hc, List.nil_append])
        · simpa using h (c :: before) after (by rw [heq, List.cons_append])

/-- **Where its sigmas keep their form** a text is lower-cased as it is alone, and nowhere
else. -/
theorem lowerAmid_eq_lower_iff :
    lowerAmid front.reverse back cs = lower cs ↔ SigmasKept front cs back := by
  rw [lower, ← lowerAmid_nil_right, lowerAmid_eq_iff]
  simp only [List.append_nil, SigmasKept]

instance : Decidable (SigmasKept front cs back) := decidable_of_iff _ lowerAmid_eq_lower_iff

/-- A text without capital sigmas has none to keep. -/
theorem SigmasKept.of_notMem (h : 'Σ' ∉ cs) : SigmasKept front cs back := by
  intro before after heq
  exact absurd (by simp [heq]) h

/-! ### Finding the text again -/

/-- A text in lower case starts with the lower-case form of its start just if the sigmas
there keep theirs. -/
theorem lower_isPrefix_iff : lower cs <+: lower (cs ++ back) ↔ SigmasKept [] cs back := by
  rw [← lowerAmid_eq_lower_iff, lower.eq_def (cs ++ back), lowerFrom_append,
    List.prefix_iff_eq_take, ← length_lowerAmid_eq [] back, List.take_left, eq_comm,
    List.reverse_nil]

/-- A text in lower case ends with the lower-case form of its end just if the sigmas there
keep theirs. -/
theorem lower_isSuffix_iff : lower cs <:+ lower (front ++ cs) ↔ SigmasKept front cs [] := by
  rw [← lowerAmid_eq_lower_iff, lower.eq_def (front ++ cs), lowerFrom_append, List.append_nil,
    ← lowerAmid_nil_right front.reverse]
  constructor
  · rintro ⟨lead, hlead⟩
    exact (List.append_inj_right' hlead (length_lowerAmid_eq _ _ _).symm).symm
  · intro h
    rw [h]
    exact List.suffix_append _ _

/-- Where its sigmas keep their form a text is found again in lower case. -/
theorem SigmasKept.lower_isInfix (h : SigmasKept front cs back) :
    lower cs <:+: lower (front ++ cs ++ back) := by
  rw [lower_append_append, lowerAmid_eq_lower_iff.2 h, ← List.append_assoc]
  exact List.infix_append _ _ _

end MarkupQuery.Text
