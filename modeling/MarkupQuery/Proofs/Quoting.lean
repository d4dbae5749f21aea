import MarkupQuery.Proofs.Openings

/-!
# Escapes and their readers

What is written with escapes is read back as it was: a value between quotes up to
its closing quote and not before, an argument in parentheses as a whole.  And the search
for a closing bracket passes over what is written, so that nothing in it is taken for the
end of what is around it.

* `readQuoted_escapeQuoted` — a quoted value is read back, with the text after it;
* `readQuoted_of_isPrefix` — what is only a part of a quoted value has no end;
* `unescape_escapeArgument` — an escaped argument is read back;
* `sliceFrom_append_of_after` — the search passes over what leaves everything as it was;
* `escapes_inverted` — both ways of escaping, before any text and in any brackets.
-/

namespace MarkupQuery.Delimited

/-- A character of a quoted text that is no backslash ends the text or belongs to it. -/
theorem readQuoted_cons {c : Char} (hc : c ≠ '\\') (quote : Char) (rest : List Char) :
    readQuoted quote (c :: rest) =
      if c = quote then some ([], rest) else (readQuoted quote rest).map (keep [c]) := by
  rw [readQuoted]
  rintro _ _ rfl
  exact absurd rfl hc

/-- **A quoted value is read back** up to its closing quote. -/
theorem readQuoted_escapeQuoted (value rest : List Char) :
    readQuoted '"' (escapeQuoted value ++ '"' :: rest) = some (value, rest) := by
  induction value with
  | nil =>
      rw [escapeQuoted, List.nil_append, readQuoted_cons (by decide), if_pos rfl]
  | cons c value ih =>
      rw [escapeQuoted]
      split
      · next hc =>
          rw [List.cons_append, List.cons_append, readQuoted, ih, if_pos hc]
          rfl
      · next hc =>
          rw [not_or] at hc
          rw [List.cons_append, readQuoted_cons hc.2, if_neg hc.1, ih]
          rfl

/-- The start of a quoted value has no end, wherever it breaks off. -/
theorem readQuoted_of_isPrefix {value part : List Char} (h : part <+: escapeQuoted value) :
    readQuoted '"' part = none := by
  induction value generalizing part with
  | nil => rw [List.prefix_nil.1 h, readQuoted]
  | cons c value ih =>
      rw [escapeQuoted] at h
      split at h
      · rcases List.prefix_cons_iff.1 h with rfl | ⟨front, rfl, hfront⟩
        · rw [readQuoted]
        rcases List.prefix_cons_iff.1 hfront with rfl | ⟨rest, rfl, hrest⟩
        · rfl
        rw [readQuoted, ih hrest]
        rfl
      · next hc =>
          rw [not_or] at hc
          rcases List.prefix_cons_iff.1 h with rfl | ⟨front, rfl, hfront⟩
          · rw [readQuoted]
          rw [readQuoted_cons hc.2, if_neg hc.1, ih hfront]
          rfl

/-- Outside of escapes a character that is no backslash stands for itself. -/
theorem unescape_cons {c : Char} (hc : c ≠ '\\') (rest : List Char) :
    unescape (c :: rest) = c :: unescape rest := by
  rw [unescape, if_neg hc]
  rintro _ _ rfl
  exact absurd rfl hc

/-- **An escaped argument is read back.** -/
@[simp] theorem unescape_escapeArgument (cs : List Char) :
    unescape (escapeArgument cs) = cs := by
  induction cs with
  | nil => rfl
  | cons c rest ih =>
      rw [escapeArgument]
      split
      · rw [unescape, ih]
      · next hc =>
          have hback : c ≠ '\\' := by
            rintro rfl
            exact hc (by decide)
          rw [unescape_cons hback, ih]

/-- Outside of quotes the search passes over a text that leaves everything as it was. -/
theorem sliceFrom_append_of_after {b : Bracket} {quotes : Bool} {depth squares : Nat}
    {written : List Char}
    (h : Openings.after b quotes ⟨depth, squares, none⟩ written = some ⟨depth, squares, none⟩)
    (position : Nat) (rest : List Char) :
    sliceFrom b quotes depth squares none position (written ++ rest) =
      (sliceFrom b quotes depth squares none (position + written.length) rest).map
        (keep written) := by
  have hnone : (none : Option (Char × Nat)).map (·.1) = none := rfl
  obtain ⟨quoted, hquoted, hpass⟩ := sliceFrom_of_after hnone h position rest
  obtain rfl : quoted = none := Option.map_eq_none_iff.1 hquoted
  exact hpass

/-- **Escapes are inverted by their readers, in any context.**  Whatever comes after it, a
quoted value is read back after its opening quote, and exactly what comes after it is left;
an escaped argument is read back; and the search for a closing bracket goes on behind an
escaped argument that stands outside of quotes, and behind a quoted value where quotes are
honoured and a square bracket is open, with the same brackets open as before. -/
theorem escapes_inverted (value rest : List Char) :
    (∃ text, writeQuoted value ++ rest = '"' :: text ∧
      readQuoted '"' text = some (value, rest)) ∧
    unescape (escapeArgument value) = value ∧
    (∀ (b : Bracket) (quotes : Bool) (depth squares position : Nat),
      sliceFrom b quotes depth squares none position (escapeArgument value ++ rest) =
        (sliceFrom b quotes depth squares none (position + (escapeArgument value).length)
          rest).map (keep (escapeArgument value))) ∧
    ∀ (b : Bracket) (depth squares position : Nat),
      sliceFrom b true depth (squares + 1) none position (writeQuoted value ++ rest) =
        (sliceFrom b true depth (squares + 1) none (position + (writeQuoted value).length)
          rest).map (keep (writeQuoted value)) := by
  refine ⟨⟨escapeQuoted value ++ '"' :: rest, by simp [writeQuoted],
    readQuoted_escapeQuoted value rest⟩, unescape_escapeArgument value,
    fun b quotes depth squares position => ?_, fun b depth squares position => ?_⟩
  · exact sliceFrom_append_of_after (Openings.after_escapeArgument rfl value) position rest
  · exact sliceFrom_append_of_after
      (Openings.after_writeQuoted rfl (Nat.succ_ne_zero squares) value) position rest

end MarkupQuery.Delimited
