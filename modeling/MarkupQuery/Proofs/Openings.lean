import MarkupQuery.Proofs.Overlap
import MarkupQuery.Selector.Delimited

/-!
# What is open in a text

The search for a closing bracket depends on three things only: how many brackets of
the kind are open, how many square brackets are open, and which quote the text is
in.  Following them through a text tells where the search comes to an end, without
the positions that it carries for its errors.

* `Openings.after` — what is open after a text; nothing, if a bracket is closed that
  was not open or a backslash is left without a character to hide;
* `sliceFrom_of_after` — the search passes over what can be followed;
* `Bracket.slice_eq_ok_iff` — a slice is the text up to the first closing bracket that
  comes where nothing is open;
* `Openings.not_breaksOff_of_closes` — there is only one such bracket;
* `after_append`, `after_add_depth` — texts are followed piece by piece, and inside
  further brackets in the same way;
* `after_of_plain`, `after_escapeArgument`, `after_writeQuoted` — pieces that leave
  everything as it was.
-/

namespace MarkupQuery.Delimited

/-- What is open at a place in a text: brackets of one kind, square brackets, and
perhaps a quote. -/
structure Openings where
  depth : Nat
  squares : Nat
  quote : Option Char
  deriving DecidableEq, Repr

namespace Openings

/-- What is open after a character that no backslash hides.  A bracket that closes
none of the open ones leads nowhere. -/
def step (b : Bracket) (quotes : Bool) (o : Openings) (c : Char) : Option Openings :=
  match o.quote with
  | some quote => some { o with quote := if c = quote then none else some quote }
  | none =>
    let squares := squaresAfter o.squares c
    if isQuote c && quotes && squares ≠ 0 then some ⟨o.depth, squares, some c⟩
    else if c = b.closing then
      match o.depth with
      | 0 => none
      | depth + 1 => some ⟨depth, squares, none⟩
    else some ⟨if c = b.opening then o.depth + 1 else o.depth, squares, none⟩

/-- What is open after a text.  A backslash hides the character after it, and has to
have one. -/
def after (b : Bracket) (quotes : Bool) : Openings → List Char → Option Openings
  | o, [] => some o
  | o, '\\' :: _ :: rest => after b quotes o rest
  | o, c :: rest =>
    if c = '\\' then none
    else
      match o.step b quotes c with
      | none => none
      | some o => after b quotes o rest

/-- What is open just after the opening bracket of a slice. -/
def initial (b : Bracket) : Openings := ⟨0, if b = .square then 1 else 0, none⟩

/-- Whether a text in brackets leaves nothing open: the bracket that comes next is
the one that closes it. -/
def closes (b : Bracket) (quotes : Bool) (cs : List Char) : Bool :=
  match after b quotes (initial b) cs with
  | some ⟨0, _, none⟩ => true
  | _ => false

variable {b : Bracket} {quotes : Bool}

/-- A hidden character changes nothing. -/
@[simp] theorem after_escape (o : Openings) (c : Char) (rest : List Char) :
    after b quotes o ('\\' :: c :: rest) = after b quotes o rest := by
  rw [after]

/-- A character that is no backslash is followed by a step. -/
theorem after_cons {c : Char} (hc : c ≠ '\\') (o : Openings) (rest : List Char) :
    after b quotes o (c :: rest) = (o.step b quotes c).bind (after b quotes · rest) := by
  rw [after, if_neg hc]
  · cases o.step b quotes c <;> rfl
  · rintro _ _ rfl
    exact absurd rfl hc

/-- A text in brackets leaves nothing open. -/
theorem closes_iff {cs : List Char} :
    closes b quotes cs = true ↔ ∃ k, after b quotes (initial b) cs = some ⟨0, k, none⟩ := by
  unfold closes
  split
  · next k h => simp [h]
  · next h =>
      simp only [Bool.false_eq_true, false_iff, not_exists]
      intro k hk
      exact h k hk

/-- **Texts are followed piece by piece.** -/
theorem after_append {o o' : Openings} {cs : List Char} (h : after b quotes o cs = some o')
    (ds : List Char) : after b quotes o (cs ++ ds) = after b quotes o' ds := by
  fun_induction after b quotes o cs with
  | case1 o => cases h; rfl
  | case2 o c rest ih => rw [List.cons_append, List.cons_append, after_escape, ih h]
  | case3 => cases h
  | case4 o c rest _ hc hstep => cases h
  | case5 o c rest _ hc o'' hstep ih =>
      rw [List.cons_append, after_cons hc, hstep, Option.bind_some, ih h]

/-- In a quote nothing is counted. -/
theorem step_quoted (d k : Nat) (quote c : Char) :
    step b quotes ⟨d, k, some quote⟩ c = some ⟨d, k, if c = quote then none else some quote⟩ :=
  rfl

/-- Only a closing bracket leads nowhere, and only where nothing is open. -/
theorem step_eq_none_iff {o : Openings} {c : Char} :
    o.step b quotes c = none ↔ o.quote = none ∧ o.depth = 0 ∧ c = b.closing := by
  obtain ⟨d, k, q⟩ := o
  have hclosing : isQuote b.closing = false := by cases b <;> rfl
  cases q with
  | some quote => simp [step]
  | none =>
      simp only [step, true_and]
      split
      · next hquote =>
          simp only [reduceCtorEq, false_iff, not_and]
          rintro - rfl
          simp [hclosing] at hquote
      · cases d with
        | zero => by_cases hc : c = b.closing <;> simp [hc]
        | succ d => by_cases hc : c = b.closing <;> simp [hc]

/-- A step inside further brackets. -/
theorem step_add_depth {d k d' k' : Nat} {q q' : Option Char} {c : Char}
    (h : step b quotes ⟨d, k, q⟩ c = some ⟨d', k', q'⟩) (e : Nat) :
    step b quotes ⟨d + e, k, q⟩ c = some ⟨d' + e, k', q'⟩ := by
  cases q with
  | some quote =>
      rw [step_quoted] at h ⊢
      cases h
      rfl
  | none =>
      simp only [step] at h ⊢
      split at h
      · next hquote =>
          rw [if_pos hquote]
          cases h
          rfl
      · next hquote =>
          rw [if_neg hquote]
          split at h
          · next hclosing =>
              rw [if_pos hclosing]
              cases d with
              | zero => cases h
              | succ d =>
                  cases h
                  rw [Nat.add_right_comm]
          · next hclosing =>
              rw [if_neg hclosing]
              cases h
              have hdepth : (if c = b.opening then d + e + 1 else d + e) =
                  (if c = b.opening then d + 1 else d) + e := by
                split <;> omega
              rw [hdepth]

/-- **Texts are followed inside further brackets** in the same way. -/
theorem after_add_depth {d k d' k' : Nat} {q q' : Option Char} {cs : List Char}
    (h : after b quotes ⟨d, k, q⟩ cs = some ⟨d', k', q'⟩) (e : Nat) :
    after b quotes ⟨d + e, k, q⟩ cs = some ⟨d' + e, k', q'⟩ := by
  generalize ho : (⟨d, k, q⟩ : Openings) = o at h
  fun_induction after b quotes o cs generalizing d k q with
  | case1 o => cases h; cases ho; rfl
  | case2 o c rest ih => rw [after_escape, ih ho h]
  | case3 => cases h
  | case4 o c rest _ hc hstep => cases h
  | case5 o c rest _ hc o'' hstep ih =>
      subst ho
      obtain ⟨d'', k'', q''⟩ := o''
      rw [after_cons hc, step_add_depth hstep e, Option.bind_some, ih rfl h]

/-! ### Pieces that leave everything as it was -/

/-- A step at a character that delimits nothing. -/
theorem step_of_plain {o : Openings} {c : Char} (ho : o.quote = none)
    (hc : isDelimiter c = false) : o.step b quotes c = some o := by
  obtain ⟨d, k, q⟩ := o
  cases ho
  simp only [isDelimiter, Bool.or_eq_false_iff, beq_eq_false_iff_ne] at hc
  obtain ⟨⟨⟨⟨⟨⟨hopen, hclose⟩, hsquare⟩, hsquare'⟩, hsingle⟩, hdouble⟩, -⟩ := hc
  have hquote : isQuote c = false := by simp [isQuote, hsingle, hdouble]
  have hsquares : squaresAfter k c = k := by simp [squaresAfter, hsquare, hsquare']
  have hopening : c ≠ b.opening := by cases b <;> assumption
  have hclosing : c ≠ b.closing := by cases b <;> assumption
  simp [step, hquote, hsquares, hopening, hclosing]

/-- A text without delimiters leaves everything as it was. -/
theorem after_of_plain {o : Openings} {cs : List Char} (ho : o.quote = none)
    (h : ∀ c ∈ cs, isDelimiter c = false) : after b quotes o cs = some o := by
  induction cs with
  | nil => rw [after]
  | cons c rest ih =>
      have hc := h c List.mem_cons_self
      have hback : c ≠ '\\' := by
        rintro rfl
        exact absurd hc (by decide)
      rw [after_cons hback, step_of_plain ho hc, Option.bind_some,
        ih fun d hd => h d (List.mem_cons_of_mem c hd)]

/-- **Escaped arguments** leave everything as it was. -/
theorem after_escapeArgument {o : Openings} (ho : o.quote = none) (cs : List Char) :
    after b quotes o (escapeArgument cs) = some o := by
  induction cs with
  | nil => rw [escapeArgument, after]
  | cons c rest ih =>
      rw [escapeArgument]
      split
      · rw [after_escape, ih]
      · next hc =>
          have hplain : isDelimiter c = false := by simpa using hc
          have hback : c ≠ '\\' := by
            rintro rfl
            exact absurd hplain (by decide)
          rw [after_cons hback, step_of_plain ho hplain, Option.bind_some, ih]

/-- The inside of a quoted value stays in its quotes. -/
theorem after_escapeQuoted (d k : Nat) (cs : List Char) :
    after b quotes ⟨d, k, some '"'⟩ (escapeQuoted cs) = some ⟨d, k, some '"'⟩ := by
  induction cs with
  | nil => rw [escapeQuoted, after]
  | cons c rest ih =>
      rw [escapeQuoted]
      split
      · rw [after_escape, ih]
      · next hc =>
          rw [not_or] at hc
          rw [after_cons hc.2, step_quoted, if_neg hc.1, Option.bind_some, ih]

/-- **Quoted values** leave everything as it was where quotes are honoured and a
square bracket is open. -/
theorem after_writeQuoted {o : Openings} (ho : o.quote = none) (hk : o.squares ≠ 0)
    (cs : List Char) : after b true o (writeQuoted cs) = some o := by
  obtain ⟨d, k, q⟩ := o
  cases ho
  have hopen : step b true ⟨d, k, none⟩ '"' = some ⟨d, k, some '"'⟩ := by
    have hk : k ≠ 0 := hk
    simp [step, squaresAfter, isQuote, hk]
  have hclose : step b true ⟨d, k, some '"'⟩ '"' = some ⟨d, k, none⟩ := by simp [step]
  rw [writeQuoted, List.cons_append, after_cons (by decide), hopen, Option.bind_some,
    after_append (after_escapeQuoted d k cs), after_cons (by decide), hclose,
    Option.bind_some, after]

end Openings

/-! ### Slices -/

variable {b : Bracket} {quotes : Bool}

/-- Where nothing is quoted, the search looks at a character that no backslash hides. -/
theorem sliceFrom_none_cons {c : Char} {cs : List Char}
    (hnot : ∀ (d : Char) (rest : List Char), c = '\\' → cs = d :: rest → False)
    (b : Bracket) (quotes : Bool) (depth squares position : Nat) :
    sliceFrom b quotes depth squares none position (c :: cs) =
      if (isQuote c && quotes && squaresAfter squares c ≠ 0) = true then
        (sliceFrom b quotes depth (squaresAfter squares c) (some (c, position)) (position + 1)
          cs).map (keep [c])
      else if c = b.closing then
        match depth with
        | 0 => .ok ([], cs)
        | depth + 1 =>
          (sliceFrom b quotes depth (squaresAfter squares c) none (position + 1) cs).map
            (keep [c])
      else
        (sliceFrom b quotes (if c = b.opening then depth + 1 else depth)
          (squaresAfter squares c) none (position + 1) cs).map (keep [c]) := by
  cases depth <;> rw [sliceFrom] <;> exact hnot

/-- At a character that no backslash hides, the search ends where a step leads nowhere,
and else goes on with what the step leaves open. -/
theorem sliceFrom_cons {o : Openings} {quoted : Option (Char × Nat)}
    (hq : quoted.map (·.1) = o.quote) {c : Char} (hc : c ≠ '\\') (position : Nat)
    (rest : List Char) :
    (o.step b quotes c = none →
      sliceFrom b quotes o.depth o.squares quoted position (c :: rest) = .ok ([], rest)) ∧
    ∀ o', o.step b quotes c = some o' →
      ∃ quoted' : Option (Char × Nat), quoted'.map (·.1) = o'.quote ∧
        sliceFrom b quotes o.depth o.squares quoted position (c :: rest) =
          (sliceFrom b quotes o'.depth o'.squares quoted' (position + 1) rest).map
            (keep [c]) := by
  obtain ⟨d, k, q⟩ := o
  have hnot : ∀ (e : Char) (more : List Char), c = '\\' → rest = e :: more → False :=
    fun _ _ h _ => hc h
  cases quoted with
  | some quoted =>
      obtain ⟨quote, start⟩ := quoted
      cases hq
      refine ⟨fun h => absurd h (by simp [Openings.step]), fun o' h => ?_⟩
      rw [Openings.step_quoted] at h
      cases h
      refine ⟨if c = quote then none else some (quote, start), by split <;> rfl, ?_⟩
      rw [sliceFrom]
      exact hnot
  | none =>
      cases hq
      dsimp only [Openings.step]
      rw [sliceFrom_none_cons hnot]
      split
      · refine ⟨fun h => (by cases h), fun o' h => ?_⟩
        cases h
        exact ⟨some (c, position), rfl, rfl⟩
      split
      · cases d with
        | zero => exact ⟨fun _ => rfl, fun o' h => (by cases h)⟩
        | succ d =>
            refine ⟨fun h => (by cases h), fun o' h => ?_⟩
            cases h
            exact ⟨none, rfl, rfl⟩
      · refine ⟨fun h => (by cases h), fun o' h => ?_⟩
        cases h
        exact ⟨none, rfl, rfl⟩

/-- A backslash that hides nothing ends no slice. -/
theorem sliceFrom_backslash (b : Bracket) (quotes : Bool) (d k : Nat)
    (quoted : Option (Char × Nat)) (position : Nat) :
    ∃ e, sliceFrom b quotes d k quoted position ['\\'] = .error e := by
  have hclosing : '\\' ≠ b.closing := by cases b <;> decide
  have hquote : isQuote '\\' = false := by decide
  cases quoted with
  | some quoted =>
      obtain ⟨quote, start⟩ := quoted
      by_cases h : '\\' = quote
      · subst h
        simp [sliceFrom, Except.map]
      · simp [sliceFrom, Except.map, h]
  | none => cases d <;> simp [sliceFrom, Except.map, hclosing, hquote]

/-- A slice is followed by the bracket that closes it, and leaves nothing open. -/
theorem eq_append_of_sliceFrom {o : Openings} {quoted : Option (Char × Nat)}
    (hq : quoted.map (·.1) = o.quote) {position : Nat} {cs inner rest : List Char}
    (h : sliceFrom b quotes o.depth o.squares quoted position cs = .ok (inner, rest)) :
    cs = inner ++ b.closing :: rest ∧
      ∃ k, o.after b quotes inner = some ⟨0, k, none⟩ := by
  fun_induction Openings.after b quotes o cs generalizing quoted position inner with
  | case1 o => cases quoted <;> simp [sliceFrom] at h
  | case2 o c cs ih =>
      rw [sliceFrom] at h
      obtain ⟨⟨inner', rest'⟩, hslice, hkeep⟩ := map_keep_eq_ok.1 h
      cases hkeep
      obtain ⟨rfl, k, hafter⟩ := ih hq hslice
      exact ⟨rfl, k, by simpa using hafter⟩
  | case3 o cs hnot =>
      cases cs with
      | cons c cs => exact absurd rfl fun h => hnot c cs h rfl
      | nil =>
          obtain ⟨e, he⟩ :=
            sliceFrom_backslash b quotes o.depth o.squares quoted position
          rw [he] at h
          cases h
  | case4 o c cs _ hc hstep =>
      rw [(sliceFrom_cons hq hc position cs).1 hstep] at h
      cases h
      obtain ⟨hquote, hdepth, rfl⟩ := Openings.step_eq_none_iff.1 hstep
      obtain ⟨d, k, q⟩ := o
      cases hquote
      cases hdepth
      exact ⟨rfl, k, by rw [Openings.after]⟩
  | case5 o c cs _ hc o' hstep ih =>
      obtain ⟨quoted', hq', hcons⟩ := (sliceFrom_cons hq hc position cs).2 o' hstep
      rw [hcons] at h
      obtain ⟨⟨inner', rest'⟩, hslice, hkeep⟩ := map_keep_eq_ok.1 h
      cases hkeep
      obtain ⟨rfl, k, hafter⟩ := ih hq' hslice
      refine ⟨rfl, k, ?_⟩
      rw [List.singleton_append, Openings.after_cons hc, hstep]
      exact hafter

@[simp] theorem map_keep_nil (e : Except Unclosed (List Char × List Char)) :
    e.map (keep []) = e := by
  cases e <;> rfl

theorem map_keep_keep (e : Except Unclosed (List Char × List Char)) (cs ds : List Char) :
    (e.map (keep ds)).map (keep cs) = e.map (keep (cs ++ ds)) := by
  cases e <;> simp [Except.map, keep]

/-- **The search passes over a text** that can be followed, and goes on with what the text
leaves open. -/
theorem sliceFrom_of_after {o o' : Openings} {quoted : Option (Char × Nat)}
    (hq : quoted.map (·.1) = o.quote) {cs : List Char} (h : o.after b quotes cs = some o')
    (position : Nat) (rest : List Char) :
    ∃ quoted' : Option (Char × Nat), quoted'.map (·.1) = o'.quote ∧
      sliceFrom b quotes o.depth o.squares quoted position (cs ++ rest) =
        (sliceFrom b quotes o'.depth o'.squares quoted' (position + cs.length) rest).map
          (keep cs) := by
  fun_induction Openings.after b quotes o cs generalizing quoted position with
  | case1 o =>
      cases h
      exact ⟨quoted, hq, by simp⟩
  | case2 o c cs ih =>
      obtain ⟨quoted', hq', hrun⟩ := ih hq h (position + 2)
      refine ⟨quoted', hq', ?_⟩
      rw [List.cons_append, List.cons_append, sliceFrom, hrun, map_keep_keep, Nat.add_assoc,
        Nat.add_comm 2]
      rfl
  | case3 => cases h
  | case4 o c cs _ hc hstep => cases h
  | case5 o c cs _ hc o'' hstep ih =>
      obtain ⟨between, hbetween, hcons⟩ := (sliceFrom_cons hq hc position (cs ++ rest)).2 o'' hstep
      obtain ⟨quoted', hq', hrun⟩ := ih hbetween h (position + 1)
      refine ⟨quoted', hq', ?_⟩
      rw [List.cons_append, hcons, hrun, map_keep_keep, Nat.add_assoc, Nat.add_comm 1]
      rfl

/-- What leaves nothing open is a slice, when the closing bracket comes next. -/
theorem sliceFrom_append {o : Openings} {quoted : Option (Char × Nat)}
    (hq : quoted.map (·.1) = o.quote) {inner : List Char} {k : Nat}
    (h : o.after b quotes inner = some ⟨0, k, none⟩) (position : Nat) (rest : List Char) :
    sliceFrom b quotes o.depth o.squares quoted position (inner ++ b.closing :: rest) =
      .ok (inner, rest) := by
  have hclosing : b.closing ≠ '\\' := by cases b <;> decide
  obtain ⟨quoted', hq', hrun⟩ := sliceFrom_of_after hq h position (b.closing :: rest)
  have hend : sliceFrom b quotes 0 k quoted' (position + inner.length) (b.closing :: rest) =
      .ok ([], rest) :=
    (sliceFrom_cons hq' hclosing (position + inner.length) rest).1
      (Openings.step_eq_none_iff.2 ⟨rfl, rfl, rfl⟩)
  rw [hrun, hend]
  simp [Except.map, keep]

/-- **Slices.**  The slice after an opening bracket is the text up to a closing bracket,
taken where nothing is open. -/
theorem Bracket.slice_eq_ok_iff {position : Nat} {cs inner rest : List Char} :
    b.slice quotes position cs = .ok (inner, rest) ↔
      cs = inner ++ b.closing :: rest ∧ Openings.closes b quotes inner = true := by
  rw [Openings.closes_iff]
  constructor
  · intro h
    exact eq_append_of_sliceFrom (o := Openings.initial b) rfl h
  · rintro ⟨rfl, k, h⟩
    exact sliceFrom_append (o := Openings.initial b) rfl h position rest

/-- **Of two texts that close a bracket**, none breaks off where the other goes on with
the closing bracket. -/
theorem Openings.not_breaksOff_of_closes {cs ds : List Char}
    (hcs : Openings.closes b quotes cs = true) (hds : Openings.closes b quotes ds = true) :
    ¬ BreaksOff b.closing cs ds := by
  rintro ⟨back, hback⟩
  have hslice : b.slice quotes 0 (ds ++ [b.closing]) = .ok (ds, []) :=
    Bracket.slice_eq_ok_iff.2 ⟨rfl, hds⟩
  have hslice' : b.slice quotes 0 (ds ++ [b.closing]) = .ok (cs, back ++ [b.closing]) :=
    Bracket.slice_eq_ok_iff.2 ⟨by simp [← hback], hcs⟩
  rw [hslice] at hslice'
  cases back <;> cases hslice'

end MarkupQuery.Delimited
