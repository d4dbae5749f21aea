import MarkupQuery.Proofs.Spelling

/-!
# Slices, chunk by chunk

The search for a closing bracket takes a text in chunks.  A backslash takes the character
after it along; a quote, where quotes are honoured and a square bracket is open, takes
everything up to the next quote of its kind; any other character stands alone.  Only what
stands alone is counted, so where a slice ends can be said of the chunks, without the
search.

* `Chunk`, `chunks` — the chunks of a text, and what a quote without end takes;
* `depthAfter`, `ClosesAt`, `ClosesFirstAt` — where the bracket is closed;
* `searchedTo_sliceFrom` — what the search comes to;
* `Token.sliced_closesFirst` — slices end at the first place where the bracket is closed.
-/

namespace MarkupQuery

namespace Delimited

/-! ### Chunks -/

/-- What the search for a closing bracket takes at once. -/
inductive Chunk where
  /-- A backslash and the character that it hides. -/
  | hidden (c : Char)
  /-- A text between two quotes. -/
  | quoted (quote : Char) (inner : List Char)
  | single (c : Char)
  deriving DecidableEq, Repr

/-- The characters of a chunk. -/
def Chunk.text : Chunk → List Char
  | hidden c => ['\\', c]
  | quoted quote inner => quote :: inner ++ [quote]
  | single c => [c]

/-- The characters of chunks, one after the other. -/
def textOf (all : List Chunk) : List Char := all.flatMap Chunk.text

@[simp] theorem textOf_nil : textOf [] = [] := rfl

@[simp] theorem textOf_cons (chunk : Chunk) (all : List Chunk) :
    textOf (chunk :: all) = chunk.text ++ textOf all := rfl

/-- The text up to the next quote of a kind that no backslash hides, and the text after
that quote. -/
def untilQuote (quote : Char) : List Char → Option (List Char × List Char)
  | [] => none
  | '\\' :: c :: rest => (untilQuote quote rest).map (keep ['\\', c])
  | c :: rest => if c = quote then some ([], rest) else (untilQuote quote rest).map (keep [c])

theorem eq_append_of_untilQuote {quote : Char} {cs inner rest : List Char}
    (h : untilQuote quote cs = some (inner, rest)) : cs = inner ++ quote :: rest := by
  fun_induction untilQuote quote cs generalizing inner with
  | case1 => cases h
  | case2 c cs ih =>
      obtain ⟨⟨inner', rest'⟩, hinner, hkeep⟩ := Option.map_eq_some_iff.1 h
      cases hkeep
      rw [ih hinner]
      rfl
  | case3 cs => cases h; rfl
  | case4 c cs _ _ ih =>
      obtain ⟨⟨inner', rest'⟩, hinner, hkeep⟩ := Option.map_eq_some_iff.1 h
      cases hkeep
      rw [ih hinner]
      rfl

/-- The chunks of a text in which `squares` square brackets are open at the start, and what
is left of it: the text from a quote on that never ends. -/
def chunks (quotes : Bool) (squares : Nat) : List Char → List Chunk × List Char
  | [] => ([], [])
  | '\\' :: c :: rest => (chunks quotes squares rest).map (.hidden c :: ·) id
  | c :: rest =>
    if isQuote c && quotes && squares ≠ 0 then
      match _ : untilQuote c rest with
      | none => ([], c :: rest)
      | some (inner, after) => (chunks quotes squares after).map (.quoted c inner :: ·) id
    else (chunks quotes (squaresAfter squares c) rest).map (.single c :: ·) id
termination_by cs => cs.length
decreasing_by
  · simp only [List.length_cons]
    omega
  · rw [eq_append_of_untilQuote ‹untilQuote c rest = some (inner, after)›]
    simp only [List.length_cons, List.length_append]
    omega
  · simp only [List.length_cons]
    omega

/-- **Chunks are the text,** cut into pieces. -/
theorem textOf_chunks (quotes : Bool) (squares : Nat) (cs : List Char) :
    textOf (chunks quotes squares cs).1 ++ (chunks quotes squares cs).2 = cs := by
  fun_induction chunks quotes squares cs with
  | case1 => rfl
  | case2 squares c rest ih => simp [Chunk.text, ih]
  | case3 => rfl
  | case4 squares c rest _ _ inner after h ih =>
      simp [Chunk.text, ih, eq_append_of_untilQuote h]
  | case5 squares c rest _ _ ih => simp [Chunk.text, ih]

/-- A hidden and a quoted bracket are no brackets, and behind the one that closes a quote
stands alone. -/
example : chunks true 1 ['\\', ']', '"', ']', '"', ']', '"'] =
    ([.hidden ']', .quoted '"' [']'], .single ']', .single '"'], []) := by
  decide +kernel

/-! ### Where a bracket is closed -/

variable {b : Bracket} {quotes : Bool} {depth : Int} {all front back : List Chunk}

/-- What a chunk adds to the number of open brackets. -/
def Chunk.weight (b : Bracket) : Chunk → Int
  | single c => if c = b.opening then 1 else if c = b.closing then -1 else 0
  | _ => 0

@[simp] theorem Chunk.weight_closing (b : Bracket) :
    (Chunk.single b.closing).weight b = -1 := by
  cases b <;> rfl

/-- The number of open brackets after some chunks, of which `depth` were open before. -/
def depthAfter (b : Bracket) (depth : Int) : List Chunk → Int
  | [] => depth
  | chunk :: all => depthAfter b (depth + chunk.weight b) all

@[simp] theorem depthAfter_nil (b : Bracket) (depth : Int) : depthAfter b depth [] = depth := rfl

@[simp] theorem depthAfter_cons (b : Bracket) (depth : Int) (chunk : Chunk)
    (all : List Chunk) :
    depthAfter b depth (chunk :: all) = depthAfter b (depth + chunk.weight b) all := rfl

/-- After the chunks in front a single closing bracket brings the number of open brackets
from one to zero. -/
def ClosesAt (b : Bracket) (depth : Int) (all front back : List Chunk) : Prop :=
  all = front ++ .single b.closing :: back ∧ depthAfter b depth front = 1

/-- The first place where the bracket is closed. -/
def ClosesFirstAt (b : Bracket) (depth : Int) (all front back : List Chunk) : Prop :=
  ClosesAt b depth all front back ∧
    ∀ front' back', ClosesAt b depth all front' back' → front <+: front'

/-- There is only one first place. -/
theorem ClosesFirstAt.unique {front' back' : List Chunk} (h : ClosesFirstAt b depth all front back)
    (h' : ClosesFirstAt b depth all front' back') : front = front' ∧ back = back' := by
  have hle : front <+: front' := h.2 _ _ h'.1
  have hge : front' <+: front := h'.2 _ _ h.1
  obtain rfl : front = front' := hle.eq_of_length_le hge.length_le
  have hback := List.append_cancel_left (h.1.1.symm.trans h'.1.1)
  exact ⟨rfl, (List.cons.inj hback).2⟩

/-- Nothing is closed where there is no chunk. -/
theorem not_closesAt_nil : ¬ ClosesAt b depth [] front back := by
  rintro ⟨hnil, -⟩
  simp at hnil

/-- The bracket is closed by the first chunk or after it. -/
theorem closesAt_cons_iff {chunk : Chunk} :
    ClosesAt b depth (chunk :: all) front back ↔
      (front = [] ∧ chunk = .single b.closing ∧ back = all ∧ depth = 1) ∨
        ∃ front', front = chunk :: front' ∧
          ClosesAt b (depth + chunk.weight b) all front' back := by
  cases front with
  | nil => simp [ClosesAt, and_assoc, eq_comm]
  | cons chunk' front =>
      constructor
      · rintro ⟨hall, hdepth⟩
        obtain ⟨rfl, htail⟩ := List.cons.inj hall
        exact .inr ⟨front, rfl, htail, by rwa [depthAfter_cons] at hdepth⟩
      · rintro (⟨hnil, -⟩ | ⟨front', hfront, hall, hdepth⟩)
        · cases hnil
        · cases hfront
          exact ⟨by rw [hall]; rfl, by rwa [depthAfter_cons]⟩

/-- A chunk that does not close the bracket comes before the first place where it is
closed. -/
theorem ClosesFirstAt.cons {chunk : Chunk} (hpass : ¬ (chunk = .single b.closing ∧ depth = 1))
    (h : ClosesFirstAt b (depth + chunk.weight b) all front back) :
    ClosesFirstAt b depth (chunk :: all) (chunk :: front) back := by
  refine ⟨closesAt_cons_iff.2 (.inr ⟨front, rfl, h.1⟩), fun front' back' h' => ?_⟩
  rcases closesAt_cons_iff.1 h' with ⟨-, hchunk, -, hdepth⟩ | ⟨front'', rfl, hlater⟩
  · exact absurd ⟨hchunk, hdepth⟩ hpass
  · exact (List.prefix_cons_inj chunk).2 (h.2 _ _ hlater)

/-! ### The search -/

/-- What the search for a closing bracket comes to, said of the chunks of the text at
`position` and what is left of it. -/
inductive SearchedTo (b : Bracket) (depth : Int) (position : Nat) (all : List Chunk)
    (left : List Char) : Except Unclosed (List Char × List Char) → Prop
  | closed {front back : List Chunk} (h : ClosesFirstAt b depth all front back) :
      SearchedTo b depth position all left (.ok (textOf front, textOf back ++ left))
  | unclosed (h : ∀ front back, ¬ ClosesAt b depth all front back) :
      SearchedTo b depth position all left
        (.error (if left = [] then .bracket else .quote (position + (textOf all).length)))

/-- The search ends at a chunk that closes the bracket. -/
theorem SearchedTo.here (b : Bracket) (position : Nat) (all : List Chunk) (left : List Char) :
    SearchedTo b 1 position (.single b.closing :: all) left (.ok ([], textOf all ++ left)) :=
  .closed ⟨⟨rfl, depthAfter_nil b 1⟩, fun _ _ _ => List.nil_prefix⟩

/-- **One chunk** that does not close the bracket is kept, and the search goes on after it. -/
theorem SearchedTo.cons {chunk : Chunk} {position : Nat} {left : List Char}
    {e : Except Unclosed (List Char × List Char)}
    (hpass : ¬ (chunk = .single b.closing ∧ depth = 1))
    (h : SearchedTo b (depth + chunk.weight b) (position + chunk.text.length) all left e) :
    SearchedTo b depth position (chunk :: all) left (e.map (keep chunk.text)) := by
  cases h with
  | closed hfirst => exact .closed (hfirst.cons hpass)
  | unclosed hnone =>
      have hnone' : ∀ front back, ¬ ClosesAt b depth (chunk :: all) front back := by
        intro front back hcloses
        rcases closesAt_cons_iff.1 hcloses with ⟨-, hchunk, -, hdepth⟩ | ⟨front', -, hlater⟩
        · exact hpass ⟨hchunk, hdepth⟩
        · exact hnone _ _ hlater
      have hlen : position + chunk.text.length + (textOf all).length =
          position + (textOf (chunk :: all)).length := by
        rw [textOf_cons, List.length_append, Nat.add_assoc]
      rw [hlen]
      exact .unclosed hnone'

/-- A quote is no bracket. -/
theorem squaresAfter_of_isQuote {c : Char} (hc : isQuote c = true) (squares : Nat) :
    squaresAfter squares c = squares := by
  have hopening : c ≠ '[' := by rintro rfl; exact absurd hc (by decide)
  have hclosing : c ≠ ']' := by rintro rfl; exact absurd hc (by decide)
  simp [squaresAfter, hopening, hclosing]

/-- Whether a quote is honoured can be asked before it is counted. -/
theorem honoured_squaresAfter (quotes : Bool) (squares : Nat) (c : Char) :
    (isQuote c && quotes && squaresAfter squares c ≠ 0) =
      (isQuote c && quotes && squares ≠ 0) := by
  cases hc : isQuote c with
  | true => rw [squaresAfter_of_isQuote hc]
  | false => rfl

/-- **A quote** takes everything up to its end, or the search fails at it. -/
theorem sliceFrom_quoted (b : Bracket) (quotes : Bool) (depth squares : Nat) (quote : Char)
    (start position : Nat) (cs : List Char) :
    sliceFrom b quotes depth squares (some (quote, start)) position cs =
      match untilQuote quote cs with
      | none => .error (.quote start)
      | some (inner, rest) =>
        (sliceFrom b quotes depth squares none (position + (inner.length + 1)) rest).map
          (keep (inner ++ [quote])) := by
  fun_induction untilQuote quote cs generalizing position with
  | case1 => rw [sliceFrom]
  | case2 c cs ih =>
      rw [sliceFrom, ih]
      cases untilQuote quote cs with
      | none => rfl
      | some found =>
          obtain ⟨inner, rest⟩ := found
          have hlen : position + 2 + (inner.length + 1) =
              position + ((['\\', c] ++ inner).length + 1) := by
            simp only [List.length_append, List.length_cons, List.length_nil]
            omega
          simp only [Option.map_some, map_keep_keep, hlen, keep, List.append_assoc]
  | case3 cs hnot =>
      rw [sliceFrom, if_pos rfl]
      · rfl
      · exact hnot
  | case4 c cs hnot hc ih =>
      rw [sliceFrom, if_neg hc, ih]
      · cases untilQuote quote cs with
        | none => rfl
        | some found =>
            obtain ⟨inner, rest⟩ := found
            have hlen : position + 1 + (inner.length + 1) =
                position + (([c] ++ inner).length + 1) := by
              simp only [List.length_append, List.length_cons, List.length_nil]
              omega
            simp only [Option.map_some, map_keep_keep, hlen, keep, List.append_assoc]
      · exact hnot

/-- **What the search comes to:** it ends at the first place where the bracket is closed, or
fails at the quote that never ends, or for want of a closing bracket. -/
theorem searchedTo_sliceFrom (b : Bracket) (quotes : Bool) (depth squares position : Nat)
    (cs : List Char) :
    SearchedTo b (depth + 1) position (chunks quotes squares cs).1 (chunks quotes squares cs).2
      (sliceFrom b quotes depth squares none position cs) := by
  -- the search does not count the bracket that is to be closed, so the depth is one more
  fun_induction chunks quotes squares cs generalizing depth position with
  | case1 squares =>
      rw [sliceFrom]
      exact .unclosed fun _ _ => not_closesAt_nil
  | case2 squares c cs ih =>
      rw [sliceFrom]
      refine SearchedTo.cons (by simp) ?_
      simpa [Chunk.weight, Chunk.text] using ih depth (position + 2)
  | case3 squares c cs hnot hquote hnone =>
      rw [sliceFrom_none_cons hnot, if_pos (by rwa [honoured_squaresAfter]), sliceFrom_quoted,
        hnone]
      exact .unclosed fun _ _ => not_closesAt_nil
  | case4 squares c cs hnot hquote inner after hsome ih =>
      have hc : isQuote c = true := by simp_all
      rw [sliceFrom_none_cons hnot, if_pos (by rwa [honoured_squaresAfter]), sliceFrom_quoted,
        hsome, squaresAfter_of_isQuote hc]
      simp only [map_keep_keep]
      refine SearchedTo.cons (by simp) ?_
      have hlen : position + (Chunk.quoted c inner).text.length =
          position + 1 + (inner.length + 1) := by
        simp only [Chunk.text, List.length_append, List.length_cons, List.length_nil]
        omega
      rw [hlen]
      simpa [Chunk.weight] using ih depth (position + 1 + (inner.length + 1))
  | case5 squares c cs hnot hquote ih =>
      rw [sliceFrom_none_cons hnot, if_neg (by rwa [honoured_squaresAfter])]
      split
      · next hclosing =>
          subst hclosing
          cases depth with
          | zero =>
              have hhere := SearchedTo.here b position
                (chunks quotes (squaresAfter squares b.closing) cs).1
                (chunks quotes (squaresAfter squares b.closing) cs).2
              rwa [textOf_chunks] at hhere
          | succ depth =>
              refine SearchedTo.cons (fun h => by have := h.2; omega) ?_
              have hdepth : ((depth + 1 : Nat) : Int) + 1 + (Chunk.single b.closing).weight b =
                  depth + 1 := by
                rw [Chunk.weight_closing]
                omega
              rw [hdepth]
              exact ih depth (position + 1)
      · next hclosing =>
          refine SearchedTo.cons (fun h => hclosing (by simpa using h.1)) ?_
          have hdepth : (depth : Int) + 1 + (Chunk.single c).weight b =
              (if c = b.opening then depth + 1 else depth : Nat) + 1 := by
            rw [Chunk.weight, if_neg hclosing]
            split <;> omega
          rw [hdepth]
          exact ih _ (position + 1)

/-- What the search for the end of a slice comes to. -/
theorem Bracket.searchedTo_slice (b : Bracket) (quotes : Bool) (position : Nat)
    (cs : List Char) :
    SearchedTo b 1 position (chunks quotes (if b = .square then 1 else 0) cs).1
      (chunks quotes (if b = .square then 1 else 0) cs).2 (b.slice quotes position cs) :=
  searchedTo_sliceFrom b quotes 0 _ position cs

namespace SearchedTo

variable {position : Nat} {left : List Char} {e : Except Unclosed (List Char × List Char)}

/-- A slice is found exactly if the bracket is closed somewhere. -/
theorem exists_ok_iff (h : SearchedTo b depth position all left e) :
    (∃ slice, e = .ok slice) ↔ ∃ front back, ClosesAt b depth all front back := by
  cases h with
  | @closed front back hfirst => exact ⟨fun _ => ⟨front, back, hfirst.1⟩, fun _ => ⟨_, rfl⟩⟩
  | unclosed hnone =>
      constructor
      · intro hfound
        obtain ⟨slice, hslice⟩ := hfound
        cases hslice
      · intro hfound
        obtain ⟨front, back, hcloses⟩ := hfound
        exact absurd hcloses (hnone front back)

/-- The slice is what stands before the first place where the bracket is closed. -/
theorem eq_ok_iff (h : SearchedTo b depth position all left e) {inner rest : List Char} :
    e = .ok (inner, rest) ↔ ∃ front back, ClosesFirstAt b depth all front back ∧
      inner = textOf front ∧ rest = textOf back ++ left := by
  cases h with
  | @closed front back hfirst =>
      constructor
      · intro hslice
        cases hslice
        exact ⟨front, back, hfirst, rfl, rfl⟩
      · rintro ⟨front', back', hfirst', rfl, rfl⟩
        obtain ⟨rfl, rfl⟩ := hfirst.unique hfirst'
        rfl
  | unclosed hnone =>
      constructor
      · intro hslice
        cases hslice
      · intro hfound
        obtain ⟨front, back, hfirst, -⟩ := hfound
        exact absurd hfirst.1 (hnone front back)

/-- Where the bracket is not closed, the search fails at what is left. -/
theorem eq_error (h : SearchedTo b depth position all left e)
    (hnone : ∀ front back, ¬ ClosesAt b depth all front back) :
    e = .error (if left = [] then .bracket else .quote (position + (textOf all).length)) := by
  cases h with
  | @closed front back hfirst => exact absurd hfirst.1 (hnone front back)
  | unclosed => rfl

end SearchedTo

/-- A quote that is never closed stands in the text. -/
theorem Bracket.quote_of_slice {position q : Nat} {cs : List Char}
    (h : b.slice quotes position cs = .error (.quote q)) :
    position ≤ q ∧ q < position + cs.length := by
  have hsearch := b.searchedTo_slice quotes position cs
  have htext := textOf_chunks quotes (if b = .square then 1 else 0) cs
  generalize chunks quotes (if b = .square then 1 else 0) cs = cut at hsearch htext
  have hnone : ∀ front back, ¬ ClosesAt b 1 cut.1 front back := by
    intro front back hcloses
    obtain ⟨slice, hslice⟩ := hsearch.exists_ok_iff.2 ⟨front, back, hcloses⟩
    cases hslice.symm.trans h
  have herror := (hsearch.eq_error hnone).symm.trans h
  have hlen := congrArg List.length htext
  rw [List.length_append] at hlen
  split at herror
  · cases herror
  · next hleft =>
      cases herror
      have := List.length_pos_iff.2 hleft
      omega

end Delimited

open Delimited

namespace Token

/-! ### Slices -/

/-- The slice of the bracket that was opened at `opening`, of a text that starts at
`position`. -/
def sliced (b : Bracket) (quotes : Bool) (opening position : Nat) (cs : List Char) :
    Except SelectorError (List Char × List Char) :=
  (b.slice quotes position cs).mapError (unclosed b opening)

theorem bracketed_eq_sliced (position : Nat) (rest : List Char) :
    bracketed position rest =
      match sliced .square true position (position + 1) rest with
      | .ok (content, rest) => (.attribute content, rest)
      | .error e => (.fault e, []) := by
  unfold bracketed sliced
  cases Bracket.square.slice true (position + 1) rest <;> rfl

theorem argument_eq_sliced (name : PseudoName) (opening : Nat) (rest : List Char) :
    argument name opening rest =
      match sliced .round (name == .has || name == .not) opening (opening + 1) rest with
      | .ok (content, rest) => (.pseudo name (some (opening, content)), rest)
      | .error e => (.fault e, []) := by
  unfold argument sliced
  cases Bracket.round.slice (name == .has || name == .not) (opening + 1) rest <;> rfl

theorem sliced_eq_ok_iff {b : Bracket} {quotes : Bool} {opening position : Nat}
    {cs : List Char} {slice : List Char × List Char} :
    sliced b quotes opening position cs = .ok slice ↔ b.slice quotes position cs = .ok slice := by
  unfold sliced
  cases b.slice quotes position cs <;> simp [Except.mapError]

/-- **Slices end at the first place where the bracket is closed.**  The chunks and what is
left of a text are the text.  There is a slice exactly if a single closing bracket brings
the number of open brackets from one to zero; it is what stands before the first one that
does so, and what stands after it is the rest.  More text after it changes nothing.  If
there is no slice, the error is at the quote that never ends, or else at the opening
bracket. -/
theorem sliced_closesFirst (b : Bracket) (quotes : Bool) (opening position : Nat)
    (cs : List Char) :
    let all := (chunks quotes (if b = .square then 1 else 0) cs).1
    let left := (chunks quotes (if b = .square then 1 else 0) cs).2
    textOf all ++ left = cs ∧
    ((∃ slice, sliced b quotes opening position cs = .ok slice) ↔
      ∃ front back, ClosesAt b 1 all front back) ∧
    (∀ inner rest, sliced b quotes opening position cs = .ok (inner, rest) ↔
      ∃ front back, ClosesFirstAt b 1 all front back ∧ inner = textOf front ∧
        rest = textOf back ++ left) ∧
    (∀ inner rest more, sliced b quotes opening position cs = .ok (inner, rest) →
      cs = inner ++ b.closing :: rest ∧
        sliced b quotes opening position (cs ++ more) = .ok (inner, rest ++ more)) ∧
    ((∀ front back, ¬ ClosesAt b 1 all front back) →
      sliced b quotes opening position cs = .error (if left = []
        then .malformed opening (.unbalanced b.opening b.closing)
        else .malformed (position + (textOf all).length) .unterminatedQuote)) := by
  intro all left
  have hsearch : SearchedTo b 1 position all left (b.slice quotes position cs) :=
    b.searchedTo_slice quotes position cs
  refine ⟨textOf_chunks _ _ cs, ?_, fun inner rest => ?_, fun inner rest more h => ?_,
    fun hnone => ?_⟩
  · simp only [sliced_eq_ok_iff]
    exact hsearch.exists_ok_iff
  · rw [sliced_eq_ok_iff]
    exact hsearch.eq_ok_iff
  · rw [sliced_eq_ok_iff] at h ⊢
    exact ⟨(Bracket.slice_eq_ok_iff.1 h).1, Bracket.slice_append h more⟩
  · rw [sliced, hsearch.eq_error hnone]
    split <;> rfl

end Token

end MarkupQuery
