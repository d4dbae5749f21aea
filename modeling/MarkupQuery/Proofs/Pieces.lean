import MarkupQuery.Proofs.Trimming
import MarkupQuery.Tree.Content

/-!
# Texts made of pieces

Pieces make a text one after the other, and what a piece adds depends on the last character
that is there already.  Here every piece has an origin, which the characters that it writes
inherit, so that one can say where the characters of a text are from.

* `Piece.joinFrom`, `map_fst_joinFrom` — the text with the origins of its characters;
* `filter_joinFrom` — what is no white space is kept, and nothing else comes in;
* `joinFrom_isInfix` — the text of some of the pieces is a part of the text of all;
* `spaced_join` — white space is single spaces, unless some is kept;
* `KeptApart`, `keptApart_joinFrom_iff` — white space between two characters is a gap or a
  blank between two pieces.
-/

namespace MarkupQuery

/-- The letters of a text, all its characters but white space. -/
def Text.letters (cs : List Char) : List Char := cs.filter (!isBlank ·)

namespace Piece

variable {α : Type} {pieces : List (Piece × α)} {s : Char × α}

/-! ### Pieces with origins -/

/-- Whether words come apart at a piece: it is a gap, or a blank that is kept. -/
def parts : Piece → Bool
  | keep c => Text.isBlank c
  | gap => true

/-- Whether a character, whatever its origin, is a blank. -/
def isBlankAt (s : Char × α) : Bool := Text.isBlank s.1

/-- The letter that a piece keeps: a character that is no blank. -/
def letter? : Piece → Option Char
  | keep c => if Text.isBlank c then none else some c
  | gap => none

/-- The pieces that come from the members of a list, with these as their origins. -/
def signed (f : α → List Piece) (l : List α) : List (Piece × α) :=
  l.flatMap fun a => (f a).map (·, a)

@[simp] theorem signed_nil (f : α → List Piece) : signed f [] = [] := rfl

@[simp] theorem signed_cons (f : α → List Piece) (a : α) (l : List α) :
    signed f (a :: l) = (f a).map (·, a) ++ signed f l := rfl

@[simp] theorem signed_append (f : α → List Piece) (l l' : List α) :
    signed f (l ++ l') = signed f l ++ signed f l' := List.flatMap_append

/-- Adds a piece to a text written last character first.  What it writes has its origin. -/
def addFrom (written : List (Char × α)) : Piece × α → List (Char × α)
  | (keep c, a) => (c, a) :: written
  | (gap, a) =>
    match written with
    | [] => []
    | s :: _ => if isBlankAt s then written else (' ', a) :: written

/-- The text that pieces make, trimmed, with the origins of its characters. -/
def joinFrom (pieces : List (Piece × α)) : List (Char × α) :=
  Text.trimBy isBlankAt (pieces.foldl addFrom []).reverse

@[simp] theorem addFrom_keep (written : List (Char × α)) (s : Char × α) :
    addFrom written (keep s.1, s.2) = s :: written := rfl

/-- Origins have no influence on a step. -/
theorem map_fst_addFrom (written : List (Char × α)) (p : Piece × α) :
    (addFrom written p).map (·.1) = addTo (written.map (·.1)) p.1 := by
  obtain ⟨c | _, a⟩ := p
  · rfl
  · cases written with
    | nil => rfl
    | cons s rest => by_cases hs : Text.isBlank s.1 <;> simp [addFrom, addTo, isBlankAt, hs]

theorem map_fst_foldl_addFrom (pieces : List (Piece × α)) (written : List (Char × α)) :
    (pieces.foldl addFrom written).map (·.1) =
      (pieces.map (·.1)).foldl addTo (written.map (·.1)) := by
  induction pieces generalizing written with
  | nil => rfl
  | cons p rest ih => rw [List.foldl_cons, ih, map_fst_addFrom, List.map_cons, List.foldl_cons]

/-- **Without its origins** the text is that of the pieces. -/
theorem map_fst_joinFrom (pieces : List (Piece × α)) :
    (joinFrom pieces).map (·.1) = (join (pieces.map (·.1))).toList := by
  have hdrop : ∀ l : List (Char × α),
      (l.dropWhile isBlankAt).map (·.1) = (l.map (·.1)).dropWhile Text.isBlank := by
    intro l
    rw [List.dropWhile_map]
    rfl
  rw [join, String.toList_ofList, Text.trim_eq_trimBy, joinFrom, Text.trimBy, Text.trimBy,
    List.map_reverse, hdrop, List.map_reverse, hdrop, List.map_reverse, map_fst_foldl_addFrom,
    List.map_nil]

/-! ### What is written stays -/

/-- A piece writes one character at most, which it keeps unless it is a blank. -/
theorem addFrom_cases (written : List (Char × α)) (p : Piece × α) :
    addFrom written p = written ∨
      ∃ s, addFrom written p = s :: written ∧ (isBlankAt s = false → p = (keep s.1, s.2)) := by
  obtain ⟨c | _, a⟩ := p
  · exact .inr ⟨(c, a), rfl, fun _ => rfl⟩
  · cases written with
    | nil => exact .inl rfl
    | cons s rest =>
        by_cases hs : isBlankAt s
        · exact .inl (by simp [addFrom, hs])
        · refine .inr ⟨(' ', a), by simp [addFrom, hs], fun hspace => ?_⟩
          cases show Text.isBlank ' ' = false from hspace

/-- Only the last character counts for what a piece adds. -/
theorem addFrom_append {written : List (Char × α)} (h : written ≠ [])
    (before : List (Char × α)) (p : Piece × α) :
    addFrom written p ≠ [] ∧ addFrom (written ++ before) p = addFrom written p ++ before := by
  obtain ⟨s, rest, rfl⟩ := List.exists_cons_of_ne_nil h
  obtain ⟨c | _, a⟩ := p
  · simp [addFrom]
  · by_cases hs : isBlankAt s <;> simp [addFrom, hs]

theorem foldl_addFrom_append {written : List (Char × α)} (h : written ≠ [])
    (before : List (Char × α)) (pieces : List (Piece × α)) :
    pieces.foldl addFrom (written ++ before) = pieces.foldl addFrom written ++ before := by
  induction pieces generalizing written with
  | nil => rfl
  | cons p rest ih =>
      obtain ⟨hne, hadd⟩ := addFrom_append h before p
      rw [List.foldl_cons, hadd, ih hne, List.foldl_cons]

/-- **Pieces write the same** behind any text, apart from the blank that a gap may put before
them. -/
theorem exists_foldl_addFrom (pieces : List (Piece × α)) (written : List (Char × α)) :
    ∃ lead, pieces.foldl addFrom written = pieces.foldl addFrom [] ++ lead ++ written := by
  induction pieces generalizing written with
  | nil => exact ⟨[], rfl⟩
  | cons p rest ih =>
      obtain ⟨c | _, a⟩ := p
      · -- from the first character on both are alike
        refine ⟨[], ?_⟩
        have hsame := foldl_addFrom_append (List.cons_ne_nil (c, a) []) written rest
        simpa [addFrom] using hsame
      · obtain ⟨lead, hlead⟩ := ih (addFrom written (gap, a))
        obtain ⟨space, hspace⟩ : ∃ space, addFrom written (gap, a) = space ++ written := by
          rcases addFrom_cases written (gap, a) with hadd | ⟨s, hadd, -⟩
          · exact ⟨[], hadd⟩
          · exact ⟨[s], hadd⟩
        refine ⟨lead ++ space, ?_⟩
        rw [List.foldl_cons, hlead, hspace]
        simp [addFrom]

/-- **A part of the pieces** makes a part of the text. -/
theorem joinFrom_isInfix {part : List (Piece × α)} (h : part <:+: pieces) :
    joinFrom part <:+: joinFrom pieces := by
  obtain ⟨front, back, rfl⟩ := h
  refine Text.trimBy_isInfix_trimBy (List.reverse_infix.2 ?_)
  obtain ⟨lead, hpart⟩ := exists_foldl_addFrom part (front.foldl addFrom [])
  obtain ⟨lead', hback⟩ := exists_foldl_addFrom back ((front ++ part).foldl addFrom [])
  refine ⟨back.foldl addFrom [] ++ lead', lead ++ front.foldl addFrom [], ?_⟩
  rw [List.foldl_append, hback, List.foldl_append, hpart]
  simp

/-! ### What is kept -/

theorem filter_addFrom (written : List (Char × α)) (p : Piece × α) :
    (addFrom written p).filter (!isBlankAt ·) =
      (p.1.letter?.map (·, p.2)).toList ++ written.filter (!isBlankAt ·) := by
  have hspace : Text.isBlank ' ' = true := by decide
  obtain ⟨c | _, a⟩ := p
  · by_cases hc : Text.isBlank c <;> simp [addFrom, letter?, isBlankAt, hc]
  · cases written with
    | nil => rfl
    | cons s rest =>
        by_cases hs : Text.isBlank s.1 <;> simp [addFrom, letter?, isBlankAt, hs, hspace]

theorem filter_foldl_addFrom (pieces : List (Piece × α)) (written : List (Char × α)) :
    (pieces.foldl addFrom written).filter (!isBlankAt ·) =
      (pieces.filterMap fun p => p.1.letter?.map (·, p.2)).reverse ++
        written.filter (!isBlankAt ·) := by
  induction pieces generalizing written with
  | nil => rfl
  | cons p rest ih =>
      rw [List.foldl_cons, ih, filter_addFrom, List.filterMap_cons]
      cases p.1.letter? <;> simp

/-- **Nothing is lost or invented** but white space: without it, the text is the letters that
the pieces keep, in their order. -/
theorem filter_joinFrom (pieces : List (Piece × α)) :
    (joinFrom pieces).filter (!isBlankAt ·) =
      pieces.filterMap fun p => p.1.letter?.map (·, p.2) := by
  rw [joinFrom, Text.filter_trimBy, List.filter_reverse, filter_foldl_addFrom]
  simp

@[simp] theorem map_fst_signed (f : α → List Piece) (l : List α) :
    (signed f l).map (·.1) = l.flatMap f := by
  simp [signed, List.map_flatMap, Function.comp_def]

theorem filter_joinFrom_signed (f : α → List Piece) (l : List α) :
    (joinFrom (signed f l)).filter (!isBlankAt ·) =
      l.flatMap fun a => ((f a).filterMap letter?).map (·, a) := by
  rw [filter_joinFrom, signed, List.filterMap_flatMap]
  simp only [List.filterMap_map, List.map_filterMap, Function.comp_def]

/-- Without white space, a text is the letters that its pieces keep. -/
theorem letters_join (pieces : List Piece) :
    Text.letters (join pieces).toList = pieces.filterMap letter? := by
  have hjoin := map_fst_joinFrom (pieces.map (·, ()))
  have hletters := congrArg (List.map (·.1)) (filter_joinFrom (pieces.map (·, ())))
  rw [List.map_map, show ((·.1) ∘ (·, ()) : Piece → Piece) = id from rfl, List.map_id] at hjoin
  rw [← hjoin, Text.letters, List.filter_map]
  refine hletters.trans ?_
  simp [List.filterMap_map, List.map_filterMap, Function.comp_def]

/-- A text has no white space at its ends. -/
theorem trimmed_join (pieces : List Piece) : Text.trimmed (join pieces) = join pieces := by
  rw [Text.trimmed_eq_self_iff, join, String.toList_ofList, Text.trim_trim]

/-! ### What comes apart -/

/-- **Behind a character** that is no blank, white space comes with the first piece that
parts words. -/
theorem exists_foldl_addFrom_cons (hs : isBlankAt s = false) (pieces : List (Piece × α))
    (written : List (Char × α)) :
    ∃ added, pieces.foldl addFrom (s :: written) = added ++ s :: written ∧
      added.any isBlankAt = pieces.any (·.1.parts) := by
  induction pieces generalizing s written with
  | nil => exact ⟨[], rfl, rfl⟩
  | cons p rest ih =>
      -- once there is white space it stays
      have hblank : ∀ b, isBlankAt b = true → p.1.parts = true →
          addFrom (s :: written) p = b :: s :: written → ∃ added,
            (p :: rest).foldl addFrom (s :: written) = added ++ s :: written ∧
              added.any isBlankAt = (p :: rest).any (·.1.parts) := by
        intro b hb hp hadd
        obtain ⟨lead, hrest⟩ := exists_foldl_addFrom rest (b :: s :: written)
        refine ⟨rest.foldl addFrom [] ++ lead ++ [b], ?_, ?_⟩
        · rw [List.foldl_cons, hadd, hrest]
          simp
        · simp [hb, hp]
      obtain ⟨c | _, a⟩ := p
      · cases hc : Text.isBlank c with
        | true => exact hblank (c, a) hc hc rfl
        | false =>
            obtain ⟨added, hrest, hany⟩ := ih (s := (c, a)) hc (s :: written)
            refine ⟨added ++ [(c, a)], ?_, ?_⟩
            · rw [List.foldl_cons, addFrom, hrest]
              simp
            · simp [hany, isBlankAt, parts, hc]
      · exact hblank (' ', a) (show Text.isBlank ' ' = true by decide) rfl (by simp [addFrom, hs])

/-- A character of the text that is no blank, and was not there before, is from a piece that
keeps it. -/
theorem exists_keep_of_foldl_addFrom {written before after : List (Char × α)}
    (hs : isBlankAt s = false) (h : pieces.foldl addFrom written = after ++ s :: before)
    (hlen : written.length ≤ before.length) :
    ∃ front back, pieces = front ++ (keep s.1, s.2) :: back ∧
      front.foldl addFrom written = before := by
  induction pieces generalizing written with
  | nil =>
      have hlength := congrArg List.length h
      simp only [List.foldl_nil, List.length_append, List.length_cons] at hlength
      omega
  | cons p rest ih =>
      by_cases hnext : (addFrom written p).length ≤ before.length
      · obtain ⟨front, back, rfl, hfront⟩ := ih h hnext
        exact ⟨p :: front, back, rfl, hfront⟩
      · -- the piece itself has written the character
        rcases addFrom_cases written p with hadd | ⟨b, hadd, hkeep⟩
        · rw [hadd] at hnext
          exact absurd hlen hnext
        · obtain ⟨lead, hrest⟩ := exists_foldl_addFrom rest (b :: written)
          rw [List.foldl_cons, hadd, hrest] at h
          rw [hadd, List.length_cons] at hnext
          have hlength : (b :: written).length = (s :: before).length := by
            simp only [List.length_cons]
            omega
          obtain ⟨-, heq⟩ := List.append_inj' h hlength
          obtain ⟨rfl, rfl⟩ := List.cons.inj heq
          exact ⟨[], rest, by rw [hkeep hs]; rfl, rfl⟩

/-- White space stands between any two characters that are no blanks, the first of them from
a place of one kind and the second from a place of another kind. -/
def KeptApart (text : List (Char × α)) (P Q : α → Prop) : Prop :=
  ∀ front s middle s' back, text = front ++ s :: middle ++ s' :: back →
    isBlankAt s = false → isBlankAt s' = false → P s.2 → Q s'.2 → middle.any isBlankAt = true

/-- Two characters of a text are from two pieces, and between the characters there is white
space if a piece between the two parts words. -/
theorem exists_pieces_of_joinFrom {front middle back : List (Char × α)} {s' : Char × α}
    (hs : isBlankAt s = false) (hs' : isBlankAt s' = false)
    (h : joinFrom pieces = front ++ s :: middle ++ s' :: back) :
    ∃ front' middle' back', pieces =
        front' ++ (keep s.1, s.2) :: middle' ++ (keep s'.1, s'.2) :: back' ∧
      middle'.any (·.1.parts) = middle.any isBlankAt := by
  obtain ⟨start, rest, hwhole⟩ := Text.trimBy_isInfix isBlankAt (pieces.foldl addFrom []).reverse
  have hwritten : pieces.foldl addFrom [] =
      (rest.reverse ++ back.reverse ++ s' :: middle.reverse) ++
        s :: (front.reverse ++ start.reverse) := by
    rw [show Text.trimBy isBlankAt (pieces.foldl addFrom []).reverse = joinFrom pieces from rfl,
      h] at hwhole
    simpa using (congrArg List.reverse hwhole).symm
  generalize front.reverse ++ start.reverse = before at hwritten
  obtain ⟨front', pieces', rfl, hfront⟩ :=
    exists_keep_of_foldl_addFrom hs hwritten (Nat.zero_le _)
  -- the second character is written behind the first one
  have hbehind : pieces'.foldl addFrom (s :: before) =
      (rest.reverse ++ back.reverse) ++ s' :: (middle.reverse ++ s :: before) := by
    rw [List.foldl_append, hfront] at hwritten
    simpa [addFrom] using hwritten
  obtain ⟨middle', back', rfl, hmiddle⟩ :=
    exists_keep_of_foldl_addFrom hs' hbehind (by simp)
  obtain ⟨added, hadded, hany⟩ := exists_foldl_addFrom_cons hs middle' before
  obtain rfl : added = middle.reverse := List.append_cancel_right (hadded.symm.trans hmiddle)
  exact ⟨front', middle', back', by simp, by rw [← hany, List.any_reverse]⟩

/-- Two pieces that keep characters write them, with white space between them if a piece
between the two parts words. -/
theorem exists_joinFrom_of_pieces {front middle back : List (Piece × α)} {s' : Char × α}
    (hs : isBlankAt s = false) (hs' : isBlankAt s' = false)
    (h : pieces = front ++ (keep s.1, s.2) :: middle ++ (keep s'.1, s'.2) :: back) :
    ∃ front' middle' back', joinFrom pieces = front' ++ s :: middle' ++ s' :: back' ∧
      middle'.any isBlankAt = middle.any (·.1.parts) := by
  obtain ⟨added, hadded, hany⟩ := exists_foldl_addFrom_cons hs middle (front.foldl addFrom [])
  obtain ⟨last, hlast, -⟩ :=
    exists_foldl_addFrom_cons hs' back (added ++ s :: front.foldl addFrom [])
  have hwritten : (pieces.foldl addFrom []).reverse = (front.foldl addFrom []).reverse ++
      ((s :: added.reverse) ++ [s']) ++ last.reverse := by
    rw [h, List.foldl_append, List.foldl_append, List.foldl_cons, List.foldl_cons, addFrom_keep,
      addFrom_keep, hadded, hlast]
    simp
  have hend : ∀ b ∈ ((s :: added.reverse) ++ [s']).getLast?, isBlankAt b = false := by
    intro b hb
    rw [List.getLast?_concat] at hb
    exact Option.some.inj hb ▸ hs'
  obtain ⟨front', back', htrim⟩ := Text.exists_trimBy_append (by simp) (by simpa using hs) hend
    (front.foldl addFrom []).reverse last.reverse
  refine ⟨front', added.reverse, back', ?_, by rw [List.any_reverse, hany]⟩
  rw [joinFrom, hwritten, htrim]
  simp

/-- **Characters are kept apart** if pieces that keep them are. -/
theorem keptApart_joinFrom_iff {P Q : α → Prop} : KeptApart (joinFrom pieces) P Q ↔
    ∀ front s middle s' back,
      pieces = front ++ (keep s.1, s.2) :: middle ++ (keep s'.1, s'.2) :: back →
      isBlankAt s = false → isBlankAt s' = false → P s.2 → Q s'.2 →
        middle.any (·.1.parts) = true := by
  constructor
  · intro h front s middle s' back hpieces hs hs' hP hQ
    obtain ⟨front', middle', back', hjoin, hany⟩ := exists_joinFrom_of_pieces hs hs' hpieces
    rw [← hany]
    exact h front' s middle' s' back' hjoin hs hs' hP hQ
  · intro h front s middle s' back hjoin hs hs' hP hQ
    obtain ⟨front', middle', back', hpieces, hany⟩ := exists_pieces_of_joinFrom hs hs' hjoin
    rw [← hany]
    exact h front' s middle' s' back' hpieces hs hs' hP hQ

end Piece

/-! ### White space -/

/-- White space in a text is nothing but single spaces between other characters. -/
def Text.Spaced (cs : List Char) : Prop :=
  ∀ front c back, cs = front ++ c :: back → isBlank c = true →
    c = ' ' ∧ (∃ d ∈ front.getLast?, isBlank d = false) ∧ ∃ d ∈ back.head?, isBlank d = false

namespace Piece

/-- White space in a text written last character first is spaces, each behind a character that
is no blank. -/
def Tidy (written : List Char) : Prop :=
  ∀ after c before, written = after ++ c :: before → Text.isBlank c = true →
    c = ' ' ∧ ∃ d ∈ before.head?, Text.isBlank d = false

theorem Tidy.cons {written : List Char} (h : Tidy written) {c : Char}
    (hc : Text.isBlank c = true → c = ' ' ∧ ∃ d ∈ written.head?, Text.isBlank d = false) :
    Tidy (c :: written) := by
  intro after d before hsplit hd
  cases after with
  | nil =>
      obtain ⟨rfl, rfl⟩ := List.cons.inj hsplit
      exact hc hd
  | cons b after => exact h after d before (List.cons.inj hsplit).2 hd

/-- A piece that keeps no blank leaves a tidy text. -/
theorem Tidy.addTo {written : List Char} (h : Tidy written) {p : Piece}
    (hp : ∀ c, p = keep c → Text.isBlank c = false) : Tidy (addTo written p) := by
  cases p with
  | keep c =>
      refine h.cons fun hc => ?_
      rw [hp c rfl] at hc
      cases hc
  | gap =>
      cases written with
      | nil => exact h
      | cons d rest =>
          by_cases hd : Text.isBlank d = true
          · simpa [Piece.addTo, hd] using h
          · have hspace : Tidy (' ' :: d :: rest) :=
              h.cons fun _ => ⟨rfl, d, rfl, by simpa using hd⟩
            simpa [Piece.addTo, hd] using hspace

theorem tidy_foldl_addTo {pieces : List Piece}
    (hpieces : ∀ p ∈ pieces, ∀ c, p = keep c → Text.isBlank c = false) :
    Tidy (pieces.foldl addTo []) := by
  induction pieces using List.reverseRecOn with
  | nil => exact fun after c before hsplit => by simp at hsplit
  | append_singleton pieces p ih =>
      rw [List.foldl_append]
      exact (ih fun q hq => hpieces q (by simp [hq])).addTo (hpieces p (by simp))

/-- A tidy text, the right way round and trimmed, has white space only between letters. -/
theorem Tidy.spaced_trim {written : List Char} (h : Tidy written) :
    Text.Spaced (Text.trim written.reverse) := by
  intro front c back hsplit hc
  obtain ⟨start, rest, hwhole⟩ := Text.trimBy_isInfix Text.isBlank written.reverse
  rw [← Text.trim_eq_trimBy, hsplit] at hwhole
  have hwritten : written =
      (rest.reverse ++ back.reverse) ++ c :: (front.reverse ++ start.reverse) := by
    simpa using (congrArg List.reverse hwhole).symm
  -- the blank is at neither end of what trimming leaves
  have hfront : front ≠ [] := by
    intro hnil
    have hhead := Text.not_isBlank_head_trim written.reverse c (by rw [hsplit, hnil]; rfl)
    rw [hc] at hhead
    cases hhead
  have hback : back ≠ [] := by
    intro hnil
    have hlast := Text.not_isBlank_getLast_trim written.reverse c
      (by rw [hsplit, hnil]; exact List.getLast?_concat)
    rw [hc] at hlast
    cases hlast
  obtain ⟨hspace, d, hd, hsolid⟩ := h _ c _ hwritten hc
  rw [List.head?_append_of_ne_nil _ (by simpa using hfront), List.head?_reverse] at hd
  refine ⟨hspace, ⟨d, hd, hsolid⟩, ?_⟩
  obtain ⟨b, back, rfl⟩ := List.exists_cons_of_ne_nil hback
  refine ⟨b, rfl, Bool.eq_false_iff.2 fun hb => ?_⟩
  -- a blank after it would stand behind a blank
  obtain ⟨-, e, he, hsolid'⟩ := h (rest.reverse ++ back.reverse) b
    (c :: (front.reverse ++ start.reverse)) (by rw [hwritten]; simp) hb
  obtain rfl : c = e := Option.some.inj he
  rw [hc] at hsolid'
  cases hsolid'

/-- **Without kept blanks** the text has white space only where one word ends and the next one
begins, and there it is one space. -/
theorem spaced_join {pieces : List Piece}
    (hpieces : ∀ p ∈ pieces, ∀ c, p = keep c → Text.isBlank c = false) :
    Text.Spaced (join pieces).toList := by
  rw [join, String.toList_ofList]
  exact (tidy_foldl_addTo hpieces).spaced_trim

end Piece

end MarkupQuery
