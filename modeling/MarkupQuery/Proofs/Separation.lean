import MarkupQuery.Proofs.TextContent

/-!
# What separates text

A line break parts the text before it from the text after it, and a block parts the text in it
from the text before it.  Nothing marks the end of a block: what comes after it is parted from
the text in it only if it is a block or a break itself, or a text right after the block.

* `Piece.keptApart_of_gap` — a gap parts what is before it from what is after it;
* `Piece.Follows`, `Piece.keptApart_signed_iff` — texts are kept apart unless a letter follows
  a letter;
* `Forest.within_of_precedes` — what is between two nodes of a subtree is in it;
* `Forest.keptApart_break`, `Forest.keptApart_block` — breaks, and the start of blocks;
* `Tree.RunsOn`, `keptApart_tracedText_iff` — text that runs on to the next text;
* `Reachable.text_separated` — what breaks and blocks separate.
-/

namespace MarkupQuery

/-! ### Neighbouring pieces -/

/-- On the way from a member with a property to one without it, the property is lost in one
step. -/
theorem exists_turn {β : Type} {P : β → Prop} {a b : β} (ha : P a) (hb : ¬ P b)
    (middle : List β) : ∃ front x y back,
      a :: middle ++ [b] = front ++ x :: y :: back ∧ P x ∧ ¬ P y := by
  induction middle generalizing a with
  | nil => exact ⟨[], a, b, [], rfl, ha, hb⟩
  | cons c rest ih =>
      by_cases hc : P c
      · obtain ⟨front, x, y, back, hsplit, hx, hy⟩ := ih hc
        exact ⟨a :: front, x, y, back, by rw [List.cons_append, hsplit]; rfl, hx, hy⟩
      · exact ⟨[], a, c, rest ++ [b], rfl, ha, hc⟩

namespace Piece

variable {α : Type} {f : α → List Piece} {l : List α} {R : α → α → Prop}
  {p q : Piece × α} {front back : List (Piece × α)}

theorem mem_signed : p ∈ signed f l ↔ p.2 ∈ l ∧ p.1 ∈ f p.2 := by
  obtain ⟨piece, a⟩ := p
  simp [signed]

/-- Pieces come in the order of what they come from. -/
theorem pairwise_signed (hl : l.Pairwise R) :
    (signed f l).Pairwise fun p q => p.2 = q.2 ∨ R p.2 q.2 := by
  rw [signed, List.pairwise_flatMap]
  refine ⟨fun a _ => List.pairwise_map.2 (List.pairwise_of_forall fun _ _ => .inl rfl), ?_⟩
  refine hl.imp fun {a b} hab p hp q hq => ?_
  obtain ⟨_, -, rfl⟩ := List.mem_map.1 hp
  obtain ⟨_, -, rfl⟩ := List.mem_map.1 hq
  exact .inr hab

/-- One piece is the last of a member, another one the first of a later member, and nothing
comes from the members between. -/
def Follows (f : α → List Piece) (l : List α) (p q : Piece × α) : Prop :=
  (∃ between, p.2 :: between ++ [q.2] <:+: l ∧ ∀ z ∈ between, f z = []) ∧
    (f p.2).getLast? = some p.1 ∧ (f q.2).head? = some q.1

theorem Follows.cons (h : Follows f l p q) (a : α) : Follows f (a :: l) p q := by
  obtain ⟨⟨between, hinfix, hsilent⟩, hends⟩ := h
  exact ⟨⟨between, hinfix.trans (List.suffix_cons a l).isInfix, hsilent⟩, hends⟩

/-- The first piece is the first of a member before which nothing comes from any. -/
theorem exists_before (h : signed f l = q :: back) : ∃ silent rest,
    l = silent ++ q.2 :: rest ∧ (∀ z ∈ silent, f z = []) ∧ (f q.2).head? = some q.1 := by
  induction l with
  | nil => cases h
  | cons a l ih =>
      rw [signed_cons] at h
      rcases hfirst : f a with _ | ⟨piece, rest⟩
      · rw [hfirst, List.map_nil, List.nil_append] at h
        obtain ⟨silent, rest, rfl, hsilent, hhead⟩ := ih h
        exact ⟨a :: silent, rest, rfl, by simpa [hfirst] using hsilent, hhead⟩
      · rw [hfirst, List.map_cons, List.cons_append] at h
        obtain ⟨rfl, -⟩ := List.cons.inj h
        exact ⟨[], l, rfl, by simp, by rw [hfirst]; rfl⟩

/-- Neighbouring pieces from two members follow one another. -/
theorem follows_of_signed (hne : p.2 ≠ q.2) (h : signed f l = front ++ p :: q :: back) :
    Follows f l p q := by
  induction l generalizing front with
  | nil => simp at h
  | cons a l ih =>
      have hfrom : ∀ p ∈ (f a).map (·, a), p.2 = a := by simp
      rw [signed_cons] at h
      rcases List.append_eq_append_iff.1 h with ⟨front', -, hrest⟩ | ⟨last, hfirst, hrest⟩
      · exact (ih hrest).cons a
      · rcases last with _ | ⟨p', _ | ⟨q', last⟩⟩
        · have hlater : signed f l = [] ++ p :: q :: back := hrest.symm
          exact (ih hlater).cons a
        · -- the first of the two ends what comes from this member
          obtain ⟨hp, hrest⟩ := List.cons.inj hrest
          rw [← hp] at hfirst
          obtain ⟨between, rest, rfl, hsilent, hhead⟩ := exists_before hrest.symm
          obtain rfl : p.2 = a := hfrom p (by simp [hfirst])
          have hlast := congrArg (List.getLast? ·) hfirst
          simp only [List.getLast?_map, List.getLast?_concat, Option.map_eq_some_iff] at hlast
          obtain ⟨piece, hlast, heq⟩ := hlast
          obtain rfl : piece = p.1 := congrArg (·.1) heq
          exact ⟨⟨between, ⟨[], rest, by simp⟩, hsilent⟩, hlast, hhead⟩
        · -- both would come from this member
          obtain ⟨hp, hrest⟩ := List.cons.inj hrest
          obtain ⟨hq, -⟩ := List.cons.inj hrest
          rw [← hp, ← hq] at hfirst
          exact absurd ((hfrom p (by simp [hfirst])).trans (hfrom q (by simp [hfirst])).symm) hne

theorem Follows.exists_signed (h : Follows f l p q) :
    ∃ front back, signed f l = front ++ p :: q :: back := by
  obtain ⟨⟨between, ⟨before, after, rfl⟩, hsilent⟩, hlast, hhead⟩ := h
  obtain ⟨first, hfirst⟩ := List.getLast?_eq_some_iff.1 hlast
  obtain ⟨rest, hrest⟩ := List.head?_eq_some_iff.1 hhead
  have hnone : signed f between = [] := by
    rw [signed, List.flatMap_eq_nil_iff]
    intro z hz
    rw [hsilent z hz, List.map_nil]
  refine ⟨signed f before ++ first.map (·, p.2), rest.map (·, q.2) ++ signed f after, ?_⟩
  simp [hfirst, hrest, hnone]

/-! ### What gaps keep apart -/

/-- A piece that does not part words keeps a letter. -/
theorem exists_keep_of_parts_eq_false (h : p.1.parts = false) :
    ∃ s, p = (keep s.1, s.2) ∧ isBlankAt s = false := by
  obtain ⟨c | _, a⟩ := p
  · exact ⟨(c, a), rfl, h⟩
  · cases h

/-- **Texts are kept apart** unless a letter follows a letter. -/
theorem keptApart_signed_iff {P : α → Prop} : KeptApart (joinFrom (signed f l)) P (¬ P ·) ↔
    ∀ s s', isBlankAt s = false → isBlankAt s' = false → P s.2 → ¬ P s'.2 →
      ¬ Follows f l (keep s.1, s.2) (keep s'.1, s'.2) := by
  rw [keptApart_joinFrom_iff]
  constructor
  · intro h s s' hs hs' hP hP' hfollows
    obtain ⟨front, back, hsplit⟩ := hfollows.exists_signed
    have hnone := h front s [] s' back (by simpa using hsplit) hs hs' hP hP'
    cases hnone
  · intro h front s middle s' back hpieces hs hs' hP hP'
    by_contra hnot
    obtain ⟨before, p, q, after, hturn, hp, hq⟩ :=
      exists_turn (P := fun p : Piece × α => P p.2) (a := (keep s.1, s.2))
        (b := (keep s'.1, s'.2)) hP hP' middle
    -- nothing from the first to the last of them parts words
    have hwhole : ∀ r ∈ before ++ p :: q :: after, r.1.parts = false := by
      rw [← hturn]
      intro r hr
      simp only [List.cons_append, List.mem_cons, List.mem_append, List.not_mem_nil,
        or_false] at hr
      rcases hr with rfl | hr | rfl
      · exact hs
      · exact Bool.eq_false_iff.2 fun hparts => hnot (List.any_eq_true.2 ⟨r, hr, hparts⟩)
      · exact hs'
    obtain ⟨s₁, rfl, hs₁⟩ := exists_keep_of_parts_eq_false (hwhole p (by simp))
    obtain ⟨s₂, rfl, hs₂⟩ := exists_keep_of_parts_eq_false (hwhole q (by simp))
    have hne : s₁.2 ≠ s₂.2 := fun heq => hq (heq ▸ hp)
    have hsigned : signed f l = (front ++ before) ++
        (keep s₁.1, s₁.2) :: (keep s₂.1, s₂.2) :: (after ++ back) := by
      rw [hpieces, show front ++ (keep s.1, s.2) :: middle ++ (keep s'.1, s'.2) :: back =
        front ++ ((keep s.1, s.2) :: middle ++ [(keep s'.1, s'.2)]) ++ back by simp, hturn]
      simp
    exact h s₁ s₂ hs₁ hs₂ hp hq (follows_of_signed hne hsigned)

/-- **A gap parts** what comes before it from what comes after it. -/
theorem keptApart_of_gap (hl : l.Pairwise R) {b : α} (hb : b ∈ l) (hgap : f b = [gap]) :
    KeptApart (joinFrom (signed f l)) (¬ R b ·) (¬ R · b) := by
  rw [keptApart_joinFrom_iff]
  intro front s middle s' back hpieces _ _ hs hs'
  have hkeep : ∀ r : Char × α, (keep r.1, r.2) ∈ signed f l → r.2 ≠ b := by
    intro r hr heq
    have hmem := (mem_signed.1 hr).2
    rw [heq, hgap] at hmem
    cases List.mem_singleton.1 hmem
  have hfirst : s.2 ≠ b := hkeep s (by simp [hpieces])
  have hsecond : s'.2 ≠ b := hkeep s' (by simp [hpieces])
  have hmem : (gap, b) ∈ signed f l := mem_signed.2 ⟨hb, by simp [hgap]⟩
  have horder := pairwise_signed (f := f) hl
  rw [hpieces] at hmem horder
  obtain ⟨hbefore, hafter, -⟩ := List.pairwise_append.1 horder
  obtain ⟨-, -, hbefore⟩ := List.pairwise_append.1 hbefore
  simp only [List.mem_append, List.mem_cons, Prod.mk.injEq, reduceCtorEq, false_and,
    false_or] at hmem
  rcases hmem with (hfront | hmiddle) | hback
  · rcases hbefore _ hfront _ List.mem_cons_self with heq | hrel
    · exact absurd heq.symm hfirst
    · exact absurd hrel hs
  · exact List.any_eq_true.2 ⟨_, hmiddle, rfl⟩
  · rcases List.rel_of_pairwise_cons hafter hback with heq | hrel
    · exact absurd heq hsecond
    · exact absurd hrel hs'

/-- What is kept apart depends only on places that come in order. -/
theorem KeptApart.imp_of_pairwise {P P' Q Q' : α → Prop} (hl : l.Pairwise R)
    (h : KeptApart (joinFrom (signed f l)) P' Q')
    (himp : ∀ x y, x = y ∨ R x y → P x → Q y → P' x ∧ Q' y) :
    KeptApart (joinFrom (signed f l)) P Q := by
  intro front s middle s' back htext hs hs' hP hQ
  obtain ⟨front', middle', back', hpieces, -⟩ := exists_pieces_of_joinFrom hs hs' htext
  have horder := pairwise_signed (f := f) hl
  rw [hpieces] at horder
  have hrel : s.2 = s'.2 ∨ R s.2 s'.2 :=
    (List.pairwise_append.1 horder).2.2 (keep s.1, s.2) (by simp) (keep s'.1, s'.2) (by simp)
  obtain ⟨hP', hQ'⟩ := himp s.2 s'.2 hrel hP hQ
  exact h front s middle s' back htext hs hs' hP' hQ'

end Piece

namespace Tree

variable {t : Tree} {x y z b id : NodeId}

/-! ### Blocks and breaks -/

/-- Blocks and breaks are gaps. -/
theorem pieces_eq_gap (h : t.isBreak b = true ∨ t.isBlock b = true) : t.pieces b = [.gap] := by
  have hgap : (t.isBreak b || t.isBlock b) = true := by simpa using h
  obtain ⟨-, -, hnone, -⟩ | ⟨-, hpieces⟩ := t.pieces_cases b
  · rw [hgap] at hnone
    cases hnone
  · rw [hpieces, if_pos hgap]

/-- What comes in document order between a node and a node in its subtree is in the subtree. -/
theorem Forest.within_of_precedes (h : t.Forest) (hbx : t.Precedes b x) (hxy : t.Precedes x y)
    (hy : t.Within y b) : t.Within x b := by
  rcases hbx with hbelow | ⟨p, a, c, hac, hba, hxc⟩
  · exact hbelow.within
  · have hyx : t.Precedes y x := .inr ⟨p, a, c, hac, hy.trans hba, hxc⟩
    exact absurd hyx (h.not_precedes_of_precedes hxy)

/-- **A break parts** the text before it from the text after it. -/
theorem Forest.keptApart_break (h : t.Forest) (hb : t.Below b id) (hbreak : t.isBreak b = true) :
    Piece.KeptApart (t.tracedText id) (t.Precedes · b) (t.Precedes b ·) := by
  have horder := h.pairwise_descendants id
  refine (Piece.keptApart_of_gap horder (h.mem_descendants.2 hb)
    (pieces_eq_gap (.inl hbreak))).imp_of_pairwise horder fun x y _ hx hy => ?_
  exact ⟨h.not_precedes_of_precedes hx, h.not_precedes_of_precedes hy⟩

/-- **A block parts** the text in it from the text before it. -/
theorem Forest.keptApart_block (h : t.Forest) (hb : t.Below b id) (hblock : t.isBlock b = true) :
    Piece.KeptApart (t.tracedText id) (¬ t.Within · b) (t.Within · b) := by
  have horder := h.pairwise_descendants id
  refine (Piece.keptApart_of_gap horder (h.mem_descendants.2 hb)
    (pieces_eq_gap (.inr hblock))).imp_of_pairwise horder fun x y hxy hx hy => ?_
  have hprecedes : t.Precedes x y := hxy.resolve_left fun heq => hx (heq ▸ hy)
  refine ⟨fun hbx => hx (h.within_of_precedes hbx hprecedes hy), fun hyb => ?_⟩
  by_cases heq : y = b
  · subst heq
    exact h.not_precedes_of_precedes hyb hyb
  · exact h.not_precedes_of_precedes hyb (.inl (below_of_within hy heq))

/-! ### Text that runs on -/

/-- A node that has no influence on the text around it: no block, no break, and no text unless
it is empty and not next to a block. -/
def Silent (t : Tree) (z : NodeId) : Prop :=
  t.isBlock z = false ∧ t.isBreak z = false ∧
    ∀ content, t.text? z = some content → content = "" ∧ (t.prev? z).any t.isBlock = false

theorem silent_iff : t.Silent z ↔ t.pieces z = [] := by
  rw [Silent]
  obtain ⟨content, htext, hnone, hpieces⟩ | ⟨htext, hpieces⟩ := t.pieces_cases z
  · rw [Bool.or_eq_false_iff] at hnone
    simp [htext, hnone, hpieces, Piece.ofText, and_comm]
  · simp [htext, hpieces, and_comm]

/-- The text of one node runs on to that of a later one: the first ends and the second starts
with a letter, the second is not next to a block, and the nodes between them are silent. -/
structure RunsOn (t : Tree) (id x y : NodeId) : Prop where
  silent : ∃ between, x :: between ++ [y] <:+: t.descendants id ∧ ∀ z ∈ between, t.Silent z
  ends : ∃ content, t.text? x = some content ∧
    ∃ c ∈ content.toList.getLast?, Text.isBlank c = false
  starts : ∃ content, t.text? y = some content ∧
    ∃ c ∈ content.toList.head?, Text.isBlank c = false
  apart : (t.prev? y).any t.isBlock = false

/-- A letter among the pieces of a text node is one of its content. -/
theorem ofText_eq_keep_iff {preserve : Bool} {c d : Char} (hc : Text.isBlank c = false) :
    (if !preserve && Text.isBlank d then Piece.gap else .keep d) = .keep c ↔ d = c := by
  constructor
  · intro h
    split at h
    · cases h
    · exact Piece.keep.inj h
  · intro h
    simp [h, hc]

/-- What a node adds ends with a letter if it is a text that does. -/
theorem getLast?_pieces {c : Char} (hc : Text.isBlank c = false) :
    (t.pieces x).getLast? = some (.keep c) ↔
      ∃ content, t.text? x = some content ∧ content.toList.getLast? = some c := by
  obtain ⟨content, htext, -, hpieces⟩ | ⟨htext, hpieces⟩ := t.pieces_cases x
  · rw [hpieces, Piece.ofText, List.getLast?_append, List.getLast?_map, htext]
    simp only [Option.some.injEq, exists_eq_left']
    rcases content.toList.getLast? with _ | d
    · split <;> simp
    · simpa using ofText_eq_keep_iff hc
  · rw [hpieces, htext]
    split <;> simp

/-- What a node adds starts with a letter if it is a text that does and is not next to a
block. -/
theorem head?_pieces {c : Char} (hc : Text.isBlank c = false) :
    (t.pieces x).head? = some (.keep c) ↔
      (∃ content, t.text? x = some content ∧ content.toList.head? = some c) ∧
        (t.prev? x).any t.isBlock = false := by
  obtain ⟨content, htext, -, hpieces⟩ | ⟨htext, hpieces⟩ := t.pieces_cases x
  · rw [hpieces, Piece.ofText, List.head?_append, List.head?_map, htext]
    simp only [Option.some.injEq, exists_eq_left']
    cases hblock : (t.prev? x).any t.isBlock
    · rcases content.toList.head? with _ | d
      · simp
      · simpa using ofText_eq_keep_iff hc
    · simp
  · rw [hpieces, htext]
    split <;> simp

/-- Texts run on if a letter follows a letter. -/
theorem runsOn_iff : t.RunsOn id x y ↔ ∃ c c', Text.isBlank c = false ∧ Text.isBlank c' = false ∧
    Piece.Follows t.pieces (t.descendants id) (.keep c, x) (.keep c', y) := by
  constructor
  · intro hruns
    obtain ⟨between, hinfix, hsilent⟩ := hruns.silent
    obtain ⟨content, hx, c, hlast, hc⟩ := hruns.ends
    obtain ⟨content', hy, c', hhead, hc'⟩ := hruns.starts
    exact ⟨c, c', hc, hc', ⟨between, hinfix, fun z hz => silent_iff.1 (hsilent z hz)⟩,
      (getLast?_pieces hc).2 ⟨content, hx, hlast⟩,
      (head?_pieces hc').2 ⟨⟨content', hy, hhead⟩, hruns.apart⟩⟩
  · intro hfollows
    obtain ⟨c, c', hc, hc', ⟨between, hinfix, hsilent⟩, hlast, hhead⟩ := hfollows
    obtain ⟨content, hx, hends⟩ := (getLast?_pieces hc).1 hlast
    obtain ⟨⟨content', hy, hstarts⟩, hapart⟩ := (head?_pieces hc').1 hhead
    exact ⟨⟨between, hinfix, fun z hz => silent_iff.2 (hsilent z hz)⟩,
      ⟨content, hx, c, hends, hc⟩, ⟨content', hy, c', hstarts, hc'⟩, hapart⟩

/-- **What runs on** is all that is not kept apart. -/
theorem keptApart_tracedText_iff {P : NodeId → Prop} :
    Piece.KeptApart (t.tracedText id) P (¬ P ·) ↔ ∀ x y, P x → ¬ P y → ¬ t.RunsOn id x y := by
  rw [tracedText, Piece.keptApart_signed_iff]
  constructor
  · intro h x y hx hy hruns
    obtain ⟨c, c', hc, hc', hfollows⟩ := runsOn_iff.1 hruns
    exact h (c, x) (c', y) hc hc' hx hy hfollows
  · intro h s s' hs hs' hx hy hfollows
    exact h s.2 s'.2 hx hy (runsOn_iff.2 ⟨s.1, s'.1, hs, hs', hfollows⟩)

/-- **What separates text.**  Let every character of the text of a node be traced to the node
below that it is from.  A break has white space between what is before and after it; a block
has white space between what is before it and what is in it, and between that and what is
after it unless the text in the block runs on to a text outside. -/
theorem Reachable.text_separated (h : Reachable t) (hb : t.Below b id) :
    ((t.tracedText id).map (·.1) = (t.text id).toList ∧
      (t.tracedText id).filter (!Piece.isBlankAt ·) =
        (t.descendants id).flatMap fun x => (t.letters x).map (·, x)) ∧
    (t.isBreak b = true → Piece.KeptApart (t.tracedText id) (t.Precedes · b) (t.Precedes b ·)) ∧
    (t.isBlock b = true →
      Piece.KeptApart (t.tracedText id) (¬ t.Within · b) (t.Within · b) ∧
      (Piece.KeptApart (t.tracedText id) (t.Within · b) (¬ t.Within · b) ↔
        ∀ x y, t.Within x b → ¬ t.Within y b → ¬ t.RunsOn id x y)) :=
  ⟨⟨map_fst_tracedText t id, filter_tracedText t id⟩, h.forest.keptApart_break hb,
    fun hblock => ⟨h.forest.keptApart_block hb hblock, keptApart_tracedText_iff⟩⟩

/-- A paragraph and a line break between texts. -/
theorem text_separated_paragraph : ∃ t, Reachable t ∧ t.text 1 = "a b c d" ∧
    (t.isBlock 3 = true ∧ t.Below 3 1 ∧
      Piece.KeptApart (t.tracedText 1) (¬ t.Within · 3) (t.Within · 3)) ∧
    t.isBreak 6 = true ∧ t.Below 6 1 ∧
      Piece.KeptApart (t.tracedText 1) (t.Precedes · 6) (t.Precedes 6 ·) := by
  let t : Tree := (Builder.append ⟨.empty, .empty⟩ root
    (.element "div" .empty [.text "a", .element "p" .empty [.text "b"], .text "c",
      .element "br" .empty [], .text "d"])).1.tree
  have h : Reachable t := Reachable.empty.appendDescription .empty root _ fun _ _ => by decide
  have hblock : t.isBlock 3 = true := by decide +kernel
  have hbreak : t.isBreak 6 = true := by decide +kernel
  have hp : t.Below 3 1 := h.forest.mem_descendants.1 (by decide +kernel)
  have hbr : t.Below 6 1 := h.forest.mem_descendants.1 (by decide +kernel)
  exact ⟨t, h, by decide +kernel, ⟨hblock, hp, ((Reachable.text_separated h hp).2.2 hblock).1⟩,
    hbreak, hbr, (Reachable.text_separated h hbr).2.1 hbreak⟩

/-- The text in a span runs on to the text in a block before it. -/
theorem text_runs_on_after_block : ∃ t,
    (Tree.build .empty [.element "div" .empty [.text "a"],
      .element "span" .empty [.text "b"]]).2 = .ok t ∧
    t.Below 1 root ∧ t.isBlock 1 = true ∧ t.text root = "ab" ∧
    t.tracedText root = [('a', 2), ('b', 4)] ∧ t.Within 2 1 ∧ ¬ t.Within 4 1 ∧
    ¬ Piece.KeptApart (t.tracedText root) (t.Within · 1) (¬ t.Within · 1) := by
  obtain ⟨t, hbuild, -⟩ := exists_build .empty [.element "div" .empty [.text "a"],
    .element "span" .empty [.text "b"]] (by decide +kernel)
  have h : t.Forest := (Reachable.build .empty _ hbuild).forest
  have htree := build_eq_ok hbuild
  have hinside : t.Within 2 1 := h.within_iff_mem.2 (by rw [← htree]; decide +kernel)
  have houtside : ¬ t.Within 4 1 := by
    rw [h.within_iff_mem, ← htree]
    decide +kernel
  have htraced : t.tracedText root = [('a', 2), ('b', 4)] := by
    rw [← htree]
    decide +kernel
  refine ⟨t, hbuild, h.mem_descendants.1 (by rw [← htree]; decide +kernel),
    by rw [← htree]; decide +kernel, by rw [← htree]; decide +kernel, htraced, hinside,
    houtside, fun hapart => ?_⟩
  cases hapart [] ('a', 2) [] ('b', 4) [] htraced (by decide) (by decide) hinside houtside

end Tree

end MarkupQuery
