import MarkupQuery.Proofs.Joining
import MarkupQuery.Proofs.Writing

/-!
# Combining selectors by a combinator

Nothing that is open at the end of a text that can be read reaches over a combinator after
it, or over an ASCII blank.  So what comes after one of them is read as if it were a text
of its own, and the chain that it stands for goes on with the chain before.

* `Complex.onto` — a chain that goes on with another one;
* `Parser.resume_append_gap` — reading comes to a gap between two chains;
* `Place.Grafted` — the same place in a chain, with another chain before;
* `Parser.parse_combine` — two texts with a combinator or blanks between them.
-/

namespace MarkupQuery

variable {p : Parser} {nested : List Char → Nat → Outcome SelectorList}

/-! ### Chains that go on -/

namespace Complex

/-- A chain that goes on with another one where it ends. -/
def onto : Complex → Combinator → Complex → Complex
  | only compound, via, a => linked compound via a
  | linked compound k left, via, a => linked compound k (left.onto via a)

theorem onto_eq_ofLinks (via : Combinator) (a b : Complex) :
    b.onto via a = ofLinks b.subject (b.links ++ (via, a.subject) :: a.links) := by
  cases b with
  | only compound => exact congrArg (linked compound via) (ofLinks_subject_links a).symm
  | linked compound k left => exact congrArg (linked compound k) (onto_eq_ofLinks via a left)

end Complex

/-! ### Up to the gap -/

/-- A text of ASCII white space, the vertical tab included. -/
def Text.AsciiBlanks (cs : List Char) : Prop := ∀ c ∈ cs, Text.isBlank c = true ∧ c.toNat < 0x80

instance (cs : List Char) : Decidable (Text.AsciiBlanks cs) :=
  List.decidableBAll (fun c => Text.isBlank c = true ∧ c.toNat < 0x80) cs

theorem Text.AsciiBlanks.trimStart_append {w : List Char} (hw : AsciiBlanks w) (cs : List Char) :
    trimStart (w ++ cs) = trimStart cs :=
  List.dropWhile_append_of_pos fun c hc => (hw c hc).1

/-- No ASCII blank is a letter. -/
theorem not_isTypeChar_of_asciiBlank {c : Char} (hblank : Text.isBlank c = true)
    (hascii : c.toNat < 0x80) : isTypeChar c = false := by
  have hall : ∀ n < 0x80, Text.isBlank (Char.ofNat n) = true →
      isTypeChar (Char.ofNat n) = false := by decide
  have hc := hall c.toNat hascii
  rw [Char.ofNat_toNat] at hc
  exact hc hblank

/-- A blank token is taken in the same way whatever comes after its first character. -/
theorem Token.take_of_blank {inCompound : Bool} {position : Nat} {c : Char} {rest : List Char}
    (h : (take inCompound position c rest).1 = .blank) (rest' : List Char) :
    take inCompound position c rest' = (.blank, rest'.dropWhile Text.isBlank) := by
  have hguard : (Text.isBlank c && !(inCompound && isTypeChar c)) = true := by
    by_contra hguard
    unfold take at h
    rw [if_neg hguard] at h
    unfold named bracketed pseudoClass argument at h
    grind
  rw [take, if_pos hguard]

/-- A token ends before a blank that is no letter, unless it is itself a blank that ends there. -/
theorem Token.take_append_blank {inCompound : Bool} {position : Nat} {c : Char} {cs : List Char}
    (hrun : ¬((take inCompound position c cs).1 = .blank ∧ cs.dropWhile Text.isBlank = []))
    (hfault : ∀ e, (take inCompound position c cs).1 ≠ .fault e) {d : Char}
    (hd : Text.isBlank d = true) (htype : isTypeChar d = false) (back : List Char) :
    take inCompound position c (cs ++ d :: back) =
      ((take inCompound position c cs).1, (take inCompound position c cs).2 ++ d :: back) := by
  by_cases hblank : (take inCompound position c cs).1 = .blank
  · have htake := take_of_blank hblank
    have hne : cs.dropWhile Text.isBlank ≠ [] := fun hnil => hrun ⟨hblank, hnil⟩
    rw [htake, htake cs, List.dropWhile_append, if_neg (by simpa using hne)]
  · exact (takes_take inCompound position c cs hfault).2 d back
      (Lexeme.endsBefore_blank hblank hd htype)

namespace Progress

theorem addBlank_addBlank (progress : Progress) :
    progress.addBlank.addBlank = progress.addBlank := by
  obtain ⟨done, place⟩ := progress
  cases place <;> rfl

/-- A chain is added to what is complete where an alternative ends. -/
theorem exists_of_close {progress : Progress} {position : Nat} {l : SelectorList}
    (h : progress.close position = .ok l) : ∃ chain, l = progress.done ++ [chain] := by
  obtain ⟨done, place⟩ := progress
  cases place <;> cases h <;> exact ⟨_, rfl⟩

/-- Nothing is complete before a single alternative. -/
theorem done_eq_nil_of_finish {progress : Progress} {position : Nat} {a : Complex}
    (h : progress.finish position = .ok [a]) : progress.done = [] := by
  obtain ⟨chain, hchain⟩ := exists_of_close (close_of_finish h)
  have hlength := congrArg List.length hchain
  simp only [List.length_append, List.length_singleton] at hlength
  exact List.length_eq_zero_iff.1 (by omega)

/-- Where a single alternative may end, a blank leaves it as it is. -/
theorem addBlank_of_finish {progress : Progress} {position : Nat} {a : Complex}
    (h : progress.finish position = .ok [a]) : progress.addBlank = ⟨[], .behind a⟩ := by
  have hdone := done_eq_nil_of_finish h
  obtain ⟨done, place⟩ := progress
  subst hdone
  cases place <;> cases close_of_finish h <;> rfl

end Progress

namespace Parser

/-- **Reading comes to a blank** that is no letter with everything before it read. -/
theorem resume_append_blank {inCompound : Bool} {position : Nat} {progress : Progress}
    {cs : List Char} {l : SelectorList}
    (h : p.resume nested inCompound position progress cs = .ok l) {d : Char}
    (hd : Text.isBlank d = true) (htype : isTypeChar d = false) (back : List Char) :
    ∃ (stop : Nat) (progress' : Progress), progress'.finish (position + cs.length) = .ok l ∧
      p.resume nested inCompound position progress (cs ++ d :: back) =
        p.resume nested false stop progress'.addBlank (back.dropWhile Text.isBlank) := by
  induction inCompound, position, cs using Token.induction generalizing progress with
  | nil inCompound position =>
      rw [resume_nil] at h
      have htake := Token.take_blank hd htype inCompound position back
      obtain ⟨stop, hread⟩ := resume_run htake progress
      exact ⟨stop, progress, h, hread⟩
  | cons inCompound position c cs ih =>
      rw [resume_cons] at h
      obtain ⟨progress', hstep, hrest⟩ := Outcome.bind_eq_ok_iff.1 h
      have hend := Token.add_length_take inCompound position c cs
      by_cases hrun : (Token.take inCompound position c cs).1 = .blank ∧
          cs.dropWhile Text.isBlank = []
      · -- the text ends in a run of blanks, and the blank after it belongs to the run
        obtain ⟨hblank, hnil⟩ := hrun
        have htake := Token.take_of_blank hblank
        rw [htake cs] at hstep hrest hend
        obtain rfl : progress.addBlank = progress' := Except.ok.inj hstep
        rw [hnil] at hrest hend
        rw [resume_nil] at hrest
        have hdrop : (cs ++ d :: back).dropWhile Text.isBlank = back.dropWhile Text.isBlank := by
          rw [List.dropWhile_append, hnil, List.dropWhile_cons_of_pos hd]
          rfl
        obtain ⟨stop, hread⟩ := resume_run (htake (cs ++ d :: back)) progress
        rw [hdrop] at hread
        refine ⟨stop, progress.addBlank, hend ▸ hrest, ?_⟩
        rw [Progress.addBlank_addBlank]
        exact hread
      · have htake := Token.take_append_blank hrun (Progress.not_fault_of_take hstep) hd htype back
        obtain ⟨stop, progress'', hfinish, hread⟩ := ih hrest
        rw [hend] at hfinish
        exact ⟨stop, progress'', hfinish, (resume_cons_append htake hstep).trans hread⟩

/-- **Reading comes to a combinator** after blanks with the chain before it read. -/
theorem resume_append_gap {inCompound : Bool} {position : Nat} {progress : Progress}
    {cs : List Char} {a : Complex}
    (h : p.resume nested inCompound position progress cs = .ok [a]) {w : List Char}
    (hw : Text.AsciiBlanks w) {k : Char} {via : Combinator}
    (hk : Combinator.ofChar? k = some via) (back : List Char) :
    ∃ stop, p.resume nested inCompound position progress (cs ++ (w ++ k :: back)) =
      p.resume nested false stop ⟨[], .pending k via a⟩ back := by
  cases w with
  | nil =>
      obtain ⟨inCompound', progress', hfinish, hread⟩ :=
        resume_append h (isSeparator_of_ofChar? hk) back
      rw [List.nil_append, hread]
      exact resume_combinator (Progress.addBlank_of_finish hfinish) hk _ _ back
  | cons d w =>
      obtain ⟨hd, hw⟩ := List.forall_mem_cons.1 hw
      have htype := not_isTypeChar_of_asciiBlank hd.1 hd.2
      obtain ⟨stop, progress', hfinish, hread⟩ :=
        resume_append_blank h hd.1 htype (w ++ k :: back)
      have hafter : (w ++ k :: back).dropWhile Text.isBlank = k :: back := by
        refine (takeWhile_append_of_head (fun c hc => (hw c hc).1) ?_).2
        rintro c ⟨⟩
        exact (isSeparator_of_ofChar? hk).not_isBlank
      rw [List.cons_append, hread, hafter]
      refine resume_combinator ?_ hk _ _ back
      rw [Progress.addBlank_addBlank, Progress.addBlank_of_finish hfinish]

end Parser

/-! ### After the gap -/

/-- Places in a chain that is still being read, and the same places with the chain `a` on the
left of that chain. -/
inductive Place.Grafted (via : Combinator) (a : Complex) : Place → Place → Prop
  | pending (c : Char) (k : Combinator) (left : Complex) :
      Grafted via a (.pending c k left) (.pending c k (left.onto via a))
  | first (compound : Compound) :
      Grafted via a (.inside none compound) (.inside (some (via, a)) compound)
  | inside (k : Combinator) (left : Complex) (compound : Compound) :
      Grafted via a (.inside (some (k, left)) compound)
        (.inside (some (k, left.onto via a)) compound)
  | behind (chain : Complex) : Grafted via a (.behind chain) (.behind (chain.onto via a))

/-- Places where a compound may come next, and go on with the chain `a`. -/
inductive Place.Awaits (via : Combinator) (a : Complex) : Place → Prop
  | pending (c : Char) : Awaits via a (.pending c via a)
  | behind (h : via = .descendant) : Awaits via a (.behind a)

/-- Only a combinator starts a token that is one. -/
theorem Token.ofChar?_of_take {inCompound : Bool} {position : Nat} {c d : Char}
    {rest : List Char} {k : Combinator}
    (h : (take inCompound position c rest).1 = .combinator d k) :
    Combinator.ofChar? c = some k := by
  obtain ⟨⟨text, htext, hspells⟩, -⟩ := takes_take inCompound position c rest (by simp [h])
  rw [h] at hspells
  cases hspells with
  | combinator hk =>
      obtain ⟨rfl, -⟩ := List.cons.inj htext
      exact hk

namespace Place.Awaits

variable {via : Combinator} {a : Complex} {place : Place}

theorem addBlank (h : place.Awaits via a) : (⟨[], place⟩ : Progress).addBlank = ⟨[], place⟩ := by
  cases h <;> rfl

theorem take (h : place.Awaits via a) {token : Token} {s : Simple}
    (hs : Reads p nested token.position token.lexeme s) :
    Progress.take p nested ⟨[], place⟩ token = .ok ⟨[], .inside (some (via, a)) [s]⟩ := by
  have hinside : (⟨[], place⟩ : Progress).isInside = false := by cases h <;> rfl
  have hadd : (⟨[], place⟩ : Progress).addSimple s = ⟨[], .inside (some (via, a)) [s]⟩ := by
    cases h with
    | pending c => rfl
    | behind h =>
        subst h
        rfl
  exact Progress.take_eq_ok_iff.2 (.inr (.inr (.inr ⟨s, hs, fun _ => hinside, hadd.symm⟩)))

end Place.Awaits

namespace Progress

/-- What starts with no blank and no combinator starts with a simple selector. -/
theorem exists_simple_of_take {c : Char} {rest : List Char} {stop : Nat} {progress : Progress}
    (hblank : Text.isBlank c = false) (hk : Combinator.ofChar? c = none)
    (h : Progress.start.take p nested ⟨stop, (Token.take false stop c rest).1⟩ = .ok progress) :
    ∃ s, Reads p nested stop (Token.take false stop c rest).1 s ∧
      progress = ⟨[], .inside none [s]⟩ := by
  rcases take_eq_ok_iff.1 h with ⟨htoken, -⟩ | ⟨-, done, hclose, -⟩ | ⟨d, k, htoken, -⟩ |
    ⟨s, hs, -, hprogress⟩
  · rw [Token.isBlank_of_take htoken] at hblank
    cases hblank
  · cases hclose
  · rw [Token.ofChar?_of_take htoken] at hk
    cases hk
  · exact ⟨s, hs, hprogress⟩

variable {via : Combinator} {a : Complex} {place place' : Place}

theorem isInside_grafted (h : place.Grafted via a place') :
    (⟨[], place'⟩ : Progress).isInside = (⟨[], place⟩ : Progress).isInside := by
  cases h <;> rfl

/-- **A step** leads from the same places to the same places, unless it completes the chain. -/
theorem take_grafted (h : place.Grafted via a place') {token : Token} {progress : Progress}
    (hstep : Progress.take p nested ⟨[], place⟩ token = .ok progress) :
    progress.done ≠ [] ∨ ∃ next next', progress = ⟨[], next⟩ ∧ next.Grafted via a next' ∧
      Progress.take p nested ⟨[], place'⟩ token = .ok ⟨[], next'⟩ := by
  rcases take_eq_ok_iff.1 hstep with ⟨hblank, rfl⟩ | ⟨-, done, hclose, rfl⟩ |
    ⟨c, k, hk, hadd⟩ | ⟨s, hs, htype, rfl⟩
  · have hread : ∀ progress, Progress.take p nested progress token = .ok progress.addBlank :=
      fun progress => take_eq_ok_iff.2 (.inl ⟨hblank, rfl⟩)
    rw [hread]
    cases h <;> exact .inr ⟨_, _, rfl, by constructor, rfl⟩
  · obtain ⟨chain, rfl⟩ := exists_of_close hclose
    exact .inl (by simp)
  · have hread : ∀ progress progress' : Progress,
        progress.addCombinator token.position c k = .ok progress' →
        progress.take p nested token = .ok progress' := fun _ _ hadd =>
      take_eq_ok_iff.2 (.inr (.inr (.inl ⟨c, k, hk, hadd⟩)))
    cases h <;> cases hadd <;> exact .inr ⟨_, _, rfl, by constructor, hread _ _ rfl⟩
  · rw [← isInside_grafted h] at htype
    have hread := take_eq_ok_iff.2 (.inr (.inr (.inr ⟨s, hs, htype, rfl⟩)))
    rw [hread]
    cases h <;> exact .inr ⟨_, _, rfl, by constructor, rfl⟩

/-- What is complete stays so. -/
theorem done_ne_nil_of_take {progress progress' : Progress} {token : Token}
    (h : progress.done ≠ []) (hstep : progress.take p nested token = .ok progress') :
    progress'.done ≠ [] := by
  rcases take_eq_ok_iff.1 hstep with ⟨-, rfl⟩ | ⟨-, done, hclose, rfl⟩ | ⟨c, k, -, hadd⟩ |
    ⟨s, -, -, rfl⟩
  · obtain ⟨done, place⟩ := progress
    cases place <;> exact h
  · obtain ⟨chain, rfl⟩ := exists_of_close hclose
    simp
  · obtain ⟨done, place⟩ := progress
    cases place <;> cases hadd <;> exact h
  · obtain ⟨done, place⟩ := progress
    cases place <;> exact h

end Progress

namespace Parser

/-- Once an alternative is complete, there will be more than one. -/
theorem resume_ne_single {inCompound : Bool} {position : Nat} {progress : Progress}
    {cs : List Char} (h : progress.done ≠ []) (b : Complex) :
    p.resume nested inCompound position progress cs ≠ .ok [b] := by
  intro hread
  obtain ⟨-, position', progress', hdone, hfinish⟩ :=
    resume_preserves (P := fun _ progress => progress.done ≠ [])
      (fun _ _ _ _ _ _ hdone hstep => Progress.done_ne_nil_of_take hdone hstep) h hread
  exact hdone (Progress.done_eq_nil_of_finish hfinish)

/-- **A run** from the same places leads to the same chain with `a` on its left. -/
theorem resume_grafted {via : Combinator} {a b : Complex} {place place' : Place}
    (h : place.Grafted via a place') {inCompound : Bool} {position : Nat} {cs : List Char}
    (hread : p.resume nested inCompound position ⟨[], place⟩ cs = .ok [b]) :
    p.resume nested inCompound position ⟨[], place'⟩ cs = .ok [b.onto via a] := by
  induction inCompound, position, cs using Token.induction generalizing place place' with
  | nil inCompound position =>
      rw [resume_nil] at hread ⊢
      cases h <;> cases hread <;> rfl
  | cons inCompound position c cs ih =>
      rw [resume_cons] at hread ⊢
      obtain ⟨progress, hstep, hrest⟩ := Outcome.bind_eq_ok_iff.1 hread
      generalize Token.take inCompound position c cs = taken at *
      obtain hdone | ⟨next, next', rfl, hnext, hstep'⟩ := Progress.take_grafted h hstep
      · exact absurd hrest (resume_ne_single hdone b)
      · exact Outcome.bind_eq_ok_iff.2 ⟨_, hstep', ih hnext hrest⟩

/-- A text that can be read can be read wherever it stands. -/
theorem resume_anywhere {inCompound : Bool} {position : Nat} {progress : Progress}
    {cs : List Char} {l : SelectorList}
    (h : p.resume p.parseAt inCompound position progress cs = .ok l) (position' : Nat) :
    p.resume p.parseAt inCompound position' progress cs = .ok l := by
  have hshift : ∀ offset, p.resume p.parseAt inCompound (0 + offset) progress cs =
      Outcome.shift offset (p.resume p.parseAt inCompound 0 progress cs) := fun offset =>
    resume_shift (n := cs.length) (fun argument base _ => parseAt_shift argument base offset)
      (le_refl _) inCompound 0 progress
  have hstart := hshift position
  rw [Nat.zero_add, h] at hstart
  rw [← Nat.zero_add position', hshift, Outcome.shift_eq_ok_iff.1 hstart.symm]
  rfl

/-- **A text of its own** is read after a chain as the chain that it stands for, going on
with that chain. -/
theorem resume_awaited {via : Combinator} {a b : Complex} {place : Place}
    (h : place.Awaits via a) {cs : List Char} (hb : p.parseAt cs 0 = .ok [b])
    (hfirst : ∀ c ∈ (Text.trimStart cs).head?, Combinator.ofChar? c = none) {back : List Char}
    (hback : Text.trimStart back = Text.trimStart cs) (stop : Nat) :
    p.resume p.parseAt false stop ⟨[], place⟩ back = .ok [b.onto via a] := by
  rw [parseAt_eq_resume, resume_skip rfl] at hb
  rw [resume_skip h.addBlank, ← Text.trimStart, hback]
  generalize stop + _ = stop
  have hb := resume_anywhere hb stop
  change p.resume p.parseAt false stop .start (Text.trimStart cs) = _ at hb
  cases htext : Text.trimStart cs with
  | nil =>
      rw [htext, resume_nil] at hb
      cases hb
  | cons c rest =>
      have hc : c ∈ (Text.trimStart cs).head? := by
        rw [htext]
        rfl
      have hblank := Text.not_isBlank_head_trimStart cs c hc
      rw [htext, resume_cons] at hb
      obtain ⟨progress, hstep, hrest⟩ := Outcome.bind_eq_ok_iff.1 hb
      obtain ⟨s, hs, rfl⟩ := Progress.exists_simple_of_take hblank (hfirst c hc) hstep
      rw [resume_cons, h.take hs]
      exact resume_grafted (.first [s]) hrest

/-- **Combinators compose texts into chains.**  Take two texts that stand for one chain each,
the second not starting with a combinator, and ASCII blanks.  With a combinator between
them, and blanks around it, they stand for one chain: that of the second text, which goes
on over the combinator with that of the first.  With blanks alone between them, one at
least, it goes on with it as a descendant. -/
theorem parse_combine {s₁ s₂ : String} {a b : Complex} (h₁ : p.parse s₁ = .ok [a])
    (h₂ : p.parse s₂ = .ok [b])
    (hfirst : ∀ c ∈ (Text.trimStart s₂.toList).head?, Combinator.ofChar? c = none)
    {w₁ w₂ : String} (hw₁ : Text.AsciiBlanks w₁.toList) (hw₂ : Text.AsciiBlanks w₂.toList) :
    (∀ k via, Combinator.ofChar? k = some via →
      p.parse (s₁ ++ w₁ ++ String.singleton k ++ w₂ ++ s₂) =
        .ok [.ofLinks b.subject (b.links ++ (via, a.subject) :: a.links)]) ∧
    (w₁ ≠ "" → p.parse (s₁ ++ w₁ ++ s₂) =
      .ok [.ofLinks b.subject (b.links ++ (.descendant, a.subject) :: a.links)]) := by
  rw [parse, parseAt_eq_resume] at h₁
  refine ⟨fun k via hk => ?_, fun hne => ?_⟩
  · have htext : (s₁ ++ w₁ ++ String.singleton k ++ w₂ ++ s₂).toList =
        s₁.toList ++ (w₁.toList ++ k :: (w₂.toList ++ s₂.toList)) := by simp
    obtain ⟨stop, hread⟩ := resume_append_gap h₁ hw₁ hk (w₂.toList ++ s₂.toList)
    rw [parse, parseAt_eq_resume, htext, hread, ← Complex.onto_eq_ofLinks]
    exact resume_awaited (.pending k) h₂ hfirst (hw₂.trimStart_append _) stop
  · obtain ⟨d, w, hw⟩ := List.exists_cons_of_ne_nil (mt String.toList_eq_nil_iff.1 hne)
    rw [hw] at hw₁
    obtain ⟨⟨hd, hascii⟩, (hrest : Text.AsciiBlanks w)⟩ := List.forall_mem_cons.1 hw₁
    have htext : (s₁ ++ w₁ ++ s₂).toList = s₁.toList ++ d :: (w ++ s₂.toList) := by simp [hw]
    obtain ⟨stop, progress, hfinish, hread⟩ :=
      resume_append_blank h₁ hd (not_isTypeChar_of_asciiBlank hd hascii) (w ++ s₂.toList)
    rw [parse, parseAt_eq_resume, htext, hread, Progress.addBlank_of_finish hfinish,
      ← Complex.onto_eq_ofLinks]
    refine resume_awaited (.behind rfl) h₂ hfirst ?_ stop
    rw [Text.trimStart, List.dropWhile_idempotent, ← Text.trimStart, hrest.trimStart_append]

/-- A chain with a leading combinator and blanks at its end, and one with an argument. -/
theorem parse_combine_leading :
    let p : Parser := ⟨.standard, .literal⟩
    let a : Compound := [.type "a", .not [.only [.ofClass "b"]]]
    p.parse ("> a:not(.b)  " ++ "\t" ++ "+" ++ "\n" ++ " p ~ #i") =
        .ok [.ofLinks [.id "i"] [(.subsequentSibling, [.type "p"]), (.nextSibling, a),
          (.child, [.scope])]] ∧
      p.parse ("> a:not(.b)  " ++ "\t" ++ " p ~ #i") =
        .ok [.ofLinks [.id "i"] [(.subsequentSibling, [.type "p"]), (.descendant, a),
          (.child, [.scope])]] := by
  intro p a
  have h₁ : p.parse "> a:not(.b)  " = .ok [.linked a .child (.only [.scope])] := by
    decide +kernel
  have h₂ : p.parse " p ~ #i" = .ok [.linked [.id "i"] .subsequentSibling (.only [.type "p"])] := by
    decide +kernel
  have hfirst : ∀ c ∈ (Text.trimStart " p ~ #i".toList).head?, Combinator.ofChar? c = none := by
    have hhead : (Text.trimStart " p ~ #i".toList).head? = some 'p' := by decide
    rw [hhead]
    rintro c ⟨⟩
    rfl
  have htab : Text.AsciiBlanks "\t".toList := by decide
  have hbreak : Text.AsciiBlanks "\n".toList := by decide
  have hcombine := parse_combine h₁ h₂ hfirst htab hbreak
  exact ⟨hcombine.1 '+' .nextSibling rfl, hcombine.2 (by decide)⟩

end Parser

end MarkupQuery
