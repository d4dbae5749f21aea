import MarkupQuery.Proofs.NormalForm
import MarkupQuery.Proofs.Selections
import MarkupQuery.Proofs.Shifting

/-!
# Joining selectors by a comma

Nothing that is open at the end of a text that can be read reaches over a comma after
it.  So what comes after the comma is read as if it were a text of its own, and adds its
alternatives to those before: a comma selects the union.

* `Parser.resume_append` — reading comes to a separator with everything before it read;
* `Parser.resume_prepend` — what is complete does not matter for what follows;
* `Parser.parse_append_comma` — a comma is a union, from texts to selections.
-/

namespace MarkupQuery

open Delimited

variable {p : Parser} {nested : List Char → Nat → Outcome SelectorList}

/-! ### Up to the comma -/

namespace Progress

theorem close_of_finish {progress : Progress} {position : Nat} {l : SelectorList}
    (h : progress.finish position = .ok l) : progress.close position = .ok l := by
  unfold finish at h
  split at h
  · cases h
  · exact h

/-- A token that is taken is no fault. -/
theorem not_fault_of_take {progress progress' : Progress} {position : Nat} {lexeme : Lexeme}
    (h : progress.take p nested ⟨position, lexeme⟩ = .ok progress') :
    ∀ e, lexeme ≠ .fault e := by
  rintro e rfl
  cases h

end Progress

/-- After a token the rest of the text ends where the text ends. -/
theorem Token.add_length_take (inCompound : Bool) (position : Nat) (c : Char) (cs : List Char) :
    position + (cs.length + 1 - (take inCompound position c cs).2.length) +
      (take inCompound position c cs).2.length = position + (c :: cs).length := by
  have hle := length_take_le inCompound position c cs
  rw [List.length_cons]
  omega

namespace Parser

/-- A token that ends before more text is taken as it is without that text. -/
theorem resume_cons_append {inCompound : Bool} {position : Nat} {progress progress' : Progress}
    {c : Char} {cs back : List Char}
    (htake : Token.take inCompound position c (cs ++ back) =
      ((Token.take inCompound position c cs).1, (Token.take inCompound position c cs).2 ++ back))
    (hstep : progress.take p nested ⟨position, (Token.take inCompound position c cs).1⟩ =
      .ok progress') :
    p.resume nested inCompound position progress (c :: cs ++ back) =
      p.resume nested (Token.take inCompound position c cs).1.isSimple
        (position + (cs.length + 1 - (Token.take inCompound position c cs).2.length))
        progress' ((Token.take inCompound position c cs).2 ++ back) := by
  have hle := Token.length_take_le inCompound position c cs
  rw [List.cons_append, resume_cons, htake, hstep]
  generalize Token.take inCompound position c cs = taken at *
  have hstart : (cs ++ back).length + 1 - (taken.2 ++ back).length =
      cs.length + 1 - taken.2.length := by
    simp only [List.length_append]
    omega
  show p.resume nested taken.1.isSimple _ progress' (taken.2 ++ back) = _
  rw [hstart]

/-- **Reading comes to a separator** after a text that can be read with everything before
it read. -/
theorem resume_append {inCompound : Bool} {position : Nat} {progress : Progress}
    {cs : List Char} {l : SelectorList}
    (h : p.resume nested inCompound position progress cs = .ok l) {d : Char}
    (hd : IsSeparator d) (back : List Char) :
    ∃ inCompound' progress', progress'.finish (position + cs.length) = .ok l ∧
      p.resume nested inCompound position progress (cs ++ d :: back) =
        p.resume nested inCompound' (position + cs.length) progress' (d :: back) := by
  induction inCompound, position, cs using Token.induction generalizing progress with
  | nil inCompound position =>
      rw [resume_nil] at h
      exact ⟨inCompound, progress, h, rfl⟩
  | cons inCompound position c cs ih =>
      rw [resume_cons] at h
      obtain ⟨progress', hstep, hrest⟩ := Outcome.bind_eq_ok_iff.1 h
      have htake := (Token.takes_take inCompound position c cs
        (Progress.not_fault_of_take hstep)).2 d back (hd.endsBefore _)
      obtain ⟨inCompound', progress'', hfinish, hread⟩ := ih hrest
      have hend := Token.add_length_take inCompound position c cs
      rw [hend] at hfinish hread
      exact ⟨inCompound', progress'', hfinish, (resume_cons_append htake hstep).trans hread⟩

/-- **Reading comes to a comma** with an alternative complete. -/
theorem resume_append_comma {inCompound : Bool} {position : Nat} {progress : Progress}
    {cs : List Char} {l : SelectorList}
    (h : p.resume nested inCompound position progress cs = .ok l) (back : List Char) :
    p.resume nested inCompound position progress (cs ++ ',' :: back) =
      p.resume nested false (position + cs.length + 1) ⟨l, .opening⟩ back := by
  obtain ⟨inCompound', progress', hfinish, hread⟩ := resume_append h isSeparator_comma back
  have hstep : progress'.take p nested ⟨position + cs.length, .comma⟩ = .ok ⟨l, .opening⟩ :=
    Outcome.map_eq_ok_iff.2 ⟨l, Progress.close_of_finish hfinish, rfl⟩
  rw [hread, resume_cons, Token.take_comma, hstep]
  simp [bind, Except.bind, Lexeme.isSimple]

end Parser

/-! ### After the comma -/

namespace Progress

/-- The same place with more alternatives complete. -/
def prepend (front : List Complex) (progress : Progress) : Progress :=
  ⟨front ++ progress.done, progress.place⟩

theorem close_prepend (front : List Complex) (progress : Progress) (position : Nat) :
    (progress.prepend front).close position = (progress.close position).map (front ++ ·) := by
  obtain ⟨done, place⟩ := progress
  cases place <;> simp [close, prepend, Except.map]

/-- **A step does not look** at what is complete. -/
theorem take_prepend (front : List Complex) (progress : Progress) (token : Token) :
    (progress.prepend front).take p nested token =
      (progress.take p nested token).map (prepend front) := by
  obtain ⟨position, lexeme⟩ := token
  have hadd : ∀ s, (progress.prepend front).addSimple s = (progress.addSimple s).prepend front := by
    intro s
    obtain ⟨done, place⟩ := progress
    cases place <;> rfl
  have hmap : ∀ o : Outcome Simple, o.map (progress.prepend front).addSimple =
      (o.map progress.addSimple).map (prepend front) := by
    intro o
    cases o with
    | ok s => exact congrArg Except.ok (hadd s)
    | error e => rfl
  cases lexeme with
  | blank =>
      obtain ⟨done, place⟩ := progress
      cases place <;> rfl
  | comma =>
      simp only [take, close_prepend]
      cases progress.close position <;> rfl
  | combinator c via =>
      obtain ⟨done, place⟩ := progress
      cases place <;> rfl
  | star => exact congrArg Except.ok (hadd .universal)
  | type letters =>
      obtain ⟨done, place⟩ := progress
      cases place <;> rfl
  | id letters => exact congrArg Except.ok (hadd _)
  | ofClass letters => exact congrArg Except.ok (hadd _)
  | «attribute» content =>
      simp only [take]
      cases p.attributeTest position content with
      | ok test => exact congrArg Except.ok (hadd _)
      | error e => rfl
  | pseudo name argument =>
      cases argument with
      | none => exact hmap _
      | some argument => exact hmap _
  | stray c =>
      obtain ⟨done, place⟩ := progress
      cases place <;> rfl
  | fault e => rfl

/-- At the end only a list of which nothing is read tells whether something is complete. -/
theorem finish_prepend (front : List Complex) {progress : Progress} (h : progress ≠ .start)
    (position : Nat) :
    (progress.prepend front).finish position = (progress.finish position).map (front ++ ·) := by
  obtain ⟨done, place⟩ := progress
  cases place with
  | opening =>
      cases done with
      | nil => exact absurd rfl h
      | cons c done => cases front <;> rfl
  | _ => simpa [finish, prepend] using close_prepend front ⟨done, _⟩ position

/-- Once something is read, it stays so. -/
theorem ne_start_of_take {progress progress' : Progress} {token : Token}
    (h : progress.take p nested token = .ok progress')
    (hne : token.lexeme = .blank → progress ≠ .start) : progress' ≠ .start := by
  obtain ⟨done, place⟩ := progress
  rcases take_eq_ok_iff.1 h with ⟨hblank, rfl⟩ | ⟨-, done', hclose, rfl⟩ |
    ⟨c, via, -, hcombinator⟩ | ⟨s, -, -, rfl⟩
  · have hne := hne hblank
    cases place with
    | inside left compound =>
        intro heq
        cases heq
    | _ => exact hne
  · rintro ⟨⟩
    cases place <;> simp [close] at hclose
  · cases place <;> cases hcombinator <;> rintro ⟨⟩
  · cases place <;> rintro ⟨⟩

end Progress

namespace Parser

/-- **What is complete does not matter** for reading on, once something is read. -/
theorem resume_prepend (front : List Complex) {inCompound : Bool} {position : Nat}
    {progress : Progress} (h : progress ≠ .start) (cs : List Char) :
    p.resume nested inCompound position (progress.prepend front) cs =
      (p.resume nested inCompound position progress cs).map (front ++ ·) := by
  induction inCompound, position, cs using Token.induction generalizing progress with
  | nil inCompound position => rw [resume_nil, resume_nil, Progress.finish_prepend front h]
  | cons inCompound position c cs ih =>
      rw [resume_cons, resume_cons, Progress.take_prepend]
      generalize Token.take inCompound position c cs = taken at *
      cases hstep : progress.take p nested ⟨position, taken.1⟩ with
      | error e => rfl
      | ok progress' => exact ih (Progress.ne_start_of_take hstep fun _ => h)

/-- Blanks are skipped where they change nothing. -/
theorem resume_skip {progress : Progress} (h : progress.addBlank = progress) (position : Nat)
    (cs : List Char) :
    p.resume nested false position progress cs =
      p.resume nested false (position + (cs.length - (cs.dropWhile Text.isBlank).length))
        progress (cs.dropWhile Text.isBlank) := by
  cases cs with
  | nil => rfl
  | cons c cs =>
      by_cases hc : Text.isBlank c = true
      · have htake : Token.take false position c cs = (.blank, cs.dropWhile Text.isBlank) := by
          simp [Token.take, hc]
        have hstep : progress.take p nested ⟨position, .blank⟩ = .ok progress :=
          congrArg Except.ok h
        rw [List.dropWhile_cons_of_pos hc, resume_cons, htake, hstep]
        rfl
      · rw [List.dropWhile_cons_of_neg hc, Nat.sub_self]
        rfl

end Parser

/-- Only a blank starts a blank token. -/
theorem Token.isBlank_of_take {inCompound : Bool} {position : Nat} {c : Char} {rest : List Char}
    (h : (take inCompound position c rest).1 = .blank) : Text.isBlank c = true := by
  obtain ⟨⟨text, htext, hspells⟩, -⟩ := takes_take inCompound position c rest (by simp [h])
  rw [h] at hspells
  cases hspells with
  | blank hblank =>
      cases text with
      | nil =>
          have hle := length_take_le inCompound position c rest
          have hlength := congrArg List.length htext
          simp only [List.length_append, List.length_cons, List.length_nil] at hlength
          omega
      | cons d text =>
          obtain ⟨rfl, -⟩ := List.cons.inj htext
          exact hblank c List.mem_cons_self

namespace Parser

/-- What comes after a comma is read as a text of its own, and blanks alone are none. -/
theorem resume_after_comma (front : List Complex) (position : Nat) (cs : List Char) :
    p.resume nested false position ⟨front, .opening⟩ cs =
      if cs.dropWhile Text.isBlank = [] then
        Progress.finish ⟨front, .opening⟩ (position + cs.length)
      else (p.resume nested false position .start cs).map (front ++ ·) := by
  rw [resume_skip rfl, Progress.start, resume_skip rfl position]
  split
  · next hnil => rw [hnil, resume_nil, List.length_nil, Nat.sub_zero]
  · next hne =>
      obtain ⟨c, rest, hrest⟩ := List.exists_cons_of_ne_nil hne
      have hc : Text.isBlank c = false := by
        have hhead := List.head?_dropWhile_not Text.isBlank cs
        rw [hrest] at hhead
        simpa using hhead
      rw [hrest]
      generalize position + (cs.length - (c :: rest).length) = stop
      have hfront : (⟨front, .opening⟩ : Progress) = Progress.start.prepend front := by
        simp [Progress.start, Progress.prepend]
      have hstart : (⟨[], .opening⟩ : Progress) = .start := rfl
      rw [hfront, hstart, resume_cons, resume_cons, Progress.take_prepend]
      cases hstep : Progress.start.take p nested ⟨stop, (Token.take false stop c rest).1⟩ with
      | error e => rfl
      | ok progress' =>
          have hread : progress' ≠ .start := Progress.ne_start_of_take hstep fun hblank => by
            rw [Token.isBlank_of_take hblank] at hc
            cases hc
          exact resume_prepend front hread _

/-- What comes after a comma in a text that stands at some position. -/
theorem parseAt_append_comma {cs : List Char} {base : Nat} {l : SelectorList}
    (h : p.parseAt cs base = .ok l) (back : List Char) :
    p.parseAt (cs ++ ',' :: back) base =
      if back.dropWhile Text.isBlank = [] then
        .error (.malformed (base + cs.length + 1 + back.length) (.expectedSelectorAfter ','))
      else (p.parseAt back (base + cs.length + 1)).map (l ++ ·) := by
  have hne : l ≠ [] := (yieldsNormal_parseWithin _ _ _ _ h).1
  obtain ⟨c, rest, rfl⟩ := List.exists_cons_of_ne_nil hne
  rw [parseAt_eq_resume] at h
  rw [parseAt_eq_resume, resume_append_comma h, resume_after_comma, parseAt_eq_resume back]
  rfl

/-- A text of blanks is no selector. -/
theorem parse_blank {text : String} (h : text.toList.dropWhile Text.isBlank = []) :
    p.parse text = .error (.malformed text.length .expectedSelector) := by
  rw [parse, parseAt_eq_resume, Progress.start, resume_after_comma, if_pos h, Nat.zero_add,
    String.length_toList]
  rfl

/-- **A comma and what follows it.**  The other alternatives join those before the comma,
and their errors are moved by the text before them.  Blanks alone are no alternative. -/
theorem parse_append {s₁ : String} {l₁ : SelectorList} (h₁ : p.parse s₁ = .ok l₁)
    (s₂ : String) :
    p.parse (s₁ ++ "," ++ s₂) =
      if s₂.toList.dropWhile Text.isBlank = [] then
        .error (.malformed (s₁.length + 1 + s₂.length) (.expectedSelectorAfter ','))
      else (Outcome.shift (s₁.length + 1) (p.parse s₂)).map (l₁ ++ ·) := by
  have htext : (s₁ ++ "," ++ s₂).toList = s₁.toList ++ ',' :: s₂.toList := by simp
  have hbase : 0 + s₁.toList.length + 1 = 0 + (s₁.length + 1) := by
    rw [String.length_toList]
    omega
  rw [parse, htext, parseAt_append_comma h₁, hbase, parseAt_shift, Nat.zero_add,
    String.length_toList]
  rfl

/-- **A comma is a union**, from texts to selections.  A text that can be read, a comma and
another text are read as the alternatives of the one and then those of the other, just
when the other can be read; what a query of the whole selects is what these alternatives
select, which is the union in document order.  The errors of the other text are those of
the whole, further on. -/
theorem parse_append_comma {s₁ : String} {l₁ : SelectorList} (h₁ : p.parse s₁ = .ok l₁)
    (s₂ : String) :
    (∀ l, p.parse (s₁ ++ "," ++ s₂) = .ok l ↔
      ∃ l₂, p.parse s₂ = .ok l₂ ∧ l = l₁ ++ l₂) ∧
    (∀ l₂, p.parse s₂ = .ok l₂ → ∀ (t : Tree) (scope : NodeId), Tree.Reachable t →
      ∃ selected₁ selected₂ selected, t.query p scope s₁ = .ok selected₁ ∧
        t.query p scope s₂ = .ok selected₂ ∧
        t.query p scope (s₁ ++ "," ++ s₂) = .ok selected ∧
        selected₁ = t.select p.engine scope l₁ ∧ selected₂ = t.select p.engine scope l₂ ∧
        selected = t.select p.engine scope (l₁ ++ l₂) ∧
        (∀ x, x ∈ selected.ids ↔ x ∈ selected₁.ids ∨ x ∈ selected₂.ids) ∧
        selected.ids.Nodup ∧ selected.ids.Pairwise t.Precedes) ∧
    (∀ position reason, p.parse s₂ = .error (.malformed position reason) →
      ∃ reason', p.parse (s₁ ++ "," ++ s₂) =
        .error (.malformed (s₁.length + 1 + position) reason')) ∧
    ∀ source explanation, p.parse s₂ = .error (.invalidPattern source explanation) →
      p.parse (s₁ ++ "," ++ s₂) = .error (.invalidPattern source explanation) := by
  have hread := parse_append h₁ s₂
  by_cases hblank : s₂.toList.dropWhile Text.isBlank = []
  · -- blanks alone: both are refused where the text ends
    rw [if_pos hblank] at hread
    rw [hread, parse_blank hblank]
    refine ⟨by simp, by simp, ?_, by simp⟩
    rintro position reason ⟨⟩
    exact ⟨_, rfl⟩
  · rw [if_neg hblank] at hread
    have hok : ∀ l₂, p.parse s₂ = .ok l₂ → p.parse (s₁ ++ "," ++ s₂) = .ok (l₁ ++ l₂) := by
      intro l₂ h₂
      rw [hread, h₂]
      rfl
    refine ⟨fun l => ⟨fun hl => ?_, ?_⟩, fun l₂ h₂ t scope ht => ?_, ?_, ?_⟩
    · rw [hread] at hl
      obtain ⟨l₂, h₂, rfl⟩ := Outcome.map_eq_ok_iff.1 hl
      exact ⟨l₂, Outcome.shift_eq_ok_iff.1 h₂, rfl⟩
    · rintro ⟨l₂, h₂, rfl⟩
      exact hok l₂ h₂
    · refine ⟨_, _, _, Outcome.map_eq_ok_iff.2 ⟨l₁, h₁, rfl⟩,
        Outcome.map_eq_ok_iff.2 ⟨l₂, h₂, rfl⟩, Outcome.map_eq_ok_iff.2 ⟨_, hok l₂ h₂, rfl⟩,
        rfl, rfl, rfl, fun x => ht.forest.mem_select_append, ht.forest.nodup_select,
        ht.forest.pairwise_select⟩
    · intro position reason h₂
      refine ⟨reason, ?_⟩
      rw [hread, h₂, Nat.add_comm _ position]
      rfl
    · intro source explanation h₂
      rw [hread, h₂]
      rfl

/-- A comma in an argument joins nothing; an error after the one that does stands where
the whole text has it. -/
theorem parse_append_comma_after_argument :
    let p : Parser := ⟨.standard, .literal⟩
    p.parse ("p:contains(a,b)" ++ "," ++ "#i") =
        .ok [.only [.type "p", .contains .whole "a,b"], .only [.id "i"]] ∧
      ∃ reason, p.parse ("p:contains(a,b)" ++ "," ++ "#i >") = .error (.malformed 20 reason) := by
  intro p
  have h₁ : p.parse "p:contains(a,b)" = .ok [.only [.type "p", .contains .whole "a,b"]] := by
    decide +kernel
  have h₂ : p.parse "#i" = .ok [.only [.id "i"]] := by decide +kernel
  have h₃ : p.parse "#i >" = .error (.malformed 4 (.expectedSelectorAfter '>')) := by
    decide +kernel
  exact ⟨((parse_append_comma h₁ "#i").1 _).2 ⟨_, h₂, rfl⟩,
    (parse_append_comma h₁ "#i >").2.2.1 _ _ h₃⟩

end Parser

end MarkupQuery
