import MarkupQuery.Proofs.NormalForm
import MarkupQuery.Selector.Printer

/-!
# Selector lists as they are written

A selector list is written from left to right: simple selectors, the combinators
between compounds and the commas between alternatives.  Reading goes the same way, and
never takes back what it has read.

* `Item`, `Complex.itemsAll` — a selector list in the order in which it is written;
* `Complex.writeAll_eq` — its text is that of its items;
* `Parser.items_prefix_of_resume` — what is read stays at the start of the result;
* `Progress.follow`, `Progress.finish_follow` — the way from nothing to a list.
-/

namespace MarkupQuery

open Delimited

/-- A piece of a written selector list. -/
inductive Item where
  | simple (s : Simple)
  | via (k : Combinator)
  | comma

/-- The text of an item. -/
def Item.write : Item → List Char
  | simple s => s.write
  | via k => k.write
  | comma => [',', ' ']

/-- The items of a chain, the outermost compound first. -/
def Complex.items : Complex → List Item
  | .only compound => compound.map .simple
  | .linked compound via left => left.items ++ .via via :: compound.map .simple

/-- The items of a selector list. -/
def Complex.itemsAll : List Complex → List Item
  | [] => []
  | [c] => c.items
  | c :: rest => c.items ++ .comma :: Complex.itemsAll rest

/-- The items of alternatives with a comma after each. -/
def Complex.itemsBefore (done : List Complex) : List Item :=
  done.flatMap fun c => c.items ++ [.comma]

theorem Simple.writeAll_eq (compound : List Simple) :
    Simple.writeAll compound = (compound.map Item.simple).flatMap Item.write := by
  induction compound with
  | nil => rfl
  | cons s rest ih => rw [Simple.writeAll, ih]; rfl

theorem Complex.write_eq (c : Complex) : c.write = c.items.flatMap Item.write := by
  induction c using Complex.items.induct with
  | case1 compound => exact Simple.writeAll_eq compound
  | case2 compound via left ih =>
      rw [Complex.write, Complex.items, ih, Simple.writeAll_eq]
      simp [Item.write]

/-- **The text of a selector list** is that of its items. -/
theorem Complex.writeAll_eq (l : List Complex) :
    Complex.writeAll l = (Complex.itemsAll l).flatMap Item.write := by
  fun_induction Complex.itemsAll l with
  | case1 => rfl
  | case2 c => exact c.write_eq
  | case3 c rest hrest ih =>
      rw [Complex.writeAll, ih, Complex.write_eq]
      · simp [Item.write]
      · exact hrest

theorem Complex.itemsAll_concat (done : List Complex) (c : Complex) :
    Complex.itemsAll (done ++ [c]) = Complex.itemsBefore done ++ c.items := by
  induction done with
  | nil => rfl
  | cons d done ih =>
      cases hrest : done ++ [c] with
      | nil => simp at hrest
      | cons e rest =>
          rw [List.cons_append, hrest, Complex.itemsAll, ← hrest, ih]
          · simp [Complex.itemsBefore]
          · simp

/-! ### Reading takes nothing back -/

variable {p : Parser} {nested : List Char → Nat → Outcome SelectorList}

/-- The items of what is read of an alternative. -/
def Place.items : Place → List Item
  | .opening => []
  | .leading via => [.simple .scope, .via via]
  | .pending _ via left => left.items ++ [.via via]
  | .inside left compound => (Complex.extend left compound).items
  | .behind chain => chain.items

namespace Progress

/-- The items of what is read. -/
def items (progress : Progress) : List Item :=
  Complex.itemsBefore progress.done ++ progress.place.items

/-- The items before the next simple selector: behind a blank the two compounds are
descendants. -/
def shown (progress : Progress) : List Item :=
  match progress.place with
  | .behind _ => progress.items ++ [.via .descendant]
  | _ => progress.items

theorem items_prefix_shown (progress : Progress) : progress.items <+: progress.shown := by
  unfold shown
  split
  · exact List.prefix_append _ _
  · exact List.prefix_rfl

/-- A simple selector comes after what is shown. -/
theorem items_addSimple (progress : Progress) (s : Simple) :
    (progress.addSimple s).items = progress.shown ++ [.simple s] := by
  obtain ⟨done, place⟩ := progress
  cases place with
  | opening => simp [addSimple, items, shown, Place.items, Complex.extend, Complex.items]
  | leading via => simp [addSimple, items, shown, Place.items, Complex.extend, Complex.items]
  | pending c via left =>
      simp [addSimple, items, shown, Place.items, Complex.extend, Complex.items]
  | inside left compound =>
      cases left <;> simp [addSimple, items, shown, Place.items, Complex.extend, Complex.items]
  | behind chain => simp [addSimple, items, shown, Place.items, Complex.extend, Complex.items]

/-- The items of the alternatives, when the last one ends. -/
theorem itemsAll_of_close {progress : Progress} {position : Nat} {l : SelectorList}
    (h : progress.close position = .ok l) :
    Complex.itemsAll l = progress.items ∧ Complex.itemsBefore l = progress.items ++ [.comma] := by
  obtain ⟨done, place⟩ := progress
  cases place with
  | opening => cases h
  | leading via => cases h
  | pending c via left => cases h
  | inside left compound =>
      cases h
      exact ⟨Complex.itemsAll_concat _ _, by simp [Complex.itemsBefore, items, Place.items]⟩
  | behind chain =>
      cases h
      exact ⟨Complex.itemsAll_concat _ _, by simp [Complex.itemsBefore, items, Place.items]⟩

/-- No step takes back what is read. -/
theorem items_prefix_of_take {progress progress' : Progress} {token : Token}
    (h : progress.take p nested token = .ok progress') : progress.items <+: progress'.items := by
  rcases take_eq_ok_iff.1 h with ⟨-, rfl⟩ | ⟨-, done, hclose, rfl⟩ |
    ⟨c, via, -, hcombinator⟩ | ⟨s, -, -, rfl⟩
  · obtain ⟨done, place⟩ := progress
    cases place <;> exact List.prefix_rfl
  · have hitems : items ⟨done, .opening⟩ = progress.items ++ [.comma] := by
      rw [← (itemsAll_of_close hclose).2]
      simp [items, Place.items]
    rw [hitems]
    exact List.prefix_append _ _
  · obtain ⟨done, place⟩ := progress
    cases place <;> cases hcombinator
    · exact ⟨[.simple .scope, .via via], by simp [items, Place.items]⟩
    · exact ⟨[.via via], by simp [items, Place.items]⟩
    · exact ⟨[.via via], by simp [items, Place.items]⟩
  · rw [items_addSimple]
    exact (items_prefix_shown progress).trans (List.prefix_append _ _)

theorem itemsAll_of_finish {progress : Progress} {position : Nat} {l : SelectorList}
    (h : progress.finish position = .ok l) : Complex.itemsAll l = progress.items := by
  unfold finish at h
  split at h
  · cases h
  · exact (itemsAll_of_close h).1

end Progress

/-- **What is read stays** at the start of the result. -/
theorem Parser.items_prefix_of_resume {inCompound : Bool} {position : Nat}
    {progress : Progress} {cs : List Char} {l : SelectorList}
    (h : p.resume nested inCompound position progress cs = .ok l) :
    progress.items <+: Complex.itemsAll l := by
  obtain ⟨_, stop, progress', hprogress, hfinish⟩ :=
    resume_preserves (P := fun _ progress' => progress.items <+: progress'.items)
      (fun _ _ _ _ _ _ hprogress htake => hprogress.trans (Progress.items_prefix_of_take htake))
      List.prefix_rfl h
  rwa [Progress.itemsAll_of_finish hfinish]

/-! ### The way to a list -/

/-- Whether items are in an order in which they can be written.  `inside` tells that a
compound is being written. -/
def Item.Orderly : Bool → List Item → Prop
  | inside, [] => inside = true
  | inside, .simple s :: rest => (s.isType = true → inside = false) ∧ Item.Orderly true rest
  | inside, .via _ :: rest => inside = true ∧ Item.Orderly false rest
  | inside, .comma :: rest => inside = true ∧ Item.Orderly false rest

/-- The place after a chain and a combinator. -/
def Combinator.place (chain : Complex) : Combinator → Place
  | .descendant => .behind chain
  | .child => .pending '>' .child chain
  | .nextSibling => .pending '+' .nextSibling chain
  | .subsequentSibling => .pending '~' .subsequentSibling chain

/-- What is read after one more item. -/
def Progress.follow (progress : Progress) (item : Item) : Progress :=
  match item, progress.place with
  | .simple s, _ => progress.addSimple s
  | .via k, .inside left compound => ⟨progress.done, k.place (.extend left compound)⟩
  | .comma, .inside left compound => ⟨progress.done ++ [.extend left compound], .opening⟩
  | _, _ => progress

/-- The place at the end of a chain. -/
def Complex.place : Complex → Place
  | .only compound => .inside none compound
  | .linked compound via left => .inside (some (via, left)) compound

/-- The simple selectors of a compound are read one by one. -/
theorem Progress.foldl_follow_inside (done : List Complex)
    (left : Option (Combinator × Complex)) (front compound : Compound) :
    (compound.map Item.simple).foldl Progress.follow ⟨done, .inside left front⟩ =
      ⟨done, .inside left (front ++ compound)⟩ := by
  induction compound generalizing front with
  | nil => simp
  | cons s rest ih =>
      rw [List.map_cons, List.foldl_cons]
      show List.foldl Progress.follow ⟨done, .inside left (front ++ [s])⟩ _ = _
      rw [ih, List.append_assoc, List.singleton_append]

/-- A chain is read from its outermost compound to its subject. -/
theorem Progress.foldl_follow_items (done : List Complex) {c : Complex} (h : c.Normal p) :
    c.items.foldl Progress.follow ⟨done, .opening⟩ = ⟨done, c.place⟩ := by
  induction c using Complex.items.induct with
  | case1 compound =>
      obtain ⟨s, rest, rfl⟩ := List.exists_cons_of_ne_nil h.1
      rw [Complex.items, List.map_cons, List.foldl_cons]
      exact foldl_follow_inside done none [s] rest
  | case2 compound via left ih =>
      obtain ⟨⟨hne, -⟩, hleft⟩ := h
      obtain ⟨s, rest, rfl⟩ := List.exists_cons_of_ne_nil hne
      have hvia : Progress.follow ⟨done, left.place⟩ (.via via) = ⟨done, via.place left⟩ := by
        cases left <;> rfl
      have hsimple : Progress.follow ⟨done, via.place left⟩ (.simple s) =
          ⟨done, .inside (some (via, left)) [s]⟩ := by
        cases via <;> rfl
      rw [Complex.items, List.foldl_append, ih hleft, List.foldl_cons, hvia, List.map_cons,
        List.foldl_cons, hsimple]
      exact foldl_follow_inside done (some (via, left)) [s] rest

/-- **Following its items** leads from nothing to a selector list. -/
theorem Progress.finish_follow {l : SelectorList} (hne : l ≠ []) (h : Complex.AllNormal p l)
    (done : List Complex) (position : Nat) :
    ((Complex.itemsAll l).foldl Progress.follow ⟨done, .opening⟩).finish position =
      .ok (done ++ l) := by
  fun_induction Complex.itemsAll l generalizing done with
  | case1 => exact absurd rfl hne
  | case2 c =>
      rw [foldl_follow_items done h.1]
      cases c <;> rfl
  | case3 c rest hrest ih =>
      have hcomma : Progress.follow ⟨done, c.place⟩ .comma = ⟨done ++ [c], .opening⟩ := by
        cases c <;> rfl
      rw [List.foldl_append, foldl_follow_items done h.1, List.foldl_cons, hcomma,
        ih hrest h.2, List.append_assoc, List.singleton_append]

/-- The items of a normal chain are orderly, up to its end. -/
theorem Complex.orderly_items {c : Complex} (h : c.Normal p) {back : List Item}
    (hback : Item.Orderly true back) : Item.Orderly false (c.items ++ back) := by
  have hcompound : ∀ {compound : Compound} {back : List Item}, Compound.Normal p compound →
      Item.Orderly true back → Item.Orderly false (compound.map Item.simple ++ back) := by
    rintro compound back ⟨hne, hfirst, -⟩ hback
    obtain ⟨s, rest, rfl⟩ := List.exists_cons_of_ne_nil hne
    refine ⟨fun _ => rfl, ?_⟩
    rw [List.tail_cons] at hfirst
    clear hne
    induction rest with
    | nil => exact hback
    | cons t rest ih =>
        refine ⟨fun ht => ?_, ih fun u hu => hfirst u (List.mem_cons_of_mem t hu)⟩
        rw [hfirst t List.mem_cons_self] at ht
        cases ht
  induction c using Complex.items.induct generalizing back with
  | case1 compound => exact hcompound h hback
  | case2 compound via left ih =>
      rw [Complex.items, List.append_assoc]
      exact ih h.2 ⟨rfl, hcompound h.1 hback⟩

/-- **The items of a normal selector list** are orderly. -/
theorem Complex.orderly_itemsAll {l : SelectorList} (hne : l ≠ []) (h : Complex.AllNormal p l) :
    Item.Orderly false (Complex.itemsAll l) := by
  fun_induction Complex.itemsAll l with
  | case1 => exact absurd rfl hne
  | case2 c => simpa using Complex.orderly_items h.1 (show Item.Orderly true [] from rfl)
  | case3 c rest hrest ih => exact Complex.orderly_items h.1 ⟨rfl, ih hrest h.2⟩

end MarkupQuery
