import MarkupQuery.Selector.Basic

/-!
# What occurs in a selector

The simple selectors of a list of alternatives, at every depth: those of all compounds
of all chains, and those inside the arguments of `:has` and `:not`.

* `Simple.occurring`, `Complex.occurring` — the simple selectors that occur in one;
* `Complex.mem_allOccurring` — what occurs in a list occurs in one of its chains;
* `Complex.mem_occurring_of_mem_subject` — what a candidate is tested with occurs.
-/

namespace MarkupQuery

mutual

/-- The simple selectors that occur in one, which is the first of them. -/
def Simple.occurring : Simple → List Simple
  | .has list => .has list :: Complex.allOccurring list
  | .not list => .not list :: Complex.allOccurring list
  | s => [s]

/-- The simple selectors that occur in a compound. -/
def Simple.allOccurring : List Simple → List Simple
  | [] => []
  | s :: rest => s.occurring ++ Simple.allOccurring rest

/-- The simple selectors that occur in a chain. -/
def Complex.occurring : Complex → List Simple
  | .only compound => Simple.allOccurring compound
  | .linked compound _ left => Simple.allOccurring compound ++ left.occurring

/-- The simple selectors that occur in a list of alternatives. -/
def Complex.allOccurring : List Complex → List Simple
  | [] => []
  | c :: rest => c.occurring ++ Complex.allOccurring rest

end

variable {s : Simple}

theorem Simple.mem_occurring_self (s : Simple) : s ∈ s.occurring := by
  cases s <;> simp [occurring]

theorem Simple.mem_allOccurring {compound : Compound} :
    s ∈ Simple.allOccurring compound ↔ ∃ s' ∈ compound, s ∈ s'.occurring := by
  induction compound with
  | nil => simp [allOccurring]
  | cons s' rest ih => simp [allOccurring, ih]

theorem Complex.mem_allOccurring {list : SelectorList} :
    s ∈ Complex.allOccurring list ↔ ∃ c ∈ list, s ∈ c.occurring := by
  induction list with
  | nil => simp [allOccurring]
  | cons c rest ih => simp [allOccurring, ih]

/-- What a candidate is tested with occurs in the chain. -/
theorem Complex.mem_occurring_of_mem_subject {c : Complex} (h : s ∈ c.subject) :
    s ∈ c.occurring := by
  have hcompound : s ∈ Simple.allOccurring c.subject :=
    Simple.mem_allOccurring.2 ⟨s, h, s.mem_occurring_self⟩
  cases c with
  | only compound => exact hcompound
  | linked compound via left => exact List.mem_append_left _ hcompound

end MarkupQuery
