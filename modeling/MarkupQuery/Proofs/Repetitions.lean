import MarkupQuery.Warning
import Mathlib.Data.List.Induction

/-!
# Repeated warnings

Warnings are told apart by the line that component and message make together.  The bracket
that ends the component in it may also stand in a component or a message, so two warnings may
make one line although neither their components nor their messages are equal.  Then the second
one is dropped.  No other warning is dropped without being a repetition, so warnings from one
component are printed once for each message.

* `LogStep`, `WarningLog.after` — what is done to a record, and what it leads to;
* `WarningLog.Recent` — which warnings were given since the last clearing;
* `Warning.RunsInto`, `Warning.line_eq_iff` — which warnings make the same line;
* `WarningLog.mem_seen_after` — what the record remembers;
* `WarningLog.printed_after_clear` — warnings for names, in the order of their first occurrences;
* `WarningLog.warn_after` — which warnings are printed.
-/

namespace MarkupQuery

/-! ### Lines -/

namespace Warning

variable {v w : Warning}

/-- Both warnings make one line, which `w` cuts later: its component goes on beyond the bracket
that ends the component of `v`, with what stands at the start of the message of `v`. -/
def RunsInto (v w : Warning) : Prop :=
  ∃ between, w.component = v.component ++ "] " ++ between ∧
    v.message = between ++ "] " ++ w.message

theorem line_eq_of_runsInto (h : v.RunsInto w) : v.line = w.line := by
  obtain ⟨between, hcomponent, hmessage⟩ := h
  simp only [line, hcomponent, hmessage, String.append_assoc]

theorem toList_line (w : Warning) :
    w.line.toList = '[' :: (w.component.toList ++ ']' :: ' ' :: w.message.toList) := by
  simp [line]

/-- If one component starts with the other one, the lines are equal in two ways only. -/
theorem eq_or_runsInto_of_append {more : List Char}
    (hcomponent : w.component.toList = v.component.toList ++ more)
    (hmessage : ']' :: ' ' :: v.message.toList = more ++ ']' :: ' ' :: w.message.toList) :
    v = w ∨ v.RunsInto w := by
  rcases more with - | ⟨c, - | ⟨d, between⟩⟩
  · left
    rw [List.append_nil, String.toList_inj] at hcomponent
    have hsame : v.message = w.message := by simpa [String.toList_inj] using hmessage
    cases v
    cases w
    simp_all
  · simp at hmessage
  · right
    simp only [List.cons_append, List.cons.injEq] at hmessage
    obtain ⟨rfl, rfl, hmessage⟩ := hmessage
    refine ⟨String.ofList between, ?_, ?_⟩
    · rw [← String.toList_inj, hcomponent]
      simp
    · rw [← String.toList_inj, hmessage]
      simp

/-- **Which warnings make the same line:** equal ones, and those of which one runs into the
other. -/
theorem line_eq_iff : v.line = w.line ↔ v = w ∨ v.RunsInto w ∨ w.RunsInto v := by
  constructor
  · intro h
    rw [← String.toList_inj, toList_line, toList_line, List.cons.injEq] at h
    rcases List.append_eq_append_iff.1 h.2 with ⟨more, hcomponent, hmessage⟩ |
      ⟨more, hcomponent, hmessage⟩
    · exact (eq_or_runsInto_of_append hcomponent hmessage).imp_right .inl
    · exact (eq_or_runsInto_of_append hcomponent hmessage).imp Eq.symm .inr
  · rintro (rfl | h | h)
    · rfl
    · exact line_eq_of_runsInto h
    · exact (line_eq_of_runsInto h).symm

/-- A component that goes on beyond the end of another one holds such an end. -/
theorem RunsInto.isInfix (h : v.RunsInto w) : "] ".toList <:+: w.component.toList := by
  obtain ⟨between, hcomponent, -⟩ := h
  exact ⟨v.component.toList, between.toList, by rw [hcomponent]; simp⟩

end Warning

/-! ### First occurrences -/

section FirstOccurrences

variable {α : Type} [DecidableEq α]

/-- A member that is added at the end is kept if it is new. -/
theorem eraseDups_concat (l : List α) (a : α) :
    (l ++ [a]).eraseDups = l.eraseDups ++ if a ∈ l then [] else [a] := by
  rw [List.eraseDups_append]
  by_cases ha : a ∈ l <;> simp [List.removeAll, List.eraseDups_cons, ha]

theorem nodup_eraseDups (l : List α) : l.eraseDups.Nodup := by
  induction l using List.reverseRecOn with
  | nil => exact .nil
  | append_singleton l a ih =>
      rw [eraseDups_concat]
      by_cases ha : a ∈ l
      · rwa [if_pos ha, List.append_nil]
      · rw [if_neg ha, List.nodup_append]
        refine ⟨ih, List.pairwise_singleton _ a, fun b hb c hc => ?_⟩
        rintro rfl
        exact ha (List.mem_singleton.1 hc ▸ List.mem_eraseDups.1 hb)

end FirstOccurrences

/-! ### Histories -/

/-- Something that is done to a record of warnings. -/
inductive LogStep where
  | warn (w : Warning)
  | clear
  deriving DecidableEq

namespace WarningLog

variable {log : WarningLog} {steps : List LogStep} {w : Warning}

/-- The record after one step. -/
def apply (log : WarningLog) : LogStep → WarningLog
  | .warn w => (log.warn w).1
  | .clear => log.clear

/-- The record after some steps. -/
def after (log : WarningLog) (steps : List LogStep) : WarningLog := steps.foldl apply log

theorem after_append (log : WarningLog) (steps steps' : List LogStep) :
    log.after (steps ++ steps') = (log.after steps).after steps' :=
  List.foldl_append

theorem after_concat (log : WarningLog) (steps : List LogStep) (step : LogStep) :
    log.after (steps ++ [step]) = (log.after steps).apply step :=
  log.after_append steps [step]

/-- A warning was given, printed or not, and the record has not been cleared since. -/
def Recent (steps : List LogStep) (w : Warning) : Prop :=
  ∃ before since, steps = before ++ .warn w :: since ∧ .clear ∉ since

theorem not_recent_nil (w : Warning) : ¬ Recent [] w := by
  rintro ⟨before, since, hsteps, -⟩
  simp at hsteps

/-- Each step adds the warning that it gives, unless it clears the record. -/
theorem recent_concat {step : LogStep} :
    Recent (steps ++ [step]) w ↔ step = .warn w ∨ step ≠ .clear ∧ Recent steps w := by
  constructor
  · rintro ⟨before, since, hsteps, hclear⟩
    rcases List.eq_nil_or_concat since with rfl | ⟨since', last, rfl⟩
    · obtain ⟨-, hlast⟩ := List.append_inj' hsteps rfl
      exact .inl (List.singleton_inj.1 hlast)
    · rw [List.concat_eq_append] at hsteps hclear
      have hsplit : steps ++ [step] = (before ++ .warn w :: since') ++ [last] := by
        simpa using hsteps
      obtain ⟨hfront, hlast⟩ := List.append_inj' hsplit rfl
      obtain rfl := List.singleton_inj.1 hlast
      rw [List.mem_append, List.mem_singleton, not_or] at hclear
      exact .inr ⟨fun heq => hclear.2 heq.symm, before, since', hfront, hclear.1⟩
  · rintro (rfl | ⟨hstep, before, since, rfl, hclear⟩)
    · exact ⟨steps, [], rfl, List.not_mem_nil⟩
    · refine ⟨before, since ++ [step], by simp, ?_⟩
      rw [List.mem_append, List.mem_singleton, not_or]
      exact ⟨hclear, fun heq => hstep heq.symm⟩

/-- Recent warnings are found going back to the last clearing. -/
theorem recent_iff : Recent steps w ↔ .warn w ∈ steps.reverse.takeWhile (· ≠ .clear) := by
  induction steps using List.reverseRecOn with
  | nil => simp [not_recent_nil]
  | append_singleton steps step ih =>
      rw [recent_concat, ih, List.reverse_append]
      cases step <;> simp [eq_comm]

instance (steps : List LogStep) (w : Warning) : Decidable (Recent steps w) :=
  decidable_of_iff _ recent_iff.symm

/-- Without further clearings all warnings are recent. -/
theorem recent_clear_map_warn {ws : List Warning} :
    Recent (.clear :: ws.map .warn) w ↔ w ∈ ws := by
  have hwarn : ∀ step ∈ (ws.map LogStep.warn).reverse, decide (step ≠ .clear) = true := by
    simp
  rw [recent_iff, List.reverse_cons, List.takeWhile_append_of_pos hwarn]
  simp

/-! ### What is remembered and what is printed -/

theorem seen_warn (log : WarningLog) (w : Warning) {line : String} :
    line ∈ (log.warn w).1.seen ↔ line = w.line ∨ line ∈ log.seen := by
  unfold warn
  split
  · next hseen =>
    refine ⟨.inr, fun h => ?_⟩
    rcases h with rfl | h
    · exact hseen
    · exact h
  · exact List.mem_cons

/-- A warning is printed just if its line is not remembered. -/
theorem warn_eq_true_iff : (log.warn w).2 = true ↔ w.line ∉ log.seen := by
  unfold warn
  split <;> simp [*]

/-- What is printed is what the record says to be printed. -/
theorem printed_warn (log : WarningLog) (w : Warning) :
    (log.warn w).1.printed = log.printed ++ if (log.warn w).2 then [w] else [] := by
  unfold warn
  split <;> simp

/-- **What the record remembers:** the lines of the recent warnings, and what it remembered
before if it was never cleared. -/
theorem mem_seen_after (log : WarningLog) (steps : List LogStep) {line : String} :
    line ∈ (log.after steps).seen ↔
      (∃ w, Recent steps w ∧ line = w.line) ∨ line ∈ log.seen ∧ .clear ∉ steps := by
  induction steps using List.reverseRecOn with
  | nil => simp [after, not_recent_nil]
  | append_singleton steps step ih =>
      rw [after_concat]
      cases step with
      | warn v =>
          rw [apply, seen_warn, ih]
          simp [recent_concat, or_and_right, exists_or, or_assoc]
      | clear => simp [apply, clear, recent_concat]

/-- **One warning for each name.**  If different names give warnings with different lines, the
warnings for some names, given after a clearing, are printed once for each name, in the order in
which the names first occur. -/
theorem printed_after_clear {α : Type} [DecidableEq α] {warning : α → Warning}
    (hlines : ∀ a b, (warning a).line = (warning b).line → a = b) (log : WarningLog)
    (names : List α) :
    (log.after (.clear :: (names.map warning).map .warn)).printed =
      log.printed ++ names.eraseDups.map warning := by
  induction names using List.reverseRecOn with
  | nil => simp [after, apply, clear]
  | append_singleton names a ih =>
      let earlier := log.after (.clear :: (names.map warning).map .warn)
      have hseen : (warning a).line ∈ earlier.seen ↔ a ∈ names := by
        simp only [earlier, mem_seen_after, recent_clear_map_warn, List.mem_map,
          List.mem_cons, true_or, not_true_eq_false, and_false, or_false]
        constructor
        · rintro ⟨_, ⟨b, hb, rfl⟩, hline⟩
          exact hlines a b hline ▸ hb
        · intro ha
          exact ⟨_, ⟨a, ha, rfl⟩, rfl⟩
      have hstep : log.after (.clear :: ((names ++ [a]).map warning).map .warn) =
          (earlier.warn (warning a)).1 := by
        rw [List.map_append, List.map_append, ← List.cons_append]
        exact log.after_concat _ _
      have hprints : (earlier.warn (warning a)).2 = true ↔ a ∉ names := by
        rw [warn_eq_true_iff, hseen]
      rw [hstep, printed_warn, ih, eraseDups_concat, List.map_append, List.append_assoc]
      by_cases ha : a ∈ names
      · rw [if_neg (hprints.not.2 (not_not.2 ha)), if_pos ha, List.map_nil]
      · rw [if_pos (hprints.2 ha), if_neg ha, List.map_singleton]

/-- **Which warnings are printed.**  After any steps from an empty record, a warning is printed
just if it was not given since the last clearing and none that was given since then runs into
it or the reverse; and what is printed is the warning itself.  If no component holds the end of
a component, this comes to: just if it is no repetition. -/
theorem warn_after (steps : List LogStep) (w : Warning) :
    (((empty.after steps).warn w).2 = true ↔
      ¬ Recent steps w ∧ ∀ v, Recent steps v → ¬ v.RunsInto w ∧ ¬ w.RunsInto v) ∧
    ((empty.after steps).warn w).1.printed =
      (empty.after steps).printed ++ (if ((empty.after steps).warn w).2 then [w] else []) ∧
    ((∀ v, v = w ∨ Recent steps v → ¬ "] ".toList <:+: v.component.toList) →
      (((empty.after steps).warn w).2 = true ↔ ¬ Recent steps w)) := by
  have hseen : w.line ∈ (empty.after steps).seen ↔ ∃ v, Recent steps v ∧ w.line = v.line := by
    simp [mem_seen_after, empty]
  have hprinted : ((empty.after steps).warn w).2 = true ↔
      ¬ Recent steps w ∧ ∀ v, Recent steps v → ¬ v.RunsInto w ∧ ¬ w.RunsInto v := by
    rw [warn_eq_true_iff, hseen, not_exists]
    constructor
    · intro hnone
      refine ⟨fun hw => hnone w ⟨hw, rfl⟩, fun v hv => ⟨fun hruns => ?_, fun hruns => ?_⟩⟩
      · exact hnone v ⟨hv, (Warning.line_eq_of_runsInto hruns).symm⟩
      · exact hnone v ⟨hv, Warning.line_eq_of_runsInto hruns⟩
    · rintro ⟨hnew, hapart⟩ v ⟨hv, hline⟩
      rcases Warning.line_eq_iff.1 hline with rfl | hruns | hruns
      · exact hnew hv
      · exact (hapart v hv).2 hruns
      · exact (hapart v hv).1 hruns
  refine ⟨hprinted, printed_warn _ w, fun hplain => hprinted.trans (and_iff_left ?_)⟩
  exact fun v hv => ⟨fun hruns => hplain w (.inl rfl) hruns.isInfix,
    fun hruns => hplain v (.inr hv) hruns.isInfix⟩

/-- After a clearing a warning is printed again, if only once, and the same message from another
component is no repetition of it. -/
theorem warn_after_clear :
    let v : Warning := ⟨"tree", "[root] is empty"⟩
    let w : Warning := ⟨"query", "[root] is empty"⟩
    let steps : List LogStep := [.warn w, .warn v, .clear, .warn v, .warn v]
    (∀ u, u = w ∨ Recent steps u → ¬ "] ".toList <:+: u.component.toList) ∧
    ((empty.after steps).warn w).2 = true ∧ ((empty.after steps).warn v).2 = false := by
  intro v w steps
  have hrecent : ∀ u, Recent steps u → u = v := by
    intro u hu
    simpa [recent_iff, steps] using hu
  have hplain : ∀ u, u = w ∨ Recent steps u → ¬ "] ".toList <:+: u.component.toList := by
    rintro u (rfl | hu)
    · decide
    · rw [hrecent u hu]
      decide
  refine ⟨hplain, ((warn_after steps w).2.2 hplain).2 (by decide +kernel), ?_⟩
  rw [Bool.eq_false_iff, ne_eq, (warn_after steps v).1]
  exact fun hnew => hnew.1 (by decide +kernel)

/-- A warning whose message has a bracket in it runs into one whose component has it: the
second one is new and yet dropped. -/
theorem warn_after_same_line :
    let v : Warning := ⟨"A", "B] x"⟩
    let w : Warning := ⟨"A] B", "x"⟩
    ((empty.after [.warn v]).warn w).2 = false ∧ ¬ Recent [.warn v] w := by
  intro v w
  exact ⟨by decide +kernel, by decide +kernel⟩

end WarningLog

end MarkupQuery
