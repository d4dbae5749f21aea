import MarkupQuery.Proofs.Repetitions
import MarkupQuery.Proofs.TagNames

/-!
# Reports of unknown tags

Building reports a tag that is not registered as soon as it comes to the element, before what is
below it, and stops at a blank name.  So one document after the other gives the warnings for
the unknown names in document order, up to the first blank one of each document, and the record
prints each of them once.

* `Description.visited` — the tag names that building comes to;
* `Tag.unknownNames` — the names, in normal form, that are reported for them;
* `Builder.log_append_of`, `Builder.log_appendAll` — what appending reports;
* `Tree.logAfter_reports` — what is printed for any number of documents.
-/

namespace MarkupQuery

/-- The unknown ones among some tag names, trimmed and in lower case. -/
def Tag.unknownNames (tags : List String) : List String :=
  (tags.map fun tag => Text.lowered (Text.trimmed tag)).filter (!Tag.isRegistered ·)

/-- Which names are unknown: those of the tags that are not known. -/
theorem Tag.mem_unknownNames {tags : List String} (h : ∀ tag ∈ tags, Text.trimmed tag ≠ "")
    {name : String} : name ∈ Tag.unknownNames tags ↔
      ∃ tag ∈ tags, Text.lowered (Text.trimmed tag) = name ∧ Tag.isKnownName tag = false := by
  have hknown : ∀ tag ∈ tags, Tag.isKnownName tag =
      Tag.isRegistered (Text.lowered (Text.trimmed tag)) := by
    intro tag htag
    rw [Tag.isKnownName, Tag.normalized?_of_ne (h tag htag)]
  simp only [Tag.unknownNames, List.mem_filter, List.mem_map, Bool.not_eq_true']
  constructor
  · rintro ⟨⟨tag, htag, rfl⟩, hunknown⟩
    exact ⟨tag, htag, rfl, (hknown tag htag).trans hunknown⟩
  · rintro ⟨tag, htag, rfl, hunknown⟩
    exact ⟨⟨tag, htag, rfl⟩, (hknown tag htag).symm.trans hunknown⟩

/-- The warnings for the unknown ones among some tag names. -/
def LogStep.reports (tags : List String) : List LogStep :=
  ((Tag.unknownNames tags).map Warning.unknownTag).map .warn

theorem LogStep.reports_append (tags tags' : List String) :
    reports (tags ++ tags') = reports tags ++ reports tags' := by
  simp only [reports, Tag.unknownNames, List.map_append, List.filter_append]

/-- Different names are reported by different lines. -/
theorem Warning.line_unknownTag_inj (name name' : String)
    (h : (unknownTag name).line = (unknownTag name').line) : name = name' := by
  rw [← String.toList_inj] at h ⊢
  simpa [line, unknownTag] using h

/-! ### What is visited -/

namespace Description

/-- The tag names that building comes to: those before the first blank one, in document
order. -/
def visited (ds : List Description) : List String :=
  (tagsAll ds).takeWhile fun tag => Text.trimmed tag ≠ ""

variable {d : Description} {ds ds' : List Description}

theorem tagsAll_append : tagsAll (ds ++ ds') = tagsAll ds ++ tagsAll ds' := by
  induction ds with
  | nil => rfl
  | cons d rest ih => simp only [List.cons_append, tagsAll, ih, List.append_assoc]

/-- Without blank names all are visited. -/
theorem visited_of_named (h : ∀ tag ∈ tagsAll ds, Text.trimmed tag ≠ "") :
    visited ds = tagsAll ds :=
  List.takeWhile_eq_self_iff.2 fun tag htag => decide_eq_true (h tag htag)

theorem not_blank_of_mem_visited {tag : String} (h : tag ∈ visited ds) :
    Text.trimmed tag ≠ "" := by
  have hnamed := List.mem_takeWhile_imp h
  exact of_decide_eq_true hnamed

/-- With a blank name, those are visited that come before the first one. -/
theorem exists_visited_append (h : ∃ tag ∈ tagsAll ds, Text.trimmed tag = "") :
    ∃ tag rest, tagsAll ds = visited ds ++ tag :: rest ∧ Text.trimmed tag = "" := by
  have hsplit : visited ds ++ (tagsAll ds).dropWhile (fun tag => Text.trimmed tag ≠ "") =
      tagsAll ds := List.takeWhile_append_dropWhile
  have hhead := List.head?_dropWhile_not (fun tag => decide (Text.trimmed tag ≠ "")) (tagsAll ds)
  cases hback : (tagsAll ds).dropWhile fun tag => decide (Text.trimmed tag ≠ "") with
  | nil =>
      obtain ⟨tag, htag, hblank⟩ := h
      rw [hback, List.append_nil] at hsplit
      exact absurd hblank (not_blank_of_mem_visited (hsplit ▸ htag))
  | cons tag rest =>
      rw [hback] at hsplit hhead
      exact ⟨tag, rest, hsplit.symm, by simpa using hhead⟩

theorem visited_append_of_named (h : ∀ tag ∈ tagsAll ds, Text.trimmed tag ≠ "") :
    visited (ds ++ ds') = visited ds ++ visited ds' := by
  rw [visited_of_named h, visited, tagsAll_append,
    List.takeWhile_append_of_pos fun tag htag => decide_eq_true (h tag htag)]
  rfl

theorem visited_append_of_blank (h : ∃ tag ∈ tagsAll ds, Text.trimmed tag = "") :
    visited (ds ++ ds') = visited ds := by
  obtain ⟨tag, rest, hsplit, hblank⟩ := exists_visited_append h
  have hvisited : ∀ tag ∈ visited ds, decide (Text.trimmed tag ≠ "") = true := fun tag htag =>
    decide_eq_true (not_blank_of_mem_visited htag)
  rw [visited, tagsAll_append, hsplit, List.append_assoc, List.takeWhile_append_of_pos hvisited,
    List.cons_append, List.takeWhile_cons_of_neg (by simpa using hblank), List.append_nil]

/-- An element comes before what is below it. -/
theorem visited_singleton (h : ∀ tag, d.tag? = some tag → Text.trimmed tag ≠ "") :
    visited [d] = d.tag?.toList ++ visited d.children := by
  cases d with
  | text content | comment content => rfl
  | element tag attributes children =>
      simp [visited, tagsAll, tags, tag?, Description.children, h tag rfl]

theorem visited_singleton_of_blank {tag : String} (htag : d.tag? = some tag)
    (hblank : Text.trimmed tag = "") : visited [d] = [] := by
  cases d with
  | text content | comment content => rfl
  | element tag' attributes children =>
      obtain rfl : tag' = tag := Option.some.inj htag
      simp [visited, tagsAll, tags, hblank]

end Description

/-! ### One document -/

namespace Builder

open Description

variable {d : Description} {ds : List Description} {parent : NodeId}

@[simp] theorem log_link (b : Builder) (parent id : NodeId) :
    (b.link parent id).1.log = b.log := by
  unfold link
  split <;> rfl

/-- A tag is reported just if it is unknown. -/
theorem noted_eq (b : Builder) (h : ∀ tag, d.tag? = some tag → Text.trimmed tag ≠ "") :
    b.noted d = b.log.after (LogStep.reports d.tag?.toList) := by
  cases d with
  | text content | comment content => rfl
  | element tag attributes children =>
      simp only [noted, tag?, Option.map_some, Tag.ofName_of_ne (h tag rfl), noteTag,
        Tag.isKnown_entry, Tag.name_entry]
      by_cases hknown : Tag.isRegistered (Text.lowered (Text.trimmed tag)) = true <;>
        simp [hknown, LogStep.reports, Tag.unknownNames, WarningLog.after, WarningLog.apply]

/-- Appending descriptions below a node of a forest reports what is visited. -/
def Reports (ds : List Description) : Prop :=
  ∀ (b : Builder) (parent : NodeId), b.tree.Forest → parent < b.tree.size →
    (b.appendAll parent ds).1.log = b.log.after (LogStep.reports (visited ds))

/-- **One description** reports its own tag before what is below it. -/
theorem log_append_of (hchildren : Reports d.children) (b : Builder) (h : b.tree.Forest)
    (parent : NodeId) :
    (b.append parent d).1.log = b.log.after (LogStep.reports (visited [d])) := by
  by_cases hd : ∀ tag, d.tag? = some tag → Text.trimmed tag ≠ ""
  · let filling : Builder := ⟨(b.tree.alloc d.kind).1, b.noted d⟩
    have hfill := hchildren filling b.tree.size (h.alloc _) (by simp [filling])
    have hstep := append_of_not_blank b parent hd
    have hlog : (b.append parent d).1.log = (filling.appendAll b.tree.size d.children).1.log := by
      rcases hfilled : filling.appendAll b.tree.size d.children with ⟨b', e | u⟩
      · rw [(hstep b').2 e hfilled]
      · rw [(hstep b').1 hfilled, log_link]
    calc (b.append parent d).1.log
        = (b.noted d).after (LogStep.reports (visited d.children)) := by rw [hlog, hfill]
      _ = b.log.after (LogStep.reports (visited [d])) := by
          rw [b.noted_eq hd, ← WarningLog.after_append, ← LogStep.reports_append,
            visited_singleton hd]
  · simp only [ne_eq, not_forall, not_not] at hd
    obtain ⟨tag, htag, hblank⟩ := hd
    rw [append_of_blank b htag hblank, visited_singleton_of_blank htag hblank]
    rfl

/-- **Descriptions one after the other** report what is visited, and those after a blank name
report nothing. -/
theorem log_appendAll (ds : List Description) : Reports ds := by
  induction ds using induction_all with
  | nil =>
      intro b parent _ _
      rw [appendAll]
      rfl
  | cons d rest ihchildren ihrest =>
      intro b parent h hparent
      have hfirst := log_append_of ihchildren b h parent
      rw [← List.singleton_append]
      by_cases hnamed : ∀ tag ∈ tagsAll [d], Text.trimmed tag ≠ ""
      · have htags : ∀ tag ∈ d.tags, Text.trimmed tag ≠ "" := by
          simpa [tagsAll] using hnamed
        obtain ⟨b₁, hstep, hforest, hlt, -⟩ := append_planted b h hparent
          (fun tag htag => htags tag (mem_tags.2 (.inl htag)))
          (appendAll_planted fun tag htag => htags tag (mem_tags.2 (.inr htag)))
        rw [hstep] at hfirst
        rw [visited_append_of_named hnamed, LogStep.reports_append, WarningLog.after_append,
          ← hfirst, List.singleton_append, appendAll, hstep]
        exact ihrest b₁ parent hforest hlt
      · have hblank : ∃ tag ∈ tagsAll [d], Text.trimmed tag = "" := by
          simpa using hnamed
        have hfail := appendAll_blank b parent h hparent hblank
        rw [visited_append_of_blank hblank, ← hfirst]
        rcases hstep : b.append parent d with ⟨b₁, e | id⟩
        · simp only [List.singleton_append, appendAll, hstep]
        · simp only [appendAll, hstep] at hfail
          cases hfail

end Builder

/-! ### One document after the other -/

namespace Tree

open Description

variable {log : WarningLog} {nodes : List Description}

/-- **What building reports.** -/
theorem build_log (log : WarningLog) (nodes : List Description) :
    (Tree.build log nodes).1 = log.after (LogStep.reports (visited nodes)) := by
  have hlog := Builder.log_appendAll nodes ⟨.empty, log⟩ root .empty Forest.empty.inhabited
  rw [Tree.build]
  split
  all_goals
    next b hb => simpa only [hb] using hlog

/-- The record after documents were built one after the other, some of which may fail. -/
def logAfter (log : WarningLog) (documents : List (List Description)) : WarningLog :=
  documents.foldl (fun log nodes => (Tree.build log nodes).1) log

theorem logAfter_eq (log : WarningLog) (documents : List (List Description)) :
    logAfter log documents = log.after (LogStep.reports (documents.flatMap visited)) := by
  induction documents generalizing log with
  | nil => rfl
  | cons nodes rest ih =>
      rw [logAfter, List.foldl_cons, build_log, List.flatMap_cons, LogStep.reports_append,
        WarningLog.after_append, ← ih]
      rfl

/-- A document is built if none of its tag names is blank, and then all are visited; or it is
not, and then those are visited that come before the first blank one. -/
theorem build_cases (log : WarningLog) (nodes : List Description) :
    (∃ t, (Tree.build log nodes).2 = .ok t) ∧ visited nodes = tagsAll nodes ∨
    (Tree.build log nodes).2 = .error (.tag .emptyName) ∧ ∃ tag rest,
      tagsAll nodes = visited nodes ++ tag :: rest ∧ Text.trimmed tag = "" := by
  by_cases hnamed : ∀ tag ∈ tagsAll nodes, Text.trimmed tag ≠ ""
  · obtain ⟨t, ht, -⟩ := exists_build log nodes hnamed
    exact .inl ⟨⟨t, ht⟩, visited_of_named hnamed⟩
  · have hblank : ∃ tag ∈ tagsAll nodes, Text.trimmed tag = "" := by
      simpa using hnamed
    exact .inr ⟨build_blank log hblank, exists_visited_append hblank⟩

/-- **Unknown tags are reported once, in order.**  When documents are built one after the other
after a clearing, the warnings printed are one for each unknown name, in the order in which the
names are first visited.  The unknown names are those, trimmed and in lower case, of visited
elements whose tags are not known.  A document that is built is visited as a whole.  Building
fails at a blank name, and then those elements are visited that come before the first one. -/
theorem logAfter_reports (log : WarningLog) (documents : List (List Description)) :
    let names := Tag.unknownNames (documents.flatMap visited)
    (logAfter log.clear documents).printed = log.printed ++ names.eraseDups.map .unknownTag ∧
    names.eraseDups.Nodup ∧
    (∀ name, name ∈ names ↔ ∃ nodes ∈ documents, ∃ tag ∈ visited nodes,
      Text.lowered (Text.trimmed tag) = name ∧ Tag.isKnownName tag = false) ∧
    (∀ nodes, ∀ tag ∈ visited nodes, Text.trimmed tag ≠ "") ∧
    ∀ nodes log',
      (∃ t, (Tree.build log' nodes).2 = .ok t) ∧ visited nodes = tagsAll nodes ∨
      (Tree.build log' nodes).2 = .error (.tag .emptyName) ∧ ∃ tag rest,
        tagsAll nodes = visited nodes ++ tag :: rest ∧ Text.trimmed tag = "" := by
  intro names
  refine ⟨?_, nodup_eraseDups names, fun name => ?_, fun nodes tag => not_blank_of_mem_visited,
    fun nodes log' => build_cases log' nodes⟩
  · rw [logAfter_eq]
    exact WarningLog.printed_after_clear Warning.line_unknownTag_inj log names
  · have hnamed : ∀ tag ∈ documents.flatMap visited, Text.trimmed tag ≠ "" := by
      intro tag htag
      obtain ⟨nodes, -, htag⟩ := List.mem_flatMap.1 htag
      exact not_blank_of_mem_visited htag
    rw [Tag.mem_unknownNames hnamed]
    constructor
    · rintro ⟨tag, htag, hname⟩
      obtain ⟨nodes, hnodes, htag⟩ := List.mem_flatMap.1 htag
      exact ⟨nodes, hnodes, tag, htag, hname⟩
    · rintro ⟨nodes, hnodes, tag, htag, hname⟩
      exact ⟨tag, List.mem_flatMap.2 ⟨nodes, hnodes, htag⟩, hname⟩

/-- A name that was visited before the first document failed is not reported again, whatever its
case, and what comes after the blank name is reported when it is visited at last. -/
theorem logAfter_reports_failing :
    let failing : List Description :=
      [.element "X-A" .empty [.element "p" .empty [], .element " " .empty []],
        .element "x-b" .empty []]
    let complete : List Description :=
      [.text "x-c", .element "x-c" .empty [.element " x-a" .empty []], .element "X-B " .empty []]
    (logAfter WarningLog.empty.clear [failing, complete]).printed =
      [.unknownTag "x-a", .unknownTag "x-c", .unknownTag "x-b"] ∧
    (Tree.build .empty failing).2 = .error (.tag .emptyName) ∧
    "X-A" ∈ visited failing ∧ Text.trimmed "X-A" ≠ "" := by
  intro failing complete
  obtain ⟨hprinted, -, -, hnamed, hcases⟩ := logAfter_reports .empty [failing, complete]
  have hnames : (Tag.unknownNames ([failing, complete].flatMap visited)).eraseDups =
      ["x-a", "x-c", "x-b"] := by
    decide +kernel
  have hvisited : "X-A" ∈ visited failing := by decide +kernel
  refine ⟨?_, ?_, hvisited, hnamed failing "X-A" hvisited⟩
  · rw [hprinted, hnames]
    rfl
  · rcases hcases failing .empty with ⟨-, hall⟩ | ⟨hfail, -⟩
    · exact absurd hall (by decide +kernel)
    · exact hfail

end Tree

end MarkupQuery
