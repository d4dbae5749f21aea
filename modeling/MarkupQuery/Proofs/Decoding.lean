import MarkupQuery.Description.Json
import MarkupQuery.Proofs.Layout

/-!
# Descriptions are read as they are written

Reading a JSON value tries the forms of a node one after the other: a string, an object with a
comment, an object with a tag.  What is written for one form is never taken for another one,
as the names of the fields are fixed: those of attributes stand one level below.  What is left
out of an element because it is empty is empty when it is not found.

* `Attributes.ofList_entries` — attributes, from their entries;
* `Description.commentOf?_elementFields`, `tagOf?_elementFields`, `attributesOf?_elementFields`,
  `childLists_elementFields` — what is found in the fields that are written for an element;
* `Description.ofItems?_toItems` — the nodes of a list, at every depth;
* `Description.ofJson?_toJson` — one node, and a whole document.
-/

namespace MarkupQuery

/-! ### Attributes -/

namespace Attributes

/-- Setting a new name adds its entry at the end. -/
theorem entries_set_of_notMem {a : Attributes} {name value : String}
    (h : name ∉ a.entries.map (·.1)) :
    (a.set name value).entries = a.entries ++ [(name, value)] := by
  have hnone : ¬ a.entries.any (·.1 == name) := by
    intro hany
    obtain ⟨e, he, hname⟩ := List.any_eq_true.1 hany
    exact h (List.mem_map.2 ⟨e, he, by simpa using hname⟩)
  show setEntry a.entries name value = _
  rw [setEntry, if_neg hnone]

/-- Names that are new and no two alike are all added, in order. -/
theorem entries_foldl_set {pairs : List (String × String)} {a : Attributes}
    (h : ((a.entries ++ pairs).map (·.1)).Nodup) :
    (pairs.foldl (fun a p => a.set p.1 p.2) a).entries = a.entries ++ pairs := by
  induction pairs generalizing a with
  | nil => simp
  | cons p rest ih =>
      have hnew : p.1 ∉ a.entries.map (·.1) := by
        rw [List.map_append, List.map_cons] at h
        intro hmem
        exact (List.nodup_append.1 h).2.2 _ hmem _ List.mem_cons_self rfl
      have hset : (a.set p.1 p.2).entries = a.entries ++ [p] := entries_set_of_notMem hnew
      have hrest : ((a.set p.1 p.2).entries ++ rest).map (·.1) =
          (a.entries ++ p :: rest).map (·.1) := by
        rw [hset, List.append_assoc, List.singleton_append]
      rw [List.foldl_cons, ih (hrest ▸ h), hset, List.append_assoc, List.singleton_append]

/-- **Attributes from their entries.** -/
theorem ofList_entries (a : Attributes) : ofList a.entries = a := by
  have hentries : (ofList a.entries).entries = a.entries :=
    entries_foldl_set (show ((empty.entries ++ a.entries).map (·.1)).Nodup from a.distinct)
  calc ofList a.entries
      = ⟨(ofList a.entries).entries, (ofList a.entries).distinct⟩ := rfl
    _ = ⟨a.entries, a.distinct⟩ := by simp only [hentries]

end Attributes

namespace Description

/-! ### The fields of an element -/

theorem mapM_attribute? (entries : List (String × String)) :
    (entries.map fun e => (e.1, Json.string e.2)).mapM attribute? = some entries := by
  induction entries with
  | nil => rfl
  | cons e rest ih =>
      rw [List.map_cons, List.mapM_cons, ih]
      rfl

/-- The fields that are written for an element. -/
def elementFields (tag : String) (attributes : Attributes) (children : List Description) :
    List (String × Json) :=
  ("tag", .string tag) ::
    ((if attributes.entries = [] then []
      else [("attrs", .object (attributes.entries.map fun e => (e.1, .string e.2)))]) ++
    (if children.isEmpty then [] else [("children", .array (toItems children))]))

section ElementFields

variable (tag : String) (attributes : Attributes) (children : List Description)

theorem toJson_element : toJson (.element tag attributes children) =
    .object (elementFields tag attributes children) := by
  rw [toJson, elementFields]

/-- No attribute makes a comment of an element. -/
theorem commentOf?_elementFields : commentOf? (elementFields tag attributes children) = none := by
  unfold elementFields
  split <;> split <;> simp [commentOf?, Json.valuesOf]

theorem tagOf?_elementFields : tagOf? (elementFields tag attributes children) = some tag := by
  unfold elementFields
  split <;> split <;> simp [tagOf?, Json.valuesOf]

/-- No attributes are read where none are written. -/
theorem attributesOf?_elementFields :
    attributesOf? (elementFields tag attributes children) = some attributes := by
  have hfields : Json.valuesOf "attrs" (elementFields tag attributes children) =
      if attributes.entries = [] then []
      else [.object (attributes.entries.map fun e => (e.1, .string e.2))] := by
    unfold elementFields
    split <;> split <;> simp [Json.valuesOf]
  rw [attributesOf?, hfields]
  by_cases hnone : attributes.entries = []
  · have hempty : attributes = .empty := by
      rw [← attributes.ofList_entries, hnone]
      rfl
    rw [if_pos hnone, hempty]
  · simp only [if_neg hnone, mapM_attribute?, Option.map_some, attributes.ofList_entries]

/-- No children are read where none are written. -/
theorem childLists_elementFields : childLists (elementFields tag attributes children) =
    if children.isEmpty then [] else [ofItems? (toItems children)] := by
  unfold elementFields
  split <;> split <;> simp [childLists]

/-- **An element** is read if what is below it is. -/
theorem ofJson?_elementFields (h : ofItems? (toItems children) = some children) :
    ofJson? (.object (elementFields tag attributes children)) =
      some (.element tag attributes children) := by
  simp only [ofJson?, commentOf?_elementFields, tagOf?_elementFields,
    attributesOf?_elementFields, childLists_elementFields, h]
  cases children <;> rfl

end ElementFields

/-! ### Nodes and documents -/

theorem toItems_eq_map (ds : List Description) : toItems ds = ds.map toJson := by
  induction ds with
  | nil => rw [toItems, List.map_nil]
  | cons d rest ih => rw [toItems, ih, List.map_cons]

/-- **One node** is read if what is below it is. -/
theorem ofJson?_toJson_of {d : Description} (h : ofItems? (toItems d.children) = some d.children) :
    ofJson? (toJson d) = some d := by
  cases d with
  | text content => rw [toJson, ofJson?]
  | comment content => rfl
  | element tag attributes children =>
      rw [toJson_element]
      exact ofJson?_elementFields tag attributes children h

/-- **The nodes of a list** are read as they are written, at every depth. -/
theorem ofItems?_toItems (ds : List Description) : ofItems? (toItems ds) = some ds := by
  induction ds using induction_all with
  | nil => rw [toItems, ofItems?]
  | cons d rest ihchildren ihrest =>
      simp only [toItems, ofItems?, ofJson?_toJson_of ihchildren, ihrest]

/-- What is written for a node is no list, so it is read as one node. -/
theorem document?_toJson (d : Description) :
    document? (toJson d) = (ofJson? (toJson d)).map ([·]) := by
  cases d <;> simp only [toJson, document?]

/-- **Descriptions are read as they are written.**  Every node is read from the value that is
written for it, however deep and wide it is.  A document is read from the list of what is
written for its nodes, and a document of one node also from what is written for the node. -/
theorem ofJson?_toJson :
    (∀ d : Description, ofJson? (toJson d) = some d) ∧
    (∀ ds : List Description, document? (.array (ds.map toJson)) = some ds) ∧
    ∀ d : Description, document? (toJson d) = document? (.array [toJson d]) := by
  have hone : ∀ d : Description, ofJson? (toJson d) = some d := fun d =>
    ofJson?_toJson_of (ofItems?_toItems d.children)
  have hlist : ∀ ds : List Description, document? (.array (ds.map toJson)) = some ds := by
    intro ds
    rw [document?, ← toItems_eq_map, ofItems?_toItems]
  refine ⟨hone, hlist, fun d => ?_⟩
  calc document? (toJson d)
      = some [d] := by rw [document?_toJson, hone, Option.map_some]
    _ = document? (.array ([d].map toJson)) := (hlist [d]).symm

end Description

end MarkupQuery
