import MarkupQuery.Proofs.Building

/-!
# What a description leaves alone

A description adds nodes to a tree before it is known whether it will succeed.  Until its
first node is linked at last, everything it does stays among the nodes that it has made: the
others keep all their links.  So a description that fails has not touched them, and one that
succeeds has made its first node the last child of the node it was given.

* `Node.links` — the nodes that a node names;
* `Tree.GrownApart` — old nodes are as they were, and new ones name no old one;
* `Builder.append_grownApart` — descriptions below new nodes;
* `Reachable.append_description` — a description below an old node, whether it fails or not.
-/

namespace MarkupQuery

/-- The nodes that a node names in its links. -/
def Node.links (n : Node) : List NodeId :=
  n.parent.toList ++ n.children ++ n.next.toList ++ n.prev.toList

namespace Tree

variable {t t₀ t' : Tree} {parent child : NodeId}

/-! ### Growing apart -/

/-- A tree has grown apart from what was there before: the old nodes are as they were, and
the new ones name only new ones. -/
structure GrownApart (t₀ t : Tree) : Prop where
  get?_eq : ∀ x < t₀.size, t.get? x = t₀.get? x
  size_le_of_mem_links : ∀ {x n}, t₀.size ≤ x → t.get? x = some n → ∀ y ∈ n.links, t₀.size ≤ y

namespace GrownApart

theorem refl (t : Tree) : t.GrownApart t where
  get?_eq _ _ := rfl
  size_le_of_mem_links hx hn := absurd (lt_size_of_get? hn) (Nat.not_lt.2 hx)

theorem size_le (h : t₀.GrownApart t) : t₀.size ≤ t.size := by
  refine Nat.le_of_not_lt fun hlt => ?_
  have hold : t₀.get? t.size = none := by
    rw [← h.get?_eq _ hlt, get?_eq_none_iff]
  exact absurd hlt (Nat.not_lt.2 (get?_eq_none_iff.1 hold))

theorem alloc (h : t₀.GrownApart t) (kind : NodeKind) : t₀.GrownApart (t.alloc kind).1 where
  get?_eq x hx := by
    rw [get?_alloc, if_neg (Nat.ne_of_lt (Nat.lt_of_lt_of_le hx h.size_le)), h.get?_eq x hx]
  size_le_of_mem_links {x n} hx hn := by
    rw [get?_alloc] at hn
    by_cases hnew : x = t.size
    · rw [if_pos hnew] at hn
      obtain rfl := Option.some.inj hn
      simp [Node.links, Node.detached]
    · rw [if_neg hnew] at hn
      exact h.size_le_of_mem_links hx hn

/-- A new node may be made to name another new one. -/
theorem modify (h : t₀.GrownApart t) {id y : NodeId} {f : Node → Node} (hid : t₀.size ≤ id)
    (hy : t₀.size ≤ y) (hf : ∀ n, ∀ z ∈ (f n).links, z ∈ n.links ∨ z = y) :
    t₀.GrownApart (t.modify id f) where
  get?_eq x hx := by
    rw [get?_modify, if_neg (Nat.ne_of_lt (Nat.lt_of_lt_of_le hx hid)), h.get?_eq x hx]
  size_le_of_mem_links {x n} hx hn z hz := by
    rw [get?_modify] at hn
    by_cases hchanged : x = id
    · rw [if_pos hchanged] at hn
      obtain ⟨m, hm, rfl⟩ := Option.map_eq_some_iff.1 hn
      rcases hf m z hz with hold | rfl
      · exact h.size_le_of_mem_links hx hm z hold
      · exact hy
    · rw [if_neg hchanged] at hn
      exact h.size_le_of_mem_links hx hn z hz

/-- A new node may be appended to another new one: their links and those of the child that was
last before are new, too. -/
theorem appendChild (h : t₀.GrownApart t) (hparent : t₀.size ≤ parent)
    (hchild : t₀.size ≤ child) : t₀.GrownApart (t.appendChild parent child).1 := by
  unfold Tree.appendChild
  split
  · exact h
  · next p hp =>
    have hlisted : t₀.GrownApart
        (t.modify parent fun n => { n with children := n.children ++ [child] }) :=
      h.modify hparent hchild fun n z hz => by
        simp only [Node.links, List.mem_append, List.mem_singleton] at hz ⊢
        tauto
    dsimp only
    split
    · have hplaced := hlisted.modify (f := fun n => { n with parent := some parent }) hchild
        hparent fun n z hz => by
          simp only [Node.links, List.mem_append, Option.toList_some, List.mem_singleton] at hz ⊢
          tauto
      split
      · exact hplaced
      · next last hlast =>
        have hold : t₀.size ≤ last := by
          refine h.size_le_of_mem_links hparent hp last ?_
          simp [Node.links, List.mem_of_getLast? hlast]
        split
        · refine (hplaced.modify hold hchild fun n z hz => ?_).modify hchild hold
            fun n z hz => ?_
          all_goals
            simp only [Node.links, List.mem_append, Option.toList_some, List.mem_singleton]
              at hz ⊢
            tauto
        · exact hplaced
    · exact hlisted

end GrownApart

/-- What the readers find is the node. -/
theorem get?_eq_some_of_reads {x : NodeId} {n : Node} (hx : x < t.size)
    (hkind : t.kind? x = some n.kind) (hparent : t.parent? x = n.parent)
    (hchildren : t.children x = n.children) (hnext : t.next? x = n.next)
    (hprev : t.prev? x = n.prev) : t.get? x = some n := by
  obtain ⟨m, hm⟩ := exists_get? hx
  simp only [Tree.kind?, Tree.parent?, Tree.children, Tree.next?, Tree.prev?, hm,
    Option.map_some, Option.bind_some, Option.some.injEq] at hkind hparent hchildren hnext hprev
  rw [hm]
  cases m
  cases n
  simp_all

end Tree

namespace Builder

open MarkupQuery.Tree Description

variable {t₀ : Tree} {parent : NodeId} {ds : List Description}

/-! ### Descriptions -/

/-- Descriptions leave alone what was there before the node that they are put below. -/
def Spares (ds : List Description) : Prop :=
  ∀ (t₀ : Tree) (b : Builder) (parent : NodeId), t₀.GrownApart b.tree → t₀.size ≤ parent →
    t₀.GrownApart (b.appendAll parent ds).1.tree

/-- **One description** below a new node, if what is below it does the same. -/
theorem append_grownApart (b : Builder) (h : t₀.GrownApart b.tree) (hparent : t₀.size ≤ parent)
    {d : Description} (hchildren : Spares d.children) :
    t₀.GrownApart (b.append parent d).1.tree := by
  by_cases hd : ∀ tag, d.tag? = some tag → Text.trimmed tag ≠ ""
  · have hstep := append_of_not_blank b parent hd
    have hfilled := hchildren t₀ ⟨(b.tree.alloc d.kind).1, b.noted d⟩ b.tree.size (h.alloc d.kind)
      h.size_le
    rcases hfill : appendAll ⟨(b.tree.alloc d.kind).1, b.noted d⟩ b.tree.size d.children with
      ⟨b', e | u⟩
    · rw [hfill] at hfilled
      rw [(hstep b').2 e hfill]
      exact hfilled
    · rw [hfill] at hfilled
      rw [(hstep b').1 hfill, tree_link]
      exact hfilled.appendChild hparent h.size_le
  · simp only [ne_eq, not_forall, not_not] at hd
    obtain ⟨tag, htag, hblank⟩ := hd
    rw [append_of_blank b htag hblank]
    exact h

/-- **Descriptions one after the other** below a new node. -/
theorem spares (ds : List Description) : Spares ds := by
  induction ds using induction_all with
  | nil =>
      intro t₀ b parent h _
      rw [appendAll]
      exact h
  | cons d rest ihchildren ihrest =>
      intro t₀ b parent h hparent
      have hfirst := append_grownApart b h hparent ihchildren
      rw [appendAll]
      rcases hstep : b.append parent d with ⟨b', e | id⟩
      · rw [hstep] at hfirst
        exact hfirst
      · rw [hstep] at hfirst
        exact ihrest t₀ b' parent hfirst hparent

/-- **A description below any node** has touched no old node when it fails, nor when it comes
to linking its first node. -/
theorem append_cases_grownApart (b : Builder) (h : b.tree.Forest) (d : Description) :
    (∃ b' : Builder, ∃ e, (∀ parent, b.append parent d = (b', .error e)) ∧
      b'.tree.Forest ∧ b.tree.GrownApart b'.tree) ∨
    ∃ b' : Builder, (∀ parent, b.append parent d = b'.link parent b.tree.size) ∧
      b.tree.Sprouted b'.tree ∧ b.tree.GrownApart b'.tree := by
  -- what happens until then does not depend on the node below which it is put
  have hnew : ∀ parent, b.tree.size ≤ parent → b.tree.GrownApart (b.append parent d).1.tree :=
    fun parent hparent => append_grownApart b (.refl _) hparent (spares _)
  rcases append_cases b h d with ⟨b', e, hstep, hforest, -⟩ | ⟨b', hstep, hsprout⟩
  · refine .inl ⟨b', e, hstep, hforest, ?_⟩
    simpa [hstep] using hnew b.tree.size (Nat.le_refl _)
  · refine .inr ⟨b', hstep, hsprout, ?_⟩
    have hdangling := hnew b'.tree.size (Nat.le_of_lt hsprout.size_lt)
    rw [hstep, tree_link, appendChild_dangling (Nat.lt_irrefl _)] at hdangling
    exact hdangling

/-- **Which descriptions fail** below a node: those with a blank tag name. -/
theorem append_eq_error_iff (b : Builder) (h : b.tree.Forest) (hparent : parent < b.tree.size)
    {d : Description} {e : TreeError} : (b.append parent d).2 = .error e ↔
      e = .tag .emptyName ∧ ∃ tag ∈ d.tags, Text.trimmed tag = "" := by
  have htags : tagsAll [d] = d.tags := by simp [tagsAll]
  have hall : (b.appendAll parent [d]).2 = (b.append parent d).2.map fun _ => () := by
    rw [appendAll]
    rcases b.append parent d with ⟨b', e | id⟩
    · rfl
    · simp only [appendAll, Except.map]
  by_cases hblank : ∃ tag ∈ d.tags, Text.trimmed tag = ""
  · have hfail : (b.appendAll parent [d]).2 = .error (.tag .emptyName) :=
      appendAll_blank b parent h hparent (htags ▸ hblank)
    rw [hall] at hfail
    rcases houtcome : (b.append parent d).2 with e' | id
    · rw [houtcome] at hfail
      cases hfail
      exact ⟨fun he => ⟨(Except.error.inj he).symm, hblank⟩, fun he => congrArg _ he.1.symm⟩
    · rw [houtcome] at hfail
      cases hfail
  · have hplants : Plants [d] := appendAll_planted (by simpa [htags] using hblank)
    obtain ⟨b', hdone, -⟩ := hplants b parent h hparent
    rw [hdone] at hall
    refine iff_of_false (fun hfail => ?_) fun hfail => hblank hfail.2
    rw [hfail] at hall
    cases hall

/-- A description that succeeds has as many new nodes as it describes. -/
theorem size_of_append_eq_ok (b : Builder) (h : b.tree.Forest) (hparent : parent < b.tree.size)
    {d : Description} (hd : ∀ tag ∈ d.tags, Text.trimmed tag ≠ "") :
    (b.append parent d).1.tree.size = b.tree.size + d.size := by
  have htop : ∀ tag, d.tag? = some tag → Text.trimmed tag ≠ "" :=
    fun tag htag => hd tag (mem_tags.2 (.inl htag))
  have hbelow : ∀ tag ∈ tagsAll d.children, Text.trimmed tag ≠ "" :=
    fun tag htag => hd tag (mem_tags.2 (.inr htag))
  obtain ⟨b', hstep, -, -, hplanted⟩ :=
    append_planted b h hparent htop (appendAll_planted hbelow)
  rw [hstep, hplanted.size, sizeAll, sizeAll, Nat.add_zero]

end Builder

namespace Tree

variable {t t₀ t' : Tree} {parent : NodeId}

/-- **What linking changes.**  Of the nodes that were there before the subtree, the new parent
gets one more child, and the child that was last before gets a next sibling. -/
theorem Sprouted.get?_appendChild (h : t₀.Sprouted t) (hspared : t₀.GrownApart t)
    (hparent : parent < t₀.size) {x : NodeId} {n : Node} (hn : t₀.get? x = some n) :
    (t.appendChild parent t₀.size).1.get? x = some { n with
      children := if x = parent then n.children ++ [t₀.size] else n.children
      next := if (t₀.children parent).getLast? = some x then some t₀.size else n.next } := by
  have hx : x < t₀.size := lt_size_of_get? hn
  have hold : ∀ y < t₀.size, t.children y = t₀.children y := fun y hy => by
    rw [Tree.children, hspared.get?_eq y hy, Tree.children]
  have hread : t.get? x = some n := (hspared.get?_eq x hx).trans hn
  obtain ⟨-, happended⟩ :=
    h.forest.appendChild_appended (Nat.lt_trans hparent h.size_lt) h.size_lt h.free
  have hne : x ≠ t₀.size := Nat.ne_of_lt hx
  refine get?_eq_some_of_reads ?_ ?_ ?_ ?_ ?_ ?_
  · rw [happended.size]
    exact lt_size_of_get? hread
  · rw [kind?_appendChild]
    simp [Tree.kind?, hread]
  · rw [happended.parent?, if_neg hne]
    simp [Tree.parent?, hread]
  · rw [happended.children, hold parent hparent, hold x hx]
    by_cases hxp : x = parent
    · subst hxp
      simp [Tree.children, hn]
    · simp [Tree.children, hn, hxp]
  · rw [happended.next?, hold parent hparent]
    simp [Tree.next?, hread]
  · rw [happended.prev?, if_neg hne]
    simp [Tree.prev?, hread]

/-- Linking the subtree keeps it together: it is all that is new. -/
theorem Sprouted.within_appendChild_iff (h : t₀.Sprouted t) (h₀ : t₀.Forest)
    (hparent : parent < t₀.size) {x : NodeId} :
    (t.appendChild parent t₀.size).1.Within x t₀.size ↔
      t₀.size ≤ x ∧ x < (t.appendChild parent t₀.size).1.size := by
  obtain ⟨-, -, hext, -⟩ := h.appendChild_old h₀ hparent
  obtain ⟨-, happended⟩ :=
    h.forest.appendChild_appended (Nat.lt_trans hparent h.size_lt) h.size_lt h.free
  constructor
  · intro hx
    refine ⟨Nat.le_of_not_lt fun hold => ?_, ?_⟩
    · exact absurd (hext.lt_of_within h₀ hold hx) (Nat.lt_irrefl _)
    · obtain heq | ⟨p, hp, -⟩ := Relation.ReflTransGen.cases_head hx
      · rw [heq, happended.size]
        exact h.size_lt
      · exact lt_size_of_parent? hp
  · intro hx
    obtain ⟨hle, hlt⟩ := hx
    rw [happended.size] at hlt
    exact happended.within h.free (h.within x hle hlt)

/-- **A description never damages what was there.**  Below an old node it fails just when it
has a blank tag name.  Then all old nodes are as they were, and the new ones are linked among
themselves only.  Otherwise its first node gets the next id, what it describes takes up the
ids from there on, and of the old nodes only two have changed: the parent, which has one more
child, and the child that was last before, which has a next sibling. -/
theorem Reachable.append_description (h : Reachable t) (log : WarningLog)
    (hparent : parent < t.size) (d : Description) :
    ((∃ tag ∈ d.tags, Text.trimmed tag = "") →
      ∃ b, Builder.append ⟨t, log⟩ parent d = (b, .error (.tag .emptyName)) ∧
        b.tree.Forest ∧ t.GrownApart b.tree) ∧
    ((¬ ∃ tag ∈ d.tags, Text.trimmed tag = "") →
      ∃ b, Builder.append ⟨t, log⟩ parent d = (b, .ok t.size) ∧ b.tree.Forest ∧
        b.tree.size = t.size + d.size ∧
        (∀ x, b.tree.Within x t.size ↔ t.size ≤ x ∧ x < b.tree.size) ∧
        ∀ x n, t.get? x = some n → b.tree.get? x = some { n with
          children := if x = parent then n.children ++ [t.size] else n.children
          next := if (t.children parent).getLast? = some x then some t.size else n.next }) := by
  have hforest : t.Forest := h.forest
  have hfails := fun e => Builder.append_eq_error_iff ⟨t, log⟩ hforest hparent (d := d) (e := e)
  rcases Builder.append_cases_grownApart ⟨t, log⟩ hforest d with
    ⟨b', e, hstep, hforest', hspared⟩ | ⟨b', hstep, hsprout, hspared⟩
  · obtain ⟨rfl, hblank⟩ := (hfails e).1 (by rw [hstep])
    exact ⟨fun _ => ⟨b', hstep parent, hforest', hspared⟩, fun hnamed => absurd hblank hnamed⟩
  · obtain ⟨hdone, hforest', hext, hbelow⟩ := hsprout.appendChild_old hforest hparent
    have hstep' := (hstep parent).trans (Builder.link_of_ok b' hdone)
    have hnamed : ¬ ∃ tag ∈ d.tags, Text.trimmed tag = "" := by
      intro hblank
      have hfail := (hfails (.tag .emptyName)).2 ⟨rfl, hblank⟩
      rw [hstep'] at hfail
      cases hfail
    refine ⟨fun hblank => absurd hblank hnamed, fun _ => ⟨_, hstep', hforest', ?_, ?_, ?_⟩⟩
    · have hsize := Builder.size_of_append_eq_ok ⟨t, log⟩ hforest hparent (by simpa using hnamed)
      rw [hstep'] at hsize
      exact hsize
    · exact fun x => hsprout.within_appendChild_iff hforest hparent
    · exact fun x n hn => hsprout.get?_appendChild hspared hparent hn

/-- An item with a nameless element in it leaves a list of two as it is, and a piece of two
nodes beside it; without that element it comes after the two. -/
theorem append_description_item :
    let item (more : List Description) : Description :=
      .element "li" .empty (.element "b" .empty [.text "y"] :: more)
    ∃ t, Reachable t ∧ 1 < t.size ∧ t.children 1 = [2, 3] ∧
      (∃ b, Builder.append ⟨t, .empty⟩ 1 (item [.element " " .empty []]) =
          (b, .error (.tag .emptyName)) ∧
        t.GrownApart b.tree ∧ b.tree.children 4 = [5] ∧ b.tree.parent? 4 = none) ∧
      ∃ b, Builder.append ⟨t, .empty⟩ 1 (item []) = (b, .ok 4) ∧ b.tree.size = 7 ∧
        b.tree.children 1 = [2, 3, 4] ∧ b.tree.next? 3 = some 4 := by
  intro item
  have h := Reachable.empty.appendDescription .empty root
    (.element "ul" .empty [.element "li" .empty [], .text "x"]) fun _ _ => by decide
  have hitem := Reachable.append_description h .empty (show 1 < Tree.size _ by decide +kernel)
  obtain ⟨b, hfail, -, hspared⟩ :=
    (hitem (item [.element " " .empty []])).1 (by decide +kernel)
  obtain ⟨b', hdone, -, hsize, -, hold⟩ := (hitem (item [])).2 (by decide +kernel)
  refine ⟨_, h, by decide +kernel, by decide +kernel, ⟨b, hfail, hspared, ?_, ?_⟩,
    b', hdone, hsize, ?_, ?_⟩
  · refine (congrArg (·.1.tree.children 4) hfail).symm.trans ?_
    decide +kernel
  · refine (congrArg (·.1.tree.parent? 4) hfail).symm.trans ?_
    decide +kernel
  · rw [Tree.children, hold 1 ⟨.element ⟨"ul", .empty⟩, some 0, [2, 3], none, none⟩
      (by decide +kernel)]
    rfl
  · rw [Tree.next?, hold 3 ⟨.text "x", some 1, [], none, some 2⟩ (by decide +kernel)]
    decide +kernel

end Tree

end MarkupQuery
