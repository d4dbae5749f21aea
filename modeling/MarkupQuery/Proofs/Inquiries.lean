import MarkupQuery.Proofs.Conditions

/-!
# What the engine is asked

The reading of a text asks the engine about patterns, one after the other, and the answers
matter in one way only: the first refusal ends the reading.  So what an engine makes of a
text is known from the patterns that are asked about and from what an engine makes of it
that accepts them all.

* `Parser.asked` — the patterns that the engine is asked about, in order;
* `Outcome.unlessRefused` — what becomes of an outcome if those are asked about before;
* `Progress.take_unlessRefused`, `Parser.parseWithin_unlessRefused` — steps and whole texts;
* `Parser.parse_engine` — the engine can do no more than refuse.
-/

namespace MarkupQuery

/-! ### Refusals -/

/-- The report of the first of some patterns that an engine refuses. -/
def PatternEngine.refusal? (engine : PatternEngine) : List Pattern → Option SelectorError
  | [] => none
  | q :: rest =>
    match engine.compile q with
    | .ok _ => engine.refusal? rest
    | .error explanation => some (.invalidPattern q.source explanation)

/-- Whether an engine takes a pattern. -/
def PatternEngine.Takes (engine : PatternEngine) (q : Pattern) : Prop :=
  ∃ found, engine.compile q = .ok found

namespace PatternEngine

variable {engine : PatternEngine}

theorem refusal?_append (front back : List Pattern) :
    engine.refusal? (front ++ back) = (engine.refusal? front).or (engine.refusal? back) := by
  induction front with
  | nil => simp [refusal?]
  | cons q front ih =>
      rw [List.cons_append, refusal?, refusal?]
      split
      · exact ih
      · rfl

theorem refusal?_eq_none_iff {asked : List Pattern} :
    engine.refusal? asked = none ↔ ∀ q ∈ asked, engine.Takes q := by
  induction asked with
  | nil => simp [refusal?]
  | cons q rest ih =>
      rw [refusal?, List.forall_mem_cons, ← ih, Takes]
      split
      · next found hfound => simp [hfound]
      · next explanation hrefused => simp [hrefused]

/-- The first refusal is reported with its explanation. -/
theorem refusal?_of_split {front back : List Pattern} {q : Pattern} {explanation : String}
    (hfront : ∀ q' ∈ front, engine.Takes q') (hq : engine.compile q = .error explanation) :
    engine.refusal? (front ++ q :: back) = some (.invalidPattern q.source explanation) := by
  rw [refusal?_append, refusal?_eq_none_iff.2 hfront, Option.none_or, refusal?, hq]

/-- The engine that refuses one pattern only. -/
def refusing (q : Pattern) (explanation : String) : PatternEngine :=
  ⟨fun q' => if q' = q then .error explanation else .ok fun _ => true⟩

theorem takes_refusing {q q' : Pattern} {explanation : String} (h : q' ≠ q) :
    (refusing q explanation).Takes q' :=
  ⟨_, if_neg h⟩

end PatternEngine

namespace Outcome

variable {α β : Type} {engine : PatternEngine} {asked : List Pattern}

/-- What becomes of an outcome if an engine is asked about patterns before: the first refusal
takes its place. -/
def unlessRefused (engine : PatternEngine) (asked : List Pattern) (o : Outcome α) : Outcome α :=
  match engine.refusal? asked with
  | some e => .error e
  | none => o

@[simp] theorem unlessRefused_nil (o : Outcome α) : unlessRefused engine [] o = o := rfl

theorem unlessRefused_of_takes (h : ∀ q ∈ asked, engine.Takes q) (o : Outcome α) :
    unlessRefused engine asked o = o := by
  rw [unlessRefused, PatternEngine.refusal?_eq_none_iff.2 h]

theorem map_unlessRefused (f : α → β) (o : Outcome α) :
    (unlessRefused engine asked o).map f = unlessRefused engine asked (o.map f) := by
  unfold unlessRefused
  split <;> rfl

theorem unlessRefused_bind (o : Outcome α) (f : α → Outcome β) :
    (unlessRefused engine asked o >>= f) = unlessRefused engine asked (o >>= f) := by
  unfold unlessRefused
  split <;> rfl

/-- What is asked about later matters only if nothing was refused before. -/
theorem unlessRefused_append (front back : List Pattern) (o : Outcome α) :
    unlessRefused engine (front ++ back) o =
      unlessRefused engine front (unlessRefused engine back o) := by
  unfold unlessRefused
  rw [PatternEngine.refusal?_append]
  cases engine.refusal? front <;> rfl

end Outcome

/-! ### What is asked about -/

/-- The pattern of a condition on attributes, if it has one. -/
def AttributeTest.patterns : AttributeTest → List Pattern
  | .pattern _ q => [q]
  | _ => []

/-- The pattern of a condition that is read: it is asked about last. -/
def Outcome.patterns : Outcome AttributeTest → List Pattern
  | .ok test => test.patterns
  | .error _ => []

/-- The patterns that the engine is asked about when a token at `position` is read.  `nested`
tells those for an argument that is itself a selector list. -/
def Lexeme.asked (config : Config) (nested : List Char → Nat → List Pattern) (position : Nat) :
    Lexeme → List Pattern
  | .attribute content =>
    Outcome.patterns (Parser.attributeTest ⟨config, .permissive⟩ position content)
  | .pseudo .has (some (opening, argument)) => nested argument (opening + 1)
  | .pseudo .not (some (opening, argument)) => nested argument (opening + 1)
  | .pseudo (.finds _) (some (_, argument)) =>
    if Text.trim argument = [] then [] else [⟨String.ofList argument, config.patterns⟩]
  | _ => []

/-- The patterns that the engine is asked about when tokens are taken one by one, up to the
first that is not taken. -/
def Progress.asked (p : Parser) (nested : List Char → Nat → Outcome SelectorList)
    (nestedAsked : List Char → Nat → List Pattern) (progress : Progress) :
    List Token → List Pattern
  | [] => []
  | token :: rest =>
    token.lexeme.asked p.config nestedAsked token.position ++
      match progress.take p nested token with
      | .ok progress' => asked p nested nestedAsked progress' rest
      | .error _ => []

namespace Parser

/-- The patterns that the engine is asked about when a selector list is read whose arguments
are nested less than `depth` deep. -/
def askedWithin (p : Parser) : Nat → List Char → Nat → List Pattern
  | 0, _, _ => []
  | depth + 1, cs, base =>
    Progress.asked p (p.parseWithin depth) (p.askedWithin depth) .start (Token.scan false base cs)

/-- **The patterns that the engine is asked about** when a text is read, in order.  The last
of them is refused, if any is. -/
def asked (p : Parser) (text : String) : List Pattern :=
  p.askedWithin (text.toList.length + 1) text.toList 0

/-! ### Steps and runs -/

variable {config : Config} {accepting engine : PatternEngine}

theorem pattern_unlessRefused (source : String) (case : CaseSensitivity) :
    Parser.pattern ⟨config, engine⟩ source case =
      Outcome.unlessRefused engine [⟨source, case⟩] (.ok ⟨source, case⟩) := by
  unfold pattern Outcome.unlessRefused
  simp only [PatternEngine.refusal?]
  cases engine.compile ⟨source, case⟩ <;> rfl

/-- The pattern that is asked about is the one that stands in the condition. -/
theorem compared_unlessRefused (stop : Nat) (name : String) (op : Char) (after : List Char) :
    Parser.compared ⟨config, engine⟩ stop name op after =
      Outcome.unlessRefused engine
        (Outcome.patterns (Parser.compared ⟨config, .permissive⟩ stop name op after))
        (Parser.compared ⟨config, .permissive⟩ stop name op after) := by
  unfold compared
  cases attributeValue stop after with
  | error e => rfl
  | ok written =>
      simp only [bind, Except.bind, pattern_unlessRefused]
      cases valueOperator? op with
      | some k => rfl
      | none => exact Outcome.unlessRefused_bind _ _

theorem attributeTest_unlessRefused (opening : Nat) (content : List Char) :
    Parser.attributeTest ⟨config, engine⟩ opening content =
      Outcome.unlessRefused engine
        (Outcome.patterns (Parser.attributeTest ⟨config, .permissive⟩ opening content))
        (Parser.attributeTest ⟨config, .permissive⟩ opening content) := by
  simp only [attributeTest_eq]
  split
  · split <;> rfl
  · split
    · rfl
    split
    · rfl
    · simp only [comparison_eq]
      split
      · exact compared_unlessRefused _ _ _ _
      split
      · exact compared_unlessRefused _ _ _ _
      · rfl

/-- An engine that takes every pattern reads conditions as any other such engine does. -/
theorem attributeTest_eq_permissive (haccepting : ∀ q, accepting.Takes q) (opening : Nat)
    (content : List Char) :
    Parser.attributeTest ⟨config, accepting⟩ opening content =
      Parser.attributeTest ⟨config, .permissive⟩ opening content := by
  rw [attributeTest_unlessRefused, Outcome.unlessRefused_of_takes fun q _ => haccepting q]

variable {nested nested' : List Char → Nat → Outcome SelectorList}
  {nestedAsked : List Char → Nat → List Pattern}

theorem pseudoCall_unlessRefused (haccepting : ∀ q, accepting.Takes q)
    (hnested : ∀ argument base, nested' argument base =
      Outcome.unlessRefused engine (nestedAsked argument base) (nested argument base))
    (name : PseudoName) (position opening : Nat) (argument : List Char) :
    Parser.pseudoCall ⟨config, engine⟩ nested' name opening argument =
      Outcome.unlessRefused engine
        ((Lexeme.pseudo name (some (opening, argument))).asked config nestedAsked position)
        (Parser.pseudoCall ⟨config, accepting⟩ nested name opening argument) := by
  unfold pseudoCall
  cases name with
  | has => simp only [Lexeme.asked, hnested, Outcome.map_unlessRefused]
  | not => simp only [Lexeme.asked, hnested, Outcome.map_unlessRefused]
  | finds extent =>
      simp only [Lexeme.asked, pattern_unlessRefused,
        Outcome.unlessRefused_of_takes fun q _ => haccepting q]
      split
      · rfl
      · exact Outcome.map_unlessRefused _ _
  | _ => rfl

end Parser

namespace Progress

variable {config : Config} {accepting engine : PatternEngine}
  {nested nested' : List Char → Nat → Outcome SelectorList}
  {nestedAsked : List Char → Nat → List Pattern}

/-- **A step** is what it is with an engine that takes every pattern, unless a pattern that is
asked about is refused. -/
theorem take_unlessRefused (haccepting : ∀ q, accepting.Takes q)
    (hnested : ∀ argument base, nested' argument base =
      Outcome.unlessRefused engine (nestedAsked argument base) (nested argument base))
    (progress : Progress) (token : Token) :
    progress.take ⟨config, engine⟩ nested' token =
      Outcome.unlessRefused engine (token.lexeme.asked config nestedAsked token.position)
        (progress.take ⟨config, accepting⟩ nested token) := by
  obtain ⟨position, lexeme⟩ := token
  cases lexeme with
  | «attribute» content =>
      simp only [take, Lexeme.asked]
      rw [Parser.attributeTest_unlessRefused, Outcome.map_unlessRefused,
        Parser.attributeTest_eq_permissive haccepting]
  | pseudo name argument =>
      cases argument with
      | none => cases name <;> rfl
      | some argument =>
          obtain ⟨opening, argument⟩ := argument
          simp only [take]
          rw [Parser.pseudoCall_unlessRefused haccepting hnested name position opening argument,
            Outcome.map_unlessRefused]
  | _ => rfl

/-- **A run** over tokens. -/
theorem foldlM_unlessRefused (haccepting : ∀ q, accepting.Takes q)
    (hnested : ∀ argument base, nested' argument base =
      Outcome.unlessRefused engine (nestedAsked argument base) (nested argument base))
    (progress : Progress) (tokens : List Token) :
    tokens.foldlM (take ⟨config, engine⟩ nested') progress =
      Outcome.unlessRefused engine
        (progress.asked ⟨config, accepting⟩ nested nestedAsked tokens)
        (tokens.foldlM (take ⟨config, accepting⟩ nested) progress) := by
  induction tokens generalizing progress with
  | nil => rw [List.foldlM_nil, List.foldlM_nil, asked, Outcome.unlessRefused_nil]
  | cons token rest ih =>
      have hstep : progress.take ⟨config, engine⟩ nested' token =
          Outcome.unlessRefused engine (token.lexeme.asked config nestedAsked token.position)
            (progress.take ⟨config, accepting⟩ nested token) :=
        take_unlessRefused haccepting hnested progress token
      rw [List.foldlM_cons, List.foldlM_cons, hstep, Outcome.unlessRefused_bind, asked,
        Outcome.unlessRefused_append]
      cases progress.take ⟨config, accepting⟩ nested token with
      | error e => simp only [bind, Except.bind, Outcome.unlessRefused_nil]
      | ok progress' => simp only [bind, Except.bind, ih progress']

end Progress

namespace Parser

variable {config : Config} {accepting engine : PatternEngine}

/-- **A whole text** comes to what it comes to with an engine that takes every pattern, unless
a pattern that is asked about is refused. -/
theorem parseWithin_unlessRefused (haccepting : ∀ q, accepting.Takes q) (depth : Nat)
    (cs : List Char) (base : Nat) :
    Parser.parseWithin ⟨config, engine⟩ depth cs base =
      Outcome.unlessRefused engine (Parser.askedWithin ⟨config, accepting⟩ depth cs base)
        (Parser.parseWithin ⟨config, accepting⟩ depth cs base) := by
  induction depth generalizing cs base with
  | zero => rfl
  | succ depth ih =>
      rw [parseWithin, parseWithin, askedWithin, Progress.foldlM_unlessRefused haccepting ih]
      exact Outcome.unlessRefused_bind _ _

theorem parse_unlessRefused (haccepting : ∀ q, accepting.Takes q) (text : String) :
    Parser.parse ⟨config, engine⟩ text =
      Outcome.unlessRefused engine (Parser.asked ⟨config, accepting⟩ text)
        (Parser.parse ⟨config, accepting⟩ text) :=
  parseWithin_unlessRefused haccepting _ _ _

/-- An engine that takes what is asked about makes the same of a text. -/
theorem parse_of_takes (haccepting : ∀ q, accepting.Takes q) {text : String}
    (h : ∀ q ∈ Parser.asked ⟨config, accepting⟩ text, engine.Takes q) :
    Parser.parse ⟨config, engine⟩ text = Parser.parse ⟨config, accepting⟩ text := by
  rw [parse_unlessRefused haccepting, Outcome.unlessRefused_of_takes h]

/-- The first refusal is reported. -/
theorem parse_of_refused (haccepting : ∀ q, accepting.Takes q) {text : String}
    {front back : List Pattern} {q : Pattern} {explanation : String}
    (hasked : Parser.asked ⟨config, accepting⟩ text = front ++ q :: back)
    (hfront : ∀ q' ∈ front, engine.Takes q') (hq : engine.compile q = .error explanation) :
    Parser.parse ⟨config, engine⟩ text = .error (.invalidPattern q.source explanation) := by
  rw [parse_unlessRefused haccepting, hasked, Outcome.unlessRefused,
    PatternEngine.refusal?_of_split hfront hq]

/-- **A pattern is asked about** just when refusing it alone is reported. -/
theorem mem_asked_iff (haccepting : ∀ q, accepting.Takes q) {text : String} {q : Pattern} :
    q ∈ Parser.asked ⟨config, accepting⟩ text ↔ ∀ explanation,
      Parser.parse ⟨config, .refusing q explanation⟩ text =
        .error (.invalidPattern q.source explanation) := by
  have htakes : ∀ {asked : List Pattern}, q ∉ asked → ∀ explanation,
      ∀ q' ∈ asked, (PatternEngine.refusing q explanation).Takes q' := by
    intro asked hnew explanation q' hq'
    refine PatternEngine.takes_refusing ?_
    rintro rfl
    exact hnew hq'
  constructor
  · intro hmem explanation
    obtain ⟨front, back, hasked, hnew⟩ := List.eq_append_cons_of_mem hmem
    exact parse_of_refused haccepting hasked (htakes hnew explanation) (if_pos rfl)
  · -- two explanations cannot both be the answer of an engine that takes everything
    intro hreported
    by_contra hmem
    have hanswer : ∀ explanation, Parser.parse ⟨config, accepting⟩ text =
        .error (.invalidPattern q.source explanation) := fun explanation =>
      (parse_of_takes haccepting (htakes hmem explanation)).symm.trans (hreported explanation)
    have hboth := (hanswer "").symm.trans (hanswer "refused")
    simp at hboth

/-- **The engine can do no more than refuse.**  Take the patterns that an engine which takes
everything is asked about when it reads a text, and what it makes of the text.  Any engine
that takes those patterns makes the same of it; and any other one makes of it the report of
the first of them that it refuses, with its explanation.  A pattern is among them just when
refusing it alone is reported. -/
theorem parse_engine (config : Config) (text : String) {accepting : PatternEngine}
    (haccepting : ∀ q, accepting.Takes q) :
    (∀ engine : PatternEngine,
      (∀ q ∈ Parser.asked ⟨config, accepting⟩ text, engine.Takes q) →
      Parser.parse ⟨config, engine⟩ text = Parser.parse ⟨config, accepting⟩ text) ∧
    (∀ (engine : PatternEngine) front q back explanation,
      Parser.asked ⟨config, accepting⟩ text = front ++ q :: back →
      (∀ q' ∈ front, engine.Takes q') → engine.compile q = .error explanation →
      Parser.parse ⟨config, engine⟩ text = .error (.invalidPattern q.source explanation)) ∧
    ∀ q, q ∈ Parser.asked ⟨config, accepting⟩ text ↔ ∀ explanation,
      Parser.parse ⟨config, .refusing q explanation⟩ text =
        .error (.invalidPattern q.source explanation) := by
  refine ⟨?_, ?_, ?_⟩
  · intro engine htakes
    exact parse_of_takes haccepting htakes
  · intro engine front q back explanation hasked hfront hq
    exact parse_of_refused haccepting hasked hfront hq
  · intro q
    exact mem_asked_iff haccepting

/-- Of three patterns the second is refused, and reported although the third would be refused
as well and the text is not well formed. -/
theorem parse_engine_first_refused :
    let text := "[a~=x]:has(p:matches(y!)):matches(z!) >"
    let permissive : Parser := ⟨.standard, .permissive⟩
    permissive.asked text =
        [⟨"x", .sensitive⟩, ⟨"y!", .sensitive⟩, ⟨"z!", .sensitive⟩] ∧
      permissive.parse text = .error (.malformed 39 (.expectedSelectorAfter '>')) ∧
      Parser.parse ⟨.standard, .literal⟩ text =
        .error (.invalidPattern "y!" "exclamation marks are not allowed") := by
  intro text permissive
  have htakes : ∀ q, PatternEngine.permissive.Takes q := fun q => ⟨_, rfl⟩
  have hasked : permissive.asked text =
      [⟨"x", .sensitive⟩] ++ ⟨"y!", .sensitive⟩ :: [⟨"z!", .sensitive⟩] := by decide +kernel
  refine ⟨hasked, by decide +kernel, ?_⟩
  refine (parse_engine .standard text htakes).2.1 .literal _ _ _ _ hasked (fun q hq => ?_) rfl
  obtain rfl := List.mem_singleton.1 hq
  exact ⟨_, rfl⟩

end Parser

end MarkupQuery
