import PatternGate.Expr.Meaning
import PatternGate.Proofs.Expr.Sense
import PatternGate.Proofs.Program.Acceptance

/-!
# What the meaning of a pattern is made of

Finding the meaning of a tree goes through the tree from left to right, with the modes as a state,
and makes expressions with the building functions alone. So a condition on nodes that these keep,
and that holds of the characters, classes, looks and captures of a pattern, holds at every node of a
meaning (`Tree.each_meaning`). In particular literals are bytes of a text and the only class of
bytes is the empty one, whatever the tree; and if the bounds in the tree are in order, then so are
those of the repetitions (`Tree.each_text`). Two things depend on the tree and are listed: the
bounds of its repetitions and its assertions.
-/

namespace PatternGate

/-- A computation that succeeds has succeeded at its first step, and goes on from its result. -/
theorem bind_eq_ok_iff {ε α β : Type} {x : Except ε α} {f : α → Except ε β} {b : β} :
    (x >>= f) = .ok b ↔ ∃ a, x = .ok a ∧ f a = .ok b := by
  cases x with
  | error e =>
    constructor
    · intro failed
      cases failed
    · rintro ⟨a, failed, -⟩
      cases failed
  | ok a =>
    constructor
    · exact fun rest => ⟨a, rfl, rest⟩
    · rintro ⟨_, ⟨⟩, rest⟩
      exact rest

namespace Tree

/-- Induction over trees, with the hypothesis for every branch and every item. -/
@[elab_as_elim, induction_eliminator]
theorem induction {motive : Tree → Prop}
    (empty : ∀ span, motive (.empty span))
    (flags : ∀ span items, motive (.flags span items))
    (literal : ∀ span c, motive (.literal span c))
    (dot : ∀ span, motive (.dot span))
    (assertion : ∀ span kind, motive (.assertion span kind))
    (property : ∀ span negated query, motive (.property span negated query))
    (letter : ∀ span negated kind, motive (.letter span negated kind))
    (bracket : ∀ span negated body, motive (.bracket span negated body))
    (repetition : ∀ span bounds greedy body, motive body →
      motive (.repetition span bounds greedy body))
    (group : ∀ span kind body, motive body → motive (.group span kind body))
    (alternation : ∀ span branches, (∀ t ∈ branches, motive t) →
      motive (.alternation span branches))
    (concat : ∀ span items, (∀ t ∈ items, motive t) → motive (.concat span items))
    (t : Tree) : motive t :=
  @Tree.rec motive (fun ts => ∀ t ∈ ts, motive t) empty flags literal dot assertion property letter
    bracket repetition group alternation concat
    (fun _ h => absurd h List.not_mem_nil)
    (fun _ _ ht hts _ h => by
      rcases List.mem_cons.mp h with rfl | h
      · exact ht
      · exact hts _ h)
    t

mutual

/-- The bounds of all repetitions of a tree. -/
def bounds : Tree → List Bounds
  | .repetition _ b _ body => b :: body.bounds
  | .group _ _ body => body.bounds
  | .alternation _ branches => boundsAll branches
  | .concat _ items => boundsAll items
  | .empty _ | .flags _ _ | .literal _ _ | .dot _ | .assertion _ _ | .property _ _ _
  | .letter _ _ _ | .bracket _ _ _ => []

/-- The bounds of all repetitions of several trees. -/
def boundsAll : List Tree → List Bounds
  | [] => []
  | t :: ts => t.bounds ++ boundsAll ts

end

theorem boundsAll_eq_flatMap (ts : List Tree) : boundsAll ts = ts.flatMap bounds := by
  induction ts with
  | nil => rfl
  | cons t ts ih => rw [boundsAll, ih, List.flatMap_cons]

theorem mem_boundsAll {b : Bounds} {t : Tree} {ts : List Tree} (mem : t ∈ ts)
    (inner : b ∈ t.bounds) : b ∈ boundsAll ts := by
  rw [boundsAll_eq_flatMap]
  exact List.mem_flatMap.mpr ⟨t, mem, inner⟩

mutual

/-- The assertions of a tree. -/
def assertions : Tree → List AssertionKind
  | .assertion _ kind => [kind]
  | .repetition _ _ _ body => body.assertions
  | .group _ _ body => body.assertions
  | .alternation _ branches => assertionsAll branches
  | .concat _ items => assertionsAll items
  | .empty _ | .flags _ _ | .literal _ _ | .dot _ | .property _ _ _ | .letter _ _ _
  | .bracket _ _ _ => []

/-- The assertions of several trees. -/
def assertionsAll : List Tree → List AssertionKind
  | [] => []
  | t :: ts => t.assertions ++ assertionsAll ts

end

theorem mem_assertionsAll_iff {kind : AssertionKind} {ts : List Tree} :
    kind ∈ assertionsAll ts ↔ ∃ t ∈ ts, kind ∈ t.assertions := by
  induction ts with
  | nil => simp [assertionsAll]
  | cons t ts ih => rw [assertionsAll, List.mem_append, ih, List.exists_mem_cons_iff]

/-- No repetition of the tree has a lower bound above its upper bound. -/
def Ordered (t : Tree) : Prop := ∀ b ∈ t.bounds, ∀ m ∈ b.max, b.min ≤ m

instance (t : Tree) : Decidable t.Ordered :=
  inferInstanceAs (Decidable (∀ b ∈ t.bounds, ∀ m ∈ b.max, b.min ≤ m))

section Parts

variable {m m' : Modes} {e : Expr} {es : List Expr}

/-- The meanings of trees are that of the first and those of the others, under the modes that the
first leaves behind. -/
theorem meanings_cons_iff {t : Tree} {ts : List Tree} :
    meanings (t :: ts) m = .ok (es, m') ↔
      ∃ e m₁ rest, t.meaning m = .ok (e, m₁) ∧ meanings ts m₁ = .ok (rest, m') ∧
        es = e :: rest := by
  rw [meanings]
  constructor
  · intro meant
    obtain ⟨⟨e, m₁⟩, first, meant⟩ := bind_eq_ok_iff.mp meant
    obtain ⟨⟨rest, m₂⟩, others, meant⟩ := bind_eq_ok_iff.mp meant
    cases meant
    exact ⟨e, m₁, rest, first, others, rfl⟩
  · rintro ⟨e, m₁, rest, first, others, rfl⟩
    exact bind_eq_ok_iff.mpr ⟨_, first, bind_eq_ok_iff.mpr ⟨_, others, rfl⟩⟩

/-- A repetition repeats the meaning of its body, under the greed that the body leaves behind. -/
theorem meaning_repetition_iff {span : Span} {bounds : Bounds} {greedy : Bool} {body : Tree} :
    (Tree.repetition span bounds greedy body).meaning m = .ok (e, m') ↔
      ∃ inner, body.meaning m = .ok (inner, m') ∧
        e = .ofRepetition bounds.min bounds.max (greedy != m'.swapGreed) inner := by
  rw [meaning]
  constructor
  · intro meant
    obtain ⟨⟨inner, m₁⟩, found, meant⟩ := bind_eq_ok_iff.mp meant
    cases meant
    exact ⟨inner, found, rfl⟩
  · rintro ⟨inner, found, rfl⟩
    exact bind_eq_ok_iff.mpr ⟨_, found, rfl⟩

/-- A group wraps the meaning of its body under its own modes, which end with it. -/
theorem meaning_group_iff {span : Span} {kind : GroupKind} {body : Tree} :
    (Tree.group span kind body).meaning m = .ok (e, m') ↔
      ∃ inner m₁, body.meaning (m.inside kind) = .ok (inner, m₁) ∧ e = kind.wrap inner ∧
        m' = m := by
  rw [meaning]
  constructor
  · intro meant
    obtain ⟨⟨inner, m₁⟩, found, meant⟩ := bind_eq_ok_iff.mp meant
    cases meant
    exact ⟨inner, m₁, found, rfl, rfl⟩
  · rintro ⟨inner, m₁, found, rfl, rfl⟩
    exact bind_eq_ok_iff.mpr ⟨_, found, rfl⟩

/-- A sequence means its items in sequence. -/
theorem meaning_concat_iff {span : Span} {items : List Tree} :
    (Tree.concat span items).meaning m = .ok (e, m') ↔
      ∃ es, meanings items m = .ok (es, m') ∧ e = .ofConcat es := by
  rw [meaning]
  constructor
  · intro meant
    obtain ⟨⟨es, m₁⟩, found, meant⟩ := bind_eq_ok_iff.mp meant
    cases meant
    exact ⟨es, found, rfl⟩
  · rintro ⟨es, found, rfl⟩
    exact bind_eq_ok_iff.mpr ⟨_, found, rfl⟩

/-- An alternation means the choice between its branches. -/
theorem meaning_alternation_iff {span : Span} {branches : List Tree} :
    (Tree.alternation span branches).meaning m = .ok (e, m') ↔
      ∃ es, meanings branches m = .ok (es, m') ∧ e = .ofAlternation es := by
  rw [meaning]
  constructor
  · intro meant
    obtain ⟨⟨es, m₁⟩, found, meant⟩ := bind_eq_ok_iff.mp meant
    cases meant
    exact ⟨es, found, rfl⟩
  · rintro ⟨es, found, rfl⟩
    exact bind_eq_ok_iff.mpr ⟨_, found, rfl⟩

end Parts

/-- What holds of the meaning of each tree holds of all their meanings. -/
theorem forall_meanings {Q : Expr → Prop} {ts : List Tree}
    (each : ∀ t ∈ ts, ∀ m e m', t.meaning m = .ok (e, m') → Q e) {m m' : Modes} {es : List Expr}
    (meant : meanings ts m = .ok (es, m')) : ∀ e ∈ es, Q e := by
  induction ts generalizing m es with
  | nil =>
    rw [meanings] at meant
    cases meant
    simp
  | cons t ts ih =>
    obtain ⟨e, m₁, rest, first, others, rfl⟩ := meanings_cons_iff.mp meant
    rw [List.forall_mem_cons] at each ⊢
    exact ⟨each.1 m e m₁ first, ih each.2 others⟩

/-- Each tree has its meaning among the meanings of all. -/
theorem exists_mem_meanings {ts : List Tree} {m m' : Modes} {es : List Expr}
    (meant : meanings ts m = .ok (es, m')) {t : Tree} (mem : t ∈ ts) :
    ∃ e ∈ es, ∃ m₁ m₂, t.meaning m₁ = .ok (e, m₂) := by
  induction ts generalizing m es with
  | nil => cases mem
  | cons u ts ih =>
    obtain ⟨e, m₁, rest, first, others, rfl⟩ := meanings_cons_iff.mp meant
    rcases List.mem_cons.mp mem with rfl | mem
    · exact ⟨e, List.mem_cons_self, m, m₁, first⟩
    · obtain ⟨d, found, means⟩ := ih others mem
      exact ⟨d, List.mem_cons_of_mem e found, means⟩

theorem length_meanings {ts : List Tree} {m m' : Modes} {es : List Expr}
    (meant : meanings ts m = .ok (es, m')) : es.length = ts.length := by
  induction ts generalizing m es with
  | nil =>
    rw [meanings] at meant
    cases meant
    rfl
  | cons t ts ih =>
    obtain ⟨e, m₁, rest, first, others, rfl⟩ := meanings_cons_iff.mp meant
    exact congrArg (· + 1) (ih others)

end Tree

/-- A condition on nodes that building keeps and that holds of what a pattern consists of. -/
structure PatternStable (P : Expr → Prop) : Prop extends Expr.Stable P where
  chars : ∀ set, P (Expr.ofChars set)
  scalar : ∀ n, P (Expr.ofScalar n)
  capture : ∀ index name body, P (.capture index name body)

namespace PatternStable

variable {P : Expr → Prop} (stable : PatternStable P)
include stable

theorem each_ofChars (set : RangeSet) : (Expr.ofChars set).Each P :=
  (Expr.each_leaf_iff (Expr.isLeaf_ofChars set)).mpr (stable.chars set)

theorem each_literal (m : Modes) (c : Char) : (m.literal c).Each P := by
  unfold Modes.literal
  split
  · exact stable.each_ofChars _
  · exact (Expr.each_leaf_iff rfl).mpr (stable.scalar _)

theorem each_dot (m : Modes) : m.dot.Each P := by
  unfold Modes.dot
  split <;> exact stable.each_ofChars _

theorem each_wrap (kind : GroupKind) {body : Expr} (each : body.Each P) :
    (kind.wrap body).Each P := by
  cases kind with
  | capture index => exact Expr.Each.capture_iff.mpr ⟨stable.capture _ _ _, each⟩
  | named index name => exact Expr.Each.capture_iff.mpr ⟨stable.capture _ _ _, each⟩
  | plain flags => exact each

end PatternStable

/-- A condition that a pattern's parts and building satisfy holds at every node of its meaning. -/
theorem Tree.each_meaning {P : Expr → Prop} (stable : PatternStable P) {t : Tree}
    (looks : ∀ kind ∈ t.assertions, ∀ m : Modes, P (.look (m.look kind)))
    (repeats : ∀ b ∈ t.bounds, ∀ greedy body, body.Each P →
      (Expr.ofRepetition b.min b.max greedy body).Each P)
    {m m' : Modes} {e : Expr} (meant : t.meaning m = .ok (e, m')) : e.Each P := by
  induction t generalizing m m' e with
  | empty span | flags span items =>
    rw [meaning] at meant
    cases meant
    exact (Expr.each_leaf_iff rfl).mpr stable.empty
  | literal span c =>
    rw [meaning] at meant
    cases meant
    exact stable.each_literal m c
  | dot span =>
    rw [meaning] at meant
    cases meant
    exact stable.each_dot m
  | assertion span kind =>
    rw [meaning] at meant
    cases meant
    exact (Expr.each_leaf_iff rfl).mpr (looks kind (List.mem_singleton_self kind) m)
  | property span negated query =>
    rw [meaning] at meant
    obtain ⟨set, -, meant⟩ := bind_eq_ok_iff.mp meant
    cases meant
    exact stable.each_ofChars set
  | letter span negated kind =>
    rw [meaning] at meant
    cases meant
    exact stable.each_ofChars _
  | bracket span negated body =>
    rw [meaning] at meant
    obtain ⟨set, -, meant⟩ := bind_eq_ok_iff.mp meant
    cases meant
    exact stable.each_ofChars _
  | repetition span bounds greedy body ih =>
    obtain ⟨inner, found, rfl⟩ := meaning_repetition_iff.mp meant
    rw [Tree.bounds, List.forall_mem_cons] at repeats
    exact repeats.1 _ _ (ih looks repeats.2 found)
  | group span kind body ih =>
    obtain ⟨inner, m₁, found, rfl, rfl⟩ := meaning_group_iff.mp meant
    exact stable.each_wrap kind (ih looks repeats found)
  | alternation span branches ih =>
    obtain ⟨es, found, rfl⟩ := meaning_alternation_iff.mp meant
    refine Expr.Each.ofAlternation stable.toStable (forall_meanings (fun t mem m d m' => ?_) found)
    refine ih t mem (fun kind inner => ?_) fun b inner => repeats b (mem_boundsAll mem inner)
    exact looks kind (mem_assertionsAll_iff.mpr ⟨t, mem, inner⟩)
  | concat span items ih =>
    obtain ⟨es, found, rfl⟩ := meaning_concat_iff.mp meant
    refine Expr.Each.ofConcat stable.toStable (forall_meanings (fun t mem m d m' => ?_) found)
    refine ih t mem (fun kind inner => ?_) fun b inner => repeats b (mem_boundsAll mem inner)
    exact looks kind (mem_assertionsAll_iff.mpr ⟨t, mem, inner⟩)

/-- Nodes of the meaning of a pattern, which are valid if bounds are in order. -/
theorem patternStable_text (ordered : Prop) :
    PatternStable fun e => e.NodeText ∧ (ordered → e.NodeValid) := by
  have leaf : ∀ {e : Expr}, e.isLeaf = true → e.NodeText →
      e.NodeText ∧ (ordered → e.NodeValid) := by
    intro e leaf text
    refine ⟨text, fun _ => ?_⟩
    cases e <;> first | exact text | trivial
  refine ⟨⟨?_, ?_, ?_, ?_, ?_, ?_⟩, ?_, ?_, ?_⟩
  · exact leaf rfl trivial
  · exact leaf rfl rfl
  · exact fun a b first second => leaf rfl (Expr.stable_nodeText.literal a b first.1 second.1)
  · exact fun _ => ⟨trivial, fun _ => trivial⟩
  · exact fun _ two => ⟨two, fun _ => trivial⟩
  · intro es e text written
    refine leaf (Expr.isLeaf_ofAlternatives? written) ?_
    exact Expr.stable_nodeText.alternatives es e (fun d mem => (text d mem).1) written
  · exact fun set => leaf (Expr.isLeaf_ofChars set) (Expr.nodeText_ofChars set)
  · exact fun n => leaf rfl (Expr.nodeText_ofScalar n)
  · exact fun _ _ _ => ⟨trivial, fun _ => trivial⟩

/-- The meaning of a tree consists of literals of characters, classes of code points and real
choices, and its repetitions have their bounds in order if the tree has. -/
theorem Tree.each_text {t : Tree} {m m' : Modes} {e : Expr} (meant : t.meaning m = .ok (e, m')) :
    e.Each fun d => d.NodeText ∧ (t.Ordered → d.NodeValid) := by
  refine Tree.each_meaning (patternStable_text t.Ordered)
    (fun _ _ _ => ⟨trivial, fun _ => trivial⟩) (fun b mem greedy body each => ?_) meant
  rcases Expr.ofRepetition_cases b.min b.max greedy (body.maxLength == some 0) with
    none | one | ⟨min', max', bounds, some⟩
  · rw [none body rfl]
    exact (Expr.each_leaf_iff rfl).mpr ⟨trivial, fun _ => trivial⟩
  · rw [one body rfl]
    exact each
  · rw [some body rfl]
    exact Expr.Each.repetition_iff.mpr
      ⟨⟨trivial, fun ordered => (bounds (ordered b mem)).1⟩, each⟩

end PatternGate
