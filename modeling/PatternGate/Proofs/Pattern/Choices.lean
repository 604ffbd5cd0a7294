import PatternGate.Proofs.Expr.Choices
import PatternGate.Proofs.Pattern.Meaning

/-!
# Alternations of a pattern that are kept as they are written

Finding the meaning of an alternation builds one from the meanings of its branches, and building may
simplify it. Whether it does is seen in the pattern, without its meaning: an alternation stands as
it is written if no branch is a choice (`Tree.isSingle`) and one of them is nothing, an assertion,
what may be left out, or a text of two characters or more (`Tree.isAlone`). The main statement is
`Tree.standing_of_anyAlone`.

Case matters to it. A text is one literal only where its characters stand for themselves, so that
the modes in force are followed through the pattern (`Tree.modesAfter`).
-/

namespace PatternGate.Tree

mutual

/-- The modes after a tree. A group keeps what is set in it to itself. -/
def modesAfter : Tree → Modes → Modes
  | .flags _ items, m => m.apply true items
  | .repetition _ _ _ body, m => body.modesAfter m
  | .alternation _ branches, m => modesAfterAll branches m
  | .concat _ items, m => modesAfterAll items m
  | .group _ _ _, m | .empty _, m | .literal _ _, m | .dot _, m | .assertion _ _, m
  | .property _ _ _, m | .letter _ _ _, m | .bracket _ _ _, m => m

/-- The modes after several trees. -/
def modesAfterAll : List Tree → Modes → Modes
  | [], m => m
  | t :: ts, m => modesAfterAll ts (t.modesAfter m)

end

/-- The modes that the meanings of trees leave behind are those after the trees. -/
theorem modes_of_meanings {ts : List Tree}
    (each : ∀ t ∈ ts, ∀ m e m', t.meaning m = .ok (e, m') → m' = t.modesAfter m)
    {m m' : Modes} {es : List Expr} (meant : meanings ts m = .ok (es, m')) :
    m' = modesAfterAll ts m := by
  induction ts generalizing m es with
  | nil =>
    rw [meanings] at meant
    cases meant
    rfl
  | cons t ts ih =>
    obtain ⟨e, m₁, rest, first, others, rfl⟩ := meanings_cons_iff.mp meant
    rw [List.forall_mem_cons] at each
    rw [modesAfterAll, ← each.1 m e m₁ first]
    exact ih each.2 others

/-- The modes that the meaning of a tree leaves behind are those after the tree. -/
theorem modes_of_meaning {t : Tree} {m m' : Modes} {e : Expr} (meant : t.meaning m = .ok (e, m')) :
    m' = t.modesAfter m := by
  induction t generalizing m m' e with
  | empty | flags | literal | dot | assertion | letter =>
    rw [meaning] at meant
    cases meant
    rfl
  | property | bracket =>
    rw [meaning] at meant
    obtain ⟨set, -, meant⟩ := bind_eq_ok_iff.mp meant
    cases meant
    rfl
  | repetition span bounds greedy body ih =>
    obtain ⟨inner, found, rfl⟩ := meaning_repetition_iff.mp meant
    exact ih found
  | group span kind body ih =>
    obtain ⟨inner, m₁, found, rfl, rfl⟩ := meaning_group_iff.mp meant
    rfl
  | alternation span branches ih =>
    obtain ⟨es, found, -⟩ := meaning_alternation_iff.mp meant
    exact modes_of_meanings (fun t mem _ _ _ => ih t mem) found
  | concat span items ih =>
    obtain ⟨es, found, -⟩ := meaning_concat_iff.mp meant
    exact modes_of_meanings (fun t mem _ _ _ => ih t mem) found

/-- Building keeps an alternation of the trees as the choice between them. -/
def Standing (ts : List Tree) (m : Modes) : Prop :=
  ∀ es m', meanings ts m = .ok (es, m') → Expr.ofAlternation es = .alternation es

/-! ## What can be seen in the pattern -/

/-- The tree is one item of a sequence that is no choice, through groups and repetitions. -/
def isSolid : Tree → Bool
  | .literal _ _ | .dot _ | .assertion _ _ | .property _ _ _ | .letter _ _ _
  | .bracket _ _ _ => true
  | .group _ _ body => body.isSolid
  | .repetition _ bounds _ body => if bounds.min = 0 then bounds.max != some 0 else body.isSolid
  | .empty _ | .flags _ _ | .alternation _ _ | .concat _ _ => false

/-- The tree is no choice: neither an alternation, nor a group or a repetition of one, nor a
sequence in which a choice might be all there is. -/
def isSingle : Tree → Bool
  | .alternation _ _ => false
  | .group _ _ body => body.isSingle
  | .repetition _ bounds _ body => bounds.min == 0 || body.isSingle
  | .concat _ items => items.any isSolid
  | .empty _ | .flags _ _ | .literal _ _ | .dot _ | .assertion _ _ | .property _ _ _
  | .letter _ _ _ | .bracket _ _ _ => true

/-- The tree is a character that stands for itself alone. -/
def isSpelled (m : Modes) : Tree → Bool
  | .literal _ c => !(m.ignoreCase && Unicode.folds c.toNat)
  | _ => false

/-- The tree is nothing, an assertion, a repetition that may be left out, or a text of two
characters or more, perhaps in groups. -/
def isAlone : Tree → Modes → Bool
  | .empty _, _ | .flags _ _, _ | .assertion _ _, _ => true
  | .repetition _ bounds _ _, _ => bounds.min == 0
  | .group _ kind body, m => body.isAlone (m.inside kind)
  | .concat _ items, m => 2 ≤ items.length && items.all (isSpelled m)
  | .literal _ _, _ | .dot _, _ | .property _ _ _, _ | .letter _ _ _, _ | .bracket _ _ _, _
  | .alternation _ _, _ => false

/-- One of the trees, each under the modes after those before it, is nothing, an assertion, what may
be left out or a text. -/
def anyAlone : List Tree → Modes → Bool
  | [], _ => false
  | t :: ts, m => t.isAlone m || anyAlone ts (t.modesAfter m)

/-! ## What is seen in the pattern holds of the meaning -/

/-- A tree that is solid has a solid meaning. -/
theorem isSolid_meaning {t : Tree} (solid : t.isSolid = true) {m m' : Modes} {e : Expr}
    (meant : t.meaning m = .ok (e, m')) : e.isSolid = true := by
  induction t generalizing m m' e with
  | literal span c =>
    rw [meaning] at meant
    cases meant
    unfold Modes.literal
    split
    · exact Expr.isSolid_ofChars _
    · rfl
  | dot span =>
    rw [meaning] at meant
    cases meant
    unfold Modes.dot
    split <;> exact Expr.isSolid_ofChars _
  | assertion span kind =>
    rw [meaning] at meant
    cases meant
    rfl
  | letter span negated kind =>
    rw [meaning] at meant
    cases meant
    exact Expr.isSolid_ofChars _
  | property | bracket =>
    rw [meaning] at meant
    obtain ⟨set, -, meant⟩ := bind_eq_ok_iff.mp meant
    cases meant
    exact Expr.isSolid_ofChars _
  | group span kind body ih =>
    obtain ⟨inner, m₁, found, rfl, rfl⟩ := meaning_group_iff.mp meant
    cases kind with
    | plain items => exact ih solid found
    | capture | named => rfl
  | repetition span bounds greedy body ih =>
    obtain ⟨inner, found, rfl⟩ := meaning_repetition_iff.mp meant
    obtain ⟨min, max⟩ := bounds
    cases min with
    | zero =>
      rcases Expr.ofRepetition_zero max (greedy != m'.swapGreed) inner with
        ⟨rfl, -⟩ | ⟨-, max', shape⟩
      · cases solid
      · rw [shape]
        rfl
    | succ min =>
      rcases Expr.ofRepetition_succ min max (greedy != m'.swapGreed) inner with
        shape | ⟨min', max', shape⟩
      · rw [shape]
        exact ih solid found
      · rw [shape]
        rfl
  | empty | flags | alternation | concat => cases solid

/-- A tree that is no choice has a meaning that is none. -/
theorem isChoice_meaning {t : Tree} (single : t.isSingle = true) {m m' : Modes} {e : Expr}
    (meant : t.meaning m = .ok (e, m')) : e.isChoice = false := by
  induction t generalizing m m' e with
  | literal | dot | assertion | letter | property | bracket =>
    exact Expr.isChoice_of_isSolid (isSolid_meaning rfl meant)
  | empty | flags =>
    rw [meaning] at meant
    cases meant
    rfl
  | group span kind body ih =>
    obtain ⟨inner, m₁, found, rfl, rfl⟩ := meaning_group_iff.mp meant
    cases kind with
    | plain items => exact ih single found
    | capture | named => rfl
  | repetition span bounds greedy body ih =>
    obtain ⟨inner, found, rfl⟩ := meaning_repetition_iff.mp meant
    obtain ⟨min, max⟩ := bounds
    cases min with
    | zero =>
      rcases Expr.ofRepetition_zero max (greedy != m'.swapGreed) inner with
        ⟨-, shape⟩ | ⟨-, max', shape⟩ <;> rw [shape] <;> rfl
    | succ min =>
      rcases Expr.ofRepetition_succ min max (greedy != m'.swapGreed) inner with
        shape | ⟨min', max', shape⟩
      · rw [shape]
        exact ih single found
      · rw [shape]
        rfl
  | concat span items =>
    obtain ⟨es, found, rfl⟩ := meaning_concat_iff.mp meant
    obtain ⟨t, mem, solid⟩ := List.any_eq_true.mp single
    obtain ⟨e, item, _, _, means⟩ := exists_mem_meanings found mem
    exact Expr.isChoice_ofConcat item (isSolid_meaning solid means)
  | alternation => cases single

/-- Characters that stand for themselves mean their literals. -/
theorem meanings_of_isSpelled {ts : List Tree} {m : Modes} (spelled : ts.all (isSpelled m) = true) :
    ∃ cs : List Char, cs.length = ts.length ∧
      meanings ts m = .ok (cs.map fun c => Expr.ofScalar c.toNat, m) := by
  induction ts with
  | nil => exact ⟨[], rfl, rfl⟩
  | cons t ts ih =>
    rw [List.all_cons, Bool.and_eq_true] at spelled
    obtain ⟨cs, length, means⟩ := ih spelled.2
    cases t with
    | literal span c =>
      have literal : m.literal c = .ofScalar c.toNat := by
        have alone : (m.ignoreCase && Unicode.folds c.toNat) = false := by
          simpa only [isSpelled, Bool.not_eq_true'] using spelled.1
        rw [Modes.literal, alone]
        rfl
      refine ⟨c :: cs, congrArg (· + 1) length, ?_⟩
      rw [meanings, meaning, literal]
      exact bind_eq_ok_iff.mpr ⟨_, rfl, bind_eq_ok_iff.mpr ⟨_, means, rfl⟩⟩
    | _ => cases spelled.1

/-- A tree that is nothing, an assertion, what may be left out or a text has a meaning that stands
alone. -/
theorem standsAlone_meaning {t : Tree} {m m' : Modes} {e : Expr} (alone : t.isAlone m = true)
    (meant : t.meaning m = .ok (e, m')) : e.StandsAlone := by
  induction t generalizing m m' e with
  | empty | flags | assertion =>
    rw [meaning] at meant
    cases meant
    exact ⟨rfl, rfl, rfl, rfl, rfl⟩
  | group span kind body ih =>
    obtain ⟨inner, m₁, found, rfl, rfl⟩ := meaning_group_iff.mp meant
    cases kind with
    | plain items => exact ih alone found
    | capture | named => exact ⟨rfl, rfl, rfl, rfl, rfl⟩
  | repetition span bounds greedy body =>
    obtain ⟨inner, found, rfl⟩ := meaning_repetition_iff.mp meant
    have zero : bounds.min = 0 := by simpa only [isAlone, beq_iff_eq] using alone
    rw [zero]
    rcases Expr.ofRepetition_zero bounds.max (greedy != m'.swapGreed) inner with
      ⟨-, shape⟩ | ⟨-, max', shape⟩ <;> rw [shape] <;> exact ⟨rfl, rfl, rfl, rfl, rfl⟩
  | concat span items =>
    simp only [isAlone, Bool.and_eq_true, decide_eq_true_eq] at alone
    obtain ⟨cs, length, means⟩ := meanings_of_isSpelled alone.2
    rw [meaning, means] at meant
    cases meant
    rw [Expr.ofConcat_ofScalar]
    have two : 2 ≤ cs.length := length ▸ alone.1
    obtain _ | ⟨c, _ | ⟨d, cs⟩⟩ := cs
    · exact absurd two (by decide)
    · exact absurd two (Nat.lt_irrefl 1)
    · rw [Expr.ofBytes_encode_cons]
      exact Expr.standsAlone_encode c d cs
  | literal | dot | property | letter | bracket | alternation => cases alone

theorem exists_standsAlone {ts : List Tree} {m m' : Modes} {es : List Expr}
    (alone : anyAlone ts m = true) (meant : meanings ts m = .ok (es, m')) :
    ∃ e ∈ es, e.StandsAlone := by
  induction ts generalizing m es with
  | nil => cases alone
  | cons t ts ih =>
    obtain ⟨e, m₁, rest, first, others, rfl⟩ := meanings_cons_iff.mp meant
    rw [anyAlone, Bool.or_eq_true, ← modes_of_meaning first] at alone
    rcases alone with alone | alone
    · exact ⟨e, List.mem_cons_self, standsAlone_meaning alone first⟩
    · obtain ⟨d, mem, stands⟩ := ih alone others
      exact ⟨d, List.mem_cons_of_mem e mem, stands⟩

/-- Two branches or more, none of which is a choice and one of which stands alone, stand as they are
written. -/
theorem standing_of_anyAlone {ts : List Tree} {m : Modes} (several : 2 ≤ ts.length)
    (single : ∀ t ∈ ts, t.isSingle = true) (alone : anyAlone ts m = true) : Standing ts m := by
  intro es m' meant
  obtain ⟨e, mem, stands⟩ := exists_standsAlone alone meant
  refine Expr.ofAlternation_eq_alternation ?_ ?_ mem stands
  · rw [length_meanings meant]
    exact several
  · exact forall_meanings (fun t mem _ _ _ => isChoice_meaning (single t mem)) meant

end PatternGate.Tree
