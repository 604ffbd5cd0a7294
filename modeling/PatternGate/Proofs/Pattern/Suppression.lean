import PatternGate.Pattern.Dialect
import PatternGate.Proofs.Pattern.Choices
import PatternGate.Proofs.Program.Outline

/-!
# Suppressing captures

Captures stay in the meaning of a pattern and are left out only when it is lowered. Building
expressions sees them, so that the program of a pattern whose captures are suppressed is not always
the program of the pattern with groups that capture nothing: `(a)|b` is a choice and `(?:a)|b` is a
class, of which the first does not fit in a budget that the second fits in.

This module says what does hold (`Settings.program_stripped`). A pattern and its stripped form have
meanings of the same sense, and hence programs that are anchored alike and accept at the same
places. They have the same program, or are both refused, if every alternation with captures in it
stands as it is written, with them and without them (`Tree.Stands`). Whether an alternation stands
can be seen in the pattern (`Tree.choicesStand`): no branch is a choice, and one of them is nothing,
an assertion, what may be left out, or a text of two characters or more.
-/

namespace PatternGate

/-- The group, opened as one that captures nothing. -/
def GroupKind.stripped : GroupKind → GroupKind
  | .capture _ | .named _ _ => .plain []
  | .plain flags => .plain flags

namespace Tree

mutual

/-- The tree with every capturing group replaced by one that captures nothing and sets no flags. -/
def stripped : Tree → Tree
  | .repetition span bounds greedy body => .repetition span bounds greedy body.stripped
  | .group span kind body => .group span kind.stripped body.stripped
  | .alternation span branches => .alternation span (strippedAll branches)
  | .concat span items => .concat span (strippedAll items)
  | .empty span => .empty span
  | .flags span items => .flags span items
  | .literal span c => .literal span c
  | .dot span => .dot span
  | .assertion span kind => .assertion span kind
  | .property span negated query => .property span negated query
  | .letter span negated kind => .letter span negated kind
  | .bracket span negated body => .bracket span negated body

/-- The stripped forms of several trees. -/
def strippedAll : List Tree → List Tree
  | [] => []
  | t :: ts => t.stripped :: strippedAll ts

end

mutual

/-- A capturing group stands in the tree. -/
def captures : Tree → Bool
  | .repetition _ _ _ body => body.captures
  | .group _ (.plain _) body => body.captures
  | .group _ (.capture _) _ | .group _ (.named _ _) _ => true
  | .alternation _ branches => capturesAny branches
  | .concat _ items => capturesAny items
  | .empty _ | .flags _ _ | .literal _ _ | .dot _ | .assertion _ _ | .property _ _ _
  | .letter _ _ _ | .bracket _ _ _ => false

/-- A capturing group stands in one of the trees. -/
def capturesAny : List Tree → Bool
  | [] => false
  | t :: ts => t.captures || capturesAny ts

end

mutual

/-- Every alternation that holds captures stands as it is written, with them and without them. -/
def Stands : Tree → Modes → Prop
  | .repetition _ _ _ body, m => body.Stands m
  | .group _ kind body, m => body.Stands (m.inside kind)
  | .alternation _ branches, m =>
    capturesAny branches = false ∨
      Standing branches m ∧ Standing (strippedAll branches) m ∧ StandsAll branches m
  | .concat _ items, m => StandsAll items m
  | .empty _, _ | .flags _ _, _ | .literal _ _, _ | .dot _, _ | .assertion _ _, _
  | .property _ _ _, _ | .letter _ _ _, _ | .bracket _ _ _, _ => True

/-- Every alternation that holds captures in one of the trees stands as it is written. -/
def StandsAll : List Tree → Modes → Prop
  | [], _ => True
  | t :: ts, m => t.Stands m ∧ StandsAll ts (t.modesAfter m)

end

mutual

/-- Every alternation that holds captures has two branches or more, none of which is a choice, and
one of which is nothing, an assertion, what may be left out or a text. -/
def choicesStand : Tree → Modes → Bool
  | .repetition _ _ _ body, m => body.choicesStand m
  | .group _ kind body, m => body.choicesStand (m.inside kind)
  | .alternation _ branches, m =>
    !capturesAny branches ||
      (2 ≤ branches.length && branches.all isSingle && anyAlone branches m &&
        choicesStandAll branches m)
  | .concat _ items, m => choicesStandAll items m
  | .empty _, _ | .flags _ _, _ | .literal _ _, _ | .dot _, _ | .assertion _ _, _
  | .property _ _ _, _ | .letter _ _ _, _ | .bracket _ _ _, _ => true

/-- Every alternation that holds captures in one of the trees has such branches. -/
def choicesStandAll : List Tree → Modes → Bool
  | [], _ => true
  | t :: ts, m => t.choicesStand m && choicesStandAll ts (t.modesAfter m)

end

/-! ## Stripping -/

theorem strippedAll_eq_map (ts : List Tree) : strippedAll ts = ts.map stripped := by
  induction ts with
  | nil => rfl
  | cons t ts ih => rw [strippedAll, ih, List.map_cons]

/-- Trees are without captures if each of them is. -/
theorem capturesAny_eq_false_iff {ts : List Tree} :
    capturesAny ts = false ↔ ∀ t ∈ ts, t.captures = false := by
  induction ts with
  | nil => simp [capturesAny]
  | cons t ts ih => rw [capturesAny, Bool.or_eq_false_iff, ih, List.forall_mem_cons]

/-- Stripping changes no trees if it changes none of them. -/
theorem strippedAll_eq_self {ts : List Tree} (each : ∀ t ∈ ts, t.stripped = t) :
    strippedAll ts = ts := by
  rw [strippedAll_eq_map, List.map_congr_left each, List.map_id']

/-- Stripping changes nothing in a tree without captures. -/
theorem stripped_of_not_captures {t : Tree} (none : t.captures = false) : t.stripped = t := by
  induction t with
  | repetition span bounds greedy body ih =>
    rw [captures] at none
    rw [stripped, ih none]
  | group span kind body ih =>
    cases kind with
    | plain flags =>
      rw [captures] at none
      rw [stripped, ih none]
      rfl
    | capture index => cases none
    | named index name => cases none
  | alternation span branches ih =>
    rw [captures, capturesAny_eq_false_iff] at none
    rw [stripped, strippedAll_eq_self fun t mem => ih t mem (none t mem)]
  | concat span items ih =>
    rw [captures, capturesAny_eq_false_iff] at none
    rw [stripped, strippedAll_eq_self fun t mem => ih t mem (none t mem)]
  | _ => rfl

/-- Trees are inside the dialect if each of them is. -/
theorem checkDialectAll_eq_ok_iff {ts : List Tree} :
    checkDialectAll ts = .ok () ↔ ∀ t ∈ ts, t.checkDialect = .ok () := by
  induction ts with
  | nil => simp [checkDialectAll]
  | cons t ts ih =>
    rw [checkDialectAll, List.forall_mem_cons, ← ih]
    exact bind_eq_ok_iff.trans ⟨fun ⟨_, first, rest⟩ => ⟨first, rest⟩, fun both => ⟨(), both⟩⟩

/-- A tree of the dialect is one without its captures, too. -/
theorem checkDialect_stripped {t : Tree} (passes : t.checkDialect = .ok ()) :
    t.stripped.checkDialect = .ok () := by
  induction t with
  | repetition span bounds greedy body ih =>
    rw [checkDialect] at passes
    rw [stripped, checkDialect]
    exact ih passes
  | group span kind body ih =>
    cases kind with
    | plain flags =>
      rw [checkDialect] at passes
      obtain ⟨_, allowed, inner⟩ := bind_eq_ok_iff.mp passes
      rw [stripped, GroupKind.stripped, checkDialect]
      exact bind_eq_ok_iff.mpr ⟨(), allowed, ih inner⟩
    | capture index => exact ih passes
    | named index name => exact ih passes
  | alternation span branches ih =>
    rw [checkDialect, checkDialectAll_eq_ok_iff] at passes
    rw [stripped, checkDialect, checkDialectAll_eq_ok_iff, strippedAll_eq_map, List.forall_mem_map]
    exact fun t mem => ih t mem (passes t mem)
  | concat span items ih =>
    rw [checkDialect, checkDialectAll_eq_ok_iff] at passes
    rw [stripped, checkDialect, checkDialectAll_eq_ok_iff, strippedAll_eq_map, List.forall_mem_map]
    exact fun t mem => ih t mem (passes t mem)
  | _ => exact passes

/-- How the meanings of a tree and of its stripped form compare. -/
structure Mirrors (t : Tree) (m : Modes) (e d : Expr) : Prop where
  sense : t.Ordered → ∀ hay, e.sense hay = d.sense hay
  outline : t.Stands m → e.outline = d.outline

/-- An expression mirrors itself. -/
theorem Mirrors.refl (t : Tree) (m : Modes) (e : Expr) : t.Mirrors m e e :=
  ⟨fun _ _ => rfl, fun _ => rfl⟩

/-- The meanings of trees and of their stripped forms compare item by item, and leave the same modes
behind. -/
theorem meanings_stripped {ts : List Tree}
    (each : ∀ t ∈ ts, ∀ m e m', t.meaning m = .ok (e, m') →
      ∃ d, t.stripped.meaning m = .ok (d, m') ∧ t.Mirrors m e d)
    {m m' : Modes} {es : List Expr} (meant : meanings ts m = .ok (es, m')) :
    ∃ ds, meanings (strippedAll ts) m = .ok (ds, m') ∧
      ((∀ t ∈ ts, t.Ordered) → ∀ hay, es.map (Expr.sense hay) = ds.map (Expr.sense hay)) ∧
      (StandsAll ts m → List.Forall₂ (fun e d => e.outline = d.outline) es ds) := by
  induction ts generalizing m es with
  | nil =>
    rw [meanings] at meant
    cases meant
    exact ⟨[], rfl, fun _ _ => rfl, fun _ => .nil⟩
  | cons t ts ih =>
    obtain ⟨e, m₁, rest, first, others, rfl⟩ := meanings_cons_iff.mp meant
    rw [List.forall_mem_cons] at each
    obtain ⟨d, bare, mirrors⟩ := each.1 m e m₁ first
    obtain ⟨ds, bares, senses, outlines⟩ := ih each.2 others
    refine ⟨d :: ds, ?_, fun ordered hay => ?_, fun stands => ?_⟩
    · rw [strippedAll]
      exact meanings_cons_iff.mpr ⟨d, m₁, ds, bare, bares, rfl⟩
    · rw [List.forall_mem_cons] at ordered
      rw [List.map_cons, List.map_cons, mirrors.sense ordered.1 hay, senses ordered.2 hay]
    · rw [StandsAll, ← modes_of_meaning first] at stands
      exact .cons (mirrors.outline stands.1) (outlines stands.2)

/-- The nodes of the meanings of trees are those of a text. -/
theorem nodeText_meanings {ts : List Tree} {m m' : Modes} {es : List Expr}
    (meant : meanings ts m = .ok (es, m')) : ∀ e ∈ es, e.Each Expr.NodeText :=
  forall_meanings (fun _ _ _ _ _ meant => (each_text meant).mono fun _ => And.left) meant

/-- A tree that has a meaning has one without its captures, of the same sense. -/
theorem meaning_stripped {t : Tree} {m m' : Modes} {e : Expr} (meant : t.meaning m = .ok (e, m')) :
    ∃ d, t.stripped.meaning m = .ok (d, m') ∧ t.Mirrors m e d := by
  induction t generalizing m m' e with
  | repetition span bounds greedy body ih =>
    obtain ⟨inner, found, rfl⟩ := meaning_repetition_iff.mp meant
    obtain ⟨d, bare, mirrors⟩ := ih found
    refine ⟨Expr.ofRepetition bounds.min bounds.max (greedy != m'.swapGreed) d, ?_, ?_, ?_⟩
    · rw [stripped]
      exact meaning_repetition_iff.mpr ⟨d, bare, rfl⟩
    · intro ordered hay
      rw [Ordered, Tree.bounds, List.forall_mem_cons] at ordered
      exact Expr.sense_ofRepetition ordered.1 _ (mirrors.sense ordered.2 hay)
    · exact fun stands => Expr.outline_ofRepetition _ _ _ (mirrors.outline stands)
  | group span kind body ih =>
    obtain ⟨inner, m₁, found, rfl, rfl⟩ := meaning_group_iff.mp meant
    obtain ⟨d, bare, mirrors⟩ := ih found
    refine ⟨d, ?_, fun ordered hay => ?_, fun stands => ?_⟩
    · rw [stripped]
      cases kind <;> exact meaning_group_iff.mpr ⟨d, m₁, bare, rfl, rfl⟩
    · rw [← mirrors.sense ordered hay]
      cases kind <;> first | exact Expr.sense_capture _ _ _ | rfl
    · rw [← mirrors.outline stands]
      cases kind <;> first | exact Expr.outline_capture _ _ _ | rfl
  | alternation span branches ih =>
    have whole := meant
    obtain ⟨es, found, rfl⟩ := meaning_alternation_iff.mp meant
    obtain ⟨ds, bares, senses, outlines⟩ := meanings_stripped (fun t mem _ _ _ => ih t mem) found
    have bare : (Tree.alternation span branches).stripped.meaning m =
        .ok (Expr.ofAlternation ds, m') := by
      rw [stripped]
      exact meaning_alternation_iff.mpr ⟨ds, bares, rfl⟩
    refine ⟨Expr.ofAlternation ds, bare, fun ordered hay => ?_, fun stands => ?_⟩
    · have each : ∀ t ∈ branches, t.Ordered :=
        fun t mem b inner => ordered b (mem_boundsAll mem inner)
      rw [Expr.sense_ofAlternation (nodeText_meanings found),
        Expr.sense_ofAlternation (nodeText_meanings bares), senses each hay]
    · rw [Stands] at stands
      rcases stands with none | ⟨kept, keptBare, each⟩
      · have same : (Tree.alternation span branches).stripped = .alternation span branches :=
          stripped_of_not_captures none
        rw [same, whole] at bare
        rw [(Prod.mk.inj (Except.ok.inj bare)).1]
      · rw [kept es _ found, keptBare ds _ bares]
        exact Expr.outline_alternation (outlines each)
  | concat span items ih =>
    obtain ⟨es, found, rfl⟩ := meaning_concat_iff.mp meant
    obtain ⟨ds, bares, senses, outlines⟩ := meanings_stripped (fun t mem _ _ _ => ih t mem) found
    refine ⟨Expr.ofConcat ds, ?_, fun ordered hay => ?_, fun stands => ?_⟩
    · rw [stripped]
      exact meaning_concat_iff.mpr ⟨ds, bares, rfl⟩
    · have each : ∀ t ∈ items, t.Ordered :=
        fun t mem b inner => ordered b (mem_boundsAll mem inner)
      rw [Expr.sense_ofConcat (nodeText_meanings found),
        Expr.sense_ofConcat (nodeText_meanings bares), senses each hay]
    · have each : es.map Expr.outline = ds.map Expr.outline := by
        rw [← List.forall₂_eq_eq_eq, List.forall₂_map_left_iff, List.forall₂_map_right_iff]
        exact outlines stands
      rw [Expr.sequential_outline.ofConcat (nodeText_meanings found),
        Expr.sequential_outline.ofConcat (nodeText_meanings bares), each]
  | _ => exact ⟨e, meant, .refl _ _ _⟩

/-! ## Standing with and without captures -/

/-- Whether a tree is solid does not depend on its captures. -/
theorem isSolid_stripped (t : Tree) : t.stripped.isSolid = t.isSolid := by
  induction t with
  | repetition span bounds greedy body ih => rw [stripped, isSolid, ih, isSolid]
  | group span kind body ih => rw [stripped, isSolid, ih, isSolid]
  | _ => rfl

/-- Whether a tree is a choice does not depend on its captures. -/
theorem isSingle_stripped (t : Tree) : t.stripped.isSingle = t.isSingle := by
  induction t with
  | repetition span bounds greedy body ih => rw [stripped, isSingle, ih, isSingle]
  | group span kind body ih => rw [stripped, isSingle, ih, isSingle]
  | concat span items =>
    rw [stripped, isSingle, isSingle, strippedAll_eq_map, List.any_map]
    exact congrArg items.any (funext isSolid_stripped)
  | _ => rfl

/-- Trees in sequence leave the same modes behind without their captures, if each tree does. -/
theorem modesAfterAll_strippedAll {ts : List Tree}
    (each : ∀ t ∈ ts, ∀ m, t.stripped.modesAfter m = t.modesAfter m) (m : Modes) :
    modesAfterAll (strippedAll ts) m = modesAfterAll ts m := by
  induction ts generalizing m with
  | nil => rfl
  | cons t ts ih =>
    rw [List.forall_mem_cons] at each
    rw [strippedAll, modesAfterAll, each.1, ih each.2, modesAfterAll]

/-- Stripping keeps the modes after a tree. -/
theorem modesAfter_stripped (t : Tree) (m : Modes) : t.stripped.modesAfter m = t.modesAfter m := by
  induction t generalizing m with
  | repetition span bounds greedy body ih => rw [stripped, modesAfter, ih, modesAfter]
  | alternation span branches ih =>
    rw [stripped, modesAfter, modesAfterAll_strippedAll ih, modesAfter]
  | concat span items ih => rw [stripped, modesAfter, modesAfterAll_strippedAll ih, modesAfter]
  | _ => rfl

/-- Whether a tree is a character that stands for itself does not depend on its captures. -/
theorem isSpelled_stripped (m : Modes) (t : Tree) : t.stripped.isSpelled m = t.isSpelled m := by
  cases t <;> rfl

/-- Whether a tree stands alone does not depend on its captures. -/
theorem isAlone_stripped (t : Tree) (m : Modes) : t.stripped.isAlone m = t.isAlone m := by
  induction t generalizing m with
  | group span kind body ih =>
    have inside : m.inside kind.stripped = m.inside kind := by cases kind <;> rfl
    rw [stripped, isAlone, inside, ih, isAlone]
  | concat span items =>
    rw [stripped, isAlone, isAlone, strippedAll_eq_map, List.all_map, List.length_map]
    exact congrArg (_ && items.all ·) (funext (isSpelled_stripped m))
  | _ => rfl

/-- Whether one of the branches stands alone does not depend on captures. -/
theorem anyAlone_strippedAll (ts : List Tree) (m : Modes) :
    anyAlone (strippedAll ts) m = anyAlone ts m := by
  induction ts generalizing m with
  | nil => rfl
  | cons t ts ih =>
    rw [strippedAll, anyAlone, isAlone_stripped, modesAfter_stripped, ih, anyAlone]

/-- What the test finds of a sequence holds of it, if it does so for each of its trees. -/
theorem standsAll_of_choicesStandAll {ts : List Tree}
    (each : ∀ t ∈ ts, ∀ m, t.choicesStand m = true → t.Stands m) {m : Modes}
    (stand : choicesStandAll ts m = true) : StandsAll ts m := by
  induction ts generalizing m with
  | nil => trivial
  | cons t ts ih =>
    rw [List.forall_mem_cons] at each
    rw [choicesStandAll, Bool.and_eq_true] at stand
    exact ⟨each.1 m stand.1, ih each.2 stand.2⟩

/-- What is seen in the pattern decides: where no branch is a choice and one stands alone, an
alternation stands as it is written, with its captures and without them. -/
theorem stands_of_choicesStand {t : Tree} {m : Modes} (stand : t.choicesStand m = true) :
    t.Stands m := by
  induction t generalizing m with
  | repetition span bounds greedy body ih =>
    rw [choicesStand] at stand
    exact ih stand
  | group span kind body ih =>
    rw [choicesStand] at stand
    exact ih stand
  | alternation span branches ih =>
    rw [choicesStand, Bool.or_eq_true, Bool.not_eq_true'] at stand
    rw [Stands]
    refine stand.imp id fun apart => ?_
    simp only [Bool.and_eq_true, decide_eq_true_eq, List.all_eq_true] at apart
    obtain ⟨⟨⟨several, single⟩, alone⟩, inner⟩ := apart
    refine ⟨standing_of_anyAlone several single alone, standing_of_anyAlone ?_ ?_ ?_,
      standsAll_of_choicesStandAll (fun t mem _ => ih t mem) inner⟩
    · rw [strippedAll_eq_map, List.length_map]
      exact several
    · rw [strippedAll_eq_map, List.forall_mem_map]
      intro t mem
      rw [isSingle_stripped]
      exact single t mem
    · rw [anyAlone_strippedAll]
      exact alone
  | concat span items ih =>
    rw [choicesStand] at stand
    exact standsAll_of_choicesStandAll (fun t mem _ => ih t mem) stand
  | _ => trivial

/-! ## The sense of a stripped pattern -/

/-- The bounds of trees do not depend on captures, if those of each tree do not. -/
theorem boundsAll_strippedAll {ts : List Tree} (each : ∀ t ∈ ts, t.stripped.bounds = t.bounds) :
    boundsAll (strippedAll ts) = boundsAll ts := by
  rw [strippedAll_eq_map, boundsAll_eq_flatMap, boundsAll_eq_flatMap, List.flatMap_map]
  exact List.flatMap_congr each

/-- Stripping keeps the bounds of repetitions. -/
theorem bounds_stripped (t : Tree) : t.stripped.bounds = t.bounds := by
  induction t with
  | repetition span bounds greedy body ih => rw [stripped, Tree.bounds, ih, Tree.bounds]
  | group span kind body ih => rw [stripped, Tree.bounds, ih, Tree.bounds]
  | alternation span branches ih =>
    rw [stripped, Tree.bounds, boundsAll_strippedAll ih, Tree.bounds]
  | concat span items ih => rw [stripped, Tree.bounds, boundsAll_strippedAll ih, Tree.bounds]
  | _ => rfl

end Tree

/-- Valid expressions of one sense have programs that accept at the same places. -/
theorem Expr.accepts_iff_of_sense {a b : Expr} (validA : a.Each NodeValid)
    (validB : b.Each NodeValid) {hay : Haystack} (same : a.sense hay = b.sense hay) {stop : Nat}
    (inside : stop ≤ hay.bytes.length) (kept kept' : Bool) :
    Accepts (a.instructions kept) hay stop ↔ Accepts (b.instructions kept') hay stop := by
  have spans : Matches hay a = Matches hay b := congrArg Sense.spans same
  rw [a.accepts_iff kept validA inside, b.accepts_iff kept' validB inside, spans]

namespace Settings

/-- A tree of the dialect that has a meaning has one without its captures, too. With captures
suppressed, the two have the same program, or are both refused, if every alternation that holds
captures stands as it is written, which can be seen in the tree. In any case, if bounds are in
order, their programs are anchored alike and accept at the same places. -/
theorem program_stripped (t : Tree) (accepted : t.checkDialect = .ok ()) (m m' : Modes) (e : Expr)
    (meant : t.meaning m = .ok (e, m')) :
    t.stripped.checkDialect = .ok () ∧ ∃ d, t.stripped.meaning m = .ok (d, m') ∧
      (t.choicesStand m = true ∨ t.Stands m → ∀ s : Settings, s.neverCapture = true →
        (s.program e).mapError s.refusalOf = (s.program d).mapError s.refusalOf) ∧
      (t.Ordered → (e.leadsWith .start = d.leadsWith .start) ∧
        ∀ (s s' : Settings) (p q : Program), s.program e = .ok p → s'.program d = .ok q →
          ∀ (hay : Haystack) (stop : Nat), stop ≤ hay.bytes.length →
            (Accepts p.code hay stop ↔ Accepts q.code hay stop)) := by
  obtain ⟨d, bare, mirrors⟩ := Tree.meaning_stripped meant
  refine ⟨Tree.checkDialect_stripped accepted, d, bare, fun stands s never => ?_, fun ordered => ?_⟩
  · have outline := mirrors.outline (stands.elim Tree.stands_of_choicesStand id)
    exact program_eq_of_outline never outline
  · have orderedBare : t.stripped.Ordered := by rwa [Tree.Ordered, Tree.bounds_stripped]
    have valid := (Tree.each_text meant).mono fun _ node => node.2 ordered
    have validBare := (Tree.each_text bare).mono fun _ node => node.2 orderedBare
    refine ⟨?_, fun s s' p q compiled compiledBare hay stop inside => ?_⟩
    · have hay : Haystack := ⟨[], fun _ i => i = 0, fun _ => Iff.rfl⟩
      have leads : (e.leadsWith .start = true) = (d.leadsWith .start = true) :=
        congrArg Sense.leads (mirrors.sense ordered hay)
      rw [Bool.eq_iff_iff, leads]
    · rw [code_of_program compiled, code_of_program compiledBare]
      exact Expr.accepts_iff_of_sense valid validBare (mirrors.sense ordered hay) inside _ _

/-- The pattern `^(?:(foo)|ba+)+` captures in a branch of its choice, which has a text in it. It has
the same program, or is refused in the same way, without the capture, and both are anchored. -/
theorem program_stripped_text :
    let here := Span.empty .start
    let text (cs : List Char) : Tree := .concat here (cs.map (.literal here))
    let choice : Tree := .alternation here [.group here (.capture 1) (text ['f', 'o', 'o']),
      .concat here [.literal here 'b', .repetition here ⟨1, none⟩ true (.literal here 'a')]]
    let t : Tree := .concat here [.assertion here .startLine,
      .repetition here ⟨1, none⟩ true (.group here (.plain []) choice)]
    t.checkDialect = .ok () ∧ t.choicesStand {} = true ∧ t.Ordered ∧
      ∃ e m, t.meaning {} = .ok (e, m) ∧ ∃ d, t.stripped.meaning {} = .ok (d, m) ∧
        (∀ s : Settings, s.neverCapture = true →
          (s.program e).mapError s.refusalOf = (s.program d).mapError s.refusalOf) ∧
        e.leadsWith .start = d.leadsWith .start := by
  intro here text choice t
  have accepted : t.checkDialect = .ok () := rfl
  have stand : t.choicesStand {} = true := rfl
  obtain ⟨e, m, meant⟩ : ∃ e m, t.meaning {} = .ok (e, m) := ⟨_, _, rfl⟩
  obtain ⟨-, d, bare, same, alike⟩ := program_stripped t accepted {} m e meant
  have ordered : t.Ordered := by decide
  exact ⟨accepted, stand, ordered, e, m, meant, d, bare, same (.inl stand), (alike ordered).1⟩

/-- The pattern `(a)|b` captures in a branch of a choice between characters. Its program is a choice
of eight instructions and 136 bytes, and that of the stripped pattern is a class, in five
instructions and 82 bytes. In a budget of 100 bytes only the second one fits. -/
theorem program_stripped_inside :
    let here := Span.empty .start
    let t : Tree := .alternation here
      [.group here (.capture 1) (.literal here 'a'), .literal here 'b']
    let s : Settings := {}
    let small : Settings := { maxMemory := 150 }
    t.checkDialect = .ok () ∧ ∃ e d m, t.meaning s.modes = .ok (e, m) ∧
      t.stripped.meaning s.modes = .ok (d, m) ∧
      (s.program e).map (fun p => (p.code.length, p.memory)) = .ok (8, 136) ∧
      (s.program d).map (fun p => (p.code.length, p.memory)) = .ok (5, 82) ∧
      (small.program e).mapError small.refusalOf = .error (.tooLarge 150) ∧
      (small.program d).map (fun p => (p.code.length, p.memory)) = .ok (5, 82) :=
  ⟨rfl, _, _, _, rfl, rfl, by decide +kernel, by decide +kernel, by decide +kernel,
    by decide +kernel⟩

end Settings

end PatternGate
