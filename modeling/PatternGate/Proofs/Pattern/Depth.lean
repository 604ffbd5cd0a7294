import PatternGate.Proofs.Expr.Height
import PatternGate.Proofs.Pattern.Nesting
import PatternGate.Proofs.Pattern.Reading

/-!
# How high expressions get under a bound on nesting

The bound on nesting counts levels of the tree, and lowering goes down the expression. The two do
not agree: an alternation of sequences that start alike is two levels of the tree, and lifting the
start makes three nodes of it. Put into a group, the same can be done again inside one of the
branches, so that three levels can cost four nodes.

More than that is not to be had, since the reader never puts a sequence or an alternation directly
into a sequence, nor an alternation into an alternation (`Tree.Shaped`). From this,
`Tree.Shaped.fits` bounds the height of an expression by the levels of its tree, with `heightBound`
for a whole pattern.
-/

namespace PatternGate

/-! ## The shape of what is read -/

/-- The places that trees stand in: items of a sequence, branches of an alternation, and whole
patterns or bodies of groups. -/
inductive Rank where
  | item
  | branch
  | whole

/-- The tree has no trees inside. -/
def Tree.isLeaf : Tree → Bool
  | .empty _ | .flags _ _ | .literal _ _ | .dot _ | .assertion _ _ | .property _ _ _ | .letter _ _ _
  | .bracket _ _ _ => true
  | .repetition _ _ _ _ | .group _ _ _ | .alternation _ _ | .concat _ _ => false

/-- Trees that can stand in a place. -/
inductive Tree.Shaped : Rank → Tree → Prop
  | leaf {t : Tree} (leaf : t.isLeaf = true) : Shaped .item t
  | repetition {span : Span} {bounds : Bounds} {greedy : Bool} {body : Tree}
      (shaped : Shaped .item body) : Shaped .item (.repetition span bounds greedy body)
  | group {span : Span} {kind : GroupKind} {body : Tree} (shaped : Shaped .whole body) :
      Shaped .item (.group span kind body)
  | branch {t : Tree} (shaped : Shaped .item t) : Shaped .branch t
  | concat {span : Span} {items : List Tree} (shaped : ∀ t ∈ items, Shaped .item t) :
      Shaped .branch (.concat span items)
  | whole {t : Tree} (shaped : Shaped .branch t) : Shaped .whole t
  | alternation {span : Span} {branches : List Tree} (shaped : ∀ t ∈ branches, Shaped .branch t) :
      Shaped .whole (.alternation span branches)

/-- All items of a sequence are items. -/
def Sequence.Shaped (s : Sequence) : Prop := ∀ t ∈ s.items, Tree.Shaped .item t

theorem Sequence.Shaped.push {s : Sequence} {t : Tree} (shaped : s.Shaped)
    (item : Tree.Shaped .item t) : (s.push t).Shaped :=
  List.forall_mem_cons.mpr ⟨item, shaped⟩

theorem Sequence.Shaped.toTree {s : Sequence} (shaped : s.Shaped) (stop : Position) :
    Tree.Shaped .branch (s.toTree stop) := by
  obtain ⟨start, items⟩ := s
  match items with
  | [] => exact .branch (.leaf rfl)
  | [t] => exact .branch (shaped t List.mem_cons_self)
  | t :: u :: rest => exact .concat fun v mem => shaped v (List.mem_reverse.mp mem)

/-- What is open holds trees that can stand there. -/
def Frame.Shaped : Frame → Prop
  | .alternation _ branches => ∀ t ∈ branches, Tree.Shaped .branch t
  | .group outer _ _ _ => outer.Shaped

namespace Reader

/-- All that was read can stand where it is. -/
def Shaped (r : Reader) : Prop := r.current.Shaped ∧ ∀ frame ∈ r.stack, frame.Shaped

theorem Inner.shaped {r : Reader} {t : Tree} {around : List Frame} (inner : r.Inner t around)
    (shaped : r.Shaped) : Tree.Shaped .whole t ∧ ∀ frame ∈ around, frame.Shaped := by
  obtain ⟨current, stack⟩ := shaped
  have last := current.toTree r.cursor.pos
  cases inner with
  | sequence top => exact ⟨.whole last, top ▸ stack⟩
  | choice top =>
    rw [top, List.forall_mem_cons] at stack
    refine ⟨.alternation fun t mem => ?_, stack.2⟩
    rcases List.mem_cons.mp (List.mem_reverse.mp mem) with rfl | mem
    · exact last
    · exact stack.1 t mem

theorem shaped_branch {r : Reader} (shaped : r.Shaped) : r.branch.Shaped := by
  obtain ⟨current, stack⟩ := shaped
  have last := current.toTree r.cursor.pos
  refine ⟨fun t mem => absurd mem List.not_mem_nil, ?_⟩
  unfold branch
  dsimp only
  split
  next start branches rest top =>
    rw [top, List.forall_mem_cons] at stack
    exact List.forall_mem_cons.mpr ⟨List.forall_mem_cons.mpr ⟨last, stack.1⟩, stack.2⟩
  next =>
    exact List.forall_mem_cons.mpr ⟨List.forall_mem_singleton.mpr last, stack⟩

theorem kept_shaped : Kept Shaped where
  skip _ _ _ shaped := shaped
  step r r' ch rest _ step shaped := by
    have none (p : Position) : (Sequence.empty p).Shaped := fun t mem => absurd mem List.not_mem_nil
    cases step with
    | directive => exact ⟨shaped.1.push (.leaf rfl), shaped.2⟩
    | plain | capture => exact ⟨none _, List.forall_mem_cons.mpr shaped⟩
    | close inner =>
      obtain ⟨body, around⟩ := inner.shaped shaped
      rw [List.forall_mem_cons] at around
      exact ⟨Sequence.Shaped.push around.1 (.group body), around.2⟩
    | branch => exact shaped_branch shaped
    | bracket => exact ⟨shaped.1.push (.leaf rfl), shaped.2⟩
    | repetition last =>
      have items := shaped.1
      rw [Sequence.Shaped, last, List.forall_mem_cons] at items
      exact ⟨List.forall_mem_cons.mpr ⟨.repetition items.1, items.2⟩, shaped.2⟩
    | @primitive item _ _ =>
      have leaf : item.toTree.isLeaf = true := by cases item <;> rfl
      exact ⟨shaped.1.push (.leaf leaf), shaped.2⟩

end Reader

/-- The reader puts no sequence and no alternation into a sequence, and no alternation into an
alternation. -/
theorem Tree.shaped_of_parse {pattern : String} {t : Tree} (parsed : Tree.parse pattern = .ok t) :
    t.Shaped .whole := by
  have start : (Reader.ofString pattern).Shaped :=
    ⟨fun t mem => absurd mem List.not_mem_nil, fun frame mem => absurd mem List.not_mem_nil⟩
  obtain ⟨r, shaped, inner⟩ := Reader.kept_shaped.of_parse start parsed
  exact (inner.shaped shaped).1

/-! ## The greatest height -/

/-- The greatest height of the expression of a pattern, by its levels: four nodes for every three of
them. -/
def heightBound (levels : Nat) : Nat := levels + (levels + 1) / 3 + 1

/-- How high the expression of a tree can be, by the place of the tree and its levels. A sequence is
less high in a place where its items may go to a sequence around it, or where its start may be
lifted. -/
def Rank.Fits (levels : Nat) (e : Expr) : Rank → Prop
  | .item => e.height ≤ levels + levels / 3 + 1 ∧
      (e.isConcat = true → e.height ≤ levels + levels / 3)
  | .branch => e.height ≤ heightBound levels ∧
      (e.isConcat = true → e.height + 2 ≤ heightBound (levels + 1))
  | .whole => e.height ≤ heightBound levels

theorem Rank.fits_leaf {levels : Nat} {e : Expr} (leaf : e.isLeaf = true) :
    Rank.item.Fits levels e := by
  refine ⟨?_, fun concat => ?_⟩
  · rw [Expr.height_of_isLeaf leaf]
    exact Nat.succ_le_succ (Nat.zero_le _)
  · cases e with
    | concat => cases leaf
    | _ => cases concat

/-- The meaning of a tree without trees inside has no parts. -/
theorem Tree.isLeaf_meaning {t : Tree} (leaf : t.isLeaf = true) {m m' : Modes} {e : Expr}
    (meant : t.meaning m = .ok (e, m')) : e.isLeaf = true := by
  cases t with
  | empty | flags | assertion =>
    rw [meaning] at meant
    cases meant
    rfl
  | literal span c =>
    rw [meaning] at meant
    cases meant
    unfold Modes.literal
    split
    · exact Expr.isLeaf_ofChars _
    · rfl
  | dot span =>
    rw [meaning] at meant
    cases meant
    unfold Modes.dot
    split <;> exact Expr.isLeaf_ofChars _
  | property | bracket =>
    rw [meaning] at meant
    obtain ⟨set, -, meant⟩ := bind_eq_ok_iff.mp meant
    cases meant
    exact Expr.isLeaf_ofChars _
  | letter =>
    rw [meaning] at meant
    cases meant
    exact Expr.isLeaf_ofChars _
  | repetition | group | alternation | concat => cases leaf

/-- The expression of a tree is as high as the place and the levels of the tree allow. -/
theorem Tree.Shaped.fits {rank : Rank} {t : Tree} (shaped : t.Shaped rank) {m m' : Modes}
    {e : Expr} (meant : t.meaning m = .ok (e, m')) : rank.Fits t.levels e := by
  induction shaped generalizing m m' e with
  | leaf leaf => exact Rank.fits_leaf (Tree.isLeaf_meaning leaf meant)
  | @repetition span bounds greedy body _ ih =>
    obtain ⟨inner, found, rfl⟩ := meaning_repetition_iff.mp meant
    obtain ⟨below, -⟩ := ih found
    obtain ⟨added, kept⟩ :=
      Expr.height_ofRepetition bounds.min bounds.max (greedy != m'.swapGreed) inner
    rw [levels]
    refine ⟨by omega, fun concat => ?_⟩
    rw [kept concat]
    omega
  | @group span kind body _ ih =>
    obtain ⟨inner, m₁, found, rfl, rfl⟩ := meaning_group_iff.mp meant
    have below : inner.height ≤ heightBound body.levels := ih found
    unfold heightBound at below
    rw [levels]
    cases kind with
    | plain => exact ⟨Nat.le_trans below (by omega), fun _ => Nat.le_trans below (by omega)⟩
    | capture | named =>
      refine ⟨Nat.succ_le_succ (Nat.le_trans below (by omega)), fun concat => ?_⟩
      cases concat
  | branch _ ih =>
    obtain ⟨below, concat⟩ := ih meant
    unfold Rank.Fits heightBound
    refine ⟨by omega, fun sequence => ?_⟩
    have below := concat sequence
    omega
  | @concat span items _ ih =>
    obtain ⟨es, found, rfl⟩ := meaning_concat_iff.mp meant
    have each : ∀ e ∈ es, e.height ≤ levelsAll items + levelsAll items / 3 + 1 := by
      refine forall_meanings (fun t mem m e m' meant => ?_) found
      have below := (ih t mem meant).1
      have deep := levelsAll_le_iff.mp (Nat.le_refl _) t mem
      have third : t.levels / 3 ≤ levelsAll items / 3 := Nat.div_le_div_right deep
      omega
    have joined := Expr.height_ofConcat each
    unfold Rank.Fits heightBound
    rw [levels]
    exact ⟨by omega, fun _ => by omega⟩
  | whole _ ih => exact (ih meant).1
  | @alternation span branches _ ih =>
    obtain ⟨es, found, rfl⟩ := meaning_alternation_iff.mp meant
    obtain ⟨n, bound⟩ : ∃ n, heightBound (levelsAll branches + 1) = n + 2 :=
      ⟨levelsAll branches + (levelsAll branches + 2) / 3, by unfold heightBound; omega⟩
    have each : ∀ e ∈ es, e.height ≤ n + 1 ∧ (e.isConcat = true → e.height ≤ n) := by
      refine forall_meanings (fun t mem m e m' meant => ?_) found
      obtain ⟨below, concat⟩ := ih t mem meant
      have deep := levelsAll_le_iff.mp (Nat.le_refl _) t mem
      unfold heightBound at bound below concat
      refine ⟨by omega, fun sequence => ?_⟩
      have below := concat sequence
      omega
    show _ ≤ heightBound (levelsAll branches + 1)
    rw [bound]
    exact Expr.height_ofAlternation (fun e mem => (each e mem).1) fun e mem => (each e mem).2

namespace Settings

/-- No expression of a pattern is higher than the bound on nesting in force allows. -/
theorem height_le_heightBound {s : Settings} {decoded : String} {e : Expr}
    (found : s.expression decoded = .ok e) :
    e.height ≤ heightBound s.effectiveNestLimit.toNat := by
  obtain ⟨t, m, read, -, meant⟩ := expression_eq_ok_iff.mp found
  obtain ⟨parsed, within⟩ := Tree.parseWithin_eq_ok_iff.mp read
  have below : e.height ≤ heightBound t.levels := (Tree.shaped_of_parse parsed).fits meant
  unfold heightBound at below ⊢
  omega

end Settings

end PatternGate
