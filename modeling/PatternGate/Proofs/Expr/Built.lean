import PatternGate.Expr.Build
import PatternGate.Proofs.Expr.Nodes

/-!
# What building expressions keeps

The functions that build expressions flatten, join and lift, so that the parts of a result are not
the parts of what it was built from. Every new node comes about in one of a few ways, and a
condition on nodes that holds in each of them is stable: it holds at every node of a result if it
holds at every node of the arguments (`Each.ofConcat`, `Each.ofAlternation`, `Each.ofRepetition`).

`Built` are the expressions made by these functions alone. An alternation among their nodes is a
real choice (`Built.each_wide`).
-/

namespace PatternGate.Expr

variable {P : Expr → Prop}

/-- The expression has no parts. -/
def isLeaf : Expr → Bool
  | .empty | .literal _ | .chars _ | .bytes _ | .look _ => true
  | .repetition _ _ _ _ | .capture _ _ _ | .concat _ | .alternation _ => false

/-- A leaf satisfies a condition at every node if it satisfies it. -/
theorem each_leaf_iff {e : Expr} (leaf : e.isLeaf = true) : e.Each P ↔ P e := by
  cases e <;> simp_all [isLeaf, Each, nodes]

theorem isLeaf_ofBytes (bs : List UInt8) : (ofBytes bs).isLeaf = true := by
  unfold ofBytes
  split <;> rfl

theorem isLeaf_ofChars (set : RangeSet) : (ofChars set).isLeaf = true := by
  unfold ofChars
  split
  · rfl
  · split
    · split <;> rfl
    · rfl

theorem isLeaf_ofByteSet (set : RangeSet) : (ofByteSet set).isLeaf = true := by
  unfold ofByteSet
  split
  · rfl
  · split <;> rfl

/-- The four ways to write an alternation as one class, in the order in which they are tried. -/
theorem ofAlternatives?_cases {es : List Expr} {e : Expr} (written : ofAlternatives? es = some e) :
    (∃ cs, es.mapM char? = some cs ∧ e = ofChars (RangeSet.ofRanges (cs.map Range.single))) ∨
    (es.mapM char? = none ∧ ∃ bs, es.mapM byte? = some bs ∧
      e = ofByteSet (RangeSet.ofRanges (bs.map Range.single))) ∨
    (∃ sets, es.mapM charSet? = some sets ∧ e = ofChars (unionAll sets)) ∨
    (es.mapM charSet? = none ∧ ∃ sets, es.mapM byteSet? = some sets ∧
      e = ofByteSet (unionAll sets)) := by
  unfold ofAlternatives? at written
  cases chars : es.mapM char? with
  | some cs =>
    rw [chars] at written
    cases written
    exact .inl ⟨cs, rfl, rfl⟩
  | none =>
    cases bytes : es.mapM byte? with
    | some bs =>
      rw [chars, bytes] at written
      cases written
      exact .inr (.inl ⟨rfl, bs, rfl, rfl⟩)
    | none =>
      cases charSets : es.mapM charSet? with
      | some sets =>
        rw [chars, bytes, charSets] at written
        cases written
        exact .inr (.inr (.inl ⟨sets, rfl, rfl⟩))
      | none =>
        rw [chars, bytes, charSets] at written
        obtain ⟨sets, found, rfl⟩ := Option.map_eq_some_iff.mp written
        exact .inr (.inr (.inr ⟨rfl, sets, found, rfl⟩))

theorem isLeaf_ofAlternatives? {es : List Expr} {e : Expr}
    (written : ofAlternatives? es = some e) : e.isLeaf = true := by
  rcases ofAlternatives?_cases written with
    ⟨_, -, rfl⟩ | ⟨-, _, -, rfl⟩ | ⟨_, -, rfl⟩ | ⟨-, _, -, rfl⟩
  · exact isLeaf_ofChars _
  · exact isLeaf_ofByteSet _
  · exact isLeaf_ofChars _
  · exact isLeaf_ofByteSet _

/-- A condition on nodes that holds of whatever node comes about when expressions are put in a
sequence or an alternation. -/
structure Stable (P : Expr → Prop) : Prop where
  empty : P .empty
  fail : P .fail
  literal : ∀ a b, P (.literal a) → P (.literal b) → P (.literal (a ++ b))
  concat : ∀ items, P (.concat items)
  alternation : ∀ branches, 2 ≤ branches.length → P (.alternation branches)
  alternatives : ∀ es e, (∀ d ∈ es, P d) → ofAlternatives? es = some e → P e

theorem Each.items {e : Expr} (each : e.Each P) : ∀ d ∈ e.items, d.Each P := by
  cases e with
  | concat items => exact (Each.concat_iff.mp each).2
  | _ => simpa [Expr.items] using each

theorem Each.branches {e : Expr} (each : e.Each P) : ∀ d ∈ e.branches, d.Each P := by
  cases e with
  | alternation branches => exact (Each.alternation_iff.mp each).2
  | _ => simpa [Expr.branches] using each

section Sequences

variable (stable : Stable P)
include stable

theorem Each.consItem {e : Expr} {es : List Expr} (head : e.Each P) (rest : ∀ d ∈ es, d.Each P) :
    ∀ d ∈ consItem e es, d.Each P := by
  fun_cases Expr.consItem e es with
  | case1 => exact rest
  | case2 a b tail =>
    rw [List.forall_mem_cons] at rest ⊢
    refine ⟨(each_leaf_iff rfl).mpr (stable.literal a b head.self rest.1.self), rest.2⟩
  | case3 => exact List.forall_mem_cons.mpr ⟨head, rest⟩

theorem Each.flatItems {es : List Expr} (each : ∀ e ∈ es, e.Each P) :
    ∀ d ∈ flatItems es, d.Each P := by
  have flat : ∀ d ∈ es.flatMap Expr.items, d.Each P :=
    List.forall_mem_flatMap.mpr fun e mem => (each e mem).items
  unfold Expr.flatItems
  generalize es.flatMap Expr.items = items at flat ⊢
  induction items with
  | nil => simp
  | cons e items ih =>
    rw [List.forall_mem_cons] at flat
    exact Each.consItem stable flat.1 (ih flat.2)

/-- A stable condition holds at every node of a sequence. -/
theorem Each.ofConcat {es : List Expr} (each : ∀ e ∈ es, e.Each P) : (ofConcat es).Each P := by
  have flat := Each.flatItems stable each
  unfold Expr.ofConcat
  split
  next => exact (each_leaf_iff rfl).mpr stable.empty
  next e items =>
    rw [items] at flat
    exact flat e List.mem_cons_self
  next => exact Each.concat_iff.mpr ⟨stable.concat _, flat⟩

/-- A stable condition holds at every node of a choice, if it holds at what may be chosen
instead. -/
theorem Each.choose {otherwise? : List Expr → Option Expr}
    (kept : ∀ es e, (∀ d ∈ es, d.Each P) → otherwise? es = some e → e.Each P) {es : List Expr}
    (each : ∀ e ∈ es, e.Each P) : (choose otherwise? es).Each P := by
  have flat : ∀ d ∈ es.flatMap Expr.branches, d.Each P :=
    List.forall_mem_flatMap.mpr fun e mem => (each e mem).branches
  unfold Expr.choose
  split
  next => exact (each_leaf_iff rfl).mpr stable.fail
  next e branches =>
    rw [branches] at flat
    exact flat e List.mem_cons_self
  next none one =>
    generalize es.flatMap Expr.branches = branches at flat none one ⊢
    cases classes : ofAlternatives? branches with
    | some e =>
      refine (each_leaf_iff (isLeaf_ofAlternatives? classes)).mpr ?_
      exact stable.alternatives branches e (fun d mem => (flat d mem).self) classes
    | none =>
      cases other : otherwise? branches with
      | some e => exact kept branches e flat other
      | none =>
        refine Each.alternation_iff.mpr ⟨stable.alternation branches ?_, flat⟩
        match branches, none, one with
        | [], none, _ => exact absurd rfl none
        | [e], _, one => exact absurd rfl (one e)
        | _ :: _ :: _, _, _ => simp

end Sequences

/-- What is found in each of several expressions says as much as the expressions do. -/
theorem map_eq_of_mapM {β γ : Type} {f : Expr → Option β} {g : Expr → γ} {h : β → γ}
    {es : List Expr} {found : List β} (all : es.mapM f = some found)
    (each : ∀ e ∈ es, ∀ b, f e = some b → g e = h b) : es.map g = found.map h := by
  induction es generalizing found with
  | nil =>
    cases all
    rfl
  | cons e es ih =>
    rw [List.mapM_cons] at all
    obtain ⟨b, first, rest⟩ := Option.bind_eq_some_iff.mp all
    obtain ⟨others, tail, pure⟩ := Option.bind_eq_some_iff.mp rest
    cases pure
    rw [List.forall_mem_cons] at each
    rw [List.map_cons, List.map_cons, each.1 b first, ih tail each.2]

section SharedStart

/-- Expressions that compare as the same are equal. -/
theorem eq_of_same {a b : Expr} (equal : same a b = true) : a = b := by
  induction a generalizing b with
  | empty => cases b <;> simp_all [same]
  | literal bs => cases b <;> simp_all [same]
  | chars set => cases b <;> simp_all [same]
  | bytes set => cases b <;> simp_all [same]
  | look l => cases b <;> simp_all [same]
  | repetition min max greedy body ih =>
    cases b with
    | repetition _ _ _ other =>
      simp only [same, Bool.and_eq_true, beq_iff_eq] at equal
      obtain ⟨⟨⟨rfl, rfl⟩, rfl⟩, body⟩ := equal
      rw [ih body]
    | _ => simp [same] at equal
  | capture index name body ih =>
    cases b with
    | capture _ _ other =>
      simp only [same, Bool.and_eq_true, beq_iff_eq] at equal
      obtain ⟨⟨rfl, rfl⟩, body⟩ := equal
      rw [ih body]
    | _ => simp [same] at equal
  | concat items ih =>
    cases b with
    | concat others => rw [all ih (by simpa [same] using equal)]
    | _ => simp [same] at equal
  | alternation branches ih =>
    cases b with
    | alternation others => rw [all ih (by simpa [same] using equal)]
    | _ => simp [same] at equal
where
  all {as bs : List Expr} (each : ∀ a ∈ as, ∀ {b}, same a b = true → a = b)
      (equal : sameAll as bs = true) : as = bs := by
    induction as generalizing bs with
    | nil => cases bs <;> simp_all [sameAll]
    | cons a as ih =>
      cases bs with
      | nil => simp [sameAll] at equal
      | cons b bs =>
        simp only [sameAll, Bool.and_eq_true] at equal
        rw [each a List.mem_cons_self equal.1,
          ih (fun a mem => each a (List.mem_cons_of_mem _ mem)) equal.2]

theorem take_eq_of_le_commonLength {n : Nat} {as bs : List Expr} (le : n ≤ commonLength as bs) :
    as.take n = bs.take n := by
  induction n generalizing as bs with
  | zero => rfl
  | succ n ih =>
    fun_cases commonLength as bs with
    | case1 a as b bs equal =>
      rw [commonLength, if_pos equal] at le
      rw [List.take_succ_cons, List.take_succ_cons, eq_of_same equal,
        ih (Nat.le_of_succ_le_succ le)]
    | case2 a as b bs differ =>
      rw [commonLength, if_neg differ] at le
      omega
    | case3 =>
      rw [commonLength] at le
      · omega
      · assumption

theorem foldl_min_le {length : List Expr → Nat} (n : Nat) (rest : List (List Expr)) :
    rest.foldl (fun n es => Nat.min n (length es)) n ≤ n ∧
      ∀ es ∈ rest, rest.foldl (fun n es => Nat.min n (length es)) n ≤ length es := by
  induction rest generalizing n with
  | nil => simp
  | cons es rest ih =>
    obtain ⟨below, each⟩ := ih (Nat.min n (length es))
    rw [List.foldl_cons, List.forall_mem_cons]
    exact ⟨Nat.le_trans below (Nat.min_le_left _ _),
      Nat.le_trans below (Nat.min_le_right _ _), each⟩

/-- All sequences have their common start in common. -/
theorem take_commonLengthAll {sequences : List (List Expr)} :
    ∀ es ∈ sequences,
      es.take (commonLengthAll sequences) =
        (sequences.headD []).take (commonLengthAll sequences) := by
  cases sequences with
  | nil => simp
  | cons first rest =>
    rw [List.forall_mem_cons]
    refine ⟨rfl, fun es mem => (take_eq_of_le_commonLength ?_).symm⟩
    exact (foldl_min_le first.length rest).2 es mem

/-- Branches with a shared start are that start before each of the rests. -/
theorem eq_map_of_sharedStart? {es start : List Expr} {rests : List (List Expr)}
    (shared : sharedStart? es = some (start, rests)) :
    rests ≠ [] ∧ es = rests.map fun rest => .concat (start ++ rest) := by
  unfold sharedStart? at shared
  obtain ⟨sequences, all, rest⟩ := Option.bind_eq_some_iff.mp shared
  dsimp only at rest
  split at rest
  next => cases rest
  next some =>
    cases rest
    constructor
    · rintro none
      rw [List.map_eq_nil_iff] at none
      exact some (by rw [none, commonLengthAll])
    · have concats : es.map id = sequences.map Expr.concat := by
        refine map_eq_of_mapM all fun e _ items found => ?_
        cases e <;> simp_all [concatItems?]
      rw [List.map_id] at concats
      rw [concats, List.map_map]
      refine List.map_congr_left fun items mem => ?_
      rw [Function.comp_apply, ← take_commonLengthAll items mem, List.take_append_drop]

end SharedStart

/-- The nodes of a shared start and of the rests are nodes of the branches. -/
theorem each_of_sharedStart? {es start : List Expr} {rests : List (List Expr)}
    (shared : sharedStart? es = some (start, rests)) (each : ∀ d ∈ es, d.Each P) :
    (∀ d ∈ start, d.Each P) ∧ ∀ rest ∈ rests, ∀ d ∈ rest, d.Each P := by
  obtain ⟨nonempty, rfl⟩ := eq_map_of_sharedStart? shared
  have parts : ∀ rest ∈ rests, ∀ d ∈ start ++ rest, d.Each P := by
    intro rest mem
    exact (Each.concat_iff.mp (each _ (List.mem_map_of_mem mem))).2
  obtain ⟨first, mem⟩ := List.exists_mem_of_ne_nil rests nonempty
  exact ⟨fun d found => parts first mem d (List.mem_append_left _ found),
    fun rest mem d found => parts rest mem d (List.mem_append_right _ found)⟩

/-- A stable condition holds at every node of what is lifted out of an alternation. -/
theorem Each.liftShared? (stable : Stable P) (es : List Expr) (e : Expr)
    (each : ∀ d ∈ es, d.Each P) (lifted : liftShared? es = some e) : e.Each P := by
  obtain ⟨⟨start, rests⟩, shared, rfl⟩ := Option.map_eq_some_iff.mp lifted
  obtain ⟨inStart, inRests⟩ := each_of_sharedStart? shared each
  refine Each.ofConcat stable (List.forall_mem_append.mpr ⟨inStart, ?_⟩)
  rw [List.forall_mem_singleton]
  refine Each.choose stable (fun _ _ _ none => by cases none) ?_
  rw [List.forall_mem_map]
  exact fun rest mem => Each.ofConcat stable (inRests rest mem)

/-- A stable condition holds at every node of an alternation. -/
theorem Each.ofAlternation (stable : Stable P) {es : List Expr} (each : ∀ e ∈ es, e.Each P) :
    (ofAlternation es).Each P :=
  Each.choose stable (Each.liftShared? stable) each

/-- What becomes of a repetition depends on its body only in whether the body matches no byte. If it
stays a repetition, then bounds in order stay in order and let it happen. -/
theorem ofRepetition_cases (min : Nat) (max : Option Nat) (greedy once : Bool) :
    (∀ body, (body.maxLength == some 0) = once → ofRepetition min max greedy body = .empty) ∨
    (∀ body, (body.maxLength == some 0) = once → ofRepetition min max greedy body = body) ∨
    ∃ min' max', ((∀ m ∈ max, min ≤ m) → (∀ m ∈ max', min' ≤ m) ∧ max' ≠ some 0) ∧
      ∀ body, (body.maxLength == some 0) = once →
        ofRepetition min max greedy body = .repetition min' max' greedy body := by
  let min' := if once then Nat.min min 1 else min
  let max' := if once then some (max.elim 1 (Nat.min · 1)) else max
  have shape : ∀ body, (body.maxLength == some 0) = once →
      ofRepetition min max greedy body =
        if min' = 0 ∧ max' = some 0 then .empty
        else if min' = 1 ∧ max' = some 1 then body
        else .repetition min' max' greedy body := by
    rintro body rfl
    rfl
  by_cases never : min' = 0 ∧ max' = some 0
  · exact .inl fun body zero => by rw [shape body zero, if_pos never]
  · by_cases single : min' = 1 ∧ max' = some 1
    · exact .inr (.inl fun body zero => by rw [shape body zero, if_neg never, if_pos single])
    · refine .inr (.inr ⟨min', max', fun ordered => ?_, fun body zero => ?_⟩)
      · have within : ∀ m ∈ max', min' ≤ m := by
          cases once with
          | false => exact ordered
          | true =>
            intro m bound
            obtain rfl : max.elim 1 (Nat.min · 1) = m := Option.some.inj bound
            cases max with
            | none => exact Nat.min_le_right min 1
            | some k =>
              have le := Nat.le_trans (Nat.min_le_left min 1) (ordered k rfl)
              exact Nat.le_min.mpr ⟨le, Nat.min_le_right min 1⟩
        exact ⟨within, fun none => never ⟨Nat.le_zero.mp (within 0 none), none⟩⟩
      · rw [shape body zero, if_neg never, if_neg single]

/-- A condition that holds of the empty expression and of repetitions holds at every node of a
repetition. -/
theorem Each.ofRepetition (empty : P .empty) {min : Nat} {max : Option Nat} {greedy : Bool}
    {body : Expr} (here : ∀ min max, P (.repetition min max greedy body)) (each : body.Each P) :
    (ofRepetition min max greedy body).Each P := by
  rcases ofRepetition_cases min max greedy _ with none | one | ⟨_, _, -, some⟩
  · rw [none body rfl]
    exact (each_leaf_iff rfl).mpr empty
  · rw [one body rfl]
    exact each
  · rw [some body rfl]
    exact Each.repetition_iff.mpr ⟨here _ _, each⟩

/-- The expressions that the building functions make. -/
inductive Built : Expr → Prop
  | empty : Built .empty
  | literal (bytes : List UInt8) : Built (ofBytes bytes)
  | chars (set : RangeSet) : Built (ofChars set)
  | bytes (set : RangeSet) : Built (ofByteSet set)
  | look (l : Look) : Built (.look l)
  | repetition (min : Nat) (max : Option Nat) (greedy : Bool) {body : Expr} (built : Built body) :
    Built (ofRepetition min max greedy body)
  | capture (index : Nat) (name : Option String) {body : Expr} (built : Built body) :
    Built (.capture index name body)
  | concat {items : List Expr} (built : ∀ e ∈ items, Built e) : Built (ofConcat items)
  | alternation {branches : List Expr} (built : ∀ e ∈ branches, Built e) :
    Built (ofAlternation branches)

/-- An alternation chooses between two branches at least. -/
def NodeWide : Expr → Prop
  | .alternation branches => 2 ≤ branches.length
  | _ => True

/-- A leaf is no alternation. -/
theorem nodeWide_of_isLeaf {e : Expr} (leaf : e.isLeaf = true) : e.NodeWide := by
  cases e <;> trivial

theorem stable_nodeWide : Stable NodeWide where
  empty := trivial
  fail := trivial
  literal _ _ _ _ := trivial
  concat _ := trivial
  alternation _ two := two
  alternatives _ _ _ written := nodeWide_of_isLeaf (isLeaf_ofAlternatives? written)

/-- Every alternation in a built expression is a real choice. -/
theorem Built.each_wide {e : Expr} (built : Built e) : e.Each NodeWide := by
  have leaf : ∀ {d : Expr}, d.isLeaf = true → d.Each NodeWide :=
    fun leaf => (each_leaf_iff leaf).mpr (nodeWide_of_isLeaf leaf)
  induction built with
  | empty => exact leaf rfl
  | literal bytes => exact leaf (isLeaf_ofBytes bytes)
  | chars set => exact leaf (isLeaf_ofChars set)
  | bytes set => exact leaf (isLeaf_ofByteSet set)
  | look l => exact leaf rfl
  | repetition min max greedy _ ih => exact Each.ofRepetition trivial (fun _ _ => trivial) ih
  | capture index name _ ih => exact Each.capture_iff.mpr ⟨trivial, ih⟩
  | concat _ ih => exact Each.ofConcat stable_nodeWide ih
  | alternation _ ih => exact Each.ofAlternation stable_nodeWide ih

end PatternGate.Expr
