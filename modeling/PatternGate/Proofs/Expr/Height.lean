import PatternGate.Proofs.Expr.Built

/-!
# The height of an expression

The height is the number of nodes on the longest way from an expression to a leaf, so it is how deep
a function that calls itself on the parts of an expression gets. The building functions flatten
sequences and alternations and join leaves, none of which makes an expression higher than its parts
allow. Only one of them can: lifting what all branches start with turns branches that are sequences
into a sequence that holds an alternation of sequences, two nodes higher than the branches were
(`height_liftShared?`). An alternation is one node higher than its branches otherwise
(`height_ofAlternation`).
-/

namespace PatternGate.Expr

mutual

/-- The number of nodes on the longest way to a leaf. -/
def height : Expr → Nat
  | .empty | .literal _ | .chars _ | .bytes _ | .look _ => 1
  | .repetition _ _ _ body => body.height + 1
  | .capture _ _ body => body.height + 1
  | .concat items => heightAll items + 1
  | .alternation branches => heightAll branches + 1

/-- The height of the highest of several expressions. -/
def heightAll : List Expr → Nat
  | [] => 0
  | e :: es => max e.height (heightAll es)

end

theorem heightAll_le_iff {es : List Expr} {n : Nat} :
    heightAll es ≤ n ↔ ∀ e ∈ es, e.height ≤ n := by
  induction es with
  | nil => simp [heightAll]
  | cons e es ih => rw [heightAll, Nat.max_le, ih, List.forall_mem_cons]

theorem height_le_heightAll {e : Expr} {es : List Expr} (mem : e ∈ es) :
    e.height ≤ heightAll es :=
  heightAll_le_iff.mp (Nat.le_refl _) e mem

theorem height_of_isLeaf {e : Expr} (leaf : e.isLeaf = true) : e.height = 1 := by
  cases e <;> first | rfl | cases leaf

theorem height_pos (e : Expr) : 0 < e.height := by
  cases e <;> simp [height]

/-- The items that an expression brings to a sequence are no higher than it is. -/
theorem height_items {d e : Expr} (mem : d ∈ e.items) : d.height ≤ e.height := by
  cases e with
  | concat items => exact Nat.le_succ_of_le (height_le_heightAll mem)
  | _ => exact Nat.le_of_eq (congrArg height (List.mem_singleton.mp mem))

/-- The branches that an expression brings to an alternation are its own, which are lower, or the
expression itself. -/
theorem height_branches {d e : Expr} (mem : d ∈ e.branches) : d.height < e.height ∨ d = e := by
  cases e with
  | alternation branches => exact .inl (Nat.lt_succ_of_le (height_le_heightAll mem))
  | _ => exact .inr (List.mem_singleton.mp mem)

variable {n : Nat}

theorem height_consItem {e : Expr} {es : List Expr} (head : e.height ≤ n)
    (rest : ∀ d ∈ es, d.height ≤ n) : ∀ d ∈ consItem e es, d.height ≤ n := by
  fun_cases consItem e es with
  | case1 => exact rest
  | case2 a b tail =>
    rw [List.forall_mem_cons] at rest ⊢
    exact ⟨head, rest.2⟩
  | case3 => exact List.forall_mem_cons.mpr ⟨head, rest⟩

theorem height_flatItems {es : List Expr} (each : ∀ e ∈ es, e.height ≤ n) :
    ∀ d ∈ flatItems es, d.height ≤ n := by
  have flat : ∀ d ∈ es.flatMap items, d.height ≤ n :=
    List.forall_mem_flatMap.mpr fun e mem d inner => Nat.le_trans (height_items inner) (each e mem)
  unfold flatItems
  generalize es.flatMap items = all at flat ⊢
  induction all with
  | nil => simp
  | cons e all ih =>
    rw [List.forall_mem_cons] at flat
    exact height_consItem flat.1 (ih flat.2)

/-- A sequence is at most one node higher than what it is made of. -/
theorem height_ofConcat {es : List Expr} (each : ∀ e ∈ es, e.height ≤ n) :
    (ofConcat es).height ≤ n + 1 := by
  have flat := height_flatItems each
  unfold ofConcat
  split
  next => exact Nat.succ_le_succ (Nat.zero_le n)
  next e one =>
    rw [one] at flat
    exact Nat.le_succ_of_le (flat e List.mem_cons_self)
  next => exact Nat.succ_le_succ (heightAll_le_iff.mpr flat)

/-- A choice is at most one node higher than its branches, if what may be chosen instead is. -/
theorem height_choose {otherwise? : List Expr → Option Expr} {es : List Expr}
    (each : ∀ e ∈ es, e.height ≤ n)
    (kept : ∀ e, otherwise? (es.flatMap branches) = some e → e.height ≤ n + 1) :
    (choose otherwise? es).height ≤ n + 1 := by
  have flat : ∀ d ∈ es.flatMap branches, d.height ≤ n := by
    refine List.forall_mem_flatMap.mpr fun e mem d inner => ?_
    have whole := each e mem
    rcases height_branches inner with lower | rfl
    · omega
    · exact whole
  unfold choose
  split
  next => exact Nat.succ_le_succ (Nat.zero_le n)
  next e one =>
    rw [one] at flat
    exact Nat.le_succ_of_le (flat e List.mem_cons_self)
  next =>
    cases classes : ofAlternatives? (es.flatMap branches) with
    | some e =>
      refine Nat.le_trans (Nat.le_of_eq (height_of_isLeaf (isLeaf_ofAlternatives? classes))) ?_
      exact Nat.succ_le_succ (Nat.zero_le n)
    | none =>
      cases other : otherwise? (es.flatMap branches) with
      | some e => exact kept e other
      | none => exact Nat.succ_le_succ (heightAll_le_iff.mpr flat)

/-- The expression is a sequence. -/
def isConcat : Expr → Bool
  | .concat _ => true
  | _ => false

/-- Lifting what all branches start with makes an expression two nodes higher than they are. All of
them are sequences then. -/
theorem height_liftShared? {es : List Expr} {e : Expr} (lifted : liftShared? es = some e)
    (each : ∀ d ∈ es, d.isConcat = true → d.height ≤ n) : e.height ≤ n + 2 := by
  obtain ⟨⟨start, rests⟩, shared, rfl⟩ := Option.map_eq_some_iff.mp lifted
  obtain ⟨nonempty, rfl⟩ := eq_map_of_sharedStart? shared
  have parts : ∀ rest ∈ rests, ∀ d ∈ start ++ rest, d.height < n := by
    intro rest mem d part
    have whole := each _ (List.mem_map_of_mem mem) rfl
    exact Nat.lt_of_lt_of_le (Nat.lt_succ_of_le (height_le_heightAll part)) whole
  obtain ⟨m, rfl⟩ : ∃ m, n = m + 1 := by
    obtain ⟨first, mem⟩ := List.exists_mem_of_ne_nil rests nonempty
    have whole := each _ (List.mem_map_of_mem mem) rfl
    exact Nat.exists_eq_add_one_of_ne_zero (Nat.ne_of_gt (Nat.lt_of_lt_of_le (height_pos _) whole))
  have choice : (choose (fun _ => none) (rests.map ofConcat)).height ≤ m + 2 := by
    refine height_choose (List.forall_mem_map.mpr fun rest mem => ?_) nofun
    refine height_ofConcat fun d part => Nat.le_of_lt_succ ?_
    exact parts rest mem d (List.mem_append_right _ part)
  refine height_ofConcat (List.forall_mem_append.mpr ⟨fun d part => ?_, ?_⟩)
  · obtain ⟨first, mem⟩ := List.exists_mem_of_ne_nil rests nonempty
    have below := parts first mem d (List.mem_append_left _ part)
    omega
  · exact List.forall_mem_singleton.mpr choice

/-- An alternation is one node higher than its branches, and two nodes higher than those branches
that are sequences. -/
theorem height_ofAlternation {es : List Expr} (each : ∀ e ∈ es, e.height ≤ n + 1)
    (sequences : ∀ e ∈ es, e.isConcat = true → e.height ≤ n) :
    (ofAlternation es).height ≤ n + 2 := by
  refine height_choose each fun e lifted => height_liftShared? lifted fun d mem concat => ?_
  obtain ⟨e, mem, inner⟩ := List.mem_flatMap.mp mem
  rcases height_branches inner with lower | rfl
  · have whole := each e mem
    omega
  · exact sequences d mem concat

/-- A repetition is at most one node higher than its body, and a sequence only if the body is one
and stands for the repetition. -/
theorem height_ofRepetition (min : Nat) (max : Option Nat) (greedy : Bool) (body : Expr) :
    (ofRepetition min max greedy body).height ≤ body.height + 1 ∧
      ((ofRepetition min max greedy body).isConcat = true →
        ofRepetition min max greedy body = body) := by
  rcases ofRepetition_cases min max greedy _ with none | one | ⟨_, _, -, some⟩
  · rw [none body rfl]
    exact ⟨Nat.succ_le_succ (Nat.zero_le _), nofun⟩
  · rw [one body rfl]
    exact ⟨Nat.le_succ _, fun _ => rfl⟩
  · rw [some body rfl]
    exact ⟨Nat.le_refl _, nofun⟩

/-- Two sequences that start alike become their start and a choice between what is left. -/
theorem ofAlternation_lifted (set : RangeSet) {a b : Look} (differ : a ≠ b) {x : Expr}
    (alone : (∃ l, x = .look l) ∨ ∃ i name body, x = .capture i name body) :
    ofAlternation [ofConcat [.chars set, .look a, x], ofConcat [.chars set, .look b, .look a]] =
      .concat [.chars set, .alternation [.concat [.look a, x], .concat [.look b, .look a]]] := by
  have first : ofConcat [.chars set, .look a, x] = .concat [.chars set, .look a, x] := by
    rcases alone with ⟨l, rfl⟩ | ⟨i, name, body, rfl⟩ <;> rfl
  have second : ofConcat [.chars set, .look b, .look a] =
      .concat [.chars set, .look b, .look a] := rfl
  have left : ofConcat [.look a, x] = .concat [.look a, x] := by
    rcases alone with ⟨l, rfl⟩ | ⟨i, name, body, rfl⟩ <;> rfl
  have shared : sharedStart?
      [.concat [.chars set, .look a, x], .concat [.chars set, .look b, .look a]] =
        some ([.chars set], [[.look a, x], [.look b, .look a]]) := by
    simp [sharedStart?, concatItems?, commonLengthAll, commonLength, same, differ]
  have lifted : liftShared?
      [.concat [.chars set, .look a, x], .concat [.chars set, .look b, .look a]] =
        some (.concat [.chars set,
          .alternation [.concat [.look a, x], .concat [.look b, .look a]]]) := by
    rw [liftShared?, shared, Option.map_some]
    dsimp only
    rw [List.map_cons, left]
    rfl
  rw [first, second]
  show (ofAlternatives? [.concat [.chars set, .look a, x], .concat [.chars set, .look b, .look a]]
    <|> liftShared? [.concat [.chars set, .look a, x], .concat [.chars set, .look b, .look a]]).getD
      _ = _
  rw [lifted]
  rfl

end PatternGate.Expr
