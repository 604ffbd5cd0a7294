import PatternGate.Proofs.Validator.Outcome

/-!
# What a bound on nesting decides

A pattern has a number of levels, and whether it passes a bound on nesting is a comparison with that
number: `Tree.checkNesting_within` reads the check, which walks the tree and stops at the first
level too deep, as `levels ≤ limit`. The number belongs to the pattern and not to the bound, so a
bound splits patterns in two. Those with more levels are refused for their nesting, and for the
others the bound might as well not be there: reading, the dialect, the meaning and the program never
see it. `Settings.compile_nestLimit` says this of two bounds at once. What it does not say is where
in the pattern the refusal points.
-/

namespace PatternGate

/-! ## Levels -/

mutual

/-- The greatest number of levels that stand inside one another in a class. -/
def ClassTree.levels : ClassTree → Nat
  | .bracket _ _ body => body.levels + 1
  | .union _ items => ClassTree.levelsAll items + 1
  | .binary _ _ lhs rhs => max lhs.levels rhs.levels + 1
  | .empty _ | .literal _ _ | .range _ _ _ | .ascii _ _ _ | .property _ _ _ | .letter _ _ _ => 0

/-- The greatest number of levels in one of several classes. -/
def ClassTree.levelsAll : List ClassTree → Nat
  | [] => 0
  | t :: ts => max t.levels (ClassTree.levelsAll ts)

end

mutual

/-- The greatest number of levels that stand inside one another in a pattern. -/
def Tree.levels : Tree → Nat
  | .bracket _ _ body => body.levels + 1
  | .repetition _ _ _ body => body.levels + 1
  | .group _ _ body => body.levels + 1
  | .alternation _ branches => Tree.levelsAll branches + 1
  | .concat _ items => Tree.levelsAll items + 1
  | .empty _ | .flags _ _ | .literal _ _ | .dot _ | .assertion _ _ | .property _ _ _
  | .letter _ _ _ => 0

/-- The greatest number of levels in one of several patterns. -/
def Tree.levelsAll : List Tree → Nat
  | [] => 0
  | t :: ts => max t.levels (Tree.levelsAll ts)

end

theorem Tree.levelsAll_le_iff {ts : List Tree} {n : Nat} :
    Tree.levelsAll ts ≤ n ↔ ∀ t ∈ ts, t.levels ≤ n := by
  induction ts with
  | nil => simp [Tree.levelsAll]
  | cons t ts ih => rw [Tree.levelsAll, Nat.max_le, ih, List.forall_mem_cons]

/-! ## The check -/

/-- The check of a part whose deepest level is number `reach` passes if the limit is as great, and
names the limit otherwise. -/
structure NestChecked (limit reach : Nat) (check : Except Fault Unit) : Prop where
  passes : reach ≤ limit → check = .ok ()
  refuses : limit < reach → ∃ span, check = .error ⟨.nestLimitExceeded limit, span⟩

namespace NestChecked

variable {limit depth a b : Nat} {x y : Except Fault Unit}

theorem leaf (room : depth ≤ limit) : NestChecked limit (depth + 0) (.ok ()) where
  passes _ := rfl
  refuses beyond := absurd room (Nat.not_le_of_gt beyond)

/-- A level and what stands inside it, which is checked only if the level is not too deep. -/
theorem enter (span : Span) (inside : depth + 1 ≤ limit → NestChecked limit (depth + 1 + a) x) :
    NestChecked limit (depth + (a + 1)) (enterLevel limit depth span >>= fun _ => x) := by
  have reach : depth + (a + 1) = depth + 1 + a := by omega
  rw [reach]
  by_cases room : depth < limit
  · have entered : enterLevel limit depth span = .ok () := if_pos room
    rw [entered]
    exact inside room
  · have refused : enterLevel limit depth span = .error ⟨.nestLimitExceeded limit, span⟩ :=
      if_neg room
    rw [refused]
    exact ⟨fun within => by omega, fun _ => ⟨span, rfl⟩⟩

/-- Parts side by side: the first refusal is the answer. -/
theorem both (first : NestChecked limit (depth + a) x) (second : NestChecked limit (depth + b) y) :
    NestChecked limit (depth + max a b) (x >>= fun _ => y) := by
  by_cases within : depth + a ≤ limit
  · rw [first.passes within]
    exact ⟨fun reach => second.passes (by omega), fun beyond => second.refuses (by omega)⟩
  · obtain ⟨span, refused⟩ := first.refuses (Nat.lt_of_not_le within)
    rw [refused]
    exact ⟨fun reach => by omega, fun _ => ⟨span, rfl⟩⟩

end NestChecked

mutual

theorem ClassTree.checkNesting_within {limit depth : Nat} :
    (t : ClassTree) → depth ≤ limit →
      NestChecked limit (depth + t.levels) (t.checkNesting limit depth)
  | .empty _, room | .literal _ _, room | .range _ _ _, room | .ascii _ _ _, room
  | .property _ _ _, room | .letter _ _ _, room => by
    simp only [ClassTree.checkNesting, ClassTree.levels]
    exact .leaf room
  | .bracket span _ body, _ => by
    simp only [ClassTree.checkNesting, ClassTree.levels]
    exact .enter span fun room => ClassTree.checkNesting_within body room
  | .union span items, _ => by
    simp only [ClassTree.checkNesting, ClassTree.levels]
    exact .enter span fun room => ClassTree.checkNestingAll_within items room
  | .binary span _ lhs rhs, _ => by
    simp only [ClassTree.checkNesting, ClassTree.levels]
    refine .enter span fun room => ?_
    exact (ClassTree.checkNesting_within lhs room).both (ClassTree.checkNesting_within rhs room)

theorem ClassTree.checkNestingAll_within {limit depth : Nat} :
    (ts : List ClassTree) → depth ≤ limit →
      NestChecked limit (depth + ClassTree.levelsAll ts) (ClassTree.checkNestingAll limit ts depth)
  | [], room => .leaf room
  | t :: ts, room => by
    simp only [ClassTree.checkNestingAll, ClassTree.levelsAll]
    exact (ClassTree.checkNesting_within t room).both (ClassTree.checkNestingAll_within ts room)

end

namespace Tree

theorem checkNestingAll_within {limit depth : Nat} {ts : List Tree} (room : depth ≤ limit)
    (each : ∀ t ∈ ts, NestChecked limit (depth + t.levels) (t.checkNesting limit depth)) :
    NestChecked limit (depth + levelsAll ts) (checkNestingAll limit ts depth) := by
  induction ts with
  | nil => exact .leaf room
  | cons t ts ih =>
    rw [List.forall_mem_cons] at each
    rw [checkNestingAll, levelsAll]
    exact each.1.both (ih each.2)

/-- A part of a pattern passes the check exactly if its levels fit below those around it. -/
theorem checkNesting_within {limit depth : Nat} (t : Tree) (room : depth ≤ limit) :
    NestChecked limit (depth + t.levels) (t.checkNesting limit depth) := by
  induction t generalizing depth with
  | empty | flags | literal | dot | assertion | property | letter =>
    rw [checkNesting, levels]
    exact .leaf room
  | bracket span negated body =>
    rw [checkNesting, levels]
    exact .enter span fun room => body.checkNesting_within room
  | repetition span bounds greedy body ih =>
    rw [checkNesting, levels]
    exact .enter span fun room => ih room
  | group span kind body ih =>
    rw [checkNesting, levels]
    exact .enter span fun room => ih room
  | alternation span branches ih =>
    rw [checkNesting, levels]
    exact .enter span fun room => checkNestingAll_within room fun t mem => ih t mem room
  | concat span items ih =>
    rw [checkNesting, levels]
    exact .enter span fun room => checkNestingAll_within room fun t mem => ih t mem room

theorem checkNesting_root (limit : Nat) (t : Tree) :
    NestChecked limit t.levels (t.checkNesting limit 0) := by
  have checked := t.checkNesting_within (Nat.zero_le limit)
  rwa [Nat.zero_add] at checked

/-- A pattern is read under a bound exactly if it can be read at all and has no more levels. -/
theorem parseWithin_eq_ok_iff {limit : Nat} {pattern : String} {t : Tree} :
    parseWithin limit pattern = .ok t ↔ parse pattern = .ok t ∧ t.levels ≤ limit := by
  rw [parseWithin, bind_eq_ok_iff]
  constructor
  · rintro ⟨_, parsed, rest⟩
    obtain ⟨_, checked, same⟩ := bind_eq_ok_iff.mp rest
    cases same
    refine ⟨parsed, Nat.le_of_not_lt fun beyond => ?_⟩
    obtain ⟨span, refused⟩ := (checkNesting_root limit t).refuses beyond
    rw [refused] at checked
    cases checked
  · rintro ⟨parsed, within⟩
    exact ⟨t, parsed, bind_eq_ok_iff.mpr ⟨(), (checkNesting_root limit t).passes within, rfl⟩⟩

/-- Under a smaller bound a pattern is refused for its nesting, or nothing changes. -/
theorem parseWithin_of_le {small large : Nat} (le : small ≤ large) (pattern : String) :
    (∃ span, parseWithin small pattern = .error ⟨.nestLimitExceeded small, span⟩) ∨
      parseWithin small pattern = parseWithin large pattern := by
  cases parsed : parse pattern with
  | error fault =>
    -- What cannot be read is refused before its levels are counted.
    refine .inr ?_
    rw [parseWithin, parseWithin, parsed]
    rfl
  | ok t =>
    by_cases within : t.levels ≤ small
    · refine .inr ?_
      rw [parseWithin_eq_ok_iff.mpr ⟨parsed, within⟩,
        parseWithin_eq_ok_iff.mpr ⟨parsed, Nat.le_trans within le⟩]
    · obtain ⟨span, refused⟩ := (checkNesting_root small t).refuses (Nat.lt_of_not_le within)
      refine .inl ⟨span, ?_⟩
      rw [parseWithin, parsed]
      show (t.checkNesting small 0 >>= fun _ => _) = _
      rw [refused]
      rfl

end Tree

/-! ## Compiling under two bounds -/

namespace Settings

/-- The settings with another bound on nesting. -/
def withNestLimit (s : Settings) (n : UInt32) : Settings := { s with nestLimit := n }

/-- The bound on nesting bears on nothing but reading the pattern. -/
theorem compile_of_parseWithin {s : Settings} {n m : UInt32} {pattern : String}
    (alike : Tree.parseWithin (s.withNestLimit n).effectiveNestLimit.toNat (Latin1.decode pattern) =
      Tree.parseWithin (s.withNestLimit m).effectiveNestLimit.toNat (Latin1.decode pattern)) :
    (s.withNestLimit n).compile pattern = (s.withNestLimit m).compile pattern := by
  have gate : (s.withNestLimit n).tree (Latin1.decode pattern) =
      (s.withNestLimit m).tree (Latin1.decode pattern) := by
    rw [tree, tree, alike]
  have modes : (s.withNestLimit n).modes = (s.withNestLimit m).modes := rfl
  have found : (s.withNestLimit n).expression (Latin1.decode pattern) =
      (s.withNestLimit m).expression (Latin1.decode pattern) := by
    rw [expression, expression, gate, modes]
  have lowered : (s.withNestLimit n).watchProgram = (s.withNestLimit m).watchProgram := rfl
  have raised : (s.withNestLimit n).event? = (s.withNestLimit m).event? := rfl
  have blamed : (s.withNestLimit n).refusalOf = (s.withNestLimit m).refusalOf := rfl
  have told : (s.withNestLimit n).refusal pattern = (s.withNestLimit m).refusal pattern := rfl
  unfold compile
  rw [found, lowered, raised, blamed, told]

/-- A pattern that cannot be read under the bound in force is refused with that fault. -/
theorem result_of_unreadable {s : Settings} {pattern : String} {fault : Fault}
    (unread : Tree.parseWithin s.effectiveNestLimit.toNat (Latin1.decode pattern) = .error fault) :
    (s.compile pattern).result = .error (.unreadable fault) := by
  exact (result_eq_error_iff rfl).mpr (expression_eq_error_iff.mpr (.inl ⟨fault, unread, rfl⟩))

theorem effectiveNestLimit_withNestLimit (s : Settings) (n : UInt32) :
    (s.withNestLimit n).effectiveNestLimit.toNat = min n.toNat 1000 := by
  show (min n nestLimitMax).toNat = _
  rw [UInt32.toNat_min]
  rfl

theorem effectiveNestLimit_mono (s : Settings) {n m : UInt32} (le : n ≤ m) :
    (s.withNestLimit n).effectiveNestLimit.toNat ≤
      (s.withNestLimit m).effectiveNestLimit.toNat := by
  have le : n.toNat ≤ m.toNat := UInt32.le_iff_toNat_le.mp le
  rw [effectiveNestLimit_withNestLimit, effectiveNestLimit_withNestLimit]
  omega

/-- All bounds from the greatest one on are in force as that one. -/
theorem effectiveNestLimit_of_ge (s : Settings) {n : UInt32} (above : nestLimitMax ≤ n) :
    (s.withNestLimit n).effectiveNestLimit.toNat = 1000 := by
  have above : 1000 ≤ n.toNat := UInt32.le_iff_toNat_le.mp above
  rw [effectiveNestLimit_withNestLimit]
  omega

/-- Under the smaller of two bounds a pattern is refused for its nesting, or compiled alike. -/
theorem compile_of_le (s : Settings) (pattern : String) {n m : UInt32} (le : n ≤ m) :
    (∃ span, ((s.withNestLimit n).compile pattern).result =
      .error (.unreadable
        ⟨.nestLimitExceeded (s.withNestLimit n).effectiveNestLimit.toNat, span⟩)) ∨
    (s.withNestLimit n).compile pattern = (s.withNestLimit m).compile pattern := by
  rcases Tree.parseWithin_of_le (s.effectiveNestLimit_mono le) (Latin1.decode pattern) with
    ⟨span, refused⟩ | alike
  · exact .inl ⟨span, result_of_unreadable refused⟩
  · exact .inr (compile_of_parseWithin alike)

/-- A smaller bound on nesting can only turn an outcome into a refusal for nesting, which names the
bound in force. So a pattern that is compiled stays so, with the same program, when the bound is
raised; and from the greatest bound that is honoured on, raising it changes nothing. -/
theorem compile_nestLimit (s : Settings) (pattern : String) :
    (∀ n m : UInt32, n ≤ m →
      (∃ span, ((s.withNestLimit n).compile pattern).result =
        .error (.unreadable
          ⟨.nestLimitExceeded (s.withNestLimit n).effectiveNestLimit.toNat, span⟩)) ∨
      (s.withNestLimit n).compile pattern = (s.withNestLimit m).compile pattern) ∧
    (∀ n m : UInt32, n ≤ m → ∀ p, ((s.withNestLimit n).compile pattern).result = .ok p →
      ((s.withNestLimit m).compile pattern).result = .ok p) ∧
    (∀ n m : UInt32, nestLimitMax ≤ n → nestLimitMax ≤ m →
      (s.withNestLimit n).compile pattern = (s.withNestLimit m).compile pattern) := by
  refine ⟨fun n m le => s.compile_of_le pattern le, fun n m le p compiled => ?_,
    fun n m above above' => ?_⟩
  · rcases s.compile_of_le pattern le with ⟨span, refused⟩ | same
    · cases refused.symm.trans compiled
    · exact (congrArg Compilation.result same).symm.trans compiled
  · have capped := (s.effectiveNestLimit_of_ge above).trans (s.effectiveNestLimit_of_ge above').symm
    exact compile_of_parseWithin (congrArg (Tree.parseWithin · (Latin1.decode pattern)) capped)

/-- The pattern `((a))` has two levels. It is refused under a bound of one, and compiled to the same
program under every bound from two on. -/
theorem compile_nestLimit_groups :
    let s : Settings := {}
    let pattern := "((a))"
    let p : Program := ⟨[.fork2 3 1, .consumeAny, .jump 0, .consume 0x61, .accept], 80, 0⟩
    (∃ span, ((s.withNestLimit 1).compile pattern).result =
      .error (.unreadable ⟨.nestLimitExceeded 1, span⟩)) ∧
      ((2 : UInt32) ≤ 5 ∧ ((s.withNestLimit 2).compile pattern).result = .ok p) ∧
      ((s.withNestLimit 5).compile pattern).result = .ok p ∧
      (nestLimitMax ≤ 1000 ∧ nestLimitMax ≤ 4000) ∧
      (s.withNestLimit 1000).compile pattern = (s.withNestLimit 4000).compile pattern := by
  intro s pattern p
  have compiled : ((s.withNestLimit 2).compile pattern).result = .ok p := by decide +kernel
  have refused : ((s.withNestLimit 1).compile pattern).result ≠ .ok p := by decide +kernel
  refine ⟨?_, ⟨by decide, compiled⟩, ?_, by decide, ?_⟩
  · exact ((compile_nestLimit s pattern).1 1 2 (by decide)).resolve_right
      fun same => refused ((congrArg Compilation.result same).trans compiled)
  · exact (compile_nestLimit s pattern).2.1 2 5 (by decide) p compiled
  · exact (compile_nestLimit s pattern).2.2 1000 4000 (by decide) (by decide)

end Settings

end PatternGate
