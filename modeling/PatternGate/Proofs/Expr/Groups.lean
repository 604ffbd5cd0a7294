import Mathlib.Data.List.Nodup
import PatternGate.Proofs.Expr.Built

/-!
# The groups of an expression

The captures of an expression, as the list of their numbers from left to right. Building a sequence
keeps the list, whatever is flattened and joined (`groups_ofConcat`). Building an alternation keeps
it if the numbers are distinct: what two branches have in common is written once, and that cannot be
a capture then (`groups_ofAlternation`). Repeating keeps it too, unless the repetition is from no
turn to none (`groups_ofRepetition`).
-/

namespace PatternGate.Expr

mutual

/-- The numbers of the captures in an expression, from left to right. -/
def groups : Expr → List Nat
  | .repetition _ _ _ body => body.groups
  | .capture index _ body => index :: body.groups
  | .concat items => groupsAll items
  | .alternation branches => groupsAll branches
  | .empty | .literal _ | .chars _ | .bytes _ | .look _ => []

/-- The numbers of the captures in a list of expressions. -/
def groupsAll : List Expr → List Nat
  | [] => []
  | e :: es => e.groups ++ groupsAll es

end

theorem groupsAll_eq_flatMap (es : List Expr) : groupsAll es = es.flatMap groups := by
  induction es with
  | nil => rfl
  | cons e es ih => rw [groupsAll, ih, List.flatMap_cons]

theorem captureCountAll_eq {es : List Expr} (each : ∀ e ∈ es, e.captureCount = e.groups.length) :
    captureCountAll es = (groupsAll es).length := by
  induction es with
  | nil => rfl
  | cons e es ih =>
    rw [List.forall_mem_cons] at each
    rw [captureCountAll, each.1, ih each.2, groupsAll, List.length_append]

/-- The captures are counted. -/
theorem captureCount_eq (e : Expr) : e.captureCount = e.groups.length := by
  induction e with
  | empty | literal | chars | bytes | look =>
    rw [captureCount, groups]
    rfl
  | repetition min max greedy body ih => rw [captureCount, groups, ih]
  | capture index name body ih => rw [captureCount, groups, ih, List.length_cons]
  | concat items ih => rw [captureCount, groups, captureCountAll_eq ih]
  | alternation branches ih => rw [captureCount, groups, captureCountAll_eq ih]

theorem groups_of_isLeaf {e : Expr} (leaf : e.isLeaf = true) : e.groups = [] := by
  cases e <;> first | rfl | cases leaf

/-! ## Sequences -/

theorem groups_items (e : Expr) : e.items.flatMap groups = e.groups := by
  cases e with
  | concat items => exact (groupsAll_eq_flatMap items).symm
  | _ => exact List.flatMap_singleton groups _

theorem groups_consItem (e : Expr) (es : List Expr) :
    (consItem e es).flatMap groups = e.groups ++ es.flatMap groups := by
  fun_cases consItem e es with
  | case1 => rfl
  | case2 a b rest => rfl
  | case3 => rfl

/-- Building a sequence keeps the captures and their order. -/
theorem groups_ofConcat (es : List Expr) : (ofConcat es).groups = es.flatMap groups := by
  have flat : (flatItems es).flatMap groups = es.flatMap groups := by
    calc (flatItems es).flatMap groups
        = (es.flatMap items).flatMap groups := by
          unfold flatItems
          induction es.flatMap items with
          | nil => rfl
          | cons e rest ih => rw [List.foldr_cons, groups_consItem, ih, List.flatMap_cons]
      _ = es.flatMap groups := by
          rw [List.flatMap_assoc]
          exact List.flatMap_congr fun e _ => groups_items e
  rw [← flat]
  unfold ofConcat
  split
  next nothing => rw [nothing]; rfl
  next e single => rw [single]; exact (List.flatMap_singleton groups e).symm
  next => exact groupsAll_eq_flatMap _

/-! ## Alternations -/

theorem groups_branches (e : Expr) : e.branches.flatMap groups = e.groups := by
  cases e with
  | alternation branches => exact (groupsAll_eq_flatMap branches).symm
  | _ => exact List.flatMap_singleton groups _

/-- What is written as one class has no captures. -/
theorem groups_of_ofAlternatives? {es : List Expr} {e : Expr}
    (written : ofAlternatives? es = some e) : es.flatMap groups = [] := by
  have none {β : Type} {f : Expr → Option β} {found : List β} (all : es.mapM f = some found)
      (leaf : ∀ d b, f d = some b → d.groups = []) : es.flatMap groups = [] := by
    rw [List.flatMap_def, map_eq_of_mapM all fun d _ b => leaf d b]
    simp
  rcases ofAlternatives?_cases written with
    ⟨_, all, -⟩ | ⟨-, _, all, -⟩ | ⟨_, all, -⟩ | ⟨-, _, all, -⟩
  all_goals exact none all fun d _ found => by cases d <;> first | rfl | cases found

/-- Building a choice keeps the captures, if what may be chosen instead keeps them. -/
theorem groups_choose {otherwise? : List Expr → Option Expr}
    (kept : ∀ es e, 2 ≤ es.length → (es.flatMap groups).Nodup → otherwise? es = some e →
      e.groups = es.flatMap groups)
    {es : List Expr} (distinct : (es.flatMap groups).Nodup) :
    (choose otherwise? es).groups = es.flatMap groups := by
  have flat : (es.flatMap branches).flatMap groups = es.flatMap groups := by
    rw [List.flatMap_assoc]
    exact List.flatMap_congr fun e _ => groups_branches e
  rw [← flat] at distinct ⊢
  unfold choose
  split
  next nothing => rw [nothing]; rfl
  next e single => rw [single]; exact (List.flatMap_singleton groups e).symm
  next none one =>
    generalize es.flatMap branches = all at distinct none one ⊢
    have two : 2 ≤ all.length := by
      match all, none, one with
      | [], none, _ => exact absurd rfl none
      | [e], _, one => exact absurd rfl (one e)
      | _ :: _ :: _, _, _ => simp
    cases classes : ofAlternatives? all with
    | some e =>
      rw [groups_of_ofAlternatives? classes]
      exact groups_of_isLeaf (isLeaf_ofAlternatives? classes)
    | none =>
      cases other : otherwise? all with
      | some e => exact kept all e two distinct other
      | none => exact groupsAll_eq_flatMap all

/-- What several branches start with has no captures, if the numbers of all captures differ. -/
theorem groups_of_shared {start : List Expr} {rests : List (List Expr)} (two : 2 ≤ rests.length)
    (distinct : (rests.flatMap fun rest => start.flatMap groups ++ rest.flatMap groups).Nodup) :
    start.flatMap groups = [] := by
  match rests, two with
  | first :: second :: rest, _ =>
    rw [List.flatMap_cons, List.flatMap_cons] at distinct
    refine List.eq_nil_iff_forall_not_mem.mpr fun i mem => ?_
    refine List.disjoint_of_nodup_append distinct (List.mem_append_left _ mem) ?_
    exact List.mem_append_left _ (List.mem_append_left _ mem)

theorem groups_liftShared? (es : List Expr) (e : Expr) (two : 2 ≤ es.length)
    (distinct : (es.flatMap groups).Nodup) (lifted : liftShared? es = some e) :
    e.groups = es.flatMap groups := by
  obtain ⟨⟨start, rests⟩, shared, rfl⟩ := Option.map_eq_some_iff.mp lifted
  obtain ⟨-, rfl⟩ := eq_map_of_sharedStart? shared
  have parts : (rests.map fun rest => Expr.concat (start ++ rest)).flatMap groups =
      rests.flatMap fun rest => start.flatMap groups ++ rest.flatMap groups := by
    rw [List.flatMap_map]
    refine List.flatMap_congr fun rest _ => ?_
    rw [groups, groupsAll_eq_flatMap, List.flatMap_append]
  rw [List.length_map] at two
  rw [parts] at distinct ⊢
  have none := groups_of_shared two distinct
  simp only [none, List.nil_append] at distinct ⊢
  have rested : (rests.map ofConcat).flatMap groups = rests.flatMap (·.flatMap groups) := by
    rw [List.flatMap_map]
    exact List.flatMap_congr fun rest _ => groups_ofConcat rest
  rw [groups_ofConcat, List.flatMap_append, none, List.nil_append, List.flatMap_singleton,
    groups_choose (fun _ _ _ _ other => by cases other) (rested ▸ distinct), rested]

/-- Building an alternation keeps the captures and their order, if their numbers differ. -/
theorem groups_ofAlternation {es : List Expr} (distinct : (es.flatMap groups).Nodup) :
    (ofAlternation es).groups = es.flatMap groups :=
  groups_choose groups_liftShared? distinct

/-! ## Repetitions -/

/-- Repeating keeps the captures, unless there is no turn. -/
theorem groups_ofRepetition (min : Nat) (max : Option Nat) (greedy : Bool) (body : Expr) :
    (ofRepetition min max greedy body).groups =
      if min = 0 ∧ max = some 0 then [] else body.groups := by
  obtain ⟨least, most, never, shape⟩ : ∃ least most,
      (least = 0 ∧ most = some 0 ↔ min = 0 ∧ max = some 0) ∧
        ofRepetition min max greedy body =
          if least = 0 ∧ most = some 0 then .empty
          else if least = 1 ∧ most = some 1 then body
          else .repetition least most greedy body := by
    refine ⟨_, _, ?_, rfl⟩
    split
    · cases max with
      | none => simp
      | some m =>
        simp only [Option.elim, Option.some.injEq, Nat.min_def]
        split <;> split <;> omega
    · rfl
  rw [shape]
  by_cases none : min = 0 ∧ max = some 0
  · rw [if_pos (never.mpr none), if_pos none, groups]
  · rw [if_neg (mt never.mp none), if_neg none]
    split
    · rfl
    · rw [groups]

end PatternGate.Expr
