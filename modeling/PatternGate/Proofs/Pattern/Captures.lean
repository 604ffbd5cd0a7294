import Mathlib.Data.Finset.Card
import PatternGate.Proofs.Expr.Groups
import PatternGate.Proofs.Pattern.Depth
import PatternGate.Proofs.Pattern.Listing
import PatternGate.Proofs.Program.Brackets
import PatternGate.Proofs.Program.Erasure
import PatternGate.Proofs.Program.Unrolling

/-!
# The captures of a pattern and the registers of its program

The reader numbers the groups that capture in the order in which they open, from one on
(`Tree.groups_of_parse`). Of these, the meaning of the pattern keeps those that do not stand inside
a repetition without a turn, and each of them once (`Tree.groups_meaning`), and every capture of an
expression is written by its program at least once (`Expr.write_mem_plains_iff`).
`Settings.captures_counted` puts this together: the count of captures that comes with a program is
the number of groups whose registers the program writes.
-/

namespace PatternGate

/-! ## The groups of a tree -/

mutual

/-- The numbers of the groups that capture, from left to right. -/
def Tree.groups : Tree → List Nat
  | .repetition _ _ _ body => body.groups
  | .group _ kind body => kind.index?.toList ++ body.groups
  | .alternation _ branches => Tree.groupsAll branches
  | .concat _ items => Tree.groupsAll items
  | .empty _ | .flags _ _ | .literal _ _ | .dot _ | .assertion _ _ | .property _ _ _
  | .letter _ _ _ | .bracket _ _ _ => []

/-- The numbers of the groups of several trees. -/
def Tree.groupsAll : List Tree → List Nat
  | [] => []
  | t :: ts => t.groups ++ Tree.groupsAll ts

end

mutual

/-- The numbers of the groups that capture, without those inside a repetition from no turn to
none. -/
def Tree.keptGroups : Tree → List Nat
  | .repetition _ bounds _ body =>
    if bounds.min = 0 ∧ bounds.max = some 0 then [] else body.keptGroups
  | .group _ kind body => kind.index?.toList ++ body.keptGroups
  | .alternation _ branches => Tree.keptGroupsAll branches
  | .concat _ items => Tree.keptGroupsAll items
  | .empty _ | .flags _ _ | .literal _ _ | .dot _ | .assertion _ _ | .property _ _ _
  | .letter _ _ _ | .bracket _ _ _ => []

/-- The numbers of the groups of several trees that are kept. -/
def Tree.keptGroupsAll : List Tree → List Nat
  | [] => []
  | t :: ts => t.keptGroups ++ Tree.keptGroupsAll ts

end

namespace Tree

theorem groupsAll_eq_flatMap (ts : List Tree) : groupsAll ts = ts.flatMap groups := by
  induction ts with
  | nil => rfl
  | cons t ts ih => rw [groupsAll, ih, List.flatMap_cons]

theorem keptGroupsAll_sublist {ts : List Tree} (each : ∀ t ∈ ts, t.keptGroups.Sublist t.groups) :
    (keptGroupsAll ts).Sublist (groupsAll ts) := by
  induction ts with
  | nil => exact .refl []
  | cons t ts ih =>
    rw [List.forall_mem_cons] at each
    exact each.1.append (ih each.2)

/-- The groups that are kept are some of all, in the same order. -/
theorem keptGroups_sublist (t : Tree) : t.keptGroups.Sublist t.groups := by
  induction t with
  | empty | flags | literal | dot | assertion | property | letter | bracket => exact .refl []
  | repetition span bounds greedy body ih =>
    rw [keptGroups, groups]
    split
    · exact List.nil_sublist _
    · exact ih
  | group span kind body ih => exact (List.Sublist.refl _).append ih
  | alternation span branches ih => exact keptGroupsAll_sublist ih
  | concat span items ih => exact keptGroupsAll_sublist ih

end Tree

/-! ## The numbers that the reader gives -/

/-- The groups of a tree as a list that the reader makes step by step. -/
def groupListing : Listing Nat where
  ofTree := Tree.groups
  ofKind kind := kind.index?.toList
  empty _ := rfl
  repetition _ _ _ _ := rfl
  group _ _ _ := rfl
  alternation _ branches := Tree.groupsAll_eq_flatMap branches
  concat _ items := Tree.groupsAll_eq_flatMap items

namespace Reader

/-- The groups that were opened so far have the numbers from one on. -/
theorem kept_numbered : Kept fun r => groupListing.ofReader r = List.range' 1 r.captures where
  skip _ _ _ numbered := numbered
  step r r' ch rest _ step numbered := by
    have silent {t : Tree} (none : t.groups = []) (cursor : Cursor) (blank : Bool) :
        groupListing.ofReader { r with cursor, blank, current := r.current.push t } =
          List.range' 1 r.captures := by
      rw [groupListing.ofReader_push, show groupListing.ofTree t = [] from none, List.append_nil,
        numbered]
    cases step with
    | directive blank head => exact silent rfl _ _
    | bracket read => exact silent rfl _ _
    | @primitive item _ _ => exact silent (by cases item <;> rfl) _ _
    | plain blank head =>
      exact (groupListing.ofReader_openGroup _ _ _ _).trans ((List.append_nil _).trans numbered)
    | @capture _ kind cursor names _ next =>
      have opened : groupListing.ofKind kind = [r.captures + 1] :=
        congrArg Option.toList next
      refine (groupListing.ofReader_openGroup _ kind cursor r.blank).trans ?_
      rw [opened, numbered, List.range'_1_concat, Nat.add_comm 1 r.captures]
    | close inner => exact (groupListing.ofReader_finishGroup inner).trans numbered
    | branch =>
      have same : r.branch.captures = r.captures := rfl
      rw [groupListing.ofReader_branch, numbered, same]
    | repetition last _ => exact (groupListing.ofReader_repetition last _).trans numbered

end Reader

/-- The groups of a pattern are numbered from one on, in the order in which they open. -/
theorem Tree.groups_of_parse {pattern : String} {t : Tree} (parsed : Tree.parse pattern = .ok t) :
    t.groups = List.range' 1 t.groups.length := by
  obtain ⟨r, numbered, inner⟩ := Reader.kept_numbered.of_parse rfl parsed
  have all : t.groups = List.range' 1 r.captures := (groupListing.ofTree_inner inner).trans numbered
  rw [all, List.length_range']

/-! ## The captures of a meaning -/

namespace Tree

theorem groups_meanings {ts : List Tree}
    (each : ∀ t ∈ ts, t.keptGroups.Nodup → ∀ m e m', t.meaning m = .ok (e, m') →
      e.groups = t.keptGroups)
    (distinct : (keptGroupsAll ts).Nodup) {m m' : Modes} {es : List Expr}
    (meant : meanings ts m = .ok (es, m')) : es.flatMap Expr.groups = keptGroupsAll ts := by
  induction ts generalizing m es with
  | nil =>
    rw [meanings] at meant
    cases meant
    rfl
  | cons t ts ih =>
    obtain ⟨e, m₁, rest, first, others, rfl⟩ := meanings_cons_iff.mp meant
    rw [List.forall_mem_cons] at each
    rw [keptGroupsAll] at distinct ⊢
    rw [List.flatMap_cons, each.1 distinct.of_append_left m e m₁ first,
      ih each.2 distinct.of_append_right others]

theorem groups_wrap (kind : GroupKind) (body : Expr) :
    (kind.wrap body).groups = kind.index?.toList ++ body.groups := by
  cases kind <;> rfl

/-- The captures of a meaning are the groups that are kept, if their numbers differ. -/
theorem groups_meaning {t : Tree} (distinct : t.keptGroups.Nodup) {m m' : Modes} {e : Expr}
    (meant : t.meaning m = .ok (e, m')) : e.groups = t.keptGroups := by
  induction t generalizing m m' e with
  | repetition span bounds greedy body ih =>
    obtain ⟨inner, found, rfl⟩ := meaning_repetition_iff.mp meant
    rw [Expr.groups_ofRepetition, keptGroups]
    rw [keptGroups] at distinct
    split
    · rfl
    next turns =>
      rw [if_neg turns] at distinct
      exact ih distinct found
  | group span kind body ih =>
    obtain ⟨inner, m₁, found, rfl, rfl⟩ := meaning_group_iff.mp meant
    rw [keptGroups] at distinct ⊢
    rw [groups_wrap, ih distinct.of_append_right found]
  | alternation span branches ih =>
    obtain ⟨es, found, rfl⟩ := meaning_alternation_iff.mp meant
    rw [keptGroups] at distinct ⊢
    have all := groups_meanings (fun t mem distinct _ _ _ => ih t mem distinct) distinct found
    rw [Expr.groups_ofAlternation (all ▸ distinct), all]
  | concat span items ih =>
    obtain ⟨es, found, rfl⟩ := meaning_concat_iff.mp meant
    rw [keptGroups] at distinct ⊢
    rw [Expr.groups_ofConcat,
      groups_meanings (fun t mem distinct _ _ _ => ih t mem distinct) distinct found]
  | _ => exact Expr.groups_of_isLeaf (isLeaf_meaning rfl meant)

/-- Every repetition in the meaning of a tree has a turn. -/
theorem each_capped {t : Tree} {m m' : Modes} {e : Expr} (meant : t.meaning m = .ok (e, m')) :
    e.Each Expr.NodeCapped := by
  have stable : PatternStable Expr.NodeCapped :=
    ⟨Expr.stable_nodeCapped, fun set => Expr.nodeCapped_of_isLeaf (Expr.isLeaf_ofChars set),
      fun _ => trivial, fun _ _ _ => trivial⟩
  exact each_meaning stable (fun _ _ _ => trivial)
    (fun _ _ _ _ each => Expr.capped_ofRepetition each) meant

end Tree

/-! ## The registers of a program -/

namespace Expr

/-- The register is one of the two of the group. -/
def Notes (r i : Nat) : Prop := r = Emitter.register (2 * i) ∨ r = Emitter.register (2 * i + 1)

theorem exists_groupsAll_iff {written : Expr → Prop} {r : Nat} {es : List Expr}
    (each : ∀ e ∈ es, written e ↔ ∃ i ∈ e.groups, Notes r i) :
    (∃ e ∈ es, written e) ↔ ∃ i ∈ groupsAll es, Notes r i := by
  rw [groupsAll_eq_flatMap]
  constructor
  · rintro ⟨e, mem, write⟩
    obtain ⟨i, inner, notes⟩ := (each e mem).mp write
    exact ⟨i, List.mem_flatMap.mpr ⟨e, mem, inner⟩, notes⟩
  · rintro ⟨i, mem, notes⟩
    obtain ⟨e, mem, inner⟩ := List.mem_flatMap.mp mem
    exact ⟨e, mem, (each e mem).mpr ⟨i, inner, notes⟩⟩

/-- The registers that the plan of an expression notes are those of its captures. -/
theorem write_mem_plains_iff {e : Expr} (capped : e.Each NodeCapped) {r : Nat} :
    .writeRegister r ∈ (e.plan true).plains ↔ ∃ i ∈ e.groups, Notes r i := by
  have silent {d : Expr} (bare : d.groups = [])
      (plain : ∀ i ∈ (d.plan true).plains, i.register? = none) :
      .writeRegister r ∈ (d.plan true).plains ↔ ∃ i ∈ d.groups, Notes r i := by
    rw [bare]
    refine ⟨fun mem => ?_, fun found => ?_⟩
    · cases plain _ mem
    · obtain ⟨i, mem, -⟩ := found
      cases mem
  induction e with
  | empty => exact silent rfl fun i mem => by cases mem
  | literal bs =>
    refine silent rfl fun i mem => ?_
    obtain ⟨c, rfl⟩ := Plan.exists_of_mem_ofChars mem
    exact Plain.register?_ofChar c
  | chars set | bytes set =>
    refine silent rfl fun i mem => ?_
    rw [List.mem_singleton.mp mem]
    exact Plain.register?_ofSet _
  | look l =>
    refine silent rfl fun i mem => ?_
    rw [List.mem_singleton.mp mem]
    rfl
  | repetition min max greedy body ih =>
    obtain ⟨⟨turns, -⟩, inner⟩ := Each.repetition_iff.mp capped
    rw [plan, Plan.mem_plains_repetition_iff turns, groups]
    exact ih inner
  | capture index name body ih =>
    simp only [plan, Plan.capture, if_true, Plan.plains, List.mem_append, List.mem_singleton,
      Plain.writeRegister.injEq, ih (Each.capture_iff.mp capped).2, groups,
      List.exists_mem_cons_iff]
    rw [Notes]
    grind
  | concat items ih =>
    rw [plan, mem_plains_planAll_iff, groups]
    exact exists_groupsAll_iff fun e mem => ih e mem ((Each.concat_iff.mp capped).2 e mem)
  | alternation branches ih =>
    rw [mem_plains_alternation_iff, groups]
    exact exists_groupsAll_iff fun e mem => ih e mem ((Each.alternation_iff.mp capped).2 e mem)

theorem write_mem_instructions_iff {e : Expr} (capped : e.Each NodeCapped) {r : Nat} :
    .writeRegister r ∈ e.instructions true ↔ ∃ i ∈ e.groups, Notes r i := by
  have written : (Plain.writeRegister r).instruction ∈ e.instructions true ↔ _ :=
    mem_instructions_iff
  refine written.trans ((or_iff_right fun start => ?_).trans (write_mem_plains_iff capped))
  cases startPlan_plains start

/-- A program without captures writes no register. -/
theorem write_not_mem_instructions (e : Expr) (r : Nat) :
    .writeRegister r ∉ e.instructions false := by
  rw [← erased_instructions]
  intro mem
  obtain ⟨i, stays, moved⟩ := List.mem_map.mp mem
  have written := (List.mem_filter.mp stays).2
  cases i <;> first | cases moved; cases written | cases moved

end Expr

namespace Settings

/-- The count of captures that comes with a program is the number of groups whose registers it
writes. Without captures there are none of either. With them, the groups of the pattern have the
numbers from one on, and the registers written are the two of each group that does not stand inside
a repetition from no turn to none, as long as the registers of all groups are 32-bit numbers. -/
theorem captures_counted (s : Settings) (pattern : String) (p : Program)
    (compiled : (s.compile pattern).result = .ok p) :
    ∃ t, Tree.parse (Latin1.decode pattern) = .ok t ∧ t.groups = List.range' 1 t.groups.length ∧
      (s.neverCapture = true → p.captureCount = 0 ∧ ∀ r, .writeRegister r ∉ p.code) ∧
      (s.neverCapture = false → 2 * t.groups.length < UInt32.size →
        ∃ kept : Finset Nat, kept.card = p.captureCount ∧
          (∀ i, i ∈ kept ↔ i ∈ t.keptGroups) ∧ (∀ i ∈ kept, 1 ≤ i ∧ i ≤ t.groups.length) ∧
          ∀ r, .writeRegister r ∈ p.code ↔ ∃ i ∈ kept, r = 2 * i ∨ r = 2 * i + 1) := by
  obtain ⟨e, found, lowered⟩ := result_eq_ok_iff.mp compiled
  obtain ⟨t, m, read, -, meant⟩ := expression_eq_ok_iff.mp found
  obtain ⟨parsed, -⟩ := Tree.parseWithin_eq_ok_iff.mp read
  have numbers := Tree.groups_of_parse parsed
  have within : ∀ i ∈ t.keptGroups, 1 ≤ i ∧ i ≤ t.groups.length := by
    intro i mem
    have among := t.keptGroups_sublist.subset mem
    rw [numbers, List.mem_range'_1] at among
    omega
  have distinct : t.keptGroups.Nodup := by
    refine t.keptGroups_sublist.nodup ?_
    rw [numbers]
    exact List.nodup_range'
  have groups := Tree.groups_meaning distinct meant
  have program := eq_of_program lowered
  refine ⟨t, parsed, numbers, fun never => ?_, fun kept few => ?_⟩
  · rw [program, never]
    exact ⟨rfl, e.write_not_mem_instructions⟩
  · refine ⟨t.keptGroups.toFinset, ?_, fun i => List.mem_toFinset, fun i mem => ?_, fun r => ?_⟩
    · rw [program, kept, List.toFinset_card_of_nodup distinct, ← groups, ← e.captureCount_eq]
      rfl
    · exact within i (List.mem_toFinset.mp mem)
    · rw [program, kept]
      refine (Expr.write_mem_instructions_iff (Tree.each_capped meant)).trans ?_
      simp only [groups, List.mem_toFinset]
      refine exists_congr fun i => and_congr_right fun mem => ?_
      have small : 2 * i + 1 < UInt32.size := by
        have most := (within i mem).2
        rw [UInt32.size] at few ⊢
        omega
      rw [Expr.Notes, Emitter.register, Emitter.register, Nat.mod_eq_of_lt small,
        Nat.mod_eq_of_lt (Nat.lt_of_succ_lt small)]

/-- In `(a)(?:(b){0}|(c){2,})` the second group is dropped, and the third one is written twice. -/
theorem captures_counted_dropped :
    let s : Settings := { neverCapture := false }
    let pattern := "(a)(?:(b)\x7b0\x7d|(c)\x7b2,\x7d)"
    ∃ p t, (s.compile pattern).result = .ok p ∧ Tree.parse (Latin1.decode pattern) = .ok t ∧
      t.groups = [1, 2, 3] ∧ t.keptGroups = [1, 3] ∧ p.captureCount = 2 ∧
      p.code.countP Instruction.writes = 6 ∧
      ∀ r, .writeRegister r ∈ p.code ↔ ∃ i ∈ t.keptGroups, r = 2 * i ∨ r = 2 * i + 1 := by
  intro s pattern
  obtain ⟨p, compiled, counts⟩ : ∃ p, (s.compile pattern).result.toOption = some p ∧
      (p.captureCount, p.code.countP Instruction.writes) = (2, 6) :=
    Option.map_eq_some_iff.mp (by decide +kernel)
  have compiled : (s.compile pattern).result = .ok p := by
    cases result : (s.compile pattern).result with
    | error e => rw [result] at compiled; cases compiled
    | ok q => rw [result] at compiled; cases compiled; rfl
  obtain ⟨t, parsed, -, -, kept⟩ := captures_counted s pattern p compiled
  have listed : (Tree.parse (Latin1.decode pattern)).toOption.map
      (fun t => (t.groups, t.keptGroups)) = some ([1, 2, 3], [1, 3]) := by decide +kernel
  rw [parsed] at listed
  obtain ⟨all, some⟩ := Prod.mk.inj (Option.some.inj listed)
  obtain ⟨count, writes⟩ := Prod.mk.inj counts
  obtain ⟨_, -, members, -, written⟩ := kept rfl (by rw [all]; decide)
  refine ⟨p, t, compiled, parsed, all, some, count, writes, fun r => (written r).trans ?_⟩
  exact exists_congr fun i => and_congr_left fun _ => members i

end Settings

end PatternGate
