import PatternGate.Proofs.Pattern.Constructs

/-!
# The first item outside the dialect

What is outside the dialect is said here without the check: the flags `u`, `x` and `R` wherever a
node lists flags, and every assertion but `^`, `$`, `\A`, `\z`, `\b` and `\B`. An item has an
address in its tree, a path of child numbers from the root and the number of the item at the node
where the path ends. Addresses are read in the order of their paths, a node before what is below it
and a child before the next one, which is the lexicographic order.

The main statement is `Tree.checkDialect_first`: the check accepts a tree exactly if no item at any
depth is outside the dialect, and otherwise it names the first one. The proof goes node by node: the
check of a node is the check of its own items and then those of its children, which stand at later
addresses (`Tree.findsFirst_node`), so the first fault found is the first in the order
(`FindsFirst.andThen`).

A refusal points at that item. `Settings.dialect_sited` says so of a whole pattern, before decoding:
the bytes at the offset of the refusal are what the named item is written with, and no other item
outside the dialect starts earlier. The items are those at the addresses of the tree, which are the
constructs that the reader sited (`Tree.mem_constructs_iff`).
-/

namespace PatternGate

/-! ## What is outside -/

/-- A flag is outside the dialect, and messages name it so. -/
inductive Flag.Refused : Flag → String → Prop
  | unicode : Refused .unicode "flag 'u'"
  | ignoreBlank : Refused .ignoreBlank "flag 'x'"
  | crlf : Refused .crlf "flag 'R'"

namespace AssertionKind

/-- The assertions `^`, `$`, `\A`, `\z`, `\b` and `\B`. -/
def admitted : List AssertionKind :=
  [.startLine, .endLine, .startText, .endText, .wordBoundary, .notWordBoundary]

/-- How messages name an assertion that is not admitted. -/
def refusedName : AssertionKind → String
  | .wordStartAngle => "word boundary '\\<'"
  | .wordEndAngle => "word boundary '\\>'"
  | _ => "word boundary '\\b\x7b...\x7d'"

/-- An assertion is outside the dialect, and messages name it so. -/
def Refused (kind : AssertionKind) (name : String) : Prop :=
  kind ∉ admitted ∧ name = kind.refusedName

end AssertionKind

namespace Tree

/-- The flags that a node lists itself. -/
def ownFlags : Tree → List FlagItem
  | .flags _ items | .group _ (.plain items) _ => items
  | _ => []

/-- An item of the node itself is outside the dialect: a flag of its list, or the assertion that it
is. The fault has its name and the offset where it starts. -/
inductive Outside : Tree → Nat → DialectFault → Prop
  | flag {t : Tree} {k : Nat} {item : FlagItem} {g : Flag} {f : DialectFault}
      (listed : t.ownFlags[k]? = some item) (mark : item.mark = .flag g)
      (refused : g.Refused f.construct.text) (offset : f.offset = item.span.start.offset) :
      Outside t k f
  | assertion {span : Span} {kind : AssertionKind} {f : DialectFault}
      (refused : kind.Refused f.construct.text) (offset : f.offset = span.start.offset) :
      Outside (.assertion span kind) 0 f

/-- The parts of a tree directly below its root, from left to right. -/
def children : Tree → List Tree
  | .repetition _ _ _ body | .group _ _ body => [body]
  | .alternation _ branches => branches
  | .concat _ items => items
  | .empty _ | .flags _ _ | .literal _ _ | .dot _ | .assertion _ _ | .property _ _ _
  | .letter _ _ _ | .bracket _ _ _ => []

/-- The part of a tree at the end of a path. -/
def at? (t : Tree) : List Nat → Option Tree
  | [] => some t
  | k :: path => t.children[k]?.bind (at? · path)

end Tree

/-- Where an item stands in a tree: a path to a node, and its number among the items of the node. -/
structure Address where
  path : List Nat
  item : Nat

namespace Address

/-- One address is read no later than another. -/
instance : LE Address :=
  ⟨fun a b => a.path < b.path ∨ a.path = b.path ∧ a.item ≤ b.item⟩

/-- In one node, addresses are ordered by their items. -/
theorem item_le {a b : Address} (le : a ≤ b) (same : a.path = b.path) : a.item ≤ b.item :=
  (le.resolve_left fun before => List.lt_irrefl b.path (same ▸ before)).2

/-- Addresses that are not after one another are the same. -/
theorem le_antisymm {a b : Address} (le : a ≤ b) (ge : b ≤ a) : a = b := by
  have same : a.path = b.path := by
    rcases le with before | ⟨same, -⟩
    · rcases ge with after | ⟨same, -⟩
      · exact absurd after (List.lt_asymm before)
      · exact same.symm
    · exact same
  have items := Nat.le_antisymm (item_le le same) (item_le ge same.symm)
  cases a
  cases b
  cases same
  cases items
  rfl

end Address

/-- The item at an address of a tree is outside the dialect. -/
def Tree.OutsideAt (t : Tree) (a : Address) (f : DialectFault) : Prop :=
  ∃ u, t.at? a.path = some u ∧ u.Outside a.item f

/-! ## What the tables of the check say -/

/-- Constructs have different names. -/
theorem Construct.text_injective : Function.Injective Construct.text := by
  intro a b same
  cases a <;> cases b <;> first | rfl | exact absurd same (by decide)

/-- The flags that are refused are those that the check knows, by their names. -/
theorem Flag.refused_iff {g : Flag} {name : String} :
    g.Refused name ↔ ∃ c, Construct.ofFlag? g = some c ∧ c.text = name := by
  constructor
  · intro refused
    cases refused <;> exact ⟨_, rfl, rfl⟩
  · rintro ⟨c, found, rfl⟩
    cases g <;> cases found <;> constructor

/-- The assertions that are refused are those that the check knows, by their names. -/
theorem AssertionKind.refused_iff {kind : AssertionKind} {name : String} :
    kind.Refused name ↔ ∃ c, Construct.ofAssertion? kind = some c ∧ c.text = name := by
  constructor
  · rintro ⟨outside, rfl⟩
    cases kind <;> first | exact ⟨_, rfl, rfl⟩ | exact absurd (by decide) outside
  · rintro ⟨c, found, rfl⟩
    cases kind <;> cases found <;> exact ⟨by decide, rfl⟩

/-- A fault is known by the name of its construct and its offset. -/
theorem DialectFault.map_eq_some_iff {found : Option Construct} {offset : Nat} {f : DialectFault} :
    found.map (DialectFault.mk · offset) = some f ↔
      (∃ c, found = some c ∧ c.text = f.construct.text) ∧ f.offset = offset := by
  rw [Option.map_eq_some_iff]
  constructor
  · rintro ⟨c, rfl, rfl⟩
    exact ⟨⟨c, rfl, rfl⟩, rfl⟩
  · rintro ⟨⟨c, rfl, text⟩, rfl⟩
    exact ⟨c, rfl, by rw [Construct.text_injective text]⟩

/-- A flag is faulted exactly if it is refused, at its own offset. -/
theorem FlagItem.fault?_eq_some_iff {item : FlagItem} {f : DialectFault} :
    item.fault? = some f ↔
      ∃ g, item.mark = .flag g ∧ g.Refused f.construct.text ∧
        f.offset = item.span.start.offset := by
  rw [fault?, DialectFault.map_eq_some_iff, construct?]
  cases item.mark with
  | negation => simp
  | flag g => simp [Flag.refused_iff]

/-- An assertion is faulted exactly if it is refused, at its own offset. -/
theorem AssertionKind.fault?_eq_some_iff {span : Span} {kind : AssertionKind} {f : DialectFault} :
    kind.fault? span = some f ↔ kind.Refused f.construct.text ∧ f.offset = span.start.offset := by
  rw [fault?, DialectFault.map_eq_some_iff, AssertionKind.refused_iff]

/-! ## Finding the first -/

/-- A check finds the first of the faults that stand at addresses: it fails with it, and passes if
there is none. -/
def FindsFirst (faults : Address → DialectFault → Prop) : Except DialectFault Unit → Prop
  | .ok () => ∀ a f, ¬ faults a f
  | .error f => ∃ a, faults a f ∧ ∀ b g, faults b g → a ≤ b

namespace FindsFirst

variable {faults faults' : Address → DialectFault → Prop} {r r' : Except DialectFault Unit}

/-- Finding the first fault depends only on which faults there are, and where. -/
theorem congr (same : ∀ a f, faults a f ↔ faults' a f) (finds : FindsFirst faults r) :
    FindsFirst faults' r := by
  obtain rfl : faults = faults' := funext fun a => funext fun f => propext (same a f)
  exact finds

/-- One check after another finds the first fault of both, if those of the second stand later. -/
theorem andThen (first : FindsFirst faults r) (second : FindsFirst faults' r')
    (later : ∀ a f b g, faults a f → faults' b g → a ≤ b) :
    FindsFirst (fun a f => faults a f ∨ faults' a f) (r >>= fun _ => r') := by
  cases r with
  | error f =>
    obtain ⟨a, here, least⟩ := first
    exact ⟨a, .inl here, fun b g found => found.elim (least b g) (later a f b g here)⟩
  | ok _ =>
    show FindsFirst _ r'
    refine second.congr fun a f => ?_
    exact ⟨.inr, fun found => found.resolve_left (first a f)⟩

/-- What is found in a tree is found in the child `j` of another one. -/
theorem below (j : Nat) (finds : FindsFirst faults r) :
    FindsFirst (fun a f => ∃ path, a.path = j :: path ∧ faults ⟨path, a.item⟩ f) r := by
  cases r with
  | ok _ =>
    rintro a f ⟨path, -, found⟩
    exact finds _ f found
  | error f =>
    obtain ⟨a, here, least⟩ := finds
    refine ⟨⟨j :: a.path, a.item⟩, ⟨a.path, rfl, here⟩, ?_⟩
    rintro ⟨_, item⟩ g ⟨path, rfl, found⟩
    rcases least _ g found with before | ⟨same, upto⟩
    · exact .inl (List.cons_lt_cons_iff.mpr (.inr ⟨rfl, before⟩))
    · exact .inr ⟨congrArg (j :: ·) same, upto⟩

/-- Nothing is found exactly if there is no fault. -/
theorem eq_ok_iff (finds : FindsFirst faults r) : r = .ok () ↔ ∀ a f, ¬ faults a f := by
  cases r with
  | ok _ => exact ⟨fun _ => finds, fun _ => rfl⟩
  | error f =>
    obtain ⟨a, here, -⟩ := finds
    exact ⟨(absurd · (by simp)), fun nowhere => absurd here (nowhere a f)⟩

/-- A fault is found exactly if it has the first address of all, where no address has two faults. -/
theorem eq_error_iff (finds : FindsFirst faults r)
    (unique : ∀ a f g, faults a f → faults a g → f = g) {f : DialectFault} :
    r = .error f ↔ ∃ a, faults a f ∧ ∀ b g, faults b g → a ≤ b := by
  constructor
  · rintro rfl
    exact finds
  · rintro ⟨a, here, least⟩
    cases r with
    | ok _ => exact absurd here (finds a f)
    | error g =>
      obtain ⟨b, there, least'⟩ := finds
      obtain rfl := Address.le_antisymm (least b g there) (least' a f here)
      rw [unique a f g here there]

end FindsFirst

/-! ## The items of a node -/

namespace Tree

/-- The items of the node itself, each with the fault that it is. -/
def ownFaults : Tree → List (Option DialectFault)
  | .assertion span kind => [kind.fault? span]
  | t => t.ownFlags.map FlagItem.fault?

/-- The faults of a node itself are listed by their items. -/
theorem outside_iff {t : Tree} {k : Nat} {f : DialectFault} :
    t.Outside k f ↔ t.ownFaults[k]? = some (some f) := by
  constructor
  · intro outside
    cases outside with
    | assertion refused offset =>
      exact congrArg some (AssertionKind.fault?_eq_some_iff.mpr ⟨refused, offset⟩)
    | @flag _ _ item g _ listed mark refused offset =>
      have fault := FlagItem.fault?_eq_some_iff.mpr ⟨g, mark, refused, offset⟩
      have flags : t.ownFaults = t.ownFlags.map FlagItem.fault? := by
        -- An assertion lists no flags.
        cases t <;> first | rfl | cases listed
      rw [flags, List.getElem?_map, listed, Option.map_some, fault]
  · intro found
    unfold ownFaults at found
    split at found
    next span kind =>
      cases k with
      | zero =>
        obtain ⟨refused, offset⟩ := AssertionKind.fault?_eq_some_iff.mp (Option.some.inj found)
        exact .assertion refused offset
      | succ k => cases found
    next =>
      rw [List.getElem?_map] at found
      obtain ⟨item, listed, fault⟩ := Option.map_eq_some_iff.mp found
      obtain ⟨g, mark, refused, offset⟩ := FlagItem.fault?_eq_some_iff.mp fault
      exact .flag listed mark refused offset

end Tree

/-- Faults in a list are found in the order of the list. -/
theorem findsFirst_list (founds : List (Option DialectFault)) (start : Nat) :
    FindsFirst (fun a f => a.path = [] ∧ ∃ i, a.item = start + i ∧ founds[i]? = some (some f))
      (refuseFirst (founds.filterMap id)) := by
  induction founds generalizing start with
  | nil =>
    rintro a f ⟨-, i, -, found⟩
    cases found
  | cons found founds ih =>
    cases found with
    | none =>
      refine (ih (start + 1)).congr fun a f => and_congr_right fun _ => ?_
      constructor
      · rintro ⟨i, item, found⟩
        exact ⟨i + 1, by omega, found⟩
      · rintro ⟨i, item, found⟩
        cases i with
        | zero => cases found
        | succ i => exact ⟨i, by omega, found⟩
    | some f =>
      refine ⟨⟨[], start⟩, ⟨rfl, 0, rfl, rfl⟩, ?_⟩
      rintro b g ⟨path, i, item, -⟩
      exact .inr ⟨path.symm, item ▸ Nat.le_add_right start i⟩

namespace Tree

/-- A fault stands in one of several trees, the first of which is the child `start` of another. -/
def OutsideBelow (ts : List Tree) (start : Nat) (a : Address) (f : DialectFault) : Prop :=
  ∃ i path c, a.path = (start + i) :: path ∧ ts[i]? = some c ∧ c.OutsideAt ⟨path, a.item⟩ f

/-- Checking trees in order finds the first fault of all of them, if it does in each tree. -/
theorem findsFirst_all {ts : List Tree}
    (each : ∀ c ∈ ts, FindsFirst c.OutsideAt c.checkDialect) (start : Nat) :
    FindsFirst (OutsideBelow ts start) (checkDialectAll ts) := by
  induction ts generalizing start with
  | nil =>
    rintro a f ⟨i, path, c, -, child, -⟩
    cases child
  | cons t ts ih =>
    rw [List.forall_mem_cons] at each
    refine (((each.1).below start).andThen (ih each.2 (start + 1)) ?_).congr fun a f => ?_
    · rintro a f b g ⟨path, here, -⟩ ⟨i, path', c, there, -⟩
      refine .inl ?_
      rw [here, there]
      exact List.cons_lt_cons_iff.mpr (.inl (by omega))
    · constructor
      · rintro (⟨path, here, found⟩ | ⟨i, path, c, there, child, found⟩)
        · exact ⟨0, path, t, here, rfl, found⟩
        · exact ⟨i + 1, path, c, by rw [there, Nat.add_right_comm, Nat.add_assoc], child, found⟩
      · rintro ⟨i, path, c, there, child, found⟩
        cases i with
        | zero =>
          cases child
          exact .inl ⟨path, there, found⟩
        | succ i =>
          exact .inr ⟨i, path, c, by rw [there, Nat.add_right_comm, Nat.add_assoc], child, found⟩

/-- A fault is one of the node itself, or one below it. -/
theorem outsideAt_iff {t : Tree} {a : Address} {f : DialectFault} :
    t.OutsideAt a f ↔
      (a.path = [] ∧ ∃ i, a.item = 0 + i ∧ t.ownFaults[i]? = some (some f)) ∨
        OutsideBelow t.children 0 a f := by
  obtain ⟨path, item⟩ := a
  cases path with
  | nil =>
    constructor
    · rintro ⟨_, ⟨⟩, outside⟩
      exact .inl ⟨rfl, item, (Nat.zero_add item).symm, outside_iff.mp outside⟩
    · rintro (⟨-, i, same, found⟩ | ⟨i, path, c, there, -⟩)
      · exact ⟨t, rfl, outside_iff.mpr (same.trans (Nat.zero_add i) ▸ found)⟩
      · cases there
  | cons k path =>
    constructor
    · rintro ⟨u, found, outside⟩
      obtain ⟨c, child, inner⟩ := Option.bind_eq_some_iff.mp found
      exact .inr ⟨k, path, c, by rw [Nat.zero_add], child, u, inner, outside⟩
    · rintro (⟨there, -⟩ | ⟨i, path', c, there, child, u, inner, outside⟩)
      · cases there
      · rw [Nat.zero_add] at there
        cases there
        exact ⟨u, Option.bind_eq_some_iff.mpr ⟨c, child, inner⟩, outside⟩

/-- The constructs of a node are its own and those of its children. -/
theorem constructs_node (t : Tree) :
    t.constructs = t.ownFaults.filterMap id ++ t.children.flatMap constructs := by
  have flags (items : List FlagItem) :
      items.filterMap FlagItem.fault? = (items.map FlagItem.fault?).filterMap id := by
    rw [List.filterMap_map]
    rfl
  cases t with
  | empty | literal | dot | property | letter | bracket =>
    rw [constructs]
    rfl
  | flags span items =>
    rw [constructs, flags]
    exact (List.append_nil _).symm
  | assertion span kind =>
    rw [constructs]
    cases found : kind.fault? span <;> simp [ownFaults, children, found]
  | repetition span bounds greedy body =>
    rw [constructs]
    exact (List.flatMap_singleton constructs body).symm
  | group span kind body =>
    rw [constructs]
    cases kind with
    | plain items =>
      rw [GroupKind.constructs, flags]
      exact congrArg _ (List.flatMap_singleton constructs body).symm
    | capture | named => exact (List.flatMap_singleton constructs body).symm
  | alternation span branches =>
    rw [constructs, constructsAll_eq_flatMap]
    rfl
  | concat span items =>
    rw [constructs, constructsAll_eq_flatMap]
    rfl

/-- The check of a node is the check of its own items, and then that of its children. -/
theorem checkDialect_node (t : Tree) :
    t.checkDialect =
      refuseFirst (t.ownFaults.filterMap id) >>= fun _ => checkDialectAll t.children := by
  have children : checkDialectAll t.children = refuseFirst (constructsAll t.children) :=
    checkDialectAll_eq fun c _ => c.checkDialect_eq
  rw [checkDialect_eq, constructs_node, refuseFirst_append, children, constructsAll_eq_flatMap]

/-- The check of a node finds the first item outside the dialect if those of its children do. -/
theorem findsFirst_node {t : Tree}
    (each : ∀ c ∈ t.children, FindsFirst c.OutsideAt c.checkDialect) :
    FindsFirst t.OutsideAt t.checkDialect := by
  rw [checkDialect_node]
  refine ((findsFirst_list t.ownFaults 0).andThen (findsFirst_all each 0) ?_).congr
    fun a f => outsideAt_iff.symm
  rintro a f b g ⟨here, -⟩ ⟨i, path, c, there, -⟩
  refine .inl ?_
  rw [here, there]
  exact List.nil_lt_cons _ _

/-- The check finds the first fault of a tree, by its address. The induction is on the tree. -/
theorem findsFirst_checkDialect (t : Tree) : FindsFirst t.OutsideAt t.checkDialect := by
  induction t with
  | empty | flags | literal | dot | assertion | property | letter | bracket =>
    exact findsFirst_node (List.forall_mem_nil _)
  | repetition _ _ _ body ih | group _ _ body ih =>
    exact findsFirst_node (List.forall_mem_singleton.mpr ih)
  | alternation _ branches ih => exact findsFirst_node ih
  | concat _ items ih => exact findsFirst_node ih

/-- At an address there is one fault at most. -/
theorem OutsideAt.unique {t : Tree} {a : Address} {f g : DialectFault} (first : t.OutsideAt a f)
    (second : t.OutsideAt a g) : f = g := by
  obtain ⟨u, here, outside⟩ := first
  obtain ⟨u', there, outside'⟩ := second
  obtain rfl : u = u' := Option.some.inj (here.symm.trans there)
  have same := (outside_iff.mp outside).symm.trans (outside_iff.mp outside')
  exact Option.some.inj (Option.some.inj same)

/-- The check of the dialect is complete at every depth: it accepts a tree exactly if no item of any
part of it is outside the dialect, and otherwise it names the first such item in reading order, with
the offset where it starts. -/
theorem checkDialect_first (t : Tree) :
    (t.checkDialect = .ok () ↔ ∀ a f, ¬ t.OutsideAt a f) ∧
      ∀ f, t.checkDialect = .error f ↔
        ∃ a, t.OutsideAt a f ∧ ∀ b g, t.OutsideAt b g → a ≤ b := by
  have finds := t.findsFirst_checkDialect
  exact ⟨finds.eq_ok_iff, fun f => finds.eq_error_iff fun _ _ _ => OutsideAt.unique⟩

/-! ## Where the items stand -/

/-- The constructs of a node stand at its addresses if those of its children do. -/
theorem mem_constructs_node {t : Tree} {f : DialectFault}
    (each : ∀ c ∈ t.children, f ∈ c.constructs ↔ ∃ a, c.OutsideAt a f) :
    f ∈ t.constructs ↔ ∃ a, t.OutsideAt a f := by
  rw [constructs_node, List.mem_append, List.mem_filterMap, List.mem_flatMap]
  constructor
  · rintro (⟨found, own, rfl⟩ | ⟨c, child, inner⟩)
    · obtain ⟨i, here⟩ := List.mem_iff_getElem?.mp own
      exact ⟨⟨[], i⟩, outsideAt_iff.mpr (.inl ⟨rfl, i, (Nat.zero_add i).symm, here⟩)⟩
    · obtain ⟨a, outside⟩ := (each c child).mp inner
      obtain ⟨i, here⟩ := List.mem_iff_getElem?.mp child
      exact ⟨⟨(0 + i) :: a.path, a.item⟩,
        outsideAt_iff.mpr (.inr ⟨i, a.path, c, rfl, here, outside⟩)⟩
  · rintro ⟨a, outside⟩
    rcases outsideAt_iff.mp outside with ⟨-, i, -, here⟩ | ⟨i, path, c, -, here, inner⟩
    · exact .inl ⟨some f, List.mem_iff_getElem?.mpr ⟨i, here⟩, rfl⟩
    · have child := List.mem_iff_getElem?.mpr ⟨i, here⟩
      exact .inr ⟨c, child, (each c child).mpr ⟨_, inner⟩⟩

/-- The constructs that the reader sited are the items outside the dialect, at every address. -/
theorem mem_constructs_iff {t : Tree} {f : DialectFault} :
    f ∈ t.constructs ↔ ∃ a, t.OutsideAt a f := by
  induction t with
  | empty | flags | literal | dot | assertion | property | letter | bracket =>
    exact mem_constructs_node (List.forall_mem_nil _)
  | repetition _ _ _ body ih | group _ _ body ih =>
    exact mem_constructs_node (List.forall_mem_singleton.mpr ih)
  | alternation _ branches ih => exact mem_constructs_node ih
  | concat _ items ih => exact mem_constructs_node ih

end Tree

namespace DialectFault

/-- The names of the items outside the dialect, each with the text that it starts with. -/
def signs : List (String × String) :=
  [("flag 'u'", "u"), ("flag 'x'", "x"), ("flag 'R'", "R"), ("word boundary '\\<'", "\\<"),
    ("word boundary '\\>'", "\\>"), ("word boundary '\\b\x7b...\x7d'", "\\b\x7b")]

/-- The fault points at what it names: its offset is inside the bytes of a text, and the bytes there
are those of the sign that belongs to its name. -/
def PointsInto (bytes : List UInt8) (f : DialectFault) : Prop :=
  f.offset < bytes.length ∧
    ∃ sign, (f.construct.text, sign) ∈ signs ∧ Utf8.encode sign.toList <+: bytes.drop f.offset

/-- Where a construct stands in a pattern, its offset points to one of its signs. -/
theorem StandsIn.pointsInto {bytes : List UInt8} {f : DialectFault} (stands : f.StandsIn bytes) :
    f.PointsInto bytes := by
  refine ⟨stands.1, String.ofList f.construct.sign, ?_, ?_⟩
  · cases f.construct <;> decide
  · rw [String.toList_ofList]
    exact stands.2

end DialectFault

/-- A refusal for an item outside the dialect points at it: the offset is inside the bytes of the
pattern, and the bytes there are those that the named item is written with. The item is one of those
at the addresses of the tree of the pattern, and all others of them start behind it. -/
theorem Settings.dialect_sited {s : Settings} {pattern : String} {f : DialectFault}
    (refused : (s.compile pattern).result = .error (.dialect f)) :
    f.PointsInto (Utf8.encode pattern.toList) ∧
      ∃ t, Tree.parse (Latin1.decode pattern) = .ok t ∧
        (∃ a g, t.OutsideAt a g ∧ g.inPattern (Latin1.decode pattern) = f) ∧
        ∀ a g, t.OutsideAt a g →
          (g.inPattern (Latin1.decode pattern)).PointsInto (Utf8.encode pattern.toList) ∧
            (g.inPattern (Latin1.decode pattern) = f ∨
              f.offset < (g.inPattern (Latin1.decode pattern)).offset) := by
  obtain ⟨t, rest, read, found⟩ := result_eq_dialect_iff.mp refused
  obtain ⟨parsed, -⟩ := Tree.parseWithin_eq_ok_iff.mp read
  obtain ⟨stop, sited⟩ := Tree.sited_of_parse parsed
  obtain ⟨each, ordered⟩ := sited.inPattern (.refl _)
  have first : f ∈ t.constructs.map (DialectFault.inPattern (Latin1.decode pattern)) := by
    rw [found]
    exact List.mem_cons_self
  refine ⟨(each f first).2.pointsInto, t, parsed, ?_, fun a g outside => ?_⟩
  · obtain ⟨g, inner, same⟩ := List.mem_map.mp first
    obtain ⟨a, outside⟩ := Tree.mem_constructs_iff.mp inner
    exact ⟨a, g, outside, same⟩
  · have mem : g.inPattern (Latin1.decode pattern) ∈ t.constructs.map _ :=
      List.mem_map_of_mem (Tree.mem_constructs_iff.mpr ⟨a, outside⟩)
    refine ⟨(each _ mem).2.pointsInto, ?_⟩
    rw [found, List.pairwise_cons] at ordered
    rw [found, List.mem_cons] at mem
    exact mem.imp id (ordered.1 _)

/-- In `é(?i:a|\b{start})(?x)` the boundary comes before the flag. The accented letter takes two
bytes of the pattern and four of the decoded text, so the boundary is at offset 8 and not at 10. -/
theorem Settings.dialect_sited_boundary :
    let s : Settings := {}
    let pattern := "é(?i:a|\\b\x7bstart\x7d)(?x)"
    let f : DialectFault := ⟨.specialBoundary, 8⟩
    (s.compile pattern).result = .error (.dialect f) ∧
    f.PointsInto (Utf8.encode pattern.toList) ∧
      ∃ t, Tree.parse (Latin1.decode pattern) = .ok t ∧
        (∃ a g, t.OutsideAt a g ∧ g.inPattern (Latin1.decode pattern) = f) ∧
        ∀ a g, t.OutsideAt a g →
          (g.inPattern (Latin1.decode pattern)).PointsInto (Utf8.encode pattern.toList) ∧
            (g.inPattern (Latin1.decode pattern) = f ∨
              f.offset < (g.inPattern (Latin1.decode pattern)).offset) := by
  intro s pattern f
  have refused : (s.compile pattern).result = .error (.dialect f) := by decide +kernel
  exact ⟨refused, dialect_sited refused⟩

end PatternGate
