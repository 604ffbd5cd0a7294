import Mathlib.Data.List.Basic
import PatternGate.Program.Lowering
import PatternGate.Proofs.Expr.Matching
import PatternGate.Proofs.Text.Utf8

/-!
# Which match an expression prefers

An expression may match a text in many ways, and its order says which of them comes first: a branch
before those to its right, one more turn of a greedy repetition before leaving it, and the other way
round for a lazy one. A search is what an expression does from a place on: the list of all that it
finds, in this order, each with the places noted in registers on the way. Searches are put together
by the combinators of `Search`, and `Expr.search` reads an expression as a search.

A repetition without an upper bound is searched as one of as many turns as the haystack has bytes.
Where each of its turns reads a byte this is no bound at all: `Search.upTo_eq` says that such a
repetition tries one more turn or leaves, over and over. An expression whose smallest length is not
zero reads a byte (`Expr.moves_search`).

Registers have 32-bit numbers in a program, which are exact for capture groups whose registers are
32-bit numbers (`Expr.search_register`).
-/

namespace PatternGate

/-- Where a search stands: a place of the haystack, and the places noted on the way. -/
structure Finding where
  place : Nat
  registers : Nat → Option Nat

namespace Finding

/-- A place with nothing noted. -/
def start (place : Nat) : Finding := ⟨place, fun _ => none⟩

/-- One place further. -/
def next (f : Finding) : Finding := { f with place := f.place + 1 }

/-- The place is noted in a register. -/
def note (f : Finding) (register : Nat) : Finding :=
  { f with registers := fun r => if r = register then some f.place else f.registers r }

end Finding

/-- All that can be found from a finding on, the preferred first. -/
abbrev Search := Finding → List Finding

namespace Search

/-- Finds what it is given. -/
def pass : Search := fun f => [f]

/-- Goes on with `b` from each finding of `a`, in their order. -/
def andThen (a b : Search) : Search := fun f => (a f).flatMap b

/-- The findings of `a` are preferred to those of `b`. -/
def orElse (a b : Search) : Search := fun f => a f ++ b f

/-- Takes a way or leaves it out. The greedy choice prefers to take it. -/
def enter (greedy : Bool) (a : Search) : Search := if greedy then a.orElse pass else pass.orElse a

/-- So many turns. -/
def times (a : Search) : Nat → Search
  | 0 => pass
  | n + 1 => a.andThen (a.times n)

/-- At most so many turns, each of which may be left out with those after it. -/
def upTo (greedy : Bool) (a : Search) : Nat → Search
  | 0 => pass
  | n + 1 => enter greedy (a.andThen (a.upTo greedy n))

/-- Notes the place in a register. -/
def note (register : Nat) : Search := fun f => [f.note register]

/-- Notes where it starts in the register `2 * index`, and where it ends in the one after, if
captures are kept. How registers are numbered is left open. -/
def capture (number : Nat → Nat) (kept : Bool) (index : Nat) (a : Search) : Search :=
  if kept then (note (number (2 * index))).andThen (a.andThen (note (number (2 * index + 1))))
  else a

/-- Reads one byte, if it passes a test. -/
def read (hay : Haystack) (test : UInt8 → Bool) : Search := fun f =>
  if hay.bytes[f.place]?.any test then [f.next] else []

/-- Reads the bytes of characters. -/
def spell (hay : Haystack) : List Char → Search
  | [] => pass
  | c :: cs => (read hay fun b => b.toNat == c.toNat).andThen (spell hay cs)

/-- Checks a look. -/
def check (hay : Haystack) [∀ l, DecidablePred (hay.holds l)] (l : Look) : Search := fun f =>
  if hay.holds l f.place then [f] else []

/-- A greedy search prefers what it finds to staying, and a lazy one the other way round. -/
@[simp]
theorem enter_apply (greedy : Bool) (a : Search) (f : Finding) :
    enter greedy a f = if greedy then a f ++ [f] else f :: a f := by
  cases greedy <;> rfl

/-- What follows an optional search is tried in the order of its preference. -/
theorem flatMap_enter (greedy : Bool) (a : Search) (f : Finding) (rest : Finding → List Finding) :
    (enter greedy a f).flatMap rest =
      if greedy then (a f).flatMap rest ++ rest f else rest f ++ (a f).flatMap rest := by
  cases greedy <;> simp

/-- Staying is always among the findings of an optional search. -/
theorem mem_enter_self (greedy : Bool) (a : Search) (f : Finding) : f ∈ enter greedy a f := by
  cases greedy <;> simp

/-- What is found is also found when it may be left out. -/
theorem mem_enter_of_mem {greedy : Bool} {a : Search} {f g : Finding} (found : g ∈ a f) :
    g ∈ enter greedy a f := by
  cases greedy <;> simp [found]

/-- A search that only passes adds nothing in front. -/
theorem pass_andThen (a : Search) : pass.andThen a = a := by
  funext f
  rw [andThen, pass, List.flatMap_singleton]

/-- A search that only passes adds nothing behind. -/
theorem andThen_pass (a : Search) : a.andThen pass = a := by
  funext f
  exact List.flatMap_singleton' (a f)

/-- Searches in sequence need no brackets, with all preferences kept. -/
theorem andThen_assoc (a b c : Search) : (a.andThen b).andThen c = a.andThen (b.andThen c) := by
  funext f
  exact List.flatMap_assoc

/-- The last of several turns apart. -/
theorem times_succ (a : Search) (n : Nat) : a.times (n + 1) = (a.times n).andThen a := by
  induction n with
  | zero => rw [times, times, times, pass_andThen, andThen_pass]
  | succ n ih =>
    calc a.times (n + 2) = a.andThen (a.times (n + 1)) := rfl
      _ = a.andThen ((a.times n).andThen a) := by rw [ih]
      _ = (a.times (n + 1)).andThen a := (andThen_assoc a (a.times n) a).symm

end Search

namespace Expr

section Search

variable (hay : Haystack) [∀ l, DecidablePred (hay.holds l)] (number : Nat → Nat)

mutual

/-- The search of an expression. -/
def search (kept : Bool) : Expr → Search
  | .empty => .pass
  | .literal bs => .spell hay (Utf8.decode bs)
  | .chars set => .read hay fun b => set.contains b.toNat
  | .bytes set => .read hay fun b => set.contains b.toNat
  | .look l => .check hay l
  | .repetition min max greedy body =>
    ((body.search kept).times min).andThen
      ((body.search kept).upTo greedy (max.elim hay.bytes.length (· - min)))
  | .capture index _ body => .capture number kept index (body.search kept)
  | .concat items => searchAll kept items
  | .alternation branches => searchAny kept branches

/-- One expression after another. -/
def searchAll (kept : Bool) : List Expr → Search
  | [] => .pass
  | e :: es => (e.search kept).andThen (searchAll kept es)

/-- One expression or another, from left to right. -/
def searchAny (kept : Bool) : List Expr → Search
  | [] => fun _ => []
  | e :: es => (e.search kept).orElse (searchAny kept es)

end

/-- All matches of an expression, the preferred first: where they end, and what they note. They are
searched from every place on, in increasing order, or only from the first one if each of them starts
there. -/
def preferred (kept : Bool) (e : Expr) : List Finding :=
  (if e.leadsWith .start then [0] else List.range (hay.bytes.length + 1)).flatMap fun i =>
    e.search hay number kept (.start i)

end Search

mutual

/-- The smallest number of bytes that an expression matches in UTF-8. An expression without matches
has none. -/
def minLength : Expr → Option Nat
  | .empty => some 0
  | .literal bs => some bs.length
  | .chars set => set.head?.map fun r => utf8Length r.lo
  | .bytes set => if set.isEmpty then none else some 1
  | .look _ => some 0
  | .repetition min _ _ body => if min = 0 then some 0 else body.minLength.map (min * ·)
  | .capture _ _ body => body.minLength
  | .concat items => sumMinLength items
  | .alternation branches => infMinLength branches

/-- The sum of the smallest lengths. -/
def sumMinLength : List Expr → Option Nat
  | [] => some 0
  | e :: es => do
    let a ← e.minLength
    let b ← sumMinLength es
    return a + b

/-- The smallest of the smallest lengths of those that have one. -/
def infMinLength : List Expr → Option Nat
  | [] => none
  | e :: es => Option.merge Nat.min e.minLength (infMinLength es)

end

/-- A repetition without an upper bound reads a byte in each turn. -/
def NodeReads : Expr → Prop
  | .repetition _ none _ body => body.minLength ≠ some 0
  | _ => True

instance : DecidablePred NodeReads
  | .repetition _ none _ body => inferInstanceAs (Decidable (body.minLength ≠ some 0))
  | .repetition _ (some _) _ _ | .empty | .literal _ | .chars _ | .bytes _ | .look _
  | .capture _ _ _ | .concat _ | .alternation _ => inferInstanceAs (Decidable True)

end Expr

namespace Search

/-- Every finding is `n` places further on at least, and what is further on is not beyond the end of
the haystack. -/
def Moves (hay : Haystack) (n : Nat) (a : Search) : Prop :=
  ∀ f, ∀ g ∈ a f, f.place + n ≤ g.place ∧ (f.place < g.place → g.place ≤ hay.bytes.length)

namespace Moves

variable {hay : Haystack} {n m : Nat} {a b : Search}

/-- A search that moves far moves less far, too. -/
theorem mono (moves : Moves hay n a) (le : m ≤ n) : Moves hay m a :=
  fun f g found => ⟨Nat.le_trans (Nat.add_le_add_left le _) (moves f g found).1,
    (moves f g found).2⟩

/-- Passing moves nowhere. -/
theorem pass : Moves hay 0 pass := by
  intro f g found
  rw [List.mem_singleton.mp found]
  exact ⟨Nat.le_refl _, fun lt => absurd lt (Nat.lt_irrefl _)⟩

/-- Searches in sequence move as far as both together. -/
theorem andThen (first : Moves hay n a) (second : Moves hay m b) :
    Moves hay (n + m) (a.andThen b) := by
  intro f h found
  obtain ⟨g, before, after⟩ := List.mem_flatMap.mp found
  have start := first f g before
  have stop := second g h after
  constructor
  · omega
  · -- Whichever of the two moved last ended within the haystack.
    intro lt
    rcases Nat.eq_or_lt_of_le (Nat.le_trans (Nat.le_add_right _ _) stop.1) with same | moved
    · exact same ▸ start.2 (same ▸ lt)
    · exact stop.2 moved

/-- A choice of searches moves as far as each of them does. -/
theorem orElse (first : Moves hay n a) (second : Moves hay n b) : Moves hay n (a.orElse b) := by
  intro f g found
  exact (List.mem_append.mp found).elim (first f g) (second f g)

/-- A search that may be left out need not move. -/
theorem enter (greedy : Bool) (moves : Moves hay 0 a) : Moves hay 0 (a.enter greedy) := by
  cases greedy with
  | false => exact pass.orElse moves
  | true => exact moves.orElse pass

/-- A repeated search moves as far in each turn. -/
theorem times (moves : Moves hay n a) (k : Nat) : Moves hay (k * n) (a.times k) := by
  induction k with
  | zero => exact pass.mono (Nat.le_of_eq (Nat.zero_mul n))
  | succ k ih =>
    have sum : (k + 1) * n = n + k * n := by rw [Nat.succ_mul, Nat.add_comm]
    exact sum ▸ moves.andThen ih

/-- Turns that may be left out need not move, but never move back. -/
theorem upTo (greedy : Bool) (moves : Moves hay 0 a) (k : Nat) : Moves hay 0 (a.upTo greedy k) := by
  induction k with
  | zero => exact pass
  | succ k ih => exact (moves.andThen ih).enter greedy

/-- Noting a place does not move. -/
theorem note (register : Nat) : Moves hay 0 (Search.note register) := by
  intro f g found
  rw [List.mem_singleton.mp found]
  exact ⟨Nat.le_refl _, fun lt => absurd lt (Nat.lt_irrefl _)⟩

/-- A group moves as far as its body. -/
theorem capture (number : Nat → Nat) (kept : Bool) (index : Nat) (moves : Moves hay n a) :
    Moves hay n (a.capture number kept index) := by
  cases kept with
  | false => exact moves
  | true => exact ((note _).andThen (moves.andThen (note _))).mono (by omega)

/-- Reading a byte moves by one place, and only inside the haystack. -/
theorem read (test : UInt8 → Bool) : Moves hay 1 (read hay test) := by
  intro f g found
  unfold Search.read at found
  split at found
  next passes =>
    obtain ⟨b, byte, -⟩ := (Option.any_eq_true _ _).mp passes
    obtain ⟨inside, -⟩ := List.getElem?_eq_some_iff.mp byte
    rw [List.mem_singleton.mp found]
    exact ⟨Nat.le_refl _, fun _ => inside⟩
  next => cases found

/-- Spelling a text moves by at least one place for each character. -/
theorem spell (cs : List Char) : Moves hay cs.length (spell hay cs) := by
  induction cs with
  | nil => exact pass
  | cons c cs ih => exact ((read _).andThen ih).mono (by rw [List.length_cons]; omega)

/-- Checking an assertion does not move. -/
theorem check [∀ l, DecidablePred (hay.holds l)] (l : Look) : Moves hay 0 (check hay l) := by
  intro f g found
  unfold Search.check at found
  split at found
  next => exact pass f g found
  next => cases found

end Moves

section Turns

variable {hay : Haystack} {a : Search} (moves : Moves hay 1 a)
include moves

/-- At the end of the haystack nothing more is read. -/
theorem eq_nil_of_moves {f : Finding} (stop : hay.bytes.length ≤ f.place) : a f = [] := by
  rw [List.eq_nil_iff_forall_not_mem]
  intro g found
  obtain ⟨later, inside⟩ := moves f g found
  have := inside later
  omega

/-- At the end of the haystack no turn is taken. -/
theorem upTo_of_stop (greedy : Bool) (n : Nat) {f : Finding} (stop : hay.bytes.length ≤ f.place) :
    a.upTo greedy n f = [f] := by
  cases n with
  | zero => rfl
  | succ n =>
    have none : a.andThen (a.upTo greedy n) f = [] := by
      rw [andThen, eq_nil_of_moves moves stop, List.flatMap_nil]
    rw [upTo, enter_apply, none]
    cases greedy <;> rfl

/-- More turns than there are bytes left change nothing, if each turn reads a byte. -/
theorem upTo_congr (greedy : Bool) {n m : Nat} {f : Finding}
    (enough : hay.bytes.length ≤ f.place + n) (enough' : hay.bytes.length ≤ f.place + m) :
    a.upTo greedy n f = a.upTo greedy m f := by
  induction n generalizing m f with
  | zero => rw [upTo_of_stop moves greedy 0 enough, upTo_of_stop moves greedy m enough]
  | succ n ih =>
    cases m with
    | zero => rw [upTo_of_stop moves greedy 0 enough', upTo_of_stop moves greedy (n + 1) enough']
    | succ m =>
      have turns : a.andThen (a.upTo greedy n) f = a.andThen (a.upTo greedy m) f := by
        apply List.flatMap_congr
        intro g found
        have later := (moves f g found).1
        exact ih (by omega) (by omega)
      rw [upTo, upTo, enter_apply, enter_apply, turns]

/-- A repetition without an upper bound takes a turn and repeats, or leaves. -/
theorem upTo_eq (greedy : Bool) :
    a.upTo greedy hay.bytes.length = enter greedy (a.andThen (a.upTo greedy hay.bytes.length)) := by
  funext f
  exact upTo_congr moves greedy (m := hay.bytes.length + 1) (by omega) (by omega)

end Turns

/-- The lazy search for a place leaves at once, and then one byte further each time. -/
theorem upTo_any {hay : Haystack} (n : Nat) {i : Nat} (all : i + n = hay.bytes.length) :
    (read hay fun _ => true).upTo false n (.start i) = (List.range' i (n + 1)).map .start := by
  induction n generalizing i with
  | zero => rfl
  | succ n ih =>
    have inside : i < hay.bytes.length := by omega
    have one : read hay (fun _ => true) (.start i) = [.start (i + 1)] := by
      simp only [read, Finding.start, List.getElem?_eq_getElem inside]
      rfl
    rw [upTo, enter_apply, if_neg Bool.false_ne_true, andThen, one, List.flatMap_singleton,
      ih (by omega)]
    rfl

end Search

namespace Expr

variable {hay : Haystack} [∀ l, DecidablePred (hay.holds l)] {number : Nat → Nat} {kept : Bool}

/-- A byte at least, if the smallest length is not zero. -/
def leastRead (length : Option Nat) : Nat := if length = some 0 then 0 else 1

/-- A sequence moves as far as its items together, by their smallest lengths. -/
theorem moves_searchAll {es : List Expr}
    (each : ∀ e ∈ es, Search.Moves hay (leastRead e.minLength) (e.search hay number kept)) :
    Search.Moves hay (leastRead (sumMinLength es)) (searchAll hay number kept es) := by
  induction es with
  | nil =>
    rw [searchAll, sumMinLength]
    exact .pass
  | cons e es ih =>
    rw [List.forall_mem_cons] at each
    rw [searchAll, sumMinLength]
    refine (each.1.andThen (ih each.2)).mono ?_
    unfold leastRead
    cases e.minLength <;> cases sumMinLength es <;> grind

/-- An alternation moves as far as the shortest of its branches. -/
theorem moves_searchAny {es : List Expr}
    (each : ∀ e ∈ es, Search.Moves hay (leastRead e.minLength) (e.search hay number kept)) :
    Search.Moves hay (leastRead (infMinLength es)) (searchAny hay number kept es) := by
  induction es with
  | nil =>
    rw [searchAny]
    exact fun f g found => absurd found List.not_mem_nil
  | cons e es ih =>
    rw [List.forall_mem_cons] at each
    rw [searchAny, infMinLength]
    refine (each.1.mono ?_).orElse ((ih each.2).mono ?_)
    · unfold leastRead
      cases e.minLength <;> cases infMinLength es <;> grind [Option.merge]
    · unfold leastRead
      cases e.minLength <;> cases infMinLength es <;> grind [Option.merge]

/-- An expression reads a byte at least, if its smallest length is not zero. -/
theorem moves_search (e : Expr) :
    Search.Moves hay (leastRead e.minLength) (e.search hay number kept) := by
  induction e with
  | empty =>
    rw [search, minLength]
    exact .pass
  | literal bs =>
    rw [search, minLength]
    refine (Search.Moves.spell _).mono ?_
    unfold leastRead
    split
    · omega
    next some =>
      have := List.length_pos_iff.mpr (mt Utf8.decode_eq_nil_iff.mp (by simpa using some))
      omega
  | chars set =>
    rw [search]
    exact (Search.Moves.read _).mono (by unfold leastRead; split <;> omega)
  | bytes set =>
    rw [search]
    exact (Search.Moves.read _).mono (by unfold leastRead; split <;> omega)
  | look l =>
    rw [search, minLength]
    exact .check l
  | repetition min max greedy body ih =>
    rw [search, minLength]
    refine ((ih.times min).andThen ((ih.mono (Nat.zero_le _)).upTo greedy _)).mono ?_
    unfold leastRead
    by_cases never : min = 0
    · simp [never]
    · by_cases zero : body.minLength = some 0
      · simp [never, zero]
      · -- The first turn reads a byte.
        rw [if_neg never, if_neg zero, Nat.mul_one]
        split
        · omega
        · omega
  | capture index name body ih =>
    rw [search, minLength]
    exact ih.capture number kept index
  | concat items ih =>
    rw [search, minLength]
    exact moves_searchAll ih
  | alternation branches ih =>
    rw [search, minLength]
    exact moves_searchAny ih

/-- The two registers of a capture group are 32-bit numbers. -/
def NodeNumbered : Expr → Prop
  | .capture index _ _ => 2 * index + 1 < UInt32.size
  | _ => True

instance : DecidablePred NodeNumbered
  | .capture index _ _ => inferInstanceAs (Decidable (2 * index + 1 < UInt32.size))
  | .empty | .literal _ | .chars _ | .bytes _ | .look _ | .repetition _ _ _ _ | .concat _
  | .alternation _ => inferInstanceAs (Decidable True)

/-- Sequences search alike if their items do, whatever numbers their registers have. -/
theorem searchAll_congr {number' : Nat → Nat} {es : List Expr}
    (each : ∀ e ∈ es, e.search hay number kept = e.search hay number' kept) :
    searchAll hay number kept es = searchAll hay number' kept es := by
  induction es with
  | nil => rw [searchAll, searchAll]
  | cons e es ih =>
    rw [List.forall_mem_cons] at each
    rw [searchAll, searchAll, each.1, ih each.2]

/-- Alternations search alike if their branches do, whatever numbers their registers have. -/
theorem searchAny_congr {number' : Nat → Nat} {es : List Expr}
    (each : ∀ e ∈ es, e.search hay number kept = e.search hay number' kept) :
    searchAny hay number kept es = searchAny hay number' kept es := by
  induction es with
  | nil => rw [searchAny, searchAny]
  | cons e es ih =>
    rw [List.forall_mem_cons] at each
    rw [searchAny, searchAny, each.1, ih each.2]

/-- Registers that are 32-bit numbers are numbered exactly. -/
theorem search_register (e : Expr) (numbered : e.Each NodeNumbered) :
    e.search hay Emitter.register kept = e.search hay id kept := by
  induction e with
  | empty | literal _ | chars _ | bytes _ | look _ => rw [search, search]
  | repetition min max greedy body ih =>
    rw [search, search, ih (Each.repetition_iff.mp numbered).2]
  | capture index name body ih =>
    obtain ⟨small, inner⟩ := Each.capture_iff.mp numbered
    have exact : ∀ n < UInt32.size, Emitter.register n = id n := fun n lt => Nat.mod_eq_of_lt lt
    rw [search, search, Search.capture, Search.capture, ih inner, exact (2 * index + 1) small,
      exact (2 * index) (Nat.lt_of_succ_lt small)]
  | concat items ih =>
    have each := (Each.concat_iff.mp numbered).2
    rw [search, search, searchAll_congr fun e mem => ih e mem (each e mem)]
  | alternation branches ih =>
    have each := (Each.alternation_iff.mp numbered).2
    rw [search, search, searchAny_congr fun e mem => ih e mem (each e mem)]

end Expr

end PatternGate
