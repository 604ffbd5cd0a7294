import Mathlib.Algebra.BigOperators.Group.List.Basic
import PatternGate.Proofs.CharSet
import PatternGate.Proofs.Expr.Built
import PatternGate.Proofs.Expr.Matching
import PatternGate.Proofs.Text.Utf8

/-!
# Building expressions keeps their sense

The functions that build expressions rewrite what they are given, and this module says what stays
the same. The sense of an expression is whether it has greatest length zero, whether it leads with
the start of the text, and what it matches. A sequence is the product of the senses of its items
(`sense_ofConcat`), and an alternation is their choice (`sense_ofAlternation`), whatever has been
flattened, joined, lifted or turned into a class. So the sense of a whole depends on its parts only
through their sense, and captures do not show in it.

The part about sequences is stated for every view of expressions with values in a monoid, since
flattening and joining literals keep more than the sense. It asks that literals are bytes of a text:
only then does joining them join their characters.
-/

namespace PatternGate

namespace Expr

/-- What stands at the nodes of an expression that comes from a pattern: literals are bytes of a
text, there are no classes of bytes but the empty one, and an alternation is a real choice. -/
def NodeText : Expr → Prop
  | .literal bs => Utf8.Valid bs
  | .bytes set => set = []
  | .alternation branches => 2 ≤ branches.length
  | _ => True

/-- A character is written in valid UTF-8. -/
theorem nodeText_ofScalar (n : Nat) : (ofScalar n).NodeText := Utf8.valid_encode _

/-- A set of one character is written in valid UTF-8, and any other set is no text. -/
theorem nodeText_ofChars (set : RangeSet) : (ofChars set).NodeText := by
  unfold ofChars
  split
  · rfl
  · split
    · split
      · exact nodeText_ofScalar _
      · trivial
    · trivial

/-- A list of results is there exactly if each of them is. -/
theorem isSome_mapM_iff {β : Type} {f : Expr → Option β} {es : List Expr} :
    (es.mapM f).isSome = true ↔ ∀ e ∈ es, (f e).isSome = true := by
  induction es with
  | nil => simp
  | cons e es ih =>
    rw [List.forall_mem_cons, ← ih, List.mapM_cons]
    cases f e <;> cases es.mapM f <;> simp

/-- Where an expression from a pattern is one byte, it is one character. -/
theorem isSome_char?_of_byte? {e : Expr} (text : e.NodeText) (byte : (byte? e).isSome = true) :
    (char? e).isSome = true := by
  unfold byte? at byte
  split at byte
  next b =>
    have encoded : Utf8.encode (Utf8.decode [b]) = [b] := text
    have length := congrArg List.length encoded
    unfold char?
    cases decoded : Utf8.decode [b] with
    | nil => simp [decoded, Utf8.encode] at length
    | cons c cs =>
      cases cs with
      | nil =>
        rw [decoded] at encoded
        simp [decoded, encoded]
      | cons d cs =>
        have first := c.utf8Size_pos
        have second := d.utf8Size_pos
        simp [decoded, Utf8.encode] at length
        omega
  next => cases byte

/-- Where an expression from a pattern is a class of bytes, it is a class of characters. -/
theorem isSome_charSet?_of_byteSet? {e : Expr} (text : e.NodeText)
    (bytes : (byteSet? e).isSome = true) : (charSet? e).isSome = true := by
  unfold byteSet? at bytes
  split at bytes
  next => rfl
  next set =>
    obtain rfl : set = [] := text
    rfl
  next => cases bytes

/-- An alternation of parts of a pattern that is written as a class is the class of its characters
or the union of its classes; the two ways that lead to bytes are never taken. -/
theorem ofAlternatives?_text {es : List Expr} {e : Expr} (text : ∀ d ∈ es, d.NodeText)
    (written : ofAlternatives? es = some e) :
    (∃ cs, es.mapM char? = some cs ∧ e = ofChars (RangeSet.ofRanges (cs.map Range.single))) ∨
    (∃ sets, es.mapM charSet? = some sets ∧ e = ofChars (unionAll sets)) := by
  rcases ofAlternatives?_cases written with chars | ⟨none, bs, some, -⟩ | sets | ⟨none, bs, some, -⟩
  · exact .inl chars
  · have each := isSome_mapM_iff.mp (Option.isSome_of_eq_some some)
    have all := isSome_mapM_iff.mpr fun d mem => isSome_char?_of_byte? (text d mem) (each d mem)
    rw [none] at all
    cases all
  · exact .inr sets
  · have each := isSome_mapM_iff.mp (Option.isSome_of_eq_some some)
    have all := isSome_mapM_iff.mpr fun d mem =>
      isSome_charSet?_of_byteSet? (text d mem) (each d mem)
    rw [none] at all
    cases all

/-- Valid texts stay valid when expressions are built from them. -/
theorem stable_nodeText : Stable NodeText where
  empty := trivial
  fail := rfl
  literal a b validA validB := by
    have joined := Utf8.valid_encode (Utf8.decode a ++ Utf8.decode b)
    have encodedA : Utf8.encode (Utf8.decode a) = a := validA
    have encodedB : Utf8.encode (Utf8.decode b) = b := validB
    rwa [Utf8.encode_append, encodedA, encodedB] at joined
  concat _ := trivial
  alternation _ two := two
  alternatives es e text written := by
    rcases ofAlternatives?_text text written with ⟨_, -, rfl⟩ | ⟨_, -, rfl⟩
    · exact nodeText_ofChars _
    · exact nodeText_ofChars _

/-- A view of expressions under which a sequence is the product of its items. -/
structure Sequential {α : Type} [Monoid α] (view : Expr → α) : Prop where
  empty : view .empty = 1
  concat : ∀ items, view (.concat items) = (items.map view).prod
  literal : ∀ a b, Utf8.Valid a → view (.literal (a ++ b)) = view (.literal a) * view (.literal b)

namespace Sequential

variable {α : Type} [Monoid α] {view : Expr → α} (seq : Sequential view)
include seq

/-- A sequence has the view of its items in order, and any other expression is one item. -/
theorem prod_items (e : Expr) : (e.items.map view).prod = view e := by
  cases e with
  | concat items => exact (seq.concat items).symm
  | _ => simp [items]

/-- An item that is added to a sequence keeps the view, also where two texts are joined. -/
theorem prod_consItem {e : Expr} (text : e.NodeText) (es : List Expr) :
    ((consItem e es).map view).prod = view e * (es.map view).prod := by
  fun_cases consItem e es with
  | case1 => rw [seq.empty, one_mul]
  | case2 a b tail =>
    rw [List.map_cons, List.map_cons, List.prod_cons, List.prod_cons, seq.literal a b text,
      mul_assoc]
  | case3 => rw [List.map_cons, List.prod_cons]

/-- A list of items keeps its view when texts that meet are joined. The induction is on the items.
-/
theorem prod_foldr_consItem {es : List Expr} (text : ∀ e ∈ es, e.NodeText) :
    ((es.foldr consItem []).map view).prod = (es.map view).prod := by
  induction es with
  | nil => rfl
  | cons e es ih =>
    rw [List.forall_mem_cons] at text
    rw [List.foldr_cons, seq.prod_consItem text.1, ih text.2, List.map_cons, List.prod_cons]

/-- A sequence is the product of what it was built from. -/
theorem ofConcat {es : List Expr} (text : ∀ e ∈ es, e.Each NodeText) :
    view (ofConcat es) = (es.map view).prod := by
  have flat : ∀ d ∈ es.flatMap items, d.NodeText :=
    List.forall_mem_flatMap.mpr fun e mem d found => ((text e mem).items d found).self
  have parts : ((es.flatMap items).map view).prod = (es.map view).prod := by
    clear text flat
    induction es with
    | nil => rfl
    | cons e es ih =>
      rw [List.flatMap_cons, List.map_append, List.prod_append, ih, seq.prod_items, List.map_cons,
        List.prod_cons]
  have product := seq.prod_foldr_consItem flat
  rw [parts] at product
  unfold Expr.ofConcat flatItems
  split
  next nothing =>
    rw [nothing] at product
    rw [← product, seq.empty, List.map_nil, List.prod_nil]
  next e single =>
    rw [single] at product
    rw [← product, List.map_singleton, List.prod_singleton]
  next => rw [seq.concat, product]

end Sequential

end Expr

/-- What of an expression is kept: it has greatest length zero, it leads with the start of the text,
and the places from which and to which it matches. -/
structure Sense where
  zero : Prop
  leads : Prop
  spans : Nat → Nat → Prop

namespace Sense

/-- Senses are equal that agree on all three questions. -/
@[ext]
theorem ext_iffs {a b : Sense} (zero : a.zero ↔ b.zero) (leads : a.leads ↔ b.leads)
    (spans : ∀ i j, a.spans i j ↔ b.spans i j) : a = b := by
  cases a
  cases b
  congr 1
  · exact propext zero
  · exact propext leads
  · funext i j
    exact propext (spans i j)

/-- Senses in a sequence. It leads with the start of the text if an item does and the items before
it have length zero. -/
instance : Mul Sense where
  mul a b :=
    ⟨a.zero ∧ b.zero, a.leads ∨ (a.zero ∧ b.leads), fun i j => ∃ k, a.spans i k ∧ b.spans k j⟩

instance : One Sense where
  one := ⟨True, False, fun i j => i = j⟩

/-- The sense of nothing: it is empty, does not lead with an anchor, and spans no text. -/
theorem one_def : (1 : Sense) = ⟨True, False, fun i j => i = j⟩ := rfl

/-- The sense of a sequence: a span is divided at some place between its parts. -/
theorem mul_def (a b : Sense) : a * b =
    ⟨a.zero ∧ b.zero, a.leads ∨ (a.zero ∧ b.leads),
      fun i j => ∃ k, a.spans i k ∧ b.spans k j⟩ := rfl

instance : Monoid Sense where
  one_mul a := by
    ext <;> simp [one_def, mul_def]
  mul_one a := by
    ext <;> simp [one_def, mul_def]
  mul_assoc a b c := by
    ext i j
    · exact and_assoc
    · simp only [mul_def]
      tauto
    · constructor
      · intro spans
        obtain ⟨l, ⟨k, first, second⟩, third⟩ := spans
        exact ⟨k, first, l, second, third⟩
      · intro spans
        obtain ⟨k, first, l, second, third⟩ := spans
        exact ⟨l, ⟨k, first, second⟩, third⟩

/-- A choice between senses. -/
def any (ss : List Sense) : Sense where
  zero := ss ≠ [] ∧ ∀ s ∈ ss, s.zero
  leads := ss ≠ [] ∧ ∀ s ∈ ss, s.leads
  spans i j := ∃ s ∈ ss, s.spans i j

/-- One branch has its own sense. -/
theorem any_singleton (s : Sense) : any [s] = s := by
  ext <;> simp [any]

/-- Choices between choices are one choice. -/
theorem any_flatten {groups : List (List Sense)} (some : ∀ ss ∈ groups, ss ≠ []) :
    any groups.flatten = any (groups.map any) := by
  have full : groups.flatten ≠ [] ↔ groups.map any ≠ [] := by
    rw [ne_eq, ne_eq, List.flatten_eq_nil_iff, List.map_eq_nil_iff]
    cases groups with
    | nil => simp
    | cons ss groups => simpa using fun none => absurd none (some ss List.mem_cons_self)
  have all : ∀ p : Sense → Prop, (∀ s ∈ groups.flatten, p s) ↔
      ∀ ss ∈ groups, ss ≠ [] ∧ ∀ s ∈ ss, p s := by
    intro p
    rw [List.forall_mem_flatten]
    exact ⟨fun each ss mem => ⟨some ss mem, each ss mem⟩, fun each ss mem => (each ss mem).2⟩
  ext i j
  · refine and_congr full ((all zero).trans ?_)
    rw [List.forall_mem_map]
    rfl
  · refine and_congr full ((all leads).trans ?_)
    rw [List.forall_mem_map]
    rfl
  · constructor
    · intro spans
      obtain ⟨s, mem, spans⟩ := spans
      obtain ⟨ss, found, mem⟩ := List.mem_flatten.mp mem
      exact ⟨any ss, List.mem_map_of_mem found, s, mem, spans⟩
    · intro spans
      obtain ⟨_, mem, spans⟩ := spans
      obtain ⟨ss, found, rfl⟩ := List.mem_map.mp mem
      obtain ⟨s, mem, spans⟩ := spans
      exact ⟨s, List.mem_flatten.mpr ⟨ss, found, mem⟩, spans⟩

/-- A sense before a choice is a choice between what it stands before. -/
theorem mul_any (s : Sense) {ss : List Sense} (some : ss ≠ []) :
    s * any ss = any (ss.map (s * ·)) := by
  obtain ⟨first, mem⟩ := List.exists_mem_of_ne_nil ss some
  ext i j
  · simp only [any, mul_def, List.forall_mem_map, List.map_eq_nil_iff, ne_eq]
    grind
  · simp only [any, mul_def, List.forall_mem_map, List.map_eq_nil_iff, ne_eq]
    grind
  · simp only [any, mul_def, List.mem_map]
    grind

/-- One byte of a set. -/
def ofSet (hay : Haystack) (set : RangeSet) : Sense := ⟨False, False, hay.HasByte set⟩

/-- A choice between sets is their union. -/
theorem any_ofSet {hay : Haystack} {sets : List RangeSet} {union : RangeSet} (some : sets ≠ [])
    (members : ∀ n, union.contains n = sets.any (·.contains n)) :
    any (sets.map (ofSet hay)) = ofSet hay union := by
  obtain ⟨first, mem⟩ := List.exists_mem_of_ne_nil sets some
  ext i j
  · exact ⟨fun each => each.2 (ofSet hay first) (List.mem_map_of_mem mem), False.elim⟩
  · exact ⟨fun each => each.2 (ofSet hay first) (List.mem_map_of_mem mem), False.elim⟩
  · simp only [any, ofSet, Haystack.HasByte, members, List.any_eq_true]
    constructor
    · intro spans
      obtain ⟨_, mem, spans⟩ := spans
      obtain ⟨set, found, rfl⟩ := List.mem_map.mp mem
      obtain ⟨⟨b, byte, member⟩, next⟩ := spans
      exact ⟨⟨b, byte, set, found, member⟩, next⟩
    · intro spans
      obtain ⟨⟨b, byte, set, found, member⟩, next⟩ := spans
      exact ⟨_, List.mem_map_of_mem found, ⟨b, byte, member⟩, next⟩

end Sense

namespace Expr

variable {hay : Haystack}

/-- The sense of an expression over a haystack. -/
def sense (hay : Haystack) (e : Expr) : Sense :=
  ⟨e.maxLength = some 0, e.leadsWith .start = true, Matches hay e⟩

/-- Nothing has the sense of an empty sequence. -/
theorem sense_empty : sense hay .empty = 1 := by
  ext i j <;> simp [sense, maxLength, leadsWith, Matches, Sense.one_def]

/-- A group has the sense of its body: captures do not count for what is matched. -/
theorem sense_capture (index : Nat) (name : Option String) (e : Expr) :
    sense hay (.capture index name e) = sense hay e := by
  ext i j <;> simp [sense, maxLength, leadsWith, Matches]

/-- A sequence has the product of the senses of its items. -/
theorem sense_concat (es : List Expr) : sense hay (.concat es) = (es.map (sense hay)).prod := by
  induction es with
  | nil =>
    ext i j
    · simp [sense, maxLength, sumLength, Sense.one_def]
    · simp [sense, leadsWith, anyLeadsWith, Sense.one_def]
    · simp [sense, Matches, MatchesAll, Sense.one_def]
  | cons e es ih =>
    rw [List.map_cons, List.prod_cons, ← ih]
    ext i j
    · simp only [sense, Sense.mul_def, maxLength, sumLength_eq_zero_iff, List.forall_mem_cons]
    · simp [sense, Sense.mul_def, leadsWith, anyLeadsWith]
    · simp only [sense, Sense.mul_def, Matches, MatchesAll]

/-- An alternation has the sense of any of its branches. -/
theorem sense_alternation (es : List Expr) :
    sense hay (.alternation es) = Sense.any (es.map (sense hay)) := by
  ext i j
  · simp only [sense, Sense.any, maxLength, supLength_eq_zero_iff, List.forall_mem_map, ne_eq,
      List.map_eq_nil_iff]
  · simp [sense, Sense.any, leadsWith, allLeadWith_iff]
  · simp only [sense, Matches, matchesAny_iff]
    constructor
    · intro found
      obtain ⟨e, mem, found⟩ := found
      exact ⟨sense hay e, List.mem_map_of_mem mem, found⟩
    · intro chosen
      obtain ⟨_, branch, found⟩ := chosen
      obtain ⟨e, mem, rfl⟩ := List.mem_map.mp branch
      exact ⟨e, mem, found⟩

/-- The characters of joined literals are those of each, one after the other. -/
theorem sense_literal_append {a : List UInt8} (valid : Utf8.Valid a) (b : List UInt8) :
    sense hay (.literal (a ++ b)) = sense hay (.literal a) * sense hay (.literal b) := by
  ext i j
  · simp [sense, Sense.mul_def, maxLength]
  · simp [sense, Sense.mul_def, leadsWith]
  · simp only [sense, Sense.mul_def, Matches]
    have encodedA : Utf8.encode (Utf8.decode a) = a := valid
    constructor
    · intro whole
      obtain ⟨cs, encoded, spells⟩ := whole
      -- Decoding tells where the characters of the first literal end.
      have split : cs = Utf8.decode a ++ Utf8.decode b := by
        rw [← Utf8.decode_encode cs, encoded, ← Utf8.decode_encode_append, encodedA]
      rw [split, Utf8.encode_append, encodedA] at encoded
      rw [split, Haystack.spells_append] at spells
      obtain ⟨k, first, second⟩ := spells
      exact ⟨k, ⟨_, encodedA, first⟩, _, List.append_cancel_left encoded, second⟩
    · intro parts
      obtain ⟨k, ⟨cs, rfl, first⟩, ds, rfl, second⟩ := parts
      exact ⟨cs ++ ds, Utf8.encode_append cs ds, Haystack.spells_append.mpr ⟨k, first, second⟩⟩

/-- Senses are a view of sequences: they do not depend on how items are grouped or texts are joined.
-/
theorem sequential_sense (hay : Haystack) : Sequential (sense hay) where
  empty := sense_empty
  concat := sense_concat
  literal _ b valid := sense_literal_append valid b

/-- The sense of a sequence is the product of the senses of what it was built from. -/
theorem sense_ofConcat {es : List Expr} (text : ∀ e ∈ es, e.Each NodeText) :
    sense hay (ofConcat es) = (es.map (sense hay)).prod :=
  (sequential_sense hay).ofConcat text

/-- A set of characters spans one of its characters. -/
theorem sense_chars (set : RangeSet) : sense hay (.chars set) = Sense.ofSet hay set := by
  ext i j
  · simp only [sense, Sense.ofSet, maxLength, iff_false, Option.map_eq_some_iff, not_exists,
      not_and]
    exact fun n _ => Nat.ne_of_gt (utf8Length_pos n)
  · simp [sense, Sense.ofSet, leadsWith]
  · simp [sense, Sense.ofSet, Matches]

/-- A set of bytes spans one of its bytes. -/
theorem sense_bytes (set : RangeSet) : sense hay (.bytes set) = Sense.ofSet hay set := by
  ext i j
  · simp [sense, Sense.ofSet, maxLength]
  · simp [sense, Sense.ofSet, leadsWith]
  · simp [sense, Sense.ofSet, Matches]

/-- What never matches has the sense of no branches at all. -/
theorem sense_fail : sense hay fail = Sense.any [] := by
  rw [fail, sense_bytes]
  ext i j <;> simp [Sense.ofSet, Sense.any, Haystack.HasByte]

/-- A literal of one character is a class of one. -/
theorem sense_literal_char (c : Char) :
    sense hay (.literal (Utf8.encode [c])) = Sense.ofSet hay [Range.single c.toNat] := by
  ext i j
  · have size := c.utf8Size_pos
    simp [sense, Sense.ofSet, maxLength, Utf8.encode, Nat.ne_of_gt size]
  · simp [sense, Sense.ofSet, leadsWith]
  · have member : ∀ b : UInt8, RangeSet.contains [Range.single c.toNat] b.toNat = true ↔
        b.toNat = c.toNat := by
      intro b
      rw [RangeSet.contains_iff]
      simp only [List.mem_singleton, exists_eq_left, Range.single]
      omega
    simp only [sense, Sense.ofSet, Matches, Haystack.HasByte, member]
    constructor
    · intro spelled
      obtain ⟨cs, encoded, spells⟩ := spelled
      rw [← Utf8.decode_encode cs, encoded, Utf8.decode_encode] at spells
      exact ⟨spells.1, spells.2.symm⟩
    · intro read
      obtain ⟨byte, next⟩ := read
      exact ⟨[c], rfl, byte, next.symm⟩

/-- Building a set as a text of one character, or as what never matches, keeps its sense. -/
theorem sense_ofChars (set : RangeSet) : sense hay (ofChars set) = Sense.ofSet hay set := by
  unfold ofChars
  split
  next empty =>
    rw [List.isEmpty_iff.mp empty]
    exact sense_bytes []
  next =>
    split
    next n single =>
      split
      next valid =>
        have value : (Char.ofNat n).toNat = n := by
          rw [Char.ofNat, dif_pos valid]
          rfl
        rw [ofScalar, sense_literal_char, value, RangeSet.eq_of_single? single]
      next => exact sense_chars set
    next => exact sense_chars set

/-- An expression for one character has the sense of the set of that character. -/
theorem sense_of_char? {e : Expr} {n : Nat} (found : char? e = some n) :
    sense hay e = Sense.ofSet hay [Range.single n] := by
  unfold char? at found
  split at found
  next bs =>
    split at found
    next c _ =>
      split at found
      next encoded =>
        cases found
        rw [← encoded, sense_literal_char]
      next => cases found
    next => cases found
  next => cases found

/-- An expression for one character of a set has the sense of the set. -/
theorem sense_of_charSet? {e : Expr} {set : RangeSet} (found : charSet? e = some set) :
    sense hay e = Sense.ofSet hay set := by
  unfold charSet? at found
  split at found
  next =>
    cases found
    exact sense_chars set
  next =>
    split at found
    next =>
      cases found
      exact sense_bytes set
    next => cases found
  next => cases found

/-- A character is in the union of sets exactly if it is in one of them. -/
theorem contains_unionAll (sets : List RangeSet) (n : Nat) :
    (unionAll sets).contains n = sets.any (·.contains n) := by
  have folded : ∀ s, (sets.foldl RangeSet.union s).contains n =
      (s.contains n || sets.any (·.contains n)) := by
    induction sets with
    | nil => simp
    | cons set sets ih =>
      intro s
      rw [List.foldl_cons, ih, RangeSet.contains_union, List.any_cons, Bool.or_assoc]
  rw [unionAll, folded, RangeSet.contains_nil, Bool.false_or]

/-- An alternation that is written as a class keeps its sense. -/
theorem sense_ofAlternatives? {es : List Expr} {e : Expr} (text : ∀ d ∈ es, d.NodeText)
    (nonempty : es ≠ []) (written : ofAlternatives? es = some e) :
    sense hay e = Sense.any (es.map (sense hay)) := by
  rcases ofAlternatives?_text text written with ⟨cs, all, rfl⟩ | ⟨sets, all, rfl⟩
  · have same : es.map (sense hay) = (cs.map fun n => [Range.single n]).map (Sense.ofSet hay) := by
      rw [List.map_map]
      exact map_eq_of_mapM all fun _ _ _ => sense_of_char?
    have full : cs.map (fun n => [Range.single n]) ≠ [] := by
      intro none
      rw [none, List.map_nil, List.map_eq_nil_iff] at same
      exact nonempty same
    rw [same, sense_ofChars, Sense.any_ofSet full]
    intro n
    rw [RangeSet.contains_ofRanges]
    simp [RangeSet.contains, List.any_map, Function.comp_def]
  · have same : es.map (sense hay) = sets.map (Sense.ofSet hay) :=
      map_eq_of_mapM all fun _ _ _ => sense_of_charSet?
    have full : sets ≠ [] := by
      rintro rfl
      rw [List.map_nil, List.map_eq_nil_iff] at same
      exact nonempty same
    rw [same, sense_ofChars, Sense.any_ofSet full (contains_unionAll sets)]

/-- The branches of an expression have its sense together, and there is at least one. -/
theorem any_branches {e : Expr} (text : e.NodeText) :
    e.branches.map (sense hay) ≠ [] ∧ Sense.any (e.branches.map (sense hay)) = sense hay e := by
  cases e with
  | alternation branches =>
    have two : 2 ≤ branches.length := text
    refine ⟨fun none => ?_, (sense_alternation branches).symm⟩
    have empty : branches = [] := List.map_eq_nil_iff.mp none
    rw [empty] at two
    cases two
  | _ => exact ⟨List.cons_ne_nil _ _, Sense.any_singleton _⟩

/-- A choice keeps its sense, if what may be chosen instead does. -/
theorem sense_choose {otherwise? : List Expr → Option Expr}
    (kept : ∀ es e, (∀ d ∈ es, d.Each NodeText) → otherwise? es = some e →
      sense hay e = Sense.any (es.map (sense hay)))
    {es : List Expr} (text : ∀ e ∈ es, e.Each NodeText) :
    sense hay (choose otherwise? es) = Sense.any (es.map (sense hay)) := by
  have texts : ∀ d ∈ es.flatMap branches, d.Each NodeText :=
    List.forall_mem_flatMap.mpr fun e mem => (text e mem).branches
  have flat : Sense.any ((es.flatMap branches).map (sense hay)) =
      Sense.any (es.map (sense hay)) := by
    rw [List.map_flatMap, List.flatMap_def, Sense.any_flatten, List.map_map]
    · congr 1
      exact List.map_congr_left fun e mem => (any_branches (text e mem).self).2
    · rw [List.forall_mem_map]
      exact fun e mem => (any_branches (text e mem).self).1
  rw [← flat]
  unfold choose
  split
  next none =>
    rw [none]
    exact sense_fail
  next e single =>
    rw [single]
    exact (Sense.any_singleton _).symm
  next nonempty _ =>
    generalize es.flatMap branches = all at texts nonempty
    cases classes : ofAlternatives? all with
    | some e => exact sense_ofAlternatives? (fun d mem => (texts d mem).self) nonempty classes
    | none =>
      cases other : otherwise? all with
      | some e => exact kept all e texts other
      | none => exact sense_alternation all

/-- What all branches start with may be lifted before the choice. -/
theorem sense_liftShared? (es : List Expr) (e : Expr) (text : ∀ d ∈ es, d.Each NodeText)
    (lifted : liftShared? es = some e) : sense hay e = Sense.any (es.map (sense hay)) := by
  obtain ⟨⟨start, rests⟩, shared, rfl⟩ := Option.map_eq_some_iff.mp lifted
  obtain ⟨inStart, inRests⟩ := each_of_sharedStart? shared text
  obtain ⟨nonempty, rfl⟩ := eq_map_of_sharedStart? shared
  have rested : ∀ c ∈ rests.map ofConcat, c.Each NodeText := by
    rw [List.forall_mem_map]
    exact fun rest mem => Each.ofConcat stable_nodeText (inRests rest mem)
  have items : ∀ d ∈ start ++ [choose (fun _ => none) (rests.map ofConcat)], d.Each NodeText := by
    rw [List.forall_mem_append, List.forall_mem_singleton]
    exact ⟨inStart, Each.choose stable_nodeText (fun _ _ _ none => by cases none) rested⟩
  have choice : sense hay (choose (fun _ => none) (rests.map ofConcat)) =
      Sense.any (rests.map fun rest => (rest.map (sense hay)).prod) := by
    rw [sense_choose (fun _ _ _ none => by cases none) rested, List.map_map]
    congr 1
    exact List.map_congr_left fun rest mem => sense_ofConcat (inRests rest mem)
  rw [sense_ofConcat items, List.map_append, List.prod_append, List.map_singleton,
    List.prod_singleton, choice, Sense.mul_any _ (by simpa using nonempty), List.map_map,
    List.map_map]
  congr 1
  refine List.map_congr_left fun rest _ => ?_
  rw [Function.comp_apply, Function.comp_apply, sense_concat, List.map_append, List.prod_append]

/-- The sense of an alternation is the choice between the senses of what it was built from. -/
theorem sense_ofAlternation {es : List Expr} (text : ∀ e ∈ es, e.Each NodeText) :
    sense hay (ofAlternation es) = Sense.any (es.map (sense hay)) :=
  sense_choose sense_liftShared? text

/-- The sense of a repetition that may happen, by the sense of its body. -/
theorem sense_repetition {max : Option Nat} (happens : max ≠ some 0) (min : Nat) (greedy : Bool)
    (body : Expr) :
    sense hay (.repetition min max greedy body) =
      ⟨max.isSome = true ∧ (sense hay body).zero, 0 < min ∧ (sense hay body).leads,
        fun i j => ∃ n, min ≤ n ∧ (∀ m ∈ max, n ≤ m) ∧ Repeats (sense hay body).spans n i j⟩ := by
  ext i j
  · simp only [sense, maxLength]
    cases max with
    | none => simp
    | some count =>
      have positive : count ≠ 0 := fun none => happens (by rw [none])
      cases body.maxLength with
      | none => simp
      | some length =>
        have zero : length * count = 0 ↔ length = 0 :=
          ⟨fun none => (Nat.mul_eq_zero.mp none).resolve_right positive,
            fun none => by rw [none, Nat.zero_mul]⟩
        simpa using zero
  · simp [sense, leadsWith]
  · simp only [sense, Matches]

/-- Repeating keeps what is the same in sense the same in sense. -/
theorem sense_ofRepetition {min : Nat} {max : Option Nat} (ordered : ∀ m ∈ max, min ≤ m)
    (greedy : Bool) {a b : Expr} (same : sense hay a = sense hay b) :
    sense hay (ofRepetition min max greedy a) = sense hay (ofRepetition min max greedy b) := by
  have zero : (b.maxLength == some 0) = (a.maxLength == some 0) := by
    have iff : (a.maxLength = some 0) = (b.maxLength = some 0) := congrArg Sense.zero same
    rw [Bool.eq_iff_iff, beq_iff_eq, beq_iff_eq, iff]
  rcases ofRepetition_cases min max greedy (a.maxLength == some 0) with
    none | one | ⟨min', max', bounds, some⟩
  · rw [none a rfl, none b zero]
  · rw [one a rfl, one b zero, same]
  · have happens := (bounds ordered).2
    rw [some a rfl, some b zero, sense_repetition happens, sense_repetition happens, same]

end Expr

end PatternGate
