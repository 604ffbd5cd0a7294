import PatternGate.Proofs.Expr.Sense

/-!
# Alternations that are kept as they are written

Building an alternation can flatten a branch that is a choice itself, make one class of branches
that are characters or classes, and write a common start once. None of it happens if no branch is a
choice and one of them stands alone (`Expr.StandsAlone`): it is no character, no class and no
sequence. Then what is built is the choice between the branches as they are
(`Expr.ofAlternation_eq_alternation`).

Whether a branch is a choice or stands alone is found out from what it is built of. A sequence with
one solid item (`Expr.isSolid`) is no choice, whatever the other items are, and a repetition that
may be left out stands alone, whatever its body is.
-/

namespace PatternGate.Expr

/-- The expression is a choice. -/
def isChoice : Expr → Bool
  | .alternation _ => true
  | _ => false

/-- The expression is one item of a sequence, and no choice. -/
def isSolid : Expr → Bool
  | .empty | .concat _ | .alternation _ => false
  | _ => true

theorem isChoice_of_isSolid {e : Expr} (solid : e.isSolid = true) : e.isChoice = false := by
  cases e with
  | alternation => cases solid
  | _ => rfl

theorem isSolid_ofChars (set : RangeSet) : (ofChars set).isSolid = true := by
  unfold ofChars
  split
  · rfl
  · split
    · split <;> rfl
    · rfl

/-- The expression is no character, no class and no sequence, so that nothing can be made of an
alternation in which it is a branch. -/
structure StandsAlone (e : Expr) : Prop where
  char : e.char? = none
  byte : e.byte? = none
  charSet : e.charSet? = none
  byteSet : e.byteSet? = none
  sequence : e.concatItems? = none

/-! ## Alternations -/

/-- If one of several expressions has no value, then all of them together have none. -/
theorem mapM_eq_none {β : Type} {f : Expr → Option β} {es : List Expr} {e : Expr} (mem : e ∈ es)
    (lacks : f e = none) : es.mapM f = none := by
  induction es with
  | nil => cases mem
  | cons d es ih =>
    rw [List.mapM_cons]
    rcases List.mem_cons.mp mem with rfl | mem
    · rw [lacks]
      rfl
    · rw [ih mem]
      cases f d <;> rfl

/-- A branch that stands alone keeps the alternation from being one class. -/
theorem StandsAlone.ofAlternatives? {es : List Expr} {e : Expr} (alone : e.StandsAlone)
    (mem : e ∈ es) : ofAlternatives? es = none := by
  rw [Expr.ofAlternatives?, mapM_eq_none mem alone.char, mapM_eq_none mem alone.byte,
    mapM_eq_none mem alone.charSet, mapM_eq_none mem alone.byteSet]
  rfl

/-- A branch that stands alone keeps the others from sharing their start with it. -/
theorem StandsAlone.liftShared? {es : List Expr} {e : Expr} (alone : e.StandsAlone)
    (mem : e ∈ es) : liftShared? es = none := by
  rw [Expr.liftShared?, sharedStart?, mapM_eq_none mem alone.sequence]
  rfl

/-- Where no branch is a choice, there is nothing to flatten. -/
theorem flatMap_branches {es : List Expr} (single : ∀ e ∈ es, e.isChoice = false) :
    es.flatMap branches = es := by
  have each : ∀ e ∈ es, e.branches = [e] := by
    intro e mem
    cases e with
    | alternation => cases single _ mem
    | _ => rfl
  rw [List.flatMap_congr each, List.flatMap_singleton']

/-- An alternation is kept as it is written, if no branch is a choice and one stands alone. -/
theorem ofAlternation_eq_alternation {es : List Expr} (several : 2 ≤ es.length)
    (single : ∀ e ∈ es, e.isChoice = false) {e : Expr} (mem : e ∈ es) (alone : e.StandsAlone) :
    ofAlternation es = .alternation es := by
  rw [ofAlternation, choose, flatMap_branches single]
  match es, several with
  | a :: b :: rest, _ =>
    show (Expr.ofAlternatives? _ <|> Expr.liftShared? _).getD _ = _
    rw [alone.ofAlternatives? mem, alone.liftShared? mem]
    rfl

/-! ## Sequences -/

/-- Putting an item before a sequence leaves a solid item in it, if there was one in either. -/
theorem exists_isSolid_consItem {e : Expr} {es : List Expr}
    (solid : e.isSolid = true ∨ ∃ d ∈ es, d.isSolid = true) :
    ∃ d ∈ consItem e es, d.isSolid = true := by
  fun_cases consItem e es with
  | case1 => exact solid.resolve_left Bool.false_ne_true
  | case2 a b rest => exact ⟨.literal (a ++ b), List.mem_cons_self, rfl⟩
  | case3 => exact (List.exists_mem_cons_iff _ _ _).mpr solid

/-- A solid item of a sequence is there when the sequence is built, alone or joined to others. -/
theorem exists_isSolid_flatItems {es : List Expr} {e : Expr} (mem : e ∈ es)
    (solid : e.isSolid = true) : ∃ d ∈ flatItems es, d.isSolid = true := by
  have item : e ∈ es.flatMap items := by
    refine List.mem_flatMap.mpr ⟨e, mem, ?_⟩
    cases e with
    | concat => cases solid
    | _ => exact List.mem_singleton.mpr rfl
  unfold flatItems
  generalize es.flatMap items = flat at item
  induction flat with
  | nil => cases item
  | cons d rest ih =>
    rw [List.foldr_cons]
    rcases List.mem_cons.mp item with rfl | item
    · exact exists_isSolid_consItem (.inl solid)
    · exact exists_isSolid_consItem (.inr (ih item))

/-- A sequence with a solid item is no choice. -/
theorem isChoice_ofConcat {es : List Expr} {e : Expr} (mem : e ∈ es) (solid : e.isSolid = true) :
    (ofConcat es).isChoice = false := by
  obtain ⟨d, item, solid⟩ := exists_isSolid_flatItems mem solid
  unfold ofConcat
  split
  next => rfl
  next x single =>
    rw [single] at item
    obtain rfl := List.mem_singleton.mp item
    exact isChoice_of_isSolid solid
  next => rfl

theorem ofBytes_encode_cons (c : Char) (cs : List Char) :
    ofBytes (Utf8.encode (c :: cs)) = .literal (Utf8.encode (c :: cs)) := by
  have some : (Utf8.encode (c :: cs)).isEmpty = false := by
    simp [Utf8.encode]
  rw [ofBytes, some]
  rfl

/-- Literals in a sequence are one literal. -/
theorem ofConcat_ofScalar (cs : List Char) :
    ofConcat (cs.map fun c => ofScalar c.toNat) = ofBytes (Utf8.encode cs) := by
  have flat : (cs.map fun c => ofScalar c.toNat).flatMap items =
      cs.map fun c => .literal (Utf8.encode [c]) := by
    induction cs with
    | nil => rfl
    | cons c cs ih =>
      rw [List.map_cons, List.flatMap_cons, ih, List.map_cons, ofScalar, Char.ofNat_toNat]
      rfl
  have joined : ∀ c cs, ((c :: cs).map fun c => Expr.literal (Utf8.encode [c])).foldr consItem [] =
      [.literal (Utf8.encode (c :: cs))] := by
    intro c cs
    induction cs generalizing c with
    | nil => rfl
    | cons d cs ih =>
      rw [List.map_cons, List.foldr_cons, ih, consItem, ← Utf8.encode_append]
      rfl
  rw [ofConcat, flatItems, flat]
  cases cs with
  | nil => rfl
  | cons c cs => rw [joined, ofBytes_encode_cons]

/-- A text of two characters or more stands alone: it is no character, and no byte either. -/
theorem standsAlone_encode (c d : Char) (cs : List Char) :
    (literal (Utf8.encode (c :: d :: cs))).StandsAlone where
  char := by rw [char?, Utf8.decode_encode]
  byte := by
    have long : 2 ≤ (Utf8.encode (c :: d :: cs)).length := by
      have first := c.utf8Size_pos
      have second := d.utf8Size_pos
      simp only [Utf8.encode, List.flatMap_cons, List.length_append,
        String.length_utf8EncodeChar]
      omega
    generalize Utf8.encode (c :: d :: cs) = bytes at long ⊢
    obtain _ | ⟨a, _ | ⟨b, bytes⟩⟩ := bytes
    · exact absurd long (by decide)
    · exact absurd long (Nat.lt_irrefl 1)
    · rfl
  charSet := rfl
  byteSet := rfl
  sequence := rfl

/-! ## Repetitions -/

/-- A repetition that may be left out is a repetition or nothing, whatever its body is. -/
theorem ofRepetition_zero (max : Option Nat) (greedy : Bool) (body : Expr) :
    max = some 0 ∧ ofRepetition 0 max greedy body = .empty ∨
      max ≠ some 0 ∧
        ∃ max', ofRepetition 0 max greedy body = .repetition 0 max' greedy body := by
  unfold ofRepetition
  by_cases once : body.maxLength = some 0
  · rcases max with _ | _ | max
    · exact .inr ⟨nofun, some 1, by simp [once]⟩
    · exact .inl ⟨rfl, by simp [once]⟩
    · exact .inr ⟨nofun, some 1, by simp [once]⟩
  · rcases max with _ | _ | max
    · exact .inr ⟨nofun, none, by simp [once]⟩
    · exact .inl ⟨rfl, by simp [once]⟩
    · exact .inr ⟨nofun, some (max + 1), by simp [once]⟩

/-- A repetition that has to happen is a repetition or its body. -/
theorem ofRepetition_succ (min : Nat) (max : Option Nat) (greedy : Bool) (body : Expr) :
    ofRepetition (min + 1) max greedy body = body ∨
      ∃ min' max', ofRepetition (min + 1) max greedy body = .repetition min' max' greedy body := by
  have happens : (if body.maxLength == some 0 then Nat.min (min + 1) 1 else min + 1) ≠ 0 := by
    split
    · exact Nat.ne_of_gt (Nat.lt_min.mpr ⟨Nat.succ_pos min, Nat.one_pos⟩)
    · exact Nat.succ_ne_zero min
  unfold ofRepetition
  dsimp only
  generalize (if body.maxLength == some 0 then Nat.min (min + 1) 1 else min + 1) = min'
    at happens ⊢
  generalize (if body.maxLength == some 0 then some (max.elim 1 (Nat.min · 1)) else max) = max'
  rw [if_neg fun never => happens never.1]
  by_cases once : min' = 1 ∧ max' = some 1
  · exact .inl (if_pos once)
  · exact .inr ⟨min', max', if_neg once⟩

end PatternGate.Expr
