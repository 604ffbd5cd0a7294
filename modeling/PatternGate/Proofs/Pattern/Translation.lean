import PatternGate.Pattern.Dialect
import PatternGate.Proofs.Pattern.Suppression
import PatternGate.Proofs.Program.Contents
import PatternGate.Proofs.Validator.Outcome

/-!
# What the dialect keeps out

Lowering reads an expression as text: literals are UTF-8, classes hold code points, and only six
looks are known to the engine. Patterns can say more. With the flag `u` off a class holds bytes and
a boundary of words knows ASCII alone, and with the flag `R` on lines end at `\r` too. This module
gives the meaning of a tree under these flags as well (`Tree.translate`) and shows that the dialect
makes them idle: on a tree of the dialect, at any depth and however its groups set and negate flags,
the translation is `Tree.meaning` (`Tree.translate_of_dialect`). So its expression is one that
lowering can read, and a program asserts nothing but the six looks; `dialect_lowerable` says both.
-/

namespace PatternGate

/-! ## Modes with every flag -/

/-- All flags that bear on the meaning of a pattern, inside the dialect or not. -/
structure FullModes extends Modes where
  unicode : Bool := true
  crlf : Bool := false
  deriving DecidableEq

namespace FullModes

/-- The modes of the dialect: Unicode is on and lines end at a line feed alone. -/
def ofModes (m : Modes) : FullModes := { toModes := m }

/-- Sets one flag. -/
def set (m : FullModes) (on : Bool) (f : Flag) : FullModes :=
  match f with
  | .unicode => { m with unicode := on }
  | .crlf => { m with crlf := on }
  | .ignoreCase | .multiLine | .dotMatchesLineFeed | .swapGreed | .ignoreBlank =>
    { m with toModes := m.toModes.set on f }

/-- Sets the flags of a list, on up to a negation and off after it. -/
def apply (m : FullModes) : Bool → List FlagItem → FullModes
  | _, [] => m
  | on, item :: rest =>
    match item.mark with
    | .negation => m.apply false rest
    | .flag f => (m.set on f).apply on rest

/-- The modes inside a group. -/
def inside (m : FullModes) : GroupKind → FullModes
  | .plain items => m.apply true items
  | .capture _ | .named _ _ => m

end FullModes

/-- Why a tree has no expression. -/
inductive Refusal where
  /-- A property is not known. -/
  | unknown (f : Fault)
  /-- Without Unicode, a part stands for bytes that are no text or for characters beyond ASCII. -/
  | needsUnicode (span : Span)
  deriving DecidableEq

/-! ## Bytes in the place of characters -/

/-- The same place, where lines can also end at `\r`. -/
def Look.withCrlf : Look → Look
  | .startLine => .startCrlf
  | .endLine => .endCrlf
  | l => l

/-- The same boundary of words, of ASCII words. -/
def Look.withoutUnicode : Look → Look
  | .wordUnicode => .wordAscii
  | .wordUnicodeNegate => .wordAsciiNegate
  | .wordStartUnicode => .wordStartAscii
  | .wordEndUnicode => .wordEndAscii
  | .wordStartHalfUnicode => .wordStartHalfAscii
  | .wordEndHalfUnicode => .wordEndHalfAscii
  | l => l

/-- The ASCII class of the same name. -/
def LetterClass.ascii : LetterClass → AsciiClass
  | .digit => .digit
  | .space => .space
  | .word => .word

/-- Adds the other case of each ASCII letter of a set, if case is ignored. -/
def foldAscii (ignoreCase : Bool) (set : RangeSet) : RangeSet :=
  if ignoreCase then
    let lower := RangeSet.inter set [⟨0x61, 0x7A⟩]
    let upper := RangeSet.inter set [⟨0x41, 0x5A⟩]
    RangeSet.union (RangeSet.union set (lower.map fun r => ⟨r.lo - 0x20, r.hi - 0x20⟩))
      (upper.map fun r => ⟨r.lo + 0x20, r.hi + 0x20⟩)
  else set

/-- The set itself. What a negated set of ASCII bytes holds is no text. -/
def unlessNegated (span : Span) (negated : Bool) (set : RangeSet) : Except Refusal RangeSet :=
  if negated then .error (.needsUnicode span) else .ok set

/-- An end of a range of ASCII bytes. -/
def asciiByte (span : Span) (c : Char) : Except Refusal Nat :=
  if c.toNat < 0x80 then .ok c.toNat else .error (.needsUnicode span)

/-- Combines two sets of ASCII bytes. -/
def SetOperator.applyAscii (ignoreCase : Bool) (op : SetOperator) (lhs rhs : RangeSet) : RangeSet :=
  op.apply false (foldAscii ignoreCase lhs) (foldAscii ignoreCase rhs)

mutual

/-- The bytes of a class without Unicode. -/
def ClassTree.asciiSet (ignoreCase : Bool) : ClassTree → Except Refusal RangeSet
  | .empty _ => .ok []
  | .literal span c => do
    let b ← asciiByte span c
    return [⟨b, b⟩]
  | .range span lo hi => do
    let lo ← asciiByte span lo
    let hi ← asciiByte span hi
    return [⟨lo, hi⟩]
  | .ascii span negated kind => unlessNegated span negated (foldAscii ignoreCase kind.set)
  | .property span _ _ => .error (.needsUnicode span)
  | .letter span negated kind => unlessNegated span negated kind.ascii.set
  | .bracket span negated body => do
    let set ← body.asciiSet ignoreCase
    unlessNegated span negated (foldAscii ignoreCase set)
  | .union _ items => ClassTree.asciiSetAll ignoreCase items []
  | .binary _ op lhs rhs => do
    let l ← lhs.asciiSet ignoreCase
    let r ← rhs.asciiSet ignoreCase
    return op.applyAscii ignoreCase l r

/-- The bytes of any of the classes without Unicode, together with those of a set. -/
def ClassTree.asciiSetAll (ignoreCase : Bool) :
    List ClassTree → RangeSet → Except Refusal RangeSet
  | [], acc => .ok acc
  | t :: ts, acc => do
    let set ← t.asciiSet ignoreCase
    ClassTree.asciiSetAll ignoreCase ts (RangeSet.union acc set)

end

/-! ## Translation -/

namespace FullModes

/-- A literal. Without Unicode an ASCII letter has the other case of ASCII alone, and a character up
to `U+00FF` that is written by its number stands for a byte, which is no text from `0x80` on. -/
def literal (hex : Span → Bool) (m : FullModes) (span : Span) (c : Char) : Except Refusal Expr :=
  if m.unicode then .ok (m.toModes.literal c)
  else if c.toNat < 0x80 then .ok (Expr.ofByteSet (foldAscii m.ignoreCase [⟨c.toNat, c.toNat⟩]))
  else if hex span && c.toNat ≤ 0xFF then .error (.needsUnicode span)
  else .ok (Expr.ofScalar c.toNat)

/-- The dot. -/
def dot (m : FullModes) (span : Span) : Except Refusal Expr :=
  if !m.unicode then .error (.needsUnicode span)
  else if m.crlf && !m.dotMatchesLineFeed then
    .ok (Expr.ofChars [⟨0, 9⟩, ⟨11, 12⟩, ⟨14, scalarMax⟩])
  else .ok m.toModes.dot

/-- The look of an assertion. -/
def look (m : FullModes) (kind : AssertionKind) : Look :=
  let l := if m.crlf then (m.toModes.look kind).withCrlf else m.toModes.look kind
  if m.unicode then l else l.withoutUnicode

/-- The expression of a class, from its code points with Unicode and from its bytes without. -/
def classOf (m : FullModes) (chars : Except Fault RangeSet) (bytes : Except Refusal RangeSet) :
    Except Refusal Expr :=
  if m.unicode then Expr.ofChars <$> chars.mapError .unknown else Expr.ofByteSet <$> bytes

end FullModes

mutual

/-- The expression of a tree under every flag, and the modes after it. A tree does not say which
literals are written by a two-digit number; `hex` does, by their spans. -/
def Tree.translate (hex : Span → Bool) : Tree → FullModes → Except Refusal (Expr × FullModes)
  | .empty _, m => .ok (.empty, m)
  | .flags _ items, m => .ok (.empty, m.apply true items)
  | .literal span c, m => do
    let e ← m.literal hex span c
    return (e, m)
  | .dot span, m => do
    let e ← m.dot span
    return (e, m)
  | .assertion _ kind, m => .ok (.look (m.look kind), m)
  | .property span negated query, m => do
    let e ← m.classOf (propertySet m.ignoreCase span negated query) (.error (.needsUnicode span))
    return (e, m)
  | .letter span negated kind, m => do
    let e ← m.classOf (.ok (kind.set negated)) (unlessNegated span negated kind.ascii.set)
    return (e, m)
  | .bracket span negated body, m => do
    let e ← m.classOf
      (foldAndNegate m.ignoreCase negated <$> body.set m.ignoreCase)
      ((ClassTree.bracket span negated body).asciiSet m.ignoreCase)
    return (e, m)
  | .repetition _ bounds greedy body, m => do
    let (e, m) ← body.translate hex m
    return (Expr.ofRepetition bounds.min bounds.max (greedy != m.swapGreed) e, m)
  | .group _ kind body, m => do
    let (e, _) ← body.translate hex (m.inside kind)
    return (kind.wrap e, m)
  | .concat _ items, m => do
    let (es, m) ← Tree.translations hex items m
    return (Expr.ofConcat es, m)
  | .alternation _ branches, m => do
    let (es, m) ← Tree.translations hex branches m
    return (Expr.ofAlternation es, m)

/-- The expressions of trees under every flag, and the modes after them. -/
def Tree.translations (hex : Span → Bool) :
    List Tree → FullModes → Except Refusal (List Expr × FullModes)
  | [], m => .ok ([], m)
  | t :: ts, m => do
    let (e, m) ← t.translate hex m
    let (es, m) ← Tree.translations hex ts m
    return (e :: es, m)

end

/-! ## Trees of the dialect -/

/-- A result of the modes of the dialect, as one under every flag. -/
def FullModes.lift {α : Type} (x : Except Fault (α × Modes)) : Except Refusal (α × FullModes) :=
  (fun (a, m) => (a, ofModes m)) <$> x.mapError .unknown

/-- A list of flags passes the check exactly if each flag of it belongs to the dialect. -/
theorem checkFlags_cons_eq_ok_iff {item : FlagItem} {rest : List FlagItem} :
    checkFlags (item :: rest) = .ok () ↔ item.construct? = none ∧ checkFlags rest = .ok () := by
  rw [checkFlags]
  cases item.construct? <;> simp

namespace FullModes

theorem set_ofModes {f : Flag} (inside : Construct.ofFlag? f = none) (m : Modes) (on : Bool) :
    (ofModes m).set on f = ofModes (m.set on f) := by
  cases f with
  | ignoreCase | multiLine | dotMatchesLineFeed | swapGreed => rfl
  | unicode | crlf | ignoreBlank => cases inside

/-- The flags of the dialect, set or negated, leave Unicode on and line ends as they are. -/
theorem apply_ofModes {items : List FlagItem} (passes : checkFlags items = .ok ()) (m : Modes)
    (on : Bool) : (ofModes m).apply on items = ofModes (m.apply on items) := by
  induction items generalizing m on with
  | nil => rfl
  | cons item rest ih =>
    obtain ⟨inside, others⟩ := checkFlags_cons_eq_ok_iff.mp passes
    obtain ⟨span, mark⟩ := item
    cases mark with
    | negation => exact ih others m false
    | flag f =>
      show ((ofModes m).set on f).apply on rest = _
      rw [set_ofModes inside]
      exact ih others (m.set on f) on

theorem ignoreCase_ofModes (m : Modes) : (ofModes m).ignoreCase = m.ignoreCase := rfl

theorem classOf_ofModes (m : Modes) (chars : Except Fault RangeSet)
    (bytes : Except Refusal RangeSet) :
    (ofModes m).classOf chars bytes = Expr.ofChars <$> chars.mapError .unknown := rfl

end FullModes

namespace Tree

open FullModes (ofModes lift)

/-- A group belongs to the dialect exactly if its flags and its body do, and then its body is read
under the modes of the dialect. -/
theorem checkDialect_group {span : Span} {kind : GroupKind} {body : Tree}
    (accepted : (Tree.group span kind body).checkDialect = .ok ()) (m : Modes) :
    body.checkDialect = .ok () ∧ (ofModes m).inside kind = ofModes (m.inside kind) := by
  cases kind with
  | capture index | named index name =>
    rw [checkDialect] at accepted
    exact ⟨accepted, rfl⟩
  | plain items =>
    rw [checkDialect] at accepted
    obtain ⟨_, passes, accepted⟩ := bind_eq_ok_iff.mp accepted
    exact ⟨accepted, FullModes.apply_ofModes passes m true⟩

theorem translations_of_each {hex : Span → Bool} {ts : List Tree}
    (each : ∀ t ∈ ts, ∀ m, t.translate hex (ofModes m) = lift (t.meaning m)) (m : Modes) :
    translations hex ts (ofModes m) = lift (meanings ts m) := by
  induction ts generalizing m with
  | nil => rfl
  | cons t ts ih =>
    rw [List.forall_mem_cons] at each
    rw [translations, meanings, each.1 m]
    cases t.meaning m with
    | error f => rfl
    | ok first =>
      -- The modes after the first tree are modes of the dialect again.
      obtain ⟨e, m₁⟩ := first
      show (translations hex ts (ofModes m₁) >>= _) = lift (meanings ts m₁ >>= _)
      rw [ih each.2 m₁]
      cases meanings ts m₁ <;> rfl

/-- In the dialect the flags outside it are idle: a tree that passes the check is translated to its
meaning, and refused for an unknown property alone. -/
theorem translate_of_dialect (hex : Span → Bool) {t : Tree} (accepted : t.checkDialect = .ok ())
    (m : Modes) : t.translate hex (ofModes m) = lift (t.meaning m) := by
  induction t generalizing m with
  | empty span | literal span c | assertion span kind | letter span negated kind => rfl
  | dot span =>
    rw [translate, meaning]
    rfl
  | flags span items =>
    rw [checkDialect] at accepted
    rw [translate, meaning, FullModes.apply_ofModes accepted]
    rfl
  | property span negated query =>
    rw [translate, meaning, FullModes.classOf_ofModes, FullModes.ignoreCase_ofModes]
    cases propertySet m.ignoreCase span negated query <;> rfl
  | bracket span negated body =>
    rw [translate, meaning, FullModes.classOf_ofModes, FullModes.ignoreCase_ofModes]
    cases body.set m.ignoreCase <;> rfl
  | repetition span bounds greedy body ih =>
    rw [checkDialect] at accepted
    rw [translate, meaning, ih accepted]
    cases body.meaning m <;> rfl
  | group span kind body ih =>
    obtain ⟨accepted, inside⟩ := checkDialect_group accepted m
    rw [translate, meaning, inside, ih accepted]
    cases body.meaning (m.inside kind) <;> rfl
  | alternation span branches ih =>
    rw [checkDialect, checkDialectAll_eq_ok_iff] at accepted
    rw [translate, meaning, translations_of_each fun t mem => ih t mem (accepted t mem)]
    cases meanings branches m <;> rfl
  | concat span items ih =>
    rw [checkDialect, checkDialectAll_eq_ok_iff] at accepted
    rw [translate, meaning, translations_of_each fun t mem => ih t mem (accepted t mem)]
    cases meanings items m <;> rfl

/-- The assertions of a tree of the dialect belong to the dialect. -/
theorem ofAssertion?_of_mem_assertions {t : Tree} (accepted : t.checkDialect = .ok ())
    {kind : AssertionKind} (mem : kind ∈ t.assertions) : Construct.ofAssertion? kind = none := by
  induction t with
  | empty span | flags span items | literal span c | dot span | property span negated query
  | letter span negated kind | bracket span negated body => cases mem
  | assertion span written =>
    rw [assertions, List.mem_singleton] at mem
    rw [checkDialect, checkAssertion, ← mem] at accepted
    cases outside : Construct.ofAssertion? kind with
    | none => rfl
    | some construct =>
      rw [outside] at accepted
      cases accepted
  | repetition span bounds greedy body ih =>
    rw [checkDialect] at accepted
    exact ih accepted mem
  | group span opened body ih => exact ih (checkDialect_group accepted {}).1 mem
  | alternation span branches ih =>
    rw [checkDialect, checkDialectAll_eq_ok_iff] at accepted
    obtain ⟨t, found, inner⟩ := mem_assertionsAll_iff.mp mem
    exact ih t found (accepted t found) inner
  | concat span items ih =>
    rw [checkDialect, checkDialectAll_eq_ok_iff] at accepted
    obtain ⟨t, found, inner⟩ := mem_assertionsAll_iff.mp mem
    exact ih t found (accepted t found) inner

end Tree

/-! ## What lowering can read -/

/-- The looks that the engine knows. -/
def Look.known : List Look :=
  [.start, .stop, .startLine, .endLine, .wordUnicode, .wordUnicodeNegate]

/-- What lowering takes for granted: a literal is UTF-8, so that reading it as text loses nothing;
the only class of bytes is the one without members; and the looks are known to the engine. -/
structure Expr.Lowerable (e : Expr) : Prop where
  literal : ∀ bs, .literal bs ∈ e.nodes → Utf8.Valid bs
  bytes : ∀ set, .bytes set ∈ e.nodes → set = []
  look : ∀ l, .look l ∈ e.nodes → l ∈ Look.known

theorem Modes.look_mem_known (m : Modes) {kind : AssertionKind}
    (inside : Construct.ofAssertion? kind = none) : m.look kind ∈ Look.known := by
  cases kind with
  | startLine | endLine =>
    rw [Modes.look]
    split <;> decide
  | startText | endText | wordBoundary | notWordBoundary =>
    rw [Modes.look]
    decide
  | wordStart | wordEnd | wordStartAngle | wordEndAngle | wordStartHalf | wordEndHalf =>
    cases inside

namespace Expr

/-- A node that is no look, or one that the engine knows. -/
def NodeKnown : Expr → Prop
  | .look l => l ∈ Look.known
  | _ => True

theorem nodeKnown_ofChars (set : RangeSet) : (ofChars set).NodeKnown := by
  unfold ofChars
  split
  · trivial
  · split
    · split <;> trivial
    · trivial

theorem nodeKnown_ofByteSet (set : RangeSet) : (ofByteSet set).NodeKnown := by
  unfold ofByteSet
  split
  · trivial
  · split <;> trivial

end Expr

theorem patternStable_known : PatternStable Expr.NodeKnown where
  empty := trivial
  fail := trivial
  literal _ _ _ _ := trivial
  concat _ := trivial
  alternation _ _ := trivial
  alternatives es e _ written := by
    rcases Expr.ofAlternatives?_cases written with
      ⟨_, -, rfl⟩ | ⟨-, _, -, rfl⟩ | ⟨_, -, rfl⟩ | ⟨-, _, -, rfl⟩
    · exact Expr.nodeKnown_ofChars _
    · exact Expr.nodeKnown_ofByteSet _
    · exact Expr.nodeKnown_ofChars _
    · exact Expr.nodeKnown_ofByteSet _
  chars := Expr.nodeKnown_ofChars
  scalar _ := trivial
  capture _ _ _ := trivial

/-- The meaning of a tree of the dialect is an expression that lowering can read. -/
theorem Tree.lowerable_meaning {t : Tree} (accepted : t.checkDialect = .ok ()) {m m' : Modes}
    {e : Expr} (meant : t.meaning m = .ok (e, m')) : e.Lowerable := by
  have text := t.each_text meant
  have known : e.Each Expr.NodeKnown := by
    refine t.each_meaning patternStable_known (fun kind mem m => ?_) ?_ meant
    · exact m.look_mem_known (ofAssertion?_of_mem_assertions accepted mem)
    · exact fun _ _ _ _ each => Expr.Each.ofRepetition trivial (fun _ _ => trivial) each
  exact ⟨fun _ mem => (text _ mem).1, fun _ mem => (text _ mem).1, fun _ mem => known _ mem⟩

/-- The dialect makes true what lowering takes for granted. On a tree of the dialect, under any
modes at its start, the flags outside the dialect are idle, so that the tree is translated to its
meaning, and the expression is one that lowering can read. So the program of a pattern asserts
nothing but the looks that the engine knows. -/
theorem dialect_lowerable :
    (∀ (t : Tree) (hex : Span → Bool) (m : Modes), t.checkDialect = .ok () →
      t.translate hex (.ofModes m) = FullModes.lift (t.meaning m) ∧
        ∀ e m', t.translate hex (.ofModes m) = .ok (e, m') → e.Lowerable) ∧
    (∀ (s : Settings) (pattern : String) (p : Program), (s.compile pattern).result = .ok p →
      ∀ l, .assertion l ∈ p.code → l ∈ Look.known) := by
  constructor
  · intro t hex m accepted
    have agrees := t.translate_of_dialect hex accepted m
    refine ⟨agrees, fun e m' translated => ?_⟩
    rw [agrees] at translated
    cases meant : t.meaning m with
    | error f =>
      rw [meant] at translated
      cases translated
    | ok result =>
      rw [meant] at translated
      cases translated
      exact t.lowerable_meaning accepted meant
  · intro s pattern p compiled l asserted
    obtain ⟨e, found, lowered⟩ := Settings.result_eq_ok_iff.mp compiled
    obtain ⟨t, m, -, accepted, meant⟩ := Settings.expression_eq_ok_iff.mp found
    exact (t.lowerable_meaning accepted meant).look l (Settings.look_mem_nodes lowered asserted)

/-- The pattern `(?m)(?i-m:$K)^` sets and negates flags of the dialect, and its program asserts two
of the known looks. The group `(?i-u:K)` is outside the dialect with reason: it stands for bytes. -/
theorem dialect_lowerable_flags :
    let here := Span.empty .start
    let item (f : Flag) : FlagItem := ⟨here, .flag f⟩
    let off : FlagItem := ⟨here, .negation⟩
    let t : Tree := .concat here [.flags here [item .multiLine],
      .group here (.plain [item .ignoreCase, off, item .multiLine])
        (.concat here [.assertion here .endLine, .literal here 'K']),
      .assertion here .startLine]
    let u : Tree := .group here (.plain [item .ignoreCase, off, item .unicode]) (.literal here 'K')
    let hex : Span → Bool := fun _ => false
    let s : Settings := {}
    let p : Program :=
      ⟨[.fork2 3 1, .consumeAny, .jump 0, .assertion .stop,
        .consumeClass [⟨0x4B, 0x4B⟩, ⟨0x6B, 0x6B⟩], .assertion .startLine, .accept], 116, 0⟩
    (t.checkDialect = .ok () ∧ ∃ e m, t.translate hex (.ofModes {}) = .ok (e, m) ∧ e.Lowerable) ∧
      ((s.compile "(?m)(?i-m:$K)^").result = .ok p ∧
        ∀ l, .assertion l ∈ p.code → l ∈ Look.known) ∧
      u.checkDialect = .error ⟨.unicodeFlag, 0⟩ ∧
        ∃ e m, u.translate hex (.ofModes {}) = .ok (e, m) ∧ ¬ e.Lowerable := by
  intro here item off t u hex s p
  have accepted : t.checkDialect = .ok () := rfl
  obtain ⟨e, m, translated⟩ : ∃ e m, t.translate hex (.ofModes {}) = .ok (e, m) := ⟨_, _, rfl⟩
  have compiled : (s.compile "(?m)(?i-m:$K)^").result = .ok p := by decide +kernel
  have bytes : u.translate hex (.ofModes {}) =
      .ok (.bytes [⟨0x4B, 0x4B⟩, ⟨0x6B, 0x6B⟩], .ofModes {}) := rfl
  refine ⟨⟨accepted, e, m, translated, ?_⟩, ⟨compiled, ?_⟩, rfl, _, _, bytes, fun lowerable => ?_⟩
  · exact (dialect_lowerable.1 t hex {} accepted).2 e m translated
  · exact dialect_lowerable.2 s _ p compiled
  · cases lowerable.bytes _ (List.mem_singleton_self _)

end PatternGate
