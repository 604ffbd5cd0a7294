import PatternGate.Proofs.Pattern.Listing
import PatternGate.Proofs.Pattern.Nesting
import PatternGate.Proofs.Text.Latin1

/-!
# Where the constructs outside the dialect stand

`Tree.constructs` lists the constructs of a pattern that are outside the dialect, in the order in
which they are written, and the check of the dialect names the first of them
(`Tree.checkDialect_eq`). That they stand where they say is a law of the reader: what a step adds to
the list stands between the cursors before and after the step (`Sited`), and the text at its
position starts with its sign. So the list of a whole pattern is in increasing order of offsets, and
the first construct found is the leftmost one.

Offsets are counted in the decoded text, where a byte beyond ASCII takes two. Counting characters
maps them back to bytes of the pattern (`Latin1.patternOffset_of_passes`). `Sited.inPattern` puts
the parts together, and `Settings.result_eq_dialect_iff` says when a pattern is refused for a
construct.
-/

namespace PatternGate

/-! ## The constructs of a tree -/

/-- The text that a construct starts with. -/
def Construct.sign : Construct → List Char
  | unicodeFlag => ['u']
  | blankFlag => ['x']
  | crlfFlag => ['R']
  | angleStart => ['\\', '<']
  | angleEnd => ['\\', '>']
  | specialBoundary => ['\\', 'b', '{']

/-- The construct that an item of a list of flags is, and where it stands. -/
def FlagItem.fault? (item : FlagItem) : Option DialectFault :=
  item.construct?.map (⟨·, item.span.start.offset⟩)

/-- The construct that an assertion is, and where it stands. -/
def AssertionKind.fault? (span : Span) (kind : AssertionKind) : Option DialectFault :=
  (Construct.ofAssertion? kind).map (⟨·, span.start.offset⟩)

/-- The constructs in what a group opens with. -/
def GroupKind.constructs : GroupKind → List DialectFault
  | .plain items => items.filterMap FlagItem.fault?
  | .capture _ | .named _ _ => []

mutual

/-- The constructs of a tree that are outside the dialect, in reading order. -/
def Tree.constructs : Tree → List DialectFault
  | .flags _ items => items.filterMap FlagItem.fault?
  | .assertion span kind => (kind.fault? span).toList
  | .repetition _ _ _ body => body.constructs
  | .group _ kind body => kind.constructs ++ body.constructs
  | .alternation _ branches => Tree.constructsAll branches
  | .concat _ items => Tree.constructsAll items
  | .empty _ | .literal _ _ | .dot _ | .property _ _ _ | .letter _ _ _ | .bracket _ _ _ => []

/-- The constructs of several trees. -/
def Tree.constructsAll : List Tree → List DialectFault
  | [] => []
  | t :: ts => t.constructs ++ Tree.constructsAll ts

end

/-- The constructs of many trees are listed tree by tree. -/
theorem Tree.constructsAll_eq_flatMap (ts : List Tree) :
    Tree.constructsAll ts = ts.flatMap Tree.constructs := by
  induction ts with
  | nil => rfl
  | cons t ts ih => rw [constructsAll, ih, List.flatMap_cons]

/-- Refuses what is found first. -/
def refuseFirst : List DialectFault → Except DialectFault Unit
  | [] => .ok ()
  | f :: _ => .error f

/-- The fault of a list is its first entry. -/
theorem refuseFirst_eq_error_iff {fs : List DialectFault} {f : DialectFault} :
    refuseFirst fs = .error f ↔ ∃ rest, fs = f :: rest := by
  cases fs <;> simp [refuseFirst]

/-- A list is refused for its first part, or for its second if the first is empty. -/
theorem refuseFirst_append (fs gs : List DialectFault) :
    refuseFirst (fs ++ gs) = refuseFirst fs >>= fun _ => refuseFirst gs := by
  cases fs <;> rfl

/-- Checking flags names the first of them that is outside the dialect. -/
theorem checkFlags_eq (items : List FlagItem) :
    checkFlags items = refuseFirst (items.filterMap FlagItem.fault?) := by
  induction items with
  | nil => rfl
  | cons item items ih =>
    rw [checkFlags, List.filterMap_cons, FlagItem.fault?]
    cases item.construct? with
    | none => exact ih
    | some construct => rfl

/-- Checking an assertion names it if it is outside the dialect. -/
theorem checkAssertion_eq (span : Span) (kind : AssertionKind) :
    checkAssertion span kind = refuseFirst (kind.fault? span).toList := by
  rw [checkAssertion, AssertionKind.fault?]
  cases Construct.ofAssertion? kind <;> rfl

/-- Checking trees one by one names the first construct of all, if it does so for each tree. -/
theorem Tree.checkDialectAll_eq {ts : List Tree}
    (each : ∀ t ∈ ts, t.checkDialect = refuseFirst t.constructs) :
    Tree.checkDialectAll ts = refuseFirst (Tree.constructsAll ts) := by
  induction ts with
  | nil => rfl
  | cons t ts ih =>
    rw [List.forall_mem_cons] at each
    rw [checkDialectAll, constructsAll, refuseFirst_append, each.1, ih each.2]

/-- The check names the first construct in reading order. -/
theorem Tree.checkDialect_eq (t : Tree) : t.checkDialect = refuseFirst t.constructs := by
  induction t with
  | empty | literal | dot | property | letter | bracket =>
    rw [checkDialect, constructs]
    rfl
  | flags span items => rw [checkDialect, constructs, checkFlags_eq]
  | assertion span kind => rw [checkDialect, constructs, checkAssertion_eq]
  | repetition span bounds greedy body ih => rw [checkDialect, constructs, ih]
  | group span kind body ih =>
    cases kind with
    | plain items =>
      rw [checkDialect, constructs, refuseFirst_append, GroupKind.constructs, checkFlags_eq, ih]
    | capture | named =>
      rw [checkDialect, constructs, ih]
      rfl
  | alternation span branches ih => rw [checkDialect, constructs, checkDialectAll_eq ih]
  | concat span items ih => rw [checkDialect, constructs, checkDialectAll_eq ih]

/-! ## Standing between two cursors -/

/-- Constructs that stand between two cursors, one behind the other, each where the text has its
sign. -/
inductive Sited : Cursor → Cursor → List DialectFault → Prop
  | nil {c d : Cursor} (passes : c.Passes d) : Sited c d []
  | cons {c m d : Cursor} {f : DialectFault} {fs : List DialectFault} (passes : c.Passes m)
      (sign : f.construct.sign <+: m.rest) (offset : f.offset = m.pos.offset)
      (rest : Sited m.bump d fs) : Sited c d (f :: fs)

namespace Sited

variable {c d e : Cursor} {fs gs : List DialectFault}

/-- What stands behind a cursor stands behind every cursor before it. -/
theorem behind (passes : c.Passes d) (sited : Sited d e fs) : Sited c e fs := by
  cases sited with
  | nil more => exact .nil (passes.trans more)
  | cons more sign offset rest => exact .cons (passes.trans more) sign offset rest

/-- Constructs of adjacent stretches are in order together. -/
theorem append (first : Sited c d fs) (second : Sited d e gs) : Sited c e (fs ++ gs) := by
  induction first with
  | nil passes => exact second.behind passes
  | cons passes sign offset _ ih => exact .cons passes sign offset (ih second)

/-- What stands before a cursor stands before every cursor behind it. -/
theorem before (sited : Sited c d fs) (passes : d.Passes e) : Sited c e fs := by
  have both := sited.append (.nil passes)
  rwa [List.append_nil] at both

/-- What is a construct or nothing stands at a cursor. -/
theorem option {found : Option DialectFault} (passes : c.bump.Passes d)
    (each : ∀ f ∈ found, f.construct.sign <+: c.rest ∧ f.offset = c.pos.offset) :
    Sited c d found.toList := by
  cases found with
  | none => exact .nil ((Cursor.bump_passes c).trans passes)
  | some f =>
    obtain ⟨sign, offset⟩ := each f rfl
    exact .cons (.refl c) sign offset (.nil passes)

end Sited

/-! ## Flags and assertions -/

/-- A flag outside the dialect is written with its sign. -/
theorem sign_of_ofChar? {ch : Char} {f : Flag} {construct : Construct}
    (flag : Flag.ofChar? ch = some f) (outside : Construct.ofFlag? f = some construct) :
    construct.sign = [ch] := by
  unfold Flag.ofChar? at flag
  split at flag <;> cases flag <;> cases outside <;> rfl

/-- The flags that are read stand where they are read. -/
theorem FlagsRead.sited {c d : Cursor} {items : List FlagItem} (read : FlagsRead c d items) :
    Sited c d (items.filterMap FlagItem.fault?) := by
  induction read with
  | nil c => exact .nil (.refl c)
  | @cons ch rest pos d mark items written _ ih =>
    rw [List.filterMap_cons]
    cases mark with
    | negation => exact ih.behind (Cursor.Passes.cons ch rest pos)
    | flag f =>
      cases outside : Construct.ofFlag? f with
      | none =>
        simp only [FlagItem.fault?, FlagItem.construct?, outside, Option.map_none]
        exact ih.behind (Cursor.Passes.cons ch rest pos)
      | some construct =>
        have sign := sign_of_ofChar? (written f rfl) outside
        simp only [FlagItem.fault?, FlagItem.construct?, outside, Option.map_some]
        exact .cons (.refl _) ⟨rest, by rw [sign]; rfl⟩ rfl ih

/-- The flags at the start of a group stand where they are read. -/
theorem readGroupHead_sited {x : Bool} {c d : Cursor} {head : GroupHead} {items : List FlagItem}
    (read : readGroupHead x c = .ok (head, d))
    (flags : head = .directive items ∨ head = .plain items) :
    Sited c d (items.filterMap FlagItem.fault?) := by
  obtain ⟨-, ⟨name, span, rfl⟩ | rfl | ⟨start, stop, found, before, rfl, listed, kind⟩⟩ :=
    readGroupHead_cases read
  · rcases flags with named | named <;> cases named
  · rcases flags with named | named <;> cases named
  · have same : found = items := by
      rcases kind with rfl | rfl <;> rcases flags with kind | kind <;> cases kind <;> rfl
    rw [← same]
    exact (listed.sited.behind before).before (Cursor.bump_passes stop)

/-- An assertion of one character outside the dialect is written with its sign. -/
theorem sign_of_assertionEscape? {ch : Char} {kind : AssertionKind} {construct : Construct}
    (escape : assertionEscape? ch = some kind)
    (outside : Construct.ofAssertion? kind = some construct) :
    construct.sign = ['\\', ch] := by
  unfold assertionEscape? at escape
  split at escape <;> cases escape <;> cases outside <;> rfl

/-- What a brace after the boundary makes outside the dialect is a special boundary. -/
theorem construct_of_readBoundary {x : Bool} {start : Position} {c d : Cursor}
    {kind : AssertionKind} {construct : Construct}
    (read : readBoundary x start c = .ok (kind, d))
    (outside : Construct.ofAssertion? kind = some construct) : construct = .specialBoundary := by
  unfold readBoundary at read
  dsimp only at read
  split at read
  · cases read
  split at read
  · split at read
    · split at read
      next found =>
        cases read
        unfold specialBoundary? at found
        split_ifs at found <;> cases found <;> cases outside <;> rfl
      next => cases read
    · cases read
  · cases read
    cases outside

/-- A word boundary stands at its backslash, in whichever form. -/
theorem readWordBoundary_sited {x : Bool} {c d : Cursor} {item : Primitive} {rest : List Char}
    (before : c.rest = '\\' :: 'b' :: rest)
    (read : readWordBoundary x c.pos c.bump.bump = .ok (item, d)) :
    Sited c d item.toTree.constructs := by
  have passes := (Cursor.bump_passes c.bump).trans (readWordBoundary_passes read)
  have after : c.bump.bump.rest = rest := by simp only [Cursor.bump, before]
  unfold readWordBoundary at read
  rw [after] at read
  split at read
  next more =>
    obtain ⟨⟨kind, stop⟩, named, read⟩ := bind_eq_ok_iff.mp read
    cases read
    refine .option passes fun f outside => ?_
    obtain ⟨construct, found, rfl⟩ := Option.map_eq_some_iff.mp outside
    obtain rfl := construct_of_readBoundary named found
    exact ⟨⟨more, before.symm⟩, rfl⟩
  next =>
    cases read
    exact .nil ((Cursor.bump_passes c).trans passes)

/-- What an escape of one letter introduces stands at its backslash. -/
theorem readShortEscape_sited {x : Bool} {ch : Char} {c d : Cursor} {item : Primitive}
    {rest : List Char} (before : c.rest = '\\' :: ch :: rest)
    (read : readShortEscape x c.pos ch c.bump.bump = .ok (item, d)) :
    Sited c d item.toTree.constructs := by
  have passes := (Cursor.bump_passes c.bump).trans (readShortEscape_passes read)
  have none := Sited.nil ((Cursor.bump_passes c).trans passes)
  unfold readShortEscape at read
  dsimp only at read
  split at read
  · cases read
    exact none
  split at read
  next b =>
    subst b
    exact readWordBoundary_sited before read
  split at read
  · cases read
    exact none
  next escape =>
    cases read
    refine .option passes fun f outside => ?_
    obtain ⟨construct, found, rfl⟩ := Option.map_eq_some_iff.mp outside
    exact ⟨⟨rest, by rw [sign_of_assertionEscape? escape found, before]; rfl⟩, rfl⟩
  · cases read

/-- What an escape introduces stands at its backslash. -/
theorem readEscape_sited {x : Bool} {c d : Cursor} {item : Primitive} {rest : List Char}
    (before : c.rest = '\\' :: rest) (read : readEscape x c = .ok (item, d)) :
    Sited c d item.toTree.constructs := by
  have none := Sited.nil (readEscape_passes read)
  have after : c.bump.rest = rest := by simp only [Cursor.bump, before]
  unfold readEscape at read
  dsimp only at read
  rw [after] at read
  split at read
  · cases read
  split at read
  · cases read
  split at read
  · obtain ⟨property, -, read⟩ := bind_eq_ok_iff.mp read
    cases read
    exact none
  split at read
  · obtain ⟨number, -, read⟩ := bind_eq_ok_iff.mp read
    cases read
    exact none
  · cases read
    exact none
  · exact readShortEscape_sited before read

/-- A primitive that is outside the dialect is an assertion, and stands where it is read. -/
theorem readPrimitive_sited {x : Bool} {ch : Char} {c d : Cursor} {item : Primitive}
    {rest : List Char} (before : c.rest = ch :: rest)
    (read : readPrimitive x ch c = .ok (item, d)) : Sited c d item.toTree.constructs := by
  unfold readPrimitive at read
  split at read
  · exact readEscape_sited before read
  all_goals
    cases read
    exact .nil (Cursor.bump_passes c)

/-! ## The reader -/

/-- The constructs of a tree as a list that the reader makes step by step. -/
def constructListing : Listing DialectFault where
  ofTree := Tree.constructs
  ofKind := GroupKind.constructs
  empty _ := rfl
  repetition _ _ _ _ := rfl
  group _ _ _ := rfl
  alternation _ branches := Tree.constructsAll_eq_flatMap branches
  concat _ items := Tree.constructsAll_eq_flatMap items

/-- A capturing group sets no flags. -/
theorem GroupKind.constructs_of_index? {kind : GroupKind} {n : Nat}
    (numbered : kind.index? = some n) : kind.constructs = [] := by
  cases kind with
  | plain items => cases numbered
  | capture | named => rfl

namespace Reader

/-- The constructs that were read so far. -/
def constructs (r : Reader) : List DialectFault := constructListing.ofReader r

/-- What a step adds to the constructs stands between the cursors before and after it. -/
theorem Advances.sited {r r' : Reader} {ch : Char} {rest : List Char}
    (before : r.cursor.rest = ch :: rest) (step : r.Advances ch r') :
    ∃ new, r'.constructs = r.constructs ++ new ∧ Sited r.cursor r'.cursor new := by
  have passes := step.passes
  have silent (same : r'.constructs = r.constructs) :
      ∃ new, r'.constructs = r.constructs ++ new ∧ Sited r.cursor r'.cursor new :=
    ⟨[], by rw [same, List.append_nil], .nil passes⟩
  cases step with
  | directive blank head =>
    exact ⟨_, constructListing.ofReader_push _ _ _, readGroupHead_sited head (.inl rfl)⟩
  | plain blank head =>
    exact ⟨_, constructListing.ofReader_openGroup _ _ _ _, readGroupHead_sited head (.inr rfl)⟩
  | @capture _ kind cursor names _ numbered =>
    refine ⟨_, constructListing.ofReader_openGroup _ kind cursor r.blank, ?_⟩
    rw [show constructListing.ofKind kind = [] from GroupKind.constructs_of_index? numbered]
    exact .nil passes
  | close inner => exact silent (constructListing.ofReader_finishGroup inner)
  | branch => exact silent constructListing.ofReader_branch
  | bracket read =>
    exact silent ((constructListing.ofReader_push _ _ r.blank).trans (List.append_nil _))
  | repetition last _ => exact silent (constructListing.ofReader_repetition last _)
  | primitive read =>
    exact ⟨_, constructListing.ofReader_push _ _ r.blank, readPrimitive_sited before read⟩

/-- In every state of the reader, the constructs found so far stand in order before its cursor. -/
theorem kept_sited (start : Cursor) : Kept fun r => Sited start r.cursor r.constructs where
  skip _ _ passes sited := sited.before passes
  step r r' _ _ before step sited := by
    obtain ⟨new, all, added⟩ := step.sited before
    rw [all]
    exact sited.append added

end Reader

/-- The constructs of a pattern stand in it, one behind the other. -/
theorem Tree.sited_of_parse {pattern : String} {t : Tree} (parsed : Tree.parse pattern = .ok t) :
    ∃ stop, Sited (.ofString pattern) stop t.constructs := by
  have kept := Reader.kept_sited (.ofString pattern)
  obtain ⟨r, sited, inner⟩ := kept.of_parse (.nil (.refl _)) parsed
  rw [Reader.constructs, ← constructListing.ofTree_inner inner] at sited
  exact ⟨r.cursor, sited⟩

/-! ## Offsets in the pattern -/

/-- An offset counts the bytes of the text that was passed over. -/
theorem Position.offset_foldl_after (read : List Char) (p : Position) :
    (read.foldl Position.after p).offset = p.offset + (read.map Char.utf8Size).sum := by
  induction read generalizing p with
  | nil => rfl
  | cons ch read ih =>
    have one : (p.after ch).offset = p.offset + ch.utf8Size := by
      rw [after]
      split <;> rfl
    rw [List.foldl_cons, ih, one, List.map_cons, List.sum_cons, Nat.add_assoc]

namespace Latin1

/-- A position reached in a decoded pattern is that of as many bytes of the pattern. -/
theorem patternOffset_of_passes {decoded : String} {c : Cursor}
    (passes : (Cursor.ofString decoded).Passes c) :
    c.rest = decoded.toList.drop (patternOffset decoded c.pos.offset) ∧
      patternOffset decoded c.pos.offset + c.rest.length = decoded.toList.length := by
  obtain ⟨read, text, pos⟩ := passes
  have text : decoded.toList = read ++ c.rest := text
  have offset : patternOffset decoded c.pos.offset = read.length := by
    rw [patternOffset, text, pos, Position.offset_foldl_after]
    show (charsBefore? (read ++ c.rest) (0 + _)).getD _ = _
    rw [Nat.zero_add, charsBefore?_append]
    rfl
  rw [offset, text, List.drop_left, List.length_append]
  exact ⟨rfl, rfl⟩

/-- Different bytes are decoded to different characters. -/
theorem ofByte_injective : Function.Injective ofByte := by
  intro b b' same
  have bytes := congrArg byte? same
  rw [byte?_ofByte, byte?_ofByte] at bytes
  exact Option.some.inj bytes

/-- ASCII text that a decoded pattern has somewhere is what the pattern has there. -/
theorem isPrefix_of_decoded {cs : List Char} {bytes : List UInt8}
    (ascii : ∀ c ∈ cs, c.toNat < 0x80) (text : cs <+: bytes.map ofByte) :
    Utf8.encode cs <+: bytes := by
  obtain ⟨start, found, same⟩ := List.prefix_map_iff.mp text
  have spelled := (map_ofByte_encode ascii).trans same
  rwa [ofByte_injective.list_map spelled]

end Latin1

/-- Text that starts with a sign is not at its end. -/
theorem Construct.rest_ne_nil (construct : Construct) {rest : List Char}
    (sign : construct.sign <+: rest) : rest ≠ [] := by
  rintro rfl
  have none := List.prefix_nil.mp sign
  cases construct <;> cases none

/-- The signs of constructs are ASCII, so each of their characters is one byte of the pattern. -/
theorem Construct.sign_ascii (construct : Construct) : ∀ c ∈ construct.sign, c.toNat < 0x80 := by
  have checked : construct.sign.all (·.toNat < 0x80) = true := by cases construct <;> decide
  simpa only [List.all_eq_true, decide_eq_true_eq] using checked

namespace DialectFault

/-- The construct with its offset in the pattern before decoding. -/
def inPattern (decoded : String) (f : DialectFault) : DialectFault :=
  { f with offset := Latin1.patternOffset decoded f.offset }

/-- The construct stands in the text of which these are the bytes. -/
def StandsIn (bytes : List UInt8) (f : DialectFault) : Prop :=
  f.offset < bytes.length ∧ Utf8.encode f.construct.sign <+: bytes.drop f.offset

/-- A construct that stands in the decoded pattern stands in the pattern. -/
theorem standsIn_inPattern {pattern : String} {c : Cursor} {f : DialectFault}
    (passes : (Cursor.ofString (Latin1.decode pattern)).Passes c)
    (sign : f.construct.sign <+: c.rest) (offset : f.offset = c.pos.offset) :
    (f.inPattern (Latin1.decode pattern)).StandsIn (Utf8.encode pattern.toList) := by
  obtain ⟨rest, length⟩ := Latin1.patternOffset_of_passes passes
  rw [← offset] at rest length
  have decoded := Latin1.toList_decode pattern
  constructor
  · show Latin1.patternOffset _ f.offset < _
    have some := List.length_pos_iff.mpr (f.construct.rest_ne_nil sign)
    rw [decoded, List.length_map] at length
    omega
  · refine Latin1.isPrefix_of_decoded f.construct.sign_ascii ?_
    rw [List.map_drop, ← decoded]
    exact rest ▸ sign

end DialectFault

/-- Constructs behind a place of a decoded pattern stand behind it in the pattern, in order. -/
theorem Sited.inPattern {pattern : String} {c d : Cursor} {fs : List DialectFault}
    (passes : (Cursor.ofString (Latin1.decode pattern)).Passes c) (sited : Sited c d fs) :
    (∀ f ∈ fs.map (DialectFault.inPattern (Latin1.decode pattern)),
      Latin1.patternOffset (Latin1.decode pattern) c.pos.offset ≤ f.offset ∧
        f.StandsIn (Utf8.encode pattern.toList)) ∧
    (fs.map (DialectFault.inPattern (Latin1.decode pattern))).Pairwise
      fun f g => f.offset < g.offset := by
  induction sited with
  | nil => exact ⟨by simp, .nil⟩
  | @cons c m d f fs more sign offset rest ih =>
    have here := passes.trans more
    have next := here.trans (Cursor.bump_passes m)
    obtain ⟨behind, ordered⟩ := ih next
    have stands := DialectFault.standsIn_inPattern here sign offset
    have place : (f.inPattern (Latin1.decode pattern)).offset =
        Latin1.patternOffset (Latin1.decode pattern) m.pos.offset := by rw [← offset]; rfl
    -- Offsets in the pattern and what is left of the text add up, so both move together.
    have atStart := (Latin1.patternOffset_of_passes passes).2
    have atSign := (Latin1.patternOffset_of_passes here).2
    have atNext := (Latin1.patternOffset_of_passes next).2
    have moved := more.length_le
    have bumped := Cursor.length_bump_lt (f.construct.rest_ne_nil sign)
    rw [List.map_cons, List.forall_mem_cons, List.pairwise_cons, place]
    refine ⟨⟨⟨by omega, stands⟩, fun g mem => ?_⟩, fun g mem => ?_, ordered⟩
    · obtain ⟨after, stands⟩ := behind g mem
      exact ⟨by omega, stands⟩
    · have after := (behind g mem).1
      omega

/-- A pattern is refused for a construct exactly if it can be read and that is the first construct
of its tree. -/
theorem Settings.result_eq_dialect_iff {s : Settings} {pattern : String} {f : DialectFault} :
    (s.compile pattern).result = .error (.dialect f) ↔
      ∃ t rest, Tree.parseWithin s.effectiveNestLimit.toNat (Latin1.decode pattern) = .ok t ∧
        t.constructs.map (DialectFault.inPattern (Latin1.decode pattern)) = f :: rest := by
  rw [result_eq_error_iff rfl, expression_eq_error_iff]
  constructor
  · rintro (⟨_, -, same⟩ | ⟨t, read, ⟨g, first, same⟩ | ⟨-, _, -, same⟩⟩)
    · cases same
    · cases same
      obtain ⟨rest, found⟩ := refuseFirst_eq_error_iff.mp (t.checkDialect_eq ▸ first)
      exact ⟨t, _, read, (congrArg _ found).trans List.map_cons⟩
    · cases same
  · rintro ⟨t, rest, read, found⟩
    obtain ⟨g, more, constructs, rfl, -⟩ := List.map_eq_cons_iff.mp found
    refine .inr ⟨t, read, .inl ⟨g, ?_, rfl⟩⟩
    rw [Tree.checkDialect_eq]
    exact refuseFirst_eq_error_iff.mpr ⟨more, constructs⟩

end PatternGate
