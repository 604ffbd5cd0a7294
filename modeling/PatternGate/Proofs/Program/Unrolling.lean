import PatternGate.Proofs.Expr.Built
import PatternGate.Proofs.Expr.Matching
import PatternGate.Proofs.Program.Deeds
import PatternGate.Proofs.Program.Outline

/-!
# Unrolling stops with the budget

The turns of a repetition are written out one by one, and its counts may be huge, also those of
repetitions within it. The run is short all the same, because a turn costs memory: what is written
without an instruction matches no byte (`Expr.maxLength_of_free`), and the building functions let
what matches no byte be repeated once at most (`Expr.Built.each_capped`).

That each part is come to at most once for every 16 bytes of the budget, and once more, is an
account in which a part pays for its next visit with what it writes (`Watched.Paced`). What writes
nothing has nothing to pay with, and may be visited once on slack: the slack is handed on until a
charge makes up for it, and of several parts in a row only one is on the way to the path that is
counted. The main statement is `Settings.unrolling_bounded`.
-/

namespace PatternGate

namespace Expr

/-- A repetition may happen, and what matches no byte is repeated at most once. -/
def NodeCapped : Expr → Prop
  | .repetition min max _ body =>
    ¬(min = 0 ∧ max = some 0) ∧
      (body.maxLength = some 0 → min = 0 ∧ max = some 1 ∨ min = 1 ∧ max = some 0)
  | _ => True

/-- What has no parts repeats nothing. -/
theorem nodeCapped_of_isLeaf {e : Expr} (leaf : e.isLeaf = true) : e.NodeCapped := by
  cases e <;> trivial

/-- Building expressions from capped ones keeps them capped; only repetitions need a look of their
own. -/
theorem stable_nodeCapped : Stable NodeCapped where
  empty := trivial
  fail := trivial
  literal _ _ _ _ := trivial
  concat _ := trivial
  alternation _ _ := trivial
  alternatives _ _ _ written := nodeCapped_of_isLeaf (isLeaf_ofAlternatives? written)

/-- Repeating an expression caps the number of turns. -/
theorem capped_ofRepetition {min : Nat} {max : Option Nat} {greedy : Bool} {body : Expr}
    (each : body.Each NodeCapped) : (ofRepetition min max greedy body).Each NodeCapped := by
  obtain ⟨least, most, once, shape⟩ : ∃ least most,
      (body.maxLength = some 0 → least ≤ 1 ∧ ∃ m ≤ 1, most = some m) ∧
        ofRepetition min max greedy body =
          if least = 0 ∧ most = some 0 then .empty
          else if least = 1 ∧ most = some 1 then body
          else .repetition least most greedy body := by
    refine ⟨_, _, fun zero => ?_, rfl⟩
    simp only [zero, beq_self_eq_true, if_true]
    refine ⟨Nat.min_le_right min 1, _, ?_, rfl⟩
    cases max with
    | none => exact Nat.le_refl 1
    | some m => exact Nat.min_le_right m 1
  rw [shape]
  split
  next => exact (each_leaf_iff rfl).mpr trivial
  next never =>
    split
    next => exact each
    next single =>
      refine Each.repetition_iff.mpr ⟨⟨never, fun zero => ?_⟩, each⟩
      obtain ⟨lower, m, upper, rfl⟩ := once zero
      simp only [Option.some.injEq] at never single ⊢
      omega

/-- Every repetition in a built expression is capped. -/
theorem Built.each_capped {e : Expr} (built : Built e) : e.Each NodeCapped := by
  have leaf : ∀ {d : Expr}, d.isLeaf = true → d.Each NodeCapped :=
    fun leaf => (each_leaf_iff leaf).mpr (nodeCapped_of_isLeaf leaf)
  induction built with
  | empty => exact leaf rfl
  | literal bytes => exact leaf (isLeaf_ofBytes bytes)
  | chars set => exact leaf (isLeaf_ofChars set)
  | bytes set => exact leaf (isLeaf_ofByteSet set)
  | look l => exact leaf rfl
  | repetition min max greedy _ ih => exact capped_ofRepetition ih
  | capture index name _ ih => exact Each.capture_iff.mpr ⟨trivial, ih⟩
  | concat _ ih => exact Each.ofConcat stable_nodeCapped ih
  | alternation _ ih => exact Each.ofAlternation stable_nodeCapped ih

end Expr

/-- Every instruction costs at least its base. -/
theorem Instruction.baseCost_le_cost (i : Instruction) : baseCost ≤ i.cost := by
  cases i <;> simp [cost]

namespace Plan

/-- A plan without instructions costs nothing, and any other the cost of an instruction. -/
theorem free_or_costly (p : Plan) :
    p.size = 0 ∧ p.cost = 0 ∨ 0 < p.size ∧ Instruction.baseCost ≤ p.cost := by
  rw [← sum_cost_code p 0, ← length_code p 0]
  cases p.code 0 with
  | nil => exact .inl ⟨rfl, rfl⟩
  | cons i code =>
    refine .inr ⟨Nat.succ_pos _, ?_⟩
    rw [List.map_cons, List.sum_cons]
    exact Nat.le_trans i.baseCost_le_cost (Nat.le_add_right _ _)

end Plan

namespace Expr

/-- A sequence without code matches no byte, if that holds of its items. -/
theorem maxLength_of_free_all {kept : Bool} {es : List Expr}
    (each : ∀ e ∈ es, (e.plan kept).cost = 0 → e.maxLength = some 0)
    (free : (planAll kept es).cost = 0) : sumLength es = some 0 := by
  rw [sumLength_eq_zero_iff]
  induction es with
  | nil => exact fun e mem => absurd mem List.not_mem_nil
  | cons e es ih =>
    rw [List.forall_mem_cons] at each ⊢
    rw [planAll, Plan.cost] at free
    exact ⟨each.1 (by omega), ih each.2 (by omega)⟩

/-- What is written without an instruction matches no byte. -/
theorem maxLength_of_free {kept : Bool} {e : Expr} (capped : e.Each NodeCapped)
    (free : (e.plan kept).cost = 0) : e.maxLength = some 0 := by
  have base : Instruction.baseCost = 16 := rfl
  induction e with
  | empty => rw [maxLength]
  | literal bs =>
    rw [plan, Plan.cost_ofChars] at free
    have none : Utf8.decode bs = [] := List.length_eq_zero_iff.mp (by omega)
    rw [maxLength, Utf8.decode_eq_nil_iff.mp none, List.length_nil]
  | chars set =>
    have := Instruction.baseCost_le_cost (Plain.ofSet (RangeSet.clip set)).instruction
    rw [plan, Plan.cost] at free
    omega
  | bytes set =>
    have := Instruction.baseCost_le_cost (Plain.ofSet set).instruction
    rw [plan, Plan.cost] at free
    omega
  | look l => rw [maxLength]
  | repetition min max greedy body ih =>
    obtain ⟨here, inner⟩ := Each.repetition_iff.mp capped
    rw [plan, Plan.repetition.eq_def] at free
    cases max with
    | some max =>
      -- There is a turn, and so it is the body that is free.
      have turn : (body.plan kept).cost = 0 := by
        simp only [Plan.cost, Plan.cost_copies, Plan.cost_options] at free
        have copies := Nat.eq_zero_of_add_eq_zero_right free
        have options := Nat.eq_zero_of_add_eq_zero_left free
        rcases Nat.mul_eq_zero.mp copies with none | turn
        · have most : max ≠ 0 := fun zero => here.1 ⟨none, congrArg some zero⟩
          rcases Nat.mul_eq_zero.mp options with never | forks <;> omega
        · exact turn
      simp [maxLength, ih inner turn]
    | none =>
      cases min with
      | zero =>
        simp only [Plan.cost] at free
        omega
      | succ min =>
        simp only [Plan.cost] at free
        omega
  | capture index name body ih =>
    rw [maxLength]
    refine ih (Each.capture_iff.mp capped).2 ?_
    cases kept with
    | false => exact free
    | true =>
      simp only [plan, Plan.capture, if_true, Plan.cost] at free
      omega
  | concat items ih =>
    have each := (Each.concat_iff.mp capped).2
    rw [plan] at free
    rw [maxLength]
    exact maxLength_of_free_all (fun e mem => ih e mem (each e mem)) free
  | alternation branches ih =>
    rw [plan, Plan.cost] at free
    omega

end Expr

/-- The turn has written an instruction and paid for it. -/
def Turn.Grows (t : Turn) : Prop := t.start < t.stop ∧ t.before + Instruction.baseCost ≤ t.after

instance : DecidablePred Turn.Grows := fun t =>
  inferInstanceAs (Decidable (t.start < t.stop ∧ t.before + Instruction.baseCost ≤ t.after))

/-- A turn grows, unless it is the one turn of a repetition with a lower bound of one turn and an
upper bound of none. -/
theorem Deed.Fits.grows {l : Limits} {e : Expr} {path : List Nat} {t : Turn}
    (fits : (Deed.turn t).Fits l e path) (capped : e.Each Expr.NodeCapped) :
    t.Grows ∨ t.min = 1 ∧ t.max = some 0 ∧ t.stop = t.start ∧ t.after = t.before := by
  obtain ⟨greedy, body, mem, writes⟩ := fits
  obtain ⟨here, inner⟩ := Expr.Each.repetition_iff.mp (capped.node mem)
  rcases writes with ⟨least, stop, after⟩ | ⟨stop, after⟩
  · rcases (body.plan l.captures).free_or_costly with ⟨size, free⟩ | ⟨size, cost⟩
    · rcases here.2 (Expr.maxLength_of_free inner free) with ⟨none, -⟩ | ⟨one, none⟩
      · omega
      · exact .inr ⟨one, none, by omega, by omega⟩
    · exact .inl ⟨by omega, by omega⟩
  · exact .inl ⟨by omega, by omega⟩

namespace Watched

variable {α β : Type} {l : Limits} {q : List Nat}

/-- How often a computation comes to the expression at a path. -/
def entries (q : List Nat) (w : Watched α) : Nat := w.log.count (.enter q)

/-- A path that the log does not name was never come to. -/
theorem entries_eq_zero {w : Watched α} (silent : ∀ d ∈ w.log, d ≠ .enter q) : w.entries q = 0 :=
  List.count_eq_zero.mpr fun mem => silent _ mem rfl

/-- How often two computations come to a path adds up. -/
theorem entries_bind_ok {w : Watched α} {a : α} (done : w.result = .ok a) (next : α → Watched β) :
    (w >>= next).entries q = w.entries q + (next a).entries q := by
  rw [entries, log_bind_ok done, List.count_append, entries, entries]

/-- Behind a refusal no path is come to. -/
theorem entries_bind_error {w : Watched α} {o : Overrun} (refused : w.result = .error o)
    (next : α → Watched β) : (w >>= next).entries q = w.entries q := by
  rw [entries, log_bind_error refused, entries]

/-- A computation that charges `cost` on top of `used` comes to a path so often that 16 bytes for
each time make `most` at the most. If it is refused, they make what was left of the budget, and
`slack` more. -/
def Paced (l : Limits) (q : List Nat) (used cost most slack : Nat) (w : Watched α) : Prop :=
  16 * w.entries q ≤ if used + cost ≤ l.budget then most else l.budget - used + slack

namespace Paced

variable {used cost cost' most most' sum slack slack' slack₁ : Nat} {w : Watched α}

/-- What never comes to a path is within any pace. -/
theorem silent (zero : w.entries q = 0) : w.Paced l q used cost 0 0 := by
  rw [Paced, zero]
  exact Nat.zero_le _

/-- What a part is allowed exceeds its cost by that of one instruction at most. -/
theorem overdraft (cost : Nat) : max cost 16 + 0 ≤ cost + 16 := by
  omega

/-- A pace holds with a higher limit and with more slack. -/
theorem mono (paced : w.Paced l q used cost most slack) (more : most ≤ most')
    (more' : slack ≤ slack') : w.Paced l q used cost most' slack' := by
  unfold Paced at paced ⊢
  split at paced
  next within =>
    rw [if_pos within]
    exact Nat.le_trans paced more
  next exceeds =>
    rw [if_neg exceeds]
    exact Nat.le_trans paced (Nat.add_le_add_left more' _)

/-- One computation after another. What the first has not used up of its cost adds to the slack. -/
theorem bind {value : α} {next : α → Watched β} (grants : l.Grants used cost w.result value)
    (first : w.Paced l q used cost most slack₁)
    (second : used + cost ≤ l.budget →
      (next value).Paced l q (used + cost) cost' most' slack')
    (more : slack₁ ≤ slack) (saved : most + slack' ≤ cost + slack) (total : most + most' ≤ sum) :
    (w >>= next).Paced l q used (cost + cost') sum slack := by
  unfold Paced at first second ⊢
  unfold Limits.Grants at grants
  by_cases within : used + cost ≤ l.budget
  · have second := second within
    rw [if_pos within] at first grants
    rw [entries_bind_ok grants]
    -- A refusal of the second finds the cost of the first gone from what was left of the budget.
    split at second
    next =>
      rw [if_pos (by omega)]
      omega
    next =>
      rw [if_neg (by omega)]
      omega
  · rw [if_neg within] at first grants
    obtain ⟨o, refused, -⟩ := grants
    rw [entries_bind_error refused, if_neg (by omega)]
    omega

/-- A charge, and then what takes the charge for slack. -/
theorem push {i : Instruction} {next : Nat → Watched α} (base : i.cost = Instruction.baseCost)
    (fits : used ≤ l.budget)
    (rest : used + i.cost ≤ l.budget →
      (next (used + i.cost)).Paced l q (used + i.cost) cost most (slack + 16)) :
    (push l used i >>= next).Paced l q used (Instruction.baseCost + cost) most slack := by
  have quiet : (Watched.push l used i).Paced l q used i.cost 0 0 :=
    silent (entries_eq_zero fun d mem => List.mem_singleton.mp mem ▸ Deed.noConfusion)
  have saved : 0 + (slack + 16) ≤ i.cost + slack := by
    rw [base, Instruction.baseCost]
    omega
  have paced := quiet.bind (Limits.Grants.charge fits) rest (Nat.zero_le _) saved (Nat.le_refl _)
  rwa [Nat.zero_add, base] at paced

/-- A change of the result leaves the pace as it is. -/
theorem map (paced : w.Paced l q used cost most slack) (f : α → β) :
    (w >>= fun a => pure (f a)).Paced l q used cost most slack := by
  have same : (w >>= fun a => pure (f a)).entries q = w.entries q := by
    cases result : w.result with
    | ok a => exact entries_bind_ok result _
    | error o => exact entries_bind_error result _
  rwa [Paced, same]

end Paced

end Watched

namespace Watcher

variable {l : Limits} {q : List Nat} {a b : Watcher}

/-- Writing code that costs `cost` is paced, wherever it stands. -/
def Paces (l : Limits) (q : List Nat) (cost most slack : Nat) (a : Watcher) : Prop :=
  ∀ pc used, used ≤ l.budget → (a pc used).Paced l q used cost most slack

/-- Noting a turn is no entry of a path. -/
theorem entries_turn (min : Nat) (max : Option Nat) (start before pc used : Nat) :
    (a.turn min max start before pc used).entries q = (a pc used).entries q := by
  cases result : (a pc used).result with
  | ok s => exact Watched.entries_bind_ok result _
  | error o => exact Watched.entries_bind_error result _

/-- Entering a part counts once for its own path. -/
theorem entries_enter (path : List Nat) (pc used : Nat) :
    (a.enter path pc used).entries q =
      (if path = q then 1 else 0) + (a pc used).entries q := by
  have log : (a.enter path pc used).log = .enter path :: (a pc used).log := rfl
  rw [Watched.entries, log, List.count_cons, Watched.entries, Nat.add_comm]
  simp

namespace Paces

variable {p : Plan} {cost cost' most most' sum slack slack' slack₁ min : Nat}
variable {max : Option Nat} {greedy : Bool}

/-- A part that never comes to a path is within any pace, wherever it is written. -/
theorem silent (every : a.Every l (· ≠ .enter q)) : Paces l q cost 0 0 a :=
  fun pc used fits => .silent (Watched.entries_eq_zero (every pc used fits))

/-- The pace of a part holds with a higher limit and with more slack. -/
theorem mono (paces : Paces l q cost most slack a) (more : most ≤ most') (more' : slack ≤ slack') :
    Paces l q cost most' slack' a :=
  fun pc used fits => (paces pc used fits).mono more more'

/-- Writing nothing comes to no path. -/
theorem nothing : Paces l q 0 0 0 nothing := silent .nothing

/-- One instruction comes to no path. -/
theorem one (i : Instruction) : Paces l q i.cost 0 0 (one l i) :=
  silent (.one fun used _ same => by cases same)

/-- Parts in sequence keep pace together. What the first has saved pays for the slack of the second.
-/
theorem seq (follows : Emitter.Follows l a.result p) (first : Paces l q p.cost most slack₁ a)
    (second : Paces l q cost' most' slack' b) (more : slack₁ ≤ slack)
    (saved : most + slack' ≤ p.cost + slack) (total : most + most' ≤ sum) :
    Paces l q (p.cost + cost') sum slack (a.seq b) := by
  intro pc used fits
  exact .bind (follows pc used fits) (first pc used fits)
    (fun within => (second _ _ within).map _) more saved total

/-- A turn keeps the pace of its body. -/
theorem turn (body : Paces l q cost most slack a) (start before : Nat) :
    Paces l q cost most slack (a.turn min max start before) := by
  intro pc used fits
  rw [Watched.Paced, entries_turn]
  exact body pc used fits

section Body

variable (follows : Emitter.Follows l a.result p)
  (body : Paces l q p.cost (Max.max p.cost 16) 16 a)
include follows body

/-- Copies of a body that costs an instruction at least keep pace with their cost. -/
theorem copies (costly : 16 ≤ p.cost) (n : Nat) :
    Paces l q (p.copies n).cost (p.copies n).cost 16 (a.copies min max n) := by
  induction n with
  | zero => exact nothing.mono (Nat.le_refl 0) (Nat.zero_le 16)
  | succ n ih =>
    intro pc used fits
    have turn : Paces l q p.cost p.cost 16 (a.turn min max pc used) :=
      (body.mono (Nat.max_le.mpr ⟨Nat.le_refl _, costly⟩) (Nat.le_refl 16)).turn pc used
    exact turn.seq (turn_follows follows pc used) ih (Nat.le_refl 16) (Nat.le_refl _)
      (Nat.le_refl _) pc used fits

/-- A single copy may write nothing. -/
theorem copies_one :
    Paces l q (p.copies 1).cost (Max.max (p.copies 1).cost 16) 16 (a.copies min max 1) := by
  intro pc used fits
  exact (body.turn pc used).seq (turn_follows follows pc used) nothing (Nat.le_refl 16)
    (Watched.Paced.overdraft _) (Nat.le_refl _) pc used fits

/-- A turn that may be left out is paid for by its fork, whatever it writes. -/
theorem options (n : Nat) :
    Paces l q (p.options greedy n).cost (p.options greedy n).cost 16
      (a.options l min max greedy n) := by
  induction n with
  | zero => exact nothing.mono (Nat.le_refl 0) (Nat.zero_le 16)
  | succ n ih =>
    intro pc used fits
    have turns : Paces l q (p.cost + (p.options greedy n).cost)
        (Max.max p.cost 16 + (p.options greedy n).cost) (16 + 16)
        ((a.turn min max pc used).seq (a.options l min max greedy n)) :=
      (body.turn pc used).seq (turn_follows follows pc used) ih (by omega) (by omega)
        (Nat.le_refl _)
    have charged : (a.options l min max greedy (n + 1) pc used).Paced l q used
        (Instruction.baseCost + (p.cost + (p.options greedy n).cost))
        (Max.max p.cost 16 + (p.options greedy n).cost) 16 :=
      .push rfl fits fun within => (turns _ _ within).map _
    refine charged.mono ?_ (Nat.le_refl 16)
    rw [Plan.options, Plan.cost, Plan.cost, Instruction.baseCost]
    omega

/-- A loop keeps pace: its body is written once. -/
theorem star :
    Paces l q (p.star greedy).cost (Max.max (p.star greedy).cost 16) 16 (a.star l greedy) := by
  intro pc used fits
  have turn : Paces l q (p.cost + Instruction.baseCost) (Max.max p.cost 16) (16 + 16)
      (a.seq (Watcher.one l (.jump pc))) :=
    body.seq follows (one (.jump pc)) (by omega) (by omega) (Nat.le_refl _)
  have charged : (a.star l greedy pc used).Paced l q used
      (Instruction.baseCost + (p.cost + Instruction.baseCost)) (Max.max p.cost 16) 16 :=
    .push rfl fits fun within => (turn _ _ within).map _
  rw [Plan.cost, Nat.add_assoc]
  exact charged.mono (by omega) (Nat.le_refl 16)

/-- A loop that is taken at least once keeps pace: its body is written once. -/
theorem plus :
    Paces l q (p.plus greedy).cost (p.plus greedy).cost 16 (a.plus l min max greedy) := by
  intro pc used fits
  have cost : ∀ leave, (Emitter.fork greedy pc leave).cost = Instruction.baseCost := by
    intro leave
    cases greedy <;> rfl
  rw [Plan.cost]
  refine .bind (turn_follows follows pc used pc used fits) (body.turn pc used pc used fits)
    (fun within => ?_) (Nat.le_refl 16) (Watched.Paced.overdraft _) (Watched.Paced.overdraft _)
  have fork := one (q := q) (Emitter.fork greedy pc (pc + p.size + 1)) (pc + p.size) _ within
  rw [cost] at fork
  exact fork.map _

/-- A repetition is paced, if its turns are capped where they write nothing. -/
theorem repetition
    (capped : p.cost = 0 → min = 0 ∧ max = some 1 ∨ min = 1 ∧ max = some 0) :
    Paces l q (p.repetition min max greedy).cost (Max.max (p.repetition min max greedy).cost 16) 16
      (a.repetition l min max greedy) := by
  have written : ∀ n, Emitter.Follows l (a.copies min max n).result (p.copies n) := by
    intro n
    rw [result_copies]
    exact Emitter.copies_follows follows n
  rcases p.free_or_costly with ⟨-, free⟩ | ⟨-, costly⟩
  · rcases capped free with ⟨rfl, rfl⟩ | ⟨rfl, rfl⟩
    · exact nothing.seq (written 0) (options follows body 1) (Nat.zero_le 16) (Nat.le_refl _)
        (Nat.le_max_left _ 16)
    · exact (copies_one follows body).seq (written 1) nothing (Nat.le_refl 16)
        (Watched.Paced.overdraft _) (Nat.le_refl _)
  · cases max with
    | some max =>
      exact (copies follows body costly min).seq (written min) (options follows body (max - min))
        (Nat.le_refl 16) (Nat.le_refl _) (Nat.le_max_left _ _)
    | none =>
      cases min with
      | zero => exact star follows body
      | succ min =>
        exact (copies follows body costly min).seq (written min) (plus follows body)
          (Nat.le_refl 16) (Nat.le_refl _) (Nat.le_max_left _ _)

/-- A group keeps pace, with its marks or without them. -/
theorem capture (index : Nat) :
    Paces l q (p.capture l.captures index).cost (Max.max (p.capture l.captures index).cost 16) 16
      (a.capture l index) := by
  unfold Watcher.capture Plan.capture
  split
  · have note : ∀ register, Emitter.Follows l (Watcher.one l (.writeRegister register)).result
        (.plain (.writeRegister register)) := by
      intro register
      rw [result_one]
      exact Emitter.one_follows (.writeRegister register)
    refine (one _).seq (note _) (body.seq follows (one _) (Nat.le_refl 16)
      (Watched.Paced.overdraft _) (Nat.le_refl _)) (Nat.zero_le 16) (by omega) ?_
    simp only [Plan.cost]
    omega
  · exact body

end Body

end Paces

end Watcher

namespace Expr

variable {l : Limits} {q path : List Nat}

/-- An expression at a path is come to only from there. -/
theorem silent_watch (e : Expr) (apart : ¬path <:+ q) : (e.watch l path).Every l (· ≠ .enter q) :=
  (e.every_watch path).mono fun d fits same => apart (by rwa [same] at fits)

/-- The parts of an expression are apart. -/
theorem eq_of_suffix {j k : Nat} (one : (j :: path) <:+ q) (other : (k :: path) <:+ q) : j = k := by
  obtain ⟨before, rfl⟩ := one
  obtain ⟨before', same⟩ := other
  have ends := List.append_inj_right' same rfl
  exact (List.cons.inj ends).1.symm

/-- An expression is come to once, before its parts. -/
theorem paces_enter {e : Expr} {a : Watcher} {cost : Nat} (entered : e.watch l path = a.enter path)
    (parts : a.Paces l q cost (max cost 16) 16) :
    (e.watch l path).Paces l q cost (max cost 16) 16 := by
  intro pc used fits
  by_cases here : path = q
  · obtain ⟨b, entered, inside⟩ := e.every_inside (l := l) path
    have silent : (b pc used).entries q = 0 :=
      Watched.entries_eq_zero fun d mem => here ▸ (inside pc used fits d mem).2
    rw [Watched.Paced, entered, Watcher.entries_enter, if_pos here, silent]
    split <;> omega
  · rw [Watched.Paced, entered, Watcher.entries_enter, if_neg here, Nat.zero_add]
    exact parts pc used fits

section Parts

variable {es : List Expr} {k : Nat}
  (each : ∀ e ∈ es, ∀ j, (e.watch l (j :: path)).Paces l q (e.plan l.captures).cost
    (max (e.plan l.captures).cost 16) 16)
include each

/-- Of the items of a sequence only one is on the way to a path. -/
theorem paces_watchAll :
    (watchAll l es k path).Paces l q (planAll l.captures es).cost
      (max (planAll l.captures es).cost 16) 16 := by
  induction es generalizing k with
  | nil =>
    rw [watchAll]
    exact Watcher.Paces.nothing.mono (Nat.zero_le _) (Nat.zero_le 16)
  | cons e es ih =>
    rw [List.forall_mem_cons] at each
    rw [watchAll, planAll, Plan.cost]
    by_cases here : (k :: path) <:+ q
    · have rest : (watchAll l es (k + 1) path).Every l (· ≠ .enter q) :=
        every_watchAll fun d _ j after => d.silent_watch fun there =>
          absurd (eq_of_suffix here there) (by omega)
      exact (each.1 k).seq (e.watch_follows _) (.silent rest) (Nat.le_refl 16)
        (Watched.Paced.overdraft _) (by omega)
    · have head : (e.watch l (k :: path)).Paces l q (e.plan l.captures).cost 0 0 :=
        .silent (e.silent_watch here)
      exact head.seq (e.watch_follows _) (ih each.2) (Nat.zero_le 16) (by omega) (by omega)

/-- Of the branches of an alternation only one is on the way to a path. -/
theorem paces_watchBranches {pc used : Nat} (fits : used ≤ l.budget) :
    (watchBranches l es k path pc used).Paced l q used (Plan.costBranches (plans l.captures es))
      (max (Plan.costBranches (plans l.captures es)) 16) 16 := by
  induction es generalizing k pc used with
  | nil =>
    refine Watched.Paced.mono (.silent ?_) (Nat.zero_le _) (Nat.zero_le 16)
    simp only [watchBranches]
    rfl
  | cons e es ih =>
    rw [List.forall_mem_cons] at each
    have head := each.1 k pc used fits
    cases es with
    | nil =>
      simp only [watchBranches, plans, Plan.costBranches]
      exact head.map _
    | cons e' es =>
      simp only [watchBranches, plans, Plan.costBranches, Nat.add_assoc]
      by_cases here : (k :: path) <:+ q
      · have rest : ∀ {pc used}, used ≤ l.budget →
            (watchBranches l (e' :: es) (k + 1) path pc used).entries q = 0 := fun within =>
          Watched.entries_eq_zero (every_watchBranches (fun d _ j after =>
            d.silent_watch fun there => absurd (eq_of_suffix here there) (by omega))
            (fun used _ => Deed.noConfusion) within)
        exact head.bind (e.watch_follows _ pc used fits) (fun within => .push rfl within
          fun within' => ((Watched.Paced.silent (rest within')).map _).mono (Nat.le_refl 0)
            (Nat.zero_le _)) (Nat.le_refl 16) (Watched.Paced.overdraft _) (by omega)
      · have quiet : (e.watch l (k :: path)).Paces l q (e.plan l.captures).cost 0 0 :=
          .silent (e.silent_watch here)
        have saved : 0 + 16 ≤ (e.plan l.captures).cost + 16 := by omega
        refine (quiet pc used fits).bind (e.watch_follows _ pc used fits) (fun within =>
          .push rfl within fun within' => ((ih each.2 within').map _).mono (Nat.le_refl _) ?_)
          (Nat.zero_le 16) saved ?_
        · omega
        · simp only [plans, Instruction.baseCost]
          omega

end Parts

/-- Lowering an expression is paced: it comes to each of its parts once for every 16 bytes, and once
more. -/
theorem paces_watch (e : Expr) (capped : e.Each NodeCapped) :
    (e.watch l path).Paces l q (e.plan l.captures).cost (max (e.plan l.captures).cost 16) 16 := by
  have leaf : ∀ {a : Watcher} {cost : Nat}, a.Every l (· ≠ .enter q) →
      a.Paces l q cost (max cost 16) 16 :=
    fun every => (Watcher.Paces.silent every).mono (Nat.zero_le _) (Nat.zero_le 16)
  have pushes : ∀ i, (Watcher.one l i).Every l (· ≠ .enter q) :=
    fun i => .one fun _ _ => Deed.noConfusion
  induction e generalizing path with
  | empty => exact paces_enter (by rw [watch]) (leaf .nothing)
  | literal bs =>
    exact paces_enter (by rw [watch]) (leaf (.literal (fun _ _ _ _ => Deed.noConfusion) _))
  | chars set => exact paces_enter (by rw [watch]) (leaf (pushes _))
  | bytes set => exact paces_enter (by rw [watch]) (leaf (pushes _))
  | look k => exact paces_enter (by rw [watch]) (leaf (pushes _))
  | repetition min max greedy body ih =>
    obtain ⟨here, inner⟩ := Each.repetition_iff.mp capped
    refine paces_enter (by rw [watch]) ?_
    exact .repetition (body.watch_follows _) (ih inner) fun free =>
      here.2 (maxLength_of_free inner free)
  | capture index name body ih =>
    refine paces_enter (by rw [watch]) ?_
    exact .capture (body.watch_follows _) (ih (Each.capture_iff.mp capped).2) index
  | concat items ih =>
    have each := (Each.concat_iff.mp capped).2
    refine paces_enter (by rw [watch]) ?_
    rw [plan]
    exact paces_watchAll fun e mem j => ih e mem (each e mem)
  | alternation branches ih =>
    have each := (Each.alternation_iff.mp capped).2
    refine paces_enter (by rw [watch]) fun pc used fits => ?_
    rw [plan, Plan.cost, Nat.add_assoc]
    have parts : ∀ e ∈ branches, ∀ j, (e.watch l (j :: path)).Paces l q (e.plan l.captures).cost
        (max (e.plan l.captures).cost 16) 16 := fun e mem j => ih e mem (each e mem)
    have targets : ∀ used count, (Watched.targets l used count).entries q = 0 :=
      fun _ _ => Watched.entries_eq_zero fun d mem => List.mem_singleton.mp mem ▸ Deed.noConfusion
    refine .mono (.push rfl fits fun within =>
      (paces_watchBranches parts within).bind (watchBranches_grants branches 0 path _ _ within)
        (fun _ => (Watched.Paced.silent (targets _ _)).map _) ?_ ?_ (Nat.le_refl _))
      ?_ (Nat.le_refl 16)
    · omega
    · omega
    · rw [Instruction.baseCost]
      omega

/-- A whole run comes to each part of the expression once for every 16 bytes of the budget, and once
more. -/
theorem entries_watchLower (e : Expr) (capped : e.Each NodeCapped) :
    (e.watchLower l).entries q ≤ l.budget / 16 + 1 := by
  have start : ((e.watchStart l) 0 0).Paced l q 0 e.startPlan.cost 0 0 := by
    have pushes : ∀ i, ∀ used ≤ l.budget, Deed.push used i ≠ .enter q :=
      fun _ _ _ => Deed.noConfusion
    have silent : (e.watchStart l).Every l (· ≠ .enter q) := by
      unfold watchStart
      split
      · exact .nothing
      · exact .one_seq (pushes _) (.one_seq (pushes _) (.one (pushes _)))
    exact .silent (Watched.entries_eq_zero (silent 0 0 (Nat.zero_le _)))
  have grants := e.startPlan_grants (l := l)
  rw [← result_watchStart] at grants
  have body : (e.watch l []).Paces l q _ _ 16 := e.paces_watch capped
  have rest := body.seq (e.watch_follows []) (.one .accept) (Nat.le_refl 16)
    (Watched.Paced.overdraft _) (Nat.le_refl _)
  have paced : (e.watchLower l).Paced l q 0
      (e.startPlan.cost + ((e.plan l.captures).cost + Instruction.baseCost))
      (max (e.plan l.captures).cost 16) 16 :=
    start.bind grants (fun within => (rest _ _ within).map _) (Nat.zero_le 16) (by omega) (by omega)
  rw [Watched.Paced, Instruction.baseCost] at paced
  split at paced <;> omega

end Expr

namespace Settings

/-- Unrolling stops with the budget. In a run of lowering, granted or refused, every completed turn
of a repetition has written an instruction and paid for it, except the one turn of a repetition from
one turn to none around what writes nothing; and each part of the expression is come to at most once
for every 16 bytes of the budget, and once more. -/
theorem unrolling_bounded (s : Settings) (e : Expr) (built : e.Built) :
    (e.watchLower s.limits).result = e.lower s.limits ∧
      (e.watchLower s.limits).Keeps 0 Stretch.used ∧
      (∀ t, .turn t ∈ (e.watchLower s.limits).log →
        t.Grows ∨ t.min = 1 ∧ t.max = some 0 ∧ t.stop = t.start ∧ t.after = t.before) ∧
      ∀ path, (e.watchLower s.limits).entries path ≤ s.programBudget.toNat / 16 + 1 :=
  ⟨e.result_watchLower, e.keeps_watchLower,
    fun _ mem => (e.every_watchLower _ mem).grows built.each_capped,
    fun _ => e.entries_watchLower built.each_capped⟩

/-- The pattern `(?:a{1000}){1000}` is refused at the 83rd letter, within the bound of 86. -/
theorem unrolling_bounded_nested :
    let e := Expr.ofRepetition 1000 (some 1000) true
      (.ofRepetition 1000 (some 1000) true (.ofBytes [0x61]))
    let run := e.watchLower ({} : Settings).limits
    e.Built ∧ run.result.isOk = false ∧ .turn ⟨1000, some 1000, 84, 85, 1344, 1360⟩ ∈ run.log ∧
      run.entries [0, 0] = 83 ∧ ∀ path, run.entries path ≤ 86 := by
  intro e run
  have built : e.Built := .repetition _ _ _ (.repetition _ _ _ (.literal _))
  obtain ⟨-, -, -, bound⟩ := unrolling_bounded {} e built
  have budget : ({} : Settings).programBudget.toNat / 16 + 1 = 86 := by decide +kernel
  exact ⟨built, by decide +kernel, by decide +kernel, by decide +kernel, budget ▸ bound⟩

/-- A repetition from one turn to none around the empty expression is kept, and its turn writes
nothing: with a budget of 64 bytes the program has an instruction to accept, after the three that
start it. -/
theorem unrolling_idle :
    let s : Settings := { maxMemory := 96 }
    let e := Expr.ofRepetition 1 (some 0) true .empty
    e.Built ∧ .turn ⟨1, some 0, 3, 3, 48, 48⟩ ∈ (e.watchLower s.limits).log ∧
      ¬(⟨1, some 0, 3, 3, 48, 48⟩ : Turn).Grows ∧
        (s.program e).toOption.map (fun p => (p.code.length, p.memory)) = some (4, 64) :=
  ⟨.repetition 1 (some 0) true .empty, by decide +kernel, by decide, by decide +kernel⟩

end Settings

end PatternGate
