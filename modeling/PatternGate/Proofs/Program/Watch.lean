import PatternGate.Program.Watch
import PatternGate.Proofs.Expr.Nodes

/-!
# What the log of lowering says

Lowering under watch takes the same steps as lowering. Leaving the log out gives back what lowering
gives (`Expr.result_watch`, `Expr.result_watchLower`), so that the log says what lowering does.

Nothing that costs memory is left out of the log: each charge is on top of the charges before it,
and all of them make up the memory of the program, or the overrun (`Expr.keeps_watchLower`).
-/

namespace PatternGate

namespace Watched

variable {α β : Type}

/-- A computation that does nothing gives its value. -/
@[simp]
theorem result_pure (a : α) : (pure a : Watched α).result = .ok a := rfl

/-- A computation that does nothing logs nothing. -/
@[simp]
theorem log_pure (a : α) : (pure a : Watched α).log = [] := rfl

/-- Leaving out the log turns a chain of watched computations into a chain of plain ones. -/
@[simp]
theorem result_bind (w : Watched α) (next : α → Watched β) :
    (w >>= next).result = w.result >>= fun a => (next a).result := by
  simp only [bind]
  cases w.result <;> rfl

/-- Where the first computation was granted, the log of the second follows its own. -/
theorem log_bind_ok {w : Watched α} {a : α} (done : w.result = .ok a) (next : α → Watched β) :
    (w >>= next).log = w.log ++ (next a).log := by
  simp only [bind, done]

/-- Where the first computation was refused, nothing else is done, and the log ends there. -/
theorem log_bind_error {w : Watched α} {o : Overrun} (refused : w.result = .error o)
    (next : α → Watched β) : (w >>= next).log = w.log := by
  simp only [bind, refused]

/-- A last step that does nothing adds nothing to the log. -/
theorem log_bind_pure (w : Watched α) (f : α → β) :
    (w >>= fun a => pure (f a)).log = w.log := by
  cases result : w.result with
  | ok a => rw [log_bind_ok result, log_pure, List.append_nil]
  | error o => exact log_bind_error result _

/-- What is done in two computations is done in one of them, in the second only if the first was
granted. -/
theorem mem_log_bind {w : Watched α} {next : α → Watched β} {d : Deed}
    (mem : d ∈ (w >>= next).log) : d ∈ w.log ∨ ∃ a, w.result = .ok a ∧ d ∈ (next a).log := by
  cases result : w.result with
  | error o =>
    rw [log_bind_error result] at mem
    exact .inl mem
  | ok a =>
    rw [log_bind_ok result, List.mem_append] at mem
    exact mem.imp_right fun mem => ⟨a, rfl, mem⟩

end Watched

namespace Watcher

/-- What is written, without the log. -/
def result (a : Watcher) : Emitter := fun pc used => (a pc used).result

variable {l : Limits} {a b : Watcher}

@[simp]
theorem result_nothing : result nothing = .nothing := rfl

/-- One instruction under watch is that instruction: the log adds no charge. -/
@[simp]
theorem result_one (i : Instruction) : (one l i).result = .one l i := by
  funext pc used
  simp only [result, one, Watched.result_bind]
  rfl

/-- Two parts under watch are lowered one after the other, as without it. -/
@[simp]
theorem result_seq : (a.seq b).result = a.result.seq b.result := by
  funext pc used
  simp only [result, seq, Watched.result_bind]
  rfl

/-- Noting where a part is entered does not change what the part gives. -/
@[simp]
theorem result_enter (path : List Nat) : (a.enter path).result = a.result := by
  funext pc used
  simp only [result, enter, Watched.result_bind]
  rfl

/-- Noting a turn of a repetition does not change what its body gives. -/
@[simp]
theorem result_turn (min : Nat) (max : Option Nat) (start before : Nat) :
    (a.turn min max start before).result = a.result := by
  funext pc used
  simp only [result, turn, Watched.result_bind]
  exact bind_pure _

/-- Copies of a body under watch are the copies without it. The induction is on their number. -/
@[simp]
theorem result_copies (min : Nat) (max : Option Nat) (n : Nat) :
    (a.copies min max n).result = a.result.copies n := by
  induction n with
  | zero => rfl
  | succ n ih =>
    funext pc used
    have turns := congrFun (congrFun (@result_seq (a.turn min max pc used) (a.copies min max n)) pc)
      used
    rw [result_turn, ih] at turns
    exact turns

/-- Copies that may be left out are the same with and without a log. -/
@[simp]
theorem result_options (min : Nat) (max : Option Nat) (greedy : Bool) (n : Nat) :
    (a.options l min max greedy n).result = a.result.options l greedy n := by
  induction n with
  | zero => rfl
  | succ n ih =>
    funext pc used
    have turns := @result_seq (a.turn min max pc used) (a.options l min max greedy n)
    rw [result_turn, ih] at turns
    simp only [Emitter.options, ← turns]
    simp only [result, options, Watched.result_bind]
    rfl

/-- The loop of a repetition is the same with and without a log. -/
@[simp]
theorem result_star (greedy : Bool) : (a.star l greedy).result = a.result.star l greedy := by
  funext pc used
  simp only [Emitter.star, ← result_one, ← result_seq]
  simp only [result, star, Watched.result_bind]
  rfl

/-- A loop that is taken at least once is the same with and without a log. -/
@[simp]
theorem result_plus (min : Nat) (max : Option Nat) (greedy : Bool) :
    (a.plus l min max greedy).result = a.result.plus l greedy := by
  funext pc used
  have turn := congrFun (congrFun (@result_turn a min max pc used) pc) used
  simp only [Emitter.plus, ← result_one, ← turn]
  simp only [result, plus, Watched.result_bind]
  rfl

/-- A repetition unrolls to the same code under watch, whichever of its three forms it has. -/
@[simp]
theorem result_repetition (min : Nat) (max : Option Nat) (greedy : Bool) :
    (a.repetition l min max greedy).result = a.result.repetition l min max greedy := by
  cases max with
  | some max => simp [repetition, Emitter.repetition]
  | none => cases min <;> simp [repetition, Emitter.repetition]

/-- The marks of a group are the same with and without a log. -/
@[simp]
theorem result_capture (index : Nat) :
    (a.capture l index).result = a.result.capture l index := by
  unfold capture Emitter.capture
  split <;> simp

/-- A text under watch is its characters, one instruction each. -/
@[simp]
theorem result_literal (cs : List Char) : (literal l cs).result = .literal l cs := by
  induction cs with
  | nil => rfl
  | cons c cs ih => simp [literal, Emitter.literal, ih]

end Watcher

namespace Expr

variable {l : Limits}

/-- The items of a sequence give what they give without a log, if each of them does. -/
theorem result_watchAll {es : List Expr}
    (each : ∀ e ∈ es, ∀ path, (e.watch l path).result = e.emit l) (k : Nat) (path : List Nat) :
    (watchAll l es k path).result = emitAll l es := by
  induction es generalizing k with
  | nil => simp [watchAll, emitAll]
  | cons e es ih =>
    rw [List.forall_mem_cons] at each
    simp [watchAll, emitAll, each.1, ih each.2]

/-- The branches of an alternation give what they give without a log, if each of them does. -/
theorem result_watchBranches {es : List Expr}
    (each : ∀ e ∈ es, ∀ path, (e.watch l path).result = e.emit l) (k : Nat) (path : List Nat)
    (pc used : Nat) :
    (watchBranches l es k path pc used).result = emitBranches l es pc used := by
  induction es generalizing k pc used with
  | nil =>
    simp only [watchBranches, emitBranches]
    rfl
  | cons e es ih =>
    rw [List.forall_mem_cons] at each
    have head := congrFun (congrFun (each.1 (k :: path)) pc) used
    rw [Watcher.result] at head
    cases es with
    | nil =>
      simp only [watchBranches, emitBranches, Watched.result_bind, head]
      rfl
    | cons e' es =>
      simp only [watchBranches, emitBranches, Watched.result_bind, head, ih each.2]
      rfl

/-- Lowering under watch writes what lowering writes. -/
theorem result_watch (e : Expr) (path : List Nat) : (e.watch l path).result = e.emit l := by
  induction e generalizing path with
  | empty => simp [watch, emit]
  | literal bs => simp [watch, emit]
  | chars set => simp [watch, emit]
  | bytes set => simp [watch, emit]
  | look k => simp [watch, emit]
  | repetition min max greedy body ih => simp [watch, emit, ih]
  | capture index name body ih => simp [watch, emit, ih]
  | concat items ih => simp [watch, emit, result_watchAll ih]
  | alternation branches ih =>
    funext pc used
    simp only [watch, emit, Watcher.result_enter]
    simp only [Watcher.result, Watched.result_bind, result_watchBranches ih]
    rfl

/-- The loop in front of a program that is not anchored is the same with and without a log. -/
theorem result_watchStart (e : Expr) :
    (e.watchStart l).result = if e.leadsWith .start then Emitter.nothing else lazyStart l := by
  unfold watchStart lazyStart
  split <;> simp

/-- A whole run under watch gives what the run gives. -/
theorem result_watchLower (e : Expr) : (e.watchLower l).result = e.lower l := by
  have whole : ((e.watchStart l).seq ((e.watch l []).seq (.one l .accept))).result =
      (if e.leadsWith .start then Emitter.nothing else lazyStart l).seq
        ((e.emit l).seq (.one l .accept)) := by
    simp [result_watchStart, result_watch]
  exact congrFun (congrFun whole 0) 0

end Expr

namespace Deed

/-- The memory that a deed charges. -/
def cost : Deed → Nat
  | push _ i => i.cost
  | targets _ count => Instruction.targetCost * count
  | enter _ | turn _ => 0

/-- The deed says which memory is used when it is done. -/
def Dated (used : Nat) : Deed → Prop
  | push used' _ | targets used' _ => used' = used
  | turn t => t.after = used
  | enter _ => True

/-- A log tells how the memory used comes to a total, charge by charge. -/
def Ledger : Nat → List Deed → Nat → Prop
  | used, [], total => used = total
  | used, d :: log, total => d.Dated used ∧ Ledger (used + d.cost) log total

/-- Charges that continue one another add up. -/
theorem Ledger.append {used between total : Nat} {log log' : List Deed}
    (first : Ledger used log between) (second : Ledger between log' total) :
    Ledger used (log ++ log') total := by
  induction log generalizing used with
  | nil =>
    cases first
    exact second
  | cons d log ih => exact ⟨first.1, ih first.2⟩

end Deed

namespace Watched

variable {α β : Type} {l : Limits} {used : Nat}

/-- The memory that a computation ends with: that of its value, or of the overrun. -/
def total (view : α → Nat) (w : Watched α) : Nat :=
  match w.result with
  | .ok a => view a
  | .error o => o.used

/-- The log of a computation tells how the memory used comes to what it ends with. -/
def Keeps (used : Nat) (view : α → Nat) (w : Watched α) : Prop :=
  Deed.Ledger used w.log (w.total view)

namespace Keeps

variable {view : α → Nat} {view' : β → Nat}

/-- Doing nothing charges nothing. -/
theorem pure {a : α} (same : used = view a) : Keeps used view (pure a) := same

/-- Two computations that keep the books keep them together: the second starts where the first has
stopped. -/
theorem bind {w : Watched α} {next : α → Watched β} (first : w.Keeps used view)
    (second : ∀ a, (next a).Keeps (view a) view') : (w >>= next).Keeps used view' := by
  unfold Keeps total at first ⊢
  cases result : w.result with
  | ok a =>
    rw [result] at first
    rw [log_bind_ok result, result_bind, result]
    exact first.append (second a)
  | error o =>
    rw [result] at first
    rw [log_bind_error result, result_bind, result]
    exact first

/-- A deed without a cost can be noted at any time, if it is dated by what is in use. -/
theorem note {d : Deed} (dated : d.Dated used) (free : d.cost = 0) :
    (note d).Keeps used fun _ => used :=
  ⟨dated, congrArg (used + ·) free⟩

/-- A charge counts in full, whether it is granted or refused. -/
theorem total_charge (l : Limits) (used cost : Nat) (log : List Deed) :
    total id (⟨log, l.charge used cost⟩ : Watched Nat) = used + cost := by
  by_cases within : used + cost ≤ l.budget
  · simp [total, Limits.charge, within]
  · simp [total, Limits.charge, within]

/-- Adding an instruction charges what the instruction costs. -/
theorem push (l : Limits) (used : Nat) (i : Instruction) : (push l used i).Keeps used id :=
  ⟨rfl, (total_charge l used i.cost _).symm⟩

/-- Collecting targets charges their number in words. -/
theorem targets (l : Limits) (used count : Nat) : (targets l used count).Keeps used id :=
  ⟨rfl, (total_charge l used _ _).symm⟩

end Keeps

end Watched

namespace Watcher

/-- The log of writing code tells how the memory used comes to what the writing ends with. -/
def Keeps (a : Watcher) : Prop := ∀ pc used, (a pc used).Keeps used Stretch.used

namespace Keeps

variable {l : Limits} {a b : Watcher}

/-- Writing nothing keeps the books. -/
theorem nothing : Keeps nothing := fun _ _ => .pure rfl

/-- One instruction is one charge. -/
theorem one (l : Limits) (i : Instruction) : Keeps (one l i) :=
  fun _ used => .bind (.push l used i) fun _ => .pure rfl

/-- Two parts keep the books if each of them does. -/
theorem seq (first : Keeps a) (second : Keeps b) : Keeps (a.seq b) :=
  fun pc used => .bind (first pc used) fun s =>
    .bind (second s.stop s.used) fun _ => .pure rfl

/-- Entering a part is noted without a charge. -/
theorem enter (path : List Nat) (body : Keeps a) : Keeps (a.enter path) :=
  fun pc used => .bind (.note trivial rfl) fun _ => body pc used

/-- A turn of a repetition is noted without a charge. -/
theorem turn (min : Nat) (max : Option Nat) (start before : Nat) (body : Keeps a) :
    Keeps (a.turn min max start before) :=
  fun pc used => .bind (body pc used) fun _ => .bind (.note rfl rfl) fun _ => .pure rfl

/-- Copies of a body keep the books, each for itself. -/
theorem copies (min : Nat) (max : Option Nat) (body : Keeps a) (n : Nat) :
    Keeps (a.copies min max n) := by
  induction n with
  | zero => exact nothing
  | succ n ih => exact fun pc used => (body.turn min max pc used).seq ih pc used

/-- Copies that may be left out keep the books, with a fork before each of them. -/
theorem options (l : Limits) (min : Nat) (max : Option Nat) (greedy : Bool) (body : Keeps a)
    (n : Nat) : Keeps (a.options l min max greedy n) := by
  induction n with
  | zero => exact nothing
  | succ n ih =>
    exact fun pc used => .bind (.push l used _) fun charged =>
      .bind ((body.turn min max pc used).seq ih (pc + 1) charged) fun _ => .pure rfl

/-- A loop charges its fork, its body and the jump back. -/
theorem star (l : Limits) (greedy : Bool) (body : Keeps a) : Keeps (a.star l greedy) :=
  fun pc used => .bind (.push l used _) fun charged =>
    .bind (body.seq (one l (.jump pc)) (pc + 1) charged) fun _ => .pure rfl

/-- A loop that is taken at least once charges its body and the fork behind it. -/
theorem plus (l : Limits) (min : Nat) (max : Option Nat) (greedy : Bool) (body : Keeps a) :
    Keeps (a.plus l min max greedy) :=
  fun pc used => .bind (body.turn min max pc used pc used) fun s =>
    .bind (one l _ s.stop s.used) fun _ => .pure rfl

/-- A repetition keeps the books in each of its three forms. -/
theorem repetition (l : Limits) (min : Nat) (max : Option Nat) (greedy : Bool) (body : Keeps a) :
    Keeps (a.repetition l min max greedy) := by
  cases max with
  | some max => exact (body.copies min max min).seq (body.options l min max greedy _)
  | none =>
    cases min with
    | zero => exact body.star l greedy
    | succ min => exact (body.copies _ none min).seq (body.plus l _ none greedy)

/-- A group charges two marks around its body, or only its body if captures are off. -/
theorem capture (l : Limits) (index : Nat) (body : Keeps a) : Keeps (a.capture l index) := by
  unfold Watcher.capture
  split
  · exact (one l _).seq (body.seq (one l _))
  · exact body

/-- A text charges its characters one by one. -/
theorem literal (l : Limits) (cs : List Char) : Keeps (literal l cs) := by
  induction cs with
  | nil => exact nothing
  | cons c cs ih => exact (one l _).seq ih

end Keeps

end Watcher

namespace Expr

variable {l : Limits}

/-- The items of a sequence keep the books if each of them does. -/
theorem keeps_watchAll {es : List Expr} (each : ∀ e ∈ es, ∀ path, (e.watch l path).Keeps) (k : Nat)
    (path : List Nat) : (watchAll l es k path).Keeps := by
  induction es generalizing k with
  | nil =>
    rw [watchAll]
    exact .nothing
  | cons e es ih =>
    rw [List.forall_mem_cons] at each
    rw [watchAll]
    exact (each.1 _).seq (ih each.2 _)

/-- The branches of an alternation keep the books if each of them does, with a jump behind all of
them but the last. -/
theorem keeps_watchBranches {es : List Expr} (each : ∀ e ∈ es, ∀ path, (e.watch l path).Keeps)
    (k : Nat) (path : List Nat) (pc used : Nat) :
    (watchBranches l es k path pc used).Keeps used Branches.used := by
  induction es generalizing k pc used with
  | nil =>
    rw [watchBranches]
    exact .pure rfl
  | cons e es ih =>
    rw [List.forall_mem_cons] at each
    have head := each.1 (k :: path) pc used
    cases es with
    | nil =>
      rw [watchBranches]
      exact .bind head fun _ => .pure rfl
    | cons e' es =>
      simp only [watchBranches]
      exact .bind head fun s => .bind (.push l s.used _) fun charged =>
        .bind (ih each.2 _ _ charged) fun _ => .pure rfl

/-- Lowering keeps the books for every expression. The induction is on the expression, one case per
form. -/
theorem keeps_watch (e : Expr) (path : List Nat) : (e.watch l path).Keeps := by
  induction e generalizing path with
  | empty =>
    rw [watch]
    exact .enter path .nothing
  | literal bs =>
    rw [watch]
    exact .enter path (.literal l _)
  | chars set | bytes set | look k =>
    rw [watch]
    exact .enter path (.one l _)
  | repetition min max greedy body ih =>
    rw [watch]
    exact .enter path (.repetition l min max greedy (ih _))
  | capture index name body ih =>
    rw [watch]
    exact .enter path (.capture l index (ih _))
  | concat items ih =>
    rw [watch]
    exact .enter path (keeps_watchAll ih 0 path)
  | alternation branches ih =>
    rw [watch]
    refine .enter path fun pc used => ?_
    exact .bind (.push l used _) fun charged => .bind (keeps_watchBranches ih 0 path _ charged)
      fun bs => .bind (.targets l bs.used _) fun _ => .pure rfl

/-- The log of a whole run tells how the memory comes to that of the program, or to the overrun. -/
theorem keeps_watchLower (e : Expr) : (e.watchLower l).Keeps 0 Stretch.used := by
  have start : (e.watchStart l).Keeps := by
    unfold watchStart
    split
    · exact .nothing
    · exact (Watcher.Keeps.one l _).seq ((Watcher.Keeps.one l _).seq (.one l _))
  exact start.seq ((e.keeps_watch []).seq (.one l _)) 0 0

end Expr

end PatternGate
