import PatternGate.Proofs.Expr.Nodes
import PatternGate.Proofs.Program.Budget
import PatternGate.Proofs.Program.Watch

/-!
# What lowering does for which part

The log of lowering under watch holds deeds. Each of them is known to be done within the budget, and
for a node of the expression: an instruction that costs more than the others is that of a class, the
targets of a wide fork are charged when the jumps between its branches are paid for, and a turn
writes the plan of the body of its repetition (`Deed.Fits`). The main statement is
`Expr.every_watchLower`. Lowering an expression comes to it once, and all else is done for its parts
(`Expr.every_inside`).

Since every charge is made within the budget, and on top of those before it, a charge that is
refused is the last one: among the deeds of a run there is no overrun if the run is granted, and one
if it is refused (`Expr.overruns_watchLower`).
-/

namespace PatternGate

/-- A granted computation gives the value that it was granted for. -/
theorem Limits.Grants.eq_of_ok {α : Type} {l : Limits} {used cost : Nat} {result : Except Overrun α}
    {value a : α} (grants : l.Grants used cost result value) (done : result = .ok a) :
    a = value ∧ used + cost ≤ l.budget := by
  unfold Limits.Grants at grants
  split at grants
  next within =>
    rw [done] at grants
    cases grants
    exact ⟨rfl, within⟩
  next =>
    obtain ⟨o, refused, -⟩ := grants
    rw [done] at refused
    cases refused

/-- A refused computation is refused with an overrun of its limits. -/
theorem Limits.Grants.refuses_of_error {α : Type} {l : Limits} {used cost : Nat}
    {result : Except Overrun α} {value : α} {o : Overrun}
    (grants : l.Grants used cost result value) (failed : result = .error o) : l.Refuses o := by
  unfold Limits.Grants at grants
  split at grants
  · rw [failed] at grants
    cases grants
  · obtain ⟨o', refused, refuses⟩ := grants
    rw [failed] at refused
    cases refused
    exact refuses

/-- An overrun names the budget and a sum that is beyond it. -/
theorem Limits.Refuses.beyond {l : Limits} {o : Overrun} (refuses : l.Refuses o) :
    o.budget = l.budget ∧ l.budget < o.used := by
  obtain ⟨used, cost, -, refused⟩ := refuses
  unfold Limits.charge at refused
  split at refused
  next => cases refused
  next beyond =>
    cases refused
    exact ⟨rfl, Nat.lt_of_not_le beyond⟩

/-- A charge that is granted is added to what is in use, and stays in the budget. -/
theorem Limits.charge_eq_ok {l : Limits} {used cost charged : Nat}
    (granted : l.charge used cost = .ok charged) :
    charged = used + cost ∧ used + cost ≤ l.budget := by
  unfold Limits.charge at granted
  split at granted
  next within =>
    cases granted
    exact ⟨rfl, within⟩
  next => cases granted

/-- What is done from the charge of an instruction on. -/
theorem Watched.mem_log_push {α : Type} {l : Limits} {used : Nat} {i : Instruction}
    {next : Nat → Watched α} {d : Deed} (mem : d ∈ (push l used i >>= next).log) :
    d = .push used i ∨ used + i.cost ≤ l.budget ∧ d ∈ (next (used + i.cost)).log := by
  rcases mem_log_bind mem with mem | ⟨charged, granted, mem⟩
  · exact .inl (List.mem_singleton.mp mem)
  · obtain ⟨rfl, within⟩ := Limits.charge_eq_ok granted
    exact .inr ⟨within, mem⟩

namespace Watcher

/-- Noting a turn leaves the code and the cost of the body as they are. -/
theorem turn_follows {l : Limits} {a : Watcher} {p : Plan} {min : Nat} {max : Option Nat}
    (follows : Emitter.Follows l a.result p) (start before : Nat) :
    Emitter.Follows l (a.turn min max start before).result p := by
  rwa [result_turn]

/-- Every deed of writing code has a property, if the memory used before is within the budget. -/
def Every (l : Limits) (P : Deed → Prop) (a : Watcher) : Prop :=
  ∀ pc used, used ≤ l.budget → ∀ d ∈ (a pc used).log, P d

namespace Every

variable {l : Limits} {P Q : Deed → Prop} {a b : Watcher} {p : Plan}
variable {min : Nat} {max : Option Nat} {greedy : Bool}

/-- What every deed satisfies can be weakened. -/
theorem mono (every : Every l P a) (imp : ∀ d, P d → Q d) : Every l Q a :=
  fun pc used fits d mem => imp d (every pc used fits d mem)

/-- No code, no deeds. -/
theorem nothing : Every l P nothing :=
  fun _ _ _ _ mem => absurd mem List.not_mem_nil

/-- The deed of one instruction is that it is added. -/
theorem one {i : Instruction} (pushes : ∀ used ≤ l.budget, P (.push used i)) :
    Every l P (one l i) := by
  intro pc used fits d mem
  rcases Watched.mem_log_push mem with rfl | ⟨-, mem⟩
  · exact pushes used fits
  · cases mem

/-- The deeds of two parts are those of the first, and those of the second from the place and the
memory where the first has stopped. -/
theorem seq_at {pc used cost : Nat} {s : Stretch} (grants : l.Grants used cost (a.result pc used) s)
    (first : ∀ d ∈ (a pc used).log, P d)
    (second : used + cost ≤ l.budget → ∀ d ∈ (b s.stop s.used).log, P d) :
    ∀ d ∈ (a.seq b pc used).log, P d := by
  intro d mem
  rcases Watched.mem_log_bind mem with mem | ⟨s, done, mem⟩
  · exact first d mem
  · obtain ⟨rfl, within⟩ := grants.eq_of_ok done
    rcases Watched.mem_log_bind mem with mem | ⟨_, -, mem⟩
    · exact second within d mem
    · cases mem

/-- A property of all deeds of two parts holds of the deeds of both, if the first part follows a
plan. -/
theorem seq (first : Every l P a) (follows : Emitter.Follows l a.result p)
    (second : Every l P b) : Every l P (a.seq b) :=
  fun pc used fits => seq_at (follows pc used fits) (first pc used fits) (second _ _)

/-- An instruction before a part adds one deed. -/
theorem one_seq {i : Instruction} (pushes : ∀ used ≤ l.budget, P (.push used i))
    (rest : Every l P b) : Every l P ((Watcher.one l i).seq b) := by
  intro pc used fits
  have grants := @Emitter.one_grants l i pc used fits
  rw [← result_one] at grants
  exact seq_at grants (one pushes pc used fits) (rest _ _)

/-- Entering a part adds one deed before those of the part. -/
theorem enter {path : List Nat} (enters : P (.enter path)) (body : Every l P a) :
    Every l P (a.enter path) := by
  intro pc used fits d mem
  rcases Watched.mem_log_bind mem with mem | ⟨_, -, mem⟩
  · rw [List.mem_singleton.mp mem]
    exact enters
  · exact body pc used fits d mem

/-- A turn is completed with what its plan adds. -/
theorem turn_at {start before pc used : Nat} (fits : used ≤ l.budget) (body : Every l P a)
    (follows : Emitter.Follows l a.result p)
    (turns : P (.turn ⟨min, max, start, pc + p.size, before, used + p.cost⟩)) :
    ∀ d ∈ (a.turn min max start before pc used).log, P d := by
  intro d mem
  rcases Watched.mem_log_bind mem with mem | ⟨s, done, mem⟩
  · exact body pc used fits d mem
  · obtain ⟨rfl, -⟩ := (follows pc used fits).eq_of_ok done
    rcases Watched.mem_log_bind mem with mem | ⟨_, -, mem⟩
    · rw [List.mem_singleton.mp mem]
      exact turns
    · cases mem

section Body

variable (body : Every l P a) (follows : Emitter.Follows l a.result p)
  (pushes : ∀ used ≤ l.budget, ∀ i : Instruction, i.cost = Instruction.baseCost → P (.push used i))
  (copied : ∀ start before, P (.turn ⟨min, max, start, start + p.size, before, before + p.cost⟩))
  (chosen : ∀ start before, P (.turn ⟨min, max, start, start + 1 + p.size, before,
    before + Instruction.baseCost + p.cost⟩))

include body follows copied in
/-- Copies of a body add a turn each. The induction is on their number. -/
theorem copies (n : Nat) : Every l P (a.copies min max n) := by
  induction n with
  | zero => exact nothing
  | succ n ih =>
    intro pc used fits
    exact seq_at (turn_follows follows pc used pc used fits)
      (turn_at fits body follows (copied pc used)) (ih _ _)

include body follows pushes chosen in
/-- Copies that may be left out add a fork and a turn each. -/
theorem options (n : Nat) : Every l P (a.options l min max greedy n) := by
  induction n with
  | zero => exact nothing
  | succ n ih =>
    intro pc used fits d mem
    rcases Watched.mem_log_push mem with rfl | ⟨within, mem⟩
    · exact pushes used fits _ rfl
    · rcases Watched.mem_log_bind mem with mem | ⟨_, -, mem⟩
      · exact seq_at (turn_follows follows pc used _ _ within)
          (turn_at within body follows (chosen pc used)) (ih _ _) d mem
      · cases mem

include body follows pushes in
/-- A loop adds a fork, its body and a jump back. -/
theorem star : Every l P (a.star l greedy) := by
  intro pc used fits d mem
  rcases Watched.mem_log_push mem with rfl | ⟨within, mem⟩
  · exact pushes used fits _ rfl
  · rcases Watched.mem_log_bind mem with mem | ⟨_, -, mem⟩
    · exact seq body follows (one fun used fits => pushes used fits _ rfl) _ _ within d mem
    · cases mem

include body follows pushes copied in
/-- A loop that is taken at least once adds a turn and a fork behind it. -/
theorem plus : Every l P (a.plus l min max greedy) := by
  intro pc used fits d mem
  rcases Watched.mem_log_bind mem with mem | ⟨s, done, mem⟩
  · exact turn_at fits body follows (copied pc used) d mem
  · have granted : a.result pc used = .ok s := by rwa [← result_turn min max pc used]
    obtain ⟨rfl, within⟩ := (follows pc used fits).eq_of_ok granted
    rcases Watched.mem_log_bind mem with mem | ⟨_, -, mem⟩
    · exact one (fun used fits => pushes used fits _ (by cases greedy <;> rfl)) _ _ within d mem
    · cases mem

include body follows pushes chosen in
/-- All deeds of a repetition have a property if those of its body do, and the turns and forks that
it adds. -/
theorem repetition (copied : 0 < min → ∀ start before,
    P (.turn ⟨min, max, start, start + p.size, before, before + p.cost⟩)) :
    Every l P (a.repetition l min max greedy) := by
  cases max with
  | some max =>
    have first : Every l P (a.copies min (some max) min) := by
      cases min with
      | zero => exact nothing
      | succ min => exact copies body follows (copied (Nat.succ_pos min)) _
    refine first.seq (p := p.copies min) ?_ (options body follows pushes chosen _)
    rw [result_copies]
    exact Emitter.copies_follows follows min
  | none =>
    cases min with
    | zero => exact star body follows pushes
    | succ min =>
      have copied := copied (Nat.succ_pos min)
      refine (copies body follows copied min).seq (p := p.copies min) ?_
        (plus body follows pushes copied)
      rw [result_copies]
      exact Emitter.copies_follows follows min

include body follows pushes in
/-- A group adds its two marks, if captures are on. -/
theorem capture (index : Nat) : Every l P (a.capture l index) := by
  unfold Watcher.capture
  split
  · exact one_seq (fun used fits => pushes used fits _ rfl)
      (body.seq follows (one fun used fits => pushes used fits _ rfl))
  · exact body

include pushes in
/-- A text adds its characters one by one. -/
theorem literal (cs : List Char) : Every l P (literal l cs) := by
  induction cs with
  | nil => exact nothing
  | cons c cs ih =>
    have cost : (Emitter.charInstruction c).cost = Instruction.baseCost := by
      unfold Emitter.charInstruction
      split <;> rfl
    exact one_seq (fun used fits => pushes used fits _ cost) ih

end Body

end Every

end Watcher

/-- The turn was written for a plan: as a copy of it, which only a repetition of at least one turn
has, or as a fork and a copy. -/
def Turn.Writes (p : Plan) (t : Turn) : Prop :=
  0 < t.min ∧ t.stop = t.start + p.size ∧ t.after = t.before + p.cost ∨
    t.stop = t.start + 1 + p.size ∧ t.after = t.before + Instruction.baseCost + p.cost

/-- The instruction of a class. -/
def Expr.classInstruction? : Expr → Option Instruction
  | .chars set => some (Emitter.classInstruction (RangeSet.clip set))
  | .bytes set => some (Emitter.classInstruction set)
  | _ => none

/-- What is known of the deeds for an expression at a path: which parts of it they come to, which
memory was used before them, and for which nodes they were done. -/
def Deed.Fits (l : Limits) (e : Expr) (path : List Nat) : Deed → Prop
  | enter inner => path <:+ inner
  | push used i =>
    used ≤ l.budget ∧
      (i.cost = Instruction.baseCost ∨ ∃ d ∈ e.nodes, d.classInstruction? = some i)
  | targets used count => used ≤ l.budget ∧ Instruction.baseCost * (count - 1) ≤ used
  | turn t =>
    ∃ greedy body, .repetition t.min t.max greedy body ∈ e.nodes ∧ t.Writes (body.plan l.captures)

/-- What is known of the deeds for the parts of an expression: they do not come to it again. -/
def Deed.Inside (l : Limits) (e : Expr) (path : List Nat) (d : Deed) : Prop :=
  d.Fits l e path ∧ d ≠ .enter path

/-- What fits a part of an expression fits the whole, with a longer path. -/
theorem Deed.Fits.mono {l : Limits} {e e' : Expr} {path path' : List Nat} {d : Deed}
    (fits : d.Fits l e path) (nodes : e.nodes ⊆ e'.nodes) (suffix : path' <:+ path) :
    d.Fits l e' path' := by
  cases d with
  | enter inner => exact suffix.trans fits
  | push used i =>
    refine ⟨fits.1, fits.2.imp_right fun found => ?_⟩
    obtain ⟨d, mem, code⟩ := found
    exact ⟨d, nodes mem, code⟩
  | targets used count => exact fits
  | turn t =>
    obtain ⟨greedy, body, mem, writes⟩ := fits
    exact ⟨greedy, body, nodes mem, writes⟩

namespace Expr

variable {l : Limits}

/-- Lowering under watch follows the plan of the expression. -/
theorem watch_follows (e : Expr) (path : List Nat) :
    Emitter.Follows l (e.watch l path).result (e.plan l.captures) := by
  rw [result_watch]
  exact e.emit_follows

/-- Branches under watch are granted what their plans cost, and are laid out as planned. -/
theorem watchBranches_grants (es : List Expr) (k : Nat) (path : List Nat) (pc used : Nat)
    (fits : used ≤ l.budget) :
    l.Grants used (Plan.costBranches (plans l.captures es))
      (watchBranches l es k path pc used).result
      ⟨Plan.starts pc (plans l.captures es), Plan.codes pc (plans l.captures es),
        pc + Plan.sizeBranches (plans l.captures es),
        used + Plan.costBranches (plans l.captures es)⟩ := by
  rw [result_watchBranches fun e _ path => e.result_watch path]
  exact emitBranches_grants es (fun e _ => e.emit_follows) pc used fits

section Parts

variable {P : Deed → Prop} {es : List Expr} {path : List Nat} {k : Nat}
  (each : ∀ e ∈ es, ∀ j, k ≤ j → (e.watch l (j :: path)).Every l P)
include each

/-- All deeds of a sequence have a property if the deeds of its items do. -/
theorem every_watchAll : (watchAll l es k path).Every l P := by
  induction es generalizing k with
  | nil =>
    rw [watchAll]
    exact .nothing
  | cons e es ih =>
    rw [List.forall_mem_cons] at each
    rw [watchAll]
    exact (each.1 k (Nat.le_refl k)).seq (e.watch_follows _)
      (ih fun e mem j after => each.2 e mem j (Nat.le_of_succ_le after))

/-- All deeds of branches have a property if the deeds of each branch and the jumps between them do.
-/
theorem every_watchBranches (jumps : ∀ used ≤ l.budget, P (.push used (.jump 0))) {pc used : Nat}
    (fits : used ≤ l.budget) : ∀ d ∈ (watchBranches l es k path pc used).log, P d := by
  induction es generalizing k pc used with
  | nil =>
    intro d mem
    simp only [watchBranches, Watched.log_pure, List.not_mem_nil] at mem
  | cons e es ih =>
    rw [List.forall_mem_cons] at each
    have head := each.1 k (Nat.le_refl k) pc used fits
    intro d mem
    cases es with
    | nil =>
      simp only [watchBranches] at mem
      rcases Watched.mem_log_bind mem with mem | ⟨_, -, mem⟩
      · exact head d mem
      · cases mem
    | cons e' es =>
      simp only [watchBranches] at mem
      rcases Watched.mem_log_bind mem with mem | ⟨s, done, mem⟩
      · exact head d mem
      obtain ⟨rfl, within⟩ := (e.watch_follows _ pc used fits).eq_of_ok done
      rcases Watched.mem_log_push mem with rfl | ⟨within', mem⟩
      · exact jumps _ within
      rcases Watched.mem_log_bind mem with mem | ⟨_, -, mem⟩
      · exact ih (fun e mem j after => each.2 e mem j (Nat.le_of_succ_le after)) within' d mem
      · cases mem

end Parts

/-- The deeds for a part are deeds inside the whole. -/
theorem every_part {part whole : Expr} {a : Watcher} {k : Nat} {path : List Nat}
    (within : part.nodes ⊆ whole.nodes) (entered : part.watch l (k :: path) = a.enter (k :: path))
    (every : a.Every l (Deed.Inside l part (k :: path))) :
    (part.watch l (k :: path)).Every l (Deed.Inside l whole path) := by
  have inside : ∀ d : Deed, d.Fits l part (k :: path) → Deed.Inside l whole path d := by
    intro d fits
    refine ⟨fits.mono within (List.suffix_cons k path), ?_⟩
    rintro rfl
    have longer : (k :: path).length ≤ path.length := List.IsSuffix.length_le fits
    exact absurd longer (Nat.not_succ_le_self _)
  rw [entered]
  exact .enter (inside _ List.suffix_rfl) (every.mono fun d known => inside d known.1)

/-- Lowering comes to an expression once, and then to its parts. -/
theorem every_inside (e : Expr) (path : List Nat) :
    ∃ a : Watcher, e.watch l path = a.enter path ∧ a.Every l (Deed.Inside l e path) := by
  have pushes : ∀ e : Expr, ∀ path used, used ≤ l.budget → ∀ i : Instruction,
      i.cost = Instruction.baseCost → Deed.Inside l e path (.push used i) :=
    fun _ _ _ fits _ cost => ⟨⟨fits, .inl cost⟩, Deed.noConfusion⟩
  induction e generalizing path with
  | empty => exact ⟨_, by rw [watch], .nothing⟩
  | literal bs => exact ⟨_, by rw [watch], .literal (pushes _ _) _⟩
  | chars set =>
    refine ⟨_, by rw [watch], .one fun used fits => ⟨⟨fits, .inr ?_⟩, Deed.noConfusion⟩⟩
    exact ⟨.chars set, self_mem_nodes _, rfl⟩
  | bytes set =>
    refine ⟨_, by rw [watch], .one fun used fits => ⟨⟨fits, .inr ?_⟩, Deed.noConfusion⟩⟩
    exact ⟨.bytes set, self_mem_nodes _, rfl⟩
  | look k =>
    exact ⟨_, by rw [watch], .one fun used fits => pushes _ _ used fits (.assertion k) rfl⟩
  | repetition min max greedy body ih =>
    have here : Expr.repetition min max greedy body ∈ nodes (.repetition min max greedy body) :=
      self_mem_nodes _
    obtain ⟨a, entered, every⟩ := ih (0 :: path)
    have inner : (body.watch l (0 :: path)).Every l
        (Deed.Inside l (.repetition min max greedy body) path) :=
      every_part (List.subset_cons_self _ _) entered every
    refine ⟨_, by rw [watch], .repetition inner (body.watch_follows _) (pushes _ _) ?_ ?_⟩
    · exact fun start before => ⟨⟨greedy, body, here, .inr ⟨rfl, rfl⟩⟩, Deed.noConfusion⟩
    · exact fun some start before =>
        ⟨⟨greedy, body, here, .inl ⟨some, rfl, rfl⟩⟩, Deed.noConfusion⟩
  | capture index name body ih =>
    obtain ⟨a, entered, every⟩ := ih (0 :: path)
    have inner : (body.watch l (0 :: path)).Every l
        (Deed.Inside l (.capture index name body) path) :=
      every_part (List.subset_cons_self _ _) entered every
    exact ⟨_, by rw [watch], .capture inner (body.watch_follows _) (pushes _ _) index⟩
  | concat items ih =>
    have inner : ∀ e ∈ items, ∀ k, 0 ≤ k →
        (e.watch l (k :: path)).Every l (Deed.Inside l (.concat items) path) := by
      intro e mem k _
      obtain ⟨a, entered, every⟩ := ih e mem (k :: path)
      exact every_part (List.subset_cons_of_subset _ (nodes_subset_of_mem mem)) entered every
    exact ⟨_, by rw [watch], every_watchAll inner⟩
  | alternation branches ih =>
    have inner : ∀ e ∈ branches, ∀ k, 0 ≤ k →
        (e.watch l (k :: path)).Every l (Deed.Inside l (.alternation branches) path) := by
      intro e mem k _
      obtain ⟨a, entered, every⟩ := ih e mem (k :: path)
      exact every_part (List.subset_cons_of_subset _ (nodes_subset_of_mem mem)) entered every
    refine ⟨_, by rw [watch], fun pc used fits d mem => ?_⟩
    rcases Watched.mem_log_push mem with rfl | ⟨within, mem⟩
    · exact pushes _ _ used fits (.forkN []) rfl
    rcases Watched.mem_log_bind mem with mem | ⟨bs, done, mem⟩
    · exact every_watchBranches inner (fun used fits => pushes _ _ used fits (.jump 0) rfl) within
        d mem
    -- By now the jumps between the branches are paid for.
    obtain ⟨rfl, within'⟩ := (watchBranches_grants branches 0 path _ _ within).eq_of_ok done
    rcases Watched.mem_log_bind mem with mem | ⟨_, -, mem⟩
    · rw [List.mem_singleton.mp mem]
      have jumps := Plan.costBranches_eq (plans l.captures branches)
      simp only [Deed.Inside, Deed.Fits, Plan.length_starts, Instruction.baseCost]
      exact ⟨by omega, Deed.noConfusion⟩
    · cases mem

/-- The deeds for an expression. -/
theorem every_watch (e : Expr) (path : List Nat) :
    (e.watch l path).Every l (Deed.Fits l e path) := by
  obtain ⟨a, entered, every⟩ := e.every_inside path
  rw [entered]
  exact .enter List.suffix_rfl (every.mono fun d known => known.1)

/-- The deeds of a whole run. -/
theorem every_watchLower (e : Expr) : ∀ d ∈ (e.watchLower l).log, d.Fits l e [] := by
  have pushes : ∀ i : Instruction, i.cost = Instruction.baseCost → ∀ used ≤ l.budget,
      (Deed.push used i).Fits l e [] := fun i cost used fits => ⟨fits, .inl cost⟩
  have start : (e.watchStart l).Every l (Deed.Fits l e []) := by
    unfold watchStart
    split
    · exact .nothing
    · exact .one_seq (pushes _ rfl) (.one_seq (pushes _ rfl) (.one (pushes _ rfl)))
  have rest := (e.every_watch []).seq (e.watch_follows []) (.one (pushes .accept rfl))
  have grants := e.startPlan_grants (l := l)
  rw [← result_watchStart] at grants
  exact Watcher.Every.seq_at grants (start 0 0 (Nat.zero_le _)) (rest _ _)

end Expr

/-! ## Charges that are refused -/

namespace Deed

variable {l : Limits} {used total : Nat} {log : List Deed} {d : Deed}

/-- If the deed charges memory, what is used before the charge is within the budget. -/
def Within (l : Limits) (d : Deed) : Prop :=
  ∀ used cost, d.charge? = some (used, cost) → used ≤ l.budget

/-- A deed that fits an expression is done while the memory in use is within the budget. -/
theorem Fits.within {e : Expr} {path : List Nat} (fits : d.Fits l e path) : d.Within l := by
  intro used cost charge
  cases d with
  | push | targets =>
    cases charge
    exact fits.1
  | enter | turn => cases charge

/-- A deed charges its cost on top of the memory used when it is done, or nothing. -/
theorem Dated.charge? (dated : d.Dated used) :
    d.charge? = some (used, d.cost) ∨ d.charge? = none ∧ d.cost = 0 := by
  cases d with
  | push | targets =>
    cases dated
    exact .inl rfl
  | enter | turn => exact .inr ⟨rfl, rfl⟩

/-- A deed with a charge overruns exactly if the charge goes beyond the budget. -/
theorem overrun?_of_charge? {cost : Nat} (charge : d.charge? = some (used, cost)) :
    d.overrun? l = if used + cost ≤ l.budget then none else some ⟨used + cost, l.budget⟩ := by
  by_cases granted : used + cost ≤ l.budget
  · simp [overrun?, Limits.charge, charge, granted]
  · simp [overrun?, Limits.charge, charge, granted]

/-- A deed without a charge never overruns. -/
theorem overrun?_of_not_charge? (silent : d.charge? = none) : d.overrun? l = none := by
  unfold overrun?
  rw [silent]

/-- Beyond the budget no charge is made any more. -/
theorem Ledger.beyond (ledger : Ledger used log total) (within : ∀ d ∈ log, d.Within l)
    (beyond : l.budget < used) : log.filterMap (overrun? l) = [] ∧ total = used := by
  induction log with
  | nil => exact ⟨rfl, ledger.symm⟩
  | cons d log ih =>
    rw [List.forall_mem_cons] at within
    obtain ⟨dated, rest⟩ := ledger
    rcases dated.charge? with charge | ⟨silent, free⟩
    · exact absurd (within.1 _ _ charge) (Nat.not_le_of_lt beyond)
    · rw [free, Nat.add_zero] at rest
      rw [List.filterMap_cons_none (overrun?_of_not_charge? silent)]
      exact ih rest within.2

/-- If each charge is made within the budget, there is an overrun exactly if the total is beyond it:
the one to the total. -/
theorem Ledger.overruns (ledger : Ledger used log total) (within : ∀ d ∈ log, d.Within l)
    (fits : used ≤ l.budget) :
    log.filterMap (overrun? l) = if total ≤ l.budget then [] else [⟨total, l.budget⟩] := by
  induction log generalizing used with
  | nil =>
    cases ledger
    rw [if_pos fits]
    rfl
  | cons d log ih =>
    rw [List.forall_mem_cons] at within
    obtain ⟨dated, rest⟩ := ledger
    rcases dated.charge? with charge | ⟨silent, free⟩
    · have outcome := overrun?_of_charge? (l := l) charge
      by_cases granted : used + d.cost ≤ l.budget
      · rw [if_pos granted] at outcome
        rw [List.filterMap_cons_none outcome]
        exact ih rest within.2 granted
      · rw [if_neg granted] at outcome
        obtain ⟨none, rfl⟩ := rest.beyond within.2 (Nat.lt_of_not_le granted)
        rw [List.filterMap_cons_some outcome, none, if_neg granted]
    · rw [free, Nat.add_zero] at rest
      rw [List.filterMap_cons_none (overrun?_of_not_charge? silent)]
      exact ih rest within.2 fits

end Deed

/-- Among the deeds of a run, an overrun is found exactly if the run is refused: the one that it is
refused with, and no other. -/
theorem Expr.overruns_watchLower {l : Limits} (e : Expr) :
    (e.watchLower l).log.filterMap (Deed.overrun? l) =
      match e.lower l with
      | .ok _ => []
      | .error o => [o] := by
  have ledger := e.keeps_watchLower (l := l)
  rw [Watched.Keeps, Watched.total, result_watchLower] at ledger
  have within : ∀ d ∈ (e.watchLower l).log, d.Within l :=
    fun d mem => (e.every_watchLower d mem).within
  rw [ledger.overruns within (Nat.zero_le _)]
  have grants := e.lower_grants (l := l)
  cases lowered : e.lower l with
  | ok s =>
    obtain ⟨rfl, fits⟩ := grants.eq_of_ok lowered
    rw [Nat.zero_add] at fits
    exact if_pos fits
  | error o =>
    obtain ⟨budget, beyond⟩ := (Limits.Grants.refuses_of_error grants lowered).beyond
    rw [if_neg (Nat.not_le_of_lt beyond), ← budget]

end PatternGate
