import Mathlib.Data.List.Forall2
import PatternGate.Proofs.Expr.Preference
import PatternGate.Proofs.Program.Budget
import PatternGate.Proofs.Program.Layout

/-!
# Programs keep the order of preference

An engine that backtracks takes the targets of a fork one after another, in the order in which they
are listed, and so finds the matches of a program in an order. `explore` is this engine, and
`Explores` says what it finds if it is given enough steps.

A plan performs a search if its code finds, in the order of the search, what is found after its end
(`Plan.Performs`). That is stated for any rest of the program, so that the shapes of plans can be
taken one by one: an option is a choice between its body and its end, and a loop comes back to its
own start, with fewer bytes left. The main statement is `Settings.explores_preferred`.
-/

namespace PatternGate

section Explore

variable (code : List Instruction) (hay : Haystack) [∀ l, DecidablePred (hay.holds l)]

/-- Runs a program from an instruction on, by trying the targets of a fork in their order: what is
found at the accepting instructions that are reached, in the order in which they are reached. There
is no answer if a run takes more than `fuel` steps. -/
def explore : Nat → Nat → Finding → Option (List Finding)
  | 0, _, _ => none
  | fuel + 1, pc, f =>
    match code[pc]? with
    | none => some []
    | some .accept => some [f]
    | some (.consume b) =>
      if hay.bytes[f.place]? = some b then explore fuel (pc + 1) f.next else some []
    | some .consumeAny =>
      if f.place < hay.bytes.length then explore fuel (pc + 1) f.next else some []
    | some (.consumeClass set) =>
      if hay.bytes[f.place]?.any fun b => set.contains b.toNat then explore fuel (pc + 1) f.next
      else some []
    | some (.fork2 first second) => do
      return (← explore fuel first f) ++ (← explore fuel second f)
    | some (.forkN targets) => do
      return (← targets.mapM fun target => explore fuel target f).flatten
    | some (.jump target) => explore fuel target f
    | some (.writeRegister register) => explore fuel (pc + 1) (f.note register)
    | some (.assertion l) => if hay.holds l f.place then explore fuel (pc + 1) f else some []

/-- Running a program from an instruction on comes to an end, and this is all that is found. -/
def Explores (pc : Nat) (f : Finding) (found : List Finding) : Prop :=
  ∃ steps, ∀ fuel, steps ≤ fuel → explore code hay fuel pc f = some found

end Explore

namespace Explores

variable {code : List Instruction} {hay : Haystack} [∀ l, DecidablePred (hay.holds l)]
variable {pc : Nat} {f : Finding}

/-- A run starts with a step. -/
theorem step {found : List Finding} (steps : Nat)
    (rest : ∀ fuel, steps ≤ fuel → explore code hay (fuel + 1) pc f = some found) :
    Explores code hay pc f found := by
  refine ⟨steps + 1, fun fuel enough => ?_⟩
  obtain ⟨fuel, rfl⟩ : ∃ k, fuel = k + 1 := ⟨fuel - 1, by omega⟩
  exact rest fuel (by omega)

/-- Accepting finds the place where it happens. -/
theorem accept (here : code[pc]? = some .accept) : Explores code hay pc f [f] := by
  refine step 0 fun fuel _ => ?_
  rw [explore, here]

/-- A jump finds what its target finds. -/
theorem jump {target : Nat} {found : List Finding} (here : code[pc]? = some (.jump target))
    (rest : Explores code hay target f found) : Explores code hay pc f found := by
  obtain ⟨steps, rest⟩ := rest
  refine step steps fun fuel enough => ?_
  rw [explore, here]
  exact rest fuel enough

/-- A fork finds what its first target finds, and after that what its second finds. -/
theorem fork2 {first second : Nat} {found found' : List Finding}
    (here : code[pc]? = some (.fork2 first second)) (one : Explores code hay first f found)
    (other : Explores code hay second f found') : Explores code hay pc f (found ++ found') := by
  obtain ⟨steps, one⟩ := one
  obtain ⟨steps', other⟩ := other
  refine step (max steps steps') fun fuel enough => ?_
  rw [explore, here]
  simp only [one fuel (by omega), other fuel (by omega)]
  rfl

/-- The fork of a choice or a loop finds what is preferred first. -/
theorem fork {greedy : Bool} {enter leave : Nat} {found found' : List Finding}
    (here : code[pc]? = some (Emitter.fork greedy enter leave))
    (inner : Explores code hay enter f found) (outer : Explores code hay leave f found') :
    Explores code hay pc f (if greedy then found ++ found' else found' ++ found) := by
  cases greedy with
  | false => exact fork2 here outer inner
  | true => exact fork2 here inner outer

/-- A wide fork finds what its targets find, one after another. -/
theorem forkN {targets : List Nat} {found : List (List Finding)}
    (here : code[pc]? = some (.forkN targets))
    (each : List.Forall₂ (fun target found => Explores code hay target f found) targets found) :
    Explores code hay pc f found.flatten := by
  have all : ∃ steps, ∀ fuel, steps ≤ fuel →
      targets.mapM (fun target => explore code hay fuel target f) = some found := by
    clear here
    induction each with
    | nil => exact ⟨0, fun _ _ => rfl⟩
    | cons first _ ih =>
      obtain ⟨steps, first⟩ := first
      obtain ⟨steps', rest⟩ := ih
      refine ⟨max steps steps', fun fuel enough => ?_⟩
      rw [List.mapM_cons, first fuel (by omega), rest fuel (by omega)]
      rfl
  obtain ⟨steps, all⟩ := all
  refine step steps fun fuel enough => ?_
  rw [explore, here]
  simp only [all fuel enough]
  rfl

/-- An instruction that goes on under a condition. -/
theorem guarded {cond : Prop} [Decidable cond] {g : Finding} {rest : Finding → List Finding}
    (one : ∀ fuel, explore code hay (fuel + 1) pc f =
      if cond then explore code hay fuel (pc + 1) g else some [])
    (next : cond → Explores code hay (pc + 1) g (rest g)) :
    Explores code hay pc f ((if cond then [g] else []).flatMap rest) := by
  by_cases holds : cond
  · obtain ⟨steps, next⟩ := next holds
    refine step steps fun fuel enough => ?_
    rw [one, if_pos holds, if_pos holds, List.flatMap_singleton]
    exact next fuel enough
  · refine step 0 fun fuel _ => ?_
    rw [one, if_neg holds, if_neg holds]
    rfl

end Explores

namespace Plain

variable (hay : Haystack) [∀ l, DecidablePred (hay.holds l)]

/-- The search of an instruction that is followed by the next one. -/
def search : Plain → Search
  | consume b => .read hay (· == b)
  | consumeAny => .read hay fun _ => true
  | consumeClass set => .read hay fun b => set.contains b.toNat
  | writeRegister register => .note register
  | assertion l => .check hay l

variable {hay}

/-- A plain instruction searches on its own, and each of its findings is explored from the next
instruction on. -/
theorem explores (i : Plain) {code : List Instruction} {pc : Nat} {f : Finding}
    {rest : Finding → List Finding} (here : code[pc]? = some i.instruction)
    (next : ∀ g ∈ i.search hay f, Explores code hay (pc + 1) g (rest g)) :
    Explores code hay pc f ((i.search hay f).flatMap rest) := by
  cases i with
  | consume b =>
    have same : (hay.bytes[f.place]?.any (· == b) = true) = (hay.bytes[f.place]? = some b) := by
      cases hay.bytes[f.place]? <;> simp
    simp only [search, Search.read, same] at next ⊢
    refine Explores.guarded (fun fuel => ?_) fun holds => next _ (by simp [holds])
    rw [explore, here]
    rfl
  | consumeAny =>
    have same : (hay.bytes[f.place]?.any (fun _ => true) = true) =
        (f.place < hay.bytes.length) := by
      by_cases inside : f.place < hay.bytes.length <;> simp [inside]
    simp only [search, Search.read, same] at next ⊢
    refine Explores.guarded (fun fuel => ?_) fun holds => next _ (by simp [holds])
    rw [explore, here]
    rfl
  | consumeClass set =>
    simp only [search, Search.read] at next ⊢
    refine Explores.guarded (fun fuel => ?_) fun holds => next _ (by simp [holds])
    rw [explore, here]
    rfl
  | writeRegister register =>
    obtain ⟨steps, next⟩ := next (f.note register) (List.mem_singleton_self _)
    refine Explores.step steps fun fuel enough => ?_
    rw [explore, here, search, Search.note, List.flatMap_singleton]
    exact next fuel enough
  | assertion l =>
    simp only [search, Search.check] at next ⊢
    refine Explores.guarded (fun fuel => ?_) fun holds => next _ (by simp [holds])
    rw [explore, here]
    rfl

end Plain

namespace Plan

variable (hay : Haystack) [∀ l, DecidablePred (hay.holds l)]

/-- The code of a plan carries out a search: wherever it stands, it finds what is found after its
end from each finding of the search, in their order. -/
def Performs (p : Plan) (a : Search) : Prop :=
  ∀ code pc, p.StandsIn code pc → ∀ (f : Finding) (rest : Finding → List Finding),
    (∀ g ∈ a f, Explores code hay (pc + p.size) g (rest g)) →
      Explores code hay pc f ((a f).flatMap rest)

namespace Performs

variable {hay : Haystack} [∀ l, DecidablePred (hay.holds l)]
variable {p q : Plan} {a b : Search}

/-- The empty plan performs the search that only passes. -/
theorem nothing : Performs hay .nothing .pass := by
  intro code pc _ f rest next
  rw [Search.pass, List.flatMap_singleton]
  exact next f (List.mem_singleton_self f)

/-- A plain instruction performs its own search. -/
theorem plain (i : Plain) : Performs hay (.plain i) (i.search hay) := by
  intro code pc stands f rest next
  exact i.explores (StandsIn.plain_iff.mp stands) next

/-- Code in sequence performs searches in sequence. -/
theorem seq (first : Performs hay p a) (second : Performs hay q b) :
    Performs hay (p.seq q) (a.andThen b) := by
  intro code pc stands f rest next
  obtain ⟨here, after⟩ := StandsIn.seq_iff.mp stands
  rw [Search.andThen, List.flatMap_assoc]
  refine first code pc here f _ fun g found => second code _ after g rest fun h found' => ?_
  rw [Nat.add_assoc]
  exact next h (List.mem_flatMap.mpr ⟨g, found, found'⟩)

/-- A fork around a body performs a search that may be left out, in the order of its targets. -/
theorem option (greedy : Bool) (body : Performs hay p a) :
    Performs hay (.option greedy p) (.enter greedy a) := by
  intro code pc stands f rest next
  obtain ⟨fork, inner⟩ := StandsIn.option_iff.mp stands
  have taken : Explores code hay (pc + 1) f ((a f).flatMap rest) := by
    refine body code (pc + 1) inner f rest fun g found => ?_
    rw [Nat.add_assoc, Nat.add_comm 1]
    exact next g (Search.mem_enter_of_mem found)
  rw [Search.flatMap_enter]
  exact .fork fork taken (next f (Search.mem_enter_self greedy a f))

/-- A loop that checks before each turn carries out any number of turns, if each reads a byte. -/
theorem star (greedy : Bool) (body : Performs hay p a) (moves : a.Moves hay 1) :
    Performs hay (p.star greedy) (a.upTo greedy hay.bytes.length) := by
  intro code pc stands f rest next
  obtain ⟨fork, inner, jump⟩ := StandsIn.star_iff.mp stands
  -- Each turn leaves fewer bytes to be read.
  induction left : hay.bytes.length - f.place using Nat.strongRecOn generalizing f with
  | ind n again =>
    rw [Search.upTo_eq moves greedy] at next ⊢
    have taken : Explores code hay (pc + 1) f
        ((a f).flatMap fun g => (a.upTo greedy hay.bytes.length g).flatMap rest) := by
      refine body code (pc + 1) inner f _ fun g found => .jump jump ?_
      obtain ⟨later, inside⟩ := moves f g found
      have bound := inside later
      refine again (hay.bytes.length - g.place) (by omega) g (fun h found' => ?_) rfl
      exact next h (Search.mem_enter_of_mem (List.mem_flatMap.mpr ⟨g, found, found'⟩))
    rw [← List.flatMap_assoc] at taken
    rw [Search.flatMap_enter]
    exact .fork fork taken (next f (Search.mem_enter_self greedy _ f))

/-- A loop that checks after each turn carries out one turn and then any number more, if each reads
a byte. -/
theorem plus (greedy : Bool) (body : Performs hay p a) (moves : a.Moves hay 1) :
    Performs hay (p.plus greedy) (a.andThen (a.upTo greedy hay.bytes.length)) := by
  intro code pc stands f rest next
  obtain ⟨inner, fork⟩ := StandsIn.plus_iff.mp stands
  induction left : hay.bytes.length - f.place using Nat.strongRecOn generalizing f with
  | ind n again =>
    rw [Search.andThen, List.flatMap_assoc]
    refine body code pc inner f _ fun g found => ?_
    obtain ⟨later, inside⟩ := moves f g found
    have bound := inside later
    have next' : ∀ h ∈ Search.enter greedy (a.andThen (a.upTo greedy hay.bytes.length)) g,
        Explores code hay (pc + (p.plus greedy).size) h (rest h) := by
      intro h found'
      rw [← Search.upTo_eq moves greedy] at found'
      exact next h (List.mem_flatMap.mpr ⟨g, found, found'⟩)
    have taken := again (hay.bytes.length - g.place) (by omega) g
      (fun h found' => next' h (Search.mem_enter_of_mem found')) rfl
    rw [Search.upTo_eq moves greedy, Search.flatMap_enter]
    exact .fork fork taken (next' g (Search.mem_enter_self greedy _ g))

/-- The branches of a choice find, one after another, what is found after the choice. -/
theorem branches {bs : List Plan} {as : List Search} (each : List.Forall₂ (Performs hay) bs as)
    {code : List Instruction} {pc stop : Nat} {f : Finding} {rest : Finding → List Finding}
    (laid : ∀ start b, (start, b) ∈ laid pc bs → BranchAt code stop start b)
    (next : ∀ a ∈ as, ∀ g ∈ a f, Explores code hay stop g (rest g)) :
    List.Forall₂ (fun start found => Explores code hay start f found) (starts pc bs)
      (as.map fun a => (a f).flatMap rest) := by
  induction each generalizing pc with
  | nil => exact .nil
  | @cons b a bs as first _ ih =>
    rw [List.forall_mem_cons] at next
    have branch := laid pc b List.mem_cons_self
    rw [starts_cons, List.map_cons]
    refine .cons (first code pc branch.stands f rest fun g found => ?_)
      (ih (fun start c mem => laid start c (List.mem_cons_of_mem _ mem)) next.2)
    rcases branch.leaves with last | jump
    · exact last ▸ next.1 g found
    · exact .jump jump (next.1 g found)

/-- A table of targets performs the searches of its branches in order. -/
theorem choice {bs : List Plan} {as : List Search} (each : List.Forall₂ (Performs hay) bs as) :
    Performs hay (.choice bs) fun f => as.flatMap (· f) := by
  intro code pc stands f rest next
  obtain ⟨fork, laid⟩ := stands.choice
  have found := Explores.forkN fork (branches each laid fun a mem g found =>
    next g (List.mem_flatMap.mpr ⟨a, mem, found⟩))
  rwa [List.flatMap_assoc, List.flatMap_def]

/-- Copies of a body perform its search as often as it is copied. -/
theorem copies (body : Performs hay p a) (n : Nat) : Performs hay (p.copies n) (a.times n) := by
  induction n with
  | zero => exact .nothing
  | succ n ih => exact body.seq ih

/-- Copies that may be left out perform the search up to so many times. -/
theorem options (greedy : Bool) (body : Performs hay p a) (n : Nat) :
    Performs hay (p.options greedy n) (a.upTo greedy n) := by
  induction n with
  | zero => exact .nothing
  | succ n ih => exact .option greedy (body.seq ih)

/-- A repetition carries out its turns, if those of an unbounded one read a byte each. -/
theorem repetition {min : Nat} {max : Option Nat} (greedy : Bool) (body : Performs hay p a)
    (moves : max = none → a.Moves hay 1) :
    Performs hay (p.repetition min max greedy)
      ((a.times min).andThen (a.upTo greedy (max.elim hay.bytes.length (· - min)))) := by
  cases max with
  | some max => exact (body.copies min).seq (body.options greedy (max - min))
  | none =>
    cases min with
    | zero =>
      have turns := body.star greedy (moves rfl)
      rwa [Search.times, Search.pass_andThen]
    | succ min =>
      have turns := (body.copies min).seq (body.plus greedy (moves rfl))
      rwa [← Search.andThen_assoc, ← Search.times_succ] at turns

/-- A group notes its place before and after the search of its body, if captures are on. -/
theorem capture (kept : Bool) (index : Nat) (body : Performs hay p a) :
    Performs hay (p.capture kept index) (a.capture Emitter.register kept index) := by
  cases kept with
  | false => exact body
  | true => exact (plain (.writeRegister _)).seq (body.seq (plain (.writeRegister _)))

end Performs

end Plan

section Leaves

variable {hay : Haystack} [∀ l, DecidablePred (hay.holds l)]

/-- The instruction of a character reads that byte. -/
theorem Plain.search_ofChar (c : Char) :
    (ofChar c).search hay = .read hay fun b => b.toNat == c.toNat := by
  unfold ofChar Latin1.byte?
  by_cases byte : c.toNat ≤ 0xFF
  · have value : (UInt8.ofNat c.toNat).toNat = c.toNat := by
      rw [UInt8.toNat_ofNat']
      omega
    have same : ∀ b : UInt8, (b == UInt8.ofNat c.toNat) = (b.toNat == c.toNat) := by
      intro b
      rw [Bool.eq_iff_iff, beq_iff_eq, beq_iff_eq, ← UInt8.toNat_inj, value]
    simp only [byte, if_true, search, same]
  · -- A byte is never as large as the code point of such a character.
    have none : ∀ b : UInt8, (b.toNat == c.toNat) = false := by
      intro b
      have := b.toNat_lt
      exact beq_false_of_ne (by omega)
    simp only [byte, if_false, search, RangeSet.contains_nil, none]

/-- The instruction of a set reads a byte of the set, whether it is stored as a class or not. -/
theorem Plain.search_ofSet (set : RangeSet) :
    (ofSet set).search hay = .read hay fun b => set.contains b.toNat := by
  unfold ofSet
  split
  next full =>
    have member : ∀ b : UInt8, set.contains b.toNat = true := by
      intro b
      have upper := Nat.le_of_lt_succ b.toNat_lt
      rw [full]
      exact RangeSet.contains_iff.mpr ⟨_, List.mem_singleton_self _, Nat.zero_le _, upper⟩
    simp only [search, member]
  next => rfl

/-- The code of a text spells the text. -/
theorem Plan.performs_ofChars (cs : List Char) : Performs hay (ofChars cs) (.spell hay cs) := by
  induction cs with
  | nil => exact .nothing
  | cons c cs ih =>
    rw [ofChars, Search.spell, ← Plain.search_ofChar]
    exact (Performs.plain _).seq ih

end Leaves

namespace Expr

variable {hay : Haystack} [∀ l, DecidablePred (hay.holds l)]

/-- A sequence performs the searches of its items, if each item performs its own. -/
theorem performs_planAll {kept : Bool} {es : List Expr}
    (each : ∀ e ∈ es, Plan.Performs hay (e.plan kept) (e.search hay Emitter.register kept)) :
    Plan.Performs hay (planAll kept es) (searchAll hay Emitter.register kept es) := by
  induction es with
  | nil =>
    rw [planAll, searchAll]
    exact .nothing
  | cons e es ih =>
    rw [List.forall_mem_cons] at each
    rw [planAll, searchAll]
    exact each.1.seq (ih each.2)

/-- An alternation searches with its branches in order. -/
theorem searchAny_eq (number : Nat → Nat) (kept : Bool) (es : List Expr) :
    searchAny hay number kept es = fun f => (es.map (search hay number kept)).flatMap (· f) := by
  induction es with
  | nil =>
    rw [searchAny]
    rfl
  | cons e es ih =>
    rw [searchAny, ih]
    rfl

/-- The plan of an expression carries out its search. -/
theorem performs_plan (kept : Bool) (e : Expr) (reads : e.Each NodeReads) :
    Plan.Performs hay (e.plan kept) (e.search hay Emitter.register kept) := by
  induction e with
  | empty =>
    rw [plan, search]
    exact .nothing
  | literal bs =>
    rw [plan, search]
    exact Plan.performs_ofChars _
  | chars set =>
    have same : ∀ b : UInt8, (RangeSet.clip set).contains b.toNat = set.contains b.toNat :=
      fun b => RangeSet.contains_clip set (Nat.le_of_lt_succ b.toNat_lt)
    rw [plan, search]
    simp only [← same]
    rw [← Plain.search_ofSet]
    exact .plain _
  | bytes set =>
    rw [plan, search, ← Plain.search_ofSet]
    exact .plain _
  | look l =>
    rw [plan, search]
    exact .plain (.assertion l)
  | repetition min max greedy body ih =>
    obtain ⟨turns, inner⟩ := Each.repetition_iff.mp reads
    rw [plan, search]
    refine (ih inner).repetition greedy ?_
    rintro rfl
    have least : leastRead body.minLength = 1 := if_neg turns
    exact least ▸ body.moves_search
  | capture index name body ih =>
    rw [plan, search]
    exact (ih (Each.capture_iff.mp reads).2).capture kept index
  | concat items ih =>
    have each := (Each.concat_iff.mp reads).2
    rw [plan, search]
    exact performs_planAll fun e mem => ih e mem (each e mem)
  | alternation branches ih =>
    have each := (Each.alternation_iff.mp reads).2
    rw [plan, search, plans_eq_map, searchAny_eq]
    refine .choice ?_
    rw [List.forall₂_map_left_iff, List.forall₂_map_right_iff, List.forall₂_same]
    exact fun e mem => ih e mem (each e mem)

/-- The start of a program tries the places where a match can start, in increasing order. -/
theorem explores_startPlan (e : Expr) {code : List Instruction} {rest : Finding → List Finding}
    (stands : e.startPlan.StandsIn code 0)
    (next : ∀ f, Explores code hay (0 + e.startPlan.size) f (rest f)) :
    Explores code hay 0 (.start 0)
      ((if e.leadsWith .start then [0] else List.range (hay.bytes.length + 1)).flatMap
        fun i => rest (.start i)) := by
  unfold startPlan at stands next
  split at stands
  · simp only [*, if_true] at next ⊢
    rw [List.flatMap_singleton]
    exact next (.start 0)
  next unanchored =>
    rw [if_neg unanchored] at next ⊢
    have skip : Plan.Performs hay (.plain .consumeAny) (.read hay fun _ => true) := .plain _
    have found := skip.star false (.read _) code 0 stands (.start 0) rest fun g _ => next g
    rwa [Search.upTo_any _ (Nat.zero_add _), List.flatMap_map,
      ← List.range_eq_range'] at found

/-- The program of an expression finds its matches in the order of preference. -/
theorem explores_instructions (hay : Haystack) [∀ l, DecidablePred (hay.holds l)] (kept : Bool)
    (e : Expr) (reads : e.Each NodeReads) :
    Explores (e.instructions kept) hay 0 (.start 0) (e.preferred hay Emitter.register kept) := by
  obtain ⟨stands, accept⟩ := e.instructions_stand kept
  obtain ⟨start, body⟩ := Plan.StandsIn.seq_iff.mp stands
  refine e.explores_startPlan start fun f => ?_
  have performs : Plan.Performs hay _ _ := e.performs_plan kept reads
  have found := performs _ _ body f (fun g => [g]) fun g _ => .accept ?_
  · rwa [List.flatMap_singleton'] at found
  · rwa [Nat.zero_add]

end Expr

namespace Settings

/-- An engine that backtracks over the program of an expression, and takes the targets of each fork
in their order, finds exactly the matches of the expression in the order of preference, with the
same places in the same registers, and comes to an end. -/
theorem explores_preferred (s : Settings) (e : Expr) (reads : e.Each Expr.NodeReads) (p : Program)
    (compiled : s.program e = .ok p) (hay : Haystack) [∀ l, DecidablePred (hay.holds l)] :
    Explores p.code hay 0 (.start 0) (e.preferred hay Emitter.register !s.neverCapture) ∧
      (e.Each Expr.NodeNumbered →
        Explores p.code hay 0 (.start 0) (e.preferred hay id !s.neverCapture)) := by
  have found := e.explores_instructions hay (!s.neverCapture) reads
  rw [code_of_program compiled]
  refine ⟨found, fun numbered => ?_⟩
  simpa only [Expr.preferred, e.search_register numbered] using found

/-- The pattern `(a|ab)(b*?)` on `abb`: the first branch comes before the second, and with either
the lazy loop takes no turn first. -/
theorem explores_preferred_lazy :
    let e : Expr := .concat
      [.capture 1 none (.alternation [.literal [0x61], .literal [0x61, 0x62]]),
      .capture 2 none (.repetition 0 none false (.literal [0x62]))]
    let text : Haystack := ⟨[0x61, 0x62, 0x62], fun _ i => i = 0, fun _ => Iff.rfl⟩
    e.Each Expr.NodeReads ∧ e.Each Expr.NodeNumbered ∧
      ∃ p, ({ neverCapture := false } : Settings).program e = .ok p ∧
        ∃ found, Explores p.code text 0 (.start 0) found ∧
          found.map (fun f => (f.place, [2, 3, 4, 5].map f.registers)) =
            [(1, [some 0, some 1, some 1, some 1]), (2, [some 0, some 1, some 1, some 2]),
              (3, [some 0, some 1, some 1, some 3]), (2, [some 0, some 2, some 2, some 2]),
              (3, [some 0, some 2, some 2, some 3])] := by
  intro e text
  have reads : e.Each Expr.NodeReads := by decide
  have numbered : e.Each Expr.NodeNumbered := by decide
  obtain ⟨p, compiled⟩ : ∃ p, ({ neverCapture := false } : Settings).program e = .ok p :=
    exists_program (by decide +kernel)
  refine ⟨reads, numbered, p, compiled, _,
    (explores_preferred _ e reads p compiled text).2 numbered, ?_⟩
  decide +kernel

end Settings

end PatternGate
