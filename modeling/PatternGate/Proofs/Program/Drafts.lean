import PatternGate.Proofs.Program.Budget
import PatternGate.Proofs.Program.Layout

/-!
# Writing a program in place

Lowering gives the code of an expression as a list of its own. A compiler would rather have one list
of instructions for the whole program, append to it, leave holes where a target is not known yet and
fill them in later by their index. This module writes code in that way: a `Draft` is the program so
far, and `Expr.write` appends to it and patches it. Nothing keeps a patch from reaching code that
another expression wrote, nor an index from being taken at the wrong moment, so it has to be shown
that neither happens: writing in place gives what lowering gives, with the same overrun if it is
refused (`Expr.write_eq`). Holes are filled within their own stretch, whatever stands before and
after it (`Fills`).

The main statement is `Expr.write_relocates`. What an expression appends to a draft is one fragment,
the same for all drafts but for the place, which is added to its targets, and its memory is the same
too.
-/

namespace PatternGate

/-- A program that is being written: its instructions, and the memory charged so far. -/
structure Draft where
  code : List Instruction
  used : Nat
  deriving DecidableEq

/-- Writes to a draft. -/
abbrev Writer := Draft → Except Overrun Draft

/-- A draft with holes that are still to be filled in. -/
structure Pending where
  draft : Draft
  holes : List Nat

/-- A draft after copies, and where the last of them starts. -/
structure Copied where
  draft : Draft
  last : Option Nat

/-- A draft after branches: where they start, and the holes for the jumps between them. -/
structure Forked where
  draft : Draft
  starts : List Nat
  jumps : List Nat

/-- Fills in holes. -/
def patch (fill : Nat → Instruction) (holes : List Nat) (code : List Instruction) :
    List Instruction :=
  holes.foldl (fun code pc => code.set pc (fill pc)) code

namespace Draft

/-- The place of the next instruction. -/
def pc (d : Draft) : Nat := d.code.length

/-- Charges memory. -/
def charge (l : Limits) (cost : Nat) : Writer := fun d => do
  let used ← l.charge d.used cost
  return { d with used }

/-- Charges an instruction and appends it. -/
def push (l : Limits) (i : Instruction) : Writer := fun d => do
  let d ← d.charge l i.cost
  return { d with code := d.code ++ [i] }

/-- Fills in holes of a draft. -/
def fillIn (fill : Nat → Instruction) (holes : List Nat) (d : Draft) : Draft :=
  { d with code := patch fill holes d.code }

end Draft

namespace Writer

/-- Appends instructions. -/
def pushAll (l : Limits) : List Instruction → Writer
  | [] => .ok
  | i :: is => fun d => do
    let d ← d.push l i
    pushAll l is d

/-- Writes `n` copies, and notes where the last of them starts. -/
def copies (w : Writer) : Nat → Option Nat → Draft → Except Overrun Copied
  | 0, last, d => .ok ⟨d, last⟩
  | n + 1, last, d => do
    let last := if n = 0 then some d.pc else last
    let d ← w d
    copies w n last d

/-- Writes `n` copies, each behind a hole for its fork. -/
def options (l : Limits) (w : Writer) : Nat → List Nat → Draft → Except Overrun Pending
  | 0, holes, d => .ok ⟨d, holes⟩
  | n + 1, holes, d => do
    let hole := d.pc
    let d ← d.push l (.fork2 0 0)
    let d ← w d
    options l w n (holes ++ [hole]) d

/-- The fork before a copy that may be left out with those after it, up to `stop`. -/
def optionFork (greedy : Bool) (stop hole : Nat) : Instruction :=
  Emitter.fork greedy (hole + 1) stop

/-- Writes a loop: a hole for its fork, the copy, and the jump back. -/
def star (l : Limits) (greedy : Bool) (w : Writer) : Writer := fun d => do
  let hole := d.pc
  let d ← d.push l (.fork2 0 0)
  let d ← w d
  let d ← d.push l (.jump hole)
  return d.fillIn (optionFork greedy d.pc) [hole]

/-- Writes a repetition. -/
def repetition (l : Limits) (min : Nat) (max : Option Nat) (greedy : Bool) (w : Writer) : Writer :=
  fun d => do
    let copied ← w.copies min none d
    let d := copied.draft
    match max, copied.last with
    | some max, _ =>
      let pending ← w.options l (max - min) [] d
      let d := pending.draft
      return d.fillIn (optionFork greedy d.pc) pending.holes
    | none, some last => d.push l (Emitter.fork greedy last (d.pc + 1))
    | none, none => w.star l greedy d

/-- Writes a capture between the notes of its two registers. -/
def capture (l : Limits) (index : Nat) (w : Writer) : Writer := fun d => do
  if l.captures then
    let d ← d.push l (.writeRegister (Emitter.register (2 * index)))
    let d ← w d
    d.push l (.writeRegister (Emitter.register (2 * index + 1)))
  else w d

end Writer

namespace Expr

mutual

/-- Writes an expression. -/
def write (l : Limits) : Expr → Writer
  | .empty => .ok
  | .literal bs => .pushAll l ((Utf8.decode bs).map Emitter.charInstruction)
  | .chars set => Draft.push l (Emitter.classInstruction (RangeSet.clip set))
  | .bytes set => Draft.push l (Emitter.classInstruction set)
  | .look k => Draft.push l (.assertion k)
  | .repetition min max greedy body => .repetition l min max greedy (body.write l)
  | .capture index _ body => .capture l index (body.write l)
  | .concat items => writeAll l items
  | .alternation branches => fun d => do
    let hole := d.pc
    let d ← d.push l (.forkN [])
    let forked ← writeBranches l branches [] [] d
    let d ← forked.draft.charge l (Instruction.targetCost * forked.starts.length)
    let d := d.fillIn (fun _ => .forkN forked.starts) [hole]
    return d.fillIn (fun _ => .jump d.pc) forked.jumps

/-- Writes expressions in a sequence. -/
def writeAll (l : Limits) : List Expr → Writer
  | [] => .ok
  | e :: es => fun d => do
    let d ← e.write l d
    writeAll l es d

/-- Writes branches, each but the last with a hole for its jump. -/
def writeBranches (l : Limits) :
    List Expr → List Nat → List Nat → Draft → Except Overrun Forked
  | [], starts, jumps, d => .ok ⟨d, starts, jumps⟩
  | e :: es, starts, jumps, d => do
    let starts := starts ++ [d.pc]
    let d ← e.write l d
    if es.isEmpty then writeBranches l es starts jumps d
    else
      let hole := d.pc
      let d ← d.push l (.jump 0)
      writeBranches l es starts (jumps ++ [hole]) d

end

end Expr

/-! ## Computations that agree -/

/-- Two computations agree: both are refused with the same overrun, or both give results, which are
related. -/
inductive Agree {α β : Type} (R : α → β → Prop) : Except Overrun α → Except Overrun β → Prop
  | refused (o : Overrun) : Agree R (.error o) (.error o)
  | done {a : α} {b : β} (related : R a b) : Agree R (.ok a) (.ok b)

namespace Agree

variable {α β γ δ : Type} {R : α → β → Prop} {S : γ → δ → Prop}
variable {x : Except Overrun α} {y : Except Overrun β}

/-- Computations agree that agree step by step. Both are refused at the same step, and for the same
overrun. -/
theorem bind {f : α → Except Overrun γ} {g : β → Except Overrun δ} (first : Agree R x y)
    (next : ∀ a b, R a b → Agree S (f a) (g b)) : Agree S (x >>= f) (y >>= g) := by
  cases first with
  | refused o => exact .refused o
  | done related => exact next _ _ related

/-- What agrees in a stronger sense agrees in a weaker one. -/
theorem mono {T : α → β → Prop} (agree : Agree R x y) (imp : ∀ a b, R a b → T a b) :
    Agree T x y := by
  cases agree with
  | refused o => exact .refused o
  | done related => exact .done (imp _ _ related)

/-- The second result may be made into another one. -/
theorem map_right {T : α → δ → Prop} {f : β → δ} (agree : Agree R x y)
    (related : ∀ a b, R a b → T a (f b)) : Agree T x (y >>= fun b => pure (f b)) := by
  cases agree with
  | refused o => exact .refused o
  | done here => exact .done (related _ _ here)

end Agree

/-! ## Filling in holes -/

/-- Holes are filled in without a shift of what stands after them. -/
theorem length_patch (fill : Nat → Instruction) (holes : List Nat) (code : List Instruction) :
    (patch fill holes code).length = code.length := by
  induction holes generalizing code with
  | nil => rfl
  | cons hole holes ih => exact (ih _).trans List.length_set

/-- Filling holes neither adds nor removes instructions. -/
theorem Draft.pc_fillIn (fill : Nat → Instruction) (holes : List Nat) (d : Draft) :
    (d.fillIn fill holes).pc = d.pc :=
  length_patch fill holes d.code

/-- With holes at their places the blank code is filled in to be `code`, whatever stands before and
after it. -/
structure Fills (start : Nat) (fill : Nat → Instruction) (holes : List Nat)
    (blank code : List Instruction) : Prop where
  length : blank.length = code.length
  filled : ∀ before after, before.length = start →
    patch fill holes (before ++ blank ++ after) = before ++ code ++ after

namespace Fills

variable {start : Nat} {fill : Nat → Instruction} {holes holes' : List Nat}
variable {blank blank' code code' : List Instruction}

/-- Code without holes is left as it is. -/
theorem whole (code : List Instruction) : Fills start fill [] code code :=
  ⟨rfl, fun _ _ _ => rfl⟩

/-- One hole is filled in with its instruction. -/
theorem hole (i : Instruction) : Fills start fill [start] [i] [fill start] := by
  refine ⟨rfl, fun before after here => ?_⟩
  subst here
  simp [patch]

/-- Holes of two parts are filled each in its own part. -/
theorem append (first : Fills start fill holes blank code)
    (second : Fills (start + blank.length) fill holes' blank' code') :
    Fills start fill (holes ++ holes') (blank ++ blank') (code ++ code') := by
  refine ⟨by rw [List.length_append, List.length_append, first.length, second.length], ?_⟩
  intro before after here
  have place : (before ++ code).length = start + blank.length := by
    rw [List.length_append, here, first.length]
  have left := first.filled before (blank' ++ after) here
  have right := second.filled (before ++ code) after place
  simp only [List.append_assoc] at left right
  simp only [patch, List.foldl_append, List.append_assoc] at left right ⊢
  rw [left, right]

/-- At the end of a draft, nothing stands after the holes. -/
theorem filled_end (fills : Fills start fill holes blank code) {before : List Instruction}
    (here : before.length = start) : patch fill holes (before ++ blank) = before ++ code := by
  have filled := fills.filled before [] here
  rwa [List.append_nil, List.append_nil] at filled

end Fills

/-! ## Writing in place -/

/-- A draft is extended by a stretch of code. -/
structure Draft.Extends (d d' : Draft) (s : Stretch) : Prop where
  code : d'.code = d.code ++ s.code
  used : d'.used = s.used
  stop : d'.pc = s.stop

/-- A draft that is extended has the new code behind the old one, and the memory of the whole. -/
theorem Draft.Extends.eq {d d' : Draft} {s : Stretch} (extended : d.Extends d' s) :
    d' = ⟨d.code ++ s.code, s.used⟩ := by
  rw [← extended.code, ← extended.used]

/-- Stretches of code that follow one another are one stretch. -/
theorem Draft.Extends.trans {d d' d'' : Draft} {s t : Stretch} (first : d.Extends d' s)
    (second : d'.Extends d'' t) : d.Extends d'' ⟨s.code ++ t.code, t.stop, t.used⟩ where
  code := by rw [second.code, first.code, List.append_assoc]
  used := second.used
  stop := second.stop

/-- A draft is extended by a stretch of code that has holes still. What fills them in depends on
where the code ends. -/
def Draft.Prepares (d d' : Draft) (fill : Nat → Nat → Instruction) (holes : List Nat)
    (s : Stretch) : Prop :=
  ∃ blank, d.Extends d' ⟨blank, s.stop, s.used⟩ ∧ Fills d.pc (fill s.stop) holes blank s.code

namespace Draft.Prepares

variable {d d' d'' : Draft} {fill : Nat → Nat → Instruction} {holes : List Nat} {s t : Stretch}

/-- Whole code has no holes. -/
theorem of_extends (whole : d.Extends d' s) : d.Prepares d' fill [] s :=
  ⟨s.code, whole, .whole s.code⟩

/-- Code that is complete can stand before code with holes. -/
theorem after (first : d.Extends d' s) (second : d'.Prepares d'' fill holes t) :
    d.Prepares d'' fill holes ⟨s.code ++ t.code, t.stop, t.used⟩ := by
  obtain ⟨blank, rest, fills⟩ := second
  have place : d'.pc = d.pc + s.code.length := by rw [pc, first.code, List.length_append, pc]
  rw [place] at fills
  exact ⟨s.code ++ blank, first.trans rest, (Fills.whole s.code).append fills⟩

/-- A hole is left where an instruction is due that depends on the end. -/
theorem hole {i : Instruction} {used : Nat} (pushed : d' = ⟨d.code ++ [i], used⟩)
    (second : d'.Prepares d'' fill holes t) :
    d.Prepares d'' fill (d.pc :: holes) ⟨fill t.stop d.pc :: t.code, t.stop, t.used⟩ := by
  obtain ⟨blank, rest, fills⟩ := second
  subst pushed
  have place : Draft.pc ⟨d.code ++ [i], used⟩ = d.pc + [i].length := List.length_append
  rw [place] at fills
  refine ⟨i :: blank, ⟨?_, rest.used, rest.stop⟩, (Fills.hole i).append fills⟩
  rw [rest.code, List.append_assoc, List.singleton_append]

/-- What is charged does not depend on the holes: an instruction costs the same before it is filled
in. -/
theorem used (prepared : d.Prepares d' fill holes s) : d'.used = s.used := by
  obtain ⟨blank, rest, -⟩ := prepared
  exact rest.used

/-- When the holes are filled in, the stretch stands in the draft. -/
theorem extends_fillIn (prepared : d.Prepares d' fill holes s) :
    d.Extends (d'.fillIn (fill d'.pc) holes) s := by
  obtain ⟨blank, rest, fills⟩ := prepared
  have stop : d'.pc = s.stop := rest.stop
  have filled : patch (fill d'.pc) holes d'.code = d.code ++ s.code := by
    rw [rest.code, stop]
    exact fills.filled_end rfl
  exact ⟨filled, rest.used, (pc_fillIn ..).trans stop⟩

/-- An instruction before prepared code may still be exchanged, and memory be charged for it. -/
theorem exchange {i : Instruction} {used : Nat} (j : Instruction) (used' : Nat)
    (prepared : Prepares ⟨d.code ++ [i], used⟩ d' fill holes s) :
    Prepares ⟨d.code ++ [j], used⟩ (fillIn (fun _ => j) [d.pc] { d' with used := used' }) fill holes
      ⟨s.code, s.stop, used'⟩ := by
  obtain ⟨blank, rest, fills⟩ := prepared
  have before : (d.code ++ [i]).length = (d.code ++ [j]).length := by simp
  have filled : patch (fun _ => j) [d.pc] d'.code = d.code ++ [j] ++ blank := by
    rw [rest.code]
    exact (Fills.hole i).filled d.code blank rfl
  refine ⟨blank, ⟨filled, rfl, (pc_fillIn ..).trans rest.stop⟩, ?_⟩
  rw [pc, ← before]
  exact fills

end Draft.Prepares

namespace Writer

/-- Writing to a draft appends what is written apart. -/
def Matches (w : Writer) (a : Emitter) : Prop := ∀ d, Agree d.Extends (w d) (a d.pc d.used)

variable {l : Limits} {w v : Writer} {a b : Emitter}

/-- Writing nothing matches no code. -/
theorem skip_matches : Matches .ok .nothing := fun _ => .done ⟨by simp, rfl, rfl⟩

/-- A charge is granted to a draft exactly if it is granted to the memory in use. -/
theorem charge_agree (cost : Nat) (d : Draft) :
    Agree (fun d' used => d' = { d with used }) (d.charge l cost) (l.charge d.used cost) := by
  unfold Draft.charge
  cases l.charge d.used cost with
  | error o => exact .refused o
  | ok used => exact .done rfl

/-- An instruction is added exactly if its cost is granted. -/
theorem push_agree (i : Instruction) (d : Draft) :
    Agree (fun d' used => d' = ⟨d.code ++ [i], used⟩) (d.push l i) (l.charge d.used i.cost) := by
  rw [← bind_pure (l.charge d.used i.cost)]
  exact (charge_agree i.cost d).bind fun d' used charged => .done (by rw [charged])

/-- One instruction more moves the end of a draft by one. -/
theorem pc_of_push {i : Instruction} {d d' : Draft} {used : Nat}
    (pushed : d' = ⟨d.code ++ [i], used⟩) : d'.pc = d.pc + 1 := by
  subst pushed
  exact List.length_append

/-- The memory after an instruction is what the charge has left in use. -/
theorem used_of_push {i : Instruction} {d d' : Draft} {used : Nat}
    (pushed : d' = ⟨d.code ++ [i], used⟩) : d'.used = used := by
  rw [pushed]

/-- Writing an instruction matches one instruction of code. -/
theorem push_matches (i : Instruction) : Matches (Draft.push l i) (.one l i) := by
  intro d
  refine (push_agree i d).map_right fun d' used pushed => ?_
  exact ⟨by rw [pushed], used_of_push pushed, pc_of_push pushed⟩

/-- Writing goes on where the first stretch ends. -/
theorem Matches.andThen {α : Type} {T : α → Stretch → Prop} {next : Draft → Except Overrun α}
    (first : w.Matches a) {d : Draft} {pc used : Nat} (place : d.pc = pc) (memory : d.used = used)
    (second : ∀ d' s, d.Extends d' s →
      Agree (fun r t => T r ⟨s.code ++ t.code, t.stop, t.used⟩) (next d') (b d'.pc d'.used)) :
    Agree T (w d >>= next) (a.seq b pc used) := by
  subst place memory
  refine (first d).bind fun d' s here => ?_
  rw [← here.stop, ← here.used]
  exact (second d' s here).map_right fun _ _ related => related

/-- Writers in sequence match code in sequence. -/
theorem Matches.seq (first : w.Matches a) (second : v.Matches b) :
    Matches (fun d => w d >>= v) (a.seq b) :=
  fun _ => first.andThen rfl rfl fun d' _ here => (second d').mono fun _ _ there => here.trans there

/-- Writing the characters of a text matches the code of the text. -/
theorem pushAll_matches (cs : List Char) :
    (pushAll l (cs.map Emitter.charInstruction)).Matches (.literal l cs) := by
  induction cs with
  | nil => exact skip_matches
  | cons c cs ih => exact (push_matches _).seq ih

/-- Copies that are written one after the other match the copies of the code, and the place of the
last one is kept for the loop behind it. -/
theorem Matches.copies (body : w.Matches a) (n : Nat) (last : Option Nat) (d : Draft) :
    Agree (fun r => d.Extends r.draft) (w.copies n last d) (a.copies n d.pc d.used) := by
  induction n generalizing last d with
  | zero => exact .done ⟨by simp, rfl, rfl⟩
  | succ n ih =>
    exact body.andThen rfl rfl fun d' _ here => (ih _ d').mono fun _ _ there => here.trans there

/-- The last of several copies is written after the others, and its start is noted. -/
theorem copies_succ (w : Writer) (n : Nat) (last last' : Option Nat) (d : Draft) :
    w.copies (n + 1) last d =
      w.copies n last' d >>= fun r => w r.draft >>= fun d' => pure ⟨d', some r.draft.pc⟩ := by
  induction n generalizing last last' d with
  | zero => rfl
  | succ n ih =>
    rw [copies, copies, bind_assoc]
    exact congrArg (w d >>= ·) (funext fun d' => ih _ _ d')

/-- A loop whose fork is filled in at the end matches the loop whose targets are known from the
start. -/
theorem Matches.star (greedy : Bool) (body : w.Matches a) :
    (w.star l greedy).Matches (a.star l greedy) := by
  intro d
  refine (push_agree (.fork2 0 0) d).bind fun d' used pushed => ?_
  have rest := body.seq (push_matches (l := l) (.jump d.pc)) d'
  rw [pc_of_push pushed, used_of_push pushed] at rest
  rw [← bind_assoc]
  exact rest.bind fun d'' s there =>
    .done (Draft.Prepares.hole pushed (.of_extends there)).extends_fillIn

/-- The fork after a copy goes back to where the copy starts. -/
theorem Matches.plus (greedy : Bool) (body : w.Matches a) :
    Matches
      (fun d => do
        let d' ← w d
        d'.push l (Emitter.fork greedy d.pc (d'.pc + 1)))
      (a.plus l greedy) := by
  intro d
  refine (body d).bind fun d' s here => ?_
  rw [← here.stop, ← here.used]
  exact (push_matches _ d').map_right fun _ _ there => here.trans there

/-- The copies of an optional repetition are written with holes for their forks. -/
theorem Matches.options (greedy : Bool) (body : w.Matches a) (n : Nat) (holes : List Nat)
    (d : Draft) :
    Agree
      (fun r s => ∃ new, r.holes = holes ++ new ∧ d.Prepares r.draft (optionFork greedy) new s)
      (w.options l n holes d) (a.options l greedy n d.pc d.used) := by
  induction n generalizing holes d with
  | zero => exact .done ⟨[], by simp, .of_extends ⟨by simp, rfl, rfl⟩⟩
  | succ n ih =>
    refine (push_agree (.fork2 0 0) d).bind fun d' used pushed => ?_
    have rest : Agree
        (fun r s => ∃ new, r.holes = holes ++ [d.pc] ++ new ∧
          d'.Prepares r.draft (optionFork greedy) new s)
        (w d' >>= w.options l n (holes ++ [d.pc]))
        (a.seq (a.options l greedy n) (d.pc + 1) used) := by
      refine body.andThen (pc_of_push pushed) (used_of_push pushed) fun d'' s here =>
        (ih _ d'').mono ?_
      rintro r t ⟨new, all, prepared⟩
      exact ⟨new, all, .after here prepared⟩
    refine rest.map_right ?_
    rintro r t ⟨new, all, prepared⟩
    exact ⟨d.pc :: new, by rw [all, List.append_assoc]; rfl, .hole pushed prepared⟩

/-- A repetition matches in each of its three forms. -/
theorem Matches.repetition (min : Nat) (max : Option Nat) (greedy : Bool) (body : w.Matches a) :
    (w.repetition l min max greedy).Matches (a.repetition l min max greedy) := by
  intro d
  cases max with
  | some max =>
    refine (body.copies min none d).bind fun r s here => ?_
    rw [← here.stop, ← here.used]
    refine ((body.options greedy (max - min) [] r.draft).bind ?_)
    rintro pending t ⟨new, all, prepared⟩
    rw [List.nil_append] at all
    subst all
    exact .done (here.trans prepared.extends_fillIn)
  | none =>
    cases min with
    | zero => exact body.star greedy d
    | succ min =>
      rw [Writer.repetition, copies_succ w min none none, bind_assoc]
      refine (body.copies min none d).bind fun r s here => ?_
      rw [← here.stop, ← here.used, bind_assoc]
      exact (body.plus greedy r.draft).map_right fun _ _ there => here.trans there

/-- A group matches, with its marks or without them. -/
theorem Matches.capture (index : Nat) (body : w.Matches a) :
    (w.capture l index).Matches (a.capture l index) := by
  intro d
  unfold Writer.capture Emitter.capture
  cases l.captures with
  | false => exact body d
  | true => exact (push_matches _).seq (body.seq (push_matches _)) d

end Writer

/-- All branches but the last end with a jump behind the alternation. -/
theorem Branches.join_cons {stop : Nat} {code : List Instruction} {rest : List (List Instruction)}
    (more : rest ≠ []) : join stop (code :: rest) = code ++ .jump stop :: join stop rest := by
  cases rest with
  | nil => exact absurd rfl more
  | cons code' rest => rfl

/-- Branches are written to a draft, with holes for the jumps between them. -/
structure Draft.Lays (d : Draft) (starts jumps : List Nat) (count : Nat) (r : Forked)
    (bs : Branches) : Prop where
  starts : r.starts = starts ++ bs.starts
  count : bs.codes.length = count
  code : ∃ new, r.jumps = jumps ++ new ∧
    d.Prepares r.draft (fun stop _ => .jump stop) new
      ⟨Branches.join bs.stop bs.codes, bs.stop, bs.used⟩

namespace Expr

variable {l : Limits}

/-- The items of a sequence match if each of them does. -/
theorem writeAll_matches (es : List Expr) (each : ∀ e ∈ es, (e.write l).Matches (e.emit l)) :
    (writeAll l es).Matches (emitAll l es) := by
  induction es with
  | nil =>
    simp only [writeAll, emitAll]
    exact Writer.skip_matches
  | cons e es ih =>
    simp only [writeAll, emitAll]
    exact (each e List.mem_cons_self).seq (ih fun e mem => each e (List.mem_cons_of_mem _ mem))

/-- Branches are laid out as in the code, with their jumps still open. The induction is on the
branches, for any branches that stand before them. -/
theorem writeBranches_agree (es : List Expr) (each : ∀ e ∈ es, (e.write l).Matches (e.emit l))
    (starts jumps : List Nat) (d : Draft) :
    Agree (d.Lays starts jumps es.length) (writeBranches l es starts jumps d)
      (emitBranches l es d.pc d.used) := by
  induction es generalizing starts jumps d with
  | nil =>
    simp only [writeBranches, emitBranches]
    exact .done ⟨by simp, rfl, [], by simp, .of_extends ⟨by simp [Branches.join], rfl, rfl⟩⟩
  | cons e es ih =>
    have head := each e List.mem_cons_self d
    cases es with
    | nil =>
      simp only [writeBranches, emitBranches]
      exact head.bind fun d' s here => .done ⟨rfl, rfl, [], by simp, .of_extends here⟩
    | cons e' es =>
      simp only [writeBranches, emitBranches, List.isEmpty_cons, Bool.false_eq_true, if_false]
      refine head.bind fun d' s here => ?_
      rw [← here.stop, ← here.used]
      refine (Writer.push_agree (.jump 0) d').bind fun d'' used pushed => ?_
      have rest := ih (fun e mem => each e (List.mem_cons_of_mem _ mem)) (starts ++ [d.pc])
        (jumps ++ [d'.pc]) d''
      rw [Writer.pc_of_push pushed, Writer.used_of_push pushed] at rest
      refine rest.map_right ?_
      rintro r ⟨starts', codes, stop, used'⟩ ⟨all, count, new, holes, prepared⟩
      refine ⟨by rw [all, List.append_assoc]; rfl, by simp [count], d'.pc :: new, ?_, ?_⟩
      · rw [holes, List.append_assoc]
        rfl
      · rw [Branches.join_cons (List.ne_nil_of_length_eq_add_one count)]
        exact .after here (.hole pushed prepared)

/-- Writing an expression to a draft appends the code that it is lowered to. -/
theorem write_matches (e : Expr) : (e.write l).Matches (e.emit l) := by
  induction e with
  | empty => simpa only [write, emit] using Writer.skip_matches
  | literal bs => simpa only [write, emit] using Writer.pushAll_matches _
  | chars set => simpa only [write, emit] using Writer.push_matches _
  | bytes set => simpa only [write, emit] using Writer.push_matches _
  | look k => simpa only [write, emit] using Writer.push_matches _
  | repetition min max greedy body ih => simpa only [write, emit] using ih.repetition min max greedy
  | capture index name body ih => simpa only [write, emit] using ih.capture index
  | concat items ih => simpa only [write, emit] using writeAll_matches items ih
  | alternation branches ih =>
    intro d
    simp only [write, emit]
    refine (Writer.push_agree (.forkN []) d).bind fun d' used pushed => ?_
    have rest := writeBranches_agree branches ih [] [] d'
    rw [Writer.pc_of_push pushed, Writer.used_of_push pushed] at rest
    refine rest.bind ?_
    rintro r bs ⟨starts, -, new, jumps, prepared⟩
    rw [List.nil_append] at starts jumps
    subst pushed jumps
    have memory : r.draft.used = bs.used := prepared.used
    rw [starts, ← memory]
    refine (Writer.charge_agree _ r.draft).bind fun d'' used' charged => .done ?_
    subst charged
    -- The fork is patched first, so that the jumps are filled in behind a whole instruction.
    have fork : d.Extends ⟨d.code ++ [.forkN bs.starts], used⟩
        ⟨[.forkN bs.starts], d.pc + 1, used⟩ := ⟨rfl, rfl, List.length_append⟩
    exact fork.trans (prepared.exchange (.forkN bs.starts) used').extends_fillIn

/-- Writing in place gives what lowering gives: the draft is kept, the code comes after it, and what
is refused is refused alike. -/
theorem write_eq (e : Expr) (d : Draft) :
    e.write l d = do
      let s ← e.emit l d.pc d.used
      return ⟨d.code ++ s.code, s.used⟩ := by
  have agree := write_matches (l := l) e d
  generalize e.write l d = written, e.emit l d.pc d.used = emitted at agree
  cases agree with
  | refused o => rfl
  | done extended => exact congrArg Except.ok extended.eq

end Expr

/-! ## Code at another place -/

/-- The instruction with `k` added to its targets. -/
def Instruction.shift (k : Nat) : Instruction → Instruction
  | fork2 first second => fork2 (first + k) (second + k)
  | forkN targets => forkN (targets.map (· + k))
  | jump target => jump (target + k)
  | i => i

/-- Instructions without a target stay as they are when code is moved. -/
@[simp]
theorem Plain.shift_instruction (k : Nat) (i : Plain) : i.instruction.shift k = i.instruction := by
  cases i <;> rfl

/-- Both targets of a fork move with the code. -/
@[simp]
theorem Emitter.shift_fork (k : Nat) (greedy : Bool) (enter leave : Nat) :
    (fork greedy enter leave).shift k = fork greedy (enter + k) (leave + k) := by
  cases greedy <;> rfl

namespace Plan

variable {k : Nat}

/-- Branches start as much later as the code is moved. -/
theorem starts_shift (pc : Nat) (bs : List Plan) :
    starts (pc + k) bs = (starts pc bs).map (· + k) := by
  induction bs generalizing pc with
  | nil => rfl
  | cons b bs ih =>
    have next : pc + k + b.size + 1 = pc + b.size + 1 + k := by omega
    rw [starts_cons, starts_cons, next, ih, List.map_cons]

/-- Branches that are moved are joined to moved code. -/
theorem join_shift (stop pc : Nat) (bs : List Plan)
    (each : ∀ b ∈ bs, ∀ pc, b.code (pc + k) = (b.code pc).map (·.shift k)) :
    Branches.join (stop + k) (codes (pc + k) bs) =
      (Branches.join stop (codes pc bs)).map (·.shift k) := by
  induction bs generalizing pc with
  | nil => rfl
  | cons b bs ih =>
    have head := each b List.mem_cons_self pc
    cases bs with
    | nil => exact head
    | cons c bs =>
      have next : pc + k + b.size + 1 = pc + b.size + 1 + k := by omega
      have rest := ih (pc + b.size + 1) fun d mem => each d (List.mem_cons_of_mem _ mem)
      have joined : ∀ stop pc, Branches.join stop (codes pc (b :: c :: bs)) =
          b.code pc ++ .jump stop :: Branches.join stop (codes (pc + b.size + 1) (c :: bs)) :=
        fun _ _ => rfl
      rw [joined, joined, next, head, rest, List.map_append]
      rfl

/-- The code of a plan `k` places further on has `k` added to its targets. -/
theorem code_shift (p : Plan) (pc : Nat) : p.code (pc + k) = (p.code pc).map (·.shift k) := by
  induction p generalizing pc with
  | nothing => rfl
  | plain i => simp [code]
  | seq first second ihf ihs =>
    simp only [code, List.map_append, Nat.add_right_comm pc k, ihf, ihs]
  | option greedy body ih =>
    simp only [code, List.map_cons, Emitter.shift_fork, Nat.add_right_comm pc k, ih]
  | star greedy body ih =>
    simp only [code, List.map_cons, List.map_append, Emitter.shift_fork, Nat.add_right_comm pc k,
      ih]
    rfl
  | plus greedy body ih =>
    simp only [code, List.map_cons, List.map_append, Emitter.shift_fork, Nat.add_right_comm pc k,
      ih]
    rfl
  | choice branches ih =>
    simp only [code, List.map_cons, Nat.add_right_comm pc k, starts_shift, join_shift _ _ _ ih]
    rfl

/-- Wherever a plan stands, its code is the code at the start, moved there. -/
theorem code_eq_map (p : Plan) (pc : Nat) : p.code pc = (p.code 0).map (·.shift pc) := by
  have moved := p.code_shift (k := pc) 0
  rwa [Nat.zero_add] at moved

end Plan

namespace Expr

variable {l : Limits}

/-- Code that there is room for is the code of the plan. -/
theorem emit_eq_ok (e : Expr) {pc used : Nat}
    (within : used + (e.plan l.captures).cost ≤ l.budget) :
    e.emit l pc used = .ok ⟨(e.plan l.captures).code pc, pc + (e.plan l.captures).size,
      used + (e.plan l.captures).cost⟩ := by
  have granted := e.emit_follows pc used (Nat.le_trans (Nat.le_add_right ..) within)
  rwa [Limits.Grants, if_pos within] at granted

/-- An expression that does not fit the budget is refused, whatever part of it is the first not to
fit. -/
theorem emit_eq_error (e : Expr) {pc used : Nat} (fits : used ≤ l.budget)
    (exceeds : l.budget < used + (e.plan l.captures).cost) :
    ∃ o, e.emit l pc used = .error o := by
  have granted := e.emit_follows pc used fits
  rw [Limits.Grants, if_neg (Nat.not_le.mpr exceeds)] at granted
  obtain ⟨o, refused, -⟩ := granted
  exact ⟨o, refused⟩

/-- Code is written as a fragment that can be moved. An expression has one fragment and one amount
of memory for all drafts and all budgets that leave room for it. What the draft holds is kept, the
fragment comes after it with the place added to its targets, which all lie within it or just after
it, and the memory is charged. At the start of an empty draft the fragment stands as it is. If the
budget leaves no room, writing is refused. Lowering gives the same code and the same overrun. -/
theorem write_relocates (e : Expr) (kept : Bool) :
    ∃ fragment memory, ∀ l : Limits, l.captures = kept →
      (memory ≤ l.budget → e.write l ⟨[], 0⟩ = .ok ⟨fragment, memory⟩) ∧
      ∀ d : Draft,
        let placed := fragment.map (·.shift d.pc)
        (d.used + memory ≤ l.budget →
          e.write l d = .ok ⟨d.code ++ placed, d.used + memory⟩ ∧
          e.emit l d.pc d.used = .ok ⟨placed, d.pc + fragment.length, d.used + memory⟩ ∧
          ∀ i ∈ placed, ∀ t ∈ i.targets, d.pc ≤ t ∧ t ≤ d.pc + fragment.length) ∧
        (d.used ≤ l.budget → l.budget < d.used + memory →
          ∃ o, e.write l d = .error o ∧ e.emit l d.pc d.used = .error o) := by
  refine ⟨(e.plan kept).code 0, (e.plan kept).cost, fun l same => ?_⟩
  subst same
  refine ⟨fun fits => ?_, fun d => ⟨fun within => ?_, fun fits exceeds => ?_⟩⟩
  · rw [write_eq, emit_eq_ok e (by rwa [Nat.zero_add]), Nat.zero_add]
    rfl
  · rw [← Plan.code_eq_map, Plan.length_code, write_eq, emit_eq_ok e within]
    exact ⟨rfl, rfl, fun i mem => (Plan.confined_of_mem_code mem).inside⟩
  · obtain ⟨o, refused⟩ := emit_eq_error e fits exceeds
    exact ⟨o, by rw [write_eq, refused]; rfl, refused⟩

/-- A loop over an alternation with optional copies in it, alone and after the loop that a search
starts with. A budget of 204 bytes has room for both, and one byte less is refused. -/
theorem write_relocates_nested :
    let copy : Expr := .bytes [⟨0x61, 0x62⟩]
    let e : Expr := .repetition 0 none true
      (.alternation [.repetition 0 (some 2) false copy, .look .wordAscii])
    let letter : Instruction := .consumeClass [⟨0x61, 0x62⟩]
    let d : Draft := ⟨[.fork2 3 1, .consumeAny, .jump 0], 48⟩
    e.write ⟨204, true⟩ ⟨[], 0⟩ =
        .ok ⟨[.fork2 1 9, .forkN [2, 7], .fork2 6 3, letter, .fork2 6 5, letter, .jump 8,
          .assertion .wordAscii, .jump 0], 156⟩ ∧
      e.write ⟨204, true⟩ d =
        .ok ⟨d.code ++ [.fork2 4 12, .forkN [5, 10], .fork2 9 6, letter, .fork2 9 8, letter,
          .jump 11, .assertion .wordAscii, .jump 3], 204⟩ ∧
      ∃ o, e.write ⟨203, true⟩ d = .error o := by
  intro copy e letter d
  have alone : e.write ⟨204, true⟩ ⟨[], 0⟩ =
      .ok ⟨[.fork2 1 9, .forkN [2, 7], .fork2 6 3, letter, .fork2 6 5, letter, .jump 8,
        .assertion .wordAscii, .jump 0], 156⟩ := rfl
  obtain ⟨fragment, memory, laws⟩ := write_relocates e true
  obtain ⟨start, moved⟩ := laws ⟨204, true⟩ rfl
  have fits : memory ≤ 204 := by
    refine Nat.le_of_not_lt fun exceeds => ?_
    obtain ⟨o, refused, -⟩ := (moved ⟨[], 0⟩).2 (Nat.zero_le _) (by rwa [Nat.zero_add])
    cases alone.symm.trans refused
  cases (start fits).symm.trans alone
  obtain ⟨o, refused, -⟩ := ((laws ⟨203, true⟩ rfl).2 d).2 (by decide) (by decide)
  exact ⟨alone, ((moved d).1 (by decide)).1, o, refused⟩

end Expr

end PatternGate
