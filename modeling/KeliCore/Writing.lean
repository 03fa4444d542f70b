/-
Writing under back-pressure.  A writer takes a part of what it is offered, or
has no room, or fails, and may have put something on the wire before it says
so.  A loop that offers the same input again after a writer had no room puts
exactly the input on the wire if and only if these calls had put nothing there.
-/
import Mathlib.Algebra.Order.BigOperators.Group.List
import Mathlib.Algebra.Order.Ring.Nat

universe u v w x y

namespace Writing

open List

variable {σ : Type u} {α : Type v} {β : Type w} {τ : Type x}

/-- What a call of a writer says. -/
inductive Answer where
  | took (count : Nat)
  | blocked
  | interrupted
  | failed
deriving DecidableEq

/-- What a call of a writer puts on the wire, and what it says. -/
structure Call (β : Type w) where
  emitted : List β
  answer : Answer

/-- A writer with a state; `τ` is what lies below it during one call. -/
abbrev Writer (σ : Type u) (α : Type v) (τ : Type x) (β : Type w) :=
  σ → List α → τ → σ × Call β

inductive Ended where
  | done
  | waiting
  | failed
deriving DecidableEq

/-- A loop over calls of a writer: the writer's state, everything put on the
wire, and how the loop ended; `waiting` when no further call was made. -/
structure Outcome (σ : Type u) (β : Type w) where
  state : σ
  wire : List β
  ended : Ended

def Outcome.after (outcome : Outcome σ β) (emitted : List β) : Outcome σ β :=
  { outcome with wire := emitted ++ outcome.wire }

variable {state : σ} {input : List α} {turns : List τ}

section InTurn

variable {T : Type y} (run : σ → T → Outcome σ β)

/-- One task after the other, as long as they are done. -/
def inTurn : σ → List T → Outcome σ β
  | state, [] => ⟨state, [], .done⟩
  | state, task :: tasks =>
    let first := run state task
    match first.ended with
    | .done => (inTurn first.state tasks).after first.wire
    | .waiting | .failed => first

/-- The tasks that are begun, and the states in which they are. -/
def begun : σ → List T → List (σ × T)
  | _, [] => []
  | state, task :: tasks =>
    let first := run state task
    (state, task) ::
      match first.ended with
      | .done => begun first.state tasks
      | .waiting | .failed => []

/-- What a task is meant to put on the wire, and how much it puts there
besides. -/
structure Measured (meant : T → List β) (lost : σ → T → Nat) : Prop where
  length : ∀ {state task}, (run state task).ended = .done →
    (run state task).wire.length = (meant task).length + lost state task
  clean : ∀ {state task}, lost state task = 0 → (run state task).wire <+: meant task ∧
      ((run state task).ended = .done → (run state task).wire = meant task)

namespace Measured

variable {run} {meant : T → List β} {lost : σ → T → Nat} {tasks : List T}

theorem length_inTurn (hrun : Measured run meant lost)
    (hdone : (inTurn run state tasks).ended = .done) :
    (inTurn run state tasks).wire.length = (tasks.flatMap meant).length +
      ((begun run state tasks).map fun task => lost task.1 task.2).sum := by
  induction tasks generalizing state with
  | nil => simp [inTurn, begun]
  | cons task tasks ih =>
    rw [inTurn] at hdone ⊢
    rw [begun]
    cases hfirst : (run state task).ended with
    | done =>
      rw [hfirst] at hdone
      have htail := ih hdone
      have hlen := hrun.length hfirst
      simp only [Outcome.after, length_append, htail, flatMap_cons, hlen, map_cons, sum_cons]
      omega
    | waiting | failed =>
      rw [hfirst] at hdone
      exact absurd (hfirst.symm.trans hdone) (by decide)

theorem inTurn_clean (hrun : Measured run meant lost)
    (hclean : ∀ task ∈ begun run state tasks, lost task.1 task.2 = 0) :
    (inTurn run state tasks).wire <+: tasks.flatMap meant ∧
      ((inTurn run state tasks).ended = .done →
        (inTurn run state tasks).wire = tasks.flatMap meant) := by
  induction tasks generalizing state with
  | nil => simp [inTurn]
  | cons task tasks ih =>
    rw [begun, forall_mem_cons] at hclean
    obtain ⟨hhead, hrest⟩ := hclean
    obtain ⟨hpre, hall⟩ := hrun.clean hhead
    rw [inTurn, flatMap_cons]
    cases hfirst : (run state task).ended with
    | done =>
      rw [hfirst] at hrest
      obtain ⟨htail, hends⟩ := ih hrest
      simp only [Outcome.after, hall hfirst]
      refine ⟨(prefix_append_right_inj _).2 htail, fun hdone => ?_⟩
      rw [hends hdone]
    | waiting | failed =>
      exact ⟨hpre.trans (prefix_append _ _),
        fun hdone => absurd (hfirst.symm.trans hdone) (by decide)⟩

/-- If no task puts more on the wire than it is meant to, the wire carries a
part of what was meant; once all are done, it carries exactly that if and only
if none did. -/
theorem wire_spec (hrun : Measured run meant lost) (state : σ) (tasks : List T) :
    ((∀ task ∈ begun run state tasks, lost task.1 task.2 = 0) →
      (inTurn run state tasks).wire <+: tasks.flatMap meant) ∧
    ((inTurn run state tasks).ended = .done → ((inTurn run state tasks).wire = tasks.flatMap meant ↔
        ∀ task ∈ begun run state tasks, lost task.1 task.2 = 0)) := by
  refine ⟨fun hclean => (hrun.inTurn_clean hclean).1, fun hdone => ?_⟩
  refine ⟨fun hwire => ?_, fun hclean => (hrun.inTurn_clean hclean).2 hdone⟩
  have hlen := hrun.length_inTurn hdone
  rw [hwire, Nat.left_eq_add] at hlen
  intro task htask
  exact sum_eq_zero_iff.1 hlen _ (mem_map_of_mem htask)

end Measured

end InTurn

section Loops

variable (write : Writer σ α τ β)

/-- Offer the input until all of it is taken; after a call that had no room,
offer the same again. -/
def writeAllWait : σ → List α → List τ → Outcome σ β
  | state, [], _ => ⟨state, [], .done⟩
  | state, _ :: _, [] => ⟨state, [], .waiting⟩
  | state, first :: rest, turn :: turns =>
    match write state (first :: rest) turn with
    | (next, ⟨emitted, .took 0⟩) => ⟨next, emitted, .failed⟩
    | (next, ⟨emitted, .took (count + 1)⟩) =>
      (writeAllWait next (rest.drop count) turns).after emitted
    | (next, ⟨emitted, .blocked⟩) => (writeAllWait next (first :: rest) turns).after emitted
    | (next, ⟨emitted, .interrupted⟩) => ⟨next, emitted, .failed⟩
    | (next, ⟨emitted, .failed⟩) => ⟨next, emitted, .failed⟩

/-- How much the calls of `writeAllWait` put on the wire that had no room. -/
def wasted : σ → List α → List τ → Nat
  | _, [], _ => 0
  | _, _ :: _, [] => 0
  | state, first :: rest, turn :: turns =>
    match write state (first :: rest) turn with
    | (next, ⟨_, .took (count + 1)⟩) => wasted next (rest.drop count) turns
    | (next, ⟨emitted, .blocked⟩) => emitted.length + wasted next (first :: rest) turns
    | (_, ⟨_, _⟩) => 0

/-- A call that is made: the writer's state, what it is offered, and what lies
below it. -/
structure Offer (σ : Type u) (α : Type v) (τ : Type x) where
  state : σ
  input : List α
  turn : τ

/-- The calls of `writeAllWait`. -/
def offers : σ → List α → List τ → List (Offer σ α τ)
  | _, [], _ => []
  | _, _ :: _, [] => []
  | state, first :: rest, turn :: turns =>
    ⟨state, first :: rest, turn⟩ ::
      match write state (first :: rest) turn with
      | (next, ⟨_, .took (count + 1)⟩) => offers next (rest.drop count) turns
      | (next, ⟨_, .blocked⟩) => offers next (first :: rest) turns
      | (_, ⟨_, _⟩) => []

theorem input_ne_nil_of_mem_offers {offer : Offer σ α τ}
    (hoffer : offer ∈ offers write state input turns) : offer.input ≠ [] := by
  induction turns generalizing state input with
  | nil => cases input <;> simp [offers] at hoffer
  | cons turn turns ih =>
    cases input with
    | nil => simp [offers] at hoffer
    | cons first rest =>
      rw [offers, mem_cons] at hoffer
      rcases hoffer with rfl | hoffer
      · simp
      · split at hoffer
        · exact ih hoffer
        · exact ih hoffer
        · simp at hoffer

/-- The call has no room, and yet puts nothing on the wire; or it has room. -/
def Offer.Harmless (offer : Offer σ α τ) : Prop :=
  (write offer.state offer.input offer.turn).2.answer = .blocked →
    (write offer.state offer.input offer.turn).2.emitted = []

/-- Nothing is wasted if and only if every call is harmless. -/
theorem wasted_eq_zero_iff (state : σ) (input : List α) (turns : List τ) :
    wasted write state input turns = 0 ↔
      ∀ offer ∈ offers write state input turns, offer.Harmless write := by
  induction turns generalizing state input with
  | nil => cases input <;> simp [wasted, offers]
  | cons turn turns ih =>
    cases input with
    | nil => simp [wasted, offers]
    | cons first rest =>
      rw [wasted, offers, forall_mem_cons, Offer.Harmless]
      rcases hcall : write state (first :: rest) turn with ⟨next, emitted, answer⟩
      cases answer with
      | took count =>
        cases count with
        | zero => simp
        | succ count => simpa using ih next (rest.drop count)
      | blocked => simpa using fun _ => ih next (first :: rest)
      | interrupted | failed => simp

end Loops

/-- What the wire is meant to carry for an input: taking a part of the input
puts its share there, and no call puts more there than the input's. -/
structure Faithful (write : Writer σ α τ β) (encode : List α → List β) : Prop where
  nil : encode [] = []
  took : ∀ {state input turn next emitted count}, input ≠ [] →
    write state input turn = (next, ⟨emitted, .took (count + 1)⟩) →
      emitted ++ encode (input.drop (count + 1)) = encode input
  emits : ∀ {state input turn}, input ≠ [] → (write state input turn).2.emitted <+: encode input

namespace Faithful

variable {write : Writer σ α τ β} {encode : List α → List β}

/-- A loop that is done has put on the wire what was meant, and what the calls
without room put there besides. -/
theorem length_writeAllWait (hwrite : Faithful write encode)
    (hdone : (writeAllWait write state input turns).ended = .done) :
    (writeAllWait write state input turns).wire.length =
      (encode input).length + wasted write state input turns := by
  induction turns generalizing state input with
  | nil =>
    cases input with
    | nil => simp [writeAllWait, wasted, hwrite.nil]
    | cons first rest => simp [writeAllWait] at hdone
  | cons turn turns ih =>
    cases input with
    | nil => simp [writeAllWait, wasted, hwrite.nil]
    | cons first rest =>
      rw [writeAllWait] at hdone ⊢
      rw [wasted]
      rcases hcall : write state (first :: rest) turn with ⟨next, emitted, answer⟩
      rw [hcall] at hdone
      cases answer with
      | took count =>
        cases count with
        | zero => simp at hdone
        | succ count =>
          have htail := @ih next (rest.drop count) hdone
          have htook := hwrite.took (by simp) hcall
          rw [drop_succ_cons] at htook
          have hlen := congrArg length htook
          rw [length_append] at hlen
          simp only [Outcome.after, length_append, htail]
          omega
      | blocked =>
        have htail := @ih next (first :: rest) hdone
        simp only [Outcome.after, length_append, htail]
        omega
      | interrupted | failed => simp at hdone

/-- As long as no call without room put anything on the wire, the wire carries
a part of what was meant, and all of it once the loop is done. -/
theorem writeAllWait_clean (hwrite : Faithful write encode)
    (hclean : wasted write state input turns = 0) :
    (writeAllWait write state input turns).wire <+: encode input ∧
      ((writeAllWait write state input turns).ended = .done →
        (writeAllWait write state input turns).wire = encode input) := by
  induction turns generalizing state input with
  | nil =>
    cases input with
    | nil => simp [writeAllWait, hwrite.nil]
    | cons first rest => simp [writeAllWait]
  | cons turn turns ih =>
    cases input with
    | nil => simp [writeAllWait, hwrite.nil]
    | cons first rest =>
      have hemits := @hwrite.emits state (first :: rest) turn (by simp)
      rw [writeAllWait]
      rw [wasted] at hclean
      rcases hcall : write state (first :: rest) turn with ⟨next, emitted, answer⟩
      rw [hcall] at hclean hemits
      cases answer with
      | took count =>
        cases count with
        | zero => simpa using hemits
        | succ count =>
          obtain ⟨hpre, hall⟩ := @ih next (rest.drop count) hclean
          have htook := hwrite.took (by simp) hcall
          rw [drop_succ_cons] at htook
          rw [← htook]
          refine ⟨(prefix_append_right_inj emitted).2 hpre, ?_⟩
          intro hdone
          exact congrArg (emitted ++ ·) (hall hdone)
      | blocked =>
        obtain ⟨hnil, hrest⟩ := Nat.add_eq_zero_iff.1 hclean
        have hempty : emitted = [] := length_eq_zero_iff.1 hnil
        subst hempty
        exact ih hrest
      | interrupted | failed => simpa using hemits

theorem measured (hwrite : Faithful write encode) : Measured (fun state (input : List α × List τ) =>
        writeAllWait write state input.1 input.2)
      (fun input => encode input.1)
      (fun state input => wasted write state input.1 input.2) where
  length hdone := hwrite.length_writeAllWait hdone
  clean hclean := hwrite.writeAllWait_clean hclean

end Faithful

section Over

variable (write : Writer σ β τ β)

/-- `write_all` of the standard library: all of the input in one go; what it
put on the wire, and why it stopped, if it did. -/
def writeAll : σ → List β → List τ → σ × List β × Option Answer
  | state, [], _ => (state, [], none)
  | state, _ :: _, [] => (state, [], some .blocked)
  | state, first :: rest, turn :: turns =>
    match write state (first :: rest) turn with
    | (next, ⟨emitted, .took 0⟩) => (next, emitted, some .failed)
    | (next, ⟨emitted, .took (count + 1)⟩) =>
      let tail := writeAll next (rest.drop count) turns
      (tail.1, emitted ++ tail.2.1, tail.2.2)
    | (next, ⟨emitted, .blocked⟩) => (next, emitted, some .blocked)
    | (next, ⟨emitted, .interrupted⟩) =>
      let tail := writeAll next (first :: rest) turns
      (tail.1, emitted ++ tail.2.1, tail.2.2)
    | (next, ⟨emitted, .failed⟩) => (next, emitted, some .failed)

/-- Several parts, each with `writeAll`. -/
def writeParts : σ → List (List β) → List (List τ) → σ × List β × Option Answer
  | state, [], _ => (state, [], none)
  | state, part :: parts, turns =>
    match writeAll write state part (turns.headD []) with
    | (next, emitted, some answer) => (next, emitted, some answer)
    | (next, emitted, none) =>
      let tail := writeParts next parts turns.tail
      (tail.1, emitted ++ tail.2.1, tail.2.2)

def frameWriter (parts : List α → List (List β)) :
    Writer σ α (List (List τ)) β := fun state input turns =>
  match input with
  | [] => (state, ⟨[], .took 0⟩)
  | _ :: _ =>
    match writeParts write state (parts input) turns with
    | (next, emitted, none) => (next, ⟨emitted, .took input.length⟩)
    | (next, emitted, some answer) => (next, ⟨emitted, answer⟩)

end Over

/-- A writer that puts on the wire what it says it took. -/
structure Plain (write : Writer σ β τ β) : Prop where
  took : ∀ {state input turn next emitted count},
    write state input turn = (next, ⟨emitted, .took count⟩) → emitted = input.take count
  interrupted : ∀ {state input turn next emitted},
    write state input turn = (next, ⟨emitted, .interrupted⟩) → emitted = []
  emits : ∀ {state input turn}, (write state input turn).2.emitted <+: input

namespace Plain

variable {write : Writer σ β τ β}

theorem writeAll_spec (hwrite : Plain write) (state : σ) (input : List β) (turns : List τ) :
    (writeAll write state input turns).2.1 <+: input ∧
      ((writeAll write state input turns).2.2 = none →
        (writeAll write state input turns).2.1 = input) ∧
      ∀ count, (writeAll write state input turns).2.2 ≠ some (.took count) := by
  induction turns generalizing state input with
  | nil => cases input <;> simp [writeAll]
  | cons turn turns ih =>
    cases input with
    | nil => simp [writeAll]
    | cons first rest =>
      have hemits := @hwrite.emits state (first :: rest) turn
      rw [writeAll]
      rcases hcall : write state (first :: rest) turn with ⟨next, emitted, answer⟩
      rw [hcall] at hemits
      cases answer with
      | took count =>
        cases count with
        | zero => simpa using hemits
        | succ count =>
          obtain ⟨hpre, hall, hnot⟩ := ih next (rest.drop count)
          have hsplit : first :: rest = emitted ++ rest.drop count := by
            rw [hwrite.took hcall, take_succ_cons, cons_append, take_append_drop]
          refine ⟨?_, fun hnone => ?_, hnot⟩
          · rw [hsplit]
            exact (prefix_append_right_inj emitted).2 hpre
          · dsimp only at hnone ⊢
            rw [hall hnone, ← hsplit]
      | blocked | failed => simpa using hemits
      | interrupted =>
        obtain rfl := hwrite.interrupted hcall
        exact ih next (first :: rest)

theorem writeParts_spec (hwrite : Plain write) (state : σ)
    (parts : List (List β)) (turns : List (List τ)) :
    (writeParts write state parts turns).2.1 <+: parts.flatten ∧
      ((writeParts write state parts turns).2.2 = none →
        (writeParts write state parts turns).2.1 = parts.flatten) ∧
      ∀ count, (writeParts write state parts turns).2.2 ≠ some (.took count) := by
  induction parts generalizing state turns with
  | nil => simp [writeParts]
  | cons part parts ih =>
    obtain ⟨hpre, hall, hnot⟩ := hwrite.writeAll_spec state part (turns.headD [])
    rw [writeParts, flatten_cons]
    rcases hcall : writeAll write state part (turns.headD []) with ⟨next, emitted, stopped⟩
    rw [hcall] at hpre hall hnot
    cases stopped with
    | some answer => refine ⟨hpre.trans (prefix_append _ _), by simp, hnot⟩
    | none =>
      obtain ⟨htail, hends, hrest⟩ := ih next turns.tail
      have hpart : emitted = part := hall rfl
      subst hpart
      refine ⟨(prefix_append_right_inj emitted).2 htail, ?_, hrest⟩
      intro hnone
      dsimp only at hnone ⊢
      rw [hends hnone]

/-- What a frame writer is meant to put on the wire. -/
def frameOf (parts : List α → List (List β)) : List α → List β
  | [] => []
  | first :: rest => (parts (first :: rest)).flatten

theorem faithful_frameWriter (hwrite : Plain write) (parts : List α → List (List β)) :
    Faithful (frameWriter write parts) (frameOf parts) where
  nil := rfl
  took {state input turn next emitted count} hinput hcall := by
    cases input with
    | nil => contradiction
    | cons first rest =>
      obtain ⟨-, hall, hnot⟩ := hwrite.writeParts_spec state (parts (first :: rest)) turn
      rw [frameWriter] at hcall
      rcases hparts : writeParts write state (parts (first :: rest)) turn
        with ⟨after, sent, stopped⟩
      rw [hparts] at hcall hall hnot
      cases stopped with
      | none =>
        obtain ⟨rfl, rfl, hcount⟩ := by simpa using hcall
        rw [drop_eq_nil_of_le (by simp [← hcount]), frameOf, frameOf, append_nil]
        exact hall rfl
      | some answer =>
        obtain ⟨-, -, rfl⟩ := by simpa using hcall
        exact absurd rfl (hnot _)
  emits {state input turn} hinput := by
    cases input with
    | nil => contradiction
    | cons first rest =>
      obtain ⟨hpre, -, -⟩ := hwrite.writeParts_spec state (parts (first :: rest)) turn
      rw [frameWriter]
      rcases hparts : writeParts write state (parts (first :: rest)) turn
        with ⟨after, sent, stopped⟩
      rw [hparts] at hpre
      cases stopped with
      | none | some answer => exact hpre

end Plain

end Writing
