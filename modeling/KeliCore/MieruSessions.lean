/-
The sessions over one Mieru connection.  The dispatcher knows a session by the
number its client gave it, and so does the message a worker posts when it ends;
by then the number may be that of another session.
-/
import KeliCore.HashMap
import KeliCore.Run

namespace KeliCore

open Finmap

/-- A message of the channel `done_rx`, and the worker that posted it, which it
does not name. -/
structure MieruDone where
  sessionId : UInt32
  failed : Bool
  worker : Nat
deriving DecidableEq

inductive MieruEvent where
  | openSession (sessionId : UInt32)
  | data (sessionId : UInt32)
  | close (sessionId : UInt32)
  | ends (worker : Nat) (failed : Bool)
  /-- a turn of the loop over `done_rx` -/
  | receive
  | hangUp

inductive MieruEffect where
  | delivered (worker : Nat)
  | closeRequest (sessionId : UInt32)
  | joined (worker : Nat)
deriving DecidableEq

/-- The dispatcher's maps, here from numbers to workers, the messages it has
not taken yet and the worker it waits for in a `join`; the workers that run;
and the session that a number means to the client. -/
structure MieruUnderlay where
  reading : Bool := true
  sessions : HashMap UInt32 Nat := ∅
  workers : HashMap UInt32 Nat := ∅
  done : List MieruDone := []
  joining : Option Nat := none
  running : HashMap Nat UInt32 := ∅
  opened : HashMap UInt32 Nat := ∅
  next : Nat := 0
  effects : List MieruEffect := []

namespace MieruUnderlay

def spawnMieruSession (state : MieruUnderlay) (id : UInt32) : MieruUnderlay :=
  if id = 0 ∨ (state.sessions.lookup id).isSome then { state with reading := false }
  else
    { state with
      sessions := state.sessions.insert id state.next
      workers := state.workers.insert id state.next
      running := state.running.insert state.next id
      opened := state.opened.insert id state.next
      next := state.next + 1 }

/-- `dispatch_mieru_segment`, and the loop over `done_rx`. -/
def dispatch (state : MieruUnderlay) : MieruEvent → MieruUnderlay
  | .openSession id => state.spawnMieruSession id
  | .data id =>
    match state.sessions.lookup id with
    | some worker => { state with effects := state.effects ++ [.delivered worker] }
    | none => { state with effects := state.effects ++ [.closeRequest id] }
  | .close id =>
    { state with
      sessions := state.sessions.erase id
      opened := state.opened.erase id
      effects := state.effects ++ (state.sessions.lookup id).toList.map .delivered }
  | .receive =>
    match state.done with
    | [] => state
    | message :: rest =>
      let joined := state.workers.lookup message.sessionId
      { state with
        sessions := state.sessions.erase message.sessionId
        workers := state.workers.erase message.sessionId
        done := rest
        joining := joined.filter fun worker => (state.running.lookup worker).isSome
        effects := state.effects ++ joined.toList.map .joined ++
          if message.failed then [.closeRequest message.sessionId] else [] }
  | .ends _ _ => state
  | .hangUp => { state with reading := false }

def step (state : MieruUnderlay) : MieruEvent → MieruUnderlay
  | .ends worker failed =>
    match state.running.lookup worker with
    | none => state
    | some id =>
      { state with
        running := state.running.erase worker
        done := state.done ++ [⟨id, failed, worker⟩]
        joining := state.joining.filter (· != worker) }
  | event => if state.reading && state.joining.isNone then state.dispatch event else state

/-- The session that the client knows by the number has a running worker. -/
def Live (state : MieruUnderlay) (id : UInt32) (worker : Nat) : Prop :=
  state.opened.lookup id = some worker ∧ state.running.lookup worker = some id

/-- The worker runs, or its message has not been taken yet. -/
def Pending (state : MieruUnderlay) (id : UInt32) (worker : Nat) : Prop :=
  state.running.lookup worker = some id ∨
    ∃ message ∈ state.done, message.sessionId = id ∧ message.worker = worker

/-- A number is given to a new session after the last message about it was
taken. -/
def Fresh (state : MieruUnderlay) : MieruEvent → Prop
  | .openSession id => (∀ worker number, state.running.lookup worker = some number → number ≠ id) ∧
      ∀ message ∈ state.done, message.sessionId ≠ id
  | _ => True

instance (state : MieruUnderlay) : ∀ event, Decidable (state.Fresh event)
  | .openSession _ => inferInstanceAs (Decidable (_ ∧ _))
  | .data _ | .close _ | .ends _ _ | .receive | .hangUp => isTrue trivial

/-- A message is about its own worker's session only, and data reach the worker
of a live session. -/
def Spares (state : MieruUnderlay) : MieruEvent → Prop
  | .receive => ∀ message ∈ state.done.head?,
      (∀ worker, state.sessions.lookup message.sessionId = some worker ∨
        state.workers.lookup message.sessionId = some worker → worker = message.worker) ∧
      ∀ worker, ¬ state.Live message.sessionId worker
  | .data id => state.reading = true → ∀ worker, state.Live id worker →
      (state.step (.data id)).effects = state.effects ++ [.delivered worker]
  | _ => True

/-- What the dispatcher holds is pending, and no number has two pending
workers. -/
structure Settled (state : MieruUnderlay) : Prop where
  joining : state.joining = none
  held : ∀ id worker, state.sessions.lookup id = some worker ∨
    state.workers.lookup id = some worker → state.Pending id worker
  unique : ∀ id first second, state.Pending id first → state.Pending id second → first = second
  started : ∀ id worker, state.Pending id worker → worker < state.next
  ended : ∀ message ∈ state.done, state.running.lookup message.worker = none
  live : state.reading = true → ∀ id worker, state.Live id worker →
    state.sessions.lookup id = some worker

namespace Settled

variable {state : MieruUnderlay} {id : UInt32} (hset : state.Settled)
include hset

variable {message : MieruDone} {worker : Nat}

theorem eq_worker (hmessage : message ∈ state.done)
    (hpending : state.Pending message.sessionId worker) : worker = message.worker :=
  hset.unique _ _ _ hpending (.inr ⟨message, hmessage, rfl, rfl⟩)

theorem not_running (hmessage : message ∈ state.done) :
    state.running.lookup worker ≠ some message.sessionId := by
  intro hrun
  have hended := hset.ended message hmessage
  rw [← hset.eq_worker hmessage (.inl hrun), hrun] at hended
  exact Option.some_ne_none _ hended

theorem spares (event : MieruEvent) : state.Spares event := by
  cases event with
  | receive =>
    intro message hhead
    have hmessage := List.mem_of_mem_head? hhead
    exact ⟨fun worker hheld => hset.eq_worker hmessage (hset.held _ worker hheld),
      fun worker hlive => hset.not_running hmessage hlive.2⟩
  | data id =>
    intro hreading worker hlive
    simp [step, dispatch, hreading, hset.joining, hset.live hreading id worker hlive]
  | openSession | close | ends | hangUp => trivial

theorem hangUp : { state with reading := false }.Settled :=
  ⟨hset.joining, hset.held, hset.unique, hset.started, hset.ended,
    fun hreading => Bool.noConfusion hreading⟩

theorem spawn (hfresh : state.Fresh (.openSession id)) : (state.spawnMieruSession id).Settled := by
  unfold spawnMieruSession
  split
  · exact hset.hangUp
  · obtain ⟨hjoining, hheld, hunique, hstarted, hended, hlive⟩ := hset
    generalize hafter : MieruUnderlay.mk _ _ _ _ _ _ _ _ _ = after
    have hnone (worker : Nat) : ¬ state.Pending id worker := by
      rintro (hrun | ⟨message, hmessage, hid, -⟩)
      · exact hfresh.1 worker id hrun rfl
      · exact hfresh.2 message hmessage hid
    -- the new worker is pending, and the others are as they were
    have hpending (other : UInt32) (worker : Nat) : after.Pending other worker ↔
        state.Pending other worker ∨ other = id ∧ worker = state.next := by
      grind [Pending, lookup_insert_ite]
    constructor
    · grind
    · grind [lookup_insert_ite]
    · grind
    · grind
    · intro message hmessage
      have hlt := hstarted message.sessionId message.worker
      grind [Pending, lookup_insert_ite]
    · grind [Live, Pending, lookup_insert_ite]

theorem close : (state.dispatch (.close id)).Settled := by
  obtain ⟨hjoining, hheld, hunique, hstarted, hended, hlive⟩ := hset
  refine ⟨hjoining, ?_, hunique, hstarted, hended, ?_⟩
  · intro other worker hsession
    exact hheld other worker (hsession.imp_left fun hfound => (of_lookup_erase hfound).2)
  · intro hreading other worker hother
    have hopen := hlive hreading other worker
    grind [Live, dispatch, lookup_erase_ite]

theorem receive : (state.dispatch .receive).Settled := by
  unfold dispatch
  dsimp only
  split
  · exact hset
  next message rest hdone =>
    have hmessage : message ∈ state.done := by simp [hdone]
    have hpast (worker : Nat) : state.running.lookup worker ≠ some message.sessionId :=
      hset.not_running hmessage
    -- the joined worker posted the message, so the join does not wait
    have hown (worker : Nat) (hworker : state.workers.lookup message.sessionId = some worker) :
        state.running.lookup worker = none := by
      rw [hset.eq_worker hmessage (hset.held _ worker (.inr hworker))]
      exact hset.ended message hmessage
    obtain ⟨hjoining, hheld, hunique, hstarted, hended, hlive⟩ := hset
    generalize hafter : MieruUnderlay.mk _ _ _ _ _ _ _ _ _ = after
    have hpending (other : UInt32) (worker : Nat) (hother : after.Pending other worker) :
        state.Pending other worker := by grind [Pending]
    constructor
    · rw [← hafter, Option.filter_eq_none_iff]
      intro worker hworker
      simp [hown worker hworker]
    · intro other worker hother
      have hold := hheld other worker
      grind [Pending, lookup_erase_ite]
    · grind
    · grind
    · grind
    · grind [Live, lookup_erase_ite]

theorem ends (worker : Nat) (failed : Bool) : (state.step (.ends worker failed)).Settled := by
  unfold step
  dsimp only
  split
  · exact hset
  next id hrun =>
    obtain ⟨hjoining, hheld, hunique, hstarted, hended, hlive⟩ := hset
    generalize hafter : MieruUnderlay.mk _ _ _ _ _ _ _ _ _ = after
    -- the worker is pending by its message now
    have hposted : ⟨id, failed, worker⟩ ∈ after.done := by simp [← hafter]
    have hpending (other : UInt32) (number : Nat) :
        after.Pending other number ↔ state.Pending other number := by
      grind [Pending, lookup_erase_ite]
    constructor
    · simp [← hafter, hjoining]
    · grind
    · grind
    · grind
    · grind [lookup_erase_ite]
    · grind [Live, lookup_erase_ite]

theorem step (event : MieruEvent) (hfresh : state.Fresh event) : (state.step event).Settled := by
  cases event with
  | ends worker failed => exact hset.ends worker failed
  | openSession id => exact iteInduction (fun _ => hset.spawn hfresh) fun _ => hset
  | close id => exact iteInduction (fun _ => hset.close) fun _ => hset
  | receive => exact iteInduction (fun _ => hset.receive) fun _ => hset
  | hangUp => exact iteInduction (fun _ => hset.hangUp) fun _ => hset
  | data id =>
    refine iteInduction (fun _ => ?_) fun _ => hset
    obtain ⟨hjoining, hheld, hunique, hstarted, hended, hlive⟩ := hset
    unfold dispatch
    dsimp only
    split <;> exact ⟨hjoining, hheld, hunique, hstarted, hended, hlive⟩

end Settled

/-- Where a number is given again only after the last message about it, no
message touches a later session and no data are lost. -/
theorem spares_of_fresh (events : List MieruEvent)
    (hfresh : Run.Meets step Fresh {} events) (event : MieruEvent) :
    (Run.exec step {} events).Spares event := by
  have hstart : Settled {} := by constructor <;> simp [Pending, Live]
  have hset : Settled (Run.exec step {} events) :=
    Run.exec_invariant (fun _ event hstate => hstate.step event) hstart hfresh
  exact hset.spares event

/-- The number is given again after the last message: the data arrive. -/
theorem spares_reopened :
    (Run.exec step {} [.openSession 1, .close 1, .ends 0 false, .receive, .openSession 1]).Spares
      (.data 1) :=
  spares_of_fresh _ (by decide +kernel) _

/-- The number is given again while the worker of the closed session still
runs: its message takes the later session, and data are refused. -/
theorem late_message_takes_later_session :
    let state := Run.exec step {} [.openSession 1, .close 1, .openSession 1, .ends 0 false]
    ¬ state.Spares .receive ∧ (state.step .receive).joining = some 1 ∧
      (Run.exec step state [.receive, .ends 1 false, .data 1]).effects =
        [.delivered 0, .joined 1, .closeRequest 1] := by
  refine ⟨fun hspares => ?_, by decide +kernel, by decide +kernel⟩
  have hsame := (hspares ⟨1, false, 0⟩ (by decide +kernel)).1 1 (.inl (by decide +kernel))
  exact Nat.one_ne_zero hsame

end MieruUnderlay

end KeliCore
