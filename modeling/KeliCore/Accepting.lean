/-
The loops that take connections, one for each inbound and one for the control
server, beside the controller and the main loop of `run-config`: what an
`accept` that fails does to them.
-/
import KeliCore.Bytes
import KeliCore.Serving

namespace KeliCore

open CoreService Finmap List Option

variable {controller : CoreController} {handles : List ListenerHandle} {after : Host}

namespace Host

/-- A thread that was stopped is not started again: a new one gets a new
identity. -/
structure Succeeds (before after : Host) : Prop where
  next_le : before.next ≤ after.next
  stopped : ∀ id, id < before.next → before.running.lookup id = none →
    after.running.lookup id = none

namespace Succeeds

theorem refl (host : Host) : Succeeds host host := ⟨le_rfl, fun _ _ hid => hid⟩

theorem trans {first second third : Host} (hfirst : Succeeds first second)
    (hsecond : Succeeds second third) : Succeeds first third where
  next_le := hfirst.next_le.trans hsecond.next_le
  stopped id hlt hid := hsecond.stopped id (hlt.trans_le hfirst.next_le) (hfirst.stopped id hlt hid)

variable {before : Host}

theorem of_same (hsame : before.next ≤ after.next ∧
      ∀ id, after.running.lookup id = before.running.lookup id) : Succeeds before after :=
  ⟨hsame.1, fun id _ hid => (hsame.2 id).trans hid⟩

theorem of_spawned (hspawn : before.Spawned after handles) : Succeeds before after where
  next_le := hspawn.next_le
  stopped id hlt hid := by
    rw [hspawn.others, hid]
    intro hmem
    obtain ⟨handle, hhandle, rfl⟩ := mem_map.1 hmem
    have hfresh := (hspawn.fresh handle hhandle).1
    omega

theorem stopThreads (host : Host) (ids : Multiset Nat) : Succeeds host (host.stopThreads ids) := by
  refine ⟨le_rfl, fun id _ hid => ?_⟩
  rw [lookup_stopThreads, hid, ite_self]

end Succeeds

end Host

variable {config : CoreConfig} {env : Externals} {world : World}

namespace CoreService

theorem updateChanged_succeeds {service : CoreService} {host : Host} {updated : CoreService}
    (halign : Aligned env service) (hruns : Runs service host) (hwf : host.WellFormed)
    (hupd : service.updateChangedListenersAndUsers env world host config =
      ((after, updated), .ok true)) : host.Succeeds after := by
  obtain ⟨hvalid, hallow, middle, started, hspawn, hforall, hexchange⟩ :=
    updateChanged_some hupd
  have hchanging : Changing env service host middle config started :=
    ⟨halign, hruns, hwf, hallow, CoreConfig.nodup_of_validate hvalid, hspawn, hforall⟩
  have hloop := hchanging.exchanged
  cases hexchange
  refine ⟨hspawn.next_le.trans_eq hloop.next.symm, fun id hlt hid => ?_⟩
  refine (hchanging.lookup_others ?_).trans (by rw [hid, ite_self])
  -- no listener of the new service has the thread: it would be a new one, or
  -- an old one, which runs
  intro hmem
  obtain ⟨handle, hhandle, rfl⟩ := mem_map.1 hmem
  rcases (hchanging.origin hhandle).2 with hstarted | ⟨-, old, hold, hview⟩
  · have hfresh := (hspawn.fresh handle hstarted).1
    omega
  · have hid' : handle.id = old.id := congrArg Prod.fst hview
    rw [hid', hruns.running old hold] at hid
    cases hid

end CoreService

namespace CoreController

theorem stoppedHost_succeeds (controller : CoreController) :
    controller.host.Succeeds controller.stoppedHost := by
  unfold stoppedHost
  split
  · exact .stopThreads _ _
  · exact .refl _

theorem NeedsRestart.succeeds {host : Host}
    (hrestart : NeedsRestart env world controller config host)
    (hwf : controller.host.WellFormed) : controller.host.Succeeds host := by
  cases hrestart with
  | stopped => exact .refl _
  | declined _ _ _ hupd => exact .of_same (updateChanged_unchanged hupd (by simp) hwf)

theorem Serving.applyConfig_succeeds {result : CoreController × CoreResponse}
    (hserve : Serving env controller) (hpath : ApplyConfigPath env world controller config result) :
    controller.host.Succeeds result.1.host := by
  cases hpath with
  | rejected | noop | users | routes => exact .refl _
  | @changed service updated host _ _ hserv hupd =>
    exact updateChanged_succeeds
      (hserve.aligned service hserv) (hserve.runs service hserv)
      hserve.wellFormed hupd
  | changeFailed _ _ _ hupd =>
    exact .of_same (updateChanged_unchanged hupd (by simp) hserve.wellFormed)
  | @startFailed host after error _ _ hrestart hstart =>
    obtain ⟨handles, hspawn, -⟩ := start_error hstart
    exact (hrestart.succeeds hserve.wellFormed).trans
      ((stoppedHost_succeeds { controller with host }).trans (.of_spawned hspawn))
  | @restarted host after service _ _ hrestart hstart =>
    exact (hrestart.succeeds hserve.wellFormed).trans
      ((stoppedHost_succeeds { controller with host }).trans (.of_spawned (start_ok hstart).2.1))

theorem Serving.step_succeeds (hserve : Serving env controller) (event : Event) :
    controller.host.Succeeds (controller.step env event).host := by
  have hpath := step_path env controller event
  generalize controller.step env event = after at hpath
  cases hpath with
  | config hpath => exact hserve.applyConfig_succeeds hpath
  | routes | delta => exact .refl _
  | stop => exact stoppedHost_succeeds controller
  | other hhost => exact hhost ▸ .refl _

end CoreController

/-- How the thread of an inbound takes connections. -/
inductive AcceptLoop where
  /-- `spawn_tcp_accept_loop` and `spawn_async_tcp_accept_loop` -/
  | tcp
  /-- `run_grpc_listener` -/
  | grpc
  /-- a QUIC endpoint, which has no TCP listener -/
  | quic
deriving DecidableEq

def ListenerSetup.acceptLoop : ListenerSetup → AcceptLoop
  | .vless _ _ stream | .vmess _ stream | .trojan _ _ stream =>
    if stream.network = "grpc" then .grpc else .tcp
  | .tuic _ _ _ | .hysteria2 _ _ _ _ _ _ _ => .quic
  | .naive _ _ quic => if quic then .quic else .tcp
  | .plain _ | .shadowsocks _ _ _ | .anyTls _ _ _ => .tcp

inductive AcceptOutcome where
  | connection
  | timeout
  | error (error : IoError)
deriving DecidableEq

/-- Where a loop stands: before its test of the stop flag, inside `accept`, or
past its end. -/
inductive LoopPhase where
  | top
  | accepting
  | ended
deriving DecidableEq

/-- The test of the stop flag at the top of a loop. -/
def LoopPhase.turn (stop : Bool) : LoopPhase → LoopPhase
  | .top => if stop then .ended else .accepting
  | phase => phase

def AcceptLoop.accepted (stop : Bool) : AcceptLoop → AcceptOutcome → LoopPhase → LoopPhase
  | .tcp, .connection, .accepting => if stop then .ended else .top
  | .tcp, .timeout, .accepting => .top
  | .tcp, .error _, .accepting => .ended
  | .grpc, .connection, .accepting => .top
  | .grpc, .timeout, .accepting => .top
  | .grpc, .error _, .accepting => if stop then .ended else .top
  | _, _, phase => phase

structure AcceptThread where
  loop : AcceptLoop
  phase : LoopPhase := .top

/-- The control server: its stop flag, shared with its handle, and the loop of
`serve_control_listener`. -/
structure ControlServer where
  stop : Bool := false
  phase : LoopPhase := .top

namespace ControlServer

variable {server : ControlServer}

/-- Leaving the loop sets the flag. -/
def enter (server : ControlServer) (phase : LoopPhase) : ControlServer where
  stop := server.stop || phase == .ended
  phase := phase

/-- What `accept` gave, in the loop of the control server, which does not
block. -/
def accepted (server : ControlServer) : AcceptOutcome → ControlServer
  | .connection | .timeout => if server.phase = .accepting then server.enter .top else server
  | .error error =>
    if server.phase = .accepting then
      server.enter (if error.isWouldBlock then .top else .ended)
    else server

def isStopped (server : ControlServer) : Bool :=
  server.stop || server.phase == .ended

end ControlServer

structure RunConfig where
  controller : CoreController := {}
  /-- The threads of the listeners the controller has had.  Threads a failed
  start left behind belong to no listener and are not followed. -/
  threads : HashMap Nat AcceptThread := ∅
  control : Option ControlServer := none
  /-- A `Stop` command was handled, or `stop` of the control handle called. -/
  stopAsked : Bool := false
  /-- The main loop was left. -/
  exited : Bool := false

inductive RunConfigEvent where
  /-- a command, whoever sent it, or the work of a client -/
  | core (event : Event)
  | inboundTurn (id : Nat)
  | inboundAccept (id : Nat) (outcome : AcceptOutcome)
  | controlTurn
  | controlAccept (outcome : AcceptOutcome)
  /-- the worker that answered `Stop` sets the flag -/
  | stopAnswered
  /-- `ControlServerHandle::stop` -/
  | stopHandle
  | mainTurn

def Event.isStop : Event → Bool
  | .command _ .stop => true
  | _ => false

namespace RunConfig

variable {process : RunConfig} {server : ControlServer} {thread : AcceptThread}
  {threads : HashMap Nat AcceptThread}

/-- The stop flag of a listener's thread. -/
def stopFlag (process : RunConfig) (id : Nat) : Bool :=
  (process.controller.host.running.lookup id).isNone

/-- The thread of a new listener begins at the top of its loop. -/
def adopt (threads : HashMap Nat AcceptThread) (handle : ListenerHandle) :
    HashMap Nat AcceptThread :=
  if (threads.lookup handle.id).isSome then threads
  else threads.insert handle.id { loop := handle.setup.acceptLoop }

def advance (process : RunConfig) (id : Nat) (next : AcceptThread → LoopPhase) : RunConfig :=
  match process.threads.lookup id with
  | none => process
  | some thread =>
    { process with
      threads := process.threads.insert id
        { thread with phase := next thread } }

def step (env : Externals) (process : RunConfig) : RunConfigEvent → RunConfig
  | .core event =>
    let controller := process.controller.step env event
    { process with
      controller
      threads :=
        ((controller.service.map CoreService.listeners).getD []).foldl adopt
          process.threads
      stopAsked := process.stopAsked || event.isStop }
  | .inboundTurn id => process.advance id fun thread => thread.phase.turn (process.stopFlag id)
  | .inboundAccept id outcome =>
    process.advance id fun thread => thread.loop.accepted (process.stopFlag id) outcome thread.phase
  | .controlTurn =>
    { process with
      control := process.control.map fun server => server.enter (server.phase.turn server.stop) }
  | .controlAccept outcome =>
    { process with
      control := process.control.map (·.accepted outcome) }
  | .stopAnswered =>
    if process.stopAsked then
      { process with
        control := process.control.map fun server =>
          { server with stop := true } }
    else process
  | .stopHandle =>
    { process with
      control := process.control.map fun server =>
        { server with stop := true }
      stopAsked := true }
  | .mainTurn =>
    { process with
      exited := process.exited || (process.control.map ControlServer.isStopped).getD false }

/-- `run-config` before its first event, with a control server or without. -/
def start (hasControl : Bool) : RunConfig where
  control := if hasControl then some {} else none

/-- Loops end when they are told to: the one of an inbound by its flag, the one
of the control server and the main loop by a `Stop` or `stop`. -/
structure Steady (process : RunConfig) : Prop where
  inbounds : ∀ id thread, process.threads.lookup id = some thread →
    thread.phase = .ended → process.stopFlag id = true
  control : ∀ server, process.control = some server →
    server.phase = .ended → process.stopAsked = true
  listening : process.controller.runtime.status = .running →
    ∀ service, process.controller.service = some service →
      ∀ handle ∈ service.listeners, ∃ thread, process.threads.lookup handle.id = some thread ∧
          thread.phase ≠ .ended
  main : process.exited = true → process.stopAsked = true

/-- No `accept` that is still wanted fails: an error comes where the loop does
not end of it, or has been told to end. -/
def NoAcceptError (process : RunConfig) : RunConfigEvent → Prop
  | .inboundAccept id (.error _) =>
    ∀ thread ∈ process.threads.lookup id, thread.loop = .tcp →
      thread.phase = .accepting → process.stopFlag id = true
  | .controlAccept (.error error) =>
    ∀ server ∈ process.control, server.phase = .accepting →
      error.isWouldBlock = false → process.stopAsked = true
  | _ => True

variable {id : Nat} {handle : ListenerHandle}

theorem lookup_adopt
    (hget : (adopt threads handle).lookup id = some thread) : threads.lookup id = some thread ∨
      thread.phase = .top ∧ handle.id = id := by
  rw [adopt] at hget
  split at hget
  · exact .inl hget
  · rw [lookup_insert_ite] at hget
    split at hget
    case isTrue hid =>
        cases hget
        exact .inr ⟨rfl, hid.symm⟩
    case isFalse => exact .inl hget

theorem adopt_keeps (handle : ListenerHandle) (hget : threads.lookup id = some thread) :
    (adopt threads handle).lookup id = some thread := by
  rw [adopt]
  split
  · exact hget
  next hnew =>
    rw [lookup_insert_ite, if_neg, hget]
    rintro rfl
    simp [hget] at hnew

theorem adopt_covers (threads : HashMap Nat AcceptThread) (handle : ListenerHandle) :
    ∃ thread, (adopt threads handle).lookup handle.id = some thread := by
  rw [adopt]
  split
  next hold => exact isSome_iff_exists.1 hold
  · exact ⟨_, lookup_insert _⟩

theorem lookup_foldl_adopt (hget : (handles.foldl adopt threads).lookup id = some thread) :
    threads.lookup id = some thread ∨ thread.phase = .top ∧ ∃ handle ∈ handles, handle.id = id := by
  induction handles generalizing threads with
  | nil => exact .inl hget
  | cons handle handles ih =>
    rcases ih hget with hold | ⟨htop, other, hother, hid⟩
    · rcases lookup_adopt hold with hold | ⟨htop, hid⟩
      · exact .inl hold
      · exact .inr ⟨htop, handle, mem_cons_self, hid⟩
    · exact .inr ⟨htop, other, .tail _ hother, hid⟩

theorem foldl_adopt_keeps (handles : List ListenerHandle) (hget : threads.lookup id = some thread) :
    (handles.foldl adopt threads).lookup id = some thread := by
  induction handles generalizing threads with
  | nil => exact hget
  | cons handle handles ih => exact ih (adopt_keeps handle hget)

theorem foldl_adopt_covers (threads : HashMap Nat AcceptThread) (hhandle : handle ∈ handles) :
    ∃ thread, (handles.foldl adopt threads).lookup handle.id = some thread := by
  induction handles generalizing threads with
  | nil => simp at hhandle
  | cons first handles ih =>
    rcases mem_cons.1 hhandle with rfl | hrest
    · obtain ⟨thread, hget⟩ := adopt_covers threads handle
      exact ⟨thread, foldl_adopt_keeps handles hget⟩
    · exact ih _ hrest

/-- What every run keeps, whatever `accept` gives. -/
structure Followed (env : Externals) (process : RunConfig) : Prop where
  serving : CoreController.Serving env process.controller
  known : ∀ id thread, process.threads.lookup id = some thread → id < process.controller.host.next
  tracked : ∀ service, process.controller.service = some service →
    ∀ handle ∈ service.listeners, ∃ thread, process.threads.lookup handle.id = some thread

theorem Followed.start (env : Externals) (hasControl : Bool) : Followed env (start hasControl) where
  serving := .fresh env
  known := by simp [RunConfig.start]
  tracked := by simp [RunConfig.start]

theorem Followed.of_threads {before after : RunConfig}
    (hfollowed : Followed env before) (hcontroller : after.controller = before.controller)
    (hthreads : ∀ id, (after.threads.lookup id).isSome =
      (before.threads.lookup id).isSome) : Followed env after where
  serving := hcontroller ▸ hfollowed.serving
  known id thread hget := by
    have hsome : (before.threads.lookup id).isSome := by rw [← hthreads, hget, isSome_some]
    obtain ⟨old, hold⟩ := isSome_iff_exists.1 hsome
    rw [hcontroller]
    exact hfollowed.known id old hold
  tracked service hserv handle hhandle := by
    rw [hcontroller] at hserv
    obtain ⟨thread, hget⟩ := hfollowed.tracked service hserv handle hhandle
    refine isSome_iff_exists.1 ?_
    rw [hthreads, hget, isSome_some]

theorem isSome_lookup_advance (process : RunConfig) (id : Nat)
    (next : AcceptThread → LoopPhase) (other : Nat) :
    ((process.advance id next).threads.lookup other).isSome =
      (process.threads.lookup other).isSome := by
  rw [advance]
  cases hthread : process.threads.lookup id with
  | none => rfl
  | some thread =>
    rw [lookup_insert_ite]
    split
    case isTrue hid => rw [hid, hthread, isSome_some, isSome_some]
    case isFalse => rfl

theorem Followed.core (hfollowed : Followed env process) (event : Event) :
    Followed env (process.step env (.core event)) := by
  have hserve := hfollowed.serving.step event
  refine ⟨hserve, fun id thread hget => ?_, fun service hserv handle hhandle => ?_⟩
  · have hnext := (hfollowed.serving.step_succeeds event).next_le
    rcases lookup_foldl_adopt hget with hold | ⟨-, handle, hhandle, rfl⟩
    · exact (hfollowed.known id thread hold).trans_le hnext
    · cases hserv : (process.controller.step env event).service with
      | none => simp [hserv] at hhandle
      | some service =>
        rw [hserv] at hhandle
        exact hserve.wellFormed handle.id _
          ((hserve.runs service hserv).running handle hhandle)
  · apply foldl_adopt_covers
    rw [show (process.controller.step env event).service = some service from hserv]
    exact hhandle

theorem Followed.step (hfollowed : Followed env process) (event : RunConfigEvent) :
    Followed env (process.step env event) := by
  cases event with
  | core event => exact hfollowed.core event
  | inboundTurn id | inboundAccept id =>
    refine hfollowed.of_threads ?_ (isSome_lookup_advance _ _ _)
    rw [RunConfig.step, advance]
    split <;> rfl
  | stopAnswered =>
    rw [RunConfig.step]
    split
    · exact hfollowed.of_threads rfl fun _ => rfl
    · exact hfollowed
  | controlTurn | controlAccept | stopHandle | mainTurn =>
    exact hfollowed.of_threads rfl fun _ => rfl

/-- The part of `Steady` that runs keep while no `accept` fails; the flag of
the control server is set on request only. -/
structure Told (process : RunConfig) : Prop where
  inbounds : ∀ id thread, process.threads.lookup id = some thread →
    thread.phase = .ended → process.stopFlag id = true
  control : ∀ server, process.control = some server →
    server.isStopped = true → process.stopAsked = true
  main : process.exited = true → process.stopAsked = true

open ControlServer

/-- A listener's thread has its flag unset, so a loop that was not told to end
takes connections. -/
theorem Told.steady (htold : process.Told) (hfollowed : Followed env process) : process.Steady where
  inbounds := htold.inbounds
  control server hserver hended := htold.control server hserver (by simp [isStopped, hended])
  listening _ service hserv handle hhandle := by
    obtain ⟨thread, hget⟩ := hfollowed.tracked service hserv handle hhandle
    refine ⟨thread, hget, fun hended => ?_⟩
    have hflag := htold.inbounds handle.id thread hget hended
    rw [stopFlag, (hfollowed.serving.runs service hserv).running handle hhandle] at hflag
    contradiction
  main := htold.main

theorem Told.core (htold : process.Told) (hfollowed : Followed env process)
    (event : Event) : (process.step env (.core event)).Told := by
  refine ⟨fun id thread hget hended => ?_, fun server hserver hstopped => ?_, fun hexited => ?_⟩
  · rcases lookup_foldl_adopt hget with hold | ⟨htop, -⟩
    · have hflag := htold.inbounds id thread hold hended
      rw [stopFlag, isNone_iff_eq_none] at hflag
      rw [stopFlag, isNone_iff_eq_none]
      exact (hfollowed.serving.step_succeeds event).stopped id
        (hfollowed.known id thread hold) hflag
    · rw [htop] at hended
      contradiction
  · exact Bool.or_eq_true_iff.2 (.inl (htold.control server hserver hstopped))
  · exact Bool.or_eq_true_iff.2 (.inl (htold.main hexited))

theorem Told.advance (htold : process.Told)
    {next : AcceptThread → LoopPhase} (hnext : ∀ thread, process.threads.lookup id = some thread →
      next thread = .ended → process.stopFlag id = true) : (process.advance id next).Told := by
  rw [RunConfig.advance]
  split
  · exact htold
  next thread hthread =>
    refine ⟨fun other found hget hended => ?_, htold.control, htold.main⟩
    rw [lookup_insert_ite] at hget
    split at hget
    case isTrue hid =>
        cases hget
        exact hid ▸ hnext thread hthread hended
    case isFalse => exact htold.inbounds other found hget hended

theorem Told.mapControl (htold : process.Told)
    {change : ControlServer → ControlServer} (hchange : ∀ server, process.control = some server →
      (change server).isStopped = true → process.stopAsked = true) :
    { process with control := process.control.map change }.Told := by
  refine ⟨htold.inbounds, fun server hserver hstopped => ?_, htold.main⟩
  obtain ⟨old, hold, rfl⟩ := map_eq_some_iff.1 hserver
  exact hchange old hold hstopped

variable {phase : LoopPhase}

theorem turn_ended {stop : Bool} (hended : phase.turn stop = .ended) :
    phase = .ended ∨ stop = true := by
  cases phase with
  | top => cases stop <;> simp_all [LoopPhase.turn]
  | accepting => simp [LoopPhase.turn] at hended
  | ended => exact .inl rfl

theorem accepted_ended {stop : Bool} {loop : AcceptLoop} {outcome : AcceptOutcome}
    (hended : loop.accepted stop outcome phase = .ended) : phase = .ended ∨ stop = true ∨
      loop = .tcp ∧ phase = .accepting ∧ ∃ error, outcome = .error error := by
  cases phase with
  | top => cases loop <;> cases outcome <;> simp [AcceptLoop.accepted] at hended
  | ended => exact .inl rfl
  | accepting => cases loop <;> cases outcome <;> cases stop <;> simp_all [AcceptLoop.accepted]

theorem isStopped_enter (hstopped : (server.enter phase).isStopped = true) :
    server.stop = true ∨ phase = .ended := by simpa [enter, isStopped] using hstopped

theorem isStopped_of_stop (hstop : server.stop = true) : server.isStopped = true := by
  simp [isStopped, hstop]

theorem isStopped_of_ended (hended : server.phase = .ended) : server.isStopped = true := by
  simp [isStopped, hended]

/-- The control server's loop ends of what `accept` gave on an error only. -/
theorem isStopped_accepted {outcome : AcceptOutcome}
    (hstopped : (server.accepted outcome).isStopped = true) :
    server.isStopped = true ∨ server.phase = .accepting ∧
      ∃ error, outcome = .error error ∧ error.isWouldBlock = false := by
  cases outcome with
  | connection | timeout =>
    refine .inl ?_
    rw [accepted] at hstopped
    split at hstopped
    · exact isStopped_of_stop ((isStopped_enter hstopped).resolve_right (by decide))
    · exact hstopped
  | error error =>
    rw [accepted] at hstopped
    split at hstopped
    case isTrue hphase =>
        rcases isStopped_enter hstopped with hstop | hended
        · exact .inl (isStopped_of_stop hstop)
        · refine .inr ⟨hphase, error, rfl, ?_⟩
          by_contra hblock
          simp [hblock] at hended
    case isFalse => exact .inl hstopped

theorem Told.step (htold : process.Told) (hfollowed : Followed env process)
    {event : RunConfigEvent} (herror : process.NoAcceptError event) :
    (process.step env event).Told := by
  cases event with
  | core event => exact htold.core hfollowed event
  | inboundTurn id =>
    refine htold.advance fun thread hthread hended => ?_
    rcases turn_ended hended with hended | hflag
    · exact htold.inbounds id thread hthread hended
    · exact hflag
  | inboundAccept id outcome =>
    refine htold.advance fun thread hthread hended => ?_
    rcases accepted_ended hended with hended | hflag | ⟨hloop, hphase, error, rfl⟩
    · exact htold.inbounds id thread hthread hended
    · exact hflag
    · exact herror thread hthread hloop hphase
  | controlTurn =>
    refine htold.mapControl fun server hserver hstopped => ?_
    apply htold.control server hserver
    rcases isStopped_enter hstopped with hstop | hended
    · exact isStopped_of_stop hstop
    · rcases turn_ended hended with hended | hstop
      · exact isStopped_of_ended hended
      · exact isStopped_of_stop hstop
  | controlAccept outcome =>
    refine htold.mapControl fun server hserver hstopped => ?_
    rcases isStopped_accepted hstopped with hold | ⟨hphase, error, rfl, hblock⟩
    · exact htold.control server hserver hold
    · exact herror server hserver hphase hblock
  | stopAnswered =>
    rw [RunConfig.step]
    split
    next hasked => exact htold.mapControl fun _ _ _ => hasked
    · exact htold
  | stopHandle => exact ⟨htold.inbounds, fun _ _ _ => rfl, fun _ => rfl⟩
  | mainTurn =>
    refine ⟨htold.inbounds, htold.control, fun hexited => ?_⟩
    rcases Bool.or_eq_true_iff.1 hexited with hexited | hstopped
    · exact htold.main hexited
    · cases hcontrol : process.control with
      | none => simp [hcontrol] at hstopped
      | some server =>
        rw [hcontrol] at hstopped
        exact htold.control server hcontrol hstopped

theorem not_steady_of_error {event : RunConfigEvent} (herror : ¬ process.NoAcceptError event) :
    ¬ (process.step env event).Steady := by
  intro hsteady
  apply herror
  cases event with
  | core | inboundTurn | controlTurn | stopAnswered | stopHandle | mainTurn => trivial
  | inboundAccept id outcome =>
    cases outcome with
    | connection | timeout => trivial
    | error error =>
      intro thread hthread hloop hphase
      have hfound : (process.threads.lookup id) = some thread := hthread
      have hstep : process.step env (.inboundAccept id (.error error)) = { process with
            threads := process.threads.insert id { thread with phase := .ended } } := by
        simp only [step, advance, hfound, hloop, hphase, AcceptLoop.accepted]
      rw [hstep] at hsteady
      exact hsteady.inbounds id _ (lookup_insert _) rfl
  | controlAccept outcome =>
    cases outcome with
    | connection | timeout => trivial
    | error error =>
      intro server hserver hphase hblock
      refine hsteady.control (server.enter .ended) ?_ rfl
      have hfound : process.control = some server := hserver
      simp [step, hfound, accepted, hphase, hblock]

/-- Every loop ends only when told to, in every state of a run, exactly when no
`accept` fails while its loop is wanted. -/
theorem steady_iff_no_accept_error (env : Externals) (hasControl : Bool)
    (events : List RunConfigEvent) : (∀ past, past <+: events →
      (Run.exec (step env) (start hasControl) past).Steady) ↔
    Run.Meets (step env) NoAcceptError (start hasControl) events := by
  symm
  refine @Run.meets_iff_always _ _ (step env) NoAcceptError
    (fun process => Followed env process ∧ process.Told) Steady
    (fun process hproc => hproc.2.steady hproc.1) (fun process event hproc herror =>
      ⟨hproc.1.step event, hproc.2.step hproc.1 herror⟩)
    (fun process event _ herror => not_steady_of_error herror)
    (start hasControl) ⟨.start env hasControl, ?_⟩ events
  refine ⟨by simp [start], fun server hserver hstopped => ?_, by simp [start]⟩
  cases hasControl with
  | false => simp [start] at hserver
  | true =>
    obtain rfl : { } = server := some.inj hserver
    simp [isStopped] at hstopped

end RunConfig

def Sample.aborted : IoError where
  kind := .connectionAborted
  message := "Software caused connection abort"

open Sample

def startSocks : Event :=
  .command (Sample.world []) (.applyConfig
    (Sample.config [Sample.inbound "a" .socks 1000 [Sample.user 1 "alice"]]))

/-- One failed `accept` each: the controller goes on reporting a listener that
takes no more connections, and `run-config` ends though nothing asked it
to. -/
theorem RunConfig.accept_errors_end_loops :
    let process := Run.exec (RunConfig.step externals) (RunConfig.start true)
      [.core startSocks, .inboundTurn 0,
       .inboundAccept 0 (.error aborted), .controlTurn,
       .controlAccept (.error aborted), .mainTurn]
    process.controller.runtime.status = .running ∧
    (process.controller.service.map fun service =>
      service.listeners.map ListenerHandle.id) = some [0] ∧
    process.stopFlag 0 = false ∧
    (process.threads.lookup 0).map AcceptThread.phase = some .ended ∧
    process.exited = true ∧ process.stopAsked = false := by decide +kernel

end KeliCore
