/-
How the listeners take a connection from its login to its relay: what each
handler asks of the stores that all listeners share, in its order, and what
the loop that then moves the bytes asks of the limiter.  A revoked limiter
stops a loop in the directions in which it is asked, and in no other.
-/
import KeliCore.Config
import KeliCore.CopyRelay
import KeliCore.PollRelay

namespace KeliCore

open Relaying List

def relayWebsocketTlsStream : PollPolicy where
  checksRevocation := false
  watchesIdle := true
  chargesDownload := false
  refusalEndsBoth := true
  readErrorEndsBoth := true
  leavesEarly := true
  writesAll := true

/-- `relay_websocket_async_stream_stats`; a turn serves the socket that is
ready first, and the other one blocks. -/
def relayWebsocketAsyncStream : PollPolicy where
  checksRevocation := true
  watchesIdle := true
  chargesDownload := false
  refusalEndsBoth := true
  readErrorEndsBoth := true
  leavesEarly := true
  writesAll := true

/-- Whether the limiter is asked, for each chunk or at the start of a turn. -/
def PollPolicy.asks (policy : PollPolicy) : Direction → Bool
  | .upload => true
  | .download => policy.checksRevocation || policy.chargesDownload

/-- What a polling relay meets while its limiter is revoked. -/
def PollInput.refuses : PollInput → Bool
  | .head revoked _ => revoked
  | .client _ granted _ => !granted
  | .remote _ granted _ => !granted
  | .rest _ _ => true

/-- What a copy loop meets while its limiter is revoked. -/
def CopyInput.refuses : CopyInput → Bool
  | .checked _ report => report
  | .granted _ answer => !answer
  | .read _ _ => true
  | .revoked _ => true
  | .written _ _ => true
  | .halfClosed => true

/-- A relay that asks for the direction's chunks one by one may stand anywhere
in its loop; one that only asks at the start of a turn stands there. -/
def PollState.Facing (policy : PollPolicy) (direction : Direction) (state : PollState) : Prop :=
  direction = .upload ∨ policy.chargesDownload = true ∨ (policy.checksRevocation = true ∧
      (state.phase = .head ∨ ∃ result, state.phase = .ended result))

theorem not_carries_of_refuses {policy : PollPolicy} {direction : Direction}
    {state : PollState} (hfacing : state.Facing policy direction)
    {input : PollInput} (hrefuses : input.refuses = true) {bytes : Nat}
    {charges : Bool} {write : Write} :
    ¬ Carries policy true state input direction bytes charges write := by
  rintro ⟨-, hcarries⟩
  cases direction with
  | upload =>
    obtain ⟨rfl, -, granted, rfl, hgranted⟩ := hcarries
    simp [PollInput.refuses, hgranted rfl] at hrefuses
  | download =>
    obtain ⟨hcharges, hphase, granted, rfl, hgranted⟩ := hcarries
    rcases hfacing with hupload | hasked | ⟨-, hhead | ⟨result, hended⟩⟩
    · contradiction
    · have htrue : granted = true := hgranted (by rw [hcharges, hasked]; rfl)
      simp [PollInput.refuses, htrue] at hrefuses
    · rw [hhead] at hphase
      contradiction
    · rw [hended] at hphase
      contradiction

variable {policy : PollPolicy} {state : PollState} {direction : Direction}

theorem pollStep_facing {input : PollInput} (hfacing : state.Facing policy direction)
    (hrefuses : input.refuses = true) :
    (pollStep policy true state input).Facing policy direction := by
  rcases hfacing with hupload | hasked | ⟨hchecks, hplace⟩
  · exact .inl hupload
  · exact .inr (.inl hasked)
  · refine .inr (.inr ⟨hchecks, ?_⟩)
    rcases hplace with hhead | ⟨result, hended⟩
    · cases input with
      | head revoked idle =>
        simp only [PollInput.refuses] at hrefuses
        simp [pollStep, hhead, hchecks, hrefuses, PollState.emit]
      | _ => simp [pollStep, hhead]
    · refine .inr ⟨result, ?_⟩
      simp [pollStep, hended]

/-- A polling relay hands over no chunk of a direction in which it asks its
limiter, from the moment on at which that refuses. -/
theorem poll_stops {inputs : List PollInput}
    (hasks : policy.asks direction = true) (hphase : state.phase = .head)
    (hinputs : ∀ input ∈ inputs, input.refuses = true) :
    Halts direction state.trace (Run.exec (pollStep policy true) state inputs).trace := by
  refine @exec_halts _ _ _ _ PollState.trace (PollState.Facing policy direction)
    PollInput.refuses direction ?_ state ?_ inputs hinputs
  · intro state input hfacing hrefuses
    refine ⟨pollStep_facing hfacing hrefuses, ?_⟩
    have hcarries := @not_carries_of_refuses policy direction state hfacing input hrefuses
    cases (pollStep_turn policy true state input).effect with
    | quiet events hevents htrace =>
      rw [htrace]
      exact hevents.halts direction _
    | passed other bytes charges write result _ _ hother htrace
    | failed other bytes charges hother htrace =>
      have hne : direction ≠ other := by
        rintro rfl
        exact hcarries hother
      refine ⟨_, htrace, fun count hmem => ?_⟩
      cases charges <;> simp [chunkEvents, hne] at hmem
    | gaveUp _ _ _ htrace =>
      rw [htrace]
      exact .refl direction _
  · cases direction with
    | upload => exact .inl rfl
    | download =>
      rcases Bool.or_eq_true_iff.1 hasks with hchecks | hcharges
      · exact .inr (.inr ⟨hchecks, .inl hphase⟩)
      · exact .inr (.inl hcharges)

/-- A relay that asks at the start of a turn only. -/
theorem poll_stops_download : Halts .download ({} : PollState).trace
    (Run.exec (pollStep relayWebsocketAsyncStream true) {}
      [.head true false, .remote (.got 5) false .all]).trace :=
  poll_stops rfl rfl (by decide)

/-- So does a pair of copy loops, wherever they stand; what was already handed
over may still be written. -/
theorem copy_stops {inputs : List CopyInput}
    (policy : CopyPolicy) (direction : Direction) (state : CopyState)
    (hinputs : ∀ input ∈ inputs, input.refuses = true) :
    Halts direction state.trace (Run.exec (copyStep policy true) state inputs).trace := by
  refine @exec_halts _ _ _ _ CopyState.trace (fun _ => True)
    CopyInput.refuses direction ?_ state trivial inputs hinputs
  intro state input _ hrefuses
  refine ⟨trivial, ?_⟩
  rw [copyStep]
  cases hended : state.ended with
  | some result => exact .refl direction _
  | none =>
    cases copyAdvance_effect policy true hended input with
    | quiet events hevents htrace =>
      rw [htrace]
      exact hevents.halts direction _
    | granted other bytes _ hinput =>
      rw [hinput] at hrefuses
      simp [CopyInput.refuses] at hrefuses
    | handed other bytes hheld => contradiction
    | written other bytes htrace =>
      rw [htrace]
      exact ⟨_, rfl, by simp⟩
    | failed events _ hevents htrace =>
      rw [htrace]
      refine ⟨events, rfl, fun bytes hmem => ?_⟩
      rcases hevents with rfl | ⟨other, count, rfl⟩ <;> simp at hmem

theorem copy_stops_upload : Halts .upload (copyStart (relayTcpBidirectional false) true).trace
    (Run.exec (copyStep (relayTcpBidirectional false) true)
      (copyStart (relayTcpBidirectional false) true)
      [.checked .upload true, .granted .download false]).trace :=
  copy_stops _ _ _ (by decide)

/-- What moves the bytes of a relay. -/
inductive RelayLoop where
  /-- the payload that came with the request: `wait_for`, then `write_all` -/
  | initial
  | poll (policy : PollPolicy)
  | copy (policy : CopyPolicy)
  /-- `copy_count_best_effort_limited` in a thread for each direction -/
  | copyPair
  /-- a task that also waits for the revocation, or asks for it at the start
  of each turn -/
  | watching
  /-- the frames of an AnyTLS session, and a worker for the downlink of each
  of its streams that is not given the limiter -/
  | workers
deriving DecidableEq

/-- Whether the limiter is asked, for each chunk or at the start of a turn. -/
def RelayLoop.asks : RelayLoop → Direction → Bool
  | .poll policy, direction => policy.asks direction
  | .workers, direction => direction == .upload
  | .initial, _ => true
  | .copy _, _ => true
  | .copyPair, _ => true
  | .watching, _ => true

/-- What a handler does between its login and its end, as far as others can
see it: the dial of the target and the answers to the client are left out. -/
inductive HandlerStep where
  /-- `request_user`, which may find nobody -/
  | requestUser
  /-- the same, where it is an error to find nobody -/
  | requireUser
  /-- `limiter_for`, or `limiter_for_limited` -/
  | fetch (limited : Bool)
  /-- `register_tcp_connection` -/
  | register
  | transfer (loop : RelayLoop)
deriving DecidableEq

namespace HandlerStep

def isLookup : HandlerStep → Bool
  | requestUser => true
  | requireUser => true
  | fetch _ => false
  | register => false
  | transfer _ => false

def isTransfer : HandlerStep → Bool
  | transfer _ => true
  | requestUser => false
  | requireUser => false
  | fetch _ => false
  | register => false

/-- A loop that is stopped by a revoked limiter in both directions. -/
def heeds : HandlerStep → Bool
  | transfer loop => loop.asks .upload && loop.asks .download
  | requestUser => true
  | requireUser => true
  | fetch _ => true
  | register => true

end HandlerStep

/-- The handlers of the listeners for connections that relay TCP, with what
of the request decides their way. -/
inductive EntryPoint where
  | socks
  | httpConnect
  | httpPlain
  | shadowsocks
  | vmessTcp
  /-- `handle_split_client_with_ip`: h2, gRPC and WebSocket streams -/
  | vmessSplit
  | vmessTls (security : VmessSecurity) (options : UInt8)
  | vmessTlsWebSocket (security : VmessSecurity) (options : UInt8)
  | trojanTcp
  | trojanSplit
  | trojanWebSocket
  | trojanTls
  | trojanTlsWebSocket
  | trojanTlsWebSocketAsync
  | vlessTcp (vision : Bool)
  | vlessTcpAsync (vision : Bool)
  | vlessSplit (vision : Bool)
  | vlessWebSocket
  | vlessTls (vision : Bool)
  | vlessTlsAsync (vision : Bool)
  | vlessTlsWebSocket
  | vlessTlsWebSocketAsync
  | anyTls
  /-- a session of an underlay, whose registration counts as its own -/
  | mieru
  /-- a tunnel of an HTTP/2 or HTTP/3 connection -/
  | naive
  /-- a QUIC connection with all its streams -/
  | hysteria2
  | tuic

namespace EntryPoint

def protocol : EntryPoint → Protocol
  | socks => .socks
  | httpConnect | httpPlain => .http
  | shadowsocks => .shadowsocks
  | vmessTcp | vmessSplit | vmessTls _ _ | vmessTlsWebSocket _ _ => .vmess
  | trojanTcp | trojanSplit | trojanWebSocket | trojanTls
  | trojanTlsWebSocket | trojanTlsWebSocketAsync => .trojan
  | vlessTcp _ | vlessTcpAsync _ | vlessSplit _ | vlessWebSocket
  | vlessTls _ | vlessTlsAsync _ | vlessTlsWebSocket
  | vlessTlsWebSocketAsync => .vless
  | anyTls => .anyTls
  | mieru => .mieru
  | naive => .naive
  | hysteria2 => .hysteria2
  | tuic => .tuic

/-- The generic relay of two TCP streams, as it is run with a limiter. -/
def relayTcp : HandlerStep := .transfer (.copy (relayTcpBidirectional false))

/-- The steps of each handler after its login, in the order of the source. -/
def script : EntryPoint → List HandlerStep
  | socks | httpConnect | trojanTcp => [.requestUser, .fetch true, .register, relayTcp]
  | httpPlain =>
    -- the request is forwarded before the connection is registered
    [.requestUser, .fetch true, .transfer .initial, .register, .transfer .copyPair]
  | shadowsocks => [.fetch true, .register, .transfer .initial, .transfer .copyPair]
  | vmessTcp => [.requestUser, .fetch true, .register, .transfer .copyPair]
  | vmessSplit => [.requestUser, .fetch true, .transfer .copyPair]
  | vmessTls security options | vmessTlsWebSocket security options =>
    [.requestUser, .fetch true, .transfer (.poll (relaySingleIo security options))]
  | trojanSplit => [.requestUser, .fetch true, .register, .transfer .copyPair]
  | trojanWebSocket | vlessWebSocket =>
    [.requestUser, .fetch true, .register, .transfer (.poll relayPlainWebsocket)]
  | trojanTls => [.requestUser, .fetch true, .transfer (.poll relayTlsStream)]
  | trojanTlsWebSocket =>
    [.requestUser, .fetch true, .transfer .initial, .transfer (.poll relayWebsocketTlsStream)]
  | trojanTlsWebSocketAsync =>
    [.requestUser, .fetch true, .transfer .initial, .transfer (.poll relayWebsocketAsyncStream)]
  | vlessTcp true => [.requestUser, .fetch true, .register, .transfer .copyPair]
  | vlessTcp false => [.requestUser, .fetch true, .register, relayTcp]
  | vlessTcpAsync true | vlessTlsAsync false =>
    -- these flows are refused
    [.requestUser, .fetch true]
  | vlessTcpAsync false | vlessTlsAsync true =>
    [.requestUser, .fetch true, .register, .transfer .watching]
  | vlessSplit true => [.requestUser, .fetch true, .transfer .copyPair]
  | vlessSplit false => [.requestUser, .fetch true, .register, .transfer .copyPair]
  | vlessTls true => [.requestUser, .fetch true, .transfer .watching]
  | vlessTls false => [.requestUser, .fetch true, .transfer (.poll relayTlsStream)]
  | vlessTlsWebSocket => [.requestUser, .fetch true, .transfer (.poll relayWebsocketTlsStream)]
  | vlessTlsWebSocketAsync =>
    [.requestUser, .fetch true, .transfer (.poll relayWebsocketAsyncStream)]
  | anyTls => [.register, .fetch true, .transfer .workers]
  | mieru => [.register, .fetch false, .transfer .initial, .transfer .copyPair]
  | naive => [.requireUser, .fetch true, .register, .transfer .copyPair]
  | hysteria2 | tuic => [.fetch false, .fetch true, .transfer .watching]

/-- What comes before the first byte. -/
def opening (entry : EntryPoint) : List HandlerStep :=
  entry.script.takeWhile fun step => !step.isTransfer

def registersFirst (entry : EntryPoint) : Bool :=
  entry.opening.contains .register

/-- The limiter is fetched whether or not the user has a limit. -/
def alwaysFetches (entry : EntryPoint) : Bool :=
  entry.opening.contains (.fetch false)

def heeds (entry : EntryPoint) : Bool :=
  entry.script.all HandlerStep.heeds

theorem exists_fetch (entry : EntryPoint) : ∃ limited, .fetch limited ∈ entry.opening := by
  have hsteps : .fetch true ∈ entry.opening ∨ .fetch false ∈ entry.opening := by
    cases entry with
    | vlessTcp vision | vlessTcpAsync vision | vlessSplit vision | vlessTls vision
    | vlessTlsAsync vision => cases vision <;> decide
    | vmessTls security options | vmessTlsWebSocket security options =>
      simp [opening, script, HandlerStep.isTransfer]
    | _ => decide
  rcases hsteps with hfetch | hfetch
  · exact ⟨true, hfetch⟩
  · exact ⟨false, hfetch⟩

variable {step : HandlerStep}

/-- A handler looks its user up again at the very start, or not at all. -/
theorem isLookup_tail (entry : EntryPoint)
    (hstep : step ∈ entry.script.tail) : step.isLookup = false := by
  have hnone : entry.script.tail.all (fun step => !step.isLookup) = true := by
    cases entry with
    | vlessTcp vision | vlessTcpAsync vision | vlessSplit vision | vlessTls vision
    | vlessTlsAsync vision => cases vision <;> decide
    | vmessTls security options | vmessTlsWebSocket security options =>
      simp [script, HandlerStep.isLookup]
    | _ => decide
  simpa using all_eq_true.1 hnone step hstep

theorem mem_of_mem_opening {past rest : List HandlerStep} {loop : RelayLoop} {entry : EntryPoint}
    (hscript : past ++ .transfer loop :: rest = entry.script)
    (hstep : step ∈ entry.opening) : step ∈ past := by
  rw [opening, ← hscript] at hstep
  clear hscript
  induction past with
  | nil => simp [HandlerStep.isTransfer] at hstep
  | cons first past ih =>
    rw [cons_append, takeWhile_cons] at hstep
    split at hstep
    · rcases mem_cons.1 hstep with rfl | hstep
      · exact .head _
      · exact .tail _ (ih hstep)
    · simp at hstep

end EntryPoint

end KeliCore
