/-
The loop that serves the UDP datagrams of one QUIC connection: parse, put the
fragments together, handle the message.  The protocols differ in what they
parse, in how they handle a message, and in whether an error ends the loop.
-/
import KeliCore.Reassembly
import KeliCore.Routing
import KeliCore.Run

namespace KeliCore

/-- What handling a message did; the user, the node and the client's address of
a record are the connection's. -/
inductive QuicUdpEffect where
  | sent (socket : Nat) (payload : List UInt8) (target : SocketAddr)
  | replied (source : SocketAddr) (response : List UInt8)
  | recorded (upload download : Nat)
  /-- added to what a session has to record -/
  | counted (socket upload : Nat)

/-- How a message was handled, if without an error. -/
inductive UdpHandling where
  | unaddressed
  | blocked
  /-- by a revoked limiter, a closed association or a reply that has no room -/
  | withheld
  | relayed
deriving DecidableEq

/-- What became of a datagram. -/
inductive UdpOutcome where
  /-- the loop had ended -/
  | unread
  | malformed
  /-- it is part of a message, or a command without one -/
  | taken
  | handled (handling : UdpHandling)
  | failed (error : IoError)
deriving DecidableEq

/-- A failure the datagram itself causes. -/
def UdpOutcome.isFault : UdpOutcome → Bool
  | malformed | handled .unaddressed | handled .blocked | failed _ => true
  | _ => false

/-- The clock, and the answers a datagram meets while it is handled. -/
structure QuicWorld where
  /-- how the stream of the datagram, if it has one, broke off -/
  streamError : Option IoError := none
  pushTime : Nat := 0
  now : Nat := 0
  /-- once names were looked up -/
  later : Nat := 0
  routes : List RouteRule := []
  matching : RouteMatching
  /-- the limiters, if there are any, let the bytes through -/
  admitsUpload : Nat → Bool := fun _ => true
  admitsDownload : Nat → Bool := fun _ => true
  sendUdpOutbound : OutboundConfig → SocksTarget → List UInt8 →
    Except IoError (SocketAddr × List UInt8)
  /-- the reply to the client, and whether it was sent -/
  sendReply : SocketAddr → List UInt8 → Except IoError Bool
  resolveUdpTarget : SocksTarget → Except IoError SocketAddr
  /-- there is a place among the UDP sessions of all connections -/
  permit : Bool := true
  bindUdpSocket : IpAddr → Except IoError Unit
  sendTo : Nat → List UInt8 → SocketAddr → Except IoError Unit

/-- What a message that was handled leaves: the table, what was done, and the
result. -/
structure HandledUdp (table : Type) where
  table : table
  effects : List QuicUdpEffect := []
  result : Except IoError UdpHandling

/-- The branch of `handle_udp_packet` and `handle_udp_message` for a route with
an outbound. -/
def QuicWorld.relayOutbound {table : Type} (world : QuicWorld) (state : table)
    (outbound : OutboundConfig) (target : SocksTarget) (payload : List UInt8) : HandledUdp table :=
  if !world.admitsUpload payload.length then ⟨state, [], .ok .withheld⟩
  else
    match world.sendUdpOutbound outbound target payload with
    | .ok (source, response) =>
      if !world.admitsDownload response.length then
        ⟨state, [], .ok .withheld⟩
      else
        match world.sendReply source response with
        | .error error => ⟨state, [], .error error⟩
        | .ok false => ⟨state, [], .ok .withheld⟩
        | .ok true =>
          ⟨state, [.replied source response,
            .recorded payload.length response.length], .ok .relayed⟩
    | .error error =>
      if error.kind == .wouldBlock || error.kind == .timedOut then
        ⟨state, [.recorded payload.length 0], .ok .relayed⟩
      else ⟨state, [], .error error⟩

theorem QuicWorld.relayOutbound_spec {table : Type} (world : QuicWorld)
    (state : table) (outbound : OutboundConfig) (target : SocksTarget) (payload : List UInt8) :
    let handled := world.relayOutbound state outbound target payload
    handled.table = state ∧ (handled.result = .ok .withheld ∨
      handled.result = .ok .relayed ∨ ∃ error, handled.result = .error error) := by
  dsimp only
  rw [relayOutbound]
  split
  · exact ⟨rfl, .inl rfl⟩
  split
  · split
    · exact ⟨rfl, .inl rfl⟩
    split
    · exact ⟨rfl, .inr (.inr ⟨_, rfl⟩)⟩
    · exact ⟨rfl, .inl rfl⟩
    · exact ⟨rfl, .inr (.inl rfl)⟩
  · split
    · exact ⟨rfl, .inr (.inl rfl)⟩
    · exact ⟨rfl, .inr (.inr ⟨_, rfl⟩)⟩

/-- A protocol for UDP over QUIC; its messages have keys in `κ` and addresses
in `τ`. -/
structure QuicUdp (κ τ table : Type) [DecidableEq κ] where
  /-- why the bytes of a datagram cannot be read -/
  readError : QuicWorld → List UInt8 → Option IoError := fun _ _ => none
  limits : Reassembly.Limits
  joining : Reassembly.Joining τ
  fragmentError : Reassembly.Fault → IoError
  /-- a message or part of one, or what another command does -/
  parse : List UInt8 → Except IoError (Reassembly.Part κ τ UInt8 ⊕ (table → table))
  handle : table → QuicWorld → Reassembly.Part κ τ UInt8 → HandledUdp table
  /-- the loop goes on after a message that could not be handled -/
  swallows : Bool
  cleanup : table → Nat → table

/-- The locals of `handle_udp_datagrams`, and the result once it has
returned. -/
structure UdpLoop (κ τ table : Type) where
  table : table
  fragments : Reassembly.Store κ τ UInt8 := ∅
  returned : Option (Except IoError Unit) := none

/-- What the loop meets; tasks beside it may change the table. -/
inductive UdpLoopEvent (table : Type) where
  | datagram (input : List UInt8) (world : QuicWorld)
  | tick (now : Nat)
  | beside (state : table)
  | over (result : Except IoError Unit)

namespace QuicUdp

variable {κ τ table : Type} [DecidableEq κ] (protocol : QuicUdp κ τ table)

def takeMessage (loop : UdpLoop κ τ table) (world : QuicWorld)
    (message : Reassembly.Part κ τ UInt8) : UdpLoop κ τ table × UdpOutcome × List QuicUdpEffect :=
  let handled := protocol.handle loop.table world message
  match handled.result with
  | .ok handling => ({ loop with table := handled.table }, .handled handling, handled.effects)
  | .error error =>
    ({ loop with
        table := handled.table
        returned := if protocol.swallows then none else some (.error error) },
      .failed error, handled.effects)

/-- The loop's turn on the bytes of a datagram. -/
def takeRead (loop : UdpLoop κ τ table) (input : List UInt8) (world : QuicWorld) :
    UdpLoop κ τ table × UdpOutcome × List QuicUdpEffect :=
  match protocol.parse input with
  | .error _ => (loop, .malformed, [])
  | .ok (.inr change) => ({ loop with table := change loop.table }, .taken, [])
  | .ok (.inl part) =>
    match loop.fragments.push protocol.limits protocol.joining world.pushTime part with
    | (fragments, .error fault) =>
      ({ loop with
          fragments
          returned := some (.error (protocol.fragmentError fault)) },
        .failed (protocol.fragmentError fault), [])
    | (fragments, .ok none) => ({ loop with fragments }, .taken, [])
    | (fragments, .ok (some message)) => protocol.takeMessage { loop with fragments } world message

/-- The loop's turn on a datagram. -/
def take (loop : UdpLoop κ τ table) (input : List UInt8) (world : QuicWorld) :
    UdpLoop κ τ table × UdpOutcome × List QuicUdpEffect :=
  match loop.returned with
  | some _ => (loop, .unread, [])
  | none =>
    match protocol.readError world input with
    | some error => ({ loop with returned := some (.error error) }, .failed error, [])
    | none => protocol.takeRead loop input world

def step (loop : UdpLoop κ τ table) : UdpLoopEvent table → UdpLoop κ τ table
  | .datagram input world => (protocol.take loop input world).1
  | .tick now =>
    { loop with
      table := protocol.cleanup loop.table now
      fragments := loop.fragments.pruneExpired protocol.limits now }
  | .beside state => { loop with table := state }
  | .over result =>
    match loop.returned with
    | some _ => loop
    | none => { loop with returned := some result }

/-- The loop goes on after the datagram, and whatever comes later is processed
as it would have been without it. -/
def Isolated (loop : UdpLoop κ τ table) (input : List UInt8) (world : QuicWorld) : Prop :=
  let after := protocol.step loop (.datagram input world)
  after.returned = none ∧ ∀ future,
    Run.exec protocol.step after future = Run.exec protocol.step loop future ∧
    ∀ later world, (protocol.take (Run.exec protocol.step after future) later
      world).2 = (protocol.take (Run.exec protocol.step loop future) later world).2

variable {protocol} {loop : UdpLoop κ τ table} {input : List UInt8} {world : QuicWorld}

theorem isolated_iff (hrun : loop.returned = none) : protocol.Isolated loop input world ↔
      (protocol.take loop input world).1 = loop := by
  constructor
  · rintro ⟨-, hsame⟩
    exact (hsame []).1
  · intro hsame
    have hstep : protocol.step loop (.datagram input world) = loop := hsame
    rw [Isolated, hstep]
    exact ⟨hrun, fun future => ⟨rfl, fun _ _ => rfl⟩⟩

theorem takeMessage_eq_iff (hrun : loop.returned = none) (message : Reassembly.Part κ τ UInt8) :
    let handled := protocol.handle loop.table world message
    (protocol.takeMessage loop world message).1 = loop ↔
      handled.table = loop.table ∧ (protocol.swallows = true ∨
        ∃ handling, handled.result = .ok handling) := by
  obtain ⟨state, fragments, returned⟩ := loop
  cases hrun
  dsimp only [takeMessage]
  cases (protocol.handle state world message).result with
  | ok handling | error error => simp

theorem fragments_takeMessage (message : Reassembly.Part κ τ UInt8) :
    (protocol.takeMessage loop world message).1.fragments = loop.fragments := by
  dsimp only [takeMessage]
  split <;> rfl

/-- A fault leaves no trace if the datagram is not understood, or is a whole
message that leaves the table as it was and does not end the loop. -/
theorem takeRead_eq_iff (hrun : loop.returned = none)
    (hfault : (protocol.takeRead loop input world).2.1.isFault = true) :
    (protocol.takeRead loop input world).1 = loop ↔ (∃ error, protocol.parse input = .error error) ∨
      ∃ message, protocol.parse input = .ok (.inl message) ∧ message.isWhole = true ∧
        (protocol.handle loop.table world message).table = loop.table ∧
        (protocol.swallows = true ∨ ∃ handling, (protocol.handle loop.table world message).result =
            .ok handling) := by
  obtain ⟨state, fragments, returned⟩ := loop
  cases hrun
  rw [takeRead] at hfault ⊢
  dsimp only at hfault ⊢
  cases hparse : protocol.parse input with
  | error error => simp
  | ok parsed =>
    rw [hparse] at hfault
    cases parsed with
    | inr change => simp [UdpOutcome.isFault] at hfault
    | inl part =>
      dsimp only at hfault ⊢
      simp only [reduceCtorEq, exists_false, false_or, Except.ok.injEq,
        Sum.inl.injEq, exists_eq_left']
      cases hwhole : part.isWhole with
      | true =>
        rw [Reassembly.Store.push_whole hwhole, and_iff_right rfl]
        exact takeMessage_eq_iff rfl part
      | false =>
        refine iff_of_false ?_ (by simp)
        split at hfault
        · exact fun hsame => absurd (congrArg UdpLoop.returned hsame) nofun
        · exact absurd hfault nofun
        next after message hpush =>
          obtain ⟨hheld, hgone⟩ := Reassembly.Store.group_of_push hwhole hpush
          intro hsame
          have hafter := congrArg UdpLoop.fragments hsame
          rw [fragments_takeMessage] at hafter
          dsimp only at hafter
          exact hheld (hafter ▸ hgone)

/-- A turn leaves the loop as it was only if the datagram could be read. -/
theorem take_eq_iff_read (hrun : loop.returned = none) :
    (protocol.take loop input world).1 = loop ↔ protocol.readError world input = none ∧
      (protocol.takeRead loop input world).1 = loop := by
  rw [take, hrun]
  dsimp only
  cases protocol.readError world input with
  | none => simp
  | some error =>
    refine iff_of_false (fun hsame => ?_) (by simp)
    have hreturned := congrArg UdpLoop.returned hsame
    rw [hrun] at hreturned
    contradiction

theorem take_of_read (hrun : loop.returned = none) (hread : protocol.readError world input = none) :
    protocol.take loop input world = protocol.takeRead loop input world := by
  rw [take, hrun]
  dsimp only
  rw [hread]

/-- A whole message that is handled without an error and still is a fault. -/
theorem fault_of_handled {message : Reassembly.Part κ τ UInt8} {handling : UdpHandling}
    (hfault : (protocol.takeRead loop input world).2.1.isFault = true)
    (hparse : protocol.parse input = .ok (.inl message)) (hwhole : message.isWhole = true)
    (hres : (protocol.handle loop.table world message).result = .ok handling) :
    (UdpOutcome.handled handling).isFault = true := by
  rw [takeRead, hparse] at hfault
  dsimp only at hfault
  rw [Reassembly.Store.push_whole hwhole] at hfault
  dsimp only [takeMessage] at hfault
  rw [hres] at hfault
  exact hfault

end QuicUdp

end KeliCore
