/-
A datagram that fails and what it costs the datagrams behind it, for the UDP
loops of TUIC and Hysteria2.
-/
import KeliCore.TuicUdp
import KeliCore.Hysteria2Udp

namespace KeliCore

namespace Tuic

/-- The datagram could be read and is not understood, or a packet that is
dropped. -/
def Spared (mode : UdpReplyMode) (input : List UInt8) (world : QuicWorld) : Prop :=
  (udpLoop mode).readError world input = none ∧
    ((∃ error, parseUdpCommand input = .error error) ∨
      ∃ packet, parseUdpCommand input = .ok (.packet packet) ∧ Dropped world packet)

theorem isolated_iff_spared {mode : UdpReplyMode} {input : List UInt8} {world : QuicWorld}
    {loop : UdpLoop (UInt16 × UInt16) (Option SocksTarget) Associations}
    (hrun : loop.returned = none)
    (hfault : ((udpLoop mode).take loop input world).2.1.isFault = true) :
    (udpLoop mode).Isolated loop input world ↔ Spared mode input world := by
  rw [QuicUdp.isolated_iff hrun, QuicUdp.take_eq_iff_read hrun, Spared]
  refine and_congr_right fun hread => ?_
  rw [QuicUdp.take_of_read hrun hread] at hfault
  rw [QuicUdp.takeRead_eq_iff hrun hfault]
  have hparse : (udpLoop mode).parse input = (parseUdpCommand input).map _ := rfl
  cases hcmd : parseUdpCommand input with
  | error error => simp [hparse, hcmd, Except.map]
  | ok command =>
    cases command with
    | dissociate assocId | heartbeat => simp [hparse, hcmd, Except.map]
    | packet packet =>
      rw [hcmd] at hparse
      simp only [hparse, Except.map, reduceCtorEq, exists_false, false_or,
        Except.ok.injEq, Sum.inl.injEq, UdpCommand.packet.injEq, exists_eq_left']
      constructor
      · rintro ⟨hwhole, -, hswallows | ⟨handling, hres⟩⟩
        · contradiction
        · exact dropped_of_fault hwhole hres
            (QuicUdp.fault_of_handled hfault hparse hwhole hres)
      · intro hdropped
        obtain ⟨htable, hres⟩ := handleUdpPacket_of_dropped hdropped
        exact ⟨hdropped.1, htable, .inr hres⟩

end Tuic

namespace Hysteria2

/-- Handling the message moves no session: it is not sent directly, or its
session was active at this very moment, or no session is made for it and no
room. -/
def Unmoved (table : Sessions) (world : QuicWorld) (message : UdpDatagram) :
    Prop :=
  decide world message = .direct →
    match table.sessions.lookup message.key.1 with
    | some session => session.lastActive = world.now
    | none => table.sessions.len < maxSessions ∧
        ∀ address, world.resolveUdpTarget message.target = .ok address →
          world.permit = true → world.bindUdpSocket address.ip ≠ .ok ()

/-- The datagram is not understood, or a whole message that moves no
session. -/
def Spared (table : Sessions) (input : List UInt8) (world : QuicWorld) : Prop :=
  (∃ error, parseUdpDatagram input = .error error) ∨
    ∃ message, parseUdpDatagram input = .ok message ∧
      message.isWhole = true ∧ Unmoved table world message

variable {table : Sessions} {session : UdpRelaySession} {sessionId : UInt32} {world : QuicWorld}
  {order : HashOrder UInt32 UdpRelaySession}

theorem touch_eq_iff (hsession : table.sessions.lookup sessionId = some session) (now : Nat) :
    table.touch sessionId session now = table ↔ session.lastActive = now := by
  obtain ⟨sessions, sockets⟩ := table
  constructor
  · intro hsame
    have hlookup := congrArg (fun table : Sessions => table.sessions.lookup sessionId) hsame
    simp only [Sessions.touch, Finmap.lookup_insert] at hlookup
    rw [hsession] at hlookup
    exact (congrArg UdpRelaySession.lastActive (Option.some.inj hlookup)).symm
  · rintro rfl
    rw [Sessions.touch]
    congr
    refine Finmap.ext_lookup fun other => ?_
    rw [Finmap.lookup_insert_ite]
    split
    next hother =>
      rw [hother]
      exact hsession.symm
    · rfl

theorem makeRoom_eq_iff (now : Nat) :
    { table with sessions := makeRoom order now table.sessions } = table ↔
      table.sessions.len < maxSessions := by
  constructor
  · intro hsame
    rw [← congrArg Sessions.sessions hsame]
    exact len_makeRoom order now table.sessions
  · intro hroom
    rw [makeRoom, if_pos hroom]

theorem lookup_insertSession (sessionId : UInt32) (target : SocksTarget)
    (address : SocketAddr) (now : Nat) :
    ((table.insertSession sessionId target address now).1.sessions.lookup
      sessionId).isSome = true := by
  rw [Sessions.insertSession]
  split
  · simp [Sessions.touch]
  · simp

theorem relayDirect_table_eq_iff {target : SocksTarget} {payload : List UInt8} {error : IoError}
    (herror : (relayDirect order table world sessionId target payload).result = .error error) :
    (relayDirect order table world sessionId target payload).table = table ↔
      match table.sessions.lookup sessionId with
      | some session => session.lastActive = world.now
      | none => table.sessions.len < maxSessions ∧
          ∀ address, world.resolveUdpTarget target = .ok address →
            world.permit = true → world.bindUdpSocket address.ip ≠ .ok () := by
  -- the table is the one that `get_udp_session` leaves
  have htable : (relayDirect order table world sessionId target payload).table =
      (table.getUdpSession order world sessionId target).1 := by
    rw [relayDirect] at herror ⊢
    split
    next hget => rw [hget]
    next hget =>
      rw [hget] at herror ⊢
      dsimp only at herror ⊢
      split
      · rfl
      rename_i hadmits
      rw [if_neg hadmits] at herror
      split
      · rfl
      next hsent =>
        rw [hsent] at herror
        contradiction
  rw [htable, Sessions.getUdpSession]
  cases hsession : table.sessions.lookup sessionId with
  | some session =>
    dsimp only
    rw [← touch_eq_iff hsession]
    split <;> rfl
  | none =>
    dsimp only
    have hnew : ∀ address now, ((Sessions.insertSession
        { table with sessions := makeRoom order world.now table.sessions }
        sessionId target address now).1) ≠ table := by
      intro address now hsame
      have hsome := @lookup_insertSession
        { table with sessions := makeRoom order world.now table.sessions }
        sessionId target address now
      rw [hsame, hsession] at hsome
      contradiction
    cases hresolve : world.resolveUdpTarget target with
    | error error => simp [makeRoom_eq_iff]
    | ok address =>
      cases hpermit : world.permit with
      | false => simp [makeRoom_eq_iff]
      | true =>
        cases hbind : world.bindUdpSocket address.ip with
        | error error => simp [makeRoom_eq_iff, hbind]
        | ok =>
          refine iff_of_false (fun hsame => ?_) ?_
          · simp only [hbind] at hsame
            exact hnew address _ hsame
          · rintro ⟨-, hbound⟩
            exact hbound address rfl rfl hbind

/-- Only a blocked message is a fault without an error. -/
theorem handleUdpMessage_table_eq_iff {message : UdpDatagram} {handled : HandledUdp Sessions}
    (hhandled : handleUdpMessage order table world message = handled)
    (hfault : ∀ handling, handled.result = .ok handling →
      (UdpOutcome.handled handling).isFault = true) :
    handled.table = table ↔ Unmoved table world message := by
  subst hhandled
  rw [handleUdpMessage] at hfault ⊢
  rw [Unmoved]
  cases hdecide : decide world message with
  | block | unsupportedOutbound tag => simp
  | outbound outbound =>
    simp [(world.relayOutbound_spec table outbound message.target message.bytes).1]
  | direct =>
    rw [hdecide] at hfault
    dsimp only at hfault ⊢
    simp only [forall_const]
    cases hres : (relayDirect order table world message.key.1
        message.target message.bytes).result with
    | error error => exact relayDirect_table_eq_iff hres
    | ok handling =>
      have hhandling := hfault handling hres
      rw [relayDirect] at hres
      split at hres
      · contradiction
      split at hres
      · rw [← Except.ok.inj hres] at hhandling
        contradiction
      split at hres
      · contradiction
      · rw [← Except.ok.inj hres] at hhandling
        contradiction

theorem isolated_iff_spared {input : List UInt8}
    {loop : UdpLoop (UInt32 × UInt16) SocksTarget Sessions} (hrun : loop.returned = none)
    (hfault : ((udpLoop order).take loop input world).2.1.isFault = true) :
    (udpLoop order).Isolated loop input world ↔ Spared loop.table input world := by
  rw [QuicUdp.isolated_iff hrun]
  rw [QuicUdp.take_of_read hrun rfl] at hfault ⊢
  rw [QuicUdp.takeRead_eq_iff hrun hfault]
  have hparse : (udpLoop order).parse input = (parseUdpDatagram input).map .inl := rfl
  rw [Spared]
  cases hmessage : parseUdpDatagram input with
  | error error => simp [hparse, hmessage, Except.map]
  | ok message =>
    rw [hmessage] at hparse
    simp only [hparse, Except.map, reduceCtorEq, exists_false, false_or,
      Except.ok.injEq, Sum.inl.injEq, exists_eq_left']
    refine and_congr_right fun hwhole => ?_
    have hswallows : (udpLoop order).swallows = true := rfl
    rw [and_iff_left (.inl hswallows)]
    refine handleUdpMessage_table_eq_iff rfl fun handling hres => ?_
    exact QuicUdp.fault_of_handled hfault hparse hwhole hres

end Hysteria2

/-- A datagram that fails leaves both loops as they were exactly if it could be
read and is not understood or is dropped before it moves anything; every other failure ends a
loop or shows in the sessions of Hysteria2. -/
theorem failing_datagram_isolated_iff (input : List UInt8) (world : QuicWorld) :
    (∀ (mode : Tuic.UdpReplyMode)
      (loop : UdpLoop (UInt16 × UInt16) (Option SocksTarget) Tuic.Associations),
      loop.returned = none → ((Tuic.udpLoop mode).take loop input world).2.1.isFault = true →
      ((Tuic.udpLoop mode).Isolated loop input world ↔ Tuic.Spared mode input world)) ∧
    ∀ (order : HashOrder UInt32 Hysteria2.UdpRelaySession)
      (loop : UdpLoop (UInt32 × UInt16) SocksTarget Hysteria2.Sessions), loop.returned = none →
      ((Hysteria2.udpLoop order).take loop input world).2.1.isFault = true →
      ((Hysteria2.udpLoop order).Isolated loop input world ↔
        Hysteria2.Spared loop.table input world) := by
  constructor
  · intro mode loop hrun hfault
    exact Tuic.isolated_iff_spared hrun hfault
  · intro order loop hrun hfault
    exact Hysteria2.isolated_iff_spared hrun hfault

namespace Sample

def quicWorld : QuicWorld where
  matching := ⟨fun _ _ _ => false, fun _ _ => false, fun _ _ => ""⟩
  sendUdpOutbound _ _ _ := .error ⟨.other, "unreachable"⟩
  sendReply _ _ := .ok true
  resolveUdpTarget target := .ok ⟨.v4 0x01020304, target.port⟩
  bindUdpSocket _ := .ok ()
  sendTo _ _ _ := .ok ()

def tuicPacket (total id : UInt8) : List UInt8 :=
  [5, 2, 0, 1, 0, 1, total, id, 0, 1, 1, 1, 2, 3, 4, 0, 53, 7]

def sessionOrder : HashOrder UInt32 Hysteria2.UdpRelaySession :=
  @Finmap.sortedOrder _ _ _ (LinearOrder.lift' UInt32.toNat fun _ _ => UInt32.toNat_inj.1)

def hysteria2Message (id count : UInt8) : List UInt8 :=
  [0, 0, 0, 1, 0, 1, id, count, 10] ++ Text.bytes "1.2.3.4:53" ++ [7]

end Sample

open Sample

/-- On a connection with an association open, a packet that a route blocks. -/
theorem blocked_packet_isolated :
    let world := { quicWorld with
      routes := [⟨["*"], .block, none⟩]
      matching := ⟨fun _ _ _ => true, fun _ _ => false, fun _ _ => ""⟩ }
    let loop := ((Tuic.udpLoop .uniStream).take { table := {} } (tuicPacket 1 0) quicWorld).1
    (loop.table.openSession 1).isSome = true ∧
      (Tuic.udpLoop .uniStream).Isolated loop (tuicPacket 1 0) world := by
  refine ⟨rfl, ((failing_datagram_isolated_iff (tuicPacket 1 0) _).1 .uniStream _ rfl rfl).2 ?_⟩
  exact ⟨rfl, .inr ⟨_, rfl, rfl, fun _ _ => rfl⟩⟩

/-- A fragment whose index lies beyond its count ends either loop, and the
next message is not read. -/
theorem bad_fragment_ends_udp_loops : (let udp := Tuic.udpLoop .datagram
     let after := udp.step { table := {} }
       (.datagram (tuicPacket 2 2) quicWorld)
     (udp.take { table := {} } (tuicPacket 1 0) quicWorld).2.1 = .handled .relayed ∧
      (udp.take after (tuicPacket 1 0) quicWorld).2.1 = .unread) ∧
    let udp := Hysteria2.udpLoop sessionOrder
    let after := udp.step { table := {} }
      (.datagram (hysteria2Message 2 2) quicWorld)
    (udp.take { table := {} } (hysteria2Message 0 1)
      quicWorld).2.1 = .handled .relayed ∧
    (udp.take after (hysteria2Message 0 1) quicWorld).2.1 = .unread := by decide +kernel

end KeliCore
