/-
What is recorded for a user when a UDP relay returns, against the payloads it
sent and delivered.
-/
import KeliCore.UdpRelays

namespace KeliCore

open Ledger Relaying

variable {bytes : Nat}

section Books

variable {ledger : Ledger Direction}

theorem balanced_iff_both (hrun : ledger.ended = none) : ledger.Balanced ↔
      ledger.totals .upload = ledger.moved .upload ∧
        ledger.totals .download = ledger.moved .download := by
  rw [balanced_iff_totals hrun]
  constructor
  · exact fun hall => ⟨hall .upload, hall .download⟩
  · rintro ⟨hupload, hdownload⟩ direction
    cases direction with
    | upload => exact hupload
    | download => exact hdownload

theorem addUpTo_eq_add_iff {cap total : Nat} :
    addUpTo cap total bytes = total + bytes ↔ total + bytes ≤ cap := by
  rw [addUpTo]
  omega

variable (hrun : ledger.ended = none) (hbal : ledger.Balanced)

include hrun hbal

theorem balanced_finish : ledger.finish.Balanced := (balanced_finish_iff hrun).2 hbal

theorem balanced_carry_iff (direction : Direction) (bytes : Nat) :
    (carry direction bytes ledger).Balanced ↔ ledger.Fits u64Max direction bytes := by
  obtain ⟨hupload, hdownload⟩ := (balanced_iff_both hrun).1 hbal
  have hended : (carry direction bytes ledger).ended = none := hrun
  refine (balanced_iff_both hended).trans ?_
  rw [Ledger.Fits, ← addUpTo_eq_add_iff]
  cases direction with
  | upload | download => simp [carry, tally, move, count, hupload, hdownload]

theorem balanced_tally_iff (direction : Direction) (bytes : Nat) :
    (tally direction bytes ledger).Balanced ↔ ledger.Stays u64Max direction bytes := by
  obtain ⟨hupload, hdownload⟩ := (balanced_iff_both hrun).1 hbal
  have hended : (tally direction bytes ledger).ended = none := hrun
  refine (balanced_iff_both hended).trans ?_
  rw [Ledger.Stays]
  cases direction with
  | upload | download => simp [tally, count, hupload, hdownload]

theorem balanced_move_iff (direction : Direction) (bytes : Nat) :
    (ledger.move direction bytes).Balanced ↔ bytes = 0 := by
  obtain ⟨hupload, hdownload⟩ := (balanced_iff_both hrun).1 hbal
  have hended : (ledger.move direction bytes).ended = none := hrun
  refine (balanced_iff_both hended).trans ?_
  cases direction with
  | upload | download => simp [move, hupload, hdownload]

/-- A packet and its reply, in whatever order they are moved and counted. -/
theorem balanced_both_iff {after : Ledger Direction} (sent received : Nat)
    (hended : after.ended = none) (hmoved : after.moved .upload = ledger.moved .upload + sent ∧
      after.moved .download = ledger.moved .download + received) (htot : after.totals .upload =
        addUpTo u64Max (ledger.totals .upload) sent ∧
      after.totals .download = addUpTo u64Max (ledger.totals .download) received) :
    after.Balanced ↔ ledger.Fits u64Max .upload sent ∧ ledger.Fits u64Max .download received := by
  obtain ⟨hupload, hdownload⟩ := (balanced_iff_both hrun).1 hbal
  rw [balanced_iff_both hended, hmoved.1, hmoved.2, htot.1, htot.2,
    hupload, hdownload, addUpTo_eq_add_iff, addUpTo_eq_add_iff]
  rfl

end Books

theorem balanced_move_lose_iff {ledger : Ledger Direction} :
    (ledger.move .upload bytes).lose.Balanced ↔ ledger.Untouched ∧ bytes = 0 :=
  balanced_lose_iff.trans untouched_move_iff

theorem balanced_openBooks (opened : Bool) : (openBooks opened).Balanced := by
  cases opened with
  | true | false => exact fun _ => rfl

/-- A reply keeps the books: it is written, and fits, or it cannot be written,
and nothing was moved, not even the packet it answers. -/
def AnswerKeeps (written : Except IoError Unit) (sent received : Nat)
    (ledger : Ledger Direction) : Prop :=
  match written with
  | .error _ => ledger.Untouched ∧ sent = 0
  | .ok () => ledger.Fits u64Max .upload sent ∧ ledger.Fits u64Max .download received

namespace SocksUdp

variable (userUuid : Option String)

/-- What is counted so far will be recorded, or is nothing. -/
def CloseKeeps (ledger : Ledger Direction) : Prop :=
  userUuid.isSome = true ∨ ledger.Untouched

def OutboundKeeps (turn : SocksUdpTurn) (client : SocketAddr) (bytes : Nat)
    (exchange : UdpExchange) (ledger : Ledger Direction) : Prop :=
  match exchange with
  | .unsent error =>
    if error.isTimeout then ledger.Stays u64Max .upload bytes
    else ledger.Untouched
  | .unanswered error =>
    if error.isTimeout then ledger.Fits u64Max .upload bytes
    else ledger.Untouched ∧ bytes = 0
  | .answered source response =>
    AnswerKeeps (turn.sendTo (encodeUdpResponse source response) client)
      bytes response.length ledger

/-- A packet of the client keeps the books: what it moves can be counted, and
if it ends the relay by an error, nothing was moved at all. -/
def RequestKeeps (turn : SocksUdpTurn) (client : SocketAddr)
    (packet : List UInt8) (ledger : Ledger Direction) : Prop :=
  match parseUdpRequest packet with
  | .error _ => ledger.Untouched
  | .ok (target, payload) =>
    match turn.forwarding.decide target payload with
    | .direct =>
      if !turn.forwarding.admits payload.length then
        CloseKeeps userUuid ledger
      else
        match turn.forwarding.direct.resolved with
        | .error _ => ledger.Untouched
        | .ok remote =>
          match turn.sendTo payload remote with
          | .error _ => ledger.Untouched
          | .ok () => ledger.Fits u64Max .upload payload.length
    | .outbound outbound =>
      if !turn.forwarding.admits payload.length then
        CloseKeeps userUuid ledger
      else
        OutboundKeeps turn client payload.length
          (turn.forwarding.outbound outbound target payload) ledger
    | .block => True
    | .unsupportedOutbound _ => ledger.Untouched

def ReplyKeeps (turn : SocksUdpTurn) (client source : SocketAddr)
    (packet : List UInt8) (ledger : Ledger Direction) : Prop :=
  match turn.sendTo (encodeUdpResponse source packet) client with
  | .error _ => ledger.Untouched
  | .ok () => ledger.Fits u64Max .download packet.length

def PacketKeeps (turn : SocksUdpTurn) (packet : List UInt8)
    (source : SocketAddr) (state : SocksUdp) : Prop :=
  match state.learnClient turn source with
  | .error _ => state.ledger.Untouched
  | .ok none => True
  | .ok (some client) =>
    if client = source then
      RequestKeeps userUuid turn client packet state.ledger
    else ReplyKeeps turn client source packet state.ledger

def Keeps (state : SocksUdp) (turn : SocksUdpTurn) : Prop :=
  match turn.controlIsOpen with
  | .error _ => state.ledger.Untouched
  | .ok false => CloseKeeps userUuid state.ledger
  | .ok true =>
    match UdpTurn.recvLoop turn.receives UdpTurn.maxUdpConnectionResetRetries 0 with
    | .ok (packet, source) => PacketKeeps userUuid turn packet source state
    | .error error => if error.isTimeout then True else state.ledger.Untouched

section Steps

variable {ledger : Ledger Direction} (hrun : ledger.ended = none)
  (hbal : ledger.Balanced)

include hrun hbal

theorem close_keeps_iff : (close userUuid ledger).Balanced ↔ CloseKeeps userUuid ledger := by
  cases userUuid with
  | some uuid => exact iff_of_true (balanced_finish hrun hbal) (.inl rfl)
  | none => simp [close, CloseKeeps, balanced_lose_iff]

theorem relayOutbound_keeps_iff (turn : SocksUdpTurn) (client : SocketAddr)
    (bytes : Nat) (exchange : UdpExchange) :
    (relayOutbound turn client bytes exchange ledger).Balanced ↔
      OutboundKeeps turn client bytes exchange ledger := by
  cases exchange with
  | unsent error =>
    unfold relayOutbound OutboundKeeps
    dsimp only
    split
    · exact balanced_tally_iff hrun hbal _ _
    · exact balanced_lose_iff
  | unanswered error =>
    unfold relayOutbound OutboundKeeps
    dsimp only
    split
    · exact balanced_carry_iff hrun hbal _ _
    · exact balanced_move_lose_iff
  | answered source response =>
    unfold relayOutbound OutboundKeeps AnswerKeeps
    dsimp only
    cases turn.sendTo (encodeUdpResponse source response) client with
    | error error => exact balanced_move_lose_iff
    | ok sent => exact balanced_both_iff hrun hbal _ _ hrun ⟨rfl, rfl⟩ ⟨rfl, rfl⟩

theorem relayRequest_keeps_iff (turn : SocksUdpTurn) (client : SocketAddr) (packet : List UInt8) :
    (relayRequest userUuid turn client packet ledger).Balanced ↔
      RequestKeeps userUuid turn client packet ledger := by
  unfold relayRequest RequestKeeps
  cases parseUdpRequest packet with
  | error error => exact balanced_lose_iff
  | ok request =>
    obtain ⟨target, payload⟩ := request
    dsimp only
    cases turn.forwarding.decide target payload with
    | direct =>
      cases turn.forwarding.admits payload.length with
      | false => exact close_keeps_iff userUuid hrun hbal
      | true =>
        cases turn.forwarding.direct.resolved with
        | error error => exact balanced_lose_iff
        | ok remote =>
          dsimp only
          cases turn.sendTo payload remote with
          | error error => exact balanced_lose_iff
          | ok sent => exact balanced_carry_iff hrun hbal _ _
    | outbound outbound =>
      cases turn.forwarding.admits payload.length with
      | false => exact close_keeps_iff userUuid hrun hbal
      | true => exact relayOutbound_keeps_iff hrun hbal turn client _ _
    | block => exact iff_of_true hbal trivial
    | unsupportedOutbound tag => exact balanced_lose_iff

end Steps

theorem relayPacket_keeps_iff (state : SocksUdp) (turn : SocksUdpTurn)
    (packet : List UInt8) (source : SocketAddr) (hrun : state.ledger.ended = none)
    (hbal : state.ledger.Balanced) :
    (state.relayPacket userUuid turn packet source).ledger.Balanced ↔
      PacketKeeps userUuid turn packet source state := by
  unfold relayPacket PacketKeeps
  cases state.learnClient turn source with
  | error error => exact balanced_lose_iff
  | ok client =>
    cases client with
    | none => exact iff_of_true hbal trivial
    | some client =>
      dsimp only
      split
      · exact relayRequest_keeps_iff userUuid hrun hbal turn _ _
      · unfold relayReply ReplyKeeps
        cases turn.sendTo (encodeUdpResponse source packet) client with
        | error error => exact balanced_lose_iff
        | ok sent => exact balanced_carry_iff hrun hbal _ _

theorem step_keeps_iff (state : SocksUdp) (turn : SocksUdpTurn)
    (hrun : state.ledger.ended = none) (hbal : state.ledger.Balanced) :
    (step userUuid state turn).ledger.Balanced ↔ Keeps userUuid state turn := by
  unfold step Keeps
  simp only [hrun]
  cases turn.controlIsOpen with
  | error error => exact balanced_lose_iff
  | ok isOpen =>
    cases isOpen with
    | false => exact close_keeps_iff userUuid hrun hbal
    | true =>
      dsimp only
      cases UdpTurn.recvLoop turn.receives UdpTurn.maxUdpConnectionResetRetries 0 with
      | ok received => exact relayPacket_keeps_iff userUuid state turn _ _ hrun hbal
      | error error =>
        dsimp only
        split
        · exact iff_of_true hbal trivial
        · exact balanced_lose_iff

theorem step_ended (state : SocksUdp) (turn : SocksUdpTurn) (hended : state.ledger.ended ≠ none) :
    step userUuid state turn = state := by
  obtain ⟨result, hres⟩ := Option.ne_none_iff_exists'.1 hended
  rw [step, hres]

end SocksUdp

/-- An exchange keeps the books of a relay that counts what is returned to
it. -/
def ExchangeKeeps (outbound : Bool)
    (write : SocketAddr → List UInt8 → Except IoError Unit) (bytes : Nat)
    (exchange : UdpExchange) (ledger : Ledger Direction) : Prop :=
  match exchange with
  | .unsent error =>
    if outbound && error.isTimeout then ledger.Stays u64Max .upload bytes
    else True
  | .unanswered error => if error.isTimeout then ledger.Fits u64Max .upload bytes else bytes = 0
  | .answered source response => AnswerKeeps (write source response) bytes response.length ledger

/-- A packet keeps the books; one that is held back is counted as no bytes. -/
def ForwardKeeps (direct : DirectUdp → Nat → Ledger Direction → Prop)
    (write : SocketAddr → List UInt8 → Except IoError Unit)
    (forwarding : Forwarding) (target : SocksTarget) (payload : List UInt8)
    (ledger : Ledger Direction) : Prop :=
  match forwarding.decide target payload with
  | .block => ledger.Fits u64Max .upload 0
  | .unsupportedOutbound _ => True
  | .direct =>
    if !forwarding.admits payload.length then ledger.Fits u64Max .upload 0
    else direct forwarding.direct payload.length ledger
  | .outbound outbound =>
    if !forwarding.admits payload.length then ledger.Fits u64Max .upload 0
    else
      ExchangeKeeps true write payload.length (forwarding.outbound outbound target payload) ledger

section Forwarded

variable {ledger : Ledger Direction} (hrun : ledger.ended = none)
  (hbal : ledger.Balanced)
  (write : SocketAddr → List UInt8 → Except IoError Unit)

include hrun hbal

/-- Bytes are counted as they were sent, and no reply has come. -/
theorem relay_sent_iff (bytes : Nat) :
    (relayForwarded write (bytes, .ok (bytes, none)) ledger).Balanced ↔
      ledger.Fits u64Max .upload bytes :=
  balanced_carry_iff hrun hbal .upload bytes

/-- An error ends the relay; what was sent last is not counted. -/
theorem relay_error_iff (bytes : Nat) (error : IoError) :
    (relayForwarded write (bytes, .error error) ledger).Balanced ↔ bytes = 0 := by
  have hended : (ledger.move .upload bytes).ended = none := hrun
  exact (balanced_finish_iff hended).trans (balanced_move_iff hrun hbal .upload bytes)

theorem relay_reply_iff (bytes : Nat) (source : SocketAddr) (response : List UInt8) :
    (relayForwarded write (bytes, .ok (bytes, some (source, response))) ledger).Balanced ↔
      AnswerKeeps (write source response) bytes response.length ledger := by
  unfold relayForwarded AnswerKeeps
  dsimp only
  cases write source response with
  | error error => exact balanced_move_lose_iff
  | ok written => exact balanced_both_iff hrun hbal _ _ hrun ⟨rfl, rfl⟩ ⟨rfl, rfl⟩

theorem relay_exchange_iff (bytes : Nat) (exchange : UdpExchange) :
    (relayForwarded write (exchange.forwarded bytes) ledger).Balanced ↔
      ExchangeKeeps false write bytes exchange ledger := by
  cases exchange with
  | unsent error =>
    exact (relay_error_iff hrun hbal write 0 error).trans (by simp [ExchangeKeeps])
  | unanswered error =>
    unfold UdpExchange.forwarded ExchangeKeeps
    dsimp only
    split
    · exact relay_sent_iff hrun hbal write bytes
    · exact relay_error_iff hrun hbal write bytes error
  | answered source response => exact relay_reply_iff hrun hbal write bytes source response

theorem relay_outbound_iff (bytes : Nat) (exchange : UdpExchange) :
    (relayForwarded write (exchange.forwardedOutbound bytes) ledger).Balanced ↔
      ExchangeKeeps true write bytes exchange ledger := by
  cases exchange with
  | unsent error =>
    unfold UdpExchange.forwardedOutbound ExchangeKeeps
    simp only [Bool.true_and]
    split
    · rw [relayForwarded]
      dsimp only
      rw [move_zero]
      exact balanced_tally_iff hrun hbal .upload bytes
    · exact (relay_error_iff hrun hbal write 0 error).trans (by simp)
  | unanswered error => exact relay_exchange_iff hrun hbal write bytes (.unanswered error)
  | answered source response => exact relay_reply_iff hrun hbal write bytes source response

/-- A packet keeps the books of a relay that forwards it, if sending it without
an outbound does. -/
theorem relay_forward_iff {direct : DirectUdp → Nat → Forwarded}
    {keeps : DirectUdp → Nat → Ledger Direction → Prop} (hdir : ∀ calls bytes,
      (relayForwarded write (direct calls bytes) ledger).Balanced ↔ keeps calls bytes ledger)
    (forwarding : Forwarding) (target : SocksTarget) (payload : List UInt8) :
    (relayForwarded write (forwarding.forward direct target payload) ledger).Balanced ↔
      ForwardKeeps keeps write forwarding target payload ledger := by
  unfold Forwarding.forward ForwardKeeps
  cases forwarding.decide target payload with
  | block => exact relay_sent_iff hrun hbal write 0
  | unsupportedOutbound tag => exact (relay_error_iff hrun hbal write 0 _).trans (by simp)
  | direct =>
    cases forwarding.admits payload.length with
    | false => exact relay_sent_iff hrun hbal write 0
    | true => exact hdir _ _
  | outbound outbound =>
    cases forwarding.admits payload.length with
    | false => exact relay_sent_iff hrun hbal write 0
    | true => exact relay_outbound_iff hrun hbal write _ _

end Forwarded

namespace VmessUdp

variable (target : SocksTarget)

def Keeps (ledger : Ledger Direction) (turn : VmessUdpTurn) : Prop :=
  match turn.packet with
  | .error _ => True
  | .ok none => True
  | .ok (some payload) =>
    ForwardKeeps (fun direct bytes => ExchangeKeeps false (fun _ => turn.writePacket)
        bytes direct.exchange) (fun _ => turn.writePacket) turn.forwarding target payload ledger

theorem step_keeps_iff (ledger : Ledger Direction) (turn : VmessUdpTurn)
    (hrun : ledger.ended = none) (hbal : ledger.Balanced) :
    (step target ledger turn).Balanced ↔ Keeps target ledger turn := by
  unfold step Keeps
  simp only [hrun]
  cases turn.packet with
  | error error => exact iff_of_true (balanced_finish hrun hbal) trivial
  | ok packet =>
    cases packet with
    | none => exact iff_of_true (balanced_finish hrun hbal) trivial
    | some payload =>
      apply relay_forward_iff hrun hbal
      exact fun direct bytes => relay_exchange_iff hrun hbal _ _ _

theorem step_ended (ledger : Ledger Direction) (turn : VmessUdpTurn)
    (hended : ledger.ended ≠ none) : step target ledger turn = ledger := by
  obtain ⟨result, hres⟩ := Option.ne_none_iff_exists'.1 hended
  rw [step, hres]

end VmessUdp

namespace TrojanUdp

/-- Sending without an outbound keeps the books; replies come later. -/
def SendKeeps (direct : DirectUdp) (bytes : Nat) (ledger : Ledger Direction) : Prop :=
  match direct.send with
  | .error _ => True
  | .ok () => ledger.Fits u64Max .upload bytes

/-- The client's next packet keeps the books. -/
def ParseKeeps (state : TrojanUdp) (turn : TrojanUdpTurn) : Prop :=
  match parseTrojanUdpPacketFromBuffer state.pending with
  | .error _ => state.ledger.Untouched
  | .ok (none, _) => True
  | .ok (some (target, payload), _) =>
    ForwardKeeps SendKeeps (fun source response =>
        turn.write (encodeTrojanUdpPacket source response))
      turn.forwarding target payload state.ledger

/-- The next reply keeps the books. -/
def ReceiveKeeps (state : TrojanUdp) (turn : TrojanUdpTurn) : Prop :=
  match turn.available with
  | .error _ => state.ledger.Untouched
  | .ok (some (source, payload)) =>
    match turn.write (encodeTrojanUdpPacket source payload) with
    | .error _ => state.ledger.Untouched
    | .ok () => state.ledger.Fits u64Max .download payload.length
  | .ok none =>
    match turn.waited with
    | .error _ => state.progressed = true ∨ state.ledger.Untouched
    | .ok () => True

/-- A step keeps the books. -/
def Keeps (state : TrojanUdp) (turn : TrojanUdpTurn) : Prop :=
  match state.phase with
  | .reading => True
  | .parsing => state.ParseKeeps turn
  | .receiving => state.ReceiveKeeps turn

section Steps

variable {state : TrojanUdp} (hrun : state.ledger.ended = none)
  (hbal : state.ledger.Balanced) (turn : TrojanUdpTurn)

include hrun hbal

theorem readStep_balanced : (state.readStep turn).ledger.Balanced := by
  unfold readStep
  split
  · exact balanced_finish hrun hbal
  · exact hbal
  · split
    · exact hbal
    · exact balanced_finish hrun hbal

theorem parseStep_keeps_iff : (state.parseStep turn).ledger.Balanced ↔ state.ParseKeeps turn := by
  unfold parseStep ParseKeeps
  cases parseTrojanUdpPacketFromBuffer state.pending with
  | error error => exact balanced_lose_iff
  | ok parsed =>
    obtain ⟨packet, pending⟩ := parsed
    cases packet with
    | none => exact iff_of_true hbal trivial
    | some packet =>
      apply relay_forward_iff hrun hbal
      intro direct bytes
      unfold SendKeeps
      cases direct.send with
      | error error => exact (relay_error_iff hrun hbal _ 0 error).trans (by simp)
      | ok sent => exact relay_sent_iff hrun hbal _ bytes

theorem receiveStep_keeps_iff :
    (state.receiveStep turn).ledger.Balanced ↔ state.ReceiveKeeps turn := by
  unfold receiveStep ReceiveKeeps
  cases turn.available with
  | error error => exact balanced_lose_iff
  | ok reply =>
    cases reply with
    | some reply =>
      dsimp only
      cases turn.write (encodeTrojanUdpPacket reply.1 reply.2) with
      | error error => exact balanced_lose_iff
      | ok written => exact balanced_carry_iff hrun hbal _ _
    | none =>
      dsimp only
      cases hprogressed : state.progressed with
      | true =>
        refine iff_of_true hbal ?_
        cases turn.waited with
        | error error => exact .inl rfl
        | ok waited => trivial
      | false =>
        cases turn.waited with
        | error error => simp [post, balanced_lose_iff]
        | ok waited => exact iff_of_true hbal trivial

end Steps

theorem step_keeps_iff (state : TrojanUdp) (turn : TrojanUdpTurn)
    (hrun : state.ledger.ended = none) (hbal : state.ledger.Balanced) :
    (step state turn).ledger.Balanced ↔ Keeps state turn := by
  unfold step Keeps
  simp only [hrun]
  cases state.phase with
  | reading => exact iff_of_true (readStep_balanced hrun hbal turn) trivial
  | parsing => exact parseStep_keeps_iff hrun hbal turn
  | receiving => exact receiveStep_keeps_iff hrun hbal turn

theorem step_ended (state : TrojanUdp) (turn : TrojanUdpTurn)
    (hended : state.ledger.ended ≠ none) : step state turn = state := by
  obtain ⟨result, hres⟩ := Option.ne_none_iff_exists'.1 hended
  rw [step, hres]

end TrojanUdp

namespace MieruUdp

/-- An exchange keeps the books; a packet without a reply is never counted. -/
def ExchangeKeeps (write : List UInt8 → Except IoError Unit) (bytes : Nat)
    (exchange : UdpExchange) (ledger : Ledger Direction) : Prop :=
  match exchange with
  | .unsent error => error.isTimeout = true ∨ ledger.Untouched
  | .unanswered error => (error.isTimeout = true ∨ ledger.Untouched) ∧ bytes = 0
  | .answered source response =>
    AnswerKeeps ((encodeMieruUdpFrame (encodeUdpResponse source response)).bind write)
      bytes response.length ledger

def PacketKeeps (turn : MieruUdpTurn) (packet : List UInt8) (ledger : Ledger Direction) : Prop :=
  match parseSocksUdpPacket packet with
  | .error _ => ledger.Untouched
  | .ok (target, payload) =>
    if !turn.forwarding.admits payload.length then True
    else
      match turn.forwarding.decide target payload with
      | .direct => ExchangeKeeps turn.write payload.length turn.forwarding.direct.exchange ledger
      | .outbound outbound =>
        ExchangeKeeps turn.write payload.length
          (turn.forwarding.outbound outbound target payload) ledger
      | .block => True
      | .unsupportedOutbound _ => ledger.Untouched

def Keeps (state : MieruUdp) (turn : MieruUdpTurn) : Prop :=
  match takeMieruUdpFrame state.pending with
  | (.error _, _) => state.ledger.Untouched
  | (.ok (some packet), _) => PacketKeeps turn packet state.ledger
  | (.ok none, pending) =>
    match turn.read with
    | .error _ => state.ledger.Untouched
    | .ok [] => pending.isEmpty = true ∨ state.ledger.Untouched
    | .ok (_ :: _) => True

section Steps

variable {ledger : Ledger Direction} (hrun : ledger.ended = none)
  (hbal : ledger.Balanced) (turn : MieruUdpTurn)

include hrun hbal

theorem relayExchange_keeps_iff (write : List UInt8 → Except IoError Unit)
    (bytes : Nat) (exchange : UdpExchange) : (relayExchange write bytes exchange ledger).Balanced ↔
      ExchangeKeeps write bytes exchange ledger := by
  cases exchange with
  | unsent error =>
    unfold relayExchange ExchangeKeeps
    dsimp only
    cases error.isTimeout with
    | true => exact iff_of_true hbal (.inl rfl)
    | false => simp [balanced_lose_iff]
  | unanswered error =>
    unfold relayExchange ExchangeKeeps
    dsimp only
    cases error.isTimeout with
    | true => simp [balanced_move_iff hrun hbal]
    | false => simp [balanced_move_lose_iff]
  | answered source response =>
    unfold relayExchange ExchangeKeeps AnswerKeeps
    dsimp only
    cases encodeMieruUdpFrame (encodeUdpResponse source response) with
    | error error => exact balanced_move_lose_iff
    | ok framed =>
      dsimp only [Except.bind]
      cases write framed with
      | error error => exact balanced_move_lose_iff
      | ok written => exact balanced_both_iff hrun hbal _ _ hrun ⟨rfl, rfl⟩ ⟨rfl, rfl⟩

theorem relayPacket_keeps_iff (packet : List UInt8) : (relayPacket turn packet ledger).Balanced ↔
      PacketKeeps turn packet ledger := by
  unfold relayPacket PacketKeeps
  cases parseSocksUdpPacket packet with
  | error error => exact balanced_lose_iff
  | ok request =>
    obtain ⟨target, payload⟩ := request
    dsimp only
    split
    · exact iff_of_true (balanced_finish hrun hbal) trivial
    cases turn.forwarding.decide target payload with
    | direct | outbound outbound => exact relayExchange_keeps_iff hrun hbal _ _ _
    | block => exact iff_of_true hbal trivial
    | unsupportedOutbound tag => exact balanced_lose_iff

end Steps

theorem step_keeps_iff (state : MieruUdp) (turn : MieruUdpTurn)
    (hrun : state.ledger.ended = none) (hbal : state.ledger.Balanced) :
    (step state turn).ledger.Balanced ↔ Keeps state turn := by
  unfold step Keeps
  simp only [hrun]
  obtain ⟨frame, pending⟩ := takeMieruUdpFrame state.pending
  cases frame with
  | error error => exact balanced_lose_iff
  | ok frame =>
    cases frame with
    | some packet => exact relayPacket_keeps_iff hrun hbal turn packet
    | none =>
      dsimp only
      cases turn.read with
      | error error => exact balanced_lose_iff
      | ok bytes =>
        cases bytes with
        | nil =>
          dsimp only
          cases pending.isEmpty with
          | true => exact iff_of_true (balanced_finish hrun hbal) (.inl rfl)
          | false => simp [balanced_lose_iff]
        | cons first rest => exact iff_of_true hbal trivial

theorem step_ended (state : MieruUdp) (turn : MieruUdpTurn)
    (hended : state.ledger.ended ≠ none) : step state turn = state := by
  obtain ⟨result, hres⟩ := Option.ne_none_iff_exists'.1 hended
  rw [step, hres]

end MieruUdp

/-- In each of the relays, what stands counted or recorded is what was sent and
delivered, in every state of a run, just if every turn keeps the books. -/
theorem udp_books_balance_iff (opened : Bool) :
    (∀ userUuid turns, Run.Meets (SocksUdp.step userUuid)
          (fun state turn => state.ledger.ended = none →
            SocksUdp.Keeps userUuid state turn) { ledger := openBooks opened } turns ↔
        ∀ past, past <+: turns → (SocksUdp.run userUuid opened past).ledger.Balanced) ∧
    (∀ target turns, Run.Meets (VmessUdp.step target) (fun ledger turn => ledger.ended = none →
            VmessUdp.Keeps target ledger turn) (openBooks opened) turns ↔ ∀ past, past <+: turns →
          (VmessUdp.run target opened past).Balanced) ∧
    (∀ pending turns, Run.Meets MieruUdp.step (fun state turn => state.ledger.ended = none →
            MieruUdp.Keeps state turn) { pending, ledger := openBooks opened } turns ↔
        ∀ past, past <+: turns → (MieruUdp.run pending opened past).ledger.Balanced) ∧
    ∀ turns, Run.Meets TrojanUdp.step (fun state turn => state.ledger.ended = none →
            TrojanUdp.Keeps state turn) { ledger := openBooks opened } turns ↔
        ∀ past, past <+: turns → (TrojanUdp.run opened past).ledger.Balanced := by
  have hopen := balanced_openBooks opened
  refine ⟨fun userUuid turns => ?_, fun target turns => ?_,
    fun pending turns => ?_, fun turns => ?_⟩
  · exact @exec_balanced_iff _ _ _ _ _ SocksUdp.ledger
      (SocksUdp.step_keeps_iff userUuid) (SocksUdp.step_ended userUuid) _ hopen turns
  · exact @exec_balanced_iff _ _ _ _ _ id
      (VmessUdp.step_keeps_iff target) (VmessUdp.step_ended target) _ hopen turns
  · exact @exec_balanced_iff _ _ _ _ _ MieruUdp.ledger
      MieruUdp.step_keeps_iff MieruUdp.step_ended _ hopen turns
  · exact @exec_balanced_iff _ _ _ _ _ TrojanUdp.ledger
      TrojanUdp.step_keeps_iff TrojanUdp.step_ended _ hopen turns

namespace Sample

def nameServer : SocketAddr := ⟨.v4 0x08080808, 53⟩

def noRules : RouteMatching := ⟨fun _ _ _ => false, fun _ _ => false, fun _ _ => ""⟩

def timedOut : IoError := ⟨.timedOut, ""⟩

/-- The packet is sent; what is received is left open. -/
def forwarding (received : Except IoError (List UInt8 × SocketAddr)) : Forwarding where
  routes := []
  matching := noRules
  admits _ := true
  direct :=
    { resolved := .ok nameServer, bound := .ok (), sent := .ok ()
      receives := fun _ => received }
  outbound _ _ _ := .unsent timedOut

def socksTurn (packet : List UInt8) : SocksUdpTurn where
  peek := .error timedOut
  receives _ := .ok (packet, nameServer)
  peerAddr := .ok nameServer
  sendTo _ _ := .ok ()
  forwarding := forwarding (.error timedOut)

def vmessTurn : VmessUdpTurn where
  packet := .ok (some [1, 2, 3])
  writePacket _ := .error timedOut
  forwarding := forwarding (.ok ([4], nameServer))

def mieruTurn (read : List UInt8) : MieruUdpTurn where
  read := .ok read
  write _ := .ok ()
  forwarding := forwarding (.error timedOut)

def trojanTurn (read : List UInt8) : TrojanUdpTurn where
  read := .ok read
  available := .ok none
  write _ := .ok ()
  waited := .ok ()
  forwarding := forwarding (.error timedOut)

/-- Three bytes for the name server, as the client of SOCKS5 and Mieru sends
them. -/
def socksPacket : List UInt8 := encodeUdpResponse nameServer [1, 2, 3]

/-- The same in a frame of Mieru. -/
def mieruFrame : List UInt8 := [0, 0, 13] ++ socksPacket ++ [0xff]

/-- A packet, and one that is not well formed. -/
def brokenSocks : Ledger Direction :=
  (SocksUdp.run (some "alice") true [socksTurn socksPacket, socksTurn [0]]).ledger

/-- A packet whose reply cannot be written. -/
def brokenVmess : Ledger Direction :=
  VmessUdp.run ⟨"8.8.8.8", 53⟩ true [vmessTurn]

/-- A packet without a reply, and the end. -/
def silentMieru : Ledger Direction :=
  (MieruUdp.run mieruFrame true [mieruTurn [], mieruTurn []]).ledger

/-- A packet, and one that is not well formed. -/
def brokenTrojan : Ledger Direction :=
  (TrojanUdp.run true [trojanTurn (encodeTrojanUdpPacket nameServer [1, 2, 3] ++ [9]),
      trojanTurn [], trojanTurn []]).ledger

end Sample

open Sample

/-- In each of the relays three bytes are sent for the client, the relay
returns, and none is recorded. -/
theorem sent_bytes_not_recorded :
    (brokenSocks.ended.isSome = true ∧ brokenSocks.moved .upload = 3 ∧
      brokenSocks.standing .upload = 0) ∧
    (brokenVmess.ended.isSome = true ∧ brokenVmess.moved .upload = 3 ∧
      brokenVmess.standing .upload = 0) ∧
    (silentMieru.ended.isSome = true ∧ silentMieru.moved .upload = 3 ∧
      silentMieru.standing .upload = 0) ∧
    (brokenTrojan.ended.isSome = true ∧ brokenTrojan.moved .upload = 3 ∧
      brokenTrojan.standing .upload = 0) := by decide +kernel

end KeliCore
