/-
The HTTP proxy: a request head is read through a buffered reader over a clone
of the client's socket, and a tunnel is relayed from the socket itself.
-/
import KeliCore.Buffering
import KeliCore.HexDecoders
import KeliCore.Routing

namespace KeliCore

open Sample

open Buffering Slicing Text List BufReader

variable {reader : BufReader UInt8}

/-- The fields of `Socks5Server` and of `HttpProxyServer` that decide about
logins. -/
structure ProxyServer where
  authRequired : Bool
  users : HashMap String CoreUser

structure HttpProxyRequest where
  method : String
  target : String
  version : String
  headers : List (String × String)
  body : List UInt8
  userUuid : Option String
  userId : Option UInt64
deriving DecidableEq

def trimCrlf (value : String) : String :=
  String.ofList (value.toList.reverse.dropWhile fun c => c == '\r' || c == '\n').reverse

def headerValue (headers : List (String × String)) (name : String) : Option String :=
  (headers.find? fun header => eqIgnoreAsciiCase header.1 name).map Prod.snd

def readLine (reader : BufReader UInt8) : Except IoError (String × BufReader UInt8) :=
  match String.fromUTF8? (reader.readUntil 10).1.toByteArray with
  | none => .error ⟨.invalidData, "stream did not contain valid UTF-8"⟩
  | some line => .ok (line, (reader.readUntil 10).2)

/-- `splitn(3, ' ')`; a part that is missing is empty. -/
def splitRequestLine (line : String) : String × String × String :=
  match splitOnce ' ' line with
  | none => (line, "", "")
  | some (method, rest) =>
    match splitOnce ' ' rest with
    | none => (method, rest, "")
    | some (target, version) => (method, target, version)

/-- The header of a line that is trimmed already, if it is one. -/
def splitHeader (line : String) : Option (String × String) :=
  (splitOnce ':' line).map fun parts => (trim parts.1, trim parts.2)

/-- The error at the end of the stream. -/
def eofInHeaders : IoError :=
  ⟨.unexpectedEof, "unexpected eof in http headers"⟩

/-- The loop over the header lines, for at most `fuel` lines. -/
def readHeaders : Nat → BufReader UInt8 → List (String × String) →
    Except IoError (List (String × String) × BufReader UInt8)
  | 0, _, _ => .error eofInHeaders
  | fuel + 1, reader, headers =>
    match readLine reader with
    | .error error => .error error
    | .ok (line, reader) =>
      if line = "" then .error eofInHeaders
      else if trimCrlf line = "" then .ok (headers, reader)
      else
        readHeaders fuel reader (headers ++ (splitHeader (trimCrlf line)).toList)

/-- `parse_basic_auth`; the texts are `Basic` and base64 of both parts. -/
def parseBasicAuth (env : Externals) (value : String) : Option (String × String) :=
  (stripPrefix value "Basic ").bind fun encoded =>
    (env.base64Standard encoded).bind fun decoded =>
      (String.fromUTF8? decoded.toByteArray).bind (splitOnce ':')

def proxyAuthRequired : IoError :=
  ⟨.permissionDenied, "proxy authentication required"⟩

namespace ProxyServer

def authenticate (env : Externals) (server : ProxyServer)
    (headers : List (String × String)) : Except IoError (Option CoreUser) :=
  if !server.authRequired then .ok none
  else
    match headerValue headers "proxy-authorization" with
    | none => .error proxyAuthRequired
    | some value =>
      match parseBasicAuth env value with
      | none => .error proxyAuthRequired
      | some (username, password) =>
        match server.users.lookup username with
        | none => .error proxyAuthRequired
        | some user =>
          if user.credential = password then .ok (some user)
          else .error proxyAuthRequired

def contentLength (headers : List (String × String)) : Nat :=
  ((headerValue headers "content-length").bind parseU64).getD 0

/-- `read_request`, with what is left of the reader.  A line ends a read, so
there are no more lines than bytes. -/
def readRequest (env : Externals) (server : ProxyServer) (reader : BufReader UInt8) :
    Except IoError (HttpProxyRequest × BufReader UInt8) :=
  match readLine reader with
  | .error error => .error error
  | .ok (firstLine, reader) =>
    if firstLine = "" then
      .error ⟨.unexpectedEof, "empty http request"⟩
    else
      match splitRequestLine (trimCrlf firstLine) with
      | (method, target, version) =>
        if method = "" ∨ target = "" ∨ version = "" then
          .error ⟨.invalidData, "malformed http request line"⟩
        else
          match readHeaders (reader.remaining.length + 1) reader [] with
          | .error error => .error error
          | .ok (headers, reader) =>
            match server.authenticate env headers with
            | .error error => .error error
            | .ok user =>
              match reader.readExact (contentLength headers) with
              | none => .error ⟨.unexpectedEof, "failed to fill whole buffer"⟩
              | some (body, reader) =>
                .ok (⟨method, target, version, headers, body,
                  user.map CoreUser.uuid, user.map CoreUser.id⟩, reader)

end ProxyServer

structure HttpTarget where
  host : String
  port : UInt16
deriving DecidableEq

/-- The text between a bracket at the front and the next closing one, and what
follows it. -/
def splitBrackets (value : String) : Option (String × String) :=
  match value.toList with
  | '[' :: rest =>
    (splitOnceList ']' rest).map fun parts => (String.ofList parts.1, String.ofList parts.2)
  | _ => none

def isBracket (c : Char) : Bool := c == '[' || c == ']'

/-- The part of `parse_authority` behind the test for a plain port. -/
def parseBracketed (value : String) (defaultPort : UInt16) : HttpTarget :=
  match splitBrackets value with
  | some (host, rest) =>
    ⟨host, (((stripPrefix rest ":").bind parseU16).map UInt16.ofNat).getD defaultPort⟩
  | none => ⟨trimMatches isBracket value, defaultPort⟩

def parseAuthority (value : String) (defaultPort : UInt16) : Except IoError HttpTarget :=
  let value := trim value
  if value = "" then .error ⟨.invalidData, "empty http authority"⟩
  else
    match rsplitOnce ':' value with
    | some (host, port) =>
      if host.toList.contains ']' then .ok (parseBracketed value defaultPort)
      else
        match parseU16 port with
        | none => .error ⟨.invalidData, "invalid http authority port"⟩
        | some port =>
          if trimMatches isBracket host = "" then
            .error ⟨.invalidData, "empty http authority host"⟩
          else .ok ⟨trimMatches isBracket host, UInt16.ofNat port⟩
    | none => .ok (parseBracketed value defaultPort)

/-- What the proxy asks others while it serves a client. -/
structure HttpWorld where
  ensureSourceIpAllowed : Except IoError Unit
  acquireUserSession : Option CoreUser → Except IoError Unit
  connectRouteTarget : HttpTarget → String → Except IoError Unit
  registerTcpConnection : Option String → Except IoError Unit

/-- How a client that is served at all is served. -/
inductive HttpServed where
  /-- A tunnel, with all that the remote receives through it. -/
  | tunnel (target : HttpTarget) (received : List UInt8)
  | plain (request : HttpProxyRequest)
deriving DecidableEq

/-- The upload half of the relay: every read of the client's socket is written
whole, up to the end. -/
def relayUpload : List (List UInt8) → List UInt8
  | [] => []
  | piece :: pieces => piece ++ relayUpload pieces

namespace ProxyServer

/-- `handle_connect`, with the reads that are left of the client's socket. -/
def handleConnect (world : HttpWorld) (request : HttpProxyRequest)
    (socket : List (List UInt8)) : Except IoError HttpServed :=
  match parseAuthority request.target 443 with
  | .error error => .error error
  | .ok target =>
    match world.connectRouteTarget target "tcp" with
    | .error error => .error error
    | .ok _ =>
      match world.registerTcpConnection request.userUuid with
      | .error error => .error error
      | .ok _ => .ok (.tunnel target (relayUpload socket))

/-- `handle_tcp_client`, given what the reads of the client's socket return.
The reader is dropped with the bytes in its buffer. -/
def handleTcpClient (env : Externals) (server : ProxyServer)
    (world : HttpWorld) (reads : List (List UInt8)) : Except IoError HttpServed :=
  match world.ensureSourceIpAllowed with
  | .error error => .error error
  | .ok _ =>
    match server.readRequest env (BufReader.new reads) with
    | .error error => .error error
    | .ok (request, reader) =>
      match world.acquireUserSession (request.userUuid.bind server.users.lookup) with
      | .error error => .error error
      | .ok _ =>
        if eqIgnoreAsciiCase request.method "CONNECT" then
          handleConnect world request reader.pieces
        else .ok (.plain request)

end ProxyServer

def IsLine (line : List UInt8) : Prop :=
  ∃ content, line = content ++ [10] ∧ 10 ∉ content

/-- The line that ends a request head: nothing but line ends. -/
def IsBlank (line : List UInt8) : Prop :=
  (String.fromUTF8? line.toByteArray).map trimCrlf = some ""

/-- A request head: a first line, header lines and a blank line. -/
structure RequestHead where
  first : List UInt8
  fields : List (List UInt8)
  blank : List UInt8
  first_line : IsLine first
  fields_line : ∀ line ∈ fields, IsLine line ∧ ¬ IsBlank line
  blank_line : IsLine blank ∧ IsBlank blank

namespace RequestHead

def bytes (head : RequestHead) : List UInt8 :=
  head.first ++ (head.fields.flatten ++ head.blank)

def headers (head : RequestHead) : List (String × String) :=
  head.fields.filterMap fun line =>
    (String.fromUTF8? line.toByteArray).bind fun line =>
      splitHeader (trimCrlf line)

end RequestHead

theorem relayUpload_eq (socket : List (List UInt8)) : relayUpload socket = socket.flatten := by
  induction socket with
  | nil => rfl
  | cons piece pieces ih => rw [relayUpload, ih, flatten_cons]

variable {line rest payload : List UInt8}

theorem readUntil_line (hline : IsLine line)
    (hremaining : reader.remaining = line ++ rest) : (reader.readUntil 10).1 = line ∧
      (reader.readUntil 10).2.remaining = rest := by
  obtain ⟨content, rfl, hfree⟩ := hline
  apply readUntilFrom_of_cut
  change cutBehind 10 reader.remaining = _
  rw [hremaining, append_assoc, singleton_append]
  exact cutBehind_append 10 hfree rest

variable {after : BufReader UInt8}

theorem readLine_line {text : String}
    (hline : IsLine line) (hremaining : reader.remaining = line ++ rest)
    (hread : readLine reader = .ok (text, after)) :
    String.fromUTF8? line.toByteArray = some text ∧
      after = (reader.readUntil 10).2 ∧ after.remaining = rest := by
  obtain ⟨hfirst, hrest⟩ := readUntil_line hline hremaining
  rw [readLine, hfirst] at hread
  split at hread
  · contradiction
  next found hfound =>
    cases hread
    exact ⟨hfound, rfl, hrest⟩

/-- The header lines are read up to and with the blank line, and no piece is
drawn that this does not need. -/
theorem readHeaders_fields {blank : List UInt8} {reads : List (List UInt8)} {consumed : List UInt8}
    {fuel : Nat} {headers found : List (String × String)} {fields : List (List UInt8)}
    (hfields : ∀ line ∈ fields, IsLine line ∧ ¬ IsBlank line)
    (hblank : IsLine blank ∧ IsBlank blank) (hreads : ∀ piece ∈ reads, piece ≠ [])
    (hdrawn : Drawn reads consumed reader)
    (hremaining : reader.remaining = fields.flatten ++ (blank ++ payload))
    (hread : readHeaders fuel reader headers = .ok (found, after)) :
    found = headers ++ (fields.filterMap fun line =>
        (String.fromUTF8? line.toByteArray).bind fun line => splitHeader (trimCrlf line)) ∧
      after.remaining = payload ∧
      Drawn reads (consumed ++ (fields.flatten ++ blank)) after := by
  induction fields generalizing reader consumed headers fuel with
  | nil =>
    cases fuel with
    | zero => contradiction
    | succ fuel =>
      rw [readHeaders] at hread
      split at hread
      · cases hread
      next text rest hline =>
        obtain ⟨htext, rfl, hrest⟩ := readLine_line hblank.1 hremaining hline
        have htrim : trimCrlf text = "" := by
          have hempty := hblank.2
          rw [IsBlank, htext] at hempty
          exact Option.some.inj hempty
        split at hread
        · contradiction
        · cases hread
          refine ⟨(append_nil _).symm, hrest, ?_⟩
          have hnext := hdrawn.readUntil hreads 10
          rw [(readUntil_line hblank.1 hremaining).1] at hnext
          exact hnext
  | cons line fields ih =>
    cases fuel with
    | zero => contradiction
    | succ fuel =>
      rw [forall_mem_cons] at hfields
      rw [flatten_cons, append_assoc] at hremaining
      rw [readHeaders] at hread
      split at hread
      · cases hread
      next text rest hline =>
        obtain ⟨htext, rfl, hrest⟩ := readLine_line hfields.1.1 hremaining hline
        have htrim : trimCrlf text ≠ "" := by
          intro hempty
          apply hfields.1.2
          rw [IsBlank, htext, Option.map_some, hempty]
        have hnext := hdrawn.readUntil hreads 10
        rw [(readUntil_line hfields.1.1 hremaining).1] at hnext
        split at hread
        · contradiction
        · obtain ⟨rfl, hafter, hlast⟩ := ih hfields.2 hnext hrest hread
          refine ⟨?_, hafter, ?_⟩
          · rw [filterMap_cons, htext, Option.bind_some]
            cases splitHeader (trimCrlf text) with
            | none | some header => simp
          · rw [flatten_cons, append_assoc, ← append_assoc]
            exact hlast

theorem readRequest_head {env : Externals}
    {server : ProxyServer} (head : RequestHead) {reads : List (List UInt8)}
    (hreads : ∀ piece ∈ reads, piece ≠ []) (hflatten : reads.flatten = head.bytes ++ payload)
    {request : HttpProxyRequest}
    (hread : server.readRequest env (new reads) = .ok (request, after)) :
    ∃ reader, Drawn reads head.bytes reader ∧ reader.remaining = payload ∧
      request.headers = head.headers ∧
      reader.readExact (ProxyServer.contentLength head.headers) = some (request.body, after) := by
  have hremaining : (new reads).remaining =
      head.first ++ (head.fields.flatten ++ (head.blank ++ payload)) := by
    rw [new, remaining, nil_append, hflatten, RequestHead.bytes, append_assoc, append_assoc]
  rw [ProxyServer.readRequest] at hread
  split at hread
  · cases hread
  next firstLine reader hfirst =>
    obtain ⟨-, rfl, hrest⟩ := readLine_line head.first_line hremaining hfirst
    have hdrawn := (Drawn.new reads).readUntil hreads 10
    rw [(readUntil_line head.first_line hremaining).1, nil_append] at hdrawn
    split at hread
    · cases hread
    · split at hread
      rename_i method target version hparts
      split at hread
      · cases hread
      · split at hread
        · cases hread
        next headers reader hheaders =>
          obtain ⟨hfound, hafter, hlast⟩ := readHeaders_fields head.fields_line
            head.blank_line hreads hdrawn hrest hheaders
          split at hread
          · cases hread
          · split at hread
            · cases hread
            next body last hbody =>
              cases hread
              refine ⟨reader, hlast, hafter, hfound, ?_⟩
              rw [← hbody, hfound]
              rfl

/-- After a successful CONNECT the remote receives what follows the head exactly
if the request announces no body and some read ended where the head does. -/
theorem connect_transparent_iff (env : Externals) (server : ProxyServer)
    (world : HttpWorld) (head : RequestHead) (payload : List UInt8)
    (reads : List (List UInt8)) (hreads : ∀ piece ∈ reads, piece ≠ [])
    (hflatten : reads.flatten = head.bytes ++ payload) (target : HttpTarget) (received : List UInt8)
    (htunnel : server.handleTcpClient env world reads = .ok (.tunnel target received)) :
    received = payload ↔ ProxyServer.contentLength head.headers = 0 ∧
        ∃ count, (reads.take count).flatten = head.bytes := by
  rw [ProxyServer.handleTcpClient] at htunnel
  split at htunnel
  · cases htunnel
  · split at htunnel
    · cases htunnel
    next request after hrequest =>
      obtain ⟨reader, hdrawn, hremaining, -, hbody⟩ :=
        readRequest_head head hreads hflatten hrequest
      obtain ⟨happend, hlen⟩ := append_of_readExactFrom hbody
      have hreceived : received = after.pieces.flatten := by
        split at htunnel
        · cases htunnel
        · split at htunnel
          · rw [ProxyServer.handleConnect] at htunnel
            split at htunnel
            · cases htunnel
            · split at htunnel
              · cases htunnel
              · split at htunnel
                · cases htunnel
                · simp only [Except.ok.injEq, HttpServed.tunnel.injEq] at htunnel
                  rw [← htunnel.2, relayUpload_eq]
          · simp at htunnel
      have hpayload : request.body ++ (after.buffer ++ received) = payload := by
        rw [hreceived, ← hremaining]
        exact happend
      -- without a body the reader is left as it was
      have hsame : ProxyServer.contentLength head.headers = 0 → after = reader := by
        intro hzero
        rw [hzero, BufReader.readExact] at hbody
        cases hpieces : reader.pieces with
        | nil | cons piece pieces =>
          rw [hpieces, readExactFrom, if_pos (Nat.zero_le _)] at hbody
          rw [← (Prod.mk.inj (Option.some.inj hbody)).2, ← hpieces]
          rfl
      rw [← hdrawn.buffer_eq_nil_iff]
      constructor
      · intro hall
        have hcount := congrArg length hpayload
        rw [hall] at hcount
        simp only [length_append] at hcount
        have hzero : ProxyServer.contentLength head.headers = 0 := by omega
        refine ⟨hzero, ?_⟩
        rw [← hsame hzero, ← length_eq_zero_iff]
        omega
      · rintro ⟨hzero, hempty⟩
        rw [hzero, length_eq_zero_iff] at hlen
        rw [hlen, hsame hzero, hempty] at hpayload
        exact hpayload

/-- `CONNECT a:1 HTTP/1.1` and a blank line. -/
def connectHead : RequestHead where
  first := bytes "CONNECT a:1 HTTP/1.1\r\n"
  fields := []
  blank := [13, 10]
  first_line := ⟨bytes "CONNECT a:1 HTTP/1.1\r", by decide +kernel⟩
  fields_line := by simp
  blank_line := ⟨⟨[13], by decide⟩, by unfold IsBlank; decide +kernel⟩

/-- Everything that the proxy asks for is granted. -/
def httpWorld : HttpWorld where
  ensureSourceIpAllowed := .ok ()
  acquireUserSession _ := .ok ()
  connectRouteTarget _ _ := .ok ()
  registerTcpConnection _ := .ok ()

theorem connect_transparent_iff_sample :
    ProxyServer.handleTcpClient externals ⟨false, ∅⟩ httpWorld
        [connectHead.bytes, [1, 2, 3]] = .ok (.tunnel ⟨"a", 1⟩ [1, 2, 3]) ∧
    ProxyServer.contentLength connectHead.headers = 0 :=
  ⟨by decide +kernel, ((connect_transparent_iff externals ⟨false, ∅⟩ httpWorld
      connectHead [1, 2, 3] [connectHead.bytes, [1, 2, 3]]
      (by decide +kernel) rfl ⟨"a", 1⟩ [1, 2, 3] (by decide +kernel)).1
        rfl).1⟩

/-- What comes in one read with the head stays in the buffer. -/
theorem connect_loses_read_ahead :
    ProxyServer.handleTcpClient externals ⟨false, ∅⟩ httpWorld
        [connectHead.bytes ++ [1, 2, 3]] = .ok (.tunnel ⟨"a", 1⟩ []) := by decide +kernel

namespace ProxyServer

/-- The bytes of the lines that are read, up to a blank one. -/
def linesRead : Nat → BufReader UInt8 → Nat
  | 0, _ => 0
  | fuel + 1, reader =>
    (reader.readUntil 10).1.length +
      match readLine reader with
      | .error _ => 0
      | .ok (line, reader) => if trimCrlf line = "" then 0 else linesRead fuel reader

/-- The head as `read_request` goes through it, if it gets to the body: the
length of the vector that is made for that. -/
def bodyVector (env : Externals) (server : ProxyServer) (reader : BufReader UInt8) : Option Nat :=
  match readLine reader with
  | .error _ => none
  | .ok (firstLine, reader) =>
    match splitRequestLine (trimCrlf firstLine) with
    | (method, target, version) =>
      if method = "" ∨ target = "" ∨ version = "" then none
      else
        match readHeaders (reader.remaining.length + 1) reader [] with
        | .error _ => none
        | .ok (headers, _) =>
          match server.authenticate env headers with
          | .error _ => none
          | .ok _ => some (contentLength headers)

/-- What `read_request` allocates: each line as it is read, the parts of it
that are kept, which are no longer than the line, and the body. -/
def requestMemory (env : Externals) (server : ProxyServer) (reader : BufReader UInt8) : Nat :=
  2 * linesRead (reader.remaining.length + 1) reader + (bodyVector env server reader).getD 0

/-- `isize::MAX`; a longer vector is a capacity overflow. -/
def maxCapacity : Nat := 2 ^ 63 - 1

theorem linesRead_le (fuel : Nat) (reader : BufReader UInt8) :
    linesRead fuel reader ≤ reader.remaining.length := by
  induction fuel generalizing reader with
  | zero => exact Nat.zero_le _
  | succ fuel ih =>
    have hall : (reader.readUntil 10).1.length + (reader.readUntil 10).2.remaining.length =
        reader.remaining.length := by
      rw [← length_append]
      exact congrArg length (@readUntilFrom_append _ _ 10 reader.buffer reader.pieces)
    rw [linesRead, ← hall]
    apply Nat.add_le_add_left
    split
    · exact Nat.zero_le _
    next line rest hread =>
      split
      · exact Nat.zero_le _
      · obtain rfl : (reader.readUntil 10).2 = rest := by
          rw [readLine] at hread
          split at hread
          · contradiction
          · exact (Prod.mk.inj (Except.ok.inj hread)).2
        exact ih _

/-- For any set of clients: what their requests allocate is bounded by what
they send, and no vector is too long, exactly if this holds of the bodies that
the admitted requests among them announce. -/
theorem request_memory_bounded_iff (env : Externals) (server : ProxyServer)
    (clients : Set (List (List UInt8))) :
    ((∃ constant factor, ∀ reads ∈ clients, requestMemory env server (.new reads) ≤
          constant + factor * reads.flatten.length) ∧
        ∀ reads ∈ clients, (bodyVector env server (.new reads)).getD 0 ≤ maxCapacity) ↔
      (∃ constant factor, ∀ reads ∈ clients, ∀ length ∈ bodyVector env server (.new reads),
          length ≤ constant + factor * reads.flatten.length) ∧
        ∀ reads ∈ clients, ∀ length ∈ bodyVector env server (.new reads), length ≤ maxCapacity := by
  apply and_congr
  · constructor
    · rintro ⟨constant, factor, hbound⟩
      refine ⟨constant, factor, fun reads hreads length hlen => ?_⟩
      refine le_trans ?_ (hbound reads hreads)
      rw [requestMemory, Option.mem_def.1 hlen]
      exact Nat.le_add_left _ _
    · rintro ⟨constant, factor, hbound⟩
      refine ⟨constant, factor + 2, fun reads hreads => ?_⟩
      have hlines := linesRead_le ((new reads).remaining.length + 1) (.new reads)
      have hreceived : (new reads).remaining = reads.flatten := rfl
      rw [requestMemory, Nat.add_mul]
      cases hbody : bodyVector env server (.new reads) with
      | none =>
        rw [Option.getD_none]
        rw [hreceived] at hlines ⊢
        omega
      | some length =>
        have hlen := hbound reads hreads length hbody
        rw [Option.getD_some]
        rw [hreceived] at hlines ⊢
        omega
  · refine forall₂_congr fun reads _ => ?_
    cases bodyVector env server (.new reads) with
    | none | some length => simp

end ProxyServer

/-- A head that announces more than there is room for. -/
def hugeBody : List UInt8 :=
  bytes "GET http://a/ HTTP/1.1\r\ncontent-length: 9223372036854775808\r\n\r\n"

theorem huge_body_overflows : hugeBody.length = 63 ∧
      ProxyServer.bodyVector externals ⟨false, ∅⟩ (.new [hugeBody]) =
        some (ProxyServer.maxCapacity + 1) := by decide +kernel

end KeliCore
