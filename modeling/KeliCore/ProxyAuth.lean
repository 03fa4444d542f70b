/-
Who is let in by the proxies whose users are kept by uuid: SOCKS5 and HTTP,
which ask for a login if they were started with users, and Naive, which looks a
login up by its name and by its secret.
-/
import KeliCore.HttpProxy
import KeliCore.Survivors
import KeliCore.UdpFormats

namespace KeliCore

open Sample

open ProxyServer Buffering Text Option

variable {server : ProxyServer} {stream rest : List UInt8}

/-- `UserStore::replace_uuid_users` and `UserStore::apply_uuid_delta` -/
def updateUsers (users : HashMap String CoreUser) : UserUpdate → HashMap String CoreUser
  | .replaceUsers next => keyedUserState CoreUser.uuid next
  | .applyUserDelta delta => (applyUuidDelta users delta).1

namespace ProxyServer

def withSharedLimits (users : List CoreUser) : ProxyServer where
  authRequired := !users.isEmpty
  users := keyedUserState CoreUser.uuid users

def update (server : ProxyServer) (update : UserUpdate) : ProxyServer :=
  { server with users := updateUsers server.users update }

end ProxyServer

inductive SocksCommand where
  | connect
  | udpAssociate

/-- `SocksRequest` as `read_request` makes it. -/
structure SocksRequest where
  command : SocksCommand
  userUuid : Option String
  userId : Option UInt64
  target : SocksTarget

def readExactVec (len : Nat) (stream : List UInt8) : Except IoError (List UInt8 × List UInt8) :=
  if len ≤ stream.length then .ok (stream.take len, stream.drop len)
  else .error ⟨.unexpectedEof, "failed to fill whole buffer"⟩

def readString (len : Nat) (stream : List UInt8) : Except IoError (String × List UInt8) := do
  let (octets, stream) ← readExactVec len stream
  match String.fromUTF8? octets.toByteArray with
  | none => .error ⟨.invalidData, "invalid utf-8"⟩
  | some text => .ok (text, stream)

/-- A `u8` of the stream. -/
def readByte (stream : List UInt8) : Except IoError (UInt8 × List UInt8) :=
  match stream with
  | [] => .error ⟨.unexpectedEof, "failed to fill whole buffer"⟩
  | byte :: stream => .ok (byte, stream)

namespace ProxyServer

def selectAuthMethod (server : ProxyServer) (methods : List UInt8) : UInt8 :=
  (methods.find? fun method => method == if server.authRequired then 0x02 else 0x00).getD 0xff

def readPasswordAuth (server : ProxyServer) (stream : List UInt8) :
    Except IoError (CoreUser × List UInt8) := do
  let (version, stream) ← readByte stream
  let (usernameLen, stream) ← readByte stream
  if version ≠ 0x01 then
    .error ⟨.invalidData, "unsupported username/password auth version"⟩
  else
    let (username, stream) ← readString usernameLen.toNat stream
    let (passwordLen, stream) ← readByte stream
    let (password, stream) ← readString passwordLen.toNat stream
    match server.users.lookup username with
    | none => .error ⟨.permissionDenied, "invalid username or password"⟩
    | some user =>
      if user.credential = password then .ok (user, stream)
      else .error ⟨.permissionDenied, "invalid username or password"⟩

end ProxyServer

/-- The host of `read_command_request`. -/
def readSocksHost (kind : UInt8) (stream : List UInt8) : Except IoError (String × List UInt8) := do
  if kind = atypIpv4 then
    let (octets, stream) ← readExactVec 4 stream
    .ok ((IpAddr.v4 (BitVec.ofNat 32 (beNat octets))).display, stream)
  else if kind = atypIpv6 then
    let (octets, stream) ← readExactVec 16 stream
    .ok ((IpAddr.v6 (BitVec.ofNat 128 (beNat octets))).display, stream)
  else if kind = atypDomain then
    let (len, stream) ← readByte stream
    readString len.toNat stream
  else .error ⟨.invalidData, "unsupported socks address type"⟩

def readCommandRequest (user : Option CoreUser) (stream : List UInt8) :
    Except IoError SocksRequest := do
  let (version, stream) ← readByte stream
  let (command, stream) ← readByte stream
  let (reserved, stream) ← readByte stream
  let (kind, stream) ← readByte stream
  if version ≠ 0x05 then .error ⟨.invalidData, "unsupported request version"⟩
  else if command ≠ 0x01 ∧ command ≠ 0x03 then
    .error ⟨.unsupported, "only socks connect and udp associate are supported"⟩
  else if command = 0x03 ∧ reserved ≠ 0x00 then
    .error ⟨.unsupported, "socks udp associate request has invalid reserved byte"⟩
  else
    let (host, stream) ← readSocksHost kind stream
    let (port, _) ← readExactVec 2 stream
    .ok
      { command := if command = 0x01 then .connect else .udpAssociate
        userUuid := user.map CoreUser.uuid
        userId := user.map CoreUser.id
        target := { host, port := .ofNat (beNat port) } }

namespace ProxyServer

def readSocksRequest (server : ProxyServer) (stream : List UInt8) :
    Except IoError SocksRequest := do
  let (version, stream) ← readByte stream
  let (count, stream) ← readByte stream
  if version ≠ 0x05 then .error ⟨.invalidData, "unsupported socks version"⟩
  else
    let (methods, stream) ← readExactVec count.toNat stream
    let selected := server.selectAuthMethod methods
    if selected = 0x00 then readCommandRequest none stream
    else if selected = 0x02 then
      let (user, stream) ← server.readPasswordAuth stream
      readCommandRequest (some user) stream
    else .error ⟨.permissionDenied, "no matching socks auth method"⟩

end ProxyServer

/-- The name and the secret are those of a user of the table. -/
def ValidLogin (users : HashMap String CoreUser) (username password : String) :
    Prop :=
  ∃ user, users.lookup username = some user ∧ user.credential = password

/-- The client's greeting is followed by a name and a secret. -/
def SocksPresents (stream : List UInt8) (username password : String) : Prop :=
  ∃ (count usernameLen passwordLen : UInt8) (methods rest : List UInt8),
    methods.length = count.toNat ∧ (bytes username).length = usernameLen.toNat ∧
      (bytes password).length = passwordLen.toNat ∧
      stream = 0x05 :: count :: (methods ++ 0x01 :: usernameLen ::
        (bytes username ++ passwordLen :: (bytes password ++ rest)))

/-- The request carries a name and a secret. -/
def HttpPresents (env : Externals) (request : HttpProxyRequest)
    (username password : String) : Prop :=
  (headerValue request.headers "proxy-authorization").bind
    (parseBasicAuth env) = some (username, password)

namespace ProxyServer

/-- Whoever is served by the SOCKS5 proxy has logged in, unless there is no
user. -/
def SocksLaw (server : ProxyServer) : Prop :=
  ∀ stream request, server.readSocksRequest stream = .ok request →
    server.users.len = 0 ∨ ∃ username password, SocksPresents stream username password ∧
        ValidLogin server.users username password

/-- The same for the HTTP proxy. -/
def HttpLaw (env : Externals) (server : ProxyServer) : Prop :=
  ∀ reader request after, server.readRequest env reader = .ok (request, after) →
      server.users.len = 0 ∨ ∃ username password, HttpPresents env request username password ∧
          ValidLogin server.users username password

end ProxyServer

theorem readByte_ok {byte : UInt8}
    (hread : readByte stream = .ok (byte, rest)) : stream = byte :: rest := by
  cases stream with
  | nil => contradiction
  | cons head tail =>
    cases hread
    rfl

theorem readExactVec_ok {len : Nat} {octets : List UInt8}
    (hread : readExactVec len stream = .ok (octets, rest)) :
    stream = octets ++ rest ∧ octets.length = len := by
  rw [readExactVec] at hread
  split at hread
  · cases hread
    rw [List.take_append_drop, List.length_take]
    exact ⟨rfl, by omega⟩
  · contradiction

theorem readString_ok {len : Nat} {text : String}
    (hread : readString len stream = .ok (text, rest)) :
    stream = bytes text ++ rest ∧ (bytes text).length = len := by
  obtain ⟨⟨octets, tail⟩, hoctets, hnext⟩ := bind_eq_ok.1 hread
  obtain ⟨rfl, rfl⟩ := readExactVec_ok hoctets
  dsimp only at hnext
  split at hnext
  · contradiction
  next found hfound =>
    cases hnext
    rw [fromUTF8?_eq_some_iff.1 hfound]
    exact ⟨rfl, rfl⟩

theorem readPasswordAuth_ok {user : CoreUser}
    (hread : server.readPasswordAuth stream = .ok (user, rest)) :
    ∃ (usernameLen passwordLen : UInt8) (username password : String),
      (bytes username).length = usernameLen.toNat ∧ (bytes password).length = passwordLen.toNat ∧
        stream = 0x01 :: usernameLen ::
          (bytes username ++ passwordLen :: (bytes password ++ rest)) ∧
        ValidLogin server.users username password := by
  obtain ⟨⟨version, stream⟩, hversion, hread⟩ := bind_eq_ok.1 hread
  obtain ⟨⟨usernameLen, stream⟩, husernameLen, hread⟩ := bind_eq_ok.1 hread
  dsimp only at hread
  split at hread
  · contradiction
  next hone =>
    obtain ⟨⟨username, stream⟩, husername, hread⟩ := bind_eq_ok.1 hread
    obtain ⟨⟨passwordLen, stream⟩, hpasswordLen, hread⟩ := bind_eq_ok.1 hread
    obtain ⟨⟨password, stream⟩, hpassword, hread⟩ := bind_eq_ok.1 hread
    dsimp only at hread
    split at hread
    · contradiction
    next found hfound =>
      split at hread
      next hcredential =>
        obtain ⟨rfl, rfl⟩ := Prod.mk.inj (Except.ok.inj hread)
        obtain rfl := readByte_ok hversion
        obtain rfl := readByte_ok husernameLen
        obtain ⟨rfl, husernameLength⟩ := readString_ok husername
        obtain rfl := readByte_ok hpasswordLen
        obtain ⟨rfl, hpasswordLength⟩ := readString_ok hpassword
        rw [not_not.1 hone]
        exact ⟨usernameLen, passwordLen, username, password, husernameLength,
          hpasswordLength, rfl, found, hfound, hcredential⟩
      · contradiction

theorem socksLaw_of_required (hrequired : server.authRequired = true) : server.SocksLaw := by
  intro stream request hread
  right
  obtain ⟨⟨version, stream⟩, hversion, hread⟩ := bind_eq_ok.1 hread
  obtain ⟨⟨count, stream⟩, hcount, hread⟩ := bind_eq_ok.1 hread
  dsimp only at hread
  split at hread
  · contradiction
  next hfive =>
    obtain ⟨⟨methods, stream⟩, hmethods, hread⟩ := bind_eq_ok.1 hread
    dsimp only at hread
    have hselected : server.selectAuthMethod methods ≠ 0x00 := by
      rw [selectAuthMethod, hrequired, if_pos rfl]
      intro hnone
      cases hfind : methods.find? fun method => method == 0x02 with
      | none =>
        rw [hfind] at hnone
        contradiction
      | some method =>
        have hmethod := List.find?_some hfind
        rw [hfind, getD_some] at hnone
        rw [hnone] at hmethod
        contradiction
    rw [if_neg hselected] at hread
    split at hread
    · obtain ⟨⟨user, rest⟩, huser, -⟩ := bind_eq_ok.1 hread
      obtain ⟨usernameLen, passwordLen, username, password, husername,
        hpassword, rfl, hvalid⟩ := readPasswordAuth_ok huser
      obtain rfl := readByte_ok hversion
      obtain rfl := readByte_ok hcount
      obtain ⟨rfl, hlen⟩ := readExactVec_ok hmethods
      rw [not_not.1 hfive]
      exact ⟨username, password, ⟨count, usernameLen, passwordLen, methods,
        rest, hlen, husername, hpassword, rfl⟩, hvalid⟩
    · contradiction

theorem authenticate_of_readRequest {env : Externals} {reader : BufReader UInt8}
    {request : HttpProxyRequest} {after : BufReader UInt8}
    (hread : server.readRequest env reader = .ok (request, after)) :
    ∃ user, server.authenticate env request.headers = .ok user := by
  rw [readRequest] at hread
  split at hread
  · cases hread
  · split at hread
    · cases hread
    · split at hread
      split at hread
      · cases hread
      · split at hread
        · cases hread
        · split at hread
          · cases hread
          next user huser =>
            split at hread
            · cases hread
            · cases hread
              exact ⟨user, huser⟩

theorem httpLaw_of_required (env : Externals)
    (hrequired : server.authRequired = true) : server.HttpLaw env := by
  intro reader request after hread
  right
  obtain ⟨user, huser⟩ := authenticate_of_readRequest hread
  rw [authenticate, hrequired] at huser
  cases hvalue : headerValue request.headers "proxy-authorization" with
  | none =>
    rw [hvalue] at huser
    contradiction
  | some value =>
    rw [hvalue] at huser
    cases hparts : parseBasicAuth env value with
    | none =>
      simp only [hparts] at huser
      contradiction
    | some parts =>
      obtain ⟨username, password⟩ := parts
      simp only [hparts] at huser
      cases hfound : server.users.lookup username with
      | none =>
        simp only [hfound] at huser
        contradiction
      | some found =>
        simp only [hfound] at huser
        refine ⟨username, password, ?_, found, hfound, ?_⟩
        · rw [HttpPresents, hvalue, bind_some, hparts]
        · by_contra hcredential
          rw [if_neg hcredential] at huser
          contradiction

/-- One CONNECT to 0.0.0.0, port 0, without a login. -/
def bareSocks : List UInt8 := [5, 1, 0, 5, 1, 0, 1, 0, 0, 0, 0, 0, 0]

/-- One GET without a header. -/
def bareGet : BufReader UInt8 :=
  BufReader.new [bytes "GET http://a/ HTTP/1.1\r\n\r\n"]

/-- A proxy that asks for no logins serves clients that have none. -/
theorem socksLaw_of_open (hopen : server.authRequired = false) :
    server.SocksLaw ↔ server.users.len = 0 := by
  refine ⟨fun hlaw => ?_, fun hempty _ _ _ => .inl hempty⟩
  have hmethod : server.selectAuthMethod [0] = 0 := by
    rw [selectAuthMethod, hopen]
    rfl
  have hread : ∃ request, server.readSocksRequest bareSocks = .ok request := by
    change ∃ request, (if server.selectAuthMethod [0] = 0x00
      then readCommandRequest none [5, 1, 0, 1, 0, 0, 0, 0, 0, 0]
      else _) = Except.ok request
    rw [if_pos hmethod]
    exact ⟨_, rfl⟩
  obtain ⟨request, hread⟩ := hread
  rcases hlaw _ _ hread with hempty | ⟨username, password, hpresents, -⟩
  · exact hempty
  · obtain ⟨count, usernameLen, passwordLen, methods, rest, hcount, -, -, hstream⟩ := hpresents
    simp only [bareSocks, List.cons.injEq] at hstream
    obtain ⟨-, rfl, hstream⟩ := hstream
    match methods, hcount with
    | [method], _ => simp at hstream

theorem httpLaw_of_open (env : Externals) (hopen : server.authRequired = false) :
    server.HttpLaw env ↔ server.users.len = 0 := by
  refine ⟨fun hlaw => ?_, fun hempty _ _ _ _ => .inl hempty⟩
  have hfirst : readLine bareGet = .ok ("GET http://a/ HTTP/1.1\r\n", ⟨[13, 10], []⟩) := by
    decide +kernel
  have hsplit : splitRequestLine (trimCrlf "GET http://a/ HTTP/1.1\r\n") =
      ("GET", "http://a/", "HTTP/1.1") := by decide +kernel
  have hheaders : readHeaders 3 ⟨[13, 10], []⟩ [] = .ok ([], ⟨[], []⟩) := by decide +kernel
  have hread : server.readRequest env bareGet =
      .ok (⟨"GET", "http://a/", "HTTP/1.1", [], [], none, none⟩, ⟨[], []⟩) := by
    rw [readRequest, hfirst]
    dsimp only
    rw [if_neg (by decide), hsplit]
    dsimp only
    rw [if_neg (by decide)]
    have hlines : (BufReader.mk [13, 10] [] : BufReader UInt8).remaining.length + 1 = 3 := rfl
    rw [hlines, hheaders]
    dsimp only
    rw [authenticate, hopen]
    rfl
  rcases hlaw _ _ _ hread with hempty | ⟨username, password, hpresents, -⟩
  · exact hempty
  · contradiction

/-- Over every history of updates: a law that holds of every proxy that asks
for logins, and of an open one only while it has no users, holds in every state
exactly if the proxy was started with users or never has one. -/
theorem law_iff {law : ProxyServer → Prop}
    (hrequired : ∀ server : ProxyServer, server.authRequired = true →
      law server) (hopen : ∀ server : ProxyServer, server.authRequired = false →
      (law server ↔ server.users.len = 0)) (initial : List CoreUser) (updates : List UserUpdate) :
    (∀ past, past <+: updates → law (Run.exec ProxyServer.update
        (ProxyServer.withSharedLimits initial) past)) ↔ initial ≠ [] ∨ ∀ past, past <+: updates →
        (Run.exec ProxyServer.update (ProxyServer.withSharedLimits initial)
          past).users.len = 0 := by
  have hauth : ∀ past, (Run.exec update
      (withSharedLimits initial) past).authRequired = !initial.isEmpty := by
    intro past
    exact @Run.exec_always _ _ update (fun server => server.authRequired = !initial.isEmpty)
      (fun server update hserver => hserver) _ rfl past
  cases initial with
  | nil =>
    simp only [ne_eq, not_true_eq_false, false_or]
    exact forall₂_congr fun past _ => hopen _ (hauth past)
  | cons user users =>
    refine iff_of_true (fun past _ => hrequired _ (hauth past)) (.inl ?_)
    simp

/-- Clients without a login are served only while there are no users, exactly
if the proxy was started with users or never has one. -/
theorem open_proxy_law_iff (env : Externals) (initial : List CoreUser) (updates : List UserUpdate) :
    ((∀ past, past <+: updates → (Run.exec ProxyServer.update
        (ProxyServer.withSharedLimits initial) past).SocksLaw) ↔
      initial ≠ [] ∨ ∀ past, past <+: updates →
        (Run.exec ProxyServer.update (ProxyServer.withSharedLimits initial) past).users.len = 0) ∧
    ((∀ past, past <+: updates → (Run.exec ProxyServer.update
        (ProxyServer.withSharedLimits initial) past).HttpLaw env) ↔
      initial ≠ [] ∨ ∀ past, past <+: updates →
        (Run.exec ProxyServer.update (ProxyServer.withSharedLimits initial) past).users.len = 0) :=
  ⟨law_iff (fun _ => socksLaw_of_required) (fun _ => socksLaw_of_open) initial updates,
    law_iff (fun _ => httpLaw_of_required env) (fun _ => httpLaw_of_open env) initial updates⟩

def dave : CoreUser where
  id := 4
  uuid := "dave"
  password := some "secret"

theorem open_proxy_stays_open : ¬ (Run.exec ProxyServer.update (ProxyServer.withSharedLimits [])
        [.replaceUsers [dave]]).SocksLaw ∧
      ¬ (Run.exec ProxyServer.update (ProxyServer.withSharedLimits [])
        [.replaceUsers [dave]]).HttpLaw externals := by
  rw [socksLaw_of_open rfl, httpLaw_of_open externals rfl]
  decide +kernel

namespace Naive

def parseBasicAuth (env : Externals) (value : String) : Option (String × String) :=
  let value := (trim value).toList
  match value.dropWhile fun c => !isWhitespace c with
  | [] => none
  | _ :: rest =>
    let scheme := String.ofList (value.takeWhile fun c => !isWhitespace c)
    let encoded := trim (String.ofList rest)
    if !eqIgnoreAsciiCase scheme "Basic" then none
    else if encoded = "" then none
    else
      (env.base64Standard encoded).bind fun decoded =>
        (String.fromUTF8? decoded.toByteArray).bind (splitOnce ':')

def authenticate (users : HashMap String CoreUser) (username password : String) : Option CoreUser :=
  match (users.lookup username).filter fun user =>
      user.credential == password with
  | some user => some user
  | none =>
    (users.lookup password).filter fun user => user.credential == password || user.uuid == password

def usersAfter (initial : List CoreUser) (updates : List UserUpdate) : HashMap String CoreUser :=
  Run.exec updateUsers (keyedUserState CoreUser.uuid initial) updates

theorem filed_usersAfter (initial : List CoreUser) (updates : List UserUpdate) :
    FiledUnderKey (fun user => some user.uuid) (fun _ => True) (usersAfter initial updates) := by
  refine Run.exec_always ?_ (UserTable.filedUnderKey_keyedUserState fun _ _ => trivial) updates
  intro users update hfiled
  cases update with
  | replaceUsers next => exact UserTable.filedUnderKey_keyedUserState fun _ _ => trivial
  | applyUserDelta delta =>
    rw [updateUsers, applyUuidDelta]
    cases delta.full with
    | some full => exact UserTable.filedUnderKey_keyedUserState fun _ _ => trivial
    | none => exact (@FiledUnderKey.applyUuidLists _ "" delta _ hfiled fun _ _ => trivial).1

/-- A secret that no name goes with is looked up as a uuid, and a user of that
uuid is found whatever its credential is. -/
theorem authenticate_eq {users : HashMap String CoreUser}
    (hfiled : FiledUnderKey (fun user => some user.uuid) (fun _ => True) users)
    (username password : String) :
    authenticate users username password = ((users.lookup username).filter fun user =>
        user.credential == password).or (users.lookup password) := by
  have hget : (users.lookup password).filter (fun user =>
      user.credential == password || user.uuid == password) = users.lookup password := by
    cases hfound : users.lookup password with
    | none => rfl
    | some user =>
      have huuid := some.inj (hfiled password user hfound).1
      simp [huuid]
  rw [authenticate, hget]
  cases (users.lookup username).filter fun user => user.credential == password with
  | none => rfl
  | some user => rfl

/-- Every login is with the user's credential exactly if the secret is the
credential of the user of that name, or is not the uuid of a user with another
credential. -/
theorem login_sound_iff (env : Externals) (initial : List CoreUser)
    (updates : List UserUpdate) (value : String) :
    (∀ username password user, parseBasicAuth env value = some (username, password) →
      authenticate (usersAfter initial updates) username password =
        some user → password = user.credential) ↔
      ∀ username password, parseBasicAuth env value = some (username, password) →
        ValidLogin (usersAfter initial updates) username password ∨
          ∀ user, (usersAfter initial updates).lookup password = some user →
            user.credential = password := by
  have hfiled := filed_usersAfter initial updates
  generalize usersAfter initial updates = users at hfiled
  constructor
  · intro hsound username password hvalue
    by_cases hvalid : ValidLogin users username password
    · exact .inl hvalid
    · refine .inr fun user huser => ?_
      refine (hsound username password user hvalue ?_).symm
      have hnone : (users.lookup username).filter (fun user =>
          user.credential == password) = none := by
        rw [filter_eq_none_iff]
        intro found hfound hcredential
        exact hvalid ⟨found, hfound, eq_of_beq hcredential⟩
      rw [authenticate_eq hfiled, hnone, none_or, huser]
  · intro hcondition username password user hvalue hlogin
    rw [authenticate_eq hfiled] at hlogin
    cases hnamed : (users.lookup username).filter fun user => user.credential == password with
    | some named =>
      rw [hnamed] at hlogin
      cases hlogin
      exact (eq_of_beq (filter_eq_some_iff.1 hnamed).2).symm
    | none =>
      rw [hnamed, none_or] at hlogin
      rcases hcondition username password hvalue with ⟨named, hfound, hcredential⟩ | hother
      · rw [filter_eq_none_iff] at hnamed
        exact absurd (beq_iff_eq.2 hcredential) (hnamed named hfound)
      · exact (hother user hlogin).symm

/-- The base64 of `x:dave`, by a decoder that knows no other text. -/
def daveExternals : Externals :=
  { externals with
    base64Standard := fun encoded =>
      if encoded = "eDpkYXZl" then some (bytes "x:dave") else none }

/-- A user with a password is logged in by anyone who knows the uuid. -/
theorem uuid_logs_in : parseBasicAuth daveExternals "Basic eDpkYXZl" = some ("x", "dave") ∧
      authenticate (usersAfter [dave] []) "x" "dave" = some dave ∧
      dave.credential = "secret" := by decide +kernel

end Naive

end KeliCore
