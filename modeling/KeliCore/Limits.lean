/-
What all listeners of a service share about their users: the bandwidth limiters
with their revocation flags, the registry of open connections, and the device
sessions.  The source shards each map by a hash of the uuid; a shard is never
visible to a caller, so each is one map here.
-/
import KeliCore.UserTable

namespace KeliCore

open Text

/-- A limiter's rate, zero for unlimited, and its revocation flag.  The token
bucket is left out. -/
structure BandwidthLimiter where
  bytesPerSecond : UInt64
  revoked : Bool := false
deriving DecidableEq

/-- A registered connection.  The registry files it under the trimmed uuid;
`owner` is the uuid it was registered for. -/
structure Connection where
  id : Nat
  key : String
  owner : String
  isOpen : Bool := true
deriving DecidableEq

/-- `UserBandwidthLimiters`.  A connection leaves the list when its guard is
dropped. -/
structure UserBandwidthLimiters where
  limiters : HashMap String BandwidthLimiter := ∅
  connections : List Connection := []

def saturatingMul (value : UInt64) (factor : Nat) : Nat :=
  min (value.toNat * factor) (2 ^ 64 - 1)

/-- `speed_limit_mbps_to_bytes_per_second`; no limit is `none`. -/
def speedLimitMbpsToBytesPerSecond (mbps : UInt64) : Option UInt64 :=
  if mbps = 0 then none
  else some (.ofNat (max (saturatingMul mbps (1024 * 1024) / 8) 1))

/-- The rate a user's limiter is set to: `set_bytes_per_second` and
`set_unlimited`. -/
def limiterRate (user : CoreUser) : UInt64 :=
  match speedLimitMbpsToBytesPerSecond user.speedLimit with
  | some bytesPerSecond => max bytesPerSecond 1
  | none => 0

/-- A limiter as every setter leaves it: with the user's rate, not revoked. -/
def enabledLimiter (user : CoreUser) : BandwidthLimiter :=
  { bytesPerSecond := limiterRate user }

def revokedLimiter (limiter : BandwidthLimiter) : BandwidthLimiter :=
  { limiter with revoked := true }

/-- Set an existing limiter to the user's rate; a missing one stays missing. -/
def resetLimiter (limiters : HashMap String BandwidthLimiter)
    (user : CoreUser) : HashMap String BandwidthLimiter :=
  match limiters.lookup user.uuid with
  | some _ => limiters.insert user.uuid (enabledLimiter user)
  | none => limiters

def revokeLimiter (limiters : HashMap String BandwidthLimiter)
    (uuid : String) : HashMap String BandwidthLimiter :=
  match limiters.lookup uuid with
  | some limiter => limiters.insert uuid (revokedLimiter limiter)
  | none => limiters

/-- `UserConnectionHandle::close` for the connections filed under some uuids,
`close_users` of the registry. -/
def closeUsers (connections : List Connection) (uuids : List String) : List Connection :=
  connections.map fun connection =>
    if connection.key ∈ uuids then { connection with isOpen := false }
    else connection

def closeExcept (connections : List Connection) (activeUuids : List String) : List Connection :=
  closeUsers connections ((connections.map Connection.key).filter (· ∉ activeUuids))

namespace UserBandwidthLimiters

/-- `limiter_for`: the limiter is created when missing, and otherwise set to
the user's rate and enabled. -/
def limiterFor (bandwidth : UserBandwidthLimiters) (user : CoreUser) :
    UserBandwidthLimiters :=
  { bandwidth with
    limiters := bandwidth.limiters.insert user.uuid (enabledLimiter user) }

/-- `limiter_for_limited`: an unlimited user gets no limiter, but one that
exists is enabled all the same. -/
def limiterForLimited (bandwidth : UserBandwidthLimiters) (user : CoreUser) :
    UserBandwidthLimiters :=
  match speedLimitMbpsToBytesPerSecond user.speedLimit with
  | none => { bandwidth with limiters := resetLimiter bandwidth.limiters user }
  | some _ => bandwidth.limiterFor user

def syncUsers (bandwidth : UserBandwidthLimiters) (users : List CoreUser) :
    UserBandwidthLimiters :=
  { bandwidth with limiters := users.foldl resetLimiter bandwidth.limiters }

def syncFullUsers (bandwidth : UserBandwidthLimiters)
    (users : List CoreUser) : UserBandwidthLimiters :=
  let activeUuids := users.map CoreUser.uuid
  let swept : UserBandwidthLimiters :=
    { limiters := bandwidth.limiters.mapValues fun uuid limiter =>
        if uuid ∈ activeUuids then limiter else revokedLimiter limiter
      connections := closeExcept bandwidth.connections activeUuids }
  swept.syncUsers users

def closeUserConnections (bandwidth : UserBandwidthLimiters)
    (uuids : List String) : UserBandwidthLimiters :=
  { bandwidth with connections := closeUsers bandwidth.connections uuids }

/-- `revoke_users`: connections are closed before the limiters are revoked. -/
def revokeUsers (bandwidth : UserBandwidthLimiters) (uuids : List String) :
    UserBandwidthLimiters :=
  let closed := bandwidth.closeUserConnections uuids
  { closed with limiters := uuids.foldl revokeLimiter closed.limiters }

/-- `register_tcp_connection` of at least one socket; a blank uuid is not
registered. -/
def registerTcpConnection (bandwidth : UserBandwidthLimiters) (id : Nat)
    (uuid : String) : UserBandwidthLimiters :=
  if isBlank uuid then bandwidth
  else
    { bandwidth with
      connections := bandwidth.connections ++ [{ id, key := trim uuid, owner := uuid }] }

def dropConnection (bandwidth : UserBandwidthLimiters) (id : Nat) :
    UserBandwidthLimiters :=
  { bandwidth with
    connections := bandwidth.connections.filter fun connection => connection.id != id }

end UserBandwidthLimiters

/-- The devices of one user: connection counts by address, and the sessions
without an address. -/
structure UserSessionState where
  ips : HashMap IpAddr Nat := ∅
  anonymous : Nat := 0
deriving DecidableEq

inductive UserSessionKey where
  | ip (address : IpAddr)
  | anonymous
deriving DecidableEq

/-- A pull of what other nodes count as alive. -/
structure DeviceLimitSnapshot where
  nodeTag : String
  alive : HashMap UInt64 Nat := ∅
  aliveIps : HashMap UInt64 (List IpAddr) := ∅
  mode : Int := 0

structure DeviceLimitOnlineRecord where
  nodeTag : String
  userId : UInt64
  ip : IpAddr

structure DeviceLimitNodeState where
  alive : HashMap UInt64 Nat
  aliveIps : HashMap UInt64 (List IpAddr)
  mode : Int
  lastAlivePull : Nat

/-- `DeviceLimitRuntimeState`; instants are seconds. -/
structure DeviceLimitRuntimeState where
  snapshots : HashMap String DeviceLimitNodeState := ∅
  pending : HashMap String (HashMap IpAddr UInt64) := ∅
  reported : HashMap String (HashMap UInt64 (HashMap IpAddr Nat)) := ∅

structure UserSessionTracker where
  active : HashMap String UserSessionState := ∅
  devices : DeviceLimitRuntimeState := {}

/-- What a session holds until it is dropped. -/
structure UserSessionGuard where
  userUuid : String
  nodeTag : String
  userId : UInt64
  key : UserSessionKey
deriving DecidableEq

def reportedAliveBridgeTtl : Nat := 120

def deviceLimitUserKey (nodeTag userUuid : String) : String :=
  if isBlank nodeTag then userUuid else nodeTag ++ "|" ++ userUuid

namespace UserSessionState

def deviceCount (state : UserSessionState) : Nat :=
  state.ips.len + state.anonymous

/-- `release`: the address is returned when its last session ends. -/
def release (state : UserSessionState) : UserSessionKey → UserSessionState × Option IpAddr
  | .ip ip =>
    match state.ips.lookup ip with
    | some count =>
      if 1 < count then
        ({ state with ips := state.ips.insert ip (count - 1) }, none)
      else ({ state with ips := state.ips.erase ip }, some ip)
    | none => (state, none)
  | .anonymous => ({ state with anonymous := state.anonymous - 1 }, none)

end UserSessionState

namespace DeviceLimitRuntimeState

def pruneReported (devices : DeviceLimitRuntimeState) (now : Nat) :
    DeviceLimitRuntimeState :=
  let pruned := devices.reported.mapValues fun _ users =>
    (users.mapValues fun _ ips =>
      ips.retain fun _ reportedAt => now - reportedAt ≤ reportedAliveBridgeTtl)
      |>.retain fun _ ips => ips.len != 0
  { devices with reported := pruned.retain fun _ users => users.len != 0 }

def reportedIps (devices : DeviceLimitRuntimeState) (nodeTag : String)
    (userId : UInt64) : HashMap IpAddr Nat :=
  (((devices.reported.lookup nodeTag).bind fun users => users.lookup userId).getD ∅)

def isKnownAliveIp (devices : DeviceLimitRuntimeState) (nodeTag : String)
    (userId : UInt64) (ip : IpAddr) : Bool :=
  ((devices.reportedIps nodeTag userId).lookup ip).isSome ||
    match devices.snapshots.lookup nodeTag with
    | some snapshot => snapshot.mode == 1 && ((snapshot.aliveIps.lookup userId).getD []).contains ip
    | none => false

def knownDeviceCount (devices : DeviceLimitRuntimeState) (nodeTag : String)
    (userId : UInt64) : Nat :=
  let snapshot := devices.snapshots.lookup nodeTag
  let alive := (snapshot.bind fun node => node.alive.lookup userId).getD 0
  let recent := (devices.reportedIps nodeTag userId).retain fun _ reportedAt =>
    match snapshot with
    | some node => node.lastAlivePull < reportedAt
    | none => true
  alive + recent.len

def pendingIps (devices : DeviceLimitRuntimeState) (key : String) : HashMap IpAddr UInt64 :=
  (devices.pending.lookup key).getD ∅

def pendingNewIpCount (devices : DeviceLimitRuntimeState)
    (key nodeTag : String) (userId : UInt64) : Nat :=
  ((devices.pendingIps key).retain fun ip pendingId =>
    pendingId == userId && !devices.isKnownAliveIp nodeTag userId ip).len

/-- `drop_one_pending_unknown_ip`: the first such address in hash order. -/
def dropOnePendingUnknownIp (order : HashOrder IpAddr UInt64)
    (devices : DeviceLimitRuntimeState) (key nodeTag : String)
    (userId : UInt64) : Option DeviceLimitRuntimeState := do
  let pending ← devices.pending.lookup key
  let dropIp ← (order.iter pending).findSome? fun entry =>
    if entry.2 == userId && !devices.isKnownAliveIp nodeTag userId entry.1
    then some entry.1 else none
  some { devices with
    pending := devices.pending.insert key (pending.erase dropIp) }

def removePendingIp (devices : DeviceLimitRuntimeState)
    (nodeTag userUuid : String) (userId : UInt64) (ip : IpAddr) :
    DeviceLimitRuntimeState :=
  let key := deviceLimitUserKey nodeTag userUuid
  match devices.pending.lookup key with
  | none => devices
  | some pending =>
    let rest :=
      if pending.lookup ip = some userId then pending.erase ip else pending
    if rest.len = 0 then
      { devices with pending := devices.pending.erase key }
    else { devices with pending := devices.pending.insert key rest }

/-- One record of `commit_device_limit_report`. -/
def commitRecord (now : Nat) (devices : DeviceLimitRuntimeState)
    (record : DeviceLimitOnlineRecord) : DeviceLimitRuntimeState :=
  if isBlank record.nodeTag || record.userId == 0 then devices
  else
    let users := (devices.reported.lookup record.nodeTag).getD ∅
    let ips := (users.lookup record.userId).getD ∅
    let ofNode (key : String) : Bool := startsWith key (record.nodeTag ++ "|")
    let pending := devices.pending.mapValues fun key pending =>
      if ofNode key && pending.lookup record.ip == some record.userId then
        pending.erase record.ip
      else pending
    { devices with
      reported := devices.reported.insert record.nodeTag
        (users.insert record.userId (ips.insert record.ip now))
      pending := pending.retain fun key pending => !ofNode key || pending.len != 0 }

end DeviceLimitRuntimeState

/-- Whether a policy tolerates a client that comes back from a new address. -/
structure DeviceLimitPolicy where
  udpRebindTolerant : Bool := false
deriving DecidableEq

namespace UserSessionTracker

/-- `check_device_limit_ip`: the device state on success, and the state the
check left behind when the limit is reached. -/
def checkDeviceLimitIp (order : HashOrder IpAddr UInt64) (now : Nat)
    (devices : DeviceLimitRuntimeState) (nodeTag : String) (user : CoreUser)
    (ip : IpAddr) (policy : DeviceLimitPolicy) : DeviceLimitRuntimeState × Bool :=
  let devices := devices.pruneReported now
  let key := deviceLimitUserKey nodeTag user.uuid
  if (devices.pendingIps key).lookup ip = some user.id then (devices, true)
  else
    let accepted (devices : DeviceLimitRuntimeState) :=
      { devices with
        pending := devices.pending.insert key
          ((devices.pendingIps key).insert ip user.id) }
    if devices.isKnownAliveIp nodeTag user.id ip then (accepted devices, true)
    else
      let limit := user.deviceLimit.toNat
      let known := devices.knownDeviceCount nodeTag user.id
      let pendingNew := devices.pendingNewIpCount key nodeTag user.id
      -- A tolerant policy makes room by forgetting one address not yet known.
      let dropped :=
        if limit ≤ known + pendingNew ∧ policy.udpRebindTolerant ∧ 0 < known then
          devices.dropOnePendingUnknownIp order key nodeTag user.id
        else none
      let pendingNew := if dropped.isSome then pendingNew - 1 else pendingNew
      let devices := dropped.getD devices
      if limit ≤ known + pendingNew ∧
          ¬ (policy.udpRebindTolerant ∧ 0 < known ∧ limit = known + pendingNew)
      then (devices, false)
      else (accepted devices, true)

/-- The session entry of a user with one more session under a key. -/
def addSession (tracker : UserSessionTracker) (uuid : String)
    (state : UserSessionState) : UserSessionTracker :=
  { tracker with active := tracker.active.insert uuid state }

/-- `try_acquire_for_node_ip_with_policy`: no guard is needed for a user
without a device limit, and none is given when the limit is reached. -/
def tryAcquire (order : HashOrder IpAddr UInt64) (now : Nat)
    (tracker : UserSessionTracker) (nodeTag : String) (user : CoreUser)
    (clientIp : Option IpAddr) (policy : DeviceLimitPolicy) :
    UserSessionTracker × Option (Option UserSessionGuard) :=
  if user.deviceLimit = 0 then (tracker, some none)
  else
    let guard (key : UserSessionKey) : UserSessionGuard :=
      { userUuid := user.uuid, nodeTag, userId := user.id, key }
    let limit := user.deviceLimit.toNat
    let state := (tracker.active.lookup user.uuid).getD {}
    match clientIp with
    | none =>
      if limit ≤ state.deviceCount then
        (tracker.addSession user.uuid state, none)
      else
        (tracker.addSession user.uuid { state with anonymous := state.anonymous + 1 },
          some (some (guard .anonymous)))
    | some ip =>
      let checked := checkDeviceLimitIp order now tracker.devices nodeTag user ip policy
      let tracker := { tracker with devices := checked.1 }
      if !checked.2 then (tracker, none)
      else
        match state.ips.lookup ip with
        | some count =>
          (tracker.addSession user.uuid { state with ips := state.ips.insert ip (count + 1) },
            some (some (guard (.ip ip))))
        | none =>
          if !policy.udpRebindTolerant && limit ≤ state.deviceCount then
            let tracker := tracker.addSession user.uuid state
            ({ tracker with
              devices := tracker.devices.removePendingIp nodeTag user.uuid
                user.id ip }, none)
          else
            (tracker.addSession user.uuid { state with ips := state.ips.insert ip 1 },
              some (some (guard (.ip ip))))

def dropGuard (tracker : UserSessionTracker) (guard : UserSessionGuard) :
    UserSessionTracker :=
  match tracker.active.lookup guard.userUuid with
  | none => tracker
  | some state =>
    let released := state.release guard.key
    let active :=
      if released.1.deviceCount = 0 then tracker.active.erase guard.userUuid
      else tracker.active.insert guard.userUuid released.1
    let devices :=
      match released.2 with
      | some ip => tracker.devices.removePendingIp guard.nodeTag guard.userUuid guard.userId ip
      | none => tracker.devices
    { active, devices }

def applyDeviceLimitSnapshot (now : Nat) (tracker : UserSessionTracker)
    (snapshot : DeviceLimitSnapshot) : UserSessionTracker :=
  let devices := tracker.devices.pruneReported now
  let node : DeviceLimitNodeState :=
    { alive := snapshot.alive, aliveIps := snapshot.aliveIps,
      mode := snapshot.mode, lastAlivePull := now }
  { tracker with
    devices := { devices with
      snapshots := devices.snapshots.insert snapshot.nodeTag node } }

def commitDeviceLimitReport (now : Nat) (tracker : UserSessionTracker)
    (records : List DeviceLimitOnlineRecord) : UserSessionTracker :=
  { tracker with
    devices := records.foldl (DeviceLimitRuntimeState.commitRecord now)
      (tracker.devices.pruneReported now) }

def revokeUsers (tracker : UserSessionTracker) (uuids : List String) :
    UserSessionTracker :=
  let revoked (key : String) : Bool :=
    uuids.any fun uuid => key == uuid || endsWith key ("|" ++ uuid)
  { active := tracker.active.eraseAll uuids
    devices := { tracker.devices with
      pending := tracker.devices.pending.retain fun key _ => !revoked key } }

def syncUsers (tracker : UserSessionTracker) (users : List CoreUser) :
    UserSessionTracker :=
  let activeUuids := users.map CoreUser.uuid
  { active := tracker.active.retain fun uuid _ => uuid ∈ activeUuids
    devices := { tracker.devices with
      pending := tracker.devices.pending.retain fun key _ =>
        match rsplitOnce '|' key with
        | some (_, uuid) => uuid ∈ activeUuids
        | none => key ∈ activeUuids } }

end UserSessionTracker

def syncUserLimitDelta (bandwidth : UserBandwidthLimiters)
    (sessions : UserSessionTracker) (delta : CoreUserDelta) :
    UserBandwidthLimiters × UserSessionTracker :=
  match delta.full with
  | some full => (bandwidth.syncFullUsers full, sessions.syncUsers full)
  | none =>
    let updated := delta.updated.map CoreUser.uuid
    ((((bandwidth.revokeUsers delta.deleted).syncUsers delta.added).syncUsers
        delta.updated).closeUserConnections updated,
      (sessions.revokeUsers delta.deleted).revokeUsers updated)

end KeliCore
