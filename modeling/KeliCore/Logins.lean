/-
Logins while a delta is applied.  A lookup in the table, the fetch of a
limiter and the registration of a connection each take a lock of their own,
and so does every part of a delta; other threads may run between any two.  The
thread of a delta is the list of the sections it has still to run.
-/
import KeliCore.Listener
import KeliCore.Run
import KeliCore.Sessions
import KeliCore.Sweep

namespace KeliCore

def userLimitShards : Nat := 64

def userLimitShardIndex (hasher : String → UInt64) (uuid : String) : Nat :=
  (hasher uuid).toNat % userLimitShards

inductive DeltaSection where
  /-- `connection_handles` of one uuid of `close_users` -/
  | closeUser (uuid : String)
  /-- `UserConnectionHandle::close`, once the lock is released -/
  | shut (ids : List Nat)
  | closeExcept (activeUuids : List String) (shards : List Nat) (removed : List String)
  /-- one uuid of `revoke_users` -/
  | revokeLimiter (uuid : String)
  /-- one shard of `sync_full_users` -/
  | revokeShard (activeUuids : List String) (shard : Nat)
  /-- one user of `sync_users` -/
  | resetLimiter (user : CoreUser)
  | forget (uuid : String)
  | forgetPending (uuids : List String)
  | retainShard (users : List CoreUser) (shard : Nat)
  | retainPending (users : List CoreUser)
  /-- the change of the table, which is stored in one piece -/
  | applyTable (delta : CoreUserDelta)

/-- `UserSessionTracker::revoke_users` -/
def forgetSections (uuids : List String) : List DeltaSection :=
  uuids.map .forget ++ [.forgetPending uuids]

/-- `sync_user_limit_delta` -/
def limitSections (delta : CoreUserDelta) : List DeltaSection :=
  let shards := List.range userLimitShards
  match delta.full with
  | some full =>
    let activeUuids := full.map CoreUser.uuid
    shards.map (.revokeShard activeUuids) ++ ([.closeExcept activeUuids shards []] ++
        (full.map .resetLimiter ++ (shards.map (.retainShard full) ++ [.retainPending full])))
  | none =>
    let updated := delta.updated.map CoreUser.uuid
    delta.deleted.map .closeUser ++ (delta.deleted.map .revokeLimiter ++
        (forgetSections delta.deleted ++ (delta.added.map .resetLimiter ++
            (delta.updated.map .resetLimiter ++
              (updated.map .closeUser ++ forgetSections updated)))))

/-- `apply_user_delta` of a listener. -/
def deltaSections (delta : CoreUserDelta) : List DeltaSection :=
  limitSections delta ++ [.applyTable delta]

structure LoginHandler where
  /-- the user it has authenticated, for whom it registers its sockets -/
  user : CoreUser
  /-- the user it fetches limiters for, as last looked up -/
  found : Option CoreUser
  /-- the uuids of the limiters it holds -/
  held : List String := []
  registered : Bool := false

/-- What the threads share, the handlers, and what is left of the delta. -/
structure LoginRun where
  table : UserTable
  bandwidth : UserBandwidthLimiters
  sessions : UserSessionTracker
  handlers : HashMap Nat LoginHandler := ∅
  sections : List DeltaSection

/-- A section of the session tracker that a handler runs. -/
inductive SessionSection where
  | check (now : Nat) (request : SessionRequest) (ip : IpAddr)
  | admitSession (request : SessionRequest)
  | release (guard : UserSessionGuard)
  | removePending (nodeTag userUuid : String) (userId : UInt64) (ip : IpAddr)

/-- The next section to run. -/
inductive LoginMove where
  /-- the lookup that authenticates a new connection -/
  | login (id : Nat) (user : CoreUser)
  /-- `request_user`, where the protocol looks the user up once more -/
  | requestUser (id : Nat)
  /-- `limiter_for`, or `limiter_for_limited` -/
  | fetch (id : Nat) (limited : Bool)
  /-- `register_tcp_connection` -/
  | register (id : Nat)
  /-- the end of a handler, for whatever reason -/
  | leave (id : Nat)
  | session (part : SessionSection)
  | delta

def UserTable.requestUser (env : Externals) (protocol : Protocol)
    (table : UserTable) (user : CoreUser) : Option CoreUser :=
  match table with
  | .keyed users => (userKey env protocol user).bind users.lookup
  | .listed _ => some user

/-- A limiter comes back for a user, unless the user has no limit and only a
limit is asked for. -/
def returnsLimiter (limited : Bool) (user : CoreUser) : Bool :=
  !limited || (speedLimitMbpsToBytesPerSecond user.speedLimit).isSome

def UserBandwidthLimiters.fetch (bandwidth : UserBandwidthLimiters)
    (limited : Bool) (user : CoreUser) : UserBandwidthLimiters :=
  if limited then bandwidth.limiterForLimited user
  else bandwidth.limiterFor user

/-- `close` on upgraded handles. -/
def shutConnections (connections : List Connection) (ids : List Nat) : List Connection :=
  connections.map fun connection =>
    if connection.id ∈ ids then closed connection else connection

def revokeShard (hasher : String → UInt64) (activeUuids : List String)
    (limiters : HashMap String BandwidthLimiter) (shard : Nat) : HashMap String BandwidthLimiter :=
  limiters.mapValues fun uuid limiter =>
    if userLimitShardIndex hasher uuid = shard ∧ uuid ∉ activeUuids then
      revokedLimiter limiter
    else limiter

def DeltaSection.shuts (id : Nat) : DeltaSection → Bool
  | .shut ids => ids.contains id
  | _ => false

namespace LoginRun

/-- The sockets registered by a handler. -/
def sockets (run : LoginRun) (id : Nat) : List Connection :=
  run.bandwidth.connections.filter fun connection => connection.id == id

/-- The number was not given to a connection that is still known. -/
def isFresh (run : LoginRun) (id : Nat) : Bool :=
  (run.handlers.lookup id).isNone && (run.sockets id).isEmpty &&
    !run.sections.any (DeltaSection.shuts id)

def setLimiters (run : LoginRun) (limiters : HashMap String BandwidthLimiter) :
    LoginRun :=
  { run with bandwidth := { run.bandwidth with limiters } }

def setHandler (run : LoginRun) (id : Nat) (handler : LoginHandler) :
    LoginRun :=
  { run with handlers := run.handlers.insert id handler }

variable (env : Externals) (world : World) (protocol : Protocol)
    (hasher : String → UInt64)

def perform (run : LoginRun) : DeltaSection → LoginRun
  | .closeUser uuid =>
    let handles := run.bandwidth.connections.filter fun connection => connection.key == uuid
    { run with sections := .shut (handles.map Connection.id) :: run.sections }
  | .shut ids =>
    { run with
      bandwidth := { run.bandwidth with
        connections := shutConnections run.bandwidth.connections ids } }
  | .closeExcept activeUuids (shard :: shards) removed =>
    let keys := (run.bandwidth.connections.map Connection.key).filter
      fun key => userLimitShardIndex hasher key == shard &&
        decide (key ∉ activeUuids)
    { run with
      sections := .closeExcept activeUuids shards (removed ++ keys) :: run.sections }
  | .closeExcept _ [] removed => { run with sections := removed.map .closeUser ++ run.sections }
  | .revokeLimiter uuid => run.setLimiters (KeliCore.revokeLimiter run.bandwidth.limiters uuid)
  | .revokeShard activeUuids shard =>
    run.setLimiters (KeliCore.revokeShard hasher activeUuids run.bandwidth.limiters shard)
  | .resetLimiter user => run.setLimiters (KeliCore.resetLimiter run.bandwidth.limiters user)
  | .forget uuid => { run with sessions := run.sessions.forget uuid }
  | .forgetPending uuids => { run with sessions := run.sessions.forgetPending uuids }
  | .retainShard users shard =>
    { run with
      sessions := run.sessions.retainShard (userLimitShardIndex hasher)
        users shard }
  | .retainPending users => { run with sessions := run.sessions.retainPending users }
  | .applyTable delta =>
    { run with
      table := (run.table.applyDelta env world.userOrder protocol delta).1 }

def sessionStep (sessions : UserSessionTracker) : SessionSection → UserSessionTracker
  | .check now request ip => (sessions.check world.ipOrder now request ip).1
  | .admitSession request => (sessions.admitSession request).1
  | .release guard => (sessions.release guard).1
  | .removePending nodeTag userUuid userId ip => sessions.removePending nodeTag userUuid userId ip

/-- A move that is not possible changes nothing. -/
def step (run : LoginRun) : LoginMove → LoginRun
  | .login id user =>
    if run.isFresh id && run.table.contains user then
      run.setHandler id { user, found := some user }
    else run
  | .requestUser id =>
    match run.handlers.lookup id with
    | none => run
    | some handler =>
      run.setHandler id { handler with
        found := run.table.requestUser env protocol handler.user }
  | .fetch id limited =>
    match run.handlers.lookup id with
    | none => run
    | some handler =>
      match handler.found with
      | none => run
      | some user =>
        { run with
          bandwidth := run.bandwidth.fetch limited user }.setHandler id
          { handler with
            held := if returnsLimiter limited user
              then user.uuid :: handler.held else handler.held }
  | .register id =>
    match run.handlers.lookup id with
    | none => run
    | some handler =>
      if handler.registered then run
      else
        { run with
          bandwidth := run.bandwidth.registerTcpConnection id
            handler.user.uuid }.setHandler id
          { handler with registered := true }
  | .leave id =>
    { run with
      bandwidth := run.bandwidth.dropConnection id
      handlers := run.handlers.erase id }
  | .session part => { run with sessions := sessionStep world run.sessions part }
  | .delta =>
    match run.sections with
    | [] => run
    | part :: rest => perform env world protocol hasher { run with sections := rest } part

/-- A delta is about to be applied, and nobody has logged in yet. -/
def start (table : UserTable) (bandwidth : UserBandwidthLimiters)
    (sessions : UserSessionTracker) (delta : CoreUserDelta) : LoginRun :=
  { table, bandwidth, sessions, sections := deltaSections delta }

end LoginRun

end KeliCore
