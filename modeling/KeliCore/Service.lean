/-
The running service: its configuration without users, its listeners, and the
stores they share.  The four update functions change a running service; `start`
builds one.
-/
import KeliCore.Listener
import KeliCore.Traffic

namespace KeliCore

def inboundWithoutUsers (inbound : InboundConfig) : InboundConfig :=
  { inbound with users := [] }

def configWithoutUsers (config : CoreConfig) : CoreConfig :=
  { config with inbounds := config.inbounds.map inboundWithoutUsers }

def inboundEqWithoutUsersRoutes (left right : InboundConfig) : Bool :=
  left.tag == right.tag && left.protocol == right.protocol &&
    left.listen == right.listen && left.port == right.port &&
    left.cipher == right.cipher && left.flow == right.flow &&
    left.paddingScheme == right.paddingScheme &&
    left.transport == right.transport && left.tls == right.tls &&
    left.sniffing == right.sniffing

def inboundEqWithoutUsers (left right : InboundConfig) : Bool :=
  inboundEqWithoutUsersRoutes left right && left.routes == right.routes

/-- The comparison both list functions of the source make. -/
def inboundsEq (eq : InboundConfig → InboundConfig → Bool)
    (left right : List InboundConfig) : Bool :=
  left.length == right.length && (left.zip right).all fun pair => eq pair.1 pair.2

/-- `config_allows_listener_level_update`: everything outside the inbounds,
outbounds and routes is the same. -/
def configAllowsListenerLevelUpdate (left right : CoreConfig) : Bool :=
  left.instanceId == right.instanceId && left.logLevel == right.logLevel &&
    left.dns == right.dns && left.policy == right.policy &&
    left.stats == right.stats

def configEqWithoutUsers (left right : CoreConfig) : Bool :=
  configAllowsListenerLevelUpdate left right &&
    left.outbounds == right.outbounds && left.routes == right.routes &&
    inboundsEq inboundEqWithoutUsers left.inbounds right.inbounds

def configEqWithoutUsersRoutesAndOutbounds (left right : CoreConfig) : Bool :=
  configAllowsListenerLevelUpdate left right &&
    inboundsEq inboundEqWithoutUsersRoutes left.inbounds right.inbounds

def inboundsSameTags (left right : List InboundConfig) : Bool :=
  inboundsEq (fun left right => left.tag == right.tag) left right

def listenerBindEq (left right : InboundConfig) : Bool :=
  left.listen == right.listen && left.port == right.port

def inboundsByTag (inbounds : List InboundConfig) : HashMap String InboundConfig :=
  .collect (inbounds.map fun inbound => (inbound.tag, inbound))

def quicListenerStructuresUnchanged (left right : List InboundConfig) : Bool :=
  let leftByTag := inboundsByTag (left.filter inboundBindsQuic)
  let rightByTag := inboundsByTag (right.filter inboundBindsQuic)
  leftByTag.len == rightByTag.len && (leftByTag.retain fun tag leftInbound =>
      !(rightByTag.lookup tag).any fun rightInbound =>
        inboundEqWithoutUsersRoutes leftInbound rightInbound).len == 0

def userFingerprint (env : Externals) (user : CoreUser) : UInt64 :=
  env.defaultHasher user.id user.uuid user.password user.email user.speedLimit user.deviceLimit

abbrev UserFingerprintState := HashMap String UInt64

namespace UserFingerprintState

def fromUsers (env : Externals) (users : List CoreUser) :
    UserFingerprintState :=
  .collect ((nonEmptyUsers users).map fun user => (user.uuid, userFingerprint env user))

/-- `UserFingerprintState::apply_delta`: an updated user is recorded whether
or not the table knows it. -/
def applyDelta (env : Externals) (state : UserFingerprintState)
    (delta : CoreUserDelta) : UserFingerprintState :=
  match delta.full with
  | some full => fromUsers env full
  | none =>
    (state.extend ((nonEmptyUsers (delta.added ++ delta.updated)).map
      fun user => (user.uuid, userFingerprint env user))).eraseAll delta.deleted

end UserFingerprintState

/-- `CoreService`.  The metrics-only parts (QUIC limiter, TLS failure backoff)
are left out, and so is the `stopped` flag: a stopped service is dropped. -/
structure CoreService where
  config : CoreConfig
  listeners : List ListenerHandle
  traffic : TrafficRegistry := ∅
  sessions : UserSessionTracker := {}
  bandwidth : UserBandwidthLimiters := {}
  userRevisions : HashMap String String := ∅
  userFingerprints : HashMap String UserFingerprintState := ∅

namespace CoreService

/-- The start loop.  When a start fails the handles made so far are dropped,
which does not stop their threads. -/
def startListeners (env : Externals) (world : World) (activeConfig : CoreConfig) :
    Host → List InboundConfig → Host × Except CoreServiceError (List ListenerHandle)
  | host, [] => (host, .ok [])
  | host, inbound :: rest =>
    match startListenerHandle env world host activeConfig inbound with
    | (host, .error error) => (host, .error error)
    | (host, .ok handle) =>
      match startListeners env world activeConfig host rest with
      | (host, .error error) => (host, .error error)
      | (host, .ok handles) => (host, .ok (handle :: handles))

def userFingerprintsForInbounds (env : Externals)
    (inbounds : List InboundConfig) : HashMap String UserFingerprintState :=
  .collect (inbounds.map fun inbound =>
    (inbound.tag, UserFingerprintState.fromUsers env inbound.users))

/-- The two checks that precede a start and a listener-level update. -/
def checkConfig (env : Externals) (world : World) (config : CoreConfig) :
    Except CoreServiceError Unit :=
  match config.validate env with
  | .error error => .error (.invalidConfig error)
  | .ok _ =>
    match validateUniqueListenerBinds world [] config.inbounds with
    | .error error => .error (.invalidConfig error)
    | .ok _ => .ok ()

def start (env : Externals) (world : World) (host : Host)
    (config : CoreConfig) : Host × Except CoreServiceError CoreService :=
  match checkConfig env world config with
  | .error error => (host, .error error)
  | .ok _ =>
    let activeConfig := configWithoutUsers config
    match startListeners env world activeConfig host config.inbounds with
    | (host, .error error) => (host, .error error)
    | (host, .ok listeners) =>
      (host, .ok
        { config := activeConfig
          listeners
          userFingerprints := userFingerprintsForInbounds env config.inbounds })

/-- `CoreService::stop`; the connections it closes go with the service. -/
def stop (service : CoreService) (host : Host) : Host :=
  host.stopThreads (service.listeners.map ListenerHandle.id : Multiset Nat)

/-- `CoreService::listeners` -/
def listenerStatuses (service : CoreService) : List ListenerStatus :=
  service.listeners.map ListenerHandle.status

def canUpdateUsers (service : CoreService) (config : CoreConfig) : Bool :=
  configEqWithoutUsers service.config config

def canUpdateRoutes (service : CoreService) (config : CoreConfig) : Bool :=
  configEqWithoutUsersRoutesAndOutbounds service.config config

/-- The handle of an inbound, looked up by tag. -/
def findHandle (tag : String) (listeners : List ListenerHandle) : Option ListenerHandle :=
  listeners.find? fun handle => handle.status.tag == tag

/-- Put a changed handle back where its tag was found. -/
def setHandle (handle : ListenerHandle) : List ListenerHandle → List ListenerHandle
  | [] => []
  | first :: rest =>
    if first.status.tag = handle.status.tag then handle :: rest
    else first :: setHandle handle rest

/-- Replace the users of a listener unless the stored fingerprint says that
they are the same. -/
def syncInboundUsers (env : Externals) (service : CoreService)
    (handle : ListenerHandle) (inbound : InboundConfig) : CoreService × ListenerHandle :=
  let fingerprint := UserFingerprintState.fromUsers env inbound.users
  if service.userFingerprints.lookup inbound.tag = some fingerprint then
    (service, handle)
  else
    let replaced := handle.replaceUsers env service.bandwidth inbound.users
    ({ service with
        bandwidth := replaced.2
        userRevisions := service.userRevisions.erase inbound.tag
        userFingerprints := service.userFingerprints.insert inbound.tag fingerprint },
      replaced.1)

def updateListener (change : CoreService → ListenerHandle → InboundConfig →
      CoreService × ListenerHandle)
    (service : CoreService) (inbound : InboundConfig) : CoreService :=
  match findHandle inbound.tag service.listeners with
  | none => service
  | some handle =>
    let changed := change service handle inbound
    { changed.1 with
      listeners := setHandle changed.2 changed.1.listeners }

def updateUsers (env : Externals) (service : CoreService) (config : CoreConfig) : CoreService :=
  { config.inbounds.foldl (updateListener (syncInboundUsers env)) service with
    config := configWithoutUsers config }

def syncUsersAndRoutes (env : Externals) (activeConfig : CoreConfig)
    (service : CoreService) (handle : ListenerHandle)
    (inbound : InboundConfig) : CoreService × ListenerHandle :=
  let synced := service.syncInboundUsers env handle inbound
  (synced.1, synced.2.replaceRoutes (activeConfig.resolvedInboundRoutes inbound))

def updateRoutesAndUsers (env : Externals) (service : CoreService)
    (config : CoreConfig) : CoreService :=
  let activeConfig := configWithoutUsers config
  { config.inbounds.foldl
      (updateListener (syncUsersAndRoutes env activeConfig)) service with
    config := activeConfig }

def syncRoutes (activeConfig : CoreConfig) (service : CoreService)
    (handle : ListenerHandle) (inbound : InboundConfig) : CoreService × ListenerHandle :=
  (service, handle.replaceRoutes (activeConfig.resolvedInboundRoutes inbound))

def updateRoutes (service : CoreService) (config : CoreConfig) :
    CoreService :=
  let activeConfig := configWithoutUsers config
  { activeConfig.inbounds.foldl (updateListener (syncRoutes activeConfig))
      service with
    config := activeConfig }

def handleIds (handles : HashMap String ListenerHandle) : Multiset Nat :=
  handles.entries.map fun entry => entry.2.id

/-- The first loop of `update_changed_listeners_and_users`: start a listener
for every inbound that is new or changed.  An inbound that changed without
moving cannot be started beside its old listener, so the update is declined;
then, and when a start fails, the new listeners are stopped again. -/
def startChanged (env : Externals) (world : World) (service : CoreService)
    (activeConfig : CoreConfig) : Host → HashMap String ListenerHandle → List InboundConfig →
      Host × Except CoreServiceError (Option (HashMap String ListenerHandle))
  | host, newHandles, [] => (host, .ok (some newHandles))
  | host, newHandles, inbound :: rest =>
    let old := (inboundsByTag service.config.inbounds).lookup inbound.tag
    let activeInbound := inboundWithoutUsers inbound
    if old.any fun old => inboundEqWithoutUsersRoutes old activeInbound then
      startChanged env world service activeConfig host newHandles rest
    else if old.any fun old => listenerBindEq old activeInbound then
      (host.stopThreads (handleIds newHandles), .ok none)
    else
      match startListenerHandle env world host activeConfig inbound with
      | (host, .error error) => (host.stopThreads (handleIds newHandles), .error error)
      | (host, .ok handle) =>
        startChanged env world service activeConfig host (newHandles.insert inbound.tag handle) rest

/-- The second loop at work: handles not yet placed, and the new listener
list. -/
structure Exchange where
  service : CoreService
  host : Host
  newHandles : HashMap String ListenerHandle
  oldHandles : HashMap String ListenerHandle
  listeners : List ListenerHandle := []

/-- One inbound of the second loop: a started listener takes the place of the
old one, and a kept one gets its users and routes. -/
def exchangeInbound (env : Externals) (activeConfig : CoreConfig)
    (exchange : Exchange) (inbound : InboundConfig) : Exchange :=
  let tag := inbound.tag
  let service := exchange.service
  match exchange.newHandles.lookup tag with
  | some handle =>
    { service := { service with
        userRevisions := service.userRevisions.erase tag
        userFingerprints := service.userFingerprints.insert tag
          (UserFingerprintState.fromUsers env inbound.users) }
      host :=
        match exchange.oldHandles.lookup tag with
        | some old => exchange.host.stopThreads {old.id}
        | none => exchange.host
      newHandles := exchange.newHandles.erase tag
      oldHandles := exchange.oldHandles.erase tag
      listeners := exchange.listeners ++ [handle] }
  | none =>
    match exchange.oldHandles.lookup tag with
    | none => exchange
    | some handle =>
      let synced := service.syncUsersAndRoutes env activeConfig handle inbound
      { exchange with
        service := synced.1
        oldHandles := exchange.oldHandles.erase tag
        listeners := exchange.listeners ++ [synced.2] }

def handlesByTag (service : CoreService) : HashMap String ListenerHandle :=
  .collect (service.listeners.map fun handle => (handle.status.tag, handle))

/-- The second loop and the sweep after it: listeners of inbounds that are gone
are stopped and their bookkeeping is removed. -/
def exchangeListeners (env : Externals) (service : CoreService) (host : Host)
    (newHandles : HashMap String ListenerHandle) (config : CoreConfig) : Host × CoreService :=
  let activeConfig := configWithoutUsers config
  let done := config.inbounds.foldl (exchangeInbound env activeConfig)
    { service, host, newHandles, oldHandles := service.handlesByTag }
  let desiredTags := activeConfig.inbounds.map InboundConfig.tag
  let isGone (tag : String) : Bool :=
    (done.oldHandles.lookup tag).isSome && !desiredTags.contains tag
  (done.host.stopThreads (handleIds done.oldHandles),
    { done.service with
      config := activeConfig
      listeners := done.listeners
      userRevisions := done.service.userRevisions.retain fun tag _ => !isGone tag
      userFingerprints := done.service.userFingerprints.retain fun tag _ => !isGone tag })

/-- `CoreService::update_changed_listeners_and_users`, with the service that it
leaves. -/
def updateChangedListenersAndUsers (env : Externals) (world : World)
    (service : CoreService) (host : Host) (config : CoreConfig) :
    (Host × CoreService) × Except CoreServiceError Bool :=
  match checkConfig env world config with
  | .error error => ((host, service), .error error)
  | .ok _ =>
    let activeConfig := configWithoutUsers config
    if !configAllowsListenerLevelUpdate service.config activeConfig then
      ((host, service), .ok false)
    else if !quicListenerStructuresUnchanged service.config.inbounds activeConfig.inbounds then
      ((host, service), .ok false)
    else
      match startChanged env world service activeConfig host ∅ config.inbounds with
      | (host, .error error) => ((host, service), .error error)
      | (host, .ok none) => ((host, service), .ok false)
      | (host, .ok (some newHandles)) =>
        if newHandles.len == 0 && inboundsSameTags service.config.inbounds
            activeConfig.inbounds then
          ((host, service), .ok false)
        else (service.exchangeListeners env host newHandles config, .ok true)

/-- The revision check of `CoreService::apply_user_delta`: only an incremental
delta with a base revision is checked. -/
def checkRevision (service : CoreService) (nodeTag : String)
    (delta : CoreUserDelta) : Except String Unit :=
  match delta.full, delta.baseRevision with
  | none, some baseRevision =>
    match service.userRevisions.lookup nodeTag with
    | some currentRevision =>
      if currentRevision ≠ baseRevision then
        .error s!"revision mismatch for inbound {nodeTag}: current {currentRevision}, base {baseRevision}"
      else .ok ()
    | none =>
      .error s!"revision mismatch for inbound {nodeTag}: current <missing>, base {baseRevision}; full snapshot required"
  | _, _ => .ok ()

def applyAcceptedDelta (env : Externals) (world : World)
    (service : CoreService) (handle : ListenerHandle)
    (delta : CoreUserDelta) : CoreService × CoreUserDeltaResult :=
  let tag := handle.status.tag
  let limited := handle.limitedDelta delta
  let limits := syncUserLimitDelta service.bandwidth service.sessions limited
  let applied := handle.table.applyDelta env world.userOrder handle.status.protocol limited
  let fingerprints := (service.userFingerprints.lookup tag).getD ∅
  ({ service with
      listeners := setHandle { handle with table := applied.1 } service.listeners
      bandwidth := limits.1
      sessions := limits.2
      userFingerprints := service.userFingerprints.insert tag
        (UserFingerprintState.applyDelta env fingerprints delta)
      userRevisions :=
        match delta.revision, delta.full with
        | some revision, _ => service.userRevisions.insert tag revision
        | none, some _ => service.userRevisions.erase tag
        | none, none => service.userRevisions },
    applied.2)

def applyUserDelta (env : Externals) (world : World) (service : CoreService)
    (nodeTag : String) (delta : CoreUserDelta) :
    Except String (CoreService × CoreUserDeltaResult) :=
  match findHandle nodeTag service.listeners with
  | none => .error s!"unknown inbound node_tag {nodeTag}"
  | some handle =>
    match service.checkRevision nodeTag delta with
    | .error message => .error message
    | .ok _ => .ok (service.applyAcceptedDelta env world handle delta)

end CoreService

end KeliCore
