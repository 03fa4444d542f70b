/-
The controller: one command at a time from the control peer, answered from the
service, if one runs, and from the controller's own record: the fingerprint of
the configuration it believes active, the status it reports, and the registry
it uses while no service runs.  Between commands the listeners serve clients,
which records traffic and opens sessions and connections.
-/
import KeliCore.Run
import KeliCore.Service

namespace KeliCore

inductive CoreStatus where
  | stopped
  | running
  | reloading
  | failed (message : String)
deriving DecidableEq

inductive ReloadDecision where
  | noop
  | reloaded
  | updated

def fnv1a64 (bytes : List UInt8) : UInt64 :=
  bytes.foldl (fun hash byte => (hash ^^^ byte.toUInt64) * 0x100000001b3) 0xcbf29ce484222325

/-- `fingerprint_config`.  The source prints the hash as sixteen hexadecimal
digits, which tells the same hashes apart. -/
def fingerprintConfig (env : Externals) (config : CoreConfig) : UInt64 :=
  fnv1a64 (env.serdeJsonToVec config)

structure RuntimeState where
  activeFingerprint : Option UInt64 := none
  status : CoreStatus := .stopped
  traffic : TrafficRegistry := ∅

namespace RuntimeState

/-- `RuntimeState::plan`: the fingerprint of a configuration that validates. -/
def plan (env : Externals) (config : CoreConfig) : Except ValidationError UInt64 :=
  match config.validate env with
  | .ok _ => .ok (fingerprintConfig env config)
  | .error error => .error error

def applyPlan (runtime : RuntimeState) (fingerprint : UInt64) : RuntimeState × ReloadDecision :=
  if runtime.activeFingerprint = some fingerprint then
    ({ runtime with status := .running }, .noop)
  else
    ({ runtime with activeFingerprint := some fingerprint, status := .running }, .reloaded)

def applyUpdate (runtime : RuntimeState) (fingerprint : UInt64) : RuntimeState × ReloadDecision :=
  ({ runtime with activeFingerprint := some fingerprint, status := .running }, .updated)

/-- `apply_runtime_update`: the next configuration is compared with none. -/
def applyRuntimeUpdate (runtime : RuntimeState) : RuntimeState × ReloadDecision :=
  ({ runtime with activeFingerprint := none, status := .running }, .updated)

def needsReload (runtime : RuntimeState) (fingerprint : UInt64) : Bool :=
  runtime.activeFingerprint != some fingerprint

/-- `fail`: the remembered fingerprint stays. -/
def fail (runtime : RuntimeState) (message : String) : RuntimeState :=
  { runtime with status := .failed message }

def stop (runtime : RuntimeState) : RuntimeState :=
  { runtime with activeFingerprint := none, status := .stopped }

end RuntimeState

inductive CoreCommand where
  | applyConfig (config : CoreConfig)
  | applyRoutes (config : CoreConfig)
  | applyUserDelta (nodeTag : String) (delta : CoreUserDelta)
  | applyDeviceLimitSnapshot (snapshot : DeviceLimitSnapshot)
  | commitDeviceLimitReport (records : List DeviceLimitOnlineRecord)
  | drainTraffic (minimumBytes : UInt64)
  | requeueTraffic (records : List TrafficDelta)
  | status
  | metrics
  | trimMemory
  | stop

/-- The command is about the configuration or the users. -/
def CoreCommand.configures : CoreCommand → Bool
  | .applyConfig _ | .applyRoutes _ | .applyUserDelta _ _ => true
  | _ => false

/-- The answers; the contents of a metrics answer are left out. -/
inductive CoreResponse where
  | applied (decision : String) (status : CoreStatus) (listeners : List ListenerStatus)
  | userDeltaApplied (nodeTag : String) (result : CoreUserDeltaResult)
      (status : CoreStatus) (listeners : List ListenerStatus)
  | traffic (records : List TrafficDelta)
  | trafficRequeued (count : Nat)
  | deviceLimitSnapshotApplied (nodeTag : String) (users : Nat)
  | deviceLimitReportCommitted (count : Nat)
  | status (status : CoreStatus) (listeners : List ListenerStatus)
  | metrics
  | memoryTrimmed
  | stopped
  | error (message : String)
deriving DecidableEq

def CoreResponse.isError : CoreResponse → Bool
  | .error _ => true
  | _ => false

/-- `CoreController` together with the threads of its process. -/
structure CoreController where
  runtime : RuntimeState := {}
  service : Option CoreService := none
  host : Host := {}

def decisionName : ReloadDecision → String
  | .noop => "noop"
  | .reloaded => "reloaded"
  | .updated => "updated"

namespace CoreController

variable (env : Externals) (world : World)

def listeners (controller : CoreController) : List ListenerStatus :=
  (controller.service.map CoreService.listenerStatuses).getD []

/-- The answer to a configuration or a set of routes that was taken. -/
def appliedResponse (controller : CoreController) (decision : ReloadDecision) :
    CoreResponse :=
  .applied (decisionName decision) controller.runtime.status controller.listeners

/-- Record a failure and answer with its message. -/
def failWith (controller : CoreController) (message : String) : CoreController × CoreResponse :=
  ({ controller with runtime := controller.runtime.fail message }, .error message)

/-- The hot-update paths of `CoreController::apply_config` end here. -/
def finishUpdate (controller : CoreController) (fingerprint : UInt64)
    (host : Host) (service : CoreService) : CoreController × CoreResponse :=
  let update := controller.runtime.applyUpdate fingerprint
  let updated : CoreController :=
    { runtime := update.1, service := some service, host }
  (updated, updated.appliedResponse update.2)

/-- The threads once the service, if one runs, has been stopped. -/
def stoppedHost (controller : CoreController) : Host :=
  match controller.service with
  | some service => service.stop controller.host
  | none => controller.host

/-- The restart path of `CoreController::apply_config`: the old service is
stopped before the new one is started. -/
def restart (controller : CoreController) (fingerprint : UInt64)
    (config : CoreConfig) : CoreController × CoreResponse :=
  match CoreService.start env world controller.stoppedHost config with
  | (host, .error error) => failWith { controller with service := none, host } error.display
  | (host, .ok service) =>
    let plan := controller.runtime.applyPlan fingerprint
    let restarted : CoreController :=
      { runtime := plan.1, service := some service, host }
    (restarted, restarted.appliedResponse plan.2)

def applyConfig (controller : CoreController) (config : CoreConfig) :
    CoreController × CoreResponse :=
  match RuntimeState.plan env config with
  | .error error => controller.failWith error.message
  | .ok fingerprint =>
    if !controller.runtime.needsReload fingerprint then
      let plan := controller.runtime.applyPlan fingerprint
      let same : CoreController := { controller with runtime := plan.1 }
      (same, same.appliedResponse plan.2)
    else
      match controller.service with
      | none => controller.restart env world fingerprint config
      | some service =>
        if service.canUpdateUsers config then
          controller.finishUpdate fingerprint controller.host (service.updateUsers env config)
        else if service.canUpdateRoutes config then
          controller.finishUpdate fingerprint controller.host
            (service.updateRoutesAndUsers env config)
        else
          match service.updateChangedListenersAndUsers env world controller.host config with
          | ((host, service), .ok true) => controller.finishUpdate fingerprint host service
          | ((host, service), .ok false) =>
            restart env world { controller with host, service := some service } fingerprint config
          | ((host, service), .error error) =>
            failWith { controller with host, service := some service } error.display

def applyRoutes (controller : CoreController) (config : CoreConfig) :
    CoreController × CoreResponse :=
  match controller.service with
  | none => (controller, .error "cannot apply routes before config is applied")
  | some service =>
    if !service.canUpdateRoutes config then
      (controller, .error "route hot config requires reload")
    else
      let update := controller.runtime.applyRuntimeUpdate
      let updated : CoreController :=
        { controller with
          runtime := update.1
          service := some (service.updateRoutes config) }
      (updated, updated.appliedResponse update.2)

def applyUserDelta (controller : CoreController) (nodeTag : String)
    (delta : CoreUserDelta) : CoreController × CoreResponse :=
  match controller.service with
  | none => (controller, .error "cannot apply user delta before config is applied")
  | some service =>
    match service.applyUserDelta env world nodeTag delta with
    | .error message => (controller, .error message)
    | .ok (service, result) =>
      let updated : CoreController :=
        { controller with
          runtime := controller.runtime.applyRuntimeUpdate.1
          service := some service }
      (updated, .userDeltaApplied nodeTag result updated.runtime.status updated.listeners)

def applyDeviceLimitSnapshot (controller : CoreController)
    (snapshot : DeviceLimitSnapshot) : CoreController × CoreResponse :=
  match controller.service with
  | none => (controller, .error "cannot apply device limit snapshot before config is applied")
  | some service =>
    let sessions := service.sessions.applyDeviceLimitSnapshot world.now snapshot
    ({ controller with service := some { service with sessions } },
      .deviceLimitSnapshotApplied snapshot.nodeTag (max snapshot.alive.len snapshot.aliveIps.len))

def commitDeviceLimitReport (controller : CoreController)
    (records : List DeviceLimitOnlineRecord) : CoreController × CoreResponse :=
  match controller.service with
  | none => (controller, .error "cannot commit device limit report before config is applied")
  | some service =>
    let sessions := service.sessions.commitDeviceLimitReport world.now records
    ({ controller with service := some { service with sessions } },
      .deviceLimitReportCommitted records.length)

/-- The registry that drains and requeues go to: the service's while one runs,
the runtime's otherwise. -/
def registry (controller : CoreController) : TrafficRegistry :=
  match controller.service with
  | some service => service.traffic
  | none => controller.runtime.traffic

def setRegistry (controller : CoreController) (traffic : TrafficRegistry) :
    CoreController :=
  match controller.service with
  | some service => { controller with service := some { service with traffic } }
  | none => { controller with runtime := { controller.runtime with traffic } }

def drainTraffic (controller : CoreController) (minimumBytes : UInt64) :
    CoreController × CoreResponse :=
  let drained := drainMinimum controller.registry minimumBytes
  (controller.setRegistry drained.1, .traffic drained.2)

def requeueTraffic (controller : CoreController)
    (records : List TrafficDelta) : CoreController × CoreResponse :=
  (controller.setRegistry (addDeltas controller.registry records), .trafficRequeued records.length)

/-- The `Stop` branch of `CoreController::handle`. -/
def stop (controller : CoreController) : CoreController × CoreResponse :=
  ({ runtime := controller.runtime.stop
     service := none
     host := controller.stoppedHost }, .stopped)

def handle (controller : CoreController) : CoreCommand → CoreController × CoreResponse
  | .applyConfig config => controller.applyConfig env world config
  | .applyRoutes config => controller.applyRoutes config
  | .applyUserDelta nodeTag delta => controller.applyUserDelta env world nodeTag delta
  | .applyDeviceLimitSnapshot snapshot => controller.applyDeviceLimitSnapshot world snapshot
  | .commitDeviceLimitReport records => controller.commitDeviceLimitReport world records
  | .drainTraffic minimumBytes => controller.drainTraffic minimumBytes
  | .requeueTraffic records => controller.requeueTraffic records
  | .status => (controller, .status controller.runtime.status controller.listeners)
  | .metrics => (controller, .metrics)
  | .trimMemory => (controller, .memoryTrimmed)
  | .stop => controller.stop

end CoreController

/-! ### Runs

A run interleaves commands with what the listeners do for their clients. -/

/-- What a client's connection does to the shared stores. -/
inductive ClientEvent where
  /-- `add_with_user_id` on the traffic registry -/
  | recordTraffic (delta : TrafficDelta)
  /-- `limiter_for`, or `limiter_for_limited` -/
  | fetchLimiter (user : CoreUser) (limited : Bool)
  /-- `register_tcp_connection` for a user -/
  | register (id : Nat) (user : CoreUser)
  /-- the drop of a connection guard -/
  | disconnect (id : Nat)
  /-- `try_acquire_for_node_ip_with_policy` -/
  | acquire (world : World) (nodeTag : String) (user : CoreUser)
      (clientIp : Option IpAddr) (policy : DeviceLimitPolicy)
  | release (guard : UserSessionGuard)

namespace CoreService

/-- Some listener's table holds this user. -/
def authenticates (service : CoreService) (user : CoreUser) : Bool :=
  service.listeners.any fun handle => handle.table.contains user

/-- The effect of a client on a running service.  Only a user that some table
holds gets past the login. -/
def serve (service : CoreService) : ClientEvent → CoreService
  | .recordTraffic delta => { service with traffic := addDelta service.traffic delta }
  | .fetchLimiter user limited =>
    if service.authenticates user then
      { service with
        bandwidth :=
          if limited then service.bandwidth.limiterForLimited user
          else service.bandwidth.limiterFor user }
    else service
  | .register id user =>
    if service.authenticates user then
      { service with
        bandwidth := service.bandwidth.registerTcpConnection id user.uuid }
    else service
  | .disconnect id => { service with bandwidth := service.bandwidth.dropConnection id }
  | .acquire world nodeTag user clientIp policy =>
    if service.authenticates user then
      { service with
        sessions := (service.sessions.tryAcquire world.ipOrder world.now
          nodeTag user clientIp policy).1 }
    else service
  | .release guard => { service with sessions := service.sessions.dropGuard guard }

end CoreService

inductive Event where
  | command (world : World) (command : CoreCommand)
  | client (event : ClientEvent)

namespace CoreController

variable (env : Externals)

def step (controller : CoreController) : Event → CoreController
  | .command world command => (controller.handle env world command).1
  | .client event =>
    { controller with
      service := controller.service.map fun service => service.serve event }

/-- The controller after a run from a fresh start. -/
def run (events : List Event) : CoreController :=
  Run.exec (step env) {} events

theorem run_concat (events : List Event) (event : Event) :
    run env (events ++ [event]) = (run env events).step env event := by
  rw [run, Run.exec_concat, run]

end CoreController

/-! ### A small environment

Concrete runs below use these parameters: hashes that are plain encodings, a
loopback address for every listener, and maps walked in key order. -/

namespace Sample

def externals : Externals where
  regexCompiles _ := true
  headerNameValid _ := true
  headerValueValid _ := true
  base64UrlSafeNoPad _ := none
  base64Standard _ := none
  charToLowercase char := [char.toLower]
  sha224 bytes := bytes
  sha256 bytes := bytes
  defaultHasher id _ _ _ _ _ := id
  serdeJsonToVec config :=
    config.policy.connectTimeoutSecs.toUInt8 :: config.inbounds.flatMap fun inbound =>
        Text.bytes inbound.tag ++ inbound.users.map fun user => user.id.toUInt8
  outboundConnectTimeoutSecs := none

/-- The listener starts numbered in the list fail. -/
def world (failing : List Nat) : World where
  startListener id :=
    if id ∈ failing then .error "address in use" else .ok ⟨.v4 0x7f000001, 80⟩
  toSocketAddrs _ port := .ok [⟨.v4 0x7f000001, port⟩]
  now := 0
  userOrder := Finmap.sortedOrder
  ipOrder := Finmap.sortedOrder

def user (id : UInt64) (uuid : String) : CoreUser := { id, uuid }

def inbound (tag : String) (protocol : Protocol) (port : UInt16)
    (users : List CoreUser) : InboundConfig where
  tag := tag
  protocol := protocol
  listen := "127.0.0.1"
  port := port
  users := users

def config (inbounds : List InboundConfig) : CoreConfig where
  instanceId := "node"
  logLevel := "info"
  inbounds := inbounds
  outbounds := []
  routes := []

end Sample

end KeliCore
