/-
Resolving names: literals, the positive cache, what the servers answer and the
addresses kept for googlevideo, behind the filter of private addresses.  A
resolution holds one lock at a time, and so does `configure`, which first writes
the configuration and then clears one cache after the other; either may come
between two steps of the other.
-/
import KeliCore.Bytes
import KeliCore.Config
import KeliCore.HashMap
import KeliCore.Run

namespace KeliCore

open Finmap Text List SocketAddr

/-- Private, loopback or link-local. -/
def isLocal : IpAddr → Bool
  | .v4 bits =>
    bits.toNat / 2 ^ 24 ∈ [10, 127] || bits.toNat / 2 ^ 20 == 0xac1 ||
      bits.toNat / 2 ^ 16 ∈ [0xc0a8, 0xa9fe]
  | .v6 bits => bits == 1 || bits.toNat / 2 ^ 121 == 0x7e || bits.toNat / 2 ^ 118 == 0x3fa

/-- Besides: broadcast, the documentation networks, the network zero and the
unspecified address. -/
def isPrivateIp (ip : IpAddr) : Bool :=
  isLocal ip ||
    match ip with
    | .v4 bits =>
      bits == 0xffffffff || bits.toNat / 2 ^ 8 ∈ [0xc00002, 0xc63364, 0xcb0071] ||
        bits.toNat / 2 ^ 24 == 0
    | .v6 bits => bits == 0

def bareHost (host : String) : String := trimMatches (fun c => c == '[' || c == ']') (trim host)

def literalSocketAddr (host : String) (port : UInt16) : Option SocketAddr :=
  (IpAddr.parse (bareHost host)).map (⟨·, port⟩)

def dnsCacheKey (host : String) (port : UInt16) : String × UInt16 :=
  (toAsciiLowercase (bareHost host), port)

def isGooglevideoHost (host : String) : Bool :=
  let host := toAsciiLowercase
    (String.ofList ((bareHost host).toList.reverse.dropWhile (· == '.')).reverse)
  host == "googlevideo.com" || endsWith host ".googlevideo.com"

/-- A question to the servers, with the configuration it was read under. -/
structure DnsQuery where
  config : DnsConfig
  host : String
  port : UInt16

/-- A resolution that is under way, by what comes next. -/
inductive DnsTask where
  /-- the caches had nothing, and the configuration is to be read -/
  | missed (host : String) (port : UInt16)
  | waiting (asked : DnsQuery)
  /-- the answer is cached, and is to be kept for googlevideo -/
  | answered (asked : DnsQuery) (addrs : List SocketAddr)
  /-- the cache's entry is removed, and googlevideo's are to be looked up -/
  | failed (asked : DnsQuery) (error : IoError)
  /-- googlevideo's addresses are to be cached -/
  | fellBack (asked : DnsQuery) (addrs : List SocketAddr)

/-- How far the last `configure` has come. -/
inductive ConfigureStage where
  | written
  | positiveCleared
  | returned
deriving DecidableEq

/-- Addresses with the time at which they expire. -/
abbrev DnsCache := HashMap (String × UInt16) (Nat × List SocketAddr)

structure DnsState where
  config : DnsConfig
  stage : ConfigureStage := .returned
  positive : DnsCache := ∅
  fallback : Option (Nat × List IpAddr) := none
  tasks : List DnsTask := []

/-- `configure` writes and later clears; a resolution starts, with what the
negative cache has for it, and later goes on. -/
inductive DnsEvent where
  | configure (config : DnsConfig)
  | clear
  | start (host : String) (port : UInt16) (refused : Option IoError) (now : Nat)
  | resume (index now : Nat)

abbrev DnsReply := (String × UInt16) × Except IoError (List SocketAddr)

/-- `route_targets_match`, whose entries that look the host up again are taken
to find the same each time; what the servers of a configuration answer at a
time; and which of the cache's keys comes first. -/
structure DnsWorld where
  targets : List String → String → UInt16 → Bool
  resolver : DnsQuery → Nat → Except IoError (List SocketAddr)
  firstKey : DnsCache → Option (String × UInt16)

namespace DnsState

def cachedPositiveAddrs (state : DnsState) (key : String × UInt16) (now : Nat) :
    DnsState × Option (List SocketAddr) :=
  match state.positive.lookup key with
  | none => (state, none)
  | some (expires, addrs) =>
    if expires ≤ now then ({ state with positive := state.positive.erase key }, none)
    else (state, some addrs)

def recordGooglevideoFallback (state : DnsState) (host : String) (addrs : List SocketAddr)
    (now : Nat) : DnsState :=
  if !isGooglevideoHost host || addrs.isEmpty then state
  else { state with fallback := some (now + 30000, addrs.map SocketAddr.ip) }

def googlevideoFallbackAddrs (state : DnsState) (host : String) (port : UInt16) (now : Nat) :
    DnsState × Option (List SocketAddr) :=
  if !isGooglevideoHost host then (state, none)
  else
    match state.fallback with
    | none => (state, none)
    | some (expires, ips) =>
      if expires ≤ now then ({ state with fallback := none }, none)
      else if ips.isEmpty then (state, none)
      else (state, some (ips.map (⟨·, port⟩)))

/-- The next step of a `configure` that has not returned. -/
def clear (state : DnsState) : DnsState :=
  match state.stage with
  | .written => { state with positive := ∅, stage := .positiveCleared }
  | .positiveCleared => { state with fallback := none, stage := .returned }
  | .returned => state

end DnsState

def DnsQuery.key (asked : DnsQuery) : String × UInt16 := dnsCacheKey asked.host asked.port

namespace DnsTask

/-- The configuration that was read. -/
def config : DnsTask → Option DnsConfig
  | .missed .. => none
  | .waiting asked | .answered asked _ | .failed asked _ | .fellBack asked _ => some asked.config

def target : DnsTask → String × UInt16
  | .missed host port => (host, port)
  | .waiting asked | .answered asked _ | .failed asked _ | .fellBack asked _ =>
    (asked.host, asked.port)

end DnsTask

namespace DnsWorld

variable (world : DnsWorld)

def privateIpTargetAllowed (host : String) (port : UInt16) (config : DnsConfig) : Bool :=
  !config.privateIpAllowlist.isEmpty && world.targets config.privateIpAllowlist host port

def filterPrivateAddrs (host : String) (port : UInt16) (addrs : List SocketAddr)
    (config : DnsConfig) : Except IoError (List SocketAddr) :=
  if !config.blockPrivateIps || world.privateIpTargetAllowed host port config then .ok addrs
  else
    let publicAddrs := addrs.filter fun addr => !isPrivateIp addr.ip
    if publicAddrs.isEmpty then
      .error ⟨.permissionDenied, "dns private ip blocked for " ++ host⟩
    else .ok publicAddrs

/-- The beginning of `record_positive_cache`. -/
def makeRoom (cache : DnsCache) (now : Nat) : DnsCache :=
  if cache.len < 8192 then cache
  else
    let live := cache.retain fun _ entry => now < entry.1
    if live.len < 8192 then live
    else
      match world.firstKey live with
      | some first => live.erase first
      | none => live

def recordPositiveCache (state : DnsState) (key : String × UInt16) (addrs : List SocketAddr)
    (now : Nat) : DnsState :=
  if addrs.isEmpty then state
  else
    { state with positive := (world.makeRoom state.positive now).insert key (now + 30000, addrs) }

/-- `resolve_socket_addrs` up to the query. -/
def startResolve (state : DnsState) (host : String) (port : UInt16) (refused : Option IoError)
    (now : Nat) : DnsState × Option DnsReply :=
  match literalSocketAddr host port with
  | some addr =>
    (state, some ((host, port), world.filterPrivateAddrs host port [addr] state.config))
  | none =>
    let host := bareHost host
    match state.cachedPositiveAddrs (dnsCacheKey host port) now with
    | (state, some addrs) => (state, some ((host, port), .ok addrs))
    | (state, none) =>
      match refused with
      | some error => (state, some ((host, port), .error error))
      | none => ({ state with tasks := state.tasks ++ [.missed host port] }, none)

/-- The rest of `resolve_socket_addrs`, as far as the next lock reaches. -/
def goOn (state : DnsState) (now : Nat) :
    DnsTask → DnsState × (DnsTask ⊕ Except IoError (List SocketAddr))
  | .missed host port => (state, .inl (.waiting ⟨state.config, host, port⟩))
  | .waiting asked =>
    match world.resolver asked now with
    | .ok addrs =>
      match world.filterPrivateAddrs asked.host asked.port addrs asked.config with
      | .error error => (state, .inr (.error error))
      | .ok addrs =>
        (world.recordPositiveCache state asked.key addrs now, .inl (.answered asked addrs))
    | .error error =>
      ({ state with positive := state.positive.erase asked.key }, .inl (.failed asked error))
  | .answered asked addrs =>
    (state.recordGooglevideoFallback asked.host addrs now, .inr (.ok addrs))
  | .failed asked error =>
    match state.googlevideoFallbackAddrs asked.host asked.port now with
    | (state, some addrs) => (state, .inl (.fellBack asked addrs))
    | (state, none) => (state, .inr (.error error))
  | .fellBack asked addrs =>
    (world.recordPositiveCache state asked.key addrs now, .inr (.ok addrs))

def step (state : DnsState) : DnsEvent → DnsState × Option DnsReply
  | .configure config =>
    if state.stage = .returned then ({ state with config, stage := .written }, none)
    else (state, none)
  | .clear => (state.clear, none)
  | .start host port refused now => world.startResolve state host port refused now
  | .resume index now =>
    match state.tasks[index]? with
    | none => (state, none)
    | some task =>
      match world.goOn state now task with
      | (state, .inl next) => ({ state with tasks := next :: state.tasks.eraseIdx index }, none)
      | (state, .inr result) =>
        ({ state with tasks := state.tasks.eraseIdx index }, some (task.target, result))

def after (state : DnsState) (event : DnsEvent) : DnsState := (world.step state event).1

/-- What the servers answer to a query and the filter lets pass. -/
def Answers (asked : DnsQuery) (now : Nat) (kept : List SocketAddr) : Prop :=
  ∃ addrs, world.resolver asked now = .ok addrs ∧
    world.filterPrivateAddrs asked.host asked.port addrs asked.config = .ok kept

/-- The host is an address of its own, which the filter lets pass. -/
def Literal (config : DnsConfig) (reply : String × UInt16) (addrs : List SocketAddr) : Prop :=
  ∃ addr, literalSocketAddr reply.1 reply.2 = some addr ∧
    world.filterPrivateAddrs reply.1 reply.2 [addr] config = .ok addrs

/-- What a resolution is about to record is `good` under its key, and what it is
about to keep for googlevideo `spare`. -/
def Sound (good : DnsConfig → String × UInt16 → List SocketAddr → Prop)
    (spare : DnsConfig → List IpAddr → Prop) : DnsTask → Prop
  | .answered asked addrs => good asked.config asked.key addrs ∧
      (isGooglevideoHost asked.host = true → spare asked.config (addrs.map ip))
  | .fellBack asked addrs => good asked.config asked.key addrs
  | _ => True

/-- What is cached is `good` under its key, and what is kept for googlevideo
`spare`, but for what a `configure` is still to clear. -/
structure Kept (good : DnsConfig → String × UInt16 → List SocketAddr → Prop)
    (spare : DnsConfig → List IpAddr → Prop) (state : DnsState) : Prop where
  positive : state.stage ≠ .written → ∀ key entry, state.positive.lookup key = some entry →
    good state.config key entry.2
  fallback : state.stage = .returned → ∀ entry ∈ state.fallback, spare state.config entry.2
  tasks : ∀ task ∈ state.tasks, Sound good spare task

/-- A resolution records what it has under the configuration it read, and takes
nothing that was kept for googlevideo while a `configure` is under way. -/
def Goes (world : DnsWorld) (state : DnsState) (now : Nat) : DnsTask → Prop
  | .missed .. => True
  | .waiting asked => ∀ kept, world.Answers asked now kept → asked.config = state.config
  | .answered asked _ | .fellBack asked _ => asked.config = state.config
  | .failed asked _ => (state.googlevideoFallbackAddrs asked.host asked.port now).2.isSome →
      asked.config = state.config ∧ state.stage = .returned

def Timely (world : DnsWorld) (state : DnsState) : DnsEvent → Prop
  | .resume index now => ∀ task ∈ state.tasks[index]?, world.Goes state now task
  | _ => True

section Keeping

variable {world} {state : DnsState} {key : String × UInt16} {host : String} {port : UInt16}
  {now : Nat} {addrs : List SocketAddr} {cache : DnsCache} {entry : Nat × List SocketAddr}
  {good : DnsConfig → String × UInt16 → List SocketAddr → Prop}
  {spare : DnsConfig → List IpAddr → Prop}

theorem lookup_of_makeRoom (hentry : (world.makeRoom cache now).lookup key = some entry) :
    cache.lookup key = some entry := by
  rw [makeRoom] at hentry
  split at hentry
  · exact hentry
  dsimp only at hentry
  split at hentry
  · exact of_lookup_retain hentry
  split at hentry
  · exact of_lookup_retain (of_lookup_erase hentry).2
  · exact of_lookup_retain hentry

namespace Kept

variable (hstate : Kept good spare state)

include hstate

theorem erase (key : String × UInt16) :
    Kept good spare { state with positive := state.positive.erase key } := by
  refine ⟨fun hstage other entry hentry => ?_, hstate.fallback, hstate.tasks⟩
  exact hstate.positive hstage other entry (of_lookup_erase hentry).2

theorem recordPositiveCache (hgood : good state.config key addrs) :
    Kept good spare (world.recordPositiveCache state key addrs now) := by
  rw [DnsWorld.recordPositiveCache]
  split
  · exact hstate
  refine ⟨fun hstage other entry hentry => ?_, hstate.fallback, hstate.tasks⟩
  rw [lookup_insert_ite] at hentry
  split at hentry
  next heq =>
    cases hentry
    rwa [heq]
  · exact hstate.positive hstage other entry (lookup_of_makeRoom hentry)

theorem recordGooglevideoFallback
    (hspare : isGooglevideoHost host = true → spare state.config (addrs.map ip)) :
    Kept good spare (state.recordGooglevideoFallback host addrs now) := by
  rw [DnsState.recordGooglevideoFallback]
  split
  · exact hstate
  next hvideo =>
    simp only [Bool.or_eq_true, Bool.not_eq_true', not_or, Bool.not_eq_false] at hvideo
    refine ⟨hstate.positive, fun _ => ?_, hstate.tasks⟩
    rintro _ ⟨⟩
    exact hspare hvideo.1

theorem googlevideoFallbackAddrs (hspare : ∀ ips, isGooglevideoHost host = true →
      spare state.config ips → good state.config key (ips.map (⟨·, port⟩))) :
    Kept good spare (state.googlevideoFallbackAddrs host port now).1 ∧
      (state.stage = .returned → ∀ addrs ∈ (state.googlevideoFallbackAddrs host port now).2,
        good state.config key addrs) := by
  unfold DnsState.googlevideoFallbackAddrs
  split
  · exact ⟨hstate, nofun⟩
  rename_i hvideo
  split
  · exact ⟨hstate, nofun⟩
  rename_i expires ips hfallback
  split
  · exact ⟨⟨hstate.positive, nofun, hstate.tasks⟩, nofun⟩
  split
  · exact ⟨hstate, nofun⟩
  · refine ⟨hstate, fun hstage => ?_⟩
    rintro _ ⟨⟩
    exact hspare ips (by simpa using hvideo) (hstate.fallback hstage _ hfallback)

theorem clear : Kept good spare state.clear := by
  unfold DnsState.clear
  split
  · refine ⟨fun _ key entry hentry => ?_, nofun, hstate.tasks⟩
    simp only [lookup_empty, reduceCtorEq] at hentry
  next hstage => exact ⟨fun _ => hstate.positive (by simp [hstage]), nofun, hstate.tasks⟩
  · exact hstate

theorem setTasks {tasks : List DnsTask} (htasks : ∀ task ∈ tasks, Sound good spare task) :
    Kept good spare { state with tasks } :=
  ⟨hstate.positive, hstate.fallback, htasks⟩

/-- A resolution that starts answers with a literal or from the cache. -/
theorem start {refused : Option IoError} :
    Kept good spare (world.startResolve state host port refused now).1 ∧
      ∀ reply addrs, (world.startResolve state host port refused now).2 = some (reply, .ok addrs) →
        world.Literal state.config reply addrs ∨
        (state.stage ≠ .written → good state.config (dnsCacheKey reply.1 reply.2) addrs) := by
  have htasks : ∀ task ∈ state.tasks ++ [.missed (bareHost host) port], Sound good spare task := by
    intro task htask
    rcases mem_append.1 htask with hold | hnew
    · exact hstate.tasks task hold
    · rw [mem_singleton.1 hnew]
      trivial
  unfold startResolve
  cases hliteral : literalSocketAddr host port with
  | some addr =>
    refine ⟨hstate, fun reply addrs hreply => .inl ?_⟩
    obtain ⟨rfl, hfilter⟩ := Prod.mk.inj (Option.some.inj hreply)
    exact ⟨addr, hliteral, hfilter⟩
  | none =>
    dsimp only [DnsState.cachedPositiveAddrs]
    cases hentry : state.positive.lookup (dnsCacheKey (bareHost host) port) with
    | none =>
      cases refused with
      | none => exact ⟨hstate.setTasks htasks, by simp⟩
      | some error => exact ⟨hstate, by simp⟩
    | some entry =>
      by_cases hexpired : entry.1 ≤ now
      · simp only [hexpired, if_true]
        have herased := hstate.erase (dnsCacheKey (bareHost host) port)
        cases refused with
        | none => exact ⟨herased.setTasks htasks, by simp⟩
        | some error => exact ⟨herased, by simp⟩
      · simp only [hexpired, if_false]
        refine ⟨hstate, fun reply addrs hreply => .inr fun hstage => ?_⟩
        simp only [Option.some.injEq, Prod.mk.injEq, Except.ok.injEq] at hreply
        obtain ⟨rfl, rfl⟩ := hreply
        exact hstate.positive hstage _ entry hentry

/-- What a resolution does next keeps the caches, leaves it with what is
`good`, and answers with that. -/
theorem goOn {task : DnsTask} (htask : Sound good spare task) (hgoes : world.Goes state now task)
    (hrecord : ∀ asked, task = .waiting asked → ∀ kept, world.Answers asked now kept →
      good asked.config asked.key kept ∧
        (isGooglevideoHost asked.host = true → spare asked.config (kept.map ip)))
    (hspare : ∀ host port ips, isGooglevideoHost host = true → spare state.config ips →
      good state.config (dnsCacheKey host port) (ips.map (⟨·, port⟩))) :
    Kept good spare (world.goOn state now task).1 ∧
      (∀ next, (world.goOn state now task).2 = .inl next → Sound good spare next) ∧
      ∀ addrs, (world.goOn state now task).2 = .inr (.ok addrs) →
        ∀ config ∈ task.config, good config (dnsCacheKey task.target.1 task.target.2) addrs := by
  unfold DnsWorld.goOn
  cases task with
  | missed host port => exact ⟨hstate, by rintro _ ⟨⟩; trivial, nofun⟩
  | waiting asked =>
    dsimp only
    cases hanswer : world.resolver asked now with
    | error error => exact ⟨hstate.erase _, by rintro _ ⟨⟩; trivial, nofun⟩
    | ok found =>
      dsimp only
      cases hfilter : world.filterPrivateAddrs asked.host asked.port found asked.config with
      | error error => exact ⟨hstate, nofun, nofun⟩
      | ok kept =>
        have hgood := hrecord asked rfl kept ⟨found, hanswer, hfilter⟩
        refine ⟨hstate.recordPositiveCache ?_, ?_, nofun⟩
        · rw [← hgoes kept ⟨found, hanswer, hfilter⟩]
          exact hgood.1
        · rintro _ ⟨⟩
          exact hgood
  | answered asked addrs =>
    rw [Goes] at hgoes
    dsimp only
    refine ⟨hstate.recordGooglevideoFallback fun hvideo => ?_, nofun, ?_⟩
    · rw [← hgoes]
      exact htask.2 hvideo
    · rintro _ ⟨⟩ _ ⟨⟩
      exact htask.1
  | failed asked error =>
    dsimp only
    obtain ⟨hkept, hfound⟩ := hstate.googlevideoFallbackAddrs (hspare asked.host asked.port)
    cases hfallback : state.googlevideoFallbackAddrs asked.host asked.port now with
    | mk next found =>
      rw [hfallback] at hkept hfound
      cases found with
      | none => exact ⟨hkept, nofun, nofun⟩
      | some addrs =>
        rw [Goes, hfallback] at hgoes
        obtain ⟨hconfig, hstage⟩ := hgoes rfl
        refine ⟨hkept, ?_, nofun⟩
        rintro _ ⟨⟩
        rw [Sound, hconfig]
        exact hfound hstage addrs rfl
  | fellBack asked addrs =>
    rw [Goes] at hgoes
    dsimp only
    refine ⟨hstate.recordPositiveCache ?_, nofun, ?_⟩
    · rw [← hgoes]
      exact htask
    · rintro _ ⟨⟩ _ ⟨⟩
      exact htask

end Kept

theorem Kept.empty (config : DnsConfig) : Kept good spare { config } := by
  refine ⟨fun _ key entry hentry => ?_, nofun, nofun⟩
  simp only [lookup_empty, reduceCtorEq] at hentry

/-- The configuration that a resolution answers under: the one it read, or the
present one if no `configure` is under way. -/
def asks (state : DnsState) : DnsEvent → Option DnsConfig
  | .start .. => if state.stage = .returned then some state.config else none
  | .resume index _ => (state.tasks[index]?).bind DnsTask.config
  | _ => none

/-- A timely step that records what is `good` keeps the caches, and answers
with a literal or with what is `good`. -/
theorem Kept.step {event : DnsEvent} (hstate : Kept good spare state)
    (htimely : world.Timely state event) (hrecord : ∀ index now, event = .resume index now →
      ∀ asked, state.tasks[index]? = some (.waiting asked) → ∀ kept, world.Answers asked now kept →
        good asked.config asked.key kept ∧
          (isGooglevideoHost asked.host = true → spare asked.config (kept.map ip)))
    (hspare : ∀ config host port ips, isGooglevideoHost host = true → spare config ips →
      good config (dnsCacheKey host port) (ips.map (⟨·, port⟩))) :
    Kept good spare (world.after state event) ∧
      ∀ reply addrs, (world.step state event).2 = some (reply, .ok addrs) →
        ∀ config ∈ asks state event, world.Literal config reply addrs ∨
          good config (dnsCacheKey reply.1 reply.2) addrs := by
  unfold after
  cases event with
  | configure config =>
    dsimp only [DnsWorld.step]
    split
    · exact ⟨⟨nofun, nofun, hstate.tasks⟩, nofun⟩
    · exact ⟨hstate, nofun⟩
  | clear => exact ⟨hstate.clear, nofun⟩
  | start host port refused now =>
    obtain ⟨hkept, hanswers⟩ := @Kept.start world state host port now good spare hstate refused
    refine ⟨hkept, fun reply addrs hreply config hconfig => ?_⟩
    simp only [asks] at hconfig
    split at hconfig
    next hstage =>
      cases hconfig
      exact (hanswers reply addrs hreply).imp_right fun hgood => hgood (by simp [hstage])
    · cases hconfig
  | resume index now =>
    simp only [DnsWorld.step, asks]
    cases htask : state.tasks[index]? with
    | none => exact ⟨hstate, nofun⟩
    | some task =>
      have hgoes : world.Goes state now task := htimely task htask
      have hasks : ∀ asked, task = .waiting asked →
          state.tasks[index]? = some (.waiting asked) := fun asked hasked => hasked ▸ htask
      obtain ⟨hkept, hnext, hgood⟩ := hstate.goOn (hstate.tasks task (mem_of_getElem? htask))
        hgoes (fun asked hasked => hrecord index now rfl asked (hasks asked hasked)) (hspare _)
      dsimp only
      cases hresult : world.goOn state now task with
      | mk after result =>
        rw [hresult] at hkept hnext hgood
        have hothers : ∀ other ∈ after.tasks.eraseIdx index, Sound good spare other :=
          fun other hother => hkept.tasks other (mem_of_mem_eraseIdx hother)
        cases result with
        | inl next =>
          refine ⟨hkept.setTasks fun other hother => ?_, nofun⟩
          rcases mem_cons.1 hother with rfl | hold
          · exact hnext _ rfl
          · exact hothers other hold
        | inr result =>
          refine ⟨hkept.setTasks hothers, fun reply addrs hreply config hconfig => .inr ?_⟩
          cases hreply
          exact hgood addrs rfl config hconfig

/-- An address that the configuration's own servers gave for a host of the key,
or for googlevideo if that is one, and that its filter let pass. -/
def Granted (world : DnsWorld) (config : DnsConfig) (key : String × UInt16) (ip : IpAddr) : Prop :=
  ∃ host port now kept, (dnsCacheKey host port = key ∨ isGooglevideoHost host = true ∧
      ∃ other, isGooglevideoHost other = true ∧ dnsCacheKey other key.2 = key) ∧
    world.Answers ⟨config, host, port⟩ now kept ∧ ip ∈ kept.map SocketAddr.ip

/-- The caches hold what the present configuration granted. -/
def Settled (world : DnsWorld) : DnsState → Prop :=
  Kept (fun config key addrs => ∀ addr ∈ addrs, world.Granted config key addr.ip)
    fun config ips => ∀ host port, isGooglevideoHost host = true →
      ∀ ip ∈ ips, world.Granted config (dnsCacheKey host port) ip

theorem Settled.step {event : DnsEvent} (hstate : world.Settled state)
    (htimely : world.Timely state event) : world.Settled (world.after state event) ∧
      ∀ reply addrs, (world.step state event).2 = some (reply, .ok addrs) →
        ∀ config ∈ asks state event, world.Literal config reply addrs ∨
          ∀ addr ∈ addrs, world.Granted config (dnsCacheKey reply.1 reply.2) addr.ip := by
  refine Kept.step hstate htimely ?_ ?_
  · rintro index now rfl ⟨config, host, port⟩ _ kept hanswers
    have hgranted := fun key hkey ip hip =>
      (⟨host, port, now, kept, hkey, hanswers, hip⟩ : world.Granted config key ip)
    exact ⟨fun addr haddr => hgranted _ (.inl rfl) _ (mem_map_of_mem haddr),
      fun hvideo other port hother => hgranted _ (.inr ⟨hvideo, other, hother, rfl⟩)⟩
  · intro config host port ips hvideo hspare addr haddr
    obtain ⟨ip, hip, rfl⟩ := mem_map.1 haddr
    exact hspare host port hvideo ip hip

end Keeping

end DnsWorld

namespace Sample

/-- Every name is at a private and at a public address, and nothing is on an
allow-list. -/
def dnsWorld : DnsWorld where
  targets _ _ _ := false
  resolver asked _ := .ok [⟨.v4 0x0a000001, asked.port⟩, ⟨.v4 0x08080808, asked.port⟩]
  firstKey _ := none

def blocking : DnsConfig := { blockPrivateIps := true }

/-- A resolution from its start to its answer, as the task at this place. -/
def resolves (place : Nat) : List DnsEvent :=
  [.start "b.test" 80 none 0, .resume place 0, .resume 0 1, .resume 0 2]

theorem timely_of_config {world : DnsWorld} {state : DnsState} {index now : Nat}
    (hstage : state.stage = .returned)
    (htasks : ∀ task ∈ state.tasks[index]?, ∀ config ∈ task.config, config = state.config) :
    world.Timely state (.resume index now) := by
  intro task htask
  have hconfig := htasks task htask
  cases task with
  | missed host port => trivial
  | waiting asked => exact fun _ _ => hconfig _ rfl
  | answered asked addrs | fellBack asked addrs => exact hconfig _ rfl
  | failed asked error => exact fun _ => ⟨hconfig _ rfl, hstage⟩

end Sample

open Sample

namespace DnsWorld

/-- The filter sees where the address leads. -/
abbrev Seen (ip : IpAddr) : Prop := isLocal ip.destination = true → isPrivateIp ip = true

def Outside (ips : List IpAddr) : Prop := ∀ ip ∈ ips, isLocal ip.destination = false

/-- Every host of the key may go to private addresses. -/
def Listed (world : DnsWorld) (config : DnsConfig) (key : String × UInt16) : Prop :=
  ∀ host, dnsCacheKey host key.2 = key → world.privateIpTargetAllowed host key.2 config = true

/-- Under a blocking configuration no cached address leads inside, unless every
host of its key may go there. -/
def Shielded (world : DnsWorld) : DnsState → Prop :=
  Kept (fun config key addrs => config.blockPrivateIps = true →
      Outside (addrs.map SocketAddr.ip) ∨ world.Listed config key)
    fun config ips => config.blockPrivateIps = true → Outside ips

/-- What is recorded is timely, the filter sees where answers lead, and those
for a host on the allow-list do no harm or stay with such hosts. -/
def Guarded (world : DnsWorld) (state : DnsState) (event : DnsEvent) : Prop :=
  world.Timely state event ∧ ∀ index now asked, event = .resume index now →
    state.tasks[index]? = some (.waiting asked) →
    ∀ addrs, world.resolver asked now = .ok addrs → (∀ addr ∈ addrs, Seen addr.ip) ∧
      (world.privateIpTargetAllowed asked.host asked.port asked.config = true →
        Outside (addrs.map SocketAddr.ip) ∨ isGooglevideoHost asked.host = false ∧
          world.Listed asked.config asked.key)

section Shielding

variable {world : DnsWorld} {state : DnsState} {host : String} {port : UInt16}
  {config : DnsConfig} {addrs kept : List SocketAddr} {event : DnsEvent}

theorem Listed.allowed (hlisted : world.Listed config (dnsCacheKey host port)) :
    world.privateIpTargetAllowed host port config = true := by
  have hport : (dnsCacheKey host port).2 = port := rfl
  exact hlisted host rfl

theorem outside_of_filter (hseen : ∀ addr ∈ addrs, Seen addr.ip)
    (hkept : world.filterPrivateAddrs host port addrs config = .ok kept)
    (hlisted : world.privateIpTargetAllowed host port config = false)
    (hblocks : config.blockPrivateIps = true) : Outside (kept.map ip) := by
  simp only [filterPrivateAddrs, hblocks, hlisted, Bool.not_true, Bool.or_self,
    Bool.false_eq_true, if_false] at hkept
  split at hkept
  · contradiction
  cases hkept
  refine forall_mem_map.2 fun addr haddr => ?_
  obtain ⟨hmem, hpublic⟩ := mem_filter.1 haddr
  by_contra hinside
  have hprivate := hseen addr hmem (Bool.eq_true_of_not_eq_false hinside)
  simp [hprivate] at hpublic

theorem Shielded.step (hstate : world.Shielded state)
    (hguarded : world.Guarded state event) : world.Shielded (world.after state event) ∧
      ∀ reply addrs, (world.step state event).2 = some (reply, .ok addrs) →
        ∀ config ∈ asks state event, world.Literal config reply addrs ∨
          (config.blockPrivateIps = true →
            Outside (addrs.map ip) ∨ world.Listed config (dnsCacheKey reply.1 reply.2)) := by
  refine Kept.step hstate hguarded.1 ?_ fun config host port ips _ hspare hblocks => .inl ?_
  · rintro index now rfl ⟨config, host, port⟩ hasked kept ⟨found, hfound, hfilter⟩
    obtain ⟨hseen, hallow⟩ := hguarded.2 index now _ rfl hasked found hfound
    cases hlisted : world.privateIpTargetAllowed host port config with
    | false =>
      have houtside := outside_of_filter hseen hfilter hlisted
      exact ⟨fun hblocks => .inl (houtside hblocks), fun _ => houtside⟩
    | true =>
      obtain rfl : found = kept := by simpa [filterPrivateAddrs, hlisted] using hfilter
      rcases hallow hlisted with houtside | ⟨hvideo, hhosts⟩
      · exact ⟨fun _ => .inl houtside, fun _ _ => houtside⟩
      · exact ⟨fun _ => .inr hhosts, fun hother => by simp [hvideo] at hother⟩
  · rw [map_map]
    exact fun ip hip => hspare hblocks ip (by simpa using hip)

end Shielding

/-- In a guarded run no host off the allow-list is sent to a private, loopback
or link-local destination. -/
theorem private_destinations_blocked (world : DnsWorld) (config : DnsConfig)
    (events : List DnsEvent) (event : DnsEvent)
    (hguarded : Run.Meets world.after world.Guarded { config } (events ++ [event]))
    (reply : String × UInt16) (addrs : List SocketAddr)
    (hliteral : ∀ addr ∈ literalSocketAddr reply.1 reply.2, Seen addr.ip) :
    let state := Run.exec world.after { config } events
    (world.step state event).2 = some (reply, .ok addrs) →
      ∀ current ∈ asks state event, current.blockPrivateIps = true →
      world.privateIpTargetAllowed reply.1 reply.2 current = false →
      ∀ addr ∈ addrs, isLocal addr.ip.destination = false := by
  intro state hreply current hcurrent hblocks hlisted
  obtain ⟨hpast, hlast⟩ := (Run.meets_concat _ _ _).1 hguarded
  have hshielded := @Run.exec_invariant _ _ world.after world.Guarded world.Shielded
    (fun _ _ hstate hevent => (Shielded.step hstate hevent).1) _ (Kept.empty config) _ hpast
  suffices houtside : Outside (addrs.map ip) from forall_mem_map.1 houtside
  have hanswers := (Shielded.step hshielded hlast).2 reply addrs hreply current hcurrent
  rcases hanswers with ⟨addr, hfound, hfilter⟩ | hguards
  · refine outside_of_filter (fun other hother => ?_) hfilter hlisted hblocks
    rw [mem_singleton.1 hother]
    exact hliteral addr hfound
  · rcases hguards hblocks with houtside | hhosts
    · exact houtside
    · exact absurd (hhosts.allowed.symm.trans hlisted) (by decide)

/-- A name at a private and at a public address is answered from the cache with
the public one. -/
theorem private_destinations_blocked_cached :
    ((dnsWorld.step (Run.exec dnsWorld.after { config := blocking } (resolves 0))
        (.start "b.test" 80 none 3)).2.map fun reply => reply.2.toOption) =
      some (some [⟨.v4 0x08080808, 80⟩]) ∧
    isLocal (IpAddr.destination (.v4 0x08080808)) = false := by
  have hguarded : ∀ state event, dnsWorld.Timely state event → dnsWorld.Guarded state event := by
    refine fun state event htimely => ⟨htimely, fun index now asked _ _ addrs haddrs => ?_⟩
    cases haddrs
    refine ⟨by simp [Seen]; decide, fun hallow => ?_⟩
    simp [privateIpTargetAllowed, dnsWorld] at hallow
  refine ⟨by decide +kernel, private_destinations_blocked dnsWorld blocking (resolves 0)
    (.start "b.test" 80 none 3) ⟨?_, ?_, ?_, ?_, ?_, trivial⟩ ("b.test", 80)
    [⟨.v4 0x08080808, 80⟩] (by decide +kernel) (by decide +kernel) blocking (by decide +kernel)
    rfl rfl ⟨.v4 0x08080808, 80⟩ (by simp)⟩
  · exact hguarded _ _ trivial
  iterate 3 exact hguarded _ _ (timely_of_config (by decide +kernel) (by decide +kernel))
  · exact hguarded _ _ trivial

theorem mapped_loopback_passes : (dnsWorld.step { config := blocking }
        (.start "[::ffff:127.0.0.1]" 80 none 0)).2.map (fun reply => reply.2.toOption) =
      some (some [⟨.v6 0xffff7f000001, 80⟩]) ∧
      IpAddr.destination (.v6 0xffff7f000001) = .v4 0x7f000001 ∧
      isLocal (.v4 0x7f000001) = true := by
  decide +kernel

end DnsWorld

end KeliCore
