/-
Inbounds and the stores they share.  A delta is addressed to one inbound, but
the limiters, connections and sessions it sweeps are those of all inbounds: a
user it has nothing to do with is left alone exactly if there is nothing the
sweep would find.
-/
import KeliCore.Controller
import KeliCore.Sweep

namespace KeliCore

open List Connection ListenerHandle

def CoreUserDelta.Names (delta : CoreUserDelta) (uuid : String) : Prop :=
  uuid ∈ (delta.added ++ delta.updated ++ delta.full.getD []).map
    CoreUser.uuid ∨ uuid ∈ delta.deleted

instance (delta : CoreUserDelta) (uuid : String) : Decidable (delta.Names uuid) := by
  unfold CoreUserDelta.Names
  infer_instance

instance (table : UserTable) (uuid : String) : Decidable (table.HasUuid uuid) :=
  match table with
  | .keyed users =>
    decidable_of_iff (¬ ∀ key user, users.lookup key = some user → user.uuid ≠ uuid) (by
        simp only [UserTable.HasUuid, UserTable.Holds]
        grind)
  | .listed users => decidable_of_iff (∃ user ∈ users, user.uuid = uuid) Iff.rfl

/-- Neither the delta nor the table of its inbound has this uuid. -/
def Foreign (handle : ListenerHandle) (delta : CoreUserDelta) (uuid : String) : Prop :=
  ¬ delta.Names uuid ∧ ¬ handle.table.HasUuid uuid

instance (handle : ListenerHandle) (delta : CoreUserDelta) (uuid : String) :
    Decidable (Foreign handle delta uuid) := by
  unfold Foreign
  infer_instance

theorem mem_of_mem_limitedUsers {users : List CoreUser} {user : CoreUser} {handle : ListenerHandle}
    (hmem : user ∈ handle.limitedUsers users) : user ∈ users := by
  unfold limitedUsers at hmem
  split at hmem
  · exact mem_of_mem_filter hmem
  · exact hmem

variable {uuid : String}

theorem names_of_limitedDelta {handle : ListenerHandle} {delta : CoreUserDelta}
    (hnames : (handle.limitedDelta delta).Names uuid) : delta.Names uuid := by
  rcases hnames with hlisted | hdeleted
  · left
    obtain ⟨user, hmem, rfl⟩ := mem_map.1 hlisted
    refine mem_map_of_mem ?_
    simp only [mem_append] at hmem ⊢
    refine hmem.imp (Or.imp mem_of_mem_limitedUsers mem_of_mem_limitedUsers) ?_
    intro hfull
    unfold limitedDelta at hfull
    cases hsnapshot : delta.full with
    | none => simp [hsnapshot] at hfull
    | some full =>
      rw [hsnapshot] at hfull
      exact mem_of_mem_limitedUsers hfull
  · exact .inr hdeleted

def Connection.ownedBy (uuid : String) (connection : Connection) : Bool :=
  connection.owner == uuid

namespace CoreService

def slots (service : CoreService) (uuid : String) : UserSessionState :=
  (service.sessions.active.lookup uuid).getD {}

/-- The registered connections of a user. -/
def connectionsOf (service : CoreService) (uuid : String) : List Connection :=
  service.bandwidth.connections.filter (Connection.ownedBy uuid)

end CoreService

/-- Nothing kept about the user has changed: the limiter with its rate and
revocation, the connections, the session slots. -/
def Untouched (before after : CoreService) (uuid : String) : Prop :=
  after.bandwidth.limiters.lookup uuid = before.bandwidth.limiters.lookup uuid ∧
    after.connectionsOf uuid = before.connectionsOf uuid ∧ after.slots uuid = before.slots uuid

instance (before after : CoreService) (uuid : String) :
    Decidable (Untouched before after uuid) := by
  unfold Untouched
  infer_instance

/-- The delta finds nothing of the user to sweep: a snapshot meets no limiter
in force and no session, and no open connection is filed under a uuid that the
delta sweeps. -/
def Spared (service : CoreService) (delta : CoreUserDelta) (uuid : String) :
    Prop :=
  (delta.full.isSome = true → (∀ limiter, service.bandwidth.limiters.lookup uuid = some limiter →
        limiter.revoked = true) ∧ service.slots uuid = {}) ∧
    ∀ connection ∈ service.connectionsOf uuid, connection.isOpen = true →
      ¬ Sweeps delta connection.key

section Accepted

variable {service : CoreService} {delta : CoreUserDelta}

theorem limiter_kept_iff (hunnamed : ¬ delta.Names uuid) :
    (syncUserLimitDelta service.bandwidth service.sessions delta).1.limiters.lookup uuid =
        service.bandwidth.limiters.lookup uuid ↔
      (delta.full.isSome = true → ∀ limiter, service.bandwidth.limiters.lookup uuid = some limiter →
          limiter.revoked = true) := by
  unfold CoreUserDelta.Names at hunnamed
  rw [not_or] at hunnamed
  cases hfull : delta.full with
  | some full =>
    have hmissing : uuid ∉ full.map CoreUser.uuid := by
      intro hmem
      apply hunnamed.1
      rw [hfull, Option.getD_some, map_append]
      exact mem_append_right _ hmem
    rw [limiters_full _ _ _ hfull hmissing]
    cases service.bandwidth.limiters.lookup uuid with
    | none => simp
    | some limiter =>
      obtain ⟨rate, revoked⟩ := limiter
      cases revoked <;> simp [revokedLimiter]
  | none =>
    have hlists : uuid ∉ (delta.added ++ delta.updated).map CoreUser.uuid := by
      intro hmem
      apply hunnamed.1
      rw [map_append]
      exact mem_append_left _ hmem
    rw [limiters_lists _ _ _ hfull hlists, if_neg hunnamed.2]
    simp

theorem sweeps_unnamed_iff (hunnamed : ¬ delta.Names uuid) :
    Sweeps delta uuid ↔ delta.full.isSome = true := by
  unfold CoreUserDelta.Names at hunnamed
  cases hfull : delta.full with
  | some full =>
    rw [sweeps_full hfull]
    simp_all
  | none =>
    rw [sweeps_lists hfull]
    simp_all

theorem slots_kept_iff (hunnamed : ¬ delta.Names uuid) :
    (((syncUserLimitDelta service.bandwidth service.sessions
        delta).2.active.lookup uuid).getD {} = service.slots uuid) ↔
      (delta.full.isSome = true → service.slots uuid = {}) := by
  rw [sessions_delta]
  by_cases hfull : delta.full.isSome = true
  · rw [if_pos ((sweeps_unnamed_iff hunnamed).2 hfull), Option.getD_none]
    exact ⟨fun hsame _ => hsame.symm, fun hempty => (hempty hfull).symm⟩
  · rw [if_neg (mt (sweeps_unnamed_iff hunnamed).1 hfull)]
    exact ⟨fun _ hsome => absurd hsome hfull, fun _ => rfl⟩

theorem connections_kept_iff {delta : CoreUserDelta} {uuid : String}
    (connections : List Connection) : ((connections.map fun connection =>
        if Sweeps delta connection.key then closed connection
        else connection).filter (ownedBy uuid)) =
        connections.filter (ownedBy uuid) ↔
      ∀ connection ∈ connections.filter (ownedBy uuid),
        connection.isOpen = true → ¬ Sweeps delta connection.key := by
  have howner : (ownedBy uuid ∘ fun connection =>
      if Sweeps delta connection.key then closed connection
      else connection) = ownedBy uuid := by
    funext connection
    simp only [Function.comp]
    split <;> rfl
  rw [filter_map, howner]
  conv_lhs => rhs; rw [← map_id (filter _ connections)]
  rw [map_inj_left]
  refine forall₂_congr fun connection _ => ?_
  obtain ⟨id, key, owner, isOpen⟩ := connection
  cases isOpen <;> simp [closed]

/-- An accepted delta leaves a user that it does not name alone exactly if it
finds nothing of the user to sweep. -/
theorem untouched_iff {env : Externals} {world : World} {handle : ListenerHandle}
    (hunnamed : ¬ (handle.limitedDelta delta).Names uuid) :
    Untouched service (service.applyAcceptedDelta env world handle delta).1 uuid ↔
      Spared service (handle.limitedDelta delta) uuid := by
  have hconnections := @connections_kept_iff (handle.limitedDelta delta) uuid
    service.bandwidth.connections
  rw [← connections_delta service.bandwidth service.sessions] at hconnections
  refine (and_congr (limiter_kept_iff hunnamed) (and_congr hconnections
    (slots_kept_iff hunnamed))).trans ?_
  constructor
  · rintro ⟨hlimiter, hopen, hslots⟩
    exact ⟨fun hfull => ⟨hlimiter hfull, hslots hfull⟩, hopen⟩
  · rintro ⟨hstores, hopen⟩
    exact ⟨fun hfull => (hstores hfull).1, hopen, fun hfull => (hstores hfull).2⟩

end Accepted

/-- The users that an accepted delta and its inbound have nothing to do with
are left alone exactly if it finds nothing of them in the shared stores to
sweep. -/
theorem delta_isolated_iff {env : Externals} {world : World}
    {service next : CoreService} {nodeTag : String} {delta : CoreUserDelta}
    {handle : ListenerHandle} {result : CoreUserDeltaResult}
    (hfind : CoreService.findHandle nodeTag service.listeners = some handle)
    (haccepted : service.applyUserDelta env world nodeTag delta = .ok (next, result)) :
    (∀ uuid, Foreign handle delta uuid → Untouched service next uuid) ↔
      ∀ uuid, Foreign handle delta uuid → Spared service (handle.limitedDelta delta) uuid := by
  have hnext : next = (service.applyAcceptedDelta env world handle delta).1 := by
    rw [CoreService.applyUserDelta, hfind] at haccepted
    dsimp only at haccepted
    split at haccepted
    · simp at haccepted
    · simp only [Except.ok.injEq] at haccepted
      rw [haccepted]
  subst hnext
  refine forall₂_congr fun uuid hforeign => untouched_iff fun hnames => ?_
  exact hforeign.1 (names_of_limitedDelta hnames)

namespace Sample

def limitedBob : CoreUser := { id := 2, uuid := "bob", deviceLimit := 1 }

/-- Inbound `a` serves alice and inbound `b` serves bob, who is online. -/
def bobOnline : List Event :=
  [.command (world []) (.applyConfig (config [inbound "a" .socks 1000 [user 1 "alice"],
      inbound "b" .socks 2000 [limitedBob]])), .client (.fetchLimiter limitedBob false),
   .client (.register 1 limitedBob), .client (.acquire (world []) "b" limitedBob (some (.v4 1)) {})]

end Sample

open Sample

theorem delta_isolated_bob_online :
    ∃ service handle next result, (CoreController.run externals bobOnline).service =
        some service ∧ CoreService.findHandle "a" service.listeners = some handle ∧
      service.applyUserDelta externals (world []) "a"
        { deleted := ["alice"] } = .ok (next, result) ∧
      ∀ uuid, Foreign handle { deleted := ["alice"] } uuid → Untouched service next uuid := by
  obtain ⟨service, hserv⟩ : ∃ service, (CoreController.run externals
      bobOnline).service = some service :=
    Option.isSome_iff_exists.1 (by decide +kernel)
  have honline : ∀ service ∈ (CoreController.run externals bobOnline).service,
      (CoreService.findHandle "a" service.listeners).isSome = true ∧
      (service.applyUserDelta externals (world []) "a" { deleted := ["alice"] }).isOk = true ∧
      service.bandwidth.connections.map key = ["bob"] := by decide +kernel
  obtain ⟨hhandle, hok, hkeys⟩ := honline service hserv
  obtain ⟨handle, hfind⟩ := Option.isSome_iff_exists.1 hhandle
  obtain ⟨⟨next, result⟩, haccepted⟩ : ∃ applied, service.applyUserDelta externals (world []) "a"
        { deleted := ["alice"] } = .ok applied := by
    cases happlied : service.applyUserDelta externals (world []) "a" { deleted := ["alice"] } with
    | ok applied => exact ⟨applied, rfl⟩
    | error message => simp [happlied, Except.isOk, Except.toBool] at hok
  refine ⟨service, handle, next, result, hserv, hfind, haccepted, ?_⟩
  refine (delta_isolated_iff hfind haccepted).2 fun uuid _ => ⟨?_, ?_⟩
  · intro hfull
    simp [limitedDelta] at hfull
  · intro connection hmem _
    have hkey : connection.key = "bob" := by
      rw [← mem_singleton, ← hkeys]
      exact mem_map_of_mem (mem_of_mem_filter hmem)
    rw [hkey, sweeps_lists rfl]
    simp [limitedDelta, limitedUsers, validVmessUsers]

/-- A snapshot of inbound `a`, which changes nothing there, cuts bob off. -/
theorem snapshot_cuts_off_other_inbound :
    ∃ service ∈ (CoreController.run externals bobOnline).service,
      ∃ handle ∈ CoreService.findHandle "a" service.listeners,
      ∃ applied ∈ (service.applyUserDelta externals (world [])
          "a" { full := some [user 1 "alice"] }).toOption,
        Foreign handle { full := some [user 1 "alice"] } "bob" ∧
        ¬ Untouched service applied.1 "bob" ∧
        applied.1.bandwidth.limiters.lookup "bob" = some { bytesPerSecond := 0, revoked := true } ∧
        (applied.1.connectionsOf "bob").map Connection.isOpen = [false] ∧
        applied.1.slots "bob" = {} := by decide +kernel

end KeliCore
