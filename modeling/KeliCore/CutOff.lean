/-
Users that were removed.  A user in no inbound's table should have nothing in
force in the shared stores.  Whatever clients do keeps it so; a delta or a hot
configuration keeps it so as long as nobody disappears from the tables without
being swept, and nobody is enabled without being in a table.
-/
import KeliCore.Isolation
import KeliCore.Resync
import KeliCore.Shadow
import KeliCore.Validity

namespace KeliCore

open UserBandwidthLimiters Finmap CoreService List Option UserTable CoreConfig ListenerHandle

variable (bandwidth : UserBandwidthLimiters)

/-- Nothing is in force for the user: no limiter that is not revoked, no open
connection, no session slot. -/
structure Cut (service : CoreService) (uuid : String) : Prop where
  limiter : ∀ limiter, service.bandwidth.limiters.lookup uuid = some limiter →
      limiter.revoked = true
  connections : ∀ connection ∈ service.connectionsOf uuid, connection.isOpen = false
  slots : service.slots uuid = {}

/-- Some inbound's table has the user. -/
def CoreService.HasUser (service : CoreService) (uuid : String) : Prop :=
  ∃ handle ∈ service.listeners, handle.table.HasUuid uuid

/-- Every user in no inbound's table is cut off. -/
def CutOff (service : CoreService) : Prop :=
  ∀ uuid, ¬ service.HasUser uuid → Cut service uuid

theorem Cut.of_untouched {before after : CoreService} {uuid : String}
    (hcut : Cut before uuid) (hsame : Untouched before after uuid) : Cut after uuid := by
  obtain ⟨hlimiter, hconnections, hslots⟩ := hsame
  refine ⟨?_, ?_, hslots.trans hcut.slots⟩
  · rw [hlimiter]
    exact hcut.limiter
  · rw [hconnections]
    exact hcut.connections

theorem CutOff.congr {before after : CoreService} (hcut : CutOff before)
    (htables : after.listeners.map ListenerHandle.table = before.listeners.map ListenerHandle.table)
    (hbandwidth : after.bandwidth = before.bandwidth)
    (hactive : after.sessions.active = before.sessions.active) : CutOff after := by
  have hhas : ∀ {service : CoreService} {uuid : String}, service.HasUser uuid ↔
        ∃ table ∈ service.listeners.map ListenerHandle.table, table.HasUuid uuid := by
    intro service uuid
    simp [HasUser]
  intro uuid hnobody
  rw [hhas, htables, ← hhas] at hnobody
  refine (hcut uuid hnobody).of_untouched ⟨?_, ?_, ?_⟩
  · rw [hbandwidth]
  · rw [connectionsOf, hbandwidth]
    rfl
  · rw [CoreService.slots, hactive]
    rfl

variable {user : CoreUser} {uuid : String} {env : Externals} {users : List CoreUser} {world : World}

theorem UserTable.holds_of_contains {table : UserTable}
    (hcontains : table.contains user = true) : table.Holds user := by
  cases table with
  | keyed users =>
    simp only [contains, bne_iff_ne, ne_eq, ← Nat.pos_iff_ne_zero] at hcontains
    obtain ⟨key, held, hheld⟩ := len_pos_iff.1 hcontains
    rw [lookup_retain, filter_eq_some_iff, beq_iff_eq] at hheld
    obtain ⟨hget, rfl⟩ := hheld
    exact ⟨key, hget⟩
  | listed users => exact contains_iff_mem.1 hcontains

theorem CoreService.hasUser_of_authenticates {service : CoreService}
    (hauth : service.authenticates user = true) : service.HasUser user.uuid := by
  obtain ⟨handle, hmem, hcontains⟩ := any_eq_true.1 hauth
  exact ⟨handle, hmem, user, holds_of_contains hcontains, rfl⟩

section Stores

theorem lookup_limiterFor_other (hother : uuid ≠ user.uuid) :
    (bandwidth.limiterFor user).limiters.lookup uuid = bandwidth.limiters.lookup uuid := by
  change (bandwidth.limiters.insert _ _).lookup uuid = _
  rw [lookup_insert_ite, if_neg hother]

theorem lookup_limiterForLimited_other (hother : uuid ≠ user.uuid) :
    (bandwidth.limiterForLimited user).limiters.lookup uuid = bandwidth.limiters.lookup uuid := by
  unfold limiterForLimited
  split
  · rw [lookup_resetLimiter, if_neg hother]
  · exact lookup_limiterFor_other bandwidth hother

theorem lookup_tryAcquire_other (order : HashOrder IpAddr UInt64) (now : Nat)
    (tracker : UserSessionTracker) (nodeTag : String)
    (clientIp : Option IpAddr) (policy : DeviceLimitPolicy) (hother : uuid ≠ user.uuid) :
    (tracker.tryAcquire order now nodeTag user clientIp
      policy).1.active.lookup uuid = tracker.active.lookup uuid := by
  have hadd : ∀ (tracker : UserSessionTracker) (state : UserSessionState),
      (tracker.addSession user.uuid state).active.lookup uuid = tracker.active.lookup uuid := by
    intro tracker state
    change (tracker.active.insert _ _).lookup uuid = _
    rw [lookup_insert_ite, if_neg hother]
  unfold UserSessionTracker.tryAcquire
  dsimp only
  repeat' split
  all_goals first | rfl | exact hadd _ _

theorem slots_dropGuard (tracker : UserSessionTracker) (guard : UserSessionGuard)
    (hempty : (tracker.active.lookup uuid).getD {} = {}) :
    ((tracker.dropGuard guard).active.lookup uuid).getD {} = {} := by
  unfold UserSessionTracker.dropGuard
  split
  · exact hempty
  next state hstate =>
    dsimp only
    by_cases huuid : uuid = guard.userUuid
    · subst huuid
      rw [hstate, getD_some] at hempty
      subst hempty
      have hcount : (UserSessionState.release {} guard.key).1.deviceCount = 0 := by
        cases guard.key with
        | ip address | anonymous =>
          simp [UserSessionState.release, UserSessionState.deviceCount, len]
      rw [if_pos hcount, lookup_erase_ite, if_pos rfl]
      rfl
    · split
      · rw [lookup_erase_ite, if_neg huuid]
        exact hempty
      · rw [lookup_insert_ite, if_neg huuid]
        exact hempty

end Stores

theorem CutOff.serve {service : CoreService} (hcut : CutOff service)
    (event : ClientEvent) : CutOff (service.serve event) := by
  intro uuid hnobody
  have hlisteners := (service.serve_sameInbounds event).listeners
  have hpre : ¬ service.HasUser uuid := by
    unfold HasUser at hnobody ⊢
    rw [hlisteners] at hnobody
    exact hnobody
  have hother : ∀ user, service.authenticates user = true → uuid ≠ user.uuid := by
    rintro user hauth rfl
    exact hpre (hasUser_of_authenticates hauth)
  have hcut := hcut uuid hpre
  cases event with
  | recordTraffic delta => exact ⟨hcut.limiter, hcut.connections, hcut.slots⟩
  | fetchLimiter user limited =>
    unfold CoreService.serve
    dsimp only
    split
    next hauth =>
      refine hcut.of_untouched ⟨?_, ?_, rfl⟩
      · split
        · exact lookup_limiterForLimited_other _ (hother user hauth)
        · exact lookup_limiterFor_other _ (hother user hauth)
      · split
        · unfold limiterForLimited
          split <;> rfl
        · rfl
    · exact hcut
  | register id user =>
    unfold CoreService.serve
    dsimp only
    split
    next hauth =>
      refine hcut.of_untouched ⟨?_, ?_, by rw [slots, slots]⟩
      · unfold registerTcpConnection
        split <;> rfl
      · unfold registerTcpConnection
        split
        · rfl
        · have hnew : Connection.ownedBy uuid
              { id, key := Text.trim user.uuid, owner := user.uuid } = false := by
            rw [Connection.ownedBy, beq_eq_false_iff_ne]
            exact (hother user hauth).symm
          simp [connectionsOf, hnew]
    · exact hcut
  | disconnect id =>
    refine ⟨hcut.limiter, fun connection hmem => ?_, hcut.slots⟩
    obtain ⟨hkept, howner⟩ := mem_filter.1 hmem
    exact hcut.connections connection (mem_filter.2 ⟨mem_of_mem_filter hkept, howner⟩)
  | acquire world nodeTag user clientIp policy =>
    unfold CoreService.serve
    dsimp only
    split
    next hauth =>
      refine hcut.of_untouched ⟨rfl, rfl, ?_⟩
      unfold CoreService.slots
      rw [lookup_tryAcquire_other _ _ _ _ _ _ (hother user hauth)]
    · exact hcut
  | release guard =>
    exact ⟨hcut.limiter, hcut.connections, slots_dropGuard service.sessions guard hcut.slots⟩

/-- The user of a list gets into the table of the list: it is taken, and its
key is its own. -/
def Placed (env : Externals) (protocol : Protocol) (users : List CoreUser)
    (user : CoreUser) : Prop :=
  user ∈ takenUsers (userKey env protocol) users ∧ OwnKey (userKey env protocol)
      (fun other => other ∈ takenUsers (userKey env protocol) users) user.uuid

theorem Placed.hasUuid {protocol : Protocol}
    {table : UserTable} (hplaced : Placed env protocol users user)
    (hlist : table.OfList env protocol users) : table.HasUuid user.uuid := by
  obtain ⟨htaken, hown⟩ := hplaced
  obtain ⟨held, hheld, hkey⟩ := hlist.exists_holds htaken
  refine ⟨held, hheld, ?_⟩
  by_contra hdiffers
  exact hown user held htaken (hlist.sound.of_holds hheld) rfl hdiffers hkey

/-- The delta sweeps whom it removes and enables only whom it leaves in the
table.

A snapshot: every listed user with anything in the stores gets into the table,
and an open connection of a user who is not listed is filed under a uuid that
is not listed either.

Lists: an added or updated user with a limiter is not deleted and is in the
table in the end; a user of the table with anything in force who is not deleted
keeps its key; and an open connection of a deleted user is filed under a uuid
that is swept. -/
def SweepsRemoved (env : Externals) (service : CoreService)
    (handle : ListenerHandle) (delta : CoreUserDelta) : Prop :=
  let key := userKey env handle.status.protocol
  let limited := handle.limitedDelta delta
  match delta.full with
  | some full =>
    (∀ user ∈ handle.limitedUsers full,
      user.uuid ∈ service.bandwidth.limiters ∨ ¬ Cut service user.uuid →
        Placed env handle.status.protocol full user) ∧
    ∀ connection ∈ service.bandwidth.connections,
      connection.isOpen = true → Sweeps limited connection.owner → Sweeps limited connection.key
  | none =>
    let own := OwnKey key fun user => handle.table.Holds user ∨ user ∈ namedUsers key delta
    (∀ user ∈ limited.added ++ limited.updated, user.uuid ∈ service.bandwidth.limiters →
        Stays key (handle.table.HasUuid user.uuid) user.uuid delta ∧ own user.uuid) ∧
    (∀ uuid, handle.table.HasUuid uuid → uuid ∉ delta.deleted → ¬ Cut service uuid → own uuid) ∧
    ∀ connection ∈ service.bandwidth.connections,
      connection.isOpen = true → connection.owner ∈ delta.deleted → Sweeps limited connection.key

section Delta

variable {service : CoreService} {handle : ListenerHandle} {delta : CoreUserDelta} {tag : String}

theorem isOpen_after_delta {connection : Connection} (hmem : connection ∈
      (service.applyAcceptedDelta env world handle delta).1.connectionsOf uuid)
    (hopen : connection.isOpen = true) : connection ∈ service.connectionsOf uuid ∧
      ¬ Sweeps (handle.limitedDelta delta) connection.key := by
  obtain ⟨hmem, howner⟩ := mem_filter.1 hmem
  change connection ∈ (syncUserLimitDelta service.bandwidth service.sessions
    (handle.limitedDelta delta)).1.connections at hmem
  rw [connections_delta] at hmem
  obtain ⟨old, hold, heq⟩ := mem_map.1 hmem
  split at heq
  · subst heq
    simp [closed] at hopen
  next hspared =>
    subst heq
    exact ⟨mem_filter.2 ⟨hold, howner⟩, hspared⟩

theorem Cut.after_delta (hcut : Cut service uuid)
    (hlimiter : ∀ limiter, (syncUserLimitDelta service.bandwidth
      service.sessions (handle.limitedDelta delta)).1.limiters.lookup uuid =
        some limiter → limiter.revoked = true) :
    Cut (service.applyAcceptedDelta env world handle delta).1 uuid where
  limiter := hlimiter
  connections connection hmem := by
    by_contra hopen
    rw [Bool.not_eq_false] at hopen
    have hpre := hcut.connections connection (isOpen_after_delta hmem hopen).1
    rw [hopen] at hpre
    contradiction
  slots := by
    change ((syncUserLimitDelta _ _ _).2.active.lookup uuid).getD {} = {}
    rw [sessions_delta]
    split
    · rfl
    · exact hcut.slots

theorem cut_of_swept (hswept : Sweeps (handle.limitedDelta delta) uuid)
    (hconnections : ∀ connection ∈ service.bandwidth.connections,
      connection.isOpen = true → connection.owner = uuid →
        Sweeps (handle.limitedDelta delta) connection.key)
    (hlimiter : (syncUserLimitDelta service.bandwidth service.sessions
      (handle.limitedDelta delta)).1.limiters.lookup uuid =
        (service.bandwidth.limiters.lookup uuid).map revokedLimiter) :
    Cut (service.applyAcceptedDelta env world handle delta).1 uuid where
  limiter limiter hget := by
    change (syncUserLimitDelta _ _ _).1.limiters.lookup uuid = _ at hget
    rw [hlimiter, map_eq_some_iff] at hget
    obtain ⟨before, -, rfl⟩ := hget
    rfl
  connections connection hmem := by
    by_contra hopen
    rw [Bool.not_eq_false] at hopen
    obtain ⟨hpre, hspared⟩ := isOpen_after_delta hmem hopen
    obtain ⟨hfiled, howner⟩ := mem_filter.1 hpre
    exact hspared (hconnections connection hfiled hopen (beq_iff_eq.1 howner))
  slots := by
    change ((syncUserLimitDelta _ _ _).2.active.lookup uuid).getD {} = {}
    rw [sessions_delta, if_pos hswept]
    rfl

theorem hasUser_of_delta (hnodup : (service.listeners.map fun handle => handle.status.tag).Nodup)
    (hfind : findHandle tag service.listeners = some handle)
    (hnobody : ¬ (service.applyAcceptedDelta env world handle delta).1.HasUser uuid) :
    ¬ (handle.table.applyDelta env world.userOrder handle.status.protocol
        (handle.limitedDelta delta)).1.HasUuid uuid ∧
      (service.HasUser uuid → handle.table.HasUuid uuid) := by
  have hown := findHandle_tag hfind
  subst hown
  constructor
  · intro hafter
    exact hnobody ⟨_, mem_setHandle hfind, hafter⟩
  · rintro ⟨other, hmem, huuid⟩
    by_cases htag : other.status.tag = handle.status.tag
    · have hsame := findHandle_of_mem hnodup hmem
      rw [htag, hfind] at hsame
      cases hsame
      exact huuid
    · exact absurd ⟨other, mem_setHandle_of_ne hmem htag, huuid⟩ hnobody

theorem cut_after_full {full : List CoreUser} (hfull : delta.full = some full)
    (hsound : handle.table.Sound env handle.status.protocol fun user => user.isEmpty = false)
    (hsweeps : SweepsRemoved env service handle delta)
    (hafter : ¬ (handle.table.applyDelta env world.userOrder
      handle.status.protocol (handle.limitedDelta delta)).1.HasUuid uuid) :
    Cut (service.applyAcceptedDelta env world handle delta).1 uuid := by
  unfold SweepsRemoved at hsweeps
  rw [hfull] at hsweeps
  obtain ⟨hplaced, hconnections⟩ := hsweeps
  have hlimited : (handle.limitedDelta delta).full = some (handle.limitedUsers full) := by
    rw [limitedDelta, hfull]
    rfl
  have hlist := @Slot.applyDelta_ofList env world.userOrder delta
    ⟨handle, none, none⟩ _ full hsound hfull
  by_cases hlisted : uuid ∈ (handle.limitedUsers full).map CoreUser.uuid
  · obtain ⟨user, hmem, rfl⟩ := mem_map.1 hlisted
    by_cases htraced : user.uuid ∈ service.bandwidth.limiters ∨ ¬ Cut service user.uuid
    · have hin := hplaced user hmem htraced
      unfold Placed at hin
      rw [← @ListenerHandle.takenUsers_limitedUsers handle env] at hin
      exact absurd (Placed.hasUuid hin hlist) hafter
    · rw [not_or, not_not] at htraced
      refine htraced.2.after_delta fun limiter hget => ?_
      rw [limiters_none _ _ _ (lookup_eq_none.2 htraced.1)] at hget
      contradiction
  · have hswept := (sweeps_full hlimited uuid).2 hlisted
    refine cut_of_swept hswept ?_ (limiters_full _ _ _ hlimited hlisted)
    rintro connection hmem hopen rfl
    exact hconnections connection hmem hopen hswept

theorem cut_after_lists (hcut : CutOff service) (hfull : delta.full = none)
    (hsound : handle.table.Sound env handle.status.protocol fun user => user.isEmpty = false)
    (hsweeps : SweepsRemoved env service handle delta)
    (hafter : ¬ (handle.table.applyDelta env world.userOrder
      handle.status.protocol (handle.limitedDelta delta)).1.HasUuid uuid)
    (hheld : service.HasUser uuid → handle.table.HasUuid uuid) :
    Cut (service.applyAcceptedDelta env world handle delta).1 uuid := by
  unfold SweepsRemoved at hsweeps
  rw [hfull] at hsweeps
  obtain ⟨hnamed, hown, hconnections⟩ := hsweeps
  have hlimited : (handle.limitedDelta delta).full = none := by
    rw [limitedDelta, hfull]
    rfl
  obtain ⟨-, hkept⟩ := @Slot.applyDelta_lists env world.userOrder delta
    ⟨handle, none, none⟩ hsound hfull
  -- who is not deleted was cut off before
  have hpre : uuid ∉ delta.deleted → Cut service uuid := by
    intro hdeleted
    by_contra huncut
    by_cases huser : handle.table.HasUuid uuid
    · exact hafter (hkept uuid ⟨hdeleted, .inl huser⟩ (hown uuid huser hdeleted huncut))
    · exact huncut (hcut uuid fun hin => huser (hheld hin))
  have hdropped : uuid ∈ delta.deleted → (syncUserLimitDelta service.bandwidth service.sessions
        (handle.limitedDelta delta)).1.limiters.lookup uuid =
        (service.bandwidth.limiters.lookup uuid).map revokedLimiter →
      Cut (service.applyAcceptedDelta env world handle delta).1 uuid := by
    intro hdeleted hlimiter
    refine cut_of_swept ((sweeps_lists hlimited uuid).2 (.inl hdeleted)) ?_ hlimiter
    rintro connection hmem hopen rfl
    exact hconnections connection hmem hopen hdeleted
  by_cases hlisted : uuid ∈ ((handle.limitedDelta delta).added ++
      (handle.limitedDelta delta).updated).map CoreUser.uuid
  · obtain ⟨user, hmem, rfl⟩ := mem_map.1 hlisted
    have hnone : service.bandwidth.limiters.lookup user.uuid = none := by
      rw [lookup_eq_none]
      intro hlimiter
      obtain ⟨hstays, hkey⟩ := hnamed user hmem hlimiter
      exact hafter (hkept user.uuid hstays hkey)
    have hlimiter := limiters_none service.bandwidth service.sessions
      (handle.limitedDelta delta) hnone
    by_cases hdeleted : user.uuid ∈ delta.deleted
    · exact hdropped hdeleted (by rw [hlimiter, hnone]; rfl)
    · refine (hpre hdeleted).after_delta fun limiter hget => ?_
      rw [hlimiter] at hget
      contradiction
  · have hlimiter := limiters_lists service.bandwidth service.sessions
      (handle.limitedDelta delta) hlimited hlisted
    by_cases hdeleted : uuid ∈ delta.deleted
    · exact hdropped hdeleted (hlimiter.trans (if_pos hdeleted))
    · refine (hpre hdeleted).after_delta ?_
      rw [hlimiter.trans (if_neg hdeleted)]
      exact (hpre hdeleted).limiter

theorem CutOff.after_delta (hcut : CutOff service)
    (hnodup : (service.listeners.map fun handle => handle.status.tag).Nodup)
    (hfind : findHandle tag service.listeners = some handle)
    (hsound : handle.table.Sound env handle.status.protocol fun user => user.isEmpty = false)
    (hsweeps : SweepsRemoved env service handle delta) :
    CutOff (service.applyAcceptedDelta env world handle delta).1 := by
  intro uuid hnobody
  obtain ⟨hafter, hheld⟩ := hasUser_of_delta hnodup hfind hnobody
  cases hfull : delta.full with
  | some full => exact cut_after_full hfull hsound hsweeps hafter
  | none => exact cut_after_lists hcut hfull hsound hsweeps hafter hheld

end Delta

/-- The configuration drops nobody who has anything in force: such a user is in
the table of an inbound that still lists it.  And it lists nobody with a
limiter who would not get into the table. -/
def KeepsListed (env : Externals) (service : CoreService) (config : CoreConfig) : Prop :=
  (∀ uuid, ¬ Cut service uuid → ∃ handle ∈ service.listeners, handle.table.HasUuid uuid ∧
      ∃ inbound ∈ config.inbounds, inbound.tag = handle.status.tag ∧ ∃ user, user.uuid = uuid ∧
          Placed env inbound.protocol inbound.users user) ∧
  ∀ inbound ∈ config.inbounds, ∀ user ∈ inbound.users, user.uuid ∈ service.bandwidth.limiters →
      (inbound.protocol = .vmess → (vmessUserKey user).isSome = true) →
        Placed env inbound.protocol inbound.users user

theorem key_of_mem_limitedUsers {handle : ListenerHandle}
    (hmem : user ∈ handle.limitedUsers users) (hvmess : handle.status.protocol = .vmess) :
    (vmessUserKey user).isSome = true := by
  rw [limitedUsers, if_pos hvmess] at hmem
  have hboth := (mem_filter.1 hmem).2
  rw [Bool.and_eq_true] at hboth
  exact hboth.2

namespace CoreController

variable {env : Externals} {config : CoreConfig} {service updated : CoreService}
  {controller : CoreController} {result : CoreController × CoreResponse} {inbound : InboundConfig}

/-- Every inbound of a configuration that was taken has a slot, from the slot
before or from a start. -/
theorem configSlot_of_mem (hserve : Serving env controller)
    (hpath : ApplyConfigPath env world controller config result)
    (haccepted : result.2.isError = false) (hreload : controller.runtime.activeFingerprint ≠
      some (fingerprintConfig env config)) (hupdated : result.1.service = some updated)
    (hstored : updated.config = configWithoutUsers config) (hvalid : config.validate env = .ok ())
    (hmem : inbound ∈ config.inbounds) :
    ∃ handle ∈ updated.listeners, handle.status.protocol = inbound.protocol ∧
      ∃ slot : Slot, slot.handle = handle ∧ ConfigSlot env controller inbound slot := by
  have hinbound : inboundWithoutUsers inbound ∈ updated.config.inbounds := by
    rw [hstored]
    exact mem_map_of_mem hmem
  obtain ⟨slot, hslot, -⟩ := ((hserve.applyConfig hpath).aligned updated hupdated).slot hinbound
  refine ⟨slot.handle, findHandle_mem (slot_handle hslot), ?_⟩
  rcases hpath.slot hserve ((slot_of_service hupdated _).trans hslot) with
    ⟨herror | hsame, -⟩ | ⟨-, -, found, hfound, htag, hproto, hconfig⟩
  · rw [haccepted] at herror
    cases herror
  · exact absurd hsame hreload
  · obtain rfl := inj_on_of_nodup_map (nodup_of_validate hvalid) hfound hmem htag
    exact ⟨hproto, slot, rfl, hconfig⟩

theorem protocol_of_handle (halign : Aligned env updated)
    (hstored : updated.config = configWithoutUsers config) (hmem : inbound ∈ config.inbounds)
    {handle : ListenerHandle} (hhandle : handle ∈ updated.listeners)
    (htag : handle.status.tag = inbound.tag) : handle.status.protocol = inbound.protocol := by
  have hfind := findHandle_of_mem halign.nodup_listeners hhandle
  obtain ⟨slot, hslot, rfl⟩ : ∃ slot : Slot,
      updated.slot inbound.tag = some slot ∧ slot.handle = handle := by
    refine ⟨⟨handle, updated.userFingerprints.lookup inbound.tag,
      updated.userRevisions.lookup inbound.tag⟩, ?_, rfl⟩
    rw [CoreService.slot, ← htag, hfind]
    rfl
  exact protocol_of_stored halign hstored hmem hslot

/-- A user whom an inbound lists and its old table has is in its new table. -/
theorem ConfigSlot.hasUuid {slot : Slot} (hslot : ConfigSlot env controller inbound slot)
    (hproto : slot.handle.status.protocol = inbound.protocol)
    (hinbound : inbound.validate env = .ok ())
    (hplaced : Placed env inbound.protocol inbound.users user)
    (hpre : ∀ before, controller.slot inbound.tag = some before →
      before.handle.table.HasUuid user.uuid) : slot.handle.table.HasUuid user.uuid := by
  have hbuilt : (build env inbound.protocol inbound.users).HasUuid
      user.uuid :=
    hplaced.hasUuid (build_ofList (InboundConfig.nonEmpty_of_validate hinbound))
  cases hslot with
  | @synced before hfound hsame =>
    rw [hsame.table]
    rcases Slot.syncUsers_cases env inbound before with ⟨-, heq⟩ | ⟨-, heq⟩
    · rw [heq]
      exact hpre before hfound
    · have hstatus := hsame.status
      rw [heq] at hstatus ⊢
      rw [hstatus] at hproto
      rw [hproto]
      exact hbuilt
  | started _ htable =>
    rw [htable]
    exact hbuilt

theorem cutOff_hot {after : Host} (hserve : Serving env controller)
    (hpath : ApplyConfigPath env world controller config result)
    (haccepted : result.2.isError = false) (hreload : controller.runtime.activeFingerprint ≠
      some (fingerprintConfig env config)) (hvalid : config.validate env = .ok ())
    (hserv : controller.service = some service) (hupdated : result.1.service = some updated)
    (hhot : HotUpdate env world service controller.host config
      after updated) (hkeeps : KeepsListed env service config) : CutOff updated := by
  intro uuid hnobody
  obtain ⟨hforce, hlisted⟩ := hkeeps
  have hslots := fun inbound (hmem : inbound ∈ config.inbounds) =>
    configSlot_of_mem hserve hpath haccepted hreload hupdated hhot.config_eq hvalid hmem
  have hold := (hserve.aligned service hserv).nodup_listeners
  -- nobody with anything in force was dropped
  have hpre : Cut service uuid := by
    by_contra huncut
    obtain ⟨handle, hhandle, huuid, inbound, hmem, htag, user, rfl, hplaced⟩ := hforce uuid huncut
    obtain ⟨changed, hchanged, hproto, slot, rfl, hslot⟩ := hslots inbound hmem
    refine hnobody ⟨slot.handle, hchanged, hslot.hasUuid hproto
      (inbound_of_validate hvalid hmem) hplaced ?_⟩
    intro before hfound
    rw [slot_of_service hserv] at hfound
    have hfind := findHandle_of_mem hold hhandle
    rw [← htag, slot_handle hfound] at hfind
    rw [some.inj hfind]
    exact huuid
  obtain ⟨hresynced, hsessions⟩ := hhot.stores (nodup_of_validate hvalid)
  refine ⟨?_, ?_, ?_⟩
  · rcases hresynced.limiters uuid with hsame |
      ⟨hsome, inbound, hmem, handle, hhandle, htag, htable, huser⟩
    · rw [hsame]
      exact hpre.limiter
    · obtain ⟨user, hlimited, rfl⟩ := mem_map.1 huser
      have hproto := protocol_of_handle
        ((hserve.applyConfig hpath).aligned updated hupdated) hhot.config_eq hmem hhandle htag
      have hplaced := hlisted inbound hmem user (mem_of_mem_limitedUsers hlimited)
        (not_not.1 (mt lookup_eq_none.2 hsome))
        (fun hvmess => key_of_mem_limitedUsers hlimited (hproto.trans hvmess))
      have hin : handle.table.HasUuid user.uuid := by
        rw [htable, hproto]
        exact hplaced.hasUuid (build_ofList (InboundConfig.nonEmpty_of_validate
            (inbound_of_validate hvalid hmem)))
      exact absurd ⟨handle, hhandle, hin⟩ hnobody
  · unfold connectionsOf
    rw [hresynced.connections]
    exact hpre.connections
  · unfold CoreService.slots
    rw [hsessions]
    exact hpre.slots

/-- The tables hold users that are not empty, under their keys. -/
def SoundTables (env : Externals) (controller : CoreController) : Prop :=
  ∀ tag slot, controller.slot tag = some slot →
    slot.handle.table.Sound env slot.handle.status.protocol fun user => user.isEmpty = false

theorem SoundTables.step (hsound : SoundTables env controller)
    (hserve : Serving env controller) (event : Event) :
    SoundTables env (controller.step env event) := by
  intro tag after hafter
  cases slot_step hserve event hafter with
  | same hpre hsame =>
    rw [hsame.table, hsame.status]
    exact hsound tag _ hpre
  | @config world config inbound _ hconfig _ hmem htag hproto hslot =>
    have hbuilt : (build env inbound.protocol inbound.users).Sound
        env inbound.protocol fun user => user.isEmpty = false :=
      (build_ofList (InboundConfig.nonEmpty_of_validate
        (inbound_of_validate hconfig hmem))).sound.mono
        fun user _ htaken => (mem_takenUsers.1 htaken).2.1
    cases hslot with
    | @synced before hpre hsame =>
      rw [hsame.table]
      rcases Slot.syncUsers_cases env inbound before with ⟨-, heq⟩ | ⟨-, heq⟩
      · rw [heq] at hsame ⊢
        rw [hsame.status]
        exact hsound _ before hpre
      · have hstatus := hsame.status
        rw [heq] at hstatus ⊢
        rw [hproto]
        rw [hstatus] at hproto
        rw [hproto]
        exact hbuilt
    | started _ htable =>
      rw [htable, hproto]
      exact hbuilt
  | @delta world delta service before hserv hpre hcheck =>
    have hpre := hsound tag before ((slot_of_service hserv tag).trans hpre)
    cases hfull : delta.full with
    | some full =>
      exact (Slot.applyDelta_ofList hpre hfull).sound.mono
        fun user _ htaken => (mem_takenUsers.1 htaken).2.1
    | none => exact (Slot.applyDelta_lists hpre hfull).1

/-- The event removes nobody without a sweep and enables nobody outside the
tables: this concerns configurations taken on a hot path and accepted
deltas. -/
def KeepsCutOff (env : Externals) (controller : CoreController) : Event → Prop
  | .command world (.applyConfig config) => ∀ service after updated,
      controller.service = some service → config.validate env = .ok () →
      controller.runtime.activeFingerprint ≠ some (fingerprintConfig env config) →
      CoreService.HotUpdate env world service controller.host config after updated →
      KeepsListed env service config
  | .command _ (.applyUserDelta tag delta) => ∀ service handle, controller.service = some service →
      CoreService.findHandle tag service.listeners = some handle →
      service.checkRevision tag delta = .ok () → SweepsRemoved env service handle delta
  | _ => True

theorem cutOff_start {host after : Host} (hstart : start env world host config =
      (after, .ok service)) : CutOff service := by
  obtain ⟨-, -, -, -, -, hsessions, hbandwidth, -⟩ := start_ok hstart
  intro uuid _
  refine ⟨?_, ?_, ?_⟩
  · rw [hbandwidth]
    simp
  · rw [connectionsOf, hbandwidth]
    simp
  · rw [CoreService.slots, hsessions]
    simp

theorem cutOff_config (hserve : Serving env controller)
    (hpath : ApplyConfigPath env world controller config result)
    (hcut : ∀ service, controller.service = some service → CutOff service)
    (hkeeps : KeepsCutOff env controller (.command world (.applyConfig config)))
    (hupdated : result.1.service = some updated) : CutOff updated := by
  have hpath' := hpath
  cases hpath with
  | rejected | noop | changeFailed => exact hcut updated hupdated
  | startFailed => simp [failWith] at hupdated
  | @users service hvalid hreload hserv hallow =>
    have hhot : HotUpdate env world service controller.host
        config _ _ := .users hallow
    cases hupdated
    exact cutOff_hot hserve hpath' rfl hreload hvalid hserv rfl hhot
      (hkeeps service _ _ hserv hvalid hreload hhot)
  | @routes service hvalid hreload hserv hallow =>
    have hhot : HotUpdate env world service controller.host
        config _ _ := .routes hallow
    cases hupdated
    exact cutOff_hot hserve hpath' rfl hreload hvalid hserv rfl hhot
      (hkeeps service _ _ hserv hvalid hreload hhot)
  | @changed service updated host hvalid hreload hserv hupd =>
    have hhot := HotUpdate.changed hupd
    cases hupdated
    exact cutOff_hot hserve hpath' rfl hreload hvalid hserv rfl hhot
      (hkeeps service _ _ hserv hvalid hreload hhot)
  | restarted _ _ _ hstart =>
    cases hupdated
    exact cutOff_start hstart

theorem cutOff_routes (hcut : CutOff service)
    (config : CoreConfig) : CutOff (service.updateRoutes config) := by
  apply hcut.congr
  · exact map_foldl_updateListener ListenerHandle.table (syncRoutes_acts _) (fun _ _ _ => rfl) _ _
  · exact foldl_updateListener_frame bandwidth (fun _ _ _ => rfl) (fun _ _ => rfl) _ _
  · rw [show (service.updateRoutes config).sessions = service.sessions from
      foldl_updateListener_frame sessions (fun _ _ _ => rfl) (fun _ _ => rfl) _ _]

theorem setRegistry_service (controller : CoreController) (traffic : TrafficRegistry) :
    (controller.setRegistry traffic).service =
      controller.service.map fun service => { service with traffic } := by
  unfold setRegistry
  cases controller.service with
  | none | some service => rfl

theorem cutOff_step (hserve : Serving env controller) (hsound : SoundTables env controller)
    (hcut : ∀ service, controller.service = some service → CutOff service)
    (event : Event) (hkeeps : KeepsCutOff env controller event)
    (hupdated : (controller.step env event).service = some updated) : CutOff updated := by
  cases event with
  | client event =>
    obtain ⟨service, hserv, rfl⟩ := map_eq_some_iff.1 hupdated
    exact (hcut service hserv).serve event
  | command world command =>
    cases command with
    | applyConfig config =>
      exact cutOff_config hserve (applyConfig_path controller config) hcut hkeeps hupdated
    | applyRoutes config =>
      change (controller.applyRoutes config).1.service = some updated at hupdated
      rcases applyRoutes_cases controller config with ⟨message, heq⟩ | ⟨service, hserv, -, heq⟩
      · rw [heq] at hupdated
        exact hcut updated hupdated
      · rw [heq] at hupdated
        cases hupdated
        exact cutOff_routes (hcut service hserv) config
    | applyUserDelta nodeTag delta =>
      change (controller.applyUserDelta env world nodeTag
        delta).1.service = some updated at hupdated
      rcases applyUserDelta_cases controller nodeTag delta with
        ⟨message, heq⟩ | ⟨service, handle, hserv, hfind, hcheck, heq⟩
      · rw [heq] at hupdated
        exact hcut updated hupdated
      · rw [heq] at hupdated
        cases hupdated
        have halign := hserve.aligned service hserv
        have htable := hsound nodeTag _ ((slot_of_service hserv nodeTag).trans
            (map_eq_some_iff.2 ⟨handle, hfind, rfl⟩))
        exact (hcut service hserv).after_delta halign.nodup_listeners hfind htable
          (hkeeps service handle hserv hfind hcheck)
    | applyDeviceLimitSnapshot | commitDeviceLimitReport =>
      simp only [step, handle, applyDeviceLimitSnapshot, commitDeviceLimitReport] at hupdated
      split at hupdated
      · exact hcut updated hupdated
      next service hserv =>
        cases hupdated
        exact (hcut service hserv).congr rfl rfl rfl
    | drainTraffic | requeueTraffic =>
      obtain ⟨service, hserv, rfl⟩ := map_eq_some_iff.mp
        ((setRegistry_service controller _).symm.trans hupdated)
      exact (hcut service hserv).congr rfl rfl rfl
    | status | metrics | trimMemory => exact hcut updated hupdated
    | stop => simp [step, handle, stop] at hupdated

/-- What a run keeps as long as its commands sweep whom they remove. -/
structure Sweeping (env : Externals) (controller : CoreController) : Prop where
  serving : Serving env controller
  sound : SoundTables env controller
  cutOff : ∀ service, controller.service = some service → CutOff service

theorem Sweeping.fresh (env : Externals) : Sweeping env {} where
  serving := .fresh env
  sound := by simp [SoundTables, slot]
  cutOff := by simp

theorem Sweeping.step (hsweeping : Sweeping env controller) (event : Event)
    (hkeeps : KeepsCutOff env controller event) : Sweeping env (controller.step env event) where
  serving := hsweeping.serving.step event
  sound := hsweeping.sound.step hsweeping.serving event
  cutOff _ hupdated :=
    cutOff_step hsweeping.serving hsweeping.sound hsweeping.cutOff event hkeeps hupdated

/-- While every command keeps the users in force in the tables, or sweeps
them, everybody outside the tables is cut off after each command. -/
theorem removed_users_cut_off {events : List Event}
    (hkeeps : Run.Meets (step env) (KeepsCutOff env) {} events) :
    ∀ past, past <+: events → ∀ service,
      (run env past).service = some service → CutOff service := by
  rintro past ⟨rest, rfl⟩
  have hpast := ((Run.meets_append _ past rest).1 hkeeps).1
  have hsweeping : Sweeping env (run env past) :=
    @Run.exec_invariant _ _ (step env) (KeepsCutOff env) (Sweeping env)
      (fun _ event hsweeping => hsweeping.step event) _ (.fresh env) _ hpast
  exact hsweeping.cutOff

open Sample

/-- Bob is online at an inbound that serves alice, too. -/
def bobServed : List Event :=
  [.command (Sample.world []) (.applyConfig
     (socks [Sample.user 1 "alice", limitedBob])),
   .client (.fetchLimiter limitedBob false), .client (.register 1 limitedBob),
   .client (.acquire (Sample.world []) "a" limitedBob (some (.v4 1)) {})]

/-- Bob is deleted by a delta, and a configuration then adds carol. -/
theorem deleted_bob_cut_off :
    let events := bobServed ++ [.command (Sample.world [])
         (.applyUserDelta "a" { deleted := ["bob"] }),
       .command (Sample.world []) (.applyConfig
         (socks [Sample.user 1 "alice", Sample.user 3 "carol"]))]
    ∃ service, (run externals events).service = some service ∧
      ¬ service.HasUser "bob" ∧ CutOff service := by
  intro events
  obtain ⟨service, hserv⟩ : ∃ service, (run externals events).service = some service :=
    isSome_iff_exists.1 (by decide +kernel)
  have hnobody : ∀ service ∈ (run externals events).service,
      ¬ ∃ handle ∈ service.listeners, handle.table.HasUuid "bob" := by decide +kernel
  have hserved : ∀ service ∈ (run externals bobServed).service,
      ∀ handle ∈ findHandle "a" service.listeners, handle.status.protocol = .socks ∧
        ∀ connection ∈ service.bandwidth.connections,
          Sweeps (handle.limitedDelta { deleted := ["bob"] })
            connection.key := by decide +kernel
  have hswept : ∀ service ∈ (run externals (events.take 5)).service,
      (∀ uuid limiter, service.bandwidth.limiters.lookup uuid = some limiter →
        uuid = "bob" ∧ limiter.revoked = true) ∧
      (∀ connection ∈ service.bandwidth.connections, connection.isOpen = false) ∧
      ∀ uuid slots, service.sessions.active.lookup uuid = some slots → slots = {} := by
    decide +kernel
  refine ⟨service, hserv, hnobody service hserv, ?_⟩
  refine removed_users_cut_off ?_ events prefix_rfl service hserv
  refine ⟨?_, trivial, trivial, trivial, ?_, ?_, trivial⟩
  · intro service _ _ hserv
    simp at hserv
  · intro service handle hserv hfind _
    obtain ⟨hproto, hsweeps⟩ := hserved service hserv handle hfind
    refine ⟨?_, ?_, fun connection hmem _ _ => hsweeps connection hmem⟩
    · simp [limitedDelta, limitedUsers, validVmessUsers]
    · intro uuid _ _ _
      rw [hproto]
      exact ownKey_uuid _ uuid
  · intro service _ _ hserv _ _ _
    obtain ⟨hlimiters, hconnections, hslots⟩ := hswept service hserv
    refine ⟨fun uuid hforce => absurd ?_ hforce, ?_⟩
    · refine ⟨fun limiter hlimiter => (hlimiters uuid limiter hlimiter).2, fun connection hmem =>
          hconnections connection (mem_of_mem_filter hmem), ?_⟩
      cases hactive : service.sessions.active.lookup uuid with
      | none => rw [CoreService.slots, hactive, getD_none]
      | some slots =>
        rw [CoreService.slots, hactive, getD_some]
        exact hslots uuid slots hactive
    · intro inbound hmem user huser hlimiter
      obtain ⟨limiter, hget⟩ := isSome_iff_exists.1 (lookup_isSome.2 hlimiter)
      have hbob := (hlimiters user.uuid limiter hget).1
      obtain rfl := mem_singleton.1 hmem
      have hothers : ∀ user ∈ [Sample.user 1 "alice", Sample.user 3 "carol"],
          user.uuid ≠ "bob" := by decide
      exact absurd hbob (hothers user huser)

/-- A configuration drops bob while bob is online.  The table lets bob in no
more, and bob goes on as before. -/
theorem dropped_bob_stays_online :
    let events := bobServed ++ [.command (Sample.world []) (.applyConfig
        (socks [Sample.user 1 "alice"]))]
    ∃ service, (run externals events).service = some service ∧
      ¬ service.HasUser "bob" ∧ ¬ Cut service "bob" ∧
      service.bandwidth.limiters.lookup "bob" = some { bytesPerSecond := 0, revoked := false } ∧
      (service.connectionsOf "bob").map Connection.isOpen = [true] ∧
      service.slots "bob" ≠ {} := by
  intro events
  obtain ⟨service, hserv⟩ : ∃ service, (run externals events).service = some service :=
    isSome_iff_exists.1 (by decide +kernel)
  have honline : ∀ service ∈ (run externals events).service,
      (¬ ∃ handle ∈ service.listeners, handle.table.HasUuid "bob") ∧
      service.bandwidth.limiters.lookup "bob" = some { bytesPerSecond := 0, revoked := false } ∧
      (service.connectionsOf "bob").map Connection.isOpen = [true] ∧ service.slots "bob" ≠ {} := by
    decide +kernel
  obtain ⟨hnobody, hstores⟩ := honline service hserv
  exact ⟨service, hserv, hnobody, fun hcut => hstores.2.2 hcut.slots, hstores⟩

end CoreController

end KeliCore
