/-
The session tracker at the granularity of its locks.  Every operation of the
tracker is a sequence of sections, each under one lock: the device state has a
lock of its own, and the sessions of the users are spread over shards with a
lock each.
-/
import KeliCore.Limits
import KeliCore.Tally

namespace KeliCore

open Text Tally List

variable (tracker : UserSessionTracker)

/-- The arguments of `try_acquire_for_node_ip_with_policy`. -/
structure SessionRequest where
  nodeTag : String
  user : CoreUser
  clientIp : Option IpAddr
  policy : DeviceLimitPolicy := {}
deriving DecidableEq

namespace UserSessionTracker

def activeCount (tracker : UserSessionTracker) (uuid : String) : Nat :=
  ((tracker.active.lookup uuid).map UserSessionState.deviceCount).getD 0

/-- The device check of an acquire, under the device lock. -/
def check (order : HashOrder IpAddr UInt64) (now : Nat)
    (tracker : UserSessionTracker) (request : SessionRequest) (ip : IpAddr) :
    UserSessionTracker × Bool :=
  let checked := checkDeviceLimitIp order now tracker.devices request.nodeTag
    request.user ip request.policy
  ({ tracker with devices := checked.1 }, checked.2)

/-- The admission of an acquire, under the lock of the user's shard. -/
def admitSession (tracker : UserSessionTracker) (request : SessionRequest) :
    UserSessionTracker × Option UserSessionGuard :=
  let user := request.user
  let guard (key : UserSessionKey) : UserSessionGuard :=
    { userUuid := user.uuid, nodeTag := request.nodeTag, userId := user.id, key }
  let limit := user.deviceLimit.toNat
  let state := (tracker.active.lookup user.uuid).getD {}
  match request.clientIp with
  | none =>
    if limit ≤ state.deviceCount then
      (tracker.addSession user.uuid state, none)
    else
      (tracker.addSession user.uuid { state with anonymous := state.anonymous + 1 },
        some (guard .anonymous))
  | some ip =>
    match state.ips.lookup ip with
    | some count =>
      (tracker.addSession user.uuid { state with ips := state.ips.insert ip (count + 1) },
        some (guard (.ip ip)))
    | none =>
      if !request.policy.udpRebindTolerant && limit ≤ state.deviceCount
      then (tracker.addSession user.uuid state, none)
      else
        (tracker.addSession user.uuid { state with ips := state.ips.insert ip 1 },
          some (guard (.ip ip)))

/-- `remove_pending_ip_for_user`, under the device lock. -/
def removePending (tracker : UserSessionTracker) (nodeTag userUuid : String)
    (userId : UInt64) (ip : IpAddr) : UserSessionTracker :=
  { tracker with
    devices := tracker.devices.removePendingIp nodeTag userUuid userId ip }

/-- The first part of a guard's drop, under the lock of the user's shard: the
address is returned when its last session ends. -/
def release (tracker : UserSessionTracker) (guard : UserSessionGuard) :
    UserSessionTracker × Option IpAddr :=
  match tracker.active.lookup guard.userUuid with
  | none => (tracker, none)
  | some state =>
    let released := state.release guard.key
    ({ tracker with
      active :=
        if released.1.deviceCount = 0 then
          tracker.active.erase guard.userUuid
        else tracker.active.insert guard.userUuid released.1 },
      released.2)

/-- One uuid of `revoke_users`, under the lock of its shard. -/
def forget (tracker : UserSessionTracker) (uuid : String) :
    UserSessionTracker :=
  { tracker with active := tracker.active.erase uuid }

/-- The last part of `revoke_users`, under the device lock. -/
def forgetPending (tracker : UserSessionTracker) (uuids : List String) :
    UserSessionTracker :=
  let revoked (key : String) : Bool :=
    uuids.any fun uuid => key == uuid || endsWith key ("|" ++ uuid)
  { tracker with
    devices := { tracker.devices with
      pending := tracker.devices.pending.retain fun key _ => !revoked key } }

/-- One shard of `sync_users`, under its lock. -/
def retainShard (shardOf : String → Nat) (tracker : UserSessionTracker)
    (users : List CoreUser) (shard : Nat) : UserSessionTracker :=
  { tracker with
    active := tracker.active.retain fun uuid _ =>
      shardOf uuid != shard || decide (uuid ∈ users.map CoreUser.uuid) }

/-- The last part of `sync_users`, under the device lock. -/
def retainPending (tracker : UserSessionTracker) (users : List CoreUser) :
    UserSessionTracker :=
  let activeUuids := users.map CoreUser.uuid
  { tracker with
    devices := { tracker.devices with
      pending := tracker.devices.pending.retain fun key _ =>
        match rsplitOnce '|' key with
        | some (_, uuid) => uuid ∈ activeUuids
        | none => key ∈ activeUuids } }

theorem tryAcquire_eq_sections (order : HashOrder IpAddr UInt64) (now : Nat)
    (tracker : UserSessionTracker) (request : SessionRequest) :
    tracker.tryAcquire order now request.nodeTag request.user request.clientIp request.policy =
      if request.user.deviceLimit = 0 then (tracker, some none)
      else
        match request.clientIp with
        | none => ((tracker.admitSession request).1, (tracker.admitSession request).2.map some)
        | some ip =>
          let checked := tracker.check order now request ip
          if !checked.2 then (checked.1, none)
          else
            let admitted := checked.1.admitSession request
            match admitted.2 with
            | some guard => (admitted.1, some (some guard))
            | none =>
              (admitted.1.removePending request.nodeTag request.user.uuid
                request.user.id ip, none) := by
  unfold tryAcquire
  split
  · rfl
  · cases hip : request.clientIp with
    | none =>
      simp only [admitSession, hip]
      split <;> rfl
    | some ip =>
      simp only [check, admitSession, hip]
      split
      · rfl
      · cases hget : ((tracker.active.lookup request.user.uuid).getD {}).ips.lookup ip with
        | some count => rfl
        | none =>
          by_cases hfull : request.user.deviceLimit.toNat ≤ ((tracker.active.lookup
                request.user.uuid).getD {}).deviceCount
          · cases request.policy.udpRebindTolerant <;> simp [hfull, removePending]
          · simp [hfull]

theorem dropGuard_eq_sections (guard : UserSessionGuard) : tracker.dropGuard guard =
      match tracker.release guard with
      | (released, some ip) => released.removePending guard.nodeTag guard.userUuid guard.userId ip
      | (released, none) => released := by
  unfold dropGuard release
  cases hget : tracker.active.lookup guard.userUuid with
  | none => rfl
  | some state =>
    cases hreleased : (state.release guard.key).2 <;> simp only [hreleased, removePending]

end UserSessionTracker

def UserSessionKey.address : UserSessionKey → Option IpAddr
  | .ip address => some address
  | .anonymous => none

/-- Different addresses, and every session without one. -/
def deviceTotal (keys : List UserSessionKey) : Nat :=
  (keys.filterMap UserSessionKey.address).toFinset.card + keys.count .anonymous

structure SlotsCount (state : UserSessionState) (keys : List UserSessionKey) : Prop where
  ips : Counts state.ips (keys.filterMap UserSessionKey.address)
  anonymous : state.anonymous = keys.count .anonymous

namespace SlotsCount

variable {keys : List UserSessionKey} {state : UserSessionState} {key : UserSessionKey}

theorem deviceCount_eq (hslots : SlotsCount state keys) : state.deviceCount = deviceTotal keys := by
  rw [UserSessionState.deviceCount, deviceTotal, hslots.ips.len_eq, hslots.anonymous]

theorem empty : SlotsCount {} [] where
  ips := Counts.empty
  anonymous := rfl

theorem perm {other : List UserSessionKey} (hslots : SlotsCount state keys)
    (hperm : keys.Perm other) : SlotsCount state other where
  ips := hslots.ips.perm (hperm.filterMap _)
  anonymous := hslots.anonymous.trans (hperm.count_eq _)

theorem add_anonymous (hslots : SlotsCount state keys) :
    SlotsCount { state with anonymous := state.anonymous + 1 } (.anonymous :: keys) where
  ips := hslots.ips
  anonymous := by simp [hslots.anonymous]

theorem add_known (hslots : SlotsCount state keys) {ip : IpAddr}
    {count : Nat} (hget : state.ips.lookup ip = some count) :
    SlotsCount { state with ips := state.ips.insert ip (count + 1) } (.ip ip :: keys) where
  ips := by
    rw [← (hslots.ips.count_of_lookup hget).1]
    exact hslots.ips.insert ip
  anonymous := by simp [hslots.anonymous]

theorem add_new {ip : IpAddr} (hslots : SlotsCount state keys) (hget : state.ips.lookup ip = none) :
    SlotsCount { state with ips := state.ips.insert ip 1 } (.ip ip :: keys) where
  ips := by
    have hzero := count_eq_zero.2 (hslots.ips.lookup_eq_none.1 hget)
    have hinsert := hslots.ips.insert ip
    rw [hzero] at hinsert
    exact hinsert
  anonymous := by simp [hslots.anonymous]

theorem eq_empty (hslots : SlotsCount state []) : state = {} := by
  obtain ⟨ips, anonymous⟩ := state
  have hips : ips = ∅ := Finmap.ext_lookup fun ip => by
    rw [hslots.ips.lookup_eq_none.2 (by simp), Finmap.lookup_empty]
  have hanonymous : anonymous = 0 := hslots.anonymous
  rw [hips, hanonymous]

theorem release (hslots : SlotsCount state (key :: keys)) :
    SlotsCount (state.release key).1 keys := by
  cases key with
  | anonymous =>
    have hanonymous := hslots.anonymous
    exact ⟨hslots.ips, by simp [UserSessionState.release, hanonymous]⟩
  | ip address =>
    have hanonymous : state.anonymous = keys.count .anonymous := by simpa using hslots.anonymous
    have hips : Counts state.ips (address :: keys.filterMap UserSessionKey.address) := hslots.ips
    have hcount := hips address
    rw [count_cons_self, if_neg (by omega)] at hcount
    simp only [UserSessionState.release, hcount]
    split
    next hmore => exact ⟨hips.decrease (count_pos_iff.1 (by omega)), hanonymous⟩
    next hlast => exact ⟨hips.erase (count_eq_zero.1 (by omega)), hanonymous⟩

theorem release_absent (hslots : SlotsCount state keys)
    (habsent : key ∉ keys) : (state.release key).1 = state := by
  cases key with
  | anonymous =>
    have hzero : state.anonymous = 0 := by
      rw [hslots.anonymous]
      exact count_eq_zero.2 habsent
    have hsame : state.anonymous - 1 = state.anonymous := by omega
    simp [UserSessionState.release, hsame]
  | ip address =>
    have hnone : state.ips.lookup address = none := by
      apply hslots.ips.lookup_eq_none.2
      intro hmem
      obtain ⟨key, hkey, haddress⟩ := mem_filterMap.1 hmem
      cases key with
      | anonymous => simp [UserSessionKey.address] at haddress
      | ip other =>
        cases haddress
        exact habsent hkey
    simp [UserSessionState.release, hnone]

theorem of_deviceCount_zero (hslots : SlotsCount state keys)
    (hzero : state.deviceCount = 0) : SlotsCount {} keys := by
  have htotal := hslots.deviceCount_eq
  rw [hzero, deviceTotal] at htotal
  refine ⟨fun address => ?_, by dsimp only; omega⟩
  have hnil : keys.filterMap UserSessionKey.address = [] := by
    have hcard : (keys.filterMap UserSessionKey.address).toFinset.card = 0 := by omega
    simpa using hcard
  simp [hnil]

end SlotsCount

theorem deviceTotal_cons_ip (ip : IpAddr) (keys : List UserSessionKey) :
    deviceTotal (.ip ip :: keys) =
      (insert ip (keys.filterMap UserSessionKey.address).toFinset).card +
        keys.count .anonymous := by
  have hips : (UserSessionKey.ip ip :: keys).filterMap UserSessionKey.address =
      ip :: keys.filterMap UserSessionKey.address := rfl
  rw [deviceTotal, hips, toFinset_cons, count_cons_of_ne (by simp)]

theorem deviceTotal_le_cons (key : UserSessionKey) (keys : List UserSessionKey) :
    deviceTotal keys ≤ deviceTotal (key :: keys) := by
  apply Nat.add_le_add
  · apply Finset.card_le_card
    intro address haddress
    rw [mem_toFinset, mem_filterMap] at haddress ⊢
    obtain ⟨other, hother, heq⟩ := haddress
    exact ⟨other, mem_cons_of_mem key hother, heq⟩
  · exact count_le_count_cons

/-- The guard that an acquire asks for. -/
def SessionRequest.guard (request : SessionRequest) : UserSessionGuard where
  userUuid := request.user.uuid
  nodeTag := request.nodeTag
  userId := request.user.id
  key :=
    match request.clientIp with
    | some ip => .ip ip
    | none => .anonymous

variable {keys : List UserSessionKey}

theorem admit_spec (request : SessionRequest) (hslots : SlotsCount
      ((tracker.active.lookup request.user.uuid).getD {}) keys) :
    ∃ state, (tracker.admitSession request).1 = tracker.addSession request.user.uuid state ∧
      (((tracker.admitSession request).2 = some request.guard ∧
          SlotsCount state (request.guard.key :: keys) ∧ (request.policy.udpRebindTolerant = false →
            deviceTotal keys ≤ request.user.deviceLimit.toNat →
              deviceTotal (request.guard.key :: keys) ≤ request.user.deviceLimit.toNat)) ∨
        ((tracker.admitSession request).2 = none ∧ SlotsCount state keys ∧
          request.user.deviceLimit.toNat ≤ deviceTotal keys)) := by
  unfold UserSessionTracker.admitSession
  dsimp only
  generalize (tracker.active.lookup request.user.uuid).getD {} = state at hslots ⊢
  have hcount := hslots.deviceCount_eq
  cases hip : request.clientIp with
  | none =>
    simp only [SessionRequest.guard, hip]
    split
    next hfull => exact ⟨state, rfl, .inr ⟨rfl, hslots, hcount ▸ hfull⟩⟩
    next hroom =>
      have hadded := hslots.add_anonymous
      refine ⟨_, rfl, .inl ⟨rfl, hadded, fun _ _ => ?_⟩⟩
      rw [← hadded.deviceCount_eq]
      simp only [UserSessionState.deviceCount] at hroom ⊢
      omega
  | some ip =>
    simp only [SessionRequest.guard, hip]
    cases hget : state.ips.lookup ip with
    | some count =>
      refine ⟨_, rfl, .inl ⟨rfl, hslots.add_known hget, fun _ hlimit => ?_⟩⟩
      have hmem : ip ∈ keys.filterMap UserSessionKey.address := by
        by_contra hmem
        rw [hslots.ips.lookup_eq_none.2 hmem] at hget
        simp at hget
      rw [deviceTotal_cons_ip, Finset.insert_eq_of_mem (mem_toFinset.2 hmem), ← deviceTotal]
      exact hlimit
    | none =>
      dsimp only
      split
      next hfull =>
        simp only [Bool.and_eq_true, decide_eq_true_eq] at hfull
        exact ⟨state, rfl, .inr ⟨rfl, hslots, hcount ▸ hfull.2⟩⟩
      next hroom =>
        refine ⟨_, rfl, .inl ⟨rfl, hslots.add_new hget, fun hstrict _ => ?_⟩⟩
        simp only [hstrict, Bool.not_false, Bool.true_and,
          decide_eq_true_eq, hcount, deviceTotal] at hroom
        have hmem := hslots.ips.lookup_eq_none.1 hget
        rw [deviceTotal_cons_ip, Finset.card_insert_of_notMem (fun h => hmem (mem_toFinset.1 h))]
        omega

theorem admit_snd_congr {request : SessionRequest} {tracker other : UserSessionTracker}
    (hstate : (tracker.active.lookup request.user.uuid).getD {} =
      (other.active.lookup request.user.uuid).getD {}) :
    (tracker.admitSession request).2 = (other.admitSession request).2 := by
  unfold UserSessionTracker.admitSession
  dsimp only
  rw [hstate]
  cases request.clientIp with
  | none =>
    dsimp only
    split <;> rfl
  | some ip =>
    dsimp only
    split
    · rfl
    · split <;> rfl

variable {guard : UserSessionGuard}

/-- A drop leaves the released slots, or no entry where none is used. -/
theorem release_slots (hslots : SlotsCount (((tracker.active.lookup guard.userUuid).getD
      {}).release guard.key).1 keys) :
    SlotsCount (((tracker.release guard).1.active.lookup guard.userUuid).getD {}) keys := by
  unfold UserSessionTracker.release
  cases hget : tracker.active.lookup guard.userUuid with
  | none =>
    have hempty : (({} : UserSessionState).release guard.key).1 = {} := by cases guard.key <;> rfl
    rw [hget, Option.getD_none, hempty] at hslots
    simpa [hget] using hslots
  | some state =>
    rw [hget, Option.getD_some] at hslots
    simp only
    split
    next hzero => simpa using hslots.of_deviceCount_zero hzero
    · simpa using hslots

theorem release_other {uuid : String} (hne : uuid ≠ guard.userUuid) :
    (tracker.release guard).1.active.lookup uuid = tracker.active.lookup uuid := by
  unfold UserSessionTracker.release
  cases tracker.active.lookup guard.userUuid with
  | none => rfl
  | some state =>
    simp only
    split <;> simp [hne]

theorem release_address
    (hslots : SlotsCount ((tracker.active.lookup guard.userUuid).getD {}) (guard.key :: keys)) :
    (tracker.release guard).2 = guard.key.address.filter fun ip => decide (.ip ip ∉ keys) := by
  have hrelease : (tracker.release guard).2 =
      (((tracker.active.lookup guard.userUuid).getD {}).release guard.key).2 := by
    unfold UserSessionTracker.release
    cases tracker.active.lookup guard.userUuid with
    | none => cases guard.key <;> rfl
    | some state => rfl
  rw [hrelease]
  generalize (tracker.active.lookup guard.userUuid).getD {} = state at hslots ⊢
  cases hkey : guard.key with
  | anonymous => rfl
  | ip address =>
    rw [hkey] at hslots
    have hips : Tally.Counts state.ips
        (address :: keys.filterMap UserSessionKey.address) := hslots.ips
    have hcount := hips address
    have hmem : address ∈ keys.filterMap UserSessionKey.address ↔
        UserSessionKey.ip address ∈ keys := by
      simp only [mem_filterMap]
      constructor
      · rintro ⟨key, hkey, haddress⟩
        cases key with
        | anonymous => simp [UserSessionKey.address] at haddress
        | ip other =>
          cases haddress
          exact hkey
      · exact fun hkey => ⟨_, hkey, rfl⟩
    rw [← count_pos_iff] at hmem
    simp only [UserSessionState.release, hcount, UserSessionKey.address, Option.filter_some, ← hmem]
    by_cases hmore : 0 < count address (keys.filterMap UserSessionKey.address) <;> simp [hmore]

end KeliCore
