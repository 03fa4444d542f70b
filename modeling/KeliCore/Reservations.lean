/-
Device reservations.  Passing the device check leaves a reservation under the
node, the user and the address, and the drop of a guard gives it back when the
guard is the last of its user with that address, on whatever node.  This module
follows reservations over sequential runs of the tracker.
-/
import KeliCore.Run
import KeliCore.Sessions

namespace KeliCore

open Finmap UserSessionTracker Text List
open Option hiding guard

namespace DeviceLimitRuntimeState

/-- The user id under which an address is reserved. -/
def reservation (devices : DeviceLimitRuntimeState) (key : String) (ip : IpAddr) : Option UInt64 :=
  (devices.pendingIps key).lookup ip

variable {devices : DeviceLimitRuntimeState} {key other : String}
    {ip address : IpAddr} {id : UInt64}

theorem reservation_eq_bind : devices.reservation key ip =
      (devices.pending.lookup key).bind fun pending => pending.lookup ip := by
  unfold reservation pendingIps
  cases devices.pending.lookup key <;> simp

theorem reservation_insert (pending : HashMap IpAddr UInt64) : { devices with
      pending := devices.pending.insert key pending }.reservation other ip =
        if other = key then pending.lookup ip
        else devices.reservation other ip := by
  simp only [reservation_eq_bind, lookup_insert_ite]
  split <;> rfl

@[simp] theorem reservation_pruneReported (now : Nat) :
    (devices.pruneReported now).reservation key ip = devices.reservation key ip := rfl

/-- An emptied entry is dropped; nothing is reserved under it either way. -/
theorem lookup_left (rest : HashMap IpAddr UInt64) (ip : IpAddr) :
    ((if rest.len = 0 then none else some rest).bind fun rest => rest.lookup ip) =
      rest.lookup ip := by
  split
  next hempty => exact (lookup_eq_none.2 (not_mem_of_len_eq_zero hempty ip)).symm
  · rfl

/-- A removal takes away the one reservation it names, if it is the user's. -/
theorem reservation_removePendingIp (nodeTag uuid : String) (userId : UInt64) :
    (devices.removePendingIp nodeTag uuid userId address).reservation key ip =
      if key = deviceLimitUserKey nodeTag uuid ∧ ip = address ∧
          devices.reservation key ip = some userId then none
      else devices.reservation key ip := by
  unfold removePendingIp
  dsimp only
  generalize deviceLimitUserKey nodeTag uuid = place
  cases hpending : devices.pending.lookup place with
  | none =>
    by_cases hkey : key = place
    · simp [reservation_eq_bind, hkey, hpending]
    · simp [hkey]
  | some pending =>
    have hrest : ∀ rest : HashMap IpAddr UInt64, (if rest.len = 0 then
          { devices with pending := devices.pending.erase place }
        else { devices with
          pending := devices.pending.insert place rest }).reservation key ip =
        if key = place then rest.lookup ip
        else devices.reservation key ip := by
      intro rest
      rw [← lookup_left rest, reservation_eq_bind, reservation_eq_bind]
      split
      · rw [lookup_erase_ite]
        split <;> rfl
      · rw [lookup_insert_ite]
        split <;> rfl
    dsimp only
    rw [hrest]
    by_cases hkey : key = place
    · subst hkey
      have hold : devices.reservation key ip = pending.lookup ip := by
        simp [reservation_eq_bind, hpending]
      rw [if_pos rfl, hold]
      by_cases hip : ip = address
      · subst hip
        by_cases howner : pending.lookup ip = some userId <;> simp [howner]
      · split <;> simp [hip]
    · simp [hkey]

/-- A record of a report takes away one reservation of each user of its node. -/
theorem reservation_commitRecord (now : Nat) (record : DeviceLimitOnlineRecord) :
    (devices.commitRecord now record).reservation key ip =
      if (isBlank record.nodeTag = false ∧ record.userId ≠ 0) ∧
          startsWith key (record.nodeTag ++ "|") = true ∧ record.ip = ip ∧
          devices.reservation key ip = some record.userId
      then none else devices.reservation key ip := by
  unfold commitRecord
  split
  next hskipped =>
    rw [if_neg]
    rintro ⟨hnamed, -⟩
    simp [hnamed.1, hnamed.2] at hskipped
  next hnamed =>
    simp only [Bool.or_eq_true, beq_iff_eq, not_or, Bool.not_eq_true] at hnamed
    simp only [reservation_eq_bind, lookup_retain, lookup_mapValues, ne_eq, hnamed,
      not_false_eq_true, and_self, true_and]
    cases devices.pending.lookup key with
    | none => simp
    | some pending =>
      by_cases hnode : startsWith key (record.nodeTag ++ "|") = true
      · by_cases howner : pending.lookup record.ip = some record.userId
        · by_cases hip : record.ip = ip
          · subst hip
            simp [hnode, howner, Option.filter, lookup_left]
          · simp [hnode, hip, howner, Option.filter, lookup_left, Ne.symm hip]
        · simp [hnode, howner, Option.filter, lookup_left]
          rintro rfl
          exact fun hsame => absurd hsame howner
      · simp [hnode, Option.filter]

theorem reservation_commit (now : Nat) (records : List DeviceLimitOnlineRecord) :
    (records.foldl (commitRecord now) devices).reservation key ip =
      if ∃ record ∈ records, (isBlank record.nodeTag = false ∧ record.userId ≠ 0) ∧
          startsWith key (record.nodeTag ++ "|") = true ∧ record.ip = ip ∧
          devices.reservation key ip = some record.userId
      then none else devices.reservation key ip := by
  induction records generalizing devices with
  | nil => simp
  | cons record records ih =>
    rw [foldl_cons, ih, reservation_commitRecord]
    simp only [mem_cons, exists_eq_or_imp]
    split
    next htaken => simp [if_pos (Or.inl htaken)]
    next hspared => simp only [hspared, false_or]

theorem reservation_of_commit {now : Nat} {records : List DeviceLimitOnlineRecord}
    (hafter : (records.foldl (commitRecord now) devices).reservation key ip = some id) :
    devices.reservation key ip = some id := by
  rw [reservation_commit] at hafter
  exact (ite_none_left_eq_some.1 hafter).2

variable {nodeTag : String} {userId : UInt64}

theorem reservation_of_dropOnePendingUnknownIp {place : String} {dropped : DeviceLimitRuntimeState}
    {order : HashOrder IpAddr UInt64}
    (hdropped : devices.dropOnePendingUnknownIp order place nodeTag userId = some dropped)
    (hafter : dropped.reservation key ip = some id) : devices.reservation key ip = some id := by
  unfold dropOnePendingUnknownIp at hdropped
  obtain ⟨pending, hpending, hrest⟩ := bind_eq_some_iff.1 hdropped
  obtain ⟨dropIp, -, hsome⟩ := bind_eq_some_iff.1 hrest
  cases hsome
  rw [reservation_insert] at hafter
  split at hafter
  next hkey =>
    replace hafter := (of_lookup_erase hafter).2
    rw [hkey, reservation_eq_bind, hpending]
    exact hafter
  · exact hafter

/-- Nor does making room only if there is none reserve anything. -/
theorem reservation_of_makeRoom {place : String} {order : HashOrder IpAddr UInt64}
    {condition : Prop} [Decidable condition] (hafter : ((if condition then
        devices.dropOnePendingUnknownIp order place nodeTag userId
      else none).getD devices).reservation key ip = some id) :
    devices.reservation key ip = some id := by
  split at hafter
  · cases hdropped : devices.dropOnePendingUnknownIp order place nodeTag userId with
    | none => simpa [hdropped] using hafter
    | some dropped =>
      rw [hdropped] at hafter
      exact reservation_of_dropOnePendingUnknownIp hdropped hafter
  · exact hafter

/-- There is room to make exactly if there is a new reservation. -/
theorem dropOnePendingUnknownIp_isSome (order : HashOrder IpAddr UInt64)
    (devices : DeviceLimitRuntimeState) (key nodeTag : String) (userId : UInt64) :
    (devices.dropOnePendingUnknownIp order key nodeTag userId).isSome =
      decide (0 < devices.pendingNewIpCount key nodeTag userId) := by
  unfold dropOnePendingUnknownIp pendingNewIpCount pendingIps
  cases hpending : devices.pending.lookup key with
  | none =>
    have hnone : ¬ 0 < ((∅ : HashMap IpAddr UInt64).retain fun ip pendingId =>
        pendingId == userId && !devices.isKnownAliveIp nodeTag userId ip).len := by
      rw [len_pos_iff]
      simp
    simp [hnone]
  | some pending =>
    rw [Bool.eq_iff_iff, decide_eq_true_eq]
    simp only [bind_eq_bind, bind_some, getD_some, isSome_bind, isSome_some, any_true,
      findSome?_isSome_iff, len_pos_iff, lookup_retain, filter_eq_some_iff, Prod.exists,
      order.mem_iter]
    refine exists_congr fun ip => exists_congr fun id => and_congr_right ?_
    intro _
    split <;> simp_all

end DeviceLimitRuntimeState

open DeviceLimitRuntimeState

section Check

variable {order : HashOrder IpAddr UInt64} {now : Nat}
    {devices : DeviceLimitRuntimeState} {nodeTag : String} {user : CoreUser}
    {ip : IpAddr} {policy : DeviceLimitPolicy}

theorem reservation_reserve {key place : String} {address : IpAddr}
    (userId : UInt64) : { devices with
      pending := devices.pending.insert place
        ((devices.pendingIps place).insert ip userId) }.reservation key address =
      if key = place ∧ address = ip then some userId else devices.reservation key address := by
  rw [reservation_insert, lookup_insert_ite, ← reservation]
  by_cases hkey : key = place <;> simp [hkey]

/-- The check finds the address reserved or known, or it decides by the room
that is left, which a tolerant policy makes first. -/
theorem check_cases {state : DeviceLimitRuntimeState} {place : String}
    (hstate : devices.pruneReported now = state)
    (hplace : deviceLimitUserKey nodeTag user.uuid = place) :
    let reserve (room : DeviceLimitRuntimeState) : DeviceLimitRuntimeState := { room with
        pending := room.pending.insert place ((room.pendingIps place).insert ip user.id) }
    let limit := user.deviceLimit.toNat
    let known := state.knownDeviceCount nodeTag user.id
    let pendingNew := state.pendingNewIpCount place nodeTag user.id
    let makes := limit ≤ known + pendingNew ∧ policy.udpRebindTolerant ∧ 0 < known
    ∃ room left, room = (if makes then
        state.dropOnePendingUnknownIp order place nodeTag user.id else none).getD state ∧
      left = (if makes then pendingNew - 1 else pendingNew) ∧
      checkDeviceLimitIp order now devices nodeTag user ip policy =
        if state.reservation place ip = some user.id then (state, true)
        else if state.isKnownAliveIp nodeTag user.id ip then (reserve state, true)
        else if known + left < limit ∨ (policy.udpRebindTolerant ∧ 0 < known ∧ limit = known + left)
        then (reserve room, true) else (room, false) := by
  refine ⟨_, _, rfl, rfl, ?_⟩
  unfold checkDeviceLimitIp
  dsimp only
  rw [hstate, hplace, ← reservation]
  congr 2
  -- What is left of the new reservations does not depend on the order.
  have hleft (makes : Prop) [Decidable makes] : (if (if makes then
        state.dropOnePendingUnknownIp order place nodeTag user.id else none).isSome = true then
          state.pendingNewIpCount place nodeTag user.id - 1
        else state.pendingNewIpCount place nodeTag user.id) =
      if makes then state.pendingNewIpCount place nodeTag user.id - 1
      else state.pendingNewIpCount place nodeTag user.id := by
    split
    · simp only [dropOnePendingUnknownIp_isSome, decide_eq_true_eq]
      split <;> omega
    · rfl
  rw [hleft]
  exact (ite_not ..).symm.trans (if_congr (by rw [not_and_or, not_le, not_not]) rfl rfl)

/-- The check reserves at most the address it is asked about, and only when it
accepts it. -/
theorem reservation_of_check {key : String} {address : IpAddr} {id : UInt64}
    (hafter : (checkDeviceLimitIp order now devices nodeTag user ip
      policy).1.reservation key address = some id) : devices.reservation key address = some id ∨
      ((checkDeviceLimitIp order now devices nodeTag user ip policy).2 = true ∧
        key = deviceLimitUserKey nodeTag user.uuid ∧ address = ip ∧ id = user.id) := by
  obtain ⟨room, left, hroom, -, heq⟩ :=
    @check_cases order now devices nodeTag user ip policy _ _ rfl rfl
  have hkept : room.reservation key address = some id →
      devices.reservation key address = some id := by
    rw [hroom, ← reservation_pruneReported now]
    exact reservation_of_makeRoom
  rw [heq] at hafter ⊢
  split_ifs at hafter ⊢ with hreserved hknown hfits
  · exact .inl hafter
  · rw [reservation_reserve] at hafter
    split_ifs at hafter with hplace
    · exact .inr ⟨rfl, hplace.1, hplace.2, (some.inj hafter).symm⟩
    · exact .inl hafter
  · rw [reservation_reserve] at hafter
    split_ifs at hafter with hplace
    · exact .inr ⟨rfl, hplace.1, hplace.2, (some.inj hafter).symm⟩
    · exact .inl (hkept hafter)
  · exact .inl (hkept hafter)

theorem check_accepts_iff (state : DeviceLimitRuntimeState)
    (hstate : devices.pruneReported now = state) :
    (checkDeviceLimitIp order now devices nodeTag user ip policy).2 = true ↔
      state.reservation (deviceLimitUserKey nodeTag user.uuid) ip = some user.id ∨
        state.isKnownAliveIp nodeTag user.id ip = true ∨
        let limit := user.deviceLimit.toNat
        let known := state.knownDeviceCount nodeTag user.id
        let pendingNew := state.pendingNewIpCount
          (deviceLimitUserKey nodeTag user.uuid) nodeTag user.id
        let left := if limit ≤ known + pendingNew ∧ policy.udpRebindTolerant ∧ 0 < known
          then pendingNew - 1 else pendingNew
        known + left < limit ∨ (policy.udpRebindTolerant ∧ 0 < known ∧ limit = known + left) := by
  obtain ⟨room, left, -, hleft, heq⟩ :=
    @check_cases order now devices nodeTag user ip policy _ _ hstate rfl
  dsimp only
  rw [← hleft, heq]
  split_ifs with hreserved hknown hfits
  · simp [hreserved]
  · simp [hknown]
  · simp [hfits]
  · simp [hreserved, hknown, hfits]

theorem check_accepts_of_none
    (hnone : devices.pendingIps (deviceLimitUserKey nodeTag user.uuid) = ∅) :
    (checkDeviceLimitIp order now devices nodeTag user ip policy).2 = true ↔
      let state := devices.pruneReported now
      let known := state.knownDeviceCount nodeTag user.id
      state.isKnownAliveIp nodeTag user.id ip = true ∨ known < user.deviceLimit.toNat ∨
        (policy.udpRebindTolerant ∧ 0 < known ∧ user.deviceLimit.toNat = known) := by
  have hpending : (devices.pruneReported now).pendingIps
      (deviceLimitUserKey nodeTag user.uuid) = ∅ := hnone
  have hreservation : (devices.pruneReported now).reservation
      (deviceLimitUserKey nodeTag user.uuid) ip = none := by
    rw [reservation, hpending, lookup_empty]
  have hnew : (devices.pruneReported now).pendingNewIpCount
      (deviceLimitUserKey nodeTag user.uuid) nodeTag user.id = 0 := by
    apply Nat.eq_zero_of_not_pos
    rw [pendingNewIpCount, hpending, len_pos_iff]
    simp
  rw [check_accepts_iff _ rfl, hreservation, hnew]
  simp

end Check

/-- The tracker and the guards that have not been dropped. -/
structure TrackerRun where
  tracker : UserSessionTracker := {}
  live : List UserSessionGuard := []

inductive TrackerMove where
  | acquire (now : Nat) (request : SessionRequest)
  | drop (guard : UserSessionGuard)
  | report (now : Nat) (records : List DeviceLimitOnlineRecord)
  | pull (now : Nat) (snapshot : DeviceLimitSnapshot)

def guardKeys (live : List UserSessionGuard) (uuid : String) : List UserSessionKey :=
  (live.filter fun guard => guard.userUuid == uuid).map UserSessionGuard.key

/-- The key under which the reservation of a guard is filed. -/
def UserSessionGuard.place (guard : UserSessionGuard) : String :=
  deviceLimitUserKey guard.nodeTag guard.userUuid

namespace TrackerRun

variable (order : HashOrder IpAddr UInt64)

def answer (now : Nat) (tracker : UserSessionTracker)
    (request : SessionRequest) : Option (Option UserSessionGuard) :=
  (tracker.tryAcquire order now request.nodeTag request.user request.clientIp request.policy).2

def step (run : TrackerRun) : TrackerMove → TrackerRun
  | .acquire now request =>
    let acquired := run.tracker.tryAcquire order now request.nodeTag
      request.user request.clientIp request.policy
    { tracker := acquired.1, live := acquired.2.join.toList ++ run.live }
  | .drop guard =>
    if guard ∈ run.live then
      { tracker := run.tracker.dropGuard guard, live := run.live.erase guard }
    else run
  | .report now records => { run with tracker := run.tracker.commitDeviceLimitReport now records }
  | .pull now snapshot => { run with tracker := run.tracker.applyDeviceLimitSnapshot now snapshot }

/-- The slots count the live guards. -/
def Slots (run : TrackerRun) : Prop :=
  ∀ uuid, SlotsCount ((run.tracker.active.lookup uuid).getD {}) (guardKeys run.live uuid)

/-- Every reservation is that of a live guard. -/
def Reserved (run : TrackerRun) : Prop :=
  ∀ key ip id, run.tracker.devices.reservation key ip = some id →
    ∃ guard ∈ run.live, guard.place = key ∧ guard.key = .ip ip

/-- A dropped guard leaves no reservation behind: another guard keeps it, or
it goes with the last guard of the user for this address. -/
def Releases (run : TrackerRun) : TrackerMove → Prop
  | .drop guard => guard ∈ run.live →
      ∀ ip ∈ guard.key.address, ∀ id ∈ run.tracker.devices.reservation guard.place ip,
        (∃ other ∈ run.live.erase guard, other.place = guard.place ∧ other.key = .ip ip) ∨
        (id = guard.userId ∧ .ip ip ∉ guardKeys (run.live.erase guard) guard.userUuid)
  | .acquire .. | .report .. | .pull .. => True

end TrackerRun

section Keys

variable {live : List UserSessionGuard}

theorem guardKeys_cons (guard : UserSessionGuard) (uuid : String) :
    guardKeys (guard :: live) uuid = if guard.userUuid = uuid then guard.key :: guardKeys live uuid
      else guardKeys live uuid := by
  by_cases huuid : guard.userUuid = uuid <;> simp [guardKeys, huuid]

theorem guardKeys_erase {guard : UserSessionGuard} (hlive : guard ∈ live) (uuid : String) :
    (guardKeys live uuid).Perm (guardKeys (guard :: live.erase guard) uuid) :=
  ((perm_cons_erase hlive).filter _).map _

theorem mem_guardKeys {uuid : String} {key : UserSessionKey} : key ∈ guardKeys live uuid ↔
      ∃ guard ∈ live, guard.userUuid = uuid ∧ guard.key = key := by simp [guardKeys, and_assoc]

end Keys

namespace TrackerRun

variable {order : HashOrder IpAddr UInt64} {run : TrackerRun}

theorem Slots.admitSession (hslots : run.Slots) (request : SessionRequest) :
    (run.tracker.admitSession request).1.devices = run.tracker.devices ∧
      (((run.tracker.admitSession request).2 = some request.guard ∧
          Slots ⟨(run.tracker.admitSession request).1, request.guard :: run.live⟩) ∨
        ((run.tracker.admitSession request).2 = none ∧
          Slots ⟨(run.tracker.admitSession request).1, run.live⟩)) := by
  obtain ⟨state, htracker, hadmission⟩ := admit_spec run.tracker request (hslots request.user.uuid)
  have hget : ∀ uuid, ((run.tracker.admitSession request).1.active.lookup
      uuid).getD {} = if uuid = request.user.uuid then state
        else (run.tracker.active.lookup uuid).getD {} := by
    intro uuid
    rw [htracker, addSession, lookup_insert_ite]
    split <;> rfl
  refine ⟨by rw [htracker]; rfl, ?_⟩
  rcases hadmission with ⟨hgranted, hcount, -⟩ | ⟨hrefused, hcount, -⟩
  · refine .inl ⟨hgranted, fun uuid => ?_⟩
    rw [guardKeys_cons, hget]
    by_cases huuid : uuid = request.user.uuid
    · subst huuid
      have hown : request.guard.userUuid = request.user.uuid := rfl
      rw [if_pos rfl, if_pos hown]
      exact hcount
    · rw [if_neg huuid, if_neg fun h => huuid h.symm]
      exact hslots uuid
  · refine .inr ⟨hrefused, fun uuid => ?_⟩
    rw [hget]
    by_cases huuid : uuid = request.user.uuid
    · subst huuid
      rw [if_pos rfl]
      exact hcount
    · rw [if_neg huuid]
      exact hslots uuid

/-- An acquire adds a guard with its reservation, or adds neither. -/
theorem acquire_spec (hslots : run.Slots) (now : Nat) (request : SessionRequest) :
    let next := run.step order (.acquire now request)
    next.Slots ∧ ((answer order now run.tracker request = some (some request.guard) ∧
          next.live = request.guard :: run.live ∧
          ∀ key ip id, next.tracker.devices.reservation key ip = some id →
            run.tracker.devices.reservation key ip = some id ∨
              (request.guard.place = key ∧ request.guard.key = .ip ip ∧ id = request.user.id)) ∨
        ((answer order now run.tracker request).join = none ∧ next.live = run.live ∧
          ∀ key ip id, next.tracker.devices.reservation key ip = some id →
            run.tracker.devices.reservation key ip = some id)) := by
  simp only [step, answer, tryAcquire_eq_sections]
  split
  · exact ⟨hslots, .inr ⟨rfl, rfl, fun _ _ _ => id⟩⟩
  · cases hip : request.clientIp with
    | none =>
      obtain ⟨hdevices, hadmission⟩ := hslots.admitSession request
      dsimp only
      rw [hdevices]
      rcases hadmission with ⟨hgranted, hnext⟩ | ⟨hrefused, hnext⟩
      · rw [hgranted]
        exact ⟨hnext, .inl ⟨rfl, rfl, fun _ _ _ => .inl⟩⟩
      · rw [hrefused]
        exact ⟨hnext, .inr ⟨rfl, rfl, fun _ _ _ => id⟩⟩
    | some ip =>
      have hguard : request.guard.key = .ip ip := by simp [SessionRequest.guard, hip]
      have hchecked : Slots ⟨(run.tracker.check order now request ip).1, run.live⟩ := hslots
      obtain ⟨hdevices, hadmission⟩ := hchecked.admitSession request
      have hadded : ∀ key address id,
          (run.tracker.check order now request ip).1.devices.reservation key address = some id →
          run.tracker.devices.reservation key address = some id ∨
            ((run.tracker.check order now request ip).2 = true ∧
              key = request.guard.place ∧ address = ip ∧ id = request.user.id) :=
        fun _ _ _ hafter => reservation_of_check hafter
      dsimp only at hdevices hadmission ⊢
      generalize run.tracker.check order now request ip = checked
        at hdevices hadmission hadded hchecked ⊢
      split
      next hrejected =>
        refine ⟨hchecked, .inr ⟨rfl, rfl, fun key address id hafter => ?_⟩⟩
        rcases hadded key address id hafter with hpre | ⟨haccepted, -⟩
        · exact hpre
        · simp [haccepted] at hrejected
      · rcases hadmission with ⟨hgranted, hnext⟩ | ⟨hrefused, hnext⟩
        · rw [hgranted]
          refine ⟨hnext, .inl ⟨rfl, rfl, fun key address id hafter => ?_⟩⟩
          dsimp only at hafter
          rw [hdevices] at hafter
          rcases hadded key address id hafter with hpre | ⟨-, hkey, haddress, hid⟩
          · exact .inl hpre
          · exact .inr ⟨hkey.symm, haddress ▸ hguard, hid⟩
        · rw [hrefused]
          refine ⟨hnext, .inr ⟨rfl, rfl, fun key address id hafter => ?_⟩⟩
          -- What the check reserved is removed again.
          simp only [removePending, hdevices, reservation_removePendingIp] at hafter
          split at hafter
          · simp at hafter
          next hkept =>
            rcases hadded key address id hafter with hpre | ⟨-, hkey, haddress, hid⟩
            · exact hpre
            · exact absurd ⟨hkey, haddress, hid ▸ hafter⟩ hkept

theorem drop_spec (hslots : run.Slots) {guard : UserSessionGuard} (hlive : guard ∈ run.live) :
    let next := run.step order (.drop guard)
    next.Slots ∧ next.live = run.live.erase guard ∧
      ∀ key ip, next.tracker.devices.reservation key ip =
        if key = guard.place ∧ guard.key = .ip ip ∧
            .ip ip ∉ guardKeys (run.live.erase guard) guard.userUuid ∧
            run.tracker.devices.reservation key ip = some guard.userId
        then none else run.tracker.devices.reservation key ip := by
  intro next
  have hnext : next = ⟨run.tracker.dropGuard guard, run.live.erase guard⟩ := if_pos hlive
  have hkeys := fun uuid => (hslots uuid).perm (guardKeys_erase hlive uuid)
  have hown := hkeys guard.userUuid
  rw [guardKeys_cons, if_pos rfl] at hown
  have hactive : Slots ⟨(run.tracker.release guard).1, run.live.erase guard⟩ := by
    intro uuid
    by_cases huuid : uuid = guard.userUuid
    · subst huuid
      exact release_slots _ hown.release
    · have hother := hkeys uuid
      rw [guardKeys_cons, if_neg fun h => huuid h.symm] at hother
      dsimp only
      rw [release_other _ huuid]
      exact hother
  have hdevices : (run.tracker.release guard).1.devices = run.tracker.devices := by
    unfold UserSessionTracker.release
    split <;> rfl
  have haddress := release_address run.tracker hown
  rw [hnext, dropGuard_eq_sections]
  generalize run.tracker.release guard = released at hactive hdevices haddress ⊢
  obtain ⟨tracker, address⟩ := released
  dsimp only at hactive hdevices haddress ⊢
  cases hkey : guard.key with
  | anonymous =>
    rw [hkey] at haddress
    simp only [UserSessionKey.address, filter_none] at haddress
    subst haddress
    exact ⟨hactive, rfl, fun key ip => by simp [hdevices]⟩
  | ip owned =>
    rw [hkey] at haddress
    simp only [UserSessionKey.address, filter_some] at haddress
    by_cases hlast : .ip owned ∉ guardKeys (run.live.erase guard) guard.userUuid
    · rw [if_pos (by simpa using hlast)] at haddress
      subst haddress
      refine ⟨hactive, rfl, fun key ip => ?_⟩
      simp only [removePending, reservation_removePendingIp, hdevices,
        UserSessionGuard.place, UserSessionKey.ip.injEq]
      by_cases hip : ip = owned
      · subst hip
        simp [hlast]
      · have hne : ¬ owned = ip := fun h => hip h.symm
        simp [hip, hne]
    · rw [if_neg (by simpa using hlast)] at haddress
      subst haddress
      refine ⟨hactive, rfl, fun key ip => ?_⟩
      rw [if_neg, hdevices]
      rintro ⟨-, hip, habsent, -⟩
      cases hip
      exact hlast habsent

theorem Slots.step (hslots : run.Slots) (move : TrackerMove) : (run.step order move).Slots := by
  cases move with
  | acquire now request => exact (acquire_spec hslots now request).1
  | drop guard =>
    by_cases hlive : guard ∈ run.live
    · exact (drop_spec hslots hlive).1
    · simpa only [TrackerRun.step, if_neg hlive] using hslots
  | report now records | pull now snapshot => exact hslots

/-- A step keeps every reservation with a live guard exactly if it is not a
drop that leaves one behind. -/
theorem reserved_step_iff (hslots : run.Slots) (hreserved : run.Reserved) (move : TrackerMove) :
    run.Releases move ↔ (run.step order move).Reserved := by
  cases move with
  | acquire now request =>
    simp only [Releases, true_iff]
    intro key ip id hafter
    obtain ⟨-, ⟨-, hlive, hadded⟩ | ⟨-, hlive, hkept⟩⟩ := @acquire_spec order run hslots now request
    · rw [hlive]
      rcases hadded key ip id hafter with hpre | ⟨hplace, hkey, -⟩
      · obtain ⟨guard, hguard, hholds⟩ := hreserved key ip id hpre
        exact ⟨guard, .tail _ hguard, hholds⟩
      · exact ⟨request.guard, mem_cons_self, hplace, hkey⟩
    · rw [hlive]
      exact hreserved key ip id (hkept key ip id hafter)
  | report now records =>
    simp only [Releases, true_iff]
    intro key ip id hafter
    exact hreserved key ip id (@reservation_of_commit
      (run.tracker.devices.pruneReported now) key ip id now records hafter)
  | pull now snapshot =>
    simp only [Releases, true_iff]
    exact hreserved
  | drop guard =>
    by_cases hlive : guard ∈ run.live
    · obtain ⟨-, hrest, hafter⟩ := @drop_spec order run hslots guard hlive
      constructor
      · intro hreleases key ip id hreservation
        rw [hrest]
        rw [hafter] at hreservation
        split at hreservation
        · simp at hreservation
        next hkept =>
          obtain ⟨holder, hholder, hplace, hkey⟩ := hreserved key ip id hreservation
          by_cases hsame : guard.place = key ∧ guard.key = .ip ip
          · obtain ⟨rfl, hip⟩ := hsame
            rcases hreleases hlive ip (by simp [hip, UserSessionKey.address])
              id hreservation with hother | ⟨hid, hlast⟩
            · exact hother
            · exact absurd ⟨rfl, hip, hlast, hid ▸ hreservation⟩ hkept
          · have hne : holder ≠ guard := by
              rintro rfl
              exact hsame ⟨hplace, hkey⟩
            exact ⟨holder, (mem_erase_of_ne hne).2 hholder, hplace, hkey⟩
      · intro hnext _ ip hip id hreservation
        have hkey : guard.key = .ip ip := by
          cases hguard : guard.key with
          | anonymous => simp [hguard, UserSessionKey.address] at hip
          | ip owned =>
            simp only [hguard, UserSessionKey.address, Option.mem_def, Option.some.injEq] at hip
            rw [hip]
        by_cases hgone : id = guard.userId ∧
            .ip ip ∉ guardKeys (run.live.erase guard) guard.userUuid
        · exact .inr hgone
        · left
          have hstays := hafter guard.place ip
          rw [if_neg, hreservation] at hstays
          · rw [← hrest]
            exact hnext guard.place ip id hstays
          · rintro ⟨-, -, hlast, hid⟩
            rw [hreservation, Option.some.injEq] at hid
            exact hgone ⟨hid, hlast⟩
    · simp only [Releases, hlive, false_imp_iff, true_iff, TrackerRun.step,
        if_neg, not_false_eq_true]
      exact hreserved

/-- A tracker with the same known devices in which nobody has a session. -/
def withoutSessions (tracker : UserSessionTracker) : UserSessionTracker where
  devices := { tracker.devices with pending := ∅ }

theorem answer_eq (now : Nat) (tracker : UserSessionTracker) (request : SessionRequest) :
    answer order now tracker request = if request.user.deviceLimit = 0 then some none
      else if ∀ ip ∈ request.clientIp, (checkDeviceLimitIp order now tracker.devices request.nodeTag
            request.user ip request.policy).2 = true then
        (tracker.admitSession request).2.map some
      else none := by
  rw [answer, tryAcquire_eq_sections]
  split
  · rfl
  · cases hip : request.clientIp with
    | none => simp
    | some ip =>
      simp only [Option.mem_def, Option.some.injEq, forall_eq']
      have hadmit : ((tracker.check order now request ip).1.admitSession
          request).2 = (tracker.admitSession request).2 := admit_snd_congr rfl
      rw [← hadmit]
      change _ = if (tracker.check order now request ip).2 = true then _ else none
      generalize tracker.check order now request ip = checked
      cases hchecked : checked.2 with
      | false => simp
      | true => cases hadmitted : (checked.1.admitSession request).2 <;> simp

/-- No live guard of the user, and none that shares the key of the request. -/
def Gone (run : TrackerRun) (request : SessionRequest) : Prop :=
  ∀ guard ∈ run.live, guard.userUuid ≠ request.user.uuid ∧ guard.place ≠ request.guard.place

theorem Gone.nothing_left {request : SessionRequest} (hgone : run.Gone request)
    (hslots : run.Slots) (hreserved : run.Reserved) :
    (run.tracker.active.lookup request.user.uuid).getD {} = {} ∧ run.tracker.devices.pendingIps
        (deviceLimitUserKey request.nodeTag request.user.uuid) = ∅ := by
  constructor
  · have hkeys : guardKeys run.live request.user.uuid = [] := by
      rw [eq_nil_iff_forall_not_mem]
      intro key hkey
      obtain ⟨guard, hguard, huuid, -⟩ := mem_guardKeys.1 hkey
      exact (hgone guard hguard).1 huuid
    have hstate := hslots request.user.uuid
    rw [hkeys] at hstate
    exact hstate.eq_empty
  · apply ext_lookup
    intro ip
    rw [lookup_empty, ← not_isSome_iff_eq_none, isSome_iff_exists]
    rintro ⟨id, hid⟩
    obtain ⟨guard, hguard, hplace, -⟩ := hreserved _ ip id hid
    exact (hgone guard hguard).2 hplace

/-- Reservations that belong to live guards, and acquires of users that are
gone: they are answered as if nobody had a session, and granted where the known
devices leave room. -/
structure NoLeak (run : TrackerRun) : Prop where
  reserved : run.Reserved
  forgotten : ∀ order now request, run.Gone request →
    answer order now run.tracker request = answer order now (withoutSessions run.tracker) request
  granted : ∀ order now request, run.Gone request →
    (run.tracker.devices.pruneReported now).knownDeviceCount request.nodeTag
      request.user.id < request.user.deviceLimit.toNat →
    answer order now run.tracker request = some (some request.guard)

theorem Reserved.noLeak (hreserved : run.Reserved) (hslots : run.Slots) : run.NoLeak where
  reserved := hreserved
  forgotten order now request hgone := by
    obtain ⟨hstate, hnone⟩ := hgone.nothing_left hslots hreserved
    have hadmit : (run.tracker.admitSession request).2 =
        ((withoutSessions run.tracker).admitSession request).2 :=
      admit_snd_congr hstate
    have hcheck : ∀ ip, (checkDeviceLimitIp order now run.tracker.devices request.nodeTag
          request.user ip request.policy).2 =
        (checkDeviceLimitIp order now (withoutSessions run.tracker).devices
          request.nodeTag request.user ip request.policy).2 := by
      intro ip
      rw [Bool.eq_iff_iff, check_accepts_of_none hnone, check_accepts_of_none rfl]
      rfl
    simp only [answer_eq, hadmit, hcheck]
  granted order now request hgone hroom := by
    obtain ⟨hstate, hnone⟩ := hgone.nothing_left hslots hreserved
    have hlimit : request.user.deviceLimit ≠ 0 := by
      rintro hzero
      simp [hzero] at hroom
    have hslot : SlotsCount ((run.tracker.active.lookup request.user.uuid).getD {}) [] := by
      rw [hstate]
      exact SlotsCount.empty
    obtain ⟨-, -, ⟨hgranted, -⟩ | ⟨-, -, hfull⟩⟩ := admit_spec run.tracker request hslot
    · rw [answer_eq, if_neg hlimit, if_pos, hgranted]
      · rfl
      · intro ip _
        exact (check_accepts_of_none hnone).2 (.inr (.inl hroom))
    · simp only [deviceTotal, filterMap_nil, toFinset_nil,
        Finset.card_empty, count_nil, Nat.add_zero] at hfull
      omega

end TrackerRun

open TrackerRun

/-- The runs without a leaked reservation are those in which every drop
releases what it should. -/
theorem reservations_belong_iff (order : HashOrder IpAddr UInt64) (moves : List TrackerMove) :
    Run.Meets (step order) Releases {} moves ↔
      ∀ past, past <+: moves → NoLeak (Run.exec (step order) {} past) := by
  have hslots : Slots {} := fun _ => SlotsCount.empty
  have hreserved : Reserved {} := by
    intro key ip id hid
    simp [reservation_eq_bind] at hid
  refine @Run.meets_iff_always _ _ (step order) Releases
    (fun run => run.Slots ∧ run.Reserved) NoLeak
    (fun run hrun => hrun.2.noLeak hrun.1) ?_ ?_ {} ⟨hslots, hreserved⟩ moves
  · intro run move hrun hreleases
    exact ⟨hrun.1.step move, (reserved_step_iff hrun.1 hrun.2 move).1 hreleases⟩
  · intro run move hrun hleaves hnext
    exact hleaves ((reserved_step_iff hrun.1 hrun.2 move).2 hnext.reserved)

namespace Sample

/-- An acquire of a user with one device, on a node and from an address. -/
def acquireOn (nodeTag : String) (last : BitVec 32) : TrackerMove :=
  .acquire 0
    { nodeTag, user := { id := 1, uuid := "alice", deviceLimit := 1 }
      clientIp := some (.v4 last) }

def guardOn (nodeTag : String) (last : BitVec 32) : UserSessionGuard :=
  ⟨"alice", nodeTag, 1, .ip (.v4 last)⟩

/-- One address on two nodes; both guards are dropped. -/
def twoNodes : List TrackerMove :=
  [acquireOn "a" 1, acquireOn "b" 1, .drop (guardOn "a" 1), .drop (guardOn "b" 1)]

end Sample

open Sample

/-- The guard on the first node leaves its reservation behind, and it keeps
Alice from coming back to that node from another address. -/
theorem dropped_guard_leaves_reservation :
    let run := Run.exec (step Finmap.sortedOrder) {} twoNodes
    run.live = [] ∧ run.tracker.devices.reservation "a|alice" (.v4 1) = some 1 ∧
      (step Finmap.sortedOrder run (acquireOn "a" 2)).live = [] ∧
      ¬ run.NoLeak := by
  intro run
  have hlive : run.live = [] := by decide +kernel
  have hleft : run.tracker.devices.reservation "a|alice" (.v4 1) = some 1 := by decide +kernel
  refine ⟨hlive, hleft, by decide +kernel, fun hrun => ?_⟩
  obtain ⟨guard, hguard, -⟩ := hrun.reserved _ _ _ hleft
  simp [hlive] at hguard

end KeliCore
