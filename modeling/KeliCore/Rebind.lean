/-
One user on one node whose acquires tolerate a rebind.  A device check decides
by reservations and known devices; a reservation that is recycled leaves a live
guard that no longer counts.  The bound on live addresses holds as long as such
guards are covered by known devices.
-/
import KeliCore.Reservations

namespace KeliCore

open Finmap DeviceLimitRuntimeState UserSessionTracker List

namespace TrackerRun

def liveAddresses (run : TrackerRun) : Finset IpAddr :=
  (run.live.filterMap fun guard => guard.key.address).toFinset

variable (order : HashOrder IpAddr UInt64) (nodeTag : String) (user : CoreUser)

def tolerant (clientIp : Option IpAddr) : SessionRequest where
  nodeTag := nodeTag
  user := user
  clientIp := clientIp
  policy := { udpRebindTolerant := true }

/-- The same move with every acquire a tolerant one of the user. -/
def tolerate : TrackerMove → TrackerMove
  | .acquire now request => .acquire now (tolerant nodeTag user request.clientIp)
  | .drop guard => .drop guard
  | .report now records => .report now records
  | .pull now snapshot => .pull now snapshot

def tolerantStep (run : TrackerRun) (move : TrackerMove) : TrackerRun :=
  run.step order (tolerate nodeTag user move)

/-- A reservation of the user that the device check counts. -/
def countsAsNew (devices : DeviceLimitRuntimeState) (ip : IpAddr) : Bool :=
  devices.reservation (deviceLimitUserKey nodeTag user.uuid) ip ==
      some user.id && !devices.isKnownAliveIp nodeTag user.id ip

/-- The live addresses that the device check does not count as new. -/
def uncounted (devices : DeviceLimitRuntimeState) (run : TrackerRun) : Finset IpAddr :=
  run.liveAddresses.filter fun ip => ¬ countsAsNew nodeTag user devices ip

/-- A new address comes only while the known devices cover the uncounted live
addresses, with the one whose reservation is recycled for it; an address that is
known alive comes only while the limit covers what is counted. -/
def Covered (run : TrackerRun) : TrackerMove → Prop
  | .acquire now request => ∀ ip ∈ request.clientIp, ip ∉ run.liveAddresses →
      let devices := run.tracker.devices.pruneReported now
      let limit := user.deviceLimit.toNat
      let known := devices.knownDeviceCount nodeTag user.id
      let pendingNew := devices.pendingNewIpCount
        (deviceLimitUserKey nodeTag user.uuid) nodeTag user.id
      let uncounted := (uncounted nodeTag user devices run).card
      if devices.isKnownAliveIp nodeTag user.id ip then
        uncounted ≤ known ∧ known + pendingNew ≤ limit
      else if 0 < known ∧ 0 < pendingNew ∧ limit ≤ known + pendingNew then
        uncounted + 1 ≤ known
      else uncounted ≤ known
  | .drop _ | .report .. | .pull .. => True

instance (run : TrackerRun) : ∀ move, Decidable (run.Covered nodeTag user move)
  | .acquire .. => by unfold Covered; infer_instance
  | .drop _ | .report .. | .pull .. => isTrue trivial

/-- What holds in every run of one user on one node. -/
structure OneUser (run : TrackerRun) : Prop where
  slots : run.Slots
  reserved : run.Reserved
  guards : ∀ guard ∈ run.live, guard.nodeTag = nodeTag ∧
    guard.userUuid = user.uuid ∧ guard.userId = user.id
  ids : ∀ key ip id, run.tracker.devices.reservation key ip = some id → id = user.id

variable {order nodeTag user} {run : TrackerRun} {ip : IpAddr}

theorem mem_liveAddresses {guard : UserSessionGuard}
    (hlive : guard ∈ run.live) (hkey : guard.key = .ip ip) : ip ∈ run.liveAddresses := by
  simp only [liveAddresses, mem_toFinset, mem_filterMap]
  exact ⟨guard, hlive, by rw [hkey]; rfl⟩

section

variable (hone : run.OneUser nodeTag user)

include hone

/-- With one user on one node, no drop leaves a reservation behind. -/
theorem OneUser.releases : ∀ move, run.Releases move
  | .acquire .. | .report .. | .pull .. => trivial
  | .drop guard => by
      intro hlive ip hip id hreservation
      obtain ⟨hnode, huuid, hid⟩ := hone.guards guard hlive
      by_cases hlast : .ip ip ∈ guardKeys (run.live.erase guard) guard.userUuid
      · obtain ⟨other, hother, -, hkey⟩ := mem_guardKeys.1 hlast
        obtain ⟨hnode', huuid', -⟩ := hone.guards other (mem_of_mem_erase hother)
        refine .inl ⟨other, hother, ?_, hkey⟩
        simp only [UserSessionGuard.place, hnode, huuid, hnode', huuid']
      · exact .inr ⟨(hone.ids _ _ _ hreservation).trans hid.symm, hlast⟩

theorem OneUser.step (move : TrackerMove) :
    (run.tolerantStep order nodeTag user move).OneUser nodeTag user := by
  unfold tolerantStep
  have hslots : (run.step order (tolerate nodeTag user move)).Slots := hone.slots.step _
  have hreserved : (run.step order (tolerate nodeTag user move)).Reserved :=
    (reserved_step_iff hone.slots hone.reserved _).1 (hone.releases _)
  cases move with
  | acquire now request =>
    obtain ⟨-, ⟨-, hlive, hadded⟩ | ⟨-, hlive, hkept⟩⟩ :=
      @acquire_spec order run hone.slots now (tolerant nodeTag user request.clientIp)
    · refine ⟨hslots, hreserved, fun guard hguard => ?_, fun key ip id hafter => ?_⟩
      · rw [tolerate, hlive] at hguard
        rcases mem_cons.1 hguard with rfl | hguard
        · exact ⟨rfl, rfl, rfl⟩
        · exact hone.guards guard hguard
      · rcases hadded key ip id hafter with hpre | ⟨-, -, hid⟩
        · exact hone.ids key ip id hpre
        · exact hid
    · refine ⟨hslots, hreserved, fun guard hguard => ?_,
        fun key ip id hafter => hone.ids key ip id (hkept key ip id hafter)⟩
      rw [tolerate, hlive] at hguard
      exact hone.guards guard hguard
  | drop guard =>
    by_cases hlive : guard ∈ run.live
    · obtain ⟨-, hrest, hafter⟩ := @drop_spec order run hone.slots guard hlive
      refine ⟨hslots, hreserved, fun other hother => ?_, fun key ip id hid => ?_⟩
      · rw [tolerate, hrest] at hother
        exact hone.guards other (mem_of_mem_erase hother)
      · rw [tolerate, hafter] at hid
        split at hid
        · simp at hid
        · exact hone.ids key ip id hid
    · simpa only [tolerate, TrackerRun.step, if_neg hlive] using hone
  | report now records =>
    exact ⟨hslots, hreserved, hone.guards, fun key ip id hid =>
      hone.ids key ip id (@reservation_of_commit
        (run.tracker.devices.pruneReported now) key ip id now records hid)⟩
  | pull now snapshot => exact ⟨hslots, hreserved, hone.guards, hone.ids⟩

theorem OneUser.pendingNewIpCount_eq (now : Nat) :
    let devices := run.tracker.devices.pruneReported now
    devices.pendingNewIpCount (deviceLimitUserKey nodeTag user.uuid) nodeTag user.id =
      (run.liveAddresses.filter fun ip => countsAsNew nodeTag user devices ip).card := by
  intro devices
  unfold pendingNewIpCount len
  congr 1
  ext ip
  rw [Finmap.mem_keys, mem_iff, Finset.mem_filter]
  have hcounts : (∃ id, ((devices.pendingIps (deviceLimitUserKey nodeTag
      user.uuid)).retain fun ip pendingId => pendingId == user.id &&
        !devices.isKnownAliveIp nodeTag user.id ip).lookup ip = some id) ↔
      countsAsNew nodeTag user devices ip = true := by
    simp only [lookup_retain, Option.filter_eq_some_iff, countsAsNew,
      reservation, Bool.and_eq_true, beq_iff_eq]
    constructor
    · rintro ⟨id, hid, rfl, halive⟩
      exact ⟨hid, halive⟩
    · rintro ⟨hid, halive⟩
      exact ⟨user.id, hid, rfl, halive⟩
  rw [hcounts, iff_and_self]
  intro hnew
  simp only [countsAsNew, Bool.and_eq_true, beq_iff_eq] at hnew
  obtain ⟨guard, hguard, -, hkey⟩ := hone.reserved _ _ _ hnew.1
  exact mem_liveAddresses hguard hkey

/-- A granted acquire from a new address finds no more live addresses than the
limit allows. -/
theorem OneUser.card_le_of_granted {now : Nat} {request : SessionRequest}
    (hcovered : run.Covered nodeTag user (.acquire now request))
    (hip : request.clientIp = some ip) (hnew : ip ∉ run.liveAddresses)
    (hgranted : answer order now run.tracker (tolerant nodeTag user request.clientIp) =
        some (some (tolerant nodeTag user request.clientIp).guard)) :
    run.liveAddresses.card ≤ user.deviceLimit.toNat := by
  have hcheck : (checkDeviceLimitIp order now run.tracker.devices nodeTag user
      ip { udpRebindTolerant := true }).2 = true := by
    rw [answer_eq] at hgranted
    split at hgranted
    · simp at hgranted
    · split at hgranted
      next hpasses => exact hpasses ip hip
      · simp at hgranted
  have hunreserved : run.tracker.devices.reservation
      (deviceLimitUserKey nodeTag user.uuid) ip ≠ some user.id := by
    intro hreservation
    obtain ⟨guard, hguard, -, hkey⟩ := hone.reserved _ _ _ hreservation
    exact hnew (mem_liveAddresses hguard hkey)
  have hroom := (check_accepts_iff _ rfl).1 hcheck
  have hcover := hcovered ip hip hnew
  have hcount := hone.pendingNewIpCount_eq now
  have hsplit : _ + (uncounted nodeTag user _ run).card = _ :=
    @Finset.card_filter_add_card_filter_not _ run.liveAddresses (fun ip => countsAsNew nodeTag user
        (run.tracker.devices.pruneReported now) ip = true) _ _
  rw [reservation_pruneReported] at hroom
  dsimp only at hroom hcover hcount
  rw [← hcount] at hsplit
  generalize (run.tracker.devices.pruneReported now).knownDeviceCount nodeTag
    user.id = known at hroom hcover
  generalize (run.tracker.devices.pruneReported now).pendingNewIpCount
    (deviceLimitUserKey nodeTag user.uuid) nodeTag user.id = pendingNew at hroom hcover hsplit
  split at hcover
  · omega
  next halive =>
    rcases hroom with hreservation | hknown | hroom
    · exact absurd hreservation hunreserved
    · exact absurd hknown halive
    · -- The counts that pass, with and without a recycled reservation.
      simp only [true_and] at hroom
      split at hcover <;> split at hroom <;> omega

theorem OneUser.bounded_step {move : TrackerMove}
    (hbound : run.liveAddresses.card ≤ user.deviceLimit.toNat + 1)
    (hcovered : run.Covered nodeTag user move) :
    (run.tolerantStep order nodeTag user move).liveAddresses.card ≤ user.deviceLimit.toNat + 1 := by
  unfold tolerantStep
  cases move with
  | acquire now request =>
    obtain ⟨-, ⟨hgranted, hlive, -⟩ | ⟨-, hlive, -⟩⟩ :=
      @acquire_spec order run hone.slots now (tolerant nodeTag user request.clientIp)
    · rw [tolerate, liveAddresses, hlive, filterMap_cons]
      cases hip : request.clientIp with
      | none => exact hbound
      | some ip =>
        change (ip :: run.live.filterMap _).toFinset.card ≤ _
        rw [toFinset_cons, ← liveAddresses]
        by_cases hmem : ip ∈ run.liveAddresses
        · rw [Finset.insert_eq_of_mem hmem]
          exact hbound
        · rw [Finset.card_insert_of_notMem hmem]
          have hroom := hone.card_le_of_granted hcovered hip hmem hgranted
          omega
    · rw [tolerate, liveAddresses, hlive]
      exact hbound
  | drop guard =>
    by_cases hlive : guard ∈ run.live
    · obtain ⟨-, hrest, -⟩ := @drop_spec order run hone.slots guard hlive
      rw [tolerate, liveAddresses, hrest]
      refine le_trans (Finset.card_le_card fun ip hip => ?_) hbound
      obtain ⟨other, hother, haddress⟩ := mem_filterMap.1 (mem_toFinset.1 hip)
      exact mem_toFinset.2 (mem_filterMap.2 ⟨other, mem_of_mem_erase hother, haddress⟩)
    · simpa only [tolerate, TrackerRun.step, if_neg hlive] using hbound
  | report now records | pull now snapshot => exact hbound

end

end TrackerRun

open TrackerRun

/-- In every run in which new addresses come only while the uncounted live ones
are covered, there is at most one live address more than the limit. -/
theorem rebind_addresses_bounded (order : HashOrder IpAddr UInt64)
    (nodeTag : String) (user : CoreUser) (moves : List TrackerMove)
    (hmeets : Run.Meets (tolerantStep order nodeTag user) (Covered nodeTag user) {} moves) :
    (Run.exec (tolerantStep order nodeTag user) {} moves).liveAddresses.card ≤
      user.deviceLimit.toNat + 1 := by
  have hstart : OneUser nodeTag user {} :=
    ⟨fun _ => SlotsCount.empty, fun key ip id hid => by simp [reservation_eq_bind] at hid, by simp,
      fun key ip id hid => by simp [reservation_eq_bind] at hid⟩
  have hrun := @Run.exec_invariant _ _ (tolerantStep order nodeTag user) (Covered nodeTag user)
    (fun run => run.OneUser nodeTag user ∧
      run.liveAddresses.card ≤ user.deviceLimit.toNat + 1) (fun run move hrun hcovered =>
      ⟨hrun.1.step move, hrun.1.bounded_step hrun.2 hcovered⟩)
    {} ⟨hstart, by simp [liveAddresses]⟩ moves hmeets
  exact hrun.2

namespace Sample

/-- The panel counts one device of Alice as alive. -/
def oneAlive : TrackerMove :=
  .pull 0 { nodeTag := "a", alive := Finmap.collect [(1, 1)] }

def aliceOne : CoreUser := { id := 1, uuid := "alice", deviceLimit := 1 }

/-- Alice comes from new addresses, one after the other. -/
def rebinds (addresses : List (BitVec 32)) : List TrackerMove :=
  oneAlive :: addresses.map (acquireOn "a")

def rebound (addresses : List (BitVec 32)) : TrackerRun :=
  Run.exec (tolerantStep Finmap.sortedOrder "a" aliceOne) {} (rebinds addresses)

end Sample

open Sample

theorem rebind_addresses_bounded_twice : (rebound [1, 2]).live.length = 2 ∧
      (rebound [1, 2]).liveAddresses.card ≤ 1 + 1 :=
  ⟨by decide +kernel, rebind_addresses_bounded sortedOrder "a"
    aliceOne (rebinds [1, 2]) (by decide +kernel)⟩

/-- Each rebind recycles the reservation of the one before, whose guard lives
on. -/
theorem third_rebind_exceeds_limit :
    ¬ (rebound [1, 2, 3]).liveAddresses.card ≤ aliceOne.deviceLimit.toNat + 1 := by
  decide +kernel

end KeliCore
