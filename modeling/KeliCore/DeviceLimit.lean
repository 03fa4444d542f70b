/-
The device limit under concurrent acquires, drops and revocations.  A run
takes the sections of the tracker's operations in any order the locks allow.
A session is fresh as long as its user has not been revoked since it was
admitted; the slots of a user are meant for its fresh sessions.
-/
import KeliCore.Run
import KeliCore.Sessions

namespace KeliCore

open Finmap Tally UserSessionTracker

/-- A session that has not been dropped, and whether its user has not been
revoked since it was admitted. -/
structure LiveSession where
  guard : UserSessionGuard
  fresh : Bool
deriving DecidableEq

/-- A call of `remove_pending_ip_for_user` that waits for the device lock. -/
structure PendingRemoval where
  nodeTag : String
  userUuid : String
  userId : UInt64
  ip : IpAddr
deriving DecidableEq

/-- The tracker, the operations under way, and the live sessions. -/
structure SessionRun where
  tracker : UserSessionTracker := {}
  /-- Acquires that have passed the device check. -/
  waiting : List SessionRequest := []
  removing : List PendingRemoval := []
  live : List LiveSession := []

/-- The next section to run.  Those of `revoke_users` and `sync_users` may come
at any time and in any order. -/
inductive SessionMove where
  | enter (now : Nat) (request : SessionRequest)
  | admitSession (request : SessionRequest)
  | release (session : LiveSession)
  | removePending (removal : PendingRemoval)
  | forget (uuid : String)
  | forgetPending (uuids : List String)
  | retainShard (users : List CoreUser) (shard : Nat)
  | retainPending (users : List CoreUser)

namespace SessionRun

/-- The users that are revoked lose the freshness of their sessions. -/
def revoke (revoked : String → Bool) (live : List LiveSession) : List LiveSession :=
  live.map fun session =>
    { session with
      fresh := session.fresh && !revoked session.guard.userUuid }

/-- The admission of an acquire. -/
def admitted (run : SessionRun) (request : SessionRequest) : SessionRun :=
  let admission := run.tracker.admitSession request
  match admission.2, request.clientIp with
  | some guard, _ =>
    { run with
      tracker := admission.1, live := ⟨guard, true⟩ :: run.live }
  | none, none => { run with tracker := admission.1 }
  | none, some ip =>
    { run with
      tracker := admission.1
      removing := ⟨request.nodeTag, request.user.uuid, request.user.id, ip⟩ :: run.removing }

/-- A request under the strict policy and with the user's fixed limit. -/
def strict (limits : String → UInt32) (request : SessionRequest) :
    SessionRequest :=
  { request with
    user := { request.user with deviceLimit := limits request.user.uuid }
    policy := { udpRebindTolerant := false } }

variable (order : HashOrder IpAddr UInt64) (shardOf : String → Nat)
    (limits : String → UInt32)

def step (run : SessionRun) : SessionMove → SessionRun
  | .enter now request =>
    let request := strict limits request
    if request.user.deviceLimit = 0 then run
    else
      match request.clientIp with
      | none => run.admitted request
      | some ip =>
        let checked := run.tracker.check order now request ip
        { run with
          tracker := checked.1
          waiting := if checked.2 then request :: run.waiting
            else run.waiting }
  | .admitSession request =>
    if request ∈ run.waiting then
      { run with waiting := run.waiting.erase request }.admitted request
    else run
  | .release session =>
    if session ∈ run.live then
      let guard := session.guard
      let released := run.tracker.release guard
      { run with
        tracker := released.1
        live := run.live.erase session
        removing := (released.2.map fun ip => ⟨guard.nodeTag,
          guard.userUuid, guard.userId, ip⟩).toList ++ run.removing }
    else run
  | .removePending removal =>
    if removal ∈ run.removing then
      { run with
        tracker := run.tracker.removePending removal.nodeTag
          removal.userUuid removal.userId removal.ip
        removing := run.removing.erase removal }
    else run
  | .forget uuid =>
    { run with
      tracker := run.tracker.forget uuid
      live := revoke (· == uuid) run.live }
  | .forgetPending uuids => { run with tracker := run.tracker.forgetPending uuids }
  | .retainShard users shard =>
    { run with
      tracker := run.tracker.retainShard shardOf users shard
      live := revoke (fun uuid => shardOf uuid == shard &&
        decide (uuid ∉ users.map CoreUser.uuid)) run.live }
  | .retainPending users => { run with tracker := run.tracker.retainPending users }

def freshKeys (live : List LiveSession) (uuid : String) : List UserSessionKey :=
  (live.filter fun session =>
    session.fresh && session.guard.userUuid == uuid).map fun session => session.guard.key

/-- A session of a revoked user is dropped only while no fresh session of that
user has its key. -/
def DropsApart (run : SessionRun) (move : SessionMove) : Prop :=
  ∀ session, move = .release session → session.fresh = false →
    session.guard.key ∉ freshKeys run.live session.guard.userUuid

instance (run : SessionRun) (move : SessionMove) : Decidable (run.DropsApart move) :=
  match move with
  | .release session =>
    decidable_of_iff (session.fresh = false →
        session.guard.key ∉ freshKeys run.live session.guard.userUuid)
      ⟨fun hdrop _ heq => by cases heq; exact hdrop, fun hapart => hapart session rfl⟩
  | .enter .. | .admitSession _ | .removePending _ | .forget _ | .forgetPending _
  | .retainShard .. | .retainPending _ => isTrue (by simp [DropsApart])

/-- The slots count the fresh sessions, within the limits. -/
structure Counted (run : SessionRun) : Prop where
  slots : ∀ uuid, SlotsCount ((run.tracker.active.lookup uuid).getD {}) (freshKeys run.live uuid)
  limit : ∀ uuid, deviceTotal (freshKeys run.live uuid) ≤ (limits uuid).toNat
  waiting : ∀ request ∈ run.waiting, request = strict limits request

section Fresh

variable {live : List LiveSession}

theorem freshKeys_cons (session : LiveSession) (uuid : String) :
    freshKeys (session :: live) uuid = if session.fresh = true ∧ session.guard.userUuid = uuid then
        session.guard.key :: freshKeys live uuid
      else freshKeys live uuid := by
  by_cases hfresh : session.fresh = true ∧ session.guard.userUuid = uuid
  · simp [freshKeys, hfresh]
  · have hnot : (session.fresh && session.guard.userUuid == uuid) = false := by simpa using hfresh
    rw [if_neg hfresh]
    simp [freshKeys, hnot]

theorem freshKeys_erase {session : LiveSession} (hlive : session ∈ live) (uuid : String) :
    (freshKeys live uuid).Perm (freshKeys (session :: live.erase session) uuid) :=
  ((List.perm_cons_erase hlive).filter _).map _

theorem freshKeys_revoke (revoked : String → Bool) (uuid : String) :
    freshKeys (revoke revoked live) uuid = if revoked uuid then [] else freshKeys live uuid := by
  induction live with
  | nil => simp [freshKeys, revoke]
  | cons session live ih =>
    rw [revoke, List.map_cons, ← revoke, freshKeys_cons, freshKeys_cons, ih]
    by_cases huuid : session.guard.userUuid = uuid
    · subst huuid
      cases revoked session.guard.userUuid <;> simp
    · simp [huuid]

end Fresh

namespace Counted

variable {order : HashOrder IpAddr UInt64} {shardOf : String → Nat} {limits : String → UInt32}
  {run : SessionRun}

theorem admitted {request : SessionRequest} (hcounted : Counted limits run)
    (hstrict : request = strict limits request) : Counted limits (run.admitted request) := by
  have hpolicy : request.policy.udpRebindTolerant = false := by rw [hstrict]; rfl
  have hdevice : request.user.deviceLimit = limits request.user.uuid := by
    rw [hstrict]
    rfl
  have hlimit := hcounted.limit request.user.uuid
  rw [← hdevice] at hlimit
  obtain ⟨state, htracker, hadmission⟩ :=
    admit_spec run.tracker request (hcounted.slots request.user.uuid)
  have hrest : ∀ uuid, uuid ≠ request.user.uuid →
      (run.tracker.admitSession request).1.active.lookup uuid = run.tracker.active.lookup uuid := by
    intro uuid hne
    rw [htracker]
    exact lookup_insert_of_ne _ hne
  have hown : (run.tracker.admitSession request).1.active.lookup
      request.user.uuid = some state := by
    rw [htracker]
    exact lookup_insert _
  unfold SessionRun.admitted
  dsimp only
  rcases hadmission with ⟨hgranted, hslots, htotal⟩ | ⟨hrefused, hslots, -⟩
  · rw [hgranted]
    refine ⟨fun uuid => ?_, fun uuid => ?_, hcounted.waiting⟩
    · simp only [freshKeys_cons, true_and]
      by_cases huuid : request.guard.userUuid = uuid
      · rw [if_pos huuid, ← huuid]
        change SlotsCount (((run.tracker.admitSession request).1.active.lookup
          request.user.uuid).getD {}) _
        rw [hown]
        exact hslots
      · rw [if_neg huuid, hrest uuid (Ne.symm huuid)]
        exact hcounted.slots uuid
    · simp only [freshKeys_cons, true_and]
      by_cases huuid : request.guard.userUuid = uuid
      · rw [if_pos huuid, ← huuid]
        change _ ≤ (limits request.user.uuid).toNat
        rw [← hdevice]
        exact htotal hpolicy hlimit
      · rw [if_neg huuid]
        exact hcounted.limit uuid
  · have hkept : ∀ uuid, SlotsCount
        (((run.tracker.admitSession request).1.active.lookup uuid).getD {})
        (freshKeys run.live uuid) := by
      intro uuid
      by_cases huuid : uuid = request.user.uuid
      · rw [huuid, hown]
        exact hslots
      · rw [hrest uuid huuid]
        exact hcounted.slots uuid
    rw [hrefused]
    cases request.clientIp with
    | none | some ip => exact ⟨hkept, hcounted.limit, hcounted.waiting⟩

/-- Dropping a fresh session, or a stale one whose key is not in use. -/
theorem release {session : LiveSession} (hcounted : Counted limits run) (hlive : session ∈ run.live)
    (hapart : session.fresh = false →
      session.guard.key ∉ freshKeys run.live session.guard.userUuid) :
    Counted limits (step order shardOf limits run (.release session)) := by
  simp only [step, if_pos hlive]
  have hperm := fun uuid => freshKeys_erase hlive uuid
  refine ⟨fun uuid => ?_, fun uuid => ?_, hcounted.waiting⟩
  · have hslots := (hcounted.slots uuid).perm (hperm uuid)
    rw [freshKeys_cons] at hslots
    by_cases huuid : uuid = session.guard.userUuid
    · subst huuid
      apply release_slots
      cases hfresh : session.fresh with
      | true =>
        rw [if_pos ⟨hfresh, rfl⟩] at hslots
        exact hslots.release
      | false =>
        rw [if_neg (by simp [hfresh])] at hslots
        rw [(hcounted.slots _).release_absent (hapart hfresh)]
        exact hslots
    · rw [if_neg (fun h => huuid h.2.symm)] at hslots
      rw [release_other _ huuid]
      exact hslots
  · have hlimit := hcounted.limit uuid
    have htotal : deviceTotal (freshKeys run.live uuid) =
        deviceTotal (freshKeys (session :: run.live.erase session) uuid) := by
      have hslots := hcounted.slots uuid
      rw [← hslots.deviceCount_eq, ← (hslots.perm (hperm uuid)).deviceCount_eq]
    rw [htotal, freshKeys_cons] at hlimit
    split at hlimit
    · exact (deviceTotal_le_cons _ _).trans hlimit
    · exact hlimit

/-- Revoked users lose their slots and the freshness of their sessions. -/
theorem revoke {revoked : String → Bool} (hcounted : Counted limits run)
    {tracker : UserSessionTracker} (hgone : ∀ uuid, revoked uuid = true →
      tracker.active.lookup uuid = none) (hkept : ∀ uuid, revoked uuid = false →
      tracker.active.lookup uuid = run.tracker.active.lookup uuid) :
    Counted limits { run with tracker, live := SessionRun.revoke revoked run.live } := by
  refine ⟨fun uuid => ?_, fun uuid => ?_, hcounted.waiting⟩
  · rw [freshKeys_revoke]
    cases hrevoked : revoked uuid with
    | true =>
      rw [hgone uuid hrevoked, if_pos rfl]
      exact SlotsCount.empty
    | false =>
      rw [hkept uuid hrevoked, if_neg Bool.false_ne_true]
      exact hcounted.slots uuid
  · rw [freshKeys_revoke]
    split
    · simp [deviceTotal]
    · exact hcounted.limit uuid

theorem step (hcounted : Counted limits run) {move : SessionMove} (hapart : DropsApart run move) :
    Counted limits (SessionRun.step order shardOf limits run move) := by
  cases move with
  | enter now request =>
    have hstrict : SessionRun.strict limits request =
        SessionRun.strict limits (SessionRun.strict limits request) := rfl
    simp only [SessionRun.step]
    split
    · exact hcounted
    · split
      · exact hcounted.admitted hstrict
      · refine ⟨hcounted.slots, hcounted.limit, fun waiting hwaiting => ?_⟩
        simp only at hwaiting
        split at hwaiting
        · rcases List.mem_cons.1 hwaiting with rfl | hwaiting
          · exact hstrict
          · exact hcounted.waiting waiting hwaiting
        · exact hcounted.waiting waiting hwaiting
  | admitSession request =>
    simp only [SessionRun.step]
    split
    next hwaiting =>
      have hrest : Counted limits { run with waiting := run.waiting.erase request } :=
        ⟨hcounted.slots, hcounted.limit, fun other hother =>
          hcounted.waiting other (List.mem_of_mem_erase hother)⟩
      exact hrest.admitted (hcounted.waiting request hwaiting)
    · exact hcounted
  | release session =>
    by_cases hlive : session ∈ run.live
    · exact hcounted.release hlive (hapart session rfl)
    · simpa [SessionRun.step, hlive] using hcounted
  | removePending removal =>
    simp only [SessionRun.step]
    split
    · exact ⟨hcounted.slots, hcounted.limit, hcounted.waiting⟩
    · exact hcounted
  | forget uuid =>
    apply hcounted.revoke
    · intro other hother
      rw [beq_iff_eq] at hother
      subst hother
      simp [forget]
    · intro other hother
      have hne : other ≠ uuid := by simpa using hother
      simp [forget, hne]
  | forgetPending uuids | retainPending users =>
    exact ⟨hcounted.slots, hcounted.limit, hcounted.waiting⟩
  | retainShard users shard =>
    apply hcounted.revoke
    · intro other hother
      simp_all [retainShard]
    · intro other hother
      apply lookup_retain_of_keep
      intro state
      by_cases hshard : shardOf other = shard
      · simpa [hshard] using hother
      · simp [hshard]

end Counted

theorem counted_start (limits : String → UInt32) : Counted limits {} where
  slots _ := SlotsCount.empty
  limit _ := Nat.zero_le _
  waiting := by simp

end SessionRun

open SessionRun

/-- In every run in which sessions of revoked users are dropped apart from the
fresh ones, the fresh sessions of a user stay within its limit, and the tracker
counts them. -/
theorem fresh_sessions_within_limit (order : HashOrder IpAddr UInt64)
    (shardOf : String → Nat) (limits : String → UInt32) (moves : List SessionMove)
    (hmeets : Run.Meets (step order shardOf limits) DropsApart {} moves) (uuid : String) :
    let run := Run.exec (step order shardOf limits) {} moves
    deviceTotal (freshKeys run.live uuid) ≤ (limits uuid).toNat ∧
      run.tracker.activeCount uuid = deviceTotal (freshKeys run.live uuid) := by
  intro run
  have hcounted : Counted limits run :=
    @Run.exec_invariant _ _ (step order shardOf limits) DropsApart
      (Counted limits) (fun _ _ hcounted hapart => hcounted.step hapart) {}
      (counted_start limits) moves hmeets
  refine ⟨hcounted.limit uuid, ?_⟩
  rw [← (hcounted.slots uuid).deviceCount_eq, activeCount]
  cases run.tracker.active.lookup uuid <;> rfl

namespace Sample

/-- An acquire from an address given by its last byte. -/
def fromAddress (last : BitVec 32) : SessionRequest where
  nodeTag := "node"
  user := { id := 1, uuid := "alice" }
  clientIp := some (.v4 last)

def oneDevice : String → UInt32 := fun _ => 1

/-- The two sections of an acquire. -/
def acquire (last : BitVec 32) : List SessionMove :=
  [.enter 0 (fromAddress last), .admitSession (SessionRun.strict oneDevice (fromAddress last))]

def session (last : BitVec 32) (fresh : Bool) : LiveSession where
  guard := ⟨"alice", "node", 1, .ip (.v4 last)⟩
  fresh := fresh

/-- Alice is revoked and comes back from another address; then the old session
ends. -/
def reconnect : List SessionMove :=
  acquire 1 ++ [.forget "alice", .forgetPending ["alice"]] ++ acquire 2 ++
    [.release (session 1 false)]

/-- Alice is revoked and comes back from the same address; then the old session
ends, and Alice comes from another address. -/
def sameAddress : List SessionMove :=
  acquire 1 ++ [.forget "alice", .forgetPending ["alice"]] ++ acquire 1 ++
    [.release (session 1 false)] ++ [.removePending ⟨"node", "alice", 1, .v4 1⟩] ++ acquire 2

def sessionsAfter (moves : List SessionMove) : SessionRun :=
  Run.exec (SessionRun.step Finmap.sortedOrder (fun _ => 0) oneDevice) {} moves

end Sample

open Sample

theorem fresh_sessions_within_limit_reconnect :
    let run := sessionsAfter reconnect
    run.live = [session 2 true] ∧ deviceTotal (freshKeys run.live "alice") ≤ 1 ∧
      run.tracker.activeCount "alice" = deviceTotal (freshKeys run.live "alice") :=
  ⟨by decide +kernel, fresh_sessions_within_limit sortedOrder
    (fun _ => 0) oneDevice reconnect (by decide +kernel) "alice"⟩

/-- The old session frees the slot of the new one: two fresh sessions from two
addresses, with a limit of one device and one counted. -/
theorem stale_drop_frees_fresh_slot :
    let run := sessionsAfter sameAddress
    run.live = [session 2 true, session 1 true] ∧
      ¬ deviceTotal (freshKeys run.live "alice") ≤ 1 ∧
      run.tracker.activeCount "alice" ≠ deviceTotal (freshKeys run.live "alice") := by
  decide +kernel

/-- In the same runs no slot is lost: a strict login that passed the device check is
turned away only while fresh sessions use up the whole limit. -/
theorem refused_login_finds_limit_used (order : HashOrder IpAddr UInt64)
    (shardOf : String → Nat) (limits : String → UInt32) (moves : List SessionMove)
    (hmeets : Run.Meets (step order shardOf limits) DropsApart {} moves)
    {request : SessionRequest} :
    let run := Run.exec (step order shardOf limits) {} moves
    request ∈ run.waiting → (run.tracker.admitSession request).2 = none →
      deviceTotal (freshKeys run.live request.user.uuid) = (limits request.user.uuid).toNat := by
  intro run hwaiting hrefused
  have hcounted : Counted limits run :=
    Run.exec_invariant (fun _ _ hcounted hapart => hcounted.step hapart)
      (counted_start limits) hmeets
  have hdevice : request.user.deviceLimit = limits request.user.uuid := by
    rw [hcounted.waiting request hwaiting]
    rfl
  apply Nat.le_antisymm (hcounted.limit _)
  rw [← hdevice]
  obtain ⟨-, -, ⟨hgranted, -⟩ | ⟨-, -, hfull⟩⟩ :=
    admit_spec run.tracker request (hcounted.slots request.user.uuid)
  · rw [hrefused] at hgranted
    contradiction
  · exact hfull

theorem second_login_finds_limit_used :
    let run := sessionsAfter (acquire 1 ++ [.forgetPending ["alice"], .enter 0 (fromAddress 2)])
    deviceTotal (freshKeys run.live "alice") = 1 :=
  refused_login_finds_limit_used sortedOrder (fun _ => 0) oneDevice _ (by decide +kernel)
    (by decide +kernel : strict oneDevice (fromAddress 2) ∈ _) (by decide +kernel)

end KeliCore
