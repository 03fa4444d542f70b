/-
Whose reservations a revocation, a snapshot and a report take away.  They find
them by the text of the key, which names a node and a user only where neither
has a separator of its own.
-/
import KeliCore.Reservations

namespace KeliCore

open Sample

open Finmap DeviceLimitRuntimeState UserSessionTracker Text List

theorem stripLead_isSome_iff {lead text : List Char} :
    (stripLead lead text).isSome = true ↔ lead <+: text := by
  fun_induction stripLead lead text <;> simp_all [cons_prefix_cons]

theorem front_splitOnceList (sep : Char) (text : List Char) :
    (splitOnceList sep text).elim text Prod.fst = text.takeWhile (· ≠ sep) := by
  induction text with
  | nil => rfl
  | cons c text ih =>
    by_cases hsep : c = sep
    · simp [splitOnceList, hsep]
    · rw [splitOnceList, if_neg hsep, takeWhile_cons_of_pos (by simpa using hsep), ← ih]
      cases splitOnceList sep text <;> rfl

theorem toList_key (nodeTag uuid : String) : (deviceLimitUserKey nodeTag uuid).toList =
      if isBlank nodeTag then uuid.toList else nodeTag.toList ++ '|' :: uuid.toList := by
  unfold deviceLimitUserKey
  split <;> simp

/-- What follows the last separator. -/
def lastPart (text : String) : String :=
  String.ofList (text.toList.reverse.takeWhile (· ≠ '|')).reverse

theorem takeWhile_append_cons {sep : Char} (front rest : List Char) :
    (front ++ sep :: rest).takeWhile (· ≠ sep) = front.takeWhile (· ≠ sep) := by
  induction front with
  | nil => simp
  | cons c front ih => rw [cons_append, takeWhile_cons, takeWhile_cons, ih]

theorem lastPart_key (nodeTag uuid : String) :
    lastPart (deviceLimitUserKey nodeTag uuid) = lastPart uuid := by
  rw [lastPart, lastPart, toList_key]
  split
  · rfl
  · rw [reverse_append, reverse_cons, append_assoc, singleton_append, takeWhile_append_cons]

/-- A snapshot looks at what follows the last separator of a key. -/
theorem devices_syncUsers (tracker : UserSessionTracker) (users : List CoreUser) :
    (tracker.syncUsers users).devices =
      { tracker.devices with
        pending := tracker.devices.pending.retain fun key _ =>
          lastPart key ∈ users.map CoreUser.uuid } := by
  rw [UserSessionTracker.syncUsers]
  dsimp only
  congr 2
  funext key _
  have hfront := front_splitOnceList '|' key.toList.reverse
  rw [rsplitOnce, lastPart, ← hfront]
  cases splitOnceList '|' key.toList.reverse <;> simp

/-- A revocation of the uuid takes the key away. -/
def Revokes (named key : String) : Prop :=
  key = named ∨ '|' :: named.toList <:+ key.toList

theorem revokes_iff {named key : String} :
    (key == named || endsWith key ("|" ++ named)) = true ↔ Revokes named key := by
  rw [Bool.or_eq_true, beq_iff_eq, endsWith, stripLead_isSome_iff, reverse_prefix,
    String.toList_append]
  rfl

theorem revokes_key (nodeTag uuid : String) : Revokes uuid (deviceLimitUserKey nodeTag uuid) := by
  rw [Revokes, toList_key]
  unfold deviceLimitUserKey
  split
  · exact .inl rfl
  · exact .inr (suffix_append _ _)

theorem startsWith_iff {key lead : String} :
    startsWith key lead = true ↔ lead.toList <+: key.toList := by
  rw [startsWith, stripPrefix, Option.isSome_map, stripLead_isSome_iff]

theorem reportedIps_commit {now : Nat} {devices : DeviceLimitRuntimeState}
    {tag : String} {id : UInt64} {ip : IpAddr} {records : List DeviceLimitOnlineRecord}
    (hnamed : isBlank tag = false ∧ id ≠ 0)
    (hreported : ⟨tag, id, ip⟩ ∈ records ∨ (devices.reportedIps tag id).lookup ip = some now) :
    ((records.foldl (commitRecord now) devices).reportedIps tag id).lookup ip = some now := by
  induction records generalizing devices with
  | nil => simpa using hreported
  | cons other records ih =>
    refine ih (or_iff_not_imp_left.2 fun hrest => ?_)
    obtain ⟨otherTag, otherId, otherIp⟩ := other
    rw [mem_cons, or_iff_left hrest, DeviceLimitOnlineRecord.mk.injEq] at hreported
    clear ih
    unfold commitRecord reportedIps at *
    rcases eq_or_ne tag otherTag with rfl | htag <;> rcases eq_or_ne id otherId with rfl | hid <;>
      split <;> cases husers : devices.reported.lookup tag <;>
      simp_all [lookup_insert_ite, or_iff_not_imp_left]

theorem reservation_retain (devices : DeviceLimitRuntimeState) (keep : String → Bool)
    (key : String) (ip : IpAddr) :
    ({ devices with pending := devices.pending.retain fun key _ => keep key } :
      DeviceLimitRuntimeState).reservation key ip =
        if keep key then devices.reservation key ip else none := by
  simp only [reservation_eq_bind, lookup_retain, Option.filter]
  cases devices.pending.lookup key <;> cases keep key <;> rfl

theorem ite_none_eq_iff {α : Type} {held : Option α} {kept right : Prop} [Decidable kept]
    [Decidable right] : ((if kept then held else none) = if right then held else none) ↔
      held = none ∨ (kept ↔ right) := by
  by_cases hkept : kept <;> by_cases hright : right <;> simp [hkept, hright, eq_comm]

/-- A report names the reservation of an address, but for the node. -/
def DeviceLimitOnlineRecord.Covers (record : DeviceLimitOnlineRecord) (ip : IpAddr)
    (held : Option UInt64) : Prop :=
  (isBlank record.nodeTag = false ∧ record.userId ≠ 0) ∧ record.ip = ip ∧
    held = some record.userId

instance (record : DeviceLimitOnlineRecord) (ip : IpAddr) (held : Option UInt64) :
    Decidable (record.Covers ip held) :=
  inferInstanceAs (Decidable ((_ ∧ _) ∧ _ ∧ _))

/-- A report leaves a reservation unless a record that covers it names a node
whose tag stands in front of its key. -/
theorem reservation_report (tracker : UserSessionTracker) (now : Nat)
    (records : List DeviceLimitOnlineRecord) (key : String) (ip : IpAddr) :
    let before := tracker.devices.reservation key ip
    (tracker.commitDeviceLimitReport now records).devices.reservation key ip =
      if ∀ record ∈ records.filter (·.Covers ip before),
          ¬ record.nodeTag.toList ++ ['|'] <+: key.toList then before else none := by
  intro before
  rw [commitDeviceLimitReport, reservation_commit, ← ite_not]
  refine if_congr ?_ rfl rfl
  rw [not_exists]
  refine forall_congr' fun record => ?_
  rw [startsWith_iff, mem_filter, decide_eq_true_iff, String.toList_append]
  constructor
  · exact fun hnone hnamed hlead => hnone ⟨hnamed.1, hnamed.2.1, hlead, hnamed.2.2⟩
  · exact fun hclear hhit => hclear ⟨hhit.1, hhit.2.1, hhit.2.2.2⟩ hhit.2.2.1

theorem lead_of_covers {record : DeviceLimitOnlineRecord} {ip : IpAddr} {held : Option UInt64}
    (hcovers : record.Covers ip held) (uuid : String) :
    record.nodeTag.toList ++ ['|'] <+: (deviceLimitUserKey record.nodeTag uuid).toList := by
  refine ⟨uuid.toList, ?_⟩
  rw [toList_key, hcovers.1.1]
  simp

/-- Each update hits the reservations of the users it names, on their node in a
report, and leaves all others, exactly if there is no reservation or: a revoked
uuid hits only a user who is revoked; what follows the last separator of the
uuid is listed as the uuid is; and a record hits only a user who is named. -/
theorem reservations_hit_targets_iff (tracker : UserSessionTracker) (nodeTag uuid : String)
    (ip : IpAddr) (uuids : List String) (users : List CoreUser) (now : Nat)
    (records : List DeviceLimitOnlineRecord) :
    let key := deviceLimitUserKey nodeTag uuid
    let before := tracker.devices.reservation key ip
    let listed := users.map CoreUser.uuid
    let named := records.filter (·.Covers ip before)
    let reported := (tracker.commitDeviceLimitReport now records).devices
    ((tracker.revokeUsers uuids).devices.reservation key ip =
        (if uuid ∉ uuids then before else none) ↔
      before = none ∨ ((∃ named ∈ uuids, Revokes named key) → uuid ∈ uuids)) ∧
    ((tracker.syncUsers users).devices.reservation key ip =
        (if uuid ∈ listed then before else none) ↔
      before = none ∨ (lastPart uuid ∈ listed ↔ uuid ∈ listed)) ∧
    (reported.reservation key ip =
        (if ∀ record ∈ named, record.nodeTag ≠ nodeTag then before else none) ↔
      before = none ∨ ((∃ record ∈ named, record.nodeTag.toList ++ ['|'] <+: key.toList) →
        ∃ record ∈ named, record.nodeTag = nodeTag)) ∧
    ∀ record ∈ records, isBlank record.nodeTag = false ∧ record.userId ≠ 0 →
      (reported.reportedIps record.nodeTag record.userId).lookup record.ip = some now := by
  intro key before listed named reported
  refine ⟨?_, ?_, ?_, fun record hmem hnamed => reportedIps_commit hnamed (.inl hmem)⟩
  · have hafter : (tracker.revokeUsers uuids).devices.reservation key ip =
        if !uuids.any fun named => key == named || endsWith key ("|" ++ named)
        then before else none := reservation_retain tracker.devices _ key ip
    rw [hafter, ite_none_eq_iff, Bool.not_eq_true', ← Bool.not_eq_true, not_iff_not, any_eq_true]
    simp only [revokes_iff]
    refine or_congr_right ⟨fun hsame => hsame.1, fun hnamed => ⟨hnamed, fun hmem => ?_⟩⟩
    exact ⟨uuid, hmem, revokes_key nodeTag uuid⟩
  · rw [devices_syncUsers, reservation_retain, lastPart_key]
    simp only [decide_eq_true_eq]
    exact ite_none_eq_iff
  · have hown (record) (hmem : record ∈ named) (heq : record.nodeTag = nodeTag) :
        record.nodeTag.toList ++ ['|'] <+: key.toList := by
      subst heq
      exact lead_of_covers (of_decide_eq_true (mem_filter.1 hmem).2) uuid
    rw [reservation_report, ite_none_eq_iff]
    refine or_congr_right ⟨?_, fun hnamed => ⟨?_, fun hclear record hmem hhit => ?_⟩⟩
    · rintro hsame ⟨record, hmem, hhit⟩
      by_contra hnone
      exact hsame.2 (fun other hother heq => hnone ⟨other, hother, heq⟩) record hmem hhit
    · exact fun hclear record hmem heq => hclear record hmem (hown record hmem heq)
    · obtain ⟨other, hother, heq⟩ := hnamed ⟨record, hmem, hhit⟩
      exact hclear other hother heq

/-- The tracker in which one user has reserved one address. -/
def reserved (nodeTag uuid : String) : UserSessionTracker where
  devices.pending := singleton (deviceLimitUserKey nodeTag uuid) (singleton (.v4 1) 1)

/-- A revocation of `bob` and a report of the node `n` hit others, and a
snapshot drops the reservation of a user it lists. -/
theorem separators_hit_others :
    let tracker := reserved "n|m" "x|bob"
    let held (after : UserSessionTracker) :=
      after.devices.reservation (deviceLimitUserKey "n|m" "x|bob") (.v4 1)
    held tracker = some 1 ∧ held (tracker.revokeUsers ["bob"]) = none ∧
      held (tracker.syncUsers [{ id := 1, uuid := "x|bob" }]) = none ∧
      held (tracker.commitDeviceLimitReport 0 [⟨"n", 1, .v4 1⟩]) = none := by
  decide +kernel

end KeliCore
