/-
The listener-level update: which listeners it starts, which it keeps, and which
it stops.
-/
import KeliCore.Alignment

namespace KeliCore

open Finmap List
open InboundConfig (tag)

namespace CoreService

def needsNewListener (service : CoreService) (inbound : InboundConfig) :
    Bool :=
  !((inboundsByTag service.config.inbounds).lookup inbound.tag).any fun old =>
    inboundEqWithoutUsersRoutes old (inboundWithoutUsers inbound)

/-- Handles as entries under their tags. -/
def tagged (handles : List ListenerHandle) : List (String × ListenerHandle) :=
  handles.map fun handle => (handle.status.tag, handle)

variable {handle : ListenerHandle} {env : Externals} {world : World} {activeConfig : CoreConfig}
  {inbounds : List InboundConfig} {updated : CoreService}

theorem tagged_cons {rest : List ListenerHandle} :
    tagged (handle :: rest) = (handle.status.tag, handle) :: tagged rest := rfl

theorem mem_handleIds {handles : HashMap String ListenerHandle} {id : Nat} :
    id ∈ handleIds handles ↔ ∃ tag handle, handles.lookup tag = some handle ∧ handle.id = id := by
  simp only [handleIds, Multiset.mem_map, Sigma.exists]
  constructor
  · rintro ⟨tag, handle, hmem, hid⟩
    exact ⟨tag, handle, lookup_eq_some_iff.2 hmem, hid⟩
  · rintro ⟨tag, handle, hget, hid⟩
    exact ⟨tag, handle, lookup_eq_some_iff.1 hget, hid⟩

variable {service : CoreService}

/-- When no start fails, the new handles are those of the inbounds that need
one, in order. -/
theorem startChanged_ready : ∀ {host after : Host} {handles ready : HashMap String ListenerHandle},
      startChanged env world service activeConfig host handles inbounds =
        (after, .ok (some ready)) → ∃ started, host.Spawned after started ∧
        ready = handles.extend (tagged started) ∧ List.Forall₂ (StartedFor env activeConfig)
          (inbounds.filter (needsNewListener service)) started := by
  induction inbounds with
  | nil =>
    intro host after handles ready hstart
    cases hstart
    exact ⟨[], .none le_rfl rfl, rfl, .nil⟩
  | cons inbound rest ih =>
    intro host after handles ready hstart
    unfold startChanged at hstart
    dsimp only at hstart
    split at hstart
    next hsame =>
      obtain ⟨started, hspawn, hready, hforall⟩ := ih hstart
      refine ⟨started, hspawn, hready, ?_⟩
      rw [filter_cons_of_neg]
      · exact hforall
      · simp [needsNewListener, hsame]
    next hchanged =>
      split at hstart
      · simp at hstart
      · split at hstart
        · simp at hstart
        next middle handle hfirst =>
          obtain ⟨hspawn, hstarted, -⟩ := startListenerHandle_ok hfirst
          obtain ⟨started, hothers, hready, hforall⟩ := ih hstart
          refine ⟨handle :: started, hspawn.append hothers, ?_, ?_⟩
          · rw [hready, tagged_cons, extend_cons, hstarted.tag]
          · rw [filter_cons_of_pos]
            · exact .cons hstarted hforall
            · simpa [needsNewListener] using hchanged

/-- When the update is declined or a start fails, the listeners started so far
are stopped. -/
theorem startChanged_undone : ∀ {host after : Host} {handles : HashMap String ListenerHandle}
      {result : Except CoreServiceError
        (Option (HashMap String ListenerHandle))},
      startChanged env world service activeConfig host handles inbounds =
        (after, result) → (∀ ready, result ≠ .ok (some ready)) →
      ∃ middle started, host.Spawned middle started ∧
        after = middle.stopThreads (handleIds (handles.extend (tagged started))) ∧
        List.Sublist (started.map fun handle => handle.status.tag) (inbounds.map tag) := by
  induction inbounds with
  | nil =>
    intro host after handles result hstart hres
    simp only [startChanged, Prod.mk.injEq] at hstart
    exact absurd hstart.2.symm (hres handles)
  | cons inbound rest ih =>
    intro host after handles result hstart hres
    unfold startChanged at hstart
    dsimp only at hstart
    split at hstart
    · obtain ⟨middle, started, hspawn, hafter, htags⟩ := ih hstart hres
      exact ⟨middle, started, hspawn, hafter, htags.cons _⟩
    · split at hstart
      · simp only [Prod.mk.injEq] at hstart
        exact ⟨host, [], .none le_rfl rfl, hstart.1.symm, by simp⟩
      · split at hstart
        next middle error hfirst =>
          simp only [Prod.mk.injEq] at hstart
          exact ⟨middle, [], startListenerHandle_error hfirst, hstart.1.symm, by simp⟩
        next middle handle hfirst =>
          obtain ⟨hspawn, hstarted, -⟩ := startListenerHandle_ok hfirst
          obtain ⟨last, started, hothers, hafter, htags⟩ := ih hstart hres
          refine ⟨last, handle :: started, hspawn.append hothers, ?_, ?_⟩
          · rw [hafter, tagged_cons, extend_cons, hstarted.tag]
          · rw [map_cons, map_cons, hstarted.tag]
            exact htags.cons_cons _

/-- What an inbound gets: the listener started for it, or the kept one with
its users and routes. -/
def placedSlot (env : Externals) (activeConfig : CoreConfig)
    (exchange : Exchange) (inbound : InboundConfig) : Option Slot :=
  match exchange.newHandles.lookup inbound.tag with
  | some handle =>
    some
      { handle
        fingerprint := some (UserFingerprintState.fromUsers env inbound.users)
        revision := none }
  | none =>
    (exchange.oldHandles.lookup inbound.tag).map fun handle =>
      (Slot.syncUsers env inbound
        { handle
          fingerprint := exchange.service.userFingerprints.lookup inbound.tag
          revision := exchange.service.userRevisions.lookup inbound.tag }).setRoutes
        (activeConfig.resolvedInboundRoutes inbound)

/-- The thread of an old listener that a started one replaces. -/
def Replaces (exchange : Exchange) (inbound : InboundConfig) (id : Nat) :
    Prop :=
  (exchange.newHandles.lookup inbound.tag).isSome = true ∧
    ∃ old, exchange.oldHandles.lookup inbound.tag = some old ∧ old.id = id

/-- The second loop after some inbounds. -/
structure Exchanged (env : Externals) (activeConfig : CoreConfig)
    (before : Exchange) (inbounds : List InboundConfig) (after : Exchange) : Prop where
  listeners : after.listeners = before.listeners ++ inbounds.filterMap fun inbound =>
      (placedSlot env activeConfig before inbound).map Slot.handle
  oldHandles : ∀ tag, after.oldHandles.lookup tag =
    if tag ∈ inbounds.map InboundConfig.tag then none
    else before.oldHandles.lookup tag
  newHandles : ∀ tag, tag ∉ inbounds.map InboundConfig.tag →
    after.newHandles.lookup tag = before.newHandles.lookup tag
  placed : ∀ inbound ∈ inbounds, ∀ slot, placedSlot env activeConfig before inbound = some slot →
      after.service.userFingerprints.lookup inbound.tag = slot.fingerprint ∧
      after.service.userRevisions.lookup inbound.tag = slot.revision
  fingerprints : ∀ tag, tag ∉ inbounds.map InboundConfig.tag →
    after.service.userFingerprints.lookup tag = before.service.userFingerprints.lookup tag
  revisions : ∀ tag, tag ∉ inbounds.map InboundConfig.tag →
    after.service.userRevisions.lookup tag = before.service.userRevisions.lookup tag
  stopped : ∀ id, (∃ inbound ∈ inbounds, Replaces before inbound id) →
    after.host.running.lookup id = none
  running : ∀ id, (¬ ∃ inbound ∈ inbounds, Replaces before inbound id) →
    after.host.running.lookup id = before.host.running.lookup id
  next : after.host.next = before.host.next
  traffic : after.service.traffic = before.service.traffic
  sessions : after.service.sessions = before.service.sessions

namespace Exchanged

theorem nil (exchange : Exchange) : Exchanged env activeConfig exchange [] exchange where
  listeners := by simp
  oldHandles := by simp
  newHandles _ _ := rfl
  placed := by simp
  fingerprints _ _ := rfl
  revisions _ _ := rfl
  stopped := by simp
  running _ _ := rfl
  next := rfl
  traffic := rfl
  sessions := rfl

variable {inbound : InboundConfig} {exchange : Exchange}

theorem placedSlot_eq {before after : Exchange} {first : InboundConfig}
    (hfirst : Exchanged env activeConfig before [first] after) (htag : inbound.tag ≠ first.tag) :
    placedSlot env activeConfig after inbound = placedSlot env activeConfig before inbound := by
  have hother : inbound.tag ∉ [first].map tag := by simpa using htag
  simp only [placedSlot, hfirst.newHandles _ hother, hfirst.oldHandles,
    if_neg hother, hfirst.fingerprints _ hother, hfirst.revisions _ hother]

theorem cons {before middle after : Exchange} {first : InboundConfig} {rest : List InboundConfig}
    (hfirst : Exchanged env activeConfig before [first] middle)
    (hrest : Exchanged env activeConfig middle rest after) (hnew : first.tag ∉ rest.map tag) :
    Exchanged env activeConfig before (first :: rest) after := by
  have hne : ∀ inbound ∈ rest, inbound.tag ≠ first.tag := by
    intro inbound hmem heq
    exact hnew (heq ▸ mem_map_of_mem hmem)
  have hreplaces : ∀ id, (∃ inbound ∈ rest, Replaces middle inbound id) ↔
      ∃ inbound ∈ rest, Replaces before inbound id := by
    intro id
    refine exists_congr fun inbound => and_congr_right fun hmem => ?_
    have hother : inbound.tag ∉ [first].map tag := by simpa using hne inbound hmem
    simp only [Replaces, hfirst.newHandles _ hother, hfirst.oldHandles, if_neg hother]
  constructor
  case listeners =>
    have hplaced : rest.filterMap (fun inbound =>
        (placedSlot env activeConfig middle inbound).map Slot.handle) =
      rest.filterMap fun inbound =>
        (placedSlot env activeConfig before inbound).map Slot.handle := by
      apply filterMap_congr
      intro inbound hmem
      rw [hfirst.placedSlot_eq (hne inbound hmem)]
    rw [hrest.listeners, hfirst.listeners, hplaced, append_assoc,
      ← filterMap_append, singleton_append]
  case oldHandles =>
    intro tag
    rw [hrest.oldHandles, hfirst.oldHandles]
    by_cases hfound : tag ∈ rest.map InboundConfig.tag <;> simp [hfound]
  case newHandles =>
    intro tag htag
    rw [map_cons, mem_cons, not_or] at htag
    rw [hrest.newHandles tag htag.2, hfirst.newHandles tag (by simp [htag.1])]
  case placed =>
    intro inbound hmem slot hslot
    rcases mem_cons.1 hmem with rfl | hmem
    · rw [hrest.fingerprints _ hnew, hrest.revisions _ hnew]
      exact hfirst.placed inbound (by simp) slot hslot
    · rw [← hfirst.placedSlot_eq (hne inbound hmem)] at hslot
      exact hrest.placed inbound hmem slot hslot
  case fingerprints =>
    intro tag htag
    rw [map_cons, mem_cons, not_or] at htag
    rw [hrest.fingerprints tag htag.2, hfirst.fingerprints tag (by simp [htag.1])]
  case revisions =>
    intro tag htag
    rw [map_cons, mem_cons, not_or] at htag
    rw [hrest.revisions tag htag.2, hfirst.revisions tag (by simp [htag.1])]
  case stopped =>
    intro id hstop
    by_cases hlater : ∃ inbound ∈ rest, Replaces middle inbound id
    · exact hrest.stopped id hlater
    · rw [hrest.running id hlater]
      apply hfirst.stopped
      rw [hreplaces] at hlater
      obtain ⟨inbound, hmem, hreplace⟩ := hstop
      rcases mem_cons.1 hmem with rfl | hmem
      · exact ⟨inbound, by simp, hreplace⟩
      · exact absurd ⟨inbound, hmem, hreplace⟩ hlater
  case running =>
    intro id hkept
    rw [hrest.running id, hfirst.running id]
    · rintro ⟨inbound, hmem, hreplace⟩
      rw [List.mem_singleton] at hmem
      exact hkept ⟨inbound, by simp [hmem], hreplace⟩
    · rw [hreplaces]
      rintro ⟨inbound, hmem, hreplace⟩
      exact hkept ⟨inbound, .tail _ hmem, hreplace⟩
  case next => rw [hrest.next, hfirst.next]
  case traffic => rw [hrest.traffic, hfirst.traffic]
  case sessions => rw [hrest.sessions, hfirst.sessions]

/-- A started listener is placed and the old one, if any, is stopped. -/
theorem of_new (hnew : exchange.newHandles.lookup inbound.tag = some handle) :
    Exchanged env activeConfig exchange [inbound]
      (exchangeInbound env activeConfig exchange inbound) := by
  have hslot : placedSlot env activeConfig exchange inbound =
      some ⟨handle, some (UserFingerprintState.fromUsers env inbound.users), none⟩ := by
    simp only [placedSlot, hnew]
  constructor
  case listeners => simp [exchangeInbound, hnew, hslot]
  case oldHandles =>
    intro tag
    simp [exchangeInbound, hnew, lookup_erase_ite]
  case newHandles =>
    intro tag htag
    rw [map_singleton, List.mem_singleton] at htag
    simp [exchangeInbound, hnew, htag]
  case placed =>
    intro other hmem slot hother
    obtain rfl := List.mem_singleton.1 hmem
    rw [hslot] at hother
    cases hother
    simp [exchangeInbound, hnew]
  case fingerprints =>
    intro tag htag
    rw [map_singleton, List.mem_singleton] at htag
    simp [exchangeInbound, hnew, htag]
  case revisions =>
    intro tag htag
    rw [map_singleton, List.mem_singleton] at htag
    simp [exchangeInbound, hnew, htag]
  case stopped =>
    rintro id ⟨other, hmem, -, old, hold, hid⟩
    obtain rfl := List.mem_singleton.1 hmem
    simp [exchangeInbound, hnew, hold, hid]
  case running =>
    intro id hkept
    have hrest : ∀ old, exchange.oldHandles.lookup inbound.tag = some old → id ≠ old.id := by
      intro old hold hid
      exact hkept ⟨inbound, by simp, by simp [hnew], old, hold, hid.symm⟩
    cases hold : exchange.oldHandles.lookup inbound.tag with
    | none => simp [exchangeInbound, hnew, hold]
    | some old => simp [exchangeInbound, hnew, hold, hrest old hold]
  case next =>
    cases hold : exchange.oldHandles.lookup inbound.tag <;>
      simp [exchangeInbound, hnew, hold, Host.stopThreads]
  case traffic => simp [exchangeInbound, hnew]
  case sessions => simp [exchangeInbound, hnew]

theorem of_kept (hnew : exchange.newHandles.lookup inbound.tag = none)
    (hold : exchange.oldHandles.lookup inbound.tag = some handle) :
    Exchanged env activeConfig exchange [inbound]
      (exchangeInbound env activeConfig exchange inbound) := by
  have hacts := syncUsersAndRoutes_acts env activeConfig
  have hslot : placedSlot env activeConfig exchange inbound = some (Slot.mk
        (syncUsersAndRoutes env activeConfig exchange.service handle inbound).2
        ((syncUsersAndRoutes env activeConfig exchange.service handle
          inbound).1.userFingerprints.lookup inbound.tag)
        ((syncUsersAndRoutes env activeConfig exchange.service handle
          inbound).1.userRevisions.lookup inbound.tag)) := by
    rw [hacts.slot]
    simp only [placedSlot, hnew, hold]
    rfl
  have hframe : (syncUsersAndRoutes env activeConfig exchange.service handle
        inbound).1.traffic = exchange.service.traffic ∧
      (syncUsersAndRoutes env activeConfig exchange.service handle
        inbound).1.sessions = exchange.service.sessions :=
    syncInboundUsers_frame env exchange.service handle inbound
  constructor
  case listeners => simp [exchangeInbound, hnew, hold, hslot]
  case oldHandles =>
    intro tag
    simp [exchangeInbound, hnew, hold, lookup_erase_ite]
  case newHandles =>
    intro tag _
    simp [exchangeInbound, hnew, hold]
  case placed =>
    intro other hmem slot hother
    obtain rfl := List.mem_singleton.1 hmem
    rw [hslot] at hother
    cases hother
    simp [exchangeInbound, hnew, hold]
  case fingerprints =>
    intro tag htag
    rw [map_singleton, List.mem_singleton] at htag
    simp [exchangeInbound, hnew, hold, hacts.fingerprints _ _ _ _ htag]
  case revisions =>
    intro tag htag
    rw [map_singleton, List.mem_singleton] at htag
    simp [exchangeInbound, hnew, hold, hacts.revisions _ _ _ _ htag]
  case stopped =>
    rintro id ⟨other, hmem, hsome, -⟩
    obtain rfl := List.mem_singleton.1 hmem
    simp [hnew] at hsome
  case running =>
    intro id _
    simp [exchangeInbound, hnew, hold]
  case next => simp [exchangeInbound, hnew, hold]
  case traffic => simp [exchangeInbound, hnew, hold, hframe.1]
  case sessions => simp [exchangeInbound, hnew, hold, hframe.2]

theorem of_missing (hnew : exchange.newHandles.lookup inbound.tag = none)
    (hold : exchange.oldHandles.lookup inbound.tag = none) :
    Exchanged env activeConfig exchange [inbound]
      (exchangeInbound env activeConfig exchange inbound) := by
  have heq : exchangeInbound env activeConfig exchange inbound = exchange := by
    simp [exchangeInbound, hnew, hold]
  have hslot : placedSlot env activeConfig exchange inbound = none := by
    simp [placedSlot, hnew, hold]
  rw [heq]
  constructor
  case listeners => simp [hslot]
  case oldHandles =>
    intro tag
    by_cases htag : tag = inbound.tag
    · subst htag
      simp [hold]
    · simp [htag]
  case newHandles => exact fun _ _ => rfl
  case placed =>
    intro other hmem slot hother
    obtain rfl := List.mem_singleton.1 hmem
    simp [hslot] at hother
  case fingerprints => exact fun _ _ => rfl
  case revisions => exact fun _ _ => rfl
  case stopped =>
    rintro id ⟨other, hmem, hsome, -⟩
    obtain rfl := List.mem_singleton.1 hmem
    simp [hnew] at hsome
  case running => exact fun _ _ => rfl
  case next => rfl
  case traffic => rfl
  case sessions => rfl

theorem single (exchange : Exchange) (inbound : InboundConfig) :
    Exchanged env activeConfig exchange [inbound]
      (exchangeInbound env activeConfig exchange inbound) := by
  cases hnew : exchange.newHandles.lookup inbound.tag with
  | some handle => exact of_new hnew
  | none =>
    cases hold : exchange.oldHandles.lookup inbound.tag with
    | some handle => exact of_kept hnew hold
    | none => exact of_missing hnew hold

theorem foldl (hnodup : (inbounds.map tag).Nodup) (exchange : Exchange) :
    Exchanged env activeConfig exchange inbounds
      (inbounds.foldl (exchangeInbound env activeConfig) exchange) := by
  induction inbounds generalizing exchange with
  | nil => exact nil exchange
  | cons inbound rest ih =>
    rw [map_cons, nodup_cons] at hnodup
    exact (single exchange inbound).cons (ih hnodup.2 _) hnodup.1

end Exchanged

theorem lookup_collect_tagged {handles : List ListenerHandle}
    (hnodup : (handles.map fun handle => handle.status.tag).Nodup) (tag : String) :
    (Finmap.collect (tagged handles)).lookup tag = findHandle tag handles := by
  have hkeys : ((tagged handles).map Prod.fst).Nodup := by
    simpa [tagged, Function.comp_def] using hnodup
  cases hfind : findHandle tag handles with
  | some handle =>
    apply lookup_collect_of_mem hkeys
    rw [← findHandle_tag hfind]
    exact mem_map_of_mem (findHandle_mem hfind)
  | none =>
    rw [findHandle_eq_none] at hfind
    rw [collect, lookup_extend_of_not_mem]
    · simp
    · intro entry hentry heq
      obtain ⟨handle, hmem, rfl⟩ := mem_map.1 hentry
      exact hfind (heq ▸ mem_map_of_mem hmem)

theorem started_tags {started : List ListenerHandle}
    (hforall : List.Forall₂ (StartedFor env activeConfig) inbounds started) :
    (started.map fun handle => handle.status.tag) = inbounds.map tag :=
  map_tag_of_map_descriptor (map_descriptor_of_started hforall)

variable {host after : Host} {config : CoreConfig}

theorem updateChanged_some (hupd : service.updateChangedListenersAndUsers env world host config =
      ((after, updated), .ok true)) : config.validate env = .ok () ∧
      configAllowsListenerLevelUpdate service.config (configWithoutUsers config) = true ∧
      ∃ middle started, host.Spawned middle started ∧
        List.Forall₂ (StartedFor env (configWithoutUsers config))
          (config.inbounds.filter (needsNewListener service)) started ∧
        service.exchangeListeners env middle (.collect (tagged started))
          config = (after, updated) := by
  unfold updateChangedListenersAndUsers at hupd
  cases hcheck : checkConfig env world config with
  | error error => simp [hcheck] at hupd
  | ok value =>
    simp only [hcheck] at hupd
    split at hupd
    · simp at hupd
    rename_i hallow
    split at hupd
    · simp at hupd
    split at hupd <;> simp at hupd
    rename_i middle ready hstart
    split at hupd
    · simp at hupd
    obtain ⟨started, hspawn, hready, hforall⟩ := startChanged_ready hstart
    refine ⟨checkConfig_valid hcheck, by simpa using hallow, middle,
      started, hspawn, hforall, ?_⟩
    rw [collect, ← hready]
    exact (Prod.mk.inj hupd).1

theorem updateChanged_stored
    (hupd : service.updateChangedListenersAndUsers env world host config =
      ((after, updated), .ok true)) : updated.config = configWithoutUsers config := by
  obtain ⟨-, -, middle, started, -, -, hexchange⟩ := updateChanged_some hupd
  cases hexchange
  rfl

/-- An update that is declined or fails leaves the service as it was. -/
theorem updateChanged_service {result : Except CoreServiceError Bool}
    (hupd : service.updateChangedListenersAndUsers env world host config =
      ((after, updated), result)) (hres : result ≠ .ok true) : updated = service := by
  unfold updateChangedListenersAndUsers at hupd
  dsimp only at hupd
  -- only the arm of `Ok(true)` touches the service
  repeat' split at hupd
  all_goals first
    | exact absurd (Prod.mk.inj hupd).2.symm hres
    | exact (Prod.mk.inj (Prod.mk.inj hupd).1).2.symm

/-- It leaves the threads as they were, too. -/
theorem updateChanged_unchanged {result : Except CoreServiceError Bool}
    (hupd : service.updateChangedListenersAndUsers env world host config =
      ((after, updated), result)) (hres : result ≠ .ok true) (hwf : host.WellFormed) :
    host.next ≤ after.next ∧ ∀ id, after.running.lookup id = host.running.lookup id := by
  unfold updateChangedListenersAndUsers at hupd
  cases hcheck : checkConfig env world config with
  | error error =>
    rw [hcheck] at hupd
    cases hupd
    exact ⟨le_rfl, fun _ => rfl⟩
  | ok value =>
    have hnodup := CoreConfig.nodup_of_validate (checkConfig_valid hcheck)
    simp only [hcheck] at hupd
    split at hupd
    · cases hupd
      exact ⟨le_rfl, fun _ => rfl⟩
    split at hupd
    · cases hupd
      exact ⟨le_rfl, fun _ => rfl⟩
    have hundone : ∀ {last : Host} {outcome : Except CoreServiceError
        (Option (HashMap String ListenerHandle))},
        startChanged env world service (configWithoutUsers config) host ∅
          config.inbounds = (last, outcome) → (∀ ready, outcome ≠ .ok (some ready)) →
        host.next ≤ last.next ∧ ∀ id, last.running.lookup id = host.running.lookup id := by
      intro last outcome hstart houtcome
      obtain ⟨middle, started, hspawn, rfl, htags⟩ := startChanged_undone hstart houtcome
      refine ⟨hspawn.next_le, hspawn.lookup_stop hwf ?_⟩
      intro id
      rw [mem_handleIds]
      have hget := lookup_collect_tagged (htags.nodup hnodup)
      constructor
      · rintro ⟨tag, handle, hfound, rfl⟩
        rw [← collect, hget] at hfound
        exact mem_map_of_mem (findHandle_mem hfound)
      · intro hid
        obtain ⟨handle, hmem, rfl⟩ := mem_map.1 hid
        refine ⟨handle.status.tag, handle, ?_, rfl⟩
        rw [← collect, hget]
        exact findHandle_of_mem (htags.nodup hnodup) hmem
    split at hupd
    next hstart =>
      cases hupd
      exact hundone hstart (by simp)
    next hstart =>
      cases hupd
      exact hundone hstart (by simp)
    next middle ready hstart =>
      split at hupd
      next hnothing =>
        cases hupd
        simp only [Bool.and_eq_true, beq_iff_eq] at hnothing
        obtain ⟨started, hspawn, hready, -⟩ := startChanged_ready hstart
        cases started with
        | nil => exact ⟨hspawn.next_le, fun id => hspawn.others id (by simp)⟩
        | cons handle rest =>
          have hmem : handle.status.tag ∈ ready := by
            rw [hready, mem_extend]
            exact .inl ⟨(handle.status.tag, handle), by simp [tagged], rfl⟩
          exact absurd hmem (not_mem_of_len_eq_zero hnothing.1 _)
      · exact absurd (Prod.mk.inj hupd).2.symm hres

end CoreService

end KeliCore
