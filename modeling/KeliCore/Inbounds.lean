/-
One inbound along a run: all the ways an event can leave its listener, user
table, fingerprint and revision.
-/
import KeliCore.Serving

namespace KeliCore

open CoreConfig CoreService List Option

variable {config : CoreConfig} {controller : CoreController} {service : CoreService}

namespace CoreController

/-- The slot of an inbound of the running service. -/
def slot (controller : CoreController) (tag : String) : Option Slot :=
  controller.service.bind fun service => service.slot tag

theorem slot_of_service (hserv : controller.service = some service) (tag : String) :
    controller.slot tag = service.slot tag := by rw [slot, hserv, bind_some]

end CoreController

/-- Two slots that may differ in their routes only. -/
structure Slot.SameUsers (before after : Slot) : Prop where
  id : after.handle.id = before.handle.id
  status : after.handle.status = before.handle.status
  table : after.handle.table = before.handle.table
  fingerprint : after.fingerprint = before.fingerprint
  revision : after.revision = before.revision

theorem Slot.SameUsers.refl (slot : Slot) : SameUsers slot slot := ⟨rfl, rfl, rfl, rfl, rfl⟩

theorem Slot.SameUsers.setRoutes (slot : Slot) (routes : List RouteRule) :
    SameUsers slot (slot.setRoutes routes) :=
  ⟨rfl, rfl, rfl, rfl, rfl⟩

namespace CoreController

/-- The slot of an inbound whose configuration was taken: its users were
compared with the stored fingerprint, or its listener is a new one. -/
inductive ConfigSlot (env : Externals) (controller : CoreController)
    (inbound : InboundConfig) (after : Slot) : Prop
  | synced {before : Slot} (hpre : controller.slot inbound.tag = some before)
      (hsame : (before.syncUsers env inbound).SameUsers after)
  | started (hid : controller.host.next ≤ after.handle.id) (htable : after.handle.table =
        .build env inbound.protocol inbound.users) (hprint : after.fingerprint =
        some (UserFingerprintState.fromUsers env inbound.users)) (hrevision : after.revision = none)

/-- How the slot of an inbound comes out of an event. -/
inductive SlotStep (env : Externals) (controller : CoreController)
    (tag : String) : Event → Slot → Prop
  | same {event : Event} {before after : Slot} (hpre : controller.slot tag = some before)
      (hsame : before.SameUsers after) (hdelta : ∀ world delta,
        event = .command world (.applyUserDelta tag delta) →
          (controller.handle env world (.applyUserDelta tag delta)).2.isError = true) :
      SlotStep env controller tag event after
  | config {world : World} {config : CoreConfig} {inbound : InboundConfig}
      {after : Slot} (hvalid : config.validate env = .ok ())
      (hreload : controller.runtime.activeFingerprint ≠ some (fingerprintConfig env config))
      (hmem : inbound ∈ config.inbounds) (htag : inbound.tag = tag)
      (hproto : after.handle.status.protocol = inbound.protocol)
      (hslot : ConfigSlot env controller inbound after) :
      SlotStep env controller tag (.command world (.applyConfig config)) after
  | delta {world : World} {delta : CoreUserDelta} {service : CoreService}
      {before : Slot} (hserv : controller.service = some service)
      (hpre : service.slot tag = some before)
      (hcheck : service.checkRevision tag delta = .ok ()) :
      SlotStep env controller tag (.command world (.applyUserDelta tag delta))
        (before.applyDelta env world.userOrder delta)

variable {tag : String} {env : Externals} {world : World}

theorem SlotStep.untouched
    {event : Event} {slot : Slot} (hslot : controller.slot tag = some slot) (hdelta : ∀ world delta,
      event ≠ .command world (.applyUserDelta tag delta)) :
    SlotStep env controller tag event slot :=
  .same hslot (.refl slot) fun world delta heq => absurd heq (hdelta world delta)

theorem ConfigSlot.of_map {inbound : InboundConfig} {after : Slot}
    {routes : Slot → Slot} (hserv : controller.service = some service)
    (hroutes : ∀ slot, Slot.SameUsers slot (routes slot))
    (hafter : (service.slot inbound.tag).map (fun slot =>
      routes (slot.syncUsers env inbound)) = some after) :
    ConfigSlot env controller inbound after := by
  obtain ⟨before, hpre, rfl⟩ := map_eq_some_iff.1 hafter
  exact .synced ((slot_of_service hserv _).trans hpre) (hroutes _)

theorem start_slot {host after : Host} {slot : Slot}
    (hstart : CoreService.start env world host config = (after, .ok service))
    (hslot : service.slot tag = some slot) : ∃ inbound ∈ config.inbounds, inbound.tag = tag ∧
      host.next ≤ slot.handle.id ∧ slot.handle.table = .build env inbound.protocol inbound.users ∧
      slot.fingerprint = some (UserFingerprintState.fromUsers env inbound.users) ∧
      slot.revision = none := by
  obtain ⟨hvalid, hspawn, hforall, -, -, -, -, hrevisions, hfingerprints⟩ := start_ok hstart
  have hfind := slot_handle hslot
  have hhandle := findHandle_mem hfind
  obtain ⟨inbound, hmem, hstarted⟩ := mem_of_forall₂_right hforall hhandle
  have htag : inbound.tag = tag := hstarted.tag.symm.trans (findHandle_tag hfind)
  obtain ⟨handle, hhandle', rfl⟩ := map_eq_some_iff.1 hslot
  refine ⟨inbound, hmem, htag, (hspawn.fresh _ hhandle).1, hstarted.table, ?_, ?_⟩
  · change service.userFingerprints.lookup tag = _
    rw [hfingerprints, ← htag]
    apply Finmap.lookup_collect_of_mem
    · simpa [Function.comp_def] using nodup_of_validate hvalid
    · exact mem_map_of_mem hmem
  · change service.userRevisions.lookup tag = _
    rw [hrevisions]
    simp

theorem NeedsRestart.next_le {host : Host}
    (hrestart : NeedsRestart env world controller config host) (hwf : controller.host.WellFormed) :
    controller.host.next ≤ host.next := by
  cases hrestart with
  | stopped => exact le_rfl
  | declined _ _ _ hupd => exact (updateChanged_unchanged hupd (by simp) hwf).1

theorem findInbound_of_slot {inbounds : List InboundConfig} {slot : Slot}
    (halign : CoreService.Aligned env service)
    (htags : service.config.inbounds.map InboundConfig.tag =
      inbounds.map InboundConfig.tag) (hslot : service.slot tag = some slot) :
    ∃ inbound, CoreService.findInbound tag inbounds = some inbound := by
  have hfind := slot_handle hslot
  have htag : tag ∈ inbounds.map InboundConfig.tag := by
    rw [← htags, ← halign.tags, ← findHandle_tag hfind]
    exact mem_map_of_mem (findHandle_mem hfind)
  cases hinbound : findInbound tag inbounds with
  | none => exact absurd htag (findInbound_eq_none.1 hinbound)
  | some inbound => exact ⟨inbound, rfl⟩

theorem protocol_of_stored
    {inbound : InboundConfig} {slot : Slot} (halign : CoreService.Aligned env service)
    (hstored : service.config = configWithoutUsers config) (hmem : inbound ∈ config.inbounds)
    (hslot : service.slot inbound.tag = some slot) :
    slot.handle.status.protocol = inbound.protocol := by
  have hinbound : inboundWithoutUsers inbound ∈ service.config.inbounds := by
    rw [hstored]
    exact mem_map_of_mem hmem
  obtain ⟨found, hfound, hdescriptor⟩ := halign.slot hinbound
  obtain rfl := some.inj (hfound.symm.trans hslot)
  exact congrArg ListenerDescriptor.protocol hdescriptor

/-- The slots after a configuration: all as they were when it was refused or
remembered, and those of its inbounds when it was taken. -/
theorem ApplyConfigPath.slot {result : CoreController × CoreResponse}
    (hserve : Serving env controller) (hpath : ApplyConfigPath env world controller config result)
    {after : Slot} (hafter : result.1.slot tag = some after) :
    (result.2.isError = true ∨ controller.runtime.activeFingerprint =
        some (fingerprintConfig env config)) ∧ controller.slot tag = some after ∨
    config.validate env = .ok () ∧
      controller.runtime.activeFingerprint ≠ some (fingerprintConfig env config) ∧
      ∃ inbound ∈ config.inbounds, inbound.tag = tag ∧
        after.handle.status.protocol = inbound.protocol ∧
        ConfigSlot env controller inbound after := by
  have halign := (hserve.applyConfig hpath).aligned
  cases hpath with
  | rejected | changeFailed => exact .inl ⟨.inl rfl, hafter⟩
  | noop _ hsame => exact .inl ⟨.inr hsame, hafter⟩
  | startFailed => simp [CoreController.slot, failWith] at hafter
  | @users service hvalid hreload hserv hallow =>
    change (service.updateUsers env config).slot tag = some after at hafter
    have hslot := hafter
    rw [slot_updateUsers env service (nodup_of_validate hvalid)] at hafter
    cases hpre : service.slot tag with
    | none => split at hafter <;> simp [hpre] at hafter
    | some before =>
      have htags := map_tag_configWithoutUsers service.config
      rw [(configEqWithoutUsers_iff _ _).1 hallow, map_tag_configWithoutUsers] at htags
      obtain ⟨inbound, hinbound⟩ := findInbound_of_slot (hserve.aligned service hserv)
        htags.symm hpre
      obtain ⟨hmem, rfl⟩ := findInbound_some hinbound
      have hproto := protocol_of_stored (halign _ rfl) rfl hmem hslot
      rw [hinbound] at hafter
      exact .inr ⟨hvalid, hreload, inbound, hmem, rfl, hproto,
        .of_map hserv Slot.SameUsers.refl hafter⟩
  | @routes service hvalid hreload hserv hallow =>
    change (service.updateRoutesAndUsers env config).slot tag = some after at hafter
    have hslot := hafter
    rw [slot_updateRoutesAndUsers env service (nodup_of_validate hvalid)] at hafter
    cases hpre : service.slot tag with
    | none => split at hafter <;> simp [hpre] at hafter
    | some before =>
      have hshapes := ((configEqWithoutUsersRoutesAndOutbounds_iff _ _).1 hallow).2
      obtain ⟨inbound, hinbound⟩ := findInbound_of_slot (hserve.aligned service hserv)
        (map_tag_of_map_shape hshapes) hpre
      obtain ⟨hmem, rfl⟩ := findInbound_some hinbound
      have hproto := protocol_of_stored (halign _ rfl) rfl hmem hslot
      rw [hinbound] at hafter
      exact .inr ⟨hvalid, hreload, inbound, hmem, rfl, hproto,
        .of_map hserv (fun slot => Slot.SameUsers.setRoutes slot _) hafter⟩
  | @changed service updated host hvalid hreload hserv hupd =>
    have hchanged := updateChanged_changed
      (hserve.aligned service hserv) (hserve.runs service hserv)
      hserve.wellFormed hupd
    obtain ⟨started, hforall, hfresh, hslots⟩ := hchanged.slots
    change updated.slot tag = some after at hafter
    have hslot := hafter
    rw [hslots] at hafter
    obtain ⟨inbound, hinbound, hexchanged⟩ := bind_eq_some_iff.1 hafter
    obtain ⟨hmem, rfl⟩ := findInbound_some hinbound
    refine .inr ⟨hvalid, hreload, inbound, hmem, rfl,
      protocol_of_stored hchanged.aligned hchanged.stored hmem hslot, ?_⟩
    unfold exchangedSlot at hexchanged
    split at hexchanged
    next handle hfind =>
      cases hexchanged
      obtain ⟨source, hsource, hstarted⟩ := mem_of_forall₂_right hforall (findHandle_mem hfind)
      obtain rfl := inj_on_of_nodup_map (nodup_of_validate hvalid)
        (mem_of_mem_filter hsource) hmem (hstarted.tag.symm.trans (findHandle_tag hfind))
      exact .started (hfresh handle (findHandle_mem hfind)) hstarted.table rfl rfl
    · exact .of_map hserv (fun slot => Slot.SameUsers.setRoutes slot _) hexchanged
  | @restarted host last service hvalid hreload hrestart hstart =>
    obtain ⟨inbound, hmem, htag, hid, htable, hprint, hrevision⟩ := start_slot hstart hafter
    rw [stoppedHost_next] at hid
    have hproto := protocol_of_stored (.of_start hstart)
      (start_ok hstart).2.2.2.1 hmem (htag ▸ hafter)
    exact .inr ⟨hvalid, hreload, inbound, hmem, htag, hproto,
      .started ((hrestart.next_le hserve.wellFormed).trans hid) htable hprint hrevision⟩

theorem ApplyConfigPath.stored {result : CoreController × CoreResponse}
    (hpath : ApplyConfigPath env world controller config result)
    (hafter : result.1.service = some service) : controller.service = some service ∨
      config.validate env = .ok () ∧ service.config = configWithoutUsers config := by
  cases hpath with
  | rejected | noop | changeFailed => exact .inl hafter
  | startFailed => simp [failWith] at hafter
  | users hvalid | routes hvalid =>
    cases hafter
    exact .inr ⟨hvalid, rfl⟩
  | changed hvalid _ _ hupd =>
    cases hafter
    exact .inr ⟨hvalid, updateChanged_stored hupd⟩
  | restarted hvalid _ _ hstart =>
    cases hafter
    exact .inr ⟨hvalid, (start_ok hstart).2.2.2.1⟩

theorem SameService.slot {before after : CoreController}
    (hsame : SameService before.service after.service) (tag : String) :
    after.slot tag = before.slot tag := by
  unfold CoreController.slot
  generalize before.service = old at hsame
  generalize after.service = new at hsame
  cases hsame with
  | none => rfl
  | some hsame => exact hsame.slot tag

theorem slot_step (hserve : Serving env controller) (event : Event)
    {after : Slot} (hafter : (controller.step env event).slot tag = some after) :
    SlotStep env controller tag event after := by
  have hpath := step_path env controller event
  generalize controller.step env event = result at hpath hafter
  cases hpath with
  | config hpath =>
    rcases hpath.slot hserve hafter with
      ⟨-, hpre⟩ | ⟨hvalid, hreload, inbound, hmem, htag, hproto, hslot⟩
    · exact .untouched hpre (by simp)
    · exact .config hvalid hreload hmem htag hproto hslot
  | @routes world config service hserv hallow =>
    have hnodup : (config.inbounds.map InboundConfig.tag).Nodup := by
      rw [← map_tag_of_map_shape ((configEqWithoutUsersRoutesAndOutbounds_iff _ _).1 hallow).2]
      exact (hserve.aligned service hserv).nodup
    change (service.updateRoutes config).slot tag = some after at hafter
    rw [slot_updateRoutes service hnodup] at hafter
    split at hafter
    · obtain ⟨before, hpre, rfl⟩ := map_eq_some_iff.1 hafter
      exact .same ((slot_of_service hserv tag).trans hpre) (.setRoutes before _) (by simp)
    · exact .untouched ((slot_of_service hserv tag).trans hafter) (by simp)
  | @delta world nodeTag delta service handle hserv hfind hcheck =>
    change (service.applyAcceptedDelta env world handle delta).1.slot tag = some after at hafter
    rw [slot_applyAcceptedDelta env world hfind] at hafter
    by_cases htag : tag = nodeTag
    · subst htag
      rw [if_pos rfl] at hafter
      obtain ⟨before, hpre, rfl⟩ := map_eq_some_iff.1 hafter
      exact .delta hserv hpre hcheck
    · rw [if_neg htag] at hafter
      refine .untouched ((slot_of_service hserv tag).trans hafter) ?_
      rintro _ _ ⟨⟩
      exact htag rfl
  | stop => simp [CoreController.slot, stop] at hafter
  | other _ _ _ hsame hrefused =>
    rw [hsame.slot] at hafter
    exact .same hafter (.refl after) fun world delta heq => hrefused world _ heq rfl

end CoreController

end KeliCore
