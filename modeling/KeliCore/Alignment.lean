/-
The listeners of a running service are those its configuration asks for.  This
holds when a service starts and every update keeps it.
-/
import KeliCore.Threads

namespace KeliCore

open List InboundConfig ListenerHandle

variable {config : CoreConfig} {host after : Host} {inbounds : List InboundConfig}

/-- An inbound without what can change while its listener runs. -/
def inboundShape (inbound : InboundConfig) : InboundConfig :=
  { inbound with users := [], routes := [] }

theorem inboundEqWithoutUsersRoutes_iff (left right : InboundConfig) :
    inboundEqWithoutUsersRoutes left right = true ↔ inboundShape left = inboundShape right := by
  cases left
  cases right
  simp [inboundEqWithoutUsersRoutes, inboundShape, and_assoc]

theorem inboundEqWithoutUsers_iff (left right : InboundConfig) :
    inboundEqWithoutUsers left right = true ↔
      inboundWithoutUsers left = inboundWithoutUsers right := by
  cases left
  cases right
  simp [inboundEqWithoutUsers, inboundEqWithoutUsersRoutes, inboundWithoutUsers, and_assoc]

theorem inboundsEq_iff {α : Type} {eq : InboundConfig → InboundConfig → Bool}
    {view : InboundConfig → α} (heq : ∀ left right, eq left right = true ↔ view left = view right)
    (left right : List InboundConfig) :
    inboundsEq eq left right = true ↔ left.map view = right.map view := by
  induction left generalizing right with
  | nil => cases right <;> simp [inboundsEq]
  | cons first rest ih =>
    cases right with
    | nil => simp [inboundsEq]
    | cons second others =>
      have hrest := ih others
      simp only [inboundsEq, Bool.and_eq_true, beq_iff_eq] at hrest
      simp only [inboundsEq, length_cons, zip_cons_cons,
        all_cons, Bool.and_eq_true, beq_iff_eq, map_cons,
        cons.injEq, heq, ← hrest, Nat.add_right_cancel_iff]
      tauto

theorem configAllowsListenerLevelUpdate_iff (left right : CoreConfig) :
    configAllowsListenerLevelUpdate left right = true ↔
      left.instanceId = right.instanceId ∧ left.logLevel = right.logLevel ∧
        left.dns = right.dns ∧ left.policy = right.policy ∧
        left.stats = right.stats := by simp [configAllowsListenerLevelUpdate, and_assoc]

theorem configEqWithoutUsers_iff (left right : CoreConfig) :
    configEqWithoutUsers left right = true ↔
      configWithoutUsers left = configWithoutUsers right := by
  simp only [configEqWithoutUsers, Bool.and_eq_true, beq_iff_eq,
    configAllowsListenerLevelUpdate_iff, configWithoutUsers,
    CoreConfig.mk.injEq, inboundsEq_iff inboundEqWithoutUsers_iff]
  tauto

theorem configEqWithoutUsersRoutesAndOutbounds_iff (left right : CoreConfig) :
    configEqWithoutUsersRoutesAndOutbounds left right = true ↔
      configAllowsListenerLevelUpdate left right = true ∧
        left.inbounds.map inboundShape = right.inbounds.map inboundShape := by
  simp only [configEqWithoutUsersRoutesAndOutbounds, Bool.and_eq_true,
    inboundsEq_iff inboundEqWithoutUsersRoutes_iff]

theorem map_tag_of_map_shape {left right : List InboundConfig}
    (hshape : left.map inboundShape = right.map inboundShape) :
    left.map tag = right.map tag := by
  have htags := congrArg (map tag) hshape
  simpa [inboundShape, Function.comp_def] using htags

@[simp] theorem configWithoutUsers_idem (config : CoreConfig) :
    configWithoutUsers (configWithoutUsers config) = configWithoutUsers config := by
  simp [configWithoutUsers, inboundWithoutUsers, Function.comp_def]

/-- Apart from its routes, a listener is determined by the inbound's shape and
the policy. -/
theorem inboundDescriptor_shape {env : Externals} {left right : CoreConfig}
    {first second : InboundConfig} (hpolicy : left.policy = right.policy)
    (hshape : inboundShape first = inboundShape second) :
    { inboundDescriptor env left first with
        routes := right.resolvedInboundRoutes second } =
      inboundDescriptor env right second := by
  have hstrip (config : CoreConfig) (inbound : InboundConfig) (routes : List RouteRule) :
      { inboundDescriptor env config inbound with routes } =
        { inboundDescriptor env config (inboundShape inbound) with routes } :=
    rfl
  have hconfig (inbound : InboundConfig) (routes : List RouteRule) :
      { inboundDescriptor env left inbound with routes } =
        { inboundDescriptor env right inbound with routes } := by
    simp only [inboundDescriptor, hpolicy]
  rw [hstrip, hshape, ← hstrip, hconfig]
  rfl

namespace CoreService

/-- The service's listeners are those of its configuration, in its order. -/
structure Aligned (env : Externals) (service : CoreService) : Prop where
  withoutUsers : configWithoutUsers service.config = service.config
  nodup : (service.config.inbounds.map InboundConfig.tag).Nodup
  listeners : service.listeners.map ListenerHandle.descriptor =
    service.config.inbounds.map (inboundDescriptor env service.config)

/-- Every listener of the service has a thread of its own. -/
structure Runs (service : CoreService) (host : Host) : Prop where
  nodup : (service.listeners.map ListenerHandle.id).Nodup
  running : ∀ handle ∈ service.listeners, host.running.lookup handle.id = some handle.status

variable {env : Externals} {world : World}

theorem map_tag_of_map_descriptor {listeners : List ListenerHandle}
    (hmap : listeners.map descriptor = inbounds.map (inboundDescriptor env config)) :
    (listeners.map fun handle => handle.status.tag) = inbounds.map tag := by
  have htags := congrArg (map ListenerDescriptor.tag) hmap
  simpa [inboundDescriptor, descriptor, Function.comp_def] using htags

namespace Aligned

variable {service : CoreService}

theorem tags (halign : Aligned env service) :
    (service.listeners.map fun handle => handle.status.tag) = service.config.inbounds.map tag :=
  map_tag_of_map_descriptor halign.listeners

theorem nodup_listeners (halign : Aligned env service) :
    (service.listeners.map fun handle => handle.status.tag).Nodup :=
  halign.tags ▸ halign.nodup

theorem slot {inbound : InboundConfig} (halign : Aligned env service)
    (hmem : inbound ∈ service.config.inbounds) : ∃ slot, service.slot inbound.tag = some slot ∧
      slot.handle.descriptor = inboundDescriptor env service.config inbound := by
  have hdescriptor : inboundDescriptor env service.config inbound ∈
        service.listeners.map descriptor := by
    rw [halign.listeners]
    exact mem_map_of_mem hmem
  obtain ⟨handle, hhandle, heq⟩ := mem_map.1 hdescriptor
  have htag : handle.status.tag = inbound.tag := congrArg ListenerDescriptor.tag heq
  have hfind := findHandle_of_mem halign.nodup_listeners hhandle
  rw [htag] at hfind
  exact ⟨_, by rw [CoreService.slot, hfind]; rfl, heq⟩

end Aligned

variable {service : CoreService}

/-- Slots that hold the right listeners, under the right tags, make a list of
the right listeners. -/
theorem map_descriptor_of_slots {wanted : InboundConfig → ListenerDescriptor}
    (htags : (service.listeners.map fun handle => handle.status.tag) =
      inbounds.map tag) (hnodup : (inbounds.map tag).Nodup)
    (hslots : ∀ inbound ∈ inbounds, ∃ slot, service.slot inbound.tag = some slot ∧
        slot.handle.descriptor = wanted inbound) :
    service.listeners.map descriptor = inbounds.map wanted := by
  have hfound : ∀ handle ∈ service.listeners, ∀ inbound ∈ inbounds,
      handle.status.tag = inbound.tag → handle.descriptor = wanted inbound := by
    intro handle hhandle inbound hinbound htag
    obtain ⟨slot, hslot, hwanted⟩ := hslots inbound hinbound
    have hfind := findHandle_of_mem (htags ▸ hnodup) hhandle
    rw [htag, slot_handle hslot] at hfind
    rw [← Option.some.inj hfind, hwanted]
  clear hslots hnodup
  generalize service.listeners = listeners at htags hfound
  induction inbounds generalizing listeners with
  | nil => simpa using htags
  | cons inbound rest ih =>
    cases listeners with
    | nil => simp at htags
    | cons handle others =>
      simp only [map_cons, cons.injEq] at htags ⊢
      refine ⟨hfound handle (by simp) inbound (by simp) htags.1, ih others htags.2 ?_⟩
      intro other hother next hnext
      exact hfound other (.tail _ hother) next (.tail _ hnext)

def threadView (handle : ListenerHandle) : Nat × ListenerStatus :=
  (handle.id, handle.status)

theorem Runs.of_threads {updated : CoreService}
    (hruns : Runs service host) (hthreads : updated.listeners.map threadView =
      service.listeners.map threadView) : Runs updated host where
  nodup := by
    have hids := congrArg (map Prod.fst) hthreads
    simp only [map_map] at hids
    exact hids ▸ hruns.nodup
  running handle hmem := by
    have hview : threadView handle ∈ service.listeners.map threadView :=
      hthreads ▸ mem_map_of_mem hmem
    obtain ⟨old, hold, heq⟩ := mem_map.1 hview
    obtain ⟨hid, hstatus⟩ := Prod.mk.inj heq
    rw [← hid, ← hstatus]
    exact hruns.running old hold

theorem checkConfig_valid (hcheck : checkConfig env world config = .ok ()) :
    config.validate env = .ok () := by
  unfold checkConfig at hcheck
  cases hvalid : config.validate env with
  | error error => simp [hvalid] at hcheck
  | ok value => rfl

theorem start_ok
    (hstart : start env world host config = (after, .ok service)) : config.validate env = .ok () ∧
      host.Spawned after service.listeners ∧
      List.Forall₂ (StartedFor env (configWithoutUsers config)) config.inbounds service.listeners ∧
      service.config = configWithoutUsers config ∧
      service.traffic = ∅ ∧ service.sessions = {} ∧ service.bandwidth = {} ∧
      service.userRevisions = ∅ ∧
      service.userFingerprints = userFingerprintsForInbounds env config.inbounds := by
  unfold start at hstart
  cases hcheck : checkConfig env world config with
  | error error => simp [hcheck] at hstart
  | ok value =>
    simp only [hcheck] at hstart
    split at hstart
    · simp at hstart
    next last listeners hlisteners =>
      cases hstart
      obtain ⟨hspawn, hforall⟩ := startListeners_ok hlisteners
      exact ⟨checkConfig_valid hcheck, hspawn, hforall, rfl, rfl, rfl, rfl, rfl, rfl⟩

/-- A start that fails leaves the listeners it started before the failure. -/
theorem start_error {error : CoreServiceError}
    (hstart : start env world host config = (after, .error error)) :
    ∃ handles, host.Spawned after handles ∧ (handles = [] ↔ checkConfig env world config ≠ .ok () ∨
        ∃ source, world.startListener host.next = .error source) := by
  unfold start at hstart
  cases hcheck : checkConfig env world config with
  | error rejection =>
    rw [hcheck] at hstart
    cases hstart
    exact ⟨[], .none le_rfl rfl, by simp⟩
  | ok value =>
    simp only [hcheck] at hstart
    split at hstart
    next last failure hlisteners =>
      cases hstart
      obtain ⟨handles, hspawn, hempty⟩ := startListeners_error hlisteners
      exact ⟨handles, hspawn, by simpa using hempty⟩
    · simp at hstart

theorem map_descriptor_of_started {handles : List ListenerHandle}
    (hforall : List.Forall₂ (StartedFor env config) inbounds handles) :
    handles.map descriptor = inbounds.map (inboundDescriptor env config) := by
  induction hforall with
  | nil => rfl
  | cons hstarted _ ih => rw [map_cons, map_cons, ih, hstarted.descriptor]

theorem map_inboundDescriptor_withoutUsers (config : CoreConfig) (inbounds : List InboundConfig) :
    (inbounds.map inboundWithoutUsers).map (inboundDescriptor env config) =
      inbounds.map (inboundDescriptor env config) := by
  rw [map_map]
  rfl

theorem Aligned.of_start
    (hstart : start env world host config = (after, .ok service)) : Aligned env service := by
  obtain ⟨hvalid, -, hforall, hconfig, -⟩ := start_ok hstart
  have hdescriptors := map_descriptor_of_started hforall
  constructor
  · rw [hconfig, configWithoutUsers_idem]
  · rw [hconfig, map_tag_configWithoutUsers]
    exact CoreConfig.nodup_of_validate hvalid
  · rw [hdescriptors, hconfig]
    exact (map_inboundDescriptor_withoutUsers _ _).symm

theorem Runs.of_start
    (hstart : start env world host config = (after, .ok service)) : Runs service after :=
  let hspawn := (start_ok hstart).2.1
  ⟨hspawn.nodup, hspawn.running⟩

theorem syncInboundUsers_threadView (service : CoreService)
    (handle : ListenerHandle) (inbound : InboundConfig) :
    threadView (service.syncInboundUsers env handle inbound).2 = threadView handle := by
  rcases syncInboundUsers_cases env service handle inbound with ⟨_, heq⟩ | ⟨_, heq⟩ <;> rw [heq]
  rfl

theorem updateUsers_threads (service : CoreService) (config : CoreConfig) :
    (service.updateUsers env config).listeners.map threadView = service.listeners.map threadView :=
  map_foldl_updateListener threadView (syncInboundUsers_acts env) syncInboundUsers_threadView _ _

theorem updateRoutesAndUsers_threads (service : CoreService) (config : CoreConfig) :
    (service.updateRoutesAndUsers env config).listeners.map threadView =
      service.listeners.map threadView :=
  map_foldl_updateListener threadView (syncUsersAndRoutes_acts env _)
    syncInboundUsers_threadView _ _

theorem updateRoutes_threads (service : CoreService) (config : CoreConfig) :
    (service.updateRoutes config).listeners.map threadView = service.listeners.map threadView :=
  map_foldl_updateListener threadView (syncRoutes_acts _) (fun _ _ _ => rfl) _ _

theorem Aligned.updateUsers
    (halign : Aligned env service) (hsame : service.canUpdateUsers config = true) :
    Aligned env (service.updateUsers env config) := by
  have hconfig : configWithoutUsers config = service.config := by
    rw [← halign.withoutUsers]
    exact ((configEqWithoutUsers_iff _ _).1 hsame).symm
  have hlisteners := map_foldl_updateListener descriptor
    (syncInboundUsers_acts env) (fun service handle inbound => by
      rcases syncInboundUsers_cases env service handle inbound with ⟨_, heq⟩ | ⟨_, heq⟩ <;> rw [heq]
      rfl) config.inbounds service
  constructor
  · exact configWithoutUsers_idem config
  · change ((configWithoutUsers config).inbounds.map _).Nodup
    rw [hconfig]
    exact halign.nodup
  · change (config.inbounds.foldl _ service).listeners.map _ =
      (configWithoutUsers config).inbounds.map (inboundDescriptor env (configWithoutUsers config))
    rw [hlisteners, hconfig, halign.listeners]

/-- Alignment carries over to a service with the same inbounds whose slots got
the routes of the new configuration. -/
theorem Aligned.of_routes {updated : CoreService} (halign : Aligned env service)
    (hallowed : service.canUpdateRoutes config = true)
    (hconfig : updated.config = configWithoutUsers config)
    (hthreads : updated.listeners.map threadView = service.listeners.map threadView)
    (hslots : ∀ inbound ∈ config.inbounds, ∀ slot, service.slot inbound.tag = some slot → ∃ newSlot,
        updated.slot inbound.tag = some newSlot ∧ newSlot.handle.descriptor =
          { slot.handle.descriptor with
            routes := (configWithoutUsers config).resolvedInboundRoutes inbound }) :
    Aligned env updated := by
  obtain ⟨hallow, hshapes⟩ := (configEqWithoutUsersRoutesAndOutbounds_iff _ _).1 hallowed
  have hpolicy : service.config.policy = (configWithoutUsers config).policy :=
    ((configAllowsListenerLevelUpdate_iff _ _).1 hallow).2.2.2.1
  have htags := map_tag_of_map_shape hshapes
  have hnodup : (config.inbounds.map tag).Nodup := htags ▸ halign.nodup
  have hlistenerTags : (updated.listeners.map fun handle => handle.status.tag) =
      config.inbounds.map tag := by
    have hviews := congrArg (map fun view : Nat × ListenerStatus => view.2.tag) hthreads
    simp only [map_map] at hviews
    exact hviews.trans (halign.tags.trans htags)
  have hwanted : ∀ inbound ∈ config.inbounds, ∃ slot,
      updated.slot inbound.tag = some slot ∧ slot.handle.descriptor =
        inboundDescriptor env (configWithoutUsers config) inbound := by
    intro inbound hinbound
    have hshape : inboundShape inbound ∈ service.config.inbounds.map inboundShape :=
      hshapes ▸ mem_map_of_mem hinbound
    obtain ⟨old, hold, heq⟩ := mem_map.1 hshape
    have htag : (inboundShape old).tag = (inboundShape inbound).tag := congrArg tag heq
    obtain ⟨slot, hslot, hdescriptor⟩ := halign.slot hold
    replace hslot : service.slot inbound.tag = some slot := htag ▸ hslot
    obtain ⟨newSlot, hnewSlot, hnew⟩ := hslots inbound hinbound slot hslot
    refine ⟨newSlot, hnewSlot, ?_⟩
    rw [hnew, hdescriptor]
    exact inboundDescriptor_shape hpolicy heq
  constructor
  · rw [hconfig, configWithoutUsers_idem]
  · rw [hconfig, map_tag_configWithoutUsers]
    exact hnodup
  · rw [map_descriptor_of_slots hlistenerTags hnodup hwanted, hconfig]
    exact (map_inboundDescriptor_withoutUsers _ _).symm

theorem Slot.syncUsers_descriptor (inbound : InboundConfig) (slot : Slot) :
    (slot.syncUsers env inbound).handle.descriptor = slot.handle.descriptor := by
  rcases Slot.syncUsers_cases env inbound slot with ⟨_, heq⟩ | ⟨_, heq⟩ <;> rw [heq]
  rfl

theorem Aligned.updateRoutesAndUsers (halign : Aligned env service)
    (hallowed : service.canUpdateRoutes config = true) :
    Aligned env (service.updateRoutesAndUsers env config) := by
  have hshapes := ((configEqWithoutUsersRoutesAndOutbounds_iff _ _).1 hallowed).2
  have hnodup : (config.inbounds.map tag).Nodup := map_tag_of_map_shape hshapes ▸ halign.nodup
  apply halign.of_routes hallowed rfl (updateRoutesAndUsers_threads _ _)
  intro inbound hinbound slot hslot
  rw [slot_updateRoutesAndUsers env service hnodup, findInbound_of_mem hnodup hinbound, hslot]
  refine ⟨_, rfl, ?_⟩
  rw [← Slot.syncUsers_descriptor inbound slot]
  rfl

theorem Aligned.updateRoutes
    (halign : Aligned env service) (hallowed : service.canUpdateRoutes config = true) :
    Aligned env (service.updateRoutes config) := by
  have hshapes := ((configEqWithoutUsersRoutesAndOutbounds_iff _ _).1 hallowed).2
  have hnodup : (config.inbounds.map tag).Nodup := map_tag_of_map_shape hshapes ▸ halign.nodup
  apply halign.of_routes hallowed rfl (updateRoutes_threads _ _)
  intro inbound hinbound slot hslot
  have hmem : inboundWithoutUsers inbound ∈
      (configWithoutUsers config).inbounds := mem_map_of_mem hinbound
  have hfind := findInbound_of_mem (map_tag_configWithoutUsers config ▸ hnodup) hmem
  have htag : (inboundWithoutUsers inbound).tag = inbound.tag := rfl
  rw [htag] at hfind
  rw [slot_updateRoutes service hnodup, hfind, hslot]
  exact ⟨_, rfl, rfl⟩

theorem applyAcceptedDelta_map {nodeTag : String} {α : Type} (view : ListenerHandle → α)
    (hview : ∀ handle table, view { handle with table } = view handle)
    {handle : ListenerHandle} (hfind : findHandle nodeTag service.listeners = some handle)
    (delta : CoreUserDelta) :
    (service.applyAcceptedDelta env world handle delta).1.listeners.map view =
      service.listeners.map view := by
  have hown := findHandle_tag hfind
  subst hown
  exact map_setHandle view hfind (hview _ _)

end CoreService

end KeliCore
