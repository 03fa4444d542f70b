/-
The service after a listener-level update: every inbound of the new
configuration has the listener a start would give it, and the old listeners
that are not kept are stopped.
-/
import KeliCore.Exchange

namespace KeliCore

open Finmap List InboundConfig

namespace CoreService

variable {env : Externals} {service : CoreService} {inbound : InboundConfig} {middle : Host}

section Exchanging

variable {config : CoreConfig}

/-- What an inbound of the new configuration gets, in terms of the old
service's slots. -/
def exchangedSlot (env : Externals) (service : CoreService)
    (config : CoreConfig) (started : List ListenerHandle) (inbound : InboundConfig) : Option Slot :=
  match findHandle inbound.tag started with
  | some handle =>
    some
      { handle
        fingerprint := some (UserFingerprintState.fromUsers env inbound.users)
        revision := none }
  | none =>
    (service.slot inbound.tag).map fun slot =>
      (slot.syncUsers env inbound).setRoutes
        ((configWithoutUsers config).resolvedInboundRoutes inbound)

theorem Slot.syncUsers_threadView (inbound : InboundConfig) (slot : Slot) :
    threadView (slot.syncUsers env inbound).handle = threadView slot.handle := by
  rcases Slot.syncUsers_cases env inbound slot with ⟨_, heq⟩ | ⟨_, heq⟩ <;> rw [heq]
  rfl

variable {started : List ListenerHandle}

theorem exchangedSlot_tag {slot : Slot}
    (hslot : exchangedSlot env service config started inbound = some slot) :
    slot.handle.status.tag = inbound.tag := by
  unfold exchangedSlot at hslot
  split at hslot
  next handle hfind =>
    cases hslot
    exact findHandle_tag hfind
  · obtain ⟨old, hold, rfl⟩ := Option.map_eq_some_iff.1 hslot
    have hview := @Slot.syncUsers_threadView env inbound old
    have hstatus := congrArg (fun view => view.2.tag) hview
    exact hstatus.trans (findHandle_tag (slot_handle hold))

/-- The second loop before its first inbound. -/
def exchangeStart (service : CoreService) (middle : Host)
    (started : List ListenerHandle) : Exchange where
  service := service
  host := middle
  newHandles := .collect (tagged started)
  oldHandles := service.handlesByTag

theorem placedSlot_exchangeStart
    (hnodup : (service.listeners.map fun handle => handle.status.tag).Nodup)
    (hstarted : (started.map fun handle => handle.status.tag).Nodup) (inbound : InboundConfig) :
    placedSlot env (configWithoutUsers config) (exchangeStart service middle started) inbound =
      exchangedSlot env service config started inbound := by
  have hold : service.handlesByTag.lookup inbound.tag = findHandle inbound.tag service.listeners :=
    lookup_collect_tagged hnodup inbound.tag
  simp only [placedSlot, exchangedSlot, exchangeStart, hold,
    lookup_collect_tagged hstarted, CoreService.slot]
  cases findHandle inbound.tag started with
  | some handle => rfl
  | none => rw [Option.map_map]; rfl

/-- Looking up a list that holds at most one listener per inbound. -/
theorem findHandle_filterMap {place : InboundConfig → Option ListenerHandle}
    {inbounds : List InboundConfig} (hnodup : (inbounds.map tag).Nodup)
    (htag : ∀ inbound handle, place inbound = some handle →
      handle.status.tag = inbound.tag) (tag : String) :
    findHandle tag (inbounds.filterMap place) = (findInbound tag inbounds).bind place := by
  induction inbounds with
  | nil => rfl
  | cons inbound rest ih =>
    rw [map_cons, nodup_cons] at hnodup
    have hrest := ih hnodup.2
    by_cases hown : inbound.tag = tag
    · subst hown
      rw [findInbound_eq_none.2 hnodup.1] at hrest
      cases hplace : place inbound with
      | none =>
        rw [filterMap_cons_none hplace, hrest]
        simp [findInbound, hplace]
      | some handle =>
        rw [filterMap_cons_some hplace, findHandle_cons, if_pos (htag inbound handle hplace)]
        simp [findInbound, hplace]
    · have hlater : findInbound tag (inbound :: rest) = findInbound tag rest := by
        simp [findInbound, hown]
      rw [hlater, ← hrest]
      cases hplace : place inbound with
      | none => rw [filterMap_cons_none hplace]
      | some handle =>
        have hne : handle.status.tag ≠ tag :=
          fun heq => hown ((htag inbound handle hplace).symm.trans heq)
        rw [filterMap_cons_some hplace, findHandle_cons, if_neg hne]

/-- The second loop, as `exchangeListeners` runs it. -/
def exchangeLoop (env : Externals) (service : CoreService) (middle : Host)
    (started : List ListenerHandle) (config : CoreConfig) : Exchange :=
  config.inbounds.foldl (exchangeInbound env (configWithoutUsers config))
    (exchangeStart service middle started)

theorem exchanged_exchangeLoop (hnodup : (config.inbounds.map tag).Nodup)
    (service : CoreService) (middle : Host) (started : List ListenerHandle) :
    Exchanged env (configWithoutUsers config) (exchangeStart service middle started)
      config.inbounds (exchangeLoop env service middle started config) :=
  .foldl hnodup _

theorem slot_exchangeListeners (hlisteners :
      (service.listeners.map fun handle => handle.status.tag).Nodup)
    (hnodup : (config.inbounds.map tag).Nodup)
    (hstarted : (started.map fun handle => handle.status.tag).Nodup) (tag : String) :
    (service.exchangeListeners env middle (.collect (tagged started)) config).2.slot tag =
      (findInbound tag config.inbounds).bind (exchangedSlot env service config started) := by
  have hloop := @exchanged_exchangeLoop env _ hnodup service middle started
  have hplaces : ∀ inbound, placedSlot env (configWithoutUsers config)
      (exchangeStart service middle started) inbound =
        exchangedSlot env service config started inbound :=
    placedSlot_exchangeStart hlisteners hstarted
  have hfind : findHandle tag (exchangeLoop env service middle started config).listeners =
        (findInbound tag config.inbounds).bind fun inbound =>
          (exchangedSlot env service config started inbound).map
            Slot.handle := by
    rw [hloop.listeners]
    simp only [hplaces]
    apply findHandle_filterMap hnodup
    intro inbound handle hplace
    obtain ⟨slot, hslot, rfl⟩ := Option.map_eq_some_iff.1 hplace
    exact exchangedSlot_tag hslot
  -- the listener list decides whether there is a slot
  change (findHandle tag (exchangeLoop env service middle started config).listeners).map _ = _
  rw [hfind]
  cases hinbound : findInbound tag config.inbounds with
  | none => rfl
  | some inbound =>
    obtain ⟨hmem, rfl⟩ := findInbound_some hinbound
    cases hslot : exchangedSlot env service config started inbound with
    | none => simp [hslot]
    | some slot =>
      have hdesired : inbound.tag ∈ (configWithoutUsers config).inbounds.map tag := by
        rw [map_tag_configWithoutUsers]
        exact mem_map_of_mem hmem
      obtain ⟨hprint, hrevision⟩ := hloop.placed inbound hmem slot
        ((hplaces inbound).trans hslot)
      have hfingerprints : (service.exchangeListeners env middle
          (.collect (tagged started)) config).2.userFingerprints.lookup
            inbound.tag = slot.fingerprint := by
        rw [← hprint]
        exact lookup_retain_of_keep fun _ => by
          simp only [contains_iff_mem.2 hdesired]
          simp
      have hrevisions : (service.exchangeListeners env middle
          (.collect (tagged started)) config).2.userRevisions.lookup
            inbound.tag = slot.revision := by
        rw [← hrevision]
        exact lookup_retain_of_keep fun _ => by
          simp only [contains_iff_mem.2 hdesired]
          simp
      simp only [Option.bind_some, hslot, Option.map_some, hfingerprints, hrevisions]

theorem listeners_exchangeListeners (hlisteners :
      (service.listeners.map fun handle => handle.status.tag).Nodup)
    (hnodup : (config.inbounds.map tag).Nodup)
    (hstarted : (started.map fun handle => handle.status.tag).Nodup) :
    (service.exchangeListeners env middle (.collect (tagged started)) config).2.listeners =
      config.inbounds.filterMap fun inbound =>
        (exchangedSlot env service config started inbound).map
          Slot.handle := by
  have hloop := @exchanged_exchangeLoop env _ hnodup service middle started
  change (exchangeLoop env service middle started config).listeners = _
  rw [hloop.listeners]
  simp only [placedSlot_exchangeStart hlisteners hstarted]
  rfl

end Exchanging

section Keeping

variable {config : CoreConfig}
    {started : List ListenerHandle}

theorem mem_of_forall₂_right {α β : Type} {relation : α → β → Prop} {left : List α} {right : List β}
    (hforall : List.Forall₂ relation left right) {value : β}
    (hmem : value ∈ right) : ∃ source ∈ left, relation source value := by
  induction hforall with
  | nil => simp at hmem
  | cons hhead _ ih =>
    rcases mem_cons.1 hmem with rfl | hmem
    · exact ⟨_, by simp, hhead⟩
    · obtain ⟨source, hsource, hrel⟩ := ih hmem
      exact ⟨source, .tail _ hsource, hrel⟩

/-- An inbound that needs no new listener had one of the same shape. -/
theorem exists_same_shape (hsame : needsNewListener service inbound = false) :
    ∃ old ∈ service.config.inbounds, old.tag = inbound.tag ∧
      inboundShape old = inboundShape inbound := by
  simp only [needsNewListener, Bool.not_eq_false', Option.any_eq_true] at hsame
  obtain ⟨old, hget, hshape⟩ := hsame
  have hentry := lookup_extend_cases hget
  rcases hentry with hmem | hnone
  · obtain ⟨other, hother, heq⟩ := mem_map.1 hmem
    obtain ⟨htag, rfl⟩ := Prod.mk.inj heq
    exact ⟨other, hother, htag, (inboundEqWithoutUsersRoutes_iff _ _).1 hshape⟩
  · contradiction

/-- Every inbound gets a listener, and it is the one a start would give. -/
theorem exchangedSlot_descriptor (halign : Aligned env service)
    (hallow : configAllowsListenerLevelUpdate service.config (configWithoutUsers config) = true)
    (hnodup : (config.inbounds.map tag).Nodup)
    (hforall : List.Forall₂ (StartedFor env (configWithoutUsers config))
      (config.inbounds.filter (needsNewListener service)) started)
    (hmem : inbound ∈ config.inbounds) :
    ∃ slot, exchangedSlot env service config started inbound = some slot ∧
      slot.handle.descriptor = inboundDescriptor env (configWithoutUsers config) inbound := by
  unfold exchangedSlot
  cases hfind : findHandle inbound.tag started with
  | some handle =>
    obtain ⟨source, hsource, hstarted⟩ := mem_of_forall₂_right hforall (findHandle_mem hfind)
    have htag : source.tag = inbound.tag := hstarted.tag.symm.trans (findHandle_tag hfind)
    obtain rfl := inj_on_of_nodup_map hnodup (mem_of_mem_filter hsource) hmem htag
    exact ⟨_, rfl, hstarted.descriptor⟩
  | none =>
    have hsame : needsNewListener service inbound = false := by
      rw [findHandle_eq_none, started_tags hforall] at hfind
      by_contra hnew
      apply hfind
      apply mem_map_of_mem
      exact mem_filter.2 ⟨hmem, by simpa using hnew⟩
    obtain ⟨old, hold, htag, hshape⟩ := exists_same_shape hsame
    obtain ⟨slot, hslot, hdescriptor⟩ := halign.slot hold
    rw [htag] at hslot
    have hpolicy : service.config.policy = (configWithoutUsers config).policy :=
      ((configAllowsListenerLevelUpdate_iff _ _).1 hallow).2.2.2.1
    refine ⟨_, by rw [hslot]; rfl, ?_⟩
    rw [← inboundDescriptor_shape hpolicy hshape, ← hdescriptor,
      ← Slot.syncUsers_descriptor inbound slot]
    rfl

/-- What holds when the second loop begins. -/
structure Changing (env : Externals) (service : CoreService)
    (host middle : Host) (config : CoreConfig) (started : List ListenerHandle) : Prop where
  aligned : Aligned env service
  runs : Runs service host
  wellFormed : host.WellFormed
  allowed : configAllowsListenerLevelUpdate service.config (configWithoutUsers config) = true
  nodup : (config.inbounds.map InboundConfig.tag).Nodup
  spawned : host.Spawned middle started
  started : List.Forall₂ (StartedFor env (configWithoutUsers config))
    (config.inbounds.filter (needsNewListener service)) started

variable {host : Host}

namespace Changing

section

variable (hchanging : Changing env service host middle config started)

include hchanging

theorem exchanged : Exchanged env (configWithoutUsers config)
    (exchangeStart service middle started) config.inbounds
    (exchangeLoop env service middle started config) :=
  exchanged_exchangeLoop hchanging.nodup service middle started

theorem nodup_started : (started.map fun handle => handle.status.tag).Nodup := by
  rw [started_tags hchanging.started]
  exact (filter_sublist.map _).nodup hchanging.nodup

theorem descriptors : (service.exchangeListeners env middle (.collect (tagged started))
        config).2.listeners.map ListenerHandle.descriptor = config.inbounds.map
        (inboundDescriptor env (configWithoutUsers config)) := by
  rw [listeners_exchangeListeners hchanging.aligned.nodup_listeners
    hchanging.nodup hchanging.nodup_started, map_filterMap]
  have hplaced : ∀ inbound ∈ config.inbounds,
      ((exchangedSlot env service config started inbound).map
        Slot.handle).map ListenerHandle.descriptor =
      some (inboundDescriptor env (configWithoutUsers config) inbound) := by
    intro inbound hmem
    obtain ⟨slot, hslot, hdescriptor⟩ := exchangedSlot_descriptor
      hchanging.aligned hchanging.allowed hchanging.nodup hchanging.started hmem
    rw [hslot, Option.map_some, Option.map_some, hdescriptor]
  rw [filterMap_congr hplaced, filterMap_eq_map']

theorem aligned_exchangeListeners :
    Aligned env (service.exchangeListeners env middle (.collect (tagged started)) config).2 where
  withoutUsers := configWithoutUsers_idem config
  nodup := by
    change ((configWithoutUsers config).inbounds.map _).Nodup
    rw [map_tag_configWithoutUsers]
    exact hchanging.nodup
  listeners := by
    rw [hchanging.descriptors]
    exact (map_inboundDescriptor_withoutUsers _ _).symm

variable {handle : ListenerHandle}

/-- A listener after the exchange was started for it, or is an old one whose
inbound needed no other. -/
theorem origin (hmem : handle ∈ (service.exchangeListeners env middle
      (.collect (tagged started)) config).2.listeners) :
    handle.status.tag ∈ config.inbounds.map tag ∧ (handle ∈ started ∨
        findHandle handle.status.tag started = none ∧
          ∃ old ∈ service.listeners, threadView handle = threadView old) := by
  rw [listeners_exchangeListeners hchanging.aligned.nodup_listeners
    hchanging.nodup hchanging.nodup_started] at hmem
  obtain ⟨inbound, hinbound, hplaced⟩ := mem_filterMap.1 hmem
  obtain ⟨slot, hslot, rfl⟩ := Option.map_eq_some_iff.1 hplaced
  have htag := exchangedSlot_tag hslot
  refine ⟨htag ▸ mem_map_of_mem hinbound, ?_⟩
  rw [htag]
  unfold exchangedSlot at hslot
  split at hslot
  next handle hfind =>
    cases hslot
    exact .inl (findHandle_mem hfind)
  next hfind =>
    obtain ⟨old, hold, rfl⟩ := Option.map_eq_some_iff.1 hslot
    exact .inr ⟨hfind, old.handle, findHandle_mem (slot_handle hold),
      Slot.syncUsers_threadView inbound old⟩

theorem started_mem (hmem : handle ∈ started) : handle ∈ (service.exchangeListeners env middle
      (.collect (tagged started)) config).2.listeners := by
  rw [listeners_exchangeListeners hchanging.aligned.nodup_listeners
    hchanging.nodup hchanging.nodup_started]
  obtain ⟨source, hsource, hstarted⟩ := mem_of_forall₂_right hchanging.started hmem
  refine mem_filterMap.2 ⟨source, mem_of_mem_filter hsource, ?_⟩
  rw [exchangedSlot, ← hstarted.tag, findHandle_of_mem hchanging.nodup_started hmem]
  rfl

theorem old_id_lt (hmem : handle ∈ service.listeners) : handle.id < host.next :=
  hchanging.wellFormed _ _ (hchanging.runs.running handle hmem)

theorem lookup_handlesByTag (tag : String) :
    service.handlesByTag.lookup tag = findHandle tag service.listeners :=
  lookup_collect_tagged hchanging.aligned.nodup_listeners tag

end

/-- The old listeners that go: their inbound is gone or got another one. -/
def Goes (config : CoreConfig) (started : List ListenerHandle) (old : ListenerHandle) : Prop :=
  old.status.tag ∉ config.inbounds.map InboundConfig.tag ∨
    (findHandle old.status.tag started).isSome = true

section

variable (hchanging : Changing env service host middle config started)

include hchanging

variable {old : ListenerHandle}

theorem lookup_stopped (hold : old ∈ service.listeners) (hgoes : Goes config started old) :
    (service.exchangeListeners env middle (.collect (tagged started))
      config).1.running.lookup old.id = none := by
  have hloop := hchanging.exchanged
  have hfind := (hchanging.lookup_handlesByTag old.status.tag).trans
    (findHandle_of_mem hchanging.aligned.nodup_listeners hold)
  change ((exchangeLoop env service middle started config).host.stopThreads
    (handleIds (exchangeLoop env service middle started
      config).oldHandles)).running.lookup old.id = none
  rw [Host.lookup_stopThreads]
  by_cases hgone : old.status.tag ∈ config.inbounds.map tag
  · obtain ⟨inbound, hmem, htag⟩ := mem_map.1 hgone
    have hnew := hgoes.resolve_left (not_not_intro hgone)
    rw [hloop.stopped]
    · simp
    · refine ⟨inbound, hmem, ?_, old, ?_, rfl⟩
      · rw [htag]
        change ((collect (tagged started)).lookup _).isSome = true
        rw [lookup_collect_tagged hchanging.nodup_started]
        exact hnew
      · rw [htag]
        exact hfind
  · rw [if_pos]
    rw [mem_handleIds]
    refine ⟨old.status.tag, old, ?_, rfl⟩
    rw [hloop.oldHandles, if_neg hgone]
    exact hfind

theorem lookup_kept {id : Nat}
    (hkept : ∀ old ∈ service.listeners, old.id = id → ¬ Goes config started old) :
    (service.exchangeListeners env middle (.collect (tagged started))
      config).1.running.lookup id = middle.running.lookup id := by
  have hloop := hchanging.exchanged
  change ((exchangeLoop env service middle started config).host.stopThreads
    (handleIds (exchangeLoop env service middle started config).oldHandles)).running.lookup id = _
  rw [Host.lookup_stopThreads, if_neg, hloop.running]
  · rfl
  · rintro ⟨inbound, hmem, hnew, old, hold, hid⟩
    change ((collect (tagged started)).lookup _).isSome = true at hnew
    rw [lookup_collect_tagged hchanging.nodup_started] at hnew
    change service.handlesByTag.lookup _ = _ at hold
    rw [hchanging.lookup_handlesByTag] at hold
    rw [← findHandle_tag hold] at hnew
    exact hkept old (findHandle_mem hold) hid (.inr hnew)
  · rw [mem_handleIds]
    rintro ⟨tag, old, hold, hid⟩
    rw [hloop.oldHandles] at hold
    split at hold
    · contradiction
    next hgone =>
      change service.handlesByTag.lookup _ = _ at hold
      rw [hchanging.lookup_handlesByTag] at hold
      rw [← findHandle_tag hold] at hgone
      exact hkept old (findHandle_mem hold) hid (.inl hgone)

theorem eq_of_id {first second : ListenerHandle} (hfirst : first ∈ service.listeners)
    (hsecond : second ∈ service.listeners) (hid : first.id = second.id) : first = second :=
  inj_on_of_nodup_map hchanging.runs.nodup hfirst hsecond hid

theorem started_id_ne {new : ListenerHandle} (hnew : new ∈ started)
    (hold : old ∈ service.listeners) : old.id ≠ new.id := by
  have hlt := hchanging.old_id_lt hold
  have hle := (hchanging.spawned.fresh new hnew).1
  omega

theorem runs_exchangeListeners :
    Runs (service.exchangeListeners env middle (.collect (tagged started)) config).2
      (service.exchangeListeners env middle (.collect (tagged started)) config).1 := by
  constructor
  · have htags := hchanging.aligned_exchangeListeners.nodup_listeners
    apply List.Nodup.map_on _ (List.Nodup.of_map _ htags)
    intro first hfirst second hsecond hid
    apply inj_on_of_nodup_map htags hfirst hsecond
    obtain ⟨-, hfirst | ⟨-, old, hold, hview⟩⟩ := hchanging.origin hfirst <;>
      obtain ⟨-, hsecond | ⟨-, other, hother, hother'⟩⟩ := hchanging.origin hsecond
    · rw [inj_on_of_nodup_map hchanging.spawned.nodup hfirst hsecond hid]
    · exact absurd ((congrArg Prod.fst hother').symm.trans hid.symm)
        (hchanging.started_id_ne hfirst hother)
    · exact absurd ((congrArg Prod.fst hview).symm.trans hid) (hchanging.started_id_ne hsecond hold)
    · have hsame := hchanging.eq_of_id hold hother ((congrArg Prod.fst hview).symm.trans
          (hid.trans (congrArg Prod.fst hother')))
      subst hsame
      exact (congrArg (fun view => view.2.tag) hview).trans
        (congrArg (fun view => view.2.tag) hother').symm
  · intro handle hmem
    obtain ⟨hdesired, hnew | ⟨hnone, old, hold, hview⟩⟩ := hchanging.origin hmem
    · rw [hchanging.lookup_kept]
      · exact hchanging.spawned.running handle hnew
      · intro old hold hid
        exact absurd hid (hchanging.started_id_ne hnew hold)
    · have hid : handle.id = old.id := congrArg Prod.fst hview
      have hstatus : handle.status = old.status := congrArg Prod.snd hview
      rw [hchanging.lookup_kept, hid, hchanging.spawned.others, hstatus]
      · exact hchanging.runs.running old hold
      · intro hstarted
        obtain ⟨new, hnew, heq⟩ := mem_map.1 hstarted
        exact hchanging.started_id_ne hnew hold heq.symm
      · intro other hother hsame hgoes
        obtain rfl := hchanging.eq_of_id hother hold (hsame.trans hid)
        rw [hstatus] at hdesired hnone
        rcases hgoes with hgone | hreplaced
        · exact hgone hdesired
        · simp [hnone] at hreplaced

theorem kept_mem (hold : old ∈ service.listeners) (hkept : ¬ Goes config started old) :
    old.id ∈ (service.exchangeListeners env middle (.collect (tagged started))
      config).2.listeners.map ListenerHandle.id := by
  simp only [Goes, not_or, not_not] at hkept
  obtain ⟨hdesired, hnew⟩ := hkept
  rw [Bool.not_eq_true, Option.isSome_eq_false_iff, Option.isNone_iff_eq_none] at hnew
  obtain ⟨inbound, hmem, htag⟩ := mem_map.1 hdesired
  have hfind := findHandle_of_mem hchanging.aligned.nodup_listeners hold
  rw [← htag] at hfind hnew
  obtain ⟨slot, hslot, rfl⟩ : ∃ slot, service.slot inbound.tag = some slot ∧ slot.handle = old := by
    rw [CoreService.slot, hfind]
    exact ⟨_, rfl, rfl⟩
  rw [listeners_exchangeListeners hchanging.aligned.nodup_listeners
    hchanging.nodup hchanging.nodup_started]
  refine mem_map.2 ⟨((slot.syncUsers env inbound).setRoutes
    ((configWithoutUsers config).resolvedInboundRoutes inbound)).handle,
    mem_filterMap.2 ⟨inbound, hmem, ?_⟩,
    congrArg Prod.fst (@Slot.syncUsers_threadView env inbound slot)⟩
  rw [exchangedSlot, hnew, hslot]
  rfl

/-- Of the threads that are not the new service's, those of the old service
are stopped and the others run on. -/
theorem lookup_others {id : Nat} (hid : id ∉ (service.exchangeListeners env middle
      (.collect (tagged started)) config).2.listeners.map ListenerHandle.id) :
    (service.exchangeListeners env middle (.collect (tagged started)) config).1.running.lookup id =
      if id ∈ service.listeners.map ListenerHandle.id then none
      else host.running.lookup id := by
  by_cases hmem : id ∈ service.listeners.map ListenerHandle.id
  · rw [if_pos hmem]
    obtain ⟨old, hold, rfl⟩ := mem_map.1 hmem
    apply hchanging.lookup_stopped hold
    by_contra hkept
    exact hid (hchanging.kept_mem hold hkept)
  · rw [if_neg hmem, hchanging.lookup_kept, hchanging.spawned.others]
    · intro hstarted
      obtain ⟨new, hnew, rfl⟩ := mem_map.1 hstarted
      exact hid (mem_map_of_mem (hchanging.started_mem hnew))
    · intro old hold heq
      exact absurd (heq ▸ mem_map_of_mem hold) hmem

theorem wellFormed_exchangeListeners :
    (service.exchangeListeners env middle (.collect (tagged started)) config).1.WellFormed := by
  have hloop := hchanging.exchanged
  have hmiddle := hchanging.spawned.wellFormed hchanging.wellFormed
  intro id status hget
  change id < (exchangeLoop env service middle started config).host.next
  rw [hloop.next]
  apply hmiddle id status
  rw [← hget]
  symm
  apply hchanging.lookup_kept
  intro old hold hid hgoes
  rw [← hid, hchanging.lookup_stopped hold hgoes] at hget
  contradiction

end

end Changing

/-- What a listener-level update does, when it happens. -/
structure Changed (env : Externals) (service : CoreService) (host : Host)
    (config : CoreConfig) (after : Host) (updated : CoreService) : Prop where
  valid : config.validate env = .ok ()
  stored : updated.config = configWithoutUsers config
  aligned : Aligned env updated
  runs : Runs updated after
  wellFormed : after.WellFormed
  others : ∀ id, id ∉ updated.listeners.map ListenerHandle.id →
    after.running.lookup id = if id ∈ service.listeners.map ListenerHandle.id then none
      else host.running.lookup id
  slots : ∃ started : List ListenerHandle, List.Forall₂ (StartedFor env (configWithoutUsers config))
      (config.inbounds.filter (needsNewListener service)) started ∧
    (∀ handle ∈ started, host.next ≤ handle.id) ∧
    ∀ tag, updated.slot tag = (findInbound tag config.inbounds).bind
      (exchangedSlot env service config started)
  traffic : updated.traffic = service.traffic
  sessions : updated.sessions = service.sessions

theorem updateChanged_changed {world : World} {updated : CoreService} {after : Host}
    (halign : Aligned env service) (hruns : Runs service host) (hwf : host.WellFormed)
    (hupd : service.updateChangedListenersAndUsers env world host config =
      ((after, updated), .ok true)) : Changed env service host config after updated := by
  obtain ⟨hvalid, hallow, middle, started, hspawn, hforall, hexchange⟩ :=
    updateChanged_some hupd
  have hchanging : Changing env service host middle config started :=
    ⟨halign, hruns, hwf, hallow, CoreConfig.nodup_of_validate hvalid, hspawn, hforall⟩
  have hloop := hchanging.exchanged
  cases hexchange
  exact
    { valid := hvalid
      stored := rfl
      aligned := hchanging.aligned_exchangeListeners
      runs := hchanging.runs_exchangeListeners
      wellFormed := hchanging.wellFormed_exchangeListeners
      others := fun _ => hchanging.lookup_others
      slots := ⟨started, hforall, fun handle hmem =>
        (hspawn.fresh handle hmem).1, slot_exchangeListeners
        halign.nodup_listeners hchanging.nodup hchanging.nodup_started⟩
      traffic := hloop.traffic
      sessions := hloop.sessions }

end Keeping

end CoreService

end KeliCore
