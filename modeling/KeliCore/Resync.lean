/-
What a hot configuration does to the stores that all inbounds share.  It never
revokes, closes or clears anything: it sets the limiters of the users it puts
into a table, and nothing else.
-/
import KeliCore.HotUpdate
import KeliCore.Sweep

namespace KeliCore

open List InboundConfig

variable (service : CoreService)

namespace CoreService

/-- The limiters that changed belong to users listed for an inbound whose
listener had its table built from this list; nothing else changed. -/
structure Resynced (env : Externals) (inbounds : List InboundConfig)
    (listeners : List ListenerHandle) (before after : UserBandwidthLimiters) : Prop where
  connections : after.connections = before.connections
  limiters : ∀ uuid, after.limiters.lookup uuid = before.limiters.lookup uuid ∨
      before.limiters.lookup uuid ≠ none ∧
        ∃ inbound ∈ inbounds, ∃ handle ∈ listeners, handle.status.tag = inbound.tag ∧
          handle.table = .build env handle.status.protocol inbound.users ∧
          uuid ∈ (handle.limitedUsers inbound.users).map CoreUser.uuid

variable {handle : ListenerHandle} {env : Externals}

namespace Resynced

variable {env : Externals}
    {listeners others : List ListenerHandle}
    {before middle after : UserBandwidthLimiters}

theorem refl (env : Externals) (inbounds : List InboundConfig)
    (listeners : List ListenerHandle) (bandwidth : UserBandwidthLimiters) :
    Resynced env inbounds listeners bandwidth bandwidth where
  connections := rfl
  limiters _ := Or.inl rfl

variable {inbounds : List InboundConfig} {inbound : InboundConfig}

theorem mono {rest : List InboundConfig} (hresynced : Resynced env inbounds listeners before after)
    (hinbounds : inbounds ⊆ rest) (hlisteners : ∀ handle ∈ listeners,
      handle.status.tag ∈ inbounds.map tag → handle ∈ others) :
    Resynced env rest others before after where
  connections := hresynced.connections
  limiters uuid := by
    refine (hresynced.limiters uuid).imp_right ?_
    rintro ⟨hsome, inbound, hinbound, handle, hhandle, htag, htable, hlisted⟩
    refine ⟨hsome, inbound, hinbounds hinbound, handle, ?_, htag, htable, hlisted⟩
    exact hlisteners handle hhandle (htag ▸ mem_map_of_mem hinbound)

theorem trans (hfirst : Resynced env inbounds listeners before middle)
    (hsecond : Resynced env inbounds listeners middle after) :
    Resynced env inbounds listeners before after where
  connections := hsecond.connections.trans hfirst.connections
  limiters uuid := by
    rcases hfirst.limiters uuid with hsame | hchanged
    · have hthen := hsecond.limiters uuid
      rw [hsame] at hthen
      exact hthen
    · exact .inr hchanged

theorem syncInboundUsers (htag : handle.status.tag = inbound.tag) :
    Resynced env [inbound] [(service.syncInboundUsers env handle inbound).2] service.bandwidth
      (service.syncInboundUsers env handle inbound).1.bandwidth := by
  rcases syncInboundUsers_cases env service handle inbound with ⟨-, heq⟩ | ⟨-, heq⟩
  · rw [heq]
    exact refl env _ _ _
  · rw [heq]
    refine ⟨rfl, fun uuid => ?_⟩
    by_cases hlisted : uuid ∈ (handle.limitedUsers inbound.users).map CoreUser.uuid
    · by_cases hnone : service.bandwidth.limiters.lookup uuid = none
      · left
        rw [hnone]
        exact UserBandwidthLimiters.lookup_syncUsers_none _ hnone _
      · right
        exact ⟨hnone, inbound, mem_singleton_self _, _, mem_singleton_self _, htag, rfl, hlisted⟩
    · left
      exact UserBandwidthLimiters.lookup_syncUsers_other _ hlisted

theorem syncUsersAndRoutes (activeConfig : CoreConfig) (htag : handle.status.tag = inbound.tag) :
    Resynced env [inbound] [(service.syncUsersAndRoutes env activeConfig handle inbound).2]
      service.bandwidth (service.syncUsersAndRoutes env activeConfig handle
        inbound).1.bandwidth where
  connections := (syncInboundUsers service htag).connections
  limiters uuid := by
    refine ((syncInboundUsers service htag).limiters uuid).imp_right ?_
    rintro ⟨hsome, found, hfound, changed, hchanged, hrest⟩
    obtain rfl := mem_singleton.1 hchanged
    exact ⟨hsome, found, hfound, _, mem_singleton_self _, hrest⟩

end Resynced

theorem mem_setHandle {listeners : List ListenerHandle} {old : ListenerHandle}
    (hfind : findHandle handle.status.tag listeners = some old) :
    handle ∈ setHandle handle listeners := by
  induction listeners with
  | nil => simp [findHandle] at hfind
  | cons first rest ih =>
    rw [findHandle_cons] at hfind
    by_cases htag : first.status.tag = handle.status.tag
    · simp [setHandle, htag]
    · rw [if_neg htag] at hfind
      rw [setHandle, if_neg htag]
      exact .tail _ (ih hfind)

theorem mem_setHandle_of_ne {handle other : ListenerHandle}
    {listeners : List ListenerHandle} (hmem : other ∈ listeners)
    (htag : other.status.tag ≠ handle.status.tag) : other ∈ setHandle handle listeners := by
  induction listeners with
  | nil => simp at hmem
  | cons first rest ih =>
    rw [setHandle]
    split
    next hfirst =>
      rcases mem_cons.1 hmem with rfl | hrest
      · exact absurd hfirst htag
      · exact .tail _ hrest
    · rcases mem_cons.1 hmem with rfl | hrest
      · exact .head _
      · exact .tail _ (ih hrest)

section Update

variable {change : CoreService → ListenerHandle → InboundConfig → CoreService × ListenerHandle}
  {update : InboundConfig → Slot → Slot}

theorem mem_foldl_updateListener (hacts : ActsOnSlot change update)
    {inbounds : List InboundConfig} {service : CoreService} (hmem : handle ∈ service.listeners)
    (htag : handle.status.tag ∉ inbounds.map tag) :
    handle ∈ (inbounds.foldl (updateListener change) service).listeners := by
  induction inbounds generalizing service with
  | nil => exact hmem
  | cons inbound rest ih =>
    rw [map_cons, mem_cons, not_or] at htag
    rw [foldl_cons]
    apply ih _ htag.2
    unfold updateListener
    split
    · exact hmem
    next old hfind =>
      apply mem_setHandle_of_ne
      · rw [hacts.listeners]
        exact hmem
      · rw [hacts.tag, findHandle_tag hfind]
        exact htag.1

theorem resynced_foldl_updateListener (hacts : ActsOnSlot change update)
    (hchange : ∀ service handle inbound, handle.status.tag = inbound.tag →
      Resynced env [inbound] [(change service handle inbound).2]
        service.bandwidth (change service handle inbound).1.bandwidth)
    {inbounds : List InboundConfig} (hnodup : (inbounds.map tag).Nodup) (service : CoreService) :
    Resynced env inbounds (inbounds.foldl (updateListener change) service).listeners
      service.bandwidth (inbounds.foldl (updateListener change) service).bandwidth := by
  induction inbounds generalizing service with
  | nil => exact .refl env _ _ _
  | cons inbound rest ih =>
    rw [map_cons, nodup_cons] at hnodup
    rw [foldl_cons]
    refine .trans ?_ ((ih hnodup.2 _).mono (subset_cons_self _ _) fun handle hmem _ => hmem)
    -- The changed listener is no longer touched.
    cases hfind : findHandle inbound.tag service.listeners with
    | none =>
      rw [updateListener, hfind]
      exact .refl env _ _ _
    | some handle =>
      have hown := findHandle_tag hfind
      have htag : (change service handle inbound).2.status.tag =
          inbound.tag := (hacts.tag service handle inbound).trans hown
      have hstep := hchange service handle inbound hown
      rw [updateListener, hfind]
      refine hstep.mono (by simp) fun changed hmem _ => ?_
      obtain rfl := mem_singleton.1 hmem
      apply mem_foldl_updateListener hacts
      · dsimp only
        rw [hacts.listeners]
        apply mem_setHandle
        rw [htag]
        exact hfind
      · rw [htag]
        exact hnodup.1

end Update

section Exchange

variable {activeConfig : CoreConfig}

theorem subset_exchangeInbound (exchange : Exchange) (inbound : InboundConfig) :
    exchange.listeners ⊆ (exchangeInbound env activeConfig exchange inbound).listeners := by
  unfold exchangeInbound
  dsimp only
  split
  · exact subset_append_left _ _
  · split
    · exact List.Subset.refl _
    · exact subset_append_left _ _

theorem subset_foldl_exchangeInbound (inbounds : List InboundConfig) (exchange : Exchange) :
    exchange.listeners ⊆ (inbounds.foldl (exchangeInbound env activeConfig)
        exchange).listeners := by
  induction inbounds generalizing exchange with
  | nil => exact List.Subset.refl _
  | cons inbound rest ih => exact List.Subset.trans (subset_exchangeInbound exchange inbound) (ih _)

/-- The old listeners are filed under their tags. -/
def Exchange.Tagged (exchange : Exchange) : Prop :=
  ∀ tag handle, exchange.oldHandles.lookup tag = some handle → handle.status.tag = tag

theorem Exchange.Tagged.exchangeInbound {exchange : Exchange}
    (htagged : exchange.Tagged) (inbound : InboundConfig) :
    (CoreService.exchangeInbound env activeConfig exchange inbound).Tagged := by
  have herase : ∀ tag handle, (exchange.oldHandles.erase inbound.tag).lookup tag = some handle →
        handle.status.tag = tag := by
    intro tag handle hget
    exact htagged tag handle (Finmap.of_lookup_erase hget).2
  unfold CoreService.exchangeInbound
  dsimp only
  split
  · exact herase
  · split
    · exact htagged
    · exact herase

theorem resynced_exchangeInbound {env : Externals} {activeConfig : CoreConfig} {exchange : Exchange}
    (htagged : exchange.Tagged) (inbound : InboundConfig) :
    Resynced env [inbound] (exchangeInbound env activeConfig exchange inbound).listeners
      exchange.service.bandwidth (exchangeInbound env activeConfig exchange
        inbound).service.bandwidth := by
  unfold exchangeInbound
  dsimp only
  split
  · exact .refl env _ _ _
  · split
    · exact .refl env _ _ _
    next handle hget =>
      refine (Resynced.syncUsersAndRoutes exchange.service activeConfig
        (htagged _ _ hget)).mono (by simp) fun changed hmem _ => ?_
      exact mem_append_right _ hmem

theorem resynced_foldl_exchangeInbound {env : Externals} {activeConfig : CoreConfig}
    (inbounds : List InboundConfig) {exchange : Exchange} (htagged : exchange.Tagged) :
    Resynced env inbounds (inbounds.foldl (exchangeInbound env activeConfig) exchange).listeners
      exchange.service.bandwidth (inbounds.foldl (exchangeInbound env activeConfig)
        exchange).service.bandwidth := by
  induction inbounds generalizing exchange with
  | nil => exact .refl env _ _ _
  | cons inbound rest ih =>
    have hfirst := @resynced_exchangeInbound env activeConfig exchange htagged inbound
    have hrest := @ih (exchangeInbound env activeConfig exchange inbound)
      (htagged.exchangeInbound inbound)
    rw [foldl_cons]
    refine (hfirst.mono (by simp) fun handle hmem _ => ?_).trans
      (hrest.mono (subset_cons_self _ _) fun handle hmem _ => hmem)
    exact subset_foldl_exchangeInbound rest _ hmem

theorem tagged_handlesByTag (tag : String) (handle : ListenerHandle)
    (hget : service.handlesByTag.lookup tag = some handle) : handle.status.tag = tag := by
  rcases Finmap.lookup_extend_cases hget with hmem | hempty
  · obtain ⟨found, -, heq⟩ := mem_map.1 hmem
    cases heq
    rfl
  · simp at hempty

end Exchange

theorem HotUpdate.stores {env : Externals} {world : World}
    {service updated : CoreService} {host after : Host} {config : CoreConfig}
    (hhot : HotUpdate env world service host config after updated)
    (hnodup : (config.inbounds.map tag).Nodup) :
    Resynced env config.inbounds updated.listeners service.bandwidth updated.bandwidth ∧
      updated.sessions = service.sessions := by
  cases hhot with
  | users =>
    refine ⟨resynced_foldl_updateListener (syncInboundUsers_acts env)
      (fun service _ _ htag => .syncInboundUsers service htag) hnodup service, ?_⟩
    exact foldl_updateListener_frame CoreService.sessions (fun service handle inbound =>
      (syncInboundUsers_frame env service handle inbound).2) (fun _ _ => rfl) _ service
  | routes =>
    refine ⟨resynced_foldl_updateListener (syncUsersAndRoutes_acts env (configWithoutUsers config))
      (fun service _ _ htag => .syncUsersAndRoutes service _ htag) hnodup service, ?_⟩
    refine foldl_updateListener_frame CoreService.sessions ?_ (fun _ _ => rfl) _ service
    exact fun service handle inbound => (syncInboundUsers_frame env service handle inbound).2
  | changed hupd =>
    obtain ⟨-, -, middle, started, -, -, hexchange⟩ := updateChanged_some hupd
    cases hexchange
    constructor
    · exact @resynced_foldl_exchangeInbound env (configWithoutUsers config)
        config.inbounds _ (tagged_handlesByTag service)
    · exact (Exchanged.foldl hnodup _).sessions

end CoreService

end KeliCore
