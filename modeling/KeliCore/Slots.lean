/-
A service seen one inbound at a time.  What belongs to one inbound is its
listener, the fingerprint of its users and its revision: a slot.  Each update
of the service acts on every slot by itself, and this module says how.
-/
import KeliCore.Controller

namespace KeliCore

open List UserFingerprintState

variable {inbounds : List InboundConfig}
  {listeners : List ListenerHandle}
variable (env : Externals) (service : CoreService)

/-- What a service keeps for one inbound. -/
structure Slot where
  handle : ListenerHandle
  fingerprint : Option UserFingerprintState
  revision : Option String

namespace Slot

/-- Users replaced unless the fingerprint says that they are the same. -/
def syncUsers (env : Externals) (inbound : InboundConfig) (slot : Slot) :
    Slot :=
  let fingerprint := UserFingerprintState.fromUsers env inbound.users
  if slot.fingerprint = some fingerprint then slot
  else
    { handle :=
        { slot.handle with
          table := .build env slot.handle.status.protocol inbound.users }
      fingerprint := some fingerprint
      revision := none }

theorem syncUsers_cases (inbound : InboundConfig) (slot : Slot) :
    (slot.fingerprint = some (fromUsers env inbound.users) ∧ slot.syncUsers env inbound = slot) ∨
    (slot.fingerprint ≠ some (fromUsers env inbound.users) ∧ slot.syncUsers env inbound =
        { handle :=
            { slot.handle with
              table := .build env slot.handle.status.protocol inbound.users }
          fingerprint := some (fromUsers env inbound.users)
          revision := none }) := by
  by_cases hsame : slot.fingerprint = some (fromUsers env inbound.users)
  · exact .inl ⟨hsame, if_pos hsame⟩
  · exact .inr ⟨hsame, if_neg hsame⟩

def setRoutes (routes : List RouteRule) (slot : Slot) : Slot :=
  { slot with handle := slot.handle.replaceRoutes routes }

/-- The effect of an accepted delta. -/
def applyDelta (env : Externals) (order : UserOrder) (delta : CoreUserDelta)
    (slot : Slot) : Slot where
  handle :=
    { slot.handle with
      table := (slot.handle.table.applyDelta env order
        slot.handle.status.protocol (slot.handle.limitedDelta delta)).1 }
  fingerprint := some (UserFingerprintState.applyDelta env (slot.fingerprint.getD ∅) delta)
  revision :=
    match delta.revision, delta.full with
    | some revision, _ => some revision
    | none, some _ => none
    | none, none => slot.revision

end Slot

namespace CoreService

/-- The slot of an inbound that has a listener. -/
def slot (service : CoreService) (tag : String) : Option Slot :=
  (findHandle tag service.listeners).map fun handle =>
    { handle
      fingerprint := service.userFingerprints.lookup tag
      revision := service.userRevisions.lookup tag }

theorem findHandle_cons (tag : String) (handle : ListenerHandle) (listeners : List ListenerHandle) :
    findHandle tag (handle :: listeners) = if handle.status.tag = tag then some handle
      else findHandle tag listeners := by
  by_cases htag : handle.status.tag = tag <;> simp [findHandle, htag]

variable {tag : String} {handle : ListenerHandle}
  {change : CoreService → ListenerHandle → InboundConfig → CoreService × ListenerHandle}
  {update : InboundConfig → Slot → Slot} {inbound : InboundConfig}

theorem findHandle_tag (hfind : findHandle tag listeners = some handle) :
    handle.status.tag = tag := by simpa using find?_some hfind

theorem findHandle_mem (hfind : findHandle tag listeners = some handle) : handle ∈ listeners :=
  mem_of_find?_eq_some hfind

theorem findHandle_eq_none : findHandle tag listeners = none ↔
      tag ∉ listeners.map fun handle => handle.status.tag := by simp [findHandle]

theorem findHandle_of_mem (hnodup : (listeners.map fun handle => handle.status.tag).Nodup)
    (hmem : handle ∈ listeners) : findHandle handle.status.tag listeners = some handle := by
  induction listeners with
  | nil => simp at hmem
  | cons first rest ih =>
    rw [map_cons, nodup_cons] at hnodup
    rw [findHandle_cons]
    rcases mem_cons.1 hmem with rfl | hrest
    · simp
    · have hne : first.status.tag ≠ handle.status.tag := by
        intro heq
        apply hnodup.1
        rw [heq]
        exact mem_map_of_mem hrest
      rw [if_neg hne]
      exact ih hnodup.2 hrest

variable {α : Type}

theorem map_setHandle {old : ListenerHandle} (view : ListenerHandle → α)
    (hfind : findHandle handle.status.tag listeners = some old) (hview : view handle = view old) :
    (setHandle handle listeners).map view = listeners.map view := by
  induction listeners with
  | nil => rfl
  | cons first rest ih =>
    rw [findHandle_cons] at hfind
    by_cases htag : first.status.tag = handle.status.tag
    · rw [if_pos htag] at hfind
      cases hfind
      simp [setHandle, htag, hview]
    · rw [if_neg htag] at hfind
      simp [setHandle, htag, ih hfind]

theorem findHandle_setHandle (tag : String) {handle old : ListenerHandle}
    {listeners : List ListenerHandle} (hfind : findHandle handle.status.tag listeners = some old) :
    findHandle tag (setHandle handle listeners) = if tag = handle.status.tag then some handle
      else findHandle tag listeners := by
  induction listeners with
  | nil => simp [findHandle] at hfind
  | cons first rest ih =>
    rw [findHandle_cons] at hfind
    by_cases hfirst : first.status.tag = handle.status.tag
    · rw [setHandle, if_pos hfirst, findHandle_cons, findHandle_cons, hfirst]
      by_cases htag : tag = handle.status.tag
      · simp [htag]
      · rw [if_neg (Ne.symm htag), if_neg htag, if_neg (Ne.symm htag)]
    · rw [if_neg hfirst] at hfind
      rw [setHandle, if_neg hfirst, findHandle_cons, findHandle_cons, ih hfind]
      by_cases htag : tag = handle.status.tag
      · have hne : first.status.tag ≠ tag := fun h => hfirst (h.trans htag)
        rw [if_neg hne, if_pos htag, if_pos htag]
      · simp [htag]

theorem slot_handle {service : CoreService} {slot : Slot} (hslot : service.slot tag = some slot) :
    findHandle tag service.listeners = some slot.handle := by
  obtain ⟨handle, hfind, rfl⟩ := Option.map_eq_some_iff.1 hslot
  exact hfind

/-- A change of one listener acts on the slot of its inbound as `update` does,
and on no other slot. -/
structure ActsOnSlot (change : CoreService → ListenerHandle → InboundConfig →
      CoreService × ListenerHandle) (update : InboundConfig → Slot → Slot) : Prop where
  listeners : ∀ service handle inbound,
    (change service handle inbound).1.listeners = service.listeners
  tag : ∀ service handle inbound, (change service handle inbound).2.status.tag = handle.status.tag
  slot : ∀ service handle inbound, Slot.mk (change service handle inbound).2
        ((change service handle inbound).1.userFingerprints.lookup inbound.tag)
        ((change service handle inbound).1.userRevisions.lookup inbound.tag) = update inbound
        { handle
          fingerprint := service.userFingerprints.lookup inbound.tag
          revision := service.userRevisions.lookup inbound.tag }
  fingerprints : ∀ service handle inbound tag, tag ≠ inbound.tag →
    (change service handle inbound).1.userFingerprints.lookup tag =
      service.userFingerprints.lookup tag
  revisions : ∀ service handle inbound tag, tag ≠ inbound.tag →
    (change service handle inbound).1.userRevisions.lookup tag = service.userRevisions.lookup tag

section Updates

theorem slot_updateListener (hacts : ActsOnSlot change update)
    (service : CoreService) (inbound : InboundConfig) (tag : String) :
    (updateListener change service inbound).slot tag =
      if tag = inbound.tag then (service.slot tag).map (update inbound)
      else service.slot tag := by
  unfold updateListener
  cases hfind : findHandle inbound.tag service.listeners with
  | none =>
    by_cases htag : tag = inbound.tag
    · simp [slot, htag, hfind]
    · simp [htag]
  | some handle =>
    have hown := findHandle_tag hfind
    have htagged := (hacts.tag service handle inbound).trans hown
    have hset := findHandle_setHandle tag (htagged.symm ▸ hfind : findHandle
        (change service handle inbound).2.status.tag service.listeners = some handle)
    rw [htagged] at hset
    simp only [slot, hacts.listeners, hset]
    by_cases htag : tag = inbound.tag
    · subst htag
      simp [hfind, hacts.slot]
    · simp [htag, hacts.fingerprints service handle inbound tag htag,
        hacts.revisions service handle inbound tag htag]

theorem slot_foldl_updateListener (hacts : ActsOnSlot change update)
    (hnodup : (inbounds.map InboundConfig.tag).Nodup) (service : CoreService) (tag : String) :
    (inbounds.foldl (updateListener change) service).slot tag =
      match inbounds.find? fun inbound => inbound.tag == tag with
      | some inbound => (service.slot tag).map (update inbound)
      | none => service.slot tag := by
  induction inbounds generalizing service with
  | nil => rfl
  | cons inbound rest ih =>
    rw [map_cons, nodup_cons] at hnodup
    rw [foldl_cons, ih hnodup.2, slot_updateListener hacts]
    by_cases htag : inbound.tag = tag
    · subst htag
      have hrest : rest.find? (fun other => other.tag == inbound.tag) = none := by
        rw [find?_eq_none]
        intro other hother heq
        apply hnodup.1
        rw [← beq_iff_eq.1 heq]
        exact mem_map_of_mem hother
      simp [hrest]
    · simp [htag, Ne.symm htag]

end Updates

/-- Users are left alone when the fingerprint is the stored one, and replaced
otherwise. -/
theorem syncInboundUsers_cases (handle : ListenerHandle) (inbound : InboundConfig) :
    (service.userFingerprints.lookup inbound.tag = some (fromUsers env inbound.users) ∧
      service.syncInboundUsers env handle inbound = (service, handle)) ∨
    (service.userFingerprints.lookup inbound.tag ≠ some (fromUsers env inbound.users) ∧
      service.syncInboundUsers env handle inbound = ({ service with
            bandwidth := service.bandwidth.syncUsers (handle.limitedUsers inbound.users)
            userRevisions := service.userRevisions.erase inbound.tag
            userFingerprints := service.userFingerprints.insert inbound.tag
              (fromUsers env inbound.users) },
          { handle with
            table := .build env handle.status.protocol inbound.users })) := by
  by_cases hsame : service.userFingerprints.lookup inbound.tag = some (fromUsers env inbound.users)
  · exact .inl ⟨hsame, if_pos hsame⟩
  · exact .inr ⟨hsame, if_neg hsame⟩

theorem syncInboundUsers_frame (handle : ListenerHandle) (inbound : InboundConfig) :
    (service.syncInboundUsers env handle inbound).1.traffic = service.traffic ∧
      (service.syncInboundUsers env handle inbound).1.sessions = service.sessions := by
  rcases syncInboundUsers_cases env service handle inbound with ⟨_, heq⟩ | ⟨_, heq⟩ <;>
    rw [heq] <;> exact ⟨rfl, rfl⟩

theorem syncInboundUsers_acts : ActsOnSlot (syncInboundUsers env) (Slot.syncUsers env) where
  listeners service handle inbound := by
    rcases syncInboundUsers_cases env service handle inbound with ⟨_, heq⟩ | ⟨_, heq⟩ <;> rw [heq]
  tag service handle inbound := by
    rcases syncInboundUsers_cases env service handle inbound with ⟨_, heq⟩ | ⟨_, heq⟩ <;> rw [heq]
  slot service handle inbound := by
    rcases syncInboundUsers_cases env service handle inbound with ⟨hsame, heq⟩ | ⟨hchanged, heq⟩
    · rw [heq, Slot.syncUsers, if_pos hsame]
    · rw [heq, Slot.syncUsers, if_neg hchanged]
      simp
  fingerprints service handle inbound tag htag := by
    rcases syncInboundUsers_cases env service handle inbound with ⟨_, heq⟩ | ⟨_, heq⟩ <;> rw [heq]
    exact Finmap.lookup_insert_of_ne _ htag
  revisions service handle inbound tag htag := by
    rcases syncInboundUsers_cases env service handle inbound with ⟨_, heq⟩ | ⟨_, heq⟩ <;> rw [heq]
    exact Finmap.lookup_erase_ne htag

theorem syncUsersAndRoutes_acts (activeConfig : CoreConfig) :
    ActsOnSlot (syncUsersAndRoutes env activeConfig) fun inbound slot =>
      (slot.syncUsers env inbound).setRoutes (activeConfig.resolvedInboundRoutes inbound) where
  listeners := (syncInboundUsers_acts env).listeners
  tag := (syncInboundUsers_acts env).tag
  slot service handle inbound := by
    rw [← (syncInboundUsers_acts env).slot service handle inbound]
    rfl
  fingerprints := (syncInboundUsers_acts env).fingerprints
  revisions := (syncInboundUsers_acts env).revisions

theorem syncRoutes_acts (activeConfig : CoreConfig) :
    ActsOnSlot (syncRoutes activeConfig) fun inbound slot =>
      slot.setRoutes (activeConfig.resolvedInboundRoutes inbound) where
  listeners _ _ _ := rfl
  tag _ _ _ := rfl
  slot _ _ _ := rfl
  fingerprints _ _ _ _ _ := rfl
  revisions _ _ _ _ _ := rfl

/-- What a change of listeners leaves alone, a sequence of them leaves
alone. -/
theorem foldl_updateListener_frame (view : CoreService → α) (hchange : ∀ service handle inbound,
      view (change service handle inbound).1 = view service) (hlisteners : ∀ service listeners,
      view { service with listeners } = view service)
    (inbounds : List InboundConfig) (service : CoreService) :
    view (inbounds.foldl (updateListener change) service) = view service := by
  induction inbounds generalizing service with
  | nil => rfl
  | cons inbound rest ih =>
    rw [foldl_cons, ih]
    unfold updateListener
    split
    · rfl
    · exact (hlisteners _ _).trans (hchange _ _ _)

theorem map_foldl_updateListener (view : ListenerHandle → α)
    (hacts : ActsOnSlot change update) (hview : ∀ service handle inbound,
      view (change service handle inbound).2 = view handle)
    (inbounds : List InboundConfig) (service : CoreService) :
    (inbounds.foldl (updateListener change) service).listeners.map view =
      service.listeners.map view := by
  induction inbounds generalizing service with
  | nil => rfl
  | cons inbound rest ih =>
    rw [foldl_cons, ih]
    unfold updateListener
    cases hfind : findHandle inbound.tag service.listeners with
    | none => rfl
    | some handle =>
      have htag := (hacts.tag service handle inbound).trans (findHandle_tag hfind)
      change (setHandle _ (change service handle inbound).1.listeners).map view = _
      rw [hacts.listeners]
      exact map_setHandle view (htag ▸ hfind) (hview service handle inbound)

def findInbound (tag : String) (inbounds : List InboundConfig) : Option InboundConfig :=
  inbounds.find? fun inbound => inbound.tag == tag

theorem findInbound_of_mem (hnodup : (inbounds.map InboundConfig.tag).Nodup)
    (hmem : inbound ∈ inbounds) :
    findInbound inbound.tag inbounds = some inbound := by
  cases hfind : findInbound inbound.tag inbounds with
  | none =>
    have hnone := find?_eq_none.1 hfind inbound hmem
    simp at hnone
  | some other =>
    have htag : other.tag = inbound.tag := by simpa using find?_some hfind
    rw [inj_on_of_nodup_map hnodup (mem_of_find?_eq_some hfind) hmem htag]

theorem findInbound_eq_none : findInbound tag inbounds = none ↔
      tag ∉ inbounds.map InboundConfig.tag := by simp [findInbound]

theorem findInbound_some
    (hfind : findInbound tag inbounds = some inbound) : inbound ∈ inbounds ∧ inbound.tag = tag :=
  ⟨mem_of_find?_eq_some hfind, by simpa using find?_some hfind⟩

variable {config : CoreConfig}

theorem slot_updateUsers (hnodup : (config.inbounds.map InboundConfig.tag).Nodup) (tag : String) :
    (service.updateUsers env config).slot tag = match findInbound tag config.inbounds with
      | some inbound => (service.slot tag).map (Slot.syncUsers env inbound)
      | none => service.slot tag :=
  slot_foldl_updateListener (syncInboundUsers_acts env) hnodup service tag

theorem slot_updateRoutesAndUsers
    (hnodup : (config.inbounds.map InboundConfig.tag).Nodup) (tag : String) :
    (service.updateRoutesAndUsers env config).slot tag = match findInbound tag config.inbounds with
      | some inbound => (service.slot tag).map fun slot => (slot.syncUsers env inbound).setRoutes
          ((configWithoutUsers config).resolvedInboundRoutes inbound)
      | none => service.slot tag :=
  slot_foldl_updateListener
    (syncUsersAndRoutes_acts env (configWithoutUsers config)) hnodup service tag

theorem map_tag_configWithoutUsers (config : CoreConfig) :
    (configWithoutUsers config).inbounds.map InboundConfig.tag =
      config.inbounds.map InboundConfig.tag := by
  simp [configWithoutUsers, inboundWithoutUsers, Function.comp_def]

theorem slot_updateRoutes (hnodup : (config.inbounds.map InboundConfig.tag).Nodup) (tag : String) :
    (service.updateRoutes config).slot tag =
      match findInbound tag (configWithoutUsers config).inbounds with
      | some inbound => (service.slot tag).map fun slot =>
        slot.setRoutes ((configWithoutUsers config).resolvedInboundRoutes inbound)
      | none => service.slot tag :=
  slot_foldl_updateListener (syncRoutes_acts (configWithoutUsers config))
    (map_tag_configWithoutUsers config ▸ hnodup) service tag

theorem slot_applyAcceptedDelta {nodeTag : String} (world : World) {service : CoreService}
    (hfind : findHandle nodeTag service.listeners = some handle)
    (delta : CoreUserDelta) (tag : String) :
    (service.applyAcceptedDelta env world handle delta).1.slot tag = if tag = nodeTag then
        (service.slot tag).map (Slot.applyDelta env world.userOrder delta)
      else service.slot tag := by
  have hown := findHandle_tag hfind
  subst hown
  have hset := @findHandle_setHandle tag { handle with
      table := (handle.table.applyDelta env world.userOrder
        handle.status.protocol (handle.limitedDelta delta)).1 } _ _ hfind
  by_cases htag : tag = handle.status.tag
  · subst htag
    simp only [slot, applyAcceptedDelta, hset, hfind, Option.map_some,
      Slot.applyDelta, Finmap.lookup_insert]
    cases delta.revision <;> cases delta.full <;> simp
  · simp only [slot, applyAcceptedDelta, hset]
    cases delta.revision <;> cases delta.full <;> simp [htag]

end CoreService

end KeliCore
