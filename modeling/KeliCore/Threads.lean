/-
Listener threads: which threads a sequence of starts leaves running, and which
settings their handles carry.
-/
import KeliCore.Slots

namespace KeliCore

open CoreService List

/-- What a client can tell of a listener and its routes. -/
structure ListenerDescriptor where
  tag : String
  protocol : Protocol
  listen : String
  port : UInt16
  setup : ListenerSetup
  routes : List RouteRule

def ListenerHandle.descriptor (handle : ListenerHandle) : ListenerDescriptor where
  tag := handle.status.tag
  protocol := handle.status.protocol
  listen := handle.listen
  port := handle.port
  setup := handle.setup
  routes := handle.routes

/-- The listener a configuration asks for, one inbound at a time. -/
def inboundDescriptor (env : Externals) (config : CoreConfig)
    (inbound : InboundConfig) : ListenerDescriptor where
  tag := inbound.tag
  protocol := inbound.protocol
  listen := inbound.listen
  port := inbound.port
  setup := listenerSetup env config.policy inbound
  routes := config.resolvedInboundRoutes inbound

variable {host after : Host}

namespace Host

/-- No thread has an identity that is still to be given out. -/
def WellFormed (host : Host) : Prop :=
  ∀ id status, host.running.lookup id = some status → id < host.next

@[simp] theorem lookup_stopThreads (host : Host) (ids : Multiset Nat) (id : Nat) :
    (host.stopThreads ids).running.lookup id =
      if id ∈ ids then none else host.running.lookup id := by
  by_cases hid : id ∈ ids
  · simp [stopThreads, hid]
  · cases hget : host.running.lookup id <;> simp [stopThreads, hid, hget]

theorem WellFormed.stopThreads (hwf : host.WellFormed)
    (ids : Multiset Nat) : (host.stopThreads ids).WellFormed := by
  intro id status hget
  rw [lookup_stopThreads] at hget
  split at hget
  · contradiction
  · exact hwf id status hget

/-- `after` runs the threads of `before` and those of some new handles. -/
structure Spawned (before after : Host) (handles : List ListenerHandle) : Prop where
  next_le : before.next ≤ after.next
  fresh : ∀ handle ∈ handles, before.next ≤ handle.id ∧ handle.id < after.next
  nodup : (handles.map ListenerHandle.id).Nodup
  running : ∀ handle ∈ handles, after.running.lookup handle.id = some handle.status
  others : ∀ id, id ∉ handles.map ListenerHandle.id →
    after.running.lookup id = before.running.lookup id

namespace Spawned

variable {before : Host} {handles : List ListenerHandle}

theorem none (hnext : before.next ≤ after.next)
    (hrun : after.running = before.running) : Spawned before after [] where
  next_le := hnext
  fresh := by simp
  nodup := by simp
  running := by simp
  others _ _ := by rw [hrun]

theorem append {first second : Host} {left : List ListenerHandle} {third : Host}
    {right : List ListenerHandle} (hleft : Spawned first second left)
    (hright : Spawned second third right) : Spawned first third (left ++ right) where
  next_le := hleft.next_le.trans hright.next_le
  fresh handle hmem := by
    rcases mem_append.1 hmem with hmem | hmem
    · have hbounds := hleft.fresh handle hmem
      have hnext := hright.next_le
      omega
    · have hbounds := hright.fresh handle hmem
      have hnext := hleft.next_le
      omega
  nodup := by
    rw [map_append, nodup_append]
    refine ⟨hleft.nodup, hright.nodup, ?_⟩
    intro a ha b hb heq
    obtain ⟨old, hold, rfl⟩ := mem_map.1 ha
    obtain ⟨new, hnew, rfl⟩ := mem_map.1 hb
    have hlt := (hleft.fresh old hold).2
    have hle := (hright.fresh new hnew).1
    omega
  running handle hmem := by
    rcases mem_append.1 hmem with hmem | hmem
    · rw [hright.others, hleft.running handle hmem]
      -- The later threads have larger identities.
      intro hid
      obtain ⟨new, hnew, heq⟩ := mem_map.1 hid
      have hlt := (hleft.fresh handle hmem).2
      have hle := (hright.fresh new hnew).1
      omega
    · exact hright.running handle hmem
  others id hid := by
    rw [map_append, mem_append, not_or] at hid
    rw [hright.others id hid.2, hleft.others id hid.1]

theorem wellFormed
    (hspawn : Spawned before after handles) (hwf : before.WellFormed) : after.WellFormed := by
  intro id status hget
  by_cases hid : id ∈ handles.map ListenerHandle.id
  · obtain ⟨handle, hmem, rfl⟩ := mem_map.1 hid
    exact (hspawn.fresh handle hmem).2
  · rw [hspawn.others id hid] at hget
    exact (hwf id status hget).trans_le hspawn.next_le

theorem lookup_stop {ids : Multiset Nat}
    (hspawn : Spawned before after handles) (hwf : before.WellFormed)
    (hids : ∀ id, id ∈ ids ↔ id ∈ handles.map ListenerHandle.id) (id : Nat) :
    (after.stopThreads ids).running.lookup id = before.running.lookup id := by
  rw [lookup_stopThreads]
  by_cases hid : id ∈ ids
  · rw [if_pos hid]
    obtain ⟨handle, hmem, rfl⟩ := mem_map.1 ((hids id).1 hid)
    cases hget : before.running.lookup handle.id with
    | none => rfl
    | some status =>
      have hlt := hwf _ _ hget
      have hle := (hspawn.fresh handle hmem).1
      omega
  · rw [if_neg hid, hspawn.others]
    rwa [← hids]

end Spawned

end Host

section Starting

structure StartedFor (env : Externals) (activeConfig : CoreConfig)
    (inbound : InboundConfig) (handle : ListenerHandle) : Prop where
  descriptor : handle.descriptor = inboundDescriptor env activeConfig inbound
  table : handle.table = .build env inbound.protocol inbound.users

variable {env : Externals} {activeConfig : CoreConfig} {inbound : InboundConfig}
  {handle : ListenerHandle} {world : World} {inbounds : List InboundConfig}

theorem StartedFor.tag
    (hstarted : StartedFor env activeConfig inbound handle) : handle.status.tag = inbound.tag :=
  congrArg ListenerDescriptor.tag hstarted.descriptor

theorem startListenerHandle_ok (hstart : startListenerHandle env world host activeConfig inbound =
      (after, .ok handle)) :
    host.Spawned after [handle] ∧ StartedFor env activeConfig inbound handle ∧
      handle.id = host.next := by
  unfold startListenerHandle at hstart
  cases hworld : world.startListener host.next with
  | error source => simp [hworld] at hstart
  | ok localAddr =>
    rw [hworld] at hstart
    cases hstart
    refine ⟨?_, ⟨rfl, rfl⟩, rfl⟩
    constructor
    · simp
    · simp
    · simp
    · simp
    · intro id hid
      exact Finmap.lookup_insert_of_ne _ (by simpa using hid)

theorem startListenerHandle_error {error : CoreServiceError}
    (hstart : startListenerHandle env world host activeConfig inbound = (after, .error error)) :
    host.Spawned after [] := by
  unfold startListenerHandle at hstart
  cases hworld : world.startListener host.next with
  | error source =>
    rw [hworld] at hstart
    cases hstart
    exact .none (Nat.le_succ _) rfl
  | ok localAddr => simp [hworld] at hstart

/-- A start loop that succeeds leaves one thread per inbound, in order. -/
theorem startListeners_ok : ∀ {host after : Host} {handles : List ListenerHandle},
      CoreService.startListeners env world activeConfig host inbounds = (after, .ok handles) →
      host.Spawned after handles ∧ List.Forall₂ (StartedFor env activeConfig) inbounds handles := by
  induction inbounds with
  | nil =>
    intro host after handles hstart
    cases hstart
    exact ⟨.none le_rfl rfl, .nil⟩
  | cons inbound rest ih =>
    intro host after handles hstart
    unfold startListeners at hstart
    split at hstart
    · simp at hstart
    next middle handle hfirst =>
      split at hstart
      · simp at hstart
      next last others hrest =>
        cases hstart
        obtain ⟨hspawn, hstarted, -⟩ := startListenerHandle_ok hfirst
        obtain ⟨hothers, hforall⟩ := ih hrest
        exact ⟨hspawn.append hothers, .cons hstarted hforall⟩

/-- A start loop that fails leaves the threads started before the failure. -/
theorem startListeners_error : ∀ {host after : Host} {error : CoreServiceError},
      CoreService.startListeners env world activeConfig host inbounds = (after, .error error) →
      ∃ handles, host.Spawned after handles ∧
        (handles = [] ↔ ∃ source, world.startListener host.next = .error source) := by
  induction inbounds with
  | nil =>
    intro host after error hstart
    simp [startListeners] at hstart
  | cons inbound rest ih =>
    intro host after error hstart
    unfold startListeners at hstart
    split at hstart
    next middle failure hfirst =>
      cases hstart
      refine ⟨[], startListenerHandle_error hfirst, ?_⟩
      unfold startListenerHandle at hfirst
      cases hworld : world.startListener host.next with
      | error source => simp
      | ok localAddr => simp [hworld] at hfirst
    next middle handle hfirst =>
      split at hstart
      next last failure hrest =>
        cases hstart
        obtain ⟨hspawn, -, -⟩ := startListenerHandle_ok hfirst
        obtain ⟨handles, hothers, -⟩ := ih hrest
        refine ⟨handle :: handles, hspawn.append hothers, ?_⟩
        unfold startListenerHandle at hfirst
        cases hworld : world.startListener host.next with
        | error source => simp [hworld] at hfirst
        | ok localAddr => simp
      · simp at hstart

end Starting

end KeliCore
