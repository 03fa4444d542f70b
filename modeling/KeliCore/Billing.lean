/-
Traffic accounting.  Bytes that the service records or the control peer hands
back sit in a registry until they are drained; the controller has two of them,
the service's and the one it uses while no service runs.
-/
import KeliCore.Serving
import Mathlib.Algebra.GroupWithZero.Nat

namespace KeliCore

open CoreService Finmap List
open CoreController (step)

variable {controller : CoreController}
variable (service : CoreService)

def TrafficDelta.bytes (direction : Direction) (delta : TrafficDelta) : Nat :=
  match direction with
  | .upload => delta.upload.toNat
  | .download => delta.download.toNat

def listedBytes (direction : Direction) (key : TrafficKey) (records : List TrafficDelta) : Nat :=
  (records.map fun delta =>
    if delta.key = key then delta.bytes direction else 0).sum

def heldBytes (direction : Direction) (key : TrafficKey) (registry : TrafficRegistry) : Nat :=
  ((registry.lookup key).map (TrafficDelta.bytes direction)).getD 0

/-- Every record is filed under its own node and user. -/
def WellKeyed (registry : TrafficRegistry) : Prop :=
  ∀ key delta, registry.lookup key = some delta → delta.key = key

section Registry

variable {direction : Direction} {key : TrafficKey}

@[simp] theorem listedBytes_nil : listedBytes direction key [] = 0 := rfl

@[simp] theorem listedBytes_cons (delta : TrafficDelta) (records : List TrafficDelta) :
    listedBytes direction key (delta :: records) =
      (if delta.key = key then delta.bytes direction else 0) +
        listedBytes direction key records := rfl

theorem wellKeyed_empty : WellKeyed ∅ := by
  intro key delta hget
  simp at hget

variable {registry : TrafficRegistry}

theorem WellKeyed.addDelta (hkeyed : WellKeyed registry)
    (delta : TrafficDelta) : WellKeyed (addDelta registry delta) := by
  intro key found hget
  rw [KeliCore.addDelta, lookup_insert_ite] at hget
  split at hget
  next heq =>
    cases hget
    cases hold : registry.lookup delta.key with
    | none =>
      rw [heq]
      rfl
    | some old =>
      rw [heq, ← hkeyed delta.key old hold]
      rfl
  · exact hkeyed key found hget

theorem WellKeyed.addDeltas (hkeyed : WellKeyed registry)
    (records : List TrafficDelta) : WellKeyed (addDeltas registry records) := by
  induction records generalizing registry with
  | nil => exact hkeyed
  | cons delta records ih => exact ih (hkeyed.addDelta delta)

theorem WellKeyed.retain (hkeyed : WellKeyed registry) (keep : TrafficKey → TrafficDelta → Bool) :
    WellKeyed (registry.retain keep) := by
  intro key delta hget
  rw [lookup_retain, Option.filter_eq_some_iff] at hget
  exact hkeyed key delta hget.1

theorem heldBytes_addDelta {registry : TrafficRegistry}
    (delta : TrafficDelta) (hbound : heldBytes direction key registry +
      listedBytes direction key [delta] < 2 ^ 64) :
    heldBytes direction key (addDelta registry delta) = heldBytes direction key registry +
        listedBytes direction key [delta] := by
  unfold heldBytes at hbound ⊢
  rw [addDelta, lookup_insert_ite]
  by_cases heq : delta.key = key
  · subst heq
    cases hget : registry.lookup delta.key with
    | none =>
      have hzero (count : UInt64) : (saturatingAdd 0 count).toNat = count.toNat := by
        have hlt := count.toNat_lt
        rw [toNat_saturatingAdd] <;> simp [hlt]
      cases direction <;> simp [TrafficDelta.bytes, hzero]
    | some old =>
      cases direction <;> simp [TrafficDelta.bytes, hget] at hbound ⊢ <;>
        exact toNat_saturatingAdd hbound
  · simp [heq, Ne.symm heq]

theorem heldBytes_addDeltas (records : List TrafficDelta)
    (hbound : heldBytes direction key registry + listedBytes direction key records < 2 ^ 64) :
    heldBytes direction key (addDeltas registry records) = heldBytes direction key registry +
        listedBytes direction key records := by
  induction records generalizing registry with
  | nil => rfl
  | cons delta records ih =>
    have hfirst := @heldBytes_addDelta direction key registry delta
    simp only [listedBytes_cons, listedBytes_nil, Nat.add_zero] at hfirst hbound ⊢
    have hadd := hfirst (by omega)
    change heldBytes direction key (addDeltas (addDelta registry delta) records) = _
    rw [ih (by omega), hadd, Nat.add_assoc]

/-- Listing the records of different keys lists each held byte once. -/
theorem listedBytes_filterMap (hkeyed : WellKeyed registry)
    {keys : List TrafficKey} (hnodup : keys.Nodup) :
    listedBytes direction key (keys.filterMap registry.lookup) =
      if key ∈ keys then heldBytes direction key registry else 0 := by
  induction keys with
  | nil => rfl
  | cons head keys ih =>
    rw [nodup_cons] at hnodup
    have hrest := ih hnodup.2
    cases hget : registry.lookup head with
    | none =>
      simp only [filterMap_cons, hget, hrest]
      by_cases heq : key = head
      · subst heq
        simp [hnodup.1, heldBytes, hget]
      · simp [heq]
    | some delta =>
      have hown := hkeyed head delta hget
      simp only [filterMap_cons, hget, listedBytes_cons, hrest, hown]
      by_cases heq : head = key
      · subst heq
        simp [hnodup.1, heldBytes, hget]
      · simp [heq, Ne.symm heq]

theorem heldBytes_eq_zero_of_not_mem (hmem : key ∉ registry) :
    heldBytes direction key registry = 0 := by
  rw [heldBytes, lookup_eq_none.2 hmem]
  rfl

theorem heldBytes_drainMinimum {registry : TrafficRegistry}
    (hkeyed : WellKeyed registry) (minimumBytes : UInt64) :
    heldBytes direction key registry =
      heldBytes direction key (drainMinimum registry minimumBytes).1 +
        listedBytes direction key (drainMinimum registry minimumBytes).2 := by
  have hdue := hkeyed.retain fun _ delta => isDue minimumBytes delta
  have hlisted : listedBytes direction key (drainMinimum registry minimumBytes).2 =
        heldBytes direction key (registry.retain fun _ delta => isDue minimumBytes delta) := by
    change listedBytes direction key (filterMap _ _) = _
    rw [listedBytes_filterMap hdue (nodup_sortedKeys _)]
    split
    · rfl
    next hmem =>
      rw [mem_sortedKeys] at hmem
      exact (heldBytes_eq_zero_of_not_mem hmem).symm
  rw [hlisted]
  change _ = heldBytes direction key (registry.retain fun _ delta => !isDue minimumBytes delta) + _
  cases hget : registry.lookup key with
  | none => simp [heldBytes, hget]
  | some delta =>
    by_cases hisDue : isDue minimumBytes delta = true
    all_goals simp [heldBytes, hget, hisDue, Option.filter]

theorem listedBytes_drain_all (hkeyed : WellKeyed registry) :
    listedBytes direction key (drainMinimum registry 0).2 = heldBytes direction key registry := by
  have hdrain := @heldBytes_drainMinimum direction key registry hkeyed 0
  have hleft : heldBytes direction key (drainMinimum registry 0).1 = 0 := by
    change heldBytes direction key (registry.retain fun _ delta => !isDue 0 delta) = 0
    cases hget : registry.lookup key <;> simp [heldBytes, hget, isDue, Option.filter]
  rw [hdrain, hleft, Nat.zero_add]

end Registry

def HoldsNoBytes (registry : TrafficRegistry) : Prop :=
  ∀ direction key, heldBytes direction key registry = 0

/-- The bytes that an answer hands out. -/
def CoreResponse.drainedBytes (direction : Direction) (key : TrafficKey) : CoreResponse → Nat
  | .traffic records => listedBytes direction key records
  | _ => 0

namespace CoreController

/-- The bytes that an event records or hands back.  Without a service nothing
is recorded. -/
def producedBy (direction : Direction) (key : TrafficKey)
    (controller : CoreController) : Event → Nat
  | .client (.recordTraffic delta) =>
    if controller.service.isSome then listedBytes direction key [delta]
    else 0
  | .command _ (.requeueTraffic records) => listedBytes direction key records
  | _ => 0

/-- The bytes that an event hands out. -/
def drainedBy (env : Externals) (direction : Direction) (key : TrafficKey)
    (controller : CoreController) : Event → Nat
  | .command world command => (controller.handle env world command).2.drainedBytes direction key
  | .client _ => 0

/-- A service that goes holds no bytes, and neither does the runtime's registry
when a service comes. -/
def LosesNoBytes (env : Externals) (controller : CoreController) : Event → Prop
  | .command _ .stop => ∀ service, controller.service = some service → HoldsNoBytes service.traffic
  | .command world (.applyConfig config) =>
    ∀ host, config.validate env = .ok () →
      controller.runtime.activeFingerprint ≠ some (fingerprintConfig env config) →
      NeedsRestart env world controller config host →
      (∀ service, controller.service = some service → HoldsNoBytes service.traffic) ∧
      (controller.service = none →
        (CoreService.start env world (stoppedHost { controller with host })
          config).2.toOption.isSome = true → HoldsNoBytes controller.runtime.traffic)
  | _ => True

/-- What holds of the registries along a run. -/
structure Books (controller : CoreController) : Prop where
  keyed : WellKeyed controller.registry
  runtimeKeyed : WellKeyed controller.runtime.traffic
  hidden : controller.service.isSome = true → HoldsNoBytes controller.runtime.traffic

/-- The bytes in the registry in use, before and after. -/
def Accounts (before after : CoreController)
    (produced drained : Direction → TrafficKey → Nat) : Prop :=
  ∀ direction key, heldBytes direction key after.registry + drained direction key =
      heldBytes direction key before.registry + produced direction key

theorem registry_none (hserv : controller.service = none) :
    controller.registry = controller.runtime.traffic := by simp [registry, hserv]

theorem registry_some {service : CoreService} (hserv : controller.service = some service) :
    controller.registry = service.traffic := by simp [registry, hserv]

variable {env : Externals}

section Steps

variable {before after : CoreController}

theorem books_of_same (hbooks : Books before) (hregistry : after.registry = before.registry)
    (hruntime : after.runtime.traffic = before.runtime.traffic)
    (hserv : after.service.isSome = before.service.isSome) : Books after where
  keyed := hregistry ▸ hbooks.keyed
  runtimeKeyed := hruntime ▸ hbooks.runtimeKeyed
  hidden hsome := hruntime ▸ hbooks.hidden (hserv ▸ hsome)

theorem accounts_of_same (hregistry : after.registry = before.registry) :
    Accounts before after (fun _ _ => 0) fun _ _ => 0 := by
  intro direction key
  rw [hregistry]

theorem registry_setRegistry (traffic : TrafficRegistry) :
    (before.setRegistry traffic).registry = traffic := by
  cases hserv : before.service with
  | none | some service => simp [setRegistry, registry, hserv]

theorem books_setRegistry (hbooks : Books before) {traffic : TrafficRegistry}
    (hkeyed : WellKeyed traffic) : Books (before.setRegistry traffic) := by
  constructor
  · rwa [registry_setRegistry]
  · cases hserv : before.service with
    | none => simpa [setRegistry, hserv] using hkeyed
    | some service => simpa [setRegistry, hserv] using hbooks.runtimeKeyed
  · cases hserv : before.service with
    | none => simp [setRegistry, hserv]
    | some service =>
      intro _
      simpa [setRegistry, hserv] using hbooks.hidden (by simp [hserv])

theorem updateUsers_traffic (config : CoreConfig) :
    (service.updateUsers env config).traffic = service.traffic := by
  apply foldl_updateListener_frame traffic
  · exact fun service handle inbound => (syncInboundUsers_frame env service handle inbound).1
  · intros
    rfl

theorem updateRoutesAndUsers_traffic (config : CoreConfig) :
    (service.updateRoutesAndUsers env config).traffic = service.traffic := by
  apply foldl_updateListener_frame traffic
  · exact fun service handle inbound => (syncInboundUsers_frame env service handle inbound).1
  · intros
    rfl

theorem updateRoutes_traffic (config : CoreConfig) :
    (service.updateRoutes config).traffic = service.traffic := by
  apply foldl_updateListener_frame traffic
  · intros
    rfl
  · intros
    rfl

theorem accounts_of_empty (hpre : HoldsNoBytes before.registry)
    (hafter : HoldsNoBytes after.registry) : Accounts before after (fun _ _ => 0) fun _ _ => 0 := by
  intro direction key
  rw [hpre, hafter]

theorem holdsNoBytes_empty : HoldsNoBytes ∅ := by
  intro direction key
  simp [heldBytes]

theorem books_of_updated {service updated : CoreService}
    (hbooks : Books before) (hserv : before.service = some service)
    (hupdated : after.service = some updated) (htraffic : updated.traffic = service.traffic)
    (hruntime : after.runtime.traffic = before.runtime.traffic) :
    Books after ∧ Accounts before after (fun _ _ => 0) fun _ _ => 0 := by
  have hsame : after.registry = before.registry := by
    rw [registry_some hserv, registry_some hupdated, htraffic]
  refine ⟨books_of_same hbooks hsame hruntime ?_, accounts_of_same hsame⟩
  simp [hserv, hupdated]

/-- A service that is dropped leaves the runtime's registry in use. -/
theorem books_of_dropped (hbooks : Books before)
    (hempty : ∀ service, before.service = some service →
      HoldsNoBytes service.traffic) (hnone : after.service = none)
    (hruntime : after.runtime.traffic = before.runtime.traffic) :
    Books after ∧ Accounts before after (fun _ _ => 0) fun _ _ => 0 := by
  have hregistry : after.registry = before.runtime.traffic := by rw [registry_none hnone, hruntime]
  refine ⟨⟨hregistry ▸ hbooks.runtimeKeyed, hruntime ▸ hbooks.runtimeKeyed, by simp [hnone]⟩, ?_⟩
  cases hserv : before.service with
  | none => exact accounts_of_same (hregistry.trans (registry_none hserv).symm)
  | some service =>
    apply accounts_of_empty
    · rw [registry_some hserv]
      exact hempty service hserv
    · rw [hregistry]
      exact hbooks.hidden (by simp [hserv])

theorem books_applyConfig {world : World}
    {config : CoreConfig} {result : CoreController × CoreResponse}
    (hserve : Serving env controller) (hbooks : Books controller)
    (hpath : ApplyConfigPath env world controller config result)
    (hloses : LosesNoBytes env controller (.command world (.applyConfig config))) : Books result.1 ∧
      Accounts controller result.1 (fun _ _ => 0) fun _ _ => 0 := by
  cases hpath with
  | rejected | noop | changeFailed => exact ⟨books_of_same hbooks rfl rfl rfl, accounts_of_same rfl⟩
  | @users service _ _ hserv =>
    exact books_of_updated hbooks hserv rfl (updateUsers_traffic service config) rfl
  | @routes service _ _ hserv =>
    exact books_of_updated hbooks hserv rfl (updateRoutesAndUsers_traffic service config) rfl
  | @changed service updated host _ _ hserv hupd =>
    have hchanged := updateChanged_changed
      (hserve.aligned service hserv) (hserve.runs service hserv)
      hserve.wellFormed hupd
    exact books_of_updated hbooks hserv rfl hchanged.traffic rfl
  | @startFailed host after error hvalid hreload hrestart hstart =>
    exact books_of_dropped hbooks (hloses host hvalid hreload hrestart).1 rfl rfl
  | @restarted host after service hvalid hreload hrestart hstart =>
    obtain ⟨hserv, hruntime⟩ := hloses host hvalid hreload hrestart
    obtain ⟨-, -, -, -, htraffic, -⟩ := start_ok hstart
    have hempty : HoldsNoBytes controller.registry ∧ HoldsNoBytes controller.runtime.traffic := by
      cases hold : controller.service with
      | none =>
        have hnone := hruntime hold (by rw [hstart]; rfl)
        rw [registry_none hold]
        exact ⟨hnone, hnone⟩
      | some old =>
        rw [registry_some hold]
        exact ⟨hserv old hold, hbooks.hidden (by simp [hold])⟩
    refine ⟨⟨?_, hbooks.runtimeKeyed, fun _ => hempty.2⟩, accounts_of_empty hempty.1 ?_⟩
    · change WellKeyed service.traffic
      rw [htraffic]
      exact wellKeyed_empty
    · change HoldsNoBytes service.traffic
      rw [htraffic]
      exact holdsNoBytes_empty

theorem serve_traffic {event : ClientEvent} (hevent : ∀ delta, event ≠ .recordTraffic delta) :
    (service.serve event).traffic = service.traffic := by
  cases event with
  | recordTraffic delta => exact absurd rfl (hevent delta)
  | disconnect | release => rfl
  | fetchLimiter | register | acquire =>
    simp only [serve]
    split <;> rfl

theorem books_client (hbooks : Books controller) (event : ClientEvent)
    (hbound : ∀ direction key, heldBytes direction key controller.registry +
      producedBy direction key controller (.client event) < 2 ^ 64) :
    Books (controller.step env (.client event)) ∧
      Accounts controller (controller.step env (.client event)) (fun direction key =>
          producedBy direction key controller (.client event))
        fun _ _ => 0 := by
  cases hserv : controller.service with
  | none =>
    have hsame : (controller.step env (.client event)).registry = controller.registry := by
      simp [step, registry, hserv]
    refine ⟨books_of_same hbooks hsame rfl (by simp [step, hserv]), ?_⟩
    intro direction key
    rw [hsame]
    cases event <;> simp [producedBy, hserv]
  | some service =>
    have hafter : (controller.step env (.client event)).service = some (service.serve event) := by
      simp [step, hserv]
    by_cases hrecord : ∃ delta, event = .recordTraffic delta
    · obtain ⟨delta, rfl⟩ := hrecord
      have hregistry : (controller.step env (.client (.recordTraffic delta))).registry =
            addDelta controller.registry delta := by
        rw [registry_some hafter, registry_some hserv]
        rfl
      have hproduced (direction : Direction) (key : TrafficKey) :
          producedBy direction key controller (.client (.recordTraffic delta)) =
              listedBytes direction key [delta] := by simp [producedBy, hserv]
      refine ⟨⟨hregistry ▸ hbooks.keyed.addDelta delta, hbooks.runtimeKeyed,
        fun _ => hbooks.hidden (by simp [hserv])⟩, ?_⟩
      intro direction key
      have hadd := hbound direction key
      dsimp only
      rw [hproduced] at hadd ⊢
      rw [hregistry, heldBytes_addDelta delta hadd, Nat.add_zero]
    · have hother : ∀ delta, event ≠ .recordTraffic delta := fun delta heq => hrecord ⟨delta, heq⟩
      obtain ⟨hkept, haccounts⟩ := books_of_updated hbooks hserv hafter
        (serve_traffic service hother) rfl
      refine ⟨hkept, ?_⟩
      have hproduced (direction : Direction) (key : TrafficKey) :
          producedBy direction key controller (.client event) = 0 := by
        cases event with
        | recordTraffic delta => exact absurd rfl (hother delta)
        | _ => rfl
      simpa only [hproduced] using haccounts

theorem books_command {world : World}
    {command : CoreCommand} (hserve : Serving env controller) (hbooks : Books controller)
    (hloses : LosesNoBytes env controller (.command world command))
    (hbound : ∀ direction key, heldBytes direction key controller.registry +
      producedBy direction key controller (.command world command) < 2 ^ 64) :
    Books (controller.handle env world command).1 ∧
      Accounts controller (controller.handle env world command).1 (fun direction key =>
          producedBy direction key controller (.command world command))
        fun direction key => (controller.handle env world command).2.drainedBytes direction
            key := by
  cases command with
  | applyConfig config =>
    have hpath : ApplyConfigPath env world controller config
        (controller.handle env world (.applyConfig config)) :=
      applyConfig_path controller config
    obtain ⟨hkept, haccounts⟩ := books_applyConfig hserve hbooks hpath hloses
    refine ⟨hkept, ?_⟩
    have hdrained (direction : Direction) (key : TrafficKey) :
        (controller.handle env world (.applyConfig config)).2.drainedBytes direction key = 0 := by
      generalize controller.handle env world (.applyConfig config) = result at hpath
      cases hpath <;> rfl
    simp only [hdrained]
    exact haccounts
  | applyRoutes config =>
    change Books (controller.applyRoutes config).1 ∧
      Accounts controller (controller.applyRoutes config).1 (fun _ _ => 0) fun direction key =>
          (controller.applyRoutes config).2.drainedBytes direction key
    rcases applyRoutes_cases controller config with ⟨message, heq⟩ | ⟨service, hserv, -, heq⟩
    · rw [heq]
      exact ⟨hbooks, accounts_of_same rfl⟩
    · rw [heq]
      exact books_of_updated hbooks hserv rfl (updateRoutes_traffic service config) rfl
  | applyUserDelta nodeTag delta =>
    change Books (controller.applyUserDelta env world nodeTag delta).1 ∧
      Accounts controller (controller.applyUserDelta env world nodeTag delta).1 (fun _ _ => 0)
        fun direction key => (controller.applyUserDelta env world nodeTag
          delta).2.drainedBytes direction key
    rcases @applyUserDelta_cases env world controller nodeTag delta with
      ⟨message, heq⟩ | ⟨service, handle, hserv, -, -, heq⟩
    · rw [heq]
      exact ⟨hbooks, accounts_of_same rfl⟩
    · rw [heq]
      exact books_of_updated hbooks hserv rfl rfl rfl
  | applyDeviceLimitSnapshot | commitDeviceLimitReport =>
    cases hserv : controller.service with
    | none =>
      simp only [handle, applyDeviceLimitSnapshot, commitDeviceLimitReport, hserv]
      exact ⟨hbooks, accounts_of_same rfl⟩
    | some service =>
      simp only [handle, applyDeviceLimitSnapshot, commitDeviceLimitReport, hserv]
      exact books_of_updated hbooks hserv rfl rfl rfl
  | drainTraffic minimumBytes =>
    refine ⟨books_setRegistry hbooks (hbooks.keyed.retain _), ?_⟩
    intro direction key
    change heldBytes direction key (controller.setRegistry _).registry +
      listedBytes direction key _ = heldBytes direction key _ + 0
    rw [registry_setRegistry, ← heldBytes_drainMinimum hbooks.keyed, Nat.add_zero]
  | requeueTraffic records =>
    refine ⟨books_setRegistry hbooks (hbooks.keyed.addDeltas records), ?_⟩
    intro direction key
    change heldBytes direction key (controller.setRegistry _).registry + 0 =
      heldBytes direction key _ + listedBytes direction key records
    rw [registry_setRegistry, heldBytes_addDeltas records (hbound direction key), Nat.add_zero]
  | status | metrics | trimMemory => exact ⟨hbooks, accounts_of_same rfl⟩
  | stop => exact books_of_dropped hbooks hloses rfl rfl

theorem books_step {event : Event} (hserve : Serving env controller) (hbooks : Books controller)
    (hloses : LosesNoBytes env controller event)
    (hbound : ∀ direction key, heldBytes direction key controller.registry +
      producedBy direction key controller event < 2 ^ 64) : Books (controller.step env event) ∧
      Accounts controller (controller.step env event)
        (fun direction key => producedBy direction key controller event)
        fun direction key => drainedBy env direction key controller event := by
  cases event with
  | client event => exact books_client hbooks event hbound
  | command world command => exact books_command hserve hbooks hloses hbound

end Steps

theorem books_fresh : Books {} where
  keyed := wellKeyed_empty
  runtimeKeyed := wellKeyed_empty
  hidden := by simp

/-- The books are in order at the end of every run that drops no bytes: what
came in went out or is in the registry in use. -/
theorem books_run {events : List Event} (hloses : Run.Meets (step env) (LosesNoBytes env) {} events)
    (hbound : ∀ direction key, Run.total (step env) (producedBy direction key) {} events < 2 ^ 64) :
    Books (run env events) ∧
      ∀ direction key, Run.total (step env) (producedBy direction key) {} events =
          Run.total (step env) (drainedBy env direction key) {} events +
            heldBytes direction key (run env events).registry := by
  induction events using reverseRecOn with
  | nil =>
    refine ⟨books_fresh, fun direction key => ?_⟩
    change 0 = 0 + heldBytes direction key ∅
    rw [holdsNoBytes_empty]
  | append_singleton events event ih =>
    rw [Run.meets_concat] at hloses
    simp only [Run.total_concat] at hbound ⊢
    obtain ⟨hbooks, hlaw⟩ := ih hloses.1 fun direction key =>
      (Nat.le_add_right _ _).trans_lt (hbound direction key)
    have hroom (direction : Direction) (key : TrafficKey) :
        heldBytes direction key (run env events).registry +
          producedBy direction key (run env events) event < 2 ^ 64 := by
      have htotal := hbound direction key
      rw [hlaw direction key] at htotal
      change _ + producedBy direction key (run env events) event < 2 ^ 64 at htotal
      omega
    obtain ⟨hafter, haccounts⟩ := books_step (serving_run env events) hbooks hloses.2 hroom
    rw [run_concat]
    refine ⟨hafter, fun direction key => ?_⟩
    have hstep := haccounts direction key
    rw [hlaw direction key]
    change _ + producedBy direction key (run env events) event =
      _ + drainedBy env direction key (run env events) event + _
    dsimp only at hstep
    omega

end CoreController

open CoreController

/-- For every node and user, upload and download: the bytes recorded and handed
back are those drained so far and those a full drain would hand out now, in
every run that drops no registry with bytes in it. -/
theorem traffic_conserved {env : Externals} {events : List Event}
    (hloses : Run.Meets (CoreController.step env) (LosesNoBytes env) {} events)
    (hbound : ∀ direction key, Run.total (CoreController.step env)
      (producedBy direction key) {} events < 2 ^ 64)
    (direction : Direction) (nodeTag userUuid : String) : Run.total (CoreController.step env)
        (producedBy direction (trafficKey nodeTag userUuid)) {} events =
      Run.total (CoreController.step env)
          (drainedBy env direction (trafficKey nodeTag userUuid)) {} events +
        ((run env events).drainTraffic 0).2.drainedBytes direction
          (trafficKey nodeTag userUuid) := by
  obtain ⟨hbooks, hlaw⟩ := books_run hloses hbound
  rw [hlaw]
  congr 1
  exact (listedBytes_drain_all hbooks.keyed).symm

/-- A record for the runs below. -/
def Sample.traffic : TrafficDelta :=
  { nodeTag := "a", userUuid := "alice", upload := 5, download := 7 }

def Sample.start : Event :=
  .command (Sample.world []) (.applyConfig
    (Sample.config [Sample.inbound "a" .socks 1000 [Sample.user 1 "alice"]]))

open Sample

/-- Recorded, drained, and handed back. -/
theorem traffic_conserved_sample :
    let events : List Event :=
      [start, .client (.recordTraffic traffic),
       .command (world []) (.drainTraffic 12),
       .command (world []) (.requeueTraffic [traffic])]
    Run.total (CoreController.step externals)
        (producedBy .upload (trafficKey "a" "alice")) {} events =
      Run.total (CoreController.step externals)
          (drainedBy externals .upload (trafficKey "a" "alice")) {} events +
        ((run externals events).drainTraffic 0).2.drainedBytes .upload
          (trafficKey "a" "alice") := by
  intro events
  have hloses : Run.Meets (step externals) (LosesNoBytes externals) {} events := by
    refine ⟨?_, trivial, trivial, trivial, trivial⟩
    intro host _ _ _
    exact ⟨by simp, fun _ _ => holdsNoBytes_empty⟩
  refine traffic_conserved hloses (fun direction key => ?_) .upload "a" "alice"
  have hlisted : listedBytes direction key [traffic] ≤ 7 := by
    simp only [listedBytes_cons, listedBytes_nil]
    split
    · cases direction <;> decide
    · decide
  have hrecorded (controller : CoreController) :
      producedBy direction key controller (.client (.recordTraffic traffic)) ≤ 7 := by
    unfold producedBy
    dsimp only
    split
    · exact hlisted
    · exact Nat.zero_le 7
  have hfirst := hrecorded (step externals {} start)
  change 0 + (producedBy direction key _ _ + (0 +
    (listedBytes direction key [traffic] + 0))) < 2 ^ 64
  omega

/-- Stopping a service drops the bytes it has recorded. -/
theorem traffic_lost_on_stop :
    let events : List Event :=
      [start, .client (.recordTraffic traffic), .command (world []) .stop]
    Run.total (CoreController.step externals)
        (producedBy .upload (trafficKey "a" "alice")) {} events = 5 ∧
      Run.total (CoreController.step externals)
        (drainedBy externals .upload (trafficKey "a" "alice")) {} events = 0 ∧
      ((run externals events).drainTraffic 0).2.drainedBytes .upload
        (trafficKey "a" "alice") = 0 := by decide +kernel

end KeliCore
