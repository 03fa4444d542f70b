/-
The status a controller reports against the service it has.  The remembered
fingerprint outlives a failed restart, so the same configuration sent again is
taken for the running one; apart from that, a controller that says it runs has
a service for the configuration applied last.
-/
import KeliCore.Serving

namespace KeliCore

open List CoreResponse

variable {controller : CoreController}

/-- The answer says that the core runs. -/
def CoreResponse.reportsRunning : CoreResponse → Bool
  | .applied _ reported _ | .userDeltaApplied _ _ reported _
  | .status reported _ => reported == .running
  | _ => false

namespace CoreController

def appliedBy (env : Externals) (controller : CoreController) : Event → Option CoreConfig
  | .command world (.applyConfig config) =>
    if (controller.applyConfig env world config).2.isError then none
    else some config
  | .command _ (.applyRoutes config) =>
    if (controller.applyRoutes config).2.isError then none else some config
  | _ => none

/-- One event, with the configuration applied last kept beside. -/
def stepApplied (env : Externals) (state : CoreController × Option CoreConfig) (event : Event) :
    CoreController × Option CoreConfig :=
  (state.1.step env event, (state.1.appliedBy env event).or state.2)

def lastApplied (env : Externals) (events : List Event) : Option CoreConfig :=
  (Run.exec (stepApplied env) ({}, none) events).2

variable {env : Externals} {events : List Event} {world : World}

theorem lastApplied_concat (events : List Event) (event : Event) :
    lastApplied env (events ++ [event]) =
      ((run env events).appliedBy env event).or (lastApplied env events) := by
  unfold lastApplied
  rw [Run.exec_concat, stepApplied, @Run.exec_map _ _ _ _ (step env) Prod.fst fun _ _ => rfl]
  rfl

/-- No two configurations of a run share a fingerprint. -/
def NoCollisions (env : Externals) (events : List Event) : Prop :=
  ∀ first second config other, .command first (.applyConfig config) ∈ events →
    .command second (.applyConfig other) ∈ events →
    fingerprintConfig env config = fingerprintConfig env other → config = other

/-- A configuration that is the remembered one is not sent while there is no
service. -/
def ServedWhenRemembered (env : Externals) (controller : CoreController) (event : Event) : Prop :=
  ∀ world config, event = .command world (.applyConfig config) → config.validate env = .ok () →
    controller.runtime.activeFingerprint = some (fingerprintConfig env config) →
    controller.service.isSome = true

/-- The runtime record fits the service. -/
structure Remembers (env : Externals) (events : List Event)
    (last : Option CoreConfig) (controller : CoreController) : Prop where
  running : controller.runtime.status = .running → controller.service.isSome = true
  config : ∀ service, controller.service = some service → ∃ config, last = some config ∧
      service.config = configWithoutUsers config
  fingerprint : ∀ service fingerprint, controller.service = some service →
    controller.runtime.activeFingerprint = some fingerprint →
    ∃ world config, .command world (.applyConfig config) ∈ events ∧
      last = some config ∧ fingerprint = fingerprintConfig env config

namespace Remembers

theorem fresh : Remembers env [] none {} where
  running := by simp
  config := by simp
  fingerprint := by simp

variable {last : Option CoreConfig}

theorem of_none {runtime : RuntimeState} {host : Host} (hstatus : runtime.status ≠ .running) :
    Remembers env events last { runtime, service := none, host } where
  running hrunning := absurd hrunning hstatus
  config := by simp
  fingerprint := by simp

theorem of_applied {config : CoreConfig}
    {runtime : RuntimeState} {service : CoreService} {host : Host}
    (hevent : .command world (.applyConfig config) ∈ events)
    (hstored : service.config = configWithoutUsers config)
    (hprint : runtime.activeFingerprint = some (fingerprintConfig env config)) :
    Remembers env events (some config) { runtime, service := some service, host } where
  running _ := rfl
  config := by
    rintro _ ⟨⟩
    exact ⟨config, rfl, hstored⟩
  fingerprint := by
    rintro _ fingerprint ⟨⟩ hsome
    exact ⟨world, config, hevent, rfl, Option.some.inj (hsome.symm.trans hprint)⟩

theorem mono {later : List Event}
    {before after : CoreController} (hremembers : Remembers env events last before)
    (hevents : events ⊆ later) (hserv : SameService before.service after.service)
    (hprint : after.runtime.activeFingerprint = before.runtime.activeFingerprint)
    (hstatus : after.runtime.status = .running →
      before.runtime.status = .running ∨ after.service.isSome = true) :
    Remembers env later last after := by
  generalize hold : before.service = old at hserv
  generalize hnew : after.service = new at hserv
  cases hserv with
  | none =>
    refine ⟨fun hrunning => ?_, by simp [hnew], by simp [hnew]⟩
    rcases hstatus hrunning with hpre | hafter
    · have hsome := hremembers.running hpre
      simp [hold] at hsome
    · exact hafter
  | @some service updated hsame =>
    refine ⟨fun _ => by simp [hnew], ?_, ?_⟩
    · intro other hother
      obtain rfl := Option.some.inj (hnew.symm.trans hother)
      obtain ⟨config, hlast, hconfig⟩ := hremembers.config service hold
      exact ⟨config, hlast, hsame.config.trans hconfig⟩
    · intro other fingerprint hother hsome
      rw [hprint] at hsome
      obtain ⟨world, config, hevent, hlast, heq⟩ :=
        hremembers.fingerprint service fingerprint hold hsome
      exact ⟨world, config, hevents hevent, hlast, heq⟩

theorem applyConfig {config : CoreConfig}
    {result : CoreController × CoreResponse} (hremembers : Remembers env events last controller)
    (hpath : ApplyConfigPath env world controller config result) (hcollisions : NoCollisions env
      (events ++ [.command world (.applyConfig config)]))
    (hserved : ServedWhenRemembered env controller (.command world (.applyConfig config))) :
    Remembers env (events ++ [.command world (.applyConfig config)])
      ((if result.2.isError then none else some config).or last)
      result.1 := by
  have hmem : Event.command world (.applyConfig config) ∈
      events ++ [.command world (.applyConfig config)] := by simp
  have hpast : events ⊆ events ++ [.command world (.applyConfig config)] := subset_append_left _ _
  cases hpath with
  | rejected hinvalid | changeFailed =>
    exact hremembers.mono hpast (.refl _) rfl (fun hrunning => by
      simp [failWith, RuntimeState.fail] at hrunning)
  | noop hvalid hsame =>
    obtain ⟨service, hserv⟩ := Option.isSome_iff_exists.1 (hserved world config rfl hvalid hsame)
    obtain ⟨other, stored, hevent, hlast, hprint⟩ :=
      hremembers.fingerprint service _ hserv hsame
    -- the remembered configuration is this one
    have hsameConfig := hcollisions world other config stored hmem (hpast hevent) hprint
    subst hsameConfig
    change Remembers env _ (some config) _
    rw [← hlast]
    exact hremembers.mono hpast (.refl _) rfl (fun _ => .inr (by simp [hserv]))
  | users | routes => exact of_applied hmem rfl rfl
  | changed _ _ _ hupd => exact of_applied hmem (CoreService.updateChanged_stored hupd) rfl
  | startFailed => exact of_none (by simp [RuntimeState.fail])
  | restarted _ _ _ hstart => exact of_applied hmem (CoreService.start_ok hstart).2.2.2.1 rfl

theorem step {event : Event} (hremembers : Remembers env events last controller)
    (hcollisions : NoCollisions env (events ++ [event]))
    (hserved : ServedWhenRemembered env controller event) :
    Remembers env (events ++ [event]) ((controller.appliedBy env event).or last)
      (controller.step env event) := by
  have hpast : events ⊆ events ++ [event] := subset_append_left _ _
  have hpath := step_path env controller event
  generalize controller.step env event = after at hpath
  cases hpath with
  | config hpath => exact hremembers.applyConfig hpath hcollisions hserved
  | @routes world config service hserv hallow =>
    have happlied : controller.appliedBy env
        (.command world (.applyRoutes config)) = some config := by
      simp [appliedBy, applyRoutes, hserv, hallow, appliedResponse, isError]
    rw [happlied]
    refine ⟨fun _ => rfl, ?_, by simp [RuntimeState.applyRuntimeUpdate]⟩
    rintro _ ⟨⟩
    exact ⟨config, rfl, rfl⟩
  | @delta world nodeTag delta service handle hserv =>
    refine ⟨fun _ => rfl, ?_, by simp [RuntimeState.applyRuntimeUpdate]⟩
    rintro _ ⟨⟩
    exact hremembers.config service hserv
  | stop => exact of_none (by simp [RuntimeState.stop])
  | other _ hprint hstatus hsame hrefused =>
    have happlied : controller.appliedBy env event = none := by
      cases event with
      | client => rfl
      | command world command =>
        have herror := hrefused world command rfl
        cases command with
        | applyConfig config | applyRoutes config => exact if_pos (herror rfl)
        | _ => rfl
    rw [happlied, Option.none_or]
    exact hremembers.mono hpast hsame hprint (fun hrunning => .inl (hstatus ▸ hrunning))

end Remembers

theorem NoCollisions.of_append {later : List Event}
    (hcollisions : NoCollisions env (events ++ later)) : NoCollisions env events :=
  fun first second config other hfirst hsecond =>
    hcollisions first second config other (mem_append_left _ hfirst) (mem_append_left _ hsecond)

/-- The record fits the service at the end of every run in which a remembered
configuration is only sent again while it is served. -/
theorem remembers_run (hcollisions : NoCollisions env events)
    (hserved : Run.Meets (CoreController.step env) (ServedWhenRemembered env) {} events) :
    Remembers env events (lastApplied env events) (run env events) := by
  induction events using reverseRecOn with
  | nil => exact .fresh
  | append_singleton events event ih =>
    rw [Run.meets_concat] at hserved
    rw [lastApplied_concat, run_concat]
    exact (ih hcollisions.of_append hserved.1).step hcollisions hserved.2

theorem status_of_reportsRunning {command : CoreCommand}
    (hreports : (controller.handle env world command).2.reportsRunning = true) :
    (controller.handle env world command).1.runtime.status = .running := by
  cases command with
  | applyConfig config =>
    have hpath : ApplyConfigPath env world controller config
        (controller.handle env world (.applyConfig config)) :=
      applyConfig_path controller config
    generalize controller.handle env world (.applyConfig config) = result at hpath hreports
    cases hpath with
    | rejected | changeFailed | startFailed => simp [failWith, reportsRunning] at hreports
    | _ => rfl
  | applyRoutes config =>
    change (controller.applyRoutes config).1.runtime.status = .running
    change (controller.applyRoutes config).2.reportsRunning = true at hreports
    rcases applyRoutes_cases controller config with ⟨message, heq⟩ | ⟨service, -, -, heq⟩
    · simp [heq, reportsRunning] at hreports
    · rw [heq]
      rfl
  | applyUserDelta nodeTag delta =>
    change (controller.applyUserDelta env world nodeTag delta).1.runtime.status = .running
    change (controller.applyUserDelta env world nodeTag delta).2.reportsRunning = true at hreports
    rcases @applyUserDelta_cases env world controller nodeTag delta with
      ⟨message, heq⟩ | ⟨service, handle, -, -, -, heq⟩
    · simp [heq, reportsRunning] at hreports
    · rw [heq]
      rfl
  | applyDeviceLimitSnapshot | commitDeviceLimitReport =>
    simp only [handle, applyDeviceLimitSnapshot, commitDeviceLimitReport] at hreports
    split at hreports <;> simp [reportsRunning] at hreports
  | status => simpa [handle, reportsRunning] using hreports
  | drainTraffic | requeueTraffic | metrics | trimMemory | stop =>
    simp [handle, drainTraffic, requeueTraffic, stop, reportsRunning] at hreports

theorem isError_of_reportsRunning {response : CoreResponse}
    (hreports : response.reportsRunning = true) : response.isError = false := by
  cases response <;> simp [reportsRunning] at hreports <;> rfl

end CoreController

open CoreController

/-- Whenever an answer says that the core runs, there is a service, it runs the
listeners of the configuration applied last, and a configuration that was just
answered so is the one it runs, provided that no remembered configuration is
sent while there is no service. -/
theorem running_serves_last_applied {env : Externals} {events : List Event}
    {world : World} {command : CoreCommand}
    (hcollisions : NoCollisions env (events ++ [.command world command]))
    (hserved : Run.Meets (CoreController.step env) (ServedWhenRemembered env)
      {} (events ++ [.command world command])) (hreports : ((run env events).handle env world
      command).2.reportsRunning = true) :
    ∃ service config, ((run env events).handle env world command).1.service = some service ∧
      lastApplied env (events ++ [.command world command]) = some config ∧
      (∀ sent, command = .applyConfig sent → config = sent) ∧
      service.config = configWithoutUsers config ∧
      service.listeners.map ListenerHandle.descriptor = config.inbounds.map
          (inboundDescriptor env (configWithoutUsers config)) ∧
      service.Runs ((run env events).handle env world command).1.host := by
  have hrun : run env (events ++ [.command world command]) =
      ((run env events).handle env world command).1 := run_concat env _ _
  have hremembers := remembers_run hcollisions hserved
  have hserve := serving_run env (events ++ [.command world command])
  rw [hrun] at hremembers hserve
  obtain ⟨service, hserv⟩ := Option.isSome_iff_exists.mp
    (hremembers.running (status_of_reportsRunning hreports))
  obtain ⟨config, hlast, hconfig⟩ := hremembers.config service hserv
  have halign := hserve.aligned service hserv
  refine ⟨service, config, hserv, hlast, ?_, hconfig, ?_, hserve.runs service hserv⟩
  · rintro sent rfl
    have happlied : (run env events).appliedBy env
        (.command world (.applyConfig sent)) = some sent := by
      have herror := isError_of_reportsRunning hreports
      change ((run env events).applyConfig env world sent).2.isError = false at herror
      simp [appliedBy, herror]
    rw [lastApplied_concat, happlied] at hlast
    exact (Option.some.inj hlast).symm
  · rw [halign.listeners, hconfig]
    exact CoreService.map_inboundDescriptor_withoutUsers _ _

open Sample

/-- A configuration with one inbound, and the same with another policy. -/
def oneInbound (connectTimeoutSecs : UInt64) : CoreConfig :=
  { config [inbound "a" .socks 1000 [user 1 "alice"]] with
    policy := { connectTimeoutSecs } }

theorem running_serves_last_applied_sample :
    let events : List Event := [.command (world []) (.applyConfig (oneInbound 15))]
    ((run externals events).handle externals (world [])
        .status).2.reportsRunning = true ∧
      ∃ service config, ((run externals events).handle externals
          (world []) .status).1.service = some service ∧ lastApplied externals
          (events ++ [.command (world []) .status]) = some config ∧
        service.config = configWithoutUsers config := by
  intro events
  have hreports : ((run externals events).handle externals
      (world []) .status).2.reportsRunning = true := by decide +kernel
  have hcollisions : NoCollisions externals (events ++ [.command (world []) .status]) := by
    intro first second config other hfirst hsecond _
    simp only [events, cons_append, nil_append, mem_cons,
      Event.command.injEq, CoreCommand.applyConfig.injEq, reduceCtorEq,
      and_false, not_mem_nil, or_false] at hfirst hsecond
    rw [hfirst.2, hsecond.2]
  have hserved : Run.Meets (CoreController.step externals) (ServedWhenRemembered externals) {}
      (events ++ [.command (world []) .status]) := by
    refine ⟨?_, ?_, trivial⟩
    · intro world config _ _ hremembered
      simp at hremembered
    · intro world config hevent
      simp at hevent
  obtain ⟨service, config, hserv, hlast, -, hconfig, -⟩ :=
    running_serves_last_applied hcollisions hserved hreports
  exact ⟨hreports, service, config, hserv, hlast, hconfig⟩

/-- A restart for another policy fails, and the old configuration is sent
again: it is answered as a running no-op, and there is no service. -/
theorem remembered_config_reported_running_without_service :
    let restarted : List Event :=
      [.command (world []) (.applyConfig (oneInbound 15)),
       .command (world [1]) (.applyConfig (oneInbound 20))]
    fingerprintConfig externals (oneInbound 15) ≠
        fingerprintConfig externals (oneInbound 20) ∧
      ((run externals restarted).handle externals
          (world []) (.applyConfig (oneInbound 15))).2 = .applied "noop" .running [] ∧
      ((run externals restarted).handle externals (world [])
          (.applyConfig (oneInbound 15))).1.service.isNone = true := by decide +kernel

end KeliCore
