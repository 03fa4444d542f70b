/-
The paths of each command, and what every reachable controller satisfies: a
running service has the listeners of its configuration and a thread for each.
-/
import KeliCore.Changed

namespace KeliCore

open CoreService RuntimeState

variable {controller : CoreController} {config : CoreConfig} {host : Host} {env : Externals}
  {world : World}

namespace CoreController

/-- What a configuration that has to be restarted finds: no service, or one
that can take it on none of the hot paths. -/
inductive NeedsRestart (env : Externals) (world : World)
    (controller : CoreController) (config : CoreConfig) : Host → Prop
  | stopped (hserv : controller.service = none) :
      NeedsRestart env world controller config controller.host
  | declined {service : CoreService} {host : Host} (hserv : controller.service = some service)
      (husers : service.canUpdateUsers config = false)
      (hroutes : service.canUpdateRoutes config = false)
      (hupd : service.updateChangedListenersAndUsers env world
        controller.host config = ((host, service), .ok false)) : NeedsRestart env world controller config host

/-- The paths of `applyConfig`. -/
inductive ApplyConfigPath (env : Externals) (world : World)
    (controller : CoreController) (config : CoreConfig) : CoreController × CoreResponse → Prop
  | rejected {error : ValidationError} (hinvalid : config.validate env = .error error) :
      ApplyConfigPath env world controller config (controller.failWith error.message)
  | noop (hvalid : config.validate env = .ok ()) (hsame : controller.runtime.activeFingerprint =
        some (fingerprintConfig env config)) : ApplyConfigPath env world controller config
        ({ controller with
            runtime := { controller.runtime with status := .running } },
          .applied "noop" .running controller.listeners)
  | users {service : CoreService} (hvalid : config.validate env = .ok ())
      (hreload : controller.runtime.activeFingerprint ≠ some (fingerprintConfig env config))
      (hserv : controller.service = some service)
      (hallow : service.canUpdateUsers config = true) :
      ApplyConfigPath env world controller config
        (controller.finishUpdate (fingerprintConfig env config)
          controller.host (service.updateUsers env config))
  | routes {service : CoreService} (hvalid : config.validate env = .ok ())
      (hreload : controller.runtime.activeFingerprint ≠ some (fingerprintConfig env config))
      (hserv : controller.service = some service)
      (hallow : service.canUpdateRoutes config = true) :
      ApplyConfigPath env world controller config
        (controller.finishUpdate (fingerprintConfig env config)
          controller.host (service.updateRoutesAndUsers env config))
  | changed {service updated : CoreService} {host : Host} (hvalid : config.validate env = .ok ())
      (hreload : controller.runtime.activeFingerprint ≠ some (fingerprintConfig env config))
      (hserv : controller.service = some service)
      (hupd : service.updateChangedListenersAndUsers env world
        controller.host config = ((host, updated), .ok true)) :
      ApplyConfigPath env world controller config
        (controller.finishUpdate (fingerprintConfig env config) host updated)
  | changeFailed {service : CoreService} {host : Host}
      {error : CoreServiceError} (hvalid : config.validate env = .ok ())
      (hreload : controller.runtime.activeFingerprint ≠ some (fingerprintConfig env config))
      (hserv : controller.service = some service)
      (hupd : service.updateChangedListenersAndUsers env world
        controller.host config = ((host, service), .error error)) :
      ApplyConfigPath env world controller config (failWith { controller with host } error.display)
  | startFailed {host after : Host} {error : CoreServiceError}
      (hvalid : config.validate env = .ok ()) (hreload : controller.runtime.activeFingerprint ≠
        some (fingerprintConfig env config))
      (hrestart : NeedsRestart env world controller config host)
      (hstart : CoreService.start env world
        (stoppedHost { controller with host }) config = (after, .error error)) :
      ApplyConfigPath env world controller config
        (failWith { controller with service := none, host := after } error.display)
  | restarted {host after : Host} {service : CoreService} (hvalid : config.validate env = .ok ())
      (hreload : controller.runtime.activeFingerprint ≠ some (fingerprintConfig env config))
      (hrestart : NeedsRestart env world controller config host)
      (hstart : CoreService.start env world
        (stoppedHost { controller with host }) config = (after, .ok service)) :
      ApplyConfigPath env world controller config
        ({ runtime :=
            { controller.runtime with
              activeFingerprint := some (fingerprintConfig env config)
              status := .running }
           service := some service
           host := after },
          .applied "reloaded" .running service.listenerStatuses)

theorem restart_path (hvalid : config.validate env = .ok ())
    (hreload : controller.runtime.activeFingerprint ≠ some (fingerprintConfig env config))
    (hrestart : NeedsRestart env world controller config host) :
    ApplyConfigPath env world controller config (restart env world { controller with host }
        (fingerprintConfig env config) config) := by
  unfold restart
  split
  next hstart => exact .startFailed hvalid hreload hrestart hstart
  next after service hstart =>
    simp only [applyPlan, if_neg hreload]
    exact .restarted hvalid hreload hrestart hstart

theorem applyConfig_path (controller : CoreController) (config : CoreConfig) :
    ApplyConfigPath env world controller config (controller.applyConfig env world config) := by
  unfold applyConfig plan
  cases hvalid : config.validate env with
  | error error => exact .rejected hvalid
  | ok value =>
    dsimp only
    by_cases hsame : controller.runtime.activeFingerprint = some (fingerprintConfig env config)
    · have hneeds : (!controller.runtime.needsReload (fingerprintConfig env config)) = true := by
        simpa [needsReload] using hsame
      have hplan : controller.runtime.applyPlan (fingerprintConfig env config) =
            ({ controller.runtime with status := .running }, .noop) :=
        if_pos hsame
      rw [if_pos hneeds, hplan]
      exact .noop hvalid hsame
    · have hneeds : (!controller.runtime.needsReload (fingerprintConfig env config)) = false := by
        simpa [needsReload] using hsame
      rw [hneeds, if_neg Bool.false_ne_true]
      cases hserv : controller.service with
      | none => exact restart_path hvalid hsame (.stopped hserv)
      | some service =>
        dsimp only
        by_cases husers : service.canUpdateUsers config = true
        · rw [if_pos husers]
          exact .users hvalid hsame hserv husers
        by_cases hroutes : service.canUpdateRoutes config = true
        · rw [if_neg husers, if_pos hroutes]
          exact .routes hvalid hsame hserv hroutes
        rw [if_neg husers, if_neg hroutes]
        split
        next hupd => exact .changed hvalid hsame hserv hupd
        next hupd =>
          obtain rfl := CoreService.updateChanged_service hupd (by simp)
          have hpath := restart_path hvalid hsame (.declined hserv
            (by simpa using husers) (by simpa using hroutes) hupd)
          rw [hserv] at hpath
          exact hpath
        next hupd =>
          obtain rfl := CoreService.updateChanged_service hupd (by simp)
          have hpath := ApplyConfigPath.changeFailed hvalid hsame hserv hupd
          rw [hserv] at hpath
          exact hpath

theorem applyRoutes_cases (controller : CoreController) (config : CoreConfig) :
    (∃ message, controller.applyRoutes config = (controller, .error message)) ∨
    ∃ service, controller.service = some service ∧ service.canUpdateRoutes config = true ∧
      controller.applyRoutes config = ({ controller with
            runtime := controller.runtime.applyRuntimeUpdate.1
            service := some (service.updateRoutes config) },
          .applied "updated" .running (service.updateRoutes config).listenerStatuses) := by
  unfold applyRoutes
  cases hserv : controller.service with
  | none => exact .inl ⟨_, rfl⟩
  | some service =>
    by_cases hallow : service.canUpdateRoutes config = true
    · refine .inr ⟨service, rfl, hallow, ?_⟩
      simp only [hallow, Bool.not_true, Bool.false_eq_true, if_false]
      rfl
    · left
      simp [hallow]

theorem applyUserDelta_cases {env : Externals} {world : World}
    (controller : CoreController) (nodeTag : String) (delta : CoreUserDelta) :
    (∃ message, controller.applyUserDelta env world nodeTag delta = (controller, .error message)) ∨
    ∃ service handle, controller.service = some service ∧
      CoreService.findHandle nodeTag service.listeners = some handle ∧
      service.checkRevision nodeTag delta = .ok () ∧
      controller.applyUserDelta env world nodeTag delta = ({ controller with
            runtime := controller.runtime.applyRuntimeUpdate.1
            service := some (service.applyAcceptedDelta env world handle delta).1 },
          .userDeltaApplied nodeTag (service.applyAcceptedDelta env world handle delta).2 .running
            (service.applyAcceptedDelta env world handle delta).1.listenerStatuses) := by
  unfold applyUserDelta CoreService.applyUserDelta
  cases hserv : controller.service with
  | none => exact .inl ⟨_, rfl⟩
  | some service =>
    dsimp only
    cases hfind : CoreService.findHandle nodeTag service.listeners with
    | none => exact .inl ⟨_, rfl⟩
    | some handle =>
      cases hcheck : service.checkRevision nodeTag delta with
      | error message => exact .inl ⟨message, rfl⟩
      | ok value =>
        refine .inr ⟨service, handle, rfl, hfind, hcheck, ?_⟩
        rfl

end CoreController

namespace CoreService

/-- Only the shared stores may differ. -/
structure SameInbounds (before after : CoreService) : Prop where
  config : after.config = before.config
  listeners : after.listeners = before.listeners
  fingerprints : after.userFingerprints = before.userFingerprints
  revisions : after.userRevisions = before.userRevisions

theorem SameInbounds.refl (service : CoreService) : SameInbounds service service :=
  ⟨rfl, rfl, rfl, rfl⟩

theorem SameInbounds.slot {before after : CoreService}
    (hsame : SameInbounds before after) (tag : String) : after.slot tag = before.slot tag := by
  simp only [CoreService.slot, hsame.listeners, hsame.fingerprints, hsame.revisions]

theorem serve_sameInbounds (service : CoreService) (event : ClientEvent) :
    SameInbounds service (service.serve event) := by
  cases event with
  | recordTraffic | disconnect | release => exact ⟨rfl, rfl, rfl, rfl⟩
  | fetchLimiter user | register _ user | acquire _ _ user =>
    simp only [serve]
    split
    · exact ⟨rfl, rfl, rfl, rfl⟩
    · exact .refl service

end CoreService

namespace CoreController

/-- Only the shared stores may differ. -/
inductive SameService : Option CoreService → Option CoreService → Prop
  | none : SameService none none
  | some {before after : CoreService} (hsame : CoreService.SameInbounds before after) :
      SameService (some before) (some after)

theorem SameService.refl (service : Option CoreService) : SameService service service := by
  cases service with
  | none => exact .none
  | some service => exact .some (.refl service)

inductive StepPath (env : Externals) (controller : CoreController) : Event → CoreController → Prop
  | config {world : World} {config : CoreConfig}
      (hpath : ApplyConfigPath env world controller config
        (controller.applyConfig env world config)) :
      StepPath env controller (.command world (.applyConfig config))
        (controller.applyConfig env world config).1
  | routes {world : World} {config : CoreConfig} {service : CoreService}
      (hserv : controller.service = some service)
      (hallow : service.canUpdateRoutes config = true) :
      StepPath env controller (.command world (.applyRoutes config))
        { controller with
          runtime := controller.runtime.applyRuntimeUpdate.1
          service := some (service.updateRoutes config) }
  | delta {world : World} {nodeTag : String} {delta : CoreUserDelta}
      {service : CoreService} {handle : ListenerHandle}
      (hserv : controller.service = some service)
      (hfind : CoreService.findHandle nodeTag service.listeners = some handle)
      (hcheck : service.checkRevision nodeTag delta = .ok ()) :
      StepPath env controller (.command world (.applyUserDelta nodeTag delta))
        { controller with
          runtime := controller.runtime.applyRuntimeUpdate.1
          service := some
            (service.applyAcceptedDelta env world handle delta).1 }
  | stop {world : World} : StepPath env controller (.command world .stop) controller.stop.1
  | other {event : Event} {after : CoreController} (hhost : after.host = controller.host)
      (hprint : after.runtime.activeFingerprint = controller.runtime.activeFingerprint)
      (hstatus : after.runtime.status = controller.runtime.status)
      (hserv : SameService controller.service after.service)
      (hrefused : ∀ world command, event = .command world command → command.configures = true →
          (controller.handle env world command).2.isError = true) :
      StepPath env controller event after

/-- The event is no command about the configuration or the users. -/
def Event.IsQuiet (event : Event) : Prop :=
  ∀ world command, event = .command world command → command.configures = false

variable {event : Event}

theorem StepPath.quiet {after : CoreController}
    (hquiet : Event.IsQuiet event) (hhost : after.host = controller.host)
    (hprint : after.runtime.activeFingerprint = controller.runtime.activeFingerprint)
    (hstatus : after.runtime.status = controller.runtime.status)
    (hserv : SameService controller.service after.service) :
    StepPath env controller event after :=
  .other hhost hprint hstatus hserv fun world command heq htrue => by
    simp [hquiet world command heq] at htrue

theorem StepPath.registry (controller : CoreController)
    (hquiet : Event.IsQuiet event) (traffic : TrafficRegistry) :
    StepPath env controller event (controller.setRegistry traffic) := by
  unfold setRegistry
  cases hserv : controller.service with
  | none => exact .quiet hquiet rfl rfl rfl (by simp [hserv, SameService.none])
  | some service =>
    refine .quiet hquiet rfl rfl rfl ?_
    rw [hserv]
    exact .some ⟨rfl, rfl, rfl, rfl⟩

theorem step_path (env : Externals) (controller : CoreController) (event : Event) :
    StepPath env controller event (controller.step env event) := by
  cases event with
  | client event =>
    refine .quiet (by simp [Event.IsQuiet]) rfl rfl rfl ?_
    change SameService controller.service
      (controller.service.map fun service => service.serve event)
    cases controller.service with
    | none => exact .none
    | some service => exact .some (service.serve_sameInbounds event)
  | command world command =>
    have hquiet (hconfigures : command.configures = false) :
        Event.IsQuiet (.command world command) := by
      rintro _ _ ⟨⟩
      exact hconfigures
    have hrefused (herror : (controller.handle env world command).2.isError = true)
        (hsame : (controller.handle env world command).1 = controller) :
        StepPath env controller (.command world command)
          (controller.handle env world command).1 := by
      rw [hsame]
      refine .other rfl rfl rfl (.refl _) ?_
      rintro _ _ ⟨⟩ -
      exact herror
    cases command with
    | applyConfig config => exact .config (applyConfig_path controller config)
    | applyRoutes config =>
      rcases applyRoutes_cases controller config with
        ⟨message, heq⟩ | ⟨service, hserv, hallow, heq⟩
      · exact hrefused (congrArg (fun result => result.2.isError) heq) (congrArg Prod.fst heq)
      · change StepPath env controller _ (controller.applyRoutes config).1
        rw [heq]
        exact .routes hserv hallow
    | applyUserDelta nodeTag delta =>
      rcases applyUserDelta_cases controller nodeTag delta with
        ⟨message, heq⟩ | ⟨service, handle, hserv, hfind, hcheck, heq⟩
      · exact hrefused (congrArg (fun result => result.2.isError) heq) (congrArg Prod.fst heq)
      · change StepPath env controller _ (controller.applyUserDelta env world nodeTag delta).1
        rw [heq]
        exact .delta hserv hfind hcheck
    | applyDeviceLimitSnapshot | commitDeviceLimitReport =>
      simp only [step, handle, applyDeviceLimitSnapshot, commitDeviceLimitReport]
      cases hserv : controller.service with
      | none => exact .quiet (hquiet rfl) rfl rfl rfl (.refl _)
      | some service =>
        refine .quiet (hquiet rfl) rfl rfl rfl ?_
        rw [hserv]
        exact .some ⟨rfl, rfl, rfl, rfl⟩
    | drainTraffic | requeueTraffic => exact .registry _ (hquiet rfl) _
    | status | metrics | trimMemory => exact .quiet (hquiet rfl) rfl rfl rfl (.refl _)
    | stop => exact .stop

/-- A running service has the listeners of its configuration and a thread for
each of them. -/
structure Serving (env : Externals) (controller : CoreController) : Prop where
  wellFormed : controller.host.WellFormed
  aligned : ∀ service, controller.service = some service → CoreService.Aligned env service
  runs : ∀ service, controller.service = some service → CoreService.Runs service controller.host

theorem Serving.fresh (env : Externals) : Serving env {} where
  wellFormed := by
    intro id status hget
    simp at hget
  aligned := by simp
  runs := by simp

theorem Serving.of_service {runtime : RuntimeState} {service : CoreService} (hwf : host.WellFormed)
    (halign : CoreService.Aligned env service) (hruns : CoreService.Runs service host) :
    Serving env { runtime, service := some service, host } where
  wellFormed := hwf
  aligned := by
    rintro _ ⟨⟩
    exact halign
  runs := by
    rintro _ ⟨⟩
    exact hruns

theorem Serving.of_none {runtime : RuntimeState} (hwf : host.WellFormed) :
    Serving env { runtime, service := none, host } where
  wellFormed := hwf
  aligned := by simp
  runs := by simp

theorem stoppedHost_wellFormed (hwf : controller.host.WellFormed) :
    controller.stoppedHost.WellFormed := by
  unfold stoppedHost
  split
  · exact hwf.stopThreads _
  · exact hwf

theorem stoppedHost_next (controller : CoreController) :
    controller.stoppedHost.next = controller.host.next := by
  unfold stoppedHost
  split <;> rfl

theorem wellFormed_of_same {before after : Host} (hwf : before.WellFormed)
    (hsame : before.next ≤ after.next ∧ ∀ id, after.running.lookup id = before.running.lookup id) :
    after.WellFormed := by
  intro id status hget
  rw [hsame.2] at hget
  exact (hwf id status hget).trans_le hsame.1

theorem NeedsRestart.wellFormed (hrestart : NeedsRestart env world controller config host)
    (hwf : controller.host.WellFormed) : host.WellFormed := by
  cases hrestart with
  | stopped => exact hwf
  | declined _ _ _ hupd =>
    exact wellFormed_of_same hwf (updateChanged_unchanged hupd (by simp) hwf)

theorem Serving.applyConfig {result : CoreController × CoreResponse}
    (hserve : Serving env controller)
    (hpath : ApplyConfigPath env world controller config result) : Serving env result.1 := by
  cases hpath with
  | rejected | noop => exact ⟨hserve.wellFormed, hserve.aligned, hserve.runs⟩
  | @users service _ _ hserv hallow =>
    exact .of_service hserve.wellFormed ((hserve.aligned service hserv).updateUsers hallow)
      ((hserve.runs service hserv).of_threads (service.updateUsers_threads config))
  | @routes service _ _ hserv hallow =>
    exact .of_service hserve.wellFormed
      ((hserve.aligned service hserv).updateRoutesAndUsers hallow)
      ((hserve.runs service hserv).of_threads (service.updateRoutesAndUsers_threads config))
  | @changed service updated host _ _ hserv hupd =>
    have hchanged := updateChanged_changed
      (hserve.aligned service hserv) (hserve.runs service hserv)
      hserve.wellFormed hupd
    exact .of_service hchanged.wellFormed hchanged.aligned hchanged.runs
  | @changeFailed service host error _ _ hserv hupd =>
    have hsame := updateChanged_unchanged hupd (by simp) hserve.wellFormed
    refine ⟨wellFormed_of_same hserve.wellFormed hsame, hserve.aligned, ?_⟩
    intro other hother
    refine ⟨(hserve.runs other hother).nodup, ?_⟩
    intro handle hmem
    exact (hsame.2 handle.id).trans ((hserve.runs other hother).running handle hmem)
  | @startFailed host after error _ _ hrestart hstart =>
    have hstop : (stoppedHost { controller with host }).WellFormed :=
      stoppedHost_wellFormed (hrestart.wellFormed hserve.wellFormed)
    obtain ⟨handles, hspawn, -⟩ := start_error hstart
    exact .of_none (hspawn.wellFormed hstop)
  | @restarted host after service _ _ hrestart hstart =>
    have hstop : (stoppedHost { controller with host }).WellFormed :=
      stoppedHost_wellFormed (hrestart.wellFormed hserve.wellFormed)
    exact .of_service ((start_ok hstart).2.1.wellFormed hstop)
      (.of_start hstart) (.of_start hstart)

theorem Serving.step (hserve : Serving env controller) (event : Event) :
    Serving env (controller.step env event) := by
  have hpath := step_path env controller event
  generalize controller.step env event = after at hpath
  cases hpath with
  | config hpath => exact hserve.applyConfig hpath
  | @routes world config service hserv hallow =>
    exact .of_service hserve.wellFormed
      ((hserve.aligned service hserv).updateRoutes hallow)
      ((hserve.runs service hserv).of_threads (service.updateRoutes_threads config))
  | @delta world nodeTag delta service handle hserv hfind =>
    have halign := hserve.aligned service hserv
    refine .of_service hserve.wellFormed ⟨halign.withoutUsers,
      halign.nodup, ?_⟩ ((hserve.runs service hserv).of_threads ?_)
    · exact (applyAcceptedDelta_map ListenerHandle.descriptor
        (fun _ _ => rfl) hfind delta).trans halign.listeners
    · exact applyAcceptedDelta_map CoreService.threadView (fun _ _ => rfl) hfind delta
  | stop => exact .of_none (stoppedHost_wellFormed hserve.wellFormed)
  | other hhost _ _ hsame _ =>
    obtain ⟨runtime, service, host⟩ := after
    obtain rfl : host = controller.host := hhost
    generalize hpre : controller.service = before at hsame
    cases hsame with
    | none => exact .of_none hserve.wellFormed
    | @some service updated hinbounds =>
      have halign := hserve.aligned service hpre
      have hruns := hserve.runs service hpre
      refine .of_service hserve.wellFormed ⟨?_, ?_, ?_⟩ ⟨?_, ?_⟩
      · rw [hinbounds.config]
        exact halign.withoutUsers
      · rw [hinbounds.config]
        exact halign.nodup
      · rw [hinbounds.config, hinbounds.listeners]
        exact halign.listeners
      · rw [hinbounds.listeners]
        exact hruns.nodup
      · rw [hinbounds.listeners]
        exact hruns.running

/-- Every reachable controller serves what its configuration says. -/
theorem serving_run (env : Externals) (events : List Event) : Serving env (run env events) :=
  Run.exec_always (fun _ event hserve => hserve.step event) (.fresh env) events

/-- In every reachable state, whatever failed on the way, the service has one
listener for each inbound of its configuration, in order and set up as that
says, and each listener has a thread of its own that was not told to stop. -/
theorem listeners_follow_config (env : Externals) (events : List Event) :
    (run env events).host.WellFormed ∧ ∀ service, (run env events).service = some service →
      (service.config.inbounds.map InboundConfig.tag).Nodup ∧
      service.listeners.map ListenerHandle.descriptor =
        service.config.inbounds.map (inboundDescriptor env service.config) ∧
      (service.listeners.map ListenerHandle.id).Nodup ∧ ∀ handle ∈ service.listeners,
        (run env events).host.running.lookup handle.id = some handle.status := by
  obtain ⟨hwf, halign, hruns⟩ := serving_run env events
  refine ⟨hwf, fun service hserv => ?_⟩
  obtain ⟨-, htags, hlisteners⟩ := halign service hserv
  obtain ⟨hthreads, hrun⟩ := hruns service hserv
  exact ⟨htags, hlisteners, hthreads, hrun⟩

end CoreController

end KeliCore
