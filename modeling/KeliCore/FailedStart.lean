/-
Failed starts.  A start that fails at its first listener leaves nothing; one
that fails later leaves the listeners before it running, which no handle
reaches any more.
-/
import KeliCore.Serving

namespace KeliCore

open CoreService

variable {config : CoreConfig}

namespace Host

/-- None of the threads started since `before` runs. -/
def NoneStarted (before after : Host) : Prop :=
  ∀ id, before.next ≤ id → after.running.lookup id = none

theorem WellFormed.lookup_eq_none {host : Host} (hwf : host.WellFormed)
    {id : Nat} (hid : host.next ≤ id) : host.running.lookup id = none := by
  cases hget : host.running.lookup id with
  | none => rfl
  | some status => exact absurd (hwf id status hget) (Nat.not_lt.2 hid)

/-- Threads were left behind exactly when some were started. -/
theorem Spawned.noneStarted_iff {before after : Host} {handles : List ListenerHandle}
    {origin : Host} (hspawn : Spawned before after handles)
    (hnone : NoneStarted origin before) (hnext : origin.next ≤ before.next) :
    NoneStarted origin after ↔ handles = [] := by
  constructor
  · intro hafter
    cases handles with
    | nil => rfl
    | cons handle rest =>
      have hrunning := hspawn.running handle List.mem_cons_self
      have hid := (hspawn.fresh handle List.mem_cons_self).1
      rw [hafter handle.id (hnext.trans hid)] at hrunning
      contradiction
  · rintro rfl id hid
    rw [hspawn.others id (by simp)]
    exact hnone id hid

end Host

variable {env : Externals} {world : World}

namespace CoreService

/-- The start fails before it has a listener: the configuration does not pass
its checks, or its first listener does not start. -/
def FailsFirst (env : Externals) (world : World) (host : Host) (config : CoreConfig) : Prop :=
  checkConfig env world config ≠ .ok () ∨ ∃ source, world.startListener host.next = .error source

theorem noneStarted_start_iff {origin host after : Host} {error : CoreServiceError}
    (hnone : origin.NoneStarted host) (hnext : origin.next ≤ host.next)
    (hstart : start env world host config = (after, .error error)) :
    origin.NoneStarted after ↔ FailsFirst env world host config := by
  obtain ⟨handles, hspawn, hempty⟩ := start_error hstart
  rw [hspawn.noneStarted_iff hnone hnext, hempty]
  rfl

end CoreService

namespace CoreController

variable {controller : CoreController}

theorem NeedsRestart.unique {first second : Host}
    (hfirst : NeedsRestart env world controller config first)
    (hsecond : NeedsRestart env world controller config second) : first = second := by
  cases hfirst with
  | stopped hnone =>
    cases hsecond with
    | stopped => rfl
    | declined hserv => simp [hnone] at hserv
  | declined hserv _ _ hupd =>
    cases hsecond with
    | stopped hnone => simp [hnone] at hserv
    | declined hother _ _ hupd' =>
      rw [hserv] at hother
      cases hother
      rw [hupd] at hupd'
      exact (Prod.mk.inj (Prod.mk.inj hupd').1).1

theorem NeedsRestart.noneStarted {host : Host}
    (hrestart : NeedsRestart env world controller config host) (hwf : controller.host.WellFormed) :
    controller.host.next ≤ (stoppedHost { controller with host }).next ∧
      controller.host.NoneStarted (stoppedHost { controller with host }) := by
  have hsame : controller.host.next ≤ host.next ∧
      ∀ id, host.running.lookup id = controller.host.running.lookup id := by
    cases hrestart with
    | stopped => exact ⟨le_rfl, fun _ => rfl⟩
    | declined _ _ _ hupd => exact updateChanged_unchanged hupd (by simp) hwf
  constructor
  · rw [stoppedHost_next]
    exact hsame.1
  · intro id hid
    have hhost : host.running.lookup id = none := by rw [hsame.2, hwf.lookup_eq_none hid]
    unfold stoppedHost
    split
    · simp [CoreService.stop, hhost]
    · exact hhost

/-- The configuration goes through a restart whose first listener starts. -/
def RestartStarts (env : Externals) (world : World)
    (controller : CoreController) (config : CoreConfig) : Prop :=
  config.validate env = .ok () ∧
    controller.runtime.activeFingerprint ≠ some (fingerprintConfig env config) ∧
    ∃ host, NeedsRestart env world controller config host ∧
      ¬ CoreService.FailsFirst env world host config

theorem noneStarted_applyConfig_iff (hwf : controller.host.WellFormed)
    {result : CoreController × CoreResponse}
    (hpath : ApplyConfigPath env world controller config result)
    (herror : result.2.isError = true) : controller.host.NoneStarted result.1.host ↔
      ¬ RestartStarts env world controller config := by
  have hnone : controller.host.NoneStarted controller.host := fun id hid => hwf.lookup_eq_none hid
  cases hpath with
  | rejected hinvalid =>
    refine ⟨?_, fun _ => hnone⟩
    rintro - ⟨hvalid, -⟩
    simp [hinvalid] at hvalid
  | noop | users | routes | changed | restarted => simp [CoreResponse.isError,
      finishUpdate, appliedResponse] at herror
  | changeFailed _ _ hserv hupd =>
    have hsame := updateChanged_unchanged hupd (by simp) hwf
    constructor
    · rintro - ⟨-, -, host, hrestart, -⟩
      cases hrestart with
      | stopped hnone => simp [hnone] at hserv
      | declined hother _ _ hdeclined =>
        rw [hserv] at hother
        cases hother
        rw [hupd] at hdeclined
        simp at hdeclined
    · intro _ id hid
      exact (hsame.2 id).trans (hnone id hid)
  | @startFailed host after error hvalid hreload hrestart hstart =>
    obtain ⟨hnext, hstop⟩ := hrestart.noneStarted hwf
    have hiff := noneStarted_start_iff hstop hnext hstart
    have hfirst : CoreService.FailsFirst env world (stoppedHost { controller with host }) config ↔
          CoreService.FailsFirst env world host config := by
      simp only [CoreService.FailsFirst, stoppedHost_next]
    change controller.host.NoneStarted after ↔ _
    rw [hiff, hfirst]
    constructor
    · rintro hfails ⟨-, -, other, hother, hstarts⟩
      rw [hrestart.unique hother] at hfails
      exact hstarts hfails
    · intro hnot
      by_contra hstarts
      exact hnot ⟨hvalid, hreload, host, hrestart, hstarts⟩

end CoreController

open CoreController

/-- When a start returns an error, none of its listeners is left exactly when
it failed before the first of them was up; and after a failed configuration
command none is left exactly when the command did not get a listener up on the
restart path. -/
theorem failed_start_leaves_none_iff {env : Externals} :
    (∀ (world : World) (host after : Host) (config : CoreConfig)
      (error : CoreServiceError), host.WellFormed →
      CoreService.start env world host config = (after, .error error) → (host.NoneStarted after ↔
        CoreService.FailsFirst env world host config)) ∧
    ∀ (events : List Event) (world : World) (config : CoreConfig),
      ((run env events).handle env world (.applyConfig config)).2.isError = true →
      ((run env events).host.NoneStarted
          ((run env events).handle env world (.applyConfig config)).1.host ↔
        ¬ RestartStarts env world (run env events) config) := by
  constructor
  · intro world host after config error hwf hstart
    exact noneStarted_start_iff (fun id hid => hwf.lookup_eq_none hid) le_rfl hstart
  · intro events world config herror
    exact noneStarted_applyConfig_iff (serving_run env events).wellFormed
      (applyConfig_path _ config) herror

open Sample

/-- The configuration of the two runs below. -/
def twoInbounds : CoreConfig :=
  Sample.config [Sample.inbound "a" .socks 1000 [Sample.user 1 "alice"],
     Sample.inbound "b" .http 1001 [Sample.user 2 "bob"]]

theorem failed_start_leaves_none_first :
    Host.NoneStarted {} (CoreService.start externals (Sample.world [0]) {} twoInbounds).1 ∧
    (run externals []).host.NoneStarted
      ((run externals []).handle externals (Sample.world [0])
        (.applyConfig twoInbounds)).1.host := by
  have hfirst : CoreService.FailsFirst externals (Sample.world [0]) {}
      twoInbounds := Or.inr ⟨"address in use", by decide⟩
  have hwf : Host.WellFormed {} := (serving_run externals []).wellFormed
  constructor
  · have hfailed : (CoreService.start externals (Sample.world [0]) {}
        twoInbounds).2.toOption.isNone = true := by decide +kernel
    cases hstart : CoreService.start externals (Sample.world [0]) {} twoInbounds with
    | mk after result =>
      cases result with
      | ok service => simp [hstart, Except.toOption] at hfailed
      | error error => exact (failed_start_leaves_none_iff.1 _ _ _ _ _ hwf hstart).2 hfirst
  · refine (failed_start_leaves_none_iff.2 [] _ _ (by decide +kernel)).2 ?_
    rintro ⟨-, -, host, hrestart, hstarts⟩
    cases hrestart with
    | stopped => exact hstarts hfirst
    | declined hserv => simp [run] at hserv

/-- With the second of two listeners failing the first one keeps running: the
command is answered with an error and no service holds the listener. -/
theorem failed_start_leaves_first_listener :
    (CoreService.start externals (Sample.world [1]) {}
      twoInbounds).2.toOption.isNone = true ∧
    (CoreService.start externals (Sample.world [1]) {} twoInbounds).1.running.lookup 0 =
      some ⟨"a", .socks, ⟨.v4 0x7f000001, 80⟩⟩ ∧
    ((run externals []).handle externals (Sample.world [1])
        (.applyConfig twoInbounds)).2 = .error "failed to bind inbound b: address in use" ∧
    ((run externals []).handle externals (Sample.world [1])
        (.applyConfig twoInbounds)).1.service.isNone = true ∧
    ((run externals []).handle externals (Sample.world [1])
        (.applyConfig twoInbounds)).1.host.running.lookup 0 =
      some ⟨"a", .socks, ⟨.v4 0x7f000001, 80⟩⟩ := by decide +kernel

/-- A service and the threads of its process. -/
structure Process where
  service : CoreService
  host : Host
  wellFormed : host.WellFormed

/-- `update_changed_listeners_and_users` with the `&mut self` it works on. -/
def Process.updateChanged (env : Externals) (world : World)
    (process : Process) (config : CoreConfig) :
    (CoreService × Host) × Except CoreServiceError Bool :=
  let done := process.service.updateChangedListenersAndUsers env world process.host config
  (done.1.swap, done.2)

/-- Whichever starts fail, an update that returns an error or `Ok(false)` has
changed nothing, and no listener started by it runs. -/
theorem declined_update_changes_nothing (env : Externals) (world : World)
    (process : Process) (config : CoreConfig)
    (hresult : (process.updateChanged env world config).2 ≠ .ok true) :
    (process.updateChanged env world config).1.1 = process.service ∧
      (∀ id, (process.updateChanged env world config).1.2.running.lookup id =
        process.host.running.lookup id) ∧
      process.host.NoneStarted (process.updateChanged env world config).1.2 := by
  rcases hupd : process.service.updateChangedListenersAndUsers env world process.host config with
    ⟨⟨host, service⟩, result⟩
  have hdone : process.updateChanged env world config = ((service, host), result) := by
    rw [Process.updateChanged, hupd]
    rfl
  rw [hdone] at hresult ⊢
  have hthreads := updateChanged_unchanged hupd hresult process.wellFormed
  refine ⟨updateChanged_service hupd hresult, hthreads.2, fun id hid => ?_⟩
  exact (hthreads.2 id).trans (process.wellFormed.lookup_eq_none hid)

/-- Both inbounds of `twoInbounds` up, then moved to other ports. -/
theorem declined_update_changes_nothing_moved :
    let running := run externals
      [.command (Sample.world []) (.applyConfig twoInbounds)]
    let moved := Sample.config
      [Sample.inbound "a" .socks 2000 [Sample.user 1 "alice"],
       Sample.inbound "b" .http 2001 [Sample.user 2 "bob"]]
    ∃ process : Process, running.service = some process.service ∧ running.host = process.host ∧
      (process.updateChanged externals (Sample.world [3])
        moved).1.2.next = 4 ∧
      (process.updateChanged externals (Sample.world [3]) moved).1.1 = process.service ∧
      process.host.NoneStarted (process.updateChanged externals
        (Sample.world [3]) moved).1.2 := by
  intro running moved
  have hsome : running.service.isSome = true := by decide +kernel
  obtain ⟨service, hserv⟩ := Option.isSome_iff_exists.1 hsome
  let process : Process := ⟨service, running.host, (serving_run externals _).wellFormed⟩
  have hrun : (running.service.map fun service =>
      let done := service.updateChangedListenersAndUsers externals
        (Sample.world [3]) running.host moved
      (done.1.1.next, done.2.toOption)) = some (4, none) := by decide +kernel
  rw [hserv, Option.map_some] at hrun
  have hnext : (process.updateChanged externals (Sample.world [3]) moved).1.2.next = 4 ∧
      (process.updateChanged externals (Sample.world [3]) moved).2 ≠ .ok true := by
    unfold Process.updateChanged
    rcases hupd : service.updateChangedListenersAndUsers externals
        (Sample.world [3]) running.host moved with ⟨⟨host, left⟩, error | done⟩
    · rw [hupd] at hrun
      simpa [process, hupd, Except.toOption] using hrun
    · rw [hupd] at hrun
      simp [Except.toOption] at hrun
  have hnothing := declined_update_changes_nothing externals
    (Sample.world [3]) process moved hnext.2
  exact ⟨process, hserv, rfl, hnext.1, hnothing.1, hnothing.2.2⟩

end KeliCore
