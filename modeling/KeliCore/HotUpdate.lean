/-
A hot update against a restart.  Whatever path takes a configuration into a
running service, the service that results has what a fresh start of that
configuration would have.
-/
import KeliCore.Serving

namespace KeliCore

namespace CoreService

/-- A configuration taken by one of the hot paths. -/
inductive HotUpdate (env : Externals) (world : World) (service : CoreService)
    (host : Host) (config : CoreConfig) : Host → CoreService → Prop
  | users (hallow : service.canUpdateUsers config = true) :
      HotUpdate env world service host config host (service.updateUsers env config)
  | routes (hallow : service.canUpdateRoutes config = true) :
      HotUpdate env world service host config host (service.updateRoutesAndUsers env config)
  | changed {after : Host} {updated : CoreService}
      (hupd : service.updateChangedListenersAndUsers env world host config =
        ((after, updated), .ok true)) : HotUpdate env world service host config after updated

variable {env : Externals} {host : Host}

namespace HotUpdate

variable {service updated : CoreService} {config : CoreConfig} {world : World} {after : Host}

theorem config_eq (hhot : HotUpdate env world service host config after updated) :
    updated.config = configWithoutUsers config := by
  cases hhot with
  | users | routes => rfl
  | changed hupd => exact updateChanged_stored hupd

theorem aligned (hhot : HotUpdate env world service host config after updated)
    (halign : Aligned env service) (hruns : Runs service host)
    (hwf : host.WellFormed) : Aligned env updated := by
  cases hhot with
  | users hallow => exact halign.updateUsers hallow
  | routes hallow => exact halign.updateRoutesAndUsers hallow
  | changed hupd => exact (updateChanged_changed halign hruns hwf hupd).aligned

theorem runs (hhot : HotUpdate env world service host config after updated)
    (halign : Aligned env service) (hruns : Runs service host)
    (hwf : host.WellFormed) : Runs updated after := by
  cases hhot with
  | users => exact hruns.of_threads (service.updateUsers_threads config)
  | routes => exact hruns.of_threads (service.updateRoutesAndUsers_threads config)
  | changed hupd => exact (updateChanged_changed halign hruns hwf hupd).runs

theorem map_id_of_threads
    (hthreads : updated.listeners.map threadView = service.listeners.map threadView) :
    updated.listeners.map ListenerHandle.id = service.listeners.map ListenerHandle.id := by
  have hids := congrArg (List.map Prod.fst) hthreads
  simpa [threadView, Function.comp_def] using hids

/-- Of the threads that are not the new service's, those of the old service
are stopped and the others run on. -/
theorem others (hhot : HotUpdate env world service host config after updated)
    (halign : Aligned env service) (hruns : Runs service host) (hwf : host.WellFormed) {id : Nat}
    (hid : id ∉ updated.listeners.map ListenerHandle.id) :
    after.running.lookup id = if id ∈ service.listeners.map ListenerHandle.id then none
      else host.running.lookup id := by
  cases hhot with
  | users =>
    rw [map_id_of_threads (service.updateUsers_threads config)] at hid
    rw [if_neg hid]
  | routes =>
    rw [map_id_of_threads (service.updateRoutesAndUsers_threads config)] at hid
    rw [if_neg hid]
  | changed hupd => exact (updateChanged_changed halign hruns hwf hupd).others id hid

end HotUpdate

end CoreService

open CoreService

open Sample

end KeliCore
