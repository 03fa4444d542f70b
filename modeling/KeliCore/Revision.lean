/-
The revision protocol.  The stored revision of an inbound summarises its whole
past: which accepted delta last carried a revision, and that the user table was
only touched by deltas without one since.
-/
import KeliCore.Inbounds

namespace KeliCore

namespace CoreController

/-- The delta would be taken. -/
def AcceptsDelta (env : Externals) (controller : CoreController)
    (world : World) (tag : String) (delta : CoreUserDelta) : Prop :=
  (controller.handle env world (.applyUserDelta tag delta)).2.isError = false

/-- The event changes the users of an inbound by a delta that carries no
revision, or leaves its listener and user table alone. -/
inductive KeepsRevision (env : Externals) (tag : String)
    (controller : CoreController) (event : Event) : Prop
  | unrevised {world : World} {delta : CoreUserDelta}
      (hevent : event = .command world (.applyUserDelta tag delta))
      (haccepted : AcceptsDelta env controller world tag delta)
      (hrevision : delta.revision = none) (hfull : delta.full = none)
  | untouched {before after : Slot} (hevent : ∀ world delta,
        event = .command world (.applyUserDelta tag delta) →
          ¬ AcceptsDelta env controller world tag delta)
      (hpre : controller.slot tag = some before)
      (hafter : (controller.step env event).slot tag = some after)
      (hid : after.handle.id = before.handle.id) (htable : after.handle.table = before.handle.table)

/-- The last accepted delta of an inbound that carried a revision carried this
one, and the user table was only changed by deltas without one since. -/
def RevisedTo (env : Externals) (tag revision : String) (events : List Event) : Prop :=
  ∃ past world delta later, events = past ++ .command world (.applyUserDelta tag delta) :: later ∧
    AcceptsDelta env (run env past) world tag delta ∧ delta.revision = some revision ∧
    Run.Meets (step env) (KeepsRevision env tag)
      (run env (past ++ [.command world (.applyUserDelta tag delta)])) later

variable {env : Externals} {tag revision : String} {events : List Event}

theorem RevisedTo.concat {event : Event} (hrevised : RevisedTo env tag revision events)
    (hkeeps : KeepsRevision env tag (run env events) event) :
    RevisedTo env tag revision (events ++ [event]) := by
  obtain ⟨past, world, delta, later, rfl, haccepted, hrevision, hmeets⟩ := hrevised
  refine ⟨past, world, delta, later ++ [event], by simp, haccepted, hrevision, ?_⟩
  rw [Run.meets_concat]
  refine ⟨hmeets, ?_⟩
  have hlast : run env (past ++ .command world (.applyUserDelta tag delta) ::
      later) = Run.exec (step env) (run env (past ++ [.command world (.applyUserDelta tag delta)]))
        later := by rw [run, run, ← Run.exec_append, List.append_assoc, List.singleton_append]
  rwa [← hlast]

theorem RevisedTo.accepted {world : World} {delta : CoreUserDelta}
    (haccepted : AcceptsDelta env (run env events) world tag delta)
    (hrevision : delta.revision = some revision) :
    RevisedTo env tag revision (events ++ [.command world (.applyUserDelta tag delta)]) :=
  ⟨events, world, delta, [], rfl, haccepted, hrevision, trivial⟩

/-- An unreplaced user list keeps the revision, a replaced one loses it. -/
theorem syncUsers_revision {inbound : InboundConfig} {slot : Slot}
    (hrevision : (slot.syncUsers env inbound).revision = some revision) :
    slot.syncUsers env inbound = slot := by
  rcases Slot.syncUsers_cases env inbound slot with ⟨_, heq⟩ | ⟨_, heq⟩
  · exact heq
  · rw [heq] at hrevision
    contradiction

theorem revision_step {controller : CoreController} {after : Slot}
    (hserve : Serving env controller) (event : Event)
    (hafter : (controller.step env event).slot tag = some after)
    (hrevision : after.revision = some revision) :
    (∃ world delta, event = .command world (.applyUserDelta tag delta) ∧
      AcceptsDelta env controller world tag delta ∧ delta.revision = some revision) ∨
    ∃ before, controller.slot tag = some before ∧ before.revision = some revision ∧
      KeepsRevision env tag controller event := by
  have hstep := slot_step hserve event hafter
  cases hstep with
  | @same _ before _ hpre hsame hdelta =>
    refine .inr ⟨before, hpre, hsame.revision.symm.trans hrevision,
      .untouched ?_ hpre hafter hsame.id hsame.table⟩
    intro world delta heq haccepted
    simp [AcceptsDelta, hdelta world delta heq] at haccepted
  | @config world config inbound _ hvalid _ hmem htag _ hslot =>
    subst htag
    cases hslot with
    | @synced before hpre hsame =>
      have hkept := syncUsers_revision (hsame.revision.symm.trans hrevision)
      rw [hkept] at hsame
      exact .inr ⟨before, hpre, hsame.revision.symm.trans hrevision,
        .untouched (by simp) hpre hafter hsame.id hsame.table⟩
    | started _ _ _ hnone =>
      rw [hnone] at hrevision
      contradiction
  | @delta world delta service before hserv hpre hcheck =>
    have hfind := CoreService.slot_handle hpre
    have haccepted : AcceptsDelta env controller world tag delta := by
      simp [AcceptsDelta, handle, applyUserDelta, CoreService.applyUserDelta,
        hserv, hfind, hcheck, CoreResponse.isError]
    cases hcarried : delta.revision with
    | some carried =>
      simp only [Slot.applyDelta, hcarried, Option.some.injEq] at hrevision
      exact .inl ⟨world, delta, rfl, haccepted, by rw [hcarried, hrevision]⟩
    | none =>
      cases hfull : delta.full with
      | some users => simp [Slot.applyDelta, hcarried, hfull] at hrevision
      | none =>
        simp only [Slot.applyDelta, hcarried, hfull] at hrevision
        exact .inr ⟨before, (slot_of_service hserv tag).trans hpre,
          hrevision, .unrevised rfl haccepted hcarried hfull⟩

theorem revisedTo_of_slot (events : List Event) {slot : Slot}
    (hslot : (run env events).slot tag = some slot)
    (hrevision : slot.revision = some revision) : RevisedTo env tag revision events := by
  induction events using List.reverseRecOn generalizing slot with
  | nil => simp [run, CoreController.slot] at hslot
  | append_singleton events event ih =>
    rw [run_concat] at hslot
    rcases revision_step (serving_run env events) event hslot hrevision with
      ⟨world, delta, rfl, haccepted, hcarried⟩ | ⟨before, hpre, hold, hkeeps⟩
    · exact .accepted haccepted hcarried
    · exact (ih hpre hold).concat hkeeps

end CoreController

open CoreController

/-- An incremental delta with a base revision is taken only when the inbound's
last revision is that base and its users were only changed by deltas without
one since; otherwise it is refused and nothing changes. -/
theorem incremental_delta_accepted_only_on_base {env : Externals}
    (events : List Event) (world : World) (tag base : String)
    {delta : CoreUserDelta} (hfull : delta.full = none) (hbase : delta.baseRevision = some base) :
    (AcceptsDelta env (run env events) world tag delta → RevisedTo env tag base events) ∧
    (¬ AcceptsDelta env (run env events) world tag delta →
      ∃ message, (run env events).handle env world
        (.applyUserDelta tag delta) = (run env events, .error message)) := by
  have hcases := @applyUserDelta_cases env world (run env events) tag delta
  rcases hcases with ⟨message, heq⟩ | ⟨service, handle, hserv, hfind, hcheck, heq⟩
  · constructor
    · intro haccepted
      change ((run env events).applyUserDelta env world tag delta).2.isError = false at haccepted
      rw [heq] at haccepted
      contradiction
    · exact fun _ => ⟨message, heq⟩
  · constructor
    · intro _
      have hrevision : service.userRevisions.lookup tag = some base := by
        simp only [CoreService.checkRevision, hfull, hbase] at hcheck
        split at hcheck
        next current hcurrent =>
          split at hcheck
          · contradiction
          next heq => rw [hcurrent, not_not.1 heq]
        · contradiction
      have hslot : (run env events).slot tag =
          some ⟨handle, service.userFingerprints.lookup tag, some base⟩ := by
        rw [slot_of_service hserv, CoreService.slot, hfind, hrevision]
        rfl
      exact revisedTo_of_slot events hslot rfl
    · intro hrefused
      change ¬ ((run env events).applyUserDelta env world tag delta).2.isError = false at hrefused
      rw [heq] at hrefused
      exact absurd rfl hrefused

open Sample

/-- A snapshot with a revision, a delta without one, and the delta based on
the snapshot. -/
theorem incremental_delta_accepted_only_on_base_sample :
    let world := world []
    let events : List Event :=
      [.command world (.applyConfig (config
        [inbound "a" .socks 1000 [user 1 "alice"]])),
       .command world (.applyUserDelta "a"
        { full := some [user 2 "bob"], revision := some "r1" }),
       .command world (.applyUserDelta "a" { added := [user 3 "carol"] })]
    let delta : CoreUserDelta :=
      { deleted := ["bob"], baseRevision := some "r1", revision := some "r2" }
    AcceptsDelta externals (run externals events) world "a" delta ∧
      RevisedTo externals "a" "r1" events := by
  intro world events delta
  have haccepted : AcceptsDelta externals (run externals events) world "a" delta := by
    unfold AcceptsDelta
    decide +kernel
  exact ⟨haccepted, (incremental_delta_accepted_only_on_base events world "a"
    "r1" rfl rfl).1 haccepted⟩

end KeliCore
