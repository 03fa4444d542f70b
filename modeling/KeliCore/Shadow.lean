/-
The fingerprints of an inbound's users shadow its table: a configuration
replaces the users only when they differ from the shadow.  This module says
when the shadow is true to the table, and what an applied configuration finds
in the tables then.
-/
import KeliCore.Inbounds
import KeliCore.LastApplied
import KeliCore.Tables

namespace KeliCore

open CoreService Finmap UsersByUuid List Option UserFingerprintState

variable {config : CoreConfig} {service : CoreService}

/-- Users with this uuid have a key; only VMess and TUIC have users without. -/
def keyableUuid (env : Externals) (protocol : Protocol) (uuid : String) :
    Bool :=
  (userKey env protocol { uuid }).isSome

theorem isSome_userKey (env : Externals) (protocol : Protocol) (user : CoreUser) :
    (userKey env protocol user).isSome = keyableUuid env protocol user.uuid := by
  cases protocol <;> rfl

/-- The state holds the fingerprint of every user of the table, and of nobody
else who could be in it. -/
def Shadows (env : Externals) (protocol : Protocol)
    (users : HashMap String CoreUser) (state : UserFingerprintState) : Prop :=
  ∀ uuid, keyableUuid env protocol uuid = true →
    state.lookup uuid = (users.lookup uuid).map (userFingerprint env)

def fingerprintEntries (env : Externals) (users : List CoreUser) : List (String × UInt64) :=
  users.map fun user => (user.uuid, userFingerprint env user)

variable {env : Externals} {protocol : Protocol} {user : CoreUser} {listed : List CoreUser}
  {events : List Event}

section Shadows

variable {state : UserFingerprintState}

theorem Shadows.insert {users : HashMap String CoreUser}
    (hshadows : Shadows env protocol users state) (user : CoreUser) :
    Shadows env protocol (users.insert user.uuid user)
      (state.insert user.uuid (userFingerprint env user)) := by
  intro uuid hkeyable
  rw [lookup_insert_ite, lookup_insert_ite]
  split
  · rfl
  · exact hshadows uuid hkeyable

theorem Shadows.insert_unkeyable {users : HashMap String CoreUser}
    (hshadows : Shadows env protocol users state)
    (hnone : userKey env protocol user = none) (fingerprint : UInt64) :
    Shadows env protocol users (state.insert user.uuid fingerprint) := by
  intro uuid hkeyable
  rw [lookup_insert_ite, if_neg]
  · exact hshadows uuid hkeyable
  · rintro rfl
    rw [← isSome_userKey, hnone] at hkeyable
    exact Bool.false_ne_true hkeyable

theorem Shadows.extend {users : HashMap String CoreUser}
    (hshadows : Shadows env protocol users state) (listed : List CoreUser) :
    Shadows env protocol (users.extend (uuidEntries (takenUsers (userKey env protocol) listed)))
      (state.extend (fingerprintEntries env (nonEmptyUsers listed))) := by
  induction listed generalizing users state with
  | nil => exact hshadows
  | cons user rest ih =>
    unfold takenUsers nonEmptyUsers uuidEntries fingerprintEntries at ih ⊢
    cases hempty : user.isEmpty with
    | true => simpa [hempty] using ih hshadows
    | false =>
      cases hkey : userKey env protocol user with
      | none =>
        simpa [hempty, hkey] using ih (hshadows.insert_unkeyable hkey (userFingerprint env user))
      | some place => simpa [hempty, hkey] using ih (hshadows.insert user)

theorem shadows_fromUsers {env : Externals} {protocol : Protocol} (listed : List CoreUser) :
    Shadows env protocol (ofList (userKey env protocol) listed) (fromUsers env listed) := by
  have hempty : Shadows env protocol ∅ ∅ := fun uuid _ => by simp
  exact hempty.extend listed

theorem Shadows.eraseAll {users : HashMap String CoreUser}
    (hshadows : Shadows env protocol users state) (uuids : List String) :
    Shadows env protocol (users.eraseAll uuids) (state.eraseAll uuids) := by
  intro uuid hkeyable
  rw [lookup_eraseAll, lookup_eraseAll]
  split
  · rfl
  · exact hshadows uuid hkeyable

end Shadows

/-- Every updated user is in the table, added with the same delta or deleted
with it; any other one would be a ghost. -/
def NoGhosts (env : Externals) (protocol : Protocol) (table : UserTable)
    (delta : CoreUserDelta) : Prop :=
  ∀ user ∈ takenUsers (userKey env protocol) delta.updated, table.HasUuid user.uuid ∨
      (∃ added ∈ takenUsers (userKey env protocol) delta.added, added.uuid = user.uuid) ∨
      user.uuid ∈ delta.deleted

section Ghosts

variable {users : HashMap String CoreUser}

theorem foldl_add_eq (listed : List CoreUser) :
    listed.foldl add users = users.extend (uuidEntries listed) := by
  unfold extend uuidEntries
  rw [foldl_map]
  rfl

theorem lookup_foldl_update {uuid : String} (hpresent : ∀ user ∈ listed, user.uuid = uuid →
      (users.lookup uuid).isSome = true) :
    (listed.foldl update users).lookup uuid = (users.extend (uuidEntries listed)).lookup uuid := by
  induction listed generalizing users with
  | nil => rfl
  | cons user rest ih =>
    have hstep : (update users user).lookup uuid = (users.insert user.uuid user).lookup uuid := by
      unfold update
      split
      · rfl
      next hmissing =>
        rw [lookup_insert_ite, if_neg]
        rintro rfl
        exact hmissing (hpresent user mem_cons_self rfl)
    have hrest : ∀ other ∈ rest, other.uuid = uuid →
        ((update users user).lookup uuid).isSome = true := by
      intro other hother huuid
      rw [hstep, lookup_insert_ite]
      split
      · rfl
      · exact hpresent other (.tail _ hother) huuid
    rw [foldl_cons, ih hrest, uuidEntries, uuidEntries, map_cons, extend_cons]
    rw [lookup_extend, lookup_extend, hstep]

end Ghosts

theorem Shadows.applyDelta {env : Externals} {protocol : Protocol}
    {users : HashMap String CoreUser} {state : UserFingerprintState}
    {table : UserTable} {delta : CoreUserDelta} (hshadows : Shadows env protocol users state)
    (hrefines : table.Refines env protocol users)
    (hghosts : delta.full = none → NoGhosts env protocol table delta) :
    Shadows env protocol (next (userKey env protocol) users delta)
      (UserFingerprintState.applyDelta env state delta) := by
  unfold UsersByUuid.next UserFingerprintState.applyDelta
  cases hfull : delta.full with
  | some full => exact shadows_fromUsers full
  | none =>
    intro uuid hkeyable
    have hboth := (hshadows.extend (delta.added ++ delta.updated)).eraseAll
      delta.deleted uuid hkeyable
    refine hboth.trans (congrArg (Option.map _) ?_)
    rw [lookup_eraseAll, lookup_eraseAll]
    split
    · rfl
    next hkept =>
      rw [foldl_add_eq, lookup_foldl_update, takenUsers_append, uuidEntries,
        map_append, extend_append]
      · rfl
      · -- an updated user that is not deleted is held or added
        rintro user huser rfl
        rw [lookup_isSome, mem_extend]
        rcases hghosts hfull user huser with hheld | ⟨added, hadded, huuid⟩ | hdeleted
        · right
          rw [← lookup_isSome]
          exact (hrefines.hasUuid_iff user.uuid).1 hheld
        · exact .inl ⟨_, mem_map_of_mem hadded, huuid⟩
        · exact absurd hdeleted hkept

/-- A true shadow that equals the fingerprints of a list shadows the table of
that list, unless fingerprints collide. -/
theorem Shadows.ofList_eq {users : HashMap String CoreUser} {table : UserTable}
    (hshadows : Shadows env protocol users (fromUsers env listed))
    (hrefines : table.Refines env protocol users)
    (hcollisions : ∀ uuid user other, users.lookup uuid = some user →
      other ∈ listed → user.uuid = other.uuid →
      userFingerprint env user = userFingerprint env other → user = other) :
    users = ofList (userKey env protocol) listed := by
  have hlisted := @shadows_fromUsers env protocol listed
  apply ext_lookup
  intro uuid
  cases hkeyable : keyableUuid env protocol uuid with
  | false =>
    have hnone : users.lookup uuid = none := by
      cases hget : users.lookup uuid with
      | none => rfl
      | some user =>
        have hkeyed := hrefines.keyed hget
        rw [isSome_userKey, hrefines.own hget, hkeyable] at hkeyed
        exact absurd hkeyed Bool.false_ne_true
    rw [hnone]
    cases hget : (ofList (userKey env protocol) listed).lookup uuid with
    | none => rfl
    | some user =>
      obtain ⟨htaken, rfl⟩ := lookup_ofList_cases hget
      have hkeyed := (mem_takenUsers.1 htaken).2.2
      rw [isSome_userKey, hkeyable] at hkeyed
      exact absurd hkeyed Bool.false_ne_true
  | true =>
    have hsame := (hshadows uuid hkeyable).symm.trans (hlisted uuid hkeyable)
    cases hget : users.lookup uuid with
    | none =>
      rw [hget, map_none, eq_comm, map_eq_none_iff] at hsame
      exact hsame.symm
    | some user =>
      rw [hget, map_some, eq_comm, map_eq_some_iff] at hsame
      obtain ⟨other, hother, hprint⟩ := hsame
      obtain ⟨htaken, huuid⟩ := lookup_ofList_cases hother
      rw [hother, hcollisions uuid user other hget (mem_takenUsers.1 htaken).1
        ((hrefines.own hget).trans huuid.symm) hprint.symm]

def Event.users : Event → List CoreUser
  | .command _ (.applyConfig config) => config.inbounds.flatMap InboundConfig.users
  | .command _ (.applyUserDelta _ delta) => listedUsers delta
  | _ => []

def ListedIn (events : List Event) (user : CoreUser) : Prop :=
  ∃ event ∈ events, user ∈ event.users

/-- Different users that were listed under one uuid have different
fingerprints. -/
def NoUserCollisions (env : Externals) (events : List Event) : Prop :=
  ∀ user other, ListedIn events user → ListedIn events other → user.uuid = other.uuid →
    userFingerprint env user = userFingerprint env other → user = other

theorem ListedIn.append
    (hlisted : ListedIn events user) (later : List Event) : ListedIn (events ++ later) user := by
  obtain ⟨event, hevent, huser⟩ := hlisted
  exact ⟨event, mem_append_left _ hevent, huser⟩

theorem NoUserCollisions.of_append {later : List Event}
    (hcollisions : NoUserCollisions env (events ++ later)) : NoUserCollisions env events :=
  fun user other huser hother => hcollisions user other (huser.append later) (hother.append later)

variable {after : Slot}

namespace Slot

variable {slot : Slot}

structure Shadowed (env : Externals) (events : List Event) (slot : Slot)
    (users : HashMap String CoreUser) (state : UserFingerprintState) : Prop where
  refines : slot.handle.table.Refines env slot.handle.status.protocol users
  listed : ∀ uuid user, users.lookup uuid = some user → ListedIn events user
  fingerprint : slot.fingerprint = some state
  shadows : Shadows env slot.handle.status.protocol users state

def IsShadowed (env : Externals) (events : List Event) (slot : Slot) : Prop :=
  ∃ users state, slot.Shadowed env events users state

theorem IsShadowed.append (hshadowed : slot.IsShadowed env events)
    (later : List Event) : slot.IsShadowed env (events ++ later) := by
  obtain ⟨users, state, hshadowed⟩ := hshadowed
  exact ⟨users, state, hshadowed.refines,
    fun uuid user hget => (hshadowed.listed uuid user hget).append later,
    hshadowed.fingerprint, hshadowed.shadows⟩

theorem IsShadowed.sameUsers
    (hshadowed : slot.IsShadowed env events) (hsame : slot.SameUsers after) :
    after.IsShadowed env events := by
  obtain ⟨users, state, hshadowed⟩ := hshadowed
  refine ⟨users, state, ?_, hshadowed.listed, hsame.fingerprint.trans hshadowed.fingerprint, ?_⟩
  · rw [hsame.table, hsame.status]
    exact hshadowed.refines
  · rw [hsame.status]
    exact hshadowed.shadows

theorem IsShadowed.of_build (htable : slot.handle.table =
      .build env slot.handle.status.protocol listed) (hprint : slot.fingerprint =
      some (fromUsers env listed))
    (hnonempty : ∀ user ∈ listed, user.isEmpty = false)
    (honce : ListsEachOnce env slot.handle.status.protocol listed)
    (hlisted : ∀ user ∈ listed, ListedIn events user) : slot.IsShadowed env events := by
  refine ⟨ofList (userKey env slot.handle.status.protocol) listed, _, ?_, ?_,
    hprint, shadows_fromUsers listed⟩
  · rw [htable]
    exact (UserTable.build_ofList hnonempty).refines honce
  · intro uuid user hget
    exact hlisted user (mem_takenUsers.1 (lookup_ofList_cases hget).1).1

theorem IsShadowed.table_eq (hshadowed : slot.IsShadowed env events)
    (hcollisions : NoUserCollisions env events) (hprint : slot.fingerprint =
      some (fromUsers env listed))
    (hnonempty : ∀ user ∈ listed, user.isEmpty = false)
    (honce : ListsEachOnce env slot.handle.status.protocol listed)
    (hlisted : ∀ user ∈ listed, ListedIn events user)
    (horder : ∀ list, slot.handle.table = .listed list →
      list.Perm (nonEmptyUsers listed) → list = nonEmptyUsers listed) :
    slot.handle.table = .build env slot.handle.status.protocol listed := by
  obtain ⟨users, state, hshadowed⟩ := hshadowed
  obtain rfl := some.inj (hshadowed.fingerprint.symm.trans hprint)
  have husers := hshadowed.shadows.ofList_eq hshadowed.refines fun uuid user other hget hother =>
      hcollisions user other (hshadowed.listed uuid user hget) (hlisted other hother)
  subst husers
  have hbuild := @UserTable.build_ofList _ env slot.handle.status.protocol hnonempty
  rcases hshadowed.refines.unique (hbuild.refines honce) with
    heq | ⟨first, second, hfirst, hsecond, hperm⟩
  · exact heq
  · rw [hsecond, hfirst]
    generalize slot.handle.status.protocol = protocol at hsecond
    cases protocol with
    | shadowsocks | mieru =>
      obtain rfl : activeUserList listed = second := UserTable.listed.inj hsecond
      rw [horder first hfirst hperm]
      rfl
    | _ => simp [UserTable.build] at hsecond

end Slot

theorem Slot.IsShadowed.applyDelta {env : Externals} {events : List Event}
    {slot : Slot} {world : World} {tag : String} {delta : CoreUserDelta}
    (hshadowed : slot.IsShadowed env events)
    (hapart : KeepsApart env slot.handle.status.protocol slot.handle.table delta)
    (hghosts : delta.full = none →
      NoGhosts env slot.handle.status.protocol slot.handle.table delta) :
    (slot.applyDelta env world.userOrder delta).IsShadowed env
      (events ++ [.command world (.applyUserDelta tag delta)]) := by
  obtain ⟨users, state, hshadowed⟩ := hshadowed
  have hrefines := @UserTable.Refines.applyDelta _ _ _ _ world.userOrder _
    hshadowed.refines (ListenerHandle.keyable_limitedDelta delta)
    (ListenerHandle.keepsApart_limitedDelta hapart)
  rw [ListenerHandle.next_limitedDelta] at hrefines
  refine ⟨next (userKey env slot.handle.status.protocol) users delta,
    UserFingerprintState.applyDelta env state delta, hrefines, ?_, ?_,
    hshadowed.shadows.applyDelta hshadowed.refines hghosts⟩
  · intro uuid user hget
    rcases lookup_next_cases hget with hpre | ⟨htaken, -⟩
    · exact (hshadowed.listed uuid user hpre).append _
    · exact ⟨.command world (.applyUserDelta tag delta), by simp, (mem_takenUsers.1 htaken).1⟩
  · unfold Slot.applyDelta
    rw [hshadowed.fingerprint, getD_some]

/-- The tables of the service are those a start of the configuration builds. -/
def CoreService.HasTables (env : Externals) (service : CoreService) (config : CoreConfig) : Prop :=
  ∀ inbound ∈ config.inbounds, ∃ slot, service.slot inbound.tag = some slot ∧
      slot.handle.table = .build env inbound.protocol inbound.users

namespace CoreController

/-- The event keeps tables and shadows together: a remembered configuration is
only sent while it is served, every list names each user once, the list of a
Shadowsocks or Mieru inbound is not a mere reordering of the live one, and a
delta keeps users apart and has no ghosts. -/
def KeepsShadow (env : Externals) (controller : CoreController) : Event → Prop
  | .command world (.applyConfig config) =>
    ServedWhenRemembered env controller (.command world (.applyConfig config)) ∧
    (config.validate env = .ok () → ∀ inbound ∈ config.inbounds,
      ListsEachOnce env inbound.protocol inbound.users ∧
      ∀ slot list, controller.slot inbound.tag = some slot → slot.handle.table = .listed list →
        list.Perm (nonEmptyUsers inbound.users) → list = nonEmptyUsers inbound.users)
  | .command _ (.applyUserDelta tag delta) => ∀ service handle, controller.service = some service →
      CoreService.findHandle tag service.listeners = some handle →
      service.checkRevision tag delta = .ok () →
        KeepsApart env handle.status.protocol handle.table delta ∧ (delta.full = none →
            NoGhosts env handle.status.protocol handle.table delta)
  | _ => True

/-- Every table has a true shadow, and a remembered configuration is the one
that the tables are built from. -/
structure Shadowing (env : Externals) (events : List Event)
    (controller : CoreController) : Prop where
  slots : ∀ tag slot, controller.slot tag = some slot → slot.IsShadowed env events
  remembered : ∀ service fingerprint, controller.service = some service →
    controller.runtime.activeFingerprint = some fingerprint →
    ∃ world config, .command world (.applyConfig config) ∈ events ∧
      fingerprint = fingerprintConfig env config ∧ service.HasTables env config

variable {controller : CoreController} {world : World} {event : Event}
  {result : CoreController × CoreResponse} {fingerprint : UInt64}

theorem ConfigSlot.shadowed {inbound : InboundConfig}
    (hslot : ConfigSlot env controller inbound after) (hshadowing : Shadowing env events controller)
    (hvalid : config.validate env = .ok ()) (hmem : inbound ∈ config.inbounds)
    (hproto : after.handle.status.protocol = inbound.protocol)
    (hkeeps : KeepsShadow env controller (.command world (.applyConfig config)))
    (hcollisions : NoUserCollisions env (events ++ [.command world (.applyConfig config)])) :
    after.handle.table = .build env inbound.protocol inbound.users ∧
      after.IsShadowed env (events ++ [.command world (.applyConfig config)]) := by
  obtain ⟨honce, horder⟩ := hkeeps.2 hvalid inbound hmem
  have hnonempty := InboundConfig.nonEmpty_of_validate (CoreConfig.inbound_of_validate hvalid hmem)
  have hlisted : ∀ user ∈ inbound.users, ListedIn
      (events ++ [.command world (.applyConfig config)]) user := by
    intro user huser
    exact ⟨.command world (.applyConfig config), by simp, mem_flatMap.2 ⟨inbound, hmem, huser⟩⟩
  rw [← hproto] at honce ⊢
  cases hslot with
  | @synced before hpre hsame =>
    rcases Slot.syncUsers_cases env inbound before with ⟨hprint, heq⟩ | ⟨-, heq⟩
    · rw [heq] at hsame
      have hshadowed := ((hshadowing.slots _ before hpre).append
        [.command world (.applyConfig config)]).sameUsers hsame
      refine ⟨hshadowed.table_eq hcollisions
        (hsame.fingerprint.trans hprint) hnonempty honce hlisted ?_, hshadowed⟩
      intro list hlist
      rw [hsame.table] at hlist
      exact horder before list hpre hlist
    · rw [heq] at hsame
      have htable := hsame.table
      rw [← hsame.status] at htable
      exact ⟨htable, .of_build htable hsame.fingerprint hnonempty honce hlisted⟩
  | started _ htable hprint =>
    rw [← hproto] at htable
    exact ⟨htable, .of_build htable hprint hnonempty honce hlisted⟩

theorem Shadowing.slots_step {tag : String} (hserve : Serving env controller)
    (hshadowing : Shadowing env events controller) (hkeeps : KeepsShadow env controller event)
    (hcollisions : NoUserCollisions env (events ++ [event]))
    (hafter : (controller.step env event).slot tag = some after) :
    after.IsShadowed env (events ++ [event]) := by
  cases slot_step hserve event hafter with
  | same hpre hsame => exact ((hshadowing.slots tag _ hpre).append [event]).sameUsers hsame
  | config hvalid _ hmem htag hproto hslot =>
    exact (hslot.shadowed hshadowing hvalid hmem hproto hkeeps hcollisions).2
  | @delta world delta service before hserv hpre hcheck =>
    obtain ⟨hapart, hghosts⟩ := hkeeps service before.handle hserv (slot_handle hpre) hcheck
    exact (hshadowing.slots tag before
      ((slot_of_service hserv tag).trans hpre)).applyDelta hapart hghosts

theorem ApplyConfigPath.hasTables
    (hpath : ApplyConfigPath env world controller config result) (hserve : Serving env controller)
    (hshadowing : Shadowing env events controller) (hkeeps : KeepsShadow env controller
      (.command world (.applyConfig config))) (hcollisions : NoUserCollisions env
      (events ++ [.command world (.applyConfig config)])) (happlied : result.2.isError = false)
    (hreload : controller.runtime.activeFingerprint ≠ some (fingerprintConfig env config))
    (hserv : result.1.service = some service)
    (hstored : service.config = configWithoutUsers config) : service.HasTables env config := by
  intro inbound hmem
  have hinbound : inboundWithoutUsers inbound ∈ service.config.inbounds := by
    rw [hstored]
    exact mem_map_of_mem hmem
  obtain ⟨slot, hslot, -⟩ := ((hserve.applyConfig hpath).aligned service hserv).slot hinbound
  refine ⟨slot, hslot, ?_⟩
  rcases hpath.slot hserve ((slot_of_service hserv _).trans hslot) with
    ⟨hunchanged, -⟩ | ⟨hvalid, -, source, hsource, htag, hproto, hconfig⟩
  · rcases hunchanged with herror | hsame
    · rw [happlied] at herror
      exact absurd herror Bool.false_ne_true
    · exact absurd hsame hreload
  · obtain rfl := inj_on_of_nodup_map (CoreConfig.nodup_of_validate hvalid) hsource hmem htag
    exact (hconfig.shadowed hshadowing hvalid hsource hproto hkeeps hcollisions).1

theorem Shadowing.remembered_mono {before after : CoreController}
    (hshadowing : Shadowing env events before)
    (later : List Event) (hsame : SameService before.service after.service)
    (hprint : after.runtime.activeFingerprint = before.runtime.activeFingerprint)
    (hserv : after.service = some service)
    (hactive : after.runtime.activeFingerprint = some fingerprint) :
    ∃ world config, .command world (.applyConfig config) ∈ events ++ later ∧
        fingerprint = fingerprintConfig env config ∧ service.HasTables env config := by
  have hslots := SameService.slot hsame
  generalize hpre : before.service = old at hsame
  rw [hserv] at hsame
  cases hsame with
  | @some previous _ hinbounds =>
    obtain ⟨world, config, hevent, heq, htables⟩ :=
      hshadowing.remembered previous fingerprint hpre (hprint ▸ hactive)
    refine ⟨world, config, mem_append_left _ hevent, heq, ?_⟩
    intro inbound hmem
    rw [hinbounds.slot]
    exact htables inbound hmem

theorem Shadowing.remembered_config
    (hshadowing : Shadowing env events controller) (hserve : Serving env controller)
    (hpath : ApplyConfigPath env world controller config result)
    (hkeeps : KeepsShadow env controller (.command world (.applyConfig config)))
    (hcollisions : NoUserCollisions env (events ++ [.command world (.applyConfig config)]))
    (hserv : result.1.service = some service)
    (hactive : result.1.runtime.activeFingerprint = some fingerprint) :
    ∃ world' config', .command world' (.applyConfig config') ∈
        events ++ [.command world (.applyConfig config)] ∧
      fingerprint = fingerprintConfig env config' ∧ service.HasTables env config' := by
  have htables := fun happlied hreload hstored =>
    hpath.hasTables hserve hshadowing hkeeps hcollisions happlied hreload hserv hstored
  have hevent : Event.command world (.applyConfig config) ∈
      events ++ [.command world (.applyConfig config)] := by simp
  cases hpath with
  | rejected | noop | changeFailed =>
    exact hshadowing.remembered_mono _ (.refl _) rfl hserv hactive
  | startFailed => simp [failWith] at hserv
  | users _ hreload | routes _ hreload =>
    cases hserv
    cases hactive
    exact ⟨world, config, hevent, rfl, htables rfl hreload rfl⟩
  | changed _ hreload _ hupd =>
    cases hserv
    cases hactive
    exact ⟨world, config, hevent, rfl, htables rfl hreload (updateChanged_stored hupd)⟩
  | restarted _ hreload _ hstart =>
    cases hserv
    cases hactive
    exact ⟨world, config, hevent, rfl, htables rfl hreload (start_ok hstart).2.2.2.1⟩

theorem Shadowing.step (hshadowing : Shadowing env events controller)
    (hserve : Serving env controller) (hkeeps : KeepsShadow env controller event)
    (hcollisions : NoUserCollisions env (events ++ [event])) :
    Shadowing env (events ++ [event]) (controller.step env event) where
  slots _ _ hafter := hshadowing.slots_step hserve hkeeps hcollisions hafter
  remembered service fingerprint hserv hactive := by
    have hpath := step_path env controller event
    generalize controller.step env event = result at hpath hserv hactive
    cases hpath with
    | config hpath =>
      exact hshadowing.remembered_config hserve hpath hkeeps hcollisions hserv hactive
    | routes | delta => simp [RuntimeState.applyRuntimeUpdate] at hactive
    | stop => simp [stop] at hserv
    | other _ hprint _ hsame =>
      exact hshadowing.remembered_mono _ hsame hprint hserv hactive

theorem shadowing_run (hcollisions : NoUserCollisions env events)
    (hkeeps : Run.Meets (CoreController.step env) (KeepsShadow env) {} events) :
    Shadowing env events (run env events) := by
  induction events using reverseRecOn with
  | nil => exact ⟨by simp [run, CoreController.slot], by simp [run]⟩
  | append_singleton events event ih =>
    rw [Run.meets_concat] at hkeeps
    rw [run_concat]
    exact (ih hcollisions.of_append hkeeps.1).step (serving_run env events) hkeeps.2 hcollisions

theorem ApplyConfigPath.remembered (hpath : ApplyConfigPath env world controller config result)
    (hserved : ServedWhenRemembered env controller (.command world (.applyConfig config)))
    (happlied : result.2.isError = false) : result.1.service.isSome = true ∧
      result.1.runtime.activeFingerprint = some (fingerprintConfig env config) := by
  cases hpath with
  | rejected | changeFailed | startFailed => simp [failWith, CoreResponse.isError] at happlied
  | noop hvalid hsame => exact ⟨hserved world config rfl hvalid hsame, hsame⟩
  | users | routes | changed | restarted => exact ⟨rfl, rfl⟩

end CoreController

open CoreController

/-- Whenever a configuration is answered as applied, the tables are those that
a start of it builds, provided that every event keeps tables and shadows
together and no two fingerprints collide. -/
theorem applied_config_has_tables {env : Externals} {events : List Event}
    {world : World} {config : CoreConfig} (hconfigs : NoCollisions env
      (events ++ [.command world (.applyConfig config)])) (husers : NoUserCollisions env
      (events ++ [.command world (.applyConfig config)]))
    (hkeeps : Run.Meets (CoreController.step env) (KeepsShadow env) {}
      (events ++ [.command world (.applyConfig config)]))
    (happlied : ((run env events).handle env world (.applyConfig config)).2.isError = false) :
    ∃ service, ((run env events).handle env world (.applyConfig config)).1.service = some service ∧
      service.HasTables env config := by
  have hhandle : (run env events).handle env world (.applyConfig config) =
      (run env events).applyConfig env world config := rfl
  have hshadowing := shadowing_run husers hkeeps
  rw [run_concat] at hshadowing
  change Shadowing env _ ((run env events).applyConfig env world config).1 at hshadowing
  rw [Run.meets_concat] at hkeeps
  obtain ⟨hsome, hactive⟩ := ApplyConfigPath.remembered
    (applyConfig_path (run env events) config) hkeeps.2.1 happlied
  obtain ⟨service, hserv⟩ := isSome_iff_exists.1 hsome
  obtain ⟨other, stored, hevent, hsame, htables⟩ := hshadowing.remembered service _ hserv hactive
  have hsent : Event.command world (.applyConfig config) ∈
      events ++ [.command world (.applyConfig config)] := by simp
  obtain rfl := hconfigs world other config stored hsent hevent hsame
  exact ⟨service, hserv, htables⟩

open Sample

def socks (users : List CoreUser) : CoreConfig :=
  Sample.config [Sample.inbound "a" .socks 1000 users]

theorem listsEachOnce_socks (env : Externals) (listed : List CoreUser) :
    ListsEachOnce env .socks listed where
  keys _ _ _ _ := ⟨fun huuid => congrArg some huuid, some.inj⟩
  uuids hkeeps := absurd hkeeps Bool.false_ne_true

/-- A user is updated by a delta and then by a configuration, which finds the
table up to date. -/
theorem applied_config_has_tables_after_update :
    let world := Sample.world []
    let events : List Event :=
      [.command world (.applyConfig (socks [Sample.user 1 "alice"])),
       .command world (.applyUserDelta "a" { updated := [Sample.user 2 "alice"] })]
    let config := socks [Sample.user 2 "alice"]
    ∃ service, ((run externals events).handle externals world
        (.applyConfig config)).1.service = some service ∧
      service.HasTables externals config := by
  intro world events config
  have hlistener : ((run externals (events.take 1)).service.bind
      fun service => (findHandle "a" service.listeners).map
        fun handle => (handle.status.protocol, handle.table)) =
      some (.socks, .build externals .socks [Sample.user 1 "alice"]) := by decide +kernel
  have hkeyed : ((run externals events).slot "a").map (fun slot => slot.handle.table) =
      some (.build externals .socks [Sample.user 2 "alice"]) := by decide +kernel
  apply applied_config_has_tables
  · intro first second left right hleft hright hsame
    simp only [events, cons_append, nil_append, mem_cons,
      Event.command.injEq, CoreCommand.applyConfig.injEq, reduceCtorEq,
      and_false, not_mem_nil, or_false, false_or] at hleft hright
    rcases hleft with ⟨-, rfl⟩ | ⟨-, rfl⟩ <;> rcases hright with ⟨-, rfl⟩ | ⟨-, rfl⟩ <;>
      first | rfl | exact absurd hsame (by decide +kernel)
  · intro user other huser hother _ hsame
    have hlisted : ∀ user, ListedIn (events ++ [.command world (.applyConfig config)]) user →
        user = Sample.user 1 "alice" ∨ user = Sample.user 2 "alice" := by
      rintro user ⟨event, hevent, huser⟩
      simp only [events, cons_append, nil_append, mem_cons, not_mem_nil, or_false] at hevent
      rcases hevent with rfl | rfl | rfl
      · exact .inl (mem_singleton.1 huser)
      · exact .inr (mem_singleton.1 huser)
      · exact .inr (mem_singleton.1 huser)
    rcases hlisted user huser with rfl | rfl <;> rcases hlisted other hother with rfl | rfl <;>
      first | rfl | exact absurd hsame (by decide +kernel)
  · refine ⟨⟨?_, fun _ inbound hmem => ?_⟩, ?_, ⟨?_, fun _ inbound hmem => ?_⟩, trivial⟩
    · intro _ _ _ _ hremembered
      simp at hremembered
    · rw [mem_singleton.1 hmem]
      exact ⟨listsEachOnce_socks _ _, by simp [CoreController.slot]⟩
    · intro service handle hserv hfind _
      change (run externals (events.take 1)).service = some service at hserv
      rw [hserv, bind_some, hfind, map_some] at hlistener
      obtain ⟨hproto, htable⟩ := Prod.mk.inj (some.inj hlistener)
      rw [hproto, htable]
      refine ⟨⟨by simp, fun _ first second _ _ _ hkey =>
        some.inj hkey⟩, fun _ user huser => .inl ?_⟩
      obtain rfl := mem_singleton.1 (mem_takenUsers.1 huser).1
      exact ⟨Sample.user 1 "alice", ⟨"alice", by decide +kernel⟩, rfl⟩
    · intro _ _ _ _ _
      change (run externals events).service.isSome = true
      decide +kernel
    · rw [mem_singleton.1 hmem]
      refine ⟨listsEachOnce_socks _ _, fun slot list hslot hlist => ?_⟩
      change (run externals events).slot "a" = some slot at hslot
      rw [hslot, map_some, hlist] at hkeyed
      simp [UserTable.build] at hkeyed
  · decide +kernel

/-- A delta updates a user that is not there.  The user's fingerprint is kept,
so that a configuration that lists the user finds nothing to do, and the user
is not served. -/
theorem ghost_user_never_served :
    let world := Sample.world []
    let users := [Sample.user 1 "alice", Sample.user 2 "bob"]
    let updated := run externals
      [.command world (.applyConfig (socks [Sample.user 1 "alice"])),
       .command world (.applyUserDelta "a"
         { updated := [Sample.user 2 "bob"] })]
    let answered := updated.handle externals world
      (.applyConfig (socks users))
    answered.2.isError = false ∧ ((answered.1.slot "a").map fun slot => slot.handle.table) =
        some (.build externals .socks [Sample.user 1 "alice"]) ∧
      UserTable.build externals .socks [Sample.user 1 "alice"] ≠
        .build externals .socks users := by decide +kernel

end KeliCore
