/-
Whether the configuration a service runs, completed with the users it serves,
is one that the validator accepts.  A configuration is checked when it is
applied; routes and user deltas are not checked at all.
-/
import KeliCore.Inbounds
import KeliCore.Survivors

namespace KeliCore

open CoreService List ListenerHandle InboundConfig

variable {inbound : InboundConfig} {users : List CoreUser}

/-- The protocols whose block of the validator asks for a user. -/
def Protocol.requiresUsers : Protocol → Bool
  | .vmess | .shadowsocks | .anyTls | .naive | .mieru => true
  | _ => false

def InboundConfig.withUsers (inbound : InboundConfig) (users : List CoreUser) :
    InboundConfig :=
  { inbound with users }

/-- A configuration with users for the inbounds, given by tag. -/
def CoreConfig.withUsers (config : CoreConfig) (users : String → List CoreUser) : CoreConfig :=
  { config with
    inbounds := config.inbounds.map fun inbound => inbound.withUsers (users inbound.tag) }

variable {config : CoreConfig} {env : Externals}

section Users

theorem requireUsers_withUsers (hsome : users ≠ []) :
    requireUsers (inbound.withUsers users) = .ok () := by
  simpa [requireUsers, InboundConfig.withUsers] using hsome

/-- The protocol's own block looks at the users only to see that there are
some. -/
theorem validateProtocol_withUsers (hvalid : validateProtocol env inbound = .ok ())
    (hrequired : inbound.protocol.requiresUsers = true → users ≠ []) :
    validateProtocol env (inbound.withUsers users) = .ok () := by
  have hproto : (inbound.withUsers users).protocol = inbound.protocol := rfl
  have hsome (hrequires : inbound.protocol.requiresUsers = true) :
      requireUsers (inbound.withUsers users) = .ok () :=
    requireUsers_withUsers (hrequired hrequires)
  unfold validateProtocol at hvalid ⊢
  rw [hproto]
  cases hcase : inbound.protocol with
  | socks | http | vless | trojan | tuic | hysteria2 =>
    rw [hcase] at hvalid
    exact hvalid
  | vmess =>
    rw [hcase] at hvalid
    simp only [check_bind_eq_ok] at hvalid ⊢
    exact ⟨hvalid.1, hsome (hcase ▸ rfl)⟩
  | shadowsocks =>
    rw [hcase] at hvalid
    simp only [validateShadowsocksInbound, check_bind_eq_ok] at hvalid ⊢
    exact ⟨hvalid.1, hsome (hcase ▸ rfl), hvalid.2.2⟩
  | anyTls =>
    rw [hcase] at hvalid
    simp only [validateAnyTlsInbound, check_bind_eq_ok] at hvalid ⊢
    exact ⟨hvalid.1, hvalid.2.1, hsome (hcase ▸ rfl)⟩
  | mieru =>
    rw [hcase] at hvalid
    simp only [validateMieruInbound, check_bind_eq_ok] at hvalid ⊢
    exact ⟨hvalid.1, hsome (hcase ▸ rfl)⟩
  | naive =>
    rw [hcase] at hvalid
    simp only [validateNaiveInbound, check_bind_eq_ok] at hvalid ⊢
    obtain ⟨hnetwork, htls, hquic⟩ := hvalid
    have hh3 : naiveH3 (inbound.withUsers users) = naiveH3 inbound := rfl
    refine ⟨hnetwork, htls, ?_⟩
    rw [hh3]
    by_cases hmode : naiveH3 inbound = true
    · rw [if_pos hmode, check_bind_eq_ok] at hquic ⊢
      exact ⟨hquic.1, hsome (hcase ▸ rfl)⟩
    · rw [if_neg hmode, check_bind_eq_ok] at hquic ⊢
      exact ⟨hquic.1, hsome (hcase ▸ rfl)⟩

/-- Other users keep an inbound valid, as long as none is empty and there are
some where they are asked for. -/
theorem InboundConfig.validate_withUsers (hvalid : inbound.validate env = .ok ())
    (hnonempty : ∀ user ∈ users, user.isEmpty = false)
    (hrequired : inbound.protocol.requiresUsers = true → users ≠ []) :
    (inbound.withUsers users).validate env = .ok () := by
  simp only [validate, check_bind_eq_ok, rejectIf_eq_ok] at hvalid ⊢
  obtain ⟨htag, hlisten, hport, -, hscoped, hflow, hproto⟩ := hvalid
  refine ⟨htag, hlisten, hport, ?_, hscoped, hflow, validateProtocol_withUsers hproto hrequired⟩
  rw [any_eq_false]
  intro user hmem
  rw [hnonempty user hmem]
  exact Bool.false_ne_true

namespace CoreConfig

theorem validateRoutes_withUsers (config : CoreConfig) (users : String → List CoreUser) :
    (config.withUsers users).validateRoutes env = .ok () ↔ config.validateRoutes env = .ok () := by
  simp only [validateRoutes, check_bind_eq_ok, check_forM_eq_ok, withUsers, forall_mem_map]
  exact Iff.rfl

theorem map_tag_withUsers (config : CoreConfig) (users : String → List CoreUser) :
    (config.withUsers users).inbounds.map InboundConfig.tag =
      config.inbounds.map InboundConfig.tag := by
  simp [withUsers, InboundConfig.withUsers, Function.comp_def]

theorem validate_withUsers {users : String → List CoreUser} (hvalid : config.validate env = .ok ())
    (hnonempty : ∀ inbound ∈ config.inbounds, ∀ user ∈ users inbound.tag, user.isEmpty = false)
    (hrequired : ∀ inbound ∈ config.inbounds,
      inbound.protocol.requiresUsers = true → users inbound.tag ≠ []) :
    (config.withUsers users).validate env = .ok () := by
  rw [validate_eq_ok] at hvalid ⊢
  obtain ⟨hid, hsome, hinbounds, hnodup, houtbounds, hdns, hroutes, hpolicy⟩ := hvalid
  refine ⟨hid, ?_, ?_, ?_, houtbounds, hdns, ?_, hpolicy⟩
  · simpa [withUsers] using hsome
  · intro inbound hmem
    obtain ⟨source, hsource, rfl⟩ := mem_map.1 hmem
    exact InboundConfig.validate_withUsers (hinbounds source hsource)
      (hnonempty source hsource) (hrequired source hsource)
  · rwa [map_tag_withUsers]
  · rwa [validateRoutes_withUsers]

end CoreConfig

theorem InboundConfig.users_of_validate
    (hvalid : inbound.validate env = .ok ()) (hrequires : inbound.protocol.requiresUsers = true) :
    inbound.users ≠ [] := by
  intro hnil
  simp only [validate, check_bind_eq_ok] at hvalid
  obtain ⟨-, -, -, -, -, -, hproto⟩ := hvalid
  have hsome : requireUsers inbound = .ok () := by
    unfold validateProtocol at hproto
    cases hcase : inbound.protocol with
    | socks | http | vless | trojan | tuic | hysteria2 =>
      rw [hcase] at hrequires
      exact absurd hrequires Bool.false_ne_true
    | vmess =>
      rw [hcase] at hproto
      exact ((check_bind_eq_ok _ _).1 hproto).2
    | shadowsocks =>
      simp only [hcase, validateShadowsocksInbound, check_bind_eq_ok] at hproto
      exact hproto.2.1
    | anyTls =>
      simp only [hcase, validateAnyTlsInbound, check_bind_eq_ok] at hproto
      exact hproto.2.2
    | mieru =>
      simp only [hcase, validateMieruInbound, check_bind_eq_ok] at hproto
      exact hproto.2
    | naive =>
      simp only [hcase, validateNaiveInbound, check_bind_eq_ok] at hproto
      obtain ⟨-, -, hquic⟩ := hproto
      split at hquic <;> exact ((check_bind_eq_ok _ _).1 hquic).2
  rw [requireUsers, hnil, rejectIf_eq_ok] at hsome
  exact Bool.false_ne_true hsome.symm

end Users

def UserTable.toList (order : UserOrder) : UserTable → List CoreUser
  | .keyed users => (order.iter users).map Prod.snd
  | .listed users => users

variable {table : UserTable}

theorem UserTable.mem_toList {order : UserOrder} {user : CoreUser} :
    user ∈ table.toList order ↔ table.Holds user := by
  cases table with
  | keyed filed =>
    constructor
    · intro hmem
      obtain ⟨entry, hentry, rfl⟩ := mem_map.1 hmem
      exact ⟨entry.1, (order.mem_iter filed _ _).1 hentry⟩
    · rintro ⟨place, hget⟩
      exact mem_map.2 ⟨(place, user), (order.mem_iter filed _ _).2 hget, rfl⟩
  | listed list => exact Iff.rfl

namespace CoreService

/-- The users of the listener of an inbound. -/
def usersOf (order : UserOrder) (service : CoreService) (tag : String) : List CoreUser :=
  ((findHandle tag service.listeners).map fun handle => handle.table.toList order).getD []

/-- The active configuration completed with the users of each inbound. -/
def completedConfig (order : UserOrder) (service : CoreService) : CoreConfig :=
  service.config.withUsers (service.usersOf order)

end CoreService

namespace CoreConfig

def someUser : CoreUser := { uuid := "user" }

/-- The configuration is valid once its inbounds have users. -/
def ValidUpToUsers (env : Externals) (config : CoreConfig) : Prop :=
  (config.withUsers fun _ => [someUser]).validate env = .ok ()

theorem ValidUpToUsers.of_validate (hvalid : config.validate env = .ok ()) :
    ValidUpToUsers env (configWithoutUsers config) := by
  have hwithout : (configWithoutUsers config).withUsers
      (fun _ => [someUser]) = config.withUsers fun _ => [someUser] := by
    simp [configWithoutUsers, withUsers, inboundWithoutUsers,
      InboundConfig.withUsers, Function.comp_def]
  rw [ValidUpToUsers, hwithout]
  apply validate_withUsers hvalid
  · intro inbound _ user hmem
    rw [mem_singleton.1 hmem]
    decide
  · simp

theorem ValidUpToUsers.withUsers
    {users : String → List CoreUser} (hvalid : ValidUpToUsers env config)
    (hnonempty : ∀ inbound ∈ config.inbounds, ∀ user ∈ users inbound.tag, user.isEmpty = false)
    (hrequired : ∀ inbound ∈ config.inbounds,
      inbound.protocol.requiresUsers = true → users inbound.tag ≠ []) :
    (config.withUsers users).validate env = .ok () := by
  have hover : (config.withUsers fun _ => [someUser]).withUsers users = config.withUsers users := by
    simp [CoreConfig.withUsers, InboundConfig.withUsers, Function.comp_def]
  rw [← hover]
  apply validate_withUsers hvalid
  · simpa [CoreConfig.withUsers, InboundConfig.withUsers] using hnonempty
  · simpa [CoreConfig.withUsers, InboundConfig.withUsers] using hrequired

/-- New routes and outbounds for a valid configuration are valid if they pass
their own checks. -/
theorem ValidUpToUsers.routes {env : Externals}
    {before config : CoreConfig} (hvalid : ValidUpToUsers env before)
    (hallow : configEqWithoutUsersRoutesAndOutbounds before config = true)
    (houtbounds : validateOutbounds env [] config.outbounds = .ok ())
    (hroutes : config.validateRoutes env = .ok ()) :
    ValidUpToUsers env (configWithoutUsers config) := by
  rw [configEqWithoutUsersRoutesAndOutbounds_iff, configAllowsListenerLevelUpdate_iff] at hallow
  obtain ⟨⟨hsameId, -, hsameDns, hsamePolicy, -⟩, hshapes⟩ := hallow
  unfold ValidUpToUsers at hvalid ⊢
  rw [validate_eq_ok] at hvalid ⊢
  obtain ⟨hid, hsome, hinbounds, hnodup, -, hdns, -, hpolicy⟩ := hvalid
  have hvalidInbound : ∀ inbound ∈ config.inbounds,
      (inbound.withUsers [someUser]).validate env = .ok () := by
    intro inbound hmem
    have hshape : inboundShape inbound ∈ before.inbounds.map inboundShape := by
      rw [hshapes]
      exact mem_map_of_mem hmem
    obtain ⟨old, hold, heq⟩ := mem_map.1 hshape
    change ((inboundShape inbound).withUsers _).validate env = .ok ()
    rw [← heq]
    exact hinbounds (old.withUsers _) (mem_map_of_mem hold)
  refine ⟨?_, ?_, ?_, ?_, houtbounds, ?_, ?_, ?_⟩
  · change Text.isBlank config.instanceId = false
    rw [← hsameId]
    exact hid
  · intro hnil
    apply hsome
    have hlen := congrArg length hshapes
    simp only [CoreConfig.withUsers, configWithoutUsers, map_eq_nil_iff] at hnil ⊢
    rw [hnil] at hlen
    simpa using hlen
  · intro inbound hmem
    obtain ⟨without, hwithout, rfl⟩ := mem_map.1 hmem
    obtain ⟨source, hsource, rfl⟩ := mem_map.1 hwithout
    exact hvalidInbound source hsource
  · rw [map_tag_withUsers] at hnodup ⊢
    rw [map_tag_configWithoutUsers, ← map_tag_of_map_shape hshapes]
    exact hnodup
  · rw [validateDns] at hdns ⊢
    rwa [show (before.withUsers fun _ => [someUser]).dns = config.dns from hsameDns] at hdns
  · rw [validateRoutes_withUsers]
    simp only [validateRoutes, check_bind_eq_ok, check_forM_eq_ok,
      configWithoutUsers, forall_mem_map] at hroutes ⊢
    exact hroutes
  · change validatePolicy config.policy = .ok ()
    rw [← hsamePolicy]
    exact hpolicy

end CoreConfig

structure UserTable.Serves (env : Externals) (protocol : Protocol) (table : UserTable) : Prop where
  sound : table.Sound env protocol fun user => user.isEmpty = false
  required : protocol.requiresUsers = true → ∃ user, table.Holds user

/-- The delta leaves the table a user: the snapshot has one that the table
takes, or there is one that is held or added, not deleted, and whose key is
its own. -/
def LeavesUser (env : Externals) (protocol : Protocol) (table : UserTable)
    (delta : CoreUserDelta) : Prop :=
  match delta.full with
  | some full => ∃ user, user ∈ takenUsers (userKey env protocol) full
  | none => ∃ uuid, Stays (userKey env protocol) (table.HasUuid uuid) uuid delta ∧
      OwnKey (userKey env protocol) (fun user => table.Holds user ∨
        user ∈ namedUsers (userKey env protocol) delta) uuid

theorem userKey_isSome {protocol : Protocol}
    (hrequires : protocol.requiresUsers = true) (hvmess : protocol ≠ .vmess)
    (user : CoreUser) : (userKey env protocol user).isSome = true := by
  cases protocol with
  | vmess => exact absurd rfl hvmess
  | shadowsocks | anyTls | naive | mieru => rfl
  | _ => exact absurd hrequires Bool.false_ne_true

namespace UserTable

variable {protocol : Protocol}

theorem Serves.of_list {listed : List CoreUser}
    (hlist : OfList env protocol listed table) (hsome : protocol.requiresUsers = true →
      ∃ user, user ∈ takenUsers (userKey env protocol) listed) : table.Serves env protocol where
  sound := hlist.sound.mono fun user _ htaken => (mem_takenUsers.1 htaken).2.1
  required hrequires := by
    obtain ⟨user, htaken⟩ := hsome hrequires
    obtain ⟨held, hheld, -⟩ := hlist.exists_holds htaken
    exact ⟨held, hheld⟩

theorem Serves.of_validate (hvalid : inbound.validate env = .ok ())
    (hvmess : inbound.protocol = .vmess →
      ∃ user ∈ inbound.users, (vmessUserKey user).isSome = true) :
    (build env inbound.protocol inbound.users).Serves env
      inbound.protocol := by
  have hnonempty := nonEmpty_of_validate hvalid
  refine .of_list (build_ofList hnonempty) fun hrequires => ?_
  by_cases hproto : inbound.protocol = .vmess
  · obtain ⟨user, hmem, hkey⟩ := hvmess hproto
    refine ⟨user, mem_takenUsers.2 ⟨hmem, hnonempty user hmem, ?_⟩⟩
    rw [hproto]
    exact hkey
  · obtain ⟨user, hmem⟩ := exists_mem_of_ne_nil _ (users_of_validate hvalid hrequires)
    exact ⟨user, mem_takenUsers.2 ⟨hmem, hnonempty user hmem,
      userKey_isSome hrequires hproto user⟩⟩

theorem Sound.hasShape {known : CoreUser → Prop}
    (hsound : table.Sound env protocol known) : table.HasShape protocol := by
  cases table with
  | keyed filed | listed list => exact hsound.1

end UserTable

namespace Slot

variable {env : Externals} {order : UserOrder} {delta : CoreUserDelta}
    {slot : Slot}

theorem applyDelta_ofList {known : CoreUser → Prop} {full : List CoreUser}
    (hsound : slot.handle.table.Sound env slot.handle.status.protocol known)
    (hfull : delta.full = some full) : (slot.applyDelta env order delta).handle.table.OfList env
      slot.handle.status.protocol (slot.handle.limitedUsers full) := by
  apply UserTable.applyDelta_full hsound.hasShape
  · rw [limitedDelta, hfull]
    rfl
  · exact keyable_limitedDelta _

theorem applyDelta_lists (hsound : slot.handle.table.Sound env slot.handle.status.protocol
      fun user => user.isEmpty = false) (hfull : delta.full = none) :
    let key := userKey env slot.handle.status.protocol
    let after := (slot.applyDelta env order delta).handle.table
    (after.Sound env slot.handle.status.protocol fun user => user.isEmpty = false) ∧
    ∀ uuid, Stays key (slot.handle.table.HasUuid uuid) uuid delta →
      OwnKey key (fun user => slot.handle.table.Holds user ∨ user ∈ namedUsers key delta) uuid →
      after.HasUuid uuid := by
  intro key after
  have hlimited : (slot.handle.limitedDelta delta).full = none := by
    rw [limitedDelta, hfull]
    rfl
  -- the users are those of the table and those that the delta names
  have hwider := hsound.mono (fun user hholds hempty =>
    (⟨hempty, .inl hholds⟩ : user.isEmpty = false ∧
      (slot.handle.table.Holds user ∨ user ∈ namedUsers key delta)))
  have hlists := fun uuid => @UserTable.Sound.applyLists _ _ _ _ order _
    uuid hwider (fun _ hknown => hknown.1) (keyable_limitedDelta delta) hlimited
    (fun user hnamed => by
      rw [namedUsers_limitedDelta] at hnamed
      exact ⟨(mem_takenUsers.1 hnamed).2.1, .inr hnamed⟩)
  refine ⟨(hlists "").1.mono fun _ _ hknown => hknown.1, ?_⟩
  intro uuid hstays hown
  refine (hlists uuid).2 (fun user other huser hother => hown user other huser.2 hother.2)
    ⟨hstays.1, ?_⟩
  rw [limitedDelta, takenUsers_limitedUsers]
  exact hstays.2

theorem serves_applyDelta (hserves : slot.handle.table.Serves env slot.handle.status.protocol)
    (hleaves : slot.handle.status.protocol.requiresUsers = true →
      LeavesUser env slot.handle.status.protocol slot.handle.table delta) :
    (slot.applyDelta env order delta).handle.table.Serves env
      slot.handle.status.protocol := by
  unfold LeavesUser at hleaves
  cases hfull : delta.full with
  | some full =>
    rw [hfull] at hleaves
    refine .of_list (applyDelta_ofList hserves.sound hfull) ?_
    rw [takenUsers_limitedUsers]
    exact hleaves
  | none =>
    rw [hfull] at hleaves
    obtain ⟨hsound, hkept⟩ := @applyDelta_lists env order delta slot hserves.sound hfull
    refine ⟨hsound, fun hrequires => ?_⟩
    obtain ⟨uuid, hstays, hown⟩ := hleaves hrequires
    obtain ⟨user, hholds, -⟩ := hkept uuid hstays hown
    exact ⟨user, hholds⟩

end Slot

namespace CoreController

/-- The configuration is valid up to its users, and the tables have the users
it needs. -/
structure Valid (env : Externals) (controller : CoreController) : Prop where
  config : ∀ service, controller.service = some service → service.config.ValidUpToUsers env
  tables : ∀ tag slot, controller.slot tag = some slot →
    slot.handle.table.Serves env slot.handle.status.protocol

/-- The event brings nothing that the validator would refuse: a VMess inbound
has a user with a key, hot routes and outbounds pass their checks, and a delta
leaves a user where users are asked for. -/
def KeepsValid (env : Externals) (controller : CoreController) : Event → Prop
  | .command _ (.applyConfig config) => config.validate env = .ok () →
      ∀ inbound ∈ config.inbounds, inbound.protocol = .vmess →
        ∃ user ∈ inbound.users, (vmessUserKey user).isSome = true
  | .command _ (.applyRoutes config) => ∀ service, controller.service = some service →
      service.canUpdateRoutes config = true →
        CoreConfig.validateOutbounds env [] config.outbounds = .ok () ∧
          config.validateRoutes env = .ok ()
  | .command _ (.applyUserDelta tag delta) => ∀ service handle, controller.service = some service →
      CoreService.findHandle tag service.listeners = some handle →
      service.checkRevision tag delta = .ok () → handle.status.protocol.requiresUsers = true →
        LeavesUser env handle.status.protocol handle.table delta
  | _ => True

theorem Valid.config_step {event : Event} {controller : CoreController}
    (hvalid : Valid env controller) (hkeeps : KeepsValid env controller event)
    {service : CoreService} (hafter : (controller.step env event).service = some service) :
    service.config.ValidUpToUsers env := by
  have hpath := step_path env controller event
  generalize controller.step env event = result at hpath hafter
  cases hpath with
  | config hpath =>
    rcases hpath.stored hafter with hpre | ⟨hconfig, hstored⟩
    · exact hvalid.config service hpre
    · rw [hstored]
      exact .of_validate hconfig
  | @routes world config before hservice hallow =>
    cases hafter
    obtain ⟨houtbounds, hroutes⟩ := hkeeps before hservice hallow
    exact (hvalid.config before hservice).routes hallow houtbounds hroutes
  | @delta world nodeTag delta before handle hservice =>
    cases hafter
    exact hvalid.config before hservice
  | stop => simp [stop] at hafter
  | other _ _ _ hsame =>
    generalize hpre : controller.service = before at hsame
    rw [hafter] at hsame
    cases hsame with
    | some hinbounds =>
      rw [hinbounds.config]
      exact hvalid.config _ hpre

theorem Valid.tables_step {controller : CoreController} {event : Event}
    (hvalid : Valid env controller) (hserve : Serving env controller)
    (hkeeps : KeepsValid env controller event) {tag : String} {after : Slot}
    (hafter : (controller.step env event).slot tag = some after) :
    after.handle.table.Serves env after.handle.status.protocol := by
  cases slot_step hserve event hafter with
  | same hpre hsame =>
    rw [hsame.table, hsame.status]
    exact hvalid.tables tag _ hpre
  | @config world config inbound _ hconfig _ hmem htag hproto hslot =>
    have hbuilt : (UserTable.build env after.handle.status.protocol
        inbound.users).Serves env after.handle.status.protocol := by
      rw [hproto]
      exact .of_validate (CoreConfig.inbound_of_validate hconfig hmem) (hkeeps hconfig inbound hmem)
    cases hslot with
    | @synced before hpre hsame =>
      rcases Slot.syncUsers_cases env inbound before with ⟨-, heq⟩ | ⟨-, heq⟩
      · rw [heq] at hsame
        rw [hsame.table, hsame.status]
        exact hvalid.tables _ before hpre
      · rw [heq] at hsame
        have htable := hsame.table
        rw [← hsame.status] at htable
        exact htable ▸ hbuilt
    | started _ htable =>
      rw [htable, ← hproto]
      exact hbuilt
  | @delta world delta service before hservice hpre hcheck =>
    change (before.applyDelta env world.userOrder
      delta).handle.table.Serves env before.handle.status.protocol
    apply Slot.serves_applyDelta
    · exact hvalid.tables tag before ((slot_of_service hservice tag).trans hpre)
    · exact hkeeps service before.handle hservice (slot_handle hpre) hcheck

theorem valid_run {events : List Event} (hkeeps : Run.Meets (step env) (KeepsValid env) {} events) :
    Valid env (run env events) := by
  have hboth : Serving env (run env events) ∧ Valid env (run env events) := by
    refine @Run.exec_invariant _ _ (step env) (KeepsValid env)
      (fun controller => Serving env controller ∧ Valid env controller)
      (fun controller event hboth hkeeps => ?_) {} ?_ events hkeeps
    · exact ⟨hboth.1.step event, fun service => hboth.2.config_step hkeeps,
        fun tag slot => hboth.2.tables_step hboth.1 hkeeps⟩
    · refine ⟨.fresh env, ?_, ?_⟩
      · simp
      · simp [CoreController.slot]
  exact hboth.2

end CoreController

open CoreController

/-- Along a run that brings nothing the validator would refuse, the running
configuration with the users it serves is valid. -/
theorem completed_config_valid {env : Externals} {events : List Event}
    (hkeeps : Run.Meets (CoreController.step env) (KeepsValid env) {} events)
    {service : CoreService} (hservice : (run env events).service = some service)
    (order : UserOrder) : (service.completedConfig order).validate env = .ok () := by
  have hvalid := valid_run hkeeps
  have halign := (serving_run env events).aligned service hservice
  -- the listener of an inbound has the inbound's protocol
  have hserves : ∀ inbound ∈ service.config.inbounds, ∃ handle : ListenerHandle,
      service.usersOf order inbound.tag = handle.table.toList order ∧
        handle.table.Serves env inbound.protocol := by
    intro inbound hmem
    obtain ⟨slot, hslot, hdescriptor⟩ := halign.slot hmem
    have htable := hvalid.tables inbound.tag slot ((slot_of_service hservice _).trans hslot)
    have hproto : slot.handle.status.protocol = inbound.protocol :=
      congrArg ListenerDescriptor.protocol hdescriptor
    rw [hproto] at htable
    refine ⟨slot.handle, ?_, htable⟩
    rw [usersOf, slot_handle hslot]
    rfl
  apply (hvalid.config service hservice).withUsers
  · intro inbound hmem user huser
    obtain ⟨handle, husers, htable⟩ := hserves inbound hmem
    rw [husers, UserTable.mem_toList] at huser
    exact htable.sound.of_holds huser
  · intro inbound hmem hrequires hnil
    obtain ⟨handle, husers, htable⟩ := hserves inbound hmem
    obtain ⟨user, hholds⟩ := htable.required hrequires
    rw [← UserTable.mem_toList, ← husers, hnil] at hholds
    exact not_mem_nil hholds

open Sample

/-- One Mieru inbound, which cannot do without users. -/
def mieru (routes : List RouteRule) : CoreConfig :=
  { Sample.config [Sample.inbound "m" .mieru 1000 [Sample.user 1 "alice"]] with
    routes }

theorem completed_config_valid_exchanged_user :
    let events : List Event :=
      [.command (Sample.world []) (.applyConfig (mieru [])),
       .command (Sample.world []) (.applyRoutes
         (mieru [{ targets := [], action := .block }])),
       .command (Sample.world []) (.applyUserDelta "m"
         { added := [Sample.user 2 "bob"], deleted := ["alice"] })]
    ∃ service, (run externals events).service = some service ∧
      (service.completedConfig Finmap.sortedOrder).validate externals = .ok () := by
  intro events
  obtain ⟨service, hservice⟩ : ∃ service, (run externals events).service = some service :=
    Option.isSome_iff_exists.1 (by decide +kernel)
  refine ⟨service, hservice, completed_config_valid ?_ hservice _⟩
  refine ⟨?_, ?_, ?_, trivial⟩
  · intro _ inbound hmem hvmess
    rw [mem_singleton.1 hmem] at hvmess
    contradiction
  · intro service _ _
    decide +kernel
  · intro service handle hservice hfind _ _
    have hproto : handle.status.protocol = .mieru := by
      have hlistener : ((run externals (events.take 2)).service.bind
          fun service => (findHandle "m" service.listeners).map
            fun handle => handle.status.protocol) = some .mieru := by decide +kernel
      change (run externals (events.take 2)).service = some service at hservice
      rw [hservice, Option.bind_some, hfind] at hlistener
      exact Option.some.inj hlistener
    rw [hproto]
    refine ⟨"bob", ⟨by decide, .inr ⟨Sample.user 2 "bob", ?_, rfl⟩⟩, ?_⟩
    · decide +kernel
    · exact ownKey_uuid _ _

/-- Routes are taken without a check: a route to an outbound that nobody
configured is installed. -/
theorem hot_routes_name_missing_outbound :
    let routed := mieru [{ targets := [], action := .outbound "exit" }]
    let applied := run externals
      [.command (Sample.world []) (.applyConfig (mieru []))]
    let answered := applied.handle externals (Sample.world [])
      (.applyRoutes routed)
    answered.2.isError = false ∧
      (answered.1.service.map fun service =>
        (service.completedConfig Finmap.sortedOrder).validate externals) =
        some (.error ⟨"route outbound exit is not configured"⟩) := by decide +kernel

end KeliCore
