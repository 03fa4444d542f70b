/-
A delta that removes a user against the logins of that user that are under
way.  A login wins when it fetches the limiter after it was revoked, which
enables it again, or registers without a limiter after the connections were
closed.  As long as nobody does, whoever is logged in as the user when the
delta has returned is cut off.
-/
import KeliCore.Controller
import KeliCore.Logins

namespace KeliCore

open UserBandwidthLimiters Finmap Text List DeltaSection

variable {id : Nat}
variable (bandwidth : UserBandwidthLimiters)

/-- A snapshot that does not list the user, or lists that delete it. -/
def CoreUserDelta.Removes (delta : CoreUserDelta) (uuid : String) : Prop :=
  match delta.full with
  | some full => uuid ∉ full.map CoreUser.uuid
  | none => uuid ∈ delta.deleted

namespace DeltaSection

/-- The section revokes the user's limiter. -/
def revokes (hasher : String → UInt64) (uuid : String) : DeltaSection → Bool
  | .revokeLimiter gone => gone == uuid
  | .revokeShard activeUuids shard =>
    userLimitShardIndex hasher uuid == shard && decide (uuid ∉ activeUuids)
  | _ => false

/-- The section enables the user's limiter. -/
def resets (uuid : String) : DeltaSection → Bool
  | .resetLimiter user => user.uuid == uuid
  | _ => false

/-- The section leads to the end of what is filed under a key. -/
def reaches (hasher : String → UInt64) (key : String) : DeltaSection → Bool
  | .closeUser uuid => uuid == key
  | .closeExcept activeUuids shards removed =>
    decide (key ∈ removed) || (decide (userLimitShardIndex hasher key ∈ shards) &&
        decide (key ∉ activeUuids))
  | _ => false

end DeltaSection

namespace LoginRun

section Conditions

variable (hasher : String → UInt64) (run : LoginRun) (uuid : String)

/-- The delta has still to revoke the user's limiter. -/
def willRevoke : Bool :=
  run.sections.any (DeltaSection.revokes hasher uuid)

/-- The delta has still to close what is filed under the key. -/
def willClose (key : String) : Bool :=
  run.sections.any (DeltaSection.reaches hasher key)

/-- The limiter of the user is enabled only as long as it has still to be
revoked, and fetched by the handlers of that user alone; and a handler without
the limiter registers while its connection has still to be closed. -/
def InTime : LoginMove → Prop
  | .fetch id _ => ∀ handler ∈ run.handlers.lookup id, ∀ found ∈ handler.found,
        (found.uuid = uuid → run.willRevoke hasher uuid = true) ∧
          (handler.user.uuid = uuid → found.uuid = uuid)
  | .register id => ∀ handler ∈ run.handlers.lookup id,
      handler.user.uuid = uuid → uuid ∉ handler.held →
        isBlank uuid = false ∧ run.willClose hasher (trim uuid) = true
  | .delta => ∀ part ∈ run.sections.head?, part.resets uuid = true →
      run.willRevoke hasher uuid = true
  | _ => True

instance (move : LoginMove) : Decidable (run.InTime hasher uuid move) := by
  cases move <;> unfold InTime <;> infer_instance

end Conditions

/-- The connection holds a revoked limiter, or its sockets are closed. -/
def Silenced (run : LoginRun) (id : Nat) (handler : LoginHandler) : Prop :=
  (∃ key ∈ handler.held, ∃ limiter ∈ run.bandwidth.limiters.lookup key, limiter.revoked = true) ∨
  (run.sockets id ≠ [] ∧ ∀ connection ∈ run.sockets id, connection.isOpen = false)

instance (run : LoginRun) (id : Nat) (handler : LoginHandler) :
    Decidable (run.Silenced id handler) := by
  unfold Silenced
  infer_instance

variable {run : LoginRun}

/-- The connection is closed, or the delta gets to it. -/
def Doomed (hasher : String → UInt64) (run : LoginRun) (connection : Connection) : Prop :=
  connection.isOpen = false ∨ ∃ part ∈ run.sections, part.reaches hasher connection.key = true ∨
      part.shuts connection.id = true

variable {env : Externals} {world : World} {protocol : Protocol} {hasher : String → UInt64}
  {part : DeltaSection} {uuid : String} {rest : List DeltaSection} {handler : LoginHandler}

theorem perform_handlers (run : LoginRun) (part : DeltaSection) :
    (perform env world protocol hasher run part).handlers = run.handlers := by
  cases part with
  | closeExcept _ shards _ => cases shards <;> rfl
  | _ => rfl

theorem perform_isSome (run : LoginRun) (part : DeltaSection) (uuid : String) :
    ((perform env world protocol hasher run part).bandwidth.limiters.lookup
      uuid).isSome = (run.bandwidth.limiters.lookup uuid).isSome := by
  cases part with
  | closeExcept _ shards _ => cases shards <;> rfl
  | revokeLimiter gone =>
    change ((KeliCore.revokeLimiter _ gone).lookup uuid).isSome = _
    rw [lookup_revokeLimiter]
    split <;> simp
  | revokeShard activeUuids shard =>
    change ((KeliCore.revokeShard hasher _ _ shard).lookup uuid).isSome = _
    rw [KeliCore.revokeShard, lookup_mapValues, Option.isSome_map]
  | resetLimiter user =>
    change ((KeliCore.resetLimiter _ user).lookup uuid).isSome = _
    rw [lookup_resetLimiter]
    split <;> simp
  | _ => rfl

/-- Every limiter of the user is revoked. -/
def Revoked (run : LoginRun) (uuid : String) : Prop :=
  ∀ limiter, run.bandwidth.limiters.lookup uuid = some limiter → limiter.revoked = true

theorem revoked_of_revokes (hrevokes : part.revokes hasher uuid = true) :
    (perform env world protocol hasher run part).Revoked uuid := by
  cases part with
  | revokeLimiter gone =>
    obtain rfl := beq_iff_eq.1 hrevokes
    intro limiter hget
    change (KeliCore.revokeLimiter _ gone).lookup gone = _ at hget
    rw [lookup_revokeLimiter, if_pos rfl] at hget
    obtain ⟨old, -, rfl⟩ := Option.map_eq_some_iff.1 hget
    rfl
  | revokeShard activeUuids shard =>
    simp only [revokes, Bool.and_eq_true, beq_iff_eq, decide_eq_true_eq] at hrevokes
    intro limiter hget
    change (KeliCore.revokeShard hasher _ _ shard).lookup uuid = _ at hget
    rw [KeliCore.revokeShard, lookup_mapValues] at hget
    obtain ⟨old, -, rfl⟩ := Option.map_eq_some_iff.1 hget
    rw [if_pos hrevokes]
    rfl
  | _ => simp [revokes] at hrevokes

theorem Revoked.perform (hrevoked : run.Revoked uuid) (hresets : part.resets uuid = false) :
    (perform env world protocol hasher run part).Revoked uuid := by
  cases part with
  | closeExcept _ shards _ => cases shards <;> exact hrevoked
  | revokeLimiter gone =>
    intro limiter hget
    change (KeliCore.revokeLimiter _ gone).lookup uuid = _ at hget
    rw [lookup_revokeLimiter] at hget
    split at hget
    · obtain ⟨old, -, rfl⟩ := Option.map_eq_some_iff.1 hget
      rfl
    · exact hrevoked limiter hget
  | revokeShard activeUuids shard =>
    intro limiter hget
    change (KeliCore.revokeShard hasher _ _ shard).lookup uuid = _ at hget
    rw [KeliCore.revokeShard, lookup_mapValues] at hget
    obtain ⟨old, hold, rfl⟩ := Option.map_eq_some_iff.1 hget
    split
    · rfl
    · exact hrevoked old hold
  | resetLimiter user =>
    have hother : uuid ≠ user.uuid := by
      rintro rfl
      simp [resets] at hresets
    intro limiter hget
    change (KeliCore.resetLimiter _ user).lookup uuid = _ at hget
    rw [lookup_resetLimiter, if_neg hother] at hget
    exact hrevoked limiter hget
  | _ => exact hrevoked

def treated (part : DeltaSection) (connection : Connection) : Connection :=
  if part.shuts connection.id then closed connection else connection

theorem perform_connections (run : LoginRun) (part : DeltaSection) :
    (perform env world protocol hasher run part).bandwidth.connections =
      run.bandwidth.connections.map (treated part) := by
  cases part with
  | closeExcept _ shards _ => cases shards <;> exact (map_id _).symm
  | shut ids =>
    apply map_congr_left
    intro connection _
    simp [treated, shuts]
  | _ => exact (map_id _).symm

theorem perform_sockets (run : LoginRun) (part : DeltaSection) (id : Nat) :
    (perform env world protocol hasher run part).sockets id =
      (run.sockets id).map (treated part) := by
  rw [sockets, perform_connections, filter_map, sockets]
  congr 1
  apply filter_congr
  intro connection _
  rw [Function.comp, treated]
  split <;> rfl

theorem mem_perform {other : DeltaSection} (part : DeltaSection) (hother : other ∈ run.sections) :
    other ∈ (perform env world protocol hasher run part).sections := by
  cases part with
  | closeUser uuid => exact .tail _ hother
  | closeExcept _ shards _ =>
    cases shards with
    | nil => exact mem_append_right _ hother
    | cons => exact .tail _ hother
  | _ => exact hother

theorem Doomed.perform {connection : Connection} (hmem : connection ∈ run.bandwidth.connections)
    (hdoomed : Doomed hasher { run with sections := part :: rest } connection) :
    Doomed hasher (perform env world protocol hasher { run with sections := rest } part)
      (treated part connection) := by
  rcases hdoomed with hclosed | ⟨other, hother, hcloses⟩
  · left
    rw [treated]
    split
    · rfl
    · exact hclosed
  · change other ∈ part :: rest at hother
    rcases mem_cons.1 hother with rfl | hother
    · cases other with
      | closeUser uuid =>
        right
        simp only [reaches, shuts, beq_iff_eq, Bool.false_eq_true, or_false] at hcloses
        refine ⟨_, mem_cons_self, .inr ?_⟩
        rw [shuts, contains_iff_mem]
        exact mem_map_of_mem (mem_filter.2 ⟨hmem, beq_iff_eq.2 hcloses.symm⟩)
      | shut ids =>
        left
        simp only [reaches, Bool.false_eq_true, false_or] at hcloses
        rw [treated, if_pos hcloses]
        rfl
      | closeExcept activeUuids shards removed =>
        right
        simp only [reaches, shuts, Bool.or_eq_true, Bool.and_eq_true, decide_eq_true_eq,
          Bool.false_eq_true, or_false] at hcloses
        cases shards with
        | nil =>
          simp only [not_mem_nil, false_and, or_false] at hcloses
          refine ⟨.closeUser connection.key, ?_, .inl (beq_iff_eq.2 rfl)⟩
          exact mem_append_left _ (mem_map_of_mem hcloses)
        | cons shard shards =>
          refine ⟨_, mem_cons_self, .inl ?_⟩
          simp only [reaches, Bool.or_eq_true, Bool.and_eq_true, decide_eq_true_eq, mem_append]
          rcases hcloses with hremoved | ⟨hshard, hgone⟩
          · exact .inl (.inl hremoved)
          · rcases mem_cons.1 hshard with hshard | hshard
            · refine .inl (.inr (mem_filter.2 ⟨mem_map_of_mem hmem, ?_⟩))
              exact Bool.and_eq_true_iff.2 ⟨beq_iff_eq.2 hshard, decide_eq_true hgone⟩
            · exact .inr ⟨hshard, hgone⟩
      | _ => simp [reaches, shuts] at hcloses
    · right
      refine ⟨other, mem_perform _ hother, ?_⟩
      rw [treated]
      split <;> exact hcloses

/-- A handler's part of the invariant. -/
structure HandlerCut (hasher : String → UInt64) (uuid : String)
    (run : LoginRun) (id : Nat) (handler : LoginHandler) : Prop where
  unregistered : handler.registered = false → run.sockets id = []
  own : handler.user.uuid = uuid → ∀ key ∈ handler.held, key = uuid
  known : uuid ∈ handler.held → (run.bandwidth.limiters.lookup uuid).isSome = true
  registered : handler.user.uuid = uuid → handler.registered = true →
    uuid ∈ handler.held ∨ (run.sockets id ≠ [] ∧
      ∀ connection ∈ run.sockets id, Doomed hasher run connection)

/-- The limiter is revoked or has still to be, and every handler with sockets
holds it or is about to lose them. -/
structure CuttingOff (hasher : String → UInt64) (uuid : String) (run : LoginRun) : Prop where
  limiter : run.willRevoke hasher uuid = true ∨ run.Revoked uuid
  handlers : ∀ id handler, run.handlers.lookup id = some handler →
    HandlerCut hasher uuid run id handler

theorem HandlerCut.congr {after : LoginRun}
    (hcut : HandlerCut hasher uuid run id handler) (hsockets : after.sockets id = run.sockets id)
    (hsections : after.sections = run.sections)
    (hknown : (run.bandwidth.limiters.lookup uuid).isSome = true →
      (after.bandwidth.limiters.lookup uuid).isSome = true) :
    HandlerCut hasher uuid after id handler where
  unregistered hregistered := hsockets.trans (hcut.unregistered hregistered)
  own := hcut.own
  known hheld := hknown (hcut.known hheld)
  registered huser hregistered := by
    rw [hsockets]
    simp only [Doomed, hsections]
    exact hcut.registered huser hregistered

theorem HandlerCut.perform
    (hcut : HandlerCut hasher uuid { run with sections := part :: rest } id handler) :
    HandlerCut hasher uuid (perform env world protocol hasher { run with sections := rest } part)
      id handler where
  unregistered hregistered := by
    rw [perform_sockets, map_eq_nil_iff]
    exact hcut.unregistered hregistered
  own := hcut.own
  known hheld := by
    rw [perform_isSome]
    exact hcut.known hheld
  registered huser hregistered := by
    refine (hcut.registered huser hregistered).imp_right ?_
    rintro ⟨hsome, hdoomed⟩
    rw [perform_sockets]
    refine ⟨fun hnone => hsome (map_eq_nil_iff.1 hnone), ?_⟩
    intro connection hmem
    obtain ⟨old, hold, rfl⟩ := mem_map.1 hmem
    exact (hdoomed old hold).perform (mem_of_mem_filter hold)

theorem CuttingOff.delta {hasher : String → UInt64} {uuid : String} {env : Externals}
    {world : World} {protocol : Protocol} (hcutting : CuttingOff hasher uuid run)
    (hintime : run.InTime hasher uuid .delta) :
    CuttingOff hasher uuid (step env world protocol hasher run .delta) := by
  rw [step]
  cases hsections : run.sections with
  | nil => exact hcutting
  | cons part rest =>
    have hrun : run = { run with sections := part :: rest } := by rw [← hsections]
    constructor
    · have hlimiter : run.willRevoke hasher uuid = true ∨
          (run.Revoked uuid ∧ part.resets uuid = false) := by
        by_cases hresets : part.resets uuid = true
        · exact .inl (hintime part (by rw [hsections]; rfl) hresets)
        · exact hcutting.limiter.imp_right fun hrevoked => ⟨hrevoked, Bool.not_eq_true _ ▸ hresets⟩
      rcases hlimiter with hwill | ⟨hrevoked, hresets⟩
      · obtain ⟨other, hother, hrevokes⟩ := any_eq_true.1 hwill
        rw [hsections] at hother
        rcases mem_cons.1 hother with rfl | hother
        · exact .inr (revoked_of_revokes hrevokes)
        · exact .inl (any_eq_true.2 ⟨other, mem_perform _ hother, hrevokes⟩)
      · have hkept : LoginRun.Revoked { run with sections := rest } uuid := hrevoked
        exact .inr (hkept.perform hresets)
    · intro id handler hget
      rw [perform_handlers] at hget
      have hcut := hcutting.handlers id handler hget
      rw [hrun] at hcut
      exact hcut.perform

/-- A move of one handler that keeps the sections: its own part of the
invariant, and what the others notice. -/
theorem CuttingOff.setHandler {after : LoginRun} (hcutting : CuttingOff hasher uuid run)
    (hhandlers : after.handlers = run.handlers) (hsections : after.sections = run.sections)
    (hlimiter : run.willRevoke hasher uuid = true ∨ after.Revoked uuid)
    (hknown : (run.bandwidth.limiters.lookup uuid).isSome = true →
      (after.bandwidth.limiters.lookup uuid).isSome = true)
    (hsockets : ∀ other, other ≠ id → after.sockets other = run.sockets other)
    (hown : HandlerCut hasher uuid after id handler) :
    CuttingOff hasher uuid (after.setHandler id handler) where
  limiter := by
    refine hlimiter.imp_left fun hwill => ?_
    change after.sections.any _ = true
    rw [hsections]
    exact hwill
  handlers other held hget := by
    change (after.handlers.insert _ _).lookup other = some held at hget
    rw [lookup_insert_ite] at hget
    split at hget
    next hsame =>
      obtain rfl := hsame
      cases hget
      exact hown.congr rfl rfl fun hsome => hsome
    next hother =>
      rw [hhandlers] at hget
      exact (hcutting.handlers other held hget).congr (hsockets other hother) hsections hknown

theorem fetch_connections (limited : Bool) (user : CoreUser) :
    (bandwidth.fetch limited user).connections = bandwidth.connections := by
  unfold fetch
  split
  · unfold limiterForLimited
    split <;> rfl
  · rfl

theorem fetch_lookup (limited : Bool) (user : CoreUser) (uuid : String) :
    (bandwidth.fetch limited user).limiters.lookup uuid = if uuid = user.uuid then
        if returnsLimiter limited user then some (enabledLimiter user)
        else (bandwidth.limiters.lookup uuid).map fun _ => enabledLimiter user
      else bandwidth.limiters.lookup uuid := by
  cases limited with
  | false => exact lookup_insert_ite _ _ _ _
  | true =>
    simp only [fetch, if_true, returnsLimiter, Bool.not_true, Bool.false_or, limiterForLimited]
    cases speedLimitMbpsToBytesPerSecond user.speedLimit with
    | none => exact lookup_resetLimiter _ _ _
    | some rate => exact lookup_insert_ite _ _ _ _

theorem isSome_fetch (limited : Bool) (user : CoreUser)
    (hsome : (run.bandwidth.limiters.lookup uuid).isSome = true) :
    ((run.bandwidth.fetch limited user).limiters.lookup uuid).isSome = true := by
  rw [fetch_lookup]
  split
  · split <;> simp [hsome]
  · exact hsome

theorem sockets_fetch (run : LoginRun) (limited : Bool) (user : CoreUser) (id : Nat) :
    LoginRun.sockets { run with
      bandwidth := run.bandwidth.fetch limited user } id = run.sockets id := by
  rw [sockets, sockets, fetch_connections]

theorem HandlerCut.fetch {user : CoreUser}
    (hcut : HandlerCut hasher uuid run id handler) (limited : Bool)
    (hsame : handler.user.uuid = uuid → user.uuid = uuid) :
    HandlerCut hasher uuid { run with bandwidth := run.bandwidth.fetch limited user } id
      { handler with
        held := if returnsLimiter limited user
          then user.uuid :: handler.held else handler.held } := by
  have hkept := hcut.congr (sockets_fetch run limited user id) rfl (isSome_fetch limited user)
  by_cases hreturns : returnsLimiter limited user = true
  · simp only [hreturns, if_true]
    refine ⟨hkept.unregistered, ?_, ?_, ?_⟩
    · intro huser key hkey
      rcases mem_cons.1 hkey with rfl | hkey
      · exact hsame huser
      · exact hcut.own huser key hkey
    · intro hheld
      by_cases huuid : uuid = user.uuid
      · rw [fetch_lookup, if_pos huuid, if_pos hreturns]
        rfl
      · exact hkept.known (mem_of_ne_of_mem huuid hheld)
    · intro huser hregistered
      exact (hkept.registered huser hregistered).imp_left (mem_cons_of_mem _)
  · simp only [hreturns]
    exact ⟨hkept.unregistered, hkept.own, hkept.known, hkept.registered⟩

theorem CuttingOff.fetch {limited : Bool} (hcutting : CuttingOff hasher uuid run)
    (hintime : run.InTime hasher uuid (.fetch id limited)) :
    CuttingOff hasher uuid (step env world protocol hasher run (.fetch id limited)) := by
  rw [step]
  cases hget : run.handlers.lookup id with
  | none => exact hcutting
  | some handler =>
    dsimp only
    split
    · exact hcutting
    next user hfound =>
      obtain ⟨hwill, hsame⟩ := hintime handler hget user hfound
      have hcut := hcutting.handlers id handler hget
      refine hcutting.setHandler rfl rfl ?_ (isSome_fetch limited user)
        (fun other _ => sockets_fetch run limited user other) (hcut.fetch limited hsame)
      by_cases huuid : uuid = user.uuid
      · exact .inl (hwill huuid.symm)
      · refine hcutting.limiter.imp_right fun hrevoked limiter hlimiter => hrevoked limiter ?_
        rw [← hlimiter, fetch_lookup, if_neg huuid]

theorem sockets_register (run : LoginRun) (id other : Nat) (owner : String) :
    LoginRun.sockets { run with
      bandwidth := run.bandwidth.registerTcpConnection id owner } other =
      run.sockets other ++ if isBlank owner = false ∧ id = other then
          [{ id, key := trim owner, owner }]
        else [] := by
  rw [sockets, registerTcpConnection]
  cases hblank : isBlank owner with
  | true => simp [sockets]
  | false =>
    simp only [Bool.false_eq_true, if_false, filter_append, true_and]
    congr 1
    by_cases hid : id = other <;> simp [hid]

theorem limiters_register (id : Nat) (owner : String) :
    (bandwidth.registerTcpConnection id owner).limiters = bandwidth.limiters := by
  unfold registerTcpConnection
  split <;> rfl

theorem CuttingOff.register (hcutting : CuttingOff hasher uuid run)
    (hintime : run.InTime hasher uuid (.register id)) :
    CuttingOff hasher uuid (step env world protocol hasher run (.register id)) := by
  rw [step]
  cases hget : run.handlers.lookup id with
  | none => exact hcutting
  | some handler =>
    dsimp only
    have hcut := hcutting.handlers id handler hget
    have hclosing := hintime handler hget
    split
    · exact hcutting
    next hregistered =>
      rw [Bool.not_eq_true] at hregistered
      refine hcutting.setHandler rfl rfl ?_ ?_ ?_ ?_
      · refine hcutting.limiter.imp_right fun hrevoked limiter hlimiter => hrevoked limiter ?_
        rw [← hlimiter, limiters_register]
      · rw [limiters_register]
        exact fun hsome => hsome
      · intro other hother
        rw [sockets_register, if_neg fun hboth => hother hboth.2.symm, append_nil]
      · refine ⟨by simp, hcut.own, ?_, ?_⟩
        · rw [limiters_register]
          exact hcut.known
        · intro huser _
          change handler.user.uuid = uuid at huser
          by_cases hheld : uuid ∈ handler.held
          · exact .inl hheld
          · obtain ⟨hblank, hwill⟩ := hclosing huser hheld
            right
            rw [sockets_register, hcut.unregistered hregistered, huser, if_pos ⟨hblank, rfl⟩]
            refine ⟨by simp, fun connection hmem => .inr ?_⟩
            obtain rfl := mem_singleton.1 hmem
            obtain ⟨part, hpart, hreaches⟩ := any_eq_true.1 hwill
            exact ⟨part, hpart, .inl hreaches⟩

theorem sockets_leave {other : Nat}
    (run : LoginRun) (hother : other ≠ id) : LoginRun.sockets { run with
      bandwidth := run.bandwidth.dropConnection id
      handlers := run.handlers.erase id } other = run.sockets other := by
  rw [sockets, dropConnection, filter_filter, sockets]
  apply filter_congr
  intro connection _
  by_cases hid : connection.id = other
  · simp [hid, hother]
  · simp [hid]

theorem CuttingOff.step (hcutting : CuttingOff hasher uuid run)
    (move : LoginMove) (hintime : run.InTime hasher uuid move) :
    CuttingOff hasher uuid (step env world protocol hasher run move) := by
  cases move with
  | login id user =>
    rw [LoginRun.step]
    split
    next hlogin =>
      simp only [isFresh, Bool.and_eq_true, Bool.not_eq_true', List.isEmpty_iff] at hlogin
      exact hcutting.setHandler rfl rfl hcutting.limiter (fun hsome => hsome)
        (fun _ _ => rfl) ⟨fun _ => hlogin.1.1.2, by simp, by simp, by simp⟩
    · exact hcutting
  | requestUser id =>
    rw [LoginRun.step]
    cases hget : run.handlers.lookup id with
    | none => exact hcutting
    | some handler =>
      have hcut := hcutting.handlers id handler hget
      exact hcutting.setHandler rfl rfl hcutting.limiter (fun hsome => hsome) (fun _ _ => rfl)
        ⟨hcut.unregistered, hcut.own, hcut.known, hcut.registered⟩
  | fetch id limited => exact hcutting.fetch hintime
  | register id => exact hcutting.register hintime
  | leave id =>
    refine ⟨hcutting.limiter, fun other handler hget => ?_⟩
    change (run.handlers.erase id).lookup other = some handler at hget
    obtain ⟨hother, hget⟩ := of_lookup_erase hget
    exact (hcutting.handlers other handler hget).congr
      (sockets_leave run hother) rfl fun hsome => hsome
  | session part =>
    exact ⟨hcutting.limiter, fun id handler hget =>
      (hcutting.handlers id handler hget).congr rfl rfl fun hsome => hsome⟩
  | delta => exact hcutting.delta hintime

theorem willRevoke_start {delta : CoreUserDelta} (hremoves : delta.Removes uuid) (table : UserTable)
    (bandwidth : UserBandwidthLimiters) (sessions : UserSessionTracker) :
    (start table bandwidth sessions delta).willRevoke hasher uuid = true := by
  apply any_eq_true.2
  unfold CoreUserDelta.Removes at hremoves
  simp only [start, deltaSections, limitSections]
  cases hfull : delta.full with
  | some full =>
    rw [hfull] at hremoves
    refine ⟨.revokeShard (full.map CoreUser.uuid) (userLimitShardIndex hasher uuid), ?_, ?_⟩
    · apply mem_append_left
      apply mem_append_left
      exact mem_map_of_mem (mem_range.2 (Nat.mod_lt _ (by decide)))
    · exact Bool.and_eq_true_iff.2 ⟨beq_iff_eq.2 rfl, decide_eq_true hremoves⟩
  | none =>
    rw [hfull] at hremoves
    refine ⟨.revokeLimiter uuid, ?_, beq_iff_eq.2 rfl⟩
    apply mem_append_left
    apply mem_append_right
    apply mem_append_left
    exact mem_map_of_mem hremoves

/-- Once a delta that removes a user has returned, whoever has logged in as
that user and holds a limiter or has registered sockets is cut off, provided
that every move came in time. -/
theorem revocation_wins {table : UserTable} {bandwidth : UserBandwidthLimiters}
    {sessions : UserSessionTracker} {delta : CoreUserDelta}
    {moves : List LoginMove} (hremoves : delta.Removes uuid)
    (hintime : Run.Meets (step env world protocol hasher) (fun run => run.InTime hasher uuid)
      (start table bandwidth sessions delta) moves)
    (hreturned : (Run.exec (step env world protocol hasher)
      (start table bandwidth sessions delta) moves).sections = []) :
    let run := Run.exec (step env world protocol hasher)
      (start table bandwidth sessions delta) moves
    ∀ id handler, run.handlers.lookup id = some handler → handler.user.uuid = uuid →
      handler.held ≠ [] ∨ handler.registered = true → run.Silenced id handler := by
  intro run id handler hget huser hlogged
  have hcutting : CuttingOff hasher uuid run :=
    @Run.exec_invariant _ _ (step env world protocol hasher)
      (fun run => run.InTime hasher uuid) (CuttingOff hasher uuid)
      (fun _ move hcutting => hcutting.step move) _
      ⟨.inl (willRevoke_start hremoves table bandwidth sessions), by
        intro id handler hget
        simp [start] at hget⟩ _ hintime
  have hcut := hcutting.handlers id handler hget
  have hrevoked : run.Revoked uuid := by
    refine hcutting.limiter.resolve_left fun hwill => ?_
    rw [willRevoke, hreturned] at hwill
    exact absurd hwill Bool.false_ne_true
  have hsilent : uuid ∈ handler.held → run.Silenced id handler := by
    intro hheld
    obtain ⟨limiter, hlimiter⟩ := Option.isSome_iff_exists.1 (hcut.known hheld)
    exact .inl ⟨uuid, hheld, limiter, hlimiter, hrevoked limiter hlimiter⟩
  rcases hlogged with hheld | hregistered
  · obtain ⟨key, hkey⟩ := exists_mem_of_ne_nil _ hheld
    obtain rfl := hcut.own huser key hkey
    exact hsilent hkey
  · rcases hcut.registered huser hregistered with hheld | ⟨hsome, hdoomed⟩
    · exact hsilent hheld
    · refine .inr ⟨hsome, fun connection hmem => ?_⟩
      refine (hdoomed connection hmem).resolve_right ?_
      rintro ⟨part, hpart, -⟩
      rw [hreturned] at hpart
      exact not_mem_nil hpart

/-- A user with a speed limit, at a SOCKS inbound. -/
def aliceLimited : CoreUser :=
  { id := 1, uuid := "alice", speedLimit := 8 }

def aliceTable : UserTable :=
  .build Sample.externals .socks [aliceLimited]

/-- The handler goes through `handle_tcp_client` of the SOCKS server. -/
def socksLogin (id : Nat) : List LoginMove :=
  [.login id aliceLimited, .requestUser id, .fetch id true, .register id]

/-- One login is complete when the delta starts, and one has its limiter and
registers when the delta has returned. -/
theorem revocation_wins_early_logins :
    let moves : List LoginMove := socksLogin 1 ++
      [.login 2 aliceLimited, .requestUser 2, .fetch 2 true] ++
      List.replicate 7 .delta ++ [.register 2]
    let run := Run.exec (step Sample.externals (Sample.world []) .socks fun _ => 0)
      (start aliceTable {} {} { deleted := ["alice"] }) moves
    run.sections = [] ∧ ∀ id handler, run.handlers.lookup id = some handler →
        handler.user.uuid = "alice" →
        handler.held ≠ [] ∨ handler.registered = true → run.Silenced id handler :=
  ⟨by decide +kernel, revocation_wins (mem_singleton.2 rfl) (by decide +kernel) (by decide +kernel)⟩

/-- The login looks the user up before the delta, fetches the limiter after it
was revoked, and registers when the delta has returned. -/
theorem late_login_survives :
    let moves : List LoginMove :=
      [.login 1 aliceLimited, .requestUser 1, .delta, .delta, .delta,
       .fetch 1 true, .delta, .delta, .delta, .delta, .register 1]
    let run := Run.exec (step Sample.externals (Sample.world []) .socks fun _ => 0)
      (start aliceTable {} {} { deleted := ["alice"] }) moves
    run.sections = [] ∧ run.table.contains aliceLimited = false ∧
      ∃ handler ∈ run.handlers.lookup 1, handler.user.uuid = "alice" ∧ handler.held = ["alice"] ∧
        handler.registered = true ∧ ¬ run.Silenced 1 handler ∧
        (run.sockets 1).map Connection.isOpen = [true] := by decide +kernel

end LoginRun

end KeliCore
