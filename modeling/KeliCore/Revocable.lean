/-
Whether a relay can be stopped.  While it moves bytes, a relay holds the
limiter of its user or has a socket filed under that user; a delta that deletes
the user then closes the socket, or revokes the limiter and with it the
directions in which the relay's loop asks for it.  Handlers of any number of
inbounds run beside the threads of the controller, one critical section at a
time.
-/
import KeliCore.EntryPoints
import KeliCore.Revocation

namespace KeliCore

open Text List LoginRun

variable {bandwidth : UserBandwidthLimiters} {id : Nat}

def Filed (uuid : String) : Prop := isBlank uuid = false ∧ trim uuid = uuid

instance (uuid : String) : Decidable (Filed uuid) :=
  inferInstanceAs (Decidable (_ ∧ _))

/-- A delta that removes the user and does not name it otherwise. -/
def CoreUserDelta.Deletes (delta : CoreUserDelta) (uuid : String) : Prop :=
  delta.Removes uuid ∧ (delta.full = none → uuid ∉ (delta.added ++ delta.updated).map CoreUser.uuid)

instance (delta : CoreUserDelta) (uuid : String) : Decidable (delta.Removes uuid) :=
  match hfull : delta.full with
  | some full => decidable_of_iff (uuid ∉ full.map CoreUser.uuid)
      (by rw [CoreUserDelta.Removes, hfull])
  | none => decidable_of_iff (uuid ∈ delta.deleted) (by rw [CoreUserDelta.Removes, hfull])

instance (delta : CoreUserDelta) (uuid : String) : Decidable (delta.Deletes uuid) :=
  inferInstanceAs (Decidable (_ ∧ _))

/-- The handler registers a socket before the first byte, or fetches the
limiter of its user for a loop that heeds it. -/
def EntryPoint.SecuredBy (entry : EntryPoint) (user : CoreUser) (found : Option CoreUser) : Prop :=
  (entry.registersFirst = true ∧ Filed user.uuid) ∨
    (entry.heeds = true ∧ ∃ other ∈ found, other.uuid = user.uuid ∧
      (entry.alwaysFetches = true ∨ other.speedLimit ≠ 0))

instance (entry : EntryPoint) (user : CoreUser) (found : Option CoreUser) :
    Decidable (entry.SecuredBy user found) :=
  inferInstanceAs (Decidable (_ ∨ _))

/-- A handler that has passed the login: what it has done of its script, and
what is left. -/
structure Relay where
  tag : String
  entry : EntryPoint
  handler : LoginHandler
  past : List HandlerStep := []
  rest : List HandlerStep

/-- An inbound that accepts connections. -/
structure OpenInbound where
  protocol : Protocol
  table : UserTable

/-- What the inbounds share, their handlers, and what is left of the delta
that is being applied to one of them. -/
structure RelayRun where
  inbounds : HashMap String OpenInbound
  bandwidth : UserBandwidthLimiters
  sessions : UserSessionTracker
  relays : HashMap Nat Relay := ∅
  target : String := ""
  sections : List DeltaSection := []

inductive RelayMove where
  /-- the lookup that authenticates a new connection -/
  | accept (id : Nat) (tag : String) (entry : EntryPoint) (user : CoreUser)
  /-- a handler goes on to the next step of its script -/
  | advance (id : Nat)
  /-- the end of a handler, for whatever reason -/
  | leave (id : Nat)
  | session (part : SessionSection)
  /-- the next delta, once the last one has returned -/
  | startDelta (tag : String) (delta : CoreUserDelta)
  | delta
  | syncUser (user : CoreUser)
  /-- the new table of `replace_users` -/
  | replaceTable (tag : String) (users : List CoreUser)

namespace RelayRun

/-- The keys under which the sockets of a handler are filed. -/
def filedUnder (bandwidth : UserBandwidthLimiters) (id : Nat) : List String :=
  (bandwidth.connections.filter fun connection => connection.id == id).map Connection.key

def isFresh (run : RelayRun) (id : Nat) : Bool :=
  (run.relays.lookup id).isNone && (filedUnder run.bandwidth id).isEmpty

def setRelay (run : RelayRun) (id : Nat) (relay : Relay) : RelayRun :=
  { run with relays := run.relays.insert id relay }

variable (env : Externals) (world : World) (hasher : String → UInt64)

/-- What `request_user` of a handler finds. -/
def looksUp (run : RelayRun) (relay : Relay) : Option CoreUser :=
  (run.inbounds.lookup relay.tag).bind fun inbound =>
    inbound.table.requestUser env inbound.protocol relay.handler.user

def listener (run : RelayRun) (inbound : OpenInbound) (sections : List DeltaSection) : LoginRun :=
  { table := inbound.table, bandwidth := run.bandwidth
    sessions := run.sessions, sections }

def perform (run : RelayRun) (id : Nat) (relay : Relay) : HandlerStep → RelayRun
  | .requestUser =>
    run.setRelay id { relay with
      handler := { relay.handler with found := run.looksUp env relay } }
  | .requireUser =>
    match run.looksUp env relay with
    | none => { run with relays := run.relays.erase id }
    | some found =>
      run.setRelay id { relay with
        handler := { relay.handler with found := some found } }
  | .fetch limited =>
    match relay.handler.found with
    | none => run.setRelay id relay
    | some found =>
      { run with bandwidth := run.bandwidth.fetch limited found }.setRelay
        id { relay with
          handler := { relay.handler with
            held := if returnsLimiter limited found
              then found.uuid :: relay.handler.held
              else relay.handler.held } }
  | .register =>
    { run with
      bandwidth := run.bandwidth.registerTcpConnection id
        relay.handler.user.uuid }.setRelay id { relay with
      handler := { relay.handler with registered := true } }
  | .transfer _ => run.setRelay id relay

/-- A move that is not possible changes nothing. -/
def step (run : RelayRun) : RelayMove → RelayRun
  | .accept id tag entry user =>
    match run.inbounds.lookup tag with
    | none => run
    | some inbound =>
      if run.isFresh id && inbound.protocol == entry.protocol && inbound.table.contains user then
        run.setRelay id
          { tag, entry, handler := { user, found := some user }
            rest := entry.script }
      else run
  | .advance id =>
    match run.relays.lookup id with
    | none => run
    | some relay =>
      match relay.rest with
      | [] => run
      | next :: rest =>
        run.perform env id { relay with
          past := relay.past ++ [next], rest } next
  | .leave id =>
    { run with
      bandwidth := run.bandwidth.dropConnection id
      relays := run.relays.erase id }
  | .session part => { run with sessions := LoginRun.sessionStep world run.sessions part }
  | .startDelta tag delta =>
    if run.sections.isEmpty then
      { run with target := tag, sections := deltaSections delta }
    else run
  | .delta =>
    match run.sections, run.inbounds.lookup run.target with
    | part :: rest, some inbound =>
      let after := LoginRun.perform env world inbound.protocol hasher
        (run.listener inbound rest) part
      { run with
        inbounds := run.inbounds.insert run.target
          { inbound with table := after.table }
        bandwidth := after.bandwidth
        sessions := after.sessions
        sections := after.sections }
    | _, _ => run
  | .syncUser user =>
    { run with
      bandwidth := { run.bandwidth with
        limiters := resetLimiter run.bandwidth.limiters user } }
  | .replaceTable tag users =>
    match run.inbounds.lookup tag with
    | none => run
    | some inbound =>
      { run with
        inbounds := run.inbounds.insert tag { inbound with
          table := .build env inbound.protocol users } }

/-- Nobody has logged in yet. -/
def start (inbounds : HashMap String OpenInbound)
    (bandwidth : UserBandwidthLimiters) (sessions : UserSessionTracker) :
    RelayRun :=
  { inbounds, bandwidth, sessions }

/-- The login is one whose relay will be secured, and it still is when the
handler looks its user up again. -/
def Secures (run : RelayRun) : RelayMove → Prop
  | .accept _ _ entry user => entry.SecuredBy user (some user)
  | .advance id => ∀ relay ∈ run.relays.lookup id, ∀ next ∈ relay.rest.head?, next.isLookup = true →
        relay.entry.SecuredBy relay.handler.user (run.looksUp env relay)
  | _ => True

instance (run : RelayRun) (move : RelayMove) : Decidable (run.Secures env move) := by
  cases move <;> unfold Secures <;> infer_instance

/-- The relay holds its user's limiter of the shared map, or has a socket
filed under its user. -/
def Covered (run : RelayRun) (id : Nat) (relay : Relay) : Prop :=
  (relay.handler.user.uuid ∈ relay.handler.held ∧
    (run.bandwidth.limiters.lookup relay.handler.user.uuid).isSome = true) ∨
  relay.handler.user.uuid ∈ filedUnder run.bandwidth id

instance (run : RelayRun) (id : Nat) (relay : Relay) : Decidable (run.Covered id relay) :=
  inferInstanceAs (Decidable (_ ∨ _))

/-- A socket of the relay is closed, or its loop asks a limiter that is
revoked, and moves at most the chunk it has in hand. -/
def Stopped (bandwidth : UserBandwidthLimiters) (id : Nat) (relay : Relay)
    (loop : RelayLoop) : Prop :=
  ∀ direction, (∃ connection ∈ bandwidth.connections,
      connection.id = id ∧ connection.isOpen = false) ∨
    (loop.asks direction = true ∧ ∃ key ∈ relay.handler.held,
      ∃ limiter ∈ bandwidth.limiters.lookup key, limiter.revoked = true)

instance (bandwidth : UserBandwidthLimiters) (id : Nat) (relay : Relay)
    (loop : RelayLoop) : Decidable (Stopped bandwidth id relay loop) :=
  decidable_of_iff (∀ direction ∈ [Direction.upload, .download], _)
    ⟨fun hboth direction => hboth direction (by cases direction <;> simp),
      fun hall direction _ => hall direction⟩

/-- Limiters stay in the map, and the sockets of a handler stay filed. -/
structure Keeps (id : Nat) (before after : UserBandwidthLimiters) : Prop where
  limiters : ∀ key, (before.limiters.lookup key).isSome = true →
    (after.limiters.lookup key).isSome = true
  filed : ∀ key ∈ filedUnder before id, key ∈ filedUnder after id

theorem Keeps.refl (id : Nat) (bandwidth : UserBandwidthLimiters) : Keeps id bandwidth bandwidth :=
  ⟨fun _ hsome => hsome, fun _ hmem => hmem⟩

theorem keeps_fetch (id : Nat) (bandwidth : UserBandwidthLimiters)
    (limited : Bool) (user : CoreUser) : Keeps id bandwidth (bandwidth.fetch limited user) where
  limiters key hsome := by
    rw [fetch_lookup]
    split
    · split
      · rfl
      · rw [Option.isSome_map]
        exact hsome
    · exact hsome
  filed key hmem := by
    rw [filedUnder, fetch_connections]
    exact hmem

theorem filedUnder_register (bandwidth : UserBandwidthLimiters) (id other : Nat) (uuid : String) :
    filedUnder (bandwidth.registerTcpConnection id uuid) other = filedUnder bandwidth other ++
        if isBlank uuid = false ∧ id = other then [trim uuid] else [] := by
  rw [filedUnder, UserBandwidthLimiters.registerTcpConnection]
  cases hblank : isBlank uuid with
  | true => simp [filedUnder]
  | false => by_cases hid : id = other <;> simp [filedUnder, hid]

theorem keeps_register (id other : Nat) (bandwidth : UserBandwidthLimiters) (uuid : String) :
    Keeps other bandwidth (bandwidth.registerTcpConnection id uuid) where
  limiters key hsome := by
    rw [limiters_register]
    exact hsome
  filed key hmem := by
    rw [filedUnder_register]
    exact mem_append_left _ hmem

theorem keeps_drop {other : Nat} (hother : other ≠ id) (bandwidth : UserBandwidthLimiters) :
    Keeps other bandwidth (bandwidth.dropConnection id) where
  limiters _ hsome := hsome
  filed key hmem := by
    obtain ⟨connection, hconnection, rfl⟩ := mem_map.1 hmem
    obtain ⟨hmem, hid⟩ := mem_filter.1 hconnection
    refine mem_map_of_mem (mem_filter.2 ⟨mem_filter.2 ⟨hmem, ?_⟩, hid⟩)
    rw [beq_iff_eq.1 hid]
    simpa using hother

theorem keeps_resetLimiter (id : Nat) (bandwidth : UserBandwidthLimiters) (user : CoreUser) :
    Keeps id bandwidth { bandwidth with
      limiters := resetLimiter bandwidth.limiters user } where
  limiters key hsome := by
    rw [lookup_resetLimiter]
    split
    · rw [Option.isSome_map]
      exact hsome
    · exact hsome
  filed _ hmem := hmem

/-- A section of a delta closes sockets, but does not take them from the
registry. -/
theorem keeps_perform (id : Nat) (run : LoginRun) (part : DeltaSection) (protocol : Protocol) :
    Keeps id run.bandwidth (LoginRun.perform env world protocol hasher run part).bandwidth where
  limiters key hsome := by
    rw [LoginRun.perform_isSome]
    exact hsome
  filed key hmem := by
    obtain ⟨connection, hconnection, rfl⟩ := mem_map.1 hmem
    obtain ⟨hmem, hid⟩ := mem_filter.1 hconnection
    rw [filedUnder, perform_connections]
    refine mem_map.2 ⟨treated part connection, mem_filter.2 ⟨mem_map_of_mem hmem, ?_⟩, ?_⟩
    · rw [treated]
      split <;> exact hid
    · rw [treated]
      split <;> rfl

/-- What is true of a handler between any two of its steps. -/
structure Sound (bandwidth : UserBandwidthLimiters) (id : Nat) (relay : Relay) : Prop where
  script : relay.past ++ relay.rest = relay.entry.script
  secured : relay.entry.SecuredBy relay.handler.user relay.handler.found
  known : ∀ key ∈ relay.handler.held, (bandwidth.limiters.lookup key).isSome = true
  fetched : ∀ limited, .fetch limited ∈ relay.past →
    ∀ found ∈ relay.handler.found, returnsLimiter limited found = true →
      found.uuid ∈ relay.handler.held
  filed : .register ∈ relay.past → Filed relay.handler.user.uuid →
    relay.handler.user.uuid ∈ filedUnder bandwidth id

variable {relay : Relay} {loop : RelayLoop}

theorem Sound.keep {before after : UserBandwidthLimiters} (hsound : Sound before id relay)
    (hkeeps : Keeps id before after) : Sound after id relay where
  script := hsound.script
  secured := hsound.secured
  known key hkey := hkeeps.limiters key (hsound.known key hkey)
  fetched := hsound.fetched
  filed hpast hfiled := hkeeps.filed _ (hsound.filed hpast hfiled)

/-- Every handler is sound. -/
def AllSound (run : RelayRun) : Prop :=
  ∀ id relay, run.relays.lookup id = some relay → Sound run.bandwidth id relay

variable {env world hasher} {run : RelayRun}

/-- One handler changes; the others notice at most that the stores keep what
is theirs. -/
theorem AllSound.setRelay (hsound : run.AllSound)
    (hkeeps : ∀ other, other ≠ id → Keeps other run.bandwidth bandwidth)
    (hown : Sound bandwidth id relay) : AllSound ({ run with bandwidth }.setRelay id relay) := by
  intro other held hget
  change (run.relays.insert id relay).lookup other = some held at hget
  rw [Finmap.lookup_insert_ite] at hget
  split at hget
  next hsame =>
    cases hget
    rw [hsame]
    exact hown
  next hother => exact (hsound other held hget).keep (hkeeps other hother)

theorem AllSound.erase (hsound : run.AllSound)
    (hkeeps : ∀ other, other ≠ id → Keeps other run.bandwidth bandwidth) :
    AllSound { run with bandwidth, relays := run.relays.erase id } := by
  intro other held hget
  change (run.relays.erase id).lookup other = some held at hget
  obtain ⟨hother, hget⟩ := Finmap.of_lookup_erase hget
  exact (hsound other held hget).keep (hkeeps other hother)

section

variable (hsound : Sound bandwidth id relay)

include hsound

variable {next : HandlerStep} {rest : List HandlerStep}

theorem Sound.past_eq_nil
    (hrest : relay.rest = next :: rest) (hget : next.isLookup = true) : relay.past = [] := by
  cases hpast : relay.past with
  | nil => rfl
  | cons first past =>
    have hscript := hsound.script
    rw [hpast, hrest] at hscript
    have htail : next ∈ relay.entry.script.tail := by
      rw [← hscript]
      exact mem_append_right _ mem_cons_self
    rw [relay.entry.isLookup_tail htail] at hget
    contradiction

theorem Sound.move (hrest : relay.rest = next :: rest)
    (hfetch : ∀ limited, next = .fetch limited → relay.handler.found = none)
    (hregister : next ≠ .register) :
    Sound bandwidth id { relay with past := relay.past ++ [next], rest } where
  script := by
    rw [← hsound.script, hrest]
    simp
  secured := hsound.secured
  known := hsound.known
  fetched limited hpast found hfound := by
    rcases mem_append.1 hpast with hpast | hlast
    · exact hsound.fetched limited hpast found hfound
    · have hnone := hfetch limited (mem_singleton.1 hlast).symm
      change found ∈ relay.handler.found at hfound
      rw [hnone] at hfound
      contradiction
  filed hpast := by
    rcases mem_append.1 hpast with hpast | hlast
    · exact hsound.filed hpast
    · exact absurd (mem_singleton.1 hlast).symm hregister

theorem Sound.found
    (hrest : relay.rest = next :: rest) (hget : next.isLookup = true) {found : Option CoreUser}
    (hsecured : relay.entry.SecuredBy relay.handler.user found) : Sound bandwidth id { relay with
      handler := { relay.handler with found }
      past := relay.past ++ [next], rest } where
  script := by
    rw [← hsound.script, hrest]
    simp
  secured := hsecured
  known := hsound.known
  fetched limited hpast := by
    change _ ∈ relay.past ++ [next] at hpast
    rw [hsound.past_eq_nil hrest hget, nil_append, mem_singleton] at hpast
    subst hpast
    contradiction
  filed hpast := by
    change _ ∈ relay.past ++ [next] at hpast
    rw [hsound.past_eq_nil hrest hget, nil_append, mem_singleton] at hpast
    subst hpast
    contradiction

theorem Sound.fetch {limited : Bool} (hrest : relay.rest = .fetch limited :: rest)
    {found : CoreUser} (hfound : relay.handler.found = some found) :
    Sound (bandwidth.fetch limited found) id { relay with
      handler := { relay.handler with
        found := some found
        held := if returnsLimiter limited found
          then found.uuid :: relay.handler.held else relay.handler.held }
      past := relay.past ++ [.fetch limited], rest } where
  script := by
    rw [← hsound.script, hrest]
    simp
  secured := hfound ▸ hsound.secured
  known key hkey := by
    have hkeeps := keeps_fetch id bandwidth limited found
    dsimp only at hkey
    split at hkey
    next hreturns =>
      rcases mem_cons.1 hkey with rfl | hkey
      · rw [fetch_lookup, if_pos rfl, if_pos hreturns]
        rfl
      · exact hkeeps.limiters key (hsound.known key hkey)
    · exact hkeeps.limiters key (hsound.known key hkey)
  fetched before hpast other hother hreturns := by
    cases hother
    dsimp only
    rcases mem_append.1 hpast with hpast | hlast
    · have hheld := hsound.fetched before hpast found hfound hreturns
      split
      · exact .tail _ hheld
      · exact hheld
    · obtain ⟨rfl⟩ := mem_singleton.1 hlast
      rw [if_pos hreturns]
      exact .head _
  filed hpast hfiled := by
    rcases mem_append.1 hpast with hpast | hlast
    · exact (keeps_fetch id bandwidth limited found).filed _ (hsound.filed hpast hfiled)
    · simp at hlast

theorem Sound.register (hrest : relay.rest = .register :: rest) :
    Sound (bandwidth.registerTcpConnection id relay.handler.user.uuid) id { relay with
        handler := { relay.handler with registered := true }
        past := relay.past ++ [.register], rest } where
  script := by
    rw [← hsound.script, hrest]
    simp
  secured := hsound.secured
  known key hkey := (keeps_register id id bandwidth _).limiters key (hsound.known key hkey)
  fetched limited hpast := by
    rcases mem_append.1 hpast with hpast | hlast
    · exact hsound.fetched limited hpast
    · simp at hlast
  filed _ hfiled := by
    change Filed relay.handler.user.uuid at hfiled
    rw [filedUnder_register, if_pos ⟨hfiled.1, rfl⟩]
    apply mem_append_right
    rw [hfiled.2]
    exact mem_singleton_self _

end

theorem AllSound.advance (hsound : run.AllSound) (hsecures : run.Secures env (.advance id)) :
    AllSound (step env world hasher run (.advance id)) := by
  rw [step]
  cases hget : run.relays.lookup id with
  | none => exact hsound
  | some relay =>
    have hown := hsound id relay hget
    have hkept := fun other (_ : other ≠ id) => Keeps.refl other run.bandwidth
    dsimp only
    cases hrest : relay.rest with
    | nil => exact hsound
    | cons next rest =>
      have hagain := hsecures relay hget next (by rw [hrest]; rfl)
      dsimp only
      cases next with
      | requestUser => exact hsound.setRelay hkept (hown.found hrest rfl (hagain rfl))
      | requireUser =>
        rw [perform]
        cases hfound : run.looksUp env { relay with
          past := relay.past ++ [.requireUser], rest } with
        | none => exact hsound.erase hkept
        | some found =>
          refine hsound.setRelay hkept (hown.found hrest rfl ?_)
          change run.looksUp env relay = some found at hfound
          rw [← hfound]
          exact hagain rfl
      | fetch limited =>
        rw [perform]
        dsimp only
        cases hfound : relay.handler.found with
        | none => exact hsound.setRelay hkept (hown.move hrest (fun _ _ => hfound) (by simp))
        | some found =>
          exact hsound.setRelay (fun other _ => keeps_fetch other _ limited found)
            (hown.fetch hrest hfound)
      | register =>
        exact hsound.setRelay (fun other _ => keeps_register id other _ _) (hown.register hrest)
      | transfer loop => exact hsound.setRelay hkept (hown.move hrest (by simp) (by simp))

/-- The relays stay as they are, and the stores keep what is theirs. -/
theorem AllSound.keep (hsound : run.AllSound) {after : RelayRun}
    (hrelays : after.relays = run.relays) (hkeeps : ∀ id, Keeps id run.bandwidth after.bandwidth) :
    after.AllSound := by
  intro id relay hget
  rw [hrelays] at hget
  exact (hsound id relay hget).keep (hkeeps id)

theorem AllSound.step (hsound : run.AllSound) (move : RelayMove) (hsecures : run.Secures env move) :
    AllSound (step env world hasher run move) := by
  cases move with
  | accept id tag entry user =>
    rw [RelayRun.step]
    split
    · exact hsound
    · split
      · refine hsound.setRelay (fun other _ => .refl other _) ⟨rfl, hsecures, ?_, ?_, ?_⟩
        · simp
        · simp
        · simp
      · exact hsound
  | advance id => exact hsound.advance hsecures
  | leave id => exact hsound.erase fun other hother => keeps_drop hother run.bandwidth
  | session part => exact hsound.keep rfl fun id => .refl id _
  | startDelta tag delta =>
    rw [RelayRun.step]
    split
    · exact hsound.keep rfl fun id => .refl id _
    · exact hsound
  | delta =>
    rw [RelayRun.step]
    split
    · exact hsound.keep rfl fun id => keeps_perform env world hasher id (run.listener _ _) _ _
    · exact hsound
  | syncUser user => exact hsound.keep rfl fun id => keeps_resetLimiter id _ user
  | replaceTable tag users =>
    rw [RelayRun.step]
    split
    · exact hsound
    · exact hsound.keep rfl fun id => .refl id _

theorem revoked_of_deletes {delta : CoreUserDelta} {uuid : String} (hdeletes : delta.Deletes uuid)
    {sessions : UserSessionTracker} (hsome : (bandwidth.limiters.lookup uuid).isSome = true) :
    ∃ limiter ∈ (syncUserLimitDelta bandwidth sessions
      delta).1.limiters.lookup uuid, limiter.revoked = true := by
  obtain ⟨old, hold⟩ := Option.isSome_iff_exists.1 hsome
  have hafter : (syncUserLimitDelta bandwidth sessions
      delta).1.limiters.lookup uuid = some (revokedLimiter old) := by
    obtain ⟨hremoves, hunnamed⟩ := hdeletes
    unfold CoreUserDelta.Removes at hremoves
    cases hfull : delta.full with
    | some full =>
      rw [hfull] at hremoves
      rw [limiters_full _ _ _ hfull hremoves, hold]
      rfl
    | none =>
      rw [hfull] at hremoves
      rw [limiters_lists _ _ _ hfull (hunnamed hfull), if_pos hremoves, hold]
      rfl
  exact ⟨revokedLimiter old, hafter, rfl⟩

theorem closed_of_deletes {delta : CoreUserDelta} {uuid : String} (hdeletes : delta.Deletes uuid)
    {sessions : UserSessionTracker} (hfiled : uuid ∈ filedUnder bandwidth id) :
    ∃ connection ∈ (syncUserLimitDelta bandwidth sessions
      delta).1.connections, connection.id = id ∧ connection.isOpen = false := by
  obtain ⟨connection, hconnection, rfl⟩ := mem_map.1 hfiled
  obtain ⟨hmem, hid⟩ := mem_filter.1 hconnection
  have hsweeps : Sweeps delta connection.key := by
    have hremoves := hdeletes.1
    unfold CoreUserDelta.Removes at hremoves
    cases hfull : delta.full with
    | some full =>
      rw [hfull] at hremoves
      exact (sweeps_full hfull _).2 hremoves
    | none =>
      rw [hfull] at hremoves
      exact (sweeps_lists hfull _).2 (.inl hremoves)
  refine ⟨closed connection, ?_, beq_iff_eq.1 hid, rfl⟩
  rw [connections_delta]
  refine mem_map.2 ⟨connection, hmem, ?_⟩
  rw [if_pos hsweeps]

/-- At a transfer, the relay has registered or holds its user's limiter. -/
theorem Sound.covers (hsound : Sound bandwidth id relay)
    (hnext : relay.rest.head? = some (.transfer loop)) :
    relay.handler.user.uuid ∈ filedUnder bandwidth id ∨ (relay.entry.heeds = true ∧
        relay.handler.user.uuid ∈ relay.handler.held) := by
  obtain ⟨rest, hrest⟩ := head?_eq_some_iff.1 hnext
  have hscript := hsound.script
  rw [hrest] at hscript
  rcases hsound.secured with ⟨hregisters, hfiled⟩ | ⟨hheeds, found, hfound, huuid, hlimit⟩
  · left
    exact hsound.filed (EntryPoint.mem_of_mem_opening hscript
      (contains_iff_mem.1 hregisters)) hfiled
  · refine .inr ⟨hheeds, ?_⟩
    rw [← huuid]
    rcases hlimit with halways | hlimited
    · exact hsound.fetched false (EntryPoint.mem_of_mem_opening hscript
        (contains_iff_mem.1 halways)) found hfound rfl
    · obtain ⟨limited, hfetch⟩ := relay.entry.exists_fetch
      refine hsound.fetched limited (EntryPoint.mem_of_mem_opening hscript hfetch) found hfound ?_
      simp [returnsLimiter, speedLimitMbpsToBytesPerSecond, hlimited]

/-- The loops of a handler that heeds its limiter ask in both directions. -/
theorem Sound.asks (hsound : Sound bandwidth id relay)
    (hnext : relay.rest.head? = some (.transfer loop))
    (hheeds : relay.entry.heeds = true) (direction : Direction) : loop.asks direction = true := by
  have hmem : .transfer loop ∈ relay.entry.script := by
    rw [← hsound.script]
    exact mem_append_right _ (mem_of_mem_head? hnext)
  have hboth := Bool.and_eq_true_iff.1 (all_eq_true.1 hheeds _ hmem)
  cases direction with
  | upload => exact hboth.1
  | download => exact hboth.2

/-- In a run whose logins secure their relays, every relay that moves bytes is
covered, and the next delta that deletes its user stops it. -/
theorem relays_revocable {inbounds : HashMap String OpenInbound}
    {bandwidth : UserBandwidthLimiters} {sessions : UserSessionTracker} {moves : List RelayMove}
    (hsecures : Run.Meets (step env world hasher)
      (fun run => run.Secures env) (start inbounds bandwidth sessions) moves) :
    let run := Run.exec (step env world hasher) (start inbounds bandwidth sessions) moves
    ∀ id relay loop, run.relays.lookup id = some relay → relay.rest.head? = some (.transfer loop) →
        run.Covered id relay ∧ ∀ delta : CoreUserDelta, delta.Deletes relay.handler.user.uuid →
            Stopped (syncUserLimitDelta run.bandwidth run.sessions delta).1
              id relay loop := by
  intro run id relay loop hget hnext
  have hall : run.AllSound :=
    @Run.exec_invariant _ _ (step env world hasher) (fun run => run.Secures env) AllSound
      (fun _ move hsound => hsound.step move) _ (by
        intro id relay hget
        simp [start] at hget) _ hsecures
  have hsound := hall id relay hget
  rcases hsound.covers hnext with hfiled | ⟨hheeds, hheld⟩
  · exact ⟨.inr hfiled, fun delta hdeletes direction => .inl (closed_of_deletes hdeletes hfiled)⟩
  · refine ⟨.inl ⟨hheld, hsound.known _ hheld⟩,
      fun delta hdeletes direction => .inr ⟨?_, _, hheld, ?_⟩⟩
    · exact hsound.asks hnext hheeds direction
    · exact revoked_of_deletes hdeletes (hsound.known _ hheld)

end RelayRun

namespace Sample

def carol : CoreUser :=
  { id := 3, uuid := "00000000-0000-0000-0000-000000000001" }

def limitedCarol : CoreUser := { carol with speedLimit := 8 }

def carolDeleted : CoreUserDelta := { deleted := [carol.uuid] }

def carolInbounds (protocol : Protocol) (user : CoreUser) : HashMap String OpenInbound :=
  Finmap.insert "in" ⟨protocol, .build externals protocol [user]⟩ ∅

/-- The handler goes through its script up to its relay. -/
def carolRelay (entry : EntryPoint) (user : CoreUser) : List RelayMove :=
  .accept 1 "in" entry user :: entry.opening.map fun _ => .advance 1

def carolTransfer (entry : EntryPoint) (user : CoreUser) : RelayRun :=
  Run.exec (RelayRun.step externals (world []) fun _ => 0)
    (.start (carolInbounds entry.protocol user) {} {}) (carolRelay entry user)

end Sample

namespace RelayRun

open Sample

/-- A user without a limit at a SOCKS inbound, and one with a limit at the TLS
inbound of VLESS. -/
theorem relays_revocable_carol : (∃ relay ∈ (carolTransfer .socks carol).relays.lookup 1,
      ∃ loop, relay.rest.head? = some (.transfer loop) ∧
        (carolTransfer .socks carol).Covered 1 relay ∧
        Stopped (syncUserLimitDelta (carolTransfer .socks carol).bandwidth
          {} carolDeleted).1 1 relay loop) ∧
    ∃ relay ∈ (carolTransfer (.vlessTls false) limitedCarol).relays.lookup 1,
      ∃ loop, relay.rest.head? = some (.transfer loop) ∧
        (carolTransfer (.vlessTls false) limitedCarol).Covered 1 relay ∧
        Stopped (syncUserLimitDelta (carolTransfer (.vlessTls false) limitedCarol).bandwidth {}
          carolDeleted).1 1 relay loop := by
  constructor
  · obtain ⟨relay, hget, hnext⟩ : ∃ relay ∈ (carolTransfer .socks carol).relays.lookup 1,
          relay.rest.head? = some EntryPoint.relayTcp ∧
            carolDeleted.Deletes relay.handler.user.uuid := by decide +kernel
    have hrevocable := @relays_revocable externals (world []) (fun _ => 0)
      (carolInbounds .socks carol) {} {} (carolRelay .socks carol)
      (by decide +kernel) 1 relay _ hget hnext.1
    exact ⟨relay, hget, _, hnext.1, hrevocable.1, hrevocable.2 carolDeleted hnext.2⟩
  · obtain ⟨relay, hget, hnext⟩ :
        ∃ relay ∈ (carolTransfer (.vlessTls false) limitedCarol).relays.lookup 1,
          relay.rest.head? = some (.transfer (.poll relayTlsStream)) ∧
            carolDeleted.Deletes relay.handler.user.uuid := by decide +kernel
    have hrevocable := @relays_revocable externals (world []) (fun _ => 0)
      (carolInbounds .vless limitedCarol) {} {} (carolRelay (.vlessTls false) limitedCarol)
      (by decide +kernel) 1 relay _ hget hnext.1
    exact ⟨relay, hget, _, hnext.1, hrevocable.1, hrevocable.2 carolDeleted hnext.2⟩

/-- A user without a limit relays through the TLS inbound of VMess without a
limiter and without a socket in the registry.  With a limit there is a limiter,
but the loop does not ask it about the download.  The deletion of the user
stops neither. -/
theorem tls_relay_survives_deletion :
    let entry : EntryPoint := .vmessTls .aes128Gcm 0
    let loop : RelayLoop := .poll (relaySingleIo .aes128Gcm 0)
    carolDeleted.Deletes carol.uuid ∧
    (∃ relay ∈ (carolTransfer entry carol).relays.lookup 1,
      relay.rest.head? = some (.transfer loop) ∧
      relay.handler.user = carol ∧
      ¬ (carolTransfer entry carol).Covered 1 relay ∧
      ¬ Stopped (syncUserLimitDelta (carolTransfer entry carol).bandwidth {}
        carolDeleted).1 1 relay loop) ∧
    ∃ relay ∈ (carolTransfer entry limitedCarol).relays.lookup 1,
      relay.rest.head? = some (.transfer loop) ∧
      relay.handler.user = limitedCarol ∧
      ¬ Stopped (syncUserLimitDelta
        (carolTransfer entry limitedCarol).bandwidth {} carolDeleted).1 1
        relay loop := by decide +kernel

end RelayRun

end KeliCore
