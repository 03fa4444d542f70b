/-
The backoff of clients that fail: `ClientFailureBackoff` before the TCP
listeners, and `Hysteria2AuthBackoff`, which is the same code with numbers of
its own.  Times are milliseconds.
-/
import KeliCore.HashMap
import KeliCore.IpAddr
import KeliCore.Run

namespace KeliCore

open Finmap Option Function

/-- `ClientFailureBackoffPolicy`, and the number of shards, which
`client_failure_backoff_shard_count` gives where it is not fixed. -/
structure ClientFailureBackoffPolicy where
  threshold : UInt32
  window : Nat
  blockDuration : Nat
  maxEntries : Nat
  shards : Nat := max 1 (min 32 (maxEntries / 256))

namespace ClientFailureBackoffPolicy

def tlsHandshake : ClientFailureBackoffPolicy :=
  { threshold := 6, window := 30000, blockDuration := 10000, maxEntries := 4096 }

def tcpAuth : ClientFailureBackoffPolicy :=
  { threshold := 12, window := 30000, blockDuration := 10000, maxEntries := 8192 }

/-- The numbers of `Hysteria2AuthBackoff`. -/
def hysteria2 : ClientFailureBackoffPolicy :=
  { threshold := 4, window := 30000, blockDuration := 60000, maxEntries := 4096, shards := 16 }

def maxEntriesPerShard (policy : ClientFailureBackoffPolicy) : Nat :=
  max ((policy.maxEntries + policy.shards - 1) / policy.shards) 1

end ClientFailureBackoffPolicy

/-- `ClientFailureEntry`; a block never ends before its window began. -/
structure ClientFailureEntry where
  failures : UInt32
  windowStarted : Nat
  blockedUntil : Option Nat
  started_le : ∀ ending ∈ blockedUntil, windowStarted ≤ ending

namespace ClientFailureEntry

def fresh (now : Nat) : ClientFailureEntry := ⟨0, now, none, nofun⟩

variable (policy : ClientFailureBackoffPolicy) (entry : ClientFailureEntry)
  (now : Nat)

def isExpired : Bool :=
  match entry.blockedUntil with
  | some ending => ending ≤ now && policy.window < now - ending
  | none => policy.window * 2 < now - entry.windowStarted

def inWindow : Bool :=
  entry.windowStarted ≤ now && now - entry.windowStarted ≤ policy.window

/-- The entry as it is, or started anew outside its window. -/
def current : ClientFailureEntry :=
  if entry.inWindow policy now then entry else fresh now

theorem windowStarted_current_le : (entry.current policy now).windowStarted ≤ now := by
  rw [current]
  split
  next hwindow =>
    simp only [inWindow, Bool.and_eq_true, decide_eq_true_eq] at hwindow
    exact hwindow.1
  · exact Nat.le_refl now

/-- `failures.saturating_add(1)` -/
def counted : UInt32 :=
  if entry.failures = 0xffffffff then entry.failures else entry.failures + 1

theorem toNat_counted : entry.counted.toNat = min (entry.failures.toNat + 1) 4294967295 := by
  have hlt := entry.failures.toNat_lt
  rw [counted]
  split
  next hmax =>
    rw [hmax]
    rfl
  next hmax =>
    have hne : entry.failures.toNat ≠ 4294967295 := fun hmaxNat => hmax (UInt32.toNat_inj.1 hmaxNat)
    have hone : (1 : UInt32).toNat = 1 := rfl
    rw [UInt32.toNat_add]
    omega

/-- What `record_failure_at` makes of an entry. -/
def fail : ClientFailureEntry :=
  let entry := entry.current policy now
  if policy.threshold ≤ entry.counted then
    ⟨entry.counted, entry.windowStarted, some (now + policy.blockDuration), by
      rintro _ ⟨⟩
      exact Nat.le_add_right_of_le (windowStarted_current_le policy _ now)⟩
  else { entry with failures := entry.counted }

variable {policy entry now}

theorem fail_failures : (entry.fail policy now).failures = (entry.current policy now).counted := by
  rw [fail]
  split <;> rfl

theorem fail_windowStarted : (entry.fail policy now).windowStarted =
    (entry.current policy now).windowStarted := by
  rw [fail]
  split <;> rfl

theorem fail_blockedUntil (hwindow : entry.inWindow policy now = true) :
    (entry.fail policy now).blockedUntil = some (now + policy.blockDuration) ∨
      (entry.fail policy now).blockedUntil = entry.blockedUntil := by
  simp only [fail, current, hwindow, if_true]
  split
  · exact .inl rfl
  · exact .inr rfl

theorem fail_fresh (hfresh : entry.current policy now = fresh now) :
    (entry.fail policy now).blockedUntil =
      if policy.threshold ≤ 1 then some (now + policy.blockDuration)
      else none := by
  have hone : (fresh now).counted = 1 := rfl
  simp only [fail, hfresh, hone]
  split <;> rfl

theorem current_fresh : (fresh now).current policy now = fresh now := by
  rw [current]
  split <;> rfl

theorem fail_of_threshold_le_one (hone : policy.threshold ≤ 1) :
    (entry.fail policy now).blockedUntil = some (now + policy.blockDuration) := by
  have hcounted : policy.threshold ≤ (entry.current policy now).counted := by
    refine UInt32.le_trans hone ?_
    rw [UInt32.le_iff_toNat_le, toNat_counted]
    exact Nat.le_min.2 ⟨Nat.le_add_left 1 _, by decide⟩
  simp [fail, hcounted]

theorem not_expired_of_inWindow (hwindow : entry.inWindow policy now = true) :
    entry.isExpired policy now = false := by
  simp only [inWindow, Bool.and_eq_true, decide_eq_true_eq] at hwindow
  rw [isExpired]
  split
  next ending hblocked =>
    have hstarted := entry.started_le ending hblocked
    simp only [Bool.and_eq_false_iff, decide_eq_false_iff_not]
    omega
  · simp only [decide_eq_false_iff_not]
    omega

end ClientFailureEntry

open ClientFailureEntry

/-- The shards by their index. -/
abbrev FailureShards := Nat → HashMap IpAddr ClientFailureEntry

inductive BackoffCall where
  | recordFailure
  | isBlocked
  | recordSuccess

/-- A call for an address, and when it is made. -/
structure BackoffEvent where
  call : BackoffCall
  ip : IpAddr
  now : Nat

namespace ClientFailureBackoffPolicy

variable (policy : ClientFailureBackoffPolicy) (hash : IpAddr → Nat)
  (order : HashOrder IpAddr ClientFailureEntry)

def shard (ip : IpAddr) : Nat := hash ip % policy.shards

def live (entries : HashMap IpAddr ClientFailureEntry) (now : Nat) :
    HashMap IpAddr ClientFailureEntry :=
  entries.retain fun _ entry => !entry.isExpired policy now

/-- The beginning of `record_failure_at`: a full shard loses what has expired
and, if it is still full, the first of its keys. -/
def makeRoom (entries : HashMap IpAddr ClientFailureEntry) (now : Nat) :
    HashMap IpAddr ClientFailureEntry :=
  if entries.len < policy.maxEntriesPerShard then entries
  else
    let live := policy.live entries now
    if live.len < policy.maxEntriesPerShard then live
    else
      match (order.iter live).head? with
      | some (first, _) => live.erase first
      | none => live

def recordFailureAt (shards : FailureShards) (ip : IpAddr) (now : Nat) :
    FailureShards :=
  let entries := policy.makeRoom order (shards (policy.shard hash ip)) now
  let entry := (entries.lookup ip).getD (fresh now)
  Function.update shards (policy.shard hash ip) (entries.insert ip (entry.fail policy now))

def isBlockedAt (shards : FailureShards) (ip : IpAddr) (now : Nat) : FailureShards × Bool :=
  let entries := shards (policy.shard hash ip)
  match (entries.lookup ip).bind ClientFailureEntry.blockedUntil with
  | none => (shards, false)
  | some ending =>
    if now < ending then (shards, true)
    else
      (Function.update shards (policy.shard hash ip) (entries.insert ip (fresh now)), false)

def recordSuccess (shards : FailureShards) (ip : IpAddr) : FailureShards :=
  Function.update shards (policy.shard hash ip) ((shards (policy.shard hash ip)).erase ip)

def step (shards : FailureShards) (event : BackoffEvent) : FailureShards :=
  match event.call with
  | .recordFailure => policy.recordFailureAt hash order shards event.ip event.now
  | .isBlocked => (policy.isBlockedAt hash shards event.ip event.now).1
  | .recordSuccess => policy.recordSuccess hash shards event.ip

/-- The shard has room, or gets some, or another key comes first in it. -/
def Spares (entries : HashMap IpAddr ClientFailureEntry) (ip : IpAddr) (now : Nat) : Prop :=
  entries.len < policy.maxEntriesPerShard ∨
    (policy.live entries now).len < policy.maxEntriesPerShard ∨
    (order.iter (policy.live entries now)).head?.map Prod.fst ≠ some ip

variable {policy hash order} {entries : HashMap IpAddr ClientFailureEntry} {ip other : IpAddr}
  {now ending : Nat} {entry : ClientFailureEntry} {event : BackoffEvent}

theorem lookup_makeRoom_of_spares (hentry : entries.lookup ip = some entry)
    (hlive : entry.isExpired policy now = false) (hspares : policy.Spares order entries ip now) :
    (policy.makeRoom order entries now).lookup ip = some entry := by
  have hget : (policy.live entries now).lookup ip = some entry := by
    rw [live, lookup_retain, hentry]
    simp [hlive]
  rw [makeRoom]
  split
  · exact hentry
  dsimp only
  split
  · exact hget
  rename_i hfull hstill
  split
  next first _ hfirst =>
    rw [lookup_erase_ite, if_neg]
    · exact hget
    · rintro rfl
      rcases hspares with hroom | hroom | hother
      · exact hfull hroom
      · exact hstill hroom
      · exact hother (by rw [hfirst]; rfl)
  · exact hget

theorem lookup_of_makeRoom (hroom : (policy.makeRoom order entries now).lookup ip = some entry) :
    entries.lookup ip = some entry := by
  rw [makeRoom] at hroom
  split at hroom
  · exact hroom
  dsimp only at hroom
  split at hroom
  · exact of_lookup_retain hroom
  split at hroom
  · exact of_lookup_retain (of_lookup_erase hroom).2
  · exact of_lookup_retain hroom

theorem lookup_makeRoom_of_evicts (hevicts : ¬ policy.Spares order entries ip now) :
    (policy.makeRoom order entries now).lookup ip = none := by
  simp only [Spares, ne_eq, not_or, not_not] at hevicts
  obtain ⟨hfull, hstill, hfirst⟩ := hevicts
  obtain ⟨⟨first, entry⟩, hhead, rfl⟩ := map_eq_some_iff.1 hfirst
  rw [makeRoom, if_neg hfull]
  rw [if_neg hstill, hhead, lookup_erase_ite, if_pos rfl]

theorem len_makeRoom (hlen : entries.len ≤ policy.maxEntriesPerShard) :
    (policy.makeRoom order entries now).len < policy.maxEntriesPerShard := by
  have hretain : (policy.live entries now).len ≤ entries.len := by
    simp only [live, len]
    apply Finset.card_le_card
    intro key hkey
    rw [mem_keys, ← lookup_isSome] at hkey ⊢
    rw [lookup_retain] at hkey
    obtain ⟨entry, hentry⟩ := isSome_iff_exists.1 hkey
    rw [(filter_eq_some_iff.1 hentry).1]
    rfl
  have hone : 0 < policy.maxEntriesPerShard := Nat.lt_of_lt_of_le Nat.one_pos (Nat.le_max_right _ _)
  rw [makeRoom]
  split
  · assumption
  dsimp only
  split
  · assumption
  rename_i hstill
  -- the first key is one of the map's, so that taking it out makes room
  obtain ⟨key, entry, hentry⟩ := len_pos_iff.1 (Nat.lt_of_lt_of_le hone (Nat.le_of_not_lt hstill))
  have hmem := (order.mem_iter _ key entry).2 hentry
  cases hiter : order.iter (policy.live entries now) with
  | nil =>
    rw [hiter] at hmem
    contradiction
  | cons first rest =>
    have hfirst : first ∈ order.iter (policy.live entries now) := by
      rw [hiter]
      exact .head _
    have hkey := mem_keys.2 (mem_of_lookup_eq_some ((order.mem_iter _ first.1 first.2).1 hfirst))
    dsimp only [List.head?_cons]
    rw [len, keys_erase, Finset.card_erase_of_mem hkey]
    simp only [len] at hretain hlen hstill ⊢
    omega

theorem len_insert_le (entries : HashMap IpAddr ClientFailureEntry)
    (ip : IpAddr) (entry : ClientFailureEntry) :
    (entries.insert ip entry).len ≤ entries.len + 1 := by
  simp only [len]
  refine (Finset.card_le_card ?_).trans (Finset.card_insert_le ip entries.keys)
  intro key hkey
  simpa [mem_keys, mem_insert] using hkey

variable {shards : FailureShards}

theorem lookup_recordFailureAt_self :
    (policy.recordFailureAt hash order shards ip now (policy.shard hash ip)).lookup ip =
      some ((((policy.makeRoom order (shards (policy.shard hash ip))
        now).lookup ip).getD (fresh now)).fail policy now) := by simp [recordFailureAt]

theorem lookup_recordFailureAt_other (hne : other ≠ ip) :
    (policy.recordFailureAt hash order shards other now (policy.shard hash ip)).lookup ip =
      if policy.shard hash other = policy.shard hash ip then
        (policy.makeRoom order (shards (policy.shard hash ip)) now).lookup ip
      else (shards (policy.shard hash ip)).lookup ip := by
  rw [recordFailureAt]
  split
  next hshard => rw [hshard, update_self, lookup_insert_ite, if_neg hne.symm]
  next hshard => rw [update_of_ne (Ne.symm hshard)]

/-- A change to the entry of one address leaves the others alone. -/
theorem lookup_update_other
    (hsame : entries.lookup ip = (shards (policy.shard hash other)).lookup ip) :
    (update shards (policy.shard hash other) entries (policy.shard hash ip)).lookup ip =
      (shards (policy.shard hash ip)).lookup ip := by
  by_cases hshard : policy.shard hash ip = policy.shard hash other
  · rw [hshard, update_self, hsame]
  · rw [update_of_ne hshard]

/-- The address is blocked up to this time at least. -/
def Blocked (policy : ClientFailureBackoffPolicy) (hash : IpAddr → Nat)
    (shards : FailureShards) (ip : IpAddr) (ending : Nat) : Prop :=
  ∃ entry last, (shards (policy.shard hash ip)).lookup ip = some entry ∧
    entry.blockedUntil = some last ∧ ending ≤ last

theorem Blocked.isBlockedAt (hblocked : Blocked policy hash shards ip ending)
    (hnow : now < ending) : policy.isBlockedAt hash shards ip now = (shards, true) := by
  obtain ⟨entry, last, hentry, hlast, hle⟩ := hblocked
  simp [ClientFailureBackoffPolicy.isBlockedAt, hentry, hlast, Nat.lt_of_lt_of_le hnow hle]

theorem Blocked.of_lookup {next : FailureShards} (hblocked : Blocked policy hash shards ip ending)
    (hsame : (next (policy.shard hash ip)).lookup ip = (shards (policy.shard hash ip)).lookup ip) :
    Blocked policy hash next ip ending := by
  obtain ⟨entry, last, hentry, hblock⟩ := hblocked
  exact ⟨entry, last, hsame.trans hentry, hblock⟩

theorem not_isBlockedAt (hnone : ((shards (policy.shard hash ip)).lookup ip).bind
      blockedUntil = none) :
    (policy.isBlockedAt hash shards ip now).2 = false := by rw [isBlockedAt, hnone]

/-- The call leaves the block of this address: it does not evict the entry, is
no success, and is no failure outside the window that the entry counts in;
with a threshold of one every failure blocks. -/
def KeepsBlock (policy : ClientFailureBackoffPolicy) (hash : IpAddr → Nat)
    (order : HashOrder IpAddr ClientFailureEntry) (ip : IpAddr)
    (shards : FailureShards) (event : BackoffEvent) : Prop :=
  let entries := shards (policy.shard hash ip)
  match event.call with
  | .isBlocked => True
  | .recordSuccess => event.ip ≠ ip
  | .recordFailure =>
    if event.ip = ip then
      policy.threshold ≤ 1 ∨ policy.Spares order entries ip event.now ∧
        ∃ entry ∈ entries.lookup ip, entry.inWindow policy event.now = true
    else policy.shard hash event.ip = policy.shard hash ip →
      policy.Spares order entries ip event.now

theorem Blocked.step (hblocked : Blocked policy hash shards ip ending)
    (hsince : ending ≤ event.now + policy.blockDuration) (hpre : event.now < ending)
    (hkeeps : policy.KeepsBlock hash order ip shards event) :
    Blocked policy hash (policy.step hash order shards event) ip ending := by
  obtain ⟨entry, last, hentry, hlast, hle⟩ := id hblocked
  have hlive : entry.isExpired policy event.now = false := by
    rw [isExpired, hlast]
    simp only [Bool.and_eq_false_iff, decide_eq_false_iff_not]
    omega
  rw [ClientFailureBackoffPolicy.step]
  rw [KeepsBlock] at hkeeps
  cases hcall : event.call with
  | isBlocked =>
    by_cases hip : event.ip = ip
    · rw [hip, hblocked.isBlockedAt hpre]
      exact hblocked
    · refine hblocked.of_lookup ?_
      rw [ClientFailureBackoffPolicy.isBlockedAt]
      split
      · rfl
      split
      · rfl
      · apply lookup_update_other
        rw [lookup_insert_ite, if_neg (Ne.symm hip)]
  | recordSuccess =>
    rw [hcall] at hkeeps
    refine hblocked.of_lookup (lookup_update_other ?_)
    rw [lookup_erase_ite, if_neg (Ne.symm hkeeps)]
  | recordFailure =>
    rw [hcall] at hkeeps
    dsimp only at hkeeps ⊢
    split at hkeeps
    next hip =>
      rw [hip]
      rcases hkeeps with hone | ⟨hspares, found, hfound, hwindow⟩
      · exact ⟨_, _, lookup_recordFailureAt_self, fail_of_threshold_le_one hone, hsince⟩
      · obtain rfl : entry = found := some.inj (hentry.symm.trans hfound)
        have hget := @lookup_recordFailureAt_self policy hash order ip event.now shards
        rw [lookup_makeRoom_of_spares hentry hlive hspares, getD_some] at hget
        rcases fail_blockedUntil hwindow with hnew | hold
        · exact ⟨_, _, hget, hnew, hsince⟩
        · exact ⟨_, last, hget, hold.trans hlast, hle⟩
    next hip =>
      refine hblocked.of_lookup ?_
      rw [lookup_recordFailureAt_other hip]
      split
      next hshard => rw [lookup_makeRoom_of_spares hentry hlive (hkeeps hshard), hentry]
      · rfl

theorem not_blocked_step (hbreaks : ¬ policy.KeepsBlock hash order ip shards event) (now : Nat) :
    (policy.isBlockedAt hash (policy.step hash order shards event) ip now).2 = false := by
  apply not_isBlockedAt
  rw [KeepsBlock] at hbreaks
  rw [step]
  cases hcall : event.call with
  | isBlocked =>
    rw [hcall] at hbreaks
    exact absurd trivial hbreaks
  | recordSuccess =>
    rw [hcall] at hbreaks
    dsimp only at hbreaks ⊢
    rw [not_ne_iff.1 hbreaks, recordSuccess, update_self, lookup_erase_ite, if_pos rfl]
    rfl
  | recordFailure =>
    rw [hcall] at hbreaks
    dsimp only at hbreaks ⊢
    split at hbreaks
    next hip =>
      rw [not_or, not_and] at hbreaks
      obtain ⟨hmore, hbreaks⟩ := hbreaks
      rw [hip, lookup_recordFailureAt_self, bind_some, fail_fresh, if_neg hmore]
      by_cases hspares : policy.Spares order (shards (policy.shard hash ip)) ip event.now
      · cases hroom : (policy.makeRoom order (shards (policy.shard hash ip))
          event.now).lookup ip with
        | none => exact current_fresh
        | some entry =>
          rw [getD_some, current, if_neg]
          intro hwindow
          exact hbreaks hspares ⟨entry, lookup_of_makeRoom hroom, hwindow⟩
      · rw [lookup_makeRoom_of_evicts hspares]
        exact current_fresh
    next hip =>
      obtain ⟨hshard, hevicts⟩ := Classical.not_imp.1 hbreaks
      rw [lookup_recordFailureAt_other hip, if_pos hshard, lookup_makeRoom_of_evicts hevicts]
      rfl

/-- Once an address is blocked, and up to the end of the block, it is blocked
at every moment exactly if every call keeps the block. -/
theorem block_lasts_iff (policy : ClientFailureBackoffPolicy)
    (hash : IpAddr → Nat) (order : HashOrder IpAddr ClientFailureEntry)
    {start : FailureShards} {ip : IpAddr} {since : Nat}
    (hblocked : ((start (policy.shard hash ip)).lookup ip).bind
      ClientFailureEntry.blockedUntil = some (since + policy.blockDuration))
    (events : List { event : BackoffEvent //
      since ≤ event.now ∧ event.now < since + policy.blockDuration }) :
    Run.Meets (fun shards event => policy.step hash order shards event.1)
        (fun shards event => policy.KeepsBlock hash order ip shards event.1) start events ↔
      ∀ past, past <+: events → ∀ now, now < since + policy.blockDuration →
        (policy.isBlockedAt hash (Run.exec (fun shards event =>
          policy.step hash order shards event.1) start past) ip now).2 =
          true := by
  obtain ⟨entry, hentry, hending⟩ := bind_eq_some_iff.1 hblocked
  refine @Run.meets_iff_always _ _ _ _
    (fun shards => Blocked policy hash shards ip (since + policy.blockDuration))
    (fun shards => ∀ now, now < since + policy.blockDuration →
      (policy.isBlockedAt hash shards ip now).2 = true) ?_ ?_ ?_ start
    ⟨entry, _, hentry, hending, Nat.le_refl _⟩ events
  · intro shards hblocked now hnow
    rw [hblocked.isBlockedAt hnow]
  · intro shards event hblocked hkeeps
    exact hblocked.step (Nat.add_le_add_right event.2.1 _) event.2.2 hkeeps
  · intro shards event _ hbreaks halways
    have hblocked := halways event.1.now event.2.2
    rw [not_blocked_step hbreaks] at hblocked
    contradiction

theorem len_step (hlen : ∀ index, (shards index).len ≤ policy.maxEntriesPerShard) (index : Nat) :
    (policy.step hash order shards event index).len ≤ policy.maxEntriesPerShard := by
  have hupd : ∀ entries : HashMap IpAddr ClientFailureEntry,
      entries.len ≤ policy.maxEntriesPerShard →
      (update shards (policy.shard hash event.ip) entries index).len ≤
        policy.maxEntriesPerShard := by
    intro entries hentries
    rw [update_apply]
    split
    · exact hentries
    · exact hlen index
  rw [step]
  cases event.call with
  | recordFailure => exact hupd _ ((len_insert_le _ _ _).trans (len_makeRoom (hlen _)))
  | isBlocked =>
    dsimp only [isBlockedAt]
    split
    · exact hlen index
    split
    · exact hlen index
    next hlast _ =>
      obtain ⟨entry, hentry, -⟩ := bind_eq_some_iff.1 hlast
      refine hupd _ (le_trans ?_ (hlen (policy.shard hash event.ip)))
      refine Finset.card_le_card fun key hkey => ?_
      rw [mem_keys, mem_insert] at hkey
      rcases hkey with rfl | hkey
      · exact mem_keys.2 (mem_of_lookup_eq_some hentry)
      · exact mem_keys.2 hkey
  | recordSuccess =>
    refine hupd _ (le_trans ?_ (hlen (policy.shard hash event.ip)))
    rw [len, len, keys_erase]
    exact Finset.card_erase_le

end ClientFailureBackoffPolicy

namespace Sample

def attacker : IpAddr := .v4 0x01020304

def fails (ip : IpAddr) (now : Nat) : BackoffEvent := ⟨.recordFailure, ip, now⟩

def afterFailures (policy : ClientFailureBackoffPolicy)
    (events : List BackoffEvent) : FailureShards :=
  Run.exec (policy.step (fun _ => 0) Finmap.sortedOrder) (fun _ => ∅) events

end Sample

open Sample

/-- The blocked client asks and fails once more. -/
theorem ClientFailureBackoffPolicy.block_lasts_five_failures : (hysteria2.isBlockedAt (fun _ => 0)
      (hysteria2.step (fun _ => 0) sortedOrder (hysteria2.step (fun _ => 0) sortedOrder
        (afterFailures hysteria2 (List.replicate 4 (fails attacker 0)))
        ⟨.isBlocked, attacker, 5⟩) (fails attacker 10)) attacker 59999).2 = true := by
  have hlasts := @block_lasts_iff hysteria2 (fun _ => 0) sortedOrder
    (afterFailures hysteria2 (List.replicate 4 (fails attacker 0))) attacker 0 (by decide +kernel)
    [⟨⟨.isBlocked, attacker, 5⟩, by decide⟩, ⟨fails attacker 10, by decide⟩]
  refine hlasts.1 ⟨trivial, .inr ⟨.inl ?_, ?_⟩, trivial⟩ _ List.prefix_rfl 59999 (by decide)
  all_goals decide +kernel

/-- Four failures block the client for a minute; a fifth, half a minute later,
lets it in again. -/
theorem ClientFailureBackoffPolicy.failure_clears_block :
    let before := afterFailures hysteria2
      (List.replicate 4 (fails attacker 0))
    let after := hysteria2.recordFailureAt (fun _ => 0) Finmap.sortedOrder
      before attacker 30001
    (hysteria2.isBlockedAt (fun _ => 0) before attacker 30001).2 = true ∧
    (hysteria2.isBlockedAt (fun _ => 0) after attacker 30001).2 = false := by decide +kernel

/-- Every shard keeps to its bound, and a failure of an address in its window
counts on from its entry exactly if that is not the one to make room. -/
theorem ClientFailureBackoffPolicy.shards_bounded_and_counting_iff
    (policy : ClientFailureBackoffPolicy) (hash : IpAddr → Nat)
    (order : HashOrder IpAddr ClientFailureEntry) : (∀ (events : List BackoffEvent) (index : Nat),
      (Run.exec (policy.step hash order) (fun _ => ∅) events index).len ≤
        policy.maxEntriesPerShard) ∧
    ∀ (shards : FailureShards) (ip : IpAddr) (now : Nat) (entry : ClientFailureEntry),
      (shards (policy.shard hash ip)).lookup ip = some entry → entry.inWindow policy now = true →
      ((ip ∈ policy.makeRoom order (shards (policy.shard hash ip)) now ∧
          ∃ after, (policy.recordFailureAt hash order shards ip now
              (policy.shard hash ip)).lookup ip = some after ∧
            after.windowStarted = entry.windowStarted ∧ entry.failures ≤ after.failures) ↔
        policy.Spares order (shards (policy.shard hash ip)) ip now) := by
  constructor
  · intro events
    refine @Run.exec_always _ _ (policy.step hash order) (fun shards =>
      ∀ index, (shards index).len ≤ policy.maxEntriesPerShard) ?_ _ ?_ events
    · intro shards event hlen index
      exact len_step hlen index
    · intro index
      exact Nat.zero_le _
  · intro shards ip now entry hentry hwindow
    constructor
    · rintro ⟨hmem, -⟩
      by_contra hevicts
      rw [← lookup_isSome, lookup_makeRoom_of_evicts hevicts] at hmem
      contradiction
    · intro hspares
      have hroom := lookup_makeRoom_of_spares hentry (not_expired_of_inWindow hwindow) hspares
      refine ⟨mem_of_lookup_eq_some hroom, _, lookup_recordFailureAt_self, ?_, ?_⟩
      · rw [hroom, getD_some, fail_windowStarted, current, if_pos hwindow]
      · rw [hroom, getD_some, fail_failures, current, if_pos hwindow]
        rw [UInt32.le_iff_toNat_le, toNat_counted]
        exact Nat.le_min.2 ⟨Nat.le_succ _, Nat.le_of_lt_succ entry.failures.toNat_lt⟩

/-- In a shard for two, the second failure of a tracked client evicts its own
entry, and is counted as its first. -/
theorem ClientFailureBackoffPolicy.tracked_client_evicts_itself :
    let policy : ClientFailureBackoffPolicy :=
      { threshold := 3, window := 10000, blockDuration := 5000, maxEntries := 2 }
    let entry := fun events => (afterFailures policy events 0).lookup
      attacker
    let both := [fails attacker 0, fails (.v4 0x05060708) 1]
    (entry both).map ClientFailureEntry.failures = some 1 ∧
    (entry (both ++ [fails attacker 2])).map ClientFailureEntry.failures = some 1 ∧
    (entry [fails attacker 0, fails attacker 2]).map
      ClientFailureEntry.failures = some 2 := by decide +kernel

end KeliCore
