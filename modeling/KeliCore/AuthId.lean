/-
The auth ids of VMess.  An auth id is a block under the key of its user; it
holds a timestamp and a checksum, is accepted while the timestamp is near the
wall clock, and is remembered for a while on the monotonic clock so that it is
not accepted again.
-/
import KeliCore.Bytes
import KeliCore.Retention

namespace KeliCore

open Retention

/-- AES-128 on one block and the CRC-32 of twelve bytes. -/
structure AuthIdCipher where
  decryptBlock : BitVec 128 → BitVec 128 → BitVec 128
  crc32 : BitVec 96 → BitVec 32

structure VmessAuthUser where
  userKey : String
  cmdKey : BitVec 128
  authIdKey : BitVec 128
deriving DecidableEq

def authIdWindowSeconds : Nat := 120

/-- `AUTH_ID_REPLAY_TTL`, in nanoseconds. -/
def authIdReplayTtl : Nat := 180 * 10 ^ 9

def permissionDenied (message : String) : IoError :=
  { kind := .permissionDenied, message }

section Match

variable (cipher : AuthIdCipher)

/-- `decode_auth_id`; the time is in seconds since the epoch. -/
def decodeAuthId (unixNow : Int) (authIdKey authId : BitVec 128) : Except IoError Bool :=
  let plain := cipher.decryptBlock authIdKey authId
  if plain.extractLsb' 0 32 ≠ cipher.crc32 (plain.extractLsb' 32 96) then
    .ok false
  else
    let timestamp := (plain.extractLsb' 64 64).toInt
    if timestamp < 0 then
      .error (permissionDenied "invalid vmess auth id timestamp")
    else if authIdWindowSeconds < (timestamp - unixNow).natAbs then
      .error (permissionDenied "vmess auth id timestamp is outside the accepted window")
    else .ok true

/-- The loop of `match_auth_id` over the users. -/
def findAuthUser (unixNow : Int) (authId : BitVec 128) :
    List VmessAuthUser → Except IoError (Option VmessAuthUser)
  | [] => .ok none
  | user :: users => do
      if ← decodeAuthId cipher unixNow user.authIdKey authId then
        .ok (some user)
      else findAuthUser unixNow authId users

def recordAuthId (now : Nat) (replay : HashMap (BitVec 128) Nat)
    (authId : BitVec 128) : HashMap (BitVec 128) Nat × Except IoError Unit :=
  let replay := replay.retain fun _ seenAt => now - seenAt ≤ authIdReplayTtl
  (replay.insert authId now,
    match replay.lookup authId with
    | some _ => .error (permissionDenied "replayed vmess auth id")
    | none => .ok ())

def matchAuthId (users : List VmessAuthUser) (unixNow : Int) (now : Nat)
    (replay : HashMap (BitVec 128) Nat) (authId : BitVec 128) :
    HashMap (BitVec 128) Nat × Except IoError VmessAuthUser :=
  match findAuthUser cipher unixNow authId users with
  | .error error => (replay, .error error)
  | .ok none => (replay, .error (permissionDenied "invalid vmess auth id"))
  | .ok (some user) =>
    let recorded := recordAuthId now replay authId
    (recorded.1, recorded.2.map fun _ => user)

/-- An auth id as it comes in: the users of that moment, the wall clock, and
how far the monotonic clock has moved on. -/
structure Presentation where
  authId : BitVec 128
  users : List VmessAuthUser
  unixNow : Int
  elapsed : Nat

/-- The replay map, the monotonic clock and the accepted auth ids after a
presentation. -/
def present (run : State (BitVec 128)) (presented : Presentation) : State (BitVec 128) :=
  let now := run.now + presented.elapsed
  let matched := matchAuthId cipher presented.users presented.unixNow now run.cache presented.authId
  { cache := matched.1
    now
    accepted :=
      match matched.2 with
      | .ok _ => presented.authId :: run.accepted
      | .error _ => run.accepted }

/-- What a presentation shows to the replay map: its auth id, if the timestamp
is in the window for a user. -/
def showing (presented : Presentation) : Showing (BitVec 128) where
  elapsed := presented.elapsed
  key :=
    match findAuthUser cipher presented.unixNow presented.authId presented.users with
    | .ok (some _) => some presented.authId
    | .ok none => none
    | .error _ => none

theorem present_eq_step (run : State (BitVec 128)) (presented : Presentation) :
    present cipher run presented = run.step authIdReplayTtl (showing cipher presented) := by
  unfold present matchAuthId State.step showing
  cases findAuthUser cipher presented.unixNow presented.authId presented.users with
  | error error => rfl
  | ok found =>
    cases found with
    | none => rfl
    | some user =>
      simp only [recordAuthId, kept]
      cases (run.cache.retain fun _ seenAt => decide (run.now + presented.elapsed - seenAt ≤
          authIdReplayTtl)).lookup presented.authId <;> rfl

end Match

/-- No auth id is accepted twice exactly if none is presented in its window
more than the retention time after it was last presented in its window. -/
theorem auth_ids_accepted_once_iff (cipher : AuthIdCipher) (presentations : List Presentation) :
    (Run.exec (present cipher) {} presentations).accepted.Nodup ↔
      Run.Meets Record.step (InTime authIdReplayTtl) {} (presentations.map (showing cipher)) := by
  have hrun : Run.exec (present cipher) {} presentations = Run.exec (State.step authIdReplayTtl) {}
        (presentations.map (showing cipher)) := by
    rw [Run.exec, Run.exec, List.foldl_map]
    congr 1
    funext run presented
    exact present_eq_step cipher run presented
  rw [hrun]
  exact accepted_nodup_iff authIdReplayTtl _

namespace Sample

/-- A cipher that does nothing, with the checksum zero. -/
def plainCipher : AuthIdCipher where
  decryptBlock _ block := block
  crc32 _ := 0

def authUser : VmessAuthUser := ⟨"alice", 0, 0⟩

def authIdAt1000 : BitVec 128 := 1000#128 <<< 64

/-- It is presented two minutes ahead of its time and two minutes after it, the
clocks in step. -/
def aheadAndBehind : List Presentation :=
  [⟨authIdAt1000, [authUser], 880, 0⟩, ⟨authIdAt1000, [authUser], 1120, 240 * 10 ^ 9⟩]

end Sample

/-- The window is four minutes wide, and the auth id is forgotten after
three. -/
theorem auth_id_accepted_twice :
    (Run.exec (present Sample.plainCipher) {} Sample.aheadAndBehind).accepted =
        [Sample.authIdAt1000, Sample.authIdAt1000] ∧
      ¬ (Run.exec (present Sample.plainCipher) {} Sample.aheadAndBehind).accepted.Nodup := by
  decide +kernel

section Others

/-- The auth id under this key has a checksum that is right, and a timestamp
that is not near the clock. -/
def Stale (cipher : AuthIdCipher) (unixNow : Int) (authId authIdKey : BitVec 128) : Prop :=
  let plain := cipher.decryptBlock authIdKey authId
  plain.extractLsb' 0 32 = cipher.crc32 (plain.extractLsb' 32 96) ∧
    ((plain.extractLsb' 64 64).toInt < 0 ∨
      authIdWindowSeconds < ((plain.extractLsb' 64 64).toInt - unixNow).natAbs)

variable {cipher : AuthIdCipher} {unixNow : Int} {authId : BitVec 128} {table : List VmessAuthUser}
  {user : VmessAuthUser}

theorem decodeAuthId_error_iff {authIdKey : BitVec 128} :
    (∃ error, decodeAuthId cipher unixNow authIdKey authId = .error error) ↔
      Stale cipher unixNow authId authIdKey := by
  rw [decodeAuthId, Stale]
  dsimp only
  split
  next hcrc => exact iff_of_false nofun fun hstale => hcrc hstale.1
  next hcrc =>
    split
    next hnegative => exact iff_of_true ⟨_, rfl⟩ ⟨not_not.1 hcrc, .inl hnegative⟩
    next hnegative =>
      split
      next hfar => exact iff_of_true ⟨_, rfl⟩ ⟨not_not.1 hcrc, .inr hfar⟩
      next hfar => exact iff_of_false nofun fun hstale => hstale.2.elim hnegative hfar

theorem decodeAuthId_of_found
    (hfound : findAuthUser cipher unixNow authId table = .ok (some user)) :
    decodeAuthId cipher unixNow user.authIdKey authId = .ok true := by
  induction table with
  | nil => simp [findAuthUser] at hfound
  | cons other table ih =>
    rw [findAuthUser] at hfound
    cases hdecode : decodeAuthId cipher unixNow other.authIdKey authId with
    | error error => simp [hdecode, bind, Except.bind] at hfound
    | ok taken =>
      rw [hdecode] at hfound
      cases taken with
      | true =>
        obtain rfl : other = user := by simpa [bind, Except.bind] using hfound
        exact hdecode
      | false => exact ih (by simpa [bind, Except.bind] using hfound)

/-- A login is accepted for a user if the scan finds it and the auth id is
new. -/
theorem matchAuthId_ok_iff {now : Nat} {replay : HashMap (BitVec 128) Nat} :
    (matchAuthId cipher table unixNow now replay authId).2 = .ok user ↔
      findAuthUser cipher unixNow authId table = .ok (some user) ∧
        (recordAuthId now replay authId).2 = .ok () := by
  rw [matchAuthId]
  cases findAuthUser cipher unixNow authId table with
  | error error => simp
  | ok found =>
    cases found with
    | none => simp
    | some taken =>
      dsimp only
      cases (recordAuthId now replay authId).2 with
      | error error | ok => simp [Except.map]

theorem findAuthUser_eq_iff {before after : List VmessAuthUser}
    (hfresh : decodeAuthId cipher unixNow user.authIdKey authId = .ok true)
    (hothers : ∀ other ∈ before, decodeAuthId cipher unixNow other.authIdKey authId ≠ .ok true) :
    findAuthUser cipher unixNow authId (before ++ user :: after) = .ok (some user) ↔
      ∀ other ∈ before, ¬ Stale cipher unixNow authId other.authIdKey := by
  induction before with
  | nil => simp [findAuthUser, hfresh, bind, Except.bind]
  | cons other before ih =>
    rw [List.forall_mem_cons] at hothers ⊢
    rw [← decodeAuthId_error_iff, List.cons_append, findAuthUser]
    cases hdecode : decodeAuthId cipher unixNow other.authIdKey authId with
    | error error => simp [bind, Except.bind]
    | ok taken =>
      cases taken with
      | true => exact absurd hdecode hothers.1
      | false => simpa [bind, Except.bind] using ih hothers.2

/-- An auth id that is accepted for a user in one table is accepted for it in
any other in which no user before it takes the auth id as its own, exactly if
to none of those it is stale. -/
theorem fresh_auth_id_accepted_iff (table before after : List VmessAuthUser)
    (user : VmessAuthUser) (now : Nat) (replay : HashMap (BitVec 128) Nat)
    (halone : (matchAuthId cipher table unixNow now replay authId).2 = .ok user)
    (hothers : ∀ other ∈ before, decodeAuthId cipher unixNow other.authIdKey authId ≠ .ok true) :
    (matchAuthId cipher (before ++ user :: after) unixNow now replay authId).2 = .ok user ↔
      ∀ other ∈ before, ¬ Stale cipher unixNow authId other.authIdKey := by
  obtain ⟨hfound, hnew⟩ := matchAuthId_ok_iff.1 halone
  rw [matchAuthId_ok_iff, and_iff_left hnew]
  exact findAuthUser_eq_iff (decodeAuthId_of_found hfound) hothers

end Others

namespace Sample

/-- Decrypting adds the key. -/
def addingCipher : AuthIdCipher where
  decryptBlock key block := block + key
  crc32 _ := 0

/-- Under this key an auth id of second 1000 reads as one of second 1500. -/
def bystander : VmessAuthUser := ⟨"bystander", 0, 500#128 <<< 64⟩

/-- Under this one its checksum is wrong. -/
def stranger : VmessAuthUser := ⟨"stranger", 0, 1⟩

end Sample

open Sample

theorem fresh_auth_id_accepted_second :
    (matchAuthId addingCipher ([stranger] ++ authUser :: [bystander]) 1000 0 ∅
      authIdAt1000).2 = .ok authUser :=
  (fresh_auth_id_accepted_iff [authUser] [stranger] [bystander] authUser 0 ∅
    (by decide +kernel) (by decide +kernel)).2 (by simp only [Stale]; decide +kernel)

/-- Before the user stands one to whom the auth id has a right checksum and an
old timestamp, and the login fails. -/
theorem bystander_fails_login :
    (matchAuthId addingCipher [authUser] 1000 0 ∅ authIdAt1000).2 =
        .ok authUser ∧
      (matchAuthId addingCipher [bystander, authUser] 1000 0 ∅
        authIdAt1000).2 = .error
          (permissionDenied "vmess auth id timestamp is outside the accepted window") := by
  decide +kernel

end KeliCore
