/-
The live user tables of the listeners.  Three shapes are in use: a store keyed
by text (with a shortcut for tables keyed by uuid), a map whose key may not
exist, and a plain list.  The byte-array keys of AnyTLS and TUIC are written in
hexadecimal, which keeps them apart.
-/
import KeliCore.Config
import KeliCore.HashMap
import Mathlib.Data.String.Basic

namespace KeliCore

open Text

abbrev UserOrder := HashOrder String CoreUser

/-- `hex_lower` and `format_uuid_compact`. -/
def hexLower (bytes : List UInt8) : String :=
  String.ofList (bytes.flatMap fun byte => [hexDigit (byte.toNat / 16), hexDigit (byte.toNat % 16)])
where
  hexDigit (value : Nat) : Char :=
    if value < 10 then Char.ofNat ('0'.toNat + value)
    else Char.ofNat ('a'.toNat + (value - 10))

def compactUuid (env : Externals) (uuid : String) : String :=
  String.ofList ((uuid.toList.filter (· != '-')).flatMap env.charToLowercase)

/-- `parse_uuid_bytes` of VMess and TUIC; the process aborts where a pair
starts inside a character, which is no key here. -/
def parseUuidBytes (uuid : String) : Option (List UInt8) :=
  let encoded := bytes (String.ofList (uuid.toList.filter (· != '-')))
  if encoded.length ≠ 32 then none else hexPairs encoded

def trojanPasswordHash (env : Externals) (password : String) : String :=
  hexLower (env.sha224 (bytes password))

/-- The AnyTLS key, `sha256` of the credential. -/
def anyTlsKey (env : Externals) (user : CoreUser) : String :=
  hexLower (env.sha256 (bytes user.credential))

def vmessUserKey (user : CoreUser) : Option String :=
  (parseUuidBytes user.uuid).map hexLower

/-- `parse_uuid_bytes(&user.uuid).ok()`, the TUIC key. -/
def tuicKey (user : CoreUser) : Option String :=
  (parseUuidBytes user.uuid).map hexLower

/-- The key under which a protocol's table holds a user, if it can. -/
def userKey (env : Externals) (protocol : Protocol) (user : CoreUser) : Option String :=
  match protocol with
  | .socks | .http | .naive | .shadowsocks | .mieru => some user.uuid
  | .vless => some (compactUuid env user.uuid)
  | .trojan => some (trojanPasswordHash env user.credential)
  | .hysteria2 => some user.credential
  | .anyTls => some (anyTlsKey env user)
  | .vmess => vmessUserKey user
  | .tuic => tuicKey user

/-- The users of a list that a table would consider at all. -/
def nonEmptyUsers (users : List CoreUser) : List CoreUser :=
  users.filter fun user => !user.isEmpty

def validVmessUsers (users : List CoreUser) : List CoreUser :=
  users.filter fun user => !user.isEmpty && (vmessUserKey user).isSome

def keyedUserState (key : CoreUser → String) (users : List CoreUser) : HashMap String CoreUser :=
  .collect ((nonEmptyUsers users).map fun user => (key user, user))

/-- The entries of a map whose key may not exist. -/
def keyedEntries {κ : Type} (key : CoreUser → Option κ)
    (users : List CoreUser) : List (κ × CoreUser) :=
  users.filterMap fun user => (key user).map fun key => (key, user)

def activeUserList (users : List CoreUser) : List CoreUser :=
  nonEmptyUsers users

/-- `active_user_vec`: the same users in uuid order. -/
def activeUserVec (users : List CoreUser) : List CoreUser :=
  (nonEmptyUsers users).insertionSort fun left right => left.uuid ≤ right.uuid

/-- A table on its way through a delta, with the counts so far. -/
abbrev Progress (τ : Type) := τ × CoreUserDeltaResult

/-- Run the three lists of a delta in source order, then count the users. -/
def runDelta {τ : Type} (onAdded onUpdated : Progress τ → CoreUser → Progress τ)
    (onDeleted : Progress τ → String → Progress τ) (table : τ)
    (delta : CoreUserDelta) : Progress τ :=
  delta.deleted.foldl onDeleted
    (delta.updated.foldl onUpdated (delta.added.foldl onAdded (table, {})))

def countAdded (result : CoreUserDeltaResult) (existed : Bool) :
    CoreUserDeltaResult :=
  if existed then { result with updated := result.updated + 1 }
  else { result with added := result.added + 1 }

def countUpdated (result : CoreUserDeltaResult) (existed : Bool) :
    CoreUserDeltaResult :=
  if existed then { result with updated := result.updated + 1 }
  else { result with missingUpdated := result.missingUpdated + 1 }

def countDeleted (result : CoreUserDeltaResult) (existed : Bool) :
    CoreUserDeltaResult :=
  if existed then { result with deleted := result.deleted + 1 }
  else { result with missingDeleted := result.missingDeleted + 1 }

namespace UuidMap

def onAdded (progress : Progress (HashMap String CoreUser)) (user : CoreUser) :
    Progress (HashMap String CoreUser) :=
  if user.isEmpty then progress
  else (progress.1.insert user.uuid user,
    countAdded progress.2 (progress.1.lookup user.uuid).isSome)

def onUpdated (progress : Progress (HashMap String CoreUser))
    (user : CoreUser) : Progress (HashMap String CoreUser) :=
  if user.isEmpty then progress
  else if (progress.1.lookup user.uuid).isSome then
    (progress.1.insert user.uuid user, countUpdated progress.2 true)
  else (progress.1, countUpdated progress.2 false)

def onDeleted (progress : Progress (HashMap String CoreUser)) (uuid : String) :
    Progress (HashMap String CoreUser) :=
  (progress.1.erase uuid, countDeleted progress.2 (progress.1.lookup uuid).isSome)

end UuidMap

def applyUuidLists (users : HashMap String CoreUser) (delta : CoreUserDelta) :
    Progress (HashMap String CoreUser) :=
  runDelta UuidMap.onAdded UuidMap.onUpdated UuidMap.onDeleted users delta

def applyUuidDelta (users : HashMap String CoreUser) (delta : CoreUserDelta) :
    Progress (HashMap String CoreUser) :=
  match delta.full with
  | some full =>
    let next := keyedUserState CoreUser.uuid full
    (next, { activeUsers := next.len, fullApplied := true })
  | none =>
    let applied := applyUuidLists users delta
    (applied.1, { applied.2 with activeUsers := applied.1.len })

/-- `remove_arc_user_by_uuid`: the first entry, in hash order, of a user with
this uuid. -/
def removeArcUserByUuid (order : UserOrder) (users : HashMap String CoreUser)
    (uuid : String) : Option (HashMap String CoreUser) :=
  let found := (order.iter users).findSome? fun entry =>
    if entry.2.uuid = uuid then some entry.1 else none
  found.map users.erase

namespace UserStore

variable (order : UserOrder) (key : CoreUser → String)

def onAdded (progress : Progress (HashMap String CoreUser)) (user : CoreUser) :
    Progress (HashMap String CoreUser) :=
  if user.isEmpty then progress
  else
    match removeArcUserByUuid order progress.1 user.uuid with
    | some rest => (rest.insert (key user) user, countAdded progress.2 true)
    | none => (progress.1.insert (key user) user, countAdded progress.2 false)

def onUpdated (progress : Progress (HashMap String CoreUser))
    (user : CoreUser) : Progress (HashMap String CoreUser) :=
  if user.isEmpty then progress
  else
    match removeArcUserByUuid order progress.1 user.uuid with
    | some rest => (rest.insert (key user) user, countUpdated progress.2 true)
    | none => (progress.1, countUpdated progress.2 false)

def onDeleted (progress : Progress (HashMap String CoreUser)) (uuid : String) :
    Progress (HashMap String CoreUser) :=
  match removeArcUserByUuid order progress.1 uuid with
  | some rest => (rest, countDeleted progress.2 true)
  | none => (progress.1, countDeleted progress.2 false)

end UserStore

def applyKeyedDelta (order : UserOrder) (key : CoreUser → String)
    (users : HashMap String CoreUser) (delta : CoreUserDelta) :
    Progress (HashMap String CoreUser) :=
  match delta.full with
  | some full =>
    let next := keyedUserState key full
    (next, { activeUsers := next.len, fullApplied := true })
  | none =>
    let applied := runDelta (UserStore.onAdded order key)
      (UserStore.onUpdated order key) (UserStore.onDeleted order) users delta
    (applied.1, { applied.2 with activeUsers := applied.1.len })

/-- A keyed map together with the side table from uuid to key that one delta
builds and throws away. -/
structure KeyedMap (κ : Type) where
  users : HashMap κ CoreUser
  uuidKeys : HashMap String κ

namespace KeyedMap

variable {κ : Type} [DecidableEq κ] (key : CoreUser → Option κ)

def onAdded (progress : Progress (KeyedMap κ)) (user : CoreUser) : Progress (KeyedMap κ) :=
  if user.isEmpty then progress
  else
    match key user with
    | none => progress
    | some key =>
      let map := progress.1
      let uuidKeys := map.uuidKeys.insert user.uuid key
      match map.uuidKeys.lookup user.uuid with
      | some oldKey =>
        (⟨(map.users.erase oldKey).insert key user, uuidKeys⟩, countAdded progress.2 true)
      | none => (⟨map.users.insert key user, uuidKeys⟩, countAdded progress.2 false)

def onUpdated (progress : Progress (KeyedMap κ)) (user : CoreUser) : Progress (KeyedMap κ) :=
  if user.isEmpty then progress
  else
    match key user with
    | none => (progress.1, countUpdated progress.2 false)
    | some key =>
      let map := progress.1
      match map.uuidKeys.lookup user.uuid with
      | some oldKey =>
        (⟨(map.users.erase oldKey).insert key user,
          map.uuidKeys.insert user.uuid key⟩, countUpdated progress.2 true)
      | none =>
        -- The source inserts the key and removes it again.
        (⟨map.users, (map.uuidKeys.insert user.uuid key).erase user.uuid⟩,
          countUpdated progress.2 false)

def onDeleted (progress : Progress (KeyedMap κ)) (uuid : String) : Progress (KeyedMap κ) :=
  let map := progress.1
  match map.uuidKeys.lookup uuid with
  | some key =>
    (⟨map.users.erase key, map.uuidKeys.erase uuid⟩,
      countDeleted progress.2 (map.users.lookup key).isSome)
  | none => (map, countDeleted progress.2 false)

end KeyedMap

def applyUserDeltaToKeyedArcMap {κ : Type} [DecidableEq κ]
    (order : HashOrder κ CoreUser) (key : CoreUser → Option κ)
    (users : HashMap κ CoreUser) (delta : CoreUserDelta) : Progress (HashMap κ CoreUser) :=
  match delta.full with
  | some full =>
    let next := .collect (keyedEntries key (nonEmptyUsers full))
    (next, { activeUsers := next.len, fullApplied := true })
  | none =>
    let uuidKeys := .collect ((order.iter users).map fun entry => (entry.2.uuid, entry.1))
    let applied := runDelta (KeyedMap.onAdded key)
      (KeyedMap.onUpdated key) KeyedMap.onDeleted ⟨users, uuidKeys⟩ delta
    (applied.1.users, { applied.2 with activeUsers := applied.1.users.len })

/-- `apply_user_delta_to_keyed_map`: the same code on users that are not
shared. -/
def applyUserDeltaToKeyedMap {κ : Type} [DecidableEq κ]
    (order : HashOrder κ CoreUser) (key : CoreUser → Option κ)
    (users : HashMap κ CoreUser) (delta : CoreUserDelta) : Progress (HashMap κ CoreUser) :=
  applyUserDeltaToKeyedArcMap order key users delta

/-- The users of a map in key order; the keys are their uuids. -/
def valuesInOrder (users : HashMap String CoreUser) : List CoreUser :=
  users.sortedKeys.filterMap users.lookup

def applyUserDeltaToVec (users : List CoreUser) (delta : CoreUserDelta) :
    Progress (List CoreUser) :=
  match delta.full with
  | some full =>
    let next := activeUserVec full
    (next, { activeUsers := next.length, fullApplied := true })
  | none =>
    let byUuid := keyedUserState CoreUser.uuid users
    let applied := applyUuidLists byUuid delta
    let next := valuesInOrder applied.1
    (next, { applied.2 with activeUsers := next.length })

/-- What changes the users of a running server. -/
inductive UserUpdate where
  | replaceUsers (users : List CoreUser)
  | applyUserDelta (delta : CoreUserDelta)

inductive UserTable where
  | keyed (users : HashMap String CoreUser)
  | listed (users : List CoreUser)
deriving DecidableEq

namespace UserTable

def Holds (table : UserTable) (user : CoreUser) : Prop :=
  match table with
  | keyed users => ∃ key, users.lookup key = some user
  | listed users => user ∈ users

def contains (table : UserTable) (user : CoreUser) : Bool :=
  match table with
  | keyed users => (users.retain fun _ held => held == user).len != 0
  | listed users => users.contains user

def HasUuid (table : UserTable) (uuid : String) : Prop :=
  ∃ user, table.Holds user ∧ user.uuid = uuid

/-- The table a starting listener builds, and the one `replace_users` stores. -/
def build (env : Externals) (protocol : Protocol) (users : List CoreUser) :
    UserTable :=
  match protocol with
  | .socks | .http | .naive => keyed (keyedUserState CoreUser.uuid users)
  | .vless => keyed (keyedUserState (fun user => compactUuid env user.uuid) users)
  | .trojan => keyed (keyedUserState (fun user => trojanPasswordHash env user.credential) users)
  | .hysteria2 => keyed (keyedUserState CoreUser.credential users)
  | .vmess =>
    keyed (keyedUserState (fun user => (vmessUserKey user).getD "") (validVmessUsers users))
  | .anyTls => keyed (keyedUserState (anyTlsKey env) users)
  | .tuic => keyed (.collect (keyedEntries tuicKey users))
  | .shadowsocks | .mieru => listed (activeUserList users)

def applyDelta (env : Externals) (order : UserOrder) (protocol : Protocol)
    (table : UserTable) (delta : CoreUserDelta) : Progress UserTable :=
  match table with
  | listed users => (applyUserDeltaToVec users delta).map listed id
  | keyed users =>
    Prod.map keyed id <|
      match protocol with
      | .vless => applyKeyedDelta order (fun user => compactUuid env user.uuid) users delta
      | .trojan =>
        applyKeyedDelta order (fun user => trojanPasswordHash env user.credential) users delta
      | .hysteria2 => applyKeyedDelta order CoreUser.credential users delta
      | .vmess => applyKeyedDelta order (fun user => (vmessUserKey user).getD "") users delta
      | .anyTls =>
        applyUserDeltaToKeyedArcMap order (fun user => some (anyTlsKey env user)) users delta
      | .tuic => applyUserDeltaToKeyedArcMap order tuicKey users delta
      | _ => applyUuidDelta users delta

end UserTable

end KeliCore
