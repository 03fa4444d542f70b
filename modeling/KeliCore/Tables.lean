/-
The table of a listener refines the abstract table of users by uuid: the one a
start builds, and the one a delta leaves.  The lists of Shadowsocks and Mieru
refine it up to order.
-/
import KeliCore.TableSpec
import KeliCore.Service

namespace KeliCore

open Finmap KeyedIndex UsersByUuid List Bool

variable {key : CoreUser → Option String} {listed list : List CoreUser} {uuid : String}
  {user : CoreUser} {env : Externals} {protocol : Protocol} {users : HashMap String CoreUser}
  {delta : CoreUserDelta}

section Lookup

variable {users : HashMap String CoreUser}

theorem lookup_ofList_cases (hget : (ofList key listed).lookup uuid = some user) :
    user ∈ takenUsers key listed ∧ user.uuid = uuid := by
  rcases lookup_extend_cases hget with hmem | hempty
  · obtain ⟨found, hfound, heq⟩ := mem_map.1 hmem
    cases heq
    exact ⟨hfound, rfl⟩
  · simp at hempty

theorem lookup_foldl_cases {change : HashMap String CoreUser → CoreUser → HashMap String CoreUser}
    (hchange : ∀ users found uuid other, (change users found).lookup uuid = some other →
        users.lookup uuid = some other ∨ other = found ∧ other.uuid = uuid) {listed : List CoreUser}
    (hget : (listed.foldl change users).lookup uuid = some user) :
    users.lookup uuid = some user ∨ user ∈ listed ∧ user.uuid = uuid := by
  induction listed generalizing users with
  | nil => exact .inl hget
  | cons first rest ih =>
    rcases ih hget with hpre | ⟨hmem, huuid⟩
    · rcases hchange users first uuid user hpre with hpre | ⟨rfl, huuid⟩
      · exact .inl hpre
      · exact .inr ⟨mem_cons_self, huuid⟩
    · exact .inr ⟨.tail _ hmem, huuid⟩

variable {found : CoreUser}

theorem lookup_add_cases (hget : (add users found).lookup uuid = some user) :
    users.lookup uuid = some user ∨ user = found ∧ user.uuid = uuid := by
  rw [add, lookup_insert_ite] at hget
  split at hget
  next huuid =>
    cases hget
    exact .inr ⟨rfl, huuid.symm⟩
  · exact .inl hget

theorem lookup_update_cases (hget : (update users found).lookup uuid = some user) :
    users.lookup uuid = some user ∨ user = found ∧ user.uuid = uuid := by
  unfold update at hget
  split at hget
  · exact lookup_add_cases hget
  · exact .inl hget

def listedUsers (delta : CoreUserDelta) : List CoreUser :=
  delta.full.getD (delta.added ++ delta.updated)

theorem takenUsers_append (first second : List CoreUser) :
    takenUsers key (first ++ second) = takenUsers key first ++ takenUsers key second :=
  filter_append first second

theorem lookup_next_cases {key : CoreUser → Option String} {delta : CoreUserDelta} {uuid : String}
    {user : CoreUser} (hget : (next key users delta).lookup uuid = some user) :
    users.lookup uuid = some user ∨
      user ∈ takenUsers key (listedUsers delta) ∧ user.uuid = uuid := by
  unfold UsersByUuid.next at hget
  unfold listedUsers
  cases hfull : delta.full with
  | some full =>
    rw [hfull] at hget
    exact .inr (lookup_ofList_cases hget)
  | none =>
    rw [hfull] at hget
    rw [lookup_eraseAll] at hget
    split at hget
    · contradiction
    · rw [Option.getD_none, takenUsers_append, mem_append]
      rcases lookup_foldl_cases (fun _ _ _ _ => lookup_update_cases) hget
        with hadded | ⟨hmem, huuid⟩
      · rcases lookup_foldl_cases (fun _ _ _ _ => lookup_add_cases) hadded
          with hpre | ⟨hmem, huuid⟩
        · exact .inl hpre
        · exact .inr ⟨.inl hmem, huuid⟩
      · exact .inr ⟨.inr hmem, huuid⟩

end Lookup

/-- Shadowsocks and Mieru keep their users in a list. -/
def Protocol.keepsList : Protocol → Bool
  | .shadowsocks | .mieru => true
  | _ => false

/-- The list holds the users of the abstract table, each once. -/
structure ListRefines (users : HashMap String CoreUser) (listed : List CoreUser) : Prop where
  own : ∀ uuid user, users.lookup uuid = some user → user.uuid = uuid
  mem : ∀ user, user ∈ listed ↔ users.lookup user.uuid = some user
  nodup : (listed.map CoreUser.uuid).Nodup

def UserTable.Files (env : Externals) (protocol : Protocol)
    (users : HashMap String CoreUser) : UserTable → Prop
  | .keyed filed => protocol.keepsList = false ∧
      Represents CoreUser.uuid (userKey env protocol) users filed
  | .listed list => protocol.keepsList = true ∧ ListRefines users list

structure UserTable.Refines (env : Externals) (protocol : Protocol)
    (users : HashMap String CoreUser) (table : UserTable) : Prop where
  files : table.Files env protocol users
  nonEmpty : ∀ uuid user, users.lookup uuid = some user → user.isEmpty = false

/-- A list that names each user once: no uuid with two keys, no key with two
uuids, and no uuid twice where the table is a list. -/
structure ListsEachOnce (env : Externals) (protocol : Protocol)
    (listed : List CoreUser) : Prop where
  keys : Unambiguous (userKey env protocol) listed
  uuids : protocol.keepsList = true → ((nonEmptyUsers listed).map CoreUser.uuid).Nodup

section Filed

variable {key : CoreUser → Option String}

def filedUsers (key : CoreUser → Option String) (listed : List CoreUser) :
    HashMap String CoreUser :=
  .collect ((takenUsers key listed).map fun user => ((key user).getD "", user))

theorem storeKey_getD (hkey : (key user).isSome = true) : key user = some ((key user).getD "") := by
  obtain ⟨place, hplace⟩ := Option.isSome_iff_exists.1 hkey
  rw [hplace, Option.getD_some]

theorem represents_filedUsers (hkeys : Unambiguous key listed) :
    Represents CoreUser.uuid key (ofList key listed) (filedUsers key listed) := by
  apply represents_extend _ (by simp) hkeys .empty
  intro user hmem
  exact storeKey_getD (mem_takenUsers.1 hmem).2.2

theorem takenUsers_eq_nonEmptyUsers (hkeyed : ∀ user ∈ listed, user.isEmpty = false →
      (key user).isSome = true) : takenUsers key listed = nonEmptyUsers listed := by
  apply filter_congr
  intro user hmem
  cases hempty : user.isEmpty with
  | true => rfl
  | false => simp [hkeyed user hmem hempty]

theorem takenUsers_uuid (listed : List CoreUser) :
    takenUsers (fun user => some user.uuid) listed = nonEmptyUsers listed :=
  takenUsers_eq_nonEmptyUsers fun _ _ _ => rfl

theorem takenUsers_nonEmptyUsers (listed : List CoreUser) :
    takenUsers key (nonEmptyUsers listed) = takenUsers key listed := by
  unfold takenUsers nonEmptyUsers
  rw [filter_filter]
  apply filter_congr
  intro user _
  cases user.isEmpty <;> simp

theorem keyedUserState_eq {listed : List CoreUser} {storeKey : CoreUser → String}
    (hstore : ∀ user ∈ listed, user.isEmpty = false →
      key user = some (storeKey user)) :
    keyedUserState storeKey listed = filedUsers key listed := by
  have htaken : takenUsers key listed = nonEmptyUsers listed := by
    apply takenUsers_eq_nonEmptyUsers
    intro user hmem hempty
    rw [hstore user hmem hempty]
    rfl
  unfold keyedUserState filedUsers
  rw [htaken]
  congr 1
  apply map_congr_left
  intro user hmem
  obtain ⟨hlisted, hempty⟩ := mem_filter.1 hmem
  rw [hstore user hlisted (by simpa using hempty), Option.getD_some]

theorem collect_keyedEntries_eq (hnonempty : ∀ user ∈ listed, user.isEmpty = false) :
    .collect (keyedEntries key listed) = filedUsers key listed := by
  have hentries : keyedEntries key listed =
      (takenUsers key listed).map fun user => ((key user).getD "", user) := by
    induction listed with
    | nil => rfl
    | cons user rest ih =>
      have hrest := ih fun other hother => hnonempty other (.tail _ hother)
      have huser := hnonempty user mem_cons_self
      unfold keyedEntries takenUsers at hrest ⊢
      cases hkey : key user <;> simp [huser, hkey, hrest]
  rw [hentries, filedUsers]

theorem filedUsers_congr {other : List CoreUser}
    (htaken : takenUsers key listed = takenUsers key other) :
    filedUsers key listed = filedUsers key other := by rw [filedUsers, htaken, filedUsers]

theorem takenUsers_takenUsers {listed : List CoreUser} :
    takenUsers key (takenUsers key listed) = takenUsers key listed := by
  simp [takenUsers, filter_filter]

/-- VMess leaves the users without a key out before it files the rest. -/
theorem keyedUserState_vmess (listed : List CoreUser) :
    keyedUserState (fun user => (vmessUserKey user).getD "")
      (validVmessUsers listed) = filedUsers vmessUserKey listed := by
  rw [@keyedUserState_eq vmessUserKey]
  · exact filedUsers_congr takenUsers_takenUsers
  · intro user hmem _
    apply storeKey_getD
    have hboth := (mem_filter.1 hmem).2
    rw [and_eq_true] at hboth
    exact hboth.2

theorem listRefines_of_perm (hperm : list.Perm (nonEmptyUsers listed))
    (huuids : ((nonEmptyUsers listed).map CoreUser.uuid).Nodup) :
    ListRefines (ofList (fun user => some user.uuid) listed) list where
  own uuid user hget := (lookup_ofList_cases hget).2
  mem user := by
    rw [hperm.mem_iff]
    constructor
    · intro hmem
      apply lookup_collect_of_mem
      · simpa [uuidEntries, takenUsers_uuid, Function.comp_def] using huuids
      · rw [takenUsers_uuid]
        exact mem_map_of_mem hmem
    · intro hget
      rw [← takenUsers_uuid]
      exact (lookup_ofList_cases hget).1
  nodup := (hperm.map CoreUser.uuid).nodup_iff.2 huuids

end Filed

variable {table : UserTable}

namespace UserTable

variable {listed : List CoreUser}

/-- The table of a whole list: its users filed under their keys, or the list
itself in some order. -/
inductive OfList (env : Externals) (protocol : Protocol) (listed : List CoreUser) : UserTable → Prop
  | keyed (hkeyed : protocol.keepsList = false) :
      OfList env protocol listed (.keyed (filedUsers (userKey env protocol) listed))
  | listed {list : List CoreUser} (hkeeps : protocol.keepsList = true)
      (hperm : list.Perm (nonEmptyUsers listed)) : OfList env protocol listed (.listed list)

theorem build_ofList {env : Externals} {protocol : Protocol}
    (hnonempty : ∀ user ∈ listed, user.isEmpty = false) :
    OfList env protocol listed (build env protocol listed) := by
  have hkeyed : ∀ {protocol filed}, protocol.keepsList = false →
      filed = filedUsers (userKey env protocol) listed →
        OfList env protocol listed (.keyed filed) :=
    fun hkeeps heq => heq ▸ .keyed hkeeps
  cases protocol with
  | socks | http | naive | vless | trojan | hysteria2 | anyTls =>
    exact hkeyed rfl (keyedUserState_eq fun _ _ _ => rfl)
  | vmess => exact hkeyed rfl (keyedUserState_vmess listed)
  | tuic => exact hkeyed rfl (collect_keyedEntries_eq hnonempty)
  | shadowsocks | mieru => exact .listed rfl (List.Perm.refl _)

theorem OfList.refines (hlist : OfList env protocol listed table)
    (honce : ListsEachOnce env protocol listed) :
    table.Refines env protocol (ofList (userKey env protocol) listed) where
  files := by
    cases hlist with
    | keyed hkeeps => exact ⟨hkeeps, represents_filedUsers honce.keys⟩
    | @listed list hkeeps hperm =>
      have hrefines := listRefines_of_perm hperm (honce.uuids hkeeps)
      cases protocol with
      | shadowsocks | mieru => exact ⟨rfl, hrefines⟩
      | _ => exact absurd hkeeps false_ne_true
  nonEmpty _ _ hget := (mem_takenUsers.1 (lookup_ofList_cases hget).1).2.1

theorem Refines.holds_iff (hrefines : table.Refines env protocol users) (user : CoreUser) :
    table.Holds user ↔ users.lookup user.uuid = some user := by
  have hfiles := hrefines.files
  cases table with
  | keyed filed =>
    obtain ⟨-, hrepresents⟩ := hfiles
    constructor
    · rintro ⟨place, hplace⟩
      exact ((hrepresents.places place user).1 hplace).1
    · intro hget
      obtain ⟨place, -, hplace⟩ := hrepresents.exists_place hget
      exact ⟨place, hplace⟩
  | listed list => exact hfiles.2.mem user

theorem Refines.own
    (hrefines : table.Refines env protocol users) (hget : users.lookup uuid = some user) :
    user.uuid = uuid := by
  have hfiles := hrefines.files
  cases table with
  | keyed filed | listed list => exact hfiles.2.own uuid user hget

theorem Refines.keyed
    (hrefines : table.Refines env protocol users) (hget : users.lookup uuid = some user) :
    (userKey env protocol user).isSome = true := by
  have hfiles := hrefines.files
  cases table with
  | keyed filed => exact hfiles.2.keyed uuid user hget
  | listed list =>
    have hkeeps := hfiles.1
    cases protocol with
    | shadowsocks | mieru => rfl
    | _ => exact absurd hkeeps false_ne_true

theorem Refines.unique {other : UserTable} (htable : table.Refines env protocol users)
    (hother : other.Refines env protocol users) :
    table = other ∨ ∃ first second, table = .listed first ∧
      other = .listed second ∧ first.Perm second := by
  have hfiles := htable.files
  have hothers := hother.files
  cases table with
  | keyed filed =>
    cases other with
    | keyed others => exact .inl (congrArg UserTable.keyed (hfiles.2.unique hothers.2))
    | listed second => exact absurd (hfiles.1.symm.trans hothers.1) false_ne_true
  | listed first =>
    cases other with
    | keyed others => exact absurd (hothers.1.symm.trans hfiles.1) false_ne_true
    | listed second =>
      refine .inr ⟨first, second, rfl, rfl, ?_⟩
      rw [perm_ext_iff_of_nodup (hfiles.2.nodup.of_map _) (hothers.2.nodup.of_map _)]
      intro user
      rw [hfiles.2.mem, hothers.2.mem]

theorem Refines.hasUuid_iff (hrefines : table.Refines env protocol users) (uuid : String) :
    table.HasUuid uuid ↔ (users.lookup uuid).isSome = true := by
  constructor
  · rintro ⟨user, hholds, rfl⟩
    rw [(hrefines.holds_iff user).1 hholds]
    rfl
  · intro hsome
    obtain ⟨user, hget⟩ := Option.isSome_iff_exists.1 hsome
    have hown := hrefines.own hget
    exact ⟨user, (hrefines.holds_iff user).2 (hown ▸ hget), hown⟩

end UserTable

theorem represents_uuid_iff {filed : HashMap String CoreUser} :
    Represents CoreUser.uuid (fun user => some user.uuid) users filed ↔ filed = users ∧
        ∀ uuid user, users.lookup uuid = some user → user.uuid = uuid := by
  constructor
  · intro hrepresents
    refine ⟨?_, hrepresents.own⟩
    apply ext_lookup
    intro uuid
    ext user
    rw [hrepresents.places]
    constructor
    · rintro ⟨hget, huuid⟩
      rwa [Option.some.inj huuid] at hget
    · intro hget
      have hown := hrepresents.own uuid user hget
      exact ⟨hown.symm ▸ hget, congrArg some hown⟩
  · rintro ⟨rfl, hown⟩
    refine ⟨hown, fun _ _ _ => rfl, fun place user => ?_⟩
    constructor
    · intro hget
      have huuid := hown place user hget
      exact ⟨huuid.symm ▸ hget, congrArg some huuid⟩
    · rintro ⟨hget, huuid⟩
      rwa [Option.some.inj huuid] at hget

theorem own_next (hown : ∀ uuid user, users.lookup uuid = some user → user.uuid = uuid)
    (hget : (next key users delta).lookup uuid = some user) : user.uuid = uuid := by
  rcases lookup_next_cases hget with hpre | ⟨-, huuid⟩
  · exact hown uuid user hpre
  · exact huuid

theorem listRefines_valuesInOrder
    (hown : ∀ uuid user, users.lookup uuid = some user → user.uuid = uuid) :
    ListRefines users (valuesInOrder users) where
  own := hown
  mem user := by
    unfold valuesInOrder
    rw [mem_filterMap]
    constructor
    · rintro ⟨uuid, -, hget⟩
      rwa [hown uuid user hget]
    · intro hget
      exact ⟨user.uuid, (mem_sortedKeys _ _).2 (mem_of_lookup_eq_some hget), hget⟩
  nodup := by
    have huuids : (valuesInOrder users).map CoreUser.uuid = users.sortedKeys := by
      unfold valuesInOrder
      rw [map_filterMap]
      conv_rhs => rw [← filterMap_some (l := users.sortedKeys)]
      apply filterMap_congr
      intro uuid hmem
      obtain ⟨user, hget⟩ := Option.isSome_iff_exists.mp
        (lookup_isSome.2 ((mem_sortedKeys _ _).1 hmem))
      rw [hget, Option.map_some, hown uuid user hget]
    rw [huuids]
    exact nodup_sortedKeys users

theorem ListRefines.keyedUserState
    (hlist : ListRefines users list) (hnonempty : ∀ uuid user, users.lookup uuid = some user →
      user.isEmpty = false) : keyedUserState CoreUser.uuid list = users := by
  have hall : nonEmptyUsers list = list := by
    apply filter_eq_self.mpr
    intro user hmem
    rw [hnonempty _ user ((hlist.mem user).1 hmem)]
    rfl
  have hstate : ListRefines (ofList (fun user => some user.uuid) list) list :=
    listRefines_of_perm (by rw [hall]) (hall.symm ▸ hlist.nodup)
  have hofList : KeliCore.keyedUserState CoreUser.uuid list =
      ofList (fun user => some user.uuid) list := by
    rw [ofList, takenUsers_uuid]
    rfl
  rw [hofList]
  apply ext_lookup
  intro uuid
  ext user
  constructor
  · intro hget
    have huuid := hstate.own uuid user hget
    subst huuid
    exact (hlist.mem user).1 ((hstate.mem user).2 hget)
  · intro hget
    have huuid := hlist.own uuid user hget
    subst huuid
    exact (hstate.mem user).1 ((hlist.mem user).2 hget)

/-- A delta that keeps users apart: a full snapshot names each user once, and
the users of an incremental one have keys that neither each other nor another
user of the table has. -/
structure KeepsApart (env : Externals) (protocol : Protocol)
    (table : UserTable) (delta : CoreUserDelta) : Prop where
  full : ∀ full, delta.full = some full → ListsEachOnce env protocol full
  lists : delta.full = none → DistinctKeys (userKey env protocol) fun user =>
    table.Holds user ∨ user ∈ namedUsers (userKey env protocol) delta

/-- A delta without users that have no key; only VMess asks for it. -/
def Keyable (env : Externals) (protocol : Protocol) (delta : CoreUserDelta) :
    Prop :=
  protocol = .vmess → ∀ user ∈ listedUsers delta, user.isEmpty = false →
    (userKey env protocol user).isSome = true

section Delta

variable {env : Externals}
    {users filed : HashMap String CoreUser} {delta : CoreUserDelta}

theorem follows_of_represents {key : CoreUser → Option String}
    (hrepresents : Represents CoreUser.uuid key users filed) :
    Follows key (fun user => (∃ place, filed.lookup place = some user) ∨
      user ∈ namedUsers key delta) users filed where
  represents := hrepresents
  known uuid user hget := by
    obtain ⟨place, -, hplace⟩ := hrepresents.exists_place hget
    exact .inl ⟨place, hplace⟩

theorem listRefines_applyUserDeltaToVec (hlist : ListRefines users list)
    (hnonempty : ∀ uuid user, users.lookup uuid = some user →
      user.isEmpty = false) (hfull : delta.full = none) :
    ListRefines (next (fun user => some user.uuid) users delta)
      (applyUserDeltaToVec list delta).1 := by
  unfold applyUserDeltaToVec
  rw [hfull]
  dsimp only
  rw [hlist.keyedUserState hnonempty, applyUuidLists_eq _ hfull]
  exact listRefines_valuesInOrder fun uuid user => own_next hlist.own

namespace UserTable

def HasShape (protocol : Protocol) : UserTable → Prop
  | .keyed _ => protocol.keepsList = false
  | .listed _ => protocol.keepsList = true

theorem applyDelta_full {full : List CoreUser} {order : UserOrder}
    (hshape : table.HasShape protocol) (hfull : delta.full = some full)
    (hkeyable : Keyable env protocol delta) :
    OfList env protocol full (table.applyDelta env order protocol delta).1 := by
  cases table with
  | listed list =>
    refine .listed hshape ?_
    rw [hfull]
    exact perm_insertionSort _ _
  | keyed filed =>
    have hkeyed : ∀ {protocol after}, protocol.keepsList = false →
        after = filedUsers (userKey env protocol) full → OfList env protocol full (.keyed after) :=
      fun hkeeps heq => heq ▸ .keyed hkeeps
    have hmap : ∀ key, (applyUserDeltaToKeyedArcMap order key filed delta).1 =
        filedUsers key full := by
      intro key
      unfold applyUserDeltaToKeyedArcMap
      rw [hfull]
      exact (collect_keyedEntries_eq (by simp [nonEmptyUsers])).trans
        (filedUsers_congr (takenUsers_nonEmptyUsers full))
    unfold Keyable listedUsers at hkeyable
    rw [hfull] at hkeyable
    unfold applyDelta applyKeyedDelta applyUuidDelta
    cases protocol with
    | shadowsocks | mieru => exact absurd hshape.symm false_ne_true
    | socks | http | naive | vless | trojan | hysteria2 =>
      rw [hfull]
      exact hkeyed rfl (keyedUserState_eq fun _ _ _ => rfl)
    | vmess =>
      rw [hfull]
      exact hkeyed rfl (keyedUserState_eq fun user hmem hempty =>
        storeKey_getD (hkeyable rfl user hmem hempty))
    | anyTls | tuic => exact hkeyed rfl (hmap _)

end UserTable

theorem UserTable.Files.hasShape
    (hfiles : table.Files env protocol users) : table.HasShape protocol := by
  cases table with
  | keyed filed | listed list => exact hfiles.1

theorem UserTable.Files.applyLists {protocol : Protocol} {order : UserOrder}
    {table : UserTable} (hrefines : table.Refines env protocol users)
    (hkeyable : Keyable env protocol delta) (hfull : delta.full = none)
    (hkeys : DistinctKeys (userKey env protocol) fun user =>
      table.Holds user ∨ user ∈ namedUsers (userKey env protocol) delta) :
    (table.applyDelta env order protocol delta).1.Files env protocol
      (next (userKey env protocol) users delta) := by
  have hfiles := hrefines.files
  cases table with
  | listed list =>
    obtain ⟨hkeeps, hlist⟩ := hfiles
    have hvec := listRefines_applyUserDeltaToVec hlist hrefines.nonEmpty hfull
    cases protocol with
    | shadowsocks | mieru => exact ⟨rfl, hvec⟩
    | _ => exact absurd hkeeps false_ne_true
  | keyed filed =>
    obtain ⟨hkeeps, hrepresents⟩ := hfiles
    have hnamed : ∀ user ∈ namedUsers (userKey env protocol) delta,
        (∃ place, filed.lookup place = some user) ∨
          user ∈ namedUsers (userKey env protocol) delta :=
      fun user hmem => .inr hmem
    have hfollows := @follows_of_represents _ _ delta _ hrepresents
    unfold Keyable listedUsers at hkeyable
    rw [hfull] at hkeyable
    cases protocol with
    | shadowsocks | mieru => exact absurd hkeeps.symm false_ne_true
    | socks | http | naive =>
      unfold UserTable.applyDelta applyUuidDelta
      rw [hfull]
      obtain ⟨rfl, hown⟩ := represents_uuid_iff.1 hrepresents
      exact ⟨rfl, represents_uuid_iff.2 ⟨applyUuidLists_eq _ hfull, fun _ _ => own_next hown⟩⟩
    | vless | trojan | hysteria2 =>
      exact ⟨rfl, (hfollows.store_delta hkeys hfull (fun _ _ _ => rfl) hnamed).represents⟩
    | vmess =>
      exact ⟨rfl, (hfollows.store_delta hkeys hfull (fun user hmem hempty =>
          storeKey_getD (hkeyable rfl user hmem hempty))
        hnamed).represents⟩
    | anyTls | tuic => exact ⟨rfl, (hfollows.map_delta hkeys hfull hnamed order).represents⟩

theorem UserTable.Refines.applyDelta {protocol : Protocol} {order : UserOrder} {table : UserTable}
    (hrefines : table.Refines env protocol users) (hkeyable : Keyable env protocol delta)
    (hapart : KeepsApart env protocol table delta) :
    (table.applyDelta env order protocol delta).1.Refines env protocol
      (next (userKey env protocol) users delta) := by
  cases hfull : delta.full with
  | some full =>
    unfold UsersByUuid.next
    rw [hfull]
    exact (applyDelta_full hrefines.files.hasShape hfull hkeyable).refines (hapart.full full hfull)
  | none =>
    refine ⟨.applyLists hrefines hkeyable hfull (hapart.lists hfull), ?_⟩
    intro uuid user hget
    rcases lookup_next_cases hget with hpre | ⟨htaken, -⟩
    · exact hrefines.nonEmpty uuid user hpre
    · exact (mem_takenUsers.1 htaken).2.1

end Delta

namespace ListenerHandle

variable {handle : ListenerHandle}

/-- The users VMess drops are users that its table does not take. -/
theorem takenUsers_limitedUsers {env : Externals} (listed : List CoreUser) :
    takenUsers (userKey env handle.status.protocol) (handle.limitedUsers listed) =
      takenUsers (userKey env handle.status.protocol) listed := by
  unfold limitedUsers
  split
  next hvmess =>
    rw [hvmess]
    exact @takenUsers_takenUsers vmessUserKey listed
  · rfl

theorem next_limitedDelta (users : HashMap String CoreUser) (delta : CoreUserDelta) :
    next (userKey env handle.status.protocol) users (handle.limitedDelta delta) =
      next (userKey env handle.status.protocol) users delta := by
  unfold UsersByUuid.next limitedDelta
  cases delta.full with
  | some full => simp only [Option.map_some, ofList, takenUsers_limitedUsers]
  | none => simp only [Option.map_none, takenUsers_limitedUsers]

theorem keyable_limitedDelta (delta : CoreUserDelta) :
    Keyable env handle.status.protocol (handle.limitedDelta delta) := by
  intro hvmess user hmem _
  have hvalid : ∀ listed, user ∈ handle.limitedUsers listed →
      (userKey env handle.status.protocol user).isSome = true := by
    intro listed huser
    rw [limitedUsers, if_pos hvmess, validVmessUsers] at huser
    rw [hvmess]
    have hboth := (mem_filter.1 huser).2
    rw [and_eq_true] at hboth
    exact hboth.2
  unfold listedUsers limitedDelta at hmem
  cases hfull : delta.full with
  | some full =>
    rw [hfull] at hmem
    exact hvalid full hmem
  | none =>
    rw [hfull] at hmem
    exact (mem_append.1 hmem).elim (hvalid _) (hvalid _)

theorem namedUsers_limitedDelta (delta : CoreUserDelta) :
    namedUsers (userKey env handle.status.protocol) (handle.limitedDelta delta) =
      namedUsers (userKey env handle.status.protocol) delta := by
  unfold namedUsers limitedDelta
  rw [takenUsers_append, takenUsers_append, takenUsers_limitedUsers, takenUsers_limitedUsers]

theorem keepsApart_limitedDelta (hapart : KeepsApart env handle.status.protocol table delta) :
    KeepsApart env handle.status.protocol table (handle.limitedDelta delta) where
  full full hfull := by
    obtain ⟨listed, hlisted, rfl⟩ := Option.map_eq_some_iff.1 hfull
    have honce := hapart.full listed hlisted
    refine ⟨?_, fun hkeeps => ?_⟩
    · rw [Unambiguous, takenUsers_limitedUsers]
      exact honce.keys
    · rw [limitedUsers, if_neg]
      · exact honce.uuids hkeeps
      · intro hvmess
        rw [hvmess] at hkeeps
        exact false_ne_true hkeeps
  lists hfull := by
    rw [namedUsers_limitedDelta]
    exact hapart.lists (Option.map_eq_none_iff.1 hfull)

end ListenerHandle

end KeliCore
