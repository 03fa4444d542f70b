/-
The chunk sizes of a VMess body: written plainly, masked by a stream of words
that both ends derive from the same seed, or sealed with a nonce that counts
the chunks.  The same words decide how much padding follows a chunk.
-/
import KeliCore.Bytes

namespace KeliCore

inductive VmessSecurity where
  | aes128Gcm
  | chaCha20Poly1305
  | none
deriving DecidableEq

inductive VmessCommand where
  | tcp
  | udp
deriving DecidableEq

def optionChunkStream : UInt8 := 0x01
def optionChunkMasking : UInt8 := 0x04
def optionGlobalPadding : UInt8 := 0x08
def optionAuthenticatedLength : UInt8 := 0x10

def hasOption (options mask : UInt8) : Bool := options &&& mask != 0

/-- The checks of `read_request` on the options of a header. -/
def checkRequestOptions (command : VmessCommand) (security : VmessSecurity)
    (options : UInt8) : Except IoError Unit := do
  if security ≠ .none ∧ !hasOption options optionChunkStream then
    throw ⟨.unsupported, "vmess aead payload requires chunk stream option"⟩
  if hasOption options optionGlobalPadding ∧ !hasOption options optionChunkMasking then
    throw ⟨.unsupported, "vmess global padding requires chunk masking"⟩
  if command = .udp ∧ !hasOption options optionChunkStream then
    throw ⟨.unsupported, "vmess udp command requires chunk stream option"⟩

/-- An AEAD cipher with a tag of sixteen bytes, which opens what it sealed. -/
structure Aead where
  encrypt : BitVec 128 → BitVec 96 → List UInt8 → List UInt8
  decrypt : BitVec 128 → BitVec 96 → List UInt8 → Option (List UInt8)
  decrypt_encrypt : ∀ key nonce text, decrypt key nonce (encrypt key nonce text) = some text
  length_encrypt : ∀ key nonce text, (encrypt key nonce text).length = text.length + 16

/-- The ciphers of a body, the key derivation for lengths, and the words of a
SHAKE-128 stream by seed and position. -/
structure VmessCrypto where
  aesGcm : Aead
  chaCha20 : Aead
  kdf16 : BitVec 128 → List String → BitVec 128
  shake128 : BitVec 128 → Nat → UInt16

namespace VmessSecurity

def overhead : VmessSecurity → Nat
  | .aes128Gcm | .chaCha20Poly1305 => 16
  | .none => 0

theorem overhead_le (security : VmessSecurity) : security.overhead ≤ 16 := by
  cases security <;> decide

variable (crypto : VmessCrypto)

def aead : VmessSecurity → Option Aead
  | .aes128Gcm => some crypto.aesGcm
  | .chaCha20Poly1305 => some crypto.chaCha20
  | .none => Option.none

/-- The error of `aes_gcm_open` and `chacha20_open`. -/
def openFailed : VmessSecurity → IoError
  | .chaCha20Poly1305 => ⟨.permissionDenied, "vmess chacha20-poly1305 open failed"⟩
  | .aes128Gcm | .none => ⟨.permissionDenied, "vmess aes-gcm open failed"⟩

end VmessSecurity

/-- The chunk counter of a nonce; it wraps around. -/
structure ChunkNonce where
  iv : BitVec 128
  count : UInt16 := 0

namespace ChunkNonce

/-- The nonce itself: the first two of twelve bytes are the count. -/
def bytes (nonce : ChunkNonce) : BitVec 96 :=
  nonce.count.toBitVec ++ nonce.iv.extractLsb' 32 80

def next (nonce : ChunkNonce) : ChunkNonce :=
  { nonce with count := nonce.count + 1 }

end ChunkNonce

section Payload

variable (crypto : VmessCrypto)

/-- The payload of a chunk, sealed unless there is no security. -/
def sealPayload (security : VmessSecurity) (key : BitVec 128)
    (nonce : ChunkNonce) (input : List UInt8) : ChunkNonce × List UInt8 :=
  match security.aead crypto with
  | some aead => (nonce.next, aead.encrypt key nonce.bytes input)
  | none => (nonce, input)

def openPayload (security : VmessSecurity) (key : BitVec 128)
    (nonce : ChunkNonce) (payload : List UInt8) : ChunkNonce × Except IoError (List UInt8) :=
  match security.aead crypto with
  | some aead =>
    (nonce.next, match aead.decrypt key nonce.bytes payload with
      | some text => .ok text
      | none => .error security.openFailed)
  | none => (nonce, .ok payload)

/-- Opening with the same nonce undoes sealing and leaves the same nonce. -/
theorem openPayload_sealPayload (security : VmessSecurity) (key : BitVec 128)
    (nonce : ChunkNonce) (input : List UInt8) :
    openPayload crypto security key nonce (sealPayload crypto security key nonce input).2 =
      ((sealPayload crypto security key nonce input).1, .ok input) := by
  cases security <;> simp [openPayload, sealPayload, VmessSecurity.aead, Aead.decrypt_encrypt]

theorem length_sealPayload (security : VmessSecurity) (key : BitVec 128)
    (nonce : ChunkNonce) (input : List UInt8) :
    (sealPayload crypto security key nonce input).2.length = input.length + security.overhead := by
  cases security <;>
    simp [sealPayload, VmessSecurity.aead, VmessSecurity.overhead, Aead.length_encrypt]

end Payload

/-- A position in the word stream of a seed. -/
structure Shake128Reader where
  seed : BitVec 128
  position : Nat := 0

def Shake128Reader.next (shake : Shake128Reader) : Shake128Reader :=
  { shake with position := shake.position + 1 }

structure VmessLengthAuthenticator where
  security : VmessSecurity
  key : BitVec 128
  nonce : ChunkNonce

inductive VmessSizeParser where
  | plain
  | masked (shake : Shake128Reader)
  | authenticated (auth : VmessLengthAuthenticator) (padding : Option Shake128Reader)

def decodePlainSize : List UInt8 → Except IoError UInt16
  | [high, low] => .ok (fromBeBytes high low)
  | _ => .error ⟨.invalidData, "invalid vmess chunk size length"⟩

theorem decodePlainSize_toBeBytes (value : UInt16) :
    decodePlainSize (toBeBytes value) = .ok value := by
  rw [toBeBytes, decodePlainSize, fromBeBytes_toBeBytes]

variable (crypto : VmessCrypto)

namespace VmessLengthAuthenticator

def new (security : VmessSecurity) (keySeed ivSeed : BitVec 128) : VmessLengthAuthenticator where
  security := security
  key := crypto.kdf16 keySeed ["auth_len"]
  nonce := { iv := ivSeed }

def noAead : IoError :=
  ⟨.unsupported, "vmess authenticated length requires aead security"⟩

/-- `open_size`: what is sealed is sixteen less than the size. -/
def openSize (auth : VmessLengthAuthenticator) (bytes : List UInt8) :
    VmessLengthAuthenticator × Except IoError UInt16 :=
  if bytes.length ≠ 18 then
    (auth, .error ⟨.invalidData, "invalid vmess authenticated length size"⟩)
  else
    let opened := openPayload crypto auth.security auth.key auth.nonce bytes
    ({ auth with nonce := auth.nonce.next }, do
      if auth.security = .none then throw noAead
      let size ← decodePlainSize (← opened.2)
      if size.toNat + 16 < 65536 then return size + 16
      else throw ⟨.invalidData, "vmess authenticated length is too large"⟩)

def sealSize (auth : VmessLengthAuthenticator) (size : UInt16) :
    VmessLengthAuthenticator × Except IoError (List UInt8) :=
  if size.toNat < 16 then
    (auth, .error ⟨.invalidInput, "vmess authenticated length is too small"⟩)
  else
    let sealed := sealPayload crypto auth.security auth.key auth.nonce (toBeBytes (size - 16))
    ({ auth with nonce := auth.nonce.next },
      if auth.security = .none then .error noAead else .ok sealed.2)

theorem openSize_sealSize {auth : VmessLengthAuthenticator}
    (hsecurity : auth.security ≠ .none) {size : UInt16} (hsize : 16 ≤ size.toNat) :
    ∃ bytes, auth.sealSize crypto size = ({ auth with nonce := auth.nonce.next }, .ok bytes) ∧
      bytes.length = 18 ∧
      auth.openSize crypto bytes = ({ auth with nonce := auth.nonce.next }, .ok size) := by
  have hless : (size - 16).toNat = size.toNat - 16 :=
    UInt16.toNat_sub_of_le _ _ (UInt16.le_iff_toNat_le.2 hsize)
  have hoverhead : auth.security.overhead = 16 := by
    cases hkind : auth.security <;> simp_all [VmessSecurity.overhead]
  have hopen := openPayload_sealPayload crypto auth.security auth.key
    auth.nonce (toBeBytes (size - 16))
  have hlen := length_sealPayload crypto auth.security auth.key auth.nonce
    (toBeBytes (size - 16))
  refine ⟨(sealPayload crypto auth.security auth.key auth.nonce
    (toBeBytes (size - 16))).2, ?_, ?_, ?_⟩
  · rw [sealSize, if_neg (by omega)]
    dsimp only
    rw [if_neg hsecurity]
  · rw [hlen, hoverhead]
    rfl
  · have hsum : (size - 16).toNat + 16 < 65536 := by
      have := size.toNat_lt
      omega
    rw [openSize, if_neg (by rw [hlen, hoverhead]; simp [toBeBytes])]
    dsimp only
    rw [hopen, if_neg hsecurity]
    simp only [bind, Except.bind, decodePlainSize_toBeBytes, pure, Except.pure, if_pos hsum]
    rw [UInt16.sub_add_cancel]

end VmessLengthAuthenticator

namespace VmessSizeParser

def new (maskSeed lengthKeySeed lengthIvSeed : BitVec 128) (options : UInt8)
    (security : VmessSecurity) : VmessSizeParser :=
  if hasOption options optionAuthenticatedLength ∧ security ≠ .none then
    .authenticated (.new crypto security lengthKeySeed lengthIvSeed)
      (if hasOption options optionGlobalPadding then some { seed := maskSeed }
        else none)
  else if hasOption options optionChunkMasking then
    .masked { seed := maskSeed }
  else .plain

def sizeBytes : VmessSizeParser → Nat
  | .authenticated _ _ => 18
  | .plain | .masked _ => 2

/-- `next_mask_from` -/
def mask (shake : Shake128Reader) : UInt16 :=
  crypto.shake128 shake.seed shake.position

def decode (bytes : List UInt8) : VmessSizeParser → VmessSizeParser × Except IoError UInt16
  | .plain => (.plain, decodePlainSize bytes)
  | .masked shake =>
    match decodePlainSize bytes with
    | .error error => (.masked shake, .error error)
    | .ok value => (.masked shake.next, .ok (value ^^^ mask crypto shake))
  | .authenticated auth padding =>
    let opened := auth.openSize crypto bytes
    (.authenticated opened.1 padding, opened.2)

def encode (value : UInt16) : VmessSizeParser → VmessSizeParser × Except IoError (List UInt8)
  | .plain => (.plain, .ok (toBeBytes value))
  | .masked shake => (.masked shake.next, .ok (toBeBytes (value ^^^ mask crypto shake)))
  | .authenticated auth padding =>
    let sealed := auth.sealSize crypto value
    (.authenticated sealed.1 padding, sealed.2)

def nextPaddingLen : VmessSizeParser → VmessSizeParser × Except IoError Nat
  | .masked shake => (.masked shake.next, .ok ((mask crypto shake).toNat % 64))
  | .authenticated auth (some shake) =>
    (.authenticated auth (some shake.next), .ok ((mask crypto shake).toNat % 64))
  | .authenticated auth none =>
    (.authenticated auth none, .error ⟨.invalidData, "vmess padding requires chunk masking"⟩)
  | .plain => (.plain, .error ⟨.invalidData, "vmess padding requires chunk masking"⟩)

def paddingLen (options : UInt8) (size : VmessSizeParser) : VmessSizeParser × Except IoError Nat :=
  if hasOption options optionGlobalPadding then size.nextPaddingLen crypto
  else (size, .ok 0)

def Fits (options : UInt8) (security : VmessSecurity) : VmessSizeParser → Prop
  | .plain => hasOption options optionGlobalPadding = false
  | .masked _ => True
  | .authenticated auth padding => auth.security = security ∧ security ≠ .none ∧
      (hasOption options optionGlobalPadding = true → padding.isSome = true)

variable {crypto}

theorem masking_of_accepted {command : VmessCommand} {security : VmessSecurity} {options : UInt8}
    (haccepted : checkRequestOptions command security options = .ok ()) :
    hasOption options optionGlobalPadding = true → hasOption options optionChunkMasking = true := by
  intro hpadding
  by_contra hmasking
  rw [Bool.not_eq_true] at hmasking
  simp only [checkRequestOptions, hpadding, hmasking] at haccepted
  split at haccepted <;> simp [bind, Except.bind, throw, throwThe, MonadExceptOf.throw] at haccepted

theorem new_fits {options : UInt8} {security : VmessSecurity}
    (maskSeed lengthKeySeed lengthIvSeed : BitVec 128)
    (hmasking : hasOption options optionGlobalPadding = true →
      hasOption options optionChunkMasking = true) :
    (new crypto maskSeed lengthKeySeed lengthIvSeed options security).Fits options security := by
  unfold new
  split
  next hauth =>
    refine ⟨rfl, hauth.2, fun hpadding => ?_⟩
    rw [if_pos hpadding]
    rfl
  · split
    · trivial
    next hplain =>
      rw [Fits, ← Bool.not_eq_true]
      exact fun hpadding => hplain (hmasking hpadding)

theorem paddingLen_spec {options : UInt8} {security : VmessSecurity}
    {size : VmessSizeParser} (hfits : size.Fits options security) :
    ∃ next padding, size.paddingLen crypto options = (next, .ok padding) ∧
      padding < 64 ∧ next.Fits options security ∧ next.sizeBytes = size.sizeBytes := by
  unfold paddingLen
  split
  next hpadding =>
    cases size with
    | plain =>
      rw [Fits, hpadding] at hfits
      simp at hfits
    | masked shake => exact ⟨_, _, rfl, Nat.mod_lt _ (by omega), trivial, rfl⟩
    | authenticated auth padding =>
      obtain ⟨hsecurity, hsome, hpad⟩ := hfits
      cases padding with
      | none => simpa using hpad hpadding
      | some shake =>
        exact ⟨_, _, rfl, Nat.mod_lt _ (by omega), ⟨hsecurity, hsome, fun _ => rfl⟩, rfl⟩
  · exact ⟨size, 0, rfl, by omega, hfits, rfl⟩

/-- Decoding undoes encoding and leaves the parser in the same state. -/
theorem decode_encode {options : UInt8} {security : VmessSecurity}
    {size : VmessSizeParser} (hfits : size.Fits options security) {value : UInt16}
    (hvalue : security.overhead ≤ value.toNat) :
    ∃ next bytes, size.encode crypto value = (next, .ok bytes) ∧ bytes.length = size.sizeBytes ∧
      size.decode crypto bytes = (next, .ok value) ∧
      next.Fits options security ∧ next.sizeBytes = size.sizeBytes := by
  cases size with
  | plain => exact ⟨_, _, rfl, rfl, by rw [decode, decodePlainSize_toBeBytes], hfits, rfl⟩
  | masked shake =>
    refine ⟨_, _, rfl, rfl, ?_, trivial, rfl⟩
    rw [decode, decodePlainSize_toBeBytes]
    simp only [UInt16.xor_assoc, UInt16.xor_self, UInt16.xor_zero]
  | authenticated auth padding =>
    obtain ⟨hsecurity, hsome, hpadding⟩ := hfits
    have hsize : 16 ≤ value.toNat := by cases security <;> simp_all [VmessSecurity.overhead]
    obtain ⟨bytes, hsealed, hlen, hopened⟩ :=
      VmessLengthAuthenticator.openSize_sealSize crypto (hsecurity ▸ hsome) hsize
    refine ⟨.authenticated { auth with nonce := auth.nonce.next } padding,
      bytes, ?_, hlen, ?_, ⟨hsecurity, hsome, hpadding⟩, rfl⟩
    · rw [encode, hsealed]
    · rw [decode, hopened]

end VmessSizeParser

end KeliCore
