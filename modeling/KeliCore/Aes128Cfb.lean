/-
AES-128 in cipher feedback mode as the VMess header uses it, one byte at a
time.  The block cipher under the key is a parameter.
-/
import Mathlib.Data.UInt

namespace KeliCore

abbrev CipherBlock := Vector UInt8 16

open List

/-- `offset` counts within the block and wraps at its end. -/
structure Aes128Cfb where
  feedback : CipherBlock
  stream : CipherBlock
  offset : Fin 16

namespace Aes128Cfb

def new (iv : CipherBlock) : Aes128Cfb :=
  ⟨iv, .replicate 16 0, 0⟩

variable (encryptBlock : CipherBlock → CipherBlock) (decrypt : Bool)

/-- The body of the loop in `apply`. -/
def applyByte (cfb : Aes128Cfb) (input : UInt8) : Aes128Cfb × UInt8 :=
  let stream := if cfb.offset = 0 then encryptBlock cfb.feedback else cfb.stream
  let byte := input ^^^ stream[cfb.offset]
  (⟨cfb.feedback.set cfb.offset (if decrypt then input else byte), stream, cfb.offset + 1⟩, byte)

/-- `encrypt` and `decrypt`, by the flag. -/
def apply : Aes128Cfb → List UInt8 → Aes128Cfb × List UInt8
  | cfb, [] => (cfb, [])
  | cfb, input :: bytes =>
    let first := cfb.applyByte encryptBlock decrypt input
    let rest := apply first.1 bytes
    (rest.1, first.2 :: rest.2)

/-- One call after the other. -/
def applyCalls : Aes128Cfb → List (List UInt8) → Aes128Cfb × List UInt8
  | cfb, [] => (cfb, [])
  | cfb, bytes :: calls =>
    let first := cfb.apply encryptBlock decrypt bytes
    let rest := applyCalls first.1 calls
    (rest.1, first.2 ++ rest.2)

variable {encryptBlock decrypt} (cfb : Aes128Cfb)

theorem apply_append (front back : List UInt8) :
    cfb.apply encryptBlock decrypt (front ++ back) =
      let first := cfb.apply encryptBlock decrypt front
      let rest := first.1.apply encryptBlock decrypt back
      (rest.1, first.2 ++ rest.2) := by
  induction front generalizing cfb with
  | nil => rfl
  | cons input front ih =>
    rw [cons_append, apply, ih]
    rfl

theorem applyCalls_eq (calls : List (List UInt8)) :
    cfb.applyCalls encryptBlock decrypt calls = cfb.apply encryptBlock decrypt calls.flatten := by
  induction calls generalizing cfb with
  | nil => rfl
  | cons bytes calls ih =>
    rw [flatten_cons, apply_append, applyCalls, ih]

/-- Decrypting takes the same steps as the encryption that made its input. -/
theorem decrypt_encrypt (bytes : List UInt8) :
    cfb.apply encryptBlock true (cfb.apply encryptBlock false bytes).2 =
      ((cfb.apply encryptBlock false bytes).1, bytes) := by
  induction bytes generalizing cfb with
  | nil => rfl
  | cons input bytes ih =>
    have hbyte : cfb.applyByte encryptBlock true (cfb.applyByte encryptBlock false input).2 =
        ((cfb.applyByte encryptBlock false input).1, input) := by
      simp only [applyByte, UInt8.xor_assoc, UInt8.xor_self, UInt8.xor_zero]
      rfl
    simp only [apply, hbyte, ih]

/-- The ciphertext that a run of calls reads or writes. -/
def ciphertext (encryptBlock : CipherBlock → CipherBlock) (decrypt : Bool) (iv : CipherBlock)
    (calls : List (List UInt8)) : List UInt8 :=
  if decrypt then calls.flatten else ((new iv).applyCalls encryptBlock false calls).2

theorem state_eq (iv : CipherBlock) (calls : List (List UInt8)) :
    ((new iv).applyCalls encryptBlock decrypt calls).1 =
      ((new iv).apply encryptBlock true (ciphertext encryptBlock decrypt iv calls)).1 := by
  cases decrypt with
  | true => rw [applyCalls_eq]; rfl
  | false => rw [ciphertext, if_neg Bool.false_ne_true, applyCalls_eq, decrypt_encrypt]

end Aes128Cfb

open Aes128Cfb

/-- However the bytes are cut into calls, encrypting gives the same, decrypting
it gives them back, and the state follows from the ciphertext. -/
theorem cfb_calls_irrelevant (encryptBlock : CipherBlock → CipherBlock) (iv : CipherBlock)
    (calls : List (List UInt8)) :
    (new iv).applyCalls encryptBlock false calls =
        (new iv).apply encryptBlock false calls.flatten ∧
      (∀ others : List (List UInt8),
        others.flatten = ((new iv).applyCalls encryptBlock false calls).2 →
          ((new iv).applyCalls encryptBlock true others).2 = calls.flatten) ∧
      ∀ decrypt others again, ciphertext encryptBlock decrypt iv calls =
          ciphertext encryptBlock again iv others →
        ((new iv).applyCalls encryptBlock decrypt calls).1 =
          ((new iv).applyCalls encryptBlock again others).1 := by
  refine ⟨applyCalls_eq _ calls, fun others hothers => ?_, fun decrypt others again hsame => ?_⟩
  · rw [applyCalls_eq, hothers, applyCalls_eq, decrypt_encrypt]
  · rw [state_eq, state_eq, hsame]

end KeliCore
