import ItemMapper.Error

/-!
# Encryption gateways

Fields that are declared as encrypted go through a gateway on both ways. A gateway without cipher gives
every text back unchanged; one with a cipher asks for a key and a text that are not empty, and takes no
empty result.
-/

namespace ItemMapper

/-- A cipher for texts under named keys; it may refuse with a reason. -/
structure Cipher where
  encrypt : (keyId plaintext : String) → Except String String
  decrypt : (keyId ciphertext : String) → Except String String

namespace Cipher

/-- What a cipher does in one direction. -/
def run (cipher : Cipher) : CipherOperation → (keyId text : String) → Except String String
  | .encrypt => cipher.encrypt
  | .decrypt => cipher.decrypt

/-- The functions of a cipher, as far as they have been given. -/
structure Parts where
  encrypt : Option ((keyId plaintext : String) → Except String String) := none
  decrypt : Option ((keyId ciphertext : String) → Except String String) := none

/-- Puts a cipher together; both functions are needed. -/
def Parts.build (parts : Parts) : Result Cipher :=
  match parts.encrypt, parts.decrypt with
  | some encrypt, some decrypt => .ok ⟨encrypt, decrypt⟩
  | none, _ => .error (.setting (.missingCipherFunction .encrypt))
  | some _, none => .error (.setting (.missingCipherFunction .decrypt))

end Cipher

/-- The way of encrypted fields to and from the store. -/
structure Gateway where
  cipher : Option Cipher

namespace Gateway

/-- The gateway that changes nothing. -/
def identity : Gateway := ⟨none⟩

/-- Whether there is a cipher behind the gateway. -/
def isConfigured (gateway : Gateway) : Bool :=
  gateway.cipher.isSome

/-- Sends the text of the field at a path through the cipher, if there is one. -/
def run (gateway : Gateway) (operation : CipherOperation) (path keyId text : String) :
    Result String :=
  match gateway.cipher with
  | none => .ok text
  | some cipher =>
    if keyId.isEmpty then .error (.cipherBreach path .missingKey)
    else if text.isEmpty then .error (.cipherBreach path .missingValue)
    else
      match cipher.run operation keyId text with
      | .error reason => .error (.cipher path keyId reason)
      | .ok result =>
        if result.isEmpty then .error (.cipherBreach path (.emptyResult operation))
        else .ok result

theorem run_eq_ok_iff {cipher : Cipher} {operation : CipherOperation} {path keyId text result : String} :
    run ⟨some cipher⟩ operation path keyId text = .ok result ↔
      keyId ≠ "" ∧ text ≠ "" ∧ cipher.run operation keyId text = .ok result ∧ result ≠ "" := by
  by_cases noKey : keyId = ""
  · simp [run, noKey]
  by_cases noText : text = ""
  · simp [run, noKey, noText]
  cases answered : cipher.run operation keyId text with
  | error reason => simp [run, noKey, noText, answered]
  | ok answer =>
    by_cases empty : answer = ""
    · simp [run, noKey, noText, answered, empty]
    · -- All guards are passed, so the answer is the result.
      simp only [run, String.isEmpty_iff, noKey, noText, answered, empty, if_false, Except.ok.injEq,
        ne_eq, not_false_eq_true, true_and]
      constructor
      · rintro rfl
        exact ⟨rfl, empty⟩
      · exact And.left

/-- Encrypts the text of the field at a path. -/
def encrypt (gateway : Gateway) : (path keyId plaintext : String) → Result String :=
  gateway.run .encrypt

/-- Decrypts the text of the field at a path. -/
def decrypt (gateway : Gateway) : (path keyId ciphertext : String) → Result String :=
  gateway.run .decrypt

/-- Whether a text under a key gets as far as the cipher. -/
def asksCipher (gateway : Gateway) (keyId text : String) : Bool :=
  gateway.isConfigured && !keyId.isEmpty && !text.isEmpty

/-- A short form for diagnostics, which shows nothing of the cipher. -/
def summary (gateway : Gateway) : String :=
  "EncryptionGateway \x7b configured: " ++ toString gateway.isConfigured ++ " \x7d"

end Gateway

/-- The cipher that a whole process shares; gateways keep the one they were made with. -/
structure SharedCipher where
  current : Option Cipher := none

namespace SharedCipher

/-- Replaces the shared cipher. -/
def replace (_ : SharedCipher) (cipher : Option Cipher) : SharedCipher :=
  ⟨cipher⟩

/-- A gateway to the cipher that is shared now. -/
def gateway (shared : SharedCipher) : Gateway :=
  ⟨shared.current⟩

end SharedCipher

end ItemMapper
