import ItemMapper.Cipher.Gateway

/-!
# A key service in memory

A stand-in for a key service: it knows some keys and hides a text by marking and reversing it.
-/

namespace ItemMapper

/-- A key service that knows some keys. -/
structure KeyService where
  keyIds : List String

namespace KeyService

/-- A text from its end to its beginning. -/
def reversed (text : List Char) : String :=
  String.ofList text.reverse

/-- The mark on everything that was encrypted under a key. -/
def mark (keyId : String) : String :=
  "kms:" ++ keyId ++ ":"

/-- Refuses keys that the service does not know. -/
def checkKey (service : KeyService) (keyId : String) : Except String Unit :=
  if keyId ∈ service.keyIds then .ok () else .error ("key " ++ keyId ++ " not found")

/-- Encrypts under a key that the service knows. -/
def encrypt (service : KeyService) (keyId plaintext : String) : Except String String := do
  service.checkKey keyId
  return mark keyId ++ reversed plaintext.toList

/-- Decrypts what was encrypted under the same key. -/
def decrypt (service : KeyService) (keyId ciphertext : String) : Except String String := do
  service.checkKey keyId
  match WireType.dropMark? (mark keyId).toList ciphertext.toList with
  | some body => return reversed body
  | none => throw "ciphertext was not produced by this key"

/-- The service as a cipher. -/
def cipher (service : KeyService) : Cipher :=
  ⟨service.encrypt, service.decrypt⟩

end KeyService

end ItemMapper
