import ItemMapper.Error
import ItemMapper.Json.Shape

/-!
# Settings

Limits of the codec and of batch reads. The concurrency limits bound how much work may be under way at
once; they change no result.
-/

namespace ItemMapper

/-- The limits that an application can set. -/
structure Settings where
  /-- Keys in one chunk of a batch read. -/
  chunkSize : Nat := greatestChunkSize
  /-- Items of one chunk that are read at once. -/
  deserializeConcurrency : Nat := 10
  /-- Fields of one item that are worked on at once. -/
  fieldConcurrency : Nat := 10
  /-- Passing failures in a row that a chunk may see; without a limit it is sent again and again. -/
  maxRetries : Option Nat := none
deriving DecidableEq, Repr

namespace Settings

/-- The greatest value of a limit, 2^64 - 1. -/
def greatestSize : Nat := 18446744073709551615

/-- The greatest limit for failures in a row, 2^32 - 1. -/
def greatestRetries : Nat := 4294967295

/-- Refuses limits that cannot be worked with. -/
def validate (settings : Settings) : Result Unit :=
  if settings.chunkSize = 0 ∨ greatestChunkSize < settings.chunkSize then
    .error (.setting (.chunkSize settings.chunkSize))
  else if settings.deserializeConcurrency = 0 then .error (.setting .deserializeConcurrency)
  else if settings.fieldConcurrency = 0 then .error (.setting .fieldConcurrency)
  else .ok ()

/-- A natural number up to a bound: digits, after a plus sign or not, between blanks. -/
def readNat? (greatest : Nat) (text : String) : Option Nat :=
  let trimmed := Text.trim text.toList
  let digits := match trimmed with
    | '+' :: rest => rest
    | rest => rest
  if digits.isEmpty || !digits.all Char.isDigit then none
  else
    let n := Decimal.digitsValue digits
    if n ≤ greatest then some n else none

/-- The texts that an environment gives for the four limits, each possibly missing. -/
structure Environment where
  chunkSize : Option String
  deserializeConcurrency : Option String
  fieldConcurrency : Option String
  maxRetries : Option String

/-- The settings of an environment; texts that are no numbers count as missing. -/
def ofEnvironment (environment : Environment) : Settings :=
  let defaults : Settings := {}
  { chunkSize := (environment.chunkSize.bind (readNat? greatestSize)).getD defaults.chunkSize
    deserializeConcurrency :=
      (environment.deserializeConcurrency.bind (readNat? greatestSize)).getD
        defaults.deserializeConcurrency
    fieldConcurrency :=
      (environment.fieldConcurrency.bind (readNat? greatestSize)).getD defaults.fieldConcurrency
    maxRetries := environment.maxRetries.bind (readNat? greatestRetries) }

/-! ### JSON form -/

/-- A natural number as JSON. -/
def natJson (n : Nat) : Json :=
  .number (.integer n)

def toJson (settings : Settings) : Json :=
  .object [("batchChunkSize", natJson settings.chunkSize),
    ("deserializeConcurrency", natJson settings.deserializeConcurrency),
    ("fieldConcurrency", natJson settings.fieldConcurrency),
    ("maxRetryAttempts", (settings.maxRetries.map natJson).getD .null)]

structure Draft where
  chunkSize : Option Nat := none
  deserializeConcurrency : Option Nat := none
  fieldConcurrency : Option Nat := none
  maxRetries : Option Nat := none

def fields : List (Json.RecordField Draft) :=
  [⟨"batchChunkSize", false, fun draft tree => do
      return { draft with chunkSize := some (← tree.asNat .size greatestSize) }⟩,
    ⟨"deserializeConcurrency", false, fun draft tree => do
      return { draft with deserializeConcurrency := some (← tree.asNat .size greatestSize) }⟩,
    ⟨"fieldConcurrency", false, fun draft tree => do
      return { draft with fieldConcurrency := some (← tree.asNat .size greatestSize) }⟩,
    ⟨"maxRetryAttempts", false, fun draft tree => do
      return { draft with maxRetries := ← tree.asOption (Json.asNat .word greatestRetries) }⟩]

def ofJson (tree : Json) : Json.Shaped Settings := do
  let draft ← tree.asRecord "DynamapConfig" fields {}
  return {
    chunkSize := ← Json.required "batchChunkSize" draft.chunkSize
    deserializeConcurrency := ← Json.required "deserializeConcurrency" draft.deserializeConcurrency
    fieldConcurrency := ← Json.required "fieldConcurrency" draft.fieldConcurrency
    maxRetries := draft.maxRetries }

end Settings

end ItemMapper
