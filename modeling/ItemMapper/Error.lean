import ItemMapper.Expression.Operator
import ItemMapper.Native.Value
import ItemMapper.Text.Quoted
import ItemMapper.Wire.WireType

/-!
# Errors

Every operation stops at its first failure. An error says what went wrong and where: at the path of a
field, at the field of a clause, or in a chunk of a batch.
-/

namespace ItemMapper

/-- Why a native value cannot travel as its declared type. -/
inductive WriteFault where
  | invalidDate (input : Value)
  | typeMismatch (type : WireType) (found : Kind)
deriving DecidableEq, Repr

/-- Why a wire value cannot be read. -/
inductive ReadFault where
  | invalidDate (text : String)
  | invalidNumber (text : String)
deriving DecidableEq, Repr

/-- The two directions of a cipher. -/
inductive CipherOperation where
  | encrypt
  | decrypt
deriving DecidableEq, Repr

/-- How a call of a cipher, or its result, broke the rules. -/
inductive CipherBreach where
  | missingKey
  | missingValue
  | emptyResult (operation : CipherOperation)
deriving DecidableEq, Repr

/-- Why a patch or a condition cannot become an expression. -/
inductive CompileFault where
  | repeatedField
  | addNull
  | addMistyped (tag : String)
  | deleteEmpty
  | deleteMistyped (tag : String)
  | inWithoutList
  | inWithNull
  | inWithoutValues
  | betweenWithoutTwo
  | withoutValue (operator : FilterOperator)
deriving DecidableEq, Repr

/-- Why settings or a cipher cannot be used. -/
inductive SettingFault where
  | chunkSize (size : Nat)
  | deserializeConcurrency
  | fieldConcurrency
  | missingCipherFunction (operation : CipherOperation)
deriving DecidableEq, Repr

/-- A failure of the way to the store. -/
structure TransportError where
  retryable : Bool
  message : String
  source : Option String
deriving DecidableEq, Repr

/-- A failure of an operation. -/
inductive Error where
  | write (path : String) (cause : WriteFault)
  | cipherBreach (path : String) (breach : CipherBreach)
  | cipher (path keyId reason : String)
  | compile (field : String) (cause : CompileFault)
  | transport (failure : TransportError)
  | read (path : String) (cause : ReadFault)
  | chunk (index : Nat) (cause : Error)
  | setting (cause : SettingFault)
deriving DecidableEq, Repr

/-! ### Wording -/

/-- How a rejected date is shown. -/
def WriteFault.shownDate : Value → String
  | .string text => Text.quote text
  | .number n => n.text
  | other => other.kind.name

/-- What a type with a check of its own accepts. -/
def WriteFault.expected : WireType → String
  | .encrypted _ => "string"
  | .stringSet => "string or number elements"
  | .numberSet => "numeric elements"
  | _ => "binary or string"

/-- The wording of a cause. -/
def WriteFault.message : WriteFault → String
  | .invalidDate input => "invalid date: " ++ shownDate input
  | .typeMismatch type found =>
    "wire type " ++ type.tag ++ " expects " ++ expected type ++ ", found " ++ found.name

/-- The wording of a cause. -/
def ReadFault.message : ReadFault → String
  | .invalidDate text => "invalid date: " ++ text
  | .invalidNumber text => "invalid number: " ++ text

def CipherOperation.name : CipherOperation → String
  | .encrypt => "encrypt"
  | .decrypt => "decrypt"

/-- The wording of a breach. -/
def CipherBreach.message : CipherBreach → String
  | .missingKey => "expecting a key"
  | .missingValue => "expecting a value"
  | .emptyResult operation => operation.name ++ " returned an empty string"

/-- The wording of a cause. -/
def CompileFault.message : CompileFault → String
  | .repeatedField => "field appears more than once"
  | .addNull => "ADD needs a non-null value"
  | .addMistyped tag => "ADD needs a number or a set, got " ++ tag
  | .deleteEmpty => "DELETE needs a non-empty set"
  | .deleteMistyped tag => "DELETE needs a set, got " ++ tag
  | .inWithoutList => "IN needs a list of values"
  | .inWithNull => "IN values must not be null"
  | .inWithoutValues => "IN needs at least one value"
  | .betweenWithoutTwo => "BETWEEN needs two values"
  | .withoutValue operator => operator.text ++ " needs a value"

/-- The greatest number of keys in one request. -/
def greatestChunkSize : Nat := 100

/-- The wording of a cause. -/
def SettingFault.message : SettingFault → String
  | .chunkSize size => "batch chunk size must be between 1 and " ++ toString greatestChunkSize ++
      ", got " ++ toString size
  | .deserializeConcurrency => "deserialize concurrency must be at least 1"
  | .fieldConcurrency => "field concurrency must be at least 1"
  | .missingCipherFunction .encrypt => "encryption plugin is missing an encrypt function"
  | .missingCipherFunction .decrypt => "encryption plugin is missing a decrypt function"

/-- The wording of a failure. -/
def TransportError.text (failure : TransportError) : String :=
  "transport error (retryable: " ++ toString failure.retryable ++ "): " ++ failure.message

namespace Error

def message : Error → String
  | .write path cause => "failed to serialize " ++ path ++ ": " ++ cause.message
  | .cipherBreach path breach => "encryption contract violated at " ++ path ++ ": " ++ breach.message
  | .cipher path keyId reason =>
    "encryption plugin failed at " ++ path ++ " (key " ++ keyId ++ "): " ++ reason
  | .compile field cause => "cannot compile expression for " ++ field ++ ": " ++ cause.message
  | .transport failure => failure.text
  | .read path cause => "failed to deserialize " ++ path ++ ": " ++ cause.message
  | .chunk index cause => "batch chunk " ++ toString index ++ " failed: " ++ cause.message
  | .setting cause => "configuration error: " ++ cause.message

/-- Whether sending the same request again may help: the root cause is a passing failure. -/
def isRetryable : Error → Bool
  | .transport failure => failure.retryable
  | .chunk _ cause => cause.isRetryable
  | _ => false

/-- The wordings of the causes below an error, the nearest first. -/
def causes : Error → List String
  | .write _ cause => [cause.message]
  | .cipher _ _ reason => [reason]
  | .transport failure => failure.source.toList
  | .read _ cause => [cause.message]
  | .chunk _ cause => cause.message :: cause.causes
  | _ => []

end Error

/-- The result of an operation. -/
abbrev Result (α : Type) := Except Error α

end ItemMapper
