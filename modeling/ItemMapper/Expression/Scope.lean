import ItemMapper.Fields

/-!
# Placeholder scopes

Expressions name attributes by aliases, `#name`, and values by placeholders, `:name`. A scope keeps
track of those in use within one request: every attribute has one alias, different attributes have
different ones, and no placeholder is handed out twice.
-/

namespace ItemMapper

/-- The aliases and placeholders in use within one request. -/
structure Scope where
  /-- The value placeholders in use. -/
  used : List String := []
  /-- The attributes that have an alias, with it. -/
  aliases : List (String × String) := []
  /-- The aliases in use, apart from the attributes that they stand for. -/
  aliasNames : List String := []
deriving DecidableEq, Repr

namespace Scope

/-- Whether a character may stand in an alias or placeholder. -/
def isNameChar (c : Char) : Bool :=
  c.isAlphanum || c = '_'

/-- The characters of a name, those that may not stand in it replaced by `_`. -/
def sanitizeChars (name : List Char) : List Char :=
  let cleaned := name.map fun c => if isNameChar c then c else '_'
  if cleaned.isEmpty then ['_'] else cleaned

/-- The name of a field as it may stand in an alias or placeholder. -/
def sanitize (field : String) : String :=
  String.ofList (sanitizeChars field.toList)

/--
The number that a count from two on comes to. It is a word of 32 bits with a sign, so that behind the greatest
one it goes on with the least one. Behind the last word, which takes more than 2^32 names in use, no number would
be new any more; there the count itself stands for it, so that the numbers are different for all counts.
-/
def number (count : Nat) : Int :=
  if count < 4294967298 then (Int32.ofNat count).toInt else count

/-- The candidates for a name: the name itself, then the name with `_2`, `_3` and so on. -/
def candidate (base : String) : Nat → String
  | 0 => base
  | index + 1 => base ++ "_" ++ toString (number (index + 2))

/-- The first candidate that is not taken; one of the first `taken.length + 1` is free. -/
def leastFree (taken : List String) (base : String) : String :=
  -- The candidates are distinct, so one of them is free and the default is never taken.
  (((List.range (taken.length + 1)).map (candidate base)).find? fun name => name ∉ taken).getD base

/-- A scope in which some placeholders are taken from the start. -/
def ofNames (names : List String) : Scope :=
  { used := names.eraseDups }

/-- Hands out a placeholder for the value of a field. -/
def allocate (scope : Scope) (field : String) : String × Scope :=
  let name := leastFree scope.used (":" ++ sanitize field)
  (name, { scope with used := name :: scope.used })

/-- The alias of an attribute; it gets one if it has none yet. -/
def aliasOf (scope : Scope) (field : String) : String × Scope :=
  match scope.aliases.lookup field with
  | some name => (name, scope)
  | none =>
    let name := leastFree scope.aliasNames ("#" ++ sanitize field)
    (name, { scope with
      aliases := (field, name) :: scope.aliases
      aliasNames := name :: scope.aliasNames })

/-- Takes a name out of circulation; also says whether it was free. -/
def reserve (scope : Scope) (name : String) : Bool × Scope :=
  if name ∈ scope.used then (false, scope) else (true, { scope with used := name :: scope.used })

/-- Whether a placeholder is in use. -/
def contains (scope : Scope) (name : String) : Bool :=
  name ∈ scope.used

/-- The placeholders in use, in order. -/
def names (scope : Scope) : List String :=
  sortNames scope.used

/-- The number of placeholders in use. -/
def size (scope : Scope) : Nat :=
  scope.used.length

/-- Whether neither a placeholder nor an alias is in use. -/
def isEmpty (scope : Scope) : Bool :=
  scope.used.isEmpty && scope.aliases.isEmpty

/-- What each alias stands for. -/
def attributeNames (scope : Scope) : Fields String :=
  Fields.ofList (scope.aliases.map fun (field, name) => (name, field))

end Scope

end ItemMapper
