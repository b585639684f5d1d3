/-!
# Update clauses

An update expression has up to four parts, each a verb with its clauses:
`SET #a = :a, #b = :b ADD #c :c REMOVE #d DELETE #e :e`.
-/

namespace ItemMapper

/-- The verbs of update expressions. -/
inductive Verb where
  | set
  | add
  | remove
  | delete
deriving DecidableEq, Repr

namespace Verb

/-- The verbs in the order in which they are written. -/
def all : List Verb := [.set, .add, .remove, .delete]

/-- The word for a verb. -/
def keyword : Verb → List Char
  | .set => ['S', 'E', 'T']
  | .add => ['A', 'D', 'D']
  | .remove => ['R', 'E', 'M', 'O', 'V', 'E']
  | .delete => ['D', 'E', 'L', 'E', 'T', 'E']

end Verb

/--
The clauses under each verb. A verb without list does not occur; one with an empty list was compiled
but got no clauses.
-/
structure UpdateClauses where
  set : Option (List String) := none
  add : Option (List String) := none
  remove : Option (List String) := none
  delete : Option (List String) := none
deriving DecidableEq, Repr

namespace UpdateClauses

/-- A list without clauses under every verb. -/
def blank : UpdateClauses :=
  ⟨some [], some [], some [], some []⟩

/-- The clauses under a verb. -/
def get (clauses : UpdateClauses) : Verb → Option (List String)
  | .set => clauses.set
  | .add => clauses.add
  | .remove => clauses.remove
  | .delete => clauses.delete

/-- Replaces the clauses under a verb. -/
def put (clauses : UpdateClauses) (verb : Verb) (list : Option (List String)) : UpdateClauses :=
  match verb with
  | .set => { clauses with set := list }
  | .add => { clauses with add := list }
  | .remove => { clauses with remove := list }
  | .delete => { clauses with delete := list }

/-- Adds clauses under a verb; no clauses leave it as it is. -/
def append (clauses : UpdateClauses) (verb : Verb) (more : List String) : UpdateClauses :=
  if more.isEmpty then clauses else clauses.put verb (some ((clauses.get verb).getD [] ++ more))

/-- The text of a verb with its clauses, unless there are none. -/
def verbChars (clauses : UpdateClauses) (verb : Verb) : Option (List Char) :=
  match clauses.get verb with
  | none | some [] => none
  | some list => some (verb.keyword ++ ' ' :: [',', ' '].intercalate (list.map String.toList))

/-- The characters of the expression. -/
def chars (clauses : UpdateClauses) : List Char :=
  [' '].intercalate (Verb.all.filterMap clauses.verbChars)

/-- The text of the expression; verbs without clauses are left out. -/
def text (clauses : UpdateClauses) : String :=
  String.ofList clauses.chars

/-- Whether there is no clause under any verb. -/
def isEmpty (clauses : UpdateClauses) : Bool :=
  Verb.all.all fun verb => ((clauses.get verb).getD []).isEmpty

end UpdateClauses

end ItemMapper
