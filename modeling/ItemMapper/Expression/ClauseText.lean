import ItemMapper.Expression.Clauses
import ItemMapper.Text.Blank

/-!
# Reading update expressions

Verbs and the commas between clauses count only outside of brackets. A verb is a whole word; it starts
the clauses up to the next one. Text in front of the first verb is ignored.
-/

namespace ItemMapper.ClauseText

/-- Whether a character belongs to a word, so that no verb can start after it or end before it. -/
def isWordChar (c : Char) : Bool :=
  c.isAlphanum || c = '_' || c = '#' || c = ':' || c = '.' || 128 ≤ c.toNat

/-- The number of open brackets after a character; a closing bracket without partner is ignored. -/
def depthAfter (depth : Nat) (c : Char) : Nat :=
  if c = '(' || c = '[' then depth + 1
  else if c = ')' || c = ']' then depth - 1
  else depth

/-- Whether a text starts with a word that ends there. -/
def startsWithWord (word cs : List Char) : Bool :=
  word.isPrefixOf cs && match cs.drop word.length with
    | [] => true
    | c :: _ => !isWordChar c

/-- The verb that a text starts with as a whole word. -/
def verbAt? (cs : List Char) : Option Verb :=
  Verb.all.find? fun verb => startsWithWord verb.keyword cs

/-- A verb in a text, with the position just after it. -/
structure Segment where
  verb : Verb
  bodyStart : Nat
deriving DecidableEq, Repr

/-- The position at which the verb of a segment starts. -/
def Segment.start (segment : Segment) : Nat :=
  segment.bodyStart - segment.verb.keyword.length

/--
The verbs in a text that starts at a position, inside so many brackets, and after a word character or
not.
-/
def segmentsFrom (position depth : Nat) (afterWord : Bool) : List Char → List Segment
  | [] => []
  | c :: rest =>
    let others := segmentsFrom (position + 1) (depthAfter depth c) (isWordChar c) rest
    if depth = 0 && !afterWord then
      match verbAt? (c :: rest) with
      | some verb => ⟨verb, position + verb.keyword.length⟩ :: others
      | none => others
    else others

/-- The verbs in a text outside of brackets. -/
def segments (cs : List Char) : List Segment :=
  segmentsFrom 0 0 false cs

/-- The parts between the commas outside of brackets, for a text inside so many brackets. -/
def splitFrom (depth : Nat) : List Char → List Char × List (List Char)
  | [] => ([], [])
  | c :: rest =>
    let (first, others) := splitFrom (depthAfter depth c) rest
    if c = ',' && depth = 0 then ([], first :: others) else (c :: first, others)

/-- The clauses of a text: the parts that are not blank, without the blanks around them. -/
def clausesOf (body : List Char) : List String :=
  let (first, others) := splitFrom 0 body
  ((first :: others).map Text.trim).filterMap fun part =>
    if part.isEmpty then none else some (String.ofList part)

/-- The part of a text from one position to another. -/
def slice (cs : List Char) (start stop : Nat) : List Char :=
  (cs.drop start).take (stop - start)

/-- Adds the clauses of each segment, which reaches to the start of the next one. -/
def gather (cs : List Char) (clauses : UpdateClauses) : List Segment → UpdateClauses
  | [] => clauses
  | segment :: rest =>
    let stop := match rest with
      | [] => cs.length
      | next :: _ => next.start
    gather cs (clauses.append segment.verb (clausesOf (slice cs segment.bodyStart stop))) rest

def read (cs : List Char) : UpdateClauses :=
  gather cs {} (segments cs)

end ItemMapper.ClauseText

namespace ItemMapper

/-- Reads an update expression; every text has some reading. -/
def UpdateClauses.ofText (text : String) : UpdateClauses :=
  ClauseText.read text.toList

end ItemMapper
