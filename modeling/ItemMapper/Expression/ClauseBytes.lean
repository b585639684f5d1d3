import ItemMapper.Base64
import ItemMapper.Expression.ClauseText

/-!
# Reading update expressions by their bytes

The verbs of a text are found without decoding its characters. The scan goes through the bytes and jumps
behind each verb that it finds; what stands between two verbs is then cut out of the text at the offsets of
bytes.

A text can be cut only between two characters, and an offset be taken from another one only if it is not the
larger one. Where this is not possible there is no reading (`none`).
-/

namespace ItemMapper.ClauseBytes

open ClauseText (Segment)

/-! ### Verbs -/

/-- The bytes of the word for a verb. -/
def keyword (verb : Verb) : Bytes :=
  utf8 (String.ofList verb.keyword)

/-- Whether a byte belongs to a word; those of characters beyond ASCII do. -/
def isWordByte (b : UInt8) : Bool :=
  let c := Char.ofNat b.toNat
  c.isAlphanum || c = '_' || c = '#' || c = ':' || c = '.' || 128 ≤ b.toNat

def isBracket (b : UInt8) : Bool :=
  let c := Char.ofNat b.toNat
  c = '(' || c = '[' || c = ')' || c = ']'

/-- The number of open brackets after a byte; a closing bracket without partner is ignored. -/
def depthAfter (depth : Nat) (b : UInt8) : Nat :=
  let c := Char.ofNat b.toNat
  if c = '(' || c = '[' then depth + 1
  else if c = ')' || c = ']' then depth - 1
  else depth

/-- Whether the word for a verb stands at an offset and ends there. -/
def keywordAt (bytes : Bytes) (offset : Nat) (verb : Verb) : Bool :=
  (keyword verb).isPrefixOf (bytes.drop offset) &&
    match bytes[offset + (keyword verb).length]? with
    | none => true
    | some b => !isWordByte b

theorem keyword_eq (verb : Verb) : keyword verb = verb.keyword.map fun c => UInt8.ofNat c.toNat := by
  cases verb <;> rfl

theorem length_keyword (verb : Verb) : (keyword verb).length = verb.keyword.length := by
  rw [keyword_eq, List.length_map]

theorem length_keyword_pos (verb : Verb) : 0 < (keyword verb).length := by
  rw [length_keyword]
  cases verb <;> exact Nat.succ_pos _

theorem pred_lt_length {bytes : Bytes} {offset : Nat} (inside : offset < bytes.length) :
    offset - 1 < bytes.length :=
  Nat.lt_of_le_of_lt (Nat.sub_le offset 1) inside

/-- The verbs from an offset on, with the offsets just after them, where so many brackets are open. -/
def segmentsFrom (bytes : Bytes) (offset depth : Nat) : List Segment :=
  if inside : offset < bytes.length then
    if isBracket bytes[offset] then segmentsFrom bytes (offset + 1) (depthAfter depth bytes[offset])
    else if depth = 0 ∧ (offset = 0 ∨ isWordByte (bytes.get ⟨offset - 1, pred_lt_length inside⟩) = false) then
      match Verb.all.find? (keywordAt bytes offset) with
      | some verb =>
        ⟨verb, offset + (keyword verb).length⟩ ::
          segmentsFrom bytes (offset + (keyword verb).length) depth
      | none => segmentsFrom bytes (offset + 1) depth
    else segmentsFrom bytes (offset + 1) depth
  else []
termination_by bytes.length - offset
decreasing_by
  case _ => omega
  case _ =>
    have some_letter := length_keyword_pos verb
    omega
  case _ => omega
  case _ => omega

/-- The verbs in a text outside of brackets. -/
def segments (bytes : Bytes) : List Segment :=
  segmentsFrom bytes 0 0

/-! ### Cutting -/

/-- The part of a text between two offsets. -/
def slice? (text : String) (start stop : Nat) : Option String :=
  if possible : String.Pos.Raw.IsValid text ⟨start⟩ ∧ String.Pos.Raw.IsValid text ⟨stop⟩ ∧ start ≤ stop then
    some (text.extract (text.pos ⟨start⟩ possible.1) (text.pos ⟨stop⟩ possible.2.1))
  else none

/-- The characters of a text that starts at an offset, each with its own one. -/
def charIndices (offset : Nat) : List Char → List (Nat × Char)
  | [] => []
  | c :: rest => (offset, c) :: charIndices (offset + c.utf8Size) rest

/-- How far a text has been cut at its commas: the parts so far, and the start of the one that goes on. -/
structure Cut where
  depth : Nat := 0
  start : Nat := 0
  parts : List String := []

def Cut.step (body : String) (cut : Cut) : Nat × Char → Option Cut
  | (offset, c) =>
    if c = ',' ∧ cut.depth = 0 then do
      let part ← slice? body cut.start offset
      return { cut with start := offset + 1, parts := cut.parts ++ [part] }
    else some { cut with depth := ClauseText.depthAfter cut.depth c }

/-- The clauses of a text: the parts between its commas outside of brackets that are not blank. -/
def clausesOf? (body : String) : Option (List String) := do
  let cut ← (charIndices 0 body.toList).foldlM (Cut.step body) {}
  let last ← slice? body cut.start body.utf8ByteSize
  return ((cut.parts ++ [last]).map Text.trimText).filter fun part => !part.isEmpty

/-! ### Reading -/

/-- Where the clauses in front of some segments end: at the next verb, or else with the text. -/
def bodyEnd? (size : Nat) : List Segment → Option Nat
  | [] => some size
  | next :: _ =>
    let width := (keyword next.verb).length
    if width ≤ next.bodyStart then some (next.bodyStart - width) else none

/-- Adds the clauses of each segment. -/
def gather? (text : String) (clauses : UpdateClauses) : List Segment → Option UpdateClauses
  | [] => some clauses
  | segment :: rest => do
    let stop ← bodyEnd? text.utf8ByteSize rest
    let body ← slice? text segment.bodyStart stop
    let more ← clausesOf? body
    gather? text (clauses.append segment.verb more) rest

/-- Reads an update expression. -/
def read? (text : String) : Option UpdateClauses :=
  gather? text {} (segments (utf8 text))

end ItemMapper.ClauseBytes
