import ItemMapper.Proofs.NumberText

/-!
# The spelling of numbers

How the literals that are read are written: a sign, digits, a fraction after a point, and a power of ten
after a letter (`Decimal.Spells`). The scanner takes a whole text exactly if it is spelled so, which leaves
of the strict grammar only what it says about zeros and points.

Main results: `readStrict?_eq_some_iff` and, for the number that is read, `Number.read?_eq_some_iff`.
-/

namespace ItemMapper

namespace Decimal

/-- The signs in front of a literal. -/
inductive SpellsSign : Bool → List Char → Prop
  | absent : SpellsSign false []
  | minus : SpellsSign true ['-']

/-- A fraction: digits after a point, or nothing. -/
inductive SpellsFraction : Option (List Char) → List Char → Prop
  | absent : SpellsFraction none []
  | present {digits : List Char} : AreDigits digits → SpellsFraction (some digits) ('.' :: digits)

/-- The signs in front of the digits of an exponent. -/
inductive SpellsExponentSign : Bool → List Char → Prop
  | absent : SpellsExponentSign false []
  | plus : SpellsExponentSign false ['+']
  | minus : SpellsExponentSign true ['-']

/-- An exponent: a letter, a sign and at least one digit, or nothing. -/
inductive SpellsExponent : Option (Bool × List Char) → List Char → Prop
  | absent : SpellsExponent none []
  | present {letter : Char} {negative : Bool} {sign digits : List Char} : letter = 'e' ∨ letter = 'E' →
      SpellsExponentSign negative sign → AreDigits digits → digits ≠ [] →
      SpellsExponent (some (negative, digits)) (letter :: (sign ++ digits))

/-- The characters that a literal is written with, one part after the other. -/
inductive Spells : Decimal → List Char → Prop
  | parts {negative : Bool} {whole : List Char} {fraction : Option (List Char)}
      {exponent : Option (Bool × List Char)} {sign point power : List Char} :
      SpellsSign negative sign → AreDigits whole → SpellsFraction fraction point →
      SpellsExponent exponent power →
      Spells ⟨negative, whole, fraction, exponent⟩ (sign ++ (whole ++ (point ++ power)))

/-! ### What stops a run of digits -/

theorem SpellsExponent.stops {exponent : Option (Bool × List Char)} {cs : List Char}
    (spelled : SpellsExponent exponent cs) : StopsDigits cs := by
  intro c first
  cases spelled with
  | absent => cases first
  | present letter =>
    obtain rfl := Option.some.inj first
    rcases letter with rfl | rfl <;> rfl

theorem SpellsFraction.stops {fraction : Option (List Char)} {cs rest : List Char}
    (spelled : SpellsFraction fraction cs) (stops : StopsDigits rest) : StopsDigits (cs ++ rest) := by
  cases spelled with
  | absent => exact stops
  | present =>
    intro c first
    obtain rfl := Option.some.inj first
    rfl

/-! ### Scanning -/

/-- The sign that a text starts with in an exponent, if it starts with one. -/
theorem exists_exponentSign (cs : List Char) : ∃ negative sign rest, SpellsExponentSign negative sign ∧
    cs = sign ++ rest ∧ scanExponent cs =
      if (rest.takeWhile Char.isDigit).isEmpty then none
      else some ((negative, rest.takeWhile Char.isDigit), rest.dropWhile Char.isDigit) := by
  unfold scanExponent
  split
  next negative rest signed =>
    -- the three ways to start an exponent, each with what it leaves to the digits
    split at signed
    next rest =>
      cases signed
      exact ⟨_, _, _, .minus, rfl, rfl⟩
    next =>
      cases signed
      exact ⟨_, _, _, .plus, rfl, rfl⟩
    next =>
      cases signed
      exact ⟨_, _, _, .absent, rfl, rfl⟩

theorem spellsExponent_of_scan {cs digits : List Char} {negative : Bool} {letter : Char}
    (either : letter = 'e' ∨ letter = 'E') (scanned : scanExponent cs = some ((negative, digits), [])) :
    SpellsExponent (some (negative, digits)) (letter :: cs) := by
  obtain ⟨first, sign, rest, signed, rfl, run⟩ := exists_exponentSign cs
  rw [run] at scanned
  split at scanned
  next => cases scanned
  next present =>
    simp only [Option.some.injEq, Prod.mk.injEq] at scanned
    obtain ⟨⟨rfl, rfl⟩, ended⟩ := scanned
    have all : rest.takeWhile Char.isDigit = rest := by
      rw [List.takeWhile_eq_self_iff]
      exact List.dropWhile_eq_nil_iff.mp ended
    have each := areDigits_takeWhile rest
    rw [all] at present each ⊢
    exact .present either signed each (by simpa using present)

theorem scanExponent_spelled {sign digits : List Char} {negative : Bool}
    (signed : SpellsExponentSign negative sign) (each : AreDigits digits) (present : digits ≠ []) :
    scanExponent (sign ++ digits) = some ((negative, digits), []) := by
  have taken : digits.takeWhile Char.isDigit = digits := List.takeWhile_eq_self_iff.mpr each
  have dropped : digits.dropWhile Char.isDigit = [] := List.dropWhile_eq_nil_iff.mpr each
  cases signed with
  | minus | plus => simp [scanExponent, taken, dropped, present]
  | absent =>
    -- Without a sign the text starts with a digit, which is no sign.
    obtain ⟨c, rest, rfl⟩ := List.exists_cons_of_ne_nil present
    have digit := each c List.mem_cons_self
    have no_minus : c ≠ '-' := by
      rintro rfl
      exact absurd digit (by decide)
    have no_plus : c ≠ '+' := by
      rintro rfl
      exact absurd digit (by decide)
    simp [scanExponent, no_minus, no_plus, taken, dropped]

/-- The part of a scan behind the fraction. -/
def scanPower (negative : Bool) (whole : List Char) (fraction : Option (List Char)) (cs : List Char) :
    Option (Decimal × List Char) :=
  match cs with
  | 'e' :: after | 'E' :: after =>
    match scanExponent after with
    | none => none
    | some (exponent, rest) => some (⟨negative, whole, fraction, some exponent⟩, rest)
  | rest => some (⟨negative, whole, fraction, none⟩, rest)

theorem scanPower_eq_iff {negative : Bool} {whole cs : List Char} {fraction : Option (List Char)}
    {literal : Decimal} : scanPower negative whole fraction cs = some (literal, []) ↔
      ∃ exponent, SpellsExponent exponent cs ∧ literal = ⟨negative, whole, fraction, exponent⟩ := by
  constructor
  case mp =>
    have raised {letter : Char} {after : List Char} (either : letter = 'e' ∨ letter = 'E')
        (scanned : (match scanExponent after with
          | none => none
          | some (exponent, rest) => some (⟨negative, whole, fraction, some exponent⟩, rest)) =
            some (literal, [])) :
        ∃ exponent, SpellsExponent exponent (letter :: after) ∧
          literal = ⟨negative, whole, fraction, exponent⟩ := by
      split at scanned
      next => cases scanned
      next exponent rest found =>
        cases scanned
        exact ⟨_, spellsExponent_of_scan either found, rfl⟩
    intro scanned
    unfold scanPower at scanned
    split at scanned
    next after => exact raised (.inl rfl) scanned
    next after => exact raised (.inr rfl) scanned
    next =>
      cases scanned
      exact ⟨none, .absent, rfl⟩
  case mpr =>
    rintro ⟨exponent, spelled, rfl⟩
    cases spelled with
    | absent => rfl
    | present either signed digits present =>
      have scanned := scanExponent_spelled signed digits present
      rcases either with rfl | rfl
      · simp [scanPower, scanned]
      · simp [scanPower, scanned]

theorem scanUnsigned_of_point {negative : Bool} {cs rest : List Char}
    (point : cs.dropWhile Char.isDigit = '.' :: rest) :
    scanUnsigned negative cs = scanPower negative (cs.takeWhile Char.isDigit)
      (some (rest.takeWhile Char.isDigit)) (rest.dropWhile Char.isDigit) := by
  simp only [scanUnsigned, point]
  rfl

theorem scanUnsigned_of_no_point {negative : Bool} {cs : List Char}
    (none_there : ∀ rest, cs.dropWhile Char.isDigit ≠ '.' :: rest) :
    scanUnsigned negative cs =
      scanPower negative (cs.takeWhile Char.isDigit) none (cs.dropWhile Char.isDigit) := by
  cases behind : cs.dropWhile Char.isDigit with
  | nil =>
    simp only [scanUnsigned, behind]
    rfl
  | cons c rest =>
    have other : c ≠ '.' := by
      rintro rfl
      exact none_there rest behind
    simp only [scanUnsigned, behind, List.cons.injEq, other, false_and, imp_self, implies_true]
    rfl

theorem scanUnsigned_eq_iff {negative : Bool} {cs : List Char} {literal : Decimal} :
    scanUnsigned negative cs = some (literal, []) ↔
      ∃ whole fraction exponent point power, AreDigits whole ∧ SpellsFraction fraction point ∧
        SpellsExponent exponent power ∧ cs = whole ++ (point ++ power) ∧
        literal = ⟨negative, whole, fraction, exponent⟩ := by
  constructor
  case mp =>
    intro scanned
    have front : cs = cs.takeWhile Char.isDigit ++ cs.dropWhile Char.isDigit :=
      List.takeWhile_append_dropWhile.symm
    by_cases pointed : ∃ rest, cs.dropWhile Char.isDigit = '.' :: rest
    case pos =>
      obtain ⟨rest, point⟩ := pointed
      have behind : rest = rest.takeWhile Char.isDigit ++ rest.dropWhile Char.isDigit :=
        List.takeWhile_append_dropWhile.symm
      rw [scanUnsigned_of_point point] at scanned
      obtain ⟨exponent, raised, rfl⟩ := scanPower_eq_iff.mp scanned
      refine ⟨_, _, _, _, _, areDigits_takeWhile cs, .present (areDigits_takeWhile rest), raised, ?_, rfl⟩
      -- The text is put together again from its runs of digits.
      rw [List.cons_append, ← behind, ← point]
      exact front
    case neg =>
      rw [scanUnsigned_of_no_point (not_exists.mp pointed)] at scanned
      obtain ⟨exponent, raised, rfl⟩ := scanPower_eq_iff.mp scanned
      exact ⟨_, _, _, _, _, areDigits_takeWhile cs, .absent, raised, front, rfl⟩
  case mpr =>
    rintro ⟨whole, fraction, exponent, point, power, each, pointed, raised, rfl, rfl⟩
    have taken := takeWhile_digits each (pointed.stops raised.stops)
    have dropped := dropWhile_digits each (pointed.stops raised.stops)
    have scanned : scanPower negative whole fraction power =
        some (⟨negative, whole, fraction, exponent⟩, []) := scanPower_eq_iff.mpr ⟨exponent, raised, rfl⟩
    cases pointed with
    | absent =>
      rw [List.nil_append] at taken dropped ⊢
      -- Without a fraction there is no point either: an exponent starts with its letter.
      have unpointed : ∀ rest, (whole ++ power).dropWhile Char.isDigit ≠ '.' :: rest := by
        intro rest point
        rw [dropped] at point
        cases raised with
        | absent => cases point
        | present either =>
          obtain ⟨rfl, -⟩ := List.cons.inj point
          exact absurd either (by decide)
      rw [scanUnsigned_of_no_point unpointed, taken, dropped]
      exact scanned
    | @present digits run =>
      rw [List.cons_append] at taken dropped ⊢
      rw [scanUnsigned_of_point dropped, taken, takeWhile_digits run raised.stops,
        dropWhile_digits run raised.stops]
      exact scanned

/-- An unsigned literal starts with a digit, a point or a letter. -/
theorem unsigned_front {whole point power : List Char} {fraction : Option (List Char)}
    {exponent : Option (Bool × List Char)} (each : AreDigits whole)
    (pointed : SpellsFraction fraction point) (raised : SpellsExponent exponent power) {c : Char}
    {rest : List Char} (front : whole ++ (point ++ power) = c :: rest) :
    c.isDigit ∨ c = '.' ∨ c = 'e' ∨ c = 'E' := by
  cases whole with
  | cons first others =>
    obtain ⟨rfl, -⟩ := List.cons.inj front
    exact .inl (each first List.mem_cons_self)
  | nil =>
    cases pointed with
    | present =>
      obtain ⟨rfl, -⟩ := List.cons.inj front
      exact .inr (.inl rfl)
    | absent =>
      cases raised with
      | absent => cases front
      | present either =>
        obtain ⟨rfl, -⟩ := List.cons.inj front
        exact .inr (.inr either)

/-- The scanner takes a whole text as a literal exactly if the literal is spelled so. -/
theorem scan_eq_iff {cs : List Char} {literal : Decimal} :
    scan cs = some (literal, []) ↔ literal.Spells cs := by
  constructor
  case mp =>
    intro scanned
    unfold scan at scanned
    split at scanned
    next rest =>
      obtain ⟨_, _, _, _, _, each, pointed, raised, rfl, rfl⟩ := scanUnsigned_eq_iff.mp scanned
      exact .parts .minus each pointed raised
    next =>
      obtain ⟨_, _, _, _, _, each, pointed, raised, rfl, rfl⟩ := scanUnsigned_eq_iff.mp scanned
      exact .parts .absent each pointed raised
  case mpr =>
    intro spelled
    cases spelled with
    | @parts negative whole fraction exponent sign point power signed each pointed raised =>
      have scanned : scanUnsigned negative (whole ++ (point ++ power)) =
          some (⟨negative, whole, fraction, exponent⟩, []) :=
        scanUnsigned_eq_iff.mpr ⟨_, _, _, _, _, each, pointed, raised, rfl, rfl⟩
      cases signed with
      | minus => exact scanned
      | absent =>
        unfold scan
        split
        next rest minus => exact absurd (unsigned_front each pointed raised minus) (by decide)
        next => exact scanned

theorem readStrict?_eq_some_iff {cs : List Char} {literal : Decimal} :
    readStrict? cs = some literal ↔ literal.Spells cs ∧ literal.isStrict := by
  rw [← scan_eq_iff]
  unfold readStrict?
  split
  next found scanned =>
    simp only [scanned, Option.some.injEq, Prod.mk.injEq, and_true, Option.ite_none_right_eq_some]
    constructor
    · rintro ⟨strict, rfl⟩
      exact ⟨rfl, strict⟩
    · rintro ⟨rfl, strict⟩
      exact ⟨strict, rfl⟩
  next other =>
    constructor
    · exact nofun
    · rintro ⟨scanned, -⟩
      exact absurd scanned (other literal)

end Decimal

theorem Number.read?_eq_some_iff {cs : List Char} {n : Number} :
    read? cs = some n ↔
      ∃ literal : Decimal, literal.Spells cs ∧ literal.isStrict ∧ literal.toNumber = some n := by
  simp only [read?, Option.bind_eq_some_iff, Decimal.readStrict?_eq_some_iff, and_assoc]

end ItemMapper
