/-!
# Parts of a text

The parts of a text between its dividers; there is one part more than there are dividers.
-/

namespace ItemMapper.Text

/-- The parts between the dividers of a text. -/
def parts (divider : Char) : List Char → List (List Char)
  | [] => [[]]
  | c :: rest =>
    if c = divider then [] :: parts divider rest
    else
      match parts divider rest with
      | [] => [[c]]
      | first :: others => (c :: first) :: others

end ItemMapper.Text
