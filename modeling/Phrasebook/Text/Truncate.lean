import Phrasebook.Text.Basic

/-!
# Shortening text for display

## Main definitions

* `Text.truncate`: the first line of a text, cut to a number of characters
-/
namespace Phrasebook.Text

/-- The first line of a text, empty if there is none. -/
def firstLine (s : String) : String := (lines s).headD ""

/-- The first line of a text if the text is, up to one line end, that line and
the line has at most `limit` characters and no trailing white space; otherwise
the beginning of the line followed by `...`. -/
def truncate (limit : Nat) (s : String) : String :=
  let line := firstLine s
  if charCount line ≤ limit && line.utf8ByteSize == (trimEnd s).utf8ByteSize then line
  else String.ofList (line.toList.take (limit - 3) ++ ['.', '.', '.'])

end Phrasebook.Text
