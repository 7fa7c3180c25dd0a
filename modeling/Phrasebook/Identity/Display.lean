import Phrasebook.Identity.RecordId
import Phrasebook.Text.Truncate

/-!
# Keys for display

## Main definitions

* `RecordId.shortOfText`: the short form of a text that may spell a key
-/
namespace Phrasebook.RecordId

/-- The short form of the key a text spells; any other text is cut to eight
characters. -/
def shortOfText (s : String) : String :=
  match parse s with
  | .ok id => id.short
  | .error _ => Text.truncate 8 s

end Phrasebook.RecordId
