import Phrasebook.Text.Basic

/-!
# UUIDs

A UUID is thirty-two hexadecimal digits. It may be written plain, hyphenated in
groups of 8, 4, 4, 4 and 12, in braces, or after `urn:uuid:`; it is always
printed hyphenated in lower case.

## Main definitions

* `Uuid`, with `Uuid.text` and the order of its digits
* `Uuid.parse`: the UUID a text spells, or why it spells none
-/
namespace Phrasebook

/-- Thirty-two hexadecimal digits. -/
structure Uuid where
  digits : List (Fin 16)
  length_eq : digits.length = 32
  deriving DecidableEq

/-- Why a text is no UUID. -/
inductive UuidError where
  | character (found : Char) (index : Nat)
  | length (found : Nat)
  | groupCount (found : Nat)
  | groupLength (group expected found : Nat)
  deriving DecidableEq, Repr

/-- The message of a malformed UUID. -/
def UuidError.message : UuidError → String
  | .character c i => s!"invalid character: found `{c}` at {i}"
  | .length n => s!"invalid length: found {n}"
  | .groupCount n => s!"invalid group count: expected 5, found {n}"
  | .groupLength g e n => s!"invalid group length in group {g}: expected {e}, found {n}"

namespace Uuid

/-- The value of a hexadecimal digit of either case. -/
def digit? (c : Char) : Option (Fin 16) :=
  match Text.hexValue? c with
  | some n => if h : n < 16 then some ⟨n, h⟩ else none
  | none => none

/-- The UUID with the given digits, if there are thirty-two. -/
def ofDigits? (digits : List (Fin 16)) : Option Uuid :=
  if h : digits.length = 32 then some ⟨digits, h⟩ else none

/-- The UUID whose digits are written without any separator. -/
def ofPlain? (cs : List Char) : Option Uuid := (cs.mapM digit?).bind ofDigits?

/-- The UUID of sixteen random bytes: two of its digits are not random, they say
that the others are. -/
def ofRandom? (bytes : List Nat) : Option Uuid :=
  let digits := bytes.flatMap fun b => [b / 16, b]
  let marked := (digits.set 12 4).set 16 (8 + digits.getD 16 0 % 4)
  ofDigits? (marked.map (Fin.ofNat 16))

/-- Drop the four hyphens of the hyphenated form. -/
def ungroup? (cs : List Char) : Option (List Char) :=
  if cs.length = 36 ∧ [8, 13, 18, 23].all (fun i => cs[i]? = some '-') then
    some (cs.take 8 ++ (cs.drop 9).take 4 ++ (cs.drop 14).take 4 ++
      (cs.drop 19).take 4 ++ cs.drop 24)
  else none

/-- The UUID written in the hyphenated form. -/
def ofHyphenated? (cs : List Char) : Option Uuid := (ungroup? cs).bind ofPlain?

/-- The text inside a pair of braces. -/
def unbrace? : List Char → Option (List Char)
  | '\x7b' :: rest => Text.beforeEnd? ['\x7d'] rest
  | _ => none

/-- The text after `urn:uuid:` in any case. -/
def afterUrn? (cs : List Char) : Option (List Char) :=
  if (cs.take 9).map Char.toLower = "urn:uuid:".toList then some (cs.drop 9) else none

/-- The UUID a text spells in one of the four forms. -/
def ofText? (cs : List Char) : Option Uuid :=
  (ofPlain? cs).orElse fun _ =>
  (ofHyphenated? cs).orElse fun _ =>
  ((unbrace? cs).bind ofHyphenated?).orElse fun _ =>
  (afterUrn? cs).bind ofHyphenated?

/-! ## Diagnosis -/

/-- Characters with their byte positions, from a position on. -/
def withOffsets : Nat → List Char → List (Nat × Char)
  | _, [] => []
  | i, c :: cs => (i, c) :: withOffsets (i + c.utf8Size) cs

/-- The first group of a hyphenated text whose end is out of place. -/
def badGroup? (ends : List Nat) : Option UuidError :=
  let groups := [(0, 8, 8, 0), (1, 4, 13, 9), (2, 4, 18, 14), (3, 4, 23, 19)]
  (groups.zip ends).findSome? fun ((group, expected, place, start), found) =>
    if found = place then none else some (.groupLength group expected (found - start))

/-- Why a text outside the four forms is no UUID. `whole` is the text the
positions count in, `skipped` the part of it in front of the scanned digits. -/
def diagnoseIn (whole scanned : List Char) (skipped : Nat) (marked : Bool) : UuidError :=
  let placed := withOffsets skipped scanned
  let hyphens := (withOffsets 0 scanned).filterMap fun (i, c) => if c = '-' then some i else none
  match placed.find? fun (_, c) => c != '-' && (Text.hexValue? c).isNone with
  | some (i, c) => .character c i
  | none =>
    if hyphens.isEmpty && !marked then .length (Text.utf8Length whole)
    else if hyphens.length ≠ 4 then .groupCount (hyphens.length + 1)
    else match badGroup? hyphens with
      | some e => e
      | none => .groupLength 4 12 (Text.utf8Length whole - 24)

/-- Why a text is no UUID. The marks of a braced or `urn:uuid:` text are set
aside first when the rest has the length of the hyphenated form. -/
def diagnose (cs : List Char) : UuidError :=
  let length := Text.utf8Length cs
  if length = 0 ∨ 45 < length then .length length
  else match unbrace? cs with
    | some inner =>
      if length = 38 then diagnoseIn inner inner 0 true else diagnoseIn cs inner 1 true
    | none => match afterUrn? cs with
      | some inner =>
        if length = 45 then diagnoseIn inner inner 0 true else diagnoseIn cs inner 9 true
      | none => diagnoseIn cs cs 0 (length = 36)

/-- The UUID a text spells, or why it spells none. -/
def parse (s : String) : Except UuidError Uuid :=
  match ofText? s.toList with
  | some uuid => .ok uuid
  | none => .error (diagnose s.toList)

/-! ## Text -/

/-- The digits in lower case. -/
def plainChars (uuid : Uuid) : List Char := uuid.digits.map fun d => Text.hexDigit d.val

/-- Hyphens between the five groups of digits. -/
def group (cs : List Char) : List Char :=
  cs.take 8 ++ '-' :: ((cs.drop 8).take 4 ++ '-' :: ((cs.drop 12).take 4 ++
    '-' :: ((cs.drop 16).take 4 ++ '-' :: cs.drop 20)))

/-- The hyphenated form in lower case. -/
def text (uuid : Uuid) : String := String.ofList (group uuid.plainChars)

/-- UUIDs in the order of their digits, which is that of their bytes. -/
def compare (a b : Uuid) : Ordering := Ord.compare a.digits b.digits

instance : Repr Uuid := ⟨fun uuid _ => uuid.text⟩

end Uuid
end Phrasebook
