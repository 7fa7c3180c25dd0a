import Phrasebook.Text.Basic

/-!
# Sets of characters

Finite unions of ranges of Unicode code points, as character classes denote
them.

## Main definitions

* `CharSet`, a list of ranges in order without overlaps
* `CharSet.union`, `CharSet.complement`, `CharSet.inter`
* `CharSet.named?`: the sets that properties and named classes stand for
-/
namespace Phrasebook

/-- Ranges of code points, both ends included, in increasing order. -/
abbrev CharSet := List (Nat × Nat)

namespace CharSet

/-- The largest code point. -/
def top : Nat := 0x10FFFF

/-- Whether a character belongs to a set. -/
def contains (set : CharSet) (c : Char) : Bool :=
  set.any fun (lo, hi) => lo ≤ c.toNat && c.toNat ≤ hi

/-- Put a range into its place, without merging. -/
def place (r : Nat × Nat) : CharSet → CharSet
  | [] => [r]
  | s :: rest => if r.1 ≤ s.1 then r :: s :: rest else s :: place r rest

/-- Merge touching neighbours of ranges sorted by their lower ends. -/
def mergeFrom (current : Nat × Nat) : CharSet → CharSet
  | [] => [current]
  | s :: rest =>
    if s.1 ≤ current.2 + 1 then mergeFrom (current.1, max current.2 s.2) rest
    else current :: mergeFrom s rest

/-- Ranges in order without overlaps, for ranges in any order. -/
def normalize (ranges : List (Nat × Nat)) : CharSet :=
  match ranges.foldr place [] with
  | [] => []
  | r :: rest => mergeFrom r rest

/-- Characters of either set. -/
def union (a b : CharSet) : CharSet := normalize (a ++ b)

/-- The gaps between ranges from a code point on. -/
def gapsFrom (start : Nat) : CharSet → CharSet
  | [] => if start ≤ top then [(start, top)] else []
  | (lo, hi) :: rest =>
    if start < lo then (start, lo - 1) :: gapsFrom (hi + 1) rest else gapsFrom (hi + 1) rest

/-- Characters outside a set. -/
def complement (a : CharSet) : CharSet := gapsFrom 0 a

/-- Characters of both sets. -/
def inter (a b : CharSet) : CharSet := complement (union (complement a) (complement b))

/-- Characters of the first set outside the second. -/
def diff (a b : CharSet) : CharSet := inter a (complement b)

/-- The set of one character. -/
def single (c : Char) : CharSet := [(c.toNat, c.toNat)]

/-- Every character. -/
def all : CharSet := [(0, top)]

/-- The set of the characters between two. -/
def range (a b : Char) : CharSet := [(a.toNat, b.toNat)]

/-- ASCII digits. -/
def digit : CharSet := range '0' '9'

/-- ASCII letters, digits and the underscore. -/
def word : CharSet := normalize [(0x30, 0x39), (0x41, 0x5A), (0x5F, 0x5F), (0x61, 0x7A)]

/-- Unicode white space. -/
def space : CharSet :=
  [(0x9, 0xD), (0x20, 0x20), (0x85, 0x85), (0xA0, 0xA0), (0x1680, 0x1680), (0x2000, 0x200A),
    (0x2028, 0x2029), (0x202F, 0x202F), (0x205F, 0x205F), (0x3000, 0x3000)]

/-- Both cases of the ASCII letters of a set, with the two signs that fold to
ASCII letters. -/
def foldCase (a : CharSet) : CharSet :=
  let shifted (lo hi : Nat) (offset : Int) : CharSet :=
    (inter a [(lo, hi)]).map fun (x, y) => ((x + offset).toNat, (y + offset).toNat)
  let folded := union a (union (shifted 0x41 0x5A 32) (shifted 0x61 0x7A (-32)))
  let withSign (letter sign : Nat) (s : CharSet) : CharSet :=
    if (inter s [(letter, letter)]).isEmpty && (inter s [(sign, sign)]).isEmpty then s
    else normalize ((letter, letter) :: (letter - 32, letter - 32) :: (sign, sign) :: s)
  withSign 0x73 0x17F (withSign 0x6B 0x212A folded)

/-- Latin, Greek and Cyrillic capitals outside ASCII, as far as they form
ranges. -/
def upperLetters : CharSet :=
  normalize [(0x41, 0x5A), (0xC0, 0xD6), (0xD8, 0xDE), (0x391, 0x3A9), (0x400, 0x42F)]

/-- Latin, Greek and Cyrillic small letters, as far as they form ranges. -/
def lowerLetters : CharSet :=
  normalize [(0x61, 0x7A), (0xB5, 0xB5), (0xDF, 0xF6), (0xF8, 0xFF), (0x3B1, 0x3C9),
    (0x430, 0x45F)]

/-- Letters of the larger scripts. -/
def letters : CharSet :=
  normalize [(0x41, 0x5A), (0x61, 0x7A), (0xAA, 0xAA), (0xB5, 0xB5), (0xBA, 0xBA),
    (0xC0, 0xD6), (0xD8, 0xF6), (0xF8, 0x2C1), (0x370, 0x373), (0x376, 0x37D), (0x37F, 0x37F),
    (0x386, 0x386), (0x388, 0x3FF), (0x400, 0x481), (0x48A, 0x556), (0x561, 0x587),
    (0x5D0, 0x5EA), (0x620, 0x64A), (0x671, 0x6D3), (0x904, 0x939), (0xE01, 0xE30),
    (0x10A0, 0x10FF), (0x1100, 0x11FF), (0x1E00, 0x1FFC), (0x3041, 0x3096), (0x30A1, 0x30FA),
    (0x3400, 0x4DBF), (0x4E00, 0x9FFF), (0xAC00, 0xD7A3), (0xF900, 0xFAFF), (0x20000, 0x323AF)]

/-- ASCII punctuation. -/
def punct : CharSet := [(0x21, 0x2F), (0x3A, 0x40), (0x5B, 0x60), (0x7B, 0x7E)]

/-- Sets named inside brackets, as in `[[:alpha:]]`. -/
def bracketNamed? : String → Option CharSet
  | "alnum" => some (normalize [(0x30, 0x39), (0x41, 0x5A), (0x61, 0x7A)])
  | "alpha" => some [(0x41, 0x5A), (0x61, 0x7A)]
  | "ascii" => some [(0, 0x7F)]
  | "blank" => some [(0x9, 0x9), (0x20, 0x20)]
  | "cntrl" => some [(0, 0x1F), (0x7F, 0x7F)]
  | "digit" => some digit
  | "graph" => some [(0x21, 0x7E)]
  | "lower" => some [(0x61, 0x7A)]
  | "print" => some [(0x20, 0x7E)]
  | "punct" => some punct
  | "space" => some [(0x9, 0xD), (0x20, 0x20)]
  | "upper" => some [(0x41, 0x5A)]
  | "word" => some word
  | "xdigit" => some [(0x30, 0x39), (0x41, 0x46), (0x61, 0x66)]
  | _ => none

/-- Sets named by Unicode properties, as in `\p{Lu}`. -/
def property? (name : String) : Option CharSet :=
  match (Text.asciiLower name).toList.filter (fun c => c != '_' && c != ' ' && c != '-') with
  | cs => match String.ofList cs with
    | "l" | "letter" | "alphabetic" | "alpha" => some letters
    | "lu" | "uppercaseletter" | "uppercase" => some upperLetters
    | "ll" | "lowercaseletter" | "lowercase" => some lowerLetters
    | "n" | "number" | "nd" | "decimalnumber" | "digit" => some digit
    | "p" | "punctuation" | "punct" => some punct
    | "z" | "separator" | "zs" | "spaceseparator" | "whitespace" | "space" => some space
    | "any" => some all
    | "ascii" => some [(0, 0x7F)]
    | "latin" => some (normalize [(0x41, 0x5A), (0x61, 0x7A), (0xAA, 0xAA), (0xBA, 0xBA),
        (0xC0, 0xD6), (0xD8, 0xF6), (0xF8, 0x2B8), (0x1E00, 0x1EFF)])
    | "greek" => some [(0x370, 0x373), (0x375, 0x377), (0x37A, 0x37D), (0x37F, 0x37F),
        (0x384, 0x384), (0x386, 0x386), (0x388, 0x3E1), (0x3F0, 0x3FF), (0x1F00, 0x1FFE)]
    | "cyrillic" => some [(0x400, 0x484), (0x487, 0x52F), (0x1C80, 0x1C88)]
    | "han" => some [(0x2E80, 0x2FD5), (0x3005, 0x3005), (0x3007, 0x3007), (0x3021, 0x3029),
        (0x3038, 0x303B), (0x3400, 0x4DBF), (0x4E00, 0x9FFF), (0xF900, 0xFAD9), (0x20000, 0x323AF)]
    | "hiragana" => some [(0x3041, 0x3096), (0x309D, 0x309F)]
    | "katakana" => some [(0x30A1, 0x30FA), (0x30FD, 0x30FF), (0x31F0, 0x31FF), (0xFF66, 0xFF9D)]
    | _ => none

end CharSet
end Phrasebook
