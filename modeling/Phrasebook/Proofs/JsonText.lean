import Phrasebook.Json.Print
import Phrasebook.Json.Read
import Phrasebook.Proofs.Fields

/-!
# Reading JSON text back

Values without numbers and arrays are read back from their compact text. Where a reader
stops in the text is stated by what is left; lines and columns do not matter here.

## Main definitions

* `Json.Reads`: a reader that gives a value for a text and stops after it
* `Json.Plain`: values of sorted objects, texts, truth values and nulls
* `Json.height`: nesting of a value
* `Json.WellFormed`: values whose objects are all sorted
-/
namespace Phrasebook.Json

/-- The reader gives a value for a text, whatever follows, and stops after it. -/
def Reads {α : Type} (reader : Reader α) (text : List Char) (value : α) : Prop :=
  ∀ c rest, c.rest = text ++ rest → ∃ c', reader c = .ok (value, c') ∧ c'.rest = rest

theorem rest_next {c : Cursor} {ch : Char} {rest : List Char} (h : c.rest = ch :: rest) :
    c.next.rest = rest := by
  unfold Cursor.next
  rw [h]
  dsimp only
  split <;> rfl

theorem peek?_eq {c : Cursor} {ch : Char} {rest : List Char} (h : c.rest = ch :: rest) :
    c.peek? = some ch := by
  rw [Cursor.peek?, h, List.head?_cons]

/-- There is no white space to skip in front of other characters. -/
theorem skipBlank_eq {c : Cursor} {ch : Char} {rest : List Char} (h : c.rest = ch :: rest)
    (hblank : Cursor.isBlank ch = false) : c.skipBlank = c := by
  have hne : ch ≠ '\n' := by rintro rfl; exact absurd hblank (by decide)
  obtain ⟨left, line, column⟩ := c
  subst h
  simp [Cursor.skipBlank, Cursor.skipBlankFrom, hne, hblank]

/-! ## Strings -/

theorem hexValue?_hexDigit {n : Nat} (h : n < 16) : Text.hexValue? (Text.hexDigit n) = some n := by
  have hall : ∀ n < 16, Text.hexValue? (Text.hexDigit n) = some n := by decide
  exact hall n h

/-- A control character is read back from its hexadecimal escape. -/
theorem readEscape_hex {n : Nat} (h : n < 32) :
    Reads readEscape ['u', '0', '0', Text.hexDigit (n / 16), Text.hexDigit (n % 16)]
      (Char.ofNat n) := by
  intro c rest hc
  have hu := rest_next hc
  have hlow := rest_next (rest_next (rest_next (rest_next hu)))
  have hdigits : ((0 * 16 + 0) * 16 + n / 16) * 16 + n % 16 = n := by omega
  have hread : readHex c.next = .ok (n, c.next.next.next.next.next) := by
    simp only [readHex, hu, List.append_eq, List.cons_append,
      hexValue?_hexDigit (show n / 16 < 16 by omega),
      hexValue?_hexDigit (show n % 16 < 16 by omega), show Text.hexValue? '0' = some 0 from rfl,
      hdigits]
  have hplain : ¬(56320 ≤ n ∧ n ≤ 57343) := by omega
  have hsingle : ¬(55296 ≤ n ∧ n ≤ 56319) := by omega
  refine ⟨_, ?_, hlow⟩
  simp [readEscape, peek?_eq hc, hread, bind, Except.bind, hplain, hsingle]

/-- Letters that stand for a character after a backslash. -/
theorem readEscape_letter {letter ch : Char}
    (h : (letter, ch) ∈ [('"', '"'), ('\\', '\\'), ('n', '\n'), ('r', '\r'), ('t', '\t'),
      ('b', Char.ofNat 8), ('f', Char.ofNat 12)]) :
    Reads readEscape [letter] ch := by
  intro c rest hc
  refine ⟨_, ?_, rest_next hc⟩
  simp only [List.mem_cons, Prod.mk.injEq, List.not_mem_nil, or_false] at h
  rcases h with ⟨rfl, rfl⟩ | ⟨rfl, rfl⟩ | ⟨rfl, rfl⟩ | ⟨rfl, rfl⟩ | ⟨rfl, rfl⟩ | ⟨rfl, rfl⟩ |
    ⟨rfl, rfl⟩ <;> simp [readEscape, peek?_eq hc]

/-- An escaped character is either read as it stands or after a backslash. -/
theorem escape_cases (ch : Char) :
    (escape ch = [ch] ∧ ch ≠ '"' ∧ ch ≠ '\\' ∧ 0x20 ≤ ch.toNat) ∨
      ∃ text, escape ch = '\\' :: text ∧ Reads readEscape text ch := by
  unfold escape
  split
  · next h => exact .inr ⟨_, rfl, readEscape_letter (by simp [h])⟩
  split
  · next h => exact .inr ⟨_, rfl, readEscape_letter (by simp [h])⟩
  split
  · next h => exact .inr ⟨_, rfl, readEscape_letter (by simp [h])⟩
  split
  · next h => exact .inr ⟨_, rfl, readEscape_letter (by simp [h])⟩
  split
  · next h => exact .inr ⟨_, rfl, readEscape_letter (by simp [h])⟩
  split
  · next h =>
    have hch : ch = Char.ofNat 8 := by rw [← h, Char.ofNat_toNat]
    exact .inr ⟨_, rfl, readEscape_letter (by simp [hch])⟩
  split
  · next h =>
    have hch : ch = Char.ofNat 12 := by rw [← h, Char.ofNat_toNat]
    exact .inr ⟨_, rfl, readEscape_letter (by simp [hch])⟩
  split
  · next h =>
    have hread := readEscape_hex h
    rw [Char.ofNat_toNat] at hread
    exact .inr ⟨_, rfl, hread⟩
  · next hquote hback _ _ _ _ _ hcontrol =>
    exact .inl ⟨rfl, hquote, hback, Nat.le_of_not_lt hcontrol⟩

/-- Escaped characters up to the closing quote are read as the characters. -/
theorem readStringFrom_escaped (s : List Char) (fuel : Nat) (hfuel : s.length < fuel)
    (acc : List Char) :
    Reads (fun c => readStringFrom fuel c acc) (s.flatMap escape ++ ['"'])
      (String.ofList (acc.reverse ++ s)) := by
  induction s generalizing fuel acc with
  | nil =>
    intro c rest hc
    obtain ⟨fuel, rfl⟩ := Nat.exists_eq_succ_of_ne_zero (Nat.ne_of_gt hfuel)
    refine ⟨c.next, ?_, rest_next hc⟩
    simp [readStringFrom, peek?_eq hc]
  | cons ch s ih =>
    intro c rest hc
    obtain ⟨fuel, rfl⟩ := Nat.exists_eq_succ_of_ne_zero (Nat.ne_zero_of_lt hfuel)
    have hlt : s.length < fuel := Nat.lt_of_succ_lt_succ hfuel
    have hacc : (ch :: acc).reverse ++ s = acc.reverse ++ ch :: s := by simp
    rcases escape_cases ch with ⟨hescape, hquote, hback, hcontrol⟩ | ⟨text, hescape, hread⟩
    · have hcons : c.rest = ch :: (s.flatMap escape ++ ['"'] ++ rest) := by
        rw [hc, List.flatMap_cons, hescape]
        simp
      obtain ⟨c', hread, hrest⟩ := ih fuel hlt (ch :: acc) c.next rest (rest_next hcons)
      refine ⟨c', ?_, hrest⟩
      rw [hacc] at hread
      simpa only [readStringFrom, peek?_eq hcons, if_neg hquote, if_neg hback,
        if_neg (Nat.not_lt.mpr hcontrol)] using hread
    · have hcons : c.rest = '\\' :: (text ++ (s.flatMap escape ++ ['"'] ++ rest)) := by
        rw [hc, List.flatMap_cons, hescape]
        simp
      obtain ⟨c₁, hread₁, hrest₁⟩ := hread c.next _ (rest_next hcons)
      obtain ⟨c', hread, hrest⟩ := ih fuel hlt (ch :: acc) c₁ rest hrest₁
      refine ⟨c', ?_, hrest⟩
      rw [hacc] at hread
      simpa [readStringFrom, peek?_eq hcons, hread₁, bind, Except.bind] using hread

/-- A quoted text without its opening quote. -/
def unopened (s : String) : List Char := s.toList.flatMap escape ++ ['"']

theorem quote_toList (s : String) : (quote s).toList = '"' :: unopened s := by
  simp [quote, unopened]

theorem length_le_escaped (s : List Char) : s.length ≤ (s.flatMap escape).length := by
  induction s with
  | nil => exact Nat.le_refl 0
  | cons ch s ih =>
    have hpos : 1 ≤ (escape ch).length := by
      rcases escape_cases ch with ⟨h, -⟩ | ⟨text, h, -⟩ <;> simp [h]
    rw [List.flatMap_cons, List.length_append, List.length_cons]
    omega

/-- A string is read back from its quoted text. -/
theorem readString_quoted (s : String) : Reads readString (unopened s) s := by
  intro c rest hc
  have hfuel : s.toList.length < c.rest.length + 1 := by
    have hle := length_le_escaped s.toList
    rw [hc, unopened, List.length_append, List.length_append]
    omega
  have hread := readStringFrom_escaped s.toList _ hfuel [] c rest hc
  rwa [List.reverse_nil, List.nil_append, String.ofList_toList] at hread

/-! ## Values -/

/-- Values of sorted objects, texts, truth values and nulls. -/
inductive Plain : Json → Prop
  | null : Plain .null
  | bool (b : Bool) : Plain (.bool b)
  | str (s : String) : Plain (.str s)
  | obj {entries : Fields} (sorted : Fields.Sorted entries)
      (plain : ∀ entry ∈ entries, Plain entry.2) : Plain (.obj entries)

mutual

/-- Nesting of the objects of a value. -/
def height : Json → Nat
  | .obj entries => heightEntries entries + 1
  | _ => 0

/-- Nesting of the objects among the values of entries. -/
def heightEntries : List (String × Json) → Nat
  | [] => 0
  | (_, value) :: rest => Nat.max (height value) (heightEntries rest)

end

/-- Text of entries after a brace or another entry, up to the closing brace. -/
def entriesText : Bool → List (String × Json) → List Char
  | _, [] => ['\x7d']
  | first, (key, value) :: rest =>
    (if first then [] else [',']) ++
      '"' :: (unopened key ++ ':' :: (value.compact.toList ++ entriesText false rest))

theorem join_entries (entries : List (String × Json)) :
    (Text.join "," (compactEntries entries)).toList ++ ['\x7d'] = entriesText true entries := by
  induction entries with
  | nil => rfl
  | cons entry rest ih =>
    obtain ⟨key, value⟩ := entry
    cases rest with
    | nil => simp [compactEntries, Text.join, entriesText, quote_toList]
    | cons next rest =>
      have hcomma : entriesText false (next :: rest) = ',' :: entriesText true (next :: rest) := rfl
      rw [entriesText, hcomma, ← ih]
      simp [compactEntries, Text.join, quote_toList]

theorem compact_obj (entries : Fields) :
    (compact (.obj entries)).toList = '\x7b' :: entriesText true entries := by
  rw [← join_entries]
  simp [compact]

theorem readWord_text (value : Json) (word : List Char) :
    Reads (readWord value word) word value := by
  induction word with
  | nil => exact fun c rest hc => ⟨c, rfl, hc⟩
  | cons ch word ih =>
    intro c rest hc
    obtain ⟨c', hread, hrest⟩ := ih c.next rest (rest_next hc)
    refine ⟨c', ?_, hrest⟩
    simp only [readWord, peek?_eq hc, if_true, hread]

/-- The next key is read up to its closing quote. -/
theorem nextKey_text (first : Bool) (key : String) :
    Reads (nextKey first) ((if first then [] else [',']) ++ '"' :: unopened key) (some key) := by
  intro c rest hc
  cases first with
  | true =>
    have hquote : c.rest = '"' :: (unopened key ++ rest) := hc
    obtain ⟨c', hread, hrest⟩ := readString_quoted key c.next rest (rest_next hquote)
    refine ⟨c', ?_, hrest⟩
    simp [nextKey, skipBlank_eq hquote, peek?_eq hquote, hread, Except.map, Cursor.isBlank]
  | false =>
    have hcomma : c.rest = ',' :: '"' :: (unopened key ++ rest) := hc
    have hquote := rest_next hcomma
    obtain ⟨c', hread, hrest⟩ := readString_quoted key c.next.next rest (rest_next hquote)
    refine ⟨c', ?_, hrest⟩
    simp [nextKey, skipBlank_eq hcomma, peek?_eq hcomma, skipBlank_eq hquote, peek?_eq hquote,
      hread, Except.map, Cursor.isBlank]

theorem nextKey_closing (first : Bool) {c : Cursor} {rest : List Char}
    (hc : c.rest = '\x7d' :: rest) : nextKey first c = .ok (none, c) := by
  simp [nextKey, skipBlank_eq hc, peek?_eq hc, Cursor.isBlank]

theorem readColon_text {c : Cursor} {rest : List Char} (hc : c.rest = ':' :: rest) :
    readColon c = .ok c.next := by
  simp [readColon, skipBlank_eq hc, peek?_eq hc, Cursor.isBlank]

/-- Inserting a last name appends its entry. -/
theorem insert_last {fields : Fields} {name : String} {value : Json}
    (h : ∀ entry ∈ fields, entry.1 < name) :
    Fields.insert name value fields = fields ++ [(name, value)] := by
  induction fields with
  | nil => rfl
  | cons entry rest ih =>
    obtain ⟨hfirst, hrest⟩ := List.forall_mem_cons.mp h
    rw [Fields.insert_cons_of_gt hfirst, ih hrest, List.cons_append]

/-- Entries are read one by one if their values are. -/
theorem readEntries_text {depth : Nat} {entries : Fields}
    (hvalue : ∀ entry ∈ entries, ∀ fuel, entry.2.compact.toList.length ≤ fuel →
      Reads (readValue fuel depth) entry.2.compact.toList entry.2)
    (acc : Fields) (hsorted : Fields.Sorted (acc ++ entries)) (first : Bool) {fuel : Nat}
    (hfuel : (entriesText first entries).length ≤ fuel) :
    Reads (readEntries fuel depth first acc) (entriesText first entries)
      (.obj (acc ++ entries)) := by
  induction entries generalizing acc first fuel with
  | nil =>
    intro c rest hc
    obtain ⟨fuel, rfl⟩ := Nat.exists_eq_succ_of_ne_zero (Nat.ne_zero_of_lt hfuel)
    refine ⟨c.next, ?_, rest_next hc⟩
    simp [readEntries, nextKey_closing first hc, bind, Except.bind]
  | cons entry entries ih =>
    intro c rest hc
    obtain ⟨key, value⟩ := entry
    obtain ⟨hfirst, hrest⟩ := List.forall_mem_cons.mp hvalue
    have hlength : value.compact.toList.length + (entriesText false entries).length + 1 <
        (entriesText first ((key, value) :: entries)).length := by
      simp only [entriesText, List.length_append, List.length_cons]
      omega
    obtain ⟨fuel, rfl⟩ := Nat.exists_eq_succ_of_ne_zero
      (Nat.ne_zero_of_lt (Nat.lt_of_lt_of_le hlength hfuel))
    have hvalueFits : value.compact.toList.length ≤ fuel := by omega
    have hrestFits : (entriesText false entries).length ≤ fuel := by omega
    have hkey : c.rest = ((if first then [] else [',']) ++ '"' :: unopened key) ++
        ':' :: (value.compact.toList ++ (entriesText false entries ++ rest)) := by
      rw [hc, entriesText]
      simp
    obtain ⟨c₁, hread₁, hrest₁⟩ := nextKey_text first key c _ hkey
    obtain ⟨c₂, hread₂, hrest₂⟩ := hfirst fuel hvalueFits c₁.next _ (rest_next hrest₁)
    have hlast : ∀ entry ∈ acc, entry.1 < key := fun entry hentry =>
      (List.pairwise_append.mp hsorted).2.2 entry hentry _ List.mem_cons_self
    have happend : acc ++ (key, value) :: entries = (acc ++ [(key, value)]) ++ entries := by simp
    rw [happend] at hsorted ⊢
    obtain ⟨c', hread, hrest'⟩ := ih hrest _ hsorted false hrestFits c₂ rest hrest₂
    refine ⟨c', ?_, hrest'⟩
    simp only [readEntries, hread₁, readColon_text hrest₁, hread₂, insert_last hlast, hread, bind,
      Except.bind]

theorem heightEntries_le_iff {entries : Fields} {n : Nat} :
    heightEntries entries ≤ n ↔ ∀ entry ∈ entries, height entry.2 ≤ n := by
  induction entries with
  | nil => simp [heightEntries]
  | cons first rest ih =>
    rw [heightEntries, List.forall_mem_cons, ← ih]
    exact Nat.max_le

/-- A value that is spelled by a word is read from it. -/
theorem readValue_word {value : Json} {ch : Char} {word : List Char} {fuel depth : Nat}
    (hblank : Cursor.isBlank ch = false)
    (hstart : ∀ c : Cursor, c.skipBlank.peek? = some ch →
      readValue (fuel + 1) depth c = readWord value word c.skipBlank.next) :
    Reads (readValue (fuel + 1) depth) (ch :: word) value := by
  intro c rest hc
  have hskip : c.skipBlank = c := skipBlank_eq hc hblank
  obtain ⟨c', hread, hrest⟩ := readWord_text value word c.next rest (rest_next hc)
  refine ⟨c', ?_, hrest⟩
  rw [hstart c (by rw [hskip, peek?_eq hc]), hskip, hread]

/-- A plain value is read back from its compact text. -/
theorem readValue_text {value : Json} (h : Plain value) {depth : Nat}
    (hdepth : height value < depth) {fuel : Nat} (hfuel : value.compact.toList.length ≤ fuel) :
    Reads (readValue fuel depth) value.compact.toList value := by
  induction h generalizing depth fuel with
  | null =>
    obtain ⟨fuel, rfl⟩ := Nat.exists_eq_succ_of_ne_zero (Nat.ne_zero_of_lt hfuel)
    have htext : (compact .null).toList = ['n', 'u', 'l', 'l'] := by simp [compact]
    rw [htext]
    exact readValue_word (by decide) fun c hpeek => by simp [readValue, hpeek]
  | bool b =>
    have hpos : 0 < (compact (.bool b)).toList.length := by cases b <;> decide
    obtain ⟨fuel, rfl⟩ := Nat.exists_eq_succ_of_ne_zero
      (Nat.ne_zero_of_lt (Nat.lt_of_lt_of_le hpos hfuel))
    cases b with
    | true =>
      have htext : (compact (.bool true)).toList = ['t', 'r', 'u', 'e'] := by simp [compact]
      rw [htext]
      exact readValue_word (by decide) fun c hpeek => by simp [readValue, hpeek]
    | false =>
      have htext : (compact (.bool false)).toList = ['f', 'a', 'l', 's', 'e'] := by simp [compact]
      rw [htext]
      exact readValue_word (by decide) fun c hpeek => by simp [readValue, hpeek]
  | str s =>
    intro c rest hc
    rw [compact, quote_toList] at hc hfuel
    obtain ⟨fuel, rfl⟩ := Nat.exists_eq_succ_of_ne_zero (Nat.ne_zero_of_lt hfuel)
    obtain ⟨c', hread, hrest⟩ := readString_quoted s c.next rest (rest_next hc)
    refine ⟨c', ?_, hrest⟩
    rw [List.cons_append] at hc
    simp [readValue, skipBlank_eq hc, peek?_eq hc, Cursor.isBlank, hread, Except.map]
  | @obj entries sorted plain ih =>
    intro c rest hc
    rw [compact_obj] at hc hfuel
    obtain ⟨fuel, rfl⟩ := Nat.exists_eq_succ_of_ne_zero (Nat.ne_zero_of_lt hfuel)
    rw [height] at hdepth
    have hvalue : ∀ entry ∈ entries, ∀ fuel, entry.2.compact.toList.length ≤ fuel →
        Reads (readValue fuel (depth - 1)) entry.2.compact.toList entry.2 := by
      intro entry hentry fuel hfits
      have hle := heightEntries_le_iff.mp (Nat.le_refl _) entry hentry
      exact ih entry hentry (by omega) hfits
    obtain ⟨c', hread, hrest⟩ := readEntries_text hvalue [] sorted true
      (Nat.le_of_succ_le_succ hfuel) c.next rest (rest_next hc)
    refine ⟨c', ?_, hrest⟩
    rw [List.cons_append] at hc
    have hdeep : ¬depth ≤ 1 := by omega
    simpa [readValue, skipBlank_eq hc, peek?_eq hc, Cursor.isBlank, hdeep] using hread

theorem readEnd_done {c : Cursor} (h : c.rest = []) : readEnd c = .ok () := by
  simp [readEnd, Cursor.skipBlank, h, Cursor.skipBlankFrom, Cursor.peek?]

/-- The compact text of a plain value of bounded nesting denotes the value. -/
theorem read_compact {value : Json} (h : Plain value) (hheight : height value < depthLimit) :
    read value.compact = .ok value := by
  have hfuel : value.compact.toList.length ≤
      2 * (Cursor.ofString value.compact).rest.length + 4 := by
    simp only [Cursor.ofString]
    omega
  obtain ⟨c', hread, hrest⟩ := readValue_text h hheight hfuel (Cursor.ofString value.compact) []
    (by simp [Cursor.ofString])
  simp only [read, hread, readEnd_done hrest, bind, Except.bind]

/-! ## Sorted objects -/

/-- Values whose objects are all sorted by key. -/
inductive WellFormed : Json → Prop
  | null : WellFormed .null
  | bool (b : Bool) : WellFormed (.bool b)
  | num (n : Number) : WellFormed (.num n)
  | str (s : String) : WellFormed (.str s)
  | arr {items : List Json} (items_wellFormed : ∀ item ∈ items, WellFormed item) :
    WellFormed (.arr items)
  | obj {entries : Fields} (sorted : Fields.Sorted entries)
      (entries_wellFormed : ∀ entry ∈ entries, WellFormed entry.2) : WellFormed (.obj entries)

theorem WellFormed.sorted {entries : Fields} (h : WellFormed (.obj entries)) : entries.Sorted := by
  cases h with
  | obj sorted _ => exact sorted

theorem WellFormed.of_mem {entries : Fields} (h : WellFormed (.obj entries)) :
    ∀ entry ∈ entries, WellFormed entry.2 := by
  cases h with
  | obj _ entries_wellFormed => exact entries_wellFormed

/-- An object of texts is well formed if its entries are sorted. -/
theorem wellFormed_of_texts {entries : Fields} (hsorted : entries.Sorted)
    (htexts : entries.all (fun entry => entry.2.str?.isSome) = true) :
    (obj entries).WellFormed := by
  refine .obj hsorted fun entry hentry => ?_
  have htext := List.all_eq_true.mp htexts entry hentry
  cases hvalue : entry.2 with
  | str s => exact .str s
  | _ => simp [hvalue, str?] at htext

end Phrasebook.Json
