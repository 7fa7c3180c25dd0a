import Phrasebook.Proofs.Listings
import Phrasebook.Proofs.References

/-!
# The order of keys

UUIDs come before locale codes, and keys of one form are in the order of their bytes. That is also
the order of the bytes of their texts: hexadecimal digits of lower case keep the order of what
they denote, and hyphens stand at the same places in all UUIDs. All keys of a kind have one form,
so the engine puts the rows of a kind, ordered by the texts of their keys, into the order of keys.

## Main definitions

* `Uuid.bytes`, `RecordId.bytes`: the bytes of a key
* `RecordId.rank`: the form of a key
* `Record.KeyedByForm`: the key of a record has the form of its kind
* `Row.KeyBefore`: rows in the order of their keys
-/
namespace Phrasebook

/-! ## Comparing lists -/

section Lists

variable {α : Type} [Ord α] {as bs : List α}

/-- Lists are compared by their beginnings of the same length first. -/
theorem compare_append (cs ds : List α) (h : as.length = bs.length) :
    compare (as ++ cs) (bs ++ ds) = (compare as bs).then (compare cs ds) := by
  induction as generalizing bs with
  | nil =>
    obtain rfl := List.length_eq_zero_iff.mp h.symm
    rfl
  | cons a as ih =>
    cases bs with
    | nil => cases h
    | cons b bs =>
      rw [List.cons_append, List.cons_append, List.compare_cons_cons, List.compare_cons_cons,
        ih (Nat.succ.inj h), Ordering.then_assoc]

theorem compare_take_drop (n : Nat) (h : as.length = bs.length) :
    compare as bs = (compare (as.take n) (bs.take n)).then (compare (as.drop n) (bs.drop n)) := by
  rw [← compare_append _ _ (by simp [h]), List.take_append_drop, List.take_append_drop]

/-- Lists compare as those of images that compare as the items do. -/
theorem compare_map {β : Type} [Ord β] {f : α → β} (h : ∀ a b, compare (f a) (f b) = compare a b)
    (as bs : List α) : compare (as.map f) (bs.map f) = compare as bs := by
  induction as generalizing bs with
  | nil => cases bs <;> rfl
  | cons a as ih =>
    cases bs with
    | nil => rfl
    | cons b bs =>
      rw [List.map_cons, List.map_cons, List.compare_cons_cons, List.compare_cons_cons, h, ih]

end Lists

/-! ## UUIDs -/

namespace Uuid

/-- The byte of two hexadecimal digits. -/
def byte (high low : Fin 16) : UInt8 := .ofNat (16 * high + low)

/-- The bytes of hexadecimal digits, two digits to a byte. -/
def pack : List (Fin 16) → List UInt8
  | high :: low :: rest => byte high low :: pack rest
  | _ => []

/-- The sixteen bytes of a UUID. -/
def bytes (u : Uuid) : List UInt8 := pack u.digits

theorem toNat_byte (high low : Fin 16) : (byte high low).toNat = 16 * high + low := by
  rw [byte, UInt8.toNat_ofNat']
  omega

/-- Bytes are compared by their high digits first. -/
theorem compare_byte (a b c d : Fin 16) :
    Ord.compare (byte a b) (byte c d) = (Ord.compare a c).then (Ord.compare b d) := by
  have hnat : ∀ x y : UInt8, Ord.compare x.toNat y.toNat = Ord.compare x y :=
    compare_eq_of_lt_iff fun _ _ => by
      rw [Nat.compare_eq_lt, ← UInt8.lt_iff_toNat_lt]
      exact compareOfLessAndEq_eq_lt.symm
  have hfin : ∀ x y : Fin 16, Ord.compare x y = Ord.compare x.val y.val := fun _ _ => rfl
  rw [← hnat, toNat_byte, toNat_byte, hfin, hfin]
  rcases Nat.lt_trichotomy a c with hlt | heq | hgt
  · rw [Nat.compare_eq_lt.mpr hlt, Nat.compare_eq_lt.mpr (by omega)]
    rfl
  · rw [heq, Std.ReflOrd.compare_self, Ordering.eq_then]
    refine compare_eq_of_lt_iff (fun m n : Nat => ?_) b.val d.val
    rw [Nat.compare_eq_lt, Nat.compare_eq_lt, Nat.add_lt_add_iff_left]
  · rw [Nat.compare_eq_gt.mpr hgt, Nat.compare_eq_gt.mpr (by omega)]
    rfl

theorem compare_pack (n : Nat) {as bs : List (Fin 16)} (has : as.length = 2 * n)
    (hbs : bs.length = 2 * n) : Ord.compare (pack as) (pack bs) = Ord.compare as bs := by
  have hpair : ∀ {n : Nat} {digits : List (Fin 16)}, digits.length = 2 * (n + 1) →
      ∃ high low rest, digits = high :: low :: rest := by
    intro n digits hlength
    match digits with
    | high :: low :: rest => exact ⟨high, low, rest, rfl⟩
    | [_] | [] =>
      simp only [List.length_cons, List.length_nil] at hlength
      omega
  induction n generalizing as bs with
  | zero =>
    obtain rfl := List.length_eq_zero_iff.mp has
    obtain rfl := List.length_eq_zero_iff.mp hbs
    rfl
  | succ n ih =>
    obtain ⟨a, b, as, rfl⟩ := hpair has
    obtain ⟨c, d, bs, rfl⟩ := hpair hbs
    simp only [List.length_cons] at has hbs
    rw [pack, pack, List.compare_cons_cons, List.compare_cons_cons, List.compare_cons_cons,
      compare_byte, ih (by omega) (by omega), Ordering.then_assoc]

/-- Hyphens at the same places do not matter. -/
theorem compare_group {cs ds : List Char} (h : cs.length = ds.length) :
    Ord.compare (group cs) (group ds) = Ord.compare cs ds := by
  have hcut : ∀ n m, Ord.compare (cs.drop n) (ds.drop n) =
      (Ord.compare ((cs.drop n).take m) ((ds.drop n).take m)).then
        (Ord.compare (cs.drop (n + m)) (ds.drop (n + m))) := by
    intro n m
    rw [compare_take_drop m (by simp [h]), List.drop_drop, List.drop_drop]
  have hhyphen : ∀ as bs : List Char, Ord.compare ('-' :: as) ('-' :: bs) = Ord.compare as bs := by
    intro as bs
    rw [List.compare_cons_cons, Std.ReflOrd.compare_self, Ordering.eq_then]
  rw [group, group, compare_append _ _ (by simp [h]), hhyphen, compare_append _ _ (by simp [h]),
    hhyphen, compare_append _ _ (by simp [h]), hhyphen, compare_append _ _ (by simp [h]), hhyphen,
    compare_take_drop 8 h, hcut 8 4, hcut 12 4, hcut 16 4]

/-- UUIDs are in the order of their bytes. -/
theorem compare_eq_bytes (u v : Uuid) : u.compare v = Ord.compare u.bytes v.bytes :=
  (compare_pack 16 u.length_eq v.length_eq).symm

/-- UUIDs are in the order of their texts. -/
theorem compare_eq_text (u v : Uuid) : u.compare v = Ord.compare u.text v.text := by
  have hdigits : Ord.compare u.plainChars v.plainChars = u.compare v :=
    compare_map (by decide) u.digits v.digits
  rw [← Text.compare_toList, text, text, String.toList_ofList, String.toList_ofList,
    compare_group (by rw [plainChars_length, plainChars_length]), hdigits]

end Uuid

/-! ## Keys -/

namespace RecordId

/-- The place of the form of a key: UUIDs come first, then locale codes. -/
def rank : RecordId → Nat
  | uuid _ => 0
  | locale _ => 1

/-- The bytes of a key: the sixteen of a UUID, the five of a locale code. -/
def bytes : RecordId → List UInt8
  | uuid u => u.bytes
  | locale code => Text.bytes code.text

variable {a b : RecordId}

/-- Keys are in the order of their forms, and those of one form in the order of their bytes. -/
theorem compare_eq_bytes (a b : RecordId) :
    a.compare b = (Ord.compare a.rank b.rank).then (Ord.compare a.bytes b.bytes) := by
  cases a with
  | uuid u =>
    cases b with
    | uuid v => exact Uuid.compare_eq_bytes u v
    | locale code => rfl
  | locale code =>
    cases b with
    | uuid v => rfl
    | locale code' => exact (Text.compare_bytes code.text code'.text).symm

/-- Keys of one form are in the order of their texts. -/
theorem compare_eq_text (h : a.rank = b.rank) : a.compare b = Ord.compare a.text b.text := by
  cases a with
  | uuid u =>
    cases b with
    | uuid v => exact Uuid.compare_eq_text u v
    | locale code => cases h
  | locale code =>
    cases b with
    | uuid v => cases h
    | locale code' => rfl

/-- Across the forms the texts may be in the other order. -/
example : let a := uuid ⟨List.replicate 32 15, rfl⟩
    let b := locale ⟨"en-US", by decide⟩
    a.compare b = .lt ∧ Ord.compare b.text a.text = .lt := by decide

end RecordId

/-! ## Rows -/

namespace Table

variable {x y : Row} {a b : RecordId}

theorem compareRows_append (columns more : List String) (x y : Row) :
    compareRows (columns ++ more) x y =
      (compareRows columns x y).then (compareRows more x y) := by
  induction columns with
  | nil => rfl
  | cons c columns ih => rw [List.cons_append, compareRows, compareRows, ih, Ordering.then_assoc]

/-- Rows whose keys have one form are in the order of their keys. -/
theorem compareRows_idField (hx : Row.cell x idField = some a.text)
    (hy : Row.cell y idField = some b.text) (h : a.rank = b.rank) :
    compareRows [idField] x y = a.compare b := by
  rw [compareRows, compareRows, Ordering.then_eq, hx, hy, RecordId.compare_eq_text h]
  rfl

end Table

/-- The keys of two rows are in order. -/
def Row.KeyBefore (x y : Row) : Prop :=
  ∃ a b : RecordId, Row.cell x idField = some a.text ∧ Row.cell y idField = some b.text ∧
    a.compare b = .lt

/-- The order of lists, in whatever columns come before the key, is that of the keys in the end. -/
theorem Descriptor.compareRows_listOrder (d : Descriptor) :
    ∃ columns, d.listOrder = columns ++ [idField] ∧ ∀ (a b : RecordId) (x y : Row),
      a.rank = b.rank → Row.cell x idField = some a.text → Row.cell y idField = some b.text →
        Table.compareRows d.listOrder x y =
          (Table.compareRows columns x y).then (a.compare b) := by
  refine ⟨_, rfl, fun a b x y h hx hy => ?_⟩
  rw [listOrder, Table.compareRows_append, Table.compareRows_idField hx hy h]

/-! ## Stored keys -/

/-- The form of the keys of a kind. -/
def RecordKind.keyRank : RecordKind → Nat
  | locale => 1
  | _ => 0

/-- The key of a record has the form of its kind. -/
def Record.KeyedByForm (r : Record) : Prop := r.id.rank = r.kind.keyRank

namespace Record

variable {kind : RecordKind} {r : Record}

theorem keyedByForm_of_validate {input : Json} {fresh : Uuid} {now : Instant}
    (h : Registry.builtin.validate kind input fresh now = .ok r) : r.KeyedByForm := by
  have hkind : r.kind = kind := by
    obtain ⟨candidate, -, -, rfl⟩ := Registry.validate_eq_ok_iff.mp h
    rfl
  cases kind with
  | locale =>
    obtain ⟨candidate, -, hviolations, rfl⟩ := Registry.validate_eq_ok_iff.mp h
    obtain ⟨code, hcode⟩ := id_ofCandidate_locale
      (Descriptor.candidateViolations_eq_nil_iff.mp hviolations).1
    rw [KeyedByForm, hkind, hcode]
    rfl
  | template | email | sms =>
    obtain ⟨u, hu⟩ := keyedByUuid_of_validate h (by rw [hkind]; decide)
    rw [KeyedByForm, hkind, hu]
    rfl

theorem lasting_keyedByForm : Lasting KeyedByForm :=
  lasting_of_key (Q := fun kind id => id.rank = kind.keyRank) keyedByForm_of_validate

end Record

namespace Store

variable {s : Store} {contents : Contents}

/-- Ordered by the texts of their keys, the rows of a kind are in the order of their keys. -/
theorem Holds.pairwise_keyBefore (h : s.Holds contents) (hkeyed : contents.All Record.KeyedByForm)
    (kind : RecordKind) :
    (Table.sorted [idField] (s.database.records kind)).Pairwise Row.KeyBefore := by
  have hdistinct : (s.database.records kind).Pairwise fun x y =>
      Table.compareRows [idField] x y ≠ .eq := by
    rw [h.database.records_eq, List.pairwise_map]
    refine (h.database.pairwise_id kind).imp fun {a b} hid heq => hid ?_
    simpa using Table.compareRows_eq_eq.mp heq idField List.mem_cons_self
  have hkey : ∀ row ∈ Table.sorted [idField] (s.database.records kind), ∃ id : RecordId,
      Row.cell row idField = some id.text ∧ id.rank = kind.keyRank := by
    intro row hrow
    rw [Table.sorted, List.mem_mergeSort, h.database.records_eq] at hrow
    obtain ⟨r, hr, rfl⟩ := List.mem_map.mp hrow
    exact ⟨r.id, r.cell_id, (hkeyed kind r hr).trans (by rw [h.database.kind_eq kind r hr])⟩
  refine (pairwise_mergeSort_lt hdistinct).imp_of_mem fun {x y} hx hy hlt => ?_
  obtain ⟨a, ha, harank⟩ := hkey x hx
  obtain ⟨b, hb, hbrank⟩ := hkey y hy
  rw [Table.compareRows_idField ha hb (harank.trans hbrank.symm)] at hlt
  exact ⟨a, b, ha, hb, hlt⟩

end Store

/-- Keys are in the order of their forms and then of their bytes, so that every UUID comes before
every locale code, and keys of one form are in the order of the bytes of their texts. Rows whose
keys have one form agree with that in the order of lists, after whatever columns come before the
key. All rows of a kind do, in every store of a run that is supplied with records obtained before:
ordered by the texts of their keys they are in the order of their keys. -/
theorem RecordId.orders_agree :
    (∀ a b : RecordId,
      a.compare b = (Ord.compare a.rank b.rank).then (Ord.compare a.bytes b.bytes)) ∧
    (∀ a b : RecordId, a.rank = b.rank →
      a.compare b = Ord.compare (Text.bytes a.text) (Text.bytes b.text)) ∧
    (∀ (u : Uuid) (code : LocaleCode), (uuid u).compare (locale code) = .lt) ∧
    (∀ d : Descriptor, ∃ columns, d.listOrder = columns ++ [idField] ∧
      ∀ (a b : RecordId) (x y : Row), a.rank = b.rank →
        Row.cell x idField = some a.text → Row.cell y idField = some b.text →
          Table.compareRows d.listOrder x y =
            (Table.compareRows columns x y).then (a.compare b)) ∧
    ∀ ops, Store.SuppliedRun ops → ∀ kind,
      (Table.sorted [idField] ((Store.initial.run ops).database.records kind)).Pairwise
        Row.KeyBefore := by
  refine ⟨compare_eq_bytes, fun a b h => ?_, fun _ _ => rfl, Descriptor.compareRows_listOrder,
    fun ops hrun kind => ?_⟩
  · rw [compare_eq_text h, Text.compare_bytes]
  · obtain ⟨contents, hholds, hkeyed⟩ :=
      Record.lasting_keyedByForm.run hrun _ ⟨ops, List.prefix_rfl, rfl⟩
    exact hholds.pairwise_keyBefore hkeyed kind

/-- The texts of two UUIDs are in the order of their digits, and of two locales the one that is
created first has the greater key. -/
theorem RecordId.orders_agree_samples :
    (let a := uuid .sample
      let b := uuid ⟨List.replicate 32 15, rfl⟩
      a.rank = b.rank ∧ Ord.compare (Text.bytes a.text) (Text.bytes b.text) = .lt) ∧
    ((Store.initial.run Store.twoLocales).database.records .locale).length = 2 ∧
      (Table.sorted [idField]
        ((Store.initial.run Store.twoLocales).database.records .locale)).Pairwise
          Row.KeyBefore := by
  refine ⟨?_, ?_, orders_agree.2.2.2.2 _ Store.suppliedRun_twoLocales .locale⟩
  · intro a b
    have hdigits : a.compare b = .lt := by decide
    exact ⟨rfl, (orders_agree.2.1 a b rfl).symm.trans hdigits⟩
  · rw [Store.holds_twoLocales.database.records_eq]
    rfl

end Phrasebook
