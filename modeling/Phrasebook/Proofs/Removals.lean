import Phrasebook.Proofs.Changes
import Phrasebook.Proofs.Composition
import Phrasebook.Proofs.VariantLocales

/-!
# What a deletion answers

A deletion is refused while a locale is named, fails for an unknown key, and otherwise takes
the row of the key away, with the variants of a deleted template. The rows that go are counted
and recorded one by one, and all others stay as they are.

## Main definitions

* `Row.Goes`: a row goes when the record of a key is deleted
* `Database.gone`, `Database.staying`: the rows of a kind that go, and the others
* `Store.Deletion`: the outcome of a deletion
-/
namespace Phrasebook

/-- A row goes when the record of a key is deleted: it is the row of the key, or it is a variant
of the deleted template. -/
def Row.Goes (kind : RecordKind) (id : RecordId) (own : RecordKind) (row : Row) : Prop :=
  own = kind ∧ Row.cell row idField = some id.text ∨
    kind = .template ∧ own ∈ RecordKind.variants ∧ Row.cell row "template" = some id.text

instance (kind : RecordKind) (id : RecordId) (own : RecordKind) (row : Row) :
    Decidable (row.Goes kind id own) := inferInstanceAs (Decidable (_ ∨ _))

/-- The entry that a row leaves. -/
def Row.removal (row : Row) (actor : String) (now : Instant) : Row :=
  [("_id", Row.cell row idField), ("_created", some now.text),
    ("items", some (ChangeItems.text ⟨actor, .delete, []⟩))]

namespace Database

/-- The number of rows of all kinds. -/
def size (db : Database) : Nat := (RecordKind.all.map fun kind => (db.records kind).length).sum

/-- The rows of a kind that go when the record of a key is deleted. -/
def gone (db : Database) (kind : RecordKind) (id : RecordId) (own : RecordKind) : List Row :=
  (db.records own).filter fun row => row.Goes kind id own

/-- The rows of a kind that stay when the record of a key is deleted. -/
def staying (db : Database) (kind : RecordKind) (id : RecordId) (own : RecordKind) : List Row :=
  (db.records own).filter fun row => ¬ row.Goes kind id own

/-- The first kind with rows that name the locale of a key; only locales are named so. -/
def user? (db : Database) (kind : RecordKind) (id : RecordId) : Option RecordKind :=
  RecordKind.all.find? fun user =>
    kind = .locale ∧ user ∈ RecordKind.variants ∧ 0 < db.namings user id.text

end Database

/-- The outcome of deleting the record of a key. -/
inductive Store.Deletion (s : Store) (kind : RecordKind) (id : RecordId) (actor : String)
    (now : Instant) : Except StoreError (Store × Nat) → Prop
  /-- A locale that variants name is in use. -/
  | inUse {user : RecordKind} (first : s.database.user? kind id = some user) :
    Deletion s kind id actor now
      (.error (.inUse kind id user (s.database.namings user id.text)))
  /-- The key is unknown. -/
  | noRecord (unused : s.database.user? kind id = none) (absent : s.stores kind id = false) :
    Deletion s kind id actor now (.error (.noRecord kind id))
  /-- The row of the key goes with those that follow it. -/
  | removed {s' : Store} {n : Nat} (unused : s.database.user? kind id = none)
    (own : ((s.database.records kind).filter (Table.holds idField id.text)).length = 1)
    (registry_eq : s'.registry = s.registry)
    (database_eq : s'.database = .ofRows (s.database.staying kind id) fun other =>
      s.database.journal other ++ (s.database.gone kind id other).map (·.removal actor now))
    (count_eq : n = (RecordKind.all.map fun other => (s.database.gone kind id other).length).sum)
    (size_eq : s'.database.size + n = s.database.size) :
    Deletion s kind id actor now (.ok (s', n))

variable {db : Database} {contents : Contents} {kind own : RecordKind} {id : RecordId}
  {actor : String} {now : Instant} {n : Nat}

/-! ## Rows that go -/

theorem Record.removal_row (r : Record) (actor : String) (now : Instant) :
    r.row.removal actor now = (r.removal actor now).row := by
  rw [Row.removal, r.cell_id]
  rfl

/-- The fields through which records refer to a kind. -/
theorem Registry.referencing_builtin (kind : RecordKind) :
    Registry.builtin.referencing kind = match kind with
      | .locale => [(.email, .variantLocale), (.sms, .variantLocale)]
      | .template => [(.email, .parentTemplate), (.sms, .parentTemplate)]
      | .email | .sms => [] := by
  cases kind <;> decide

/-- A record leaves if its row goes. -/
theorem Record.leaves_iff {r : Record} (hkind : r.kind = own) :
    r.leaves kind id = true ↔ r.row.Goes kind id own := by
  subst hkind
  cases kind <;>
    simp [Record.leaves, Record.follows, Record.isAt, Row.Goes, Registry.referencing_builtin,
      RecordKind.variants, FieldSpec.variantLocale, FieldSpec.parentTemplate, Table.holds]
  case template => rw [← or_and_right, or_comm]

namespace Database.Holds

theorem gone_eq (h : db.Holds contents) (kind : RecordKind) (id : RecordId) (own : RecordKind) :
    db.gone kind id own = ((contents own).filter (·.leaves kind id)).map Record.row := by
  rw [gone, h.records_eq, List.filter_map]
  refine congrArg _ (List.filter_congr fun r hr => ?_)
  simp [← Record.leaves_iff (h.kind_eq own r hr)]

theorem staying_eq (h : db.Holds contents) (kind : RecordKind) (id : RecordId)
    (own : RecordKind) :
    db.staying kind id own = (contents.dropping (·.leaves kind id) own).map Record.row := by
  rw [staying, h.records_eq, List.filter_map]
  refine congrArg _ (List.filter_congr fun r hr => ?_)
  simp [← Record.leaves_iff (h.kind_eq own r hr)]

/-- One row has the key of a stored record. -/
theorem length_of_id (h : db.Holds contents) (hstored : ∃ stored ∈ contents kind, stored.id = id) :
    ((db.records kind).filter (Table.holds idField id.text)).length = 1 := by
  obtain ⟨stored, hmem, rfl⟩ := hstored
  rw [h.rows_of_id, h.filter_id hmem]
  rfl

/-- Only variants go with a template, and nothing goes with a record of another kind. -/
theorem gone_of_apart (hne : own ≠ kind)
    (hapart : kind = .template → own ∉ RecordKind.variants) : db.gone kind id own = [] := by
  refine List.filter_eq_nil_iff.mpr fun row _ => ?_
  rw [decide_eq_true_eq]
  rintro (⟨heq, -⟩ | ⟨htemplate, hvariant, -⟩)
  · exact hne heq
  · exact hapart htemplate hvariant

/-- The rows that go are the one of the key and those that follow it. -/
theorem length_gone (h : db.Holds contents) (hstored : ∃ stored ∈ contents kind, stored.id = id) :
    contents.followers id (Registry.builtin.referencing kind) + 1 =
      (RecordKind.all.map fun own => (db.gone kind id own).length).sum := by
  have hown : (db.gone kind id kind).length = 1 := by
    rw [← h.length_of_id hstored, gone]
    refine congrArg _ (List.filter_congr fun row _ => ?_)
    cases kind <;> simp [Row.Goes, RecordKind.variants, Table.holds, beq_eq_decide]
  have hlocale : ∀ own, (contents own).filter (Record.follows id (own, .variantLocale)) = [] :=
    fun own => List.filter_eq_nil_iff.mpr fun r _ => by
      simp [Record.follows, FieldSpec.variantLocale]
  have hvariant : ∀ own ∈ RecordKind.variants,
      ((contents own).filter (Record.follows id (own, .parentTemplate))).length =
        (db.gone .template id own).length := by
    intro own hmem
    rw [h.gone_eq, List.length_map]
    refine congrArg _ (List.filter_congr fun r hr => ?_)
    have hkind := h.kind_eq own r hr
    have htemplate : own ≠ .template := by rintro rfl; exact absurd hmem (by decide)
    rw [Bool.eq_iff_iff, Record.leaves_iff hkind]
    simp [Record.follows, Row.Goes, hkind, hmem, htemplate, FieldSpec.parentTemplate, Table.holds]
  have hemail := hvariant .email (by decide)
  have hsms := hvariant .sms (by decide)
  cases kind <;>
    simp [Contents.followers, Registry.referencing_builtin, RecordKind.all, hown, hlocale,
      hemail, hsms, gone_of_apart, RecordKind.variants]
  case template => omega

end Database.Holds

/-! ## Deletions -/

namespace Store

variable {s s' : Store}

/-- Rows go or stay. -/
theorem Holds.size_of_drops (h : s.Holds contents)
    (hdrops : s.database.Drops s'.database contents (·.leaves kind id) actor now) :
    s'.database.size + (RecordKind.all.map fun own => (s.database.gone kind id own).length).sum =
      s.database.size := by
  have hone : ∀ own, (s'.database.records own).length + (s.database.gone kind id own).length =
      (s.database.records own).length := by
    intro own
    have hsplit := List.length_eq_length_filter_add (l := s.database.records own)
      fun row => decide (row.Goes kind id own)
    rw [hdrops.holds.records_eq, ← h.database.staying_eq, Database.staying, Database.gone]
    simp only [decide_not]
    omega
  have hlocale := hone .locale
  have htemplate := hone .template
  have hemail := hone .email
  have hsms := hone .sms
  simp only [Database.size, RecordKind.all, List.map_cons, List.map_nil, List.sum_cons,
    List.sum_nil]
  omega

/-- A deletion that drops records takes their rows away, with an entry for each. -/
theorem Holds.removed_of_drops (h : s.Holds contents) (hcomposed : s.database.Composed)
    (hrun : s.delete kind id actor now = .ok (s', n))
    (hdrops : s.database.Drops s'.database contents (·.leaves kind id) actor now) :
    s'.database = .ofRows (s.database.staying kind id) fun other =>
      s.database.journal other ++ (s.database.gone kind id other).map (·.removal actor now) := by
  refine (composed_delete hcomposed h.database.installed h.registry_eq hrun).eq_ofRows
    (fun other => ?_) fun other hrec => ?_
  · rw [hdrops.holds.records_eq, h.database.staying_eq]
  · rw [hdrops.journal_eq other hrec, h.database.gone_eq, List.map_map]
    exact congrArg _ (List.map_congr_left fun r _ => (r.removal_row actor now).symm)

/-- When the fields that refer to a kind do not keep a deletion from being done, it depends on
the key alone. -/
theorem Holds.deletion_of_release (h : s.Holds contents) (hcomposed : s.database.Composed)
    (hunused : s.database.user? kind id = none) {db : Database} {removed : Nat}
    (hrelease : s.releaseFields kind id actor now s.database
      (Registry.builtin.referencing kind) = .ok (db, removed)) :
    s.Deletion kind id actor now (s.delete kind id actor now) := by
  rcases h.delete_of_release hrelease with ⟨habsent, hfail⟩ | ⟨hstored, rfl, s', hok, hreg, hdrops⟩
  · rw [hfail]
    refine .noRecord hunused (Bool.eq_false_iff.mpr fun hstored => ?_)
    obtain ⟨r, hr, hid⟩ := h.stores_iff.mp hstored
    exact habsent r hr hid
  · rw [hok, h.database.length_gone hstored]
    exact .removed hunused (h.database.length_of_id hstored) (hreg.trans h.registry_eq.symm)
      (h.removed_of_drops hcomposed hok hdrops) rfl (h.size_of_drops hdrops)

/-- After every run, a deletion is refused while a locale is named, fails for an unknown key, and
otherwise takes away the row of the key, with the variants of a template, and nothing else. -/
theorem delete_outcome (ops : List Operation) (kind : RecordKind) (id : RecordId) (actor : String)
    (now : Instant) : (initial.run ops).database.Composed ∧
      (initial.run ops).Deletion kind id actor now
        ((initial.run ops).delete kind id actor now) := by
  obtain ⟨contents, hholds, hcomposed⟩ := holds_run ops
  refine ⟨hcomposed, ?_⟩
  have hreg := hholds.registry_eq
  have hinstalled := hholds.database.installed
  generalize initial.run ops = s at *
  by_cases hkind : kind = .locale
  · subst hkind
    have huser : s.database.user? .locale id =
        RecordKind.variants.find? fun user => 0 < s.database.namings user id.text := by
      simp [Database.user?, RecordKind.all, RecordKind.variants, List.find?_cons]
    cases hfirst : s.database.user? .locale id with
    | some user =>
      rw [delete_of_named hreg hinstalled (huser ▸ hfirst)]
      exact .inUse hfirst
    | none =>
      have hrelease : s.releaseFields .locale id actor now s.database
          (Registry.builtin.referencing .locale) = .ok (s.database, 0) := by
        rw [releaseFields_locale hreg hinstalled, ← huser, hfirst]
      exact hholds.deletion_of_release hcomposed hfirst hrelease
  · have hunused : s.database.user? kind id = none := by
      simp [Database.user?, hkind]
    have hcascade : ∀ ref ∈ Registry.builtin.referencing kind, ref.2.onDelete = .cascade := by
      cases kind with
      | locale => exact absurd rfl hkind
      | template | email | sms => decide
    obtain ⟨db, removed, hrelease⟩ := releaseFields_cascade hreg hholds.database kind id actor now
      hcascade
    exact hholds.deletion_of_release hcomposed hunused hrelease

end Store
end Phrasebook
