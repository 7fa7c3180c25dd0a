import Mathlib.Data.List.Infix
import Mathlib.Data.List.Pairwise
import Phrasebook.Proofs.Variants

/-!
# What never changes

A stored row keeps the texts of its immutable columns until it is deleted, and an archived
row keeps all of them, whatever records the operations are given. The update guard compares
the given record with the one read from the row, so the row need not come from validation
either.

## Main definitions

* `Row.Archived`, `Row.Keeps`: what a later version of a row keeps
* `Store.Ready`: an installed store whose rows keep the unique indexes
* `Transaction`, `Store.transactAll`: runs of installations and operations
* `Store.Retains`: no deletion of a run takes a key away
-/
namespace Phrasebook

/-! ## Versions of a row -/

/-- The archive column of a row reads as true. -/
def Row.Archived (kind : RecordKind) (row : Row) : Prop :=
  (Descriptor.shipped kind).archivable = true ∧
    ∃ text, Row.cell row archivedField = some text ∧ Json.read text = .ok (.bool true)

/-- A later version of a row keeps what may not change. -/
structure Row.Keeps (kind : RecordKind) (row later : Row) : Prop where
  /-- Immutable columns, except for the update time, keep their texts. -/
  immutable : ∀ f ∈ (Descriptor.shipped kind).fields, f.immutable = true →
    f.name ≠ updatedField → Row.cell later f.name = Row.cell row f.name
  /-- An archived row keeps all texts. -/
  archived : Row.Archived kind row → later = row

namespace Row.Keeps

variable {kind : RecordKind} {a b c : Row}

theorem refl (kind : RecordKind) (row : Row) : Row.Keeps kind row row :=
  ⟨fun _ _ _ _ => rfl, fun _ => rfl⟩

theorem trans (hab : Row.Keeps kind a b) (hbc : Row.Keeps kind b c) : Row.Keeps kind a c where
  immutable f hf himmutable hname :=
    (hbc.immutable f hf himmutable hname).trans (hab.immutable f hf himmutable hname)
  archived harchived := by
    obtain rfl := hab.archived harchived
    exact hbc.archived harchived

/-- The key is immutable. -/
theorem cell_id (h : Row.Keeps kind a b) : Row.cell b idField = Row.cell a idField := by
  have hid : ∃ f ∈ (Descriptor.shipped kind).fields, f.name = idField ∧ f.immutable = true := by
    cases kind <;> decide
  obtain ⟨f, hf, hname, himmutable⟩ := hid
  rw [← hname]
  exact h.immutable f hf himmutable (by rw [hname]; decide)

end Row.Keeps

/-- Assigning a cell the text it has changes nothing. -/
theorem Table.cell_assign {given : Assignment} {row : Row} {name : String}
    (h : ∀ cell, Row.value? given name = some cell → cell = Row.cell row name) :
    Row.cell (assign given row) name = Row.cell row name := by
  rw [Row.cell, value?_assign]
  cases hrow : Row.value? row name with
  | none => simp [Row.cell, hrow]
  | some text =>
    cases hgiven : Row.value? given name with
    | none => simp [Row.cell, hrow]
    | some cell => simp [h cell hgiven]

/-- Immutable columns hold the texts themselves. -/
theorem Descriptor.textual_of_immutable (kind : RecordKind) :
    ∀ f ∈ (shipped kind).fields, f.immutable = true → f.Textual := by
  cases kind <;> decide

/-- A record read from an archived row is archived. -/
theorem Row.Archived.isArchived {kind : RecordKind} {row : Row} {existing : Record}
    (h : Row.Archived kind row) (hreads : (Descriptor.shipped kind).ofRow row = .ok existing) :
    existing.isArchived = true := by
  obtain ⟨harchivable, text, hcell, hread⟩ := h
  obtain ⟨f, hf⟩ := Option.isSome_iff_exists.mp harchivable
  obtain ⟨hfield, hname⟩ := Descriptor.mem_of_field? hf
  have hname : f.name = archivedField := hname
  have htype := Descriptor.type_archived kind f hfield hname
  have hget := Descriptor.get?_ofRow hreads archivedField
  have hf : (Descriptor.shipped kind).field? archivedField = some f := hf
  have hidentity : isIdentityField archivedField = false := by decide
  rw [hidentity, hf] at hget
  have hvalue : f.read? row = some (.bool true) := by
    simp [FieldSpec.read?, hname, hcell, FieldSpec.fromColumn, htype, hread, Except.toOption]
  simp [Record.isArchived, hget, hvalue]

/-- An update makes of the row it has read a later version of that row. -/
theorem Record.keeps_assign {r existing : Record} {row : Row}
    (hreads : (Descriptor.shipped r.kind).ofRow row = .ok existing)
    (harchived : existing.isArchived = false)
    (hunchanged : Store.changedImmutable? (Descriptor.shipped r.kind) existing r = none) :
    Row.Keeps r.kind row
      (Table.assign (Store.columnsOf r (Store.updatedColumns (.shipped r.kind))) row) where
  immutable f hf himmutable hname := by
    refine Table.cell_assign fun cell hcell => ?_
    rw [Record.value?_updatedColumns hf] at hcell
    split at hcell
    -- The key and the creation time are not written; other immutable columns are, but they
    -- have been compared with the row.
    · cases hcell
    · next hwritten =>
      obtain rfl := Option.some.inj hcell
      refine Record.toColumn_unchanged hf himmutable ?_
        (Descriptor.textual_of_immutable r.kind f hf himmutable) hreads hunchanged
      simpa [isIdentityField, hname] using hwritten
  archived hrow := by
    rw [hrow.isArchived hreads] at harchived
    cases harchived

/-! ## Rows that go -/

/-- Rows are dropped and the others stay as they are. -/
structure Database.Loses (db db' : Database) : Prop where
  installed : db'.Installed
  sublist : ∀ kind, (db'.records kind).Sublist (db.records kind)

namespace Database

variable {db db' db'' : Database} {kind : RecordKind} {id : RecordId}

theorem Installed.loses_self (h : db.Installed) : db.Loses db :=
  ⟨h, fun _ => List.Sublist.refl _⟩

theorem Loses.trans (h : db.Loses db') (h' : db'.Loses db'') : db.Loses db'' :=
  ⟨h'.installed, fun kind => (h'.sublist kind).trans (h.sublist kind)⟩

/-- Deleting the row of a key, with an entry for it. -/
theorem Installed.loses_withoutRow (h : db.Installed) (e : ChangeEntry) :
    db.Loses ((Store.withoutRow db kind id).note kind e) where
  installed := (Store.installed_withoutRow h).note
  sublist other := by
    rw [records_note, Store.withoutRow, h.records_putRecords]
    by_cases heq : other = kind
    · subst heq
      simp
    · rw [Function.update_of_ne heq]

end Database

namespace Store

variable {s s' : Store} {kind : RecordKind} {id : RecordId} {r : Record} {actor : String}
  {now : Instant} {n : Nat} {row : Row} {key : String}

/-- A deletion changes no row that it leaves. -/
theorem loses_delete (hreg : s.registry = .builtin) (h : s.database.Installed)
    (hrun : s.delete kind id actor now = .ok (s', n)) :
    s'.registry = .builtin ∧ s.database.Loses s'.database := by
  obtain ⟨hregistry, hloses⟩ := delete_keeps (P := s.database.Loses)
    (fun hinstalled hloses _ _ e => hloses.trans (hinstalled.loses_withoutRow e)) hreg h
    h.loses_self hrun
  exact ⟨hregistry.trans hreg, hloses⟩

/-! ## Stores that keep their indexes -/

/-- An installed store over the shipped definitions, in which no two rows of a kind agree on
a unique index. -/
structure Ready (s : Store) : Prop where
  registry_eq : s.registry = .builtin
  installed : s.database.Installed
  distinct : ∀ kind, ((Descriptor.shipped kind).recordTable []).Distinct (s.database.records kind)

theorem Holds.ready {contents : Contents} (h : s.Holds contents) : s.Ready :=
  ⟨h.registry_eq, h.database.installed, h.database.distinct⟩

namespace Ready

/-- Rows of a kind with the same key are the same. -/
theorem eq_of_key (h : s.Ready) {other : Row} (hrow : row ∈ s.database.records kind)
    (hother : other ∈ s.database.records kind) (hkey : Row.cell row idField = some key)
    (hsame : Row.cell other idField = some key) : row = other := by
  apply (h.distinct kind).eq_of_agree (Descriptor.primaryIndex_mem kind) hrow hother
  exact Table.agree_primary.mpr ⟨by simp [hkey], hkey.trans hsame.symm⟩

/-- Creating a record keeps the rows that are there. -/
theorem create (h : s.Ready) (hrun : s.create r actor now = .ok s') :
    s'.Ready ∧ ∀ kind, ∀ row ∈ s.database.records kind, row ∈ s'.database.records kind := by
  obtain ⟨-, hcheck, rfl⟩ := (create_eq_ok_iff h.registry_eq h.installed).mp hrun
  have hrecords : (s.added r actor now).database.records =
      Function.update s.database.records r.kind (s.database.records r.kind ++ [r.row]) := by
    rw [added, Database.records_note, h.installed.records_putRecords]
  refine ⟨⟨h.registry_eq, (h.installed.putRecords r.kind _).note, fun kind => ?_⟩,
    fun kind row hrow => ?_⟩
  · rw [hrecords]
    by_cases hkind : kind = r.kind
    · subst hkind
      rw [Function.update_self]
      exact (h.distinct r.kind).append hcheck
    · rw [Function.update_of_ne hkind]
      exact h.distinct kind
  · rw [hrecords]
    by_cases hkind : kind = r.kind
    · subst hkind
      rw [Function.update_self]
      exact List.mem_append_left _ hrow
    · rwa [Function.update_of_ne hkind]

/-- Updating a record leaves a later version of every row. -/
theorem update (h : s.Ready) (hrun : s.update r actor now = .ok s') :
    s'.Ready ∧ ∀ kind, ∀ row ∈ s.database.records kind,
      ∃ later ∈ s'.database.records kind, Row.Keeps kind row later := by
  obtain ⟨read, hread, hkey, existing, hreads, harchived, hunchanged, rfl, hdistinct⟩ :=
    update_ok h.registry_eq h.installed hrun
  have hrecords := h.installed.records_putRecords r.kind ((s.database.records r.kind).map
    (Table.revise (Table.holds idField r.id.text)
      (columnsOf r (updatedColumns (Descriptor.shipped r.kind)))))
  refine ⟨⟨h.registry_eq, (h.installed.putRecords r.kind _).note, fun kind => ?_⟩,
    fun kind row hrow => ?_⟩
  · by_cases hkind : kind = r.kind
    · subst hkind
      exact hdistinct (h.distinct r.kind)
    · rw [replaced, Database.records_note, hrecords, Function.update_of_ne hkind]
      exact h.distinct kind
  · rw [replaced, Database.records_note, hrecords]
    by_cases hkind : kind = r.kind
    · subst hkind
      rw [Function.update_self]
      refine ⟨_, List.mem_map_of_mem hrow, ?_⟩
      unfold Table.revise
      split
      · next hholds =>
        obtain rfl := h.eq_of_key hrow hread (by simpa [Table.holds] using hholds) hkey
        exact Record.keeps_assign hreads harchived hunchanged
      · exact .refl _ _
    · rw [Function.update_of_ne hkind]
      exact ⟨row, hrow, .refl _ _⟩

theorem delete (h : s.Ready) (hrun : s.delete kind id actor now = .ok (s', n)) :
    s'.Ready ∧ s.database.Loses s'.database := by
  obtain ⟨hreg, hloses⟩ := loses_delete h.registry_eq h.installed hrun
  exact ⟨⟨hreg, hloses.installed, fun kind index hindex =>
    (h.distinct kind index hindex).sublist (hloses.sublist kind)⟩, hloses⟩

end Ready
end Store

/-! ## Runs -/

/-- A part of a run: an installation or an operation. -/
inductive Transaction where
  | install
  | perform (op : Operation)

/-- The transaction deletes a record. -/
def Transaction.Deletes : Transaction → Prop
  | .perform (.delete ..) => True
  | _ => False

namespace Store

variable {s s' : Store} {kind : RecordKind} {t : Transaction} {row : Row} {key : String}

/-- The store after a transaction; a failure leaves nothing behind. -/
def transact (s : Store) : Transaction → Store
  | .install =>
    match s.install with
    | .ok s' => s'
    | .error _ => s
  | .perform op => s.after op

/-- The store after a run. -/
def transactAll (s : Store) (ts : List Transaction) : Store := ts.foldl transact s

/-- No deletion of a run takes the row of a key away. -/
def Retains (s : Store) (kind : RecordKind) (key : String) (ts : List Transaction) : Prop :=
  ∀ part t, t.Deletes → part ++ [t] <+: ts →
    ∃ row ∈ (s.transactAll (part ++ [t])).database.records kind, Row.cell row idField = some key

@[simp] theorem transactAll_append (before after : List Transaction) :
    s.transactAll (before ++ after) = (s.transactAll before).transactAll after :=
  List.foldl_append

/-- A transaction keeps the indexes and leaves a later version of every row, unless it
deletes records: then it leaves some rows as they are. -/
theorem Ready.transact (h : s.Ready) (t : Transaction) :
    (s.transact t).Ready ∧ ∀ kind,
      (∀ row ∈ s.database.records kind, ∃ later ∈ (s.transact t).database.records kind,
        Row.Keeps kind row later) ∨
      t.Deletes ∧ ((s.transact t).database.records kind).Sublist (s.database.records kind) := by
  have hsame : s.Ready ∧ ∀ kind, (∀ row ∈ s.database.records kind,
      ∃ later ∈ s.database.records kind, Row.Keeps kind row later) ∨
      t.Deletes ∧ (s.database.records kind).Sublist (s.database.records kind) :=
    ⟨h, fun kind => .inl fun row hrow => ⟨row, hrow, .refl kind row⟩⟩
  cases t with
  | install =>
    simp only [Store.transact]
    split
    · next s' hrun =>
      obtain rfl := install_installed h.registry_eq h.installed hrun
      exact hsame
    · exact hsame
  | perform op =>
    simp only [Store.transact, after]
    split
    · next s' hrun =>
      cases op with
      | create r actor now =>
        obtain ⟨hready, hrows⟩ := h.create hrun
        exact ⟨hready, fun kind => .inl fun row hrow =>
          ⟨row, hrows kind row hrow, .refl kind row⟩⟩
      | update r actor now =>
        obtain ⟨hready, hrows⟩ := h.update hrun
        exact ⟨hready, fun kind => .inl (hrows kind)⟩
      | delete other id actor now =>
        obtain ⟨⟨s₁, n⟩, hdelete, rfl⟩ := map_eq_ok_iff.mp hrun
        obtain ⟨hready, hloses⟩ := h.delete hdelete
        exact ⟨hready, fun kind => .inr ⟨trivial, hloses.sublist kind⟩⟩
    · exact hsame

theorem Ready.transactAll (h : s.Ready) (ts : List Transaction) : (s.transactAll ts).Ready :=
  List.foldlRecOn ts _ h fun _ hs t _ => (hs.transact t).1

/-- A row of which a deletion leaves the key has a later version after each transaction. -/
theorem Ready.keeps_row (h : s.Ready) (hrow : row ∈ s.database.records kind)
    (hkey : Row.cell row idField = some key)
    (hstays : t.Deletes → ∃ later ∈ (s.transact t).database.records kind,
      Row.cell later idField = some key) :
    ∃ later ∈ (s.transact t).database.records kind, Row.Keeps kind row later := by
  rcases (h.transact t).2 kind with hkeeps | ⟨hdeletes, hsublist⟩
  · exact hkeeps row hrow
  · obtain ⟨later, hlater, hsame⟩ := hstays hdeletes
    obtain rfl := h.eq_of_key hrow (hsublist.subset hlater) hkey hsame
    exact ⟨row, hlater, .refl kind row⟩

/-- In every run of an installed store, whatever records its operations are given, a stored
row whose key no deletion takes away keeps its immutable columns, and all of its columns once
it is archived; no other row takes its key. -/
theorem Ready.row_permanent (h : s.Ready) (before after : List Transaction)
    (hrow : row ∈ (s.transactAll before).database.records kind)
    (hkey : Row.cell row idField = some key)
    (hretains : (s.transactAll before).Retains kind key after) :
    ∃ later ∈ (s.transactAll (before ++ after)).database.records kind,
      Row.Keeps kind row later ∧
        ∀ other ∈ (s.transactAll (before ++ after)).database.records kind,
          Row.cell other idField = some key → other = later := by
  have hready := h.transactAll before
  rw [transactAll_append]
  -- The run that stored the row does not matter: the induction is on what comes after it.
  generalize s.transactAll before = s at hready hrow hretains
  obtain ⟨later, hlater, hkeeps⟩ : ∃ later ∈ (s.transactAll after).database.records kind,
      Row.Keeps kind row later := by
    induction after using List.reverseRecOn with
    | nil => exact ⟨row, hrow, .refl kind row⟩
    | append_singleton ts t ih =>
      obtain ⟨middle, hmiddle, hkeeps⟩ := ih fun part t hdeletes hpart =>
        hretains part t hdeletes (hpart.trans (List.prefix_append ts _))
      have hstays := fun hdeletes => hretains ts t hdeletes List.prefix_rfl
      rw [transactAll_append] at hstays ⊢
      obtain ⟨later, hlater, hrest⟩ :=
        (hready.transactAll ts).keeps_row hmiddle (hkeeps.cell_id.trans hkey) hstays
      exact ⟨later, hlater, hkeeps.trans hrest⟩
  exact ⟨later, hlater, hkeeps, fun other hother hsame =>
    (hready.transactAll after).eq_of_key hother hlater hsame (hkeeps.cell_id.trans hkey)⟩

end Store

/-! ## An archived locale -/

/-- A locale named like its code. -/
def Record.localeOf (code : LocaleCode) (archived : Bool) : Record :=
  ⟨.locale, .locale code, ⟨0, 0⟩, ⟨0, 0⟩,
    [("_archived", .bool archived), ("name", .str code.text)]⟩

/-- A run that stores two locales, the first of them archived. -/
def Transaction.sampleBefore : List Transaction :=
  [.perform (.create (.localeOf ⟨"en-US", rfl⟩ true) "ann" ⟨0, 0⟩),
    .perform (.create (.localeOf ⟨"fr-FR", rfl⟩ false) "ann" ⟨0, 0⟩)]

/-- A run that tries to take the first locale out of the archive and deletes the other one. -/
def Transaction.sampleAfter : List Transaction :=
  [.perform (.update (.localeOf ⟨"en-US", rfl⟩ false) "bob" ⟨60, 0⟩),
    .perform (.delete .locale (.locale ⟨"fr-FR", rfl⟩) "bob" ⟨60, 0⟩)]

/-- The archived locale is still there as it was. -/
theorem Store.archivedLocale_stays :
    (Record.localeOf ⟨"en-US", rfl⟩ true).row ∈ (initial.transactAll
      (Transaction.sampleBefore ++ Transaction.sampleAfter)).database.records .locale := by
  have hready : initial.Ready := holds_initial.ready
  have hrow : (Record.localeOf ⟨"en-US", rfl⟩ true).row ∈
      (initial.transactAll Transaction.sampleBefore).database.records .locale := by
    decide +kernel
  have hretains : (initial.transactAll Transaction.sampleBefore).Retains .locale "en-US"
      Transaction.sampleAfter := by
    have hprefixes : ∀ ts ∈ Transaction.sampleAfter.inits,
        ∃ row ∈ ((initial.transactAll Transaction.sampleBefore).transactAll ts).database.records
          .locale, Row.cell row idField = some "en-US" := by
      decide +kernel
    exact fun part t _ hpart => hprefixes _ ((List.mem_inits _ _).mpr hpart)
  have harchived : Row.Archived .locale (Record.localeOf ⟨"en-US", rfl⟩ true).row :=
    ⟨rfl, "true", rfl, by decide +kernel⟩
  obtain ⟨later, hlater, hkeeps, -⟩ := hready.row_permanent Transaction.sampleBefore
    Transaction.sampleAfter hrow rfl hretains
  exact hkeeps.archived harchived ▸ hlater

end Phrasebook
