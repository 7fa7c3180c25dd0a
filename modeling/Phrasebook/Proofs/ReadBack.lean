import Phrasebook.Proofs.Conforming
import Phrasebook.Proofs.Mutations

/-!
# Reading created records back

A validated record that is created is read back by its key and listed with its kind if
its times lie in years of four digits. Outside of them its row cannot be read, and the
whole kind cannot be listed any more.
-/
namespace Phrasebook

/-! ## Times of validated records -/

theorem Instant.Proper.max {a b : Instant} (ha : a.Proper) (hb : b.Proper) : (a.max b).Proper := by
  unfold Instant.max
  split
  · exact ha
  · exact hb

/-- A time that a candidate gives has its leap seconds in the right place. -/
theorem Descriptor.proper_givenInstant {candidate : Fields} {field : String} {other : Instant}
    (h : other.Proper) : ((wellFormed? (givenInstant? candidate field)).getD other).Proper := by
  unfold givenInstant?
  cases candidate.getStr? field with
  | none => exact h
  | some text =>
    rw [Option.map_some]
    cases hparse : Instant.parse text with
    | error e => exact h
    | ok t => exact Instant.proper_of_parse hparse

theorem Record.proper_of_validate {kind : RecordKind} {input : Json} {fresh : Uuid}
    {now : Instant} {r : Record} (hnow : now.Proper)
    (h : Registry.builtin.validate kind input fresh now = .ok r) :
    r.created.Proper ∧ r.updated.Proper := by
  obtain ⟨candidate, -, -, rfl⟩ := Registry.validate_eq_ok_iff.mp h
  have hcreated : (ofCandidate kind candidate fresh now).created.Proper :=
    Descriptor.proper_givenInstant hnow
  exact ⟨hcreated, (Descriptor.proper_givenInstant hcreated).max hcreated⟩

/-- A conforming record is exactly what its row is read as if both its times lie in years of
four digits. -/
theorem Record.Conforms.ofRow_row_self_iff {r : Record} (h : r.Conforms)
    (hproper : r.created.Proper ∧ r.updated.Proper) :
    (Descriptor.shipped r.kind).ofRow r.row = .ok r ↔ r.created.InYears ∧ r.updated.InYears := by
  rw [h.ofRow_row_iff, Instant.parse_text_iff hproper.1, Instant.parse_text_iff hproper.2]
  simp

/-- The record of an accepted candidate is read back from its row if its times are proper and lie in
years of four digits. -/
theorem Record.ofRow_ofCandidate {kind : RecordKind} {candidate : Fields} {fresh : Uuid}
    {now : Instant} (hcandidate : (Json.obj candidate).WellFormed)
    (hok : (Descriptor.shipped kind).candidateViolations candidate = [])
    (hproper : (ofCandidate kind candidate fresh now).created.Proper ∧
      (ofCandidate kind candidate fresh now).updated.Proper)
    (hyears : (ofCandidate kind candidate fresh now).created.InYears ∧
      (ofCandidate kind candidate fresh now).updated.InYears) :
    (Descriptor.shipped kind).ofRow (ofCandidate kind candidate fresh now).row =
      .ok (ofCandidate kind candidate fresh now) := by
  have hvalid : Registry.builtin.validate kind (.obj candidate) fresh now =
      .ok (ofCandidate kind candidate fresh now) :=
    Registry.validate_eq_ok_iff.mpr ⟨candidate, rfl, hok, rfl⟩
  exact ((conforms_of_validate hcandidate hvalid).ofRow_row_self_iff hproper).mpr hyears

/-! ## Listing -/

/-- The cells of a row pass a filter. -/
def ListFilter.selects (filter : ListFilter) (kind : RecordKind) (row : Row) : Bool :=
  (Store.filterConditions (.shipped kind) filter).all fun (column, text) =>
    Table.holds column text row

namespace Store

variable {s s' : Store} {r : Record} {actor : String} {now : Instant}

/-- Listing reads the rows that pass the filter in order, as many as are asked for. -/
theorem list_eq (hreg : s.registry = .builtin) (h : s.database.Installed) (kind : RecordKind)
    {filter : ListFilter} (hlimit : ∀ n, filter.limit = some n → n < rowLimit) :
    s.list kind filter = (upTo filter.limit (Table.sorted (Descriptor.shipped kind).listOrder
      ((s.database.records kind).filter (filter.selects kind)))).mapM
        (Descriptor.shipped kind).ofRow := by
  have hdeclared : ∀ c ∈ filterConditions (.shipped kind) filter,
      ((Descriptor.shipped kind).field? c.1).isSome = true := by
    simp only [filterConditions, List.forall_mem_append]
    refine ⟨⟨?_, ?_⟩, ?_⟩
    · cases filter.template with
      | none => simp
      | some id => cases hfield : (Descriptor.shipped kind).field? "template" <;> simp [hfield]
    · cases filter.locale with
      | none => simp
      | some code => cases hfield : (Descriptor.shipped kind).field? "locale" <;> simp [hfield]
    · cases hfield : (Descriptor.shipped kind).field? archivedField <;>
        cases filter.archived <;> simp_all [Descriptor.archivable, archivedField]
  rw [list, descriptor_of_builtin hreg]
  exact select_eq h kind hdeclared hlimit

/-- Listing a kind, archived records included, reads all of its rows. -/
theorem list_all (hreg : s.registry = .builtin) (h : s.database.Installed) (kind : RecordKind) :
    s.list kind { archived := true } =
      (Table.sorted (Descriptor.shipped kind).listOrder (s.database.records kind)).mapM
        (Descriptor.shipped kind).ofRow := by
  have hall : (s.database.records kind).filter
      (ListFilter.selects { archived := true } kind) = s.database.records kind :=
    List.filter_eq_self.mpr fun row _ => by simp [ListFilter.selects, filterConditions]
  rw [list_eq hreg h kind (by simp), hall]
  rfl

theorem records_added (h : s.database.Installed) :
    (s.added r actor now).database.records r.kind = s.database.records r.kind ++ [r.row] := by
  rw [added, Database.records_note, h.records_putRecords, Function.update_self]

/-- After a record has been created its key is that of its row only. -/
theorem get_of_create (hreg : s.registry = .builtin) (h : s.database.Installed)
    (hrun : s.create r actor now = .ok s') :
    s'.get r.kind r.id = (Descriptor.shipped r.kind).ofRow r.row := by
  obtain ⟨-, hcheck, rfl⟩ := (create_eq_ok_iff hreg h).mp hrun
  have hreg' : (s.added r actor now).registry = .builtin := hreg
  have hinstalled : (s.added r actor now).database.Installed := (h.putRecords _ _).note
  have hnew : (s.database.records r.kind).filter (Table.holds idField r.id.text) = [] := by
    refine List.filter_eq_nil_iff.mpr fun row hrow hid => ?_
    have hagree :=
      (Table.check_eq_ok_iff.mp hcheck).2 _ (Descriptor.primaryIndex_mem r.kind) row hrow
    have hcell : Row.cell row idField = some r.id.text := by simpa [Table.holds] using hid
    refine hagree (Table.agree_primary.mpr ⟨?_, ?_⟩)
    · simp
    · rw [hcell, Record.cell_id]
  have hself : Table.holds idField r.id.text r.row = true := by simp [Record.holds_id]
  rw [get_eq hreg' hinstalled, records_added h, List.filter_append, hnew]
  simp [hself, Table.sorted]

/-! ## Created records -/

/-- All records of a kind can be read. -/
def Listable (s : Store) (kind : RecordKind) : Prop :=
  ∃ listed, s.list kind { archived := true } = .ok listed

/-- The key of a record is that of the record as it is, and the record is among those listed
for its kind. -/
def ReadsBack (s : Store) (r : Record) : Prop :=
  s.get r.kind r.id = .ok r ∧
    ∃ listed, s.list r.kind { archived := true } = .ok listed ∧ r ∈ listed

theorem listable_iff (hreg : s.registry = .builtin) (h : s.database.Installed) {kind : RecordKind} :
    s.Listable kind ↔
      ∀ row ∈ s.database.records kind, ∃ r, (Descriptor.shipped kind).ofRow row = .ok r := by
  rw [Listable, list_all hreg h]
  constructor
  · rintro ⟨listed, hlisted⟩ row hrow
    have hmem : row ∈ Table.sorted (Descriptor.shipped kind).listOrder (s.database.records kind) :=
      List.mem_mergeSort.mpr hrow
    obtain ⟨r, -, hread⟩ := exists_value_of_mem hlisted hmem
    exact ⟨r, hread⟩
  · intro hall
    exact exists_mapM_ok fun row hrow => hall row (List.mem_mergeSort.mp hrow)

/-- A record that conforms reads back after it has been created among readable ones if its
times lie in years of four digits. -/
theorem readsBack_of_create (hreg : s.registry = .builtin) (h : s.database.Installed)
    (hlistable : s.Listable r.kind) (hconforms : r.Conforms)
    (hproper : r.created.Proper ∧ r.updated.Proper) (hrun : s.create r actor now = .ok s') :
    s'.ReadsBack r ↔ r.created.InYears ∧ r.updated.InYears := by
  have hget := get_of_create hreg h hrun
  obtain ⟨-, -, rfl⟩ := (create_eq_ok_iff hreg h).mp hrun
  have hreg' : (s.added r actor now).registry = .builtin := hreg
  have hinstalled : (s.added r actor now).database.Installed := (h.putRecords _ _).note
  rw [ReadsBack, hget, hconforms.ofRow_row_self_iff hproper]
  refine and_iff_left_of_imp fun hyears => ?_
  have hown := (hconforms.ofRow_row_self_iff hproper).mpr hyears
  have hreadable : (s.added r actor now).Listable r.kind := by
    refine (listable_iff hreg' hinstalled).mpr fun row hrow => ?_
    rw [records_added h] at hrow
    rcases List.mem_append.mp hrow with hrow | hrow
    · exact (listable_iff hreg h).mp hlistable row hrow
    · exact List.mem_singleton.mp hrow ▸ ⟨r, hown⟩
  obtain ⟨listed, hlisted⟩ := hreadable
  refine ⟨listed, hlisted, ?_⟩
  rw [list_all hreg' hinstalled] at hlisted
  have hmem : r.row ∈ Table.sorted (Descriptor.shipped r.kind).listOrder
      ((s.added r actor now).database.records r.kind) := by
    refine List.mem_mergeSort.mpr ?_
    rw [records_added h]
    exact List.mem_append_right _ (List.mem_singleton_self _)
  obtain ⟨read, hread, hrow⟩ := exists_value_of_mem hlisted hmem
  rw [hown] at hrow
  exact Except.ok.inj hrow ▸ hread

/-- A validated record that is created in a readable store reads back exactly if its times lie
in years of four digits. -/
theorem readsBack_iff_inYears {kind : RecordKind} {input : Json} {fresh : Uuid} {clock : Instant}
    (hinput : input.WellFormed) (hclock : clock.Proper)
    (hvalid : Registry.builtin.validate kind input fresh clock = .ok r)
    (hreg : s.registry = .builtin) (h : s.database.Installed)
    (hlistable : ∀ kind, s.Listable kind) (hrun : s.create r actor now = .ok s') :
    s'.ReadsBack r ↔ r.created.InYears ∧ r.updated.InYears :=
  readsBack_of_create hreg h (hlistable r.kind) (Record.conforms_of_validate hinput hvalid)
    (Record.proper_of_validate hclock hvalid) hrun

/-! ## A record that is not read back -/

/-- A locale with its creation time. -/
def localeCreatedAt (text : String) : Fields :=
  [("_created", .str text), ("_id", .str "en-US"), ("name", .str "English")]

theorem wellFormed_localeCreatedAt (text : String) :
    (Json.obj (localeCreatedAt text)).WellFormed := by
  refine .obj ?_ ?_
  · have hnames : ["_created", "_id", "name"].Pairwise (· < ·) := by decide
    exact List.pairwise_map.mp hnames
  · intro entry hentry
    simp only [localeCreatedAt, List.mem_cons, List.not_mem_nil, or_false] at hentry
    rcases hentry with rfl | rfl | rfl <;> exact .str _

theorem created_localeCreatedAt {text : String} {t : Instant} (fresh : Uuid) (clock : Instant)
    (h : Instant.parse text = .ok t) :
    (Record.ofCandidate .locale (localeCreatedAt text) fresh clock).created = t ∧
      (Record.ofCandidate .locale (localeCreatedAt text) fresh clock).updated = t.max t := by
  have hcreated : Descriptor.givenInstant? (localeCreatedAt text) createdField =
      some (Instant.parse text) := rfl
  have hupdated : Descriptor.givenInstant? (localeCreatedAt text) updatedField = none := rfl
  simp only [Record.ofCandidate, hcreated, hupdated, h, Descriptor.wellFormed?, Option.getD_some,
    Option.getD_none, and_self]

theorem listable_initial (kind : RecordKind) : initial.Listable kind := by
  refine (listable_iff holds_initial.registry_eq holds_initial.database.installed).mpr ?_
  rw [holds_initial.database.records_eq]
  exact nofun

/-- An accepted locale is created after an installation. -/
theorem create_initial {candidate : Fields} (fresh : Uuid) (clock : Instant)
    (hok : (Descriptor.shipped .locale).candidateViolations candidate = []) :
    ∃ s', initial.create (.ofCandidate .locale candidate fresh clock) "ann" clock = .ok s' := by
  obtain ⟨hnone, -⟩ := Descriptor.candidateViolations_eq_nil_iff.mp hok
  refine ⟨_, (create_eq_ok_iff holds_initial.registry_eq holds_initial.database.installed).mpr
    ⟨rfl, Table.check_eq_ok_iff.mpr ⟨?_, ?_⟩, rfl⟩⟩
  · intro column hcolumn _
    obtain ⟨f, hf, rfl⟩ := List.mem_map.mp hcolumn
    exact Record.isSome_cell_ofCandidate hnone hf
  · rw [holds_initial.database.records_eq]
    exact fun index _ => nofun

theorem localeCreatedAt_ok (text : String) {t : Instant}
    (hformat : Format.isDateTime text = true) (hparse : Instant.parse text = .ok t) :
    (Descriptor.shipped .locale).candidateViolations (localeCreatedAt text) = [] := by
  have hinsert : localeCreatedAt text =
      (Descriptor.sample .locale).insert createdField (.str text) :=
    (Fields.insert_cons_of_lt (by decide)).symm
  have hcreated : Descriptor.givenInstant? (localeCreatedAt text) createdField =
      some (Instant.parse text) := rfl
  obtain ⟨hnone, hid, -⟩ :=
    Descriptor.candidateViolations_eq_nil_iff.mp (Descriptor.sample_accepted .locale)
  refine Descriptor.candidateViolations_eq_nil_iff.mpr ⟨?_, hid, ?_, nofun⟩
  · rw [hinsert]
    exact Descriptor.violations_insert hnone (f := .createdTime) rfl
      (FieldSpec.accepts_str (.inr ⟨rfl, hformat⟩) rfl rfl rfl)
  · rw [hcreated, hparse]
    exact nofun

theorem validate_localeCreatedAt {text : String} (fresh : Uuid) (clock : Instant)
    (h : (Descriptor.shipped .locale).candidateViolations (localeCreatedAt text) = []) :
    Registry.builtin.validate .locale (.obj (localeCreatedAt text)) fresh clock =
      .ok (.ofCandidate .locale (localeCreatedAt text) fresh clock) :=
  Registry.validate_eq_ok_iff.mpr ⟨localeCreatedAt text, rfl, h, rfl⟩

theorem readsBack_locale : ∃ r s',
    Registry.builtin.validate .locale (.obj (localeCreatedAt "2024-01-01T00:00:00Z"))
      .sample ⟨0, 0⟩ = .ok r ∧
    initial.create r "ann" ⟨0, 0⟩ = .ok s' ∧ s'.ReadsBack r := by
  have hparse : Instant.parse "2024-01-01T00:00:00Z" = .ok ⟨1704067200, 0⟩ := by decide
  have hok := localeCreatedAt_ok "2024-01-01T00:00:00Z" (by decide) hparse
  obtain ⟨s', hrun⟩ := create_initial .sample ⟨0, 0⟩ hok
  have hvalid := validate_localeCreatedAt .sample ⟨0, 0⟩ hok
  obtain ⟨hcreated, hupdated⟩ := created_localeCreatedAt .sample ⟨0, 0⟩ hparse
  have hback := readsBack_iff_inYears (wellFormed_localeCreatedAt _) (by decide) hvalid
    holds_initial.registry_eq holds_initial.database.installed listable_initial hrun
  refine ⟨_, s', hvalid, hrun, hback.mpr ?_⟩
  rw [hcreated, hupdated]
  decide

/-- A time in year zero can lie in the year before when it is converted to UTC; the record is
created and cannot be read. -/
theorem not_readsBack : ¬ ∀ (kind : RecordKind) (input : Json) (fresh : Uuid)
    (clock now : Instant) (r : Record) (s s' : Store) (actor : String),
    input.WellFormed → clock.Proper → clock.InYears →
    Registry.builtin.validate kind input fresh clock = .ok r → s.registry = .builtin →
    s.database.Installed → (∀ kind, s.Listable kind) → s.create r actor now = .ok s' →
    s'.ReadsBack r := by
  intro hall
  have hparse : Instant.parse "0000-01-01T00:00:00+00:01" = .ok ⟨-62167219260, 0⟩ := by
    decide
  have hok := localeCreatedAt_ok "0000-01-01T00:00:00+00:01" (by decide) hparse
  obtain ⟨s', hrun⟩ := create_initial .sample ⟨0, 0⟩ hok
  have hinput := wellFormed_localeCreatedAt "0000-01-01T00:00:00+00:01"
  have hclock : Instant.Proper ⟨0, 0⟩ := by decide
  have hyears : Instant.InYears ⟨0, 0⟩ := by decide
  have hvalid := validate_localeCreatedAt .sample ⟨0, 0⟩ hok
  obtain ⟨hcreated, -⟩ := created_localeCreatedAt .sample ⟨0, 0⟩ hparse
  have hback := hall _ _ _ _ _ _ _ _ _ hinput hclock hyears hvalid holds_initial.registry_eq
    holds_initial.database.installed listable_initial hrun
  have hin := (readsBack_of_create holds_initial.registry_eq holds_initial.database.installed
    (listable_initial _) (Record.conforms_of_validate hinput hvalid)
    (Record.proper_of_validate hclock hvalid) hrun).mp hback
  rw [hcreated] at hin
  exact absurd hin.1 (by decide)

end Store
end Phrasebook
