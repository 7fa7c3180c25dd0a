import Mathlib.Algebra.GroupWithZero.Nat
import Phrasebook.Proofs.Mutations

/-!
# What a deletion takes with it

Deleting a record drops it and, through the fields that refer to it and cascade,
the records that refer to it. Every dropped record gets its own journal entry.

## Main definitions

* `Record.follows`: a record is dropped through a field that refers to another
* `Record.leaves`: a record is dropped by a deletion
* `Database.Drops`: records are dropped, and an entry is written for each
-/
namespace Phrasebook

/-- The record refers through a cascading field to the key. -/
def Record.follows (id : RecordId) (ref : RecordKind × FieldSpec) (r : Record) : Bool :=
  ref.2.onDelete = .cascade ∧ r.kind = ref.1 ∧ Table.holds ref.2.name id.text r.row

/-- The record is the one of the key. -/
def Record.isAt (kind : RecordKind) (id : RecordId) (r : Record) : Bool :=
  r.kind = kind ∧ r.id = id

/-- The record is dropped when a record is deleted. -/
def Record.leaves (kind : RecordKind) (id : RecordId) (r : Record) : Bool :=
  (Registry.builtin.referencing kind).any (r.follows id) || r.isAt kind id

/-- The number of records that refer to a key through cascading fields. -/
def Contents.followers (contents : Contents) (id : RecordId)
    (refs : List (RecordKind × FieldSpec)) : Nat :=
  (refs.map fun ref => ((contents ref.1).filter (Record.follows id ref)).length).sum

variable {db db' db'' : Database} {contents : Contents} {dropped further : Record → Bool}
  {actor : String} {now : Instant} {kind : RecordKind} {id : RecordId}

/-- A record of a kind without fields that refer to the deleted one leaves only by its own
key. -/
theorem Record.eq_of_leaves {r : Record}
    (hfree : ∀ ref ∈ Registry.builtin.referencing kind, ref.1 ≠ r.kind)
    (h : r.leaves kind id = true) : r.kind = kind ∧ r.id = id := by
  have hnone : (Registry.builtin.referencing kind).any (r.follows id) = false := by
    refine List.any_eq_false.mpr fun ref hmem => ?_
    simp [Record.follows, (hfree ref hmem).symm]
  simpa [Record.leaves, hnone, Record.isAt] using h

/-- Records are dropped, with an entry for each of them. -/
structure Database.Drops (db db' : Database) (contents : Contents) (dropped : Record → Bool)
    (actor : String) (now : Instant) : Prop where
  holds : db'.Holds (contents.dropping dropped)
  journal_eq : ∀ kind : RecordKind, kind.Recorded → db'.journal kind =
    db.journal kind ++ ((contents kind).filter dropped).map fun r => (r.removal actor now).row

namespace Contents

theorem dropping_congr (h : ∀ kind, ∀ r ∈ contents kind, dropped r = further r) :
    contents.dropping dropped = contents.dropping further := by
  funext kind
  exact List.filter_congr fun r hr => by rw [h kind r hr]

theorem dropping_dropping :
    (contents.dropping dropped).dropping further =
      contents.dropping fun r => dropped r || further r := by
  funext kind
  simp only [dropping, List.filter_filter, Bool.not_or]
  exact List.filter_congr fun r _ => Bool.and_comm _ _

theorem dropping_none (h : ∀ kind, ∀ r ∈ contents kind, dropped r = false) :
    contents.dropping dropped = contents := by
  funext kind
  exact List.filter_eq_self.mpr fun r hr => by rw [h kind r hr]; rfl

end Contents

namespace Database

theorem Drops.congr (h : db.Drops db' contents dropped actor now)
    (heq : ∀ kind, ∀ r ∈ contents kind, dropped r = further r) :
    db.Drops db' contents further actor now where
  holds := Contents.dropping_congr heq ▸ h.holds
  journal_eq kind hrec := by
    rw [h.journal_eq kind hrec, List.filter_congr fun r hr => heq kind r hr]

theorem Holds.drops_none (h : db.Holds contents)
    (hnone : ∀ kind, ∀ r ∈ contents kind, dropped r = false) :
    db.Drops db contents dropped actor now where
  holds := by rwa [Contents.dropping_none hnone]
  journal_eq kind _ := by
    rw [List.filter_eq_nil_iff.mpr fun r hr => by simp [hnone kind r hr]]
    simp

/-- Dropping records of some kinds and then records of others. -/
theorem Drops.trans (h : db.Drops db' contents dropped actor now)
    (h' : db'.Drops db'' (contents.dropping dropped) further actor now)
    (hapart : ∀ kind, (∀ r ∈ contents kind, dropped r = false) ∨
      ∀ r ∈ contents kind, further r = false) :
    db.Drops db'' contents (fun r => dropped r || further r) actor now where
  holds := Contents.dropping_dropping ▸ h'.holds
  journal_eq kind hrec := by
    rw [h'.journal_eq kind hrec, h.journal_eq kind hrec, List.append_assoc, ← List.map_append]
    congr 2
    simp only [Contents.dropping, List.filter_filter]
    rcases hapart kind with hnone | hnone
    · rw [List.filter_eq_nil_iff.mpr fun r hr => by simp [hnone r hr], List.nil_append]
      exact List.filter_congr fun r hr => by simp [hnone r hr]
    · have hempty : (contents kind).filter (fun r => further r && !dropped r) = [] :=
        List.filter_eq_nil_iff.mpr fun r hr => by simp [hnone r hr]
      rw [hempty, List.append_nil]
      exact List.filter_congr fun r hr => by simp [hnone r hr]

end Database

/-! ## Deleting by key -/

namespace Store

/-- The database without the row of a key. -/
def withoutRow (db : Database) (kind : RecordKind) (id : RecordId) : Database :=
  db.putRecords kind ((db.records kind).filter fun row => !Table.holds idField id.text row)

theorem installed_withoutRow (h : db.Installed) : (withoutRow db kind id).Installed :=
  h.putRecords kind _

theorem deleteRow_installed (h : db.Installed) (kind : RecordKind) (id : RecordId) :
    deleteRow db (.shipped kind) id =
      .ok (withoutRow db kind id, (db.records kind).countP (Table.holds idField id.text)) := by
  simp only [deleteRow, Database.delete, Database.table, h.records_table, bind, Except.bind,
    Table.delete_rows, Table.delete_count]
  rfl

theorem deleteRow_shipped (h : db.Holds contents) (kind : RecordKind) (id : RecordId) :
    deleteRow db (.shipped kind) id =
      .ok (withoutRow db kind id, ((contents kind).filter (·.isAt kind id)).length) := by
  have hcount : (db.records kind).countP (Table.holds idField id.text) =
      ((contents kind).filter (·.isAt kind id)).length := by
    rw [h.records_eq, List.countP_map, List.countP_eq_length_filter]
    refine congrArg _ (List.filter_congr fun r hr => ?_)
    simp [Record.holds_id, Record.isAt, h.kind_eq kind r hr]
  rw [deleteRow_installed h.installed, hcount]

theorem journal_withoutRow : (withoutRow db kind id).journal = db.journal :=
  Database.journal_putRecords _ _

/-- Without the row of a key the database holds the other records. -/
theorem holds_withoutRow (h : db.Holds contents) :
    (withoutRow db kind id).Holds (contents.dropping (·.isAt kind id)) := by
  have hrows : (db.records kind).filter (fun row => !Table.holds idField id.text row) =
      ((contents kind).filter fun r => !r.isAt kind id).map Record.row := by
    rw [h.records_eq, List.filter_map]
    refine congrArg _ (List.filter_congr fun r hr => ?_)
    simp [Record.holds_id, Record.isAt, h.kind_eq kind r hr]
  have hcontents : contents.dropping (·.isAt kind id) =
      Function.update contents kind ((contents kind).filter fun r => !r.isAt kind id) := by
    funext other
    by_cases heq : other = kind
    · subst heq; simp [Contents.dropping]
    · rw [Function.update_of_ne heq]
      refine List.filter_eq_self.mpr fun r hr => ?_
      simp [Record.isAt, h.kind_eq other r hr, heq]
  rw [withoutRow, hrows, hcontents]
  refine h.putRecords (fun r hr => h.kind_eq kind r (List.mem_filter.mp hr).1) ?_
  rw [← hrows]
  exact (h.distinct kind).filter _

/-- Deleting records by their keys drops them, in the order given. -/
theorem deleteChildren_shipped (actor : String) (now : Instant) {rs : List Record}
    (h : db.Holds contents)
    (hmem : ∀ r ∈ rs, r ∈ contents kind) (hne : rs.Pairwise fun a b => a.id ≠ b.id) :
    ∃ db', deleteChildren (.shipped kind) actor now db (rs.map fun r => r.id.text) =
        .ok (db', rs.length) ∧
      db'.Holds (contents.dropping fun r => r.kind = kind ∧ r.id ∈ rs.map Record.id) ∧
      ∀ other : RecordKind, other.Recorded → db'.journal other = db.journal other ++
        if other = kind then rs.map fun r => (r.removal actor now).row else [] := by
  induction rs generalizing db contents with
  | nil =>
    refine ⟨db, rfl, ?_, fun other _ => by simp⟩
    rwa [Contents.dropping_none fun _ _ _ => by simp]
  | cons r rest ih =>
    obtain ⟨hfirst, hrest⟩ := List.pairwise_cons.mp hne
    have hdropped : ((withoutRow db kind r.id).note kind (r.removal actor now)).Holds
        (contents.dropping (·.isAt kind r.id)) := (holds_withoutRow h).note _
    have hstill : ∀ child ∈ rest, child ∈ (contents.dropping (·.isAt kind r.id)) kind := by
      intro child hchild
      refine List.mem_filter.mpr ⟨hmem child (List.mem_cons_of_mem _ hchild), ?_⟩
      simp [Record.isAt, (hfirst child hchild).symm]
    obtain ⟨db', hrun, hholds, hjournal⟩ := ih hdropped hstill hrest
    refine ⟨db', ?_, ?_, ?_⟩
    · rw [List.map_cons, deleteChildren, parseStoredId, RecordId.parse_text]
      simp only [bind, Except.bind, deleteRow_shipped h,
        writeChange_shipped (holds_withoutRow h).installed]
      rw [show (ChangeEntry.mk r.id now ⟨actor, .delete, []⟩) = r.removal actor now from rfl, hrun]
      rfl
    · rw [Contents.dropping_dropping] at hholds
      refine Contents.dropping_congr (fun _ child _ => ?_) ▸ hholds
      by_cases hkind : child.kind = kind <;> by_cases hid : child.id = r.id <;>
        simp [Record.isAt, hkind, hid]
    · intro other hrec
      rw [hjournal other hrec, (holds_withoutRow h).installed.journal_note hrec, journal_withoutRow]
      by_cases heq : other = kind <;> simp [heq]

/-! ## Following references -/

theorem referringIds_shipped (h : db.Holds contents) (f : FieldSpec) :
    referringIds db (.shipped kind) f id = .ok (((contents kind).filter fun r =>
      Table.holds f.name id.text r.row).map fun r => r.id.text) := by
  have htexts : ∀ rs : List Record, (rs.map Record.row).mapM (fun row => textOf row idField) =
      (.ok (rs.map fun r => r.id.text) : Except StoreError _) := by
    intro rs
    induction rs with
    | nil => rfl
    | cons r rest ih =>
      rw [List.map_cons, List.mapM_cons, textOf, r.cell_id, ih]
      rfl
  simp only [referringIds, Database.table, h.installed.records_table, Table.select,
    Descriptor.recordTable, h.records_eq, List.filter_map, List.all_cons, List.all_nil,
    Bool.and_true, htexts]
  rfl

/-- A cascading field drops the records that refer to the key. -/
theorem releaseField_cascade {s : Store} (hreg : s.registry = .builtin) (h : db.Holds contents)
    (parent : RecordKind) {ref : RecordKind × FieldSpec} (hf : ref.2.onDelete = .cascade) :
    ∃ db', s.releaseField parent id actor now db ref.1 ref.2 =
        .ok (db', ((contents ref.1).filter (Record.follows id ref)).length) ∧
      db.Drops db' contents (Record.follows id ref) actor now := by
  obtain ⟨db', hrun, hholds, hjournal⟩ := deleteChildren_shipped actor now h
    (fun r hr => (List.mem_filter.mp hr).1)
    ((h.pairwise_id ref.1).filter fun r => Table.holds ref.2.name id.text r.row)
  have hfollows : ∀ r ∈ contents ref.1,
      Record.follows id ref r = Table.holds ref.2.name id.text r.row := by
    intro r hr
    simp [Record.follows, hf, h.kind_eq _ r hr]
  have hunique : ∀ r ∈ contents ref.1, r.id ∈ ((contents ref.1).filter fun r =>
      Table.holds ref.2.name id.text r.row).map Record.id ↔
      Table.holds ref.2.name id.text r.row = true := by
    intro r hr
    constructor
    · intro hid
      obtain ⟨other, hother, heq⟩ := List.mem_map.mp hid
      obtain ⟨hmem, hholds⟩ := List.mem_filter.mp hother
      rwa [← h.eq_of_id hmem hr heq]
    · exact fun hholds => List.mem_map_of_mem (List.mem_filter.mpr ⟨hr, hholds⟩)
  refine ⟨db', ?_, ?_, ?_⟩
  · rw [releaseField, descriptor_of_builtin hreg, List.filter_congr hfollows]
    simp only [bind, Except.bind, hf, referringIds_shipped h]
    exact hrun
  · refine Contents.dropping_congr (fun kind r hr => ?_) ▸ hholds
    by_cases hkind : kind = ref.1
    · subst hkind
      simp [hfollows r hr, h.kind_eq _ r hr, hunique r hr]
    · simp [Record.follows, h.kind_eq _ r hr, hkind]
  · intro kind hrec
    rw [hjournal kind hrec]
    by_cases hkind : kind = ref.1
    · subst hkind
      rw [if_pos rfl, List.filter_congr hfollows]
    · have hnone : (contents kind).filter (Record.follows id ref) = [] := by
        refine List.filter_eq_nil_iff.mpr fun r hr => ?_
        simp [Record.follows, h.kind_eq _ r hr, hkind]
      simp [hkind, hnone]

/-- Following a field drops what it takes with it and counts it, or refuses. -/
theorem releaseField_ok {s : Store} (hreg : s.registry = .builtin) (h : db.Holds contents)
    {parent : RecordKind} {ref : RecordKind × FieldSpec} {n : Nat}
    (hrun : s.releaseField parent id actor now db ref.1 ref.2 = .ok (db', n)) :
    db.Drops db' contents (Record.follows id ref) actor now ∧
      n = ((contents ref.1).filter (Record.follows id ref)).length := by
  cases hf : ref.2.onDelete with
  | cascade =>
    obtain ⟨db₁, hrun₁, hdrops⟩ := releaseField_cascade hreg h parent hf
    rw [hrun₁] at hrun
    cases hrun
    exact ⟨hdrops, rfl⟩
  | restrict =>
    have hnone : ∀ r, Record.follows id ref r = false := fun r => by simp [Record.follows, hf]
    rw [releaseField, descriptor_of_builtin hreg] at hrun
    simp only [bind, Except.bind, hf] at hrun
    split at hrun
    · cases hrun
    · split at hrun
      · cases hrun
      · cases hrun
        refine ⟨h.drops_none fun _ r _ => hnone r, ?_⟩
        rw [List.filter_eq_nil_iff.mpr fun r _ => by simp [hnone]]
        rfl

/-- Following fields of different kinds drops what each of them takes with it. -/
theorem releaseFields_ok {s : Store} (hreg : s.registry = .builtin) (h : db.Holds contents)
    {parent : RecordKind} {refs : List (RecordKind × FieldSpec)} {n : Nat}
    (hne : (refs.map Prod.fst).Nodup)
    (hrun : s.releaseFields parent id actor now db refs = .ok (db', n)) :
    db.Drops db' contents (fun r => refs.any (Record.follows id · r)) actor now ∧
      n = contents.followers id refs := by
  induction refs generalizing db contents n with
  | nil =>
    cases hrun
    exact ⟨h.drops_none fun _ _ _ => rfl, rfl⟩
  | cons ref rest ih =>
    obtain ⟨hfirst, hrest⟩ := List.nodup_cons.mp hne
    obtain ⟨⟨db₁, n₁⟩, hrun₁, hrun⟩ := bind_eq_ok_iff.mp hrun
    obtain ⟨⟨db₂, n₂⟩, hrun₂, hrun⟩ := bind_eq_ok_iff.mp hrun
    cases hrun
    obtain ⟨hdrops, rfl⟩ := releaseField_ok hreg h hrun₁
    obtain ⟨hdrops', rfl⟩ := ih hdrops.holds hrest hrun₂
    have hapart : ∀ other ∈ rest, other.1 ≠ ref.1 := fun other hother heq =>
      hfirst (heq ▸ List.mem_map_of_mem hother)
    refine ⟨(hdrops.trans hdrops' fun kind => ?_).congr fun _ _ _ => by simp, ?_⟩
    · by_cases hkind : kind = ref.1
      · refine .inr fun r hr => List.any_eq_false.mpr fun other hother => ?_
        simp [Record.follows, h.kind_eq _ r hr, hkind, (hapart other hother).symm]
      · exact .inl fun r hr => by simp [Record.follows, h.kind_eq _ r hr, hkind]
    · have hkept : ∀ other ∈ rest,
          contents.dropping (Record.follows id ref) other.1 = contents other.1 := by
        intro other hother
        refine List.filter_eq_self.mpr fun r hr => ?_
        simp [Record.follows, h.kind_eq _ r hr, hapart other hother]
      have hcounts : (contents.dropping (Record.follows id ref)).followers id rest =
          contents.followers id rest :=
        congrArg List.sum (List.map_congr_left fun other hother => by rw [hkept other hother])
      rw [hcounts, Contents.followers, Contents.followers, List.map_cons, List.sum_cons]

theorem releaseFields_cascade {s : Store} (hreg : s.registry = .builtin) (h : db.Holds contents)
    (parent : RecordKind) (id : RecordId) (actor : String) (now : Instant)
    {refs : List (RecordKind × FieldSpec)}
    (hrefs : ∀ ref ∈ refs, ref.2.onDelete = .cascade) :
    ∃ db' n, s.releaseFields parent id actor now db refs = .ok (db', n) := by
  induction refs generalizing db contents with
  | nil => exact ⟨db, 0, rfl⟩
  | cons ref rest ih =>
    obtain ⟨db₁, hrun₁, hdrops⟩ := releaseField_cascade hreg h parent (hrefs ref List.mem_cons_self)
    obtain ⟨db₂, n, hrun₂⟩ := ih hdrops.holds fun other hother =>
      hrefs other (List.mem_cons_of_mem _ hother)
    refine ⟨db₂, ((contents ref.1).filter (Record.follows id ref)).length + n, ?_⟩
    rw [releaseFields, hrun₁]
    simp only [bind, Except.bind, hrun₂]

/-! ## Delete -/

section Delete

variable {s s' : Store}

/-- The fields that refer to a kind belong to different kinds, all of them others. -/
theorem nodup_referencing (kind : RecordKind) :
    ((Registry.builtin.referencing kind).map Prod.fst).Nodup ∧
      ∀ ref ∈ Registry.builtin.referencing kind, ref.1 ≠ kind := by
  cases kind <;> decide

/-- Deleting the row of a key drops its record, if there is one. -/
theorem drops_withoutRow (h : db.Holds contents) {stored : Record} (hmem : stored ∈ contents kind) :
    db.Drops ((withoutRow db kind stored.id).note kind (stored.removal actor now)) contents
      (·.isAt kind stored.id) actor now where
  holds := (holds_withoutRow h).note _
  journal_eq other hrec := by
    rw [(holds_withoutRow h).installed.journal_note hrec, journal_withoutRow]
    by_cases heq : other = kind
    · subst heq
      have hone : (contents other).filter (·.isAt other stored.id) = [stored] := by
        rw [← h.filter_id hmem]
        refine List.filter_congr fun r hr => ?_
        simp [Record.isAt, h.kind_eq other r hr]
      simp [hone]
    · have hnone : (contents other).filter (·.isAt kind stored.id) = [] := by
        refine List.filter_eq_nil_iff.mpr fun r hr => ?_
        simp [Record.isAt, h.kind_eq other r hr, heq]
      simp [heq, hnone]

/-- The rows of a kind survive when the fields that refer to it are followed. -/
theorem dropping_follows (h : db.Holds contents) :
    contents.dropping (fun r => (Registry.builtin.referencing kind).any (r.follows id)) kind =
      contents kind := by
  refine List.filter_eq_self.mpr fun r hr => ?_
  have hnone : (Registry.builtin.referencing kind).any (r.follows id) = false := by
    refine List.any_eq_false.mpr fun ref href => ?_
    simp [Record.follows, h.kind_eq kind r hr, ((nodup_referencing kind).2 ref href).symm]
  simp [hnone]

/-- When all fields that refer to a kind have been followed, only an unknown key is left to
fail. -/
theorem Holds.delete_of_release (h : s.Holds contents) {removed : Nat}
    (hrelease : s.releaseFields kind id actor now s.database
      (Registry.builtin.referencing kind) = .ok (db, removed)) :
    (∀ stored ∈ contents kind, stored.id ≠ id) ∧
        s.delete kind id actor now = .error (.noRecord kind id) ∨
      (∃ stored ∈ contents kind, stored.id = id) ∧
        removed = contents.followers id (Registry.builtin.referencing kind) ∧
        ∃ s', s.delete kind id actor now = .ok (s', removed + 1) ∧ s'.registry = .builtin ∧
          s.database.Drops s'.database contents (·.leaves kind id) actor now := by
  obtain ⟨hdrops, hremoved⟩ :=
    releaseFields_ok h.registry_eq h.database (nodup_referencing kind).1 hrelease
  rw [delete, descriptor_of_builtin h.registry_eq, h.registry_eq]
  simp only [bind, Except.bind, hrelease, deleteRow_shipped hdrops.holds,
    dropping_follows h.database, beq_iff_eq]
  split
  · next hown =>
    refine .inl ⟨fun stored hmem hid => ?_, rfl⟩
    have hnone := List.filter_eq_nil_iff.mp (List.length_eq_zero_iff.mp hown) stored hmem
    simp [Record.isAt, h.database.kind_eq kind stored hmem, hid] at hnone
  · next hown =>
    obtain ⟨stored, hstored⟩ := List.exists_mem_of_length_pos (Nat.pos_of_ne_zero hown)
    obtain ⟨hmem, hat⟩ := List.mem_filter.mp hstored
    obtain ⟨-, rfl⟩ : stored.kind = kind ∧ stored.id = id := by simpa [Record.isAt] using hat
    have hmem' : stored ∈ contents.dropping
        (fun r => (Registry.builtin.referencing kind).any (r.follows stored.id)) kind := by
      rwa [dropping_follows h.database]
    refine .inr ⟨⟨stored, hmem, rfl⟩, hremoved, ?_⟩
    rw [writeChange_shipped (holds_withoutRow hdrops.holds).installed]
    refine ⟨_, rfl, rfl, hdrops.trans (drops_withoutRow hdrops.holds hmem') fun other => ?_⟩
    by_cases hother : other = kind
    · refine .inl fun r hr => List.any_eq_false.mpr fun ref href => ?_
      simp [Record.follows, h.database.kind_eq other r hr, hother,
        ((nodup_referencing kind).2 ref href).symm]
    · exact .inr fun r hr => by simp [Record.isAt, h.database.kind_eq other r hr, hother]

/-- A deletion that succeeds drops the record and what refers to it. -/
theorem Holds.delete_ok (h : s.Holds contents) {n : Nat}
    (hrun : s.delete kind id actor now = .ok (s', n)) :
    (∃ stored ∈ contents kind, stored.id = id) ∧ s'.registry = .builtin ∧
      s.database.Drops s'.database contents (·.leaves kind id) actor now := by
  have hrelease : ∃ result, s.releaseFields kind id actor now s.database
      (Registry.builtin.referencing kind) = .ok result := by
    rw [delete, descriptor_of_builtin h.registry_eq, h.registry_eq] at hrun
    obtain ⟨_, -, hrun⟩ := bind_eq_ok_iff.mp hrun
    exact (bind_eq_ok_iff.mp hrun).imp fun _ => And.left
  obtain ⟨⟨db, removed⟩, hrelease⟩ := hrelease
  rcases h.delete_of_release hrelease with ⟨-, hfail⟩ | ⟨hstored, -, s₁, hok, hreg, hdrops⟩
  · rw [hfail] at hrun
    cases hrun
  · rw [hok] at hrun
    cases hrun
    exact ⟨hstored, hreg, hdrops⟩

/-- A stored template can be deleted. -/
theorem Holds.delete_template (h : s.Holds contents) {stored : Record}
    (hmem : stored ∈ contents .template) (actor : String) (now : Instant) :
    ∃ s' n, s.delete .template stored.id actor now = .ok (s', n) := by
  have hcascade : ∀ ref ∈ Registry.builtin.referencing .template, ref.2.onDelete = .cascade := by
    decide
  obtain ⟨db, removed, hrelease⟩ := releaseFields_cascade h.registry_eq h.database
    .template stored.id actor now hcascade
  rcases h.delete_of_release hrelease with ⟨hnone, -⟩ | ⟨-, -, s', hok, -⟩
  · exact absurd rfl (hnone stored hmem)
  · exact ⟨s', _, hok⟩

end Delete

/-! ## What deletions keep -/

section Keep

variable {s s' : Store} {parent : RecordKind} {n : Nat} {P : Database → Prop}
  (hstep : ∀ {db : Database}, db.Installed → P db →
    ∀ kind id e, P ((withoutRow db kind id).note kind e))
include hstep

theorem deleteChildren_keeps (h : db.Installed) (hP : P db) {keys : List String}
    (hrun : deleteChildren (.shipped kind) actor now db keys = .ok (db', n)) :
    db'.Installed ∧ P db' := by
  induction keys generalizing db n with
  | nil =>
    cases hrun
    exact ⟨h, hP⟩
  | cons key rest ih =>
    simp only [deleteChildren, bind_eq_ok_iff, deleteRow_installed h, Except.ok.injEq,
      exists_eq_left', writeChange_shipped (installed_withoutRow h)] at hrun
    obtain ⟨id, -, ⟨db₁, m⟩, hrest, hrun⟩ := hrun
    cases hrun
    exact ih (installed_withoutRow h).note (hstep h hP kind id _) hrest

theorem releaseFields_keeps (hreg : s.registry = .builtin) (h : db.Installed) (hP : P db)
    {refs : List (RecordKind × FieldSpec)}
    (hrun : s.releaseFields parent id actor now db refs = .ok (db', n)) :
    db'.Installed ∧ P db' := by
  induction refs generalizing db n with
  | nil =>
    cases hrun
    exact ⟨h, hP⟩
  | cons ref rest ih =>
    obtain ⟨⟨db₁, m⟩, hfirst, hrun⟩ := bind_eq_ok_iff.mp hrun
    obtain ⟨⟨db₂, k⟩, hrest, hrun⟩ := bind_eq_ok_iff.mp hrun
    cases hrun
    have hkept : db₁.Installed ∧ P db₁ := by
      rw [releaseField, descriptor_of_builtin hreg] at hfirst
      obtain ⟨d, hd, hfirst⟩ := bind_eq_ok_iff.mp hfirst
      cases hd
      cases hf : ref.2.onDelete with
      | restrict =>
        simp only [hf] at hfirst
        split at hfirst
        · cases hfirst
        · split at hfirst
          · cases hfirst
          · cases hfirst
            exact ⟨h, hP⟩
      | cascade =>
        simp only [hf] at hfirst
        obtain ⟨keys, -, hfirst⟩ := bind_eq_ok_iff.mp hfirst
        exact deleteChildren_keeps hstep h hP hfirst
    exact ih hkept.1 hkept.2 hrest

/-- A deletion takes rows away one after another, each with an entry for it, and keeps what
that keeps. -/
theorem delete_keeps (hreg : s.registry = .builtin) (h : s.database.Installed)
    (hP : P s.database) (hrun : s.delete kind id actor now = .ok (s', n)) :
    s'.registry = s.registry ∧ P s'.database := by
  rw [delete, descriptor_of_builtin hreg] at hrun
  obtain ⟨d, hd, hrun⟩ := bind_eq_ok_iff.mp hrun
  cases hd
  obtain ⟨⟨db, removed⟩, hrelease, hrun⟩ := bind_eq_ok_iff.mp hrun
  obtain ⟨hinstalled, hkept⟩ := releaseFields_keeps hstep hreg h hP hrelease
  simp only [deleteRow_installed hinstalled, bind, Except.bind] at hrun
  split at hrun
  · cases hrun
  · rw [writeChange_shipped (installed_withoutRow hinstalled)] at hrun
    cases hrun
    exact ⟨rfl, hstep hinstalled hkept kind id _⟩

end Keep
end Store
end Phrasebook
