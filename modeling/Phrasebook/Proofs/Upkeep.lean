import Mathlib.Data.List.Induction
import Phrasebook.Proofs.Integrity
import Phrasebook.Proofs.Runs

/-!
# Upkeep of tables

Whatever the definitions, no operation changes the columns and the indexes of a table, and
none makes two rows agree on an index or leaves a forbidden null. What holds of the tables of
an installed store in this respect holds of them after every run.

## Main definitions

* `Table.Evolves`, `Database.Evolves`, `Store.Evolves`: what operations leave
-/
namespace Phrasebook

/-- A table keeps its columns and indexes, and its rows stay distinct and full. -/
structure Table.Evolves (t t' : Table) : Prop where
  name_eq : t'.name = t.name
  columns_eq : t'.columns = t.columns
  indexes_eq : t'.indexes = t.indexes
  distinct : t.Distinct t.rows → t'.Distinct t'.rows
  full : t.Full t.rows → t'.Full t'.rows

/-- Every table stays and evolves. -/
def Database.Evolves (db db' : Database) : Prop :=
  ∀ name t, db.table? name = some t → ∃ t', db'.table? name = some t' ∧ t.Evolves t'

/-- The definitions stay and the tables evolve. -/
structure Store.Evolves (s s' : Store) : Prop where
  registry_eq : s'.registry = s.registry
  database : s.database.Evolves s'.database

/-! ## Tables -/

namespace Table

variable {t t' t'' : Table}

theorem Evolves.refl (t : Table) : t.Evolves t := ⟨rfl, rfl, rfl, id, id⟩

theorem Evolves.trans (h : t.Evolves t') (h' : t'.Evolves t'') : t.Evolves t'' where
  name_eq := h'.name_eq.trans h.name_eq
  columns_eq := h'.columns_eq.trans h.columns_eq
  indexes_eq := h'.indexes_eq.trans h.indexes_eq
  distinct hd := h'.distinct (h.distinct hd)
  full hfull := h'.full (h.full hfull)

theorem evolves_insert {given : Assignment} (h : t.insert given = .ok t') : t.Evolves t' := by
  obtain ⟨-, hcheck, rfl⟩ := insert_eq_ok_iff.mp h
  exact ⟨rfl, rfl, rfl, fun hd => hd.append hcheck, fun hfull => hfull.append hcheck⟩

theorem evolves_update {column text : String} {given : Assignment} {n : Nat}
    (h : t.update column text given = .ok (t', n)) : t.Evolves t' := by
  obtain ⟨rfl, -, hdistinct, hfull⟩ := update_ok h
  exact ⟨rfl, rfl, rfl, hdistinct, hfull⟩

theorem evolves_delete (t : Table) (column text : String) :
    t.Evolves (t.delete column text).1 :=
  ⟨rfl, rfl, rfl, fun hd => hd.filter _, fun hfull => hfull.filter _⟩

end Table

/-! ## Databases -/

namespace Database

variable {db db' db'' : Database} {t t' : Table} {name column text : String}
  {given : Assignment} {n : Nat}

theorem Evolves.refl (db : Database) : db.Evolves db := fun _ t ht => ⟨t, ht, .refl t⟩

theorem Evolves.trans (h : db.Evolves db') (h' : db'.Evolves db'') : db.Evolves db'' := by
  intro name t ht
  obtain ⟨t₁, ht₁, h₁⟩ := h name t ht
  obtain ⟨t₂, ht₂, h₂⟩ := h' name t₁ ht₁
  exact ⟨t₂, ht₂, h₁.trans h₂⟩

theorem evolves_put (ht : db.table? name = some t) (h : t.Evolves t') : db.Evolves (db.put t') := by
  intro other u hu
  rw [table?_put, h.name_eq]
  split
  · next hsame =>
    have hfound : db.table? other = some t := by
      rw [← table?_congr hsame, table?_congr (sameName_of_table? ht), ht]
    obtain rfl : t = u := Option.some.inj (hfound.symm.trans hu)
    exact ⟨t', by rw [hu]; rfl, h⟩
  · exact ⟨u, hu, .refl u⟩

theorem evolves_insert (h : db.insert name given = .ok db') : db.Evolves db' := by
  obtain ⟨t, t', ht, hinsert, rfl⟩ := insert_ok h
  exact evolves_put ht (Table.evolves_insert hinsert)

theorem evolves_update (h : db.update name column text given = .ok (db', n)) : db.Evolves db' := by
  obtain ⟨t, ht, h⟩ := bind_eq_ok_iff.mp h
  obtain ⟨⟨t', count⟩, hupdate, h⟩ := bind_eq_ok_iff.mp h
  cases h
  exact evolves_put (table_eq_ok_iff.mp ht) (Table.evolves_update hupdate)

theorem evolves_deleteRow {d : Descriptor} {id : RecordId}
    (h : Store.deleteRow db d id = .ok (db', n)) : db.Evolves db' := by
  obtain ⟨t, ht, rfl⟩ := Store.deleteRow_ok h
  exact evolves_put ht (Table.evolves_delete t idField id.text)

theorem evolves_writeChange {d : Descriptor} {id : RecordId} {items : ChangeItems} {now : Instant}
    (h : Store.writeChange db d id items now = .ok db') : db.Evolves db' := by
  rcases Store.writeChange_ok h with rfl | ⟨name, -, given, hinsert⟩
  · exact .refl _
  · exact evolves_insert hinsert

/-! ## Deletions -/

variable {s : Store} {child : Descriptor} {kind : RecordKind} {id : RecordId} {actor : String}
  {now : Instant}

theorem evolves_deleteChildren {keys : List String}
    (h : Store.deleteChildren child actor now db keys = .ok (db', n)) : db.Evolves db' := by
  induction keys generalizing db n with
  | nil =>
    cases h
    exact .refl _
  | cons raw rest ih =>
    obtain ⟨id, -, h⟩ := bind_eq_ok_iff.mp h
    obtain ⟨⟨db₁, own⟩, hrow, h⟩ := bind_eq_ok_iff.mp h
    obtain ⟨db₂, hchange, h⟩ := bind_eq_ok_iff.mp h
    obtain ⟨⟨db₃, m⟩, hrest, h⟩ := bind_eq_ok_iff.mp h
    cases h
    exact ((evolves_deleteRow hrow).trans (evolves_writeChange hchange)).trans (ih hrest)

theorem evolves_releaseField {childKind : RecordKind} {f : FieldSpec}
    (h : s.releaseField kind id actor now db childKind f = .ok (db', n)) : db.Evolves db' := by
  obtain ⟨child, -, h⟩ := bind_eq_ok_iff.mp h
  split at h
  · split at h
    · cases h
    · split at h
      · cases h
      · cases h
        exact .refl _
  · obtain ⟨keys, -, h⟩ := bind_eq_ok_iff.mp h
    exact evolves_deleteChildren h

theorem evolves_releaseFields {refs : List (RecordKind × FieldSpec)}
    (h : s.releaseFields kind id actor now db refs = .ok (db', n)) : db.Evolves db' := by
  induction refs generalizing db n with
  | nil =>
    cases h
    exact .refl _
  | cons ref rest ih =>
    obtain ⟨⟨db₁, first⟩, hfirst, h⟩ := bind_eq_ok_iff.mp h
    obtain ⟨⟨db₂, later⟩, hrest, h⟩ := bind_eq_ok_iff.mp h
    cases h
    exact (evolves_releaseField hfirst).trans (ih hrest)

end Database

/-! ## Operations -/

namespace Store

variable {s s' s'' : Store} {r : Record} {kind : RecordKind} {id : RecordId} {actor : String}
  {now : Instant} {n : Nat}

theorem Evolves.refl (s : Store) : s.Evolves s := ⟨rfl, .refl s.database⟩

theorem Evolves.trans (h : s.Evolves s') (h' : s'.Evolves s'') : s.Evolves s'' :=
  ⟨h'.registry_eq.trans h.registry_eq, h.database.trans h'.database⟩

theorem evolves_create (h : s.create r actor now = .ok s') : s.Evolves s' := by
  obtain ⟨d, -, h⟩ := bind_eq_ok_iff.mp h
  obtain ⟨-, -, h⟩ := bind_eq_ok_iff.mp h
  dsimp only at h
  split at h
  · next hinsert =>
    obtain ⟨db, hdb, hrest⟩ := bind_eq_ok_iff.mp h
    obtain ⟨db', hchange, hstore⟩ := bind_eq_ok_iff.mp hrest
    cases hdb
    cases hstore
    exact ⟨rfl, (Database.evolves_insert hinsert).trans (Database.evolves_writeChange hchange)⟩
  · cases h

theorem evolves_update (h : s.update r actor now = .ok s') : s.Evolves s' := by
  obtain ⟨existing, -, h⟩ := bind_eq_ok_iff.mp h
  obtain ⟨d, -, h⟩ := bind_eq_ok_iff.mp h
  split at h
  · cases h
  · split at h
    · cases h
    · split at h
      · cases h
      · next db count hupdate =>
        split at h
        · cases h
        · obtain ⟨db', hchange, h⟩ := bind_eq_ok_iff.mp h
          cases h
          exact ⟨rfl, (Database.evolves_update hupdate).trans
            (Database.evolves_writeChange hchange)⟩

theorem evolves_delete (h : s.delete kind id actor now = .ok (s', n)) : s.Evolves s' := by
  obtain ⟨d, -, h⟩ := bind_eq_ok_iff.mp h
  obtain ⟨⟨db₁, removed⟩, hrelease, h⟩ := bind_eq_ok_iff.mp h
  obtain ⟨⟨db₂, own⟩, hrow, h⟩ := bind_eq_ok_iff.mp h
  dsimp only at h
  split at h
  · cases h
  · obtain ⟨db₃, hchange, h⟩ := bind_eq_ok_iff.mp h
    cases h
    exact ⟨rfl, ((Database.evolves_releaseFields hrelease).trans
      (Database.evolves_deleteRow hrow)).trans (Database.evolves_writeChange hchange)⟩

/-- Every operation lets the tables evolve. -/
theorem evolves_after (s : Store) (op : Operation) : s.Evolves (s.after op) := by
  cases hrun : s.perform op with
  | error e =>
    rw [after_of_error hrun]
    exact .refl s
  | ok s' =>
    rw [after_of_perform hrun]
    cases op with
    | create r actor now => exact evolves_create hrun
    | update r actor now => exact evolves_update hrun
    | delete kind id actor now =>
      obtain ⟨⟨s₁, n⟩, hdelete, rfl⟩ := map_eq_ok_iff.mp hrun
      exact evolves_delete hdelete

theorem evolves_run (s : Store) (ops : List Operation) : s.Evolves (s.run ops) := by
  induction ops using List.reverseRecOn with
  | nil => exact .refl s
  | append_singleton ops op ih =>
    rw [run_append]
    exact ih.trans (evolves_after _ op)

end Store
end Phrasebook
