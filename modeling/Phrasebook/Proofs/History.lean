import Phrasebook.Proofs.Changes

/-!
# Histories

After every lawful run the history of a key lists what the operations of the run did to
its row, one entry each, and replaying it gives the fields that are stored.

## Main definitions

* `Store.trace`: what the operations of a run did to the row of a key, and who asked for it
* `ChangeEntry.replay`: the fields that a history tells of
* `Store.fieldsOf?`: the fields that are stored under a key
-/
namespace Phrasebook

/-! ## What a history tells -/

namespace ChangeEntry

/-- The fields of a record after an entry of its history. -/
def replayed (fields : Option Fields) (e : ChangeEntry) : Option Fields :=
  match e.items.action with
  | .create => some (e.items.fields.filter fun entry => !isIdentityField entry.1)
  | .update => fields.map fun fields => fields.override (newValues e.items.fields)
  | .delete => none

/-- The fields of a record after its history. -/
def replay (entries : List ChangeEntry) : Option Fields := entries.foldl replayed none

/-- Who made a change, and what it did. -/
def told (e : ChangeEntry) : String × ChangeAction := (e.items.user, e.items.action)

/-- The history is empty or ends with a removal. -/
def Ended (entries : List ChangeEntry) : Prop :=
  ∀ e ∈ entries.getLast?, e.items.action = .delete

end ChangeEntry

/-- What the operations of a run do to the row of a key, in their order, with their actors. -/
def Store.trace (kind : RecordKind) (id : RecordId) :
    Store → List Operation → List (String × ChangeAction)
  | _, [] => []
  | s, op :: ops =>
    ((s.change? kind id op).map fun action => (op.actor, action)).toList ++
      trace kind id (s.after op) ops

/-- The values that the cells of a row stand for, but for the key and the times. -/
def Descriptor.valuesOf (d : Descriptor) (row : Row) : Fields :=
  FieldSpec.fill (FieldSpec.read? row) [] (d.fields.filter fun f => !isIdentityField f.name)

/-- The fields that are stored under a key. -/
def Store.fieldsOf? (s : Store) (kind : RecordKind) (id : RecordId) : Option Fields :=
  ((s.database.records kind).find? (Table.holds idField id.text)).map
    (Descriptor.shipped kind).valuesOf

theorem Store.trace_append (kind : RecordKind) (id : RecordId) (s : Store) (ops : List Operation)
    (op : Operation) : trace kind id s (ops ++ [op]) = trace kind id s ops ++
      (((s.run ops).change? kind id op).map fun action => (op.actor, action)).toList := by
  induction ops generalizing s with
  | nil => simp [trace]
  | cons first rest ih =>
    have hrun : s.run (first :: rest) = (s.after first).run rest := rfl
    rw [List.cons_append, trace, trace, ih, hrun, List.append_assoc]

/-! ## Single changes -/

namespace Record.Change

variable {actor : String} {now : Instant} {before after : Option Record} {e : Option ChangeEntry}

/-- The entry for a change makes the fields afterwards of those before. -/
theorem replayed (h : Change actor now before after e) :
    e.toList.foldl ChangeEntry.replayed (before.map Record.fields) = after.map Record.fields := by
  cases h with
  | unchanged r => rfl
  | created conforms =>
    have hcreate := congrArg some conforms.filter_toFields
    exact hcreate
  | updated conforms existing_conforms kind_eq fields_eq =>
    have hoverride := existing_conforms.override_newValues conforms kind_eq
    rw [fields_eq] at hoverride
    exact congrArg some hoverride
  | removed r => rfl

/-- The entry for a change names the actor. -/
theorem told (h : Change actor now before after e) :
    e.map ChangeEntry.told = (e.map (·.items.action)).map fun action => (actor, action) := by
  cases h <;> rfl

/-- The entry for a change is read back if its time is. -/
theorem readable (h : Change actor now before after e) (hproper : now.Proper)
    (hyears : now.InYears) : ∀ x ∈ e, x.Readable := by
  have hparse := Instant.parse_text hproper hyears
  cases h with
  | unchanged r => exact nofun
  | created conforms =>
    intro x hx
    cases hx
    obtain ⟨hplain, hheight⟩ := conforms.plain_toFields
    exact ⟨hparse, hplain, Nat.le_succ_of_le hheight⟩
  | updated conforms existing_conforms kind_eq fields_eq =>
    intro x hx
    cases hx
    obtain ⟨hplain, hheight⟩ := existing_conforms.plain_diffFields conforms
    exact ⟨hparse, hplain, hheight⟩
  | removed r =>
    intro x hx
    cases hx
    exact ⟨hparse, .obj List.Pairwise.nil nofun,
      by simp [Record.removal, Json.height, Json.heightEntries]⟩

/-- A history ends with a removal as long as there is no record. -/
theorem ended (h : Change actor now before after e) {entries : List ChangeEntry}
    (hended : before = none ↔ ChangeEntry.Ended entries) :
    after = none ↔ ChangeEntry.Ended (entries ++ e.toList) := by
  cases h with
  | unchanged r => simpa using hended
  | created conforms => simp [ChangeEntry.Ended, Record.creation]
  | updated conforms existing_conforms kind_eq fields_eq =>
    simp [ChangeEntry.Ended, Record.revision]
  | removed r => simp [ChangeEntry.Ended, Record.removal]

end Record.Change

/-! ## Stored fields -/

/-- The values of the row of a conforming record are its fields. -/
theorem Record.Conforms.valuesOf_row {r : Record} (h : r.Conforms) :
    (Descriptor.shipped r.kind).valuesOf r.row = r.fields := by
  have hnodup : (((Descriptor.shipped r.kind).fields.filter fun f => !isIdentityField f.name).map
      FieldSpec.name).Nodup :=
    (Descriptor.nodup_shipped r.kind).sublist (List.filter_sublist.map _)
  refine (FieldSpec.sorted_fill List.Pairwise.nil).ext h.sorted fun name => ?_
  have hall := h.get?_fill_row name
  rw [FieldSpec.get?_fill (Descriptor.nodup_shipped r.kind), Fields.get?_nil,
    Option.or_none] at hall
  rw [FieldSpec.get?_fill hnodup, Fields.get?_nil, Option.or_none,
    Descriptor.find?_filter _ fun name => !isIdentityField name]
  cases hidentity : isIdentityField name with
  | false => simpa [Record.get?_eq_fields hidentity] using hall
  | true => exact (h.get?_identity name hidentity).symm

namespace Store

variable {s s' : Store} {contents contents' : Contents} {op : Operation} {kind : RecordKind}

theorem Holds.fieldsOf?_eq (h : s.Holds contents) (hconforming : contents.Conforming)
    (kind : RecordKind) (id : RecordId) :
    s.fieldsOf? kind id = (contents.record? kind id).map Record.fields := by
  have hfind : (s.database.records kind).find? (Table.holds idField id.text) =
      (contents.record? kind id).map Record.row := by
    rw [h.database.records_eq, List.find?_map, Record.holds_id_comp, Contents.record?]
  rw [fieldsOf?, hfind]
  cases hrecord : contents.record? kind id with
  | none => rfl
  | some r =>
    have hmem := (h.database.record?_eq_some_iff.mp hrecord).1
    have hvalues := (hconforming kind r hmem).valuesOf_row
    rw [h.database.kind_eq kind r hmem] at hvalues
    exact congrArg some hvalues

/-- A record that is read has the fields of the stored one. -/
theorem Holds.fields_of_get (h : s.Holds contents) (hconforming : contents.Conforming)
    {id : RecordId} {r : Record} (hget : s.get kind id = .ok r) :
    (contents.record? kind id).map Record.fields = some r.fields := by
  cases hrecord : contents.record? kind id with
  | none =>
    have hmissing : ∀ stored ∈ contents kind, stored.id ≠ id := fun stored hstored =>
      by simpa using List.find?_eq_none.mp hrecord stored hstored
    rw [h.get_of_forall hmissing] at hget
    cases hget
  | some stored =>
    obtain ⟨hmem, rfl⟩ := h.database.record?_eq_some_iff.mp hrecord
    rw [h.get_of_mem hmem] at hget
    have hconforms := hconforming kind stored hmem
    obtain rfl := h.database.kind_eq kind stored hmem
    obtain ⟨-, -, -, -, hfields⟩ := hconforms.ofRow_row_iff.mp hget
    exact congrArg some hfields.symm

/-! ## Runs -/

/-- The journal of a kind tells of every key what has been done to it and what is stored. -/
structure Recounts (s : Store) (contents : Contents) (kind : RecordKind)
    (entries : List ChangeEntry) (told : RecordId → List (String × ChangeAction)) : Prop where
  journal_eq : s.database.journal kind = entries.map ChangeEntry.row
  readable : ∀ e ∈ entries, e.Readable
  told_eq : ∀ id, (entries.filter fun e => decide (e.id = id)).map ChangeEntry.told = told id
  replay_eq : ∀ id, ChangeEntry.replay (entries.filter fun e => decide (e.id = id)) =
    (contents.record? kind id).map Record.fields
  ended_iff : ∀ id, contents.record? kind id = none ↔
    ChangeEntry.Ended (entries.filter fun e => decide (e.id = id))

/-- What an operation records is added to what the journal tells. -/
theorem Recounts.step {entries noted : List ChangeEntry}
    {told : RecordId → List (String × ChangeAction)} (h : s.Recounts contents kind entries told)
    (hnotes : Notes s s' contents contents' op kind noted) (hproper : op.clock.Proper)
    (hyears : op.clock.InYears) : s'.Recounts contents' kind (entries ++ noted) fun id =>
      told id ++ ((s.change? kind id op).map fun action => (op.actor, action)).toList where
  journal_eq := by rw [hnotes.journal_eq, h.journal_eq, List.map_append]
  readable := by
    intro x hx
    rcases List.mem_append.mp hx with hx | hx
    · exact h.readable x hx
    · obtain ⟨e, hfilter, htells⟩ := hnotes.tells x.id
      have hmem : x ∈ noted.filter fun e => decide (e.id = x.id) :=
        List.mem_filter.mpr ⟨hx, by simp⟩
      rw [hfilter, Option.mem_toList] at hmem
      exact htells.change.readable hproper hyears x hmem
  told_eq id := by
    obtain ⟨e, hfilter, htells⟩ := hnotes.tells id
    rw [List.filter_append, List.map_append, h.told_eq, hfilter, ← htells.action_eq,
      ← htells.change.told]
    cases e <;> rfl
  replay_eq id := by
    obtain ⟨e, hfilter, htells⟩ := hnotes.tells id
    rw [List.filter_append, hfilter, ChangeEntry.replay, List.foldl_append, ← ChangeEntry.replay,
      h.replay_eq, htells.change.replayed]
  ended_iff id := by
    obtain ⟨e, hfilter, htells⟩ := hnotes.tells id
    rw [List.filter_append, hfilter]
    exact htells.change.ended (h.ended_iff id)

/-- After a lawful run the journal of a kind recounts the run. -/
theorem LawfulRun.recounts {ops : List Operation} (h : LawfulRun ops) (hrec : kind.Recorded) :
    ∃ contents entries, (initial.run ops).Holds contents ∧ contents.Conforming ∧
      (initial.run ops).Recounts contents kind entries fun id => trace kind id initial ops := by
  induction h with
  | nil =>
    refine ⟨_, [], holds_initial, nofun, ?_, nofun, fun _ => rfl, fun _ => rfl, fun _ => ?_⟩
    · exact Database.journal_initial hrec
    · simp [Contents.record?, ChangeEntry.Ended]
  | @step ops op earlier lawful ih =>
    obtain ⟨contents, entries, hholds, hconforming, hrecounts⟩ := ih
    obtain ⟨contents', hstep, hholds'⟩ := hholds.step op
    have hrecord : ∀ r, op.record? = some r → r.Conforms := fun r hr =>
      (lawful.obtained r hr).conforms earlier.conforming
    obtain ⟨noted, hnotes⟩ := hstep.notes hholds hholds' hconforming hrecord hrec
    have hnext := hrecounts.step hnotes lawful.clock_proper lawful.clock_inYears
    simp only [run_append, trace_append]
    exact ⟨contents', _, hholds', hstep.conforming hholds hconforming hrecord, hnext⟩

/-- After a lawful run the history of a key can be read. It has one entry for each operation
that created, updated or removed the row of the key, by its actor and in the order of the
run. Replaying it gives the fields that are stored, and nothing is stored exactly if it is
empty or ends with a removal. -/
theorem LawfulRun.history {ops : List Operation} (h : LawfulRun ops) {kind : RecordKind}
    (hrec : kind.Recorded) (id : RecordId) : ∃ entries,
      (initial.run ops).changes kind id = .ok entries ∧ (∀ e ∈ entries, e.id = id) ∧
      entries.map ChangeEntry.told = trace kind id initial ops ∧
      ChangeEntry.replay entries = (initial.run ops).fieldsOf? kind id ∧
      (∀ r, (initial.run ops).get kind id = .ok r → ChangeEntry.replay entries = some r.fields) ∧
      ((initial.run ops).stores kind id = false ↔ ChangeEntry.Ended entries) := by
  obtain ⟨contents, entries, hholds, hconforming, hrecounts⟩ := h.recounts hrec
  refine ⟨_, changes_eq hholds.registry_eq hholds.database.installed hrec id hrecounts.journal_eq
    hrecounts.readable, ?_, hrecounts.told_eq id, ?_, ?_, ?_⟩
  · intro e he
    simpa using (List.mem_filter.mp he).2
  · rw [hrecounts.replay_eq, hholds.fieldsOf?_eq hconforming]
  · intro r hget
    rw [hrecounts.replay_eq, hholds.fields_of_get hconforming hget]
  · rw [hholds.stores_eq, ← hrecounts.ended_iff, Option.isSome_eq_false_iff,
      Option.isNone_iff_eq_none]

/-- The key of the sample template. -/
def welcomeId : RecordId := .uuid .sample

/-- The record of the sample template. -/
def welcome : Record := .ofCandidate .template (Descriptor.sample .template) .sample ⟨0, 0⟩

/-- Creating the sample template. -/
def createWelcome : Operation := .create welcome "ann" ⟨0, 0⟩

/-- Renaming the sample template. -/
def renameWelcome : Operation :=
  .update (welcome.changed [("name", .str "greeting")] ⟨30, 0⟩) "cat" ⟨30, 0⟩

/-- Deleting the sample template. -/
def deleteWelcome (actor : String) : Operation := .delete .template welcomeId actor ⟨60, 0⟩

/-- A run in which the template is created, renamed and deleted, the last operation failing. -/
def welcomeRun : List Operation :=
  [createWelcome, renameWelcome, deleteWelcome "bob", deleteWelcome "eve"]

theorem lawfulRun_welcome : LawfulRun welcomeRun := by
  have hmade : ∀ seen, welcome.Obtained seen := fun seen =>
    Record.obtained_ofCandidate (Json.wellFormed_of_texts (by decide) (by decide))
      (Descriptor.sample_accepted .template)
  have hpatched : Registry.builtin.validateUpdate welcome (.obj [("name", .str "greeting")])
      ⟨30, 0⟩ = .ok (welcome.changed [("name", .str "greeting")] ⟨30, 0⟩) :=
    Registry.validateUpdate_ok_iff.mpr ⟨.template, [("name", .str "greeting")], rfl, rfl,
      by decide, by decide +kernel, rfl⟩
  have hcreated : LawfulRun [createWelcome] := by
    refine .step .nil ⟨by decide, by decide, fun r hr => ?_⟩
    cases hr
    exact hmade _
  have hrenamed : LawfulRun [createWelcome, renameWelcome] := by
    refine .step hcreated ⟨by decide, by decide, fun r hr => ?_⟩
    cases hr
    exact .patched (hmade _) (Json.wellFormed_of_texts (by decide) (by decide)) hpatched
  have hdeleted : LawfulRun [createWelcome, renameWelcome, deleteWelcome "bob"] :=
    .step hrenamed ⟨by decide, by decide, nofun⟩
  exact .step hdeleted ⟨by decide, by decide, nofun⟩

/-- The history of the template has one entry for each of the three changes to it. -/
theorem history_welcome : ∃ entries,
    (initial.run welcomeRun).changes .template welcomeId = .ok entries ∧
      entries.map ChangeEntry.told = [("ann", .create), ("cat", .update), ("bob", .delete)] ∧
      ChangeEntry.replay entries = none ∧
      (initial.run welcomeRun).stores .template welcomeId = false := by
  have hrec : RecordKind.template.Recorded := by decide
  obtain ⟨entries, hchanges, -, htold, hreplay, -, hended⟩ :=
    LawfulRun.history lawfulRun_welcome hrec welcomeId
  have htrace : trace .template welcomeId initial welcomeRun =
      [("ann", .create), ("cat", .update), ("bob", .delete)] := by
    decide +kernel
  rw [htrace] at htold
  -- The last entry tells of a removal, so that nothing is stored any more.
  have hgone : (initial.run welcomeRun).stores .template welcomeId = false := by
    refine hended.mpr fun e he => ?_
    have hlast := congrArg List.getLast? htold
    rw [List.getLast?_map, Option.mem_def.mp he] at hlast
    exact congrArg Prod.snd (Option.some.inj hlast)
  have hnone := List.find?_eq_none.mpr (List.any_eq_false.mp hgone)
  exact ⟨entries, hchanges, htold, by rw [hreplay, fieldsOf?, hnone, Option.map_none], hgone⟩

end Store
end Phrasebook
