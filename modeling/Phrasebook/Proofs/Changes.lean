import Phrasebook.Proofs.Entries
import Phrasebook.Proofs.Lawful

/-!
# What one operation records

An operation does one of four things to the record of a key: it leaves the record alone,
creates it, replaces its fields or drops it. What it records in the journal says which
of them it was.

## Main definitions

* `Store.change?`: what an operation does to the row of a key
* `Contents.record?`: the record of a key
* `Record.Change`: what can become of the record of a key, with the entry for it
-/
namespace Phrasebook

/-! ## What an operation does -/

/-- What has been done to a row, by whether it was stored before and is stored afterwards. -/
def ChangeAction.between? : Bool → Bool → Bool → Option ChangeAction
  | false, true, _ => some .create
  | true, false, _ => some .delete
  | true, true, true => some .update
  | _, _, _ => none

/-- An update of the row of a key. -/
def Operation.updates (kind : RecordKind) (id : RecordId) : Operation → Bool
  | .update r _ _ => r.kind = kind ∧ r.id = id
  | .create .. | .delete .. => false

namespace Store

/-- Whether the row of a key is stored. -/
def stores (s : Store) (kind : RecordKind) (id : RecordId) : Bool :=
  (s.database.records kind).any (Table.holds idField id.text)

/-- What an operation does to the row of a key: nothing if it fails. -/
def change? (s : Store) (kind : RecordKind) (id : RecordId) (op : Operation) :
    Option ChangeAction :=
  match s.perform op with
  | .ok s' => ChangeAction.between? (s.stores kind id) (s'.stores kind id) (op.updates kind id)
  | .error _ => none

end Store

/-! ## Records of a key -/

/-- The record of a key. -/
def Contents.record? (contents : Contents) (kind : RecordKind) (id : RecordId) : Option Record :=
  (contents kind).find? fun r => decide (r.id = id)

/-- What can become of the record of a key, and the entry that tells of it. -/
inductive Record.Change (actor : String) (now : Instant) :
    Option Record → Option Record → Option ChangeEntry → Prop
  | unchanged (r : Option Record) : Change actor now r r none
  | created {r : Record} (conforms : r.Conforms) :
    Change actor now none (some r) (some (r.creation actor now))
  | updated {r stored existing : Record} (conforms : r.Conforms)
    (existing_conforms : existing.Conforms) (kind_eq : existing.kind = r.kind)
    (fields_eq : existing.fields = stored.fields) :
    Change actor now (some stored) (some (r.revised stored)) (some (r.revision existing actor now))
  | removed (r : Record) : Change actor now (some r) none (some (r.removal actor now))

namespace Database.Holds

variable {db : Database} {contents : Contents} {kind : RecordKind} {id : RecordId}

theorem filter_record? (h : db.Holds contents) (kind : RecordKind) (id : RecordId) :
    (contents kind).filter (fun r => decide (r.id = id)) = (contents.record? kind id).toList := by
  cases hrecord : contents.record? kind id with
  | none =>
    refine List.filter_eq_nil_iff.mpr fun r hr => ?_
    simpa using List.find?_eq_none.mp hrecord r hr
  | some r =>
    have hid : r.id = id := by simpa using List.find?_some hrecord
    rw [← hid]
    exact h.filter_id (List.mem_of_find?_eq_some hrecord)

theorem record?_eq_some_iff (h : db.Holds contents) {r : Record} :
    contents.record? kind id = some r ↔ r ∈ contents kind ∧ r.id = id := by
  rw [← Option.mem_toList, ← h.filter_record?, List.mem_filter, decide_eq_true_eq]

end Database.Holds

namespace Store

variable {s s' : Store} {contents contents' : Contents} {op : Operation} {kind : RecordKind}
  {id : RecordId}

theorem Holds.stores_eq (h : s.Holds contents) (kind : RecordKind) (id : RecordId) :
    s.stores kind id = (contents.record? kind id).isSome := by
  rw [stores, h.database.records_eq, List.any_map, Record.holds_id_comp, Contents.record?,
    List.isSome_find?]

theorem Holds.stores_iff (h : s.Holds contents) :
    s.stores kind id = true ↔ ∃ r ∈ contents kind, r.id = id := by
  rw [h.stores_eq, Contents.record?, List.find?_isSome]
  simp

/-- What a successful operation does shows in the records before and afterwards. -/
theorem change?_of_perform (hrun : s.perform op = .ok s') (h : s.Holds contents)
    (h' : s'.Holds contents') (kind : RecordKind) (id : RecordId) :
    s.change? kind id op = ChangeAction.between? (contents.record? kind id).isSome
      (contents'.record? kind id).isSome (op.updates kind id) := by
  rw [change?, hrun]
  simp only [h.stores_eq, h'.stores_eq]

/-! ## What an operation records -/

/-- The entry for a key, if any, tells what the operation does to the record of the key. -/
structure Tells (s : Store) (contents contents' : Contents) (op : Operation) (kind : RecordKind)
    (id : RecordId) (e : Option ChangeEntry) : Prop where
  change : Record.Change op.actor op.clock (contents.record? kind id) (contents'.record? kind id) e
  action_eq : e.map (·.items.action) = s.change? kind id op

/-- Entries are added to the journal of a kind, at most one for each key, that tell what the
operation does. -/
structure Notes (s s' : Store) (contents contents' : Contents) (op : Operation)
    (kind : RecordKind) (noted : List ChangeEntry) : Prop where
  journal_eq : s'.database.journal kind =
    s.database.journal kind ++ noted.map ChangeEntry.row
  tells : ∀ id, ∃ e : Option ChangeEntry, noted.filter (fun e => decide (e.id = id)) = e.toList ∧
    s.Tells contents contents' op kind id e

theorem tells_unchanged (h : s.Holds contents) (h' : s'.Holds contents')
    (hrun : s.perform op = .ok s')
    (hrecord : contents'.record? kind id = contents.record? kind id)
    (hupdates : op.updates kind id = false) : s.Tells contents contents' op kind id none where
  change := hrecord ▸ .unchanged _
  action_eq := by
    rw [change?_of_perform hrun h h', hrecord, hupdates]
    cases (contents.record? kind id).isSome <;> rfl

/-- An operation that leaves a kind alone records nothing for it. -/
theorem notes_nil (h : s.Holds contents) (h' : s'.Holds contents') (hrun : s.perform op = .ok s')
    (hcontents : contents' kind = contents kind) (hupdates : ∀ id, op.updates kind id = false)
    (hjournal : s'.database.journal kind = s.database.journal kind) :
    Notes s s' contents contents' op kind [] where
  journal_eq := by rw [hjournal, List.map_nil, List.append_nil]
  tells id := ⟨none, rfl, tells_unchanged h h' hrun
    (by rw [Contents.record?, hcontents, Contents.record?]) (hupdates id)⟩

/-- An operation that records one entry for a kind. -/
theorem notes_singleton {e : ChangeEntry} (h : s.Holds contents) (h' : s'.Holds contents')
    (hrun : s.perform op = .ok s')
    (hjournal : s'.database.journal kind = s.database.journal kind ++ [e.row])
    (htells : s.Tells contents contents' op kind e.id (some e))
    (hother : ∀ id, e.id ≠ id → contents'.record? kind id = contents.record? kind id ∧
      op.updates kind id = false) : Notes s s' contents contents' op kind [e] where
  journal_eq := hjournal
  tells id := by
    by_cases hid : e.id = id
    · exact ⟨some e, by simp [hid], hid ▸ htells⟩
    · obtain ⟨hrecord, hupdates⟩ := hother id hid
      exact ⟨none, by simp [hid], tells_unchanged h h' hrun hrecord hupdates⟩

section Operations

variable {r : Record} {actor : String} {now : Instant}

/-- A record that is created leaves an entry for its creation. -/
theorem Holds.notes_create (h : s.Holds contents) (hrun : s.create r actor now = .ok s')
    (hconforms : r.Conforms) (hrec : kind.Recorded) : ∃ noted,
      Notes s s' contents (Function.update contents r.kind (contents r.kind ++ [r]))
        (.create r actor now) kind noted := by
  have h' := h.create hrun
  have hperform : s.perform (.create r actor now) = .ok s' := hrun
  obtain ⟨-, -, rfl⟩ := (create_eq_ok_iff h.registry_eq h.database.installed).mp hrun
  have hjournal : (s.added r actor now).database.journal kind =
      if kind = r.kind then s.database.journal kind ++ [(r.creation actor now).row]
      else s.database.journal kind := journal_added h.database.installed hrec
  by_cases hkind : kind = r.kind
  · subst hkind
    rw [if_pos rfl] at hjournal
    have hbefore : contents.record? r.kind r.id = none := by
      have hpairwise := h'.database.pairwise_id r.kind
      rw [Function.update_self, List.pairwise_append] at hpairwise
      refine List.find?_eq_none.mpr fun other hother => ?_
      simpa using hpairwise.2.2 other hother r (List.mem_singleton_self r)
    have hafter : Contents.record? (Function.update contents r.kind (contents r.kind ++ [r]))
        r.kind r.id = some r := by
      refine h'.database.record?_eq_some_iff.mpr ⟨?_, rfl⟩
      simp
    have htells : s.Tells contents (Function.update contents r.kind (contents r.kind ++ [r]))
        (.create r actor now) r.kind r.id (some (r.creation actor now)) := by
      refine ⟨?_, ?_⟩
      · rw [hbefore, hafter]
        exact .created hconforms
      · rw [change?_of_perform hperform h h', hbefore, hafter]
        rfl
    refine ⟨_, notes_singleton h h' hperform hjournal htells fun id hid => ⟨?_, rfl⟩⟩
    have hne : r.id ≠ id := hid
    rw [Contents.record?, Function.update_self, List.find?_append]
    simp [hne, Contents.record?]
  · rw [if_neg hkind] at hjournal
    exact ⟨[], notes_nil h h' hperform (Function.update_of_ne hkind ..) (fun _ => rfl) hjournal⟩

/-- Applying an update to all records applies it to the record of each key. -/
theorem record?_applied (contents : Contents) (r : Record) (id : RecordId) :
    Contents.record? (Function.update contents r.kind ((contents r.kind).map r.applied)) r.kind id =
      (contents.record? r.kind id).map r.applied := by
  rw [Contents.record?, Function.update_self, List.find?_map, Contents.record?]
  congr 2
  funext stored
  simp

/-- An update leaves the records of other keys as they are. -/
theorem Holds.record?_applied_of_ne (h : s.Holds contents) (hne : r.id ≠ id) :
    Contents.record? (Function.update contents r.kind ((contents r.kind).map r.applied)) r.kind id =
      contents.record? r.kind id := by
  rw [record?_applied]
  cases hrecord : contents.record? r.kind id with
  | none => rfl
  | some other =>
    have hother : other.id = id := (h.database.record?_eq_some_iff.mp hrecord).2
    have hother' : ¬other.id = r.id := fun heq => hne (heq.symm.trans hother)
    rw [Option.map_some, Record.applied, if_neg hother']

/-- A record that is updated leaves an entry for its revision. -/
theorem Holds.notes_update (h : s.Holds contents) {stored existing : Record}
    (hmem : stored ∈ contents r.kind) (hid : stored.id = r.id)
    (hreads : (Descriptor.shipped r.kind).ofRow stored.row = .ok existing)
    (hrun : s.update r actor now = .ok (s.replaced r existing actor now))
    (h' : (s.replaced r existing actor now).Holds
      (Function.update contents r.kind ((contents r.kind).map r.applied)))
    (hconforms : r.Conforms) (hstored : stored.Conforms) (hrec : kind.Recorded) : ∃ noted,
      Notes s (s.replaced r existing actor now) contents
        (Function.update contents r.kind ((contents r.kind).map r.applied))
        (.update r actor now) kind noted := by
  have hperform : s.perform (.update r actor now) = .ok (s.replaced r existing actor now) := hrun
  have hjournal : (s.replaced r existing actor now).database.journal kind =
      if kind = r.kind then s.database.journal kind ++ [(r.revision existing actor now).row]
      else s.database.journal kind := journal_replaced h.database.installed hrec
  by_cases hkind : kind = r.kind
  · subst hkind
    rw [if_pos rfl] at hjournal
    have hkindStored := h.database.kind_eq _ stored hmem
    have hbefore : contents.record? r.kind r.id = some stored :=
      h.database.record?_eq_some_iff.mpr ⟨hmem, hid⟩
    have hafter : Contents.record? (Function.update contents r.kind
        ((contents r.kind).map r.applied)) r.kind r.id = some (r.revised stored) := by
      rw [record?_applied, hbefore, Option.map_some, Record.applied, if_pos hid]
    have hupdates : (Operation.update r actor now).updates r.kind r.id = true := by
      simp [Operation.updates]
    have htells : s.Tells contents (Function.update contents r.kind
        ((contents r.kind).map r.applied)) (.update r actor now) r.kind r.id
        (some (r.revision existing actor now)) := by
      refine ⟨?_, ?_⟩
      · rw [hbefore, hafter]
        rw [← hkindStored] at hreads
        obtain ⟨-, -, hkind, -, hfields⟩ := hstored.ofRow_row_iff.mp hreads
        exact .updated hconforms (hstored.congr hkind hfields) (hkind.trans hkindStored) hfields
      · rw [change?_of_perform hperform h h', hbefore, hafter, hupdates]
        rfl
    refine ⟨_, notes_singleton h h' hperform hjournal htells fun id hid => ?_⟩
    have hne : r.id ≠ id := hid
    exact ⟨h.record?_applied_of_ne hne, by simp [Operation.updates, hne]⟩
  · rw [if_neg hkind] at hjournal
    refine ⟨[], notes_nil h h' hperform (Function.update_of_ne hkind ..) ?_ hjournal⟩
    intro id
    simp [Operation.updates, Ne.symm hkind]

/-- Every record that a deletion drops leaves an entry for its removal. -/
theorem Holds.notes_delete (h : s.Holds contents) {gone : RecordKind} {id : RecordId}
    (hrun : s.perform (.delete gone id actor now) = .ok s')
    (hdrops : s.database.Drops s'.database contents (·.leaves gone id) actor now)
    (h' : s'.Holds (contents.dropping (·.leaves gone id))) (hrec : kind.Recorded) :
    Notes s s' contents (contents.dropping (·.leaves gone id)) (.delete gone id actor now) kind
      (((contents kind).filter (·.leaves gone id)).map fun r => r.removal actor now) where
  journal_eq := by
    rw [hdrops.journal_eq kind hrec, List.map_map]
    rfl
  tells key := by
    have hnoted : (((contents kind).filter (·.leaves gone id)).map fun r =>
        r.removal actor now).filter
        (fun e => decide (e.id = key)) =
        ((contents.record? kind key).toList.filter (·.leaves gone id)).map fun r =>
          r.removal actor now := by
      rw [← h.database.filter_record?, List.filter_map, List.filter_filter, List.filter_filter]
      congr 1
      exact List.filter_congr fun r _ => Bool.and_comm _ _
    have hafter : (Contents.record? (contents.dropping (·.leaves gone id)) kind key).toList =
        (contents.record? kind key).toList.filter fun r => !r.leaves gone id := by
      rw [← h'.database.filter_record?, ← h.database.filter_record?, Contents.dropping,
        List.filter_filter, List.filter_filter]
      exact List.filter_congr fun r _ => Bool.and_comm _ _
    rw [hnoted]
    cases hrecord : contents.record? kind key with
    | none =>
      rw [hrecord] at hafter
      exact ⟨none, rfl, tells_unchanged h h' hrun
        (hrecord ▸ Option.toList_eq_nil_iff.mp hafter) rfl⟩
    | some r =>
      rw [hrecord] at hafter
      cases hleaves : r.leaves gone id with
      | false =>
        have hsame : Contents.record? (contents.dropping (·.leaves gone id)) kind key = some r := by
          simpa [hleaves] using hafter
        exact ⟨none, by simp [hleaves], tells_unchanged h h' hrun (hsame.trans hrecord.symm) rfl⟩
      | true =>
        have hgone : Contents.record? (contents.dropping (·.leaves gone id)) kind key = none := by
          simpa [hleaves] using hafter
        refine ⟨some (r.removal actor now), by simp [hleaves], ?_, ?_⟩
        · rw [hrecord, hgone]
          exact .removed r
        · rw [change?_of_perform hrun h h', hrecord, hgone]
          rfl

end Operations

/-- Whatever an operation does to the records, the journals tell. -/
theorem Step.notes (hstep : Step s contents op s' contents') (h : s.Holds contents)
    (h' : s'.Holds contents') (hconforming : contents.Conforming)
    (hrecord : ∀ r, op.record? = some r → r.Conforms) (hrec : kind.Recorded) :
    ∃ noted, Notes s s' contents contents' op kind noted := by
  cases hstep with
  | failed fails =>
    refine ⟨[], ⟨by simp, fun id => ⟨none, rfl, .unchanged _, ?_⟩⟩⟩
    rw [change?, fails]
    rfl
  | @created r actor now references check succeeds =>
    exact h.notes_create succeeds (hrecord r rfl) hrec
  | @updated r stored existing actor now mem id_eq reads unarchived unchanged succeeds =>
    exact h.notes_update mem id_eq reads succeeds h' (hrecord r rfl) (hconforming _ stored mem) hrec
  | @deleted gone stored s' n actor now mem succeeds drops =>
    have hrun : s.perform (.delete gone stored.id actor now) = .ok s' := by
      simp [perform, succeeds, Except.map]
    exact ⟨_, h.notes_delete hrun drops h' hrec⟩

end Store
end Phrasebook
