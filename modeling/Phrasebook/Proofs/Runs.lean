import Mathlib.Data.List.Induction
import Phrasebook.Proofs.Accepted
import Phrasebook.Proofs.Deletion

/-!
# Runs

A run performs operations one after another. An operation that fails leaves the
store as it is; one that succeeds changes the records in one of three ways.

## Main definitions

* `Operation`: a change asked for by an actor at a time
* `Store.after`, `Store.run`: the store after an operation and after a run
* `Store.Step`: everything an operation can do to the records
* `Operation.Validated`: the records come from validation
-/
namespace Phrasebook

/-- A change asked for by an actor at a time. -/
inductive Operation where
  | create (r : Record) (actor : String) (now : Instant)
  | update (r : Record) (actor : String) (now : Instant)
  | delete (kind : RecordKind) (id : RecordId) (actor : String) (now : Instant)

/-- The records created and updated come from validation. -/
def Operation.Validated : Operation → Prop
  | create r _ _ => ∃ kind input fresh now, Registry.builtin.validate kind input fresh now = .ok r
  | update r _ _ => ∃ existing patch now, Registry.builtin.validateUpdate existing patch now = .ok r
  | delete .. => True

/-- Creating the record of a candidate. -/
def Operation.creating (kind : RecordKind) (candidate : Fields) (fresh : Uuid) : Operation :=
  .create (.ofCandidate kind candidate fresh ⟨0, 0⟩) "ann" ⟨0, 0⟩

theorem Operation.validated_creating {kind : RecordKind} {candidate : Fields} {fresh : Uuid}
    (h : (Descriptor.shipped kind).candidateViolations candidate = []) :
    (creating kind candidate fresh).Validated :=
  ⟨kind, .obj candidate, fresh, ⟨0, 0⟩, Registry.validate_eq_ok_iff.mpr ⟨candidate, rfl, h, rfl⟩⟩

namespace Store

/-- Perform an operation. -/
def perform (s : Store) : Operation → Except StoreError Store
  | .create r actor now => s.create r actor now
  | .update r actor now => s.update r actor now
  | .delete kind id actor now => (s.delete kind id actor now).map Prod.fst

/-- The store after an operation; a failure leaves nothing behind. -/
def after (s : Store) (op : Operation) : Store :=
  match s.perform op with
  | .ok s' => s'
  | .error _ => s

theorem after_of_perform {s s' : Store} {op : Operation} (h : s.perform op = .ok s') :
    s.after op = s' := by
  rw [after, h]

theorem after_of_error {s : Store} {op : Operation} {e : StoreError} (h : s.perform op = .error e) :
    s.after op = s := by
  rw [after, h]

/-- The store after a run. -/
def run (s : Store) (ops : List Operation) : Store := ops.foldl after s

/-- What an operation makes of a store and of its records. -/
inductive Step (s : Store) (contents : Contents) : Operation → Store → Contents → Prop where
  | failed {op : Operation} {e : StoreError} (fails : s.perform op = .error e) :
    Step s contents op s contents
  | created {r : Record} {actor : String} {now : Instant}
    (references : ∀ ref ∈ (Descriptor.shipped r.kind).referenceFields, ∀ raw,
      r.getStr? ref.1.name = some raw →
        ∃ parent ∈ contents ref.2, RecordId.parse raw = .ok parent.id)
    (check : ((Descriptor.shipped r.kind).recordTable []).check
      ((contents r.kind).map Record.row) r.row = .ok ())
    (succeeds : s.create r actor now = .ok (s.added r actor now)) :
    Step s contents (.create r actor now) (s.added r actor now)
      (Function.update contents r.kind (contents r.kind ++ [r]))
  | updated {r stored existing : Record} {actor : String} {now : Instant}
    (mem : stored ∈ contents r.kind) (id_eq : stored.id = r.id)
    (reads : (Descriptor.shipped r.kind).ofRow stored.row = .ok existing)
    (unarchived : existing.isArchived = false)
    (unchanged : changedImmutable? (Descriptor.shipped r.kind) existing r = none)
    (succeeds : s.update r actor now = .ok (s.replaced r existing actor now)) :
    Step s contents (.update r actor now) (s.replaced r existing actor now)
      (Function.update contents r.kind ((contents r.kind).map r.applied))
  | deleted {kind : RecordKind} {stored : Record} {s' : Store} {n : Nat} {actor : String}
    {now : Instant} (mem : stored ∈ contents kind)
    (succeeds : s.delete kind stored.id actor now = .ok (s', n))
    (drops : s.database.Drops s'.database contents (·.leaves kind stored.id) actor now) :
    Step s contents (.delete kind stored.id actor now) s'
      (contents.dropping (·.leaves kind stored.id))

variable {s s' : Store} {contents contents' : Contents}

/-- A store that holds records holds records after every operation. -/
theorem Holds.step (h : s.Holds contents) (op : Operation) :
    ∃ contents', Step s contents op (s.after op) contents' ∧ (s.after op).Holds contents' := by
  cases hrun : s.perform op with
  | error e =>
    rw [after_of_error hrun]
    exact ⟨contents, .failed hrun, h⟩
  | ok s' =>
    rw [after_of_perform hrun]
    cases op with
    | create r actor now =>
      obtain ⟨hrefs, hcheck, rfl⟩ := (create_eq_ok_iff h.registry_eq h.database.installed).mp hrun
      rw [h.database.records_eq] at hcheck
      exact ⟨_, .created (h.checkReferences_eq_ok_iff.mp hrefs) hcheck hrun, h.added hcheck⟩
    | update r actor now =>
      obtain ⟨stored, hmem, hid, existing, hreads, harchived, hchanged, rfl, hholds⟩ :=
        h.update_ok hrun
      exact ⟨_, .updated hmem hid hreads harchived hchanged hrun, hholds⟩
    | delete kind id actor now =>
      obtain ⟨⟨s₁, n⟩, hdelete, rfl⟩ := map_eq_ok_iff.mp hrun
      obtain ⟨⟨stored, hmem, rfl⟩, hreg, hdrops⟩ := h.delete_ok hdelete
      exact ⟨_, .deleted hmem hdelete hdrops, hreg, hdrops.holds⟩

@[simp] theorem run_nil : s.run [] = s := rfl

@[simp] theorem run_append (ops : List Operation) (op : Operation) :
    s.run (ops ++ [op]) = (s.run ops).after op := by
  simp [run]

/-- What holds of an installation and is kept by every step holds after every run. -/
theorem run_induction {P : Store → Contents → Prop} {Q : Operation → Prop}
    (hinitial : P initial fun _ => [])
    (hstep : ∀ {s s' : Store} {contents contents' : Contents} {op : Operation}, Q op →
      s.Holds contents → P s contents → Step s contents op s' contents' → P s' contents')
    (ops : List Operation) (hops : ∀ op ∈ ops, Q op) :
    ∃ contents, (initial.run ops).Holds contents ∧ P (initial.run ops) contents := by
  induction ops using List.reverseRecOn with
  | nil => exact ⟨_, holds_initial, hinitial⟩
  | append_singleton ops op ih =>
    obtain ⟨contents, hholds, hP⟩ :=
      ih fun other hother => hops other (List.mem_append_left _ hother)
    obtain ⟨contents', hrun, hholds'⟩ := hholds.step op
    rw [run_append]
    exact ⟨contents', hholds', hstep (hops op (by simp)) hholds hP hrun⟩

end Store
end Phrasebook
