import Phrasebook.Proofs.Conforming
import Phrasebook.Proofs.Runs

/-!
# Lawful runs

In a lawful run every record that is created or used for an update comes from
validation or from reading a store of the run, however long ago. All records of a
lawful run conform. So it is with every property that validation establishes and that
patching, reading and updating keep.

## Main definitions

* `Record.Obtained`: where records can come from
* `Store.SuppliedRun`: runs with such records
* `Store.LawfulRun`: runs with such records and clocks in range
* `Record.Lasting`: a property that all records of such runs have
* `Contents.Conforming`: all records conform
-/
namespace Phrasebook

/-! ## Records at hand -/

/-- A record is made by validation, read from a row of a store that has been seen, or made of
such a record by a patch. -/
inductive Record.Obtained (seen : Store → Prop) : Record → Prop
  | validated {kind : RecordKind} {input : Json} {fresh : Uuid} {clock : Instant} {r : Record}
    (input_wellFormed : input.WellFormed)
    (valid : Registry.builtin.validate kind input fresh clock = .ok r) : Obtained seen r
  | read {s : Store} {kind : RecordKind} {row : Row} {r : Record} (saw : seen s)
    (mem : row ∈ s.database.records kind) (reads : (Descriptor.shipped kind).ofRow row = .ok r) :
    Obtained seen r
  | patched {existing : Record} {patch : Json} {clock : Instant} {r : Record}
    (obtained : Obtained seen existing) (patch_wellFormed : patch.WellFormed)
    (valid : Registry.builtin.validateUpdate existing patch clock = .ok r) : Obtained seen r

/-- Validation makes the record of an accepted candidate. -/
theorem Record.obtained_ofCandidate {seen : Store → Prop} {kind : RecordKind} {candidate : Fields}
    {fresh : Uuid} {clock : Instant} (hcandidate : (Json.obj candidate).WellFormed)
    (hok : (Descriptor.shipped kind).candidateViolations candidate = []) :
    (ofCandidate kind candidate fresh clock).Obtained seen :=
  .validated hcandidate (Registry.validate_eq_ok_iff.mpr ⟨candidate, rfl, hok, rfl⟩)

/-! ## Runs -/

namespace Operation

/-- Who asks for an operation. -/
def actor : Operation → String
  | create _ actor _ | update _ actor _ | delete _ _ actor _ => actor

/-- The clock reading of an operation. -/
def clock : Operation → Instant
  | create _ _ now | update _ _ now | delete _ _ _ now => now

/-- The record that an operation stores. -/
def record? : Operation → Option Record
  | create r _ _ | update r _ _ => some r
  | delete .. => none

/-- The clock reads a time of a four-digit year, and the record to store has been obtained. -/
structure Lawful (op : Operation) (seen : Store → Prop) : Prop where
  clock_proper : op.clock.Proper
  clock_inYears : op.clock.InYears
  obtained : ∀ r, op.record? = some r → r.Obtained seen

end Operation

/-- The stores of a run so far. -/
def Store.Seen (ops : List Operation) (s : Store) : Prop :=
  ∃ earlier, earlier <+: ops ∧ s = initial.run earlier

/-- A run whose operations store records that have been obtained before, at any times. -/
inductive Store.SuppliedRun : List Operation → Prop
  | nil : SuppliedRun []
  | step {ops : List Operation} {op : Operation} (earlier : SuppliedRun ops)
    (obtained : ∀ r, op.record? = some r → r.Obtained (Seen ops)) : SuppliedRun (ops ++ [op])

/-- The record of an accepted candidate can be created after any run. -/
theorem Store.SuppliedRun.creating {ops : List Operation} (h : SuppliedRun ops) (kind : RecordKind)
    (candidate : Fields) (fresh : Uuid) (hcandidate : (Json.obj candidate).WellFormed)
    (hok : (Descriptor.shipped kind).candidateViolations candidate = []) :
    SuppliedRun (ops ++ [.creating kind candidate fresh]) := by
  refine .step h fun r hr => ?_
  cases hr
  exact Record.obtained_ofCandidate hcandidate hok

/-- A run whose operations store records that have been obtained before, by clocks that read
times of four-digit years. -/
inductive Store.LawfulRun : List Operation → Prop
  | nil : LawfulRun []
  | step {ops : List Operation} {op : Operation} (earlier : LawfulRun ops)
    (lawful : op.Lawful (Seen ops)) : LawfulRun (ops ++ [op])

/-! ## Lasting properties -/

/-- What holds of every record that validation makes, and is kept by patching a record, by reading
a stored record and by updating one. -/
structure Record.Lasting (P : Record → Prop) : Prop where
  validated : ∀ {kind input fresh clock r}, input.WellFormed →
    Registry.builtin.validate kind input fresh clock = .ok r → P r
  patched : ∀ {existing r patch clock}, P existing → patch.WellFormed →
    Registry.builtin.validateUpdate existing patch clock = .ok r → P r
  read : ∀ {stored r}, P stored → (Descriptor.shipped stored.kind).ofRow stored.row = .ok r → P r
  revised : ∀ {r stored}, stored.kind = r.kind → P stored → P r → P (r.revised stored)

/-- All records have a property. -/
def Contents.All (contents : Contents) (P : Record → Prop) : Prop :=
  ∀ kind, ∀ r ∈ contents kind, P r

/-- The store holds records with a property. -/
def Store.HoldsAll (s : Store) (P : Record → Prop) : Prop :=
  ∃ contents, s.Holds contents ∧ contents.All P

namespace Record.Lasting

variable {P Q : Record → Prop}

theorem and (hP : Lasting P) (hQ : Lasting Q) : Lasting fun r => P r ∧ Q r where
  validated hinput hvalid := ⟨hP.validated hinput hvalid, hQ.validated hinput hvalid⟩
  patched h hpatch hvalid := ⟨hP.patched h.1 hpatch hvalid, hQ.patched h.2 hpatch hvalid⟩
  read h hreads := ⟨hP.read h.1 hreads, hQ.read h.2 hreads⟩
  revised hkind h hr := ⟨hP.revised hkind h.1 hr.1, hQ.revised hkind h.2 hr.2⟩

/-- Records obtained from stores whose records have a lasting property have it. -/
theorem of_obtained (hP : Lasting P) {seen : Store → Prop} (hseen : ∀ s, seen s → s.HoldsAll P)
    {r : Record} (h : r.Obtained seen) : P r := by
  induction h with
  | validated hinput hvalid => exact hP.validated hinput hvalid
  | patched _ hpatch hvalid ih => exact hP.patched ih hpatch hvalid
  | @read s kind row r saw mem reads =>
    obtain ⟨contents, hholds, hall⟩ := hseen s saw
    rw [hholds.database.records_eq] at mem
    obtain ⟨stored, hstored, rfl⟩ := List.mem_map.mp mem
    obtain rfl := hholds.database.kind_eq kind stored hstored
    exact hP.read (hall _ stored hstored) reads

variable {s s' : Store} {contents contents' : Contents} {op : Operation}

/-- Operations with records of a lasting property keep it for all records. -/
theorem step (hP : Lasting P) (h : Store.Step s contents op s' contents')
    (hholds : s.Holds contents) (hall : contents.All P)
    (hrecord : ∀ r, op.record? = some r → P r) : contents'.All P := by
  cases h with
  | failed fails => exact hall
  | @created r actor now references check =>
    intro kind x hx
    by_cases hkind : kind = r.kind
    · subst hkind
      rw [Function.update_self] at hx
      rcases List.mem_append.mp hx with hx | hx
      · exact hall _ x hx
      · exact List.mem_singleton.mp hx ▸ hrecord r rfl
    · rw [Function.update_of_ne hkind] at hx
      exact hall kind x hx
  | @updated r stored existing actor now mem id_eq reads unarchived unchanged =>
    intro kind x hx
    by_cases hkind : kind = r.kind
    · subst hkind
      rw [Function.update_self] at hx
      obtain ⟨earlier, hearlier, rfl⟩ := List.mem_map.mp hx
      unfold Record.applied
      split
      · exact hP.revised (hholds.database.kind_eq _ earlier hearlier) (hall _ earlier hearlier)
          (hrecord r rfl)
      · exact hall _ earlier hearlier
    · rw [Function.update_of_ne hkind] at hx
      exact hall kind x hx
  | deleted mem succeeds drops =>
    exact fun kind x hx => hall kind x (List.mem_of_mem_filter hx)

/-- What lasts holds of all records in all stores of a run that is supplied with records obtained
before. -/
theorem run (hP : Lasting P) {ops : List Operation} (h : Store.SuppliedRun ops) :
    ∀ s, Store.Seen ops s → s.HoldsAll P := by
  induction h with
  | nil =>
    rintro s ⟨earlier, hearlier, rfl⟩
    rw [List.prefix_nil.mp hearlier]
    exact ⟨_, Store.holds_initial, nofun⟩
  | @step ops op earlier obtained ih =>
    rintro s ⟨before, hbefore, rfl⟩
    rcases List.prefix_concat_iff.mp hbefore with rfl | hbefore
    · obtain ⟨contents, hholds, hall⟩ := ih _ ⟨ops, List.prefix_rfl, rfl⟩
      obtain ⟨contents', hstep, hholds'⟩ := hholds.step op
      rw [Store.run_append]
      exact ⟨contents', hholds', hP.step hstep hholds hall fun r hr =>
        hP.of_obtained ih (obtained r hr)⟩
    · exact ih _ ⟨before, hbefore, rfl⟩

end Record.Lasting

/-! ## Conforming contents -/

/-- All records conform. -/
def Contents.Conforming (contents : Contents) : Prop := ∀ kind, ∀ r ∈ contents kind, r.Conforms

/-- The store holds conforming records. -/
def Store.Conforming (s : Store) : Prop := ∃ contents, s.Holds contents ∧ contents.Conforming

theorem Record.lasting_conforms : Lasting Conforms where
  validated := conforms_of_validate
  patched := conforms_of_validateUpdate
  read h hreads := by
    obtain ⟨-, -, hkind, -, hfields⟩ := h.ofRow_row_iff.mp hreads
    exact h.congr hkind hfields
  revised _ _ h := h.congr rfl rfl

/-- Records obtained from stores of conforming records conform. -/
theorem Record.Obtained.conforms {seen : Store → Prop} (hseen : ∀ s, seen s → s.Conforming)
    {r : Record} (h : r.Obtained seen) : r.Conforms := lasting_conforms.of_obtained hseen h

namespace Store

variable {s s' : Store} {contents contents' : Contents} {op : Operation}

/-- Operations with conforming records keep all records conforming. -/
theorem Step.conforming (h : Step s contents op s' contents') (hholds : s.Holds contents)
    (hconforming : contents.Conforming) (hrecord : ∀ r, op.record? = some r → r.Conforms) :
    contents'.Conforming := Record.lasting_conforms.step h hholds hconforming hrecord

/-- All stores of a run that is supplied with records obtained before hold conforming records. -/
theorem SuppliedRun.conforming {ops : List Operation} (h : SuppliedRun ops) :
    ∀ s, Seen ops s → s.Conforming := Record.lasting_conforms.run h

theorem LawfulRun.supplied {ops : List Operation} (h : LawfulRun ops) : SuppliedRun ops := by
  induction h with
  | nil => exact .nil
  | step _ lawful ih => exact .step ih lawful.obtained

/-- All stores of a lawful run hold conforming records. -/
theorem LawfulRun.conforming {ops : List Operation} (h : LawfulRun ops) :
    ∀ s, Seen ops s → s.Conforming := h.supplied.conforming

end Store
end Phrasebook
