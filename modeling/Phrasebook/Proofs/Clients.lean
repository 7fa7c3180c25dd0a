import Mathlib.Data.List.Infix
import Phrasebook.Proofs.Updates

/-!
# Two clients that update one record

An update command reads a record, validates its patch against what it has read and stores the
whole new version. Two clients may take these steps in any order; the store keeps no versions
apart, so the last one to store its version wins. Commands one after the other both take
effect. When they overlap, what the first has stored is lost but for the fields that both patch.

## Main definitions

* `UpdateCommand`, `UpdateCommand.value?`: a patch and what it says about a field
* `Shared.step`, `Shared.run`: two commands on one store, step by step
* `Shared.Stepped`: everything that a step of a client can do
* `Shared.Overlap`, `Shared.UpdatesLast`: how the commands meet
-/
namespace Phrasebook

/-- What a client asks for, and its clock when it validates and when it stores. -/
structure UpdateCommand where
  patch : Json
  clock : Instant
  actor : String
  now : Instant

namespace UpdateCommand

/-- The value that the patch gives to a field which may change. -/
def value? (command : UpdateCommand) (f : FieldSpec) : Option Json :=
  if f.immutable then none else command.patch.entries?.bind (Fields.get? · f.name)

/-- The patch is a value of JSON, and the clock reads a time of a four-digit year. -/
structure WellFormed (command : UpdateCommand) : Prop where
  patch : command.patch.WellFormed
  clock_proper : command.clock.Proper
  clock_inYears : command.clock.InYears

/-- How far a command has come. -/
inductive Stage where
  | waiting
  | holding (read : Record)
  | merged (version : Record)
  | done
  | failed
  deriving DecidableEq

/-- The command has begun and not ended. -/
def Stage.Active : Stage → Prop
  | holding _ | merged _ => True
  | _ => False

instance : DecidablePred Stage.Active
  | .holding _ | .merged _ => .isTrue trivial
  | .waiting | .done | .failed => .isFalse fun h => h

end UpdateCommand

open UpdateCommand (Stage)

/-! ## Steps -/

/-- A store, and how far the command of each client has come. -/
structure Shared where
  store : Store
  stage : Bool → Stage

namespace Shared

/-- The next stage of a client. -/
def put (σ : Shared) (x : Bool) (stage : Stage) : Shared :=
  { σ with stage := Function.update σ.stage x stage }

variable (kind : RecordKind) (id : RecordId) (command : Bool → UpdateCommand)

/-- A client takes the next step of its command. -/
def step (σ : Shared) (x : Bool) : Shared :=
  match σ.stage x with
  | .waiting =>
    match σ.store.get kind id with
    | .ok e => σ.put x (.holding e)
    | .error _ => σ.put x .failed
  | .holding e =>
    match σ.store.registry.validateUpdate e (command x).patch (command x).clock with
    | .ok m => σ.put x (.merged m)
    | .error _ => σ.put x .failed
  | .merged m =>
    match σ.store.update m (command x).actor (command x).now with
    | .ok store => { σ.put x .done with store }
    | .error _ => σ.put x .failed
  | .done | .failed => σ

/-- Clients take steps in the order of a schedule; a command that has ended takes no more. -/
def run (s : Store) (schedule : List Bool) : Shared :=
  schedule.foldl (step kind id command) ⟨s, fun _ => .waiting⟩

/-- At some time both commands have begun and not ended. -/
def Overlap (s : Store) (schedule : List Bool) : Prop :=
  ∃ before, before <+: schedule ∧ ∀ x, ((run kind id command s before).stage x).Active

/-- At some time the other client is done and this one is not. -/
def UpdatesLast (s : Store) (schedule : List Bool) (x : Bool) : Prop :=
  ∃ before, before <+: schedule ∧ (run kind id command s before).stage (!x) = .done ∧
    (run kind id command s before).stage x ≠ .done

end Shared

/-! ## What a patch makes of a record -/

namespace UpdateCommand

variable {command : UpdateCommand} {e m : Record}

/-- The version that the patch of a command makes of a record. -/
def Makes (command : UpdateCommand) (e m : Record) : Prop :=
  Registry.builtin.validateUpdate e command.patch command.clock = .ok m

/-- A version has the values of the patch, and those of the record in all other fields, the
update time apart. -/
theorem Makes.get? (h : command.Makes e m) (hcommand : command.WellFormed) {f : FieldSpec}
    (hf : f ∈ (Descriptor.shipped e.kind).fields) (hname : f.name ≠ updatedField) :
    m.get? f.name = (command.value? f).or (e.get? f.name) := by
  by_cases himmutable : f.immutable = true
  · have hsame := Record.get?_of_immutable hcommand.patch h
      (List.mem_filter.mpr ⟨hf, himmutable⟩) hname
    simp [value?, himmutable, hsame]
  · have hidentity : isIdentityField f.name = false := by
      by_contra htrue
      exact himmutable (Descriptor.immutable_identity e.kind f hf (by simpa using htrue))
    obtain ⟨candidate, hpatch, -, rfl⟩ := Registry.validateUpdate_ok h
    have hwellFormed := hcommand.patch
    rw [hpatch] at hwellFormed
    have hsorted := hwellFormed.sorted
    have hchanges := Registry.sorted_mutableChanges (d := .shipped e.kind) hsorted
    have hkept : (Registry.mutableChanges (.shipped e.kind) candidate).get? f.name =
        Fields.get? candidate f.name := by
      ext value
      rw [hchanges.get?_eq_some_iff, hsorted.get?_eq_some_iff, Registry.mem_mutableChanges]
      apply and_iff_left
      intro g hg heq
      obtain ⟨hfield, hgimmutable⟩ := List.mem_filter.mp hg
      exact himmutable (Descriptor.eq_of_name hfield hf heq ▸ hgimmutable)
    rw [Record.get?_eq_fields hidentity, Record.get?_eq_fields hidentity,
      Fields.get?_override hchanges, hkept]
    simp [value?, himmutable, hpatch, Json.entries?]

/-- A command that has begun works on a record. -/
def Stage.From (command : UpdateCommand) (e : Record) : Stage → Prop
  | waiting => True
  | holding read => read = e
  | merged m => command.Makes e m
  | done | failed => False

theorem Stage.From.eq_waiting {stage : Stage} (h : stage.From command e) (hidle : ¬ stage.Active) :
    stage = .waiting := by
  cases stage with
  | waiting => rfl
  | holding read => exact absurd trivial hidle
  | merged m => exact absurd trivial hidle
  | done => exact h.elim
  | failed => exact h.elim

end UpdateCommand

namespace Store

variable {s s' : Store} {kind : RecordKind} {id : RecordId} {command : UpdateCommand}
  {e m current : Record}

theorem Conforming.registry_eq (h : s.Conforming) : s.registry = .builtin := by
  obtain ⟨contents, hholds, -⟩ := h
  exact hholds.registry_eq

/-- Storing a version of a record, whichever version is stored by now, leaves that version. -/
theorem Conforming.update (h : s.Conforming) (hget : s.get kind id = .ok current)
    (hcreated : current.created = e.created) {before : Store} (hbefore : before.Conforming)
    (hread : before.get kind id = .ok e) (hcommand : command.WellFormed) (hm : command.Makes e m)
    {actor : String} {now : Instant} (hrun : s.update m actor now = .ok s') :
    s'.Conforming ∧ s'.get kind id = .ok m := by
  obtain ⟨contents, hholds, hconforming⟩ := h
  obtain ⟨earlier, hearlier, hearlierConforming⟩ := hbefore
  obtain ⟨-, -, -, -, -, hkind, hid, -, hconforms⟩ := hearlier.get_ok hearlierConforming hread
  obtain ⟨hmkind, hmid, hmcreated⟩ := Record.identity_of_validateUpdate hm
  obtain ⟨hproper, hyears⟩ := hearlier.updated_of_validateUpdate hearlierConforming hread
    hcommand.clock_proper hcommand.clock_inYears hm
  have hmconforms := Record.conforms_of_validateUpdate hconforms hcommand.patch hm
  subst hkind
  subst hid
  constructor
  · have hperform : s.perform (.update m actor now) = .ok s' := hrun
    obtain ⟨contents', hstep, hholds'⟩ := hholds.step (.update m actor now)
    rw [after_of_perform hperform] at hstep hholds'
    refine ⟨contents', hholds', hstep.conforming hholds hconforming fun r hr => ?_⟩
    cases hr
    exact hmconforms
  · obtain ⟨existing, hexisting, hback⟩ :=
      hholds.get_of_update hconforming hmconforms hproper hyears hrun
    rw [hmkind, hmid, hget] at hexisting
    cases hexisting
    rw [← hmkind, ← hmid, hback, hcreated, ← hmcreated]

end Store

namespace Shared

variable {kind : RecordKind} {id : RecordId} {command : Bool → UpdateCommand} {s : Store}
  {e : Record} {schedule : List Bool} {σ : Shared} {x : Bool}

@[simp] theorem store_put (stage : Stage) : (σ.put x stage).store = σ.store := rfl

@[simp] theorem stage_put_self (stage : Stage) : (σ.put x stage).stage x = stage := by
  simp [put]

@[simp] theorem stage_put_not (stage : Stage) : (σ.put x stage).stage (!x) = σ.stage (!x) := by
  cases x <;> simp [put]

@[simp] theorem stage_put_of_not (stage : Stage) : (σ.put (!x) stage).stage x = σ.stage x := by
  cases x <;> simp [put]

variable (kind id command) in
/-- Everything that a step of a client can do. -/
inductive Stepped (σ : Shared) (x : Bool) : Shared → Prop
  /-- It reads the record. -/
  | reads {read : Record} (waits : σ.stage x = .waiting) (get : σ.store.get kind id = .ok read) :
    Stepped σ x (σ.put x (.holding read))
  /-- It makes a version of what it has read. -/
  | merges {read m : Record} (holds : σ.stage x = .holding read)
    (valid : σ.store.registry.validateUpdate read (command x).patch (command x).clock = .ok m) :
    Stepped σ x (σ.put x (.merged m))
  /-- It stores its version. -/
  | stores {m : Record} {store : Store} (merged : σ.stage x = .merged m)
    (update : σ.store.update m (command x).actor (command x).now = .ok store) :
    Stepped σ x { σ.put x .done with store }
  /-- It fails. -/
  | fails : Stepped σ x (σ.put x .failed)
  /-- Its command has ended. -/
  | rests (ended : σ.stage x = .done ∨ σ.stage x = .failed) : Stepped σ x σ

theorem stepped (σ : Shared) (x : Bool) :
    Stepped kind id command σ x (step kind id command σ x) := by
  unfold step
  split
  · next hstage =>
    split
    · next hget => exact .reads hstage hget
    · exact .fails
  · next hstage =>
    split
    · next hvalid => exact .merges hstage hvalid
    · exact .fails
  · next hstage =>
    split
    · next hupdate => exact .stores hstage hupdate
    · exact .fails
  · next hstage => exact .rests (.inl hstage)
  · next hstage => exact .rests (.inr hstage)

/-- A step of one client leaves the stage of the other one. -/
theorem Stepped.stage_of_not {σ' : Shared} (h : Stepped kind id command σ (!x) σ') :
    σ'.stage x = σ.stage x := by
  cases h with
  | reads | merges | stores | fails => exact stage_put_of_not _
  | rests => rfl

theorem run_append : run kind id command s (schedule ++ [x]) =
    step kind id command (run kind id command s schedule) x := by
  simp [run]

/-- What holds of both clients holds of one and of the other. -/
theorem forall_client {P : Bool → Prop} (x : Bool) : (∀ y, P y) ↔ P x ∧ P (!x) := by
  cases x <;> simp [and_comm]

theorem overlap_append : Overlap kind id command s (schedule ++ [x]) ↔
    Overlap kind id command s schedule ∨
      ∀ y, ((run kind id command s (schedule ++ [x])).stage y).Active := by
  constructor
  · rintro ⟨before, hbefore, hactive⟩
    rcases List.prefix_concat_iff.mp hbefore with rfl | hbefore
    · exact .inr hactive
    · exact .inl ⟨before, hbefore, hactive⟩
  · rintro (⟨before, hbefore, hactive⟩ | hactive)
    · exact ⟨before, hbefore.trans (List.prefix_append _ _), hactive⟩
    · exact ⟨_, List.prefix_rfl, hactive⟩

/-- Nothing overlaps any more once a command is done. -/
theorem overlap_append_of_done {y : Bool}
    (h : (run kind id command s (schedule ++ [x])).stage y = .done) :
    Overlap kind id command s (schedule ++ [x]) ↔ Overlap kind id command s schedule := by
  rw [overlap_append, or_iff_left]
  intro hactive
  have hy := hactive y
  rw [h] at hy
  exact hy

/-! ## The course of two commands -/

variable (kind id command s e) in
/-- Where two commands stand after the steps of a schedule, `e` being the record that was stored
before. -/
inductive Course (schedule : List Bool) : Prop
  /-- No command is done. -/
  | neither (store_eq : (run kind id command s schedule).store = s)
    (works : ∀ x, Stage.From (command x) e ((run kind id command s schedule).stage x))
    (overlap : Overlap kind id command s schedule ↔
      ∀ x, ((run kind id command s schedule).stage x).Active)
  /-- One command is done, and the other one works on what that one has stored or, if they
  overlap, on what was stored before. -/
  | one (x : Bool) (m : Record) (makes : (command x).Makes e m)
    (done : (run kind id command s schedule).stage x = .done)
    (conforming : (run kind id command s schedule).store.Conforming)
    (get : (run kind id command s schedule).store.get kind id = .ok m)
    (other : Stage.From (command (!x)) m ((run kind id command s schedule).stage (!x)) ∧
        ¬ Overlap kind id command s schedule ∨
      Stage.From (command (!x)) e ((run kind id command s schedule).stage (!x)) ∧
        ((run kind id command s schedule).stage (!x)).Active ∧
        Overlap kind id command s schedule)
  /-- Both commands are done. -/
  | both (last : Bool) (m r : Record) (makes : (command (!last)).Makes e m)
    (updates_last : UpdatesLast kind id command s schedule last)
    (done : ∀ x, (run kind id command s schedule).stage x = .done)
    (get : (run kind id command s schedule).store.get kind id = .ok r)
    (version : (command last).Makes m r ∧ ¬ Overlap kind id command s schedule ∨
      (command last).Makes e r ∧ Overlap kind id command s schedule)
  /-- A command has failed. -/
  | failed (x : Bool) (fails : (run kind id command s schedule).stage x = .failed)

namespace Course

/-- The course before any command has begun. -/
theorem nil : Course kind id command s e [] := by
  apply neither
  · rfl
  · exact fun _ => trivial
  · constructor
    · rintro ⟨before, hbefore, hactive⟩ x
      rw [List.prefix_nil.mp hbefore] at hactive
      exact hactive x
    · exact fun hactive => ⟨[], List.prefix_rfl, hactive⟩

/-- A command goes on working while none is done. -/
theorem neither_put (hstore : (run kind id command s schedule).store = s)
    (hworks : ∀ x, Stage.From (command x) e ((run kind id command s schedule).stage x))
    (hoverlap : Overlap kind id command s schedule ↔
      ∀ x, ((run kind id command s schedule).stage x).Active)
    {stage : Stage} (hnext : run kind id command s (schedule ++ [x]) =
      (run kind id command s schedule).put x stage)
    (hfrom : stage.From (command x) e) (hactive : stage.Active) :
    Course kind id command s e (schedule ++ [x]) := by
  apply neither
  · rw [hnext, store_put, hstore]
  · rw [hnext, forall_client x]
    simp [hfrom, hworks (!x)]
  · rw [overlap_append, or_iff_right_of_imp]
    intro hbefore
    rw [hnext, forall_client x]
    simp [hactive, hoverlap.mp hbefore (!x)]

/-- The first command to store its version is done, and the other one goes on working. -/
theorem neither_stores (hs : s.Conforming) (hget : s.get kind id = .ok e)
    (hcommand : ∀ x, (command x).WellFormed)
    (hworks : ∀ x, Stage.From (command x) e ((run kind id command s schedule).stage x))
    (hoverlap : Overlap kind id command s schedule ↔
      ∀ x, ((run kind id command s schedule).stage x).Active)
    {m : Record} (hmerged : (run kind id command s schedule).stage x = .merged m)
    {stored : Store} (hupdate : s.update m (command x).actor (command x).now = .ok stored)
    (hnext : run kind id command s (schedule ++ [x]) =
      { (run kind id command s schedule).put x .done with store := stored }) :
    Course kind id command s e (schedule ++ [x]) := by
  have hmakes := hworks x
  rw [hmerged] at hmakes
  obtain ⟨hconforming, hback⟩ := hs.update hget rfl hs hget (hcommand x) hmakes hupdate
  have hdone : (run kind id command s (schedule ++ [x])).stage x = .done := by
    rw [hnext]
    exact stage_put_self _
  have hother : (run kind id command s (schedule ++ [x])).stage (!x) =
      (run kind id command s schedule).stage (!x) := by
    rw [hnext]
    exact stage_put_not _
  refine one x m hmakes hdone (by rw [hnext]; exact hconforming) (by rw [hnext]; exact hback) ?_
  rw [hother, overlap_append_of_done hdone, hoverlap, forall_client x, hmerged]
  by_cases hactive : ((run kind id command s schedule).stage (!x)).Active
  · exact .inr ⟨hworks (!x), hactive, trivial, hactive⟩
  · refine .inl ⟨?_, fun hboth => hactive hboth.2⟩
    rw [(hworks (!x)).eq_waiting hactive]
    exact trivial

/-- One step from where no command is done. -/
theorem step_neither (hs : s.Conforming) (hget : s.get kind id = .ok e)
    (hcommand : ∀ x, (command x).WellFormed)
    (hstore : (run kind id command s schedule).store = s)
    (hworks : ∀ x, Stage.From (command x) e ((run kind id command s schedule).stage x))
    (hoverlap : Overlap kind id command s schedule ↔
      ∀ x, ((run kind id command s schedule).stage x).Active) (x : Bool) :
    Course kind id command s e (schedule ++ [x]) := by
  have hfrom := hworks x
  have hnext := @run_append kind id command s schedule x
  have hstep := @stepped kind id command (run kind id command s schedule) x
  rw [← hnext] at hstep
  generalize hσ : run kind id command s (schedule ++ [x]) = next at hstep
  cases hstep with
  | reads _ get =>
    rw [hstore, hget] at get
    obtain rfl := Except.ok.inj get
    exact neither_put hstore hworks hoverlap hσ rfl trivial
  | merges holds valid =>
    rw [holds] at hfrom
    obtain rfl := hfrom
    rw [hstore, hs.registry_eq] at valid
    exact neither_put hstore hworks hoverlap hσ valid trivial
  | stores merged update =>
    rw [hstore] at update
    exact neither_stores hs hget hcommand hworks hoverlap merged update hσ
  | fails => exact failed x (by rw [hσ, stage_put_self])
  | rests ended =>
    rcases ended with hended | hended <;> rw [hended] at hfrom <;> exact hfrom.elim

/-- The other command goes on working after one is done. -/
theorem one_put {m : Record} (hmakes : (command x).Makes e m)
    (hdone : (run kind id command s schedule).stage x = .done)
    (hconforming : (run kind id command s schedule).store.Conforming)
    (hget : (run kind id command s schedule).store.get kind id = .ok m)
    {stage : Stage} (hnext : run kind id command s (schedule ++ [!x]) =
      (run kind id command s schedule).put (!x) stage)
    (hother : stage.From (command (!x)) m ∧ ¬ Overlap kind id command s schedule ∨
      stage.From (command (!x)) e ∧ stage.Active ∧ Overlap kind id command s schedule) :
    Course kind id command s e (schedule ++ [!x]) := by
  have hdone' : (run kind id command s (schedule ++ [!x])).stage x = .done := by
    rw [hnext, stage_put_of_not, hdone]
  apply one x m hmakes hdone'
  · rwa [hnext]
  · rwa [hnext]
  · rw [overlap_append_of_done hdone', hnext, stage_put_self]
    exact hother

/-- The other command stores its version last. -/
theorem one_stores {m r : Record} (hs : s.Conforming) (hget : s.get kind id = .ok e)
    (hcommand : ∀ x, (command x).WellFormed) (hmakes : (command x).Makes e m)
    (hdone : (run kind id command s schedule).stage x = .done)
    (hconforming : (run kind id command s schedule).store.Conforming)
    (hstored : (run kind id command s schedule).store.get kind id = .ok m)
    (hmerged : (run kind id command s schedule).stage (!x) = .merged r)
    (hversion : (command (!x)).Makes m r ∧ ¬ Overlap kind id command s schedule ∨
      (command (!x)).Makes e r ∧ Overlap kind id command s schedule) {stored : Store}
    (hupdate : (run kind id command s schedule).store.update r (command (!x)).actor
      (command (!x)).now = .ok stored)
    (hnext : run kind id command s (schedule ++ [!x]) =
      { (run kind id command s schedule).put (!x) .done with store := stored }) :
    Course kind id command s e (schedule ++ [!x]) := by
  have hcreated : m.created = e.created := (Record.identity_of_validateUpdate hmakes).2.2
  have hback : stored.get kind id = .ok r := by
    rcases hversion with ⟨hfresh, -⟩ | ⟨hstale, -⟩
    · exact (hconforming.update hstored rfl hconforming hstored (hcommand (!x)) hfresh hupdate).2
    · exact (hconforming.update hstored hcreated hs hget (hcommand (!x)) hstale hupdate).2
  have hboth : ∀ y, (run kind id command s (schedule ++ [!x])).stage y = .done := by
    rw [forall_client (!x), hnext, Bool.not_not]
    exact ⟨stage_put_self .done, (stage_put_of_not .done).trans hdone⟩
  refine both (!x) m r (by rwa [Bool.not_not]) ⟨schedule, List.prefix_append _ _, ?_, ?_⟩ hboth
    (by rw [hnext]; exact hback) ?_
  · rwa [Bool.not_not]
  · rw [hmerged]
    exact fun heq => by cases heq
  · rwa [overlap_append_of_done (hboth x)]

/-- One step of the other command from where one is done. -/
theorem step_one {m : Record} (hs : s.Conforming) (hget : s.get kind id = .ok e)
    (hcommand : ∀ x, (command x).WellFormed) (hmakes : (command x).Makes e m)
    (hdone : (run kind id command s schedule).stage x = .done)
    (hconforming : (run kind id command s schedule).store.Conforming)
    (hstored : (run kind id command s schedule).store.get kind id = .ok m)
    (hother : Stage.From (command (!x)) m ((run kind id command s schedule).stage (!x)) ∧
        ¬ Overlap kind id command s schedule ∨
      Stage.From (command (!x)) e ((run kind id command s schedule).stage (!x)) ∧
        ((run kind id command s schedule).stage (!x)).Active ∧
        Overlap kind id command s schedule) :
    Course kind id command s e (schedule ++ [!x]) := by
  have hnext := @run_append kind id command s schedule (!x)
  have hstep := @stepped kind id command (run kind id command s schedule) (!x)
  rw [← hnext] at hstep
  generalize hσ : run kind id command s (schedule ++ [!x]) = next at hstep
  cases hstep with
  | reads waits get =>
    rw [waits] at hother
    rw [hstored] at get
    obtain rfl := Except.ok.inj get
    rcases hother with ⟨-, hoverlap⟩ | ⟨-, hactive, -⟩
    · exact one_put hmakes hdone hconforming hstored hσ (.inl ⟨rfl, hoverlap⟩)
    · exact hactive.elim
  | merges holds valid =>
    rw [holds] at hother
    rw [hconforming.registry_eq] at valid
    apply one_put hmakes hdone hconforming hstored hσ
    rcases hother with ⟨rfl, hoverlap⟩ | ⟨rfl, -, hoverlap⟩
    · exact .inl ⟨valid, hoverlap⟩
    · exact .inr ⟨valid, trivial, hoverlap⟩
  | stores merged update =>
    rw [merged] at hother
    have hversion := hother.imp_right fun ⟨hstale, _, hoverlap⟩ => And.intro hstale hoverlap
    exact one_stores hs hget hcommand hmakes hdone hconforming hstored merged hversion update hσ
  | fails => exact failed (!x) (by rw [hσ, stage_put_self])
  | rests ended =>
    rcases ended with hended | hended <;> rw [hended] at hother <;>
      rcases hother with ⟨hfrom, -⟩ | ⟨hfrom, -⟩ <;> exact hfrom.elim

/-- Every step of a client continues the course. -/
theorem step (hs : s.Conforming) (hget : s.get kind id = .ok e)
    (hcommand : ∀ x, (command x).WellFormed) (h : Course kind id command s e schedule)
    (y : Bool) : Course kind id command s e (schedule ++ [y]) := by
  have hnext := @run_append kind id command s schedule y
  cases h with
  | neither store_eq works overlap =>
    exact step_neither hs hget hcommand store_eq works overlap y
  | one x m makes done conforming get other =>
    by_cases hy : y = x
    · subst hy
      simp only [Shared.step, done] at hnext
      rw [← hnext] at done conforming get other
      have hsame := overlap_append_of_done done
      rw [← hsame] at other
      exact one y m makes done conforming get other
    · obtain rfl : y = !x := Bool.eq_not.mpr hy
      exact step_one hs hget hcommand makes done conforming get other
  | both last m r makes updates_last done get version =>
    simp only [Shared.step, done y] at hnext
    rw [← hnext] at done get
    rw [← overlap_append_of_done (done y)] at version
    obtain ⟨before, hbefore, hlast⟩ := updates_last
    exact both last m r makes ⟨before, hbefore.trans (List.prefix_append _ _), hlast⟩ done get
      version
  | failed x fails =>
    by_cases hy : y = x
    · subst hy
      simp only [Shared.step, fails] at hnext
      exact failed y (by rw [hnext, fails])
    · obtain rfl : y = !x := Bool.eq_not.mpr hy
      exact failed x (by rw [hnext, (stepped _ (!x)).stage_of_not, fails])

theorem run (hs : s.Conforming) (hget : s.get kind id = .ok e)
    (hcommand : ∀ x, (command x).WellFormed) (schedule : List Bool) :
    Course kind id command s e schedule := by
  induction schedule using List.reverseRecOn with
  | nil => exact nil
  | append_singleton schedule x ih => exact ih.step hs hget hcommand x

end Course

/-- Two update commands on one record, their steps in any order: if both store their versions,
the record that is stored in the end has the values of the patch of the client that stores
last. All other fields are as they were before either command if the commands overlap, and as
the other client has left them if they do not. -/
theorem last_update_wins (hs : s.Conforming) (hget : s.get kind id = .ok e)
    (hcommand : ∀ x, (command x).WellFormed) (schedule : List Bool)
    (hdone : ∀ x, (run kind id command s schedule).stage x = .done) :
    ∃ last r, UpdatesLast kind id command s schedule last ∧
      (run kind id command s schedule).store.get kind id = .ok r ∧
      ∀ f ∈ (Descriptor.shipped kind).fields, f.name ≠ updatedField →
        (Overlap kind id command s schedule →
          r.get? f.name = ((command last).value? f).or (e.get? f.name)) ∧
        (¬ Overlap kind id command s schedule →
          r.get? f.name =
            ((command last).value? f).or (((command (!last)).value? f).or (e.get? f.name))) := by
  obtain ⟨contents, hholds, hconforming⟩ := hs
  obtain ⟨-, -, -, -, -, hkind, -⟩ := hholds.get_ok hconforming hget
  cases Course.run ⟨contents, hholds, hconforming⟩ hget hcommand schedule with
  | neither _ works _ =>
    have hworks := works true
    rw [hdone true] at hworks
    exact hworks.elim
  | one x m _ _ _ _ other =>
    rw [hdone (!x)] at other
    rcases other with ⟨hfrom, -⟩ | ⟨hfrom, -⟩ <;> exact hfrom.elim
  | both last m r makes updates_last _ get version =>
    refine ⟨last, r, updates_last, get, fun f hf hname => ?_⟩
    rw [← hkind] at hf
    have hmkind := (Record.identity_of_validateUpdate makes).1
    rcases version with ⟨hfresh, hserial⟩ | ⟨hstale, hoverlap⟩
    · refine ⟨fun hoverlap => absurd hoverlap hserial, fun _ => ?_⟩
      rw [hfresh.get? (hcommand last) (by rw [hmkind]; exact hf) hname,
        makes.get? (hcommand (!last)) hf hname]
    · exact ⟨fun _ => hstale.get? (hcommand last) hf hname,
        fun hserial => absurd hoverlap hserial⟩
  | failed x fails =>
    rw [hdone x] at fails
    cases fails

/-! ## Two patches of a locale -/

/-- One client renames the sample locale, the other one archives it. -/
def samples : Bool → UpdateCommand
  | true => ⟨.obj [("name", .str "American")], ⟨60, 0⟩, "ann", ⟨60, 0⟩⟩
  | false => ⟨.obj [("_archived", .bool true)], ⟨60, 0⟩, "bob", ⟨60, 0⟩⟩

theorem wellFormed_samples : ∀ x, (samples x).WellFormed := by
  have harchive : (Json.obj [("_archived", .bool true)]).WellFormed := by
    apply Json.WellFormed.obj (by decide)
    intro entry hentry
    rw [List.mem_singleton.mp hentry]
    exact .bool true
  rw [forall_client true]
  exact ⟨⟨Json.wellFormed_of_texts (by decide) (by decide), by decide, by decide⟩,
    ⟨harchive, by decide, by decide⟩⟩

/-- The steps of the first client, then those of the second one. -/
def inTurn : List Bool := [true, true, true, false, false, false]

/-- The steps of the first client, each of them followed by one of the second client. -/
def crossed : List Bool := [true, false, true, false, true, false]

/-- One command after the other renames and archives the locale. -/
theorem both_kept : ∃ r,
    (run .locale (Record.sampleLocale .sample).id samples Store.sampleStore inTurn).store.get
      .locale (Record.sampleLocale .sample).id = .ok r ∧
    r.get? "name" = some (.str "American") ∧ r.get? "_archived" = some (.bool true) := by
  have hdone : ∀ x, (run .locale (Record.sampleLocale .sample).id samples Store.sampleStore
      inTurn).stage x = .done := by
    decide +kernel
  have hserial : ¬ Overlap .locale (Record.sampleLocale .sample).id samples Store.sampleStore
      inTurn := by
    have hprefixes : ∀ before ∈ inTurn.inits, ¬ ∀ x, ((run .locale
        (Record.sampleLocale .sample).id samples Store.sampleStore before).stage x).Active := by
      decide +kernel
    rintro ⟨before, hbefore, hactive⟩
    exact hprefixes before ((List.mem_inits _ _).mpr hbefore) hactive
  obtain ⟨last, r, -, hget, hfields⟩ := last_update_wins Store.conforming_sampleStore
    Store.get_sampleStore wellFormed_samples inTurn hdone
  have hname := (hfields .localeName (by decide) (by decide)).2 hserial
  have harchived := (hfields .archivedFlag (by decide) (by decide)).2 hserial
  refine ⟨r, hget, ?_, ?_⟩
  · cases last <;> exact hname
  · cases last <;> exact harchived

/-- Of a field that exactly one patch names, the value of that patch need not be stored in the
end: when the steps cross, archiving the locale brings its old name back. -/
theorem not_both_kept : ¬ ∀ (kind : RecordKind) (id : RecordId) (command : Bool → UpdateCommand)
    (s : Store) (e : Record) (schedule : List Bool), s.Conforming → s.get kind id = .ok e →
    e.isArchived = false → (∀ x, (command x).WellFormed) →
    (∀ x, (run kind id command s schedule).stage x = .done) →
    ∃ r, (run kind id command s schedule).store.get kind id = .ok r ∧
      ∀ f ∈ (Descriptor.shipped kind).fields, f.immutable = false →
        (∀ x value, (command x).value? f = some value → (command (!x)).value? f = none →
          r.get? f.name = some value) ∧
        ((∀ x, (command x).value? f = none) → r.get? f.name = e.get? f.name) := by
  intro hall
  obtain ⟨r, hget, hfields⟩ := hall .locale (Record.sampleLocale .sample).id samples
    Store.sampleStore (.sampleLocale .sample) crossed Store.conforming_sampleStore
    Store.get_sampleStore (by decide) wellFormed_samples (by decide +kernel)
  have hkept := (hfields .localeName (by decide) rfl).1 true _ rfl rfl
  have hlost : ((run .locale (Record.sampleLocale .sample).id samples Store.sampleStore
      crossed).store.get .locale (Record.sampleLocale .sample).id).map (fun r => r.get? "name") =
        .ok (some (.str "English")) := by
    decide +kernel
  rw [hget] at hlost
  exact absurd ((Except.ok.inj hlost).symm.trans hkept) (by decide)

end Shared
end Phrasebook
