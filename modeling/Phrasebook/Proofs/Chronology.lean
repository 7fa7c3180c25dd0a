import Phrasebook.Proofs.Changes
import Phrasebook.Proofs.ReadBack

/-!
# Times of stored records

Validation never dates an update before the creation, whatever times are supplied and however
the clock runs. The store keeps the creation time of a record as long as the record is there,
so the times of a stored record are in order and its creation time is the one it was created
with.

## Main definitions

* `Record.Timely`: the times of a record are in order
* `Record.Validated`: a record comes from validation
* `Store.Origin`: how the record of a key came into a store
-/
namespace Phrasebook

/-! ## The order of instants -/

namespace Instant

variable {a b : Instant}

theorem isLE_compare : (a.compare b).isLE = true ↔
    a.seconds < b.seconds ∨ a.seconds = b.seconds ∧ a.nanos ≤ b.nanos := by
  simp only [compare, Ordering.isLE_then_iff_or, Int.compare_eq_lt, Int.compare_eq_eq,
    Nat.isLE_compare]

/-- The later of two instants is not before the second. -/
theorem isLE_max (a b : Instant) : (b.compare (a.max b)).isLE = true := by
  unfold max
  split
  · next hgt =>
    have hnot : ¬ (a.compare b).isLE = true := by simp [hgt]
    rw [isLE_compare] at hnot ⊢
    omega
  · rw [isLE_compare]
    omega

/-- What the text of an instant is read as is the instant. -/
theorem eq_of_parse {t : Instant} (ha : a.Proper) (h : parse a.text = .ok t) : t = a := by
  rw [parse_text ha (inYears_of_parse h)] at h
  exact (Except.ok.inj h).symm

end Instant

/-! ## Records in order of time -/

/-- The times of a record are instants, the update not before the creation. -/
structure Record.Timely (r : Record) : Prop where
  created_proper : r.created.Proper
  updated_proper : r.updated.Proper
  ordered : (r.created.compare r.updated).isLE = true

/-- A record comes from validation: of a candidate, or of a patch of any record, by clocks that
may read anything. -/
inductive Record.Validated : Record → Prop
  | made {kind : RecordKind} {input : Json} {fresh : Uuid} {clock : Instant} {r : Record}
    (clock_proper : clock.Proper)
    (valid : Registry.builtin.validate kind input fresh clock = .ok r) : Validated r
  | patched {existing : Record} {patch : Json} {clock : Instant} {r : Record}
    (created_proper : existing.created.Proper) (clock_proper : clock.Proper)
    (valid : Registry.builtin.validateUpdate existing patch clock = .ok r) : Validated r

namespace Record

variable {kind : RecordKind} {r stored existing : Record} {row : Row}

/-- Validation never dates an update before the creation. -/
theorem Validated.timely (h : r.Validated) : r.Timely := by
  cases h with
  | made hclock hvalid =>
    obtain ⟨hcreated, hupdated⟩ := proper_of_validate hclock hvalid
    obtain ⟨candidate, -, -, rfl⟩ := Registry.validate_eq_ok_iff.mp hvalid
    exact ⟨hcreated, hupdated, Instant.isLE_max _ _⟩
  | patched hcreated hclock hvalid =>
    obtain ⟨candidate, -, -, rfl⟩ := Registry.validateUpdate_ok hvalid
    exact ⟨hcreated, hclock.max hcreated, Instant.isLE_max _ _⟩

/-- What is read from the row of a record in order of time has its times. -/
theorem Timely.times_of_ofRow (h : stored.Timely)
    (hreads : (Descriptor.shipped stored.kind).ofRow stored.row = .ok r) :
    r.id = stored.id ∧ r.created = stored.created ∧ r.updated = stored.updated := by
  obtain ⟨hid, hcreated, hupdated⟩ := identity_of_ofRow hreads
  exact ⟨hid, Instant.eq_of_parse h.created_proper hcreated,
    Instant.eq_of_parse h.updated_proper hupdated⟩

/-- A new version that the store accepts has the creation time of the stored one. -/
theorem Timely.created_eq (h : stored.Timely) (hr : r.created.Proper) (hkind : stored.kind = r.kind)
    (hreads : (Descriptor.shipped r.kind).ofRow stored.row = .ok existing)
    (hunchanged : Store.changedImmutable? (Descriptor.shipped r.kind) existing r = none) :
    r.created = stored.created := by
  rw [← hkind] at hreads
  obtain ⟨-, hcreated, -⟩ := identity_of_ofRow hreads
  have hidentity : isIdentityField createdField = true := rfl
  obtain ⟨f, hf, hname, -⟩ := Descriptor.identity_declared r.kind hidentity
  have himmutable : f ∈ (Descriptor.shipped r.kind).immutableFields.filter
      fun f => f.name != updatedField := by
    refine List.mem_filter.mpr ⟨List.mem_filter.mpr ⟨hf, ?_⟩, by rw [hname]; rfl⟩
    exact Descriptor.immutable_identity r.kind f hf (by rw [hname]; rfl)
  have hsame := List.find?_eq_none.mp hunchanged f himmutable
  rw [hname] at hsame
  have htext : existing.created.text = r.created.text := by
    have hold : existing.get? createdField = some (.str existing.created.text) := rfl
    have hnew : r.get? createdField = some (.str r.created.text) := rfl
    simpa [Store.sameField, hold, hnew, Json.same] using hsame
  rw [Instant.eq_of_parse h.created_proper hcreated] at htext
  have hread : Instant.parse r.created.text = .ok stored.created := by
    rw [← htext]
    exact Instant.parse_text h.created_proper (Instant.inYears_of_parse hcreated)
  exact (Instant.eq_of_parse hr hread).symm

/-- What an update makes of a record in order of time is in order of time. -/
theorem Timely.revised (h : stored.Timely) (hr : r.Timely) (hcreated : r.created = stored.created) :
    (r.revised stored).Timely :=
  ⟨h.created_proper, hr.updated_proper, hcreated ▸ hr.ordered⟩

end Record

/-! ## Runs -/

namespace Store

variable {s s' : Store} {contents contents' : Contents} {op : Operation} {ops : List Operation}
  {kind : RecordKind} {id : RecordId} {r c : Record}

/-- The record of a key came into the store of a run when it was created as `c`, and has been
there ever since. -/
def Origin (ops : List Operation) (kind : RecordKind) (id : RecordId) (c : Record) : Prop :=
  ∃ before actor now after, ops = before ++ .create c actor now :: after ∧ c.kind = kind ∧
    c.id = id ∧ (∃ s', (initial.run before).create c actor now = .ok s') ∧
    ∀ part, part <+: after →
      (initial.run (before ++ .create c actor now :: part)).stores kind id = true

/-- A record that has just been created. -/
theorem origin_created {actor : String} {now : Instant}
    (hrun : (initial.run ops).create c actor now = .ok s')
    (hstored : s'.stores c.kind c.id = true) :
    Origin (ops ++ [.create c actor now]) c.kind c.id c := by
  have hperform : (initial.run ops).perform (.create c actor now) = .ok s' := hrun
  refine ⟨ops, actor, now, [], rfl, rfl, rfl, ⟨s', hrun⟩, fun part hpart => ?_⟩
  rw [List.prefix_nil.mp hpart, run_append, after_of_perform hperform]
  exact hstored

/-- A record that is still there. -/
theorem Origin.step (h : Origin ops kind id c)
    (hstored : (initial.run (ops ++ [op])).stores kind id = true) :
    Origin (ops ++ [op]) kind id c := by
  obtain ⟨before, actor, now, after, rfl, hkind, hid, hcreate, hsince⟩ := h
  refine ⟨before, actor, now, after ++ [op], by simp, hkind, hid, hcreate, fun part hpart => ?_⟩
  rcases List.prefix_concat_iff.mp hpart with rfl | hpart
  · simpa using hstored
  · exact hsince part hpart

/-- A record that is there after a step is in order of time; it has just been created, or it was
there before with the same creation time. -/
theorem Step.timely_cases (hstep : Step s contents op s' contents') (hholds : s.Holds contents)
    (hrecord : ∀ r, op.record? = some r → r.Timely)
    (htimely : ∀ kind, ∀ r ∈ contents kind, r.Timely) (hr : r ∈ contents' kind) :
    r.Timely ∧ ((∃ actor now, op = .create r actor now ∧ s.create r actor now = .ok s') ∨
      ∃ stored ∈ contents kind, stored.id = r.id ∧ stored.created = r.created) := by
  have hsame : r ∈ contents kind → r.Timely ∧
      ((∃ actor now, op = .create r actor now ∧ s.create r actor now = .ok s') ∨
        ∃ stored ∈ contents kind, stored.id = r.id ∧ stored.created = r.created) :=
    fun hr => ⟨htimely kind r hr, .inr ⟨r, hr, rfl, rfl⟩⟩
  cases hstep with
  | failed fails => exact hsame hr
  | @created new actor now references check succeeds =>
    by_cases hkind : kind = new.kind
    · subst hkind
      rw [Function.update_self] at hr
      rcases List.mem_append.mp hr with hr | hr
      · exact hsame hr
      · rw [List.mem_singleton.mp hr]
        exact ⟨hrecord new rfl, .inl ⟨actor, now, rfl, succeeds⟩⟩
    · rw [Function.update_of_ne hkind] at hr
      exact hsame hr
  | @updated new stored existing actor now mem id_eq reads unarchived unchanged succeeds =>
    by_cases hkind : kind = new.kind
    · subst hkind
      rw [Function.update_self] at hr
      obtain ⟨earlier, hearlier, rfl⟩ := List.mem_map.mp hr
      by_cases hid : earlier.id = new.id
      · obtain rfl := hholds.database.eq_of_id hearlier mem (hid.trans id_eq.symm)
        have hearlier' := htimely _ earlier hearlier
        have hnew := hrecord new rfl
        have hcreated := hearlier'.created_eq hnew.created_proper
          (hholds.database.kind_eq _ earlier hearlier) reads unchanged
        rw [Record.applied, if_pos hid]
        exact ⟨hearlier'.revised hnew hcreated, .inr ⟨earlier, hearlier, rfl, rfl⟩⟩
      · rw [Record.applied, if_neg hid] at hr ⊢
        exact ⟨htimely _ earlier hearlier, .inr ⟨earlier, hearlier, rfl, rfl⟩⟩
    · rw [Function.update_of_ne hkind] at hr
      exact hsame hr
  | deleted mem succeeds drops => exact hsame (List.mem_of_mem_filter hr)

/-- In every store of a run with validated records the records are in order of time, and each has
the creation time it was created with. -/
theorem holds_timely (h : ∀ op ∈ ops, ∀ r, op.record? = some r → r.Validated) :
    ∃ contents, (initial.run ops).Holds contents ∧ ∀ kind, ∀ stored ∈ contents kind,
      stored.Timely ∧ ∃ c, Origin ops kind stored.id c ∧ stored.created = c.created := by
  induction ops using List.reverseRecOn with
  | nil => exact ⟨_, holds_initial, fun kind stored hstored => nomatch hstored⟩
  | append_singleton ops op ih =>
    obtain ⟨contents, hholds, hkept⟩ :=
      ih fun other hother => h other (List.mem_append_left _ hother)
    obtain ⟨contents', hstep, hholds'⟩ := hholds.step op
    rw [← run_append] at hholds' hstep
    refine ⟨contents', hholds', fun kind r hr => ?_⟩
    have hrecord : ∀ r, op.record? = some r → r.Timely :=
      fun r hop => (h op (by simp) r hop).timely
    have hstored : (initial.run (ops ++ [op])).stores kind r.id = true :=
      hholds'.stores_iff.mpr ⟨r, hr, rfl⟩
    obtain ⟨htimely, hcase⟩ :=
      hstep.timely_cases hholds hrecord (fun kind r hr => (hkept kind r hr).1) hr
    refine ⟨htimely, ?_⟩
    rcases hcase with ⟨actor, now, rfl, hcreate⟩ | ⟨stored, hmem, hid, hcreated⟩
    · obtain rfl := hholds'.database.kind_eq kind r hr
      exact ⟨r, origin_created hcreate hstored, rfl⟩
    · obtain ⟨-, c, horigin, hc⟩ := hkept kind stored hmem
      rw [hid] at horigin
      exact ⟨c, horigin.step hstored, hcreated.symm.trans hc⟩

/-- In every run with validated records, whatever times they were given and however the clock
ran, a stored record that can be read was not updated before it was created, and its creation
time is the one it was created with. -/
theorem run_chronology (h : ∀ op ∈ ops, ∀ r, op.record? = some r → r.Validated) {row : Row}
    (hrow : row ∈ (initial.run ops).database.records kind)
    (hreads : (Descriptor.shipped kind).ofRow row = .ok r) :
    (r.created.compare r.updated).isLE = true ∧
      ∃ c, Origin ops kind r.id c ∧ r.created = c.created := by
  obtain ⟨contents, hholds, hkept⟩ := holds_timely h
  rw [hholds.database.records_eq] at hrow
  obtain ⟨stored, hstored, rfl⟩ := List.mem_map.mp hrow
  obtain rfl := hholds.database.kind_eq kind stored hstored
  obtain ⟨htimely, c, horigin, hc⟩ := hkept _ stored hstored
  obtain ⟨hid, hcreated, hupdated⟩ := htimely.times_of_ofRow hreads
  rw [hid, hcreated, hupdated]
  exact ⟨htimely.ordered, c, horigin, hc⟩

end Store

/-! ## A clock that runs backwards -/

/-- The sample locale, created a minute after the epoch. -/
def Record.lateLocale : Record :=
  .ofCandidate .locale (Descriptor.sample .locale) .sample ⟨60, 0⟩

/-- A run that renames the locale by a clock that has been set back. -/
def Operation.rewoundRun : List Operation :=
  [.create .lateLocale "ann" ⟨60, 0⟩,
    .update (Record.lateLocale.changed [("name", .str "American")] ⟨0, 0⟩) "bob" ⟨0, 0⟩]

/-- The renamed locale was updated when it was created. -/
theorem Store.chronology_rewound : ∃ r c,
    (∃ row ∈ (initial.run Operation.rewoundRun).database.records .locale,
      (Descriptor.shipped .locale).ofRow row = .ok r) ∧
    r.updated = ⟨60, 0⟩ ∧ (r.created.compare r.updated).isLE = true ∧
    Origin Operation.rewoundRun .locale r.id c ∧ r.created = c.created := by
  have hmade : Registry.builtin.validate .locale (.obj (Descriptor.sample .locale)) .sample
      ⟨60, 0⟩ = .ok .lateLocale :=
    Registry.validate_eq_ok_iff.mpr ⟨_, rfl, Descriptor.sample_accepted .locale, rfl⟩
  have hpatched : Registry.builtin.validateUpdate .lateLocale (.obj [("name", .str "American")])
      ⟨0, 0⟩ = .ok (Record.lateLocale.changed [("name", .str "American")] ⟨0, 0⟩) :=
    Registry.validateUpdate_ok_iff.mpr ⟨.locale, [("name", .str "American")], rfl, rfl,
      by decide, by decide +kernel, rfl⟩
  have hvalidated : ∀ op ∈ Operation.rewoundRun, ∀ r, op.record? = some r → r.Validated := by
    intro op hop r hr
    rcases List.mem_pair.mp hop with rfl | rfl
    · cases hr
      exact .made (by decide) hmade
    · cases hr
      exact .patched (by decide) (by decide) hpatched
  have hconforms : (Record.lateLocale.changed [("name", .str "American")] ⟨0, 0⟩).Conforms :=
    Record.conforms_of_validateUpdate
      (Record.conforms_of_validate (Json.wellFormed_of_texts (by decide) (by decide)) hmade)
      (Json.wellFormed_of_texts (by decide) (by decide)) hpatched
  have hrow : (Record.lateLocale.changed [("name", .str "American")] ⟨0, 0⟩).row ∈
      (initial.run Operation.rewoundRun).database.records .locale := by
    decide +kernel
  have hreads : (Descriptor.shipped .locale).ofRow
      (Record.lateLocale.changed [("name", .str "American")] ⟨0, 0⟩).row = .ok _ :=
    (hconforms.ofRow_row_self_iff (by decide)).mpr (by decide)
  obtain ⟨hordered, c, horigin, hcreated⟩ := run_chronology hvalidated hrow hreads
  exact ⟨_, c, ⟨_, hrow, hreads⟩, by decide, hordered, horigin, hcreated⟩

end Phrasebook
