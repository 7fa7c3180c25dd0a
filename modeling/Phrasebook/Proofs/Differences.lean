import Phrasebook.Proofs.Conforming
import Phrasebook.Store.Change

/-!
# Differences between versions

The recorded difference of two versions of a record holds what it takes to make the new fields of
the old ones and the old fields of the new ones, nulls counting as absent. Of conforming versions
it makes the new fields as they are.

## Main definitions

* `Json.Definite`: values that are the same as no other value
* `Fields.valueOf`: the value of a name, null for an absent one
* `Fields.Agree`: fields with the same values
* `differences`: the fields in which versions differ
* `newValues`, `oldValues`: the values that a difference records
-/
namespace Phrasebook

/-! ## Equality of values -/

namespace Json

mutual

/-- Every value is the same as itself. -/
@[simp] theorem same_self : ∀ a : Json, same a a = true
  | .null => rfl
  | .bool b => by simp [same]
  | .num (.int n) => by simp [same, Number.same]
  | .num (.float x) => by simp [same, Number.same, Binary64.same]
  | .str s => by simp [same]
  | .arr items => sameItems_self items
  | .obj entries => sameEntries_self entries

theorem sameItems_self : ∀ items : List Json, sameItems items items = true
  | [] => rfl
  | item :: rest => by simp [sameItems, same_self item, sameItems_self rest]

theorem sameEntries_self : ∀ entries : List (String × Json), sameEntries entries entries = true
  | [] => rfl
  | (key, value) :: rest => by simp [sameEntries, same_self value, sameEntries_self rest]

end

/-- Values without float zeros, of which there are two that count as the same. -/
inductive Definite : Json → Prop
  | null : Definite .null
  | bool (b : Bool) : Definite (.bool b)
  | int (n : Int) : Definite (.num (.int n))
  | float {x : Binary64} (nonzero : x.significand ≠ 0) : Definite (.num (.float x))
  | str (s : String) : Definite (.str s)
  | arr {items : List Json} (items_definite : ∀ item ∈ items, Definite item) :
    Definite (.arr items)
  | obj {entries : Fields} (entries_definite : ∀ entry ∈ entries, Definite entry.2) :
    Definite (.obj entries)

theorem eq_of_sameItems {a b : List Json}
    (ih : ∀ item ∈ a, ∀ value, same item value = true → item = value)
    (h : sameItems a b = true) : a = b := by
  induction a generalizing b with
  | nil =>
    cases b with
    | nil => rfl
    | cons _ _ => simp [sameItems] at h
  | cons item rest hrest =>
    obtain ⟨hfirst, hothers⟩ := List.forall_mem_cons.mp ih
    cases b with
    | nil => simp [sameItems] at h
    | cons other others =>
      simp only [sameItems, Bool.and_eq_true] at h
      rw [hfirst other h.1, hrest hothers h.2]

theorem eq_of_sameEntries {a b : Fields}
    (ih : ∀ entry ∈ a, ∀ value, same entry.2 value = true → entry.2 = value)
    (h : sameEntries a b = true) : a = b := by
  induction a generalizing b with
  | nil =>
    cases b with
    | nil => rfl
    | cons _ _ => simp [sameEntries] at h
  | cons entry rest hrest =>
    obtain ⟨key, value⟩ := entry
    obtain ⟨hfirst, hothers⟩ := List.forall_mem_cons.mp ih
    cases b with
    | nil => simp [sameEntries] at h
    | cons other others =>
      obtain ⟨key', value'⟩ := other
      simp only [sameEntries, Bool.and_eq_true, beq_iff_eq] at h
      obtain ⟨⟨rfl, hvalue⟩, htail⟩ := h
      rw [show value = value' from hfirst value' hvalue, hrest hothers htail]

/-- Values that count as the same are equal if there are no float zeros. -/
theorem eq_of_same {a b : Json} (ha : Definite a) (h : same a b = true) : a = b := by
  induction ha generalizing b with
  | null => cases b <;> simp_all [same]
  | bool x => cases b <;> simp_all [same]
  | int n =>
    cases b with
    | num m => cases m <;> simp_all [same, Number.same]
    | _ => simp [same] at h
  | float hnonzero =>
    cases b with
    | num m => cases m <;> simp_all [same, Number.same, Binary64.same]
    | _ => simp [same] at h
  | str s => cases b <;> simp_all [same]
  | arr _ ih =>
    cases b with
    | arr items => rw [eq_of_sameItems (fun item hitem value => ih item hitem) h]
    | _ => simp [same] at h
  | obj _ ih =>
    cases b with
    | obj entries => rw [eq_of_sameEntries (fun entry hentry value => ih entry hentry) h]
    | _ => simp [same] at h

theorem Plain.definite {a : Json} (h : Plain a) : Definite a := by
  induction h with
  | null => exact .null
  | bool b => exact .bool b
  | str s => exact .str s
  | obj _ _ ih => exact .obj ih

end Json

/-! ## Nulls and absent values -/

namespace Fields

/-- The value of a name, null for an absent one. -/
def valueOf (fields : Fields) (name : String) : Json := (fields.get? name).getD .null

/-- Fields have the same values, nulls counting as absent. -/
def Agree (a b : Fields) : Prop := ∀ name, (a.valueOf name).same (b.valueOf name) = true

/-- No value is null. -/
def NullFree (fields : Fields) : Prop := ∀ entry ∈ fields, entry.2 ≠ .null

/-- The fields whose values are not null. -/
def dropNulls (fields : Fields) : Fields :=
  fields.mapValues fun _ value => if value = .null then none else some value

variable {fields a b : Fields} {name : String}

/-- A name is left unless its value is null. -/
theorem get?_dropNulls (h : fields.Sorted) : fields.dropNulls.get? name =
    if fields.valueOf name = .null then none else some (fields.valueOf name) := by
  rw [dropNulls, h.get?_mapValues]
  cases hget : fields.get? name <;> simp [valueOf, hget]

theorem dropNulls_eq (ha : a.Sorted) (hb : b.Sorted)
    (h : ∀ name, a.valueOf name = b.valueOf name) : a.dropNulls = b.dropNulls := by
  refine Sorted.ext ha.mapValues hb.mapValues fun name => ?_
  rw [get?_dropNulls ha, get?_dropNulls hb, h]

theorem NullFree.dropNulls_eq (h : fields.NullFree) (hsorted : fields.Sorted) :
    fields.dropNulls = fields := by
  refine Sorted.ext hsorted.mapValues hsorted fun name => ?_
  rw [get?_dropNulls hsorted]
  cases hget : fields.get? name with
  | none => simp [valueOf, hget]
  | some value => simp [valueOf, hget, h _ (mem_of_get? hget)]

end Fields

/-! ## Differences -/

/-- The new values that a difference records. -/
def newValues (changes : Fields) : Fields :=
  changes.mapValues fun _ change => change.entries?.bind fun entries => Fields.get? entries "new"

/-- The old values that a difference records. -/
def oldValues (changes : Fields) : Fields :=
  changes.mapValues fun _ change => change.entries?.bind fun entries => Fields.get? entries "old"

/-- The old and the new value of a field, if they differ. -/
def changedValue? (old : Fields) (name : String) (value : Json) : Option Json :=
  let before := (old.get? name).getD .null
  if before.same value then none else some (oldAndNew before value)

/-- The change of a field of the new version is that of its value. -/
theorem changedField?_eq (old : Fields) (name : String) (value : Json) :
    changedField? old name value =
      (changedValue? old name value).map fun change => (name, change) := by
  unfold changedField? changedValue?
  dsimp only
  split <;> rfl

section

variable {old new : Record}

/-- The fields in which versions differ, from the new and then from the old version. -/
def differences (old new : Record) : List (String × Json) :=
  new.fields.filterMap (fun entry => changedField? old.fields entry.1 entry.2) ++
    old.fields.filterMap fun entry => droppedField? new.fields entry.1 entry.2

theorem diffFields_eq (old new : Record) :
    diffFields old new = Fields.ofList (differences old new) := rfl

theorem mem_differences (hold : old.fields.Sorted) (hnew : new.fields.Sorted)
    (hnull : old.fields.NullFree) {entry : String × Json} : entry ∈ differences old new ↔
      changedValue? old.fields entry.1 (new.fields.valueOf entry.1) = some entry.2 := by
  obtain ⟨name, change⟩ := entry
  simp only [differences, List.mem_append, List.mem_filterMap, changedField?_eq, droppedField?,
    Option.map_eq_some_iff, Prod.exists, Prod.mk.injEq]
  constructor
  · rintro (⟨_, value, hmem, _, hchange, rfl, rfl⟩ | ⟨key, value, hmem, hdropped⟩)
    · simpa [Fields.valueOf, hnew.get?_eq_some_iff.mpr hmem] using hchange
    · split at hdropped
      · cases hdropped
      · next hmissing =>
        cases hdropped
        -- The old value is not null, so that it is not what is missing.
        have hbefore := hold.get?_eq_some_iff.mpr hmem
        have hne : value.same .null = false := by
          have hvalue := hnull _ hmem
          cases value <;> simp_all [Json.same]
        have hafter : new.fields.get? name = none := by simpa [Fields.has] using hmissing
        simp [changedValue?, Fields.valueOf, hbefore, hafter, hne]
  · intro hchange
    cases hafter : new.fields.get? name with
    | some value =>
      refine .inl ⟨name, value, Fields.mem_of_get? hafter, change, ?_, rfl, rfl⟩
      simpa [Fields.valueOf, hafter] using hchange
    | none =>
      cases hbefore : old.fields.get? name with
      | none => simp [changedValue?, Fields.valueOf, hbefore, hafter] at hchange
      | some value =>
        refine .inr ⟨name, value, Fields.mem_of_get? hbefore, ?_⟩
        simp only [changedValue?, Fields.valueOf, hbefore, hafter, Option.getD_some,
          Option.getD_none] at hchange
        split at hchange
        · cases hchange
        · simpa [Fields.has, hafter] using hchange

/-- A difference has the old and the new value of each field in which the versions differ. -/
theorem get?_diffFields (hold : old.fields.Sorted) (hnew : new.fields.Sorted)
    (hnull : old.fields.NullFree) (name : String) :
    (diffFields old new).get? name =
      if (old.fields.valueOf name).same (new.fields.valueOf name) then none
      else some (oldAndNew (old.fields.valueOf name) (new.fields.valueOf name)) := by
  have hentries := @mem_differences old new hold hnew hnull
  rw [diffFields_eq, Fields.ofList, Fields.get?_override_of_forall
    (g := fun name => changedValue? old.fields name (new.fields.valueOf name))
    fun entry hentry => hentries.mp hentry]
  split
  · rfl
  · next hname =>
    -- No entry has the name, so the values are the same.
    have hnone : changedValue? old.fields name (new.fields.valueOf name) = none := by
      rw [Option.eq_none_iff_forall_not_mem]
      intro change hchange
      have hmem : (name, change) ∈ differences old new := hentries.mpr hchange
      exact hname (List.mem_map.mpr ⟨_, hmem, rfl⟩)
    exact hnone.symm

theorem sorted_diffFields (old new : Record) : (diffFields old new).Sorted :=
  Fields.sorted_ofList _

/-! ## Applying and undoing a difference -/

theorem get?_newValues (hold : old.fields.Sorted) (hnew : new.fields.Sorted)
    (hnull : old.fields.NullFree) (name : String) :
    (newValues (diffFields old new)).get? name =
      if (old.fields.valueOf name).same (new.fields.valueOf name) then none
      else some (new.fields.valueOf name) := by
  rw [newValues, (sorted_diffFields old new).get?_mapValues, get?_diffFields hold hnew hnull]
  split <;> simp [oldAndNew, Json.entries?, Fields.get?_cons]

theorem get?_oldValues (hold : old.fields.Sorted) (hnew : new.fields.Sorted)
    (hnull : old.fields.NullFree) (name : String) :
    (oldValues (diffFields old new)).get? name =
      if (old.fields.valueOf name).same (new.fields.valueOf name) then none
      else some (old.fields.valueOf name) := by
  rw [oldValues, (sorted_diffFields old new).get?_mapValues, get?_diffFields hold hnew hnull]
  split <;> simp [oldAndNew, Json.entries?, Fields.get?_cons]

/-- Setting the new values of a difference changes the values that are not the same. -/
theorem valueOf_override_newValues (hold : old.fields.Sorted) (hnew : new.fields.Sorted)
    (hnull : old.fields.NullFree) (name : String) :
    (old.fields.override (newValues (diffFields old new))).valueOf name =
      if (old.fields.valueOf name).same (new.fields.valueOf name) then old.fields.valueOf name
      else new.fields.valueOf name := by
  have hsorted : (newValues (diffFields old new)).Sorted := (sorted_diffFields old new).mapValues
  rw [Fields.valueOf, Fields.get?_override hsorted, get?_newValues hold hnew hnull]
  split <;> simp [Fields.valueOf]

/-- Setting the old values of a difference changes the values that are not the same back. -/
theorem valueOf_override_oldValues (hold : old.fields.Sorted) (hnew : new.fields.Sorted)
    (hnull : old.fields.NullFree) (name : String) :
    (new.fields.override (oldValues (diffFields old new))).valueOf name =
      if (old.fields.valueOf name).same (new.fields.valueOf name) then new.fields.valueOf name
      else old.fields.valueOf name := by
  have hsorted : (oldValues (diffFields old new)).Sorted := (sorted_diffFields old new).mapValues
  rw [Fields.valueOf, Fields.get?_override hsorted, get?_oldValues hold hnew hnull]
  split <;> simp [Fields.valueOf]

/-- The difference of two versions, the old one without nulls, has an entry for a field exactly
if the versions differ in it, with both values. Setting the new values makes the new fields of
the old ones, setting the old values the old fields of the new ones, nulls counting as absent. The
values are the same as they were, and they are equal if the old ones have no float zeros. -/
theorem diffFields_reversible (hold : old.fields.Sorted) (hnew : new.fields.Sorted)
    (hnull : old.fields.NullFree) :
    (∀ name, (diffFields old new).get? name =
      if (old.fields.valueOf name).same (new.fields.valueOf name) then none
      else some (oldAndNew (old.fields.valueOf name) (new.fields.valueOf name))) ∧
    (old.fields.override (newValues (diffFields old new))).Agree new.fields ∧
    old.fields.Agree (new.fields.override (oldValues (diffFields old new))) ∧
    ((∀ entry ∈ old.fields, entry.2.Definite) →
      (old.fields.override (newValues (diffFields old new))).dropNulls = new.fields.dropNulls ∧
      (new.fields.override (oldValues (diffFields old new))).dropNulls = old.fields) := by
  have happlied := valueOf_override_newValues hold hnew hnull
  have hundone := valueOf_override_oldValues hold hnew hnull
  refine ⟨get?_diffFields hold hnew hnull, ?_, ?_, ?_⟩
  · intro name
    rw [happlied]
    split
    · assumption
    · exact Json.same_self _
  · intro name
    rw [hundone]
    split
    · assumption
    · exact Json.same_self _
  · intro hdefinite
    have heq : ∀ name, (old.fields.valueOf name).same (new.fields.valueOf name) = true →
        old.fields.valueOf name = new.fields.valueOf name := by
      intro name
      apply Json.eq_of_same
      cases hvalue : old.fields.get? name with
      | none => simpa [Fields.valueOf, hvalue] using Json.Definite.null
      | some value => simpa [Fields.valueOf, hvalue] using hdefinite _ (Fields.mem_of_get? hvalue)
    constructor
    · refine Fields.dropNulls_eq hold.override hnew fun name => ?_
      rw [happlied]
      split
      · next hsame => exact heq name hsame
      · rfl
    · rw [← hnull.dropNulls_eq hold]
      refine Fields.dropNulls_eq hnew.override hold fun name => ?_
      rw [hundone]
      split
      · next hsame => exact (heq name hsame).symm
      · rfl

/-- A version of a template with some fields. -/
def Record.version (fields : Fields) : Record where
  kind := .template
  id := .uuid .sample
  created := default
  updated := default
  fields := fields

/-- A field that is added, one that is changed, one that is cleared and one that is dropped. -/
theorem diffFields_reversible_sample :
    let old := Record.version [("changed", .arr [.int 1, .null]), ("cleared", .bool true),
      ("dropped", .str "x"), ("kept", .int 0)]
    let new := Record.version [("absent", .null), ("added", .obj [("a", .null)]),
      ("changed", .arr [.int 2]), ("cleared", .null), ("kept", .int 0)]
    diffFields old new = [("added", oldAndNew .null (.obj [("a", .null)])),
      ("changed", oldAndNew (.arr [.int 1, .null]) (.arr [.int 2])),
      ("cleared", oldAndNew (.bool true) .null), ("dropped", oldAndNew (.str "x") .null)] ∧
    (old.fields.override (newValues (diffFields old new))).dropNulls = new.fields.dropNulls ∧
    (new.fields.override (oldValues (diffFields old new))).dropNulls = old.fields := by
  intro old new
  have hold : old.fields.Sorted := by decide
  have hnew : new.fields.Sorted := by decide
  have hnull : old.fields.NullFree := by
    simp [old, Record.version, Fields.NullFree, Json.int]
  have hdefinite : ∀ entry ∈ old.fields, entry.2.Definite := by
    simp only [old, Record.version, List.forall_mem_cons]
    have hitems : ∀ item ∈ [Json.int 1, .null], item.Definite := by
      simpa using ⟨Json.Definite.int 1, Json.Definite.null⟩
    exact ⟨.arr hitems, .bool true, .str "x", .int 0, nofun⟩
  exact ⟨by decide, (diffFields_reversible hold hnew hnull).2.2.2 hdefinite⟩

end

namespace Record.Conforms

variable {old new : Record}

/-- The values of a conforming record are kept by the columns of its fields. -/
theorem stores_of_get? (h : old.Conforms) {name : String} {value : Json}
    (hget : old.fields.get? name = some value) :
    ∃ f ∈ (Descriptor.shipped old.kind).fields, f.name = name ∧ f.type.Stores value := by
  obtain ⟨hidentity, f, hf, rfl⟩ := h.declared name value hget
  obtain ⟨value', hvalue', hstores⟩ := h.stores f hf hidentity
  rw [hget] at hvalue'
  exact ⟨f, hf, rfl, Option.some.inj hvalue' ▸ hstores⟩

theorem nullFree (h : old.Conforms) : old.fields.NullFree := by
  rintro ⟨name, value⟩ hentry rfl
  obtain ⟨f, -, -, hstores⟩ := h.stores_of_get? (h.sorted.get?_eq_some_iff.mpr hentry)
  cases htype : f.type <;> simp [htype, FieldType.Stores] at hstores

/-- The values of a conforming record are plain, and no deeper than an object of texts. -/
theorem plain_valueOf (h : old.Conforms) (name : String) :
    (old.fields.valueOf name).Plain ∧ (old.fields.valueOf name).height ≤ 1 := by
  cases hget : old.fields.get? name with
  | none => simpa [Fields.valueOf, hget, Json.height] using Json.Plain.null
  | some value =>
    obtain ⟨f, -, -, hstores⟩ := h.stores_of_get? hget
    simpa [Fields.valueOf, hget] using FieldSpec.plain_of_stores hstores

/-- A conforming version has a value in every field of another one. -/
theorem get?_eq_none (hold : old.Conforms) (hnew : new.Conforms) (hkind : old.kind = new.kind)
    {name : String} (h : new.fields.get? name = none) : old.fields.get? name = none := by
  cases hget : old.fields.get? name with
  | none => rfl
  | some value =>
    obtain ⟨hidentity, f, hf, rfl⟩ := hold.declared name value hget
    obtain ⟨other, hother, -⟩ := hnew.stores f (hkind ▸ hf) hidentity
    rw [h] at hother
    cases hother

/-- Setting the new values of a difference makes the new fields of the old ones. -/
theorem override_newValues (hold : old.Conforms) (hnew : new.Conforms)
    (hkind : old.kind = new.kind) :
    old.fields.override (newValues (diffFields old new)) = new.fields := by
  have hsorted : (newValues (diffFields old new)).Sorted := (sorted_diffFields old new).mapValues
  refine hold.sorted.override.ext hnew.sorted fun name => ?_
  rw [Fields.get?_override hsorted, get?_newValues hold.sorted hnew.sorted hold.nullFree]
  cases hvalue : new.fields.get? name with
  | none => simp [Fields.valueOf, hvalue, hold.get?_eq_none hnew hkind hvalue]
  | some value =>
    cases hbefore : old.fields.get? name with
    | none =>
      rw [hnew.get?_eq_none hold hkind.symm hbefore] at hvalue
      cases hvalue
    | some before =>
      have hdefinite := (hold.plain_valueOf name).1.definite
      simp only [Fields.valueOf, hvalue, hbefore, Option.getD_some] at hdefinite ⊢
      split
      · next hsame => simp [Json.eq_of_same hdefinite hsame]
      · rfl

/-- The values of a pair of old and new values. -/
theorem plain_oldAndNew {before value : Json} (hbefore : before.Plain ∧ before.height ≤ 1)
    (hvalue : value.Plain ∧ value.height ≤ 1) :
    (oldAndNew before value).Plain ∧ (oldAndNew before value).height ≤ 2 := by
  refine ⟨.obj ?_ ?_, ?_⟩
  · have hnames : ["new", "old"].Pairwise (· < ·) := by decide
    exact List.pairwise_map.mp hnames
  · intro entry hentry
    rcases List.mem_pair.mp hentry with rfl | rfl
    · exact hvalue.1
    · exact hbefore.1
  · simp only [oldAndNew, Json.height, Json.heightEntries]
    have hmax : Nat.max value.height (Nat.max before.height 0) ≤ 1 :=
      Nat.max_le.mpr ⟨hvalue.2, Nat.max_le.mpr ⟨hbefore.2, Nat.zero_le 1⟩⟩
    omega

/-- A difference is plain, and no deeper than objects of old and new values. -/
theorem plain_diffFields (hold : old.Conforms) (hnew : new.Conforms) :
    (Json.obj (diffFields old new)).Plain ∧ (Json.obj (diffFields old new)).height ≤ 3 := by
  have hchange : ∀ entry ∈ diffFields old new, entry.2.Plain ∧ entry.2.height ≤ 2 := by
    intro entry hentry
    have hget := (sorted_diffFields old new).get?_eq_some_iff.mpr hentry
    rw [get?_diffFields hold.sorted hnew.sorted hold.nullFree] at hget
    split at hget
    · cases hget
    · exact Option.some.inj hget ▸ plain_oldAndNew (hold.plain_valueOf _) (hnew.plain_valueOf _)
  refine ⟨.obj (sorted_diffFields old new) fun entry hentry => (hchange entry hentry).1, ?_⟩
  exact Nat.succ_le_succ
    (Json.heightEntries_le_iff.mpr fun entry hentry => (hchange entry hentry).2)

end Record.Conforms
end Phrasebook
