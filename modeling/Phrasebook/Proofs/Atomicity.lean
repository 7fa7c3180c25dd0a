import Phrasebook.Proofs.Spellings
import Phrasebook.Store.Connection

/-!
# Atomicity

An operation that fails leaves the published tables as they are, wherever it fails: its
statements change nothing but the copy of its transaction, and committing is the last of
them. Where no statement fails by itself, the statements do what the operation does to the
tables as a whole.

## Main definitions

* `Session.perform`: the statements of an operation
* `Session.Quiet`, `Session.Local`, `Session.Guarded`: what a program leaves alone
* `Session.AllOrNothing`: a failure outside of a transaction changes nothing
* `Session.Computes`: a program in a transaction does what a function of the tables does
-/
namespace Phrasebook

/-- A transaction is running, and the tables `db` are published. -/
structure Connection.Within (c : Connection) (db : Database) : Prop where
  published_eq : c.published = db
  pending_isSome : c.pending.isSome = true

namespace Session

variable {α β : Type} {x : Session α} {f : α → Session β} {c : Connection}

/-- The statements of an operation. -/
def perform (registry : Registry) : Operation → Session Unit
  | .create r actor now => create registry r actor now
  | .update r actor now => update registry r actor now
  | .delete kind id actor now => do
    let _ ← delete registry kind id actor now
    pure ()

/-! ## Running -/

@[simp] theorem run_answer (outcome : Except StoreError α) :
    (answer outcome).run c = (outcome, c) := rfl

theorem run_bind : (x >>= f).run c =
    match x.run c with
    | (.ok a, c) => (f a).run c
    | (.error e, c) => (.error e, c) := rfl

/-- A program that fails is where its continuation fails; otherwise that goes on from there. -/
theorem run_bind_cases (x : Session α) (f : α → Session β) (c : Connection) :
    (∃ e c', x.run c = (.error e, c') ∧ (x >>= f).run c = (.error e, c')) ∨
      ∃ a c', x.run c = (.ok a, c') ∧ (x >>= f).run c = (f a).run c' := by
  rw [run_bind]
  cases x.run c with
  | mk outcome c' =>
    cases outcome with
    | error e => exact .inl ⟨e, c', rfl, rfl⟩
    | ok a => exact .inr ⟨a, c', rfl, rfl⟩

/-! ## Programs that leave the connection alone -/

/-- Neither the published tables nor the copy change. -/
def Quiet (x : Session α) : Prop :=
  ∀ c, (x.run c).2.published = c.published ∧ (x.run c).2.pending = c.pending

theorem quiet_answer (outcome : Except StoreError α) : (answer outcome).Quiet :=
  fun _ => ⟨rfl, rfl⟩

theorem quiet_fault : fault.Quiet := by
  intro c
  simp only [fault]
  split <;> exact ⟨rfl, rfl⟩

theorem Quiet.bind (hx : x.Quiet) (hf : ∀ a, (f a).Quiet) : (x >>= f).Quiet := by
  intro c
  have hfirst := hx c
  rcases run_bind_cases x f c with ⟨e, c', hrun, hbind⟩ | ⟨a, c', hrun, hbind⟩ <;>
    rw [hrun] at hfirst <;> rw [hbind]
  · exact hfirst
  · exact ⟨((hf a c').1).trans hfirst.1, ((hf a c').2).trans hfirst.2⟩

theorem quiet_query (read : Database → Except StoreError α) : (query read).Quiet :=
  quiet_fault.bind fun _ _ => ⟨rfl, rfl⟩

/-! ## Programs inside a transaction -/

/-- In a transaction nothing is published, and the transaction goes on. -/
def Local (x : Session α) : Prop := ∀ db c, c.Within db → (x.run c).2.Within db

theorem Quiet.local (h : x.Quiet) : x.Local := by
  intro db c hc
  obtain ⟨hpublished, hpending⟩ := h c
  exact ⟨hpublished.trans hc.published_eq, hpending ▸ hc.pending_isSome⟩

theorem Local.bind (hx : x.Local) (hf : ∀ a, (f a).Local) : (x >>= f).Local := by
  intro db c hc
  have hc' := hx db c hc
  rcases run_bind_cases x f c with ⟨e, c', hrun, hbind⟩ | ⟨a, c', hrun, hbind⟩ <;>
    rw [hrun] at hc' <;> rw [hbind]
  · exact hc'
  · exact hf a db c' hc'

theorem local_pure (a : α) : (pure a : Session α).Local := (quiet_answer (.ok a)).local

/-- Writing in a transaction changes its copy only. -/
theorem local_execute (write : Database → Except StoreError (Database × α)) :
    (execute write).Local := by
  apply quiet_fault.local.bind
  intro _ db c hc
  obtain ⟨published, pending, faults⟩ := c
  obtain ⟨rfl, hpending⟩ := hc
  cases pending with
  | none => cases hpending
  | some copy =>
    simp only [Connection.tables, Option.getD_some]
    split <;> exact ⟨rfl, rfl⟩

theorem local_writeChange (d : Descriptor) (id : RecordId) (items : ChangeItems) (now : Instant) :
    (writeChange d id items now).Local := by
  unfold writeChange
  split
  · exact local_pure ()
  · exact local_execute _

theorem local_checkReferences (registry : Registry) (r : Record)
    (refs : List (FieldSpec × RecordKind)) : (checkReferences registry r refs).Local := by
  have hone : ∀ f target, (checkReference registry r f target).Local := by
    intro f target
    unfold checkReference
    split
    · exact local_pure ()
    · apply (quiet_answer _).local.bind
      intro parent
      apply (quiet_answer _).local.bind
      intro d
      apply (quiet_query _).local.bind
      intro n
      split
      · exact local_pure ()
      · exact (quiet_answer _).local
  induction refs with
  | nil => exact local_pure ()
  | cons ref rest ih => exact (hone ref.1 ref.2).bind fun _ => ih

theorem local_deleteChildren (child : Descriptor) (actor : String) (now : Instant)
    (keys : List String) : (deleteChildren child actor now keys).Local := by
  induction keys with
  | nil => exact local_pure 0
  | cons key rest ih =>
    apply (quiet_answer _).local.bind
    intro id
    apply (local_execute _).bind
    intro _
    apply (local_writeChange child id _ now).bind
    intro _
    exact ih.bind fun n => local_pure (n + 1)

theorem local_releaseFields (registry : Registry) (kind : RecordKind) (id : RecordId)
    (actor : String) (now : Instant) (refs : List (RecordKind × FieldSpec)) :
    (releaseFields registry kind id actor now refs).Local := by
  have hone : ∀ childKind f, (releaseField registry kind id actor now childKind f).Local := by
    intro childKind f
    apply (quiet_answer _).local.bind
    intro child
    cases f.onDelete with
    | restrict =>
      apply (quiet_query _).local.bind
      intro n
      split
      · exact (quiet_answer _).local
      · exact local_pure 0
    | cascade =>
      apply (quiet_query _).local.bind
      intro keys
      exact local_deleteChildren child actor now keys
  induction refs with
  | nil => exact local_pure 0
  | cons ref rest ih =>
    apply (hone ref.1 ref.2).bind
    intro n
    exact ih.bind fun m => local_pure (n + m)

/-! ## Programs that commit at their end -/

/-- A program that fails in a transaction has published nothing. -/
def Guarded (x : Session α) : Prop :=
  ∀ db c, c.Within db → ∀ e, (x.run c).1 = .error e → (x.run c).2.published = db

theorem Local.guarded (h : x.Local) : x.Guarded :=
  fun db c hc _ _ => (h db c hc).published_eq

/-- What comes before the last statement is local. -/
theorem Local.bind_guarded (hx : x.Local) (hf : ∀ a, (f a).Guarded) : (x >>= f).Guarded := by
  intro db c hc e he
  have hc' := hx db c hc
  rcases run_bind_cases x f c with ⟨e, c', hrun, hbind⟩ | ⟨a, c', hrun, hbind⟩ <;>
    rw [hrun] at hc' <;> rw [hbind] at he ⊢
  · exact hc'.published_eq
  · exact hf a db c' hc' _ he

/-- Answering after the last statement does not fail. -/
theorem Guarded.bind_pure (hx : x.Guarded) (g : α → β) : (x >>= fun a => pure (g a)).Guarded := by
  intro db c hc e he
  have hpublished := hx db c hc
  rcases run_bind_cases x (fun a => pure (g a)) c with
    ⟨e, c', hrun, hbind⟩ | ⟨a, c', hrun, hbind⟩ <;>
    rw [hrun] at hpublished <;> rw [hbind] at he ⊢
  · exact hpublished _ rfl
  · cases he

/-- A commit that fails has not published the copy. -/
theorem guarded_commit : commit.Guarded := by
  apply quiet_fault.local.bind_guarded
  intro _ db c hc e he
  cases he

theorem guarded_ite {p : Prop} [Decidable p] {y : Session α} (hx : x.Guarded) (hy : y.Guarded) :
    (if p then x else y).Guarded := by
  split
  · exact hx
  · exact hy

/-! ## Operations -/

/-- Outside of a transaction a failure leaves the published tables as they are; in any case no
transaction is left running. -/
def AllOrNothing (x : Session α) : Prop :=
  ∀ c, c.pending = none → (x.run c).2.pending = none ∧
    ∀ e, (x.run c).1 = .error e → (x.run c).2.published = c.published

theorem Quiet.allOrNothing (h : x.Quiet) : x.AllOrNothing :=
  fun c hc => ⟨(h c).2.trans hc, fun _ _ => (h c).1⟩

theorem Quiet.bind_allOrNothing (hx : x.Quiet) (hf : ∀ a, (f a).AllOrNothing) :
    (x >>= f).AllOrNothing := by
  intro c hc
  obtain ⟨hpublished, hpending⟩ := hx c
  rcases run_bind_cases x f c with ⟨e, c', hrun, hbind⟩ | ⟨a, c', hrun, hbind⟩ <;>
    rw [hrun] at hpublished hpending <;> rw [hbind]
  · exact ⟨hpending.trans hc, fun _ _ => hpublished⟩
  · obtain ⟨hidle, hfails⟩ := hf a c' (hpending.trans hc)
    exact ⟨hidle, fun e he => (hfails e he).trans hpublished⟩

/-- Leaving a transaction drops what it has not published. -/
theorem Guarded.transaction (h : x.Guarded) : (transaction x).AllOrNothing := by
  intro c hc
  obtain ⟨hpublished, hpending⟩ := quiet_fault c
  simp only [Session.transaction, begin, run_bind]
  cases hfault : fault.run c with
  | mk outcome c' =>
    rw [hfault] at hpublished hpending
    cases outcome with
    | error _ => exact ⟨hpending.trans hc, fun _ _ => hpublished⟩
    | ok _ =>
      refine ⟨rfl, fun e he => ?_⟩
      exact (h c'.published { c' with pending := some c'.published } ⟨rfl, rfl⟩ e he).trans
        hpublished

theorem AllOrNothing.bind_pure (hx : x.AllOrNothing) (g : α → β) :
    (x >>= fun a => pure (g a)).AllOrNothing := by
  intro c hc
  obtain ⟨hidle, hfails⟩ := hx c hc
  rcases run_bind_cases x (fun a => pure (g a)) c with
    ⟨e, c', hrun, hbind⟩ | ⟨a, c', hrun, hbind⟩ <;>
    rw [hrun] at hidle hfails <;> rw [hbind]
  · exact ⟨hidle, fun _ _ => hfails e rfl⟩
  · exact ⟨hidle, nofun⟩

theorem allOrNothing_create (registry : Registry) (r : Record) (actor : String) (now : Instant) :
    (create registry r actor now).AllOrNothing := by
  apply (quiet_answer _).bind_allOrNothing
  intro d
  apply Guarded.transaction
  apply (local_checkReferences registry r _).bind_guarded
  intro _
  apply (local_execute _).bind_guarded
  intro _
  apply (local_writeChange d r.id _ now).bind_guarded
  intro _
  exact guarded_commit

theorem allOrNothing_replace (d : Descriptor) (existing r : Record) (actor : String)
    (now : Instant) : (replace d existing r actor now).AllOrNothing := by
  apply Guarded.transaction
  apply (local_execute _).bind_guarded
  intro count
  apply guarded_ite (quiet_answer _).local.guarded
  apply (local_writeChange d r.id _ now).bind_guarded
  intro _
  exact guarded_commit

theorem allOrNothing_update (registry : Registry) (r : Record) (actor : String) (now : Instant) :
    (update registry r actor now).AllOrNothing := by
  apply (quiet_query _).bind_allOrNothing
  intro existing
  apply (quiet_answer _).bind_allOrNothing
  intro d
  split
  · exact (quiet_answer _).allOrNothing
  · split
    · exact (quiet_answer _).allOrNothing
    · exact allOrNothing_replace d existing r actor now

theorem allOrNothing_delete (registry : Registry) (kind : RecordKind) (id : RecordId)
    (actor : String) (now : Instant) : (delete registry kind id actor now).AllOrNothing := by
  apply (quiet_answer _).bind_allOrNothing
  intro d
  apply Guarded.transaction
  apply (local_releaseFields registry kind id actor now _).bind_guarded
  intro removed
  apply (local_execute _).bind_guarded
  intro own
  apply guarded_ite (quiet_answer _).local.guarded
  apply (local_writeChange d id _ now).bind_guarded
  intro _
  exact guarded_commit.bind_pure fun _ => removed + 1

theorem allOrNothing_perform (registry : Registry) (op : Operation) :
    (perform registry op).AllOrNothing := by
  cases op with
  | create r actor now => exact allOrNothing_create registry r actor now
  | update r actor now => exact allOrNothing_update registry r actor now
  | delete kind id actor now =>
    exact (allOrNothing_delete registry kind id actor now).bind_pure fun _ => ()

/-! ## Statements that do not fail by themselves -/

/-- A connection in a transaction, with its copy. -/
def inside (published copy : Database) : Connection := ⟨published, some copy, []⟩

/-- A connection outside of a transaction. -/
def idle (db : Database) : Connection := ⟨db, none, []⟩

/-- In a transaction a program does to the copy what a function of tables does, and leaves the
connection as `done` says if it gives an answer. -/
def Computes (done : Database → Database → Connection) (x : Session α)
    (g : Database → Except StoreError (Database × α)) : Prop :=
  ∀ published db, match g db with
    | .ok (db', a) => x.run (inside published db) = (.ok a, done published db')
    | .error e => ∃ db', x.run (inside published db) = (.error e, inside published db')

theorem Computes.congr {done : Database → Database → Connection}
    {g h : Database → Except StoreError (Database × α)} (hx : Computes done x g)
    (heq : ∀ db, g db = h db) : Computes done x h := by
  intro published db
  rw [← heq db]
  exact hx published db

theorem Computes.bind {done : Database → Database → Connection}
    {g : Database → Except StoreError (Database × α)}
    {h : α → Database → Except StoreError (Database × β)}
    (hx : Computes inside x g) (hf : ∀ a, Computes done (f a) (h a)) :
    Computes done (x >>= f) fun db => g db >>= fun result => h result.2 result.1 := by
  intro published db
  have hfirst := hx published db
  simp only [run_bind]
  cases hg : g db with
  | error e =>
    rw [hg] at hfirst
    obtain ⟨db', hrun⟩ := hfirst
    exact ⟨db', by rw [hrun]⟩
  | ok result =>
    rw [hg] at hfirst
    simp only [hfirst]
    exact hf result.2 published result.1

theorem computes_answer (outcome : Except StoreError α) :
    Computes inside (answer outcome) fun db => outcome.map (db, ·) := by
  intro published db
  cases outcome with
  | error e => exact ⟨db, rfl⟩
  | ok a => rfl

theorem computes_query (read : Database → Except StoreError α) :
    Computes inside (query read) fun db => (read db).map (db, ·) := by
  intro published db
  have hrun : (query read).run (inside published db) = (read db, inside published db) := rfl
  dsimp only
  rw [hrun]
  cases read db with
  | error e => exact ⟨db, rfl⟩
  | ok a => rfl

theorem computes_execute (write : Database → Except StoreError (Database × α)) :
    Computes inside (execute write) write := by
  intro published db
  have hrun : (execute write).run (inside published db) =
      match write db with
      | .ok (db', a) => (.ok a, inside published db')
      | .error e => (.error e, inside published db) := rfl
  rw [hrun]
  cases write db with
  | error e => exact ⟨db, rfl⟩
  | ok result => rfl

theorem computes_commit : Computes (fun _ db => idle db) commit fun db => .ok (db, ()) :=
  fun _ _ => rfl

theorem computes_commit_pure (a : α) :
    Computes (fun _ db => idle db) (commit >>= fun _ => pure a) fun db => .ok (db, a) :=
  fun _ _ => rfl

theorem computes_fail (done : Database → Database → Connection) (e : StoreError) :
    Computes done (fail e : Session α) fun _ => .error e :=
  fun _ db => ⟨db, rfl⟩

theorem Computes.ite {done : Database → Database → Connection} {p : Prop} [Decidable p]
    {y : Session α} {g h : Database → Except StoreError (Database × α)}
    (hx : Computes done x g) (hy : Computes done y h) :
    Computes done (if p then x else y) fun db => if p then g db else h db := by
  by_cases hp : p
  · simpa only [if_pos hp] using hx
  · simpa only [if_neg hp] using hy

/-! ### Parts of a transaction -/

theorem computes_writeChange (d : Descriptor) (id : RecordId) (items : ChangeItems)
    (now : Instant) : Computes inside (writeChange d id items now)
      fun db => (Store.writeChange db d id items now).map (·, ()) := by
  unfold writeChange
  split
  · next hnone =>
    apply (computes_answer (.ok ())).congr
    intro db
    simp [Store.writeChange, hnone, Except.map]
  · exact computes_execute _

theorem computes_checkReference (registry : Registry) (r : Record) (f : FieldSpec)
    (target : RecordKind) : Computes inside (checkReference registry r f target)
      fun db => ((Store.mk registry db).checkReference r f target).map (db, ·) := by
  unfold checkReference
  cases hraw : r.getStr? f.name with
  | none =>
    apply (computes_answer (.ok ())).congr
    intro db
    simp [Store.checkReference, hraw]
  | some raw =>
    apply ((computes_answer _).bind fun parent => (computes_answer _).bind fun d =>
      (computes_query _).bind fun n => (computes_answer (.ok ())).ite (computes_fail _ _)).congr
    intro db
    simp only [Store.checkReference, hraw, bind, Except.bind]
    cases parseStoredId r.kind raw with
    | error e => rfl
    | ok parent =>
      have hdescriptor : (Store.mk registry db).descriptor target =
          (Store.mk registry .empty).descriptor target := rfl
      rw [hdescriptor]
      cases (Store.mk registry .empty).descriptor target with
      | error e => rfl
      | ok d =>
        simp only [Except.map, outcome]
        cases db.count d.table [(idField, parent.text)] with
        | error e => rfl
        | ok n =>
          dsimp only
          split <;> rfl

theorem computes_checkReferences (registry : Registry) (r : Record)
    (refs : List (FieldSpec × RecordKind)) : Computes inside (checkReferences registry r refs)
      fun db => ((Store.mk registry db).checkReferences r refs).map (db, ·) := by
  induction refs with
  | nil => exact computes_answer (.ok ())
  | cons ref rest ih =>
    apply ((computes_checkReference registry r ref.1 ref.2).bind fun _ => ih).congr
    intro db
    simp only [Store.checkReferences, bind, Except.bind]
    cases (Store.mk registry db).checkReference r ref.1 ref.2 <;> rfl

theorem computes_deleteChildren (child : Descriptor) (actor : String) (now : Instant)
    (keys : List String) : Computes inside (deleteChildren child actor now keys)
      fun db => Store.deleteChildren child actor now db keys := by
  induction keys with
  | nil => exact computes_answer (.ok 0)
  | cons key rest ih =>
    apply ((computes_answer _).bind fun id => (computes_execute _).bind fun _ =>
      (computes_writeChange child id _ now).bind fun _ => ih.bind fun n =>
        computes_answer (.ok (n + 1))).congr
    intro db
    simp only [Store.deleteChildren, bind, Except.bind]
    cases parseStoredId child.kind key with
    | error e => rfl
    | ok id =>
      simp only [Except.map]
      cases Store.deleteRow db child id with
      | error e => rfl
      | ok result =>
        dsimp only
        cases Store.writeChange result.1 child id ⟨actor, .delete, []⟩ now with
        | error e => rfl
        | ok db' =>
          cases Store.deleteChildren child actor now db' rest <;> rfl

theorem computes_releaseField (s : Store) (kind : RecordKind) (id : RecordId) (actor : String)
    (now : Instant) (childKind : RecordKind) (f : FieldSpec) :
    Computes inside (releaseField s.registry kind id actor now childKind f)
      fun db => s.releaseField kind id actor now db childKind f := by
  have hdescriptor : (Store.mk s.registry .empty).descriptor childKind =
      s.descriptor childKind := rfl
  unfold releaseField Store.releaseField descriptor
  rw [hdescriptor]
  cases f.onDelete with
  | restrict =>
    apply ((computes_answer _).bind fun child => (computes_query _).bind fun n =>
      (computes_fail _ _).ite (computes_answer (.ok 0))).congr
    intro db
    cases s.descriptor childKind with
    | error e => rfl
    | ok child =>
      simp only [bind, Except.bind, Except.map, outcome]
      cases db.count child.table [(f.name, id.text)] with
      | error e => rfl
      | ok n => rfl
  | cascade =>
    apply ((computes_answer _).bind fun child => (computes_query _).bind fun keys =>
      computes_deleteChildren child actor now keys).congr
    intro db
    cases s.descriptor childKind with
    | error e => rfl
    | ok child =>
      simp only [bind, Except.bind, Except.map]
      cases Store.referringIds db child f id <;> rfl

theorem computes_releaseFields (s : Store) (kind : RecordKind) (id : RecordId) (actor : String)
    (now : Instant) (refs : List (RecordKind × FieldSpec)) :
    Computes inside (releaseFields s.registry kind id actor now refs)
      fun db => s.releaseFields kind id actor now db refs := by
  induction refs with
  | nil => exact computes_answer (.ok 0)
  | cons ref rest ih =>
    apply ((computes_releaseField s kind id actor now ref.1 ref.2).bind fun n =>
      ih.bind fun m => computes_answer (.ok (n + m))).congr
    intro db
    simp only [Store.releaseFields, bind, Except.bind]
    cases s.releaseField kind id actor now db ref.1 ref.2 with
    | error e => rfl
    | ok result =>
      dsimp only
      cases s.releaseFields kind id actor now result.1 rest <;> rfl

/-! ### Operations -/

/-- Outside of a transaction a program does to the published tables what a function of tables
does, and nothing if that fails. -/
def Performs (x : Session α) (g : Database → Except StoreError (Database × α)) : Prop :=
  ∀ db, x.run (idle db) =
    match g db with
    | .ok (db', a) => (.ok a, idle db')
    | .error e => (.error e, idle db)

/-- What needs no statement comes first. -/
theorem Performs.answer_bind {outcome : Except StoreError α}
    {h : α → Database → Except StoreError (Database × β)} (hf : ∀ a, Performs (f a) (h a)) :
    Performs (answer outcome >>= f) fun db => outcome >>= fun a => h a db := by
  intro db
  cases outcome with
  | error e => rfl
  | ok a => exact hf a db

theorem Performs.bind_pure {g : Database → Except StoreError (Database × α)}
    (hx : Performs x g) (k : α → β) : Performs (x >>= fun a => pure (k a)) fun db =>
      (g db).map fun result => (result.1, k result.2) := by
  intro db
  rw [run_bind, hx db]
  dsimp only
  cases g db <;> rfl

theorem Performs.congr {g h : Database → Except StoreError (Database × α)} (hx : Performs x g)
    (heq : ∀ db, g db = h db) : Performs x h := by
  intro db
  rw [← heq db]
  exact hx db

/-- A transaction that ends with a commit publishes what its statements make of the copy. -/
theorem Computes.transaction {g : Database → Except StoreError (Database × α)}
    (h : Computes (fun _ db => idle db) x g) : Performs (transaction x) g := by
  intro db
  have hbody := h db db
  have hrun : (Session.transaction x).run (idle db) =
      ((x.run (inside db db)).1, rollback (x.run (inside db db)).2) := rfl
  rw [hrun]
  cases hg : g db with
  | error e =>
    rw [hg] at hbody
    obtain ⟨db', hfails⟩ := hbody
    rw [hfails]
    rfl
  | ok result =>
    rw [hg] at hbody
    dsimp only at hbody ⊢
    rw [hbody]
    rfl

theorem performs_create (registry : Registry) (r : Record) (actor : String) (now : Instant) :
    Performs (create registry r actor now) fun db =>
      ((Store.mk registry db).create r actor now).map fun s => (s.database, ()) := by
  apply (Performs.answer_bind fun d => Computes.transaction
    ((computes_checkReferences registry r d.referenceFields).bind fun _ =>
      (computes_execute _).bind fun _ => (computes_writeChange d r.id _ now).bind fun _ =>
        computes_commit)).congr
  intro db
  have hdescriptor : (Store.mk registry .empty).descriptor r.kind =
      (Store.mk registry db).descriptor r.kind := rfl
  rw [hdescriptor, Store.create]
  cases (Store.mk registry db).descriptor r.kind with
  | error e => rfl
  | ok d =>
    simp only [bind, Except.bind, Except.map]
    cases (Store.mk registry db).checkReferences r d.referenceFields with
    | error e => rfl
    | ok _ =>
      simp only [outcome]
      cases db.insert d.table (Store.columnsOf r d.fields) with
      | error e => rfl
      | ok db' =>
        dsimp only
        cases Store.writeChange db' d r.id ⟨actor, .create, r.toFields⟩ now <;> rfl

theorem performs_replace (d : Descriptor) (existing r : Record) (actor : String) (now : Instant) :
    Performs (replace d existing r actor now) fun db =>
      (outcome d (db.update d.table idField r.id.text
        (Store.columnsOf r (Store.updatedColumns d)))).bind fun result =>
          if result.2 == 0 then .error (.noRecord r.kind r.id)
          else (Store.writeChange result.1 d r.id ⟨actor, .update, diffFields existing r⟩ now).map
            (·, ()) := by
  apply (Computes.transaction ((computes_execute _).bind fun count =>
    (computes_fail _ _).ite ((computes_writeChange d r.id _ now).bind fun _ =>
      computes_commit))).congr
  intro db
  simp only [bind, Except.bind]
  cases outcome d (db.update d.table idField r.id.text
      (Store.columnsOf r (Store.updatedColumns d))) with
  | error e => rfl
  | ok result =>
    dsimp only
    cases Store.writeChange result.1 d r.id ⟨actor, .update, diffFields existing r⟩ now <;> rfl

theorem performs_update (registry : Registry) (r : Record) (actor : String) (now : Instant) :
    Performs (update registry r actor now) fun db =>
      ((Store.mk registry db).update r actor now).map fun s => (s.database, ()) := by
  intro db
  have hdescriptor : (Store.mk registry .empty).descriptor r.kind =
      (Store.mk registry db).descriptor r.kind := rfl
  have hread : (query fun db => (Store.mk registry db).get r.kind r.id).run (idle db) =
      ((Store.mk registry db).get r.kind r.id, idle db) := rfl
  dsimp only
  rw [update, run_bind, hread]
  unfold Store.update
  simp only [bind, Except.bind]
  cases (Store.mk registry db).get r.kind r.id with
  | error e => rfl
  | ok existing =>
    dsimp only
    rw [← hdescriptor]
    simp only [descriptor, andThen, run_answer]
    cases (Store.mk registry .empty).descriptor r.kind with
    | error e => rfl
    | ok d =>
      dsimp only
      split
      · rfl
      · cases Store.changedImmutable? d existing r with
        | some f => rfl
        | none =>
          dsimp only
          rw [performs_replace d existing r actor now db]
          simp only [outcome, Except.bind]
          cases db.update d.table idField r.id.text
              (Store.columnsOf r (Store.updatedColumns d)) with
          | error e => rfl
          | ok result =>
            by_cases hnone : (result.2 == 0) = true
            · simp only [hnone, if_true]
              rfl
            · simp only [hnone]
              cases Store.writeChange result.1 d r.id
                ⟨actor, .update, diffFields existing r⟩ now <;> rfl

theorem performs_delete (registry : Registry) (kind : RecordKind) (id : RecordId)
    (actor : String) (now : Instant) : Performs (delete registry kind id actor now) fun db =>
      ((Store.mk registry db).delete kind id actor now).map fun result =>
        (result.1.database, result.2) := by
  intro db
  have hdelete : Performs (delete registry kind id actor now) _ :=
    Performs.answer_bind fun d => Computes.transaction
      ((computes_releaseFields ⟨registry, db⟩ kind id actor now (registry.referencing kind)).bind
        fun removed => (computes_execute fun db => Store.deleteRow db d id).bind fun own =>
          (computes_fail _ _).ite ((computes_writeChange d id _ now).bind fun _ =>
            computes_commit_pure (removed + 1)))
  have hdescriptor : (Store.mk registry .empty).descriptor kind =
      (Store.mk registry db).descriptor kind := rfl
  rw [hdelete db, hdescriptor]
  dsimp only
  unfold Store.delete
  cases (Store.mk registry db).descriptor kind with
  | error e => rfl
  | ok d =>
    simp only [bind, Except.bind]
    cases (Store.mk registry db).releaseFields kind id actor now db (registry.referencing kind) with
    | error e => rfl
    | ok released =>
      dsimp only
      cases Store.deleteRow released.1 d id with
      | error e => rfl
      | ok result =>
        by_cases hnone : (result.2 == 0) = true
        · simp only [hnone, if_true]
          rfl
        · simp only [hnone]
          cases Store.writeChange result.1 d id ⟨actor, .delete, []⟩ now <;> rfl

theorem performs_perform (registry : Registry) (op : Operation) :
    Performs (perform registry op) fun db =>
      ((Store.mk registry db).perform op).map fun s => (s.database, ()) := by
  cases op with
  | create r actor now => exact performs_create registry r actor now
  | update r actor now => exact performs_update registry r actor now
  | delete kind id actor now =>
    apply ((performs_delete registry kind id actor now).bind_pure fun _ => ()).congr
    intro db
    simp only [Store.perform]
    cases (Store.mk registry db).delete kind id actor now <;> rfl

/-- Whatever the definitions and the tables are, and whichever statement fails: an operation that
fails leaves the published tables as they are, and no transaction running. Where no statement
fails by itself, it answers and publishes what the operation makes of the tables as a whole. -/
theorem perform_atomic (registry : Registry) (op : Operation) (c : Connection)
    (hidle : c.pending = none) :
    (∀ e c', (perform registry op).run c = (.error e, c') →
      c'.published = c.published ∧ c'.pending = none) ∧
    (c.faults = [] → (perform registry op).run c =
      match (Store.mk registry c.published).perform op with
      | .ok s => (.ok (), { c with published := s.database })
      | .error e => (.error e, c)) := by
  constructor
  · intro e c' hrun
    obtain ⟨hpending, hfails⟩ := allOrNothing_perform registry op c hidle
    rw [hrun] at hpending hfails
    exact ⟨hfails e rfl, hpending⟩
  · intro hfaults
    obtain ⟨published, pending, faults⟩ := c
    subst hidle hfaults
    have hrun := performs_perform registry op published
    rw [show (⟨published, none, []⟩ : Connection) = idle published from rfl, hrun]
    dsimp only [idle]
    cases (Store.mk registry published).perform op <;> rfl

/-! ## A template that is missing -/

/-- The shipped definitions of templates and SMS variants. -/
def pair : Registry := ⟨[.template, .sms]⟩

/-- Tables that hold a variant of a template which is not there. -/
def orphaned : Database :=
  ⟨[Descriptor.template.recordTable [], journalTable (journalName .template) [],
    Descriptor.sms.recordTable [(Record.sampleVariant .sample Uuid.sample.text).row],
    journalTable (journalName .sms) []]⟩

/-- Deleting the missing template takes its variant out of the copy and writes a change there
before it fails; what is published stays as it is. -/
theorem delete_orphaned :
    (((releaseFields pair .template (.uuid .sample) "ann" ⟨0, 0⟩ (pair.referencing .template)).run
      (inside orphaned orphaned)).2.pending.map fun copy =>
        ((copy.records .sms).length, (copy.journal .sms).length)) = some (0, 1) ∧
    ∃ c', (perform pair (.delete .template (.uuid .sample) "ann" ⟨0, 0⟩)).run (idle orphaned) =
      (.error (.noRecord .template (.uuid .sample)), c') ∧ c'.published = orphaned := by
  refine ⟨by decide +kernel, ?_⟩
  have hmissing : ((perform pair (.delete .template (.uuid .sample) "ann" ⟨0, 0⟩)).run
      (idle orphaned)).1 = .error (.noRecord .template (.uuid .sample)) := by
    decide +kernel
  obtain ⟨hfails, -⟩ := perform_atomic pair (.delete .template (.uuid .sample) "ann" ⟨0, 0⟩)
    (idle orphaned) rfl
  cases hrun : (perform pair (.delete .template (.uuid .sample) "ann" ⟨0, 0⟩)).run
      (idle orphaned) with
  | mk outcome c' =>
    rw [hrun] at hmissing
    obtain rfl : outcome = .error (.noRecord .template (.uuid .sample)) := hmissing
    exact ⟨c', rfl, (hfails _ c' hrun).1⟩

end Session
end Phrasebook
