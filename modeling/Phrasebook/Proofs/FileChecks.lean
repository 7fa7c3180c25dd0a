import Mathlib.Algebra.GroupWithZero.Nat
import Mathlib.Data.List.Forall2
import Phrasebook.Command.Check
import Phrasebook.Proofs.Accepted
import Phrasebook.Proofs.Actions
import Phrasebook.Proofs.Reports

/-!
# Checks of files

A run over files counts what each file came to and prints the counts. Every file that is checked
passes or fails, the others are skipped, and the errors are those of the files that fail: one for
a file that cannot be read, and for any other as many as it has violations. A run that keeps going
covers all files, any other ends with the first that fails; which of both it is, like the
summary, changes neither the counts of the files covered nor whether the run fails.

## Main definitions

* `Tally.Counts`: a tally counts outcomes
* `UpToFailure`: a list through its first item that fails
* `Refused`: a text describes no record of a kind, with a number of errors
* `Faulty`: a file that has a kind is unreadable or describes no record, with a number of errors
* `Command.Counts`: a tally counts files
* `Command.Reports`: what a run prints and whether it fails
-/
namespace Phrasebook

/-! ## Tallies -/

/-- A tally counts outcomes. -/
structure Tally.Counts (t : Tally) (outcomes : List Outcome) : Prop where
  checked : t.checked = t.passed + t.failed
  files : t.checked + t.skipped = outcomes.length
  skipped : t.skipped = outcomes.count .skipped
  failed : t.failed = outcomes.countP Outcome.isFailure
  /-- Only files that fail have errors. -/
  errors : t.errors = ((outcomes.filter Outcome.isFailure).map Outcome.errors).sum

namespace Tally

variable {t : Tally} {outcomes : List Outcome}

theorem add_of_failure {o : Outcome} (h : o.isFailure = true) : t.add o =
    { t with checked := t.checked + 1, failed := t.failed + 1, errors := t.errors + o.errors } := by
  cases o with
  | skipped => cases h
  | passed => cases h
  | unreadable cause => rfl
  | failed cause => rfl

/-- Counting one more outcome counts it. -/
theorem Counts.add (h : t.Counts outcomes) (o : Outcome) : (t.add o).Counts (outcomes ++ [o]) := by
  obtain ⟨hchecked, hfiles, hskipped, hfailed, herrors⟩ := h
  cases hfails : o.isFailure with
  | true =>
    have hne : o ≠ .skipped := by rintro rfl; cases hfails
    rw [add_of_failure hfails]
    constructor <;> simp [hfails, hne] <;> omega
  | false =>
    cases o with
    | skipped => constructor <;> simp [Tally.add, hfails] <;> omega
    | passed => constructor <;> simp [Tally.add, hfails] <;> omega
    | unreadable cause => cases hfails
    | failed cause => cases hfails

theorem counts_of (outcomes : List Outcome) : (Tally.of outcomes).Counts outcomes := by
  have hfold : ∀ (rest seen : List Outcome) (t : Tally), t.Counts seen →
      (rest.foldl Tally.add t).Counts (seen ++ rest) := by
    intro rest
    induction rest with
    | nil => simp
    | cons o rest ih =>
      intro seen t h
      rw [List.foldl_cons, ← List.singleton_append, ← List.append_assoc]
      exact ih _ _ (h.add o)
  exact hfold outcomes [] {} ⟨rfl, rfl, rfl, rfl, rfl⟩

end Tally

/-! ## Runs up to a failure -/

/-- A list through its first item that fails, or all of it if none does. -/
inductive UpToFailure {α : Type} (Fails : α → Prop) : List α → List α → Prop
  | all {l : List α} (h : ∀ a ∈ l, ¬ Fails a) : UpToFailure Fails l l
  | failing {before after : List α} {a : α} (h : ∀ b ∈ before, ¬ Fails b) (fails : Fails a) :
    UpToFailure Fails (before ++ a :: after) (before ++ [a])

section UpToFailure

variable {α β : Type} {Fails : α → Prop} {l through : List α}

theorem UpToFailure.cons {b : α} (hb : ¬ Fails b) (h : UpToFailure Fails l through) :
    UpToFailure Fails (b :: l) (b :: through) := by
  cases h with
  | all h => exact .all (List.forall_mem_cons.mpr ⟨hb, h⟩)
  | failing h fails => exact .failing (List.forall_mem_cons.mpr ⟨hb, h⟩) fails

/-- Something fails in all of the list if it does in what is covered. -/
theorem UpToFailure.exists_iff (h : UpToFailure Fails l through) :
    (∃ a ∈ through, Fails a) ↔ ∃ a ∈ l, Fails a := by
  cases h with
  | all _ => rfl
  | failing _ fails =>
    exact ⟨fun _ => ⟨_, by simp, fails⟩, fun _ => ⟨_, by simp, fails⟩⟩

/-- The items through the first that fails are a list up to its first failure, and no others are. -/
theorem upToFailure_iff {fails : α → Bool} :
    UpToFailure (fun a => fails a = true) l through ↔ through = throughFailure fails l := by
  constructor
  · rintro (hnone | @⟨before, after, a, hnone, ha⟩)
    · induction l with
      | nil => rfl
      | cons b rest ih =>
        obtain ⟨hb, hrest⟩ := List.forall_mem_cons.mp hnone
        rw [throughFailure, if_neg hb, ← ih hrest]
    · induction before with
      | nil => simp [throughFailure, ha]
      | cons b rest ih =>
        obtain ⟨hb, hrest⟩ := List.forall_mem_cons.mp hnone
        rw [List.cons_append, List.cons_append, throughFailure, if_neg hb, ← ih hrest]
  · rintro rfl
    induction l with
    | nil => exact .all nofun
    | cons a rest ih =>
      rw [throughFailure]
      split
      · next ha => exact @UpToFailure.failing _ _ [] rest a nofun ha
      · next ha => exact ih.cons ha

theorem throughFailure_map (g : α → β) (fails : β → Bool) (l : List α) :
    throughFailure fails (l.map g) = (throughFailure (fun a => fails (g a)) l).map g := by
  induction l with
  | nil => rfl
  | cons a rest ih =>
    simp only [List.map_cons, throughFailure, ih]
    split <;> rfl

end UpToFailure

/-! ## Files -/

/-- A text describes no record of a kind. That it is no YAML or no mapping is one error, and a
candidate that is refused has as many errors as violations. -/
inductive Refused (kind : RecordKind) (content : String) (fresh : Uuid) (now : Instant) : Nat → Prop
  | notYaml {problem : Yaml.Problem} (h : Yaml.read content = .error problem) :
    Refused kind content fresh now 1
  | notAMapping {value : Json} (yaml : Yaml.read content = .ok value)
    (h : ∀ candidate, value ≠ .obj candidate) : Refused kind content fresh now 1
  | invalid {candidate : Fields} {violations : List Violation}
    (yaml : Yaml.read content = .ok (.obj candidate))
    (h : Registry.builtin.validate kind (.obj candidate) fresh now =
      .error (.fields kind violations)) : Refused kind content fresh now violations.length

/-- The kind of a file: the one that is forced, or else the one that its name declares. -/
def kindOf? (kind? : Option RecordKind) (file : Path) : Option RecordKind :=
  kind?.or (RecordKind.ofFilename? (file.fileName?.getD ""))

/-- A file that has a kind is unreadable, which is one error, or describes no record of it. -/
inductive Faulty (tree : FileTree) (context : Command.Context) (kind? : Option RecordKind)
    (file : Path) : Nat → Prop
  | unreadable {kind : RecordKind} {cause : FileError} (kind_eq : kindOf? kind? file = some kind)
    (h : tree.read context.working file = .error cause) : Faulty tree context kind? file 1
  | refused {kind : RecordKind} {content : String} {n : Nat}
    (kind_eq : kindOf? kind? file = some kind)
    (read : tree.read context.working file = .ok content)
    (h : Refused kind content context.fresh context.now n) : Faulty tree context kind? file n

/-- A candidate that is refused has violations. -/
theorem Registry.violations_ne_nil {kind : RecordKind} {candidate : Fields} {fresh : Uuid}
    {now : Instant} {violations : List Violation}
    (h : builtin.validate kind (.obj candidate) fresh now = .error (.fields kind violations)) :
    violations ≠ [] := by
  obtain ⟨-, hform⟩ | ⟨_, -, hne, hrefused⟩ := validate_eq_error_iff.mp h
  · cases hform
  · cases hrefused
    exact Violation.report_eq_nil_iff.not.mpr hne

/-- A refusal has a finding for each violation. -/
theorem DocumentError.count_ofValidation (filename content : String) (kind : RecordKind)
    {violations : List Violation} (h : violations ≠ []) :
    (ofValidation filename content (.fields kind violations)).count = violations.length := by
  simp [ofValidation, count, ValidationError.violations, h]

/-- A document is refused with the errors that its text has. -/
theorem refused_iff {kind : RecordKind} (filename : String) {content : String} {fresh : Uuid}
    {now : Instant} {n : Nat} : Refused kind content fresh now n ↔
      ∃ cause, Registry.builtin.validateDocument kind filename content fresh now = .error cause ∧
        cause.count = n := by
  simp only [Registry.validateDocument, readPatch, bind_eq_error_iff, mapError_eq_error_iff,
    mapError_eq_ok_iff]
  constructor
  · rintro (hyaml | ⟨hyaml, hform⟩ | ⟨hyaml, hinvalid⟩)
    · exact ⟨_, .inl ⟨_, hyaml, rfl⟩, rfl⟩
    · have hrefused : Registry.builtin.validate kind _ fresh now = .error (.notAMapping kind) :=
        Registry.validate_eq_error_iff.mpr (.inl ⟨hform, rfl⟩)
      exact ⟨_, .inr ⟨_, hyaml, _, hrefused, rfl⟩, rfl⟩
    · exact ⟨_, .inr ⟨_, hyaml, _, hinvalid, rfl⟩,
        DocumentError.count_ofValidation _ _ _ (Registry.violations_ne_nil hinvalid)⟩
  · rintro ⟨_, ⟨problem, hyaml, rfl⟩ | ⟨value, hyaml, e, hrefused, rfl⟩, rfl⟩
    · exact .notYaml hyaml
    · obtain ⟨hform, rfl⟩ | ⟨candidate, rfl, -, rfl⟩ := Registry.validate_eq_error_iff.mp hrefused
      · exact .notAMapping hyaml hform
      · rw [DocumentError.count_ofValidation _ _ _ (Registry.violations_ne_nil hrefused)]
        exact .invalid hyaml hrefused

namespace Command

variable {tree : FileTree} {context : Context} {kind? : Option RecordKind} {file : Path}
  {kind : RecordKind}

/-- What validating a file comes to for the command. -/
def outcomeOf (context : Context) (tree : FileTree) (kind? : Option RecordKind) (file : Path) :
    Outcome :=
  tree.outcome context.working .builtin kind? context.fresh context.now file

theorem outcomeOf_of_none (hkind : kindOf? kind? file = none) :
    outcomeOf context tree kind? file = .skipped := by
  rw [kindOf?] at hkind
  simp [outcomeOf, FileTree.outcome, hkind]

theorem outcomeOf_of_error {cause : FileError} (hkind : kindOf? kind? file = some kind)
    (hread : tree.read context.working file = .error cause) :
    outcomeOf context tree kind? file = .unreadable cause := by
  rw [kindOf?] at hkind
  simp [outcomeOf, FileTree.outcome, hkind, hread]

theorem outcomeOf_of_valid {content : String} {r : Record} (hkind : kindOf? kind? file = some kind)
    (hread : tree.read context.working file = .ok content)
    (hvalid : Registry.builtin.validateDocument kind (file.fileName?.getD "") content
      context.fresh context.now = .ok r) : outcomeOf context tree kind? file = .passed := by
  rw [kindOf?] at hkind
  simp [outcomeOf, FileTree.outcome, hkind, hread, hvalid]

theorem outcomeOf_of_refused {content : String} {cause : DocumentError}
    (hkind : kindOf? kind? file = some kind)
    (hread : tree.read context.working file = .ok content)
    (hrefused : Registry.builtin.validateDocument kind (file.fileName?.getD "") content
      context.fresh context.now = .error cause) :
    outcomeOf context tree kind? file = .failed cause := by
  rw [kindOf?] at hkind
  simp [outcomeOf, FileTree.outcome, hkind, hread, hrefused]

/-- A file without a kind is skipped, and no other. -/
theorem outcomeOf_eq_skipped_iff :
    outcomeOf context tree kind? file = .skipped ↔ kindOf? kind? file = none := by
  refine ⟨fun h => ?_, outcomeOf_of_none⟩
  unfold outcomeOf FileTree.outcome at h
  dsimp only at h
  split at h
  · assumption
  · split at h
    · cases h
    · split at h <;> cases h

/-- A file fails with the errors it counts for exactly if it is faulty with them. -/
theorem faulty_iff {n : Nat} : Faulty tree context kind? file n ↔
    (outcomeOf context tree kind? file).isFailure = true ∧
      (outcomeOf context tree kind? file).errors = n := by
  constructor
  · rintro (⟨hkind, hread⟩ | ⟨hkind, hread, hrefused⟩)
    · rw [outcomeOf_of_error hkind hread]
      exact ⟨rfl, rfl⟩
    · obtain ⟨cause, hcause, rfl⟩ := (refused_iff (file.fileName?.getD "")).mp hrefused
      rw [outcomeOf_of_refused hkind hread hcause]
      exact ⟨rfl, rfl⟩
  · rintro ⟨hfails, rfl⟩
    cases hkind : kindOf? kind? file with
    | none =>
      rw [outcomeOf_of_none hkind] at hfails
      cases hfails
    | some kind =>
      cases hread : tree.read context.working file with
      | error cause =>
        rw [outcomeOf_of_error hkind hread]
        exact .unreadable hkind hread
      | ok content =>
        cases hvalid : Registry.builtin.validateDocument kind (file.fileName?.getD "") content
            context.fresh context.now with
        | ok r =>
          rw [outcomeOf_of_valid hkind hread hvalid] at hfails
          cases hfails
        | error cause =>
          rw [outcomeOf_of_refused hkind hread hvalid]
          exact .refused hkind hread ((refused_iff _).mpr ⟨cause, hvalid, rfl⟩)

/-- A file fails exactly if it is faulty. -/
theorem exists_faulty_iff : (∃ n, Faulty tree context kind? file n) ↔
    (outcomeOf context tree kind? file).isFailure = true := by
  simp [faulty_iff]

instance : Decidable (∃ n, Faulty tree context kind? file n) :=
  decidable_of_iff _ exists_faulty_iff.symm

end Command

/-! ## The command -/

namespace Command

variable {request : ValidateRequest} {context : Context} {w : World} {paths : List Path}

/-- Lines as they are printed. -/
def printedLines (lines : List String) : String := String.join (lines.map (· ++ "\n"))

theorem printedLines_append (lines more : List String) :
    printedLines (lines ++ more) = printedLines lines ++ printedLines more := by
  rw [printedLines, List.map_append, String.join_append]
  rfl

theorem printLines_run (lines : List String) (context : Context) (w : World) :
    printLines lines context w = (.ok (), { w with printed := w.printed ++ printedLines lines }) := by
  induction lines generalizing w with
  | nil => simp [printLines, printedLines]; rfl
  | cons line rest ih =>
    show (printLine line >>= fun _ => printLines rest) context w = _
    rw [bind_run, show printLine line context w =
      (.ok (), { w with printed := w.printed ++ (line ++ "\n") }) from rfl]
    simp only [ih, printedLines, List.map_cons, String.join_cons, String.append_assoc]

theorem printLines_bind_run {α : Type} (lines : List String) (f : Unit → Action α)
    (context : Context) (w : World) : (printLines lines >>= f) context w =
      f () context { w with printed := w.printed ++ printedLines lines } := by
  rw [bind_run, printLines_run]

theorem readOnly_filesToValidate (request : ValidateRequest) :
    (filesToValidate request).ReadOnly := by
  refine readOnly_read.bind fun context => readOnly_files.bind fun tree => ?_
  split
  · exact (readOnly_orFail _ _).bind fun project => readOnly_pure _
  · exact readOnly_pure _

/-- The files that a run covers. -/
def coveredFiles (request : ValidateRequest) (context : Context) (tree : FileTree)
    (paths : List Path) : List Path :=
  if request.keepGoing then paths
  else throughFailure (fun file => (outcomeOf context tree request.kind? file).isFailure) paths

/-- The line in front of what a run says about files. -/
def headingLines (paths : List Path) : List String :=
  [s!"→ Validating {paths.length} file(s)...", ""]

/-- What a run says about files. -/
def fileLines (request : ValidateRequest) (context : Context) (tree : FileTree)
    (covered : List Path) : List String :=
  if request.summary then []
  else covered.flatMap fun file => outcomeLines file (outcomeOf context tree request.kind? file)

/-- The lines on the counts of a run. That files are skipped is said if any are. -/
def countLines (t : Tally) : List String :=
  [s!"  Files checked:  {t.checked}", s!"  Files passed:   {t.passed}",
    s!"  Files failed:   {t.failed}", s!"  Total errors:   {t.errors}"] ++
  if t.skipped = 0 then [] else [s!"  Files skipped:  {t.skipped}"]

/-- What a run says at its end: the counts, and that all is well if it is. -/
def closingLines (t : Tally) : List String :=
  ["", ruleLine, "Validation Summary", ruleLine] ++ countLines t ++ [""] ++
  if t.failed = 0 then ["✓ All files passed validation!"] else []

/-- Whether a run fails for its counts. -/
def verdict (t : Tally) : Except Diagnostic Unit :=
  if t.failed = 0 then .ok ()
  else .error { message :=
    if t.failed = 1 then "Validation failed: 1 file has errors"
    else s!"Validation failed: {t.failed} files have errors" }

/-- A run that is asked to validate files covers some of them with the counts `t`: it prints
what they came to and the counts, and fails if any of them does. -/
structure Reports (request : ValidateRequest) (context : Context) (w : World)
    (paths covered : List Path) (t : Tally) : Prop where
  world : (validateFiles request context w).2 = { w with
    printed := w.printed ++ printedLines (headingLines paths) ++
      printedLines (fileLines request context w.files covered) ++ printedLines (closingLines t) }
  result : (validateFiles request context w).1 = verdict t

/-- A tally counts files: the ones without a kind are skipped, the others are checked, and of
these the faulty ones fail, with their errors. -/
structure Counts (tree : FileTree) (context : Context) (kind? : Option RecordKind)
    (covered : List Path) (t : Tally) : Prop where
  checked : t.checked = t.passed + t.failed
  files : t.checked + t.skipped = covered.length
  skipped : t.skipped = covered.countP fun file => (kindOf? kind? file).isNone
  errors : ∃ errors, List.Forall₂ (Faulty tree context kind?)
      (covered.filter fun file => ∃ n, Faulty tree context kind? file n) errors ∧
    t.failed = errors.length ∧ t.errors = errors.sum

/-- What a run does at its end. -/
def closing (t : Tally) : Action Unit := do
  printLines (tallyLines t)
  if t.failed > 0 then fail (plainDiagnostic (failureMessage t.failed))
  else printLine "✓ All files passed validation!"

theorem tallyLines_eq (t : Tally) : tallyLines t =
    ["", ruleLine, "Validation Summary", ruleLine] ++ countLines t ++ [""] := by
  by_cases hskipped : t.skipped = 0
  · simp [tallyLines, countLines, hskipped]
  · simp [tallyLines, countLines, hskipped, Nat.pos_of_ne_zero]

theorem closing_run (t : Tally) (context : Context) (w : World) : closing t context w =
    (verdict t, { w with printed := w.printed ++ printedLines (closingLines t) }) := by
  rw [closing, printLines_bind_run, tallyLines_eq, verdict, closingLines]
  by_cases hfailed : t.failed = 0
  · simp only [hfailed, if_true, gt_iff_lt, Nat.lt_irrefl, if_false]
    rw [printedLines_append _ ["✓ All files passed validation!"], ← String.append_assoc]
    exact printLines_run ["✓ All files passed validation!"] context _
  · simp only [gt_iff_lt, Nat.pos_of_ne_zero hfailed, if_true, if_neg hfailed, List.append_nil,
      failureMessage, beq_iff_eq]
    rfl

theorem reported_eq (request : ValidateRequest) (context : Context) (tree : FileTree)
    (paths : List Path) :
    reported request.keepGoing
        (paths.map fun file => (file, outcomeOf context tree request.kind? file)) =
      (coveredFiles request context tree paths).map fun file =>
        (file, outcomeOf context tree request.kind? file) := by
  unfold reported coveredFiles
  split
  · rfl
  · exact throughFailure_map _ _ _

/-- The steps of a run over files. -/
theorem validateFiles_run (h : (filesToValidate request context w).1 = .ok paths) :
    validateFiles request context w = (printLines (headingLines paths) >>= fun _ =>
      let covered := coveredFiles request context w.files paths
      let t := Tally.of (covered.map (outcomeOf context w.files request.kind?))
      if (!request.summary) = true then
        printLines (covered.flatMap fun file =>
          outcomeLines file (outcomeOf context w.files request.kind? file)) >>= fun _ => closing t
      else closing t) context w := by
  have hfiles : filesToValidate request context w = (.ok paths, w) :=
    Prod.ext h (readOnly_filesToValidate request context w)
  have hresults := reported_eq request context w.files paths
  simp only [outcomeOf] at hresults
  rw [validateFiles, read_bind_run, bind_run]
  simp only [show files context w = (.ok w.files, w) from rfl]
  rw [bind_run]
  simp only [hfiles, hresults, List.map_map, List.flatMap_map]
  rfl

/-- A run covers files, and counts what they came to. -/
theorem reports_covered (h : (filesToValidate request context w).1 = .ok paths) :
    Reports request context w paths (coveredFiles request context w.files paths)
      (Tally.of ((coveredFiles request context w.files paths).map
        (outcomeOf context w.files request.kind?))) := by
  have hrun : validateFiles request context w =
      closing (Tally.of ((coveredFiles request context w.files paths).map
        (outcomeOf context w.files request.kind?))) context { w with
          printed := w.printed ++ printedLines (headingLines paths) ++
            printedLines (fileLines request context w.files
              (coveredFiles request context w.files paths)) } := by
    rw [validateFiles_run h, printLines_bind_run, fileLines]
    cases request.summary with
    | true => simp [show printedLines [] = "" from rfl]
    | false => exact printLines_bind_run _ _ context _
  rw [closing_run] at hrun
  exact ⟨congrArg Prod.snd hrun, congrArg Prod.fst hrun⟩

/-- The tally of what files came to counts the files. -/
theorem counts_covered (context : Context) (tree : FileTree) (kind? : Option RecordKind)
    (covered : List Path) :
    Counts tree context kind? covered (Tally.of (covered.map (outcomeOf context tree kind?))) := by
  have hcounts := Tally.counts_of (covered.map (outcomeOf context tree kind?))
  have hfilter : (covered.map (outcomeOf context tree kind?)).filter Outcome.isFailure =
      (covered.filter fun file => ∃ n, Faulty tree context kind? file n).map
        (outcomeOf context tree kind?) := by
    simp only [exists_faulty_iff, Bool.decide_eq_true]
    exact List.filter_map
  refine ⟨hcounts.checked, by simpa using hcounts.files, ?_,
    (covered.filter fun file => ∃ n, Faulty tree context kind? file n).map fun file =>
      (outcomeOf context tree kind? file).errors, ?_, ?_, ?_⟩
  · rw [hcounts.skipped, List.count, List.countP_map]
    refine List.countP_congr fun file _ => ?_
    simp [outcomeOf_eq_skipped_iff]
  · rw [List.forall₂_map_right_iff, List.forall₂_same]
    intro file hfile
    obtain ⟨n, hn⟩ := of_decide_eq_true (List.mem_filter.mp hfile).2
    exact (faulty_iff.mp hn).2 ▸ hn
  · rw [hcounts.failed, List.countP_eq_length_filter, hfilter, List.length_map, List.length_map]
  · rw [hcounts.errors, hfilter, List.map_map]
    rfl

/-- Files have one tally. -/
theorem Counts.eq {tree : FileTree} {kind? : Option RecordKind} {covered : List Path}
    {t t' : Tally} (h : Counts tree context kind? covered t)
    (h' : Counts tree context kind? covered t') : t = t' := by
  obtain ⟨hchecked, hfiles, hskipped, errors, hfaulty, hfailed, herrors⟩ := h
  obtain ⟨hchecked', hfiles', hskipped', errors', hfaulty', hfailed', herrors'⟩ := h'
  have hunique : Relator.RightUnique (Faulty tree context kind?) := by
    intro file n m hn hm
    exact (faulty_iff.mp hn).2.symm.trans (faulty_iff.mp hm).2
  obtain rfl := List.right_unique_forall₂' hunique hfaulty hfaulty'
  obtain ⟨checked, passed, failed, skipped, total⟩ := t
  obtain ⟨checked', passed', failed', skipped', total'⟩ := t'
  simp only [Tally.mk.injEq] at *
  omega

/-- A run counts failures if some file it covers is faulty. -/
theorem Counts.failed_eq_zero_iff {tree : FileTree} {kind? : Option RecordKind}
    {covered : List Path} {t : Tally} (h : Counts tree context kind? covered t) :
    t.failed = 0 ↔ ∀ file ∈ covered, ¬ ∃ n, Faulty tree context kind? file n := by
  obtain ⟨errors, hfaulty, hfailed, -⟩ := h.errors
  rw [hfailed, ← hfaulty.length_eq, List.length_eq_zero_iff, List.filter_eq_nil_iff]
  simp only [decide_eq_true_eq]

/-- A run covers all files if it keeps going, and else those through the first faulty one. -/
theorem coveredFiles_cases (request : ValidateRequest) (context : Context) (tree : FileTree)
    (paths : List Path) :
    (request.keepGoing = true → coveredFiles request context tree paths = paths) ∧
    (request.keepGoing = false → UpToFailure (fun file => ∃ n,
      Faulty tree context request.kind? file n) paths (coveredFiles request context tree paths)) := by
  refine ⟨fun hgoing => if_pos hgoing, fun hstops => ?_⟩
  simp only [exists_faulty_iff, coveredFiles, hstops, Bool.false_eq_true, if_false]
  exact upToFailure_iff.mpr rfl

/-- A run fails exactly if some file that has a kind is unreadable or describes no record. -/
theorem fails_iff (h : (filesToValidate request context w).1 = .ok paths) :
    (∃ d, (validateFiles request context w).1 = .error d) ↔
      ∃ file ∈ paths, ∃ n, Faulty w.files context request.kind? file n := by
  have hcounts := counts_covered context w.files request.kind?
    (coveredFiles request context w.files paths)
  have hcovered : (∃ file ∈ coveredFiles request context w.files paths,
      ∃ n, Faulty w.files context request.kind? file n) ↔
        ∃ file ∈ paths, ∃ n, Faulty w.files context request.kind? file n := by
    obtain ⟨hall, hthrough⟩ := coveredFiles_cases request context w.files paths
    cases hgoing : request.keepGoing with
    | true => rw [hall hgoing]
    | false => exact (hthrough hgoing).exists_iff
  rw [(reports_covered h).result, verdict, ← hcovered]
  split
  · next hzero => simpa using hcounts.failed_eq_zero_iff.mp hzero
  · next hpos => simpa using hcounts.failed_eq_zero_iff.not.mp hpos

/-- Which files a run validates depends on the paths and the kind of the request only. -/
theorem filesToValidate_congr {other : ValidateRequest} (hpaths : other.paths = request.paths)
    (hkind : other.kind? = request.kind?) : filesToValidate other = filesToValidate request := by
  simp only [filesToValidate, hpaths, hkind]

/-- A run checks the files it covers that have a kind and skips the others. What it checks passes
or fails, and its errors are those of the files that fail. It covers all files if it keeps going,
and else those through the first that fails, of which it reports what a run that keeps going
reports of these alone. It fails exactly if some file that has a kind is unreadable or describes no
record, so whether it does depends on the files and the kind only. -/
theorem validateFiles_counts (h : (filesToValidate request context w).1 = .ok paths) :
    ∃ covered t, Reports request context w paths covered t ∧
      Counts w.files context request.kind? covered t ∧
      (request.keepGoing = true → covered = paths) ∧
      (request.keepGoing = false → UpToFailure (fun file => ∃ n,
        Faulty w.files context request.kind? file n) paths covered) ∧
      (∀ other : ValidateRequest, other.kind? = request.kind? → other.keepGoing = true →
        (filesToValidate other context w).1 = .ok covered →
          Reports other context w covered covered t) ∧
      ((∃ d, (validateFiles request context w).1 = .error d) ↔
        ∃ file ∈ paths, ∃ n, Faulty w.files context request.kind? file n) ∧
      ∀ other : ValidateRequest, other.paths = request.paths → other.kind? = request.kind? →
        ((∃ d, (validateFiles other context w).1 = .error d) ↔
          ∃ d, (validateFiles request context w).1 = .error d) := by
  obtain ⟨hall, hthrough⟩ := coveredFiles_cases request context w.files paths
  refine ⟨_, _, reports_covered h, counts_covered context w.files request.kind? _, hall, hthrough,
    fun other hkind hgoing hother => ?_, fails_iff h, fun other hpaths hkind => ?_⟩
  · have hagain := reports_covered hother
    rwa [(coveredFiles_cases other context w.files _).1 hgoing, hkind] at hagain
  · have hother : (filesToValidate other context w).1 = .ok paths :=
      filesToValidate_congr hpaths hkind ▸ h
    rw [fails_iff hother, hkind, fails_iff h]

/-- Files of which the first has no kind, the second describes no record, the third is missing and
the last is valid. -/
def sampleFiles : List Path :=
  [⟨"notes.txt"⟩, ⟨"bad.template.yaml"⟩, ⟨"gone.sms.yaml"⟩, ⟨"good.template.yaml"⟩]

/-- A run that stops covers two files and counts the errors of the second, as does a run that keeps
going over these two; one that keeps going over all four counts those of the third too. -/
theorem validateFiles_sampleFiles :
    let context : Context := ⟨[], ["work"], "", ⟨0, 0⟩, .sample⟩
    let w : World := ⟨⟨[(["work"], .folder), (["work", "notes.txt"], .file (.text "")),
      (["work", "bad.template.yaml"], .file (.text "name: two words\nsize: 1\n")),
      (["work", "good.template.yaml"], .file (.text "name: welcome\n"))]⟩, ""⟩
    let stopping : ValidateRequest := ⟨sampleFiles, none, false, false⟩
    let again : ValidateRequest := ⟨sampleFiles.take 2, none, true, true⟩
    let going : ValidateRequest := ⟨sampleFiles, none, true, true⟩
    (filesToValidate stopping context w).1 = .ok sampleFiles ∧
      Reports stopping context w sampleFiles (sampleFiles.take 2)
        { checked := 1, passed := 0, failed := 1, skipped := 1, errors := 2 } ∧
      Reports again context w (sampleFiles.take 2) (sampleFiles.take 2)
        { checked := 1, passed := 0, failed := 1, skipped := 1, errors := 2 } ∧
      Reports going context w sampleFiles sampleFiles
        { checked := 3, passed := 1, failed := 2, skipped := 1, errors := 3 } ∧
      (∃ d, (validateFiles stopping context w).1 = .error d) ∧
      ∃ d, (validateFiles going context w).1 = .error d := by
  intro context w stopping again going
  have hstopping : (filesToValidate stopping context w).1 = .ok sampleFiles := by rfl
  have hagain : (filesToValidate again context w).1 = .ok (sampleFiles.take 2) := by rfl
  have hgoing : (filesToValidate going context w).1 = .ok sampleFiles := by rfl
  have hsecond : Faulty w.files context none ⟨"bad.template.yaml"⟩ 2 :=
    faulty_iff.mpr (by decide +kernel)
  have hthird : Faulty w.files context none ⟨"gone.sms.yaml"⟩ 1 :=
    faulty_iff.mpr (by decide +kernel)
  have hfew : Counts w.files context none (sampleFiles.take 2)
      { checked := 1, passed := 0, failed := 1, skipped := 1, errors := 2 } := by
    have hfaulty : ((sampleFiles.take 2).filter fun file =>
        ∃ n, Faulty w.files context none file n) = [⟨"bad.template.yaml"⟩] := by decide +kernel
    exact ⟨rfl, rfl, by decide +kernel, [2], hfaulty ▸ .cons hsecond .nil, rfl, rfl⟩
  have hmany : Counts w.files context none sampleFiles
      { checked := 3, passed := 1, failed := 2, skipped := 1, errors := 3 } := by
    have hfaulty : (sampleFiles.filter fun file => ∃ n, Faulty w.files context none file n) =
        [⟨"bad.template.yaml"⟩, ⟨"gone.sms.yaml"⟩] := by decide +kernel
    exact ⟨rfl, rfl, by decide +kernel, [2, 1], hfaulty ▸ .cons hsecond (.cons hthird .nil), rfl,
      rfl⟩
  obtain ⟨covered, t, hreports, hcounts, -, hthrough, hsame, hfails, -⟩ :=
    validateFiles_counts hstopping
  have hcovered : covered = sampleFiles.take 2 := by
    have hup := hthrough rfl
    simp only [exists_faulty_iff, upToFailure_iff] at hup
    rw [hup]
    decide +kernel
  subst hcovered
  obtain rfl := hcounts.eq hfew
  obtain ⟨_, t', hreports', hcounts', hall, -, -, hfails', -⟩ := validateFiles_counts hgoing
  obtain rfl := hall rfl
  obtain rfl := hcounts'.eq hmany
  have hbad : ∃ file ∈ sampleFiles, ∃ n, Faulty w.files context none file n :=
    ⟨_, by decide, 2, hsecond⟩
  exact ⟨hstopping, hreports, hsame again rfl rfl hagain, hreports', hfails.mpr hbad,
    hfails'.mpr hbad⟩

end Command
end Phrasebook
