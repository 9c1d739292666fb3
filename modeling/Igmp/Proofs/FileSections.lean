import Igmp.Program

/-!
# A run over files prints a section for each

The run is told here line by line: it prints as it goes and counts the files it cannot report on.
What it has printed after some files are their sections with an empty line between them, and a
section depends on the options, the path and the content of its own file only. Files that fail
leave the sections of the others as they are; they show in the count that ends the run.
-/

namespace Igmp

/-- What is told of an error: the outermost fault, and after it the one that caused it. -/
def FileError.chain : FileError → List String
  | unreadable path fault => ["failed to read " ++ path, fault.text]
  | hexDump cause => [cause.message]
  | frame (.header cause) => ["failed to read IPv4 header", cause.message]
  | frame (.message cause) => ["failed to decode IGMP message", cause.message]
  | frame cause => [cause.text]

theorem intercalate_pair (fault cause : String) :
    ": ".intercalate [fault, cause] = fault ++ ": " ++ cause := by
  rw [String.intercalate_cons_cons, String.intercalate_singleton]

theorem FileError.text_eq_intercalate (error : FileError) :
    error.text = ": ".intercalate error.chain := by
  cases error with
  | unreadable path fault => exact (intercalate_pair ("failed to read " ++ path) fault.text).symm
  | hexDump cause => exact String.intercalate_singleton.symm
  | frame cause =>
    cases cause with
    | header cause => exact (intercalate_pair "failed to read IPv4 header" cause.message).symm
    | message cause => exact (intercalate_pair "failed to decode IGMP message" cause.message).symm
    | shorterThanLinkHeader size linkHeader => exact String.intercalate_singleton.symm
    | version found => exact String.intercalate_singleton.symm
    | checksum stored calculated => exact String.intercalate_singleton.symm

/-- The report on the frame in a file, from what reading the file gives. -/
def describeContent (options : ReportOptions) (path : String) :
    Except ReadFault String → Except FileError String
  | .error fault => .error (.unreadable path fault)
  | .ok text =>
    match HexDump.read text with
    | .error cause => .error (.hexDump cause)
    | .ok frame =>
      match describeFrame options frame with
      | .error cause => .error (.frame cause)
      | .ok report => .ok report

/-- Of all files, a report looks at its own only. -/
theorem describeFile_eq (library : Library) (options : ReportOptions) (path : String) :
    describeFile library options path = describeContent options path (library path) := by
  unfold describeFile describeContent
  cases library path with
  | error fault => rfl
  | ok text =>
    -- Each of the two further layers is taken off by its own result.
    dsimp only
    change ((HexDump.read text).mapError FileError.hexDump >>= fun frame =>
      (describeFrame options frame).mapError FileError.frame) = _
    cases HexDump.read text with
    | error cause => rfl
    | ok frame =>
      dsimp only
      change (describeFrame options frame).mapError FileError.frame = _
      cases describeFrame options frame with
      | error cause => rfl
      | ok report => rfl

namespace BatchRun

/-- What a run has printed so far, and how many files it could not report on. -/
structure Progress where
  printed : String := ""
  failed : Nat := 0

abbrev Printing := StateM Progress

def printLine (line : String) : Printing Unit :=
  modify fun p => { p with printed := p.printed ++ (line ++ "\n") }

def countFailure : Printing Unit := modify fun p => { p with failed := p.failed + 1 }

/-- An empty line before each file but the first. -/
def printGap (index : Nat) : Printing Unit := if 0 < index then printLine "" else pure ()

def printOutcome : Except FileError String → Printing Unit
  | .ok report => printLine report
  | .error error => do
    printLine ("  error: " ++ ": ".intercalate error.chain)
    countFailure

/-- The lines on one file, which stands at `index` in the list of files. -/
def printFile (library : Library) (options : ReportOptions) (path : String) (index : Nat) :
    Printing Unit := do
  printGap index
  printLine (path ++ ":")
  printOutcome (describeFile library options path)

def printFiles (library : Library) (options : ReportOptions) : List (String × Nat) → Printing Unit
  | [] => pure ()
  | (path, index) :: files => do
    printFile library options path index
    printFiles library options files

/-- A run ends well only without failures. -/
def ending (failed total : Nat) : Except String Unit :=
  if failed = 0 then .ok () else .error s!"failed to decode {failed} of {total} files"

/-- The run over all files. -/
def print (library : Library) (settings : Settings) : Printing (Except String Unit) := do
  printFiles library settings.report settings.files.zipIdx
  return ending (← get).failed settings.files.length

/-- What stands under the path of a file. -/
def body : Except FileError String → String
  | .ok report => report
  | .error error => "  error: " ++ ": ".intercalate error.chain

/-- The section on a file with this path and this content. -/
def sectionOn (options : ReportOptions) (path : String) (content : Except ReadFault String) :
    String :=
  path ++ ":\n" ++ body (describeContent options path content) ++ "\n"

def sections (library : Library) (settings : Settings) : List String :=
  settings.files.map fun path => sectionOn settings.report path (library path)

def fails (library : Library) (options : ReportOptions) (path : String) : Bool :=
  !(describeFile library options path).isOk

theorem entry_eq_sectionOn (library : Library) (options : ReportOptions) (path : String) :
    entry library options path = sectionOn options path (library path) := by
  unfold entry sectionOn
  rw [describeFile_eq]
  cases describeContent options path (library path) with
  | ok report => rfl
  | error error => simp only [body, error.text_eq_intercalate]

theorem intercalate_append_singleton (separator : String) (texts : List String) (text : String) :
    separator.intercalate (texts ++ [text]) =
      separator.intercalate texts ++ ((if 0 < texts.length then separator else "") ++ text) := by
  cases texts with
  | nil => simp
  | cons first texts =>
    rw [String.intercalate_append_of_ne_nil (List.cons_ne_nil _ _) (List.cons_ne_nil _ _),
      String.intercalate_singleton, String.append_assoc]
    rfl

variable {library : Library} {options : ReportOptions} {done : List String} {p : Progress}

theorem printGap_run (index : Nat) :
    (printGap index).run p =
      ((), { p with printed := p.printed ++ if 0 < index then "\n" else "" }) := by
  unfold printGap
  split
  · rfl
  · rw [String.append_empty]
    rfl

theorem printOutcome_run (outcome : Except FileError String) :
    (printOutcome outcome).run p = ((), {
      printed := p.printed ++ (body outcome ++ "\n")
      failed := p.failed + if !outcome.isOk then 1 else 0 }) := by
  cases outcome with
  | ok report => rfl
  | error error => rfl

/-- The lines on a file are its section, after an empty line unless it is the first. -/
theorem printFile_run (path : String) (index : Nat) :
    (printFile library options path index).run p = ((), {
      printed := p.printed ++ ((if 0 < index then "\n" else "") ++
        sectionOn options path (library path))
      failed := p.failed + if fails library options path then 1 else 0 }) := by
  have hpath : path ++ ":" ++ "\n" = path ++ ":\n" := by
    rw [String.append_assoc]
    rfl
  have hsection : path ++ ":\n" ++ (body (describeFile library options path) ++ "\n") =
      sectionOn options path (library path) := by
    rw [describeFile_eq]
    exact String.append_assoc.symm
  calc (printFile library options path index).run p
      = (printOutcome (describeFile library options path)).run
          { p with printed := p.printed ++ (if 0 < index then "\n" else "") ++
            (path ++ ":" ++ "\n") } := by
        rw [printFile, StateT.run_bind, printGap_run]
        rfl
    _ = _ := by
        rw [printOutcome_run, hpath, ← hsection]
        simp only [String.append_assoc]
        rfl

/-- After some files their sections are printed, and those that failed are counted. -/
structure Printed (library : Library) (options : ReportOptions) (done : List String)
    (p : Progress) : Prop where
  printed_eq : p.printed =
    "\n".intercalate (done.map fun path => sectionOn options path (library path))
  failed_eq : p.failed = done.countP (fails library options)

theorem Printed.start : Printed library options [] {} := ⟨String.intercalate_nil.symm, rfl⟩

theorem Printed.printFile (h : Printed library options done p) (path : String) :
    ∃ p', (printFile library options path done.length).run p = ((), p') ∧
      Printed library options (done ++ [path]) p' := by
  refine ⟨_, printFile_run path done.length, ?_, ?_⟩
  · rw [List.map_append, List.map_singleton, intercalate_append_singleton, List.length_map,
      ← h.printed_eq]
  · rw [List.countP_append, List.countP_singleton, ← h.failed_eq]

/-- By induction on the files to come, which start at the index after those that are done. -/
theorem Printed.printFiles (h : Printed library options done p) (files : List String) :
    ∃ p', (printFiles library options (files.zipIdx done.length)).run p = ((), p') ∧
      Printed library options (done ++ files) p' := by
  induction files generalizing done p with
  | nil => exact ⟨p, rfl, by rwa [List.append_nil]⟩
  | cons path files ih =>
    obtain ⟨p₁, hfile, h₁⟩ := h.printFile path
    obtain ⟨p₂, hfiles, h₂⟩ := ih h₁
    rw [List.length_append, List.length_singleton] at hfiles
    refine ⟨p₂, ?_, by rwa [List.append_assoc] at h₂⟩
    rw [List.zipIdx_cons, BatchRun.printFiles, StateT.run_bind, hfile]
    exact hfiles

/-- What a run prints and how it ends. -/
theorem print_run (library : Library) (settings : Settings) :
    (print library settings).run {} =
      (ending (failures library settings) settings.files.length,
        ⟨"\n".intercalate (sections library settings), failures library settings⟩) := by
  have hstart : Printed library settings.report [] {} := .start
  obtain ⟨⟨printed, failed⟩, hrun, hprinted, hfailed⟩ := hstart.printFiles settings.files
  rw [List.length_nil] at hrun
  rw [List.nil_append] at hprinted hfailed
  subst hprinted hfailed
  rw [print, StateT.run_bind, hrun]
  rfl

theorem output_eq_intercalate (library : Library) (settings : Settings) :
    output library settings = "\n".intercalate (sections library settings) :=
  congrArg "\n".intercalate
    (List.map_congr_left fun path _ => entry_eq_sectionOn library settings.report path)

theorem failures_eq_zero_iff (library : Library) (settings : Settings) :
    failures library settings = 0 ↔ ∀ path ∈ settings.files, ∃ report,
      describeFile library settings.report path = .ok report := by
  unfold failures
  rw [List.countP_eq_zero]
  refine forall₂_congr fun path _ => ?_
  cases describeFile library settings.report path with
  | ok report => simp [Except.isOk, Except.toBool]
  | error error => simp [Except.isOk, Except.toBool]

theorem failure?_eq_some_iff (library : Library) (settings : Settings) (text : String) :
    failure? library settings = some text ↔
      ending (failures library settings) settings.files.length = .error text := by
  unfold failure? ending
  cases failures library settings with
  | zero => simp
  | succ failed => simp

theorem sections_getElem? {library : Library} {settings : Settings} {i : Nat} {path : String}
    (h : settings.files[i]? = some path) :
    (sections library settings)[i]? = some (sectionOn settings.report path (library path)) := by
  rw [sections, List.getElem?_map, h, Option.map_some]

theorem ending_eq_ok_iff {failed total : Nat} : ending failed total = .ok () ↔ failed = 0 := by
  unfold ending
  split
  · simpa
  · simpa

theorem ending_of_ne_ok {failed total : Nat} (h : ending failed total ≠ .ok ()) :
    ending failed total = .error s!"failed to decode {failed} of {total} files" :=
  if_neg fun hfailed => h (ending_eq_ok_iff.2 hfailed)

/-- A run prints the sections of its files in their order and counts the files that fail; it ends
well exactly if none fails. A section is the path and what comes of the file, and any run with the
same options that reads the same under that path has the same section for it. -/
theorem print_sections_apart (library : Library) (settings : Settings) :
    ∃ result failed,
      (print library settings).run {} =
        (result, ⟨"\n".intercalate (sections library settings), failed⟩) ∧
      output library settings = "\n".intercalate (sections library settings) ∧
      (∀ text, failure? library settings = some text ↔ result = .error text) ∧
      failed = settings.files.countP (fails library settings.report) ∧
      (result = .ok () ↔ ∀ path ∈ settings.files, ∃ report,
        describeFile library settings.report path = .ok report) ∧
      (result ≠ .ok () →
        let total := settings.files.length
        result = .error s!"failed to decode {failed} of {total} files") ∧
      (sections library settings).length = settings.files.length ∧
      ∀ (i : Nat) (path : String), settings.files[i]? = some path →
        (sections library settings)[i]? = some (path ++ ":\n" ++
          (match describeFile library settings.report path with
            | .ok report => report
            | .error error => "  error: " ++ ": ".intercalate error.chain) ++ "\n") ∧
        ∀ (library' : Library) (settings' : Settings) (j : Nat),
          settings'.report = settings.report → library' path = library path →
          settings'.files[j]? = some path →
          (sections library' settings')[j]? = (sections library settings)[i]? := by
  refine ⟨_, _, print_run library settings, output_eq_intercalate library settings,
    failure?_eq_some_iff library settings, rfl, ending_eq_ok_iff.trans ?hall, ending_of_ne_ok,
    List.length_map _, fun i path hi => ⟨?hsection, fun library' settings' j hreport hcontent hj =>
      ?hother⟩⟩
  case hall => exact failures_eq_zero_iff library settings
  case hsection =>
    rw [sections_getElem? hi, describeFile_eq]
    rfl
  case hother => rw [sections_getElem? hi, sections_getElem? hj, hreport, hcontent]

end BatchRun

namespace Program

/-- The program leaves what the run over its files has printed, and says how that run has ended. -/
theorem report_eq (library : Library) (settings : Settings) :
    report library settings =
      match (BatchRun.print library settings).run {} with
      | (.ok (), p) => ⟨0, p.printed, none⟩
      | (.error text, p) => ⟨1, p.printed, some ("Error: " ++ text)⟩ := by
  rw [BatchRun.print_run, report, BatchRun.output_eq_intercalate]
  unfold BatchRun.failure? BatchRun.ending
  cases BatchRun.failures library settings with
  | zero => rfl
  | succ failed => rfl

theorem report_status_eq_zero_iff (library : Library) (settings : Settings) :
    (report library settings).status = 0 ↔ ∀ path ∈ settings.files, ∃ text,
      describeFile library settings.report path = .ok text := by
  rw [← BatchRun.failures_eq_zero_iff, report_eq, BatchRun.print_run]
  unfold BatchRun.ending
  by_cases h : BatchRun.failures library settings = 0
  · simp [h]
  · simp [h]

/-- However command lines are read and log filters judged: with arguments, the program ends well
exactly if they give settings under which it reports on every file. -/
theorem runWith_status_eq_zero_iff {frontend : Frontend} {words : List String} {args : Arguments}
    (library : Library) (hargs : frontend.arguments words = .ok args) :
    (runWith frontend library words).status = 0 ↔
      ∃ settings, Settings.resolve frontend.filterFault? args = .ok settings ∧
        ∀ path ∈ settings.files, ∃ text,
          describeFile library settings.report path = .ok text := by
  rw [runWith, hargs]
  dsimp only
  cases Settings.resolve frontend.filterFault? args with
  | error error => simp
  | ok settings => simp [report_status_eq_zero_iff]

end Program
end Igmp
