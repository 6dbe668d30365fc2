import ComLayout.Proofs.Files.Frame
import ComLayout.Run.Scan

/-!
# What a run changes while it only tells

Until reports are written, a run makes directories, writes to its streams and appends to its log file.
No other file is changed by it. A lookup in particular makes no directories either and prints nothing,
whatever its outcome.
-/

namespace ComLayout.Run

namespace Console

/-- The log file lies at a place. -/
def LogsAt (console : Console) (place : Location) : Prop :=
  ∃ path, console.logFile = some path ∧ console.tree.locate path = .ok place

/-- What no part of a run takes away: the log file and the encoding of the output stay the same, and directories
stay. -/
structure Continues (console later : Console) : Prop where
  logFile : later.logFile = console.logFile
  encoding : later.encoding = console.encoding
  dirs : ∀ place, console.tree.isDir place = true → later.tree.isDir place = true

/-- What is left as it was while records are logged and the status line is used. -/
structure Tells (console later : Console) : Prop where
  output : later.output = console.output
  logFile : later.logFile = console.logFile
  encoding : later.encoding = console.encoding
  dirs : ∀ place, later.tree.isDir place = console.tree.isDir place
  files : ∀ place, ¬ later.LogsAt place → later.tree.contents? place = console.tree.contents? place

/-- What is left as it was until reports are written: all files but the log file. -/
structure Spares (console later : Console) : Prop where
  logFile : later.logFile = console.logFile
  encoding : later.encoding = console.encoding
  tree : console.tree.Keeps later.LogsAt later.tree

variable {console later third : Console}

/-- The log file stays where it is. -/
theorem Continues.logsAt (onward : console.Continues later) {place : Location}
    (here : console.LogsAt place) : later.LogsAt place := by
  obtain ⟨path, is, found⟩ := here
  exact ⟨path, onward.logFile.trans is, Tree.locate_mono onward.dirs found⟩

/-- Where nothing happens, nothing is taken away. -/
theorem Continues.refl (console : Console) : console.Continues console := ⟨rfl, rfl, fun _ dir => dir⟩

/-- What one part does not take away, and another does not, is not taken away by both. -/
theorem Continues.trans (first : console.Continues later) (second : later.Continues third) :
    console.Continues third :=
  ⟨second.logFile.trans first.logFile, second.encoding.trans first.encoding,
    fun place dir => second.dirs place (first.dirs place dir)⟩

namespace Tells

/-- Telling takes nothing away. -/
theorem continues (told : console.Tells later) : console.Continues later :=
  ⟨told.logFile, told.encoding, fun place dir => (told.dirs place).trans dir⟩

/-- Nothing was told yet. -/
theorem refl (console : Console) : console.Tells console := ⟨rfl, rfl, rfl, fun _ => rfl, fun _ _ => rfl⟩

/-- What is told in turn. -/
theorem trans (first : console.Tells later) (second : later.Tells third) : console.Tells third where
  output := second.output.trans first.output
  logFile := second.logFile.trans first.logFile
  encoding := second.encoding.trans first.encoding
  dirs place := (second.dirs place).trans (first.dirs place)
  files place other := by
    have before : ¬ later.LogsAt place := fun here => other (second.continues.logsAt here)
    exact (second.files place other).trans (first.files place before)

/-- What is told spares all files but the log file. -/
theorem spares (told : console.Tells later) : console.Spares later :=
  ⟨told.logFile, told.encoding, told.continues.dirs, told.files⟩

/-- Paths lead to where they led. -/
theorem locate (told : console.Tells later) {p : Path} {place : Location} :
    later.tree.locate p = .ok place ↔ console.tree.locate p = .ok place :=
  ⟨Tree.locate_mono fun above dir => (told.dirs above).symm.trans dir, Tree.locate_mono told.continues.dirs⟩

end Tells

namespace Spares

/-- Sparing files takes nothing away. -/
theorem continues (spared : console.Spares later) : console.Continues later :=
  ⟨spared.logFile, spared.encoding, spared.tree.dirs⟩

/-- Nothing was done yet. -/
theorem refl (console : Console) : console.Spares console := ⟨rfl, rfl, .refl _⟩

/-- What is done in turn. -/
theorem trans (first : console.Spares later) (second : later.Spares third) : console.Spares third where
  logFile := second.logFile.trans first.logFile
  encoding := second.encoding.trans first.encoding
  tree := (first.tree.mono fun _ here => second.continues.logsAt here).trans second.tree

end Spares

/-- What is logged goes to the log file alone, which makes no directory. -/
theorem logged_cases (console : Console) (text : String) :
    console.logged text = console.tree ∨ ∃ place all, console.LogsAt place ∧
      console.tree.Enclosed place ∧ console.logged text = console.tree.addFile place all := by
  unfold logged
  split
  next => exact .inl rfl
  next path file =>
    cases appended : console.tree.append path text.toUTF8 with
    | error fault => exact .inl rfl
    | ok tree =>
      obtain ⟨place, all, found, _, rfl⟩ := Tree.append_eq_ok appended
      exact .inr ⟨place, all, ⟨path, file, found⟩, Tree.enclosed_locate found, rfl⟩

/-- Logging a record changes no file but the log file. -/
theorem tells_log (console : Console) (record : LogRecord) : console.Tells (console.log record) := by
  unfold log
  split
  next =>
    rcases console.logged_cases (console.logLine record) with same | ⟨place, all, here, enclosed, added⟩
    · refine ⟨rfl, rfl, rfl, fun other => ?_, fun other _ => ?_⟩
      · exact congrArg (·.isDir other) same
      · exact congrArg (·.contents? other) same
    · have dirs (other : Location) :
          (console.logged (console.logLine record)).isDir other = console.tree.isDir other := by
        rw [added]
        exact Tree.isDir_addFile enclosed other
      refine ⟨rfl, rfl, rfl, dirs, fun other elsewhere => ?_⟩
      have apart : other ≠ place := by
        rintro rfl
        have onward : console.Continues
            { console with
              errors := console.errors ++ console.logLine record
              tree := console.logged (console.logLine record) } :=
          ⟨rfl, rfl, fun above dir => (dirs above).trans dir⟩
        exact elsewhere (onward.logsAt here)
      exact (congrArg (·.contents? other) added).trans (Tree.contents_addFile_of_ne enclosed apart)
  next => exact .refl console

/-- A record leaves the status line as it is. -/
theorem status_log (console : Console) (record : LogRecord) : (console.log record).status = console.status := by
  unfold log
  split <;> rfl

/-- A call on the status line changes no file. -/
theorem tells_callStatus (console : Console) (call : StatusCall) :
    console.Tells (console.callStatus call) := ⟨rfl, rfl, rfl, fun _ => rfl, fun _ _ => rfl⟩

end Console

namespace Action

variable {α β : Type}

/-- Every run of an action leads from a state to a related one, whatever its result. -/
def Obeys (R : Console → Console → Prop) (action : Action α) : Prop :=
  ∀ console, R console (action.run.run console).2

/-- What spares less is obeyed by what spares more. -/
theorem Obeys.weaken {R S : Console → Console → Prop} {action : Action α} (obeys : Obeys R action)
    (implied : ∀ {console later}, R console later → S console later) : Obeys S action :=
  fun console => implied (obeys console)

/-- A relation that holds where nothing changes, and of two changes in turn. -/
class Lasting (R : Console → Console → Prop) : Prop where
  refl : ∀ console, R console console
  trans : ∀ {console later third}, R console later → R later third → R console third

instance : Lasting Eq := ⟨fun _ => rfl, Eq.trans⟩

instance : Lasting Console.Tells := ⟨.refl, .trans⟩

instance : Lasting Console.Spares := ⟨.refl, .trans⟩

section Relation

variable {R : Console → Console → Prop}

/-- A change of the state that is allowed. -/
theorem obeys_modify {f : Console → Console} (allowed : ∀ console, R console (f console)) :
    Obeys R (modify f) := allowed

/-- What is done with the state has to be allowed in each state. -/
theorem obeys_get {f : Console → Action β} (each : ∀ console, Obeys R (f console)) :
    Obeys R (get >>= f) := by
  intro console
  rw [run_get_bind]
  exact each console console

variable [lasting : Lasting R]

/-- A value alone changes nothing. -/
theorem obeys_pure (a : α) : Obeys R (pure a) := lasting.refl

/-- A failure alone changes nothing. -/
theorem obeys_throw (failure : Failure) : Obeys R (throw failure : Action α) := lasting.refl

/-- What is allowed in turn is allowed. -/
theorem obeys_bind {action : Action α} {f : α → Action β} (first : Obeys R action)
    (second : ∀ a, Obeys R (f a)) : Obeys R (action >>= f) := by
  intro console
  have before : R console (action.run.run console).2 := first console
  rw [run_bind]
  rcases outcome : action.run.run console with ⟨_ | a, later⟩
  · rw [outcome] at before
    exact before
  · rw [outcome] at before
    exact lasting.trans before (second a later)

/-- What is allowed for each is allowed for all. -/
theorem obeys_forM {items : List β} {f : β → Action Unit} (each : ∀ b ∈ items, Obeys R (f b)) :
    Obeys R (items.forM f) := by
  induction items with
  | nil => exact obeys_pure ()
  | cons b rest inductionHypothesis =>
    refine obeys_bind (each b List.mem_cons_self) fun _ => ?_
    exact inductionHypothesis fun other member => each other (List.mem_cons_of_mem b member)

end Relation

/-- The failure that a file leads to. -/
def fileFailure (fault : FileFault) : Failure :=
  match fault.message? with
  | some message => .usage message
  | none => .broken (fileWords fault)

/-- Something broke unless a path is refused. -/
theorem fileFailure_broken {fault : FileFault} (other : fault ≠ .zeroCharacter) :
    fileFailure fault = .broken (fileWords fault) := by
  have silent : fault.message? = none := by
    unfold FileFault.message?
    split
    · exact absurd rfl other
    · rfl
  rw [fileFailure, silent]

/-- A file that is at fault ends an action with its failure. -/
theorem failFile_eq (fault : FileFault) : (failFile fault : Action α) = throw (fileFailure fault) := by
  cases fault <;> rfl

/-- The failure that a listing leads to. -/
def discoveryFailure : DiscoveryFault → Failure
  | .file fault => fileFailure fault
  | .rule .emptyPattern => .usage "empty pattern"
  | .rule (.malformed _) => .broken "An exclusion rule is not a text"
  | .malformedLimit => .broken "The size limit is not a number"

/-- A listing that is at fault ends an action with its failure. -/
theorem failDiscovery_eq (fault : DiscoveryFault) :
    (failDiscovery fault : Action α) = throw (discoveryFailure fault) := by
  rcases fault with fault | (_ | _) | _
  · exact failFile_eq fault
  · rfl
  · rfl
  · rfl

/-- The failure that a search leads to. -/
def searchFailure : SearchFault → Failure
  | .lookup .nameRequired => .usage LookupError.nameRequired.message
  | .lookup error => .lookup error
  | .discovery fault => discoveryFailure fault

/-- A search that is at fault ends an action with its failure. -/
theorem failSearch_eq (fault : SearchFault) :
    (failSearch fault : Action α) = throw (searchFailure fault) := by
  rcases fault with (_ | _ | _ | _ | _) | fault
  · rfl
  · rfl
  · rfl
  · rfl
  · rfl
  · exact failDiscovery_eq fault

end Action

open Console Run.Action

/-- Showing that a header is read changes no file. -/
theorem showReading_tells (handle : Value) (path : String) : Obeys Tells (showReading handle path) := by
  refine obeys_get fun console => ?_
  split
  next =>
    split
    · exact obeys_throw _
    next text =>
      split
      · exact obeys_bind (obeys_throw _) fun _ => obeys_modify (tells_callStatus · _)
      · exact obeys_modify (tells_callStatus · _)
  next => exact obeys_pure ()

/-- Clearing the status line changes no file. -/
theorem clearStatus_tells (handle : Value) : Obeys Tells (clearStatus handle) := by
  unfold clearStatus
  split
  · cases handle.display? with
    | none => exact obeys_pure ()
    | some text => exact obeys_modify (tells_callStatus · _)
  · exact obeys_pure ()

/-- Telling events changes no file but the log file. -/
theorem tellEvents_tells (handle : Value) (events : List LookupEvent) :
    Obeys Tells (tellEvents handle events) := by
  induction events with
  | nil => exact obeys_pure ()
  | cons event rest inductionHypothesis =>
    cases event with
    | remark record => exact obeys_bind (obeys_modify (tells_log · record)) fun _ => inductionHypothesis
    | reading path => exact obeys_bind (showReading_tells handle path) fun _ => inductionHypothesis
    | _ => exact obeys_bind (clearStatus_tells handle) fun _ => inductionHypothesis

/-- A lookup tells nothing, or that it is over in the end. -/
theorem findReading_over (tree : Tree) (reading : Lookup.Reading) (name pattern : String) (recurse : Bool)
    (filter : Filter) : (Lookup.findReading tree reading name pattern recurse filter).2 = [] ∨
      ∃ told, (Lookup.findReading tree reading name pattern recurse filter).2 = told ++ [.over] := by
  unfold Lookup.findReading
  split
  · exact .inl rfl
  · exact .inr ⟨_, rfl⟩

section Parts

variable {R : Console → Console → Prop} [Lasting R]

/-- The path is a text, or the run breaks. -/
theorem patternOf_obeys (settings : Settings) : Obeys R (patternOf settings) := by
  unfold patternOf
  split
  · exact obeys_pure _
  · exact obeys_throw _

/-- A lookup does nothing but tell its events. -/
theorem lookUp_obeys (settings : Settings)
    (tells : ∀ events, (events = [] ∨ ∃ told, events = told ++ [.over]) →
      Obeys R (tellEvents settings.logging.statusHandle events)) : Obeys R (lookUp settings) := by
  refine obeys_bind (patternOf_obeys settings) fun pattern => obeys_get fun console => ?_
  split
  · refine obeys_bind (tells _ (findReading_over ..)) fun _ => ?_
    split
    · exact obeys_pure _
    · rw [failSearch_eq]
      exact obeys_throw _
  · refine obeys_bind (tells _ (.inr ⟨_, rfl⟩)) fun _ => ?_
    split
    · exact obeys_throw _
    · rw [failSearch_eq]
      exact obeys_throw _

/-- Printing a line does nothing else. -/
theorem print_obeys (prints : ∀ console line, R console (console.print line)) (line : String) :
    Obeys R (Action.print line) := by
  refine obeys_get fun console => ?_
  split
  · exact obeys_modify fun console => prints console line
  · exact obeys_throw _

/-- Listing headers does nothing but log and print. -/
theorem listHeaders_obeys (settings : Settings) (logs : ∀ console record, R console (console.log record))
    (prints : ∀ console line, R console (console.print line)) : Obeys R (listHeaders settings) := by
  refine obeys_bind (patternOf_obeys settings) fun pattern => obeys_get fun console => ?_
  split
  · rw [failDiscovery_eq]
    exact obeys_throw _
  · exact obeys_modify fun console => logs console _
  · exact obeys_forM fun _ _ => print_obeys prints _

end Parts

/-- A lookup changes no file but the log file, makes no directory and prints nothing. -/
theorem lookUp_tells (settings : Settings) : Obeys Tells (lookUp settings) :=
  lookUp_obeys settings fun events _ => tellEvents_tells _ events

/-- Listing headers changes no file but the log file. -/
theorem listHeaders_spares (settings : Settings) : Obeys Spares (listHeaders settings) :=
  listHeaders_obeys settings (fun console record => (tells_log console record).spares)
    fun _ _ => ⟨rfl, rfl, .refl _⟩

end ComLayout.Run
