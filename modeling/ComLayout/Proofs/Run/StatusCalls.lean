import ComLayout.Proofs.Lookup.Showing
import ComLayout.Proofs.Run.Telling

/-!
# The status line of a run

A run makes the calls of its lookup on its status line, and logs the remarks between them. With a text as
handle none of this fails, and neither what is found nor what is logged depends on the status line.
-/

namespace ComLayout.Run

open Run.Action Console Lookup

namespace Console

/-- What is the same in two states except for the error stream and its status line. -/
structure Alike (console other : Console) : Prop where
  tree : console.tree = other.tree
  output : console.output = other.output
  threshold : console.threshold = other.threshold
  logFile : console.logFile = other.logFile
  logTime : console.logTime = other.logTime
  encoding : console.encoding = other.encoding

/-- The state after an event was told under a handle that is a text; an empty one is never shown. -/
def heard (handle : String) (console : Console) : LookupEvent → Console
  | .remark record => console.log record
  | .reading path => if handle.isEmpty then console else console.callStatus (.show_ handle path)
  | .over => if handle.isEmpty then console else console.callStatus (.clear handle)

variable {console other third : Console}

/-- What is alike one way is alike the other way. -/
theorem Alike.symm (alike : console.Alike other) : other.Alike console :=
  ⟨alike.tree.symm, alike.output.symm, alike.threshold.symm, alike.logFile.symm, alike.logTime.symm,
    alike.encoding.symm⟩

/-- What is alike to what is alike is alike. -/
theorem Alike.trans (first : console.Alike other) (second : other.Alike third) : console.Alike third :=
  ⟨first.tree.trans second.tree, first.output.trans second.output, first.threshold.trans second.threshold,
    first.logFile.trans second.logFile, first.logTime.trans second.logTime, first.encoding.trans second.encoding⟩

/-- The same is logged in states that are alike. -/
theorem Alike.log (alike : console.Alike other) (record : LogRecord) :
    (console.log record).Alike (other.log record) := by
  have line : console.logLine record = other.logLine record := by
    rw [logLine, logLine, alike.threshold, alike.logTime]
  have tree : console.logged (console.logLine record) = other.logged (other.logLine record) := by
    rw [line, logged, logged, alike.logFile, alike.tree]
  by_cases reaches : record.reaches console.threshold = true
  · have also : record.reaches other.threshold = true := alike.threshold ▸ reaches
    rw [Console.log, Console.log, if_pos reaches, if_pos also]
    exact ⟨tree, alike.output, alike.threshold, alike.logFile, alike.logTime, alike.encoding⟩
  · have also : ¬ record.reaches other.threshold = true := alike.threshold ▸ reaches
    rwa [Console.log, Console.log, if_neg reaches, if_neg also]

/-- An event changes all but the status line and the error stream in the same way under any handle. -/
theorem Alike.heard (alike : console.Alike other) (handle name : String) (event : LookupEvent) :
    (console.heard handle event).Alike (other.heard name event) := by
  have called (console : Console) (handle : String) (call : StatusCall) :
      (if handle.isEmpty then console else console.callStatus call).Alike console := by
    split <;> exact ⟨rfl, rfl, rfl, rfl, rfl, rfl⟩
  cases event with
  | remark record => exact alike.log record
  | reading path => exact ((called console handle _).trans alike).trans (called other name _).symm
  | _ => exact ((called console handle _).trans alike).trans (called other name _).symm

/-- Events change all but the status line and the error stream in the same way under any handle. -/
theorem Alike.foldl_heard (alike : console.Alike other) (handle name : String) (events : List LookupEvent) :
    (events.foldl (Console.heard handle) console).Alike (events.foldl (Console.heard name) other) := by
  induction events generalizing console other with
  | nil => exact alike
  | cons event rest inductionHypothesis => exact inductionHypothesis (alike.heard handle name event)

/-- Headers are read in the same way in states that are alike. -/
theorem Alike.reading (alike : console.Alike other) : console.reading = other.reading := by
  have lines : console.logLines = other.logLines := by
    funext events
    simp only [logLines, logLine, alike.threshold, alike.logTime]
  funext events c
  simp only [Console.reading, lines, alike.logFile, alike.tree]

/-- The status line has made the calls for the events that were told. -/
theorem status_foldl_heard (handle : String) (events : List LookupEvent) (console : Console) :
    (events.foldl (heard handle) console).status = (console.status.calls (statusCalls handle events)).1 := by
  induction events generalizing console with
  | nil =>
    rw [statusCalls]
    split <;> rfl
  | cons event rest inductionHypothesis =>
    rw [List.foldl_cons, inductionHypothesis]
    have called (event : LookupEvent) (call : StatusCall) (made : statusCall? handle event = some call)
        (hears : console.heard handle event = if handle.isEmpty then console else console.callStatus call) :
        ((console.heard handle event).status.calls (statusCalls handle rest)).1 =
          (console.status.calls (statusCalls handle (event :: rest))).1 := by
      rw [hears]
      cases empty : handle.isEmpty with
      | true => simp [statusCalls, empty]
      | false => simp [statusCalls, empty, made, Console.callStatus, StatusLine.calls]
    cases event with
    | remark record =>
      have passed : statusCalls handle (.remark record :: rest) = statusCalls handle rest := rfl
      rw [passed, heard, status_log]
    | reading path => exact called (.reading path) (.show_ handle path) rfl rfl
    | _ => exact called .over (.clear handle) rfl rfl

end Console

/-- Where the status line is off, it makes no difference that a header is shown. -/
theorem callStatus_show_off {console : Console} (off : console.status.enabled = false) (handle path : String) :
    console.callStatus (.show_ handle path) = console := by
  simp [Console.callStatus, StatusLine.call, off]

/-- Under a text, a header is shown without failure. -/
theorem showReading_text (handle path : String) (console : Console) :
    (showReading (.text handle) path).run.run console = (.ok (), console.heard handle (.reading path)) := by
  rw [showReading, run_get_bind, heard]
  cases empty : handle.isEmpty with
  | true =>
    simp only [Value.truthy, empty]
    rfl
  | false =>
    cases enabled : console.status.enabled with
    | true =>
      have display : (Value.text handle).display? = some handle := rfl
      simp only [Value.truthy, empty, display, Value.isKey]
      rfl
    | false =>
      rw [if_neg (by simp), if_neg Bool.false_ne_true, callStatus_show_off enabled]
      rfl

/-- Under a text, the status line is cleared without failure. -/
theorem clearStatus_text (handle : String) (console : Console) :
    (clearStatus (.text handle)).run.run console = (.ok (), console.heard handle .over) := by
  rw [clearStatus, heard]
  cases empty : handle.isEmpty with
  | true =>
    simp only [Value.truthy, empty]
    rfl
  | false =>
    have display : (Value.text handle).display? = some handle := rfl
    simp only [Value.truthy, empty, display]
    rfl

/-- Under a text, events are told without failure. -/
theorem tellEvents_text (handle : String) (events : List LookupEvent) (console : Console) :
    (tellEvents (.text handle) events).run.run console = (.ok (), events.foldl (heard handle) console) := by
  induction events generalizing console with
  | nil => rfl
  | cons event rest inductionHypothesis =>
    cases event with
    | remark record => exact inductionHypothesis (console.log record)
    | reading path =>
      rw [tellEvents, run_bind, showReading_text]
      exact inductionHypothesis _
    | _ =>
      rw [tellEvents, run_bind, clearStatus_text]
      exact inductionHypothesis _

/-- The settings with a text as handle. -/
def withHandle (settings : Settings) (handle : String) : Settings :=
  { settings with logging := { settings.logging with statusHandle := .text handle } }

/-- What the lookup of a run comes to in a tree whose headers are read as given, and its events. -/
def searched (settings : Settings) (tree : Tree) (reading : Reading) (pattern : String) :
    Except Failure Vtable × List LookupEvent :=
  match settings.lookup.interface with
  | .text name =>
    let found := findReading tree reading name pattern settings.lookup.recurse.truthy (filterOf settings.files)
    (found.1.mapError searchFailure, found.2)
  | other =>
    let found := concluded (candidates tree other.display pattern settings.lookup.recurse.truthy
      (filterOf settings.files))
    (match found.1 with
      | .ok _ => .error (.broken "The interface is not a text")
      | .error fault => .error (searchFailure fault), found.2)

/-- Under a text, the lookup of a run comes to what is searched, and tells the events of that. -/
theorem lookUp_run {settings : Settings} {pattern : String} (path : settings.path = .text pattern)
    (handle : String) (console : Console) :
    (lookUp (withHandle settings handle)).run.run console =
      ((searched settings console.tree console.reading pattern).1,
        (searched settings console.tree console.reading pattern).2.foldl (heard handle) console) := by
  have isPattern : patternOf (withHandle settings handle) = pure pattern := by
    rw [patternOf, withHandle, path]
  rw [lookUp, isPattern, pure_bind, run_get_bind, searched]
  simp only [withHandle]
  cases settings.lookup.interface with
  | text name =>
    simp only [run_bind, tellEvents_text]
    rcases findReading console.tree console.reading name pattern settings.lookup.recurse.truthy
      (filterOf settings.files) with ⟨fault | vtable, events⟩
    · simp only [failSearch_eq]
      rfl
    · rfl
  | _ =>
    simp only [run_bind, tellEvents_text]
    rcases concluded (candidates console.tree _ pattern settings.lookup.recurse.truthy
      (filterOf settings.files)) with ⟨fault | _, events⟩
    · simp only [failSearch_eq]
      rfl
    · rfl

/-- Without a text as path nothing is looked up. -/
theorem lookUp_no_text {settings : Settings} (noText : ∀ pattern, settings.path ≠ .text pattern)
    (handle : String) (console : Console) : (lookUp (withHandle settings handle)).run.run console =
      (.error (.broken "The path is not a text"), console) := by
  have isBroken : patternOf (withHandle settings handle) = Action.broken "The path is not a text" := by
    rw [patternOf, withHandle]
    split
    next pattern path => exact absurd path (noText pattern)
    next => rfl
  rw [lookUp, isBroken, run_bind, broken, run_throw]

/-- A lookup comes to the same under any text as handle and with any status line. -/
theorem lookUp_alike (settings : Settings) (handle name : String) {console other : Console}
    (alike : console.Alike other) :
    ((lookUp (withHandle settings handle)).run.run console).1 =
        ((lookUp (withHandle settings name)).run.run other).1 ∧
      ((lookUp (withHandle settings handle)).run.run console).2.Alike
        ((lookUp (withHandle settings name)).run.run other).2 := by
  by_cases isText : ∃ pattern, settings.path = .text pattern
  · obtain ⟨pattern, path⟩ := isText
    rw [lookUp_run path, lookUp_run path, alike.tree, alike.reading]
    exact ⟨rfl, alike.foldl_heard handle name _⟩
  · have noText (pattern : String) : settings.path ≠ .text pattern := fun path => isText ⟨pattern, path⟩
    rw [lookUp_no_text noText, lookUp_no_text noText]
    exact ⟨rfl, alike⟩

/-- The calls that the lookup of a run makes on its status line are those for the events that are searched. -/
theorem status_lookUp {settings : Settings} {pattern : String} (path : settings.path = .text pattern)
    (handle : String) (console : Console) :
    ((lookUp (withHandle settings handle)).run.run console).2.status = (console.status.calls
      (statusCalls handle (searched settings console.tree console.reading pattern).2)).1 := by
  rw [lookUp_run path]
  exact status_foldl_heard handle _ console

/-- What a lookup shows.

Under a handle that is not empty, each header that it reads is shown, and then the handle is cleared once, whatever
the outcome; the headers are those that were discovered, up to the first that declares the name, and that one again
for each base request that the guard against cycles admits. Under an empty handle there are no calls. To the run it
makes no difference under which handle, and on what status line, the calls are made.

The calls are made from the events of the lookup, which tells of each header before it is read and of its end on every
way out. The events of the search go through the candidates up to the one that declares the name, and those of the
bases follow the recursion on the room below the limit. Two consoles that are alike but for their status lines stay
alike with every event that is heard. -/
theorem find_status_protocol (tree : Tree) (name pattern : String) (recurse : Bool) (filter : Filter)
    (named : name ≠ "") :
    (∀ handle, handle ≠ "" → ∃ paths,
      statusCalls handle (find tree name pattern recurse filter).2 =
          paths.map (.show_ handle) ++ [.clear handle] ∧
        match Discovery.discover tree pattern recurse filter with
          | .error _ => paths = []
          | .ok cs => ReadFor tree name cs paths) ∧
    statusCalls "" (find tree name pattern recurse filter).2 = [] ∧
    ∀ (settings : Settings) (handle : String) (line : StatusLine) (console : Console),
      ((lookUp (withHandle settings handle)).run.run { console with status := line }).1 =
          ((lookUp (withHandle settings "")).run.run console).1 ∧
        ((lookUp (withHandle settings handle)).run.run { console with status := line }).2.Alike
          ((lookUp (withHandle settings "")).run.run console).2 := by
  refine ⟨fun handle some => statusCalls_find tree name pattern recurse filter named some, rfl, ?_⟩
  intro settings handle line console
  have alike : ({ console with status := line }).Alike console := ⟨rfl, rfl, rfl, rfl, rfl, rfl⟩
  exact lookUp_alike settings handle "" alike

/-- The header of a derived interface is shown for the interface and for its base. -/
theorem derived_status_protocol :
    let calls := statusCalls "s" (find derivedTree "iderived" "d2d1.h" true Filter.none).2
    calls = [.show_ "s" "d2d1.h", .show_ "s" "d2d1.h", .clear "s"] ∧
      ∃ paths, calls = paths.map (.show_ "s") ++ [.clear "s"] ∧
        match Discovery.discover derivedTree "d2d1.h" true Filter.none with
          | .error _ => paths = []
          | .ok cs => ReadFor derivedTree "iderived" cs paths := by
  intro calls
  have protocol := find_status_protocol derivedTree "iderived" "d2d1.h" true Filter.none (by decide)
  exact ⟨by decide +kernel, protocol.1 "s" (by decide)⟩

end ComLayout.Run
