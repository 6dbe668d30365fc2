import ComLayout.Proofs.Run.Opening

/-!
# Exit codes

A run whose command line is understood ends with a code, and any code but zero comes with a line on the error
stream that tells why. What is written there before ends in a line end or in a return to the start of the
line: records are lines, and the status line is cleared whatever a lookup comes to. The exceptions are
settings that cannot be put together for a reason without a message, and a log file that cannot be opened:
there the fault escapes.
-/

namespace ComLayout.Run

open Run.Action Console

/-- What is written next stands at the beginning of a line. -/
def StartsLine (written : String) : Prop :=
  written = "" ∨ ∃ before, written = before ++ "\n" ∨ written = before ++ "\r"

/-- Behind what ends in a line end, a line begins. -/
theorem startsLine_newline (before : String) : StartsLine (before ++ "\n") := .inr ⟨before, .inl rfl⟩

namespace Console

/-- If the error stream was at the beginning of a line, it still is. -/
def Lines (console later : Console) : Prop := StartsLine console.errors → StartsLine later.errors

/-- A text under the handle is on the status line, and can be cleared. -/
def Shows (handle : Value) (console : Console) : Prop :=
  ∃ text, handle.display? = some text ∧ handle.truthy = true ∧ handle.isKey = true ∧
    console.status.enabled = true ∧ console.status.widthOf text ≠ 0

/-- The error stream is at the beginning of a line, or will be there once the status line is cleared. -/
def Clearable (handle : Value) (console : Console) : Prop :=
  StartsLine console.errors ∨ console.Shows handle

variable {console : Console}

/-- A record is a line. -/
theorem lines_log (console : Console) (record : LogRecord) : console.Lines (console.log record) := by
  intro starts
  unfold log
  split
  next reaches =>
    have line : console.logLine record = record.line console.logTime := by rw [logLine, if_pos reaches]
    simp only [line, LogRecord.line, ← String.append_assoc]
    exact startsLine_newline _
  next => exact starts

/-- Logging a record does not prevent the status line from being cleared. -/
theorem Clearable.log {handle : Value} (clearable : console.Clearable handle) (record : LogRecord) :
    (console.log record).Clearable handle := by
  rcases clearable with starts | shown
  · exact .inl (lines_log console record starts)
  · exact .inr (by rwa [Shows, status_log])

end Console

instance : Lasting Lines := ⟨fun _ starts => starts, fun first second starts => second (first starts)⟩

end ComLayout.Run
