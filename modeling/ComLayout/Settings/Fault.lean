import ComLayout.Files.Tree
import ComLayout.Settings.Environment
import ComLayout.Text.Utf8
import ComLayout.Toml.Reading

/-!
# Why there are no settings

Some faults are refusals, which are reported to the user with a message. The others are not foreseen:
a file that cannot be opened, or a value of a kind that does not fit.
-/

namespace ComLayout

open Text

/-- The reasons for which settings cannot be put together. -/
inductive SettingsFault where
  | undecodable (fault : Utf8Fault)
  | unreadable (fault : Toml.Fault)
  | noInterface
  | negativeSize
  | unsupportedFormat (name : String)
  | unwritableFormat
  | file (fault : FileFault)
  | environment (fault : EnvironmentFault)
  | wrongKind
  | noFormats
deriving DecidableEq, Repr

/-- The words for a reason. -/
def utf8Reason : Utf8Reason → String
  | .start => "invalid start byte"
  | .continuation => "invalid continuation byte"
  | .truncated => "unexpected end of data"

/-- The message for malformed bytes: one by its value, several by their offsets. -/
def utf8Message (fault : Utf8Fault) : String :=
  let place :=
    if fault.length = 1 then
      "byte 0x" ++ String.ofList (hexDigits 2 fault.byte.toNat) ++ " in position " ++
        toString fault.offset
    else
      "bytes in position " ++ toString fault.offset ++ "-" ++
        toString (fault.offset + fault.length - 1)
  "'utf-8' codec can't decode " ++ place ++ ": " ++ utf8Reason fault.reason

/-- The message for a document that cannot be read; none if it is nested too deep. -/
def tomlMessage? : Toml.Fault → Option String
  | .malformed => some "Invalid TOML document"
  | .tooManyDigits count => some (Value.digitLimitMessage (some count))
  | .tooDeep => none

/-- The message of a refusal; the other faults have none. -/
def SettingsFault.message? : SettingsFault → Option String
  | .undecodable fault => some (utf8Message fault)
  | .unreadable fault => tomlMessage? fault
  | .noInterface =>
    some ("Missing required config: lookup.interface " ++
      "(pass INTERFACE or TOML [lookup].interface)")
  | .negativeSize => some "files.max_file_bytes must be >= 0"
  | .unsupportedFormat name => some ("Unsupported output format: " ++ name)
  | .unwritableFormat => some (Value.digitLimitMessage none)
  | .file fault => fault.message?
  | .environment _ => none
  | .wrongKind => none
  | .noFormats => none

end ComLayout
