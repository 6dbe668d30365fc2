import ComLayout.CommandLine.Given
import ComLayout.Proofs.Steps

/-!
# The values of flags

Reading a command line records flags and never removes one. A switch is recorded as true, and every
other flag with an integer, with a text other than two lone hyphens, or with the empty list that these
stand for. So the flags of an accepted command line have such values.
-/

namespace ComLayout.CommandLine

/-- The values with which flags are recorded. -/
def isFlagValue : Value → Bool
  | .bool true => true
  | .int _ => true
  | .text text => text != "--"
  | .list [] => true
  | _ => false

/-- A text is read as the value of a flag. -/
theorem isFlagValue_value {flag : Flag} {text : String} {value : Value}
    (read : flag.value text = .ok value) : isFlagValue value = true := by
  unfold Flag.value at read
  split at read
  next => cases read; rfl
  next notHyphens =>
    split at read
    next =>
      split at read
      next => cases read; rfl
      next => simp at read
    next => cases read; simpa [isFlagValue] using notHyphens

namespace Progress

/-- All flags so far have values of flags. -/
def Sound (progress : Progress) : Prop := ∀ entry ∈ progress.flags, isFlagValue entry.2 = true

variable {progress next : Progress}

/-- Recording a flag with a value of flags keeps all flags sound. -/
theorem Sound.record (sound : progress.Sound) (flag : Flag) {value : Value}
    (suits : isFlagValue value = true) : (progress.record flag value).Sound := by
  intro entry member
  rcases List.mem_append.mp member with earlier | last
  · exact sound entry earlier
  · rw [List.mem_singleton.mp last]
    exact suits

/-- A run of words without flags records none. -/
theorem flags_readRun (grammar : Grammar) (progress : Progress) (run : List Word) :
    (progress.readRun grammar run).flags = progress.flags := by
  unfold readRun
  split <;> rfl

/-- Switches are sound. -/
theorem Sound.switchAll (sound : progress.Sound) {flags : List Flag}
    (acted : progress.switchAll flags = .ok next) : next.Sound := by
  induction flags generalizing progress with
  | nil => exact Except.ok.inj acted ▸ sound
  | cons flag rest inductionHypothesis =>
    obtain ⟨after, switched, acted⟩ := bind_eq_ok.mp acted
    unfold switch at switched
    split at switched
    next => simp at switched
    next =>
      obtain rfl := Except.ok.inj switched
      exact inductionHypothesis (sound.record flag rfl) acted

end Progress

variable {grammar : Grammar} {progress next : Progress}

/-- What goes on after a fault was looked for did not meet one. -/
theorem stopping_eq_ok {α : Type} {found : Except Fault α} {a : α} :
    stopping found = .ok a ↔ found = .ok a := by
  cases found <;> simp [stopping]

/-- Reading one flag keeps all flags sound. -/
theorem sound_readFlag (sound : progress.Sound) {flag : Flag} {short : Bool} {attached : Option (List Char)}
    {run : List Word} (read : grammar.readFlag progress flag short attached run = .ok next) :
    next.Sound := by
  obtain ⟨⟨before, last, value⟩, -, read⟩ := bind_eq_ok.mp read
  dsimp only at read
  split at read
  next =>
    obtain ⟨⟨text, rest⟩, -, read⟩ := bind_eq_ok.mp read
    obtain ⟨switched, acted, read⟩ := bind_eq_ok.mp read
    obtain ⟨value, suits, read⟩ := bind_eq_ok.mp read
    obtain rfl := Except.ok.inj read
    rw [Progress.Sound, Progress.flags_readRun]
    exact (sound.switchAll acted).record last (isFlagValue_value (stopping_eq_ok.mp suits))
  next =>
    obtain ⟨switched, acted, read⟩ := bind_eq_ok.mp read
    obtain rfl := Except.ok.inj read
    rw [Progress.Sound, Progress.flags_readRun]
    exact sound.switchAll acted

/-- Reading segments keeps all flags sound. -/
theorem sound_readSegments (sound : progress.Sound) {segments : List Segment}
    (read : grammar.readSegments progress segments = .ok next) : next.Sound := by
  induction segments generalizing progress with
  | nil => exact Except.ok.inj read ▸ sound
  | cons segment rest inductionHypothesis =>
    obtain ⟨word, run⟩ := segment
    have left : ((progress.leave [word]).readRun grammar run).Sound := by
      rw [Progress.Sound, Progress.flags_readRun]
      exact sound
    cases word with
    | flag flag short attached =>
      obtain ⟨after, acted, read⟩ := bind_eq_ok.mp read
      exact inductionHypothesis (sound_readFlag sound acted) read
    | operand text => exact inductionHypothesis left read
    | marker => exact inductionHypothesis left read
    | unknown text => exact inductionHypothesis left read

/-- The flags of a command line that is accepted have values of flags. -/
theorem isFlagValue_of_read {texts : List String} {given : Given} (accepted : grammar.read texts = .ok given) :
    ∀ entry ∈ given.flags, isFlagValue entry.2 = true := by
  obtain ⟨words, -, accepted⟩ := bind_eq_ok.mp accepted
  obtain ⟨progress, read, accepted⟩ := bind_eq_ok.mp accepted
  have start : (Progress.start.readRun grammar (segments words).1).Sound := by
    rw [Progress.Sound, Progress.flags_readRun]
    simp [Progress.start]
  have sound : progress.Sound := sound_readSegments start read
  unfold Grammar.conclude at accepted
  split at accepted
  next => simp at accepted
  next =>
    split at accepted
    next =>
      obtain rfl := Except.ok.inj accepted
      exact sound
    next => simp at accepted

/-- The last value of a flag is one of its values. -/
theorem isFlagValue_last? {texts : List String} {given : Given} (accepted : grammar.read texts = .ok given)
    {flag : String} {value : Value} (last : given.last? flag = some value) : isFlagValue value = true := by
  obtain ⟨entry, member, rfl⟩ := List.mem_map.mp (List.mem_of_getLast? last)
  exact isFlagValue_of_read accepted entry (List.mem_filter.mp member).1

end ComLayout.CommandLine
