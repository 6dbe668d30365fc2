/-!
# Decoding UTF-8

Bytes are read as UTF-8. Where they are malformed there is a fault: it covers the bytes that could
still begin a character, at least one. Surrogates, overlong forms and values above U+10FFFF are
malformed. `decodeLossy` leaves faults out, `decodeStrict` stops at the first.
-/

namespace ComLayout.Text

/-- Why bytes are not UTF-8. -/
inductive Utf8Reason where
  | start
  | continuation
  | truncated
deriving DecidableEq, Repr

/-- What stands at the head of a byte sequence: a character or a fault, with the number of bytes that
it takes up after the first. -/
inductive Utf8Unit where
  | scalar (c : Char) (more : Nat)
  | fault (reason : Utf8Reason) (more : Nat)

/-- A byte of the form `10xxxxxx`. -/
def isContinuation (b : UInt8) : Bool := 0x80 ≤ b && b < 0xC0

/-- The six payload bits of a continuation byte. -/
def payload (b : UInt8) : Nat := b.toNat % 64

/-- Read a character of three bytes whose first byte carries `head`; `admits` restricts the second. -/
def readThree (head : Nat) (admits : UInt8 → Bool) : List UInt8 → Utf8Unit
  | [] => .fault .truncated 0
  | b :: rest =>
    if !(isContinuation b && admits b) then .fault .continuation 0
    else match rest with
      | [] => .fault .truncated 1
      | c :: _ =>
        if !isContinuation c then .fault .continuation 1
        else .scalar (Char.ofNat ((head * 64 + payload b) * 64 + payload c)) 2

/-- Read a character of four bytes whose first byte carries `head`; `admits` restricts the second. -/
def readFour (head : Nat) (admits : UInt8 → Bool) : List UInt8 → Utf8Unit
  | [] => .fault .truncated 0
  | b :: rest =>
    if !(isContinuation b && admits b) then .fault .continuation 0
    else match rest with
      | [] => .fault .truncated 1
      | c :: rest =>
        if !isContinuation c then .fault .continuation 1
        else match rest with
          | [] => .fault .truncated 2
          | d :: _ =>
            if !isContinuation d then .fault .continuation 2
            else .scalar (Char.ofNat (((head * 64 + payload b) * 64 + payload c) * 64 + payload d)) 3

/-- Read a character of two bytes whose first byte carries `head`. -/
def readTwo (head : Nat) : List UInt8 → Utf8Unit
  | [] => .fault .truncated 0
  | b :: _ =>
    if isContinuation b then .scalar (Char.ofNat (head * 64 + payload b)) 1
    else .fault .continuation 0

/-- Read the character or fault that begins with the byte `b`. -/
def readUnit (b : UInt8) (rest : List UInt8) : Utf8Unit :=
  if b < 0x80 then .scalar (Char.ofNat b.toNat) 0
  else if b < 0xC2 then .fault .start 0
  else if b < 0xE0 then readTwo (b.toNat - 0xC0) rest
  else if b < 0xF0 then
    readThree (b.toNat - 0xE0) (fun c => (b != 0xE0 || 0xA0 ≤ c) && (b != 0xED || c < 0xA0)) rest
  else if b < 0xF5 then
    readFour (b.toNat - 0xF0) (fun c => (b != 0xF0 || 0x90 ≤ c) && (b != 0xF4 || c < 0x90)) rest
  else .fault .start 0

/-- Decode after passing over `skip` bytes, leaving faults out. -/
def decodeLossyFrom : (skip : Nat) → List UInt8 → List Char
  | _, [] => []
  | skip + 1, _ :: rest => decodeLossyFrom skip rest
  | 0, b :: rest =>
    match readUnit b rest with
    | .scalar c more => c :: decodeLossyFrom more rest
    | .fault _ more => decodeLossyFrom more rest

/-- Decode bytes; what is malformed is left out. -/
def decodeLossy (bytes : List UInt8) : List Char := decodeLossyFrom 0 bytes

/-- Malformed bytes: the offset of the first, how many there are, the value of the first, and why. -/
structure Utf8Fault where
  offset : Nat
  length : Nat
  byte : UInt8
  reason : Utf8Reason
deriving DecidableEq, Repr

/-- Decode after passing over `skip` bytes; `offset` counts the bytes before. -/
def decodeStrictFrom : (skip offset : Nat) → List UInt8 → Except Utf8Fault (List Char)
  | _, _, [] => .ok []
  | skip + 1, offset, _ :: rest => decodeStrictFrom skip (offset + 1) rest
  | 0, offset, b :: rest =>
    match readUnit b rest with
    | .scalar c more => (decodeStrictFrom more (offset + 1) rest).map (c :: ·)
    | .fault reason more => .error ⟨offset, more + 1, b, reason⟩

/-- Decode bytes that have to be UTF-8 throughout. -/
def decodeStrict (bytes : List UInt8) : Except Utf8Fault (List Char) := decodeStrictFrom 0 0 bytes

/-- ASCII bytes are their characters. -/
theorem decodeLossy_ascii (bytes : List UInt8) (ascii : ∀ b ∈ bytes, b < 0x80) :
    decodeLossy bytes = bytes.map (fun b => Char.ofNat b.toNat) := by
  unfold decodeLossy
  induction bytes with
  | nil => rfl
  | cons b rest inductionHypothesis =>
    have head : b < 0x80 := ascii b List.mem_cons_self
    simp only [decodeLossyFrom, readUnit, head, if_true, List.map_cons]
    rw [inductionHypothesis (fun c member => ascii c (List.mem_cons_of_mem b member))]

end ComLayout.Text
