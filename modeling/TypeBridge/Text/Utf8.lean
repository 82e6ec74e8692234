import TypeBridge.Text.Quoted

/-!
# UTF-8

Reading UTF-8 strictly: the well-formed sequences are those of the standard, so a sequence has its
shortest form, and there are no surrogates and nothing beyond the last code point. A fault says what is
wrong and which bytes are to blame.
-/
namespace TypeBridge.Text

/-- Why bytes are not UTF-8. -/
inductive Utf8Fault.Reason where
  /-- No sequence begins with this byte. -/
  | start
  /-- The sequence does not go on with this byte. -/
  | continuation
  /-- The bytes end within a sequence. -/
  | unfinished
  deriving DecidableEq, Repr

/-- What is wrong, as it is told. -/
def Utf8Fault.Reason.message : Utf8Fault.Reason → String
  | .start => "invalid start byte"
  | .continuation => "invalid continuation byte"
  | .unfinished => "unexpected end of data"

/-- A fault in the encoding: `count` bytes from `position` on, the first of which is `byte`. -/
structure Utf8Fault where
  reason : Utf8Fault.Reason
  byte : UInt8
  position : Nat
  count : Nat
  deriving DecidableEq, Repr

/-- A fault in full: the byte or the range of bytes, and the reason. -/
def Utf8Fault.message (fault : Utf8Fault) : String :=
  let place :=
    if fault.count = 1 then
      "byte 0x" ++ .ofList (hexDigits 2 fault.byte.toNat) ++ " in position " ++
        toString fault.position
    else
      "bytes in position " ++ toString fault.position ++ "-" ++
        toString (fault.position + fault.count - 1)
  "'utf-8' codec can't decode " ++ place ++ ": " ++ fault.reason.message

/-- How many bytes follow a first byte, and between which bounds the second one lies. -/
def sequenceShape (b : UInt8) : Option (Nat × UInt8 × UInt8) :=
  if b < 0x80 then some (0, 0, 0)
  else if b < 0xC2 then none
  else if b < 0xE0 then some (1, 0x80, 0xBF)
  else if b = 0xE0 then some (2, 0xA0, 0xBF)
  else if b = 0xED then some (2, 0x80, 0x9F)
  else if b < 0xF0 then some (2, 0x80, 0xBF)
  else if b = 0xF0 then some (3, 0x90, 0xBF)
  else if b < 0xF4 then some (3, 0x80, 0xBF)
  else if b = 0xF4 then some (3, 0x80, 0x8F)
  else none

/-- The code point of a first byte with `n` bytes after it. -/
def firstBits (n : Nat) (b : UInt8) : Nat :=
  match n with
  | 0 => b.toNat
  | 1 => b.toNat % 0x20
  | 2 => b.toNat % 0x10
  | _ => b.toNat % 0x08

/-- The bytes of a sequence after the first: `n` are due, the next between `low` and `high`, and `seen`
have been read. -/
def scanContinuation :
    (n : Nat) → (low high : UInt8) → (seen code : Nat) → List UInt8 →
      Except (Utf8Fault.Reason × Nat) (Nat × List UInt8)
  | 0, _, _, _, code, bytes => .ok (code, bytes)
  | _ + 1, _, _, seen, _, [] => .error (.unfinished, seen)
  | n + 1, low, high, seen, code, b :: bytes =>
    if low ≤ b && b ≤ high then
      scanContinuation n 0x80 0xBF (seen + 1) (code * 0x40 + b.toNat % 0x40) bytes
    else .error (.continuation, seen)

/-- The characters of bytes that begin at `position`, by at most so many steps as the first argument
says. -/
def decodeFrom : Nat → Nat → List UInt8 → Except Utf8Fault (List Char)
  | 0, _, _ => .ok []
  | _ + 1, _, [] => .ok []
  | fuel + 1, position, b :: bytes =>
    match sequenceShape b with
    | none => .error ⟨.start, b, position, 1⟩
    | some (n, low, high) =>
      match scanContinuation n low high 1 (firstBits n b) bytes with
      | .error (reason, count) => .error ⟨reason, b, position, count⟩
      | .ok (code, rest) =>
        match decodeFrom fuel (position + n + 1) rest with
        | .error fault => .error fault
        | .ok chars => .ok (Char.ofNat code :: chars)

/-- The characters that bytes encode. -/
def decodeUtf8 (bytes : List UInt8) : Except Utf8Fault (List Char) :=
  decodeFrom bytes.length 0 bytes

/-- The bytes that encode a text. -/
def encodeUtf8 (s : List Char) : List UInt8 := (String.ofList s).toUTF8.toList

/-- The bytes without a byte-order mark at their beginning. -/
def dropByteOrderMark : List UInt8 → List UInt8
  | 0xEF :: 0xBB :: 0xBF :: rest => rest
  | bytes => bytes

end TypeBridge.Text
