/-
# Texts as bytes

A text travels as its bytes in UTF-8.  Bytes that are no text are refused with the place of the
first fault: the number of bytes in front of it that are text, and the number of bytes that it
spans, unless the bytes end inside a character.
-/

namespace RemoteCall.Text

/-- The first fault of bytes that are not UTF-8. -/
structure Utf8Fault where
  /-- The number of bytes in front of the fault. -/
  start : Nat
  /-- The number of bytes of the fault; none when the bytes end inside a character. -/
  span : Option Nat
deriving DecidableEq, Repr, Inhabited

/-- The text of a fault. -/
def Utf8Fault.text (f : Utf8Fault) : String :=
  match f.span with
  | some n => s!"invalid utf-8 sequence of {n} bytes from index {f.start}"
  | none => s!"incomplete utf-8 byte sequence from index {f.start}"

/-- The bytes that may come second in a character, by its first byte, and how many bytes come
after that one; nothing for a byte that starts no character of two or more bytes. -/
def secondByte? (first : UInt8) : Option (UInt8 × UInt8 × Nat) :=
  if 0xC2 ≤ first ∧ first ≤ 0xDF then some (0x80, 0xBF, 0)
  else if first = 0xE0 then some (0xA0, 0xBF, 1)
  else if first = 0xED then some (0x80, 0x9F, 1)
  else if 0xE1 ≤ first ∧ first ≤ 0xEF then some (0x80, 0xBF, 1)
  else if first = 0xF0 then some (0x90, 0xBF, 2)
  else if 0xF1 ≤ first ∧ first ≤ 0xF3 then some (0x80, 0xBF, 2)
  else if first = 0xF4 then some (0x80, 0x8F, 2)
  else none

/-- Whether a byte continues a character. -/
def isContinuation (b : UInt8) : Bool := 0x80 ≤ b && b ≤ 0xBF

/-- Where the bytes after the second byte of a character stop being its continuation: the number
of good ones, and whether the bytes end there. -/
def continuations : Nat → List UInt8 → Nat × Bool
  | 0, _ => (0, false)
  | _ + 1, [] => (0, true)
  | n + 1, b :: rest =>
    if isContinuation b then
      let (good, ended) := continuations n rest
      (good + 1, ended)
    else (0, false)

/-- The first fault of some bytes, of which `start` come before them; `inside` bytes at the front
belong to a character that has been looked at. -/
def utf8FaultFrom? (start inside : Nat) : List UInt8 → Option Utf8Fault
  | [] => none
  | b :: rest =>
    match inside with
    | inside' + 1 => utf8FaultFrom? (start + 1) inside' rest
    | 0 =>
      if b < 0x80 then utf8FaultFrom? (start + 1) 0 rest
      else
        match secondByte? b with
        | none => some ⟨start, some 1⟩
        | some (low, high, more) =>
          match rest with
          | [] => some ⟨start, none⟩
          | second :: tail =>
            if low ≤ second && second ≤ high then
              let (good, ended) := continuations more tail
              if good = more then utf8FaultFrom? (start + 1) (more + 1) rest
              else if ended then some ⟨start, none⟩
              else some ⟨start, some (good + 2)⟩
            else some ⟨start, some 1⟩

/-- The first fault of bytes that are not UTF-8; none when they are. -/
def utf8Fault? (bytes : List UInt8) : Option Utf8Fault := utf8FaultFrom? 0 0 bytes

/-- The bytes of a text. -/
def toBytes (s : String) : List UInt8 := s.toUTF8.data.toList

/-- The text that some bytes spell; none when they spell no text. -/
def ofBytes? (bytes : List UInt8) : Option String := String.fromUTF8? ⟨bytes.toArray⟩

theorem ofBytes?_toBytes (s : String) : ofBytes? (toBytes s) = some s := by
  have h : (⟨(toBytes s).toArray⟩ : ByteArray) = s.toByteArray := by
    simp [toBytes]
  simp only [ofBytes?, h, String.fromUTF8?, dif_pos s.isValidUTF8]
  rfl

theorem toBytes_of_ofBytes? {bytes : List UInt8} {s : String} (h : ofBytes? bytes = some s) :
    toBytes s = bytes := by
  simp only [ofBytes?, String.fromUTF8?] at h
  split at h
  · cases h
    simp [toBytes, String.fromUTF8]
  · cases h

end RemoteCall.Text
