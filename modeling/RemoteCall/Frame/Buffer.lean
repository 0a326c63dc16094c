/-
# Frames in a buffer

A connection collects the bytes that it reads in a buffer, and those that it writes in another one.
A frame is taken off the front of a buffer, or put at its end, in place.  What a step has done to
the buffer stays done when the step is refused, so the order of checks and changes matters.
-/
import RemoteCall.Frame.Basic

namespace RemoteCall

/-- A step on a buffer, which may be refused. -/
abbrev BufferStep (α : Type) : Type := ExceptT Frame.Fault (StateM (List UInt8)) α

namespace BufferStep

/-- What a step gives, and the buffer that it leaves. -/
def on {α : Type} (step : BufferStep α) (buffer : List UInt8) :
    Except Frame.Fault α × List UInt8 :=
  StateT.run (ExceptT.run step) buffer

/-- Takes bytes off the front of the buffer. -/
def splitOff (n : Nat) : BufferStep (List UInt8) := do
  let buffer ← get
  set (buffer.drop n)
  pure (buffer.take n)

/-- Puts bytes at the end of the buffer. -/
def push (bytes : List UInt8) : BufferStep Unit := modify (· ++ bytes)

end BufferStep

/-- Puts a frame at the end of the buffer. -/
def Frame.put (f : Frame) : BufferStep Unit := do
  if f.payload.length > maxPayload then throw (.payloadTooLong f.payload.length)
  BufferStep.push [f.version.number]
  BufferStep.push [f.type.byte]
  BufferStep.push (Wire.bigEndian 8 f.correlation.toNat)
  BufferStep.push (Wire.bigEndian 4 f.payload.length)
  BufferStep.push f.payload

/-- Takes the frame at the front of the buffer; nothing as long as more bytes are needed. -/
def Framing.take (c : Framing) : BufferStep (Option Frame) := do
  let buffer ← get
  match FrameHeader.read? buffer with
  | none => pure none
  | some (h, _) =>
    match c.checkHeader h with
    | .error e => throw e
    | .ok type =>
      let size := Frame.headerSize + h.length
      if buffer.length < size then pure none
      else
        let bytes ← BufferStep.splitOff size
        pure <| some
          { version := h.version, type, correlation := h.correlation
            payload := bytes.drop Frame.headerSize }

end RemoteCall
