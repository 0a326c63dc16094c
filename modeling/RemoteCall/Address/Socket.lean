/-
# Addresses of sockets

An address is a host number of four or sixteen bytes and a port.  Hosts of sixteen bytes are
written in groups of two bytes, between brackets, with the longest run of zero groups left out.
-/
import RemoteCall.Text.Number

namespace RemoteCall

/-- The address of a socket. -/
inductive SocketAddress
  /-- A host of four bytes and a port. -/
  | v4 (a b c d : UInt8) (port : UInt16)
  /-- A host of eight groups, the number of the interface that it is reached by, and a port. -/
  | v6 (groups : List UInt16) (scope : UInt32) (port : UInt16)
deriving DecidableEq, Repr, Inhabited

namespace SocketAddress

/-- The port of an address. -/
def port : SocketAddress → UInt16
  | v4 _ _ _ _ port => port
  | v6 _ _ port => port

/-- The address of this machine to itself. -/
def loopback (port : UInt16) : SocketAddress := v4 127 0 0 1 port

/-- The address that stands for all addresses of this machine. -/
def anyHost (port : UInt16) : SocketAddress := v4 0 0 0 0 port

/-! ## Reading

A reader takes an element off the front of a text, or nothing. -/

/-- A reader of an element at the front of a text. -/
abbrev Read (α : Type) : Type := StateT (List Char) Option α

/-- Takes a given character. -/
def char (c : Char) : Read Unit := fun l =>
  match l with
  | d :: rest => if d = c then some ((), rest) else none
  | [] => none

/-- Takes a number below a limit, of at most `places` digits if so many are given; zeros in front
of it may be refused. -/
def number (base limit : Nat) (places : Option Nat) (leadingZeros : Bool) : Read Nat := fun l =>
  let (digits, rest) := Text.spanDigits base l
  let n := Text.ofDigits base digits
  if digits.isEmpty || (places.any (· < digits.length)) || limit ≤ n ||
      (!leadingZeros && digits.length > 1 && digits.head? == some '0')
  then none else some (n, rest)

/-- Takes one of the four numbers of a host. -/
def octet : Read UInt8 := do
  let n ← number 10 256 (some 3) false
  pure (UInt8.ofNat n)

/-- Takes a host of four bytes. -/
def host4 : Read (UInt8 × UInt8 × UInt8 × UInt8) := do
  let a ← octet
  char '.'
  let b ← octet
  char '.'
  let c ← octet
  char '.'
  let d ← octet
  pure (a, b, c, d)

/-- Two bytes as one group. -/
def group (high low : UInt8) : UInt16 := UInt16.ofNat (high.toNat * 256 + low.toNat)

/-- Takes the separator in front of every group but the first. -/
def separator (first : Bool) : Read Unit := if first then pure () else char ':'

/-- Takes up to `room` groups, as many as there are, and says whether the last two of them were
written as a host of four bytes. -/
def groups (first : Bool) : Nat → List Char → (List UInt16 × Bool) × List Char
  | 0, l => (([], false), l)
  | room + 1, l =>
    let embedded := if room = 0 then none else (do separator first; host4).run l
    match embedded with
    | some ((a, b, c, d), rest) => (([group a b, group c d], true), rest)
    | none =>
      match (do separator first; number 16 65536 (some 4) true).run l with
      | none => (([], false), l)
      | some (n, rest) =>
        let ((more, ended), rest) := groups false room rest
        ((UInt16.ofNat n :: more, ended), rest)

/-- Takes a host of eight groups.  Two colons stand for one or more zero groups. -/
def host6 : Read (List UInt16) := fun l =>
  let ((head, ended), rest) := groups true 8 l
  if head.length = 8 then some (head, rest)
  else if ended then none
  else
    match (do char ':'; char ':').run rest with
    | none => none
    | some (_, rest) =>
      let ((tail, _), rest) := groups true (7 - head.length) rest
      some (head ++ List.replicate (8 - head.length - tail.length) 0 ++ tail, rest)

/-- Takes a port. -/
def readPort : Read UInt16 := do
  char ':'
  let n ← number 10 65536 none true
  pure (UInt16.ofNat n)

/-- Takes the number of an interface, or zero. -/
def readScope : Read UInt32 := fun l =>
  match (do char '%'; number 10 4294967296 none true).run l with
  | some (n, rest) => some (UInt32.ofNat n, rest)
  | none => some (0, l)

/-- Takes an address with a host of four bytes. -/
def read4 : Read SocketAddress := do
  let (a, b, c, d) ← host4
  let port ← readPort
  pure (v4 a b c d port)

/-- Takes an address with a host of eight groups. -/
def read6 : Read SocketAddress := do
  char '['
  let groups ← host6
  let scope ← readScope
  char ']'
  let port ← readPort
  pure (v6 groups scope port)

/-- What a reader takes, if that is the whole text. -/
def whole? {α : Type} (r : Read α) (l : List Char) : Option α :=
  match r.run l with
  | some (a, []) => some a
  | _ => none

/-- The address of a text. -/
def ofString? (s : String) : Option SocketAddress :=
  (whole? read4 s.toList).or (whole? read6 s.toList)

/-! ## Writing -/

/-- The text of four numbers. -/
def host4Text (a b c d : UInt8) : String := s!"{a}.{b}.{c}.{d}"

/-- A group without the zeros in front of it. -/
def groupText (g : UInt16) : String := String.ofList (Nat.toDigits 16 g.toNat)

/-- The number of zero groups at the front. -/
def zeroRun (l : List UInt16) : Nat := (l.takeWhile (· == 0)).length

/-- The start and the length of the longest run of zero groups, the first of several. -/
def longestZeroRun (l : List UInt16) : Nat × Nat :=
  (List.range l.length).foldl
    (fun best i =>
      let run := zeroRun (l.drop i)
      if run > best.2 then (i, run) else best)
    (0, 0)

/-- The text of groups with colons between them. -/
def joined (l : List UInt16) : String := ":".intercalate (l.map groupText)

/-- The text of eight groups: the longest run of two or more zero groups is left out, and a host of
four bytes in disguise is shown as such. -/
def host6Text (l : List UInt16) : String :=
  match l with
  | [0, 0, 0, 0, 0, 0xFFFF, g, h] =>
    "::ffff:" ++ host4Text (UInt8.ofNat (g.toNat / 256)) (UInt8.ofNat (g.toNat % 256))
      (UInt8.ofNat (h.toNat / 256)) (UInt8.ofNat (h.toNat % 256))
  | _ =>
    let (start, run) := longestZeroRun l
    if run > 1 then joined (l.take start) ++ "::" ++ joined (l.drop (start + run))
    else joined l

/-- The text of an address. -/
def text : SocketAddress → String
  | v4 a b c d port => host4Text a b c d ++ s!":{port}"
  | v6 groups scope port =>
    let zone := if scope = 0 then "" else s!"%{scope}"
    "[" ++ host6Text groups ++ zone ++ s!"]:{port}"

end SocketAddress

end RemoteCall
