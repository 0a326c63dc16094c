/-
# Hosts

A host is given as a number or by name.  A number comes in any of the forms that the system's own
look-up reads: one to four numbers of any base, or eight groups, with the interface that it is
reached by behind a per cent sign.  A name holds letters, digits, hyphens and underscores between
dots.  Which machine a name stands for is known to name servers, and they are not asked here: no
name but that of this machine has an address.
-/
import RemoteCall.Address.Socket
import RemoteCall.Text.Blank

namespace RemoteCall

/-- Why a host has no address. -/
inductive HostFault
  /-- It holds a NUL, which no host does. -/
  | holdsNul
  /-- It is neither a number nor a name. -/
  | unknown
  /-- It is a name, and there is no answer to the question which machine has it. -/
  | unanswered
deriving DecidableEq, Repr, Inhabited

/-- The text of a fault. -/
def HostFault.message : HostFault → String
  | holdsNul => "file name contained an unexpected NUL byte"
  | unknown => "failed to lookup address information: Name or service not known"
  | unanswered => "failed to lookup address information: Temporary failure in name resolution"

namespace SocketAddress

/-! ## Hosts of four bytes -/

/-- A number that is written with digits only, and at least one. -/
def digitsOnly? (base : Nat) (digits : List Char) : Option Nat :=
  if digits.isEmpty || !digits.all (Text.isDigit base) then none
  else some (Text.ofDigits base digits)

/-- A number in the form that its front shows: base sixteen after `0x`, base eight after a zero,
else base ten. -/
def anyBase? (l : List Char) : Option Nat :=
  match l with
  | '0' :: 'x' :: digits => digitsOnly? 16 digits
  | '0' :: 'X' :: digits => digitsOnly? 16 digits
  | '0' :: digits => if digits.isEmpty then some 0 else digitsOnly? 8 digits
  | digits => digitsOnly? 10 digits

/-- The host number of one to four numbers: each but the last is a byte, and the last one fills
the bytes that are left. -/
def looseHost? : List Nat → Option Nat
  | [a] => if a < UInt32.size then some a else none
  | [a, b] => if a < 256 ∧ b < 0x1000000 then some (a * 0x1000000 + b) else none
  | [a, b, c] =>
    if a < 256 ∧ b < 256 ∧ c < 0x10000 then some (a * 0x1000000 + b * 0x10000 + c) else none
  | [a, b, c, d] =>
    if a < 256 ∧ b < 256 ∧ c < 256 ∧ d < 256 then
      some (a * 0x1000000 + b * 0x10000 + c * 0x100 + d)
    else none
  | _ => none

/-- The address of a host of four bytes that is given as one to four numbers. -/
def ofLooseHost? (host : List Char) (port : UInt16) : Option SocketAddress := do
  let numbers ← (Text.pieces '.' host).mapM anyBase?
  let n ← looseHost? numbers
  pure (v4 (UInt8.ofNat (n / 0x1000000)) (UInt8.ofNat (n / 0x10000 % 256))
    (UInt8.ofNat (n / 0x100 % 256)) (UInt8.ofNat (n % 256)) port)

/-! ## Hosts of eight groups -/

/-- Whether a host means something on one link or one machine only, so that interfaces may be
named with it. -/
def isOfOneLink (groups : List UInt16) : Bool :=
  match groups with
  | [] => false
  | g :: _ => g &&& 0xFFC0 == 0xFE80 || g &&& 0xFF0F == 0xFF01 || g &&& 0xFF0F == 0xFF02

/-- The number of an interface that stands behind a host.  The interface by which a machine
reaches itself has the name `lo` and the number one. -/
def interface? (groups : List UInt16) (zone : List Char) : Option UInt32 :=
  if isOfOneLink groups && zone == ['l', 'o'] then some 1
  else (digitsOnly? 10 zone).bind fun n => if n < UInt32.size then some (UInt32.ofNat n) else none

/-! ## Names -/

/-- Whether a text may stand between the dots of a name. -/
def isLabel (l : List Char) : Bool :=
  !l.isEmpty && l.length ≤ 63 && l.all fun c => c.isAlphanum || c == '-' || c == '_'

/-- Whether a text may be the name of a host.  It may end in a dot, and a single dot is the name of
the root. -/
def isHostName (host : List Char) : Bool :=
  let bare := if host.getLast? = some '.' then host.dropLast else host
  host == ['.'] ||
    (bare.length ≤ 253 && host.head? != some '-' && (Text.pieces '.' bare).all isLabel)

/-- Whether a name is that of this machine. -/
def isOwnName (host : List Char) : Bool := host.map Char.toLower == "localhost".toList

/-! ## Addresses -/

/-- The address of a host. -/
def ofHost (host : List Char) (port : UInt16) : Except HostFault SocketAddress :=
  if '\x00' ∈ host then .error .holdsNul
  else
    match ofLooseHost? host port with
    | some a => .ok a
    | none =>
      match whole? host6 (host.takeWhile (· != '%')), host.dropWhile (· != '%') with
      | some groups, [] => .ok (v6 groups 0 port)
      | some groups, _ :: zone =>
        match interface? groups zone with
        | some scope => .ok (v6 groups scope port)
        | none => .error .unknown
      | none, _ =>
        if isOwnName host then .ok (loopback port)
        else if isHostName host then .error .unanswered
        else .error .unknown

end SocketAddress

end RemoteCall
