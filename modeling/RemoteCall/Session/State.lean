/-
# The states of a session

A session goes through five states in order.  It may skip the drain, and it may be lost at any
time; a lost session stays lost.
-/

namespace RemoteCall

/-- The state of a session. -/
inductive SessionState
  /-- The connection is being made. -/
  | connecting
  /-- The handshake is under way. -/
  | negotiating
  /-- Requests flow. -/
  | active
  /-- No request is sent any more; requests under way may still be answered. -/
  | suspending
  /-- The session is over. -/
  | disconnected
deriving DecidableEq, Repr, Inhabited

namespace SessionState

/-- The name of a state. -/
def name : SessionState → String
  | connecting => "connecting"
  | negotiating => "negotiating"
  | active => "active"
  | suspending => "suspending"
  | disconnected => "disconnected"

/-- All states, in the order in which a session goes through them. -/
def all : List SessionState := [connecting, negotiating, active, suspending, disconnected]

/-- The state of a name. -/
def ofName? (name : String) : Option SessionState := all.find? fun s => s.name == name

/-- Whether a session is over. -/
def isTerminal : SessionState → Bool
  | disconnected => true
  | _ => false

/-- Whether a session may go from one state to another. -/
def mayBecome : SessionState → SessionState → Bool
  | connecting, negotiating | negotiating, active | active, suspending => true
  | now, disconnected => !now.isTerminal
  | _, _ => false

/-- The place of a state in the order. -/
def rank : SessionState → Nat
  | connecting => 0
  | negotiating => 1
  | active => 2
  | suspending => 3
  | disconnected => 4

theorem rank_lt_of_mayBecome {s t : SessionState} (h : s.mayBecome t = true) :
    s.rank < t.rank := by
  revert h
  cases s <;> cases t <;> decide

theorem mayBecome_of_isTerminal {s : SessionState} (h : s.isTerminal = true)
    (t : SessionState) : s.mayBecome t = false := by
  revert h
  cases s <;> cases t <;> decide

theorem isTerminal_iff (s : SessionState) : s.isTerminal = true ↔ s = disconnected := by
  cases s <;> decide

/-- The states that a session passes through on its way from the start to a given state. -/
def path : SessionState → List SessionState
  | connecting => []
  | negotiating => [negotiating]
  | active => [negotiating, active]
  | suspending => [negotiating, active, suspending]
  | disconnected => [negotiating, active, suspending, disconnected]

end SessionState

end RemoteCall
