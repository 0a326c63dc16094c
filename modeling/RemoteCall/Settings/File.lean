/-
# Settings from a file

A file of settings is found below the directory that the system keeps such files in.  A file
that is asked for by its path must be there; the file at the default place may be missing.
-/
import RemoteCall.Settings.Document
import RemoteCall.Text.Utf8

namespace RemoteCall.Settings

/-- Why a file gives no settings. -/
inductive Refusal
  /-- There is no such file. -/
  | missing (path : String)
  /-- The bytes of the file are no text. -/
  | notText (path : String)
  /-- The text is no document of settings. -/
  | malformed
  /-- The settings cannot be used. -/
  | unusable (failure : Failure)
deriving DecidableEq, Repr, Inhabited

/-- The failure for a refused file, given the wording for a text that is no document of
settings. -/
def Refusal.toFailure (wording : String) : Refusal → Failure
  | missing path => .config <|
    "Failed to read config file " ++ path ++ ": No such file or directory (os error 2)"
  | notText path => .config <|
    "Failed to read config file " ++ path ++ ": stream did not contain valid UTF-8"
  | malformed => .config wording
  | unusable failure => failure

/-- Settings, if they can be used. -/
def usable (s : Settings) : Except Refusal Settings :=
  match s.validate with
  | .ok () => .ok s
  | .error e => .error (.unusable e)

/-- The settings of a file, given its bytes if there is one. -/
def ofFile (path : String) (content : Option (List UInt8)) : Except Refusal Settings :=
  match content with
  | none => .error (.missing path)
  | some bytes =>
    match Text.ofBytes? bytes with
    | none => .error (.notText path)
    | some s =>
      match ofDocument? s with
      | none => .error .malformed
      | some settings => usable settings

/-- The settings of the file at the default place, overridden by the environment; the defaults if
there is no such file. -/
def load (path : String) (content : Option (List UInt8)) (env : Environment) :
    Except Refusal Settings := do
  let base ←
    match content with
    | none => .ok {}
    | some _ => ofFile path content
  usable (base.withEnvironment env)

/-! ## The default place -/

/-- A path below another one. -/
def joinPath (base part : String) : String :=
  if base.toList.getLast?.all (· == '/') then base ++ part else base ++ "/" ++ part

/-- Whether a path starts at the root. -/
def isAbsolute (path : String) : Bool := path.toList.head? == some '/'

/-- The default place of the file: below the directory for settings if it is given and absolute,
else below the home directory; `account` is the home that the system knows of. -/
def defaultPath? (settingsHome home account : Option String) : Option String :=
  let base :=
    match settingsHome.filter isAbsolute with
    | some d => some d
    | none => ((home.filter (· != "")).or account).map (joinPath · ".config")
  base.map fun d => joinPath (joinPath d "sockrpc") "config.toml"

end RemoteCall.Settings
