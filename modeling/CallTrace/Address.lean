import CallTrace.Text.Blank
import CallTrace.Text.Utf8
import CallTrace.Toml.Parser

/-!
The address of the collector that a sender connects to, and its configuration: a TOML text with a
host and a port, in which anything else is ignored.
-/

namespace CallTrace

/-- Where the collector listens. -/
structure Address where
  host : String
  port : UInt16
  deriving DecidableEq, Repr

/-- Why a configuration gives no address. -/
inductive ConfigError where
  /-- The file cannot be read as text. -/
  | unreadable
  /-- The text is no TOML, or lacks a host or a port of the right type. -/
  | malformed
  /-- A field has a value that makes no address. -/
  | invalid (field reason : String)
  deriving DecidableEq, Repr

/-- The wording of an error, where it is of this library. -/
def ConfigError.message? : ConfigError → Option String
  | .invalid field reason => some ("invalid " ++ field ++ ": " ++ reason)
  | _ => none

namespace Address

/-- The address as one text. -/
def text (a : Address) : String := a.host ++ ":" ++ toString a.port.toNat

/-- The address of a host and a port, where both can be used. The host is looked at first. -/
def validate (a : Address) : Except ConfigError Address :=
  if (trim a.host.toList).isEmpty then .error (.invalid "host" "must not be empty")
  else if a.port = 0 then .error (.invalid "port" "must be non-zero")
  else .ok a

/-- The address in the entries of a configuration. -/
def ofEntries? (entries : Toml.Entries) : Option Address :=
  match List.lookup "host" entries, List.lookup "port" entries with
  | some (.string host), some (.integer port) =>
    if 0 ≤ port ∧ port ≤ 65535 then some ⟨host, UInt16.ofNat port.toNat⟩ else none
  | _, _ => none

/-- The address in the text of a configuration. -/
def parse (s : String) : Except ConfigError Address :=
  match (Toml.parse? s).bind ofEntries? with
  | none => .error .malformed
  | some a => a.validate

/-- The address in a configuration file, by its content if there is such a file. -/
def ofFile (content : Option Bytes) : Except ConfigError Address :=
  match content.bind Utf8.decode? with
  | none => .error .unreadable
  | some s => parse s

end Address

end CallTrace
