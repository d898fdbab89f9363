import PeerFinder.Config.Override
import PeerFinder.Config.Reader
import PeerFinder.Config.Validity
import PeerFinder.Config.Writer

/-!
# Loading a configuration

A configuration is loaded from the bytes of a file and overrides, which win over the file, and must
then be valid.
-/

namespace PeerFinder.Config

/-- Why a configuration is not loaded. -/
inductive LoadFault where
  /-- There is no file. -/
  | missing
  /-- The bytes of the file are no text. -/
  | notText
  /-- The text is no document of settings. -/
  | unreadable
  /-- The settings are not valid. -/
  | invalid (fault : Fault)
deriving DecidableEq, Repr

/-- The error that a fault is to a caller. What is wrong with the text of a document is not said. -/
def LoadFault.toError? : LoadFault → Option Error
  | .missing => some (.io "No such file or directory (os error 2)")
  | .notText => some (.io "stream did not contain valid UTF-8")
  | .unreadable => none
  | .invalid fault => some fault.toError

/-- The settings of a text, which must be valid. -/
def ofText (text : String) : Except LoadFault Config := do
  let some config := parse? text | throw .unreadable
  config.validate.mapError .invalid
  return config

/-- Load a configuration from the content of a file, if there is one. -/
def load (file : Option ByteArray) (lookup : String → Option String) :
    Except LoadFault Config := do
  let some bytes := file | throw .missing
  let some text := String.fromUTF8? bytes | throw .notText
  let some config := parse? text | throw .unreadable
  let config := config.override lookup
  config.validate.mapError .invalid
  return config

/-- Whether the text of a configuration reads back as the same one, if there is such a text. -/
def roundTrips? (config : Config) : Option Bool := do
  let text ← config.render?
  let readBack ← parse? text
  some (readBack = config)

end PeerFinder.Config
