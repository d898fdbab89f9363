import PeerFinder.Record.Varint
import PeerFinder.Text.Quoted

/-!
# Errors

What can go wrong, by cause, and the one wording of each cause.
-/

namespace PeerFinder

/-- A failure that a caller sees. -/
inductive Error where
  /-- A mechanism did not start; only that mechanism is disabled. -/
  | mechanismStart (name reason : String)
  /-- A connection to one peer failed. -/
  | connection (reason : String)
  /-- A call ran past its bound. -/
  | timeout (call : String)
  /-- A text is no seed. -/
  | invalidSeed (input reason : String)
  /-- A configuration cannot be used. -/
  | config (reason : String)
  /-- A file could not be read. -/
  | io (reason : String)
  /-- Bytes are no record. -/
  | codec (fault : Record.CodecFault)
  /-- The routing table refused a call. -/
  | dht (reason : String)
  /-- Mechanisms that did not stop cleanly, in order. -/
  | shutdown (errors : List String)
deriving DecidableEq, Repr

/-- The wording of an error. -/
def Error.message : Error → String
  | .mechanismStart name reason => s!"failed to start discovery mechanism {name}: {reason}"
  | .connection reason => "Connection error: " ++ reason
  | .timeout call => "timed out: " ++ call
  | .invalidSeed input reason => s!"invalid seed address {Text.Quoted.quote input}: {reason}"
  | .config reason => "Configuration error: " ++ reason
  | .io reason => "I/O error: " ++ reason
  | .codec fault => "codec error: " ++ fault.message
  | .dht reason => "DHT error: " ++ reason
  | .shutdown errors => "shutdown errors: " ++ String.intercalate "; " errors

end PeerFinder
