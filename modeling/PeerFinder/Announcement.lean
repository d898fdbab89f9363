import PeerFinder.Error
import PeerFinder.Peer

/-!
# Announcements on the local network

A node announces its addresses together with a text: the tag of its network and the services it
offers, with commas between them. `Announcement.encode` writes that text within the limit of the
local network, and `Announcement.sighting?` reads an announcement for a listener with a tag.
-/

namespace PeerFinder

/-- What a node announces: its addresses, and possibly a text. -/
structure Announcement where
  info : PeerInfo
  data : Option String
deriving DecidableEq

namespace Announcement

/-- The most bytes that the text of an announcement may have. -/
def dataLimit : Nat := 245

/-- The character between the tag and the services. -/
def separator : Char := ','

/-- A tag and services as one text. -/
def render (tag : List Char) (services : List (List Char)) : List Char :=
  tag ++ services.flatMap fun service => separator :: service

/-- The text of an announcement, if it is within the limit. -/
def encode (tag : String) (services : List String) : Except Error String :=
  let text := String.ofList (render tag.toList (services.map String.toList))
  if text.utf8ByteSize ≤ dataLimit then .ok text
  else .error (.config "mdns user data: User-defined data exceeds max length")

/-- The services in a text that carries the tag; empty names are left out. -/
def services? (tag : String) (data : String) : Option (List String) :=
  match data.toList.splitOn separator with
  | [] => none
  | head :: rest =>
      if head = tag.toList then
        some ((rest.filter fun field => !field.isEmpty).map String.ofList)
      else none

/-- The peer behind an announcement, if its text carries the tag. -/
def sighting? (tag : String) (announcement : Announcement) : Option Sighting := do
  let services ← services? tag (← announcement.data)
  some ⟨announcement.info, .ofList services⟩

end Announcement

end PeerFinder
