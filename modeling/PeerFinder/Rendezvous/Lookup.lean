import PeerFinder.Rendezvous.Routing
import PeerFinder.Scope

/-!
# Looking up peers under a label

A query takes providers from a lookup until it has enough, the lookup ends, or its scope is done.
This node itself, repeated peers and errors do not count.
-/

namespace PeerFinder.Rendezvous

/-- When the next provider of a feed arrives, if that is being waited for. -/
def Feed.wake : Feed → Option Clock.Instant
  | .scripted _ _ due => due
  | .slots .. => none

/-- A query of a routing table. -/
structure Lookup where
  localId : PeerId
  scope : Scope
  limit : Nat
  feed : Feed
  /-- The peers found, in order. -/
  found : List PeerInfo := []

namespace Lookup

/-- The query after a provider was taken. -/
def take (lookup : Lookup) : Provider → Lookup
  | .error _ => lookup
  | .ok info =>
      if info.id = lookup.localId || lookup.found.any (·.id == info.id) then lookup
      else { lookup with found := lookup.found ++ [info] }

/-- What the query answers if it ends now. -/
def answer (lookup : Lookup) : List Sighting :=
  lookup.found.map Sighting.ofInfo

variable {κ : Type} [DecidableEq κ]

/-- A step of a query: it ends if it has enough or is done, and else asks for one provider. -/
def step (tree : ScopeTree) (moment : Moment) :
    Activity.CallStep (Noted (Routing κ)) Lookup (List Sighting) :=
  fun routing lookup =>
    if lookup.limit ≤ lookup.found.length || lookup.scope.isDone tree moment.now then
      some (routing, .inr lookup.answer)
    else
      match Routing.poll moment lookup.feed routing with
      | (.item provider feed, routing) =>
          some (routing, .inl ({ lookup with feed := feed }.take provider))
      | (.ended, routing) => some (routing, .inr lookup.answer)
      | (.pending feed, routing) =>
          if lookup.feed.wake = feed.wake then none
          else some (routing, .inl { lookup with feed := feed })

/-- When a query may go on by itself. -/
def wake (lookup : Lookup) : Option Clock.Instant :=
  Clock.earlier lookup.scope.deadline lookup.feed.wake

end Lookup

end PeerFinder.Rendezvous
