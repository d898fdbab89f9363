import PeerFinder.Environment

/-!
# Assembling mechanisms

A new mechanism gets its own token, announces this node with the addresses of the transport, and is
added at the end of the environment.
-/

namespace PeerFinder.Environment

/-- Add the mechanism of the local network. It is bound to the local network if there is one to
bind to. -/
def addLocalNet (env : Environment) (tag : String) (services : List String)
    (queryTimeout : Clock.Span) (bound : Bool) : Nat × Environment :=
  let (shutdown, env) := env.root
  env.addMechanism <| .localNet
    { info := env.transport.localInfo
      tag := tag
      services := .ofList services
      queryTimeout := queryTimeout
      bound := bound
      queue := { localId := env.transport.localId }
      shutdown := shutdown }

/-- Add the mechanism of the seeds. -/
def addSeeds (env : Environment) (seeds : List Seed) (policy : Seed.Policy) : Nat × Environment :=
  let (shutdown, env) := env.root
  env.addMechanism (.seeds { Seed.Service.ofSeeds seeds shutdown with policy := policy })

/-- Add the mechanism of the seeds that are written in texts. What is no seed is noted and left
out. -/
def addSeedTexts (env : Environment) (texts : List String) (policy : Seed.Policy) :
    Nat × Environment :=
  let (seeds, errors) := Seed.Service.readAll texts
  (errors.foldl (fun env error => env.note (.seedIgnored error)) env).addSeeds seeds policy

/-- Add the mechanism of the routing table. -/
def addRendezvous (env : Environment) (label : String) (interval queryTimeout : Clock.Span) :
    Nat × Environment :=
  let (shutdown, env) := env.root
  env.addMechanism <| .rendezvous
    { advertisement := { label := label, info := env.transport.localInfo, interval := interval }
      queryTimeout := queryTimeout
      shutdown := shutdown }

end PeerFinder.Environment
