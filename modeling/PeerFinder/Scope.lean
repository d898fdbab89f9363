import PeerFinder.Activity

/-!
# Scopes

A scope bounds the life of background work: it can be cancelled, and it may have a deadline. Scopes
form trees. A token names a node of a tree by the path from it up to its root, so that the ancestors
of a token are its suffixes, and a token is cancelled exactly when it or an ancestor was cancelled,
whenever it was derived. A deadline is copied when a scope is derived, and a wait for the end of a scope
heeds both.
-/

namespace PeerFinder

/-- A node of the trees, by the path from it up to its root. -/
abbrev Token := List Nat

/-- All trees: the tokens that were cancelled themselves, and the number of tokens given out. -/
structure ScopeTree where
  cancelled : List Token := []
  issued : Nat := 0
deriving DecidableEq, Repr

namespace ScopeTree

/-- Give out a child of a token; a child of the empty path is a root. -/
def child (tree : ScopeTree) (parent : Token) : Token × ScopeTree :=
  (tree.issued :: parent, { tree with issued := tree.issued + 1 })

/-- Give out a root. -/
def root (tree : ScopeTree) : Token × ScopeTree :=
  tree.child []

/-- Cancel a token, and with it all its descendants. -/
def cancel (tree : ScopeTree) (token : Token) : ScopeTree :=
  { tree with cancelled := token :: tree.cancelled }

/-- Whether a token or an ancestor of it was cancelled. -/
def isCancelled (tree : ScopeTree) (token : Token) : Bool :=
  tree.cancelled.any fun ancestor => ancestor.isSuffixOf token

end ScopeTree

/-- A token and possibly a deadline. -/
structure Scope where
  token : Token
  deadline : Option Clock.Instant
deriving DecidableEq, Repr

namespace Scope

/-- A scope over a token, without a deadline. -/
def ofToken (token : Token) : Scope :=
  ⟨token, none⟩

/-- A root scope. -/
def new (tree : ScopeTree) : Scope × ScopeTree :=
  let (token, tree) := tree.root
  (ofToken token, tree)

/-- A child with the same deadline. -/
def child (scope : Scope) (tree : ScopeTree) : Scope × ScopeTree :=
  let (token, tree) := tree.child scope.token
  (⟨token, scope.deadline⟩, tree)

/-- A child that ends a span from now at the latest. A span that the clock does not reach adds no
deadline. -/
def withTimeout (scope : Scope) (now : Clock.Instant) (span : Clock.Span) (tree : ScopeTree) :
    Scope × ScopeTree :=
  let (token, tree) := tree.child scope.token
  (⟨token, Clock.earlier scope.deadline (Clock.after? now span)⟩, tree)

/-- Whether the scope was cancelled. -/
def isCancelled (scope : Scope) (tree : ScopeTree) : Bool :=
  tree.isCancelled scope.token

/-- Whether the scope was cancelled or its deadline has come. -/
def isDone (scope : Scope) (tree : ScopeTree) (now : Clock.Instant) : Bool :=
  scope.isCancelled tree || scope.deadline.any (· ≤ now)

/-- A wait for the end of a scope: it listens for the cancel of a token, and a timer runs up to the
deadline if there is one. -/
structure Wait where
  token : Token
  timer : Option Clock.Instant
deriving DecidableEq, Repr

/-- Begin to wait for the end of a scope. -/
def wait (scope : Scope) : Wait :=
  ⟨scope.token, scope.deadline⟩

namespace Wait

/-- A step of a wait: it ends by the cancel or by the timer, whichever comes first. -/
def step (now : Clock.Instant) : Activity.CallStep ScopeTree Wait Unit :=
  fun tree wait =>
    if tree.isCancelled wait.token then some (tree, .inr ())
    else
      match wait.timer with
      | some due => if due ≤ now then some (tree, .inr ()) else none
      | none => none

/-- When a wait may go on by itself. -/
def wake (wait : Wait) : Option Clock.Instant :=
  wait.timer

end Wait

end Scope

end PeerFinder
