import PeerFinder.Error

/-!
# Stores of signed items

A store holds one item at an address, each with a sequence number, and refuses an item whose number
is not larger than that of the item it would replace. It keeps a list of how it was used.
-/

namespace PeerFinder.Rendezvous

/-- A signed value with its sequence number. -/
structure Item where
  sequence : Int
  value : List UInt8
  signature : List UInt8
deriving DecidableEq, Repr

/-- One use of a store. -/
inductive Access (κ : Type) where
  /-- An address was read; `hit` says whether it held an item. -/
  | get (address : κ) (hit : Bool)
  /-- An item was stored. -/
  | put (address : κ) (sequence : Int) (value : List UInt8)
deriving DecidableEq, Repr

/-- The items by address, and the uses so far, the latest first. A store that is offline can be read
but not written. -/
structure ItemStore (κ : Type) where
  items : List (κ × Item) := []
  online : Bool := true
  accesses : List (Access κ) := []

namespace ItemStore

variable {κ : Type} [DecidableEq κ]

/-- The item at an address. -/
def item? (store : ItemStore κ) (address : κ) : Option Item :=
  (store.items.find? (·.1 = address)).map Prod.snd

/-- The store without the item at an address. -/
def erase (store : ItemStore κ) (address : κ) : ItemStore κ :=
  { store with items := store.items.filter (·.1 ≠ address) }

/-- The store with an item at an address, whatever was there. -/
def insert (store : ItemStore κ) (address : κ) (item : Item) : ItemStore κ :=
  { store with items := (address, item) :: (store.erase address).items }

/-- Read an address. -/
def get (store : ItemStore κ) (address : κ) : Option Item × ItemStore κ :=
  let held := store.item? address
  (held, { store with accesses := .get address held.isSome :: store.accesses })

/-- Whether an item may be stored at an address: its sequence number is larger than the one held. -/
def accepts (store : ItemStore κ) (address : κ) (item : Item) : Bool :=
  (store.item? address).all (·.sequence < item.sequence)

/-- Store an item. -/
def put (store : ItemStore κ) (address : κ) (item : Item) : Except Error (ItemStore κ) :=
  if !store.online then .error (.dht "store offline")
  else if !store.accepts address item then .error (.dht "sequence number too old")
  else
    let stored := store.insert address item
    .ok { stored with accesses := .put address item.sequence item.value :: stored.accesses }

/-- An item that was stored is held. -/
theorem item_insert_self (store : ItemStore κ) (address : κ) (item : Item) :
    (store.insert address item).item? address = some item := by
  simp [item?, insert]

/-- Storing an item leaves all other addresses alone. -/
theorem item_insert_of_ne (store : ItemStore κ) {address other : κ} (item : Item)
    (hother : other ≠ address) :
    (store.insert address item).item? other = store.item? other := by
  have hskip : ∀ entry : κ × Item, (entry.1 ≠ address ∧ entry.1 = other) ↔ entry.1 = other :=
    fun entry => ⟨And.right, fun h => ⟨h ▸ hother, h⟩⟩
  simp [item?, insert, erase, Ne.symm hother, List.find?_filter, hskip]

/-- An accepted item is stored, and nothing else of the store but its uses changes. -/
theorem put_of_accepts {store : ItemStore κ} {address : κ} {item : Item}
    (honline : store.online = true) (haccepts : store.accepts address item = true) :
    ∃ accesses, store.put address item =
      .ok { store.insert address item with accesses := accesses } := by
  simp [put, honline, haccepts]

end ItemStore

end PeerFinder.Rendezvous
