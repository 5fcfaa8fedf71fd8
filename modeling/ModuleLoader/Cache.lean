/-! The cache of modules by URL.  Every URL that was asked for has a slot of its own.  A slot is
empty until a record for its URL has been made, and keeps the first record for ever. -/

namespace ModuleLoader

/-- The place of a slot in its cache. -/
abbrev SlotId := Nat

/-- The slots of a cache in the order in which their URLs were first asked for. -/
structure ModuleCache (ρ : Type) where
  slots : List (String × Option ρ) := []

namespace ModuleCache

variable {ρ ε : Type}

/-- The slot of a URL, which is made if there is none. -/
def slot (c : ModuleCache ρ) (url : String) : SlotId × ModuleCache ρ :=
  match c.slots.findIdx? fun entry => entry.1 == url with
  | some id => (id, c)
  | none => (c.slots.length, ⟨c.slots ++ [(url, none)]⟩)

/-- The record in a slot. -/
def record? (c : ModuleCache ρ) (id : SlotId) : Option ρ := (c.slots[id]?).bind Prod.snd

/-- The cache with a record in a slot, unless the slot has one. -/
def fill (c : ModuleCache ρ) (id : SlotId) (record : ρ) : ModuleCache ρ :=
  ⟨c.slots.modify id fun entry => (entry.1, some (entry.2.getD record))⟩

/-- The record in a slot, which is made if there is none.  What fails to be made leaves the slot
empty, so that a later request makes it. -/
def getOrCreate {m : Type → Type} [Monad m] (c : ModuleCache ρ) (id : SlotId)
    (create : m (Except ε ρ)) : m (Except ε ρ × ModuleCache ρ) :=
  match c.record? id with
  | some record => pure (.ok record, c)
  | none => do
    match ← create with
    | .ok record => pure (.ok record, c.fill id record)
    | .error e => pure (.error e, c)

/-- The record of a URL. -/
def get? (c : ModuleCache ρ) (url : String) : Option ρ := (c.slots.lookup url).join

/-- The URL has a record. -/
def contains (c : ModuleCache ρ) (url : String) : Bool := (c.get? url).isSome

/-- The URLs that have records. -/
def urls (c : ModuleCache ρ) : List String :=
  (c.slots.filter fun entry => entry.2.isSome).map Prod.fst

def size (c : ModuleCache ρ) : Nat := (c.slots.filter fun entry => entry.2.isSome).length

/-- The cache has no record. -/
def isEmpty (c : ModuleCache ρ) : Bool := c.size == 0

end ModuleCache

end ModuleLoader
