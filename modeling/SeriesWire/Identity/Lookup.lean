import SeriesWire.Identity.Name

/-! Where identities are looked up: by the hash that a shard carries, or by an encoded identity.
In both tables the last entry made for a key is the one that counts.
-/

namespace SeriesWire

/-- What a shard says about the identity of its series. -/
structure HashKey where
  hash : UInt64
  form : IdForm
  deriving DecidableEq, Repr

/-- Identities by hash and form, the latest registration first. -/
structure Registry where
  entries : List (HashKey × SeriesName)

namespace Registry

def empty : Registry :=
  ⟨[]⟩

def registerAs (registry : Registry) (key : HashKey) (id : SeriesName) : Registry :=
  ⟨(key, id) :: registry.entries⟩

/-- Registers an identity under its own hash. -/
def register (registry : Registry) (id : SeriesName) : Registry :=
  registry.registerAs ⟨id.hash, .string⟩ id

def get? (registry : Registry) (key : HashKey) : Option SeriesName :=
  registry.entries.lookup key

end Registry

/-- Identities by their encoding, the latest entry first. -/
structure Resolver where
  entries : List (EncodedId × SeriesName)

namespace Resolver

def empty : Resolver :=
  ⟨[]⟩

def insert (resolver : Resolver) (encoded : EncodedId) (id : SeriesName) : Resolver :=
  ⟨(encoded, id) :: resolver.entries⟩

def get? (resolver : Resolver) (encoded : EncodedId) : Option SeriesName :=
  resolver.entries.lookup encoded

end Resolver

end SeriesWire
