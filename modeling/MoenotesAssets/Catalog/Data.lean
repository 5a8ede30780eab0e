import Std.Data.TreeMap

/-! The decoded catalog of `catalog.rs`: locations by id and their ids by asset key. -/

namespace MoenotesAssets.Catalogs

/-- `catalog::Options`; `hash` is the hexadecimal text. -/
structure Options where
  hash : String
  bundleName : String
  crc : UInt32
  size : UInt64
deriving DecidableEq

structure Location where
  id : UInt32
  key : String
  internal : String
  provider : String
  resourceType : String
  dependencies : List UInt32
  options : Option Options
deriving DecidableEq

/-- `catalog::Catalog`: both of its `BTreeMap`s. -/
structure Catalog where
  keys : Std.TreeMap String (List UInt32)
  locations : Std.TreeMap UInt32 Location

/-- Catalogs with the same entries, in whatever shape their trees are. -/
structure Catalog.Same (catalog other : Catalog) : Prop where
  keys : catalog.keys.Equiv other.keys
  locations : catalog.locations.Equiv other.locations

/-- `catalog::Selector` -/
structure Selector where
  expectedType : Option String
  locationId : Option UInt32
deriving DecidableEq

end MoenotesAssets.Catalogs
