/-!
# Failures of the binary form

`CodecError` lists why a region cannot be written to bytes or read from them, and
`CodecError.message` words each cause.
-/

namespace PoolGraph

/-- Why writing or reading the binary form of a region stops. -/
inductive CodecError where
  /-- The bytes end before the value does. -/
  | endOfData
  /-- A reference to the object `index` of a pool that holds `cardinality` objects. -/
  | indexOutOfRange (index cardinality : Nat)
  /-- A variable-length integer needs more than 64 bits. -/
  | varIntOverflow
  /-- A count is larger than the format can carry. -/
  | countOutOfRange (count : Nat)
  /-- A boolean is written as a byte other than 0 and 1. -/
  | invalidBool (byte : UInt8)
  /-- An integer lies outside the range of its declared type. -/
  | valueOutOfRange (value : Int) (type : String)
  /-- The bytes of a string are not UTF-8. -/
  | invalidUtf8
  /-- A reference of the named field was never set. -/
  | nullReference (struct field : String)
  /-- The value in a slot is of another kind than the slot declares. -/
  | typeMismatch (expected found : String)
  /-- The region to be filled already holds objects. -/
  | regionNotEmpty
  deriving DecidableEq

/-- The wording of a failure. -/
def CodecError.message : CodecError → String
  | .endOfData => "end of data"
  | .indexOutOfRange index cardinality =>
    s!"index {index} out of range for a pool of {cardinality}"
  | .varIntOverflow => "variable-length integer does not fit in 64 bits"
  | .countOutOfRange count => s!"count {count} out of range"
  | .invalidBool byte => s!"invalid boolean byte {byte}"
  | .valueOutOfRange value type => s!"value {value} out of range for an {type}"
  | .invalidUtf8 => "string is not valid UTF-8"
  | .nullReference struct field =>
    "reference field \"" ++ field ++ "\" of \"" ++ struct ++ "\" is not set"
  | .typeMismatch expected found => s!"expected a value of type {expected}, found {found}"
  | .regionNotEmpty => "cannot deserialize into a region that already holds objects"

end PoolGraph
