/-!
# Failures of schemas

`SchemaError` lists why a schema cannot be built or two schemas cannot be paired.
-/

namespace PoolGraph

/-- Why a schema is refused. -/
inductive SchemaError where
  /-- The name already stands for a type. -/
  | duplicateType (name : String)
  /-- The struct has two fields of one name. -/
  | duplicateField (struct field : String)
  /-- The schema of a region is not the one it is paired with. -/
  | mismatch (expected found : String)
  deriving DecidableEq

/-- The wording of a failure. -/
def SchemaError.message : SchemaError → String
  | .duplicateType name => "The type \"" ++ name ++ "\" is defined twice"
  | .duplicateField struct field =>
    "The field \"" ++ field ++ "\" is defined twice in \"" ++ struct ++ "\""
  | .mismatch expected found =>
    "Region schema mismatch: expected \"" ++ expected ++ "\", found \"" ++ found ++ "\""

end PoolGraph
