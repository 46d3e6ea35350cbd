/-! How a field of a class or a record may be used. -/
namespace StagedMapping

inductive Access where
  | readWrite
  | readOnly
  | writeOnly
  deriving DecidableEq, Repr

namespace Access

def isReadable (a : Access) : Bool := a ≠ .writeOnly

def isWritable (a : Access) : Bool := a ≠ .readOnly

end Access
end StagedMapping
