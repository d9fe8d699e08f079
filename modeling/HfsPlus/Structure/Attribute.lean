import HfsPlus.Structure.Fork

/-!
# Attributes that live in allocation blocks, as stored

An attribute too large for its record keeps a fork of its own. The first record
of such an attribute holds the data of that fork and further ones eight more runs
each; both start with the type of the record.
-/

namespace HfsPlus

/-- The first record of an attribute with a fork of its own. -/
structure AttributeForkData where
  recordType : UInt32
  reserved : UInt32
  fork : ForkData
  deriving DecidableEq, Repr

/-- The fields of `AttributeForkData` in the order in which they are stored. -/
def AttributeForkData.layout : Layout AttributeForkData :=
  .record "AttributeForkData"
    (.field "record_type" .word <| .field "reserved" .word <| .field "fork" ForkData.layout <|
      .done)
    (fun (recordType, reserved, fork, ()) => ⟨recordType, reserved, fork⟩)
    (fun ⟨recordType, reserved, fork⟩ => (recordType, reserved, fork, ()))
    (fun _ => rfl) (fun _ => rfl)

instance : Stored AttributeForkData := ⟨AttributeForkData.layout⟩

/-- More runs of such an attribute. -/
structure AttributeExtents where
  recordType : UInt32
  reserved : UInt32
  extents : ExtentRecord
  deriving DecidableEq, Repr

/-- The fields of `AttributeExtents` in the order in which they are stored. -/
def AttributeExtents.layout : Layout AttributeExtents :=
  .record "AttributeExtents"
    (.field "record_type" .word <| .field "reserved" .word <|
      .field "extents" ExtentRecord.layout <| .done)
    (fun (recordType, reserved, extents, ()) => ⟨recordType, reserved, extents⟩)
    (fun ⟨recordType, reserved, extents⟩ => (recordType, reserved, extents, ()))
    (fun _ => rfl) (fun _ => rfl)

instance : Stored AttributeExtents := ⟨AttributeExtents.layout⟩

end HfsPlus
