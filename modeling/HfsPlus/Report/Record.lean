import HfsPlus.Record.Attribute
import HfsPlus.Record.Catalog
import HfsPlus.Record.HotFile
import HfsPlus.Record.Overflow
import HfsPlus.Report.Tree

/-!
# How the records of each tree are shown in a report on a node
-/

namespace HfsPlus.Report

/-- Keys and values of the catalog. -/
def catalogRecords : Inspected CatalogKey CatalogRecord :=
  ⟨CatalogKey.inspected, CatalogRecord.inspected⟩

/-- Keys and values of the overflow tree. -/
def overflowRecords : Inspected ExtentKey ExtentRecord := ⟨ExtentKey.inspected, Stored.text⟩

/-- Keys and values of the attributes tree. -/
def attributeRecords : Inspected AttributeKey AttributeValue :=
  ⟨AttributeKey.inspected, AttributeValue.inspected⟩

/-- Keys and values of the tree of hot files. -/
def hotFileRecords : Inspected HotFileKey HotFileRecord :=
  ⟨HotFileKey.inspected, HotFileRecord.inspected⟩

end HfsPlus.Report
