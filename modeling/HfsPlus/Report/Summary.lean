import HfsPlus.FileSystem.Summary
import HfsPlus.Report.Style

/-!
# The report on a volume's statistics
-/

namespace HfsPlus.Report

/-- The counts of one kind of fork. -/
def forkSummary (style : Style) (label : String) (forks : ForkSummary) : String :=
  style.field label
    s!"{forks.forks} forks, {Text.size forks.logicalBytes.toNat} in {forks.allocatedBlocks} blocks" ++
  s!"    {forks.fragmented} fragmented, {forks.inlineExtents} inline extents, " ++
  s!"{forks.overflowRecords} overflow records\n"

/-- The counts of a volume, each with what it counts. -/
def counts (summary : VolumeSummary) : List (String × UInt64) :=
  [ ("files", summary.files),
    ("folders", summary.folders),
    ("thread records", summary.threadRecords),
    ("hard links", summary.hardLinks),
    ("directory hard links", summary.directoryHardLinks),
    ("symbolic links", summary.symbolicLinks),
    ("aliases", summary.aliases),
    ("empty files", summary.emptyFiles),
    ("empty folders", summary.emptyFolders),
    ("invisible", summary.invisible),
    ("damaged records", summary.damagedRecords) ]

/-- The statistics of a volume. -/
def summary (style : Style) (summary : VolumeSummary) : String :=
  let largest := summary.largestFiles.map fun ranked =>
    "  " ++ Text.padLeft 12 (Text.size ranked.size.toNat) ++ "  " ++
      Text.padLeft 10 (toString ranked.cnid) ++ "  " ++ ranked.name.text ++ "\n"
  let fragmented := summary.mostFragmented.map fun ranked =>
    "  " ++ Text.padLeft 6 (toString ranked.extents) ++ " extents  " ++
      Text.padLeft 10 (toString ranked.cnid) ++ "  " ++ ranked.name.text ++ " (" ++
      ranked.kind.label ++ ")\n"
  style.heading "Volume summary" ++
    style.fields ((counts summary).map fun (label, count) => (label, toString count)) ++
    forkSummary style "data forks" summary.data ++
    forkSummary style "resource forks" summary.resource ++
    style.heading "Largest files" ++ String.join largest ++
    style.heading "Most fragmented forks" ++ String.join fragmented ++
    if summary.truncated then
      style.heading "Incomplete" ++
        String.join (summary.warnings.map fun warning => "  " ++ warning ++ "\n")
    else ""

end HfsPlus.Report
