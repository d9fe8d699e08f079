import HfsPlus.Layout
import HfsPlus.Text.Octets

/-!
# The header of the hot files, as stored

The tree of hot files keeps its own description in the user data record of its
first node. It is recognised by a magic number.
-/

namespace HfsPlus

/-- How hot files are measured, and how many may be kept. -/
structure HotFilesInfo where
  magic : UInt32
  version : UInt32
  duration : UInt32
  timebase : UInt32
  timeleft : UInt32
  threshold : UInt32
  maxFileBlocks : UInt32
  maxFileCount : UInt32
  /-- A comment, up to the first zero byte. -/
  tag : Vector UInt8 32
  deriving DecidableEq, Repr

/-- The fields of `HotFilesInfo` in the order in which they are stored. -/
def HotFilesInfo.layout : Layout HotFilesInfo :=
  .record "HotFilesInfo"
    (.field "magic" .word <| .field "version" .word <| .field "duration" .word <|
      .field "timebase" .word <| .field "timeleft" .word <| .field "threshold" .word <|
      .field "max_file_blocks" .word <| .field "max_file_count" .word <|
      .field "tag" (.array 32 .word) <| .done)
    (fun (magic, version, duration, timebase, timeleft, threshold, maxFileBlocks, maxFileCount,
      tag, ()) => ⟨magic, version, duration, timebase, timeleft, threshold, maxFileBlocks,
      maxFileCount, tag⟩)
    (fun ⟨magic, version, duration, timebase, timeleft, threshold, maxFileBlocks, maxFileCount,
      tag⟩ => (magic, version, duration, timebase, timeleft, threshold, maxFileBlocks,
      maxFileCount, tag, ()))
    (fun _ => rfl) (fun _ => rfl)

instance : Stored HotFilesInfo := ⟨HotFilesInfo.layout⟩

/-- The comment as text. -/
def HotFilesInfo.tagText (info : HotFilesInfo) : String :=
  Text.Octets.decodeField info.tag.toList

/-- The magic number. -/
def hotFilesMagic : UInt32 := 0xFF28FF26

end HfsPlus
