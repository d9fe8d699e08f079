import HfsPlus.Code
import HfsPlus.Structure.Fork

/-!
# Folders and files as stored

The records of a folder and of a file in the catalog, with the permissions and
the Finder information inside them. A folder takes 88 bytes and a file 248.
-/

namespace HfsPlus

/-- Owner, group and permission bits. -/
structure BsdInfo where
  ownerId : UInt32
  groupId : UInt32
  adminFlags : UInt8
  ownerFlags : UInt8
  fileMode : UInt16
  special : UInt32
  deriving DecidableEq, Repr

/-- The fields of `BsdInfo` in the order in which they are stored. -/
def BsdInfo.layout : Layout BsdInfo :=
  .record "BsdInfo"
    (.field "owner_id" .word <| .field "group_id" .word <| .field "admin_flags" .word <|
      .field "owner_flags" .word <| .field "file_mode" .word <| .field "special" .word <| .done)
    (fun (ownerId, groupId, adminFlags, ownerFlags, fileMode, special, ()) => ⟨ownerId, groupId,
      adminFlags, ownerFlags, fileMode, special⟩)
    (fun ⟨ownerId, groupId, adminFlags, ownerFlags, fileMode, special⟩ => (ownerId, groupId,
      adminFlags, ownerFlags, fileMode, special, ()))
    (fun _ => rfl) (fun _ => rfl)

instance : Stored BsdInfo := ⟨BsdInfo.layout⟩

/-- A place on the screen. -/
structure Point where
  v : Int16
  h : Int16
  deriving DecidableEq, Repr

/-- The fields of `Point` in the order in which they are stored. -/
def Point.layout : Layout Point :=
  .record "Point"
    (.field "v" .word <| .field "h" .word <| .done)
    (fun (v, h, ()) => ⟨v, h⟩)
    (fun ⟨v, h⟩ => (v, h, ()))
    (fun _ => rfl) (fun _ => rfl)

instance : Stored Point := ⟨Point.layout⟩

/-- A rectangle on the screen. -/
structure Rect where
  top : Int16
  left : Int16
  bottom : Int16
  right : Int16
  deriving DecidableEq, Repr

/-- The fields of `Rect` in the order in which they are stored. -/
def Rect.layout : Layout Rect :=
  .record "Rect"
    (.field "top" .word <| .field "left" .word <| .field "bottom" .word <|
      .field "right" .word <| .done)
    (fun (top, left, bottom, right, ()) => ⟨top, left, bottom, right⟩)
    (fun ⟨top, left, bottom, right⟩ => (top, left, bottom, right, ()))
    (fun _ => rfl) (fun _ => rfl)

instance : Stored Rect := ⟨Rect.layout⟩

/-- What the Finder keeps about a file. -/
structure FileInfo where
  fileType : UInt32
  fileCreator : UInt32
  finderFlags : UInt16
  location : Point
  reserved : UInt16
  deriving DecidableEq, Repr

/-- The fields of `FileInfo` in the order in which they are stored. -/
def FileInfo.layout : Layout FileInfo :=
  .record "FileInfo"
    (.field "file_type" .word <| .field "file_creator" .word <| .field "finder_flags" .word <|
      .field "location" Point.layout <| .field "reserved" .word <| .done)
    (fun (fileType, fileCreator, finderFlags, location, reserved, ()) => ⟨fileType, fileCreator,
      finderFlags, location, reserved⟩)
    (fun ⟨fileType, fileCreator, finderFlags, location, reserved⟩ => (fileType, fileCreator,
      finderFlags, location, reserved, ()))
    (fun _ => rfl) (fun _ => rfl)

instance : Stored FileInfo := ⟨FileInfo.layout⟩

/-- More of what the Finder keeps about a file. -/
structure ExtendedFileInfo where
  reserved1 : Vector Int16 4
  extendedFinderFlags : UInt16
  reserved2 : Int16
  putAwayFolderId : Int32
  deriving DecidableEq, Repr

/-- The fields of `ExtendedFileInfo` in the order in which they are stored. -/
def ExtendedFileInfo.layout : Layout ExtendedFileInfo :=
  .record "ExtendedFileInfo"
    (.field "reserved_1" (.array 4 .word) <| .field "extended_finder_flags" .word <|
      .field "reserved_2" .word <| .field "put_away_folder_id" .word <| .done)
    (fun (reserved1, extendedFinderFlags, reserved2, putAwayFolderId, ()) => ⟨reserved1,
      extendedFinderFlags, reserved2, putAwayFolderId⟩)
    (fun ⟨reserved1, extendedFinderFlags, reserved2, putAwayFolderId⟩ => (reserved1,
      extendedFinderFlags, reserved2, putAwayFolderId, ()))
    (fun _ => rfl) (fun _ => rfl)

instance : Stored ExtendedFileInfo := ⟨ExtendedFileInfo.layout⟩

/-- What the Finder keeps about a folder. -/
structure FolderInfo where
  windowBounds : Rect
  finderFlags : UInt16
  location : Point
  reserved : UInt16
  deriving DecidableEq, Repr

/-- The fields of `FolderInfo` in the order in which they are stored. -/
def FolderInfo.layout : Layout FolderInfo :=
  .record "FolderInfo"
    (.field "window_bounds" Rect.layout <| .field "finder_flags" .word <|
      .field "location" Point.layout <| .field "reserved" .word <| .done)
    (fun (windowBounds, finderFlags, location, reserved, ()) => ⟨windowBounds, finderFlags,
      location, reserved⟩)
    (fun ⟨windowBounds, finderFlags, location, reserved⟩ => (windowBounds, finderFlags, location,
      reserved, ()))
    (fun _ => rfl) (fun _ => rfl)

instance : Stored FolderInfo := ⟨FolderInfo.layout⟩

/-- More of what the Finder keeps about a folder. -/
structure ExtendedFolderInfo where
  scrollPosition : Point
  reserved1 : Int32
  extendedFinderFlags : UInt16
  reserved2 : Int16
  putAwayFolderId : Int32
  deriving DecidableEq, Repr

/-- The fields of `ExtendedFolderInfo` in the order in which they are stored. -/
def ExtendedFolderInfo.layout : Layout ExtendedFolderInfo :=
  .record "ExtendedFolderInfo"
    (.field "scroll_position" Point.layout <| .field "reserved_1" .word <|
      .field "extended_finder_flags" .word <| .field "reserved_2" .word <|
      .field "put_away_folder_id" .word <| .done)
    (fun (scrollPosition, reserved1, extendedFinderFlags, reserved2, putAwayFolderId, ()) =>
      ⟨scrollPosition, reserved1, extendedFinderFlags, reserved2, putAwayFolderId⟩)
    (fun ⟨scrollPosition, reserved1, extendedFinderFlags, reserved2, putAwayFolderId⟩ =>
      (scrollPosition, reserved1, extendedFinderFlags, reserved2, putAwayFolderId, ()))
    (fun _ => rfl) (fun _ => rfl)

instance : Stored ExtendedFolderInfo := ⟨ExtendedFolderInfo.layout⟩

/-- The Finder flag of what is not to be shown. -/
def invisibleFlag : UInt16 := 0x4000

/-- The Finder flag of an alias. -/
def aliasFlag : UInt16 := 0x8000

/-- A folder in the catalog. -/
structure CatalogFolder where
  recordType : Int16
  flags : UInt16
  /-- How many things the folder holds. -/
  valence : UInt32
  folderId : UInt32
  createDate : UInt32
  contentModDate : UInt32
  attributeModDate : UInt32
  accessDate : UInt32
  backupDate : UInt32
  permissions : BsdInfo
  userInfo : FolderInfo
  finderInfo : ExtendedFolderInfo
  textEncoding : UInt32
  folderCount : UInt32
  deriving DecidableEq, Repr

/-- The fields of `CatalogFolder` in the order in which they are stored. -/
def CatalogFolder.layout : Layout CatalogFolder :=
  .record "CatalogFolder"
    (.field "record_type" .word <| .field "flags" .word <| .field "valence" .word <|
      .field "folder_id" .word <| .field "create_date" .word <|
      .field "content_mod_date" .word <| .field "attribute_mod_date" .word <|
      .field "access_date" .word <| .field "backup_date" .word <|
      .field "permissions" BsdInfo.layout <| .field "user_info" FolderInfo.layout <|
      .field "finder_info" ExtendedFolderInfo.layout <| .field "text_encoding" .word <|
      .field "folder_count" .word <| .done)
    (fun (recordType, flags, valence, folderId, createDate, contentModDate, attributeModDate,
      accessDate, backupDate, permissions, userInfo, finderInfo, textEncoding, folderCount, ())
      => ⟨recordType, flags, valence, folderId, createDate, contentModDate, attributeModDate,
      accessDate, backupDate, permissions, userInfo, finderInfo, textEncoding, folderCount⟩)
    (fun ⟨recordType, flags, valence, folderId, createDate, contentModDate, attributeModDate,
      accessDate, backupDate, permissions, userInfo, finderInfo, textEncoding, folderCount⟩ =>
      (recordType, flags, valence, folderId, createDate, contentModDate, attributeModDate,
      accessDate, backupDate, permissions, userInfo, finderInfo, textEncoding, folderCount, ()))
    (fun _ => rfl) (fun _ => rfl)

instance : Stored CatalogFolder := ⟨CatalogFolder.layout⟩

/-- Whether the Finder hides the folder. -/
def CatalogFolder.isInvisible (folder : CatalogFolder) : Bool :=
  folder.userInfo.finderFlags &&& invisibleFlag != 0

/-- A file in the catalog. -/
structure CatalogFile where
  recordType : Int16
  flags : UInt16
  reserved1 : UInt32
  fileId : UInt32
  createDate : UInt32
  contentModDate : UInt32
  attributeModDate : UInt32
  accessDate : UInt32
  backupDate : UInt32
  permissions : BsdInfo
  userInfo : FileInfo
  finderInfo : ExtendedFileInfo
  textEncoding : UInt32
  reserved2 : UInt32
  dataFork : ForkData
  resourceFork : ForkData
  deriving DecidableEq, Repr

/-- The fields of `CatalogFile` in the order in which they are stored. -/
def CatalogFile.layout : Layout CatalogFile :=
  .record "CatalogFile"
    (.field "record_type" .word <| .field "flags" .word <| .field "reserved_1" .word <|
      .field "file_id" .word <| .field "create_date" .word <| .field "content_mod_date" .word <|
      .field "attribute_mod_date" .word <| .field "access_date" .word <|
      .field "backup_date" .word <| .field "permissions" BsdInfo.layout <|
      .field "user_info" FileInfo.layout <| .field "finder_info" ExtendedFileInfo.layout <|
      .field "text_encoding" .word <| .field "reserved_2" .word <|
      .field "data_fork" ForkData.layout <| .field "resource_fork" ForkData.layout <| .done)
    (fun (recordType, flags, reserved1, fileId, createDate, contentModDate, attributeModDate,
      accessDate, backupDate, permissions, userInfo, finderInfo, textEncoding, reserved2,
      dataFork, resourceFork, ()) => ⟨recordType, flags, reserved1, fileId, createDate,
      contentModDate, attributeModDate, accessDate, backupDate, permissions, userInfo,
      finderInfo, textEncoding, reserved2, dataFork, resourceFork⟩)
    (fun ⟨recordType, flags, reserved1, fileId, createDate, contentModDate, attributeModDate,
      accessDate, backupDate, permissions, userInfo, finderInfo, textEncoding, reserved2,
      dataFork, resourceFork⟩ => (recordType, flags, reserved1, fileId, createDate,
      contentModDate, attributeModDate, accessDate, backupDate, permissions, userInfo,
      finderInfo, textEncoding, reserved2, dataFork, resourceFork, ()))
    (fun _ => rfl) (fun _ => rfl)

instance : Stored CatalogFile := ⟨CatalogFile.layout⟩

namespace CatalogFile

/-- Whether the Finder hides the file. -/
def isInvisible (file : CatalogFile) : Bool :=
  file.userInfo.finderFlags &&& invisibleFlag != 0

/-- Whether the file is an alias. -/
def isAlias (file : CatalogFile) : Bool :=
  file.userInfo.finderFlags &&& aliasFlag != 0

/-- Whether the file has a type and a creator. -/
def hasType (file : CatalogFile) (fileType creator : UInt32) : Bool :=
  file.userInfo.fileType == fileType && file.userInfo.fileCreator == creator

/-- One of the two forks of the file. -/
def fork (file : CatalogFile) : ForkKind → ForkData
  | .data => file.dataFork
  | .resource => file.resourceFork

/-- A file that stands for another one: type hlnk, creator hfs+. -/
def isHardLink (file : CatalogFile) : Bool := file.hasType 0x686C6E6B 0x6866732B

/-- A file that stands for a folder: type fdrp, creator MACS. -/
def isFolderLink (file : CatalogFile) : Bool := file.hasType 0x66647270 0x4D414353

/-- A file that holds a path: type slnk, creator rhap. -/
def isSymbolicLink (file : CatalogFile) : Bool := file.hasType 0x736C6E6B 0x72686170

end CatalogFile

/-- The type character of a file mode, as a directory listing shows it. -/
def typeCharacter (mode : UInt16) : Char :=
  match (mode &&& 0xF000).toNat with
  | 0x1000 => 'p'
  | 0x2000 => 'c'
  | 0x4000 => 'd'
  | 0x6000 => 'b'
  | 0xA000 => 'l'
  | 0xC000 => 's'
  | 0xE000 => 'w'
  | _ => '-'

end HfsPlus
