import HfsPlus.FileSystem.Trees

/-!
# Devices that lose their bytes

A device that is a file can be emptied while it is inspected, when something is
written over it. From then on a read delivers nothing, although the length that
was found at first is remembered. Trees that were opened stay open and their nodes
stay cached; whatever else is needed of the device is missing.
-/

namespace HfsPlus

/-- A window behind which no bytes are left. -/
def Window.emptied (window : Window) : Window := { window with content := fun _ _ => .ok [] }

/-- A tree that was opened before its bytes were lost. -/
def Tree.emptied {Key Value : Type} (tree : Tree Key Value) : Tree Key Value :=
  { tree with stream := { tree.stream with window := tree.stream.window.emptied } }

/-- A file system that was found before its bytes were lost. -/
def FileSystem.emptied (system : FileSystem) : FileSystem :=
  { system with window := system.window.emptied }

/-- The trees that were opened before their bytes were lost, with the nodes that were
cached. -/
def Shelf.emptied (shelf : Shelf) : Shelf :=
  { shelf with
    extents := shelf.extents.map Tree.emptied
    catalog := shelf.catalog.map Tree.emptied
    attributes := shelf.attributes.map (Option.map Tree.emptied)
    hotFiles := shelf.hotFiles.map (Option.map fun (tree, info) => (tree.emptied, info)) }

/-- Go on inspecting a file system whose bytes were just lost. -/
def FileSystem.loseBytes {m : Type → Type} [Monad m] [Logging m] (system : FileSystem) :
    StateT Shelf m (Inspection (StateT Shelf m)) := do
  modify Shelf.emptied
  return system.emptied.remembering

end HfsPlus
