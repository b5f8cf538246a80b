import BuildWatch.Text.Encoding

/-!
# File trees

A node is a regular file with its bytes, a symbolic link with the path it points
to, a pipe, or a folder. A folder lists its entries in the order they were made;
no two of them have one name, because entries are only added through `put`. A
name is any bytes, whether they are those of a text or not.

A place is the list of names that leads from the top of the tree to a node. No
link is followed on the way: places are what lookups compute, and paths are what
they start from.
-/

namespace BuildWatch.Files

mutual

/-- What a name in a folder stands for. -/
inductive Node where
  | file (content : ByteArray)
  | link (target : Bytes)
  | pipe
  | folder (entries : Folder)

/-- The entries of a folder. -/
inductive Folder where
  | empty
  | entry (name : Bytes) (node : Node) (rest : Folder)

end

/-- The names that lead from the top of the tree to a node. -/
abbrev Place := List Bytes

namespace Folder

/-- The node under a name. -/
def get? (name : Bytes) : Folder → Option Node
  | .empty => none
  | .entry other node rest => if other = name then some node else get? name rest

/-- The folder with a node under a name, in the place of the one that stood there. -/
def put (name : Bytes) (node : Node) : Folder → Folder
  | .empty => .entry name node .empty
  | .entry other old rest =>
    if other = name then .entry name node rest else .entry other old (put name node rest)

/-- The folder without a name. -/
def erase (name : Bytes) : Folder → Folder
  | .empty => .empty
  | .entry other node rest => if other = name then rest else .entry other node (erase name rest)

/-- The entries in order. -/
def toList : Folder → List (Bytes × Node)
  | .empty => []
  | .entry name node rest => (name, node) :: toList rest

/-- The names in order. -/
def names (folder : Folder) : List Bytes := folder.toList.map Prod.fst

/-- Put a node under a name, or take the name away. -/
def set (name : Bytes) (folder : Folder) : Option Node → Folder
  | some node => folder.put name node
  | none => folder.erase name

/-- The node at a place below a folder. -/
def node? (folder : Folder) : Place → Option Node
  | [] => some (.folder folder)
  | name :: rest =>
    match folder.get? name with
    | none => none
    | some (.folder inner) => inner.node? rest
    | some node => if rest.isEmpty then some node else none

/-- Change what stands at a place below a folder. A place that leads through
something other than folders changes nothing. -/
def alter (change : Option Node → Option Node) (folder : Folder) : Place → Folder
  | [] => folder
  | [name] => folder.set name (change (folder.get? name))
  | name :: rest =>
    match folder.get? name with
    | some (.folder inner) => folder.put name (.folder (inner.alter change rest))
    | _ => folder

end Folder

mutual

/-- How many nodes a node holds, itself included. -/
def Node.size : Node → Nat
  | .file _ => 1
  | .link _ => 1
  | .pipe => 1
  | .folder entries => entries.size + 1

/-- How many nodes a folder holds below it. -/
def Folder.size : Folder → Nat
  | .empty => 0
  | .entry _ node rest => node.size + rest.size

end

/-- The tree of all files and the folder that relative paths start from. -/
structure Disk where
  top : Folder
  current : Place

/-- A tree with only its top folder. -/
def Disk.bare : Disk := ⟨.empty, []⟩

end BuildWatch.Files
