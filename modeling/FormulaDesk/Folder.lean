import FormulaDesk.Failure

/-!
# The output folder

The folder that a run writes logs and images to. It holds no other folders. A path that leads
elsewhere is not followed: a path in the temporary folder is taken to work, any other is taken to lead
into a folder that does not exist. A plain name leads into the folder only if it is the current one.
-/

namespace FormulaDesk

/-- What a file holds. -/
inductive Content where
  | text (s : String)
  | image
deriving DecidableEq, Repr

structure Folder where
  root : String
  files : List (String × Content) := []
  /-- Whether plain names lead into the folder. -/
  isCurrent : Bool := false
deriving Repr

namespace Folder

/-- Where a path leads. -/
inductive Place where
  | file (name : String)
  /-- The folder itself. -/
  | self
  | missing
  | elsewhere
deriving DecidableEq, Repr

/-- The parts of a path between its slashes, without empty parts and single points. -/
def parts (path : List Char) : List String :=
  ((splitParts path).filter fun part => part ≠ [] ∧ part ≠ ['.']).map String.ofList
where
  splitParts : List Char → List (List Char)
    | [] => [[]]
    | c :: cs =>
      if c = '/' then [] :: splitParts cs
      else match splitParts cs with
        | [] => [[c]]
        | part :: rest => (c :: part) :: rest

/-- Takes back one part for every pair of points. -/
def collapse : (kept : List String) → List String → Option (List String)
  | kept, [] => some kept.reverse
  | kept, part :: rest =>
    if part = ".." then
      match kept with
      | [] => none
      | _ :: above => collapse above rest
    else collapse (part :: kept) rest

/-- Where a path outside the folder leads. -/
def outside (path : String) : Place :=
  if !path.toList.contains '/' ∨ path.startsWith "/tmp/" ∨ path = "/dev/null" then .elsewhere
  else .missing

/-- Where a path leads. `resolved` says whether pairs of points are taken back first; else every
part of the path before the last has to exist. -/
def locate (f : Folder) (path : String) (resolved : Bool) : Place :=
  if path = f.root then .self
  else if path.startsWith (f.root ++ "/") then
    let inner := parts (path.toList.drop f.root.length)
    match if resolved then collapse [] inner else some inner with
    | none => .elsewhere
    | some [] => .self
    | some [name] => if name = ".." then .elsewhere else .file name
    | some _ => .missing
  else if f.isCurrent ∧ !path.toList.contains '/' then .file path
  else outside path

/-- The file with a name, or an empty one. -/
def contentOf (f : Folder) (name : String) : Content := (f.files.lookup name).getD (.text "")

/-- Puts a file in place of the one with its name. -/
def put (f : Folder) (name : String) (content : Content) : Folder :=
  { f with files := place f.files }
where
  place : List (String × Content) → List (String × Content)
    | [] => [(name, content)]
    | (k, v) :: rest => if k = name then (k, content) :: rest else (k, v) :: place rest

/-- Adds text at the end of a file. -/
def append (f : Folder) (name text : String) : Folder :=
  match f.contentOf name with
  | .text s => f.put name (.text (s ++ text))
  | .image => f

end Folder

end FormulaDesk
