import SkillScript.Text.Split

/-!
# Files by path

A `Folder` holds the texts of some files. Paths are read from the working folder or, after a leading
slash, from the root. Every step of a path has to start in a folder, so that a slash after the name
of a file leads nowhere. Nothing is known of what lies above the working folder.
-/

namespace SkillScript

/-- Where a path leads. -/
structure Place where
  /-- The place is reached from the root, and not from the working folder. -/
  absolute : Bool
  /-- The names on the way, the last one first. -/
  names : List String
  deriving DecidableEq, Repr

namespace Place

/-- `p` lies on the way to `q`. -/
def isAbove (p q : Place) : Bool :=
  p.absolute == q.absolute && p.names.isSuffixOf q.names && p.names != q.names

/-- The place one step up. The root is above itself. -/
def parent? (p : Place) : Option Place :=
  match p.names with
  | _ :: names => some { p with names }
  | [] => if p.absolute then some p else none

/-- The place where a path starts. -/
def start (path : String) : Place := ⟨path.toList.head? == some '/', []⟩

/-- The device that is always there and has nothing to read. -/
def nullDevice : Place := ⟨true, ["null", "dev"]⟩

end Place

/-- The steps of a path. -/
def pathSteps (path : String) : List String :=
  (splitAtChar '/' path.toList).map String.ofList

/-- The step leads to where it starts. -/
def isIdleStep (step : String) : Bool := step == "" || step == "."

/-- The texts of some files. -/
structure Folder where
  files : List (Place × String)
  deriving DecidableEq, Repr

namespace Folder

/-- The files with the given names and texts, and the null device. -/
def ofTexts (texts : List (String × String)) : Folder where
  files :=
    (Place.nullDevice, "") :: texts.map fun (name, text) =>
      ({ Place.start name with names := ((pathSteps name).filter (!isIdleStep ·)).reverse }, text)

/-- There is a folder at the place: it is where paths start, or on the way to a file. -/
def isFolder (f : Folder) (p : Place) : Bool :=
  p.names.isEmpty || f.files.any fun (q, _) => p.isAbove q

/-- One step of a path. -/
def step? (f : Folder) (p : Place) (step : String) : Option Place :=
  if !f.isFolder p then none
  else if isIdleStep step then some p
  else if step = ".." then p.parent?
  else some { p with names := step :: p.names }

/-- Where a path leads. -/
def place? (f : Folder) (path : String) : Option Place :=
  (pathSteps path).foldlM f.step? (Place.start path)

/-- The text of the file that a path leads to. -/
def read? (f : Folder) (path : String) : Option String :=
  (f.place? path).bind fun p => f.files.lookup p

end Folder

end SkillScript
