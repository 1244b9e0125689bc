/-!
Paths: names joined by slashes. Slashes and single points at the end of a path say nothing about
where it leads, and neither do those at the end of the folder around it.
-/

namespace MissionScript

/-- The path of a file in a folder. The empty path is the folder that all paths start from. -/
def pathIn (folder file : String) : String :=
  if folder.isEmpty || folder.toList.getLast? == some '/' then folder ++ file
  else folder ++ "/" ++ file

namespace DiskPath

/-- A path without the slashes and single points at its end; given from its end to its beginning.
    The slash that the folder of all folders consists of stays. -/
def trimEnd : List Char → List Char
  | ['/'] => ['/']
  | '/' :: rest => trimEnd rest
  | '.' :: '/' :: rest => trimEnd ('/' :: rest)
  | rest => rest
termination_by path => path.length

theorem length_trimEnd_le (path : List Char) : (trimEnd path).length ≤ path.length := by
  fun_induction trimEnd path <;> simp_all <;> omega

/-- The folder around what a path leads to. There is none around where paths start. -/
def folder? (path : List Char) : Option (List Char) :=
  match trimEnd path.reverse with
  | [] | ['/'] => none
  | _ :: before => some (trimEnd (before.dropWhile (· != '/'))).reverse

/-- A folder has a shorter path than what is in it. -/
theorem length_folder?_lt {path folder : List Char} (h : folder? path = some folder) :
    folder.length < path.length := by
  have htrim := length_trimEnd_le path.reverse
  unfold folder? at h
  split at h
  · cases h
  · cases h
  · next before _ hpath =>
    obtain rfl := Option.some.inj h
    have hdrop := (List.dropWhile_suffix (· != '/') (l := before)).length_le
    have hfolder := length_trimEnd_le (before.dropWhile (· != '/'))
    rw [hpath] at htrim
    simp only [List.length_cons, List.length_reverse] at htrim ⊢
    omega

/-- A path, the folder around it, the folder around that, and so on; not where paths start. -/
def around (path : List Char) : List (List Char) :=
  match _h : folder? path with
  | none => []
  | some folder => path :: around folder
termination_by path.length
decreasing_by exact length_folder?_lt _h

/-- The last name of a path. -/
def name (path : List Char) : List Char :=
  ((trimEnd path.reverse).takeWhile (· != '/')).reverse

/-- The name of a file without its ending. A point at its beginning begins no ending. -/
def stem (name : List Char) : List Char :=
  match name.reverse.dropWhile (· != '.') with
  | [] | ['.'] => name
  | _ :: before => before.reverse

end DiskPath

end MissionScript
