import Nock.Error

/-!
# Output paths

The path of a file that is to be written. It is cleaned of parts that change nothing, the folders above
it are made, and what is left must be able to name a file.
-/

namespace Nock.Timing.OutputPath

/-- The parts between slashes without empty ones and `.`, which change nothing. -/
def kept (path : String) : List String := (path.splitOn "/").filter fun p => p != "" && p != "."

/-- A path without parts that change nothing. Two slashes in front are kept, more are one. -/
def clean (path : String) : String :=
  let slashes := path.toList.takeWhile (· == '/')
  let root := if slashes.length = 0 then "" else if slashes.length = 2 then "//" else "/"
  let body := "/".intercalate (kept path)
  if root = "" && body = "" then "." else root ++ body

/-- Whether a path names a folder whatever there is: the root, the folder one is in, or one above. -/
def isFolder (path : String) : Bool := (kept path).getLast?.all (· == "..")

/-- The longest part of a path, in bytes. -/
def longestPart : Nat := 255

/-- The longest path, in bytes. -/
def longestPath : Nat := 4095

/-- What keeps a path from naming a file. -/
def refusal? (path : String) : Option Error.Kind :=
  if path.toList.contains '\x00' then some .value
  else if longestPath < (clean path).utf8ByteSize ||
      (kept path).any fun p => longestPart < p.utf8ByteSize then some .system
  else if isFolder path then some .directory
  else none

end Nock.Timing.OutputPath
