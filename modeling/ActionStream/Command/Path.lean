/-!
# File paths

A path is a text of segments separated by slashes.  Empty segments and single points do not count;
two points stand for the parent directory, which is not allowed.
-/

namespace ActionStream.Path

def segments (path : String) : List (List Char) :=
  path.toList.splitOn '/'

def parentMessage : String :=
  "Parent directory components ('..') are not allowed in file paths."

def leadsThroughParent (path : String) : Bool :=
  (segments path).contains ['.', '.']

def sanitized (path : String) : Except String String :=
  if leadsThroughParent path then .error parentMessage else .ok path

/-- The end of a path without the slashes, and the single points behind slashes, that do not count;
characters are in reverse order. -/
def dropTail : List Char → List Char
  | '/' :: rest => dropTail rest
  | '.' :: '/' :: rest => dropTail rest
  | rest => rest

/-- The last segment of a path and what stands before it, both in reverse order. -/
def splitName (path : List Char) : List Char × List Char :=
  path.span (· != '/')

/-- A name, in reverse order, without its extension: what follows the last point, unless that point
begins the name. -/
def dropExtension (name : List Char) : List Char :=
  match name.span (· != '.') with
  | (_, []) => name
  | (_, ['.']) => name
  | (_, _ :: stem) => stem

/-- A path whose name has the given extension instead of its own.  A path without a name is
unchanged. -/
def withExtension (extension path : String) : String :=
  let (name, before) := splitName (dropTail path.toList.reverse)
  if name = [] ∨ name = ['.'] ∨ name = ['.', '.'] then path
  else String.ofList ((dropExtension name ++ before).reverse ++ '.' :: extension.toList)

end ActionStream.Path
