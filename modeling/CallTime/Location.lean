/-!
Paths of files: a root and the names on the way, with `/` between them.
-/

namespace CallTime

structure Location where
  /-- Empty for a relative path; two leading slashes are a root of their own. -/
  root : String := ""
  parts : List String := []
  deriving DecidableEq

namespace Location

/-- Splits at slashes. -/
def pieces : List Char → List (List Char)
  | [] => [[]]
  | c :: cs => match pieces cs with
    | [] => [[c]]
    | p :: ps => if c = '/' then [] :: p :: ps else (c :: p) :: ps

def ofText (s : String) : Location :=
  let cs := s.toList
  let slashes := (cs.takeWhile (· = '/')).length
  let root := if slashes = 0 then "" else if slashes = 2 then "//" else "/"
  let parts := (pieces cs).filter fun p => !p.isEmpty && p ≠ ['.']
  { root, parts := parts.map String.ofList }

def text (l : Location) : String :=
  let s := l.root ++ "/".intercalate l.parts
  if s.isEmpty then "." else s

def join (base l : Location) : Location :=
  if l.root.isEmpty then { base with parts := base.parts ++ l.parts } else l

def name (l : Location) : String := l.parts.getLast?.getD ""

/-- The name before its last dot and the rest, unless that dot comes first or last. -/
def split (l : Location) : String × String :=
  let cs := l.name.toList
  let after := (cs.reverse.takeWhile (· ≠ '.')).reverse
  let before := cs.take (cs.length - after.length - 1)
  if after.length = cs.length || after.isEmpty || before.isEmpty then (l.name, "")
  else (String.ofList before, String.ofList ('.' :: after))

def stem (l : Location) : String := l.split.1

def suffix (l : Location) : String := l.split.2

end Location

end CallTime
