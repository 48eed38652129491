/-!
Text as it is kept in files: strict UTF-8, with three ways to end a line.
-/

namespace CallTime

def decodeUtf8? (bytes : List UInt8) : Option String := String.fromUTF8? ⟨bytes.toArray⟩

def unifyLineEnds : List Char → List Char
  | [] => []
  | '\r' :: '\n' :: rest => '\n' :: unifyLineEnds rest
  | '\r' :: rest => '\n' :: unifyLineEnds rest
  | c :: rest => c :: unifyLineEnds rest

def fileText? (bytes : List UInt8) : Option String :=
  (decodeUtf8? bytes).map fun s => String.ofList (unifyLineEnds s.toList)

end CallTime
