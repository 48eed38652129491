import CallTime.Artifact.Basic
import CallTime.Value.Print

/-!
One line of text for a node. A whole number with too many digits cannot be written.
-/

namespace CallTime.Artifact

mutual

def text : Artifact → Except Fault String
  | .block _ statements =>
    .ok ("BlockArtifact(" ++ toString statements.length ++ " statements)")
  | .reference _ name none => .ok ("ReferenceArtifact(" ++ Quoted.text name ++ ")")
  | .reference _ name (some i) => do
    return "ReferenceArtifact(" ++ Quoted.text name ++ ", parameter_index=" ++ (← decimalText i) ++ ")"
  | .literal _ value _ => do return "ArtifactLiteralValue(" ++ (← value.literal) ++ ")"
  | .binary _ operator left right => do
    return "BinaryExpressionArtifact(" ++ (← textOption left) ++ " " ++ operator ++ " "
      ++ (← textOption right) ++ ")"
  | .ret _ value => do return "ReturnArtifact(" ++ (← textOption value) ++ ")"
  | .branch _ condition _ _ => do return "IfArtifact(" ++ (← textOption condition) ++ ")"
  | .call _ name arguments _ => .ok ("CallArtifact(" ++ (name.map fun s => Quoted.text s).getD "None"
      ++ ", " ++ toString arguments.length ++ " args)")
  | .function _ _ qualified _ _ => .ok ("FunctionArtifact(" ++ Quoted.text qualified ++ ")")
termination_by structural a => a

def textOption : Option Artifact → Except Fault String
  | none => .ok "None"
  | some a => a.text
termination_by structural a => a

end

end CallTime.Artifact
