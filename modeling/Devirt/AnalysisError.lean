import Devirt.Code

/-!
# Failures of call resolution

* `unknownNode` : an edge was asked for between methods that are no nodes;
* `noReturnValue` : the result of a call is used and its method never returns a value;
* `endlessLookup` : a method is looked for along a superclass cycle on which no class has it.
-/

namespace Devirt

inductive AnalysisError where
  | unknownNode (method : MethodRef)
  | noReturnValue (method : MethodRef)
  | endlessLookup (start : String) (signature : MethodRef)
deriving DecidableEq, Repr, Inhabited

def AnalysisError.message : AnalysisError → String
  | unknownNode m => "call graph has no node for " ++ m.text
  | noReturnValue m => "no return statement found in " ++ m.text
  | endlessLookup start s =>
    "superclasses of " ++ start ++ " repeat without " ++ s.name ++ s.descriptor

abbrev Analyzed (α : Type) := Except AnalysisError α

end Devirt
