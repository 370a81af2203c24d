import Devirt.Analysis.Instantiation
import Devirt.Analysis.ValueFlow

/-!
# Choosing and running analyses

* `Algorithm.run` : one analysis of a program;
* `Algorithm.chosen? name` : the analyses that a name on the command line stands for;
* `runAll` : several analyses, one after the other.
-/

namespace Devirt

namespace Algorithm

def run : Algorithm → Program → Analyzed (Told Run)
  | cha => Hierarchy.run
  | rta => Instantiation.run
  | vta => ValueFlow.run

def chosen? : String → Option (List Algorithm)
  | "cha" => some [cha]
  | "rta" => some [rta]
  | "vta" => some [vta]
  | "all" => some [cha, rta, vta]
  | _ => none

end Algorithm

/-- Analyses of a program in order; a failure comes with the analysis that failed. -/
def runAll (p : Program) : List Algorithm → Except (Algorithm × AnalysisError) (Told (List Run))
  | [] => .ok ⟨[], []⟩
  | a :: rest =>
    match a.run p with
    | .error e => .error (a, e)
    | .ok first =>
      match runAll p rest with
      | .error e => .error e
      | .ok others => .ok ⟨first.result :: others.result, first.events ++ others.events⟩

end Devirt
