import Devirt.Ordered
import Devirt.Program.Dispatch
import Devirt.Traversal

/-!
# Building call graphs

The loop that all analyses share. A `Strategy` says what a walk through one method's calls adds,
and which further calls follow from all that is known once no method is left to walk through.

* `Algorithm` : the analyses, with the texts that reports show;
* `Run` : what an analysis finds: a call graph, and the calls that resolve to no method;
* `drain` : walks through the scheduled methods; `round` : drains, then resolves what is known;
* `saturate` : rounds until no method is left. Each round but the first takes a method that no
  round took before, so there is a last one.
-/

namespace Devirt

/-! ## Results -/

/-- An analysis: by the class hierarchy, by the classes that reached code instantiates, or by the
objects that flow into each receiver. -/
inductive Algorithm where
  | cha
  | rta
  | vta
deriving DecidableEq, Repr, Inhabited

namespace Algorithm

def id : Algorithm → String
  | cha => "CHA"
  | rta => "RTA"
  | vta => "VTA"

def title : Algorithm → String
  | cha => "Class hierarchy analysis"
  | rta => "Rapid type analysis"
  | vta => "Variable type analysis"

def description : Algorithm → String
  | cha => "Resolves dispatch against every subtype of the declared receiver type"
  | rta => "Resolves dispatch against classes constructed in reachable code"
  | vta => "Resolves dispatch against the classes reaching each receiver value"

end Algorithm

/-- A dispatched call that resolves to no method. -/
structure UnresolvedCall where
  caller : MethodRef
  signature : MethodRef
deriving DecidableEq, Repr, Inhabited

/-- The order by caller, then signature. -/
instance : Ord UnresolvedCall where
  compare a b := (compare a.caller b.caller).then (compare a.signature b.signature)

instance : Std.LawfulEqOrd UnresolvedCall where
  compare_self := Ordering.then_eq_eq.mpr ⟨Std.ReflOrd.compare_self, Std.ReflOrd.compare_self⟩
  eq_of_compare {a b} h := by
    obtain ⟨h₁, h₂⟩ := Ordering.then_eq_eq.mp h
    have := Std.LawfulEqOrd.eq_of_compare h₁
    have := Std.LawfulEqOrd.eq_of_compare h₂
    cases a
    cases b
    simp_all

/-- What an analysis finds; the warnings are in order. -/
structure Run where
  algorithm : Algorithm
  graph : CallGraph
  warnings : List UnresolvedCall
deriving DecidableEq, Repr, Inhabited

/-- A result together with what was told on the way to it. -/
structure Told (α : Type) where
  result : α
  events : List Event

/-- Adds a warning; it is told once. -/
def recordUnresolved (warnings : List UnresolvedCall) (w : UnresolvedCall) :
    Told (List UnresolvedCall) :=
  ⟨Ordered.insert w warnings,
    if warnings.contains w then [] else [.noTarget w.caller w.signature]⟩

/-- The warnings of calls, each told when it first comes up. -/
def recordAllUnresolved (calls : List UnresolvedCall) : Told (List UnresolvedCall) :=
  ⟨Ordered.ofList calls, calls.eraseDups.map (fun w => .noTarget w.caller w.signature)⟩

/-! ## Strategies -/

/-- What a walk through the calls of one method adds. -/
structure Visit (σ : Type) where
  state : σ
  callees : List MethodRef
  events : List Event

/-- What follows from all that is known. -/
structure Resolution (σ : Type) where
  state : σ
  links : List (MethodRef × MethodRef)
  events : List Event

/-- How an analysis resolves calls, with a state of its own. -/
structure Strategy (σ : Type) where
  initial : σ
  visit : σ → MethodRef → Analyzed (Visit σ)
  resolve : Nat → σ → Analyzed (Resolution σ)

structure Progress (σ : Type) where
  state : σ
  traversal : Traversal
  events : List Event
  rounds : Nat

variable {σ : Type}

/-! ## The loop -/

/-- Walks through all scheduled methods, and through those that their calls schedule. -/
def drain (p : Program) (s : Strategy σ) (now : Progress σ) : Analyzed (Progress σ) :=
  match _hn : now.traversal.next with
  | none => .ok now
  | some (m, t) =>
    match s.visit now.state m with
    | .error e => .error e
    | .ok v =>
      match _hl : t.linkAll p (v.callees.map (fun callee => (m, callee))) with
      | .error e => .error e
      | .ok t' => drain p s ⟨v.state, t', now.events ++ v.events, now.rounds⟩
termination_by now.traversal.pending p
decreasing_by
  exact Nat.lt_of_le_of_lt (Traversal.pending_linkAll _hl) (Traversal.pending_next _hn)

def round (p : Program) (s : Strategy σ) (now : Progress σ) : Analyzed (Progress σ) :=
  match drain p s now with
  | .error e => .error e
  | .ok drained =>
    match s.resolve (now.rounds + 1) drained.state with
    | .error e => .error e
    | .ok r =>
      match drained.traversal.linkAll p r.links with
      | .error e => .error e
      | .ok t => .ok ⟨r.state, t, drained.events ++ r.events, now.rounds + 1⟩

theorem pending_drain {p : Program} {s : Strategy σ} {now later : Progress σ}
    (h : drain p s now = .ok later) : later.traversal.pending p ≤ now.traversal.pending p := by
  fun_induction drain p s now with
  | case1 now hn =>
    cases h
    exact Nat.le_refl _
  | case2 => cases h
  | case3 => cases h
  | case4 now m t hn v hv t' hl ih =>
    have h₁ := ih h
    have h₂ := Traversal.pending_linkAll hl
    have h₃ := (Traversal.pending_next hn : t.pending p < now.traversal.pending p)
    exact Nat.le_of_lt (Nat.lt_of_le_of_lt (Nat.le_trans h₁ h₂) h₃)

theorem pending_drain_lt {p : Program} {s : Strategy σ} {now later : Progress σ}
    (hbusy : now.traversal.isIdle = false) (h : drain p s now = .ok later) :
    later.traversal.pending p < now.traversal.pending p := by
  rw [drain] at h
  split at h
  · rename_i hn
    unfold Traversal.next at hn
    split at hn
    · rename_i hw
      simp [Traversal.isIdle, hw] at hbusy
    · cases hn
  · rename_i m t hn
    split at h
    · cases h
    · split at h
      · cases h
      · rename_i t' hl
        have h₁ := pending_drain h
        have h₂ := Traversal.pending_linkAll hl
        have h₃ := (Traversal.pending_next hn : t.pending p < now.traversal.pending p)
        exact Nat.lt_of_le_of_lt (Nat.le_trans h₁ h₂) h₃

/-- What the loop of rounds has left: the methods to take, and the round in which nothing is
scheduled yet. -/
def Progress.remaining (p : Program) (now : Progress σ) : Nat :=
  2 * now.traversal.pending p + (if now.traversal.isIdle then 1 else 0)

theorem remaining_round {p : Program} {s : Strategy σ} {now later : Progress σ}
    (h : round p s now = .ok later) (hbusy : later.traversal.isIdle = false) :
    later.remaining p < now.remaining p := by
  unfold round at h
  split at h
  · cases h
  · rename_i drained hd
    split at h
    · cases h
    · split at h
      · cases h
      · rename_i r _ t hl
        cases h
        have hlink := Traversal.pending_linkAll hl
        have hdrain := pending_drain hd
        simp only [Progress.remaining, hbusy]
        by_cases hidle : now.traversal.isIdle
        · simp only [hidle]
          simp
          omega
        · have hlt := pending_drain_lt (by simpa using hidle) hd
          simp only [hidle]
          simp
          omega

def saturate (p : Program) (s : Strategy σ) (now : Progress σ) : Analyzed (Progress σ) :=
  match _hr : round p s now with
  | .error e => .error e
  | .ok later => if _hi : later.traversal.isIdle then .ok later else saturate p s later
termination_by now.remaining p
decreasing_by
  exact remaining_round _hr (by simpa using _hi)

def analyze (p : Program) (s : Strategy σ) : Analyzed (Progress σ) :=
  saturate p s ⟨s.initial, Traversal.seed {} p, Traversal.seedEvents p, 0⟩

end Devirt
