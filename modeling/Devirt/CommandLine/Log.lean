import Devirt.CommandLine.Log.Directive

/-!
# Which events a log shows

* `Filter.parse? text` : the directives of a log setting, separated by commas;
* `Filter.shows` : of the directives that are about an event, the one that says most about it
  decides.
-/

namespace Devirt

/-- Directives in the order in which they were given. -/
abbrev Filter := List Directive

def Directive.isAbout (d : Directive) (e : Event) : Bool :=
  Text.startsWith d.target e.target && d.field.all e.fieldNames.contains

/-- Whether one directive gives way to another: one with a longer target, with a field where it
has none, or with a field later in the order of names; or an equal one given later. Both are about
the same event, so targets of the same length are the same. -/
def Directive.givesWay (a b : Directive) : Bool :=
  if a.target.length ≠ b.target.length then a.target.length < b.target.length
  else
    match a.field, b.field with
    | none, _ => true
    | some _, none => false
    | some x, some y => x ≤ y

namespace Filter

/-- The filter of a text; without directives only errors are shown. -/
def parse? (text : String) : Option Filter :=
  match (Text.split ',' text).filter (· ≠ "") with
  | [] => some [⟨"", none, some .error⟩]
  | parts => (parts.mapM Directive.read?).map (fun ds => ds.filterMap id)

def decides? (f : Filter) (e : Event) : Option Directive :=
  (f.filter (fun d => d.isAbout e)).foldl
    (fun best d =>
      match best with
      | none => some d
      | some b => if b.givesWay d then some d else some b)
    none

def shows (f : Filter) (e : Event) : Bool :=
  match f.decides? e with
  | some ⟨_, _, some level⟩ => e.level.rank ≤ level.rank
  | _ => false

end Filter

end Devirt
