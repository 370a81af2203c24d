import Devirt.Report
import Mathlib.Data.List.Basic

/-!
# Reports tell runs apart

A report shows a method as one text, in which nothing but a dot divides the owner from the name, and
nothing at all the name from the descriptor.

* `MethodRef.Shaped` : a method whose text says where its parts end, because the owner has no dot, the
  name has no opening bracket, and the descriptor begins with one;
* `MethodRef.ofText` : the method of a text. Shaped methods are read back (`MethodRef.ofText_text`), so
  no two of them have the same text;
* `Run.methods` : all methods that a run names. If they are shaped, the report of the run has them all
  (`RunReport.ofRun_inj`), and so does the object that the report is written as (`Report.encode_inj`);
* `report_lossless` : so lists of runs that give the same report are the same.
-/

namespace Devirt

/-! ## Texts of methods -/

namespace MethodRef

/-- The text of the method says where its parts end. -/
def Shaped (m : MethodRef) : Prop :=
  '.' ∉ m.owner.toList ∧ '(' ∉ m.name.toList ∧ m.descriptor.toList.head? = some '('

instance : DecidablePred Shaped := fun _ => inferInstanceAs (Decidable (_ ∧ _ ∧ _))

/-- The method of a text: its owner ends before the first dot, and its descriptor begins with the first
bracket behind that. -/
def ofText (text : String) : MethodRef :=
  let behind := (text.toList.dropWhile (· != '.')).tail
  ⟨.ofList (text.toList.takeWhile (· != '.')), .ofList (behind.takeWhile (· != '(')),
    .ofList (behind.dropWhile (· != '('))⟩

theorem takeWhile_ne_append {a : Char} {xs ys : List Char} (hx : a ∉ xs) (hy : ys.head? = some a) :
    (xs ++ ys).takeWhile (· != a) = xs := by
  obtain ⟨ys, rfl⟩ := List.head?_eq_some_iff.mp hy
  rw [List.takeWhile_append_of_pos (fun x h => by simpa using ne_of_mem_of_not_mem h hx)]
  simp

theorem dropWhile_ne_append {a : Char} {xs ys : List Char} (hx : a ∉ xs) (hy : ys.head? = some a) :
    (xs ++ ys).dropWhile (· != a) = ys := by
  obtain ⟨ys, rfl⟩ := List.head?_eq_some_iff.mp hy
  rw [List.dropWhile_append_of_pos (fun x h => by simpa using ne_of_mem_of_not_mem h hx)]
  simp

/-- A shaped method is read back from its text. -/
theorem ofText_text {m : MethodRef} (h : m.Shaped) : ofText m.text = m := by
  obtain ⟨howner, hname, hdescriptor⟩ := h
  have htext : m.text.toList = m.owner.toList ++ '.' :: (m.name.toList ++ m.descriptor.toList) := by
    simp [text, String.toList_append]
  have hdot : ('.' :: (m.name.toList ++ m.descriptor.toList)).head? = some '.' := rfl
  unfold ofText
  simp only [htext, takeWhile_ne_append howner hdot, dropWhile_ne_append howner hdot, List.tail_cons,
    takeWhile_ne_append hname hdescriptor, dropWhile_ne_append hname hdescriptor, String.ofList_toList]

theorem text_inj {m n : MethodRef} (hm : m.Shaped) (hn : n.Shaped) (h : m.text = n.text) : m = n := by
  rw [← ofText_text hm, h, ofText_text hn]

theorem texts_inj {m n m' n' : MethodRef} (h : m.Shaped ∧ n.Shaped) (h' : m'.Shaped ∧ n'.Shaped)
    (htexts : (m.text, n.text) = (m'.text, n'.text)) : m = m' ∧ n = n' := by
  obtain ⟨hm, hn⟩ := Prod.mk.inj htexts
  exact ⟨text_inj h.1 h'.1 hm, text_inj h.2 h'.2 hn⟩

end MethodRef

/-- Lists are the same if their elements are told apart, and the images of the lists are the same. -/
theorem eq_of_map_eq {α β : Type} {f : α → β} {P : α → Prop} (inj : ∀ x y, P x → P y → f x = f y → x = y)
    {xs ys : List α} (hx : ∀ x ∈ xs, P x) (hy : ∀ y ∈ ys, P y) (h : xs.map f = ys.map f) : xs = ys := by
  induction xs generalizing ys with
  | nil => exact (List.map_eq_nil_iff.mp h.symm).symm
  | cons x xs ih =>
    obtain ⟨y, ys, rfl, hfirst, hrest⟩ := List.map_eq_cons_iff.mp h.symm
    rw [inj x y (hx x List.mem_cons_self) (hy y List.mem_cons_self) hfirst.symm,
      ih (fun z hz => hx z (List.mem_cons_of_mem x hz)) (fun z hz => hy z (List.mem_cons_of_mem y hz))
        hrest.symm]

/-! ## Runs -/

/-- The methods that a run names: its nodes, the ends of its edges, and those in its warnings. -/
def Run.methods (r : Run) : List MethodRef :=
  r.graph.nodes.toList ++ r.graph.edges.toList.flatMap (fun e => [e.1, e.2]) ++
    r.warnings.flatMap (fun w => [w.caller, w.signature])

/-- The texts of all methods of the run say where their parts end. -/
def Run.Shaped (r : Run) : Prop := ∀ m ∈ r.methods, m.Shaped

instance : DecidablePred Run.Shaped := fun r => inferInstanceAs (Decidable (∀ m ∈ r.methods, m.Shaped))

namespace Run.Shaped

variable {r : Run} (h : r.Shaped)

include h

theorem node {m : MethodRef} (hm : m ∈ r.graph.nodes.toList) : m.Shaped :=
  h m (List.mem_append_left _ (List.mem_append_left _ hm))

theorem edge {e : MethodRef × MethodRef} (he : e ∈ r.graph.edges.toList) : e.1.Shaped ∧ e.2.Shaped := by
  have hends : ∀ m ∈ [e.1, e.2], m.Shaped := fun m hm =>
    h m (List.mem_append_left _ (List.mem_append_right _ (List.mem_flatMap.mpr ⟨e, he, hm⟩)))
  exact ⟨hends _ (by simp), hends _ (by simp)⟩

theorem warning {w : UnresolvedCall} (hw : w ∈ r.warnings) : w.caller.Shaped ∧ w.signature.Shaped := by
  have hends : ∀ m ∈ [w.caller, w.signature], m.Shaped := fun m hm =>
    h m (List.mem_append_right _ (List.mem_flatMap.mpr ⟨w, hw, hm⟩))
  exact ⟨hends _ (by simp), hends _ (by simp)⟩

end Run.Shaped

theorem Algorithm.id_inj {a b : Algorithm} (h : a.id = b.id) : a = b := by
  revert h
  cases a <;> cases b <;> decide

/-- Runs with shaped methods are told apart by their reports. -/
theorem RunReport.ofRun_inj {r r' : Run} (h : r.Shaped) (h' : r'.Shaped)
    (heq : RunReport.ofRun r = RunReport.ofRun r') : r = r' := by
  have halgorithm : r.algorithm = r'.algorithm := Algorithm.id_inj (congrArg RunReport.algorithm heq)
  have hnodes : r.graph.nodes.toList = r'.graph.nodes.toList :=
    eq_of_map_eq (f := MethodRef.text) (fun _ _ => MethodRef.text_inj) (fun _ => h.node)
      (fun _ => h'.node) (congrArg RunReport.nodes heq)
  have hedges : r.graph.edges.toList = r'.graph.edges.toList :=
    eq_of_map_eq (f := fun e : MethodRef × MethodRef => (e.1.text, e.2.text))
      (P := fun e => e.1.Shaped ∧ e.2.Shaped)
      (fun e e' he he' htexts => Prod.ext_iff.mpr (MethodRef.texts_inj he he' htexts))
      (fun _ => h.edge) (fun _ => h'.edge) (congrArg RunReport.edges heq)
  have hwarnings : r.warnings = r'.warnings := by
    refine eq_of_map_eq (f := fun w : UnresolvedCall => (w.caller.text, w.signature.text))
      (P := fun w => w.caller.Shaped ∧ w.signature.Shaped) (fun w w' hw hw' htexts => ?_)
      (fun _ => h.warning) (fun _ => h'.warning) (congrArg RunReport.warnings heq)
    obtain ⟨hcaller, hsignature⟩ := MethodRef.texts_inj hw hw' htexts
    cases w
    cases w'
    cases hcaller
    cases hsignature
    rfl
  obtain ⟨algorithm, ⟨nodes, edges⟩, warnings⟩ := r
  obtain ⟨algorithm', ⟨nodes', edges'⟩, warnings'⟩ := r'
  obtain rfl : nodes = nodes' := Roster.ext_toList hnodes
  obtain rfl : edges = edges' := Roster.ext_toList hedges
  obtain rfl : algorithm = algorithm' := halgorithm
  obtain rfl : warnings = warnings' := hwarnings
  rfl

/-! ## Objects -/

theorem map_pair_inj {first second : String} {xs ys : List (String × String)}
    (h : xs.map (fun e => Json.obj [(first, .str e.1), (second, .str e.2)]) =
      ys.map (fun e => Json.obj [(first, .str e.1), (second, .str e.2)])) : xs = ys := by
  refine List.map_injective_iff.mpr (fun a b hab => ?_) h
  simpa [Prod.ext_iff] using hab

theorem RunReport.encode_inj {a b : RunReport} (h : a.encode = b.encode) : a = b := by
  obtain ⟨algorithm, nodes, edges, warnings⟩ := a
  obtain ⟨algorithm', nodes', edges', warnings'⟩ := b
  simp only [RunReport.encode, Json.obj.injEq, List.cons.injEq, Prod.mk.injEq, Json.str.injEq,
    Json.arr.injEq, true_and, and_true] at h
  obtain ⟨rfl, hnodes, hedges, hwarnings⟩ := h
  obtain rfl : nodes = nodes' := List.map_injective_iff.mpr (fun _ _ => Json.str.inj) hnodes
  obtain rfl : edges = edges' := map_pair_inj hedges
  obtain rfl : warnings = warnings' := map_pair_inj hwarnings
  rfl

theorem Report.encode_inj {a b : Report} (h : a.encode = b.encode) : a = b := by
  obtain ⟨runs⟩ := a
  obtain ⟨runs'⟩ := b
  simp only [Report.encode, Json.obj.injEq, List.cons.injEq, Prod.mk.injEq, Json.arr.injEq, true_and,
    and_true] at h
  obtain rfl : runs = runs' := List.map_injective_iff.mpr (fun _ _ => RunReport.encode_inj) h
  rfl

/-- For all lists of runs whose methods have owners without a dot, names without an opening bracket and
descriptors that begin with one. If they give the same report, or reports that are written as the same
object, then they are the same: the same analyses with the same nodes, edges and warnings, all in the same
order. In each run, different methods have different texts. -/
theorem report_lossless {runs runs' : List Run} (hruns : ∀ r ∈ runs, r.Shaped)
    (hruns' : ∀ r ∈ runs', r.Shaped) :
    (Report.ofRuns runs = Report.ofRuns runs' → runs = runs') ∧
    ((Report.ofRuns runs).encode = (Report.ofRuns runs').encode → runs = runs') ∧
    ∀ r ∈ runs, ∀ m ∈ r.methods, ∀ n ∈ r.methods, m.text = n.text → m = n := by
  have hreports : Report.ofRuns runs = Report.ofRuns runs' → runs = runs' := fun heq =>
    eq_of_map_eq (fun _ _ => RunReport.ofRun_inj) hruns hruns' (congrArg Report.runs heq)
  refine ⟨hreports, fun heq => hreports (Report.encode_inj heq), fun r hr m hm n hn => ?_⟩
  exact MethodRef.text_inj (hruns r hr m hm) (hruns r hr n hn)

/-- A run that finds one call, and one that it cannot resolve. -/
def briefRun (a : Algorithm) (caller callee : MethodRef) : Run where
  algorithm := a
  graph := ⟨(Roster.insert ∅ caller).insert callee, Roster.insert ∅ (caller, callee)⟩
  warnings := [⟨callee, caller⟩]

/-- A dot in a name, or a bracket within a descriptor, hides no end: the reports differ. -/
theorem report_lossless_brief :
    let caller : MethodRef := ⟨"app/Main", "main", "()V"⟩
    let runs := [briefRun .cha caller ⟨"app/Dot", "a.b", "(I)V"⟩]
    let runs' := [briefRun .cha caller ⟨"app/Dot", "a", "(.b(I)V"⟩]
    (∀ r ∈ runs, r.Shaped) ∧ (∀ r ∈ runs', r.Shaped) ∧ runs ≠ runs' ∧
      Report.ofRuns runs ≠ Report.ofRuns runs' ∧
      (Report.ofRuns runs).encode ≠ (Report.ofRuns runs').encode := by
  intro caller runs runs'
  have hruns : ∀ r ∈ runs, r.Shaped := by decide
  have hruns' : ∀ r ∈ runs', r.Shaped := by decide
  have hne : runs ≠ runs' := by decide
  obtain ⟨hreports, hobjects, -⟩ := report_lossless hruns hruns'
  exact ⟨hruns, hruns', hne, mt hreports hne, mt hobjects hne⟩

/-- Where an owner has a dot, different methods can have one text. -/
example :
    (⟨"app", "Dot.draw", "()V"⟩ : MethodRef).text = (⟨"app.Dot", "draw", "()V"⟩ : MethodRef).text ∧
      (⟨"app", "Dot.draw", "()V"⟩ : MethodRef).Shaped ∧ ¬ (⟨"app.Dot", "draw", "()V"⟩ : MethodRef).Shaped := by
  decide

end Devirt
