import FactFold.Expr.Node
import Mathlib

/-!
# References to columns

An expression refers to columns, one reference after the other, and may refer to a column many
times. The columns it reads are the first references of every name, in that order (`columns_eq`):
joining lists of columns at every node on the way keeps just these, since a name that has been
dropped once has been met before.

So the place of a name among the columns is found for every reference, and it is found by the name
alone: the table a reference names does not count.

The references are also what a walk through the whole expression meets (`visited_eq`), so the columns
can be told from a walk without a look at the nodes between (`columns_first_visited`).
-/

namespace FactFold.Node

mutual

/-- The columns an expression refers to, in the order of the references. -/
def references : Node → List Column
  | .column c => [c]
  | .constant _ => []
  | .arithmetic _ l r => l.references ++ r.references
  | .comparison _ l r => l.references ++ r.references
  | .guarded _ l r body => l.references ++ r.references ++ body.references
  | .choice _ l r yes no => l.references ++ r.references ++ yes.references ++ no.references
  | .call _ args => (referenceLists args).flatten

/-- The references of each expression. -/
def referenceLists : List Node → List (List Column)
  | [] => []
  | n :: rest => n.references :: referenceLists rest

end

/-! ## The first of every name -/

/-- Only the names that have been seen count, not their order. -/
theorem firstByName_congr {seen seen' : List String} (h : ∀ a, a ∈ seen ↔ a ∈ seen')
    (cs : List Column) : firstByName seen cs = firstByName seen' cs := by
  induction cs generalizing seen seen' with
  | nil => rfl
  | cons c cs ih =>
    have hcontains : seen.contains c.name = seen'.contains c.name := by
      rw [Bool.eq_iff_iff, List.contains_iff_mem, List.contains_iff_mem, h]
    have hnext : ∀ a, a ∈ c.name :: seen ↔ a ∈ c.name :: seen' := by simp [h]
    rw [firstByName, firstByName, hcontains, ih h, ih hnext]

theorem firstByName_append (seen : List String) (cs ds : List Column) :
    firstByName seen (cs ++ ds) =
      firstByName seen cs ++ firstByName (cs.map Column.name ++ seen) ds := by
  induction cs generalizing seen with
  | nil => rfl
  | cons c cs ih =>
    rw [List.cons_append, firstByName, firstByName, List.map_cons]
    by_cases hc : c.name ∈ seen
    · rw [if_pos (by simpa using hc), if_pos (by simpa using hc), ih]
      congr 1
      refine firstByName_congr (fun a => ?_) ds
      simp only [List.mem_append, List.mem_cons]
      grind
    · rw [if_neg (by simpa using hc), if_neg (by simpa using hc), ih]
      show c :: (_ ++ _) = c :: (_ ++ _)
      congr 2
      refine firstByName_congr (fun a => ?_) ds
      simp only [List.mem_append, List.mem_cons]
      grind

/-- Dropping names early makes no difference if they are dropped in the end. -/
theorem firstByName_again {seen seen' : List String} (h : ∀ a ∈ seen, a ∈ seen')
    (cs : List Column) : firstByName seen' (firstByName seen cs) = firstByName seen' cs := by
  induction cs generalizing seen seen' with
  | nil => rfl
  | cons c cs ih =>
    rw [firstByName, firstByName]
    by_cases hc : c.name ∈ seen
    · rw [if_pos (by simpa using hc), if_pos (by simpa using h _ hc), ih h]
    · rw [if_neg (by simpa using hc), firstByName]
      by_cases hc' : c.name ∈ seen'
      · rw [if_pos (by simpa using hc'), if_pos (by simpa using hc'),
          ih (by simpa [hc'] using h)]
      · rw [if_neg (by simpa using hc'), if_neg (by simpa using hc'), ih]
        intro a ha
        rcases List.mem_cons.1 ha with rfl | ha
        · simp
        · simp [h a ha]

theorem mem_names_firstByName (seen : List String) (cs : List Column) (a : String) :
    a ∈ (firstByName seen cs).map Column.name ↔ a ∈ cs.map Column.name ∧ a ∉ seen := by
  induction cs generalizing seen with
  | nil => simp [firstByName]
  | cons c cs ih =>
    rw [firstByName]
    by_cases hc : c.name ∈ seen
    · rw [if_pos (by simpa using hc), ih, List.map_cons, List.mem_cons]
      grind
    · rw [if_neg (by simpa using hc), List.map_cons, List.mem_cons, ih, List.map_cons, List.mem_cons,
        List.mem_cons]
      grind

theorem nodup_names_firstByName (seen : List String) (cs : List Column) :
    ((firstByName seen cs).map Column.name).Nodup := by
  induction cs generalizing seen with
  | nil => exact List.nodup_nil
  | cons c cs ih =>
    rw [firstByName]
    split
    · exact ih seen
    · rw [List.map_cons, List.nodup_cons, mem_names_firstByName]
      exact ⟨by simp, ih _⟩

/-- A column that is kept is the first of its name. -/
theorem find?_of_mem_firstByName {seen : List String} {cs : List Column} {c : Column}
    (h : c ∈ firstByName seen cs) : cs.find? (fun d => d.name = c.name) = some c := by
  induction cs generalizing seen with
  | nil => cases h
  | cons d cs ih =>
    have hnew : ∀ {seen}, c ∈ firstByName seen cs → c.name ∉ seen := fun {seen} hc =>
      ((mem_names_firstByName seen cs c.name).1 (List.mem_map_of_mem hc)).2
    rw [firstByName] at h
    split at h
    · rename_i hd
      have hne : d.name ≠ c.name := by
        intro heq
        exact hnew h (by rw [← heq]; simpa using hd)
      rw [List.find?_cons_of_neg (by simpa using hne)]
      exact ih h
    · rcases List.mem_cons.1 h with rfl | h
      · exact List.find?_cons_of_pos (by simp)
      · have hne : d.name ≠ c.name := by
          intro heq
          exact hnew h (by simp [heq])
        rw [List.find?_cons_of_neg (by simpa using hne)]
        exact ih h

/-- Lists in which every name is first are joined as if nothing had been dropped. -/
theorem mergeColumns_map (lists : List (List Column)) :
    mergeColumns (lists.map (firstByName [])) = firstByName [] lists.flatten := by
  have hmerge : ∀ seen, firstByName seen (lists.map (firstByName [])).flatten =
      firstByName seen lists.flatten := by
    induction lists with
    | nil => intro seen; rfl
    | cons cs lists ih =>
      intro seen
      rw [List.map_cons, List.flatten_cons, List.flatten_cons, firstByName_append, firstByName_append,
        firstByName_again (by simp), ← ih]
      congr 1
      refine firstByName_congr (fun a => ?_) _
      rw [List.mem_append, List.mem_append, mem_names_firstByName]
      simp
  exact hmerge []

/-! ## The columns of an expression -/

mutual

/-- **The columns an expression reads are its first references of every name.** -/
theorem columns_eq : ∀ n : Node, n.columns = firstByName [] n.references
  | .column c => by simp [columns, references, firstByName]
  | .constant _ => by simp [columns, references, firstByName]
  | .arithmetic _ l r | .comparison _ l r => by
    have hmerge := mergeColumns_map [l.references, r.references]
    rw [columns, references, columns_eq l, columns_eq r]
    simpa using hmerge
  | .guarded _ l r body => by
    have hcondition := mergeColumns_map [l.references, r.references]
    have hmerge := mergeColumns_map [[l.references, r.references].flatten, body.references]
    rw [columns, references, columns_eq l, columns_eq r, columns_eq body]
    simp only [List.map_cons, List.map_nil] at hcondition hmerge
    rw [hcondition, hmerge]
    simp
  | .choice _ l r yes no => by
    have hcondition := mergeColumns_map [l.references, r.references]
    have hmerge := mergeColumns_map
      [[l.references, r.references].flatten, yes.references, no.references]
    rw [columns, references, columns_eq l, columns_eq r, columns_eq yes, columns_eq no]
    simp only [List.map_cons, List.map_nil] at hcondition hmerge
    rw [hcondition, hmerge]
    simp
  | .call _ args => by
    rw [columns, references, columnLists_eq args, mergeColumns_map]

theorem columnLists_eq : ∀ ns : List Node,
    columnLists ns = (referenceLists ns).map (firstByName [])
  | [] => by simp [columnLists, referenceLists]
  | n :: ns => by
    rw [columnLists, referenceLists, columns_eq n, columnLists_eq ns, List.map_cons]

end

/-- Every column is referred to, and the first to be so under its name. -/
theorem find?_of_mem_columns {n : Node} {c : Column} (h : c ∈ n.columns) :
    n.references.find? (fun d => d.name = c.name) = some c := by
  rw [columns_eq] at h
  exact find?_of_mem_firstByName h

theorem mem_references_of_mem_columns {n : Node} {c : Column} (h : c ∈ n.columns) :
    c ∈ n.references := List.mem_of_find?_eq_some (find?_of_mem_columns h)

theorem nodup_names_columns (n : Node) : (n.columns.map Column.name).Nodup := by
  rw [columns_eq]
  exact nodup_names_firstByName _ _

/-- A name is found among the columns at its place. -/
theorem findIdx?_columns_iff {n : Node} {name : String} {i : Nat} :
    n.columns.findIdx? (fun d => d.name = name) = some i ↔
      (n.columns.map Column.name)[i]? = some name := by
  rw [List.findIdx?_eq_some_iff_getElem, List.getElem?_map]
  constructor
  · rintro ⟨hi, hname, -⟩
    rw [List.getElem?_eq_getElem hi, Option.map_some, of_decide_eq_true hname]
  · intro h
    obtain ⟨c, hc, rfl⟩ := Option.map_eq_some_iff.1 h
    obtain ⟨hi, rfl⟩ := List.getElem?_eq_some_iff.1 hc
    refine ⟨hi, by simp, fun j hj => ?_⟩
    -- an earlier column of the same name would be the same column
    have hlt : j < n.columns.length := by omega
    simp only [decide_eq_true_eq]
    intro heq
    have hnames : (n.columns.map Column.name)[j]? = (n.columns.map Column.name)[i]? := by
      simp [hlt, hi, heq]
    have hsame := (List.getElem?_inj (by simpa using hlt) (nodup_names_columns n)).1 hnames
    omega

/-! ## Columns met on a walk

A walk that turns back nowhere visits the condition of a choice as a node of its own, before the
operands of that condition. No column is met there, so the columns come in the order of the
references. -/

/-- The column that a node is. -/
def column? : Node → Option Column
  | .column c => some c
  | _ => none

/-- The columns met on a walk through the whole expression, one visit after the other. -/
def visited (n : Node) : List Column := (n.walk fun _ => true).filterMap column?

mutual

theorem visited_eq : ∀ n : Node, n.visited = n.references
  | .column c | .constant c => by simp [visited, walk, references, column?]
  | .arithmetic _ l r | .comparison _ l r => by
    have hl := visited_eq l
    have hr := visited_eq r
    unfold visited at *
    simp [walk, column?, references, List.filterMap_cons, hl, hr]
  | .guarded _ l r body => by
    have hl := visited_eq l
    have hr := visited_eq r
    have hbody := visited_eq body
    unfold visited at *
    simp [walk, column?, references, List.filterMap_cons, hl, hr, hbody]
  | .choice _ l r yes no => by
    have hl := visited_eq l
    have hr := visited_eq r
    have hyes := visited_eq yes
    have hno := visited_eq no
    unfold visited at *
    simp [walk, column?, references, List.filterMap_cons, hl, hr, hyes, hno]
  | .call _ args => by
    have hargs := visitedAll_eq args
    unfold visited
    simp [walk, column?, references, List.filterMap_cons, hargs]

theorem visitedAll_eq : ∀ ns : List Node,
    (walkAll (fun _ => true) ns).filterMap column? = (referenceLists ns).flatten
  | [] => by simp [walkAll, referenceLists]
  | n :: ns => by
    have hn : (n.walk fun _ => true).filterMap column? = n.references := visited_eq n
    simp [walkAll, referenceLists, hn, visitedAll_eq ns]

end

/-- What is kept beside the names already seen is what remains once repeated names are erased. -/
theorem firstByName_eq_eraseDupsBy (seen : List String) (cs : List Column) :
    firstByName seen cs =
      (cs.filter fun c => c.name ∉ seen).eraseDupsBy fun c d => c.name == d.name := by
  induction cs generalizing seen with
  | nil => rfl
  | cons c cs ih =>
    rw [firstByName]
    by_cases hc : c.name ∈ seen
    · rw [if_pos (by simpa using hc), List.filter_cons_of_neg (by simpa using hc), ih]
    · rw [if_neg (by simpa using hc), List.filter_cons_of_pos (by simpa using hc),
        List.eraseDupsBy_cons, List.filter_filter, ih]
      -- behind `c` its name is one more that has been seen
      congr 2
      apply List.filter_congr
      intro d _
      simp

/-- **The columns of an expression are those met on a walk, each name at its first visit.** No name
comes twice, none is missing, and a column that is kept is the first of its name, table included. -/
theorem columns_first_visited (n : Node) :
    n.columns = n.visited.eraseDupsBy (fun c d => c.name == d.name) ∧
      (n.columns.map Column.name).Nodup ∧
      (∀ c ∈ n.visited, c.name ∈ n.columns.map Column.name) ∧
      ∀ c ∈ n.columns, n.visited.find? (fun d => d.name = c.name) = some c := by
  rw [visited_eq]
  refine ⟨?_, nodup_names_columns n, fun c hc => ?_, fun c hc => find?_of_mem_columns hc⟩
  · have hfirst := firstByName_eq_eraseDupsBy [] n.references
    rw [columns_eq, hfirst]
    -- at the beginning no name has been seen
    simp
  · rw [columns_eq, mem_names_firstByName]
    exact ⟨List.mem_map_of_mem hc, by simp⟩

/-- Of two columns of one name the one met first is kept, here the one in the condition, and the table
of the other is lost. -/
theorem columns_first_visited_tables :
    let n : Node := .choice .gt (.column ⟨"a", "t"⟩) (.column ⟨"b", ""⟩)
      (.arithmetic .sub (.column ⟨"c", ""⟩) (.column ⟨"a", "u"⟩)) (.column ⟨"b", "u"⟩)
    n.columns = [⟨"a", "t"⟩, ⟨"b", ""⟩, ⟨"c", ""⟩] ∧
      ⟨"a", "u"⟩ ∈ n.visited ∧ "a" ∈ n.columns.map Column.name ∧
      n.visited.find? (fun d => d.name = "a") = some ⟨"a", "t"⟩ := by
  intro n
  have hvisited : n.visited = [⟨"a", "t"⟩, ⟨"b", ""⟩, ⟨"c", ""⟩, ⟨"a", "u"⟩, ⟨"b", "u"⟩] := by
    rw [visited_eq]
    simp [n, references]
  have hcolumns : n.columns = [⟨"a", "t"⟩, ⟨"b", ""⟩, ⟨"c", ""⟩] := by
    rw [(columns_first_visited n).1, hvisited]
    decide
  have hlost : ⟨"a", "u"⟩ ∈ n.visited := by simp [hvisited]
  refine ⟨hcolumns, hlost, (columns_first_visited n).2.2.1 _ hlost, ?_⟩
  exact (columns_first_visited n).2.2.2 ⟨"a", "t"⟩ (by simp [hcolumns])

end FactFold.Node
