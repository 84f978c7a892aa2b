import FactFold.Proofs.Expr.Taking
import FactFold.Proofs.Expr.Values

/-!
# What is taken

Three properties of the texts that the functions of the parser take, each an induction on the relation,
so that they hold with every set of functions:

* a phrase ends in a token that can end an operand (`Takes.last`);
* the functions an expression calls are those its names have been resolved to (`Takes.callees`);
* tokens may be added behind a phrase that could not go on with them (`Takes.append`).
-/

namespace FactFold.Grammar

variable {lookup : Lookup} {ts rest : List String} {n : Node}

/-! ## The last token of a phrase -/

/-- A token that an operand can end in. -/
inductive Closes : String → Prop
  | bracket : Closes ")"
  | number {t : String} {c : Constant} (ht : Token.isNumber t = true)
      (hc : Token.numberOf t = .ok c) : Closes t
  | string {t : String} {c : Constant} (ht : Token.string? t = some (.ok c)) : Closes t
  | column {t : String} {c : Column} (ht : Token.column? t = some c) : Closes t
  | word (w : Word "END") : Closes w.1

/-- The text before the rest ends in such a token. -/
def Closed (ts rest : List String) : Prop := ∃ front t, ts = front ++ t :: rest ∧ Closes t

theorem Closed.single {t : String} (h : Closes t) : Closed (t :: rest) rest := ⟨[], t, rfl, h⟩

theorem Closed.trans {us : List String} (h : Closed ts us) (hus : Closed us rest) :
    Closed ts rest := by
  obtain ⟨front, t, rfl, -⟩ := h
  obtain ⟨more, u, rfl, hu⟩ := hus
  exact ⟨front ++ t :: more, u, by simp, hu⟩

theorem Closed.cons {us : List String} (h : Closed us rest) (t : String) : Closed (t :: us) rest := by
  obtain ⟨front, u, rfl, hu⟩ := h
  exact ⟨t :: front, u, rfl, hu⟩

/-- What a task leaves of the text ends what it takes; the rest of a chain may take nothing. -/
def Task.Closed : Task → List String → List String → Prop
  | .tail .., ts, rest => rest = ts ∨ Grammar.Closed ts rest
  | _, ts, rest => Grammar.Closed ts rest

/-- **What is taken ends like an operand.** -/
theorem Takes.last {task : Task} (h : Takes lookup task ts rest) : task.Closed ts rest := by
  have hbracket {rest : List String} : Grammar.Closed (")" :: rest) rest := .single .bracket
  have hend (z : Word "END") {rest : List String} : Grammar.Closed (z.1 :: rest) rest :=
    .single (.word z)
  induction h with
  | lone _ _ ih => exact ih
  | compared _ _ _ iha ihb => exact Closed.trans iha (Closed.cons ihb _)
  | chain _ _ iha ihn =>
    -- the chain ends where its rest does, or else where its first operand does
    obtain rfl | hclosed := ihn
    · exact iha
    · exact Closed.trans iha hclosed
  | stop _ => exact .inl rfl
  | sign _ _ _ ihb ihn =>
    right
    obtain rfl | hclosed := ihn
    · exact Closed.cons ihb _
    · exact (Closed.trans ihb hclosed).cons _
  | negated _ ih => exact Closed.cons ih _
  | bare _ _ ih => exact ih
  | enclosed _ ih => exact (Closed.trans ih hbracket).cons _
  | number ht hc => exact .single (.number ht hc)
  | string ht => exact .single (.string ht)
  | column ht _ => exact .single (.column ht)
  | cases _ _ ih => exact Closed.cons ih _
  | condition _ _ _ ih => exact (Closed.cons ih _).cons _
  | call _ _ _ ih => exact (Closed.cons ih _).cons _
  | guarded _ _ z _ _ ihc ihyes =>
    have hyes := Closed.trans ihyes (hend z)
    exact (Closed.trans ihc (hyes.cons _)).cons _
  | choice _ _ _ z _ _ _ ihc ihyes ihno =>
    have hno := Closed.trans ihno (hend z)
    have hyes := Closed.trans ihyes (hno.cons _)
    exact (Closed.trans ihc (hyes.cons _)).cons _
  | empty => exact hbracket
  | nonempty _ _ ih => exact ih
  | single _ _ ih => exact Closed.trans ih hbracket
  | more _ _ _ ih ihns => exact Closed.trans ih (Closed.cons ihns _)

/-! ## Functions that are called -/

/-- Every function in a list is what some name has been resolved to. -/
def Resolved (lookup : Lookup) (fs : List Function) : Prop := ∀ f ∈ fs, ∃ t, lookup t = some f

theorem Resolved.append {fs gs : List Function} (hf : Resolved lookup fs) (hg : Resolved lookup gs) :
    Resolved lookup (fs ++ gs) := by
  intro f hmem
  rcases List.mem_append.1 hmem with h | h
  · exact hf f h
  · exact hg f h

/-- The functions in the result of a task have been resolved, for the rest of a chain those besides
the ones it begins with. -/
def Task.Resolved (lookup : Lookup) : Task → Prop
  | .phrase _ n => Grammar.Resolved lookup n.callees
  | .tail _ a n => Grammar.Resolved lookup a.callees → Grammar.Resolved lookup n.callees
  | .caseTail n => Grammar.Resolved lookup n.callees
  | .arguments _ ns => Grammar.Resolved lookup (Node.calleesOf ns)
  | .argumentTail _ ns => Grammar.Resolved lookup (Node.calleesOf ns)

/-- A condition calls what its arguments call. -/
theorem callees_ofConditionArgs {ns : List Node} (h : Node.ofConditionArgs ns = .ok n)
    (hns : Resolved lookup (Node.calleesOf ns)) : Resolved lookup n.callees := by
  obtain ⟨op, l, r, yes, rfl, rfl⟩ | ⟨op, l, r, yes, no, rfl, rfl⟩ := ofConditionArgs_ok h
  · simpa [Node.calleesOf, Node.callees] using hns
  · simpa [Node.calleesOf, Node.callees] using hns

/-- **An expression calls only functions that its names have been resolved to.** -/
theorem Takes.callees {task : Task} (h : Takes lookup task ts rest) : task.Resolved lookup := by
  have hnone : Grammar.Resolved lookup [] := by simp [Grammar.Resolved]
  induction h with
  | lone _ _ ih => exact ih
  | compared _ _ _ iha ihb => exact Resolved.append iha ihb
  | chain _ _ iha ihn => exact ihn iha
  | stop _ => exact id
  | sign _ _ _ ihb ihn => exact fun ha => ihn (ha.append ihb)
  | negated _ ih => exact ih
  | bare _ _ ih => exact ih
  | enclosed _ ih => exact ih
  | number _ _ => exact hnone
  | string _ => exact hnone
  | column _ _ => exact hnone
  | cases _ _ ih => exact ih
  | condition _ _ hn ih => exact callees_ofConditionArgs hn ih
  | @call t f ns _ _ _ hf _ ih =>
    intro g hg
    rcases List.mem_cons.1 hg with rfl | hg
    · exact ⟨t, hf⟩
    · exact ih g hg
  | guarded _ _ _ _ _ ihc ihyes => exact Resolved.append ihc ihyes
  | choice _ _ _ _ _ _ _ ihc ihyes ihno => exact (Resolved.append ihc ihyes).append ihno
  | empty => exact hnone
  | nonempty _ _ ih => exact ih
  | single _ _ ih => exact Resolved.append ih hnone
  | more _ _ _ ih ihns => exact Resolved.append ih ihns

/-- The same for a text. -/
theorem parse_callees {text : String} (h : Node.parse lookup text = .ok n) :
    Resolved lookup n.callees := by
  unfold Node.parse at h
  split at h
  · cases h
  · exact (parseTokens_iff_takes.1 h).callees

/-! ## Adding tokens -/

/-- What a task takes is over before this text. -/
def Task.Stops : Task → List String → Prop
  | .phrase c _, x => Grammar.Stops c x
  | .tail l _ _, x => Grammar.Stops (.chain l) x
  | _, _ => True

theorem head?_append_of {x : List String} {P : String → Prop} (h : ∀ t ∈ rest.head?, P t)
    (hx : rest = [] → ∀ t ∈ x.head?, P t) : ∀ t ∈ (rest ++ x).head?, P t := by
  cases rest with
  | nil => exact hx rfl
  | cons t rest => simpa using h

theorem head?_append_ne {x : List String} {t : String} (hpos : 0 < ts.length)
    (h : ts.head? ≠ some t) : (ts ++ x).head? ≠ some t := by
  cases ts with
  | nil => simp at hpos
  | cons u us => simpa using h

/-- **Tokens may follow a phrase that could not go on with them.** Where something else follows
already, anything may be added behind it. -/
theorem Takes.append {task : Task} (h : Takes lookup task ts rest) {x : List String}
    (hx : rest = [] → task.Stops x) : Takes lookup task (ts ++ x) (rest ++ x) := by
  induction h with
  | lone _ hstop ih =>
    refine .lone (ih fun hrest => (hx hrest).sum) (head?_append_of hstop fun hrest => ?_)
    exact Grammar.Stops.comparison?_eq_none (hx hrest)
  | compared ht _ _ iha ihb =>
    exact .compared ht (iha (by simp)) (ihb fun hrest => (hx hrest).sum)
  | @chain l _ _ _ us rest _ hn iha ihn =>
    refine .chain (iha fun hus => ?_) (ihn hx)
    -- with nothing left for the rest of the chain, nothing is left in the end
    have hlen := hn.length
    rw [hus] at hlen
    have hrest : rest = [] := List.length_eq_zero_iff.1 (by simpa [Task.least] using hlen)
    exact Grammar.Stops.operand (hx hrest)
  | stop h => exact .stop (head?_append_of h fun hrest => Grammar.Stops.not_sign (hx hrest))
  | @sign l _ _ _ _ _ _ vs rest ht _ hn ihb ihn =>
    refine .sign ht (ihb fun hvs => ?_) (ihn hx)
    have hlen := hn.length
    rw [hvs] at hlen
    have hrest : rest = [] := List.length_eq_zero_iff.1 (by simpa [Task.least] using hlen)
    exact Grammar.Stops.operand (hx hrest)
  | negated _ ih => exact .negated (ih hx)
  | bare hts h ih =>
    have hlen := h.length
    exact .bare (head?_append_ne (by simp only [Task.least] at hlen; omega) hts) (ih hx)
  | enclosed _ ih => exact .enclosed (ih (by simp))
  | number ht hc => exact .number ht hc
  | string ht => exact .string ht
  | @column t c rest ht hrest =>
    refine .column ht ?_
    cases rest with
    -- a column at the end of the text could become a call
    | nil => exact fun hhead => hx rfl "(" hhead (by decide)
    | cons u us => simpa using hrest
  | cases w _ ih => exact .cases w (ih fun _ => trivial)
  | condition w _ hn ih => exact .condition w (ih fun _ => trivial) hn
  | call ht hf _ ih => exact .call ht hf (ih fun _ => trivial)
  | guarded v u z _ _ ihc ihyes => exact .guarded v u z (ihc (by simp)) (ihyes (by simp))
  | choice v u o z _ _ _ ihc ihyes ihno =>
    exact .choice v u o z (ihc (by simp)) (ihyes (by simp)) (ihno (by simp))
  | empty => exact .empty
  | nonempty hts h ih =>
    have hlen := h.length
    exact .nonempty (head?_append_ne (by simp only [Task.least] at hlen; omega) hts)
      (ih fun _ => trivial)
  | single _ hn ih => exact .single (ih (by simp)) hn
  | more _ hn _ ih ihns => exact .more (ih (by simp)) hn (ihns fun _ => trivial)

end FactFold.Grammar
