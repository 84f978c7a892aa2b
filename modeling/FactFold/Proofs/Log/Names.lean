import FactFold.Log.Logger
import FactFold.Proofs.Text.Utf8

/-!
# Names before messages

A named logger puts its name before the template of a message, not before the message. So the names
of a chain of wrappers are read like a part of the template. Without a percent sign in them that makes
no difference: plain characters show as they are and take no argument, so that the message is the one
of the template alone with the names before it (`format_append`). A percent sign in a name begins a
directive, which reads on in what follows the name and may take an argument that was meant for the
template.

Whether a line is written does not depend on the names at all (`names_come_first`).
-/

namespace FactFold.Log

open Text (Bytes)

/-! ## Plain text before a template -/

/-- A plain character shows as it is. -/
theorem formatFrom_cons {c : Char} (hc : c ≠ '%') (args : List Arg) (fuel next : Nat)
    (reordered : Bool) (cs : List Char) :
    formatFrom args (fuel + 1) next reordered (c :: cs) =
      String.utf8EncodeChar c ++ formatFrom args fuel next reordered cs := by
  rw [formatFrom]
  exact hc

/-- Plain characters before a template show as they are, and the template goes on as if it began after
them. -/
theorem formatFrom_append {front : List Char} (hfront : '%' ∉ front) (args : List Arg)
    (fuel next : Nat) (reordered : Bool) (cs : List Char) :
    formatFrom args (front.length + fuel) next reordered (front ++ cs) =
      front.flatMap String.utf8EncodeChar ++ formatFrom args fuel next reordered cs := by
  induction front with
  | nil => simp
  | cons c front ih =>
    rw [List.mem_cons, not_or] at hfront
    have hlength : (c :: front).length + fuel = front.length + fuel + 1 := by
      rw [List.length_cons]
      omega
    rw [hlength, List.cons_append, formatFrom_cons (Ne.symm hfront.1), ih hfront.2, List.flatMap_cons,
      List.append_assoc]

/-- **Plain text before a template shows before its message.** -/
theorem format_append {front : String} (hfront : '%' ∉ front.toList) (template : String)
    (args : List Arg) : format (front ++ template) args = front ++ format template args := by
  -- the fuel for the longer template: a unit for each character before, and what the template needs
  have hlength : (front ++ template).toList.length + 1 =
      front.toList.length + (template.toList.length + 1) := by
    rw [String.toList_append, List.length_append]
    omega
  unfold format
  rw [hlength, String.toList_append, formatFrom_append hfront]
  exact Bytes.lossy_append front _

/-! ## Chains of wrappers -/

/-- A logger behind wrappers, of which the first is nearest to it. -/
def Logger.wrapped (l : Logger) (names : List String) : Logger :=
  names.foldl (fun l name => .named name l) l

/-- Names as they stand before a message, each with a colon and a space behind it. -/
def namesText : List String → String
  | [] => ""
  | name :: names => name ++ ": " ++ namesText names

/-- What reaches the logger behind a chain is the template with all names before it. -/
theorem Logger.reach_wrapped (l : Logger) (names : List String) (template : String) :
    (l.wrapped names).reach template = l.reach (namesText names ++ template) := by
  induction names generalizing l with
  | nil => simp [wrapped, namesText]
  | cons name names ih =>
    -- the first name is put on last, right before it reaches `l`
    show ((Logger.named name l).wrapped names).reach template = _
    simp only [ih, Logger.reach, namesText, String.append_assoc]

theorem percent_notMem_namesText {names : List String} (h : ∀ name ∈ names, '%' ∉ name.toList) :
    '%' ∉ (namesText names).toList := by
  induction names with
  | nil => simp [namesText]
  | cons name names ih =>
    have hname := h name (by simp)
    have hrest := ih fun n hn => h n (by simp [hn])
    simp [namesText, hname, hrest]

/-! ## Lines -/

/-- A message with its line break; one that ends with a line break needs no other. -/
def ended (message : String) : String :=
  if message.toList.getLast? = some '\n' then message else message ++ "\n"

/-- What ends in a space may stand before a message or before the message with its line break. -/
theorem ended_append {front : String} (hfront : ∀ c ∈ front.toList.getLast?, c = ' ')
    (message : String) : ended (front ++ message) = front ++ ended message := by
  have hlast : (front ++ message).toList.getLast? = some '\n' ↔
      message.toList.getLast? = some '\n' := by
    rw [String.toList_append, List.getLast?_append]
    cases message.toList.getLast? with
    | some c => rfl
    | none =>
      refine iff_of_false (fun h => ?_) nofun
      exact absurd (hfront _ h) (by decide)
  unfold ended
  by_cases h : message.toList.getLast? = some '\n'
  · rw [if_pos (hlast.2 h), if_pos h]
  · rw [if_neg (mt hlast.1 h), if_neg h, String.append_assoc]

/-- What a line begins with. -/
def tag (level : Level) : String := "[" ++ levelName level.number ++ "] "

/-- A line is the tag of its level and then the message. -/
theorem line_eq (level : Level) (message : String) : line level message = tag level ++ ended message := by
  have htag : ∀ c ∈ (tag level).toList.getLast?, c = ' ' := by
    intro c hc
    rw [tag, String.toList_append, List.getLast?_append] at hc
    exact (Option.some.inj hc).symm
  exact ended_append htag message

theorem getLast?_namesText (names : List String) : ∀ c ∈ (namesText names).toList.getLast?, c = ' ' := by
  induction names with
  | nil => nofun
  | cons name names ih =>
    intro c hc
    rw [namesText, String.toList_append, List.getLast?_append] at hc
    cases hlast : (namesText names).toList.getLast? with
    | some d =>
      rw [hlast] at hc
      obtain rfl : d = c := Option.some.inj hc
      exact ih _ hlast
    | none =>
      rw [hlast, String.toList_append, List.getLast?_append] at hc
      exact (Option.some.inj hc).symm

/-! ## Wrapped loggers -/

/-- The logger writes one line for the event: the tag of its level, and behind it this text. -/
def Book.Writes (b : Book) (l : Logger) (e : Event) (text : String) : Prop :=
  b.write l e = { b with written := b.written ++ (tag e.level ++ text) }

/-- **Names come before the message.** A wrapped logger writes a line exactly when the base logger
does. Behind the tag there is the message of the template with the names before it; and if no name
has a percent sign, these are the names, from the one nearest to the base logger to the outermost, each
with a colon and a space behind it, and then what the base logger writes behind its tag. -/
theorem names_come_first (b : Book) (id : Nat) (names : List String) (e : Event) :
    (b.write (.base id) e = b ∧ b.write ((Logger.base id).wrapped names) e = b) ∨
    (b.Writes (.base id) e (ended (format e.template e.args)) ∧
      b.Writes ((Logger.base id).wrapped names) e
        (ended (format (namesText names ++ e.template) e.args)) ∧
      ((∀ name ∈ names, '%' ∉ name.toList) → b.Writes ((Logger.base id).wrapped names) e
        (namesText names ++ ended (format e.template e.args)))) := by
  have hbase : (Logger.base id).reach e.template = some (id, e.template) := rfl
  have hwrapped : ((Logger.base id).wrapped names).reach e.template =
      some (id, namesText names ++ e.template) := Logger.reach_wrapped _ _ _
  by_cases hpasses : passes (b.levels.getD id off) e.level = true
  · right
    have hwrites : b.Writes ((Logger.base id).wrapped names) e
        (ended (format (namesText names ++ e.template) e.args)) := by
      simp only [Book.Writes, Book.write, hwrapped, hpasses, if_true, line_eq]
    refine ⟨?_, hwrites, fun hnames => ?_⟩
    · simp only [Book.Writes, Book.write, hbase, hpasses, if_true, line_eq]
    · rw [format_append (percent_notMem_namesText hnames),
        ended_append (getLast?_namesText names)] at hwrites
      exact hwrites
  · left
    constructor
    · simp only [Book.write, hbase, hpasses, Bool.false_eq_true, if_false]
    · simp only [Book.write, hwrapped, hpasses, Bool.false_eq_true, if_false]

/-- Two names without percent signs. -/
theorem names_come_first_two :
    Book.start.Writes ((Logger.base 0).wrapped ["registry", "cache"]) ⟨.info, "done", []⟩
      ("registry: cache: " ++ ended (format "done" [])) := by
  have hwritten := names_come_first Book.start 0 ["registry", "cache"] ⟨.info, "done", []⟩
  rcases hwritten with ⟨hnothing, -⟩ | ⟨-, -, hnames⟩
  · have hsame := congrArg Book.written hnothing
    simp [Book.write, Logger.reach, Book.start, passes, off, Level.number, line_eq, tag] at hsame
  · exact hnames (by decide)

-- the percent sign of a name takes the colon behind it for a verb
example : format (namesText ["50%"] ++ "done") [] = "50%!:(MISSING) done" := by cbv

end FactFold.Log
