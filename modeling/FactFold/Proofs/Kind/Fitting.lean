import FactFold.Proofs.Kind.Additive
import FactFold.Proofs.Lowering.Parts

/-!
# Routines that fit their buffers

The routines of a kind of aggregation put code of their own around the code of an expression. A
frame tells what that code may be: which fields the buffers have, which names are buffers, and which
imports there are. Code fits a frame when all of its names are known and every part that is not the
expression's own reads and writes fields that exist, by methods for the types they have, and names
classes that are imported (`Fits`, with one rule per form of code). Fitting templates are rendered
to fitting routines (`render_fits`), and the templates of all built-in kinds fit
(`builtin_fitting`).
-/

namespace FactFold

open Lowering Machine Fold

/-! ## Fields and imports -/

/-- The methods of a buffer on a field of a type. Reading and adding are named for the type; vectors
are read as they are, or to be changed in place. -/
def fieldMethods (t : DataType) : List String :=
  "isNull" :: "write" ::
    if t.isArray then ["readVector", "readWritableVector"]
    else ["read" ++ t.suffix, "add" ++ t.suffix]

/-- The method and its arguments are for a field of the layout. -/
def AccessesField (layout : Layout) (m : String) (args : List Term) : Prop :=
  ∃ (f : Nat) (t : DataType) (rest : List Term),
    layout[f]? = some t ∧ m ∈ fieldMethods t ∧ args = .int f :: rest

/-- The import of dates. -/
def dateImport : String := "java.time.LocalDate"

/-- The import of the class that a call or a constructor names. -/
def Term.import? : Term → Option String
  | .call f _ =>
    if (Operators.vectorClass ++ ".").toList.isPrefixOf f.toList then some Operators.vectorImport
    else if f = "LocalDate.of" then some dateImport
    else none
  | .new type _ =>
    if type = "NegativeVector" then some Kind.negativeVectorImport
    else if [Numeric.int, .long, .float, .double].any fun n => type = vectorClass n then
      some (vectorPackage ++ type)
    else none
  | _ => none

/-- What the code around an expression may use. -/
structure Frame where
  layout : Layout
  /-- The names of buffers. -/
  buffers : List String
  /-- Local variables with methods of their own. -/
  locals : List String := []
  imports : List String := []

namespace Frame

/-- A call on a bare name is one on a field of a buffer, or one on a local variable. -/
def Addresses (k : Frame) : Term → Prop
  | .invoke (.ident name) m args =>
    (name ∈ k.buffers ∧ AccessesField k.layout m args) ∨ name ∈ k.locals
  | _ => True

/-- A part that the frame allows. -/
structure Allows (k : Frame) (p : Term) : Prop where
  addresses : k.Addresses p
  imported : ∀ s, p.import? = some s → s ∈ k.imports

theorem Allows.plain {k : Frame} {p : Term} (ha : k.Addresses p) (hi : p.import? = none) :
    k.Allows p :=
  ⟨ha, fun s hs => by rw [hi] at hs; cases hs⟩

end Frame

/-! ## Code that fits -/

/-- Every name in `x` is known, and the frame allows what is not part of `code`. -/
structure Fits (k : Frame) (scope : List String) (code x : Term) : Prop where
  known : x.Scoped scope
  allowed : ∀ p ∈ x.parts, p ∈ code.parts ∨ k.Allows p

/-- The same of statements. -/
structure FitsAll (k : Frame) (scope : List String) (code : Term) (ss : List Stmt) : Prop where
  known : Stmt.ScopedAll scope ss
  allowed : ∀ p ∈ Stmt.partsAll ss, p ∈ code.parts ∨ k.Allows p

namespace Fits

variable {k : Frame} {scope : List String} {code x y : Term}

theorem self (h : code.Scoped scope) : Fits k scope code code := ⟨h, fun _ hp => .inl hp⟩

/-- An expression put together from others: its parts are itself and theirs. -/
theorem of_parts (xs : List Term) (hxs : ∀ x ∈ xs, Fits k scope code x)
    (hparts : ∀ p ∈ y.parts, p = y ∨ p ∈ Term.partsAll xs) (hname : ∀ name, y ≠ .ident name)
    (hy : k.Allows y) : Fits k scope code y := by
  constructor
  · -- a name in the whole is a name in one of the operands
    intro name hp
    rcases hparts _ hp with hp | hp
    · exact absurd hp.symm (hname name)
    · obtain ⟨x, hx, hp⟩ := Term.mem_partsAll.1 hp
      exact (hxs x hx).known name hp
  · intro p hp
    rcases hparts _ hp with rfl | hp
    · exact .inr hy
    · obtain ⟨x, hx, hp⟩ := Term.mem_partsAll.1 hp
      exact (hxs x hx).allowed p hp

theorem ident {name : String} (h : name ∈ scope) : Fits k scope code (.ident name) := by
  constructor
  · intro name' hp
    obtain rfl : name' = name := by simpa using hp
    exact h
  · intro p hp
    obtain rfl : p = .ident name := by simpa using hp
    exact .inr (.plain trivial rfl)

theorem lit (type : String) (value : Datum) : Fits k scope code (.lit type value) :=
  .of_parts [] (List.forall_mem_nil _) (by simp) (by simp) (.plain trivial rfl)

theorem null : Fits k scope code .null :=
  .of_parts [] (List.forall_mem_nil _) (by simp) (by simp) (.plain trivial rfl)

theorem binary (op : String) (hx : Fits k scope code x) (hy : Fits k scope code y) :
    Fits k scope code (.binary op x y) :=
  .of_parts [x, y] (by simp [hx, hy]) (by simp) nofun (.plain trivial rfl)

theorem unary (op : String) (hx : Fits k scope code x) : Fits k scope code (.unary op x) :=
  .of_parts [x] (by simp [hx]) (by simp) nofun (.plain trivial rfl)

theorem cast (type : String) (hx : Fits k scope code x) : Fits k scope code (.cast type x) :=
  .of_parts [x] (by simp [hx]) (by simp) nofun (.plain trivial rfl)

theorem call {f : String} {args : List Term} (hf : (Term.call f args).import? = none)
    (hargs : ∀ x ∈ args, Fits k scope code x) : Fits k scope code (.call f args) :=
  .of_parts _ hargs (by simp) nofun (.plain trivial hf)

theorem new {type : String} {args : List Term} (hargs : ∀ x ∈ args, Fits k scope code x)
    (htype : ∀ s, (Term.new type args).import? = some s → s ∈ k.imports) :
    Fits k scope code (.new type args) :=
  .of_parts _ hargs (by simp) nofun ⟨trivial, htype⟩

theorem invoke {m : String} {args : List Term} (hx : Fits k scope code x)
    (hname : ∀ name, x = .ident name → name ∈ k.locals) (hargs : ∀ y ∈ args, Fits k scope code y) :
    Fits k scope code (.invoke x m args) := by
  refine .of_parts (x :: args) (by simpa using ⟨hx, hargs⟩) (by simp) nofun (.plain ?_ rfl)
  cases x with
  | ident name => exact .inr (hname name rfl)
  | _ => exact trivial

/-! ### Accesses to buffers -/

variable {b : BufferRef} {f : Nat} {t : DataType}

/-- A method on a field of a buffer. -/
theorem method {m : String} {args : List Term} (hb : b.name ∈ k.buffers) (hs : b.name ∈ scope)
    (hf : k.layout[f]? = some t) (hm : m ∈ fieldMethods t)
    (hargs : ∀ x ∈ args, Fits k scope code x) : Fits k scope code (b.method m f args) := by
  -- the receiver and the place of the field count as arguments
  have hall : ∀ x ∈ .ident b.name :: .int f :: args, Fits k scope code x := by
    simp only [List.mem_cons, forall_eq_or_imp]
    exact ⟨.ident hs, .lit _ _, hargs⟩
  exact .of_parts _ hall (by simp [BufferRef.method]) (by simp [BufferRef.method])
    (.plain (.inl ⟨hb, f, t, args, hf, hm, rfl⟩) rfl)

theorem isNull (hb : b.name ∈ k.buffers) (hs : b.name ∈ scope) (hf : k.layout[f]? = some t) :
    Fits k scope code (b.isNull f) :=
  .method hb hs hf (by simp [fieldMethods]) (List.forall_mem_nil _)

theorem isSet (hb : b.name ∈ k.buffers) (hs : b.name ∈ scope) (hf : k.layout[f]? = some t) :
    Fits k scope code (b.isSet f) :=
  .unary _ (.isNull hb hs hf)

theorem readVector (hb : b.name ∈ k.buffers) (hs : b.name ∈ scope) (hf : k.layout[f]? = some t)
    (ht : t.isArray = true) : Fits k scope code (b.readVector f) :=
  .method hb hs hf (by simp [fieldMethods, ht]) (List.forall_mem_nil _)

/-- A field is read by the method for its type. -/
theorem read (hb : b.name ∈ k.buffers) (hs : b.name ∈ scope) (hf : k.layout[f]? = some t) :
    Fits k scope code (b.read f t) := by
  unfold BufferRef.read
  split
  · rename_i ht
    exact .readVector hb hs hf ht
  · rename_i ht
    exact .method hb hs hf (by simp [fieldMethods, ht]) (List.forall_mem_nil _)

theorem write (hb : b.name ∈ k.buffers) (hs : b.name ∈ scope) (hf : k.layout[f]? = some t)
    (hx : Fits k scope code x) : Fits k scope code (b.method "write" f [x]) :=
  .method hb hs hf (by simp [fieldMethods]) (by simp [hx])

theorem add (hb : b.name ∈ k.buffers) (hs : b.name ∈ scope) (hf : k.layout[f]? = some t)
    (ht : t.isArray = false) (hx : Fits k scope code x) :
    Fits k scope code (b.method ("add" ++ t.suffix) f [x]) :=
  .method hb hs hf (by simp [fieldMethods, ht]) (by simp [hx])

/-- A method of the vector in a field. -/
theorem vector {m : String} {args : List Term} (hb : b.name ∈ k.buffers) (hs : b.name ∈ scope)
    (hf : k.layout[f]? = some t) (ht : t.isArray = true) (hargs : ∀ x ∈ args, Fits k scope code x) :
    Fits k scope code (.invoke (b.readWritableVector f) m args) :=
  .invoke (.method hb hs hf (by simp [fieldMethods, ht]) (List.forall_mem_nil _))
    (by simp [BufferRef.readWritableVector, BufferRef.method]) hargs

end Fits

/-! ### Statements -/

namespace FitsAll

variable {k : Frame} {scope : List String} {code x : Term} {yes no rest : List Stmt}

theorem nil : FitsAll k scope code [] := ⟨trivial, nofun⟩

theorem decl (type name : String) (hx : Fits k scope code x)
    (hrest : FitsAll k (name :: scope) code rest) :
    FitsAll k scope code (.decl type name x :: rest) := by
  refine ⟨⟨hx.known, hrest.known⟩, fun p hp => ?_⟩
  exact (List.mem_append.1 hp).elim (hx.allowed p) (hrest.allowed p)

theorem run (hx : Fits k scope code x) (hrest : FitsAll k scope code rest) :
    FitsAll k scope code (.run x :: rest) := by
  refine ⟨⟨hx.known, hrest.known⟩, fun p hp => ?_⟩
  exact (List.mem_append.1 hp).elim (hx.allowed p) (hrest.allowed p)

theorem ret (hx : Fits k scope code x) : FitsAll k scope code [.ret x] := by
  refine ⟨⟨hx.known, trivial⟩, fun p hp => ?_⟩
  rw [Stmt.partsAll, Stmt.partsAll, List.append_nil] at hp
  exact hx.allowed p hp

theorem cond (hx : Fits k scope code x) (hyes : FitsAll k scope code yes)
    (hno : FitsAll k scope code no) (hrest : FitsAll k scope code rest) :
    FitsAll k scope code (.cond x yes no :: rest) := by
  refine ⟨⟨⟨hx.known, hyes.known, hno.known⟩, hrest.known⟩, fun p hp => ?_⟩
  -- the condition, either block, or what comes after
  simp only [Stmt.partsAll, Stmt.parts, List.mem_append] at hp
  rcases hp with (hp | hp | hp) | hp
  · exact hx.allowed p hp
  · exact hyes.allowed p hp
  · exact hno.allowed p hp
  · exact hrest.allowed p hp

end FitsAll

/-! ## Rendering -/

/-- Around whatever code, the template uses the code and fits the frame. -/
structure Template.Fits (k : Frame) (template : Template) : Prop where
  fits : ∀ {scope : List String} {code : Term}, Kind.agg.name ∈ scope → code.Scoped scope →
    FitsAll k scope code (template code)
  uses : ∀ (code : Term), ∀ p ∈ code.parts, p ∈ Stmt.partsAll (template code)

/-- Branches are vectors where the whole is one. -/
def Element.Uniform : Element → Prop
  | .basic .. => True
  | .guarded _ body => body.Uniform
  | .choice _ yes no t =>
    yes.Uniform ∧ no.Uniform ∧ yes.type.isArray = t.isArray ∧ no.type.isArray = t.isArray

theorem Lowering.Lowers.uniform {s : Site} {n : Node} {e : Element} (h : Lowers s n e) :
    e.Uniform := by
  induction h using Lowers.conditions with
  | guarded _ _ ih => exact ih
  | choice _ _ _ he ihy ihn =>
    obtain ⟨heq, -, ht⟩ := ternary_some_ok he
    rw [heq]
    exact ⟨ihy, ihn, branches_isArray ht⟩
  | single h hguard hchoice =>
    obtain ⟨code, t, rfl⟩ := h.single hguard hchoice
    trivial

/-- What a rendered routine is made of: the parts of the expression, choices between them, and what
the frame allows. -/
structure Rendered (k : Frame) (scope : List String) (e : Element) (ss : List Stmt) : Prop where
  known : Stmt.ScopedAll scope ss
  uses : ∀ p ∈ e.parts, p ∈ Stmt.partsAll ss
  origin : ∀ p ∈ Stmt.partsAll ss, p ∈ e.parts ∨ (∃ c y n, p = .cond c y n) ∨ k.Allows p

/-- The template that a type asks for. -/
def templateOf (numeric array : Option Template) (t : DataType) : Option Template :=
  if t.isArray then array else numeric

theorem templateOf_of_templateFor {numeric array : Option Template} {t : DataType} {T : Template}
    (h : Element.templateFor numeric array t = some T) : templateOf numeric array t = some T := by
  cases t <;> first | exact h | cases h

/-- A condition mentions no more names than its element. -/
theorem Element.scoped_value {scope : List String} {c : Element} {code : Term}
    (hv : c.value = .ok code) (hscope : ∀ name, .ident name ∈ c.parts → name ∈ scope) :
    code.Scoped scope := by
  intro name hp
  rcases (Element.parts_value hv).2 _ hp with hp | ⟨_, _, _, hp⟩
  · exact hscope name hp
  · cases hp

/-- **Fitting templates are rendered to routines that fit.** -/
theorem render_fits {k : Frame} {scope : List String} {numeric array : Option Template}
    (hagg : Kind.agg.name ∈ scope) : ∀ {e : Element} {ss : List Stmt}, e.Uniform →
      (∀ T, templateOf numeric array e.type = some T → T.Fits k) →
      (∀ name, .ident name ∈ e.parts → name ∈ scope) →
      e.render numeric array = .ok ss → Rendered k scope e ss
  | .basic code t, ss, _, hT, hscope, h => by
    rw [Element.render] at h
    split at h
    · rename_i T htemplate
      obtain rfl := Except.ok.inj h
      have hfits := hT T (templateOf_of_templateFor htemplate)
      -- a single term: the template around it is the whole routine
      have hcode := hfits.fits hagg hscope
      exact ⟨hcode.known, hfits.uses code, fun p hp => (hcode.allowed p hp).imp_right .inr⟩
    · cases h
  | .guarded c body, ss, hu, hT, hscope, h => by
    obtain ⟨code, yes, hcode, hyes, rfl⟩ := render_guarded_ok h
    have hscope : ∀ name, .ident name ∈ c.parts ∨ .ident name ∈ body.parts → name ∈ scope :=
      fun name hp => hscope name (List.mem_append.2 hp)
    -- the block is rendered from the body, the condition is the element's own code
    have hbody : Rendered k scope body yes :=
      render_fits hagg hu hT (fun name hp => hscope name (.inr hp)) hyes
    have hcond := Element.scoped_value hcode fun name hp => hscope name (.inl hp)
    obtain ⟨hin, hout⟩ := Element.parts_value hcode
    refine ⟨⟨⟨hcond, hbody.known, trivial⟩, trivial⟩, fun p hp => ?_, fun p hp => ?_⟩
    · simp only [Stmt.partsAll, Stmt.parts, List.append_nil, List.mem_append]
      rcases List.mem_append.1 hp with hp | hp
      · exact .inl (hin p hp)
      · exact .inr (hbody.uses p hp)
    · simp only [Stmt.partsAll, Stmt.parts, List.append_nil, List.mem_append] at hp
      rw [Element.parts, List.mem_append]
      rcases hp with hp | hp
      · exact (hout p hp).imp .inl .inl
      · exact (hbody.origin p hp).imp_left .inr
  | .choice c y n t, ss, ⟨huy, hun, hyt, hnt⟩, hT, hscope, h => by
    obtain ⟨code, yes, no, hcode, hyes, hno, rfl⟩ := render_choice_ok h
    have hscope : ∀ name, .ident name ∈ c.parts ∨ .ident name ∈ y.parts ∨ .ident name ∈ n.parts →
        name ∈ scope := fun name hp => hscope name (by simpa [Element.parts] using hp)
    -- both branches take the template that the whole takes
    have hTy : ∀ T, templateOf numeric array y.type = some T → T.Fits k := by
      intro T h
      exact hT T (by rwa [templateOf, hyt] at h)
    have hTn : ∀ T, templateOf numeric array n.type = some T → T.Fits k := by
      intro T h
      exact hT T (by rwa [templateOf, hnt] at h)
    have hy : Rendered k scope y yes :=
      render_fits hagg huy hTy (fun name hp => hscope name (.inr (.inl hp))) hyes
    have hn : Rendered k scope n no :=
      render_fits hagg hun hTn (fun name hp => hscope name (.inr (.inr hp))) hno
    have hcond := Element.scoped_value hcode fun name hp => hscope name (.inl hp)
    obtain ⟨hin, hout⟩ := Element.parts_value hcode
    refine ⟨⟨⟨hcond, hy.known, hn.known⟩, trivial⟩, fun p hp => ?_, fun p hp => ?_⟩
    · simp only [Element.parts, List.mem_append] at hp
      simp only [Stmt.partsAll, Stmt.parts, List.append_nil, List.mem_append]
      exact hp.imp (hin p) (Or.imp (hy.uses p) (hn.uses p))
    · simp only [Stmt.partsAll, Stmt.parts, List.append_nil, List.mem_append] at hp
      simp only [Element.parts, List.mem_append]
      rcases hp with hp | hp | hp
      · exact (hout p hp).imp .inl .inl
      · exact (hy.origin p hp).imp_left fun h => .inr (.inl h)
      · exact (hn.origin p hp).imp_left fun h => .inr (.inr h)

/-! ## Templates -/

namespace Kind

/-- The frame of the routines for a row. -/
def rowFrame (layout : Layout) (imports : List String) : Frame :=
  { layout := layout, buffers := [agg.name], imports := imports }

/-- The frame of a merge. -/
def mergeFrame (layout : Layout) (imports : List String) : Frame :=
  { layout := layout, buffers := [source.name, target.name], imports := imports }

/-- The frame of the routine for the result, which may keep the result in a variable. -/
def resultFrame (layout : Layout) (imports : List String) : Frame :=
  { layout := layout, buffers := [agg.name], locals := ["result"], imports := imports }

variable {k : Frame} {t : DataType}

/-- A template that binds the row's value to its variable first. -/
theorem declared_fits {ss : List Stmt} (hss : ∀ {scope : List String} {code : Term},
      agg.name ∈ scope → valueName ∈ scope → FitsAll k scope code ss) :
    Template.Fits k fun value => declareValue t value :: ss where
  fits hagg hcode :=
    .decl _ _ (.self hcode) (hss (List.mem_cons_of_mem _ hagg) List.mem_cons_self)
  uses code p hp := by simp [declareValue, hp]

/-- A template that adds a term of the value to the first field. -/
theorem adding_fits {g : Term → Term} {rest : List Stmt} (hb : agg.name ∈ k.buffers)
    (hf : k.layout[0]? = some t) (ht : t.isArray = false)
    (hg : ∀ {scope : List String} {code : Term}, code.Scoped scope → Fits k scope code (g code))
    (huses : ∀ (code : Term), ∀ p ∈ code.parts, p ∈ (g code).parts)
    (hrest : ∀ {scope : List String} {code : Term}, agg.name ∈ scope → FitsAll k scope code rest) :
    Template.Fits k fun value => agg.add 0 (g value) t :: rest where
  fits hagg hcode := .run (.add hb hagg hf ht (hg hcode)) (hrest hagg)
  uses code p hp := by simp [BufferRef.add, BufferRef.method, huses code p hp]

/-- A template that takes a vector in. -/
theorem accumulating_fits {first : Term} {m : String} {rest : List Stmt} (hb : agg.name ∈ k.buffers)
    (hf : k.layout[0]? = some t) (ht : t.isArray = true)
    (hfirst : ∀ {scope : List String} {code : Term}, valueName ∈ scope → Fits k scope code first)
    (hrest : ∀ {scope : List String} {code : Term}, agg.name ∈ scope → FitsAll k scope code rest) :
    Template.Fits k fun value => [declareValue t value,
      .cond (notNull valueVar) (accumulateVector 0 valueVar first m :: rest) []] := by
  refine declared_fits fun hagg hvalue => .cond ?_ (.cond ?_ ?_ ?_ (hrest hagg)) .nil .nil
  · exact .binary _ (.ident hvalue) .null
  · exact .isNull hb hagg hf
  · exact .run (.write hb hagg hf (hfirst hvalue)) .nil
  · exact .run (.vector hb hagg hf ht (by simpa using .ident hvalue)) .nil

/-- A template that takes a vector out. -/
theorem returning_fits {m : String} {rest : List Stmt} (hb : agg.name ∈ k.buffers)
    (hf : k.layout[0]? = some t) (ht : t.isArray = true)
    (hrest : ∀ {scope : List String} {code : Term}, agg.name ∈ scope → FitsAll k scope code rest) :
    Template.Fits k fun value => [declareValue t value,
      .cond (both (notNull valueVar) (agg.isSet 0)) (agg.vector 0 m [valueVar] :: rest) []] := by
  refine declared_fits fun hagg hvalue => .cond ?_ (.run ?_ (hrest hagg)) .nil .nil
  · exact .binary _ (.binary _ (.ident hvalue) .null) (.isSet hb hagg hf)
  · exact .vector hb hagg hf ht (by simpa using .ident hvalue)

/-- A row is counted in the second field. -/
theorem count_fits {scope : List String} {code : Term} {n : Int} {imports : List String}
    (hagg : agg.name ∈ scope) {layout : Layout} (hf : layout[1]? = some .int) :
    FitsAll (rowFrame layout imports) scope code [count n] :=
  .run (.add (t := .int) (by simp [rowFrame]) hagg hf rfl (.lit _ _)) .nil

/-- The sum of two fields, one of each buffer. -/
theorem mergeScalar_fits {scope : List String} {code : Term} {rest : List Stmt} {f : Nat}
    (hin : source.name ∈ k.buffers ∧ source.name ∈ scope)
    (hout : target.name ∈ k.buffers ∧ target.name ∈ scope) (hf : k.layout[f]? = some t)
    (ht : t.isArray = false) (hrest : FitsAll k scope code rest) :
    FitsAll k scope code (target.add f (source.read f t) t :: rest) :=
  .run (.add hout.1 hout.2 hf ht (.read hin.1 hin.2 hf)) hrest

theorem mergeVector_fits {scope : List String} {code : Term} {m : String} {extra : List Stmt}
    (hin : source.name ∈ k.buffers ∧ source.name ∈ scope)
    (hout : target.name ∈ k.buffers ∧ target.name ∈ scope) (hf : k.layout[0]? = some t)
    (ht : t.isArray = true) (hextra : FitsAll k scope code extra) :
    FitsAll k scope code (mergeVector m extra) := by
  refine .cond (.isSet hin.1 hin.2 hf) (.cond ?_ (.run ?_ .nil) (.run ?_ .nil) hextra) .nil .nil
  · exact .isNull hout.1 hout.2 hf
  · exact .write hout.1 hout.2 hf (.readVector hin.1 hin.2 hf ht)
  · exact .vector hout.1 hout.2 hf ht (by simpa using .readVector hin.1 hin.2 hf ht)

end Kind

/-! ## Kinds -/

/-- The imports of a kind for a type. -/
def Visitor.importsFor (v : Visitor) (t : DataType) : List String := (v.imports.map (· t)).getD []

/-- The routine is rendered from templates that fit the frame. -/
def RenderedFrom (k : Frame) (e : Element) (ss : List Stmt) : Prop :=
  ∃ numeric array, e.render numeric array = .ok ss ∧
    ∀ T, templateOf numeric array e.type = some T → T.Fits k

/-- What such a routine is made of, when the element is that of an expression. -/
theorem RenderedFrom.rendered {k : Frame} {s : Site} {n : Node} {e : Element} {ss : List Stmt}
    {scope : List String} (hr : RenderedFrom k e ss) (h : Lowers s n e)
    (hagg : Kind.agg.name ∈ scope) (hfact : s.env.factName ∈ scope) : Rendered k scope e ss := by
  obtain ⟨numeric, array, hrender, htemplates⟩ := hr
  refine render_fits hagg h.uniform htemplates (fun name hp => ?_) hrender
  rw [h.names hp]
  exact hfact

/-- The routines of a kind fit its buffers and imports, whatever the expression. -/
structure Visitor.Fitting (v : Visitor) : Prop where
  contribute : ∀ {e : Element} {layout : Layout} {ss : List Stmt}, v.layout e.type = .ok layout →
    v.contribute e = .ok ss → RenderedFrom (Kind.rowFrame layout (v.importsFor e.type)) e ss
  decontribute : ∀ {e : Element} {layout : Layout} {ss : List Stmt}, v.layout e.type = .ok layout →
    v.decontribute e = .ok (some ss) →
      RenderedFrom (Kind.rowFrame layout (v.importsFor e.type)) e ss
  merge : ∀ {t : DataType} {layout : Layout} {ss : List Stmt}, v.layout t = .ok layout →
    v.merge t = .ok ss → FitsAll (Kind.mergeFrame layout (v.importsFor t))
      [Kind.source.name, Kind.target.name] .null ss
  terminate : ∀ {t : DataType} {layout : Layout} {ss : List Stmt}, v.layout t = .ok layout →
    v.terminate t = .ok ss →
      FitsAll (Kind.resultFrame layout (v.importsFor t)) [Kind.agg.name] .null ss

/-- A routine rendered from a template for numbers and, where there is one, a template for vectors. -/
theorem RenderedFrom.of_templates {k : Frame} {e : Element} {ss : List Stmt} {numeric : Template}
    {array : Option Template} (h : e.render (some numeric) array = .ok ss)
    (hn : e.type.isArray = false → numeric.Fits k)
    (ha : e.type.isArray = true → ∀ T ∈ array, T.Fits k) : RenderedFrom k e ss := by
  refine ⟨_, _, h, fun T hT => ?_⟩
  -- the type decides between the two templates
  unfold templateOf at hT
  split at hT
  · rename_i ht
    exact ha ht T hT
  · rename_i ht
    obtain rfl := Option.some.inj hT
    exact hn (by simpa using ht)

namespace Kind

theorem agg_mem_rowFrame (layout : Layout) (imports : List String) :
    agg.name ∈ (rowFrame layout imports).buffers := by simp [rowFrame]

/-- Both buffers of a merge are known there. -/
theorem source_known (layout : Layout) (imports : List String) :
    source.name ∈ (mergeFrame layout imports).buffers ∧ source.name ∈ [source.name, target.name] := by
  simp [mergeFrame]

theorem target_known (layout : Layout) (imports : List String) :
    target.name ∈ (mergeFrame layout imports).buffers ∧ target.name ∈ [source.name, target.name] := by
  simp [mergeFrame]

/-- The result is the first field. -/
theorem result_fits {t : DataType} (rest : Layout) (imports : List String) :
    FitsAll (resultFrame (t :: rest) imports) [agg.name] .null [.ret (agg.read 0 t)] :=
  .ret (.read (by simp [resultFrame]) (by simp) rfl)

/-- The merge of an additive kind fits, counts included. -/
theorem additiveMerge_fits (k : Additive) {t : DataType} {layout : Layout} {ss : List Stmt}
    {imports : List String} (hl : k.visitor.layout t = .ok layout)
    (h : k.visitor.merge t = .ok ss) :
    FitsAll (mergeFrame layout imports) [source.name, target.name] .null ss := by
  obtain rfl := Additive.layout_ok hl
  have hextra : FitsAll (mergeFrame (t :: if k.counts then [.int] else []) imports)
      [source.name, target.name] .null k.merging := by
    unfold Additive.merging
    split
    · exact mergeScalar_fits (f := 1) (source_known ..) (target_known ..) rfl rfl .nil
    · exact .nil
  obtain ⟨n, rfl, rfl⟩ | ⟨n, method, rfl, -, rfl⟩ := Additive.merge_cases h
  · exact mergeScalar_fits (source_known ..) (target_known ..) rfl rfl hextra
  · exact mergeVector_fits (source_known ..) (target_known ..) rfl rfl hextra

theorem sum_fitting : sum.Fitting where
  contribute hl h := by
    obtain rfl := Except.ok.inj (onNumeric_ok hl).1
    refine .of_templates (onNumeric_ok h).1 (fun ht => ?_) fun ht T hT => ?_
    · exact adding_fits (agg_mem_rowFrame ..) rfl ht (fun hc => .self hc) (fun _ _ hp => hp)
        fun _ => .nil
    · obtain rfl := Option.some.inj hT
      exact accumulating_fits (agg_mem_rowFrame ..) rfl ht (fun hv => .ident hv) fun _ => .nil
  decontribute hl h := by
    obtain rfl := Except.ok.inj (onNumeric_ok hl).1
    refine .of_templates (some_ok (onNumeric_ok h).1) (fun ht => ?_) fun ht T hT => ?_
    · exact adding_fits (agg_mem_rowFrame ..) rfl ht (fun hc => .binary _ (.lit _ _) (.self hc))
        (fun _ _ hp => by simp [negate, hp]) fun _ => .nil
    · obtain rfl := Option.some.inj hT
      exact returning_fits (agg_mem_rowFrame ..) rfl ht fun _ => .nil
  merge := additiveMerge_fits .sum
  terminate hl h := by
    obtain rfl := Except.ok.inj (onNumeric_ok hl).1
    obtain rfl := Except.ok.inj (onNumeric_ok h).1
    exact result_fits ..

theorem mean_fitting : mean.Fitting where
  contribute hl h := by
    obtain rfl := Except.ok.inj (onNumeric_ok hl).1
    refine .of_templates (onNumeric_ok h).1 (fun ht => ?_) fun ht T hT => ?_
    · exact adding_fits (agg_mem_rowFrame ..) rfl ht (fun hc => .self hc) (fun _ _ hp => hp)
        fun hagg => count_fits hagg rfl
    · obtain rfl := Option.some.inj hT
      exact accumulating_fits (agg_mem_rowFrame ..) rfl ht (fun hv => .ident hv)
        fun hagg => count_fits hagg rfl
  decontribute hl h := by
    obtain rfl := Except.ok.inj (onNumeric_ok hl).1
    refine .of_templates (some_ok (onNumeric_ok h).1) (fun ht => ?_) fun ht T hT => ?_
    · exact adding_fits (agg_mem_rowFrame ..) rfl ht (fun hc => .binary _ (.lit _ _) (.self hc))
        (fun _ _ hp => by simp [negate, hp]) fun hagg => count_fits hagg rfl
    · obtain rfl := Option.some.inj hT
      exact returning_fits (agg_mem_rowFrame ..) rfl ht fun hagg => count_fits hagg rfl
  merge := additiveMerge_fits .mean
  terminate {t} _ _ hl h := by
    obtain rfl := Except.ok.inj (onNumeric_ok hl).1
    have hagg : ∀ t imports, agg.name ∈ (resultFrame [t, .int] imports).buffers := by
      simp [resultFrame]
    cases t with
    | scalar n =>
      obtain rfl := Except.ok.inj h
      exact .ret (.binary _ (.cast _ (.read (hagg ..) (by simp) rfl))
        (.read (hagg ..) (by simp) rfl))
    | array n =>
      obtain rfl := Except.ok.inj h
      -- the vector is cloned, scaled by a quotient that reads the count, and returned
      refine .decl _ _ ?_ (.run ?_ (.ret (.ident (by simp))))
      · exact .invoke (.readVector (hagg ..) (by simp) rfl rfl)
          (by simp [BufferRef.readVector, BufferRef.method]) (List.forall_mem_nil _)
      · have hscale : Fits (resultFrame [.array n, .int] (mean.importsFor (.array n)))
            ["result", agg.name] .null (.binary "/" (.double 1) (agg.read 1 .int)) :=
          .binary _ (.lit _ _) (.read (hagg ..) (by simp) rfl)
        exact .invoke (.ident (by simp)) (by simp [resultFrame]) (by simpa using hscale)
    | _ => cases h

theorem squareSum_fitting : squareSum.Fitting where
  contribute hl h := by
    obtain rfl := Except.ok.inj (onScalar_ok hl).1
    refine .of_templates (onScalar_ok h).1 (fun ht => ?_) (by simp)
    refine declared_fits fun hagg hvalue => .run (.add (agg_mem_rowFrame ..) hagg rfl ht ?_) .nil
    exact .binary _ (.ident hvalue) (.ident hvalue)
  decontribute hl h := by
    obtain rfl := Except.ok.inj (onScalar_ok hl).1
    refine .of_templates (some_ok (onScalar_ok h).1) (fun ht => ?_) (by simp)
    refine declared_fits fun hagg hvalue => .run (.add (agg_mem_rowFrame ..) hagg rfl ht ?_) .nil
    exact .binary _ (.lit _ _) (.binary _ (.ident hvalue) (.ident hvalue))
  merge := additiveMerge_fits .squareSum
  terminate hl h := by
    obtain rfl := Except.ok.inj (onScalar_ok hl).1
    obtain rfl := Except.ok.inj (onScalar_ok h).1
    exact result_fits ..

theorem extremum_fitting (kind op : String) : (extremum kind op).Fitting where
  contribute hl h := by
    obtain rfl := Except.ok.inj (onScalar_ok hl).1
    refine .of_templates (onScalar_ok h).1 (fun ht => ?_) (by simp)
    refine declared_fits fun hagg hvalue => .cond (.binary _ ?_ ?_) (.run ?_ .nil) .nil .nil
    · exact .isNull (agg_mem_rowFrame ..) hagg rfl
    · exact .binary _ (.ident hvalue) (.read (agg_mem_rowFrame ..) hagg rfl)
    · exact .write (agg_mem_rowFrame ..) hagg rfl (.ident hvalue)
  decontribute _ h := by cases h
  merge hl h := by
    obtain rfl := Except.ok.inj (onScalar_ok hl).1
    obtain rfl := Except.ok.inj (onScalar_ok h).1
    -- both tests, both reads and the write address the first field
    refine .cond ?_ (.decl _ _ ?_ (.cond (.binary _ ?_ ?_) (.run ?_ .nil) .nil .nil)) .nil .nil
    · exact .isSet (source_known ..).1 (by simp) rfl
    · exact .read (source_known ..).1 (by simp) rfl
    · exact .isNull (target_known ..).1 (by simp) rfl
    · exact .binary _ (.ident (by simp)) (.read (target_known ..).1 (by simp) rfl)
    · exact .write (target_known ..).1 (by simp) rfl (.ident (by simp))
  terminate hl h := by
    obtain rfl := Except.ok.inj (onScalar_ok hl).1
    obtain rfl := Except.ok.inj (onScalar_ok h).1
    exact result_fits ..

theorem multiply_fitting : multiply.Fitting where
  contribute hl h := by
    obtain rfl := Except.ok.inj (onScalar_ok hl).1
    refine .of_templates (onScalar_ok h).1 (fun ht => ?_) (by simp)
    refine declared_fits fun hagg hvalue => .cond ?_ (.run ?_ .nil) (.run ?_ .nil) .nil
    · exact .isNull (agg_mem_rowFrame ..) hagg rfl
    · exact .write (agg_mem_rowFrame ..) hagg rfl (.ident hvalue)
    · exact .write (agg_mem_rowFrame ..) hagg rfl
        (.binary _ (.read (agg_mem_rowFrame ..) hagg rfl) (.ident hvalue))
  decontribute hl h := by
    obtain rfl := Except.ok.inj (onScalar_ok hl).1
    refine .of_templates (some_ok (onScalar_ok h).1) (fun ht => ?_) (by simp)
    refine ⟨fun hagg hcode => .run (.write (agg_mem_rowFrame ..) hagg rfl ?_) .nil,
      fun code p hp => ?_⟩
    · exact .binary _ (.read (agg_mem_rowFrame ..) hagg rfl) (.self hcode)
    · simp [BufferRef.write, BufferRef.method, hp]
  merge hl h := by
    obtain rfl := Except.ok.inj (onScalar_ok hl).1
    obtain rfl := Except.ok.inj (onScalar_ok h).1
    refine .cond ?_ (.cond ?_ (.run ?_ .nil) (.run ?_ .nil) .nil) .nil .nil
    · exact .isSet (source_known ..).1 (by simp) rfl
    · exact .isNull (target_known ..).1 (by simp) rfl
    · exact .write (target_known ..).1 (by simp) rfl (.read (source_known ..).1 (by simp) rfl)
    · exact .write (target_known ..).1 (by simp) rfl (.binary _
        (.read (target_known ..).1 (by simp) rfl) (.read (source_known ..).1 (by simp) rfl))
  terminate hl h := by
    obtain rfl := Except.ok.inj (onScalar_ok hl).1
    obtain rfl := Except.ok.inj (onScalar_ok h).1
    exact result_fits ..

theorem short_fitting : short.Fitting where
  contribute hl h := by
    obtain rfl := Except.ok.inj (onNumeric_ok hl).1
    refine .of_templates (onNumeric_ok h).1 (fun ht => ?_) fun ht T hT => ?_
    · exact adding_fits (agg_mem_rowFrame ..) rfl ht
        (fun hc => .call rfl (by simpa using ⟨.lit _ _, .self hc⟩))
        (fun _ _ hp => by simp [negativePart, hp]) fun _ => .nil
    · obtain rfl := Option.some.inj hT
      -- the view is the only class that a kind constructs, and it is imported for vectors
      refine accumulating_fits (agg_mem_rowFrame ..) rfl ht (fun hv => .new ?_ ?_) fun _ => .nil
      · simpa using .ident hv
      · simp [Term.import?, rowFrame, Visitor.importsFor, short, ht]
  decontribute hl h := by
    obtain rfl := Except.ok.inj (onNumeric_ok hl).1
    refine .of_templates (some_ok (onNumeric_ok h).1) (fun ht => ?_) fun ht T hT => ?_
    · exact adding_fits (agg_mem_rowFrame ..) rfl ht
        (fun hc => .binary _ (.lit _ _) (.call rfl (by simpa using ⟨.lit _ _, .self hc⟩)))
        (fun _ _ hp => by simp [negate, negativePart, hp]) fun _ => .nil
    · obtain rfl := Option.some.inj hT
      exact returning_fits (agg_mem_rowFrame ..) rfl ht fun _ => .nil
  merge := additiveMerge_fits .short
  terminate hl h := by
    obtain rfl := Except.ok.inj (onNumeric_ok hl).1
    obtain rfl := Except.ok.inj (onNumeric_ok h).1
    exact result_fits ..

end Kind

/-- **The routines of every built-in kind fit.** -/
theorem builtin_fitting {v : Visitor} (h : v ∈ builtinKinds) : v.Fitting := by
  simp only [builtinKinds, List.mem_cons, List.not_mem_nil, or_false] at h
  rcases h with rfl | rfl | rfl | rfl | rfl | rfl | rfl
  · exact Kind.extremum_fitting ..
  · exact Kind.mean_fitting
  · exact Kind.extremum_fitting ..
  · exact Kind.multiply_fitting
  · exact Kind.short_fitting
  · exact Kind.squareSum_fitting
  · exact Kind.sum_fitting

end FactFold
