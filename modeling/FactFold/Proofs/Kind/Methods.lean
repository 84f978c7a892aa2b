import FactFold.Proofs.Function.Caching
import FactFold.Proofs.Function.Naming
import FactFold.Proofs.Kind.Imports
import FactFold.Proofs.Lowering.Steps

/-!
# Methods of an artifact

An artifact declares a method for every signature in use of a function with a body. The declarations
are collected while the expression is lowered, and what is collected has no text twice
(`distill_declares`).

A method is told from another by its name and by the types of its parameters, in which all arrays
are the same. Functions of one registry have different method names, so two declarations can be
confused only when they are of one function, for signatures that differ in nothing but sorts of
arrays and the names of parameters; if they agree on the names, the two declarations are one text
(`methods_clash_free`).
-/

namespace FactFold

/-- What tells a method from another one: its name and the types of its parameters. -/
def Routine.key (r : Routine) : String × List String := (r.name, r.params.map Param.type)

/-! ## Steps that keep a property of what is collected -/

namespace Compile

/-- A step keeps a property of what is collected, whether it succeeds or not. -/
def Keeps {α : Type} (I : Accumulator → Prop) (x : Compile α) : Prop :=
  ∀ ws : Workspace, I ws.accumulator → I (x.runIn ws).2.accumulator

variable {α β : Type} {I : Accumulator → Prop}

theorem Keeps.pure (a : α) : Keeps I (pure a : Compile α) := fun _ h => h

theorem Keeps.throw (e : Failure) : Keeps I (throw e : Compile α) := fun _ h => h

theorem Keeps.note {level : Log.Level} {template : String} {args : List Log.Arg} :
    Keeps I (note level template args) := fun _ h => h

theorem Keeps.ask (question : MetadataCache → Except String α × MetadataCache) :
    Keeps I (ask question) := fun _ h => h

theorem Keeps.accumulate {f : Accumulator → Accumulator} (hf : ∀ a, I a → I (f a)) :
    Keeps I (accumulate f) := fun _ h => hf _ h

theorem Keeps.bind {x : Compile α} {k : α → Compile β} (hx : Keeps I x) (hk : ∀ a, Keeps I (k a)) :
    Keeps I (x >>= k) := by
  intro ws h
  have hfirst := hx ws h
  rw [runIn_bind]
  -- a step that fails leaves what it has collected
  rcases hrun : x.runIn ws with ⟨_ | a, v⟩
  · rwa [hrun] at hfirst
  · rw [hrun] at hfirst
    exact hk a v hfirst

end Compile

open Compile Machine Fold

/-- A property of what is collected that neither an import nor a declaration of one of the functions
makes false. -/
structure Accumulator.Stable (functions : List Function) (I : Accumulator → Prop) : Prop where
  addImport : ∀ {a : Accumulator} (name : String), I a → I (a.addImport name)
  addMethod : ∀ {a : Accumulator} {f : CustomFunction} {s : Signature},
    .custom f ∈ functions → s ∈ f.signatures → I a → I (a.addMethod (f.declaration s).text)

namespace Accumulator.Stable

variable {functions : List Function} {I : Accumulator → Prop}

theorem addImports (hI : Stable functions I) : ∀ (names : List String) {a : Accumulator}, I a →
    I (a.addImports names)
  | [], _, h => h
  | name :: names, _, h => hI.addImports names (hI.addImport name h)

theorem resolve (hI : Stable functions I) {f : Function} (hf : f ∈ functions)
    (service : Option MetadataService) (args : List TypedTerm) :
    Keeps I (f.resolve service args) := by
  cases f with
  | custom f =>
    unfold Function.resolve Resolution.custom
    simp only
    cases hs : f.select? (args.map TypedTerm.type) with
    | none => exact .throw _
    | some s =>
      -- the signature chosen is one of the function's own
      have hmem : s ∈ f.signatures := by
        obtain ⟨i, -, hi⟩ := Option.bind_eq_some_iff.1 hs
        exact List.mem_of_getElem? hi
      exact .bind (.accumulate fun a ha => hI.addMethod hf hmem (hI.addImports _ ha)) fun _ =>
        .bind .note fun _ => .pure _
  | existing f =>
    -- a failure to fetch is noted and nothing else
    have hfailed : ∀ what cause, Keeps I (Resolution.failedToFetch what f cause) :=
      fun _ _ => .bind .note fun _ => .throw _
    unfold Function.resolve Resolution.existing
    cases service with
    | none => exact .throw _
    | some service =>
      refine .bind (.ask _) fun signatures => ?_
      cases signatures with
      | error cause => exact hfailed _ cause
      | ok signatures =>
        simp only
        split
        · exact .throw _
        refine .bind (.ask _) fun output => ?_
        cases output with
        | error cause => exact hfailed _ cause
        | ok output =>
          simp only
          split
          · exact .throw _
          split
          · exact .bind (.accumulate fun a ha => hI.addImport _ ha) fun _ =>
              .bind .note fun _ => .pure _
          · exact .bind .note fun _ => .pure _
  | foreign f => exact .throw _

/-- Lowering adds nothing but imports and declarations of the functions that are called. -/
theorem node (hI : Stable functions I) (env : LoweringEnv) (columns : List Column) {n : Node}
    (hn : n.callees ⊆ functions) : Keeps I (Lowering.node env columns n) := by
  have hsteps : Lowering.Stepwise env functions fun {α} x => @Keeps α I x :=
    { pure := fun a => .pure a
      throw := fun e => .throw e
      bind := fun hx hk => hx.bind hk
      addImport := fun name => .accumulate fun _ ha => hI.addImport name ha
      resolve := fun hf _ args => hI.resolve hf _ args }
  exact hsteps.node columns hn

end Accumulator.Stable

/-! ## Texts of declarations -/

theorem pairwise_insertText {s : String} {l : List String} (h : l.Pairwise (· < ·)) :
    (insertText s l).Pairwise (· < ·) := by
  induction l with
  | nil => exact List.pairwise_singleton ..
  | cons t l ih =>
    obtain ⟨ht, hl⟩ := List.pairwise_cons.1 h
    rw [insertText]
    split_ifs with hlt heq
    · refine List.pairwise_cons.2 ⟨fun u hu => ?_, h⟩
      rcases List.mem_cons.1 hu with rfl | hu
      · exact hlt
      · exact String.lt_trans hlt (ht u hu)
    · exact h
    · -- the text goes further back, behind a smaller one
      refine List.pairwise_cons.2 ⟨fun u hu => ?_, ih hl⟩
      rcases mem_insertText.1 hu with rfl | hu
      · exact Std.lt_of_le_of_ne (String.not_lt.1 hlt) (Ne.symm heq)
      · exact ht u hu

/-- Texts in increasing order, each of which declares a function for one of its signatures. -/
structure Declared (functions : List Function) (texts : List String) : Prop where
  increasing : texts.Pairwise (· < ·)
  declares : ∀ text ∈ texts, ∃ (f : CustomFunction) (s : Signature),
    .custom f ∈ functions ∧ s ∈ f.signatures ∧ (f.declaration s).text = text

theorem stable_declared (functions : List Function) :
    Accumulator.Stable functions fun a => Declared functions a.methods where
  addImport {a} name h := by
    unfold Accumulator.addImport
    split_ifs
    · exact h
    · exact h
  addMethod hf hs h := by
    refine ⟨pairwise_insertText h.increasing, fun text htext => ?_⟩
    rcases mem_insertText.1 htext with rfl | htext
    · exact ⟨_, _, hf, hs, rfl⟩
    · exact h.declares text htext

variable {env : DistillEnv} {n : Node} {kind : String} {a : Artifact} {ws ws' : Workspace}

/-- The methods of an artifact are declarations of the functions that its expression calls. -/
theorem distill_declares (h : (n.distill env kind).runIn ws = (.ok a, ws')) :
    Declared n.callees a.methods := by
  obtain ⟨v, e, -, hrun, hart, -⟩ := distill_collects h
  rw [(artifact_ok hart).methods]
  have hkeeps := (stable_declared n.callees).node (distillSite env n ws'.cache).env n.columns
    (List.Subset.refl _) { ws with accumulator := {} } ⟨List.Pairwise.nil, by simp⟩
  unfold Node.lower at hrun
  rwa [hrun] at hkeeps

/-! ## Methods that could be confused -/

/-- A declaration of a function for each text, by functions that an expression calls. -/
structure DeclaredAs (n : Node) (ds : List (CustomFunction × Signature)) (texts : List String) :
    Prop where
  texts_eq : ds.map (fun d => (d.1.declaration d.2).text) = texts
  called : ∀ d ∈ ds, .custom d.1 ∈ n.callees ∧ d.2 ∈ d.1.signatures

theorem Declared.exists_declaredAs {texts : List String} (h : Declared n.callees texts) :
    ∃ ds, DeclaredAs n ds texts := by
  obtain ⟨-, h⟩ := h
  induction texts with
  | nil => exact ⟨[], rfl, by simp⟩
  | cons text texts ih =>
    -- a declaration is chosen for each text
    obtain ⟨f, s, hf, hs, rfl⟩ := h text List.mem_cons_self
    obtain ⟨ds, rfl, hds⟩ := ih fun t ht => h t (List.mem_cons_of_mem _ ht)
    exact ⟨(f, s) :: ds, rfl, List.forall_mem_cons.2 ⟨⟨hf, hs⟩, hds⟩⟩

namespace Signature

/-- The types of the parameters as code names them. -/
def sourceTypes (s : Signature) : List String := s.map fun p => p.type.sourceName

/-- The names of the parameters. -/
def names (s : Signature) : List String := s.map Parameter.name

end Signature

@[simp] theorem key_declaration (f : CustomFunction) (s : Signature) :
    (f.declaration s).key = (f.method, s.sourceTypes) := by
  simp [Routine.key, CustomFunction.declaration, Signature.sourceTypes]

/-- A declaration depends on the names and the types in code only. -/
theorem declaration_congr {f : CustomFunction} {s t : Signature}
    (htypes : s.sourceTypes = t.sourceTypes) (hnames : s.names = t.names) :
    f.declaration s = f.declaration t := by
  -- parameters are types and names side by side
  have hparams : ∀ s : Signature, s.map (fun p => (⟨p.type.sourceName, p.name⟩ : Param)) =
      List.zipWith Param.mk s.sourceTypes s.names := by
    intro s
    simp [Signature.sourceTypes, Signature.names, List.zipWith_map]
  simp only [CustomFunction.declaration, hparams, htypes, hnames]

/-- **The methods an artifact declares can be told apart by name and parameter types, up to the
names of parameters.** Let an expression call functions of one registry only, with the usual
separator. Whatever declarations the methods of its artifact are taken for, two of them can be
confused only when they are of one function, and for signatures with other names of parameters; so
none can when signatures of a function that have the same types in code have the same names, too. -/
theorem methods_clash_free {requests : List Registry.Request}
    (hcreated : ∀ f, .custom f ∈ n.callees → f ∈ ({} : Registry).created requests)
    (h : (n.distill env kind).runIn ws = (.ok a, ws')) :
    (∃ ds, DeclaredAs n ds a.methods) ∧ ∀ ds, DeclaredAs n ds a.methods →
      (ds.Pairwise fun d e => (d.1.declaration d.2).key = (e.1.declaration e.2).key →
        d.1 = e.1 ∧ d.2.names ≠ e.2.names) ∧
      ((∀ f, .custom f ∈ n.callees → ∀ s ∈ f.signatures, ∀ t ∈ f.signatures,
          s.sourceTypes = t.sourceTypes → s.names = t.names) →
        (ds.map fun d => (d.1.declaration d.2).key).Nodup) := by
  have hdeclared := distill_declares h
  refine ⟨hdeclared.exists_declaredAs, fun ds hds => ?_⟩
  have hmethods : ((({} : Registry).created requests).map CustomFunction.method).Nodup :=
    Registry.created_nodup ⟨'_', by decide, by decide⟩
  -- the texts increase, so no two declarations have the same one
  have htexts : ds.Pairwise fun d e => (d.1.declaration d.2).text ≠ (e.1.declaration e.2).text := by
    rw [← List.pairwise_map, hds.texts_eq]
    exact hdeclared.increasing.imp Std.ne_of_lt
  have hclash : ds.Pairwise fun d e => (d.1.declaration d.2).key = (e.1.declaration e.2).key →
      d.1 = e.1 ∧ d.2.names ≠ e.2.names := by
    refine htexts.imp_of_mem fun {d e} hd he htext hkey => ?_
    rw [key_declaration, key_declaration, Prod.mk.injEq] at hkey
    obtain ⟨hmethod, htypes⟩ := hkey
    -- one method name is one function, and then one text unless the names differ
    have hf : d.1 = e.1 := List.inj_on_of_nodup_map hmethods
      (hcreated _ (hds.called d hd).1) (hcreated _ (hds.called e he).1) hmethod
    refine ⟨hf, fun hnames => htext ?_⟩
    rw [hf, declaration_congr htypes hnames]
  refine ⟨hclash, fun huniform =>
    List.pairwise_map.2 (hclash.imp_of_mem fun hd he hclash hkey => ?_)⟩
  obtain ⟨hf, hnames⟩ := hclash hkey
  rw [key_declaration, key_declaration, Prod.mk.injEq] at hkey
  have hcalled := hds.called _ he
  exact hnames (huniform _ hcalled.1 _ (hf ▸ (hds.called _ hd).2) _ hcalled.2 hkey.2)

/-- The definition of a function for two sorts of vectors, with the names of its parameter. -/
def ofVectors (x y : String) : Definition :=
  ⟨"first", "return 0;", .double, [], [[⟨x, .array .long⟩], [⟨y, .array .double⟩]]⟩

/-- A sum of both its uses. -/
def bothVectors (x y : String) : Node :=
  let f := Function.custom (({} : Registry).define (ofVectors x y))
  .arithmetic .add (.call f [.column ⟨"a", ""⟩]) (.call f [.column ⟨"b", ""⟩])

/-- Both signatures of a function are in use, and it is declared once; with other names of the
parameter it is declared twice, for the same types in code. -/
theorem methods_clash_free_vectors :
    let n := bothVectors "v" "v"
    let env : DistillEnv :=
      { schema := [("a", .array .int), ("b", .array .double)], functions := some none }
    (∀ f, .custom f ∈ n.callees → f ∈ ({} : Registry).created [.define (ofVectors "v" "v")]) ∧
      (∃ a ws, (n.distill env "sum").runIn {} = (.ok a, ws) ∧ a.methods.length = 1 ∧
        (∃ ds, DeclaredAs n ds a.methods) ∧
        ∀ ds, DeclaredAs n ds a.methods → (ds.map fun d => (d.1.declaration d.2).key).Nodup) ∧
      (((bothVectors "x" "y").distill env "sum").runIn {}).1.map Artifact.methods = .ok
        ["public double first_1(IVector x) \x7b\n    return 0;\n\x7d\n",
          "public double first_1(IVector y) \x7b\n    return 0;\n\x7d\n"] := by
  intro n env
  have hcallee : ∀ f, .custom f ∈ n.callees → f = ({} : Registry).define (ofVectors "v" "v") := by
    intro f hf
    simpa [n, bothVectors, Node.callees, Node.calleesOf] using hf
  have hcreated : ∀ f, .custom f ∈ n.callees →
      f ∈ ({} : Registry).created [.define (ofVectors "v" "v")] := by
    intro f hf
    rw [hcallee f hf]
    decide +kernel
  obtain ⟨a, ws, ha, hlength⟩ : ∃ a ws, (n.distill env "sum").runIn {} = (.ok a, ws) ∧
      a.methods.length = 1 := ⟨_, _, rfl, by decide +kernel⟩
  obtain ⟨hexists, hall⟩ := methods_clash_free hcreated ha
  refine ⟨hcreated, ⟨a, ws, ha, hlength, hexists,
    fun ds hds => (hall ds hds).2 fun f hf => ?_⟩, rfl⟩
  rw [hcallee f hf]
  decide +kernel

end FactFold
