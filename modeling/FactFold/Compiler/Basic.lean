import FactFold.Artifact
import FactFold.Compiler.Metrics
import FactFold.Expr.Parser
import FactFold.Function.Registry
import FactFold.Yaml.Decode

/-!
# The compiler

A compiler holds what outlasts a single distillation: the configuration, the registered functions and
kinds, the metadata service with the cache of its answers, and the metrics. Settings are applied in
order before a compiler is put together. Every call gives its result, the compiler afterwards and the
messages to be logged, each with the logger it goes to.
-/

namespace FactFold

/-! ## Settings -/

/-- A deviation from the way a compiler is put together by default. -/
inductive Setting where
  /-- Logs to a new base logger of a level. -/
  | logOutput (level : Int)
  | logLevel (level : Int)
  | logger (l : Log.Logger)
  /-- Logs nothing. -/
  | discardLog
  | service (s : Option MetadataService)
  | config (c : Config)
  | codegen (c : CodegenConfig)

/-- What the settings decide. -/
structure Draft where
  config : Config := .standard
  logger : Log.Logger
  /-- The level to log at, when a setting tells. -/
  level : Option Int := none
  service : Option MetadataService := none

/-- Applies a setting. -/
def Draft.apply (d : Draft) (book : Log.Book) : Setting → Draft × Log.Book
  | .logOutput level =>
    let (logger, book) := book.create level
    ({ d with logger := logger, level := some level }, book)
  | .logLevel level => ({ d with level := some level }, book)
  | .logger l => ({ d with logger := l }, book)
  | .discardLog => ({ d with logger := .silent }, book)
  | .service s => ({ d with service := s }, book)
  | .config c => ({ d with config := c }, book)
  | .codegen c => ({ d with config := { d.config with codegen := c } }, book)

/-- Applies settings in order. -/
def Draft.applyAll (d : Draft) (book : Log.Book) (settings : List Setting) : Draft × Log.Book :=
  settings.foldl (fun state s => state.1.apply state.2 s) (d, book)

/-! ## Putting a compiler together -/

/-- Why a compiler could not be put together. -/
inductive SetupError where
  | unknownLevel (name : String)
  | catalog (e : CatalogError)
  deriving Repr, DecidableEq

/-- The wording of the reason. -/
def SetupError.message : SetupError → String
  | .unknownLevel name => Log.unknownLevelMessage name
  | .catalog e => e.message

/-- A compiler. -/
structure Compiler where
  config : Config
  logger : Log.Logger
  service : Option MetadataService
  registry : Registry
  cache : MetadataCache := {}
  kinds : KindTable := {}
  metrics : Metrics := {}

namespace Draft

/-- The level to log at: the one a setting tells, or else the configured one, if any. -/
def chosenLevel (d : Draft) : Except SetupError (Option Int) :=
  match d.level with
  | some level => .ok (some level)
  | none =>
    if d.config.logLevel = "" then .ok none
    else
      match Log.parseLevel? d.config.logLevel with
      | some level => .ok (some level)
      | none => .error (.unknownLevel d.config.logLevel)

/-- The metadata service, read from the configured catalog when no setting gives one; the flag tells
whether it was read. -/
def chosenService (d : Draft) (files : String → Option String) :
    Except SetupError (Option MetadataService × Bool) :=
  if d.service.isNone && d.config.catalogPath ≠ "" then
    match Catalog.loadFile d.config.catalogPath (files d.config.catalogPath) with
    | .ok catalog => .ok (some catalog.service, true)
    | .error e => .error (.catalog e)
  else .ok (d.service, false)

/-- The compiler of a draft that uses a metadata service. -/
def compiler (d : Draft) (service : Option MetadataService) : Compiler where
  config := d.config
  logger := d.logger
  service := service
  registry := .empty d.config.codegen.methodNameSeparator

end Draft

/-- Puts a compiler together from settings, reading the catalog from the given files. -/
def Compiler.setup (settings : List Setting) (files : String → Option String) (book : Log.Book) :
    Except SetupError Compiler × Log.Book :=
  let (d, book) := Draft.applyAll { logger := book.default } book settings
  match d.chosenLevel with
  | .error e => (.error e, book)
  | .ok level =>
    let book := level.elim book (book.setLevel d.logger)
    match d.chosenService files with
    | .error e => (.error e, book)
    | .ok (service, wasRead) =>
      let loaded : Log.Event := ⟨.info, "loaded metadata catalog %s", [.ofText d.config.catalogPath]⟩
      (.ok (d.compiler service), if wasRead then book.write d.logger loaded else book)

/-! ## Distilling -/

/-- Why a call of the compiler failed. -/
inductive CompilerError where
  /-- The call was cancelled before it began. -/
  | cancelled
  | unparsable (text : String) (e : ParseError)
  | failed (f : Failure)
  deriving Repr, DecidableEq

namespace CompilerError

/-- The report of the reason. -/
def report : CompilerError → Report
  | .cancelled => .plain "context canceled"
  | .unparsable text e => .plain ("parse " ++ Text.quoteText text ++ ": " ++ e.message)
  | .failed f => f.report

/-- The wording of the reason. -/
def message (e : CompilerError) : String := e.report.text

end CompilerError

/-- Result of a call, the compiler afterwards, and what the call logs. -/
structure Reply where
  result : Except CompilerError Artifact
  compiler : Compiler
  messages : List (Log.Logger × Log.Event) := []

/-- Writes the messages of a call. -/
def Reply.log (r : Reply) (book : Log.Book) : Log.Book :=
  r.messages.foldl (fun b m => b.write m.1 m.2) book

/-- What is to be distilled: a kind of aggregation over columns of known types. -/
structure Request where
  kind : String
  schema : List (String × DataType) := []
  /-- The call is cancelled before it begins. -/
  cancelled : Bool := false

namespace Compiler

/-- The logger of the registered functions. -/
def functionLogger (c : Compiler) : Log.Logger := .named "functions" c.logger

/-- What a distillation by this compiler needs to know. -/
def distillEnv (c : Compiler) (schema : List (String × DataType)) : DistillEnv where
  schema := schema
  functions := some c.service
  config := c.config.codegen
  kinds := c.kinds

/-- A kind as a message argument. -/
def kindArg (kind : String) : Log.Arg := .ofNamed "aggregator.Kind" kind

/-- An expression as a message argument. -/
def nodeArg : Option Node → Log.Arg
  | some n => .shown n.typeName n.text
  | none => .null

/-- The name of the type of an error without a category. -/
def plainErrorType : String := "*errors.errorString"

/-- A failure as a message argument. -/
def failureArg (f : Failure) : Log.Arg :=
  .shown (if f.report.category?.isSome then "*types.CompileError" else plainErrorType) f.message

/-- The message before a distillation. -/
def startEvent (kind : String) (n : Option Node) : Log.Event :=
  ⟨.debug, "distilling %s(%s)", [kindArg kind, nodeArg n]⟩

/-- The message after a distillation. -/
def endEvent (kind : String) (n : Option Node) : Except Failure Artifact → Log.Event
  | .ok a =>
    ⟨.debug, "distilled %s(%s): layout [%s], %d imports, %d methods",
      [kindArg kind, nodeArg n, .shown "buffer.Layout" a.layout.text, .ofNat a.imports.length,
       .ofNat a.methods.length]⟩
  | .error f => ⟨.error, "distill %s(%s) failed: %v", [kindArg kind, nodeArg n, failureArg f]⟩

/-- Distills an expression, which may be missing. The cache keeps what it has learned, and the
outcome is counted. -/
def distill (c : Compiler) (r : Request) (n : Option Node) : Reply :=
  if r.cancelled then ⟨.error .cancelled, c, []⟩
  else
    let (result, w) :=
      (distill? (c.distillEnv r.schema) r.kind n).runIn { cache := c.cache }
    { result := result.mapError .failed
      compiler :=
        { c with
          cache := w.cache
          metrics := c.metrics.observe r.kind (.ofResult result) }
      messages :=
        (c.logger, startEvent r.kind n) :: w.events.map (fun e => (c.functionLogger, e)) ++
          [(c.logger, endEvent r.kind n result)] }

/-- Parses a text, finding functions among the registered ones, and distills the expression. -/
def compile (c : Compiler) (r : Request) (text : String) : Reply :=
  match Node.parse c.registry.get? text with
  | .ok n => c.distill r (some n)
  | .error e =>
    { result := .error (.unparsable text e)
      compiler := c
      messages :=
        [(c.logger,
          ⟨.error, "parse %q failed: %v", [.ofText text, .shown plainErrorType e.message]⟩)] }

end Compiler

end FactFold
