import SeriesWire.Command.Arguments
import SeriesWire.Command.File
import SeriesWire.Stored.Fixture

/-! Rendering a fixture from the command line.
Whatever was written before a failure stays written.
-/

namespace SeriesWire.Command

inductive CommandError where
  | emptyInput
  | unreadable (cause : FileError)
  | malformed
  | grid (cause : SnapError)
  | delivery (cause : DeliveryError)
  deriving DecidableEq, Repr

namespace CommandError

def message : CommandError → String
  | .emptyInput => "input MUST not be empty"
  | .unreadable cause => cause.message
  | .malformed => "the input is not a fixture"
  | .grid cause => cause.message
  | .delivery cause => cause.message

def cause? : CommandError → Option String
  | .delivery cause => cause.cause?
  | _ => none

/-- The message and, below it, the failure underneath. -/
def report (error : CommandError) : String :=
  "Error: " ++ error.message
    ++ match error.cause? with
      | some cause => "\n\nCaused by:\n    " ++ cause
      | none => ""

end CommandError

/-- What was written to the standard output, and the failure that ended it, if any. -/
structure Outcome where
  output : ByteArray
  failure : Option CommandError

def Outcome.exitCode (outcome : Outcome) : Nat :=
  if outcome.failure.isSome then 1 else 0

/-- A failure before anything was written. -/
def refuse (error : CommandError) : Outcome :=
  ⟨.empty, some error⟩

/-- Delivers whole results up to the first failure. -/
def deliverResults (session : Session) : List StoredResult → Session × Except CommandError Unit
  | [] => (session, .ok ())
  | stored :: rest =>
    match stored.build with
    | .error cause => (session, .error (.grid cause))
    | .ok result =>
      match session.serialize result with
      | (session, .ok ()) => deliverResults session rest
      | (session, .error cause) => (session, .error (.delivery cause))

/-- Delivers shards up to the first failure, each registered under its hash before it. -/
def deliverShards (session : Session) : List StoredShard → Session × Except CommandError Unit
  | [] => (session, .ok ())
  | stored :: rest =>
    let query := { session.query with registry := session.query.registry.register stored.id }
    match { session with query }.serializePartial stored.build with
    | (session, .ok _) => deliverShards session rest
    | (session, .error cause) => (session, .error (.delivery cause))

def Arguments.options (arguments : Arguments) (options : Options) : Options :=
  { options with
    millis := options.millis || arguments.millis
    parallelThreshold := arguments.threshold.getD options.parallelThreshold }

/-- Shards are delivered as shards unless the command line says otherwise. -/
def Arguments.modeFor (arguments : Arguments) (fixture : Fixture) : Mode :=
  arguments.mode.getD (if fixture.shards.isEmpty then .whole else .shards)

def queryOf (fixture : Fixture) : Query :=
  { start := .ofEpoch fixture.start
    stop := .ofEpoch fixture.stop
    logLevel := fixture.logLevel
    logs := fixture.logs
    registry := .empty
    resolver := some (fixture.encoded.foldl (fun table (id, name) => table.insert id name) .empty) }

/-- Renders a fixture; a complete document ends in a line break. -/
def renderFixture (arguments : Arguments) (fixture : Fixture) : Outcome :=
  match Session.start (queryOf fixture) (arguments.options fixture.options) .unlimited with
  | .error cause => refuse (.delivery cause)
  | .ok session =>
    let delivered := match arguments.modeFor fixture with
      | .whole => deliverResults session fixture.results
      | .shards => deliverShards session fixture.shards
    match delivered with
    | (session, .error error) => ⟨session.document.writer.stream.accepted, some error⟩
    | (session, .ok ()) =>
      match session.complete with
      | (session, .error cause) => ⟨session.document.writer.stream.accepted, some (.delivery cause)⟩
      | (session, .ok ()) => ⟨session.document.writer.stream.accepted ++ "\n".toUTF8, none⟩

/-- Renders the fixture that a file holds. -/
def renderFile (arguments : Arguments) (content : Except FileError String) : Outcome :=
  match content with
  | .error cause => refuse (.unreadable cause)
  | .ok text =>
    match Json.decode? Fixture.decoder text with
    | some fixture => renderFixture arguments fixture
    | none => refuse .malformed

/-- Renders the named input, which is read only if it has a name. -/
def renderInput {m : Type → Type} [Monad m] (readFile : String → m (Except FileError String))
    (input : String) (arguments : Arguments) : m Outcome :=
  if input.isEmpty then pure (refuse .emptyInput)
  else do return renderFile arguments (← readFile input)

end SeriesWire.Command
