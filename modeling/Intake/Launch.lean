import Intake.Address
import Intake.Config
import Intake.Product

/-!
# The command line

What a run does before it serves: read the arguments and the environment, load the
configuration, and take the listen address. Arguments win over the environment. Each
way to end early has its exit code, and a failure is a chain of texts, outermost first.
-/

namespace Intake.Launch

/-- What the arguments ask for, as far as they were read. -/
structure Request where
  config : Option String := none
  port : Option Nat := none
  deriving DecidableEq, Repr

/-- How reading the arguments ends. -/
inductive Parsed where
  | go (request : Request)
  | version
  | help
  | misuse
  deriving DecidableEq, Repr

/-- A port number: digits, perhaps after a sign. -/
def port? (s : String) : Option Nat := do
  let n : Int ← match s.toList with
    | '+' :: r => (Text.decimal? r).map Int.ofNat
    | '-' :: r => (Text.decimal? r).map (fun n => -Int.ofNat n)
    | r => (Text.decimal? r).map Int.ofNat
  if 0 ≤ n && n ≤ 65535 then some n.toNat else none

/-- A path is any text but the empty one. -/
def path? (s : String) : Option String :=
  if s.isEmpty then none else some s

/-- The two options that take a value. -/
inductive Key where
  | config
  | port
  deriving DecidableEq, Repr

namespace Request

/-- Fills in an option once; a second time or a value that does not fit is misuse. -/
def put (r : Request) (key : Key) (value : String) : Option Request :=
  match key with
  | .config =>
    if r.config.isSome then none else (path? value).map fun p => { r with config := some p }
  | .port => if r.port.isSome then none else (port? value).map fun n => { r with port := some n }

end Request

/-- Whether an argument can be the value of the option before it. -/
def isValue (s : String) : Bool :=
  match s.toList with
  | '-' :: _ :: _ => false
  | _ => true

/-- A long option, with the value after its equals sign if it has one. -/
def longOption (body : List Char) : List Char × Option String :=
  let name := body.takeWhile (· != '=')
  match body.drop name.length with
  | _ :: v => (name, some (String.ofList v))
  | [] => (name, none)

/-- The option with a given long name. -/
def longKey? (name : List Char) : Option Key :=
  if name == "config".toList then some .config
  else if name == "port".toList then some .port
  else none

/-- The option with a given letter. -/
def letterKey? (c : Char) : Option Key :=
  if c = 'c' then some .config else if c = 'p' then some .port else none

/-- Reads the arguments one after the other. -/
def parseFrom (r : Request) : List String → Parsed
  | [] => .go r
  | arg :: rest =>
    match arg.toList with
    | ['-', '-'] => if rest.isEmpty then .go r else .misuse
    | '-' :: '-' :: body =>
      let (name, value) := longOption body
      match longKey? name, value with
      | some key, some v =>
        match r.put key v with
        | some r' => parseFrom r' rest
        | none => .misuse
      | some key, none =>
        match rest with
        | v :: rest' =>
          if isValue v then
            match r.put key v with
            | some r' => parseFrom r' rest'
            | none => .misuse
          else .misuse
        | [] => .misuse
      | none, none =>
        if name == "version".toList then .version
        else if name == "help".toList then .help
        else .misuse
      | none, some _ => .misuse
    | '-' :: letter :: body =>
      match letterKey? letter with
      | some key =>
        match body with
        | [] =>
          match rest with
          | v :: rest' =>
            if isValue v then
              match r.put key v with
              | some r' => parseFrom r' rest'
              | none => .misuse
            else .misuse
          | [] => .misuse
        | '=' :: v =>
          match r.put key (String.ofList v) with
          | some r' => parseFrom r' rest
          | none => .misuse
        | v =>
          match r.put key (String.ofList v) with
          | some r' => parseFrom r' rest
          | none => .misuse
      | none =>
        if letter = 'V' then .version else if letter = 'h' then .help else .misuse
    | _ => .misuse

/-- The names of the environment variables behind the two options. -/
def envNames : List (String × Key) :=
  [("SSEDOC_CONFIG", .config), ("SSEDOC_PORT", .port)]

/-- The value of an environment variable. -/
def envValue? (env : List (String × String)) (name : String) : Option String :=
  (env.find? (fun e => e.1 == name)).map Prod.snd

/-- Fills in from the environment what the arguments left open. -/
def withEnvironment (env : List (String × String)) (r : Request) : Option Request :=
  envNames.foldlM
    (fun (r : Request) (name, key) =>
      let open' := match key with
        | .config => r.config.isNone
        | .port => r.port.isNone
      match envValue? env name with
      | some v => if open' then r.put key v else some r
      | none => some r)
    r

/-- The request of a command line. -/
def parse (args : List String) (env : List (String × String)) : Parsed :=
  match parseFrom {} args with
  | .go r =>
    match withEnvironment env r with
    | some r' => .go r'
    | none => .misuse
  | other => other

/-- The help text; it shows the current values of the environment variables. -/
def helpText (env : List (String × String)) : String :=
  let shown (name : String) := "[env: " ++ name ++ "=" ++ (envValue? env name).getD "" ++ "]"
  "Document upload processing with SSE progress\n\n"
    ++ "Usage: " ++ Product.name ++ " [OPTIONS]\n\nOptions:\n"
    ++ "  -c, --config <CONFIG>  Configuration file (TOML) " ++ shown "SSEDOC_CONFIG" ++ "\n"
    ++ "  -p, --port <PORT>      Port to listen on, overrides the configuration file "
    ++ shown "SSEDOC_PORT" ++ "\n"
    ++ "  -h, --help             Print help\n"
    ++ "  -V, --version          Print version\n"

/-! ## Running -/

/-- The user's own configuration file: in the directory for configurations if that is given
by an absolute path, else in the usual place below the home directory. -/
def userPath? (env : List (String × String)) : Option String :=
  let absolute := (envValue? env "XDG_CONFIG_HOME").filter fun d => d.toList.head? == some '/'
  let home := ((envValue? env "HOME").filter fun d => !d.isEmpty).map (· ++ "/.config")
  (absolute.or home).map (· ++ "/ssedoc/config.toml")

/-- The files that a run may read. -/
def paths (args : List String) (env : List (String × String)) : List String :=
  match parse args env with
  | .go r => r.config.toList ++ (userPath? env).toList
  | _ => []

/-- The text of a failure: the outermost text, then its causes, numbered if there are
several. -/
def failureText : List String → String
  | [] => "Error"
  | [e] => "Error: " ++ e
  | [e, cause] => "Error: " ++ e ++ "\n\nCaused by:\n    " ++ cause
  | e :: causes =>
    "Error: " ++ e ++ "\n\nCaused by:"
      ++ String.join (causes.zipIdx.map fun (c, i) => "\n    " ++ toString i ++ ": " ++ c)

/-- How a run ends, or that it goes on to serve. -/
inductive Outcome where
  | printed (text : String)
  | misuse
  | failed (chain : List String)
  | serving (address : Address) (config : Config)
  deriving Repr

/-- A run up to the point where it serves. The files, the user's configuration path and
the addresses that can be bound are those of the machine. -/
def run (args : List String) (env : List (String × String)) (content : String → Option Bytes)
    (userPath : Option String) (canBind : Address → Bool) : Outcome :=
  match parse args env with
  | .version => .printed (Product.name ++ " " ++ Product.version ++ "\n")
  | .help => .printed (helpText env)
  | .misuse => .misuse
  | .go request =>
    match Config.resolve request.config userPath content with
    | .error e => .failed ["Failed to load configuration", e.message]
    | .ok loaded =>
      let config : Config :=
        { loaded with server := { loaded.server with
            port := request.port.getD loaded.server.port } }
      let listen := config.server.host ++ ":" ++ toString config.server.port
      match Address.read? listen with
      | none => .failed ["Invalid listen address " ++ listen]
      | some address =>
        if canBind address then .serving address config
        else .failed ["Failed to bind to " ++ address.write]

end Intake.Launch
