import QueryBook.Code.Module
import QueryBook.Session.Library
import QueryBook.Session.TestRegistry

/-!
# Running generated modules

What the definitions of a module do when they are called. Names are looked up when they are used:
first among the arguments and variables of the function, then among the definitions of the module,
of which the last of a name counts, and at last among what the module imports. So a parameter may
stand in the way of a definition, and a definition may replace another one.

Calls nest. Each function of the module that is entered is one deeper, and the depth is bounded.
-/

namespace QueryBook

open Run (lift need always)

/-- Where an expression is evaluated: what names stand for, and how something is called. -/
structure Frame where
  /-- The arguments and variables. -/
  locals : List (String × Object)
  /-- The names of the module. -/
  globals : String → Run Object
  call : Object → List Object → Run Object

namespace Frame

/-- What a name stands for. -/
def lookup (fr : Frame) (name : String) : Run Object :=
  match fr.locals.lookup name with
  | some o => pure o
  | none => fr.globals name

/-- Gives a name to something. -/
def bind (fr : Frame) (name : String) (o : Object) : Frame :=
  { fr with locals := (name, o) :: fr.locals }

/-- Outside of all functions, with no more than what is imported. -/
def outside : Frame := { locals := [], globals := Object.imported, call := Object.invoke }

end Frame

namespace Expr

mutual

/-- Evaluates an expression. -/
def eval (fr : Frame) : Expr → Run Object
  | argument name => fr.lookup name
  | global name => fr.lookup name
  | literal text => pure (.value (.text text))
  | quoted text => pure (.value (.text text))
  | field of name => do return (← of.eval fr).member name
  | call f args => do
    let f ← f.eval fr
    let args ← evalAll fr args
    fr.call f args
  | tuple items => do return .tuple (← evalAll fr items)
  | mapping names => do
    return .mapping (← names.mapM fun name => do return (name, ← fr.lookup name))
  | each f list => do
    let items ← need (← list.eval fr).list?
    return .list (← items.mapM fun item => do
      let f ← f.eval (fr.bind "r" item)
      fr.call f [item])
  | unlessNone name value => do
    match ← fr.lookup name with
    | .value .null => return .null
    | _ => value.eval fr

/-- Evaluates several expressions, from left to right. -/
def evalAll (fr : Frame) : List Expr → Run (List Object)
  | [] => return []
  | e :: es => do
    let o ← e.eval fr
    let os ← evalAll fr es
    return o :: os

end

/-- Evaluates an expression for its effect. -/
def perform (fr : Frame) (e : Expr) : Run Unit := do
  let _ ← e.eval fr

end Expr

/-- Whether a failure is of a class of errors. -/
def ErrorClass.covers (e : Failure) : ErrorClass → Bool
  | returnedRows => e.isReturnedRows
  | driver backend => e.isDriverError backend

/-- Deals with an error of the class of a handler. -/
def Handler.handle (h : Handler) (fr : Frame) (e : Failure) : Run Unit := do
  let fr := h.binding.elim fr fun name => fr.bind name (.failure e)
  h.body.forM (Expr.perform fr)
  if h.again then throw e

/-- Leaves an error to the first handler for it. -/
def Handler.handleFirst (handlers : List Handler) (fr : Frame) (e : Failure) : Run Unit :=
  match handlers.find? fun h => h.error.covers e with
  | some h => h.handle fr e
  | none => throw e

namespace BodyLine

/-- Runs the lines of a body. A body that ends without a result gives nothing. -/
def runAll (fr : Frame) : List BodyLine → Run Object
  | [] => return .null
  | result value :: _ => value.eval fr
  | assign name value :: rest => do
    let o ← value.eval fr
    runAll (fr.bind name o) rest
  | run value :: rest => do
    value.perform fr
    runAll fr rest
  | leaveIf text set :: rest => do
    let known ← (← fr.lookup set).members
    if known.contains text then return .null
    runAll fr rest
  | attempt value handlers :: rest => do
    tryCatch (value.perform fr) (Handler.handleFirst handlers fr)
    runAll fr rest
  | ensure value cleanup :: rest => do
    always (value.perform fr) (cleanup.perform fr)
    runAll fr rest
  | whileOpen resource name body :: rest => do
    let o ← resource.eval fr
    let fr := fr.bind name o
    always (body.forM (Expr.perform fr)) o.close
    runAll fr rest

end BodyLine

namespace Function

/-- Names in quotes, the last two joined by a word. -/
def enumerated : List String → String
  | [] => ""
  | [one] => s!"'{one}'"
  | [one, two] => s!"'{one}' and '{two}'"
  | names =>
    let last := names.getLastD ""
    String.intercalate ", " (names.dropLast.map fun name => s!"'{name}'") ++ s!", and '{last}'"

/-- A call with too few or too many arguments. -/
def mismatch (f : Function) (given : Nat) : Failure :=
  let wanted := f.arguments.length
  let text :=
    if given < wanted then
      let missing := (f.arguments.drop given).map Argument.name
      let ending := if missing.length = 1 then "" else "s"
      let listed := enumerated missing
      s!"missing {missing.length} required positional argument{ending}: {listed}"
    else
      let ending := if wanted = 1 then "" else "s"
      let were := if given = 1 then "was" else "were"
      s!"takes {wanted} positional argument{ending} but {given} {were} given"
  .language "TypeError" s!"{f.name}() {text}"

/-- Runs the function on arguments. -/
def apply (f : Function) (globals : String → Run Object) (call : Object → List Object → Run Object)
    (args : List Object) : Run Object :=
  if args.length = f.arguments.length then
    let locals := (f.arguments.map Argument.name).zip args
    BodyLine.runAll { locals, globals, call } f.body
  else throw (f.mismatch args.length)

end Function

/-- The name of the library class that a class builds on. -/
def Class.libraryBase? (c : Class) : Option String :=
  c.bases.findSome? fun
    | .field (.global "_sqlite") name => some name
    | _ => none

/-- A generated module ready to be run. -/
structure Program where
  /-- What the module defines, in order. -/
  definitions : List Definition
  /-- The names of the entry points, in order. -/
  entryPoints : List String

namespace Program

/-- A program without definitions. -/
def empty : Program := { definitions := [], entryPoints := [] }

/-- The program of a module. -/
def ofModule (m : Module) : Program :=
  { definitions := m.definitions, entryPoints := m.entryPoints }

variable (p : Program)

/-- The definition that a name stands for in the end. -/
def find? (name : String) : Option Definition := p.definitions.reverse.find? (·.name == name)

/-- What a name of the module stands for. -/
def lookup (name : String) : Run Object :=
  match p.find? name with
  | some (.constant _ value) => value.eval .outside
  | some (.functionDef f) => pure (.function f)
  | some (.classDef c) => pure (.classObject c)
  | none => Object.imported name

/-- A class of the module. -/
def class? (name : String) : Option Class :=
  match p.find? name with
  | some (.classDef c) => some c
  | _ => none

/-- The class, and the classes of the module that it builds on. -/
def lineage (c : Class) : List Class :=
  c :: c.bases.filterMap fun
    | .global name => p.class? name
    | _ => none

/-- The method that a class has under a name. -/
def method? (c : Class) (name : String) : Option Function :=
  (p.lineage c).findSome? fun c =>
    (c.methods.find? (·.name == name)).map fun m => { m with name := s!"{c.name}.{m.name}" }

/-- The column types that the handles of a class decode rows by. -/
def outputs (c : Class) : Run (List ColumnType) :=
  match (p.lineage c).findSome? fun c => c.fields.lookup "_outputs" with
  | some value => do need (← value.eval { Frame.outside with globals := p.lookup }).columns?
  | none => return []

/-- Makes a handle. -/
def instantiate (c : Class) : List Object → Run Object
  | [.connection .embedded id, statement] => do
    let statement ← need statement.text?
    let outputs ← p.outputs c
    match c.libraryBase? with
    | some "Statement" => return .handle c (← lift (Handle.owning id statement outputs))
    | some "CachedStatement" => return .handle c (Handle.cached id statement outputs)
    | _ => throw .misuse
  | _ => throw .misuse

/-- Calls something. `enter` says what a function of the module does. -/
def callWith (enter : Function → List Object → Run Object) : Object → List Object → Run Object
  | .function f, args => enter f args
  | .classObject c, args => p.instantiate c args
  | .method (.handle c h) name, args =>
    match p.method? c name with
    | some m => enter m (.handle c h :: args)
    | none => Object.invoke (.method (.handle c h) name) args
  | o, args => o.invoke args

/-- Calls something, with at most so many functions of the module under way. -/
def call : Nat → Object → List Object → Run Object
  | 0 => p.callWith fun _ _ => throw .tooDeep
  | depth + 1 => p.callWith fun f args => f.apply p.lookup (call depth) args

/-- More functions than a module ever has under way: each setup routine once, and those that the
last of them calls. -/
def depth : Nat := p.definitions.length + 2

/-- A definition that the module does not have. -/
def missing (name : String) : Failure :=
  .language "AttributeError" s!"module 'generated' has no attribute '{name}'"

/-- Calls the definition of a name, which is one of the module. -/
def invoke (depth : Nat) (name : String) (args : List Object) : Run Object := do
  if (p.find? name).isNone then throw (missing name)
  p.call depth (← p.lookup name) args

/-- The entry points of the module. -/
def registry : TestRegistry :=
  TestRegistry.ofEntries (p.entryPoints.map fun name =>
    (name, (p.invoke p.depth name []).onWorld))

end Program

end QueryBook
