import DocComponents.Log

/-!
# Loggers

A logger carries a context, and is called to make entries: by an operation, with an event and with
fields. What is called keeps some names for what it is given itself, so no field can have one of
them.
-/

set_option autoImplicit false

namespace DocComponents.Log

inductive Operation where
  | debug
  | info
  | warning
  | error
  | critical
  /-- An entry about an exception, on the level of errors. -/
  | exception
  deriving DecidableEq, Repr

namespace Operation

def level : Operation → Level
  | .debug => .debug
  | .info => .info
  | .warning => .warning
  | .error => .error
  | .critical => .critical
  | .exception => .error

def name : Operation → Text
  | .exception => "exception".toList
  | operation => operation.level.name

/-- The names of operations. Two of them have a second one. -/
def names : List (Text × Operation) :=
  [("debug".toList, .debug), ("info".toList, .info), ("warning".toList, .warning),
    ("warn".toList, .warning), ("error".toList, .error), ("critical".toList, .critical),
    ("fatal".toList, .critical), ("exception".toList, .exception)]

def ofName? (name : Text) : Option Operation :=
  names.lookup name

end Operation

structure Call where
  operation : Operation
  event : Text
  fields : Fields

structure ReservedField where
  /-- What keeps the name. -/
  owner : Text
  name : Text
  deriving DecidableEq, Repr

def ReservedField.message (fault : ReservedField) : Text :=
  fault.owner ++ "() got multiple values for argument ".toList ++ Text.quoted fault.name

/-- Nothing, if no field has one of the names that are kept. -/
def requireFree (owner : Text) (kept : List Text) (fields : Fields) : Except ReservedField Unit :=
  match fields.find? fun field => kept.contains field.1 with
  | some (name, _) => .error { owner, name }
  | none => .ok ()

structure Logger where
  context : Fields

namespace Logger

def ofContext (context : Fields) : Except ReservedField Logger := do
  requireFree "get_logger".toList ["name".toList] context
  requireFree "BoundLoggerLazyProxy.bind".toList ["self".toList] context
  return { context }

def entry (logger : Logger) (call : Call) : Except ReservedField Entry := do
  let owner := "BoundLogger.".toList ++ call.operation.name
  requireFree owner ["self".toList, "event".toList] call.fields
  requireFree "BoundLogger._proxy_to_logger".toList ["method_name".toList] call.fields
  return {
    level := call.operation.level
    event := call.event
    fields := withContext logger.context call.fields }

end Logger

end DocComponents.Log
