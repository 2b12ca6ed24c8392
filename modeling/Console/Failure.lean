import Console.Number.Shortest
import Console.Text.Quoted

namespace Console

inductive Reason
  | noWord
  | noInteger
  | noFloat
  | noBoolean
  | noChoice
  | badInteger
  | badFloat
  | badBoolean
  | integerOutside (least greatest : Int)
  | floatOutside (least greatest : Binary32)
  | notAmong (choices : List Text)
  | quoting (fault : Text.Quoted.Fault)
  | host (message : Text)
  deriving DecidableEq, Repr

def joinWith (between : Text) (texts : List Text) : Text := between.intercalate texts

def Text.Quoted.Fault.message : Text.Quoted.Fault → Text
  | .noOpening => Text.of "Expected quote to start a string"
  | .badEscape c => Text.of "Invalid escape sequence '\\" ++ c :: Text.of "' in quoted string"
  | .noBlankAfter => Text.of "Expected whitespace to end one argument"
  | .unclosed => Text.of "Unclosed quoted string"

def Reason.message : Reason → Text
  | noWord => Text.of "Expected a word"
  | noInteger => Text.of "Expected integer"
  | noFloat => Text.of "Expected float"
  | noBoolean => Text.of "Expected boolean"
  | noChoice => Text.of "Expected one of the listed values"
  | badInteger => Text.of "Invalid integer"
  | badFloat => Text.of "Invalid float"
  | badBoolean => Text.of "Invalid boolean"
  | integerOutside least greatest =>
    Text.of "Integer must be between " ++ Decimal.writeInteger least ++
      Text.of " and " ++ Decimal.writeInteger greatest
  | floatOutside least greatest =>
    Text.of "Float must be between " ++ least.write ++ Text.of " and " ++ greatest.write
  | notAmong choices => Text.of "Expected one of: " ++ joinWith (Text.of ", ") choices
  | quoting fault => fault.message
  | host message => message

structure ParseFailure where
  reason : Reason
  raw : Text
  deriving DecidableEq, Repr

def ParseFailure.message (failure : ParseFailure) : Text :=
  failure.reason.message ++ Text.of ": '" ++ failure.raw ++ ['\'']

inductive RuntimeError
  | missingArgument (name : Text)
  | invalidArgument (failure : ParseFailure)
  | failed (message : Text)
  deriving DecidableEq, Repr

def RuntimeError.message : RuntimeError → Text
  | missingArgument name => Text.of "Missing argument: " ++ name
  | invalidArgument failure => Text.of "Invalid argument: " ++ failure.message
  | failed message => message

inductive InternalError
  | unknownArgument (name : Text)
  | wrongArgumentType (name expected found : Text)
  | emptyName
  | aliasTaken (name : Text)
  | failed (message : Text)
  deriving DecidableEq, Repr

def InternalError.message : InternalError → Text
  | unknownArgument name =>
    Text.of "Internal error: Argument '" ++ name ++
      Text.of "' does not exist in the grammar (command registration bug)"
  | wrongArgumentType name expected found =>
    Text.of "Internal error: Argument '" ++ name ++ Text.of "' holds " ++ found ++
      Text.of ", expected " ++ expected ++ Text.of " (command registration bug)"
  | emptyName => Text.of "Internal error: Grammar nodes must have a non-empty name"
  | aliasTaken name =>
    Text.of "Internal error: Alias '" ++ name ++ Text.of "' is already registered"
  | failed message => Text.of "Internal error (bug): " ++ message

inductive CommandError
  | runtime (error : RuntimeError)
  | internal (error : InternalError)
  deriving DecidableEq, Repr

def CommandError.message : CommandError → Text
  | runtime error => error.message
  | internal error => error.message

end Console
