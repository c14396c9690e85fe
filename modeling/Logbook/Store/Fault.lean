import Logbook.Codec.Basic
import Logbook.Partition

/-!
Why an operation on logs, appenders or tailers fails, and the wording of each cause.
-/
namespace Logbook

/-- What can be closed. -/
inductive Resource where
  | manager | appender | tailer
deriving DecidableEq, Repr

def Resource.name : Resource → String
  | manager => "log manager"
  | appender => "appender"
  | tailer => "tailer"

/-- Operations that can be told to fail. -/
inductive FaultPoint where
  | createTailer | closeAppender | closeTailer
deriving DecidableEq, Repr

def FaultPoint.name : FaultPoint → String
  | createTailer => "create_tailer"
  | closeAppender => "close appender"
  | closeTailer => "close tailer"

/-- The failure of an operation that was told to fail. -/
def FaultPoint.message (p : FaultPoint) : String :=
  "backing store error during " ++ p.name ++ ": simulated failure"

/-- A resource that failed to close during shutdown. -/
inductive CloseFailure where
  | appender (log : String)
  | tailer (number : Nat)
deriving DecidableEq, Repr

def CloseFailure.message : CloseFailure → String
  | appender log => "appender " ++ log ++ ": " ++ FaultPoint.closeAppender.message
  | tailer number => s!"tailer-{number}: " ++ FaultPoint.closeTailer.message

inductive LogFault where
  | unknownLog (name : String)
  | alreadyAssigned (key : GroupPartition)
  | codecMismatch (log : String) (existing requested : Option String)
  | typeMismatch (log : String) (existing requested : MessageType)
  | subscribeUnsupported
  | outOfRange (partition : Partition) (size : Nat)
  | notAssigned (partition : Partition)
  | closed (resource : Resource)
  | closeFailed (failures : List CloseFailure)
  | argument (e : ArgumentError)
  | codec (e : CodecError)
  | injected (point : FaultPoint)

def LogFault.message : LogFault → String
  | unknownLog name => "unknown log: " ++ name
  | alreadyAssigned key =>
    "tailer for partition " ++ key.partition.display ++ " already created in group " ++ key.group
  | codecMismatch log existing requested =>
    "log " ++ log ++ " uses the " ++ existing.getD "default" ++ " codec, cannot use " ++
      requested.getD "default"
  | typeMismatch log existing requested =>
    "log " ++ log ++ " carries " ++ existing.typeName ++ " messages, not " ++ requested.typeName
  | subscribeUnsupported => "operation not supported by the backing store: subscribe"
  | outOfRange partition size =>
    s!"partition {partition.index} out of range for log " ++ partition.log ++ s!" of size {size}"
  | notAssigned partition => "partition " ++ partition.display ++ " is not assigned to this tailer"
  | closed resource => resource.name ++ " is closed"
  | closeFailed failures =>
    s!"{failures.length} resource(s) failed to close, first: " ++
      (failures.head?.map CloseFailure.message).getD ""
  | argument e => e.message
  | codec e => e.message
  | injected point => point.message

end Logbook
