import Logbook.Proofs.Broker.Session

/-! What operations answer. The answers are all that those who use a broker, or its store, see of
them. -/
namespace Logbook

inductive Answer where
  | done (outcome : Outcome Unit)
  | flag (outcome : Outcome Bool)
  | appender (outcome : Outcome Nat)
  | tailer (outcome : Outcome TailerRef)
  | offset (outcome : Outcome Offset)
  | notices (outcome : Outcome (List Notification))
  | record (outcome : Outcome (Option (Offset × Message)))
  | shutdown (outcome : Outcome Unit)

namespace Store

def answer (s : Store) : Action → Answer
  | .create name size => .done ((s.create name size).map fun _ => ())
  | .delete name => .flag (.ok (s.delete name).1)
  | .openAppender name type codec => .appender ((s.createAppender name type codec).map (·.1))
  | .append a key m => .offset ((s.append a key m).map (·.1))
  | .appendTo a index m => .offset ((s.appendTo a index m).map (·.1))
  | .closeAppender a => .done (s.closeAppender a).1
  | .createTailer group partitions type codec =>
    .tailer (s.createTailer group partitions type codec).1
  | .subscribe group names type codec => .tailer ((s.subscribe group names type codec).map (·.1))
  | .takeOver r => .notices ((s.takeOver r).map (·.1))
  | .look r => .record (s.look r).1
  | .commit r => .done ((s.commitAll r).map fun _ => ())
  | .commitPartition r p => .offset ((s.commitPartition r p).map (·.1))
  | .toStart r => .done ((s.toStart r).map fun _ => ())
  | .toEnd r => .done (s.toEnd r).1
  | .toLastCommitted r => .done ((s.toLastCommitted r).map fun _ => ())
  | .seek r o => .done ((s.seek r o).map fun _ => ())
  | .closeTailer r => .done (s.closeTailer r).1
  | .setFaults _ _ => .done (.ok ())

end Store

namespace Broker.Session

/-- A call for a tailer answers when it is refused at its beginning and when it is finished. What the
store answers meanwhile is told to nobody. -/
def answer (x : Session) : Operation → Answer
  | .create name size => .flag ((x.broker.createIfMissing name size).map (·.1))
  | .delete name => .flag ((x.broker.delete name).map (·.1))
  | .appender name type codec => .appender ((x.broker.appender name type codec).map (·.1))
  | .createTailer group partitions type codec =>
    .done ((x.broker.beginTailer group partitions type codec).1.map fun _ => ())
  | .subscribe group _ _ _ => .done (x.broker.checkSubscribe group)
  | .ask _ => .done (.ok ())
  | .finish i =>
    match x.calls[i]? with
    | some (.created k answer) => .tailer (x.broker.finishTailer k answer).1
    | some (.subscribed answer) => .tailer (x.broker.finishSubscribe answer).1
    | _ => .done (.ok ())
  | .close => .shutdown x.broker.close.1
  | .store a => x.broker.store.answer a

def answers (x : Session) : List Operation → List Answer
  | [] => []
  | op :: ops => x.answer op :: (x.act op).answers ops

end Broker.Session

end Logbook
