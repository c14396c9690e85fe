import Logbook.Proofs.Broker.Trace
import Logbook.Proofs.Store.Members

/-! Groups in sessions: whatever is created, deleted, subscribed and closed, also by the shutdown of
the broker, the groups of the store are those of the open tailers. -/
namespace Logbook.Broker.Session

/-- Groups have settled after every operation of every session. -/
theorem groups_settled (config : StoreConfig) (limits : Limits) (ops : List Operation) :
    ((start config limits).run ops).broker.store.Settled
      (({ config } : Store).subscriptions ((start config limits).trace ops)) := by
  rw [store_start]
  exact (Store.coordinated_run config _).settled

end Logbook.Broker.Session
