import AmqpApps.Fulfilment.Gateway
import AmqpApps.PolicyAdministration.Policies

/-! # The outbox write of both applications

`place_order` and `_write` are two copies of one transaction.
-/

namespace AmqpApps

open Fulfilment PolicyAdministration

/-- In every run of either application's calls, whatever raises in whichever call, a
call that returns has written its row and its record, and one that raises neither; its
connection is closed, and the tables hold what the outbox has announced. -/
theorem outbox_writes_atomic {origin : String}
    {orders : Calls PlaceOrder (Written OrderRow (OutboxRecord OrderPlaced))}
    (placing : (gateway origin).Reached TransitionSystem.anyStep orders)
    {policies : Calls PolicyCall (Written TableRow (OutboxRecord Announcement))}
    (writing : policyModule.Reached TransitionSystem.anyStep policies) :
    Announced PlaceOrder.row (PlaceOrder.record origin) OrderRow.id OrderRow.AnnouncedBy
      orders ∧
    Announced PolicyCall.row PolicyCall.record TableRow.key TableRow.AnnouncedBy policies :=
  ⟨.of_reached (placeOrder_meets origin) (PlaceOrder.announced origin) placing,
    .of_reached PolicyCall.code_meets PolicyCall.announced writing⟩

def steps {Call : Type u} {Entry : Type v} (running : Running Call Entry) :
    List Bool → List (CallAction Call Entry)
  | [] => [.finish running]
  | returns :: more =>
      match running.script with
      | .done _ => []
      | .next op returned raised =>
          if returns then
            .succeed running :: steps ⟨running.call, returned, op.after running.session⟩ more
          else
            .fail running running.session :: steps ⟨running.call, raised, running.session⟩ more

def adasOrder : PlaceOrder := ⟨"ord-00000001", "ada", "WIDGET", 2, 42⟩

def adasPolicy : PolicyCall := .issue ⟨"APP-00000001", "ada", "term", 250000, 270⟩ "POL-00000001"

def placings : List (CallAction PlaceOrder (Written OrderRow (OutboxRecord OrderPlaced))) :=
  let placed := ⟨adasOrder, (placeOrder "gateway" adasOrder).start, .unopened⟩
  .start adasOrder :: steps placed [true, true, true, false, true, true] ++
    .start adasOrder :: steps placed [true, true, true, true, true, true]

def writings : List (CallAction PolicyCall (Written TableRow (OutboxRecord Announcement))) :=
  let issued := ⟨adasPolicy, adasPolicy.code.start, .unopened⟩
  .start adasPolicy :: steps issued [true, true, true, true, true, false, true, true] ++
    .start adasPolicy :: steps issued [true, true, true, true, true, true, true]

/-- An order whose `add` is cancelled is placed again; and of two calls that issue a
policy, one commits and one fails to. -/
theorem cancelled_writes_atomic :
    ∃ orders policies,
      orders.ended.map Ended.outcome = [.raised, .returned] ∧ orders.rows = [adasOrder.row] ∧
        policies.ended.map Ended.outcome = [.raised, .returned] ∧
        policies.rows = [adasPolicy.row] ∧
        Announced PlaceOrder.row (PlaceOrder.record "gateway") OrderRow.id
          OrderRow.AnnouncedBy orders ∧
        Announced PolicyCall.row PolicyCall.record TableRow.key TableRow.AnnouncedBy
          policies := by
  have placing := TransitionSystem.Reached.of_isSome_run (gateway "gateway")
    TransitionSystem.anyStep (.start rfl) placings (by decide +kernel)
  have writing := TransitionSystem.Reached.of_isSome_run policyModule
    TransitionSystem.anyStep (.start rfl) writings (by decide +kernel)
  exact ⟨_, _, by decide +kernel, by decide +kernel, by decide +kernel, by decide +kernel,
    outbox_writes_atomic placing writing⟩

end AmqpApps
