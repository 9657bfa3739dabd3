import AmqpApps.Foundation.KeyedBags
import AmqpApps.PolicyAdministration.Application

/-! # What can come of an application

The handlers before billing recognise nothing they have seen: each delivery
moves an application on, and what it becomes is counted here from the outbox to
the table of policies. A step adds to the count by recording the application, or
by handing one of its messages out again.
-/

namespace AmqpApps.PolicyAdministration

/-- On its way to becoming a policy. -/
def Message.insurable : Message → Bool
  | submitted event => event.sumAssured ≤ referralThreshold
  | register application => application.sumAssured ≤ referralThreshold
  | price checked => checked.application.sumAssured ≤ referralThreshold
  | decide priced => !priced.refer
  | accepted _ => true
  | issued .. => false

def Message.headsFor (applicationId : String) (message : Message) : Bool :=
  message.insurable && message.applicationId == applicationId

def Stage.headsFor (applicationId : String) (stage : Stage) : Bool :=
  !stage.out && stage.message.headsFor applicationId

def Write.headsFor (applicationId : String) : Write → Bool
  | submit _ => false
  | issue event _ _ => event.applicationId == applicationId

def PolicyRow.isFor (applicationId : String) (row : PolicyRow) : Bool :=
  row.applicationId == applicationId

@[simp] theorem Message.headsFor_accepted (applicationId : String)
    (event : ApplicationAccepted) :
    (accepted event).headsFor applicationId = (event.applicationId == applicationId) := by
  simp [headsFor, insurable, Message.applicationId]

@[simp] theorem Message.headsFor_issued (applicationId messageId : String)
    (event : PolicyIssued) : (issued messageId event).headsFor applicationId = false := by
  simp [headsFor, insurable]

@[simp] theorem Stage.headsFor_pending (applicationId : String) (message : Message) :
    Stage.headsFor applicationId ⟨message, false⟩ = message.headsFor applicationId := by
  simp [Stage.headsFor]

@[simp] theorem Stage.headsFor_out (applicationId : String) (message : Message) :
    Stage.headsFor applicationId ⟨message, true⟩ = false := by
  simp [Stage.headsFor]

@[simp] theorem Write.headsFor_submit (applicationId : String) (row : ApplicationRow) :
    (submit row).headsFor applicationId = false := rfl

@[simp] theorem Write.headsFor_issue (applicationId policyId messageId : String)
    (event : ApplicationAccepted) :
    (issue event policyId messageId).headsFor applicationId =
      (event.applicationId == applicationId) := rfl

namespace Application

/-- The policies of an application, those there are and those that can come of
what is on its way. -/
def prospects (state : Application) (applicationId : String) : Nat :=
  howMany (Message.headsFor applicationId) state.pending +
    howMany (Message.headsFor applicationId) state.queues +
    howMany (Stage.headsFor applicationId) state.stages +
    howMany (Write.headsFor applicationId) state.writes +
    state.policies.countP (PolicyRow.isFor applicationId)

def submissions (state : Application) (applicationId : String) : Nat :=
  state.applications.countP (·.id == applicationId)

end Application

/-- What a step puts on a queue that was there, or was recorded, before. -/
def Step.repeated : Step → List Message
  | relayAgain message | duplicate message => [message]
  | _ => []

theorem Step.repeated_length (step : Step) : step.repeated.length ≤ 1 := by
  cases step <;> simp [repeated]

private theorem next_headsFor (applicationId : String) (message : Message) :
    message.next.countP (Message.headsFor applicationId) ≤
      (message.headsFor applicationId).toNat := by
  cases message with
  | submitted event => exact (countP_only (Message.headsFor applicationId) _).le
  | register application => exact (countP_only (Message.headsFor applicationId) _).le
  | price checked =>
      have same : (!decide (checked.application.sumAssured > referralThreshold)) =
          decide (checked.application.sumAssured ≤ referralThreshold) := by
        rw [← decide_not, decide_eq_decide]
        exact not_lt
      rw [Message.next, countP_only]
      simp only [Message.headsFor, Message.insurable, Message.applicationId, price, same]
      exact le_rfl
  | decide priced =>
      cases refer : priced.refer with
      | true => simp [Message.next, decideOn, refer]
      | false =>
          simp only [Message.next, decideOn, refer, Bool.false_eq_true, if_false, countP_only]
          simp [Message.headsFor, Message.insurable, Message.applicationId, refer]
  | accepted event => exact Nat.zero_le _
  | issued messageId event => exact Nat.zero_le _

namespace Application

variable {state : Application} (applicationId : String)

private theorem prospects_enqueue (messages : List Message) :
    (state.enqueue messages).prospects applicationId =
      state.prospects applicationId + messages.countP (Message.headsFor applicationId) := by
  simp only [prospects, enqueue, howMany_add, howMany_coe]
  omega

private theorem prospects_commit {write : Write} (member : write ∈ state.writes) :
    (state.perform (.commit write)).prospects applicationId =
      state.prospects applicationId + (write.record.headsFor applicationId).toNat := by
  have split := howMany_erase (Write.headsFor applicationId) member
  cases write with
  | submit row =>
      simp only [Write.headsFor_submit, Bool.toNat_false] at split
      simp only [perform, insert, prospects, howMany_cons, split]
      omega
  | issue event policyId messageId =>
      simp only [Write.headsFor_issue] at split
      simp only [perform, insert, prospects, howMany_cons, split, Write.record,
        Message.headsFor_issued, countP_concat, PolicyRow.isFor, policyRow, Bool.toNat_false]
      omega

private theorem prospects_deliver {message : Message} (member : message ∈ state.queues)
    (policyId messageId : String) :
    (state.perform (.deliver message policyId messageId)).prospects applicationId =
      state.prospects applicationId := by
  have split := howMany_erase (Message.headsFor applicationId) member
  cases message with
  | accepted event =>
      simp only [Message.headsFor_accepted] at split
      simp only [perform, handle, prospects, howMany_cons, split, Write.headsFor_issue]
      omega
  | issued envelopeId event =>
      simp only [Message.headsFor_issued, Bool.toNat_false] at split
      simp only [perform, handle, prospects, split, add_zero]
  | _ =>
      simp only [perform, handle, prospects, howMany_cons, split, Stage.headsFor_pending]
      omega

private theorem prospects_publish {stage : Stage} (member : stage ∈ state.stages)
    (pending : stage.out = false) :
    (state.perform (.publish stage)).prospects applicationId ≤
      state.prospects applicationId := by
  rcases stage with ⟨message, out⟩
  cases pending
  have split := howMany_erase (Stage.headsFor applicationId) member
  have sent := next_headsFor applicationId message
  simp only [Stage.headsFor_pending] at split
  simp only [perform, enqueue, prospects, howMany_add, howMany_coe, howMany_cons,
    Stage.headsFor_out, Bool.toNat_false]
  omega

/-- A step adds to what can come of an application by recording it, or by
handing out one of its messages again. -/
theorem prospects_step (step : Step) (enabled : state.Enabled step) :
    (state.perform step).prospects applicationId + state.submissions applicationId ≤
      state.prospects applicationId + (state.perform step).submissions applicationId +
        step.repeated.countP (Message.headsFor applicationId) := by
  cases step with
  | submit row =>
      simp only [perform, prospects, submissions, howMany_cons, Write.headsFor_submit,
        Bool.toNat_false, add_zero]
      exact Nat.le_add_right _ _
  | commit write =>
      rw [prospects_commit applicationId enabled.1]
      cases write with
      | submit row =>
          have most : ((Write.submit row).record.headsFor applicationId).toNat ≤
              (row.id == applicationId).toNat := by
            simp only [Write.record, Message.headsFor]
            cases (Message.submitted row.submitted).insurable
            · exact Nat.zero_le _
            · exact le_rfl
          simp only [perform, insert, submissions, countP_concat]
          omega
      | issue event policyId messageId =>
          simp only [perform, insert, submissions, Write.record, Message.headsFor_issued,
            Bool.toNat_false]
          omega
  | rollback write =>
      have split := howMany_erase (Write.headsFor applicationId) enabled
      simp only [perform, prospects, submissions, split]
      omega
  | relay record =>
      have split := howMany_erase (Message.headsFor applicationId) enabled
      simp only [perform, enqueue, prospects, submissions, split, howMany_add, howMany_coe,
        countP_only]
      omega
  | relayAgain record =>
      rw [perform, prospects_enqueue, Step.repeated]
      simp only [enqueue, submissions]
      omega
  | deliver message policyId messageId =>
      rw [prospects_deliver applicationId enabled]
      cases message <;> exact Nat.le_add_right _ _
  | duplicate message =>
      rw [perform, prospects_enqueue, Step.repeated]
      simp only [enqueue, submissions]
      omega
  | publish stage =>
      have fewer := prospects_publish applicationId enabled.1 enabled.2
      exact (Nat.add_le_add_right fewer _).trans (Nat.le_add_right _ _)
  | return_ stage =>
      have split := howMany_erase (Stage.headsFor applicationId) enabled.1
      simp only [perform_return, prospects, submissions, split]
      omega
  | fail stage =>
      have split := howMany_erase (Stage.headsFor applicationId) enabled
      simp only [perform, prospects, submissions, split]
      omega
  | bill action => exact Nat.le_add_right _ _

end Application

end AmqpApps.PolicyAdministration
