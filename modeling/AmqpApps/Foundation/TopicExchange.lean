import Mathlib.Data.List.Infix

/-! # Topic exchanges

A publish goes to every queue that is bound with a pattern its routing key matches.
-/

namespace AmqpApps

def words (key : String) : List (List Char) := key.toList.splitOn '.'

/-- In a pattern `*` stands for one word and `#` for any number of them. -/
def topicMatches : List (List Char) → List (List Char) → Bool
  | [], key => key.isEmpty
  | word :: pattern, key =>
      if word = ['#'] then key.tails.any (topicMatches pattern)
      else
        match key with
        | [] => false
        | first :: rest => (word = ['*'] || word = first) && topicMatches pattern rest

example : topicMatches (words "fulfilment.#") (words "fulfilment.order.placed") = true := by decide

structure Binding (Queue : Type u) where
  queue : Queue
  pattern : String

variable {Queue : Type u} [DecidableEq Queue]

def routed (bindings : List (Binding Queue)) (key : String) (queue : Queue) : Bool :=
  bindings.any fun binding =>
    binding.queue = queue && topicMatches (words binding.pattern) (words key)

def route (bindings : List (Binding Queue)) (key : String) (message : Message)
    (queues : Queue → List Message) : Queue → List Message :=
  fun queue => if routed bindings key queue then queues queue ++ [message] else queues queue

theorem mem_route {bindings : List (Binding Queue)} {key : String} {message other : Message}
    {queues : Queue → List Message} {queue : Queue}
    (member : other ∈ route bindings key message queues queue) :
    other ∈ queues queue ∨ routed bindings key queue = true ∧ other = message := by
  rw [route] at member
  split at member
  · rename_i bound
    rcases List.mem_append.mp member with before | now
    · exact .inl before
    · exact .inr ⟨bound, List.mem_singleton.mp now⟩
  · exact .inl member

end AmqpApps
