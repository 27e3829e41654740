import Canvas.Event

/-!
# Broadcasts

A broadcast hands every item to all its subscribers, who receive at their own pace. It keeps a
limited number of items: a subscriber that falls behind further is told once how many items it lost
and goes on with the oldest one still kept.
-/

namespace Canvas

/-- Items that were sent, numbered from the first. Only the latest ones are kept. -/
structure Broadcast (α : Type) where
  capacity : Nat
  sent : Nat
  kept : List α

/-- What a subscriber gets when it asks for the next item. -/
inductive Received (α : Type) where
  | item (item : α)
  | lagged (lost : Nat)
  | empty
  | closed

/-- The smallest power of two that is not below a number. -/
def powerOfTwoAbove (n : Nat) : Nat := if n ≤ 1 then 1 else Nat.pow 2 (Nat.log2 (n - 1) + 1)

namespace Broadcast

variable {α : Type}

/-- A broadcast that keeps at least the given number of items, and at least one: the next power of
two. -/
def ofCapacity (capacity : Nat) : Broadcast α := ⟨powerOfTwoAbove capacity, 0, []⟩

/-- Send an item. The oldest kept item makes room for it. -/
def send (broadcast : Broadcast α) (item : α) : Broadcast α :=
  let kept := broadcast.kept ++ [item]
  { broadcast with
    sent := broadcast.sent + 1, kept := kept.drop (kept.length - broadcast.capacity) }

/-- The number of the oldest item that is kept. -/
def oldest (broadcast : Broadcast α) : Nat := broadcast.sent - broadcast.kept.length

/-- The number of the item that a new subscriber gets first. -/
def subscribe (broadcast : Broadcast α) : Nat := broadcast.sent

/-- What the subscriber gets whose next item has the given number, and the number of the item after
it. -/
def receive (broadcast : Broadcast α) (next : Nat) : Received α × Nat :=
  if next < broadcast.oldest then (.lagged (broadcast.oldest - next), broadcast.oldest)
  else
    match broadcast.kept[next - broadcast.oldest]? with
    | some item => (.item item, next + 1)
    | none => (.empty, next)

end Broadcast

end Canvas
