import Canvas.Stream.Broadcast

/-!
# Channels

A channel hands every item to one receiver, in order and without loss. Once the receiver is gone,
items are discarded.
-/

namespace Canvas

/-- The items that wait for the receiver, and whether there still is one. -/
structure Channel (α : Type) where
  waiting : List α
  isOpen : Bool

namespace Channel

variable {α : Type}

/-- A channel in which nothing waits. -/
def empty : Channel α := ⟨[], true⟩

/-- Send an item. -/
def send (channel : Channel α) (item : α) : Channel α :=
  if channel.isOpen then { channel with waiting := channel.waiting ++ [item] } else channel

/-- What the receiver gets next. -/
def receive (channel : Channel α) : Received α × Channel α :=
  match channel.waiting with
  | [] => (.empty, channel)
  | item :: rest => (.item item, { channel with waiting := rest })

/-- The channel after its receiver is gone. -/
def close (_ : Channel α) : Channel α := ⟨[], false⟩

end Channel

end Canvas
