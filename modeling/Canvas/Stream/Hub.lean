import Canvas.Stream.Sink

/-!
# Hubs

A hub is a set of event sinks under names, and of fan-outs that hand every event to several other
sinks in order. A sink lives as long as it has a name or belongs to a living fan-out. Receivers have
names of their own. A receiver whose sink is gone gets what is left and then learns that the sink is
closed.
-/

namespace Canvas

/-- Where a hub hands events: a sink, or a fan-out, whose members were made before it. -/
inductive Station where
  | sink (sink : Sink)
  | fanOut (members : List Nat)

/-- The receiving end of a sink; for a broadcast with the number of its next item. -/
structure Receiver where
  sink : Nat
  next : Nat

/-- All sinks and fan-outs ever made, by number, their names and those of receivers. -/
structure Hub where
  stations : List Station
  sinkNames : Dict Nat
  receivers : Dict Receiver

namespace Hub

/-- The hub without sinks. -/
def empty : Hub := ⟨[], Dict.empty, Dict.empty⟩

/-- Add a sink or a fan-out under a name; it takes the name from an older one. -/
def add (hub : Hub) (name : String) (station : Station) : Hub :=
  { hub with
    stations := hub.stations ++ [station]
    sinkNames := hub.sinkNames.insert name hub.stations.length }

/-- Add a receiver under a name. -/
def addReceiver (hub : Hub) (name : String) (receiver : Receiver) : Hub :=
  { hub with receivers := hub.receivers.insert name receiver }

/-- The sink or fan-out with a number. -/
def station? (hub : Hub) (number : Nat) : Option Station := hub.stations[number]?

/-- The sink with a number. -/
def sink? (hub : Hub) (number : Nat) : Option Sink :=
  match hub.station? number with
  | some (.sink sink) => some sink
  | _ => none

/-- The sink with a name. -/
def named? (hub : Hub) (name : String) : Option Sink := (hub.sinkNames.find? name).bind hub.sink?

/-- Put another state in place of a sink. -/
def put (hub : Hub) (number : Nat) (sink : Sink) : Hub :=
  { hub with stations := hub.stations.set number (.sink sink) }

/-- Add a channel and its receiver under one name. -/
def addChannel (hub : Hub) (name : String) : Hub :=
  (hub.add name (.sink (.channel .empty))).addReceiver name ⟨hub.stations.length, 0⟩

/-- Add a broadcast. -/
def addBroadcast (hub : Hub) (name : String) (capacity : Nat) : Hub :=
  hub.add name (.sink (.broadcast (.ofCapacity capacity)))

/-- Add a tracer. -/
def addTracer (hub : Hub) (name : String) (capacity : Nat) : Hub :=
  hub.add name (.sink (.tracer (.ofCapacity capacity)))

/-- Add a fan-out to the sinks with the given names, and tell how many they are. -/
def addFanOut (hub : Hub) (name : String) (members : List String) : Hub × Nat :=
  let numbers := members.filterMap hub.sinkNames.find?
  (hub.add name (.fanOut numbers), numbers.length)

/-- Add a receiver to a broadcast. It gets what is sent from now on. -/
def subscribe (hub : Hub) (name source : String) : Hub :=
  match hub.sinkNames.find? source with
  | some number =>
    match hub.sink? number with
    | some (.broadcast broadcast) => hub.addReceiver name ⟨number, broadcast.subscribe⟩
    | _ => hub
  | none => hub

/-- Hand an event to the sink or fan-out with a number. The fuel bounds how deeply fan-outs are
nested. -/
def emitTo (event : Event) : (fuel : Nat) → Nat → Hub → Hub
  | 0, _, hub => hub
  | fuel + 1, number, hub =>
    match hub.station? number with
    | some (.sink sink) => hub.put number (sink.take event)
    | some (.fanOut members) => members.foldl (fun hub member => emitTo event fuel member hub) hub
    | none => hub

/-- Hand an event to the sink or fan-out with a name. -/
def emit (hub : Hub) (name : String) (event : Event) : Hub :=
  match hub.sinkNames.find? name with
  | some number => emitTo event hub.stations.length number hub
  | none => hub

/-- Whether the sink with a number belongs to another, directly or through others. -/
def belongsTo (hub : Hub) (number : Nat) : (fuel : Nat) → (holder : Nat) → Bool
  | 0, _ => false
  | fuel + 1, holder =>
    holder = number ||
      match hub.station? holder with
      | some (.fanOut members) => members.any (hub.belongsTo number fuel)
      | _ => false

/-- Whether a sink has a name or belongs to one that has. -/
def isAlive (hub : Hub) (number : Nat) : Bool :=
  hub.sinkNames.entries.any fun entry => hub.belongsTo number hub.stations.length entry.2

/-- What a receiver gets from its sink, and the states of both after it. -/
def receiveFrom (hub : Hub) (receiver : Receiver) : Received Event × Receiver × Hub :=
  match hub.sink? receiver.sink with
  | some (.channel channel) =>
    let (received, channel) := channel.receive
    (received, receiver, hub.put receiver.sink (.channel channel))
  | some (.broadcast broadcast) =>
    let (received, next) := broadcast.receive receiver.next
    (received, { receiver with next }, hub)
  | _ => (.closed, receiver, hub)

/-- What the receiver with a name gets next; none if there is no such receiver. -/
def receive (hub : Hub) (name : String) : Option (Received Event) × Hub :=
  match hub.receivers.find? name with
  | none => (none, hub)
  | some receiver =>
    let (received, receiver, hub) := hub.receiveFrom receiver
    let hub := hub.addReceiver name receiver
    match received with
    | .empty => (some (if hub.isAlive receiver.sink then .empty else .closed), hub)
    | received => (some received, hub)

/-- Give up a receiver, and tell whether there was one. -/
def dropReceiver (hub : Hub) (name : String) : Bool × Hub :=
  match hub.receivers.find? name with
  | none => (false, hub)
  | some receiver =>
    let hub := { hub with receivers := hub.receivers.filterKeys (· ≠ name) }
    match hub.sink? receiver.sink with
    | some (.channel channel) => (true, hub.put receiver.sink (.channel channel.close))
    | _ => (true, hub)

/-- Give up the name of a sink, and tell whether there was one. -/
def dropSink (hub : Hub) (name : String) : Bool × Hub :=
  (hub.sinkNames.contains name, { hub with sinkNames := hub.sinkNames.filterKeys (· ≠ name) })

end Hub

end Canvas
