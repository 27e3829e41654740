import Canvas.Stream.Channel
import Canvas.Stream.Tracer

/-!
# Sinks

A sink consumes events one by one. Channels and broadcasts pass them on to their receivers, and
tracers keep what they tell about runs.
-/

namespace Canvas

/-- A consumer of events. -/
inductive Sink where
  | channel (channel : Channel Event)
  | broadcast (broadcast : Broadcast Event)
  | tracer (tracer : Tracer)

/-- The sink after it took an event. -/
def Sink.take (sink : Sink) (event : Event) : Sink :=
  match sink with
  | .channel c => .channel (c.send event)
  | .broadcast b => .broadcast (b.send event)
  | .tracer t => .tracer (t.record event)

end Canvas
