/-!
# Channels

A channel carries the result of one task to the collector and has room for one message. A sender that
finds it full has to wait, and a message to a receiver that has gone is lost. A receiver that looks
finds the message first, and learns that the sender has gone only when there is none.
-/

namespace WorldMap

/-- The message that waits in a channel, and which of its two ends are still held. -/
structure Channel (α : Type) where
  message : Option α
  hasSender : Bool
  hasReceiver : Bool

inductive Reception (α : Type)
  | message (a : α)
  | nothing
  | disconnected

namespace Channel

variable {α : Type}

def fresh : Channel α := ⟨none, true, true⟩

/-- The channel after `a` was sent; nothing if it is full and the sender has to wait. -/
def send? (c : Channel α) (a : α) : Option (Channel α) :=
  if !c.hasReceiver then some c
  else if c.message.isSome then none
  else some { c with message := some a }

def dropSender (c : Channel α) : Channel α := { c with hasSender := false }

/-- The receiver goes, and a message it has not taken goes with it. -/
def dropReceiver (c : Channel α) : Channel α := { c with message := none, hasReceiver := false }

def reception (c : Channel α) : Reception α :=
  match c.message with
  | some a => .message a
  | none => if c.hasSender then .nothing else .disconnected

def emptied (c : Channel α) : Channel α := { c with message := none }

end Channel

end WorldMap
